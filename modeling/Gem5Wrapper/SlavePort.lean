import Gem5Wrapper.BlockingPacketHelper
import Gem5Wrapper.MemoryManager
import Gem5Wrapper.Lib.TimedQueue

/-!
# `SCSlavePort` in timing mode

The code of the slave port: `recvTimingReq`, `pec`, `recvRespRetry` and `nb_transport_bw`,
over everything they read and write (`World`).

The other sides of a call answer through arguments. A target answers a BEGIN_REQ with a
`Reply`. gem5 answers `sendTimingResp` with yes or no, and from inside `sendTimingResp` and
`sendRetryReq` it may call `recvTimingReq` any number of times (`RespAnswer`, `PecAnswers`).

Every call of the port to the outside and every step of a transaction is recorded in `log`,
newest first, with the state of the port and of the event queue at that moment. The log names
transactions by the serial number of their `Gem5Extension`, since payloads are recycled. No
function reads it but `World.inFlight`, which describes gem5.
-/

namespace Gem5Wrapper

open FaultMachine
open Std (TreeMap)

/-! ## The state -/

/-- `Gem5SlaveTransactor_Multi`: a 32-bit number of sockets and their cores. -/
structure SlaveTransactorMulti where
  socketNum : ℕ
  socketNum_lt : socketNum < 2 ^ 32
  isUsingGem5Cache : Bool := false
  socketCoreMap : TreeMap ℕ (List ℤ) := ∅

/-- `SCSlavePort`. A bound `transactor` is named by a number. -/
structure SCSlavePort where
  blockingRequest : Option Ptr := none
  needToSendRequestRetry : Bool := false
  blockingResponse : Option Ptr := none
  usingGem5Cache : Bool := false
  transactor : Option ℕ := none
  transactorMulti : Option SlaveTransactorMulti
  helper : BlockingPacketHelper
  cpuPortMap : TreeMap String (List ℕ) := ∅
  socketMap : TreeMap ℕ (List ℕ) := ∅
  cpuVec : List String := []

/-- What happens to a transaction, and the calls of the port to the outside. -/
inductive Obs
  /-- `allocate` hands out payload `t` for transaction `k`, which carries `packet`. -/
  | allocate (k : ℕ) (t : Ptr) (packet : PacketPtr) (needsResponse : Bool)
  /-- `recvTimingReq` returns false because of transaction `k`. -/
  | refused (k : Option ℕ)
  /-- BEGIN_REQ of transaction `k` on socket `s`, with the answer of the target. -/
  | beginReq (k : ℕ) (t : Ptr) (s address delay : ℕ) (reply : Reply)
  /-- A target calls `nb_transport_bw` with a phase that takes effect at `tick`. -/
  | bw (k : ℕ) (ph : Phase) (tick : ℕ)
  /-- `pec` runs for a phase of transaction `k`. -/
  | pec (k : ℕ) (ph : Phase)
  /-- `sendRetryReq`, made because transaction `k` ended its request phase. -/
  | retryReq (k : ℕ)
  | makeResponse (k : ℕ) (packet : PacketPtr)
  /-- `sendTimingResp` for transaction `k`, with the answer of gem5. -/
  | resp (k : ℕ) (packet : PacketPtr) (accepted : Bool)
  | endResp (k : ℕ) (t : Ptr) (s address : ℕ)
  /-- The port releases payload `t` of transaction `k`. -/
  | release (k : ℕ) (t : Ptr)
  /-- gem5 calls `recvRespRetry`. -/
  | respRetry
  | targetAcquire (k : ℕ)
  | targetRelease (k : ℕ)
  deriving DecidableEq, Repr

/-- An observation, with the port and the event queue as they are when it is made. -/
structure Entry where
  obs : Obs
  port : SCSlavePort
  events : List PayloadEvent

/-- What the functions of the port read and write. `now` is the SystemC time, `curTick` the
time of gem5. -/
structure World where
  port : SCSlavePort
  mm : MemoryManager := {}
  payloads : Ptr → Payload := fun _ => {}
  packets : PacketPtr → Packet := fun _ => { cmd := {} }
  events : List PayloadEvent := []
  now : ℕ := 0
  curTick : ℕ := 0
  serial : ℕ := 0
  log : List Entry := []

namespace World

/-- The observations, newest first. -/
def trace (w : World) : List Obs := w.log.map Entry.obs

def emit (w : World) (o : Obs) : World := { w with log := ⟨o, w.port, w.events⟩ :: w.log }

/-- `Module::catchup`, as far as the time is concerned. -/
def catchup (w : World) : World := { w with curTick := w.now }

/-- The `CAUGHT_UP` assertion. -/
def caughtUp (w : World) : Except Fault Unit :=
  check (w.curTick = w.now) (.assert "CAUGHT_UP" "gem5::curTick() == sc_time_stamp().value()")

def setPayload (w : World) (t : Ptr) (p : Payload) : World :=
  { w with payloads := Function.update w.payloads t p }

def setPacket (w : World) (p : PacketPtr) (pkt : Packet) : World :=
  { w with packets := Function.update w.packets p pkt }

/-! ## Payloads -/

/-- `mm.allocate()`; a new payload is a `gp(this)`. -/
def allocate (w : World) : Ptr × World :=
  let w' := { w with mm := w.mm.allocate.2 }
  (w.mm.allocate.1, if w.mm.isNew then w'.setPayload w.mm.allocate.1 { hasMm := true } else w')

/-- `tlm_generic_payload::acquire`. -/
def acquire (w : World) (t : Ptr) : Except Fault World := do
  check ((w.payloads t).hasMm = true) (.scAssert "tlm_generic_payload::acquire" "m_mm != 0")
  pure (w.setPayload t { w.payloads t with refCount := (w.payloads t).refCount + 1 })

/-- `tlm_generic_payload::release`: the last reference gives the payload back to the pool. -/
def release (w : World) (t : Ptr) : Except Fault World := do
  let p : Payload := w.payloads t
  check (p.hasMm = true ∧ 0 < p.refCount)
    (.scAssert "tlm_generic_payload::release" "m_mm != 0 && m_ref_count > 0")
  let p : Payload := { p with refCount := p.refCount - 1 }
  if p.refCount = 0 then pure { w.setPayload t p.reset with mm := w.mm.free t }
  else pure (w.setPayload t p)

/-- `Gem5Extension::getExtension`. -/
def getExtension (w : World) (t : Ptr) : Except Fault Gem5Extension :=
  match (w.payloads t).extension with
  | some x => .ok x
  | none => .error (.scAssert "Gem5Extension::getExtension" "result!=NULL")

/-- The transaction that a payload carries. -/
def serialOf (w : World) (t : Ptr) : Option ℕ := (w.payloads t).extension.map Gem5Extension.serial

/-- `packet2payload`. -/
def packet2payload (w : World) (packet : PacketPtr) (t : Ptr) : Except Fault World := do
  let pkt := w.packets packet
  let p : Payload := { w.payloads t with address := pkt.addr }
  check (p.hasMm = true) (.scAssert "packet2payload" "trans.has_mm()")
  let p : Payload := { p with
    dataLength := pkt.size
    streamingWidth := pkt.size
    dataPtr := some pkt.dataPtr }
  if pkt.cmd.isRead then pure (w.setPayload t { p with command := .read })
  else if pkt.cmd.isInvalidate then pure (w.setPayload t p)
  else if pkt.cmd.isWrite then pure (w.setPayload t { p with command := .write })
  else throw (.fatal "SCSlavePort" "No R/W packet")

/-- `new Gem5Extension(packet)`, `setCoreID` and `set_auto_extension`. -/
def attach (w : World) (t : Ptr) (packet : PacketPtr) (socketId : ℕ) : World :=
  { w.setPayload t { w.payloads t with extension := some ⟨packet, socketId, w.serial⟩ } with
    serial := w.serial + 1 }

/-- `PayloadEvent::notify`. -/
def notify (w : World) (t : Ptr) (ph : Phase) (delay k : ℕ) : World :=
  { w with events :=
      TimedQueue.insert PayloadEvent.tick ⟨t, ph, w.now + delay, k⟩ w.events }

/-- The socket of the transactor that a call of `nb_transport_fw` goes through. -/
def nbTransportFw (w : World) (socketId : ℕ) (o : ℕ → Obs) : Except Fault World :=
  match w.port.transactor, w.port.transactorMulti with
  | some _, _ => .ok (w.emit (o 0))
  | none, some tr => do
    check (socketId < tr.socketNum) (.undefinedBehaviour "transactor_multi->sockets[socket_id]")
    pure (w.emit (o socketId))
  | none, none => .error (.fatal "SCSlavePort" "No binded transactor, please check")

end World

/-! ## Requests -/

/-- `SCSlavePort::getSocketId`. -/
def SCSlavePort.getSocketId (p : SCSlavePort) (id : ℕ) : ℕ :=
  match p.socketMap.toList.find? fun e => id ∈ e.2 with
  | some e => if p.usingGem5Cache then (e.1 + 1) % 2 ^ 32 else e.1
  | none => 0

/-- The socket that `recvTimingReq` sends a packet to: its cluster id, if it has one. -/
def SCSlavePort.targetSocket (p : SCSlavePort) (pkt : Packet) : ℕ :=
  let socketId := p.getSocketId pkt.requestorId
  match pkt.cpuClusterId with
  | some cluster => if cluster ≠ socketId then cluster else socketId
  | none => socketId

namespace World

/-- The end of `recvTimingReq`: what the port does with the answer to its BEGIN_REQ. -/
def handleReply (w : World) (t : Ptr) (socketId k : ℕ) (reply : Reply) : Except Fault World :=
  match reply.status with
  | .accepted => do
    check (reply.phase = .beginReq) (.scAssert "SCSlavePort::recvTimingReq" "phase == BEGIN_REQ")
    if socketId = 0 ∧ w.port.usingGem5Cache then
      pure { w with port := { w.port with blockingRequest := some t } }
    else do
      let h ← w.port.helper.updateBlockingMap socketId (some t) .request
      pure { w with port := { w.port with helper := h } }
  | .updated => do
    check (reply.phase = .endReq ∨ reply.phase = .beginResp)
      (.scAssert "SCSlavePort::recvTimingReq" "phase == END_REQ || phase == BEGIN_RESP")
    pure (w.notify t reply.phase reply.delay k)
  | .completed => do
    check (reply.phase = .endResp) (.scAssert "SCSlavePort::recvTimingReq" "phase == END_RESP")
    (w.emit (.release k t)).release t

/-- `SCSlavePort::recvTimingReq` once the request is not refused: send BEGIN_REQ. -/
def sendBeginReq (w : World) (packet : PacketPtr) (socketId : ℕ) (reply : Reply) :
    Except Fault World := do
  let pkt := w.packets packet
  let k := w.serial
  let t := w.allocate.1
  let w := w.allocate.2.emit (.allocate k t packet pkt.cmd.needsResponse)
  let w ← w.acquire t
  let w ← w.packet2payload packet t
  let w := w.attach t packet socketId
  let w := w.setPacket packet { pkt with payloadDelay := 0, headerDelay := 0 }
  let w ← w.nbTransportFw socketId fun s =>
    .beginReq k t s (w.payloads t).address pkt.payloadDelay reply
  w.handleReply t socketId k reply

/-- `SCSlavePort::recvTimingReq`. -/
def recvTimingReq (w : World) (packet : PacketPtr) (reply : Reply) :
    Except Fault (Bool × World) := do
  w.caughtUp
  let pkt := w.packets packet
  check (pkt.cacheResponding = false) (.panic "Should not see packets where cache is responding")
  check (pkt.cmd.isRead = true ∨ pkt.cmd.isWrite = true)
    (.panic "Should only see read and writes at TLM memory\n")
  check (w.port.needToSendRequestRetry = false)
    (.scAssert "SCSlavePort::recvTimingReq" "!needToSendRequestRetry")
  let socketId := w.port.targetSocket pkt
  if w.port.blockingRequest.isSome ∧ w.port.usingGem5Cache then
    pure (false, { w.emit (.refused (w.port.blockingRequest.bind w.serialOf)) with
      port := { w.port with needToSendRequestRetry := true } })
  else do
    let blocked ← w.port.helper.isBlockedPort socketId .request
    if blocked then do
      let h ← w.port.helper.updateRetryMap socketId true
      pure (false, { w.emit (.refused ((w.port.helper.request socketId).bind w.serialOf)) with
        port := { w.port with helper := h } })
    else do
      let w ← w.sendBeginReq packet socketId reply
      pure (true, w)

/-- gem5 still waits for the response to the packet, or the port still works on it. -/
def inFlight (w : World) (packet : PacketPtr) : Bool :=
  (List.range w.mm.numberOfAllocations).any fun t =>
    match (w.payloads t).extension with
    | some x => x.packet == packet && !w.trace.contains (.resp x.serial packet true) &&
        !w.trace.contains (.release x.serial t)
    | none => false

end World

/-- A request that gem5 makes: the packet object, what it holds, and the answer of the target if
the request gets that far. -/
structure Request where
  packet : PacketPtr
  content : Packet
  reply : Reply
  deriving DecidableEq, Repr

namespace World

/-- gem5 calls `recvTimingReq`, with a request packet that is not in flight. -/
def gem5Request (w : World) (r : Request) : Except Fault (Bool × World) := do
  check (r.content.cmd.isResponse = false) (.environment "sendTimingReq: not a request")
  check (w.inFlight r.packet = false) (.environment "sendTimingReq: packet in flight")
  (w.setPacket r.packet r.content).recvTimingReq r.packet r.reply

/-- The requests that gem5 makes from inside a call of the port. -/
def gem5Requests (w : World) : List Request → Except Fault World
  | [] => .ok w
  | r :: rs => do
    let (_, w) ← w.gem5Request r
    w.gem5Requests rs

end World

/-! ## Phases from the targets -/

/-- How gem5 answers `sendTimingResp`, and the requests it makes before it answers. -/
structure RespAnswer where
  accept : Bool := true
  requests : List Request := []
  deriving DecidableEq, Repr

/-- How gem5 answers the calls of one `pec`: the requests it makes from inside `sendRetryReq`,
and `sendTimingResp`. -/
structure PecAnswers where
  retry : List Request := []
  resp : RespAnswer := {}
  deriving DecidableEq, Repr

namespace World

/-- `sendRetryReq`. -/
def sendRetryReq (w : World) (k : ℕ) (requests : List Request) : Except Fault World :=
  (w.emit (.retryReq k)).gem5Requests requests

/-- `sendTimingResp`. -/
def sendTimingResp (w : World) (k : ℕ) (packet : PacketPtr) (a : RespAnswer) :
    Except Fault (Bool × World) := do
  let w ← (w.emit (.resp k packet a.accept)).gem5Requests a.requests
  pure (a.accept, w)

/-- The first `if` of `SCSlavePort::pec`: the request phase ends. -/
def pecRequest (w : World) (e : PayloadEvent) (requests : List Request) : Except Fault World :=
  if e.p = .endReq ∨
      (w.port.helper.isBlockingTrans e.t .request = true ∧ e.p = .beginResp) ∨
      (w.port.blockingRequest = some e.t ∧ e.p = .beginResp) then
    -- system port is blocked, send retry
    if w.port.blockingRequest = some e.t ∧ w.port.usingGem5Cache then
      let retry := w.port.needToSendRequestRetry
      let w := { w with port := { w.port with blockingRequest := none } }
      if retry then
        sendRetryReq { w with port := { w.port with needToSendRequestRetry := false } } e.txn
          requests
      else .ok w
    else do -- cpu port is blocked, send retry
      check (w.port.helper.isBlockingTrans e.t .request = true)
        (.scAssert "SCSlavePort::pec" "blk_pkt_helper->isBlockingTrans(&trans, pktType::Request)")
      let x ← w.getExtension e.t
      let h ← w.port.helper.updateBlockingMap x.coreId none .request
      let w := { w with port := { w.port with helper := h } }
      let retry ← w.port.helper.needToSendRequestRetry x.coreId
      if retry then do
        let h ← w.port.helper.updateRetryMap x.coreId false
        sendRetryReq { w with port := { w.port with helper := h } } e.txn requests
      else pure w
  else .ok w

/-- END_RESP and the release, as `pec` and `recvRespRetry` both do them. -/
def sendEndResp (w : World) (t : Ptr) (x : Gem5Extension) : Except Fault World := do
  let w ← w.nbTransportFw x.coreId fun s => .endResp x.serial t s (w.payloads t).address
  (w.emit (.release x.serial t)).release t

/-- The response of `pec`: make it if no gem5 model below has made it, send it if there is one,
and tell if gem5 refused it. -/
def sendResponse (w : World) (x : Gem5Extension) (a : RespAnswer) :
    Except Fault (Bool × World) := do
  let pkt := w.packets x.packet
  let w := if pkt.cmd.needsResponse then
      (w.setPacket x.packet pkt.makeResponse).emit (.makeResponse x.serial x.packet)
    else w
  if (w.packets x.packet).cmd.isResponse then do
    let (accepted, w) ← w.sendTimingResp x.serial x.packet a
    pure (!accepted, w)
  else pure (false, w)

/-- The assertion of `pec` that no response of the socket is blocked. -/
def assertNotBlocked (w : World) (coreId : ℕ) : Except Fault Unit :=
  if coreId = 0 ∧ w.port.usingGem5Cache then
    check (w.port.blockingResponse = none) (.scAssert "SCSlavePort::pec" "!blockingResponse")
  else do
    let blocking ← w.port.helper.getBlockingTrans coreId .response
    check (blocking = none) (.scAssert "SCSlavePort::pec"
      "!blk_pkt_helper->getBlockingTrans(core_id, pktType::Response)")

/-- Remember a response that gem5 refused. -/
def blockResponse (w : World) (t : Ptr) (coreId : ℕ) : Except Fault World :=
  if coreId = 0 ∧ w.port.usingGem5Cache then
    .ok { w with port := { w.port with blockingResponse := some t } }
  else do
    let h ← w.port.helper.updateBlockingMap coreId (some t) .response
    pure { w with port := { w.port with helper := h } }

/-- The second `if` of `SCSlavePort::pec`: the response phase begins. -/
def pecResponse (w : World) (e : PayloadEvent) (a : RespAnswer) : Except Fault World :=
  if e.p = .beginResp then do
    w.caughtUp
    let x ← w.getExtension e.t
    w.assertNotBlocked x.coreId
    let (needRetry, w) ← w.sendResponse x a
    if needRetry then w.blockResponse e.t x.coreId
    else w.sendEndResp e.t x
  else .ok w

/-- `SCSlavePort::pec`. -/
def pec (w : World) (e : PayloadEvent) (o : PecAnswers) : Except Fault World := do
  let w := w.emit (.pec e.txn e.p)
  let w ← w.pecRequest e o.retry
  w.pecResponse e o.resp

/-! ## Response retries -/

/-- The next response that `recvRespRetry` sends again, taken out of its slot. -/
def takeResponse (w : World) : Except Fault (Option (Ptr × Gem5Extension × World)) :=
  match w.port.blockingResponse, w.port.helper.getBlockingResponse with
  | some t, _ => do
    let w := { w with port := { w.port with blockingResponse := none } }
    let x ← w.getExtension t
    pure (some (t, x, w))
  | none, some t => do
    let x ← w.getExtension t
    let h ← w.port.helper.updateBlockingMap x.coreId none .response
    pure (some (t, x, { w with port := { w.port with helper := h } }))
  | none, none => pure none

/-- The loop of `SCSlavePort::recvRespRetry`, with the answers that gem5 gives to the responses
sent again, one for each round. -/
def respRetryLoop (w : World) : List RespAnswer → Except Fault World
  | [] => do
    match ← w.takeResponse with
    | none => pure w
    | some _ => throw (.environment "recvRespRetry: no answer to sendTimingResp")
  | a :: answers => do
    match ← w.takeResponse with
    | none => pure w
    | some (t, x, w) => do
      let (accepted, w) ← w.sendTimingResp x.serial x.packet a
      check (accepted = true) (.scAssert "SCSlavePort::recvRespRetry" "!need_retry")
      let w ← w.sendEndResp t x
      w.respRetryLoop answers

/-- `SCSlavePort::recvRespRetry`. -/
def recvRespRetry (w : World) (answers : List RespAnswer) : Except Fault World := do
  w.caughtUp
  (w.emit .respRetry).respRetryLoop answers

/-- `SCSlavePort::nb_transport_bw`, called for transaction `k`. -/
def nbTransportBw (w : World) (k : ℕ) (t : Ptr) (ph : Phase) (delay : ℕ) : World :=
  (w.emit (.bw k ph (w.now + delay))).notify t ph delay k

end World

end Gem5Wrapper
