import Gem5Wrapper.SlavePort
import Gem5Wrapper.Socket

/-!
# A chain of ports

Hop `k` of a chain is a slave port, some SystemC components and a master port. It leads from gem5
world `k` to gem5 world `k + 1`: a packet that a component of world `k` sends to the slave port
comes out of the master port in world `k + 1` (pipe through), and its response goes back the same
way. The ports of all hops run the same code, and share the pool of payloads.

The code of the slave port is that of `SlavePort`, that of the master port is as in `MasterPort`,
with the whole stacks of sender states. Where a port calls gem5 (`sendTimingReq`,
`sendTimingResp`, `sendRetryReq`, `sendRetryResp`), anything can happen at the other ports before
the call returns. So the functions are cut there: a call under way is a field of the port
(`requesting`, `responding`, `serving`, `retrying`), and the rest of the function is an act of its
own. From inside a call to SystemC the ports are only asked to queue something; those acts come
after the call. Packets that a master port generates for other initiators are in `MasterPort`.

`home`, `holder`, `pushed`, `owners` and `trace` describe where the packets are, who has pushed
sender states, who has references to the payloads, and what has happened. The code reads none of
them. They say what the components of gem5 and SystemC can do.
-/

namespace Gem5Wrapper

open FaultMachine
open Function (update)

/-! ## The state -/

/-- A sender state. A `TlmSenderState` names a transaction; which port has pushed it, and the number
of the transaction, nobody reads. `component` is a sender state of a component of a gem5 world. -/
inductive SenderState
  | tlm (port : ℕ) (trans : Ptr) (serial : ℕ)
  | component (world tag : ℕ)
  deriving DecidableEq, Repr

/-- The stations of a packet in a hop. -/
inductive Place
  /-- Its BEGIN_REQ is on its way through the SystemC components. -/
  | forward
  /-- Its BEGIN_REQ is in the payload event queue of the master port. -/
  | queued
  /-- gem5 has refused it as a request. -/
  | pending
  /-- Its BEGIN_RESP is on its way back through the SystemC components. -/
  | backward
  /-- Its BEGIN_RESP is a scheduled event of the slave port. -/
  | scheduled
  /-- `pec` is called for its BEGIN_RESP. -/
  | serving
  /-- gem5 refuses it as a response. -/
  | sending
  /-- It is in a response slot of the slave port. -/
  | refused
  deriving DecidableEq, Repr

/-- Where a packet is: in a gem5 world, or in a hop, with a payload. -/
inductive Holder
  | gem5 (world : ℕ)
  | hop (k : ℕ) (place : Place) (trans : Ptr)
  deriving DecidableEq, Repr

/-- The references to a payload that a slave port has allocated: its own, those that the master port
takes when it queues BEGIN_REQ and when it sends the request, and those of SystemC components.
`accepted` says that gem5 has taken the packet as a request, `waiting` that the packet has not been
given back to gem5. -/
structure Owners where
  hop : ℕ := 0
  slave : Bool := false
  queued : Bool := false
  begun : Bool := false
  components : ℕ := 0
  accepted : Bool := false
  waiting : Bool := false
  deriving DecidableEq, Repr

/-- A call of `sendTimingReq` by `handleBeginReq`, or (`again`) by `recvReqRetry`. -/
structure Requesting where
  trans : Ptr
  packet : PacketPtr
  accepted : Bool
  again : Bool
  deriving DecidableEq, Repr

/-- A call of `sendTimingResp` by `pec`, or (`again`) by `recvRespRetry`. -/
structure Responding where
  trans : Ptr
  extension : Gem5Extension
  needRetry : Bool
  again : Bool
  deriving DecidableEq, Repr

/-- A slave port with its scheduled payload events and the calls it is in, and a master port with
its payload event queue and the calls it is in. -/
structure Hop where
  slave : SCSlavePort
  events : List PayloadEvent := []
  serving : Option PayloadEvent := none
  responding : Option Responding := none
  peq : List (PeqEvent Ptr) := []
  waitForRetry : Bool := false
  pendingRequest : Option Ptr := none
  pendingPacket : Option PacketPtr := none
  needToSendRetry : Bool := false
  responseInProgress : Bool := false
  requesting : Option Requesting := none
  retrying : Bool := false

namespace Chain

/-- What happens to packets. -/
inductive Obs
  /-- A component of world `k` makes a packet. -/
  | prepared (k : ℕ) (p : PacketPtr)
  /-- Slave port `k` takes a packet, with this stack, for transaction `n` with payload `x`. -/
  | request (k : ℕ) (x : Ptr) (n : ℕ) (p : PacketPtr) (stack : List SenderState)
  /-- Master port `k` pushes the `TlmSenderState` of transaction `n` with payload `x`. -/
  | begun (k : ℕ) (x : Ptr) (n : ℕ) (p : PacketPtr)
  /-- A response arrives at master port `k`, which takes or refuses it. -/
  | arrived (k : ℕ) (p : PacketPtr) (stack : List SenderState) (taken : Bool)
  /-- Master port `k` sends BEGIN_RESP with payload `x`, which carries transaction `n`. -/
  | beginResp (k : ℕ) (x : Ptr) (n : Option ℕ) (p : PacketPtr)
  | makeResponse (p : PacketPtr)
  /-- Slave port `k` sends the packet of transaction `n` back, with this stack. -/
  | resp (k : ℕ) (x : Ptr) (n : ℕ) (p : PacketPtr) (stack : List SenderState) (accepted : Bool)
  deriving DecidableEq, Repr

end Chain

/-- A chain. Components of world `j` have pushed `pushed j p` sender states on packet `p` that
they have not popped again. -/
structure Chain where
  length : ℕ
  hops : ℕ → Hop
  mm : MemoryManager := {}
  payloads : Ptr → Payload := fun _ => {}
  packets : PacketPtr → Packet := fun _ => { cmd := {} }
  senderStates : PacketPtr → List SenderState := fun _ => []
  serial : ℕ := 0
  now : ℕ := 0
  curTick : ℕ := 0
  home : PacketPtr → ℕ := fun _ => 0
  holder : PacketPtr → Holder := fun _ => .gem5 0
  pushed : PacketPtr → ℕ → ℕ := fun _ _ => 0
  owners : Ptr → Owners := fun _ => {}
  trace : List Chain.Obs := []

namespace Chain

/-- A chain, before anything happens. -/
def start (length : ℕ) (ports : ℕ → SCSlavePort) : Chain :=
  { length, hops := fun k => { slave := ports k } }

@[simps -fullyApplied] def emit (c : Chain) (o : Obs) : Chain := { c with trace := o :: c.trace }

@[simps -fullyApplied] def setHop (c : Chain) (k : ℕ) (h : Hop) : Chain :=
  { c with hops := update c.hops k h }

@[simps -fullyApplied] def setPacket (c : Chain) (p : PacketPtr) (pkt : Packet) : Chain :=
  { c with packets := update c.packets p pkt }

@[simps -fullyApplied]
def setStack (c : Chain) (p : PacketPtr) (stack : List SenderState) : Chain :=
  { c with senderStates := update c.senderStates p stack }

/-- The packet is somewhere else now. -/
@[simps -fullyApplied] def move (c : Chain) (p : PacketPtr) (h : Holder) : Chain :=
  { c with holder := update c.holder p h }

@[simps -fullyApplied] def setOwners (c : Chain) (x : Ptr) (o : Owners) : Chain :=
  { c with owners := update c.owners x o }

/-- The components of world `k` have `m` sender states of theirs on the packet. -/
@[simps -fullyApplied] def setPushed (c : Chain) (p : PacketPtr) (k m : ℕ) : Chain :=
  { c with pushed := update c.pushed p (update (c.pushed p) k m) }

/-- What the functions of slave port `k` read and write. -/
def world (c : Chain) (k : ℕ) : World where
  port := (c.hops k).slave
  mm := c.mm
  payloads := c.payloads
  packets := c.packets
  events := (c.hops k).events
  now := c.now
  curTick := c.curTick
  serial := c.serial

/-- What they have written. -/
@[simps -fullyApplied] def put (c : Chain) (k : ℕ) (w : World) : Chain :=
  { c with
    hops := update c.hops k { c.hops k with slave := w.port, events := w.events }
    mm := w.mm
    payloads := w.payloads
    packets := w.packets
    curTick := w.curTick
    serial := w.serial }

/-- The transaction that a payload carries. -/
def serialOf (c : Chain) (x : Ptr) : Option ℕ :=
  (c.payloads x).extension.map Gem5Extension.serial

/-- Where the packet of a payload is. -/
def whereIs (c : Chain) (x : Ptr) : Option Holder :=
  (c.payloads x).extension.map fun e => c.holder e.packet

/-- The packet of payload `x` has come to a station of hop `k`. -/
def moveTo (c : Chain) (k : ℕ) (place : Place) (x : Ptr) : Chain :=
  match (c.payloads x).extension with
  | some e => c.move e.packet (.hop k place x)
  | none => c

/-! ## The components of gem5 -/

/-- A component of world `k` makes a packet object, or uses one again. -/
def prepare (c : Chain) (k : ℕ) (p : PacketPtr) (pkt : Packet) (stack : List SenderState) :
    Except Fault Chain := do
  check (k ≤ c.length) (.environment "no such world")
  check (c.holder p = .gem5 (c.home p)) (.environment "packet in use")
  check (pkt.cmd.isResponse = false) (.environment "not a request")
  pure ({ ((c.setPacket p pkt).setStack p stack).move p (.gem5 k) with
    home := update c.home p k }.emit (.prepared k p))

/-- A component of world `k`, which has the packet, pushes a sender state. -/
def pushState (c : Chain) (k : ℕ) (p : PacketPtr) (tag : ℕ) : Except Fault Chain := do
  check (c.holder p = .gem5 k) (.environment "not a packet of this world")
  pure ((c.setStack p (.component k tag :: c.senderStates p)).setPushed p k (c.pushed p k + 1))

/-- A component of world `k` pops a sender state, whichever is on top. On a packet of another world
the components pop no more than they have pushed. -/
def popState (c : Chain) (k : ℕ) (p : PacketPtr) : Except Fault Chain := do
  check (c.holder p = .gem5 k) (.environment "not a packet of this world")
  check (c.home p = k ∨ 0 < c.pushed p k) (.environment "popSenderState: nothing pushed")
  match c.senderStates p with
  | [] => throw (.assert "Packet::popSenderState" "senderState != NULL")
  | _ :: rest => pure ((c.setStack p rest).setPushed p k (c.pushed p k - 1))

/-- `Packet::makeResponse`. -/
@[simp] def turn (c : Chain) (p : PacketPtr) : Chain :=
  (c.setPacket p (c.packets p).makeResponse).emit (.makeResponse p)

/-- A component of world `k` makes the response of a packet. -/
def respondTo (c : Chain) (k : ℕ) (p : PacketPtr) : Except Fault Chain := do
  check (c.holder p = .gem5 k) (.environment "not a packet of this world")
  check ((c.packets p).cmd.needsResponse = true) (.environment "makeResponse: needsResponse()")
  pure (c.turn p)

/-- A component of world `k` writes to a packet. -/
def annotate (c : Chain) (k : ℕ) (p : PacketPtr) (pkt : Packet) : Except Fault Chain := do
  check (c.holder p = .gem5 k) (.environment "not a packet of this world")
  check (pkt.cmd = (c.packets p).cmd) (.environment "the command of a packet stays")
  pure (c.setPacket p pkt)

/-- A component of world `k` deletes a packet that needs no response. -/
def consume (c : Chain) (k : ℕ) (p : PacketPtr) : Except Fault Chain := do
  check (c.holder p = .gem5 k) (.environment "not a packet of this world")
  check ((c.packets p).cmd.needsResponse = false ∧ (c.packets p).cmd.isResponse = false)
    (.environment "the packet needs a response")
  pure { c with home := update c.home p k }

/-! ## The slave ports -/

/-- A reply of a SystemC component that passes BEGIN_REQ on. -/
def PassesOn (r : Reply) : Prop :=
  (r.status = .accepted ∧ r.phase = .beginReq) ∨ (r.status = .updated ∧ r.phase = .endReq)

instance (r : Reply) : Decidable (PassesOn r) := inferInstanceAs (Decidable (_ ∨ _))

/-- A component of world `k` calls `recvTimingReq` of slave port `k`. -/
def recvTimingReq (c : Chain) (k : ℕ) (p : PacketPtr) (reply : Reply) : Except Fault Chain := do
  check (c.holder p = .gem5 k) (.environment "not a packet of this world")
  check ((c.packets p).cmd.isResponse = false) (.environment "sendTimingReq: not a request")
  check (PassesOn reply) (.environment "BEGIN_REQ: not passed on")
  let (taken, w) ← (c.world k).catchup.recvTimingReq p reply
  let x := c.mm.allocate.1
  if taken then
    pure ((((c.put k w).move p (.hop k .forward x)).setOwners x
      { hop := k, slave := true, waiting := true }).emit
        (.request k x c.serial p (c.senderStates p)))
  else pure (c.put k w)

/-- gem5 calls `pec` of slave port `k` for the first scheduled event; up to the end of the request
phase. -/
def pec (c : Chain) (k : ℕ) : Except Fault Chain :=
  match (c.hops k).events with
  | [] => throw (.environment "no event")
  | e :: q => do
    check (e.tick = c.now) (.environment "event not due")
    check ((c.hops k).serving = none) (.environment "in a call of pec")
    let w ← ({ (c.world k).catchup with events := q } : World).pecRequest e []
    let c := c.put k w
    if e.p = .beginResp then
      pure ((c.setHop k { c.hops k with serving := some e }).moveTo k .serving e.t)
    else pure c

/-- `sendTimingResp`. -/
def sendTimingResp (c : Chain) (k : ℕ) (x : Ptr) (e : Gem5Extension) (accept again : Bool) :
    Chain :=
  ((((c.setHop k { c.hops k with responding := some ⟨x, e, !accept, again⟩ }).move e.packet
    (if accept then .gem5 k else .hop k .sending x)).setOwners x
      { c.owners x with waiting := !accept }).emit
        (.resp k x e.serial e.packet (c.senderStates e.packet) accept))

/-- `pec` goes on with the response phase, up to the call of `sendTimingResp`. -/
def pecResponse (c : Chain) (k : ℕ) (accept : Bool) : Except Fault Chain :=
  match (c.hops k).serving with
  | none => throw (.environment "not in a call of pec")
  | some e => do
    check ((c.hops k).responding = none) (.environment "in a call of sendTimingResp")
    (c.world k).caughtUp
    let x ← (c.world k).getExtension e.t
    (c.world k).assertNotBlocked x.coreId
    let c := c.setHop k { c.hops k with serving := none }
    let c := if (c.packets x.packet).cmd.needsResponse then c.turn x.packet else c
    if (c.packets x.packet).cmd.isResponse then pure (c.sendTimingResp k e.t x accept false)
    else
      pure ((c.setHop k { c.hops k with responding := some ⟨e.t, x, false, false⟩ }).setOwners e.t
        { c.owners e.t with waiting := false })

/-- gem5 calls `recvRespRetry` of slave port `k`; one round of the loop, up to the call of
`sendTimingResp`. -/
def recvRespRetry (c : Chain) (k : ℕ) (accept : Bool) : Except Fault Chain := do
  check ((c.hops k).responding = none) (.environment "in a call of sendTimingResp")
  match ← (c.world k).catchup.takeResponse with
  | none => pure c
  | some (x, e, w) => pure ((c.put k w).sendTimingResp k x e accept true)

/-- `sendTimingResp` returns, and `pec` or the round of `recvRespRetry` goes on to its end. -/
def responded (c : Chain) (k : ℕ) : Except Fault Chain :=
  match (c.hops k).responding with
  | none => throw (.environment "not in a call of sendTimingResp")
  | some r =>
    let c := c.setHop k { c.hops k with responding := none }
    if r.needRetry then do
      check (r.again = false) (.scAssert "SCSlavePort::recvRespRetry" "!need_retry")
      let w ← (c.world k).blockResponse r.trans r.extension.coreId
      pure ((c.put k w).moveTo k .refused r.trans)
    else do
      let w ← (c.world k).sendEndResp r.trans r.extension
      pure ((c.put k w).setOwners r.trans { c.owners r.trans with slave := false })

/-- A SystemC component calls `nb_transport_bw` of slave port `k`. -/
def nbTransportBw (c : Chain) (k : ℕ) (x : Ptr) (ph : Phase) (delay : ℕ) : Except Fault Chain :=
  let c' := c.put k ((c.world k).nbTransportBw ((c.serialOf x).getD 0) x ph delay)
  match ph with
  | .endReq => pure c'
  | .beginResp => do
    check (c.whereIs x = some (.hop k .backward x)) (.environment "BEGIN_RESP: not passed on")
    pure (c'.moveTo k .scheduled x)
  | _ => throw (.environment "not a phase of a target")

/-! ## The master ports -/

/-- `set_response_status`. -/
@[simps -fullyApplied] def setStatus (c : Chain) (x : Ptr) (s : ResponseStatus) : Chain :=
  { c with payloads := update c.payloads x { c.payloads x with responseStatus := s } }

/-- `peq.notify`. -/
@[simp] def notify (c : Chain) (k : ℕ) (x : Ptr) (ph : Phase) (delay : ℕ) : Chain :=
  c.setHop k { c.hops k with peq := (c.hops k).peq ++ [⟨x, ph, c.now + delay⟩] }

/-- The phases that SystemC components pass on to master port `k`: BEGIN_REQ once, and END_RESP with
payloads that are not free. -/
def Passes (c : Chain) (k : ℕ) (x : Ptr) : Phase → Prop
  | .beginReq => c.whereIs x = some (.hop k .forward x)
  | .endResp => 0 < (c.payloads x).refCount
  | _ => False

instance (c : Chain) (k : ℕ) (x : Ptr) : (ph : Phase) → Decidable (c.Passes k x ph)
  | .beginReq => inferInstanceAs (Decidable (c.whereIs x = some (.hop k .forward x)))
  | .endResp => inferInstanceAs (Decidable (0 < (c.payloads x).refCount))
  | .endReq | .beginResp => .isFalse id

/-- A SystemC component calls `nb_transport_fw` of master port `k`. -/
def nbTransportFw (c : Chain) (k : ℕ) (x : Ptr) (ph : Phase) (delay : ℕ) : Except Fault Chain := do
  check (c.Passes k x ph) (.environment "nb_transport_fw: not passed on")
  let p := c.payloads x
  if p.byteEnablePtr ≠ none then pure (c.setStatus x .byteEnableError)
  else if p.streamingWidth < p.dataLength then pure (c.setStatus x .burstError)
  else do
    let w ← (c.world k).acquire x
    let c := (c.put k w).notify k x ph delay
    if ph = .beginReq then
      pure ((c.moveTo k .queued x).setOwners x { c.owners x with queued := true })
    else pure c

/-- `sendTimingReq`: gem5 world `k + 1` takes the packet, or refuses it. -/
def sendTimingReq (c : Chain) (k : ℕ) (x : Ptr) (p : PacketPtr) (accept again : Bool) : Chain :=
  let c := c.setHop k { c.hops k with requesting := some ⟨x, p, accept, again⟩ }
  if accept then
    ((c.move p (.gem5 (k + 1))).setPushed p (k + 1) 0).setOwners x
      { c.owners x with accepted := true }
  else c.move p (.hop k .pending x)

/-- `SCMasterPort::handleBeginReq`, up to the call of `sendTimingReq`. -/
def handleBeginReq (c : Chain) (k : ℕ) (x : Ptr) (accept : Bool) : Except Fault Chain := do
  check ((c.hops k).waitForRetry = false) (.scAssert "SCMasterPort::handleBeginReq" "!waitForRetry")
  check ((c.hops k).pendingRequest = none)
    (.scAssert "SCMasterPort::handleBeginReq" "pendingRequest == nullptr")
  check ((c.hops k).pendingPacket = none)
    (.scAssert "SCMasterPort::handleBeginReq" "pendingPacket == nullptr")
  let w ← (c.world k).acquire x
  let c := (c.put k w).setOwners x { c.owners x with begun := true }
  match (c.payloads x).extension with
  | none => throw (.environment "a transaction of another initiator")
  | some e =>
    -- pushSenderState
    let c := c.setStack e.packet (.tlm k x e.serial :: c.senderStates e.packet)
    pure ((c.emit (.begun k x e.serial e.packet)).sendTimingReq k x e.packet accept false)

/-- gem5 calls `recvReqRetry` of master port `k`; up to the call of `sendTimingReq`. -/
def recvReqRetry (c : Chain) (k : ℕ) (accept : Bool) : Except Fault Chain := do
  check ((c.hops k).requesting = none) (.environment "in a call of sendTimingReq")
  check ((c.hops k).waitForRetry = true) (.scAssert "SCMasterPort::recvReqRetry" "waitForRetry")
  match (c.hops k).pendingRequest, (c.hops k).pendingPacket with
  | none, _ => throw (.scAssert "SCMasterPort::recvReqRetry" "pendingRequest != nullptr")
  | _, none => throw (.scAssert "SCMasterPort::recvReqRetry" "pendingPacket != nullptr")
  | some x, some p => pure (c.sendTimingReq k x p accept true)

/-- `SCMasterPort::sendEndReq`, which the component answers with `status`, and the release after
it. -/
def sendEndReq (c : Chain) (k : ℕ) (x : Ptr) (status : SyncEnum) : Except Fault Chain := do
  check (status = .accepted) (.panic "Unexpected status after sending END_REQ")
  let w ← (c.world k).release x
  pure ((c.put k w).setOwners x { c.owners x with queued := false })

/-- `sendTimingReq` returns, and `handleBeginReq` or `recvReqRetry` goes on to its end. -/
def requested (c : Chain) (k : ℕ) (status : SyncEnum) : Except Fault Chain :=
  match (c.hops k).requesting with
  | none => throw (.environment "not in a call of sendTimingReq")
  | some r =>
    let h := { c.hops k with requesting := none }
    match r.accepted, r.again with
    | true, false => (c.setHop k h).sendEndReq k r.trans status
    | false, false => -- port is blocked -> wait for retry before sending END_REQ
      pure (c.setHop k { h with
        waitForRetry := true, pendingRequest := some r.trans, pendingPacket := some r.packet })
    | true, true => do
      let c ← (c.setHop k { h with waitForRetry := false, pendingPacket := none }).sendEndReq k
        r.trans status
      pure (c.setHop k { c.hops k with pendingRequest := none })
    | false, true => pure (c.setHop k h)

/-- `SCMasterPort::sendBeginResp` and the release after it. BEGIN_RESP goes its way, and the
component answers with `reply`. -/
def sendBeginResp (c : Chain) (k : ℕ) (x : Ptr) (p : PacketPtr) (reply : Reply) :
    Except Fault Chain := do
  let c := (c.setStatus x .ok).emit (.beginResp k x (c.serialOf x) p)
  check (reply.status = .accepted ∨ reply.status = .completed ∨
      (reply.status = .updated ∧ reply.phase = .endResp))
    (.panic "Unexpected status after sending BEGIN_RESP")
  let c := c.setHop k { c.hops k with responseInProgress := reply.status = .accepted }
  let w ← (c.world k).release x
  pure (((c.put k w).setOwners x { c.owners x with begun := false }).move p (.hop k .backward x))

/-- A component of world `k + 1`, in which the packet is a guest, calls `recvTimingResp` of master
port `k`. It has popped what it has pushed. -/
def recvTimingResp (c : Chain) (k : ℕ) (p : PacketPtr) (reply : Reply) : Except Fault Chain := do
  check (c.holder p = .gem5 (k + 1) ∧ c.home p ≠ k + 1)
    (.environment "sendTimingResp: not a packet of this port")
  check ((c.packets p).cmd.isResponse = true) (.environment "sendTimingResp: not a response")
  check (c.pushed p (k + 1) = 0) (.environment "sendTimingResp: sender states are left")
  let stack := c.senderStates p
  if (c.hops k).responseInProgress then do
    check ((c.hops k).needToSendRetry = false)
      (.scAssert "SCMasterPort::recvTimingResp" "!needToSendRetry")
    pure ((c.setHop k { c.hops k with needToSendRetry := true }).emit (.arrived k p stack false))
  else do
    check ((c.packets p).cmd.isResponse = true)
      (.scAssert "SCMasterPort::recvTimingResp" "pkt->isResponse()")
    let c := c.setPacket p { c.packets p with payloadDelay := 0, headerDelay := 0 }
    -- popSenderState, and the dynamic_cast, which looks at the type only
    match stack with
    | .tlm _ x _ :: rest =>
      ((c.setStack p rest).emit (.arrived k p stack true)).sendBeginResp k x p reply
    | _ => throw (.scAssert "SCMasterPort::recvTimingResp" "tlmSenderState != nullptr")

/-- `SCMasterPort::handleEndResp`, up to the call of `sendRetryResp`, with `checkTransaction`. -/
def handleEndResp (c : Chain) (k : ℕ) (x : Ptr) : Except Fault Chain := do
  check ((c.hops k).responseInProgress = true)
    (.scAssert "SCMasterPort::handleEndResp" "responseInProgress")
  check ((c.payloads x).responseStatus.isError = false)
    (.report "TLM-2" ("Transaction returned with error, response status = " ++
      (c.payloads x).responseStatus.string))
  pure (c.setHop k { c.hops k with
    responseInProgress := false, retrying := (c.hops k).needToSendRetry })

/-- `sendRetryResp` returns. -/
def retried (c : Chain) (k : ℕ) : Except Fault Chain := do
  check ((c.hops k).retrying = true) (.environment "not in a call of sendRetryResp")
  pure (c.setHop k { c.hops k with needToSendRetry := false, retrying := false })

/-- `SCMasterPort::peq_cb`, for an event that is due. -/
def peqCb (c : Chain) (k i : ℕ) (accept : Bool) : Except Fault Chain :=
  match (c.hops k).peq[i]? with
  | none => throw (.environment "no such event")
  | some e => do
    check (e.due = c.now) (.environment "event not due")
    check ((c.hops k).requesting = none ∧ (c.hops k).retrying = false)
      (.environment "in a call of gem5")
    -- catch up with SystemC time
    let c := { c.setHop k { c.hops k with peq := (c.hops k).peq.eraseIdx i } with curTick := c.now }
    match e.phase with
    | .beginReq => c.handleBeginReq k e.txn accept
    | .endResp => c.handleEndResp k e.txn
    | _ => throw (.panic "unimplemented phase in callback")

/-! ## Runs -/

/-- A SystemC component that keeps a payload acquires it. -/
def acquire (c : Chain) (k : ℕ) (x : Ptr) : Except Fault Chain := do
  check (0 < (c.payloads x).refCount) (.environment "acquire: a free payload")
  let w ← (c.world k).acquire x
  pure ((c.put k w).setOwners x
    { c.owners x with components := (c.owners x).components + 1 })

def release (c : Chain) (k : ℕ) (x : Ptr) : Except Fault Chain := do
  check (0 < (c.owners x).components) (.environment "release: not acquired")
  let w ← (c.world k).release x
  pure ((c.put k w).setOwners x
    { c.owners x with components := (c.owners x).components - 1 })

/-- What can happen in world `k`. -/
inductive Gem5Act
  | prepare (p : PacketPtr) (pkt : Packet) (stack : List SenderState)
  | push (p : PacketPtr) (tag : ℕ)
  | pop (p : PacketPtr)
  | makeResponse (p : PacketPtr)
  | annotate (p : PacketPtr) (pkt : Packet)
  | consume (p : PacketPtr)
  deriving DecidableEq, Repr

/-- What can happen in hop `k`. -/
inductive HopAct
  | recvTimingReq (p : PacketPtr) (reply : Reply)
  | pec
  | pecResponse (accept : Bool)
  | recvRespRetry (accept : Bool)
  | responded
  | nbTransportBw (x : Ptr) (ph : Phase) (delay : ℕ)
  | nbTransportFw (x : Ptr) (ph : Phase) (delay : ℕ)
  | peqCb (i : ℕ) (accept : Bool)
  | requested (status : SyncEnum)
  | recvReqRetry (accept : Bool)
  | recvTimingResp (p : PacketPtr) (reply : Reply)
  | retried
  | acquire (x : Ptr)
  | release (x : Ptr)
  deriving DecidableEq, Repr

/-- What can happen in a chain. -/
inductive Act
  | gem5 (k : ℕ) (a : Gem5Act)
  | hop (k : ℕ) (a : HopAct)
  /-- Time passes, but not beyond an event or a callback. -/
  | advance (d : ℕ)
  deriving DecidableEq, Repr

def stepGem5 (c : Chain) (k : ℕ) : Gem5Act → Except Fault Chain
  | .prepare p pkt stack => c.prepare k p pkt stack
  | .push p tag => c.pushState k p tag
  | .pop p => c.popState k p
  | .makeResponse p => c.respondTo k p
  | .annotate p pkt => c.annotate k p pkt
  | .consume p => c.consume k p

def stepHop (c : Chain) (k : ℕ) : HopAct → Except Fault Chain
  | .recvTimingReq p reply => c.recvTimingReq k p reply
  | .pec => c.pec k
  | .pecResponse accept => c.pecResponse k accept
  | .recvRespRetry accept => c.recvRespRetry k accept
  | .responded => c.responded k
  | .nbTransportBw x ph delay => c.nbTransportBw k x ph delay
  | .nbTransportFw x ph delay => c.nbTransportFw k x ph delay
  | .peqCb i accept => c.peqCb k i accept
  | .requested status => c.requested k status
  | .recvReqRetry accept => c.recvReqRetry k accept
  | .recvTimingResp p reply => c.recvTimingResp k p reply
  | .retried => c.retried k
  | .acquire x => c.acquire k x
  | .release x => c.release k x

def step (c : Chain) : Act → Except Fault Chain
  | .gem5 k a => c.stepGem5 k a
  | .hop k a => do
    check (k < c.length) (.environment "no such hop")
    c.stepHop k a
  | .advance d => do
    check (∀ k < c.length, (∀ e ∈ (c.hops k).events, c.now + d ≤ e.tick) ∧
      ∀ e ∈ (c.hops k).peq, c.now + d ≤ e.due) (.environment "event passed over")
    pure { c with now := c.now + d }

end Chain

end Gem5Wrapper
