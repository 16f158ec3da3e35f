import Gem5Wrapper.ErrorStatus
import Gem5Wrapper.MasterPort
import Gem5Wrapper.Lib.FreeList

/-!
# Platforms

The atomic and the functional accesses of whole platforms: slave ports, routers, buses and master
ports wired up to each other, with memories at the ends, in gem5 or in SystemC. These accesses are
nested calls. `recvAtomic` of a slave port calls `b_transport` of what is bound to the socket, which
may be a master port that calls `recvAtomic` of the next slave port, and so on.

Access and ErrorStatus have the same functions for one component with a target that is a function.
Here a target may do what the components behind it do: take payloads from the pool, make packets and
change the memory. `recvAtomic_eq` and the theorems next to it say that the functions agree.

All ports share the payloads and their pool, the packets and the time. They are kept in a `World`
whose own port is not used. The delays are small enough for `b_transport` of the master port to
convert them through a double.
-/

namespace Gem5Wrapper

open FaultMachine

/-- What a memory in SystemC reads of a payload. -/
structure Access where
  command : Command
  address : ℕ
  dataLength : ℕ
  dataPtr : Option ℕ
  deriving DecidableEq, Repr

def Payload.access (p : Payload) : Access := ⟨p.command, p.address, p.dataLength, p.dataPtr⟩

/-- What `packet2payload` writes for a packet that it has a command for. -/
def Packet.access (pkt : Packet) : Access :=
  ⟨if pkt.cmd.isRead then .read else .write, pkt.addr, pkt.size, some pkt.dataPtr⟩

/-- The memories, by their names in `τ`. The contents `μ` include the buffers of the packets. A
memory in SystemC sets the status of the payload and adds to the delay; one in gem5 makes the
response, if the packet needs one, and says how long it takes. -/
structure Memories (τ μ : Type) where
  bTransport : τ → Access → ℕ → μ → ResponseStatus × ℕ × μ
  transportDbg : τ → Access → μ → ℕ × μ
  recvAtomic : τ → Packet → μ → ℕ × μ
  recvFunctional : τ → Packet → μ → μ

mutual

/-- What an initiator socket is bound to. -/
inductive Component (τ : Type)
  | memory (a : τ)
  | txnRouter (r : TxnRouter Ptr) (mem bus : Component τ)
  | simpleBus (ports : List PortMapping) (targets : ℕ → Component τ)
  | masterPort (ownerId : ℕ) (below : Gem5Component τ)

/-- What a request port of gem5 is bound to. A crossbar sends a packet on by its address. -/
inductive Gem5Component (τ : Type)
  | memory (a : τ)
  | crossbar (latency : Packet → ℕ) (route : ℕ → Gem5Component τ)
  | slavePort (q : SCSlavePort) (sockets : ℕ → Component τ)

end

/-- The state of a platform. Packets are numbered in the order of their `new`. -/
structure Platform (μ : Type) where
  world : World
  newPacket : PacketPtr := 0
  memory : μ

namespace Platform

variable {τ μ : Type}

/-! ## The calls between the components -/

/-- `b_transport`, with a payload and a delay. -/
abbrev Blocking (μ : Type) := Platform μ → Ptr → ℕ → Except Fault (ℕ × Platform μ)

/-- `transport_dbg`, which returns the number of bytes. -/
abbrev Debug (μ : Type) := Platform μ → Ptr → Except Fault (ℕ × Platform μ)

/-- `sendAtomic`, which returns a number of ticks. -/
abbrev Atomic (μ : Type) := Platform μ → PacketPtr → Except Fault (ℕ × Platform μ)

/-- `sendFunctional`. -/
abbrev Functional (μ : Type) := Platform μ → PacketPtr → Except Fault (Platform μ)

/-- `set_response_status`. -/
def setStatus (s : Platform μ) (t : Ptr) (status : ResponseStatus) : Platform μ :=
  { s with world := s.world.setPayload t { s.world.payloads t with responseStatus := status } }

/-- `makeResponse`, if the packet needs a response. -/
def respond (s : Platform μ) (packet : PacketPtr) : Platform μ :=
  let pkt := s.world.packets packet
  if pkt.cmd.needsResponse then { s with world := s.world.setPacket packet pkt.makeResponse } else s

/-! ## The source -/

namespace TxnRouter

/-- `TxnRouter::b_transport`. -/
def bTransport (r : TxnRouter Ptr) (mem bus : Blocking μ) : Blocking μ := fun s t delay =>
  if r.toMem (s.world.payloads t).address then do
    let (delay, s) ← mem s t delay
    pure (delay, s.setStatus t .ok)
  else bus s t delay

/-- `TxnRouter::transport_dbg`. -/
def transportDbg (r : TxnRouter Ptr) (bus : Debug μ) : Debug μ := fun s t =>
  if r.toMem (s.world.payloads t).address then bus s t
  else .error (.fatal "TXN_ROUTER" "Address out of range. Please check")

end TxnRouter

namespace SimpleBus

/-- `SimpleBus::transport`. -/
def transport (ports : List PortMapping) (isocks : ℕ → Blocking μ) : Blocking μ := fun s t delay =>
  match Gem5Wrapper.SimpleBus.decode ports (s.world.payloads t).address with
  | none => .ok (delay, s.setStatus t .addressError)
  | some id => isocks id s t delay

/-- `SimpleBus::transport_dbg`. -/
def transportDbg (ports : List PortMapping) (isocks : ℕ → Debug μ) : Debug μ := fun s t =>
  match Gem5Wrapper.SimpleBus.decode ports (s.world.payloads t).address with
  | none => .ok (0, s.setStatus t .addressError)
  | some id => isocks id s t

end SimpleBus

namespace SCMasterPort

/-- The packet that `SCMasterPort::generatePacket` makes for an access. -/
def packetFor (ownerId : ℕ) (a : Access) : Packet :=
  { cmd := { isRead := a.command = .read, isWrite := a.command = .write, needsResponse := true }
    addr := a.address, size := a.dataLength, dataPtr := a.dataPtr.getD 0, requestorId := ownerId }

/-- `SCMasterPort::generatePacket`. -/
def generatePacket (ownerId : ℕ) (s : Platform μ) (t : Ptr) :
    Except Fault (PacketPtr × Platform μ) :=
  let p := s.world.payloads t
  if p.command = .ignore then
    .error (.fatal "SCMasterPort" "received transaction with unsupported command")
  else .ok (s.newPacket, { s with
    world := s.world.setPacket s.newPacket (packetFor ownerId p.access)
    newPacket := s.newPacket + 1 })

/-- The packet for a payload: if there is an extension, the transaction was initiated by the gem5
world and the original packet is piped through. -/
def obtainPacket (ownerId : ℕ) (s : Platform μ) (t : Ptr) : Except Fault (PacketPtr × Platform μ) :=
  match (s.world.payloads t).extension with
  | some x => .ok (x.packet, s)
  | none => generatePacket ownerId s t

/-- `SCMasterPort::b_transport`. Nobody names a generated packet after `destroyPacket`. -/
def bTransport (ownerId : ℕ) (sendAtomic : Atomic μ) : Blocking μ := fun s t delay => do
  let (packet, s) ← obtainPacket ownerId s t
  let (ticks, s) ← sendAtomic s packet
  let pkt := s.world.packets packet
  check (pkt.cmd.needsResponse = false ∨ pkt.cmd.isResponse = true)
    (.panic "Packet sending failed!\n")
  pure (delay + ticks, s.setStatus t .ok)

/-- `SCMasterPort::transport_dbg`. -/
def transportDbg (ownerId : ℕ) (sendFunctional : Functional μ) : Debug μ := fun s t => do
  let (packet, s) ← obtainPacket ownerId s t
  let s ← sendFunctional s packet
  pure ((s.world.payloads t).dataLength, s)

end SCMasterPort

namespace SCSlavePort

/-- `World.socket` of a port. -/
def socket (q : SCSlavePort) (s : Platform μ) (socketId : ℕ) : Except Fault ℕ :=
  { s.world with port := q }.socket socketId

/-- `World.prepare` for the pool of the platform. -/
def prepare (s : Platform μ) (packet : PacketPtr) (socketId : ℕ) :
    Except Fault (Ptr × Platform μ) := do
  let (t, w) ← s.world.prepare packet socketId
  pure (t, { s with world := w })

/-- `trans->release()`. -/
def release (s : Platform μ) (t : Ptr) : Except Fault (Platform μ) := do
  let w ← s.world.release t
  pure { s with world := w }

/-- The call of `b_transport`, with no delay yet. -/
def callTransport (q : SCSlavePort) (sockets : ℕ → Blocking μ) (s : Platform μ) (socketId : ℕ)
    (t : Ptr) : Except Fault (ℕ × Platform μ) := do
  let i ← socket q s socketId
  sockets i s t 0

/-- The part of `recvAtomic` under "Execute b_transport". -/
def executeAtomic (q : SCSlavePort) (sockets : ℕ → Blocking μ) (s : Platform μ) (packet : PacketPtr)
    (socketId : ℕ) (t : Ptr) : Except Fault (ℕ × Platform μ) :=
  let pkt := s.world.packets packet
  if pkt.cmd.isSwapReq then .error (.fatal "SCSlavePort" "SwapReq not supported")
  else if pkt.cmd.isRead then callTransport q sockets s socketId t
  else if pkt.cmd.isInvalidate then .ok (0, s)
  else if pkt.cmd.isWrite then callTransport q sockets s socketId t
  else .error (.fatal "SCSlavePort" "Typo of request not supported")

/-- `SCSlavePort::recvAtomic`. -/
def recvAtomic (q : SCSlavePort) (sockets : ℕ → Blocking μ) : Atomic μ := fun s packet => do
  s.world.caughtUp
  let pkt := s.world.packets packet
  check (pkt.cacheResponding = false) (.panic "Should not see packets where cache is responding")
  check (pkt.cmd.isRead = true ∨ pkt.cmd.isWrite = true)
    (.panic "Should only see read and writes at TLM memory\n")
  let socketId := q.getSocketId pkt.requestorId
  let (t, s) ← prepare s packet socketId
  let (delay, s) ← executeAtomic q sockets s packet socketId t
  let s ← release (s.respond packet) t
  pure (delay, s)

/-- `SCSlavePort::recvFunctional`. -/
def recvFunctional (q : SCSlavePort) (sockets : ℕ → Debug μ) : Functional μ := fun s packet => do
  let socketId := q.getSocketId (s.world.packets packet).requestorId
  let (t, s) ← prepare s packet socketId
  let i ← socket q s socketId
  let (bytes, s) ← sockets i s t
  check (bytes = (s.world.payloads t).dataLength)
    (.fatal "SCSlavePort" "debug transport was not completed")
  release s t

end SCSlavePort

end Platform

/-! ## Platforms at work -/

open Platform

variable {τ μ : Type}

mutual

def Component.bTransport (m : Memories τ μ) : Component τ → Blocking μ
  | .memory a => fun s t delay =>
    let (status, delay, memory) := m.bTransport a (s.world.payloads t).access delay s.memory
    .ok (delay, { s.setStatus t status with memory })
  | .txnRouter r mem bus => Platform.TxnRouter.bTransport r (mem.bTransport m) (bus.bTransport m)
  | .simpleBus ports targets =>
    Platform.SimpleBus.transport ports fun id => (targets id).bTransport m
  | .masterPort ownerId below => Platform.SCMasterPort.bTransport ownerId (below.recvAtomic m)

def Gem5Component.recvAtomic (m : Memories τ μ) : Gem5Component τ → Atomic μ
  | .memory a => fun s packet =>
    let (ticks, memory) := m.recvAtomic a (s.world.packets packet) s.memory
    .ok (ticks, { s.respond packet with memory })
  | .crossbar latency route => fun s packet => do
    let pkt := s.world.packets packet
    let (ticks, s) ← (route pkt.addr).recvAtomic m s packet
    pure (ticks + latency pkt, s)
  | .slavePort q sockets => Platform.SCSlavePort.recvAtomic q fun i => (sockets i).bTransport m

end

mutual

def Component.transportDbg (m : Memories τ μ) : Component τ → Debug μ
  | .memory a => fun s t =>
    let (bytes, memory) := m.transportDbg a (s.world.payloads t).access s.memory
    .ok (bytes, { s with memory })
  | .txnRouter r _ bus => Platform.TxnRouter.transportDbg r (bus.transportDbg m)
  | .simpleBus ports targets =>
    Platform.SimpleBus.transportDbg ports fun id => (targets id).transportDbg m
  | .masterPort ownerId below => Platform.SCMasterPort.transportDbg ownerId (below.recvFunctional m)

def Gem5Component.recvFunctional (m : Memories τ μ) : Gem5Component τ → Functional μ
  | .memory a => fun s packet =>
    .ok { s.respond packet with memory := m.recvFunctional a (s.world.packets packet) s.memory }
  | .crossbar _ route => fun s packet =>
    (route (s.world.packets packet).addr).recvFunctional m s packet
  | .slavePort q sockets =>
    Platform.SCSlavePort.recvFunctional q fun i => (sockets i).transportDbg m

end

end Gem5Wrapper
