import Gem5Wrapper.SlavePort

/-!
# Atomic and functional accesses

`recvAtomic` and `recvFunctional`, next to the timing requests of `SlavePort`. All three take a
payload from the pool, write the packet into it and hand it to a socket; `Path` names them.

A target is a function of the socket, the payload and the delay it is called with.

A payload that is taken from the pool again keeps the attributes that nothing resets, and
`packet2payload` does not write all of them. `handed_eq_iff` says for which histories of the pool
a target sees the same payload.
-/

namespace Gem5Wrapper

open FaultMachine

/-! ## The source -/

/-- `b_transport` of the targets behind the sockets: the payload and the delay they leave. -/
abbrev BTransport := ℕ → Payload → ℕ → Payload × ℕ

/-- `transport_dbg` of the targets: the payload they leave, and the number of bytes. -/
abbrev TransportDbg := ℕ → Payload → Payload × ℕ

namespace World

/-- The socket that a blocking or debug call goes through. -/
def socket (w : World) (socketId : ℕ) : Except Fault ℕ :=
  match w.port.transactor, w.port.transactorMulti with
  | some _, _ => .ok 0
  | none, some tr => do
    check (socketId < tr.socketNum) (.undefinedBehaviour "transactor_multi->sockets[socket_id]")
    pure socketId
  | none, none => .error (.fatal "SCSlavePort" "No binded transactor, please check")

/-- How each access begins: a payload is allocated and acquired, and gets the packet and its
extension. -/
def prepare (w : World) (packet : PacketPtr) (socketId : ℕ) : Except Fault (Ptr × World) := do
  let t := w.allocate.1
  let w ← w.allocate.2.acquire t
  let w ← w.packet2payload packet t
  pure (t, w.attach t packet socketId)

/-- A call of `b_transport`, with the payload it is handed. -/
def bTransport (w : World) (socketId : ℕ) (t : Ptr) (target : BTransport) :
    Except Fault (Option (ℕ × Payload) × ℕ × World) := do
  let s ← w.socket socketId
  let (p, delay) := target s (w.payloads t) 0
  pure (some (s, w.payloads t), delay, w.setPayload t p)

/-- The part of `recvAtomic` under "Execute b_transport". -/
def executeAtomic (w : World) (packet : PacketPtr) (socketId : ℕ) (t : Ptr) (target : BTransport) :
    Except Fault (Option (ℕ × Payload) × ℕ × World) :=
  let pkt := w.packets packet
  if pkt.cmd.isSwapReq then .error (.fatal "SCSlavePort" "SwapReq not supported")
  else if pkt.cmd.isRead then w.bTransport socketId t target
  else if pkt.cmd.isInvalidate then .ok (none, 0, w)
  else if pkt.cmd.isWrite then w.bTransport socketId t target
  else .error (.fatal "SCSlavePort" "Typo of request not supported")

/-- `SCSlavePort::recvAtomic`: the call of `b_transport`, if there is one, the delay, and the
world after it. -/
def recvAtomic (w : World) (packet : PacketPtr) (target : BTransport) :
    Except Fault (Option (ℕ × Payload) × ℕ × World) := do
  w.caughtUp
  let pkt := w.packets packet
  check (pkt.cacheResponding = false) (.panic "Should not see packets where cache is responding")
  check (pkt.cmd.isRead = true ∨ pkt.cmd.isWrite = true)
    (.panic "Should only see read and writes at TLM memory\n")
  let socketId := w.port.getSocketId pkt.requestorId
  let (t, w) ← w.prepare packet socketId
  let (call, delay, w) ← w.executeAtomic packet socketId t target
  let pkt := w.packets packet
  let w := if pkt.cmd.needsResponse then w.setPacket packet pkt.makeResponse else w
  let w ← w.release t
  pure (call, delay, w)

/-- `SCSlavePort::recvFunctional`: the call of `transport_dbg`, and the world after it. -/
def recvFunctional (w : World) (packet : PacketPtr) (target : TransportDbg) :
    Except Fault ((ℕ × Payload) × World) := do
  let socketId := w.port.getSocketId (w.packets packet).requestorId
  let (t, w) ← w.prepare packet socketId
  let s ← w.socket socketId
  let (p, bytes) := target s (w.payloads t)
  let call := (s, w.payloads t)
  let w := w.setPayload t p
  check (bytes = p.dataLength) (.fatal "SCSlavePort" "debug transport was not completed")
  let w ← w.release t
  pure (call, w)

end World

/-! ## What a target sees -/

/-- The three ways of a packet into the port. -/
inductive Path
  | atomic
  | functional
  | timing
  deriving DecidableEq, Repr

/-- The record of an allocation for the packet, which `sendBeginReq` leaves before it prepares the
payload. -/
def World.recorded (w : World) (packet : PacketPtr) : World :=
  w.emit (.allocate w.serial w.allocate.1 packet (w.packets packet).cmd.needsResponse)

/-- Payload `p` is what the access hands to the socket. An accepted timing request does that in
`sendBeginReq`, which starts with `prepare` (`sendBeginReq_eq`). -/
inductive Hands (w : World) (packet : PacketPtr) : Path → Payload → Prop
  | atomic {target : BTransport} {s delay : ℕ} {p : Payload} {w' : World} :
      w.recvAtomic packet target = .ok (some (s, p), delay, w') → Hands w packet .atomic p
  | functional {target : TransportDbg} {s : ℕ} {p : Payload} {w' : World} :
      w.recvFunctional packet target = .ok ((s, p), w') → Hands w packet .functional p
  | timing {reply : Reply} {t : Ptr} {w' w'' : World} :
      w.recvTimingReq packet reply = .ok (true, w'') →
      (w.recorded packet).prepare packet (w.port.targetSocket (w.packets packet)) = .ok (t, w') →
      Hands w packet .timing (w'.payloads t)

/-- The payload that the pool hands out next, as it was left. -/
def World.pooled (w : World) : Payload :=
  if w.mm.isNew then { hasMm := true } else w.payloads w.mm.allocate.1

/-- What `packet2payload` writes. -/
def Payload.fill (p : Payload) (pkt : Packet) : Payload :=
  { p with
    address := pkt.addr
    dataLength := pkt.size
    streamingWidth := pkt.size
    dataPtr := some pkt.dataPtr
    command := if pkt.cmd.isRead then .read else
      if pkt.cmd.isInvalidate then p.command else .write }

/-- Two payloads look the same to a target. -/
structure SameAttributes (p p' : Payload) : Prop where
  command : p.command = p'.command
  address : p.address = p'.address
  dataLength : p.dataLength = p'.dataLength
  streamingWidth : p.streamingWidth = p'.streamingWidth
  dataPtr : p.dataPtr = p'.dataPtr
  byteEnablePtr : p.byteEnablePtr = p'.byteEnablePtr
  responseStatus : p.responseStatus = p'.responseStatus

theorem SameAttributes.symm {p p' : Payload} (h : SameAttributes p p') : SameAttributes p' p :=
  ⟨h.1.symm, h.2.symm, h.3.symm, h.4.symm, h.5.symm, h.6.symm, h.7.symm⟩

theorem SameAttributes.trans {p p' p'' : Payload} (h : SameAttributes p p')
    (h' : SameAttributes p' p'') : SameAttributes p p'' :=
  ⟨h.1.trans h'.1, h.2.trans h'.2, h.3.trans h'.3, h.4.trans h'.4, h.5.trans h'.5,
    h.6.trans h'.6, h.7.trans h'.7⟩

/-- Two payloads agree on what `packet2payload` leaves as it is: the byte enables, the response
status and, for packets that invalidate and do not read, the command. -/
structure Agree (pkt : Packet) (p p' : Payload) : Prop where
  byteEnablePtr : p.byteEnablePtr = p'.byteEnablePtr
  responseStatus : p.responseStatus = p'.responseStatus
  command : pkt.cmd.isRead = false → pkt.cmd.isInvalidate = true → p.command = p'.command

/-- The worlds that earlier transactions leave: accesses of any packets, changes that the targets
make to payloads, and the `acquire` and `release` of whoever holds one. -/
inductive Earlier (w₀ : World) : World → Prop
  | start : Earlier w₀ w₀
  | packet {w : World} (packet : PacketPtr) (pkt : Packet) :
      Earlier w₀ w → Earlier w₀ (w.setPacket packet pkt)
  | recvAtomic {w w' : World} {packet : PacketPtr} {target : BTransport}
      {call : Option (ℕ × Payload)} {delay : ℕ} :
      Earlier w₀ w → w.recvAtomic packet target = .ok (call, delay, w') → Earlier w₀ w'
  | recvFunctional {w w' : World} {packet : PacketPtr} {target : TransportDbg}
      {call : ℕ × Payload} :
      Earlier w₀ w → w.recvFunctional packet target = .ok (call, w') → Earlier w₀ w'
  | recvTimingReq {w w' : World} {packet : PacketPtr} {reply : Reply} {accepted : Bool} :
      Earlier w₀ w → w.recvTimingReq packet reply = .ok (accepted, w') → Earlier w₀ w'
  | target {w : World} {t : Ptr} {p : Payload} :
      Earlier w₀ w → p.hasMm = (w.payloads t).hasMm → p.refCount = (w.payloads t).refCount →
      Earlier w₀ (w.setPayload t p)
  | acquire {w w' : World} {t : Ptr} : Earlier w₀ w → w.acquire t = .ok w' → Earlier w₀ w'
  | release {w w' : World} {t : Ptr} : Earlier w₀ w → w.release t = .ok w' → Earlier w₀ w'

variable {w : World} {packet : PacketPtr} {s : ℕ} {t : Ptr}

theorem World.allocate_payloads (w : World) :
    (w.allocate.2.payloads w.allocate.1) = w.pooled ∧ w.allocate.2.packets = w.packets := by
  unfold World.allocate World.pooled
  dsimp only
  split_ifs with h
  · simp [World.setPayload]
  · exact ⟨rfl, rfl⟩

/-- What `packet2payload` makes of the payload. -/
theorem World.packet2payload_same {w' : World} (h : w.packet2payload packet t = .ok w') :
    SameAttributes (w'.payloads t) ((w.payloads t).fill (w.packets packet)) := by
  simp only [World.packet2payload, bind_eq_ok, check_eq_ok] at h
  obtain ⟨-, -, h⟩ := h
  split_ifs at h with hr hi hw
  · cases h
    constructor <;> simp [World.setPayload, Payload.fill, hr]
  · cases h
    constructor <;> simp [World.setPayload, Payload.fill, hr, hi]
  · cases h
    constructor <;> simp [World.setPayload, Payload.fill, hr, hi]

/-- The payload that each access hands out is filled with the packet. -/
theorem World.prepare_same {w' : World} (h : w.prepare packet s = .ok (t, w')) :
    SameAttributes (w'.payloads t) (w.pooled.fill (w.packets packet)) := by
  obtain ⟨hpool, hpkt⟩ := w.allocate_payloads
  simp only [World.prepare, bind_eq_ok, pure_eq_ok, Except.ok.injEq, Prod.mk.injEq] at h
  obtain ⟨w₁, h₁, w₂, h₂, rfl, rfl⟩ := h
  simp only [World.acquire, bind_eq_ok, check_eq_ok, pure_eq_ok, Except.ok.injEq] at h₁
  obtain ⟨-, -, rfl⟩ := h₁
  have h₂ := World.packet2payload_same h₂
  simp only [World.setPayload, Function.update_self, hpool, hpkt] at h₂
  constructor <;>
    simp [World.attach, World.setPayload, Payload.fill, h₂.1, h₂.2, h₂.3, h₂.4, h₂.5, h₂.6, h₂.7]

theorem World.allocate_emit (w : World) (o : Obs) :
    (w.emit o).allocate = (w.allocate.1, w.allocate.2.emit o) := by
  by_cases h : w.mm.isNew <;> simp [World.allocate, World.emit, World.setPayload, h]

/-- `sendBeginReq` starts like the other accesses. -/
theorem World.sendBeginReq_eq (w : World) (packet : PacketPtr) (socketId : ℕ) (reply : Reply) :
    w.sendBeginReq packet socketId reply = (do
      let pkt := w.packets packet
      let (t, w') ← (w.recorded packet).prepare packet socketId
      let w' := w'.setPacket packet { pkt with payloadDelay := 0, headerDelay := 0 }
      let w' ← w'.nbTransportFw socketId fun s =>
        .beginReq w.serial t s (w'.payloads t).address pkt.payloadDelay reply
      w'.handleReply t socketId w.serial reply) := by
  simp only [World.sendBeginReq, World.recorded, World.prepare, World.allocate_emit,
    bind_assoc, pure_bind]

/-- `recvAtomic` calls `b_transport` with the payload it has prepared. -/
theorem World.executeAtomic_call {target : BTransport} {s' delay : ℕ} {p : Payload} {w' : World}
    (h : w.executeAtomic packet s t target = .ok (some (s', p), delay, w')) :
    p = w.payloads t := by
  simp only [World.executeAtomic, World.bTransport] at h
  split_ifs at h <;>
    simp only [bind_eq_ok, pure_eq_ok, Except.ok.injEq, Prod.mk.injEq, Option.some.injEq,
      reduceCtorEq, false_and] at h
  all_goals
    obtain ⟨-, -, ⟨-, rfl⟩, -⟩ := h
    rfl

/-- Each access hands out the payload that the pool has, filled with the packet. -/
theorem Hands.same {path : Path} {p : Payload} (h : Hands w packet path p) :
    SameAttributes p (w.pooled.fill (w.packets packet)) := by
  cases h with
  | atomic h =>
    simp only [World.recvAtomic, bind_eq_ok, pure_eq_ok, Except.ok.injEq, Prod.mk.injEq] at h
    obtain ⟨-, -, -, -, -, -, ⟨t, w₁⟩, hp, ⟨call, delay, w₂⟩, hcall, _, -, rfl, -, -⟩ := h
    rw [World.executeAtomic_call hcall]
    exact World.prepare_same hp
  | functional h =>
    simp only [World.recvFunctional, bind_eq_ok, pure_eq_ok, Except.ok.injEq, Prod.mk.injEq] at h
    obtain ⟨⟨t, w₁⟩, hp, _, -, -, -, _, -, ⟨-, rfl⟩, -⟩ := h
    exact World.prepare_same hp
  | timing _ hp => exact (World.prepare_same (w := w.recorded packet) hp :)

theorem Payload.fill_same_iff {p p' : Payload} {pkt : Packet} :
    SameAttributes (p.fill pkt) (p'.fill pkt) ↔ Agree pkt p p' := by
  constructor
  · intro h
    refine ⟨h.byteEnablePtr, h.responseStatus, fun hr hi => ?_⟩
    simpa [Payload.fill, hr, hi] using h.command
  · intro h
    refine ⟨?_, rfl, rfl, rfl, rfl, h.byteEnablePtr, h.responseStatus⟩
    cases hr : pkt.cmd.isRead <;> cases hi : pkt.cmd.isInvalidate <;>
      simp [Payload.fill, hr, hi, h.command]

/-! ## Two histories of the pool -/

/-- A port bound to a single-socket transactor, and a read of 64 bytes at address 4096. -/
def readWorld : World where
  port := { transactor := some 0, transactorMulti := none, helper := { socketNum := 1 } }
  packets := fun _ => {
    cmd := { isRead := true, needsResponse := true }, addr := 4096, size := 64, dataPtr := 7 }

/-- A target that does what is asked of it. -/
def okTarget : BTransport := fun _ p delay => ({ p with responseStatus := .ok }, delay)

/-- The world that an atomic access leaves. -/
def World.afterAtomic (w : World) (packet : PacketPtr) (target : BTransport) : World :=
  match w.recvAtomic packet target with
  | .ok (_, _, w') => w'
  | .error _ => w

/-- What a target sees of a read of `readWorld` on a payload with response status `r`. -/
def readPayload (r : ResponseStatus) (serial : ℕ) (packet : PacketPtr) : Payload where
  address := 4096
  command := .read
  dataLength := 64
  streamingWidth := 64
  dataPtr := some 7
  responseStatus := r
  extension := some ⟨packet, 0, serial⟩
  refCount := 1
  hasMm := true

theorem hands_first : Hands readWorld 1 .atomic (readPayload .incomplete 0 1) :=
  .atomic (s := 0) (show readWorld.recvAtomic 1 okTarget =
    .ok (some (0, _), 0, readWorld.afterAtomic 1 okTarget) from rfl)

theorem hands_second :
    Hands (readWorld.afterAtomic 0 okTarget) 1 .atomic (readPayload .ok 1 1) :=
  .atomic (s := 0) (show (readWorld.afterAtomic 0 okTarget).recvAtomic 1 okTarget =
    .ok (some (0, _), 0, (readWorld.afterAtomic 0 okTarget).afterAtomic 1 okTarget) from rfl)

/-- After two histories, a target sees the same payload for a packet exactly when the payloads that
the pool hands out agree on what `packet2payload` leaves as it is. -/
theorem handed_same_iff {w₁ w₂ : World} {path : Path} {p₁ p₂ : Payload}
    (h₁ : Hands w₁ packet path p₁) (h₂ : Hands w₂ packet path p₂)
    (hp : w₁.packets packet = w₂.packets packet) :
    SameAttributes p₁ p₂ ↔ Agree (w₁.packets packet) w₁.pooled w₂.pooled := by
  have h₂ := h₂.same
  rw [← hp] at h₂
  rw [← Payload.fill_same_iff]
  exact ⟨fun h => (h₁.same.symm.trans h).trans h₂, fun h => (h₁.same.trans h).trans h₂.symm⟩

/-- A read on a new payload, and the same read on the payload of an earlier one. -/
theorem handed_same_iff_readWorld : SameAttributes (readPayload .incomplete 0 1)
    (readPayload .ok 1 1) ↔ Agree (readWorld.packets 1) readWorld.pooled
      (readWorld.afterAtomic 0 okTarget).pooled :=
  handed_same_iff hands_first hands_second rfl

/-- The second read finds the response status that the first one left. -/
theorem not_handed_same : ¬ ∀ (w₀ w₁ w₂ : World) (packet : PacketPtr) (path : Path)
    (p₁ p₂ : Payload), w₀.mm = {} → Earlier w₀ w₁ → Earlier w₀ w₂ →
    w₁.packets packet = w₂.packets packet → Hands w₁ packet path p₁ → Hands w₂ packet path p₂ →
    SameAttributes p₁ p₂ := by
  intro h
  have hread : readWorld.recvAtomic 0 okTarget =
    .ok (some (0, readPayload .incomplete 0 0), 0, readWorld.afterAtomic 0 okTarget) := rfl
  have := (h readWorld readWorld (readWorld.afterAtomic 0 okTarget) 1 .atomic _ _ rfl .start
    (.recvAtomic .start hread) rfl hands_first hands_second).responseStatus
  simp [readPayload] at this

end Gem5Wrapper
