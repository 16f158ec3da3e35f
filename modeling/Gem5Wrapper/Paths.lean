import Gem5Wrapper.Calls

/-!
# The three ways into the port

What socket a packet leaves by on each `Path`, which core id its extension gets, and what the
command of its payload says.

`recvTimingReq` prefers the cluster id of a packet to the socket of its requestor; the other two
do not look at it. `recvAtomic` rejects SwapReq; the other two do not.
-/

namespace Gem5Wrapper

open FaultMachine
open Std (TreeMap)

/-! ## Sockets -/

/-- The access sends the packet to a socket, with a core id in its extension. -/
inductive Leaves (w : World) (packet : PacketPtr) : Path → ℕ → ℕ → Prop
  | atomic {target : BTransport} {s delay : ℕ} {p : Payload} {x : Gem5Extension} {w' : World} :
      w.recvAtomic packet target = .ok (some (s, p), delay, w') → p.extension = some x →
      Leaves w packet .atomic s x.coreId
  | functional {target : TransportDbg} {s : ℕ} {p : Payload} {x : Gem5Extension} {w' : World} :
      w.recvFunctional packet target = .ok ((s, p), w') → p.extension = some x →
      Leaves w packet .functional s x.coreId
  | timing {reply reply' : Reply} {k s address delay : ℕ} {t t' : Ptr} {x : Gem5Extension}
      {w' w'' : World} {l : List Obs} :
      w.recvTimingReq packet reply = .ok (true, w'') →
      (w.recorded packet).prepare packet (w.port.targetSocket (w.packets packet)) = .ok (t, w') →
      (w'.payloads t).extension = some x → w''.trace = l ++ w.trace →
      .beginReq k t' s address delay reply' ∈ l → Leaves w packet .timing s x.coreId

/-- The socket id that the access computes for a packet. -/
def SCSlavePort.socketId (p : SCSlavePort) (pkt : Packet) : Path → ℕ
  | .timing => p.targetSocket pkt
  | _ => p.getSocketId pkt.requestorId

variable {w w' : World} {packet : PacketPtr} {s c : ℕ} {t : Ptr} {path : Path}

/-- The call of `b_transport` in `recvAtomic`. -/
theorem World.executeAtomic_socket {target : BTransport} {s' delay : ℕ} {p : Payload}
    (h : w.executeAtomic packet s t target = .ok (some (s', p), delay, w')) :
    w.socket s = .ok s' ∧ p = w.payloads t := by
  refine ⟨?_, World.executeAtomic_call h⟩
  simp only [World.executeAtomic, World.bTransport] at h
  split_ifs at h <;>
    simp only [bind_eq_ok, pure_eq_ok, Except.ok.injEq, Prod.mk.injEq, Option.some.injEq,
      reduceCtorEq, false_and] at h
  all_goals
    obtain ⟨_, hs, ⟨rfl, -⟩, -⟩ := h
    exact hs

/-- A packet leaves by the socket that the path computes for it, and that socket is the core id. -/
theorem Leaves.eq (h : Leaves w packet path s c) :
    c = w.port.socketId (w.packets packet) path ∧ w.socket c = .ok s := by
  cases h with
  | atomic h hx =>
    simp only [World.recvAtomic, bind_eq_ok, pure_eq_ok, Except.ok.injEq, Prod.mk.injEq] at h
    obtain ⟨-, -, -, -, -, -, ⟨t, w₁⟩, hp, ⟨call, delay, w₂⟩, hcall, _, -, rfl, -, -⟩ := h
    obtain ⟨hport, -, -, hx'⟩ := World.prepare_port hp
    obtain ⟨hs, rfl⟩ := World.executeAtomic_socket hcall
    obtain rfl := Option.some.inj (hx.symm.trans hx')
    exact ⟨rfl, (World.socket_congr hport _).symm.trans hs⟩
  | functional h hx =>
    simp only [World.recvFunctional, bind_eq_ok, pure_eq_ok, Except.ok.injEq, Prod.mk.injEq] at h
    obtain ⟨⟨t, w₁⟩, hp, s', hs, -, -, _, -, ⟨rfl, rfl⟩, -⟩ := h
    obtain ⟨hport, -, -, hx'⟩ := World.prepare_port hp
    obtain rfl := Option.some.inj (hx.symm.trans hx')
    exact ⟨rfl, (World.socket_congr hport _).symm.trans hs⟩
  | @timing reply _ _ _ _ _ _ _ _ _ _ l h hp hx hl ho =>
    obtain ⟨-, -, -, hx'⟩ := World.prepare_port hp
    obtain rfl := Option.some.inj (hx.symm.trans hx')
    refine ⟨rfl, ?_⟩
    obtain ⟨t₁, a, d, s', l', hs, hrel, hl'⟩ :=
      World.sendBeginReq_trace (World.sendBeginReq_of_accepted h)
    have hl : l = l' ++ [.beginReq w.serial t₁ s' a d reply, .allocate w.serial
        w.allocate.1 packet (w.packets packet).cmd.needsResponse] :=
      List.append_cancel_right (hl.symm.trans (hl'.trans (by simp)))
    have heq : s = s' := by
      rw [hl] at ho
      simp only [List.mem_append, List.mem_cons, List.not_mem_nil, or_false, reduceCtorEq] at ho
      obtain ho | ho := ho
      · cases hrel _ ho
      · exact (Obs.beginReq.inj ho).2.2.1
    exact heq ▸ hs

/-! ### One packet, one socket -/

/-- The parts of a port that `bindToTransactor` sets up and nothing else changes. -/
structure SCSlavePort.SameSockets (p q : SCSlavePort) : Prop where
  transactor : p.transactor = q.transactor
  transactorMulti : p.transactorMulti = q.transactorMulti
  usingGem5Cache : p.usingGem5Cache = q.usingGem5Cache
  socketMap : p.socketMap = q.socketMap

/-- Of the same requestor and for the same cluster. -/
def Packet.SameSource (pkt pkt' : Packet) : Prop :=
  pkt.requestorId = pkt'.requestorId ∧ pkt.cpuClusterId = pkt'.cpuClusterId

/-- The packet has no cluster id, or that of the socket of its requestor, which is the first socket
if the transactor has only one. -/
def SCSlavePort.ClusterIsSocket (p : SCSlavePort) (pkt : Packet) : Prop :=
  (∀ cluster ∈ pkt.cpuClusterId, cluster = p.getSocketId pkt.requestorId) ∧
    (p.transactor.isSome → p.getSocketId pkt.requestorId = 0)

variable {q : SCSlavePort} {pkt : Packet}

/-- The first socket if there is only one, and else the socket that the path computes. -/
theorem Leaves.socketId_eq (h : Leaves w packet path s c) (hq : w.port.SameSockets q)
    (hpkt : (w.packets packet).SameSource pkt) :
    c = q.socketId pkt path ∧ s = if q.transactor.isSome then 0 else q.socketId pkt path := by
  obtain ⟨rfl, hs⟩ := h.eq
  have hid : ∀ id, w.port.getSocketId id = q.getSocketId id := fun id => by
    simp only [SCSlavePort.getSocketId, hq.usingGem5Cache, hq.socketMap]
  have hc : w.port.socketId (w.packets packet) path = q.socketId pkt path := by
    cases path <;>
      simp only [SCSlavePort.socketId, SCSlavePort.targetSocket, hpkt.1, hpkt.2, hid]
  have hs := World.socket_ok hs
  rw [hq.transactor] at hs
  exact ⟨hc, by rw [hs, hc]⟩

/-- A timing request that is accepted hands out a payload. -/
theorem hands_of_accepted {reply : Reply} (h : w.recvTimingReq packet reply = .ok (true, w')) :
    ∃ p, Hands w packet .timing p := by
  have hb := World.sendBeginReq_of_accepted h
  rw [World.sendBeginReq_eq] at hb
  simp only [bind_eq_ok] at hb
  obtain ⟨⟨t, w₁⟩, hp, -⟩ := hb
  exact ⟨_, .timing h hp⟩

/-- An access that hands out a payload does so through a socket. -/
theorem Hands.leaves {p : Payload} (h : Hands w packet path p) :
    ∃ s c, Leaves w packet path s c := by
  cases h with
  | atomic h =>
    have h' := h
    simp only [World.recvAtomic, bind_eq_ok, pure_eq_ok, Except.ok.injEq, Prod.mk.injEq] at h'
    obtain ⟨-, -, -, -, -, -, ⟨t, w₁⟩, hp, ⟨call, delay, w₂⟩, hcall, _, -, rfl, -, -⟩ := h'
    obtain ⟨-, rfl⟩ := World.executeAtomic_socket hcall
    exact ⟨_, _, .atomic h (World.prepare_port hp).2.2.2⟩
  | functional h =>
    have h' := h
    simp only [World.recvFunctional, bind_eq_ok, pure_eq_ok, Except.ok.injEq, Prod.mk.injEq] at h'
    obtain ⟨⟨t, w₁⟩, hp, s', -, -, -, _, -, ⟨rfl, rfl⟩, -⟩ := h'
    exact ⟨_, _, .functional h (World.prepare_port hp).2.2.2⟩
  | timing h hp =>
    obtain ⟨t, a, d, s, l, -, -, htr⟩ :=
      World.sendBeginReq_trace (World.sendBeginReq_of_accepted h)
    exact ⟨s, _, .timing h hp (World.prepare_port hp).2.2.2
      (htr.trans (List.append_assoc l [_, _] w.trace).symm) (List.mem_append_right _ (.head _))⟩

/-- A port with two sockets, and reads of requestor 0 for a cluster. -/
def clusterWorld (cluster : Option ℕ) : World :=
  { World.start twoSocketPort with
    packets := fun _ =>
      { cmd := { isRead := true, needsResponse := true }, cpuClusterId := cluster } }

theorem hands_clusterWorld {cluster : Option ℕ} (hc : cluster = none ∨ cluster = some 1)
    (path : Path) : ∃ p, Hands (clusterWorld cluster) 0 path p := by
  cases path with
  | atomic =>
    have ⟨s, p, d, w, h⟩ : ∃ s p d w, (clusterWorld cluster).recvAtomic 0 okTarget =
      .ok (some (s, p), d, w) := ⟨_, _, _, _, rfl⟩
    exact ⟨p, .atomic h⟩
  | functional =>
    have ⟨s, p, w, h⟩ : ∃ s p w, (clusterWorld cluster).recvFunctional 0
      (fun _ p => (p, p.dataLength)) = .ok ((s, p), w) := ⟨_, _, _, rfl⟩
    exact ⟨p, .functional h⟩
  | timing =>
    have ⟨w, h⟩ : ∃ w, (clusterWorld cluster).recvTimingReq 0 ⟨.accepted, .beginReq, 0⟩ =
      .ok (true, w) := by
      obtain rfl | rfl := hc <;> exact ⟨_, rfl⟩
    exact hands_of_accepted h

/-- The three accesses send the packets of a source to the same socket, with the id of that socket,
if and only if their cluster id, where they have one, is the socket of their requestor. -/
theorem oneSocket_iff {world : Path → World} {packet : Path → PacketPtr} {s c : Path → ℕ}
    (hq : ∀ path, (world path).port.SameSockets q)
    (hpkt : ∀ path, ((world path).packets (packet path)).SameSource pkt)
    (h : ∀ path, Leaves (world path) (packet path) path (s path) (c path)) :
    (∃ s', ∀ path, s path = s' ∧ c path = s') ↔ q.ClusterIsSocket pkt := by
  have hc := fun path => ((h path).socketId_eq (hq path) (hpkt path)).1
  have hs := fun path => ((h path).socketId_eq (hq path) (hpkt path)).2
  have htarget : q.targetSocket pkt = q.getSocketId pkt.requestorId ↔
      ∀ cluster ∈ pkt.cpuClusterId, cluster = q.getSocketId pkt.requestorId := by
    unfold SCSlavePort.targetSocket
    cases pkt.cpuClusterId with
    | none => simp
    | some cluster =>
      by_cases hcl : cluster = q.getSocketId pkt.requestorId <;> simp [hcl]
  constructor
  · rintro ⟨s', hs'⟩
    have hid : ∀ path, q.socketId pkt path = s' := fun path => (hc path).symm.trans (hs' path).2
    refine ⟨htarget.1 ((hid .timing).trans (hid .atomic).symm), fun ht => ?_⟩
    have h0 : s .atomic = 0 := by rw [hs, if_pos ht]
    exact (hid .atomic).trans ((hs' .atomic).1.symm.trans h0)
  · rintro ⟨hcl, h0⟩
    have hid : ∀ path, q.socketId pkt path = q.getSocketId pkt.requestorId := by
      intro path
      cases path with
      | timing => exact htarget.2 hcl
      | _ => rfl
    refine ⟨q.getSocketId pkt.requestorId, fun path => ⟨?_, (hc path).trans (hid path)⟩⟩
    rw [hs, hid]
    split_ifs with ht
    · exact (h0 ht).symm
    · rfl

/-- Reads without a cluster id. -/
theorem oneSocket_clusterWorld : ∃ s c : Path → ℕ,
    (∀ path, Leaves (clusterWorld none) 0 path (s path) (c path)) ∧
      ((∃ s', ∀ path, s path = s' ∧ c path = s') ↔
        twoSocketPort.ClusterIsSocket ((clusterWorld none).packets 0)) := by
  have h := fun path => (hands_clusterWorld (.inl rfl) path).elim fun _ h => h.leaves
  choose s c h using h
  have hq : ∀ _ : Path, (clusterWorld none).port.SameSockets twoSocketPort :=
    fun _ => ⟨rfl, rfl, rfl, rfl⟩
  have hpkt : ∀ _ : Path,
      ((clusterWorld none).packets 0).SameSource ((clusterWorld none).packets 0) :=
    fun _ => ⟨rfl, rfl⟩
  exact ⟨s, c, h, oneSocket_iff hq hpkt h⟩

/-- An atomic read of requestor 0 goes to socket 0, and its timing read for cluster 1 to
socket 1. -/
theorem not_oneSocket : ¬ ∀ (w : World) (packet : PacketPtr) (s c : Path → ℕ),
    (∀ path, Leaves w packet path (s path) (c path)) → ∃ s', ∀ path, s path = s' ∧ c path = s' := by
  intro h
  have hl := fun path => (hands_clusterWorld (.inr rfl) path).elim fun _ h => h.leaves
  choose s c hl using hl
  obtain ⟨s', hs'⟩ := h _ _ s c hl
  have hc : c .atomic = c .timing := (hs' .atomic).2.trans (hs' .timing).2.symm
  rw [(hl .atomic).eq.1, (hl .timing).eq.1] at hc
  exact absurd hc (by decide)

/-! ## Commands -/

/-- The command of a payload says what the packet does: read only, or write only. -/
structure StatesEffect (p : Payload) (cmd : MemCmd) : Prop where
  read : p.command = .read ↔ cmd.isRead = true ∧ cmd.isWrite = false
  write : p.command = .write ↔ cmd.isWrite = true ∧ cmd.isRead = false
  notBoth : ¬ (cmd.isRead = true ∧ cmd.isWrite = true)

/-- The packet does not both read and write, and if `packet2payload` leaves the command of the
pooled payload `p` as it is, then that is the right one. -/
structure PlainCommand (p : Payload) (cmd : MemCmd) : Prop where
  notBoth : ¬ (cmd.isRead = true ∧ cmd.isWrite = true)
  stale : cmd.isRead = false → cmd.isInvalidate = true →
    p.command ≠ .read ∧ (p.command = .write ↔ cmd.isWrite = true)

/-- `packet2payload` lets only reads, writes and invalidations pass. -/
theorem World.prepare_effect (h : w.prepare packet s = .ok (t, w')) :
    (w.packets packet).cmd.isRead = true ∨ (w.packets packet).cmd.isInvalidate = true ∨
      (w.packets packet).cmd.isWrite = true := by
  obtain ⟨-, hpkt⟩ := w.allocate_payloads
  simp only [World.prepare, World.acquire, World.packet2payload, bind_eq_ok, check_eq_ok,
    pure_eq_ok, Except.ok.injEq, Prod.mk.injEq] at h
  obtain ⟨_, ⟨-, -, rfl⟩, w₂, ⟨-, -, h₂⟩, -⟩ := h
  simp only [World.setPayload, hpkt] at h₂
  split_ifs at h₂ with hr hi hw
  · exact .inl hr
  · exact .inr (.inl hi)
  · exact .inr (.inr hw)

/-- The packets of payloads that are handed out read, invalidate or write. -/
theorem Hands.effect {p : Payload} (h : Hands w packet path p) :
    (w.packets packet).cmd.isRead = true ∨ (w.packets packet).cmd.isInvalidate = true ∨
      (w.packets packet).cmd.isWrite = true := by
  cases h with
  | atomic h =>
    simp only [World.recvAtomic, bind_eq_ok] at h
    obtain ⟨-, -, -, -, -, -, ⟨t, w₁⟩, hp, -⟩ := h
    exact World.prepare_effect hp
  | functional h =>
    simp only [World.recvFunctional, bind_eq_ok] at h
    obtain ⟨⟨t, w₁⟩, hp, -⟩ := h
    exact World.prepare_effect hp
  | timing _ hp => exact (World.prepare_effect (w := w.recorded packet) hp :)

/-- On every path, the command of the payload that is handed out says what the packet does if and
only if the packet is no read and write in one, and finds the right command in the pool if it
invalidates without reading. -/
theorem statesEffect_iff {p : Payload} (h : Hands w packet path p) :
    StatesEffect p (w.packets packet).cmd ↔ PlainCommand w.pooled (w.packets packet).cmd := by
  have hc : p.command = (w.pooled.fill (w.packets packet)).command := h.same.command
  have he := h.effect
  simp only [Payload.fill] at hc
  generalize (w.packets packet).cmd = cmd at hc he ⊢
  constructor
  · rintro ⟨hr, hw, hb⟩
    refine ⟨hb, fun h₁ h₂ => ?_⟩
    simp only [h₁, h₂, Bool.false_eq_true, if_false, if_true] at hc
    rw [← hc]
    exact ⟨fun h => absurd (hr.1 h).1 (by simp [h₁]), hw.trans (by simp [h₁])⟩
  · rintro ⟨hb, hst⟩
    refine ⟨?_, ?_, hb⟩
    · cases h₁ : cmd.isRead with
      | true =>
        have h₂ : cmd.isWrite = false := by simpa [h₁] using hb
        simp [hc, h₁, h₂]
      | false =>
        cases h₂ : cmd.isInvalidate with
        | true => simpa [hc, h₁, h₂] using (hst h₁ h₂).1
        | false => simp [hc, h₁, h₂]
    · cases h₁ : cmd.isRead with
      | true => simp [hc, h₁]
      | false =>
        cases h₂ : cmd.isInvalidate with
        | true => simpa [hc, h₁, h₂] using (hst h₁ h₂).2
        | false => simpa [hc, h₁, h₂] using he

/-- A port with two sockets, and packets with command `cmd`. -/
def commandWorld (cmd : MemCmd) : World :=
  { World.start twoSocketPort with packets := fun _ => { cmd } }

/-- gem5 swaps a word: the packet reads and writes. -/
def swapReq : MemCmd :=
  { isRead := true, isWrite := true, needsResponse := true, isSwapReq := true }

theorem hands_commandWorld {cmd : MemCmd} (hc : cmd = swapReq ∨ cmd = { isRead := true }) :
    ∃ p, Hands (commandWorld cmd) 0 .timing p := by
  have ⟨w, h⟩ : ∃ w, (commandWorld cmd).recvTimingReq 0 ⟨.accepted, .beginReq, 0⟩ =
      .ok (true, w) := by
    obtain rfl | rfl := hc <;> exact ⟨_, rfl⟩
  exact hands_of_accepted h

/-- A read. -/
theorem statesEffect_read : ∃ p, Hands (commandWorld { isRead := true }) 0 .timing p ∧
    (StatesEffect p { isRead := true } ↔
      PlainCommand (commandWorld { isRead := true }).pooled { isRead := true }) := by
  obtain ⟨p, h⟩ := hands_commandWorld (.inr rfl)
  exact ⟨p, h, statesEffect_iff h⟩

/-- `recvTimingReq` sends a swap as a read. -/
theorem not_statesEffect : ¬ ∀ (w : World) (packet : PacketPtr) (path : Path) (p : Payload),
    Hands w packet path p → StatesEffect p (w.packets packet).cmd := by
  intro h
  obtain ⟨p, hp⟩ := hands_commandWorld (.inl rfl)
  exact (h _ _ _ p hp).notBoth ⟨rfl, rfl⟩

end Gem5Wrapper
