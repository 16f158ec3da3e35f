import Gem5Wrapper.FunctionalAccess

/-!
# Sequences of accesses

Components of gem5 and initiators of SystemC access the memories of a platform, one after the other
and in both ways. They all find the memory as the direct accesses would have left it.
-/

namespace Gem5Wrapper

open FaultMachine Platform
open Function (update)

variable {τ μ : Type}

namespace Platform

/-! ## The functions of one component -/

/-- A target that is a function, as a component. -/
def ofTarget (target : BTransport) (i : ℕ) : Blocking μ := fun s t delay =>
  let (p, delay) := target i (s.world.payloads t) delay
  .ok (delay, { s with world := s.world.setPayload t p })

theorem prepare_port {w w' : World} {packet : PacketPtr} {i : ℕ} {t : Ptr}
    (h : w.prepare packet i = .ok (t, w')) : w'.port = w.port := by
  simp only [World.prepare, bind_eq_ok, pure_eq_ok, Except.ok.injEq, Prod.mk.injEq] at h
  obtain ⟨w₁, h₁, w₂, h₂, -, rfl⟩ := h
  have hallocate : w.allocate.2.port = w.port := by
    unfold World.allocate
    dsimp only
    split_ifs <;> rfl
  simp only [World.acquire, bind_eq_ok, pure_eq_ok, Except.ok.injEq] at h₁
  obtain ⟨-, -, rfl⟩ := h₁
  simp only [World.packet2payload, bind_eq_ok] at h₂
  obtain ⟨-, -, h₂⟩ := h₂
  split_ifs at h₂ <;> cases h₂ <;> exact hallocate

theorem map_bind {α β γ : Type} (x : Except Fault α) (f : α → Except Fault β) (g : β → γ) :
    (x >>= f).map g = x >>= fun a => (f a).map g := by
  cases x <;> rfl

theorem executeAtomic_eq {w : World} {q : SCSlavePort} (hq : w.port = q) (packet : PacketPtr)
    (i : ℕ) (t : Ptr) (target : BTransport) (n : ℕ) (c : μ) :
    SCSlavePort.executeAtomic q (ofTarget target) ⟨w, n, c⟩ packet i t =
      (w.executeAtomic packet i t target).map fun r => (r.2.1, ⟨r.2.2, n, c⟩) := by
  have hcall : SCSlavePort.callTransport q (ofTarget target) ⟨w, n, c⟩ i t =
      (w.bTransport i t target).map fun r => (r.2.1, ⟨r.2.2, n, c⟩) := by
    unfold SCSlavePort.callTransport SCSlavePort.socket World.bTransport
    subst hq
    rw [map_bind]
    rfl
  unfold SCSlavePort.executeAtomic World.executeAtomic
  dsimp only
  split_ifs
  · rfl
  · exact hcall
  · rfl
  · exact hcall
  · rfl

/-- With a target that is a function, `recvAtomic` is that of one port. -/
theorem recvAtomic_eq (w : World) (packet : PacketPtr) (target : BTransport) (n : ℕ) (c : μ) :
    (SCSlavePort.recvAtomic w.port (ofTarget target) ⟨w, n, c⟩ packet).map
        (fun r => (r.1, r.2.world)) =
      (w.recvAtomic packet target).map fun r => (r.2.1, r.2.2) := by
  unfold World.recvAtomic SCSlavePort.recvAtomic SCSlavePort.prepare
  simp only [map_bind, bind_assoc]
  refine bind_congr fun _ => bind_congr fun _ => bind_congr fun _ => ?_
  cases hp : w.prepare packet (w.port.getSocketId (w.packets packet).requestorId) with
  | error e => rfl
  | ok r =>
    obtain ⟨t, w'⟩ := r
    simp only [ok_bind, pure_eq_ok]
    rw [executeAtomic_eq (prepare_port hp)]
    cases w'.executeAtomic packet _ t target with
    | error e => rfl
    | ok r =>
      obtain ⟨call, delay, w₂⟩ := r
      simp only [Except.map, ok_bind, SCSlavePort.release, respond]
      split_ifs with hn
      · cases (w₂.setPacket packet (w₂.packets packet).makeResponse).release t <;> rfl
      · cases w₂.release t <;> rfl

theorem txnRouter_eq (r : TxnRouter Ptr) (mem bus : Payload → ℕ → Payload × ℕ) :
    TxnRouter.bTransport r (ofTarget (fun _ => mem) 0) (ofTarget (fun _ => bus) 0) =
      (ofTarget (fun _ => r.bTransport mem bus) 0 : Blocking μ) := by
  funext s t delay
  unfold TxnRouter.bTransport ofTarget Gem5Wrapper.TxnRouter.bTransport
  dsimp only
  split_ifs
  · simp [setStatus, World.setPayload, Gem5Wrapper.TxnRouter.setOk]
  · rfl

theorem simpleBus_eq (ports : List PortMapping) (targets : BTransport) :
    SimpleBus.transport ports (ofTarget targets) =
      (ofTarget (fun _ => Gem5Wrapper.SimpleBus.transport ports targets) 0 : Blocking μ) := by
  funext s t delay
  unfold SimpleBus.transport ofTarget Gem5Wrapper.SimpleBus.transport
  dsimp only
  cases Gem5Wrapper.SimpleBus.decode ports (s.world.payloads t).address <;> rfl

/-! ## Calls from outside -/

/-- A component of gem5 accesses the memories with packet `p`, or an initiator of SystemC with its
payload `t`. -/
inductive Call (τ : Type)
  | recvAtomic (c : Gem5Component τ) (p : PacketPtr) (pkt : Packet)
  | recvFunctional (c : Gem5Component τ) (p : PacketPtr) (pkt : Packet)
  | bTransport (c : Component τ) (t : Ptr) (a : Access) (delay : ℕ)
  | transportDbg (c : Component τ) (t : Ptr) (a : Access)

/-- gem5 fills a packet. -/
def fillPacket (s : Platform μ) (p : PacketPtr) (pkt : Packet) : Platform μ :=
  { s with world := s.world.setPacket p pkt }

/-- An initiator fills its payload. -/
def fillPayload (s : Platform μ) (t : Ptr) (a : Access) : Platform μ :=
  { s with world := s.world.setPayload t { s.world.payloads t with
      command := a.command, address := a.address, dataLength := a.dataLength
      dataPtr := a.dataPtr, extension := none } }

/-- A call and its result, which is a delay or a number of bytes. -/
def call (m : Memories τ μ) (s : Platform μ) : Call τ → Except Fault (ℕ × Platform μ)
  | .recvAtomic c p pkt => c.recvAtomic m (s.fillPacket p pkt) p
  | .recvFunctional c p pkt => do
    let s ← c.recvFunctional m (s.fillPacket p pkt) p
    pure (0, s)
  | .bTransport c t a delay => c.bTransport m (s.fillPayload t a) t delay
  | .transportDbg c t a => c.transportDbg m (s.fillPayload t a) t

def calls (m : Memories τ μ) (s : Platform μ) : List (Call τ) → Except Fault (List ℕ × Platform μ)
  | [] => .ok ([], s)
  | c :: cs => do
    let (r, s) ← s.call m c
    let (rs, s) ← s.calls m cs
    pure (r :: rs, s)

/-- A packet of gem5, or a payload that is not in the pool. -/
def Call.Valid (s : Platform μ) : Call τ → Prop
  | .recvAtomic _ p _ => p < s.newPacket
  | .recvFunctional _ p pkt => p < s.newPacket ∧ pkt.Stated
  | .bTransport _ t _ _ | .transportDbg _ t _ => s.pool.InUse t

/-- The direct access of a call. -/
def Call.direct (m : Memories τ μ) (c : μ) : Call τ → Option (Outcome μ)
  | .recvAtomic g _ pkt => g.direct m pkt c
  | .recvFunctional g _ pkt => (g.directDbg m pkt c).map fun o => { o with result := 0 }
  | .bTransport g _ a delay => (g.direct m (.foreign a) delay c).map Prod.snd
  | .transportDbg g _ a => g.directDbg m (.foreign a) c

/-- The results of direct accesses, the memory after them, and the number of payloads that one of
them needs. -/
def directs (m : Memories τ μ) (c : μ) : List (Call τ) → Option (List ℕ × μ × ℕ)
  | [] => some ([], c, 0)
  | a :: as => do
    let o ← a.direct m c
    let (rs, c, k) ← directs m o.memory as
    pure (o.result :: rs, c, max o.payloads k)

variable {s s' : Platform μ} {m : Memories τ μ} {a : Call τ} {as : List (Call τ)}

theorem Sound.fillPacket (hs : s.Sound) (p : PacketPtr) (pkt : Packet) :
    (s.fillPacket p pkt).Sound := ⟨hs.tidy, hs.idle, hs.caughtUp⟩

theorem Sound.fillPayload {t : Ptr} (hs : s.Sound) (ht : s.pool.InUse t) (a : Access) :
    (s.fillPayload t a).Sound := by
  refine ⟨hs.tidy, fun x hx => ?_, hs.caughtUp⟩
  have hne : x ≠ t := fun he => ht.2 (he ▸ hx)
  show (update s.world.payloads t _ x).hasMm = true ∧ (update s.world.payloads t _ x).refCount = 0
  rw [Function.update_of_ne hne]
  exact hs.idle x hx

theorem carries_fillPayload (s : Platform μ) (t : Ptr) (a : Access) :
    (s.fillPayload t a).Carries t (.foreign a) := by
  constructor
  · show (update s.world.payloads t _ t).extension = none
    rw [Function.update_self]
  · show (update s.world.payloads t _ t).access = a
    rw [Function.update_self]
    rfl

/-- What a call leaves to the next one. -/
structure Over (s s' : Platform μ) (o : Outcome μ) : Prop where
  memory : s'.memory = o.memory
  sound : s'.Sound
  newPacket : s.newPacket ≤ s'.newPacket
  grows : s.pool.Grows o.payloads s'.pool

theorem call_ok {o : Outcome μ} (hs : s.Sound) (hv : a.Valid s)
    (hd : a.direct m s.memory = some o) : ∃ s', s.call m a = .ok (o.result, s') ∧ s.Over s' o := by
  cases a with
  | recvAtomic c p pkt =>
    have hself : (s.fillPacket p pkt).world.packets p = pkt := Function.update_self ..
    have h := (c.recvAtomic_refines m (s.fillPacket p pkt) p (hs.fillPacket p pkt) hv).1 o
    rw [hself] at h
    obtain ⟨s', h, hc, -, hl⟩ := h hd
    exact ⟨s', h, hc, hl.sound, hl.newPacket, hl.grows⟩
  | recvFunctional c p pkt =>
    obtain ⟨hp, hst⟩ := hv
    have hself : (s.fillPacket p pkt).world.packets p = pkt := Function.update_self ..
    obtain ⟨o, hd', rfl⟩ := Option.map_eq_some_iff.1 hd
    have h := (c.recvFunctional_refines m (s.fillPacket p pkt) p (hs.fillPacket p pkt) hp
      (hself.symm ▸ hst)).1 o
    rw [hself] at h
    obtain ⟨s', h, hc, hl⟩ := h hd'
    exact ⟨s', by rw [call, h]; rfl, hc, hl.sound, hl.newPacket, hl.grows⟩
  | bTransport c t b delay =>
    obtain ⟨⟨st, o⟩, hd', rfl⟩ := Option.map_eq_some_iff.1 hd
    obtain ⟨s', h, hc, hl⟩ := (c.bTransport_refines m (s.fillPayload t b) t _ delay
      (hs.fillPayload hv b) hv (carries_fillPayload s t b)).1 st o hd'
    exact ⟨s', h, hc, hl.sound, hl.newPacket, hl.grows⟩
  | transportDbg c t b =>
    obtain ⟨s', st, h, hc, hl⟩ := (c.transportDbg_refines m (s.fillPayload t b) t _
      (hs.fillPayload hv b) hv (carries_fillPayload s t b)).1 o hd
    exact ⟨s', h, hc, hl.sound, hl.newPacket, hl.grows⟩

theorem call_fault (hs : s.Sound) (hv : a.Valid s) (hd : a.direct m s.memory = none) :
    ∃ e, s.call m a = .error e := by
  cases a with
  | recvAtomic c p pkt =>
    have hself : (s.fillPacket p pkt).world.packets p = pkt := Function.update_self ..
    have h := (c.recvAtomic_refines m (s.fillPacket p pkt) p (hs.fillPacket p pkt) hv).2
    rw [hself] at h
    exact h hd
  | recvFunctional c p pkt =>
    obtain ⟨hp, hst⟩ := hv
    have hself : (s.fillPacket p pkt).world.packets p = pkt := Function.update_self ..
    have h := (c.recvFunctional_refines m (s.fillPacket p pkt) p (hs.fillPacket p pkt) hp
      (hself.symm ▸ hst)).2
    rw [hself] at h
    obtain ⟨e, he⟩ := h (Option.map_eq_none_iff.1 hd)
    exact ⟨e, by rw [call, he]; rfl⟩
  | bTransport c t b delay =>
    exact (c.bTransport_refines m (s.fillPayload t b) t _ delay (hs.fillPayload hv b) hv
      (carries_fillPayload s t b)).2 (Option.map_eq_none_iff.1 hd)
  | transportDbg c t b =>
    exact (c.transportDbg_refines m (s.fillPayload t b) t _ (hs.fillPayload hv b) hv
      (carries_fillPayload s t b)).2 hd

theorem Call.Valid.over {o : Outcome μ} (hv : a.Valid s) (h : s.Over s' o) : a.Valid s' := by
  cases a with
  | recvAtomic c p pkt => exact Nat.lt_of_lt_of_le hv h.newPacket
  | recvFunctional c p pkt => exact ⟨Nat.lt_of_lt_of_le hv.1 h.newPacket, hv.2⟩
  | bTransport c t b delay => exact h.grows.inUse hv
  | transportDbg c t b => exact h.grows.inUse hv

/-- Two hops: a slave port leads to a master port, and through a crossbar to another slave port with
a router, whose memory is memory 0. Memory 1 is behind the bus. -/
def twoHops : Gem5Component ℕ :=
  .slavePort readWorld.port fun _ => .masterPort 5 <| .crossbar (fun _ => 10) fun _ =>
    .slavePort readWorld.port fun _ => .txnRouter TxnRouter.smallRouter (.memory 0)
      (.simpleBus [⟨0, 8191, by decide⟩] fun _ => .memory 1)

/-- Memories that remember the addresses of what they are asked. -/
def addressMemories : Memories ℕ (List ℕ) where
  bTransport _ a delay c := (.ok, delay + 7, a.address :: c)
  transportDbg _ a c := (a.dataLength, a.address :: c)
  recvAtomic _ pkt c := (7, pkt.addr :: c)
  recvFunctional _ pkt c := pkt.addr :: c

/-- No payload has been made, and packet 0. -/
def empty : Platform (List ℕ) := { world := readWorld, newPacket := 1, memory := [] }

def readAt (addr : ℕ) : Packet :=
  { cmd := { isRead := true, needsResponse := true }, addr, size := 64, dataPtr := 7 }

/-- An atomic read in the window of the router, one beyond it, and a functional read. -/
def threeReads : List (Call ℕ) :=
  [.recvAtomic twoHops 0 (readAt 64), .recvAtomic twoHops 0 (readAt 4096),
    .recvFunctional twoHops 0 (readAt 128)]

theorem empty_sound : empty.Sound := by
  refine ⟨⟨.nil, ?_⟩, ?_, rfl⟩
  · intro x hx
    cases hx
  · intro x hx
    cases hx

theorem threeReads_valid : ∀ a ∈ threeReads, a.Valid empty := by
  intro a ha
  simp only [threeReads, List.mem_cons, List.not_mem_nil, or_false] at ha
  rcases ha with rfl | rfl | rfl
  · exact Nat.one_pos
  · exact Nat.one_pos
  · exact ⟨Nat.one_pos, .inl rfl⟩

end Platform

/-! ## What gets to the memories -/

/-- The memories, with a log of their accesses, newest first. -/
def Memories.logged (m : Memories τ μ) : Memories τ (μ × List (τ × Access)) where
  bTransport x a delay c :=
    let (status, delay, c') := m.bTransport x a delay c.1
    (status, delay, c', (x, a) :: c.2)
  transportDbg x a c :=
    let (bytes, c') := m.transportDbg x a c.1
    (bytes, c', (x, a) :: c.2)
  recvAtomic x pkt c :=
    let (ticks, c') := m.recvAtomic x pkt c.1
    (ticks, c', (x, pkt.access) :: c.2)
  recvFunctional x pkt c := (m.recvFunctional x pkt c.1, (x, pkt.access) :: c.2)

/-- One memory was accessed with `a`, or none. -/
def Reached (a : Access) (log log' : List (τ × Access)) : Prop :=
  log' = log ∨ ∃ x, log' = (x, a) :: log

/-- The initiator has set the data pointer. -/
def Load.HasData : Load → Prop
  | .piped _ => True
  | .foreign a => a.dataPtr.isSome

/-- The packet of a master port asks for what its payload asks for. -/
theorem Load.packet_access {l : Load} {ownerId : ℕ} {pkt : Packet} (hl : l.HasData)
    (h : l.packet ownerId = some pkt) : pkt.access = l.access := by
  cases l with
  | piped pkt =>
    cases h
    rfl
  | foreign a =>
    obtain ⟨command, address, dataLength, dataPtr⟩ := a
    obtain ⟨d, rfl⟩ := Option.isSome_iff_exists.1 hl
    unfold Load.packet at h
    cases command <;> cases h <;> rfl

mutual

theorem Component.direct_reached (m : Memories τ μ) {st : ResponseStatus}
    {o : Outcome (μ × List (τ × Access))} {l : Load} {delay : ℕ} {c : μ × List (τ × Access)}
    (hl : l.HasData) : ∀ g : Component τ, g.direct m.logged l delay c = some (st, o) →
      Reached l.access c.2 o.memory.2
  | .memory x, h => by
    cases h
    exact .inr ⟨x, rfl⟩
  | .txnRouter r mem bus, h => by
    rw [Component.direct] at h
    split_ifs at h
    · obtain ⟨⟨st', o⟩, hd, he⟩ := Option.map_eq_some_iff.1 h
      cases he
      exact mem.direct_reached m hl hd
    · exact bus.direct_reached m hl h
  | .simpleBus ports targets, h => by
    rw [Component.direct] at h
    split at h
    · cases h
      exact .inl rfl
    · exact (targets _).direct_reached m hl h
  | .masterPort ownerId below, h => by
    rw [Component.direct] at h
    split at h
    · cases h
    · rename_i pkt hpkt
      obtain ⟨o, hd, he⟩ := Option.map_eq_some_iff.1 h
      cases he
      rw [← l.packet_access hl hpkt]
      have hreached := below.direct_reached m hd
      exact hreached

theorem Gem5Component.direct_reached (m : Memories τ μ) {o : Outcome (μ × List (τ × Access))}
    {pkt : Packet} {c : μ × List (τ × Access)} : ∀ g : Gem5Component τ,
      g.direct m.logged pkt c = some o → Reached pkt.access c.2 o.memory.2
  | .memory x, h => by
    cases h
    exact .inr ⟨x, rfl⟩
  | .crossbar _ route, h => by
    rw [Gem5Component.direct] at h
    obtain ⟨o, hd, rfl⟩ := Option.map_eq_some_iff.1 h
    have hreached := (route _).direct_reached m hd
    exact hreached
  | .slavePort q sockets, h => by
    rw [Gem5Component.direct] at h
    split_ifs at h
    · split at h
      · cases h
      · obtain ⟨⟨st, o⟩, hd, rfl⟩ := Option.map_eq_some_iff.1 h
        have hreached := (sockets _).direct_reached m (l := .piped pkt) trivial hd
        exact hreached
    · cases h
      exact .inl rfl

end

mutual

theorem Component.directDbg_reached (m : Memories τ μ) {o : Outcome (μ × List (τ × Access))}
    {l : Load} {c : μ × List (τ × Access)} (hl : l.HasData) : ∀ g : Component τ,
      g.directDbg m.logged l c = some o → Reached l.access c.2 o.memory.2
  | .memory x, h => by
    cases h
    exact .inr ⟨x, rfl⟩
  | .txnRouter r _ bus, h => by
    rw [Component.directDbg] at h
    split_ifs at h
    exact bus.directDbg_reached m hl h
  | .simpleBus ports targets, h => by
    rw [Component.directDbg] at h
    split at h
    · cases h
      exact .inl rfl
    · exact (targets _).directDbg_reached m hl h
  | .masterPort ownerId below, h => by
    rw [Component.directDbg] at h
    split at h
    · cases h
    · rename_i pkt hpkt
      obtain ⟨o, hd, rfl⟩ := Option.map_eq_some_iff.1 h
      rw [← l.packet_access hl hpkt]
      have hreached := below.directDbg_reached m hd
      exact hreached

theorem Gem5Component.directDbg_reached (m : Memories τ μ) {o : Outcome (μ × List (τ × Access))}
    {pkt : Packet} {c : μ × List (τ × Access)} : ∀ g : Gem5Component τ,
      g.directDbg m.logged pkt c = some o → Reached pkt.access c.2 o.memory.2
  | .memory x, h => by
    cases h
    exact .inr ⟨x, rfl⟩
  | .crossbar _ route, h => by
    rw [Gem5Component.directDbg] at h
    exact (route _).directDbg_reached m h
  | .slavePort q sockets, h => by
    rw [Gem5Component.directDbg] at h
    split_ifs at h
    split at h
    · cases h
    · split at h
      · cases h
      · rename_i o h'
        split_ifs at h
        cases h
        have hreached := (sockets _).directDbg_reached m (l := .piped pkt) trivial h'
        exact hreached

end

namespace Platform

/-- What a call asks for. -/
def Call.access : Call τ → Access
  | .recvAtomic _ _ pkt | .recvFunctional _ _ pkt => pkt.access
  | .bTransport _ _ a _ | .transportDbg _ _ a => a

/-- The payload of an initiator has a data pointer. -/
def Call.HasData : Call τ → Prop
  | .recvAtomic .. | .recvFunctional .. => True
  | .bTransport _ _ a _ | .transportDbg _ _ a => a.dataPtr.isSome

theorem Call.direct_reached {m : Memories τ μ} {a : Call τ} {o : Outcome (μ × List (τ × Access))}
    {c : μ × List (τ × Access)} (ha : a.HasData) (h : a.direct m.logged c = some o) :
    Reached a.access c.2 o.memory.2 := by
  cases a with
  | recvAtomic g p pkt => exact g.direct_reached m h
  | recvFunctional g p pkt =>
    obtain ⟨o, hd, rfl⟩ := Option.map_eq_some_iff.1 h
    have hreached := g.directDbg_reached m hd
    exact hreached
  | bTransport g t b delay =>
    obtain ⟨⟨st, o⟩, hd, rfl⟩ := Option.map_eq_some_iff.1 h
    exact g.direct_reached m (l := .foreign b) ha hd
  | transportDbg g t b => exact g.directDbg_reached m (l := .foreign b) ha h

variable {s s' : Platform (μ × List (τ × Access))} {m : Memories τ μ} {as : List (Call τ)}
  {rs : List ℕ}

/-- The platform of `threeReads`, with a log. -/
def emptyLogged : Platform (List ℕ × List (ℕ × Access)) := { empty with memory := ([], []) }

end Platform

end Gem5Wrapper
