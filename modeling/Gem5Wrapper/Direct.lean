import Gem5Wrapper.Platform

/-!
# Direct accesses

What an access of a platform is for: it changes the memory that its address leads to, and takes as
long as this memory and the crossbars on the way. `direct` says so without payloads, pools and
extensions, for the functional accesses too.

A component `Refines` its direct access if it does the same to the memory, from every state and for
every payload, and otherwise only leaves new payloads in the pool (`Leaves`). Each component refines
its direct access when the components that it calls do, so that all platforms do, by induction on
how they are built.
-/

namespace Gem5Wrapper

open FaultMachine Platform
open Function (update)

variable {τ μ : Type}

/-! ## The direct access -/

/-- What a transaction carries: a packet of gem5 that is piped through, or no extension. -/
inductive Load
  | piped (pkt : Packet)
  | foreign (a : Access)
  deriving DecidableEq, Repr

def Load.access : Load → Access
  | .piped pkt => pkt.access
  | .foreign a => a

/-- The packet that a master port sends. -/
def Load.packet (ownerId : ℕ) : Load → Option Packet
  | .piped pkt => some pkt
  | .foreign a => if a.command = .ignore then none else
    some (Platform.SCMasterPort.packetFor ownerId a)

/-- `packet2payload` states what the packet does: it leaves the command as it was for a packet that
invalidates and does not read. -/
def Packet.Stated (pkt : Packet) : Prop := pkt.cmd.isRead = true ∨ pkt.cmd.isInvalidate = false

instance (pkt : Packet) : Decidable pkt.Stated := inferInstanceAs (Decidable (_ ∨ _))

/-- The packet with its response, if it needs one. -/
def Packet.completed (pkt : Packet) : Packet :=
  if pkt.cmd.needsResponse then pkt.makeResponse else pkt

/-- The socket of the transactor that a packet leaves by. -/
def SCSlavePort.outlet (q : SCSlavePort) (pkt : Packet) : Option ℕ :=
  match q.transactor, q.transactorMulti with
  | some _, _ => some 0
  | none, some tr =>
    if q.getSocketId pkt.requestorId < tr.socketNum then some (q.getSocketId pkt.requestorId)
    else none
  | none, none => none

/-- `recvAtomic` handles the packet. -/
def Packet.Atomic (pkt : Packet) : Prop :=
  pkt.cacheResponding = false ∧ (pkt.cmd.isRead = true ∨ pkt.cmd.isWrite = true) ∧
    pkt.cmd.isSwapReq = false

instance (pkt : Packet) : Decidable pkt.Atomic := inferInstanceAs (Decidable (_ ∧ _ ∧ _))

/-- What a call gives: the delay or the number of bytes, the memory, and the number of payloads
that it uses at one time. -/
structure Outcome (μ : Type) where
  result : ℕ
  memory : μ
  payloads : ℕ := 0

mutual

/-- The direct access of `b_transport`; `none` is a fault. -/
def Component.direct (m : Memories τ μ) :
    Component τ → Load → ℕ → μ → Option (ResponseStatus × Outcome μ)
  | .memory a, l, delay, c =>
    let (status, delay, c) := m.bTransport a l.access delay c
    some (status, ⟨delay, c, 0⟩)
  | .txnRouter r mem bus, l, delay, c =>
    if r.toMem l.access.address then (mem.direct m l delay c).map fun o => (.ok, o.2)
    else bus.direct m l delay c
  | .simpleBus ports targets, l, delay, c =>
    match SimpleBus.decode ports l.access.address with
    | none => some (.addressError, ⟨delay, c, 0⟩)
    | some id => (targets id).direct m l delay c
  | .masterPort ownerId below, l, delay, c =>
    match l.packet ownerId with
    | none => none
    | some pkt => (below.direct m pkt c).map fun o => (.ok, { o with result := delay + o.result })

/-- The direct access of `recvAtomic`. -/
def Gem5Component.direct (m : Memories τ μ) : Gem5Component τ → Packet → μ → Option (Outcome μ)
  | .memory a, pkt, c =>
    let (ticks, c) := m.recvAtomic a pkt c
    some ⟨ticks, c, 0⟩
  | .crossbar latency route, pkt, c =>
    ((route pkt.addr).direct m pkt c).map fun o => { o with result := o.result + latency pkt }
  | .slavePort q sockets, pkt, c =>
    if pkt.Atomic then
      if pkt.Stated then
        match q.outlet pkt with
        | none => none
        | some i => ((sockets i).direct m (.piped pkt) 0 c).map fun o =>
          { o.2 with payloads := o.2.payloads + 1 }
      -- an invalidation is not sent on
      else some ⟨0, c, 1⟩
    else none

end

mutual

/-- The direct access of `transport_dbg`. -/
def Component.directDbg (m : Memories τ μ) : Component τ → Load → μ → Option (Outcome μ)
  | .memory a, l, c =>
    let (bytes, c) := m.transportDbg a l.access c
    some ⟨bytes, c, 0⟩
  | .txnRouter r _ bus, l, c => if r.toMem l.access.address then bus.directDbg m l c else none
  | .simpleBus ports targets, l, c =>
    match SimpleBus.decode ports l.access.address with
    | none => some ⟨0, c, 0⟩
    | some id => (targets id).directDbg m l c
  | .masterPort ownerId below, l, c =>
    match l.packet ownerId with
    | none => none
    | some pkt => (below.directDbg m pkt c).map fun o => { o with result := l.access.dataLength }

/-- The direct access of `recvFunctional`. -/
def Gem5Component.directDbg (m : Memories τ μ) : Gem5Component τ → Packet → μ → Option (Outcome μ)
  | .memory a, pkt, c => some ⟨0, m.recvFunctional a pkt c, 0⟩
  | .crossbar _ route, pkt, c => (route pkt.addr).directDbg m pkt c
  | .slavePort q sockets, pkt, c =>
    if pkt.cmd.isRead = true ∨ pkt.cmd.isWrite = true then
      match q.outlet pkt with
      | none => none
      | some i =>
        match (sockets i).directDbg m (.piped pkt) c with
        | none => none
        | some o => if o.result = pkt.size then some { o with payloads := o.payloads + 1 } else none
    else none

end

/-! ## What an access leaves -/

namespace Platform

variable {s s' s₁ s₂ : Platform μ} {t : Ptr} {p : PacketPtr} {o : Option PacketPtr} {k : ℕ}
  {st st' : ResponseStatus}

/-- The pool as a free list. -/
def pool (s : Platform μ) : FreeList := ⟨s.world.mm.numberOfAllocations, s.world.mm.freePayloads⟩

/-- Nobody refers to a payload in the pool, and gem5 has caught up with SystemC. -/
structure Sound (s : Platform μ) : Prop where
  tidy : s.pool.Tidy
  idle : ∀ t ∈ s.pool.free, (s.world.payloads t).hasMm = true ∧ (s.world.payloads t).refCount = 0
  caughtUp : s.world.curTick = s.world.now

/-- What is the same after an access: the payloads that are in use, and the packets but for the
response of packet `o`. -/
structure Leaves (k : ℕ) (o : Option PacketPtr) (s s' : Platform μ) : Prop where
  grows : s.pool.Grows k s'.pool
  sound : s'.Sound
  newPacket : s.newPacket ≤ s'.newPacket
  payloads : ∀ t, s.pool.InUse t → s'.world.payloads t = s.world.payloads t
  packets : ∀ p < s.newPacket, some p ≠ o → s'.world.packets p = s.world.packets p
  response : ∀ p ∈ o, s'.world.packets p = s.world.packets p ∨
    s'.world.packets p = (s.world.packets p).completed
  now : s'.world.now = s.world.now
  events : s'.world.events = s.world.events
  log : s'.world.log = s.world.log

/-- What a payload carries. -/
def Carries (s : Platform μ) (t : Ptr) : Load → Prop
  | .piped pkt => ∃ x, (s.world.payloads t).extension = some x ∧ x.packet < s.newPacket ∧
      s.world.packets x.packet = pkt ∧ (s.world.payloads t).access = pkt.access ∧ pkt.Stated
  | .foreign a => (s.world.payloads t).extension = none ∧ (s.world.payloads t).access = a

/-- The packet that a payload carries. -/
def carried (s : Platform μ) (t : Ptr) : Option PacketPtr :=
  (s.world.payloads t).extension.map Gem5Extension.packet

end Platform

/-! ## Refinement -/

namespace Platform

/-- `b_transport` of a component does what its direct access does, and faults where it has none. -/
def Blocking.Refines (f : Blocking μ) (d : Load → ℕ → μ → Option (ResponseStatus × Outcome μ)) :
    Prop :=
  ∀ (s : Platform μ) (t : Ptr) (l : Load) (delay : ℕ), s.Sound → s.pool.InUse t → s.Carries t l →
    (∀ st o, d l delay s.memory = some (st, o) → ∃ s', f s t delay = .ok (o.result, s') ∧
      s'.memory = o.memory ∧ Leaves o.payloads (s.carried t) (s.setStatus t st) s') ∧
    (d l delay s.memory = none → ∃ e, f s t delay = .error e)

/-- `sendAtomic` does what the direct access does, and the packet has its response. -/
def Atomic.Refines (f : Atomic μ) (d : Packet → μ → Option (Outcome μ)) : Prop :=
  ∀ (s : Platform μ) (p : PacketPtr), s.Sound → p < s.newPacket →
    (∀ o, d (s.world.packets p) s.memory = some o → ∃ s', f s p = .ok (o.result, s') ∧
      s'.memory = o.memory ∧ s'.world.packets p = (s.world.packets p).completed ∧
        Leaves o.payloads (some p) s s') ∧
    (d (s.world.packets p) s.memory = none → ∃ e, f s p = .error e)

/-- `transport_dbg` of a component does what its direct access does. -/
def Debug.Refines (f : Debug μ) (d : Load → μ → Option (Outcome μ)) : Prop :=
  ∀ (s : Platform μ) (t : Ptr) (l : Load), s.Sound → s.pool.InUse t → s.Carries t l →
    (∀ o, d l s.memory = some o → ∃ s' st, f s t = .ok (o.result, s') ∧ s'.memory = o.memory ∧
      Leaves o.payloads (s.carried t) (s.setStatus t st) s') ∧
    (d l s.memory = none → ∃ e, f s t = .error e)

/-- `sendFunctional` does what the direct access does. -/
def Functional.Refines (f : Functional μ) (d : Packet → μ → Option (Outcome μ)) : Prop :=
  ∀ (s : Platform μ) (p : PacketPtr), s.Sound → p < s.newPacket → (s.world.packets p).Stated →
    (∀ o, d (s.world.packets p) s.memory = some o → ∃ s', f s p = .ok s' ∧ s'.memory = o.memory ∧
      Leaves o.payloads (some p) s s') ∧
    (d (s.world.packets p) s.memory = none → ∃ e, f s p = .error e)

end Platform

/-! ## Taking and releasing a payload -/

section World

variable {w w' : World} {packet : PacketPtr} {t : Ptr}

theorem World.prepare_eq {socketId : ℕ} (hmm : w.pooled.hasMm = true)
    (hc : (w.packets packet).cmd.isRead = true ∨ (w.packets packet).cmd.isInvalidate = true ∨
      (w.packets packet).cmd.isWrite = true) :
    w.prepare packet socketId = .ok (w.mm.allocate.1, { w with
      mm := w.mm.allocate.2
      payloads := update w.payloads w.mm.allocate.1
        { w.pooled.fill (w.packets packet) with
          refCount := w.pooled.refCount + 1
          extension := some ⟨packet, socketId, w.serial⟩ }
      serial := w.serial + 1 }) := by
  have hacquire : w.allocate.2.acquire w.allocate.1 = .ok { w with
      mm := w.mm.allocate.2
      payloads := update w.payloads w.mm.allocate.1
        { w.pooled with refCount := w.pooled.refCount + 1 } } := by
    obtain ⟨hpool, -⟩ := w.allocate_payloads
    rw [World.acquire, hpool, check_pos hmm]
    unfold World.allocate
    dsimp only
    split_ifs
    · simp [World.setPayload]
    · rfl
  have hfill : World.packet2payload { w with
      mm := w.mm.allocate.2
      payloads := update w.payloads w.mm.allocate.1
        { w.pooled with refCount := w.pooled.refCount + 1 } } packet w.mm.allocate.1 = .ok { w with
      mm := w.mm.allocate.2
      payloads := update w.payloads w.mm.allocate.1
        { w.pooled.fill (w.packets packet) with refCount := w.pooled.refCount + 1 } } := by
    simp only [World.packet2payload, Function.update_self, check_pos hmm, ok_bind]
    unfold World.setPayload Payload.fill
    split_ifs with hr hi hw
    · simp
    · simp
    · simp
    · simp_all
  rw [World.prepare, hacquire, ok_bind]
  show (World.packet2payload _ _ w.mm.allocate.1 >>= _) = _
  rw [hfill, ok_bind]
  simp [World.attach, World.setPayload, World.allocate]

/-- A packet that neither reads nor writes nor invalidates is a FATAL. -/
theorem World.prepare_fault (socketId : ℕ)
    (hc : (w.packets packet).cmd.isRead = false ∧ (w.packets packet).cmd.isInvalidate = false ∧
      (w.packets packet).cmd.isWrite = false) : ∃ e, w.prepare packet socketId = .error e := by
  obtain ⟨hr, hi, hw⟩ := hc
  cases hp : w.prepare packet socketId with
  | error e => exact ⟨e, rfl⟩
  | ok x =>
    simp only [World.prepare, bind_eq_ok] at hp
    obtain ⟨w₁, h₁, w₂, h₂, -⟩ := hp
    have hpackets : w₁.packets = w.packets :=
      (World.acquire_packets h₁).trans w.allocate_payloads.2
    simp only [World.packet2payload, hpackets, hr, hi, hw, bind_eq_ok] at h₂
    obtain ⟨-, -, h₂⟩ := h₂
    cases h₂

theorem World.release_eq (hmm : (w.payloads t).hasMm = true) (hr : (w.payloads t).refCount = 1) :
    w.release t = .ok { w.setPayload t { w.payloads t with refCount := 0, extension := none } with
      mm := w.mm.free t } := by
  have hpos : (w.payloads t).hasMm = true ∧ 0 < (w.payloads t).refCount := ⟨hmm, hr ▸ one_pos⟩
  unfold World.release
  dsimp only
  rw [check_pos hpos, ok_bind, hr, if_pos rfl]
  rfl

end World

namespace Platform

variable {s s' s₁ s₂ : Platform μ} {t : Ptr} {packet : PacketPtr} {o : Option PacketPtr} {k : ℕ}
  {st : ResponseStatus}

/-- Payload `t` is prepared for a packet. -/
structure Prepared (s s₁ : Platform μ) (t : Ptr) (packet : PacketPtr) : Prop where
  taken : s.pool.take = (t, s₁.pool)
  memory : s₁.memory = s.memory
  newPacket : s₁.newPacket = s.newPacket
  packets : s₁.world.packets = s.world.packets
  others : ∀ x ≠ t, s₁.world.payloads x = s.world.payloads x
  held : (s₁.world.payloads t).hasMm = true ∧ (s₁.world.payloads t).refCount = 1
  extension : s₁.carried t = some packet
  filled : (s.world.packets packet).Stated →
    (s₁.world.payloads t).access = (s.world.packets packet).access
  dataLength : (s₁.world.payloads t).dataLength = (s.world.packets packet).size
  now : s₁.world.now = s.world.now
  curTick : s₁.world.curTick = s.world.curTick
  events : s₁.world.events = s.world.events
  log : s₁.world.log = s.world.log

theorem Sound.pooled (hs : s.Sound) :
    s.world.pooled.hasMm = true ∧ s.world.pooled.refCount = 0 := by
  unfold World.pooled MemoryManager.isNew MemoryManager.allocate
  have hidle := hs.idle
  unfold pool at hidle
  split_ifs with hnew
  · exact ⟨rfl, rfl⟩
  · cases hfree : s.world.mm.freePayloads with
    | nil => exact absurd (by rw [hfree]; rfl) hnew
    | cons t rest =>
      rw [hfree] at hidle
      exact hidle t List.mem_cons_self

theorem allocate_pool (mm : MemoryManager) :
    (FreeList.mk mm.numberOfAllocations mm.freePayloads).take =
      (mm.allocate.1, ⟨mm.allocate.2.numberOfAllocations, mm.allocate.2.freePayloads⟩) := by
  unfold FreeList.take MemoryManager.allocate
  cases mm.freePayloads <;> rfl

theorem Sound.prepare (hs : s.Sound) (socketId : ℕ)
    (hc : (s.world.packets packet).cmd.isRead = true ∨
      (s.world.packets packet).cmd.isWrite = true) :
    ∃ t s₁, SCSlavePort.prepare s packet socketId = .ok (t, s₁) ∧ s.Prepared s₁ t packet := by
  obtain ⟨hmm, href⟩ := hs.pooled
  have hprepare := @World.prepare_eq _ _ socketId hmm (hc.imp_right .inr)
  refine ⟨_, _, by rw [SCSlavePort.prepare, hprepare, ok_bind]; rfl, ?_⟩
  constructor
  · exact allocate_pool s.world.mm
  · rfl
  · rfl
  · rfl
  · intro x hx
    exact Function.update_of_ne hx _ _
  · simp [Payload.fill, hmm, href]
  · simp [carried]
  · intro hst
    unfold Packet.Stated at hst
    cases hr : (s.world.packets packet).cmd.isRead <;>
      simp_all [Payload.access, Packet.access, Payload.fill]
  · simp [Payload.fill]
  · rfl
  · rfl
  · rfl
  · rfl

theorem Prepared.take (h : s.Prepared s₁ t packet) :
    s.pool.take.1 = t ∧ s.pool.take.2 = s₁.pool := by
  rw [h.taken]
  exact ⟨rfl, rfl⟩

theorem Prepared.sound (hs : s.Sound) (h : s.Prepared s₁ t packet) : s₁.Sound := by
  obtain ⟨ht, hpool⟩ := h.take
  constructor
  · exact hpool ▸ hs.tidy.take
  · intro x hx
    have hin : s₁.pool.InUse t := ht ▸ hpool ▸ hs.tidy.inUse_take
    have hne : x ≠ t := fun he => hin.2 (he ▸ hx)
    rw [h.others x hne]
    exact hs.idle x (FreeList.mem_free_take (hpool ▸ hx))
  · rw [h.curTick, h.now, hs.caughtUp]

theorem Prepared.inUse (hs : s.Sound) (h : s.Prepared s₁ t packet) : s₁.pool.InUse t := by
  obtain ⟨ht, hpool⟩ := h.take
  exact ht ▸ hpool ▸ hs.tidy.inUse_take

theorem Prepared.carries (h : s.Prepared s₁ t packet) (hp : packet < s.newPacket)
    (hst : (s.world.packets packet).Stated) : s₁.Carries t (.piped (s.world.packets packet)) := by
  obtain ⟨x, hx, rfl⟩ := Option.map_eq_some_iff.1 h.extension
  exact ⟨x, hx, h.newPacket ▸ hp, congrFun h.packets _, h.filled hst, hst⟩

/-- The port releases the payload when the access is over. -/
theorem Prepared.release (hs : s.Sound) (h : s.Prepared s₁ t packet)
    (hl : Leaves k (some packet) (s₁.setStatus t st) s₂) :
    ∃ s₃, SCSlavePort.release s₂ t = .ok s₃ ∧ s₃.memory = s₂.memory ∧
      s₃.world.packets = s₂.world.packets ∧ Leaves (k + 1) (some packet) s s₃ := by
  obtain ⟨ht, hpool⟩ := h.take
  have hin : s₁.pool.InUse t := h.inUse hs
  have hpayload : s₂.world.payloads t =
      { s₁.world.payloads t with responseStatus := st } :=
    (hl.payloads t hin).trans (Function.update_self ..)
  have hrelease := World.release_eq (w := s₂.world) (t := t)
    (by rw [hpayload]; exact h.held.1) (by rw [hpayload]; exact h.held.2)
  have hrelease : SCSlavePort.release s₂ t = .ok { s₂ with
      world := { s₂.world.setPayload t
        { s₂.world.payloads t with refCount := 0, extension := none } with
        mm := s₂.world.mm.free t } } := by
    rw [SCSlavePort.release, hrelease, ok_bind]
    rfl
  refine ⟨_, hrelease, rfl, rfl, ?_⟩
  have hgrows : s.pool.Grows (k + 1) (s₂.pool.put t) := by
    have hgrows : s₁.pool.Grows k s₂.pool := hl.grows
    rw [← hpool] at hgrows
    exact ht ▸ hgrows.bracket
  constructor
  · exact hgrows
  · constructor
    · exact hgrows.tidy hs.tidy
    · intro x hx
      show (update s₂.world.payloads t _ x).hasMm = true ∧
        (update s₂.world.payloads t _ x).refCount = 0
      by_cases hxt : x = t
      · subst hxt
        rw [Function.update_self, hpayload]
        exact ⟨h.held.1, rfl⟩
      · rw [Function.update_of_ne hxt]
        exact hl.sound.idle x ((List.mem_cons.1 hx).resolve_left hxt)
    · exact hl.sound.caughtUp
  · exact h.newPacket ▸ hl.newPacket
  · intro x hx
    have hne : x ≠ t := by
      intro he
      have hno := s.pool.not_inUse_take
      rw [ht, ← he] at hno
      exact hno hx
    show update s₂.world.payloads t _ x = _
    rw [Function.update_of_ne hne, hl.payloads x (hpool ▸ hx.take)]
    show update s₁.world.payloads t _ x = _
    rw [Function.update_of_ne hne, h.others x hne]
  · intro p hp hne
    rw [← h.packets]
    exact hl.packets p (h.newPacket.symm ▸ hp) hne
  · intro p hp
    rw [← h.packets]
    exact hl.response p hp
  · exact hl.now.trans h.now
  · exact hl.events.trans h.events
  · exact hl.log.trans h.log

end Platform

end Gem5Wrapper
