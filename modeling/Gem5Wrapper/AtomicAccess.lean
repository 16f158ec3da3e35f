import Gem5Wrapper.Direct

/-!
# Atomic accesses

Each component refines its direct access if the components that it calls do, and so do all of them.
-/

namespace Gem5Wrapper

open FaultMachine Platform
open Function (update)

variable {τ μ : Type}

namespace Platform

variable {s s' s₁ s₂ : Platform μ} {t : Ptr} {packet : PacketPtr} {o : Option PacketPtr} {k : ℕ}
  {st : ResponseStatus}

/-! ## The components of SystemC -/

theorem Carries.access {l : Load} (h : s.Carries t l) : (s.world.payloads t).access = l.access := by
  cases l with
  | piped pkt =>
    obtain ⟨-, -, -, -, ha, -⟩ := h
    exact ha
  | foreign a => exact h.2

theorem Carries.address {l : Load} (h : s.Carries t l) :
    (s.world.payloads t).address = l.access.address := congrArg Access.address h.access

theorem Leaves.refl (hs : s.Sound) : Leaves 0 o s s :=
  ⟨.refl _, hs, Nat.le_refl _, fun _ _ => rfl, fun _ _ _ => rfl, fun _ _ => .inl rfl, rfl, rfl, rfl⟩

theorem Leaves.withMemory (h : Leaves k o s s') (c : μ) : Leaves k o s { s' with memory := c } :=
  ⟨h.grows, ⟨h.sound.tidy, h.sound.idle, h.sound.caughtUp⟩, h.newPacket, h.payloads, h.packets,
    h.response, h.now, h.events, h.log⟩

theorem Sound.setStatus (hs : s.Sound) (t : Ptr) (st : ResponseStatus) :
    (s.setStatus t st).Sound := by
  refine ⟨hs.tidy, fun x hx => ?_, hs.caughtUp⟩
  show (update s.world.payloads t _ x).hasMm = true ∧ (update s.world.payloads t _ x).refCount = 0
  have hidle := hs.idle x hx
  by_cases hxt : x = t
  · subst hxt
    rw [Function.update_self]
    exact hidle
  · rw [Function.update_of_ne hxt]
    exact hidle

/-- A component may set the status after the one below it. -/
theorem Leaves.setStatus {st' : ResponseStatus} (h : Leaves k o (s.setStatus t st) s')
    (ht : s.pool.InUse t) : Leaves k o (s.setStatus t st') (s'.setStatus t st') := by
  refine ⟨h.grows, h.sound.setStatus t st', h.newPacket, fun x hx => ?_, h.packets, h.response,
    h.now, h.events, h.log⟩
  have hpayload := h.payloads x hx
  show update s'.world.payloads t _ x = update s.world.payloads t _ x
  have hself : s'.world.payloads t = { s.world.payloads t with responseStatus := st } :=
    (h.payloads t ht).trans (Function.update_self ..)
  by_cases hxt : x = t
  · subst hxt
    rw [Function.update_self, Function.update_self, hself]
  · rw [Function.update_of_ne hxt, Function.update_of_ne hxt, hpayload]
    exact Function.update_of_ne hxt _ _

theorem setStatus_self (s : Platform μ) (t : Ptr) :
    s.setStatus t (s.world.payloads t).responseStatus = s := by
  unfold setStatus World.setPayload
  rw [Function.update_eq_self]

theorem memory_refines (m : Memories τ μ) (a : τ) :
    ((Component.memory a).bTransport m).Refines ((Component.memory a).direct m) := by
  intro s t l delay hs ht hl
  rw [Component.bTransport, Component.direct]
  dsimp only
  rw [hl.access]
  refine ⟨fun st o hd => ?_, fun hd => by cases hd⟩
  cases hd
  exact ⟨_, rfl, rfl, (Leaves.refl (hs.setStatus t _)).withMemory _⟩

theorem txnRouter_refines {r : TxnRouter Ptr} {mem bus : Blocking μ}
    {d d' : Load → ℕ → μ → Option (ResponseStatus × Outcome μ)} (hm : mem.Refines d)
    (hb : bus.Refines d') : (TxnRouter.bTransport r mem bus).Refines fun l delay c =>
      if r.toMem l.access.address then (d l delay c).map fun o => (.ok, o.2) else d' l delay c := by
  intro s t l delay hs ht hl
  rw [TxnRouter.bTransport, hl.address]
  dsimp only
  split_ifs with hto
  · obtain ⟨hok, hfault⟩ := hm s t l delay hs ht hl
    constructor
    · intro st o hd
      obtain ⟨o', hd', he⟩ := Option.map_eq_some_iff.1 hd
      cases he
      obtain ⟨s', h, hc, hl⟩ := hok _ _ hd'
      exact ⟨s'.setStatus t .ok, by rw [h]; rfl, hc, hl.setStatus ht⟩
    · intro hd
      obtain ⟨e, he⟩ := hfault (Option.map_eq_none_iff.1 hd)
      exact ⟨e, by rw [he]; rfl⟩
  · exact hb s t l delay hs ht hl

theorem simpleBus_refines {ports : List PortMapping} {isocks : ℕ → Blocking μ}
    {d : ℕ → Load → ℕ → μ → Option (ResponseStatus × Outcome μ)}
    (h : ∀ i, (isocks i).Refines (d i)) :
    (SimpleBus.transport ports isocks).Refines fun l delay c =>
      match Gem5Wrapper.SimpleBus.decode ports l.access.address with
      | none => some (.addressError, ⟨delay, c, 0⟩)
      | some id => d id l delay c := by
  intro s t l delay hs ht hl
  rw [SimpleBus.transport, hl.address]
  dsimp only
  cases Gem5Wrapper.SimpleBus.decode ports l.access.address with
  | none =>
    refine ⟨fun st o hd => ?_, fun hd => by cases hd⟩
    cases hd
    exact ⟨_, rfl, rfl, .refl (hs.setStatus t _)⟩
  | some id => exact h id s t l delay hs ht hl

theorem completed_response (pkt : Packet) :
    pkt.completed.cmd.needsResponse = false ∨ pkt.completed.cmd.isResponse = true := by
  unfold Packet.completed
  split_ifs with h
  · exact .inl rfl
  · exact .inl (Bool.eq_false_iff.2 h)

/-- The packet that a master port sends is the one that is carried, or a new one. -/
theorem obtainPacket_carries {l : Load} {ownerId : ℕ} {pkt : Packet} (hs : s.Sound)
    (hl : s.Carries t l) (hpkt : l.packet ownerId = some pkt) :
    ∃ p s₁, SCMasterPort.obtainPacket ownerId s t = .ok (p, s₁) ∧ p < s₁.newPacket ∧
      s₁.world.packets p = pkt ∧ s₁.memory = s.memory ∧ s₁.world.payloads = s.world.payloads ∧
      s₁.pool = s.pool ∧ Leaves 0 none s s₁ ∧
      (s.carried t = some p ∧ p < s.newPacket ∨ s.carried t = none ∧ s.newPacket ≤ p) := by
  unfold SCMasterPort.obtainPacket
  cases l with
  | piped pkt =>
    obtain ⟨x, hx, hlt, hp, -, -⟩ := hl
    cases hpkt
    rw [hx]
    exact ⟨_, _, rfl, hlt, hp, rfl, rfl, rfl, .refl hs,
      .inl ⟨by rw [carried, hx]; rfl, hlt⟩⟩
  | foreign a =>
    obtain ⟨hx, ha⟩ := hl
    have hcmd : (s.world.payloads t).command = a.command := congrArg Access.command ha
    unfold Load.packet at hpkt
    dsimp only at hpkt
    split_ifs at hpkt with hi
    cases hpkt
    rw [hx, SCMasterPort.generatePacket, hcmd, if_neg hi, ha]
    refine ⟨_, _, rfl, Nat.lt_succ_self _, Function.update_self .., rfl, rfl, rfl, ?_,
      .inr ⟨by rw [carried, hx]; rfl, Nat.le_refl _⟩⟩
    refine ⟨.refl _, ⟨hs.tidy, hs.idle, hs.caughtUp⟩, Nat.le_succ _, fun _ _ => rfl, ?_,
      fun _ hp => (by cases hp), rfl, rfl, rfl⟩
    intro p hp _
    exact Function.update_of_ne (Nat.ne_of_lt hp) _ _

/-- A fault on the way to the packet. -/
theorem obtainPacket_fault {l : Load} {ownerId : ℕ} (hl : s.Carries t l)
    (hpkt : l.packet ownerId = none) : ∃ e, SCMasterPort.obtainPacket ownerId s t = .error e := by
  cases l with
  | piped pkt => cases hpkt
  | foreign a =>
    obtain ⟨hx, ha⟩ := hl
    have hcmd : (s.world.payloads t).command = a.command := congrArg Access.command ha
    unfold Load.packet at hpkt
    dsimp only at hpkt
    split_ifs at hpkt with hi
    refine ⟨.fatal "SCMasterPort" "received transaction with unsupported command", ?_⟩
    rw [SCMasterPort.obtainPacket, hx]
    dsimp only
    rw [SCMasterPort.generatePacket, hcmd, if_pos hi]

/-- What happens to a new packet is not seen. -/
theorem Leaves.ofNew {q : PacketPtr} (h : Leaves 0 none s s₁) (h' : Leaves k (some q) s₁ s₂)
    (hpool : s₁.pool = s.pool)
    (hq : o = some q ∧ q < s.newPacket ∨ o = none ∧ s.newPacket ≤ q) : Leaves k o s s₂ := by
  constructor
  · exact hpool ▸ h'.grows
  · exact h'.sound
  · exact h.newPacket.trans h'.newPacket
  · intro x hx
    exact (h'.payloads x (hpool.symm ▸ hx)).trans (h.payloads x hx)
  · intro p hp hne
    have hpq : some p ≠ some q := by
      rcases hq with ⟨rfl, -⟩ | ⟨-, hq⟩
      · exact hne
      · intro he
        cases he
        exact Nat.not_lt_of_le hq hp
    exact (h'.packets p (Nat.lt_of_lt_of_le hp h.newPacket) hpq).trans
      (h.packets p hp (by simp))
  · intro p hp
    rcases hq with ⟨rfl, hlt⟩ | ⟨rfl, -⟩
    · cases hp
      rw [← h.packets q hlt (by simp)]
      exact h'.response q rfl
    · cases hp
  · exact h'.now.trans h.now
  · exact h'.events.trans h.events
  · exact h'.log.trans h.log

theorem masterPort_refines {ownerId : ℕ} {sendAtomic : Atomic μ}
    {d : Packet → μ → Option (Outcome μ)} (h : sendAtomic.Refines d) :
    (SCMasterPort.bTransport ownerId sendAtomic).Refines fun l delay c =>
      match l.packet ownerId with
      | none => none
      | some pkt => (d pkt c).map fun o => (.ok, { o with result := delay + o.result }) := by
  intro s t l delay hs ht hl
  unfold SCMasterPort.bTransport
  dsimp only
  cases hpkt : l.packet ownerId with
  | none =>
    refine ⟨fun st o hd => (by cases hd), fun _ => ?_⟩
    obtain ⟨e, he⟩ := obtainPacket_fault hl hpkt
    exact ⟨e, by rw [he]; rfl⟩
  | some pkt =>
    obtain ⟨p, s₁, ho, hp, rfl, hc, hpay, hpool, hl₁, hq⟩ := obtainPacket_carries hs hl hpkt
    obtain ⟨hok, hfault⟩ := h s₁ p hl₁.sound hp
    rw [hc] at hok hfault
    rw [ho, ok_bind]
    constructor
    · intro st o hd
      obtain ⟨o', hd', he⟩ := Option.map_eq_some_iff.1 hd
      cases he
      obtain ⟨s₂, hs₂, hc₂, hresp, hl₂⟩ := hok _ hd'
      have hcheck := completed_response (s₁.world.packets p)
      rw [← hresp] at hcheck
      have hl : Leaves o'.payloads (s.carried t)
          (s.setStatus t (s.world.payloads t).responseStatus) s₂ := by
        rw [setStatus_self]
        exact hl₁.ofNew hl₂ hpool hq
      refine ⟨s₂.setStatus t .ok, ?_, hc₂, ?_⟩
      · dsimp only
        rw [hs₂, ok_bind]
        dsimp only
        rw [check_pos hcheck]
        rfl
      · exact hl.setStatus ht
    · intro hd
      obtain ⟨e, he⟩ := hfault (Option.map_eq_none_iff.1 hd)
      refine ⟨e, ?_⟩
      dsimp only
      rw [he]
      rfl

/-! ## The components of gem5 -/

theorem completed_completed (pkt : Packet) : pkt.completed.completed = pkt.completed := by
  cases h : pkt.cmd.needsResponse <;>
    simp [Packet.completed, h, Packet.makeResponse, MemCmd.responseCommand]

theorem respond_packets (s : Platform μ) (p : PacketPtr) :
    (s.respond p).world.packets = update s.world.packets p (s.world.packets p).completed := by
  unfold respond Packet.completed
  dsimp only
  split_ifs
  · rfl
  · exact (Function.update_eq_self _ _).symm

/-- The response is all that `respond` changes. -/
theorem respond_eq (s : Platform μ) (p : PacketPtr) : s.respond p = { s with world := { s.world with
    packets := update s.world.packets p (s.world.packets p).completed } } := by
  have h := respond_packets s p
  rw [← h]
  unfold respond
  dsimp only
  split_ifs
  · rfl
  · rfl

/-- A port makes the response after the call. -/
theorem Leaves.respond {p : PacketPtr} (h : Leaves k (some p) s s') :
    Leaves k (some p) s (s'.respond p) ∧
      (s'.respond p).world.packets p = (s.world.packets p).completed := by
  have hcompleted : (s'.world.packets p).completed = (s.world.packets p).completed := by
    rcases h.response p rfl with he | he
    · rw [he]
    · rw [he, completed_completed]
  have hself : (s'.respond p).world.packets p = (s.world.packets p).completed := by
    rw [respond_packets, Function.update_self, hcompleted]
  refine ⟨?_, hself⟩
  rw [respond_eq] at hself ⊢
  refine ⟨h.grows, ⟨h.sound.tidy, h.sound.idle, h.sound.caughtUp⟩, h.newPacket, h.payloads, ?_, ?_,
    h.now, h.events, h.log⟩
  · intro q hq hne
    have hqp : q ≠ p := fun he => hne (congrArg some he)
    exact (Function.update_of_ne hqp _ _).trans (h.packets q hq hne)
  · intro q hq
    cases hq
    exact .inr hself

theorem gem5Memory_refines (m : Memories τ μ) (a : τ) :
    ((Gem5Component.memory a).recvAtomic m).Refines ((Gem5Component.memory a).direct m) := by
  intro s p hs hp
  rw [Gem5Component.recvAtomic, Gem5Component.direct]
  refine ⟨fun o hd => ?_, fun hd => by cases hd⟩
  cases hd
  obtain ⟨hl, hresp⟩ := (Leaves.refl (o := some p) hs).respond
  exact ⟨_, rfl, rfl, hresp, hl.withMemory _⟩

theorem crossbar_refines {latency : Packet → ℕ} {route : ℕ → Gem5Component τ} {m : Memories τ μ}
    (h : ∀ addr, ((route addr).recvAtomic m).Refines ((route addr).direct m)) :
    ((Gem5Component.crossbar latency route).recvAtomic m).Refines
      ((Gem5Component.crossbar latency route).direct m) := by
  intro s p hs hp
  rw [Gem5Component.recvAtomic, Gem5Component.direct]
  dsimp only
  obtain ⟨hok, hfault⟩ := h (s.world.packets p).addr s p hs hp
  constructor
  · intro o hd
    obtain ⟨o', hd', he⟩ := Option.map_eq_some_iff.1 hd
    cases he
    obtain ⟨s', h, hc, hresp, hl⟩ := hok _ hd'
    exact ⟨s', by rw [h]; rfl, hc, hresp, hl⟩
  · intro hd
    obtain ⟨e, he⟩ := hfault (Option.map_eq_none_iff.1 hd)
    exact ⟨e, by rw [he]; rfl⟩

theorem socket_outlet {q : SCSlavePort} {pkt : Packet} {i : ℕ} (h : q.outlet pkt = some i)
    (s : Platform μ) : SCSlavePort.socket q s (q.getSocketId pkt.requestorId) = .ok i := by
  unfold SCSlavePort.socket World.socket
  unfold Gem5Wrapper.SCSlavePort.outlet at h
  split at h
  · rename_i htr
    cases h
    rw [htr]
  · rename_i htr hmulti
    split_ifs at h with hlt
    cases h
    rw [htr, hmulti]
    dsimp only
    rw [check_pos hlt]
    rfl
  · cases h

theorem socket_fault {q : SCSlavePort} {pkt : Packet} (h : q.outlet pkt = none) (s : Platform μ) :
    ∃ e, SCSlavePort.socket q s (q.getSocketId pkt.requestorId) = .error e := by
  unfold SCSlavePort.socket World.socket
  unfold Gem5Wrapper.SCSlavePort.outlet at h
  split at h
  · cases h
  · rename_i htr hmulti
    split_ifs at h with hlt
    rw [htr, hmulti]
    exact ⟨_, bind_eq_error.2 (.inl (check_eq_error.2 ⟨hlt, rfl⟩))⟩
  · rename_i htr hmulti
    rw [htr, hmulti]
    exact ⟨_, rfl⟩

/-- A packet that does what it states is sent to the socket. -/
theorem executeAtomic_stated {q : SCSlavePort} {sockets : ℕ → Blocking μ} {i : ℕ}
    (ha : (s.world.packets packet).Atomic) (hst : (s.world.packets packet).Stated) :
    SCSlavePort.executeAtomic q sockets s packet i t =
      SCSlavePort.callTransport q sockets s i t := by
  obtain ⟨-, hrw, hswap⟩ := ha
  unfold Packet.Stated at hst
  unfold SCSlavePort.executeAtomic
  dsimp only
  rw [if_neg (Bool.eq_false_iff.1 hswap)]
  split_ifs with hr hi hw
  · rfl
  · simp_all
  · rfl
  · simp_all

/-- An invalidation is not. -/
theorem executeAtomic_invalidate {q : SCSlavePort} {sockets : ℕ → Blocking μ} {i : ℕ}
    (ha : (s.world.packets packet).Atomic) (hst : ¬ (s.world.packets packet).Stated) :
    SCSlavePort.executeAtomic q sockets s packet i t = .ok (0, s) := by
  obtain ⟨-, -, hswap⟩ := ha
  unfold Packet.Stated at hst
  rw [not_or, Bool.not_eq_false] at hst
  unfold SCSlavePort.executeAtomic
  dsimp only
  rw [if_neg (Bool.eq_false_iff.1 hswap), if_neg hst.1, if_pos hst.2]

/-- The response and the release, after the call. -/
theorem Prepared.complete {delay : ℕ} {st : ResponseStatus} (h : s.Prepared s₁ t packet)
    (hs : s.Sound) (hl : Leaves k (some packet) (s₁.setStatus t st) s₂) :
    ∃ s₃, ((do
        let s ← SCSlavePort.release (s₂.respond packet) t
        pure (delay, s) : Except Fault (ℕ × Platform μ)) = .ok (delay, s₃)) ∧
      s₃.memory = s₂.memory ∧
      s₃.world.packets packet = (s.world.packets packet).completed ∧
      Leaves (k + 1) (some packet) s s₃ := by
  obtain ⟨hl, hresp⟩ := hl.respond
  obtain ⟨s₃, hrel, hc, hpackets, hl⟩ := h.release hs hl
  have hpkt : s₁.world.packets packet = s.world.packets packet := congrFun h.packets packet
  have hmem : (s₂.respond packet).memory = s₂.memory := by rw [respond_eq]
  have hresp : (s₂.respond packet).world.packets packet =
      (s₁.world.packets packet).completed := hresp
  exact ⟨s₃, by rw [hrel]; rfl, hc.trans hmem, by rw [hpackets, hresp, hpkt], hl⟩

/-- The port refuses every other packet. -/
theorem recvAtomic_fault {q : SCSlavePort} {sockets : ℕ → Blocking μ} (hs : s.Sound)
    (ha : ¬ (s.world.packets packet).Atomic) :
    ∃ e, SCSlavePort.recvAtomic q sockets s packet = .error e := by
  unfold SCSlavePort.recvAtomic
  dsimp only
  rw [show s.world.caughtUp = .ok ⟨⟩ from check_pos hs.caughtUp, ok_bind]
  by_cases hcache : (s.world.packets packet).cacheResponding = false
  · rw [check_pos hcache, ok_bind]
    by_cases hrw : (s.world.packets packet).cmd.isRead = true ∨
        (s.world.packets packet).cmd.isWrite = true
    · obtain ⟨t, s₁, hprep, h₁⟩ :=
        hs.prepare (q.getSocketId (s.world.packets packet).requestorId) hrw
      have hswap : (s₁.world.packets packet).cmd.isSwapReq = true := by
        rw [h₁.packets]
        exact Bool.of_not_eq_false fun hswap => ha ⟨hcache, hrw, hswap⟩
      rw [check_pos hrw, ok_bind, hprep, ok_bind]
      dsimp only
      rw [SCSlavePort.executeAtomic, if_pos hswap]
      exact ⟨_, rfl⟩
    · exact ⟨_, bind_eq_error.2 (.inl (check_eq_error.2 ⟨hrw, rfl⟩))⟩
  · exact ⟨_, bind_eq_error.2 (.inl (check_eq_error.2 ⟨hcache, rfl⟩))⟩

theorem slavePort_refines {q : SCSlavePort} {sockets : ℕ → Blocking μ}
    {d : ℕ → Load → ℕ → μ → Option (ResponseStatus × Outcome μ)}
    (h : ∀ i, (sockets i).Refines (d i)) :
    (SCSlavePort.recvAtomic q sockets).Refines fun pkt c =>
      if pkt.Atomic then
        if pkt.Stated then
          match q.outlet pkt with
          | none => none
          | some i => (d i (.piped pkt) 0 c).map fun o => { o.2 with payloads := o.2.payloads + 1 }
        else some ⟨0, c, 1⟩
      else none := by
  intro s p hs hp
  by_cases ha : (s.world.packets p).Atomic
  · have hcaught : s.world.caughtUp = .ok ⟨⟩ := check_pos hs.caughtUp
    unfold SCSlavePort.recvAtomic
    dsimp only
    rw [hcaught, ok_bind]
    obtain ⟨t, s₁, hprep, h₁⟩ := hs.prepare (q.getSocketId (s.world.packets p).requestorId) ha.2.1
    have hpkt : s₁.world.packets p = s.world.packets p := congrFun h₁.packets p
    have ha₁ : (s₁.world.packets p).Atomic := hpkt.symm ▸ ha
    rw [if_pos ha, check_pos ha.1, ok_bind, check_pos ha.2.1, ok_bind, hprep, ok_bind]
    dsimp only
    by_cases hst : (s.world.packets p).Stated
    · rw [if_pos hst, executeAtomic_stated ha₁ (hpkt.symm ▸ hst)]
      unfold SCSlavePort.callTransport
      cases hout : q.outlet (s.world.packets p) with
      | none =>
        obtain ⟨e, he⟩ := socket_fault hout s₁
        refine ⟨fun o hd => (by cases hd), fun _ => ⟨e, ?_⟩⟩
        rw [he]
        rfl
      | some i =>
        obtain ⟨hok, hfault⟩ := h i s₁ t (.piped (s.world.packets p)) 0 (h₁.sound hs)
          (h₁.inUse hs) (h₁.carries hp hst)
        rw [h₁.memory, h₁.extension] at hok
        rw [h₁.memory] at hfault
        rw [socket_outlet hout, ok_bind]
        constructor
        · intro o hd
          obtain ⟨o', hd', he⟩ := Option.map_eq_some_iff.1 hd
          cases he
          obtain ⟨s₂, hs₂, hc, hl⟩ := hok _ _ hd'
          obtain ⟨s₃, hs₃, hc₃, hresp, hl⟩ := h₁.complete hs hl
          exact ⟨s₃, by rw [hs₂]; exact hs₃, hc₃.trans hc, hresp, hl⟩
        · intro hd
          obtain ⟨e, he⟩ := hfault (Option.map_eq_none_iff.1 hd)
          exact ⟨e, by rw [he]; rfl⟩
    · rw [if_neg hst, executeAtomic_invalidate ha₁ (hpkt.symm ▸ hst)]
      refine ⟨fun o hd => ?_, fun hd => (by cases hd)⟩
      cases hd
      have hl : Leaves 0 (some p) (s₁.setStatus t (s₁.world.payloads t).responseStatus) s₁ := by
        rw [setStatus_self]
        exact .refl (h₁.sound hs)
      obtain ⟨s₃, hs₃, hc₃, hresp, hl⟩ := h₁.complete hs hl
      exact ⟨s₃, hs₃, hc₃.trans h₁.memory, hresp, hl⟩
  · dsimp only
    rw [if_neg ha]
    exact ⟨fun o hd => (by cases hd), fun _ => recvAtomic_fault hs ha⟩

end Platform

/-! ## Whole platforms -/

mutual

theorem Component.bTransport_refines (m : Memories τ μ) :
    ∀ c : Component τ, (c.bTransport m).Refines (c.direct m)
  | .memory a => memory_refines m a
  | .txnRouter r mem bus => by
    intro s t l delay
    rw [Component.bTransport, Component.direct]
    exact txnRouter_refines (mem.bTransport_refines m) (bus.bTransport_refines m) s t l delay
  | .simpleBus ports targets => by
    intro s t l delay
    rw [Component.bTransport, Component.direct]
    exact simpleBus_refines (fun i => (targets i).bTransport_refines m) s t l delay
  | .masterPort ownerId below => by
    intro s t l delay
    rw [Component.bTransport, Component.direct]
    exact masterPort_refines (below.recvAtomic_refines m) s t l delay

theorem Gem5Component.recvAtomic_refines (m : Memories τ μ) :
    ∀ c : Gem5Component τ, (c.recvAtomic m).Refines (c.direct m)
  | .memory a => gem5Memory_refines m a
  | .crossbar _ route => crossbar_refines fun addr => (route addr).recvAtomic_refines m
  | .slavePort q sockets => by
    intro s p
    rw [Gem5Component.recvAtomic, Gem5Component.direct]
    exact slavePort_refines (fun i => (sockets i).bTransport_refines m) s p

end

end Gem5Wrapper
