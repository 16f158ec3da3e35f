import Gem5Wrapper.AtomicAccess

/-!
# Functional accesses

As for the atomic accesses. `recvFunctional` does not look at the command of the packet, so that it
must state what the packet does.
-/

namespace Gem5Wrapper

open FaultMachine Platform
open Function (update)

variable {τ μ : Type}

namespace Platform

variable {s s' s₁ s₂ : Platform μ} {t : Ptr} {packet : PacketPtr} {o : Option PacketPtr} {k : ℕ}
  {st : ResponseStatus}

theorem memory_refines_dbg (m : Memories τ μ) (a : τ) :
    ((Component.memory a).transportDbg m).Refines ((Component.memory a).directDbg m) := by
  intro s t l hs ht hl
  rw [Component.transportDbg, Component.directDbg]
  dsimp only
  rw [hl.access]
  refine ⟨fun o hd => ?_, fun hd => by cases hd⟩
  cases hd
  refine ⟨_, (s.world.payloads t).responseStatus, rfl, rfl, ?_⟩
  rw [setStatus_self]
  exact (Leaves.refl hs).withMemory _

theorem txnRouter_refines_dbg {r : TxnRouter Ptr} {bus : Debug μ}
    {d : Load → μ → Option (Outcome μ)} (hb : bus.Refines d) :
    (TxnRouter.transportDbg r bus).Refines fun l c =>
      if r.toMem l.access.address then d l c else none := by
  intro s t l hs ht hl
  rw [TxnRouter.transportDbg, hl.address]
  dsimp only
  split_ifs with hto
  · exact hb s t l hs ht hl
  · exact ⟨fun o hd => (by cases hd), fun _ => ⟨_, rfl⟩⟩

theorem simpleBus_refines_dbg {ports : List PortMapping} {isocks : ℕ → Debug μ}
    {d : ℕ → Load → μ → Option (Outcome μ)} (h : ∀ i, (isocks i).Refines (d i)) :
    (SimpleBus.transportDbg ports isocks).Refines fun l c =>
      match Gem5Wrapper.SimpleBus.decode ports l.access.address with
      | none => some ⟨0, c, 0⟩
      | some id => d id l c := by
  intro s t l hs ht hl
  rw [SimpleBus.transportDbg, hl.address]
  dsimp only
  cases Gem5Wrapper.SimpleBus.decode ports l.access.address with
  | none =>
    refine ⟨fun o hd => ?_, fun hd => by cases hd⟩
    cases hd
    exact ⟨_, _, rfl, rfl, .refl (hs.setStatus t .addressError)⟩
  | some id => exact h id s t l hs ht hl

theorem Carries.stated {l : Load} {ownerId : ℕ} {pkt : Packet} (h : s.Carries t l)
    (hpkt : l.packet ownerId = some pkt) : pkt.Stated := by
  cases l with
  | piped pkt =>
    cases hpkt
    obtain ⟨-, -, -, -, -, hst⟩ := h
    exact hst
  | foreign a =>
    unfold Load.packet at hpkt
    dsimp only at hpkt
    split_ifs at hpkt
    cases hpkt
    exact .inr rfl

theorem masterPort_refines_dbg {ownerId : ℕ} {sendFunctional : Functional μ}
    {d : Packet → μ → Option (Outcome μ)} (h : sendFunctional.Refines d) :
    (SCMasterPort.transportDbg ownerId sendFunctional).Refines fun l c =>
      match l.packet ownerId with
      | none => none
      | some pkt => (d pkt c).map fun o => { o with result := l.access.dataLength } := by
  intro s t l hs ht hl
  unfold SCMasterPort.transportDbg
  dsimp only
  cases hpkt : l.packet ownerId with
  | none =>
    refine ⟨fun o hd => (by cases hd), fun _ => ?_⟩
    obtain ⟨e, he⟩ := obtainPacket_fault hl hpkt
    exact ⟨e, by rw [he]; rfl⟩
  | some pkt =>
    obtain ⟨p, s₁, ho, hp, rfl, hc, hpay, hpool, hl₁, hq⟩ := obtainPacket_carries hs hl hpkt
    obtain ⟨hok, hfault⟩ := h s₁ p hl₁.sound hp (hl.stated hpkt)
    rw [hc] at hok hfault
    rw [ho, ok_bind]
    constructor
    · intro o hd
      obtain ⟨o', hd', he⟩ := Option.map_eq_some_iff.1 hd
      cases he
      obtain ⟨s₂, hs₂, hc₂, hl₂⟩ := hok _ hd'
      have hl' := hl₁.ofNew hl₂ hpool hq
      have hlen : (s₂.world.payloads t).dataLength = l.access.dataLength := by
        rw [hl'.payloads t ht]
        exact congrArg Access.dataLength hl.access
      refine ⟨s₂, (s.world.payloads t).responseStatus, ?_, hc₂, ?_⟩
      · dsimp only
        rw [hs₂, ok_bind, hlen]
        rfl
      · rw [setStatus_self]
        exact hl'
    · intro hd
      obtain ⟨e, he⟩ := hfault (Option.map_eq_none_iff.1 hd)
      refine ⟨e, ?_⟩
      dsimp only
      rw [he]
      rfl

theorem gem5Memory_refines_dbg (m : Memories τ μ) (a : τ) :
    ((Gem5Component.memory a).recvFunctional m).Refines ((Gem5Component.memory a).directDbg m) := by
  intro s p hs hp hst
  rw [Gem5Component.recvFunctional, Gem5Component.directDbg]
  refine ⟨fun o hd => ?_, fun hd => by cases hd⟩
  cases hd
  obtain ⟨hl, -⟩ := (Leaves.refl (o := some p) hs).respond
  exact ⟨_, rfl, rfl, hl.withMemory _⟩

theorem slavePort_refines_dbg {q : SCSlavePort} {sockets : ℕ → Debug μ}
    {d : ℕ → Load → μ → Option (Outcome μ)} (h : ∀ i, (sockets i).Refines (d i)) :
    (SCSlavePort.recvFunctional q sockets).Refines fun pkt c =>
      if pkt.cmd.isRead = true ∨ pkt.cmd.isWrite = true then
        match q.outlet pkt with
        | none => none
        | some i =>
          match d i (.piped pkt) c with
          | none => none
          | some o =>
            if o.result = pkt.size then some { o with payloads := o.payloads + 1 } else none
      else none := by
  intro s p hs hp hst
  unfold SCSlavePort.recvFunctional
  dsimp only
  by_cases hrw : (s.world.packets p).cmd.isRead = true ∨ (s.world.packets p).cmd.isWrite = true
  · obtain ⟨t, s₁, hprep, h₁⟩ := hs.prepare (q.getSocketId (s.world.packets p).requestorId) hrw
    rw [if_pos hrw, hprep, ok_bind]
    dsimp only
    cases hout : q.outlet (s.world.packets p) with
    | none =>
      obtain ⟨e, he⟩ := socket_fault hout s₁
      refine ⟨fun o hd => (by cases hd), fun _ => ⟨e, ?_⟩⟩
      rw [he]
      rfl
    | some i =>
      obtain ⟨hok, hfault⟩ := h i s₁ t (.piped (s.world.packets p)) (h₁.sound hs) (h₁.inUse hs)
        (h₁.carries hp hst)
      rw [h₁.memory, h₁.extension] at hok
      rw [h₁.memory] at hfault
      rw [socket_outlet hout, ok_bind]
      dsimp only
      cases hd : d i (.piped (s.world.packets p)) s.memory with
      | none =>
        obtain ⟨e, he⟩ := hfault hd
        exact ⟨fun o hd => (by cases hd), fun _ => ⟨e, by rw [he]; rfl⟩⟩
      | some o =>
        obtain ⟨s₂, st, hs₂, hc, hl⟩ := hok o hd
        have hin : s₁.pool.InUse t := h₁.inUse hs
        have hlen : (s₂.world.payloads t).dataLength = (s.world.packets p).size := by
          rw [hl.payloads t hin]
          show (update s₁.world.payloads t _ t).dataLength = _
          rw [Function.update_self]
          exact h₁.dataLength
        rw [hs₂, ok_bind]
        dsimp only
        rw [hlen]
        split_ifs with hbytes
        · refine ⟨fun o' hd => ?_, fun hd => (by cases hd)⟩
          cases hd
          obtain ⟨s₃, hrel, hc₃, -, hl⟩ := h₁.release hs hl
          exact ⟨s₃, by rw [check_pos hbytes, ok_bind, hrel], hc₃.trans hc, hl⟩
        · exact ⟨fun o' hd => (by cases hd),
            fun _ => ⟨_, bind_eq_error.2 (.inl (check_eq_error.2 ⟨hbytes, rfl⟩))⟩⟩
  · rw [if_neg hrw]
    have hi : (s.world.packets p).cmd.isInvalidate = false :=
      hst.resolve_left fun hr => hrw (.inl hr)
    obtain ⟨e, he⟩ : ∃ e, s.world.prepare p
        (q.getSocketId (s.world.packets p).requestorId) = .error e :=
      World.prepare_fault _ (by simp_all)
    refine ⟨fun o hd => (by cases hd), fun _ => ⟨e, ?_⟩⟩
    rw [SCSlavePort.prepare, he]
    rfl

end Platform

/-! ## Whole platforms -/

mutual

theorem Component.transportDbg_refines (m : Memories τ μ) :
    ∀ c : Component τ, (c.transportDbg m).Refines (c.directDbg m)
  | .memory a => memory_refines_dbg m a
  | .txnRouter r mem bus => by
    intro s t l
    rw [Component.transportDbg, Component.directDbg]
    exact txnRouter_refines_dbg (bus.transportDbg_refines m) s t l
  | .simpleBus ports targets => by
    intro s t l
    rw [Component.transportDbg, Component.directDbg]
    exact simpleBus_refines_dbg (fun i => (targets i).transportDbg_refines m) s t l
  | .masterPort ownerId below => by
    intro s t l
    rw [Component.transportDbg, Component.directDbg]
    exact masterPort_refines_dbg (below.recvFunctional_refines m) s t l

theorem Gem5Component.recvFunctional_refines (m : Memories τ μ) :
    ∀ c : Gem5Component τ, (c.recvFunctional m).Refines (c.directDbg m)
  | .memory a => gem5Memory_refines_dbg m a
  | .crossbar _ route => by
    intro s p
    rw [Gem5Component.recvFunctional, Gem5Component.directDbg]
    exact (route (s.world.packets p).addr).recvFunctional_refines m s p
  | .slavePort q sockets => by
    intro s p
    rw [Gem5Component.recvFunctional, Gem5Component.directDbg]
    exact slavePort_refines_dbg (fun i => (sockets i).transportDbg_refines m) s p

end

end Gem5Wrapper
