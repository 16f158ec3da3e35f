import Gem5Wrapper.Frames
import Gem5Wrapper.Standstill

/-!
# The callbacks of a transaction

A transaction needs six callbacks: the router takes its request, executes it, gets it back from the
memory and ends it, and the port services END_REQ and BEGIN_RESP. Each callback shows an observation
that is made once for a transaction, so a run has no more of them than the transactions that it
accepts allow, however long it is. The wrapper never polls.
-/

namespace Gem5Wrapper

open FaultMachine OneAtATime
open Function (update)
open TxnRouter (eventsOf)

/-! ## What every call keeps -/

namespace World

/-- The time stays, and the history goes on. -/
structure Goes (w w' : World) : Prop where
  now : w'.now = w.now
  history : w.trace <:+ w'.trace

variable {w w' w'' : World} {packet : PacketPtr} {s : ℕ} {t : Ptr} {e : PayloadEvent}
  {x : Gem5Extension}

theorem Goes.refl (w : World) : w.Goes w := ⟨rfl, List.suffix_rfl⟩

theorem Goes.trans (h : w.Goes w') (h' : w'.Goes w'') : w.Goes w'' :=
  ⟨h'.now.trans h.now, h.history.trans h'.history⟩

theorem goes_emit (w : World) (o : Obs) : w.Goes (w.emit o) := ⟨rfl, List.suffix_cons ..⟩

theorem release_goes (h : w.release t = .ok w') : w.Goes w' := by
  obtain ⟨-, -, h⟩ := bind_eq_ok.1 h
  dsimp only at h
  split_ifs at h <;> cases h <;> exact ⟨rfl, List.suffix_rfl⟩

theorem prepare_frame (h : w.prepare packet s = .ok (t, w')) :
    w'.now = w.now ∧ w'.events = w.events := by
  have ha : w.allocate.2.now = w.now ∧ w.allocate.2.events = w.events := by
    unfold allocate
    dsimp only
    split_ifs <;> exact ⟨rfl, rfl⟩
  simp only [prepare, acquire, packet2payload, bind_eq_ok, check_eq_ok, pure_eq_ok,
    Except.ok.injEq, Prod.mk.injEq] at h
  obtain ⟨_, ⟨-, -, rfl⟩, w₂, ⟨-, -, h₂⟩, rfl, rfl⟩ := h
  split_ifs at h₂ <;> cases h₂ <;> exact ha

theorem handleReply_now {k : ℕ} {reply : Reply} (h : w.handleReply t s k reply = .ok w') :
    w'.now = w.now := by
  unfold handleReply at h
  split at h
  · simp only [bind_eq_ok, check_eq_ok] at h
    obtain ⟨-, -, h⟩ := h
    split_ifs at h
    · cases h
      rfl
    · obtain ⟨_, -, h⟩ := bind_eq_ok.1 h
      cases h
      rfl
  · simp only [bind_eq_ok, check_eq_ok, pure_eq_ok, Except.ok.injEq] at h
    obtain ⟨-, -, rfl⟩ := h
    rfl
  · simp only [bind_eq_ok, check_eq_ok] at h
    obtain ⟨-, -, h⟩ := h
    exact (release_goes h).now

theorem sendBeginReq_now {reply : Reply} (h : w.sendBeginReq packet s reply = .ok w') :
    w'.now = w.now := by
  rw [sendBeginReq_eq] at h
  obtain ⟨⟨t, w₁⟩, hp, h⟩ := bind_eq_ok.1 h
  obtain ⟨w₂, hw, h⟩ := bind_eq_ok.1 h
  have hprep : w₁.now = w.now := ((prepare_frame hp).1 :)
  have hfw : w₂.now = w₁.now := by
    rw [nbTransportFw_eq] at hw
    obtain ⟨_, -, hw⟩ := bind_eq_ok.1 hw
    cases hw
    rfl
  exact (handleReply_now h).trans (hfw.trans hprep)

/-- A request that gem5 makes takes no time. -/
theorem gem5Request_goes {r : Request} {b : Bool} (h : w.gem5Request r = .ok (b, w')) :
    w.Goes w' := by
  obtain ⟨l, hl, -⟩ := (gem5Request_keeps h).trace
  refine ⟨?_, l, hl.symm⟩
  obtain ⟨-, -, h⟩ := bind_eq_ok.1 h
  obtain ⟨-, -, h⟩ := bind_eq_ok.1 h
  obtain ⟨k, port, -, -, -, rfl⟩ | ⟨s, -, h⟩ := recvTimingReq_cases h
  · rfl
  · exact (sendBeginReq_now h :)

theorem goes_stepRule : StepRule Goes where
  refl := .refl
  trans _ _ _ h h' := h.trans h'
  emit := goes_emit
  port _ _ := ⟨rfl, List.suffix_rfl⟩
  release _ _ _ h := release_goes h
  makeResponse _ _ := ⟨rfl, List.suffix_rfl⟩
  request _ _ _ _ h := gem5Request_goes h
  catchup _ := ⟨rfl, List.suffix_rfl⟩
  events _ _ := ⟨rfl, List.suffix_rfl⟩
  acquire _ _ _ h := by
    obtain ⟨-, -, h⟩ := bind_eq_ok.1 h
    cases h
    exact ⟨rfl, List.suffix_rfl⟩

/-- **Only `advance` takes time.** -/
theorem step_goes {a : Gem5Wrapper.Act} (h : w.step a = .ok w') (ha : ∀ d, a ≠ .advance d) :
    w.Goes w' :=
  goes_stepRule.step h ha

end World

/-! ## Callbacks of a router -/

namespace TxnRouter

/-- What is shown once in a callback for an event of the queue. -/
def Obs.ofQueue {α : Type} : Obs α → Bool
  | .acquire _ | .ended _ => true
  | _ => false

/-- What is shown once in any callback. -/
def Obs.marks {α : Type} : Obs α → Bool
  | .acquire _ | .ended _ | .execute _ | .executed .. => true
  | _ => false

variable {α : Type} {r r' : TxnRouter α} {x : α} {l : List (Obs α)}

/-- What is taken out of the queue is shown. -/
def Paid (r : TxnRouter α) : Prop :=
  r.trace.countP Obs.ofQueue + r.mPeq.length = (requests r.events).length + (acks r.events).length

theorem countP_marks (l : List (Obs α)) : l.countP Obs.marks = l.countP Obs.ofQueue +
    (OneAtATime.starts (eventsOf l)).length + (finishes (eventsOf l)).length := by
  induction l with
  | nil => rfl
  | cons o l ih =>
    have hev : eventsOf (o :: l) = o.event.toList ++ eventsOf l := by
      rw [eventsOf, List.filterMap_cons]
      cases o.event <;> rfl
    rw [List.countP_cons, List.countP_cons, ih, hev, OneAtATime.starts, finishes,
      List.filterMap_append, List.filterMap_append, List.length_append, List.length_append]
    cases o <;> simp [Obs.marks, Obs.ofQueue, Obs.event] <;> omega

variable [DecidableEq α]

theorem sendEndReq_queue (h : r.sendEndReq x (accepting .endReq) = .ok r') :
    r'.mPeq = r.mPeq ∧ r'.trace = .endReq x :: r.trace := by
  obtain ⟨r₁, h₁, h⟩ := bind_eq_ok.1 h
  cases h₁
  obtain ⟨-, -, h⟩ := bind_eq_ok.1 h
  cases h
  exact ⟨rfl, rfl⟩

theorem sendResponse_queue (h : r.sendResponse x (accepting .beginResp) = .ok r') :
    r'.mPeq = r.mPeq ∧ r'.trace.countP Obs.ofQueue = r.trace.countP Obs.ofQueue := by
  rw [sendResponse_accepting] at h
  cases h
  exact ⟨rfl, rfl⟩

/-- A callback for an event of the queue shows one such observation. -/
theorem peqCb_ofQueue {ph : Phase} (h : r.peqCb x ph acceptingCb = .ok r') :
    r'.mPeq = r.mPeq ∧ r'.trace.countP Obs.ofQueue = r.trace.countP Obs.ofQueue + 1 := by
  have hgrant : ∀ r₁ r₂ : TxnRouter α, ∀ y, r₁.sendEndReq y (accepting .endReq) = .ok r₂ →
      r₂.mPeq = r₁.mPeq ∧ r₂.trace.countP Obs.ofQueue = r₁.trace.countP Obs.ofQueue := by
    intro r₁ r₂ y hs
    obtain ⟨hq, ht⟩ := sendEndReq_queue hs
    exact ⟨hq, ht ▸ List.countP_cons_of_neg (by simp [Obs.ofQueue])⟩
  unfold peqCb at h
  split at h
  · dsimp only at h
    have hacquired : (r.emit (.acquire x)).trace.countP Obs.ofQueue =
        r.trace.countP Obs.ofQueue + 1 := List.countP_cons_of_pos rfl
    split_ifs at h
    · obtain ⟨hq, ht⟩ := hgrant _ _ _ h
      exact ⟨hq, ht.trans hacquired⟩
    · cases h
      exact ⟨rfl, hacquired⟩
  · obtain ⟨-, -, h⟩ := bind_eq_ok.1 h
    have hended : (({ r with transactionInProgress := none, responseInProgress := false } :
        TxnRouter α).emit (.ended x)).trace.countP Obs.ofQueue =
          r.trace.countP Obs.ofQueue + 1 := List.countP_cons_of_pos rfl
    -- the request that waits, once the next response is sent
    have hrest : ∀ r₁ r₂ : TxnRouter α, ∀ y, r₁.mPeq = r.mPeq →
        r₁.trace.countP Obs.ofQueue = r.trace.countP Obs.ofQueue + 1 →
        (r₁.sendEndReq y (accepting .endReq) >>= fun r => pure { r with endReqPending := none }) =
          .ok r₂ →
        r₂.mPeq = r.mPeq ∧ r₂.trace.countP Obs.ofQueue = r.trace.countP Obs.ofQueue + 1 := by
      intro r₁ r₂ y hq ht hs
      obtain ⟨r₃, h₃, hs⟩ := bind_eq_ok.1 hs
      cases hs
      obtain ⟨hq', ht'⟩ := hgrant _ _ _ h₃
      exact ⟨hq'.trans hq, ht'.trans ht⟩
    dsimp only at h
    split at h
    · obtain ⟨r₁, h₁, h⟩ := bind_eq_ok.1 h
      obtain ⟨hq, ht⟩ := sendResponse_queue h₁
      have ht := ht.trans hended
      rw [pure_eq_ok, ok_bind] at h
      split at h
      · exact hrest { r₁ with nextResponsePending := none } _ _ hq ht h
      · cases h
        exact ⟨hq, ht⟩
    · rw [pure_eq_ok, ok_bind] at h
      split at h
      · refine hrest _ _ _ ?_ hended h
        rfl
      · cases h
        exact ⟨rfl, hended⟩
  · cases h

/-- A callback only takes out of the queue. -/
theorem step_ofQueue {a : Act α} (ha : a.Accepting) (h : r.step a = .ok r') :
    r'.mPeq.Sublist r.mPeq ∧ r'.trace.countP Obs.ofQueue + r'.mPeq.length =
      r.trace.countP Obs.ofQueue + r.mPeq.length := by
  cases a with
  | call c => exact ha.elim
  | advance d => exact ha.elim
  | peqCb i o =>
    obtain rfl : o = acceptingCb := ha
    simp only [step] at h
    split at h
    · cases h
    · rename_i e he
      obtain ⟨-, -, h⟩ := bind_eq_ok.1 h
      obtain ⟨hq, ht⟩ := peqCb_ofQueue h
      have hlen : (r.mPeq.eraseIdx i).length + 1 = r.mPeq.length :=
        List.length_eraseIdx_add_one (List.getElem?_eq_some_iff.1 he).1
      have hq : r'.mPeq = r.mPeq.eraseIdx i := hq
      have ht : r'.trace.countP Obs.ofQueue = r.trace.countP Obs.ofQueue + 1 := ht
      rw [ht, hq]
      exact ⟨List.eraseIdx_sublist .., by omega⟩
  | targetDone =>
    obtain ⟨-, -, h⟩ := bind_eq_ok.1 h
    unfold wake at h
    dsimp only at h
    split at h
    · cases h
      exact ⟨.refl _, rfl⟩
    · split at h <;> cases h
      exact ⟨.refl _, rfl⟩
  | memoryDone p a =>
    obtain rfl : a = accepting .beginResp := ha
    change r.memoryDone p _ = _ at h
    unfold memoryDone at h
    split at h
    · cases h
    · dsimp only at h
      split_ifs at h
      · obtain ⟨-, -, h⟩ := bind_eq_ok.1 h
        cases h
        exact ⟨.refl _, rfl⟩
      · split at h
        · cases h
        · obtain ⟨hq, ht⟩ := sendResponse_queue h
          rw [hq, ht]
          exact ⟨.refl _, rfl⟩

end TxnRouter

/-! ## What is done once -/

/-- The phases that the port has serviced, newest first. -/
def pecs (l : List Obs) : List (ℕ × Phase) := l.filterMap fun
  | .pec k ph => some (k, ph)
  | _ => none

/-- The transactions whose BEGIN_REQ has left, newest first. -/
def begins (l : List Obs) : List ℕ := l.filterMap fun
  | .beginReq k .. => some k
  | _ => none

/-- Each phase of a transaction is serviced once. -/
structure ServicedOnce (l : List Obs) : Prop where
  nodup : (pecs l).Nodup
  begun : ∀ k ph, (k, ph) ∈ pecs l → k ∈ begins l ∧ (ph = .endReq ∨ ph = .beginResp)

section ServicedOnce

variable {P : Promise} {v u : View} {k : ℕ} {t : Ptr} {ph : Phase} {l l' : List Obs}

theorem pecs_append : pecs (l' ++ l) = pecs l' ++ pecs l := List.filterMap_append

theorem begins_append : begins (l' ++ l) = begins l' ++ begins l := List.filterMap_append

theorem mem_pecs : (k, ph) ∈ pecs l ↔ .pec k ph ∈ l := by
  unfold pecs
  rw [List.mem_filterMap]
  refine ⟨fun h => ?_, fun h => ⟨_, h, rfl⟩⟩
  obtain ⟨o, ho, hk⟩ := h
  cases o <;> cases hk
  exact ho

theorem mem_begins_of_begun (h : Begun l k t) : k ∈ begins l := by
  obtain ⟨o, ho, hb⟩ := h
  cases o with
  | beginReq k' t' s a d r =>
    obtain ⟨rfl, -, -⟩ : k' = k ∧ t' = t ∧ r.status ≠ .completed := by simpa [Obs.begins] using hb
    exact List.mem_filterMap.2 ⟨_, ho, rfl⟩
  | _ => cases hb

theorem Move.pecs (h : Move P v u) : pecs u.trace = pecs v.trace ∨
    ∃ e q, Serviced P v e q ∧ pecs u.trace = (e.txn, e.p) :: pecs v.trace := by
  cases h
  case close e q s hs hp hc ho => exact .inr ⟨e, q, hs, rfl⟩
  case retry e q s hs hp hc ho => exact .inr ⟨e, q, hs, rfl⟩
  case keep e q hs hp => exact .inr ⟨e, q, hs, rfl⟩
  all_goals exact .inl rfl

theorem ServicedOnce.step (hl : Life v) (hi : ServicedOnce v.trace) (h : Move P v u) :
    ServicedOnce u.trace := by
  have hold : ∀ k ph, (k, ph) ∈ Gem5Wrapper.pecs v.trace →
      k ∈ begins u.trace ∧ (ph = .endReq ∨ ph = .beginResp) := by
    intro k ph hm
    obtain ⟨hk, hph⟩ := hi.begun k ph hm
    exact ⟨(h.suffix.filterMap _).subset hk, hph⟩
  obtain he | ⟨e, q, hs, he⟩ := h.pecs
  · exact ⟨he ▸ hi.nodup, he ▸ hold⟩
  obtain ⟨hph, hb, -, hnew⟩ := hl.event e (hs.events ▸ List.mem_cons_self)
  refine ⟨he ▸ List.nodup_cons.2 ⟨fun hm => hnew (mem_pecs.1 hm), hi.nodup⟩, fun k ph hm => ?_⟩
  obtain hm | hm := List.mem_cons.1 (he ▸ hm)
  · cases hm
    exact ⟨(h.suffix.filterMap _).subset (mem_begins_of_begun hb), hph⟩
  · exact hold k ph hm

/-- Two phases for each transaction. -/
theorem ServicedOnce.length_le (h : ServicedOnce l) : (pecs l).length ≤ 2 * (begins l).length := by
  have hsub : pecs l ⊆ begins l ×ˢ [Phase.endReq, .beginResp] := by
    rintro ⟨k, ph⟩ hm
    obtain ⟨hk, hph⟩ := h.begun k ph hm
    exact List.pair_mem_product.2 ⟨hk, by simpa using hph⟩
  have hle := (h.nodup.subperm hsub).length_le
  rw [List.length_product] at hle
  exact hle.trans (Nat.mul_comm ..).le

end ServicedOnce

namespace ClosedSystem

/-! ## Callbacks of the system -/

/-- The acts in which a callback is made, of the port or of a router. -/
def Act.isCallback : Act → Bool
  | .service _ | .peqCb .. | .targetDone _ | .memoryDone .. => true
  | .recvTimingReq _ | .recvRespRetry _ | .advance _ => false

/-- The requests that the port has accepted. -/
def accepted (y : ClosedSystem) : ℕ := (begins y.port.trace).length

/-- The callbacks that have shown something. -/
def callbacks (y : ClosedSystem) : ℕ := (pecs y.port.trace).length +
  ∑ s ∈ Finset.range y.port.sockets, (y.routers s).trace.countP TxnRouter.Obs.marks

/-- What is counted is done once. -/
structure Counted (y : ClosedSystem) : Prop where
  port : ServicedOnce y.port.trace
  routers : ∀ s, (y.routers s).Paid

variable {c : Wiring} {y y' : ClosedSystem} {a : Act} {s : ℕ} {l : List Obs}
  {q : SCSlavePort} {R : ℕ → TxnRouter Transaction}

/-- The port calls a router with BEGIN_REQ and END_RESP only. -/
theorem calledAt_eq_some {o : Obs} {o' : TxnRouter.Obs Transaction} (h : calledAt s o = some o') :
    (∃ x, o' = .beginReq x) ∨ ∃ x, o' = .endResp x := by
  unfold calledAt at h
  split at h
  · split_ifs at h
    exact .inl ⟨_, (Option.some.inj h).symm⟩
  · split_ifs at h
    exact .inr ⟨_, (Option.some.inj h).symm⟩
  · cases h

theorem length_called (s : ℕ) (l : List Obs) : (called s l).countP TxnRouter.Obs.ofQueue = 0 ∧
    (requests (eventsOf (called s l))).length + (acks (eventsOf (called s l))).length =
      (called s l).length := by
  induction l with
  | nil => exact ⟨rfl, rfl⟩
  | cons o l ih =>
    cases hc : calledAt s o with
    | none =>
      rw [show called s (o :: l) = called s l from List.filterMap_cons_none hc]
      exact ih
    | some o' =>
      rw [show called s (o :: l) = o' :: called s l from List.filterMap_cons_some hc]
      obtain ⟨x, rfl⟩ | ⟨x, rfl⟩ := calledAt_eq_some hc
      · refine ⟨ih.1, ?_⟩
        show (requests (eventsOf (called s l))).length + 1 + _ = (called s l).length + 1
        rw [← ih.2]
        exact Nat.add_right_comm ..
      · refine ⟨ih.1, ?_⟩
        show _ + ((acks (eventsOf (called s l))).length + 1) = (called s l).length + 1
        rw [← ih.2]
        exact (Nat.add_assoc ..).symm

/-! ## Steps -/

/-- What the routers show is not serviced. -/
theorem pecs_shown (now : ℕ) (t : List (TxnRouter.Obs Transaction)) :
    pecs (shown now t) = [] ∧ begins (shown now t) = [] := by
  refine ⟨List.filterMap_eq_nil_iff.2 fun o ho => ?_, List.filterMap_eq_nil_iff.2 fun o ho => ?_⟩
  all_goals
    obtain ⟨o', -, ho⟩ := List.mem_filterMap.1 ho
    cases o' <;> cases ho <;> rfl

/-- What the port calls goes into the queue. -/
theorem paid_of_called {R' : ℕ → TxnRouter Transaction} {now : ℕ} (hp : (R s).Paid)
    (hf : forwards now R l = .ok R') : (R' s).Paid := by
  have hc := forwards_called hf s
  obtain ⟨hzero, hlen⟩ := length_called s l
  unfold TxnRouter.Paid at *
  rw [hc.events_eq, requests, acks, List.filterMap_append, List.filterMap_append, List.length_append,
    List.length_append, hc.trace, List.countP_append, hzero, hc.length]
  rw [requests, acks] at hp hlen
  omega

theorem Counted.step (hok : Ok c y) (hi : y.Counted) (h : Steps c y y') : y'.Counted := by
  cases h with
  | port a l _ _ hm ht hf =>
    have hport : ServicedOnce y'.port.view.trace :=
      (hm.invariant (I := fun v => PortInv c v ∧ ServicedOnce v.trace)
        ⟨hok.joint.port, (World.trace_view _).symm ▸ hi.port⟩
        fun v u hi hm => ⟨hi.1.move hm, hi.2.step hi.1.life hm⟩).2
    exact ⟨World.trace_view _ ▸ hport, fun s => paid_of_called (hi.routers s) hf⟩
  | router s a l r ha hr hreact _ hb hR =>
    have htr := (backwards_shown hb).trace
    obtain ⟨hpecs, hbegins⟩ := pecs_shown y.port.now l
    refine ⟨⟨?_, fun k ph hm => ?_⟩, fun s' => ?_⟩
    · rw [htr, pecs_append, hpecs]
      exact hi.port.nodup
    · rw [htr, pecs_append, hpecs] at hm
      rw [htr, begins_append, hbegins]
      exact hi.port.begun k ph hm
    · rw [hR]
      by_cases hs : s' = s
      · rw [hs, Function.update_self]
        obtain ⟨hreq, hack⟩ := requests_of_reacts hreact
        have hold := hi.routers s
        have hpaid := (TxnRouter.step_ofQueue ha hr).2
        unfold TxnRouter.Paid at *
        rw [hpaid, hreq, hack]
        exact hold
      · rw [Function.update_of_ne hs]
        exact hi.routers s'

theorem counted_start (hR : New R) : (start q R).Counted := by
  refine ⟨⟨List.nodup_nil, fun _ _ hm => (List.not_mem_nil hm).elim⟩, fun s => ?_⟩
  obtain ⟨_, _, _, _, hs⟩ := hR s
  show (R s).Paid
  rw [hs]
  rfl

/-- A callback shows something that counts. -/
theorem countP_marks_of_reacts {r r' : TxnRouter Transaction} (h : r.Reacts r') :
    r'.trace.countP TxnRouter.Obs.marks = r.trace.countP TxnRouter.Obs.marks + 1 := by
  cases h with
  | take x _ ht => simp [ht, List.countP_cons, TxnRouter.Obs.marks]
  | grant x _ ht => simp [ht, List.countP_cons, TxnRouter.Obs.marks]
  | close x ht => simp [ht, List.countP_cons, TxnRouter.Obs.marks]
  | closeGrant x z _ ht => simp [ht, List.countP_cons, TxnRouter.Obs.marks]
  | start x ht => simp [ht, List.countP_cons, TxnRouter.Obs.marks]
  | answer x status status' ht => simp [ht, List.countP_cons, TxnRouter.Obs.marks]

/-- Only the router of a socket is called back. -/
theorem Ok.lt_sockets_of_reacts (hok : Ok c y) (hok' : Ok c y')
    (hreact : (y.routerAt s).Reacts (y'.routers s)) : s < y.port.sockets := by
  by_contra hs
  have hnone : requests (y.routers s).events = [] := by
    refine List.eq_nil_iff_forall_not_mem.2 fun x hx => hs ?_
    obtain ⟨a, d, r, hb⟩ := ((hok.joint.linked s).begun x).1 hx
    have hsockets : y.port.sockets = c.sockets := hok.joint.port.sockets
    exact hsockets ▸ (hok.joint.port.addressed _ _ _ _ _ _ hb).1
  have hnone' : requests (y'.routers s).events = [] :=
    (requests_of_reacts hreact).1.trans hnone
  obtain ⟨w, st, hi⟩ : ∃ w st, TxnRouter.InProtocol w st (y.routerAt s) :=
    ((hok.joint.settled s).at y.port.now (y.routers s).payloads).protocol
  obtain ⟨w', st', hi'⟩ := (hok'.joint.settled s).protocol
  obtain ⟨hreq, hgr, hst, hfin, -, -⟩ := hi'.front.serves.ordered
  have hreq : w'.toList ++ st'.granted? ++ closes (y'.routers s).events = [] := hreq ▸ hnone'
  obtain ⟨hg, hcl⟩ := List.append_eq_nil_iff.1 hreq
  have hgrants : grants (y'.routers s).events = [] := by
    rw [hgr, hcl, (List.append_eq_nil_iff.1 hg).2]
    rfl
  have hstarts : OneAtATime.starts (y'.routers s).events = [] :=
    List.suffix_nil.1 (hgrants ▸ hi'.front.serves.starts_suffix)
  have hqueued : ∀ x, x ∉ (y.routerAt s).queued .beginReq := by
    intro x hx
    have hx := (hi.of_queued hx).1
    rw [show requests (y.routerAt s).events = [] from hnone] at hx
    cases hx
  unfold TxnRouter.events at *
  cases hreact with
  | take x hq ht => exact hqueued x hq
  | grant x hq ht => exact hqueued x hq
  | close x ht => rw [ht] at hcl; cases hcl
  | closeGrant x z _ ht => rw [ht] at hcl; cases hcl
  | start x ht => rw [ht] at hstarts; cases hstarts
  | answer x status status' ht =>
    have hfinishes := hi'.front.serves.finishes_suffix
    rw [TxnRouter.events] at hfinishes
    rw [hstarts, ht] at hfinishes
    cases List.suffix_nil.1 hfinishes

/-- A callback of router `s`. -/
theorem Ok.callbacks_routerStep (hok : Ok c y) (hok' : Ok c y') {a : TxnRouter.Act Transaction}
    (ha : a.Accepting) (hs : y.routerStep s a = .ok y') : y.callbacks + 1 ≤ y'.callbacks := by
  obtain ⟨hport, hrouters⟩ := (hok.steps_of_router ha hs).history
  obtain ⟨r, hr, hb⟩ := bind_eq_ok.1 hs
  obtain ⟨w, -, hy⟩ := bind_eq_ok.1 hb
  have hR : y'.routers = update y.routers s r :=
    congrArg ClosedSystem.routers (Except.ok.inj hy).symm
  have hreact : (y.routerAt s).Reacts (y'.routers s) := by
    rw [hR, Function.update_self]
    exact ((TxnRouter.step_reacts ((hok.joint.settled s).at y.port.now (y.routers s).payloads)
      ha).of_eq_ok hr).1
  have hlt := hok.lt_sockets_of_reacts hok' hreact
  have hsockets : y'.port.sockets = y.port.sockets :=
    hok'.joint.port.sockets.trans hok.joint.port.sockets.symm
  have hsum : ∑ s ∈ Finset.range y.port.sockets, (y.routers s).trace.countP TxnRouter.Obs.marks <
      ∑ s ∈ Finset.range y.port.sockets, (y'.routers s).trace.countP TxnRouter.Obs.marks :=
    Finset.sum_lt_sum (fun s _ => (hrouters s).sublist.countP_le)
      ⟨s, Finset.mem_range.2 hlt, (countP_marks_of_reacts hreact).symm ▸ Nat.lt_succ_self _⟩
  have hpecs : (pecs y.port.trace).length ≤ (pecs y'.port.trace).length :=
    (hport.filterMap _).length_le
  unfold callbacks
  rw [hsockets]
  omega

/-- An act of the port. -/
theorem Ok.callbacks_portStep (hok : Ok c y) (hok' : Ok c y') (h : Steps c y y')
    {n : ℕ} (hn : (pecs y.port.trace).length + n ≤ (pecs y'.port.trace).length) :
    y.callbacks + n ≤ y'.callbacks := by
  have hsockets : y'.port.sockets = y.port.sockets :=
    hok'.joint.port.sockets.trans hok.joint.port.sockets.symm
  have hsum : ∑ s ∈ Finset.range y.port.sockets, (y.routers s).trace.countP TxnRouter.Obs.marks ≤
      ∑ s ∈ Finset.range y.port.sockets, (y'.routers s).trace.countP TxnRouter.Obs.marks :=
    Finset.sum_le_sum fun s _ => (h.history.2 s).sublist.countP_le
  unfold callbacks
  rw [hsockets]
  omega

/-- The port services an event. -/
theorem length_pecs_of_service {w w' : World} {o : PecAnswers} (h : w.step (.service o) = .ok w') :
    (pecs w.trace).length + 1 ≤ (pecs w'.trace).length := by
  simp only [World.step] at h
  split at h
  · cases h
  · rename_i e q _
    obtain ⟨-, -, h⟩ := bind_eq_ok.1 h
    have hsuf : .pec e.txn e.p :: w.trace <:+ w'.trace :=
      ((World.goes_stepRule.pec _ e o).of_eq_ok h).history
    have hpecs : pecs (.pec e.txn e.p :: w.trace) <:+ pecs w'.trace := hsuf.filterMap _
    exact hpecs.length_le

/-- **Every callback counts.** -/
theorem Ok.callbacks_step (hok : Ok c y) (ha : y.Obeyed a) (hs : y.step a = .ok y') :
    y.callbacks + (if a.isCallback then 1 else 0) ≤ y'.callbacks := by
  have hok' : Ok c y' := (hok.step_ends ha).of_eq_ok hs
  have h := hok.steps ha hs
  have hmono : (pecs y.port.trace).length + 0 ≤ (pecs y'.port.trace).length :=
    (h.history.1.filterMap _).length_le
  cases a with
  | recvTimingReq r => exact hok.callbacks_portStep hok' h hmono
  | service o =>
    obtain ⟨w, hw, hf⟩ := bind_eq_ok.1 hs
    obtain ⟨R, -, hy⟩ := bind_eq_ok.1 hf
    cases hy
    exact hok.callbacks_portStep hok' h (length_pecs_of_service hw)
  | recvRespRetry answers => exact hok.callbacks_portStep hok' h hmono
  | peqCb s i => exact hok.callbacks_routerStep hok' (a := .peqCb i TxnRouter.acceptingCb) rfl hs
  | targetDone s => exact hok.callbacks_routerStep hok' (a := .targetDone) trivial hs
  | memoryDone s status =>
    exact hok.callbacks_routerStep hok' (a := .memoryDone _ (TxnRouter.accepting .beginResp)) rfl hs
  | advance d => exact hok.callbacks_portStep hok' h hmono

/-! ## The bound -/

/-- Four callbacks of the router for each request of its socket. -/
theorem Ok.countP_marks_le (hok : Ok c y) (hc : y.Counted) (ha : y.Agrees s) :
    (y.routers s).trace.countP TxnRouter.Obs.marks ≤ 4 * (begun s y.port.trace).length := by
  have hin := hok.inOrder ha
  obtain ⟨w, st, hi⟩ := (hok.joint.settled s).protocol
  have hpaid := hc.routers s
  have hst := hin.executed.length_le
  have hfin := hi.front.serves.finishes_suffix.length_le
  have hans := hin.answered.length_le
  have hacks := (hi.front.serves.acks_suffix (hok.joint.settled s).not_refused).length_le
  have hmarks : (y.routers s).trace.countP TxnRouter.Obs.marks =
      (y.routers s).trace.countP TxnRouter.Obs.ofQueue +
        (OneAtATime.starts (y.routers s).events).length + (finishes (y.routers s).events).length :=
    TxnRouter.countP_marks _
  rw [TxnRouter.Paid, ha.begun] at hpaid
  omega

/-- The requests of the sockets are requests of the port. -/
theorem sum_begun_le (n : ℕ) (l : List Obs) :
    ∑ s ∈ Finset.range n, (begun s l).length ≤ (begins l).length := by
  induction l with
  | nil => simp [begun, begins]
  | cons o l ih =>
    have hb : ∀ s, (begun s (o :: l)).length = (begun s [o]).length + (begun s l).length := by
      intro s
      rw [← List.length_append]
      exact congrArg _ (begun_append (l := l) : begun s ([o] ++ l) = _)
    have he : (begins (o :: l)).length = (begins [o]).length + (begins l).length := by
      rw [← List.length_append]
      exact congrArg _ (begins_append (l := l) : begins ([o] ++ l) = _)
    simp only [hb, he, Finset.sum_add_distrib]
    refine Nat.add_le_add ?_ ih
    cases o with
    | beginReq k t s' a d r =>
      have hone : ∀ s, (begun s [.beginReq k t s' a d r]).length = if s' = s then 1 else 0 := by
        intro s
        by_cases hs : s' = s <;> simp [begun, hs]
      simp only [hone, Finset.sum_ite_eq]
      split_ifs <;> simp [begins]
    | _ => exact (Finset.sum_eq_zero fun _ _ => rfl).le

theorem Ok.callbacks_le (hok : Ok c y) (hc : y.Counted) (ha : ∀ s, y.Agrees s) :
    y.callbacks ≤ 6 * y.accepted := by
  have hport := hc.port.length_le
  have hsum : ∑ s ∈ Finset.range y.port.sockets, (y.routers s).trace.countP TxnRouter.Obs.marks ≤
      4 * (begins y.port.trace).length := by
    calc ∑ s ∈ Finset.range y.port.sockets, (y.routers s).trace.countP TxnRouter.Obs.marks
        ≤ ∑ s ∈ Finset.range y.port.sockets, 4 * (begun s y.port.trace).length :=
          Finset.sum_le_sum fun s _ => hok.countP_marks_le hc (ha s)
      _ = 4 * ∑ s ∈ Finset.range y.port.sockets, (begun s y.port.trace).length :=
          (Finset.mul_sum ..).symm
      _ ≤ 4 * (begins y.port.trace).length := Nat.mul_le_mul_left _ (sum_begun_le ..)
  unfold callbacks accepted
  omega

/-! ## Runs -/

theorem counted_of_run (hq : q.Bound) (hcache : q.usingGem5Cache = false)
    (hknown : (World.start q).sockets ≤ q.helper.socketNum) (hR : New R)
    (h : Run step Obeyed (start q R) y) : y.Counted :=
  invariant_of_run (I := Counted) hq hcache hknown hR h (counted_start hR)
    fun _ _ _ hok _ hi hs => hi.step hok hs

/-- What the acts of a run add up to. -/
theorem countP_isCallback_le (acts : List Act) (hok : Ok c y)
    (h : exec step Obeyed y acts = some y') :
    y.callbacks + acts.countP Act.isCallback ≤ y'.callbacks := by
  induction acts generalizing y with
  | nil =>
    cases h
    exact le_rfl
  | cons a acts ih =>
    simp only [exec] at h
    split_ifs at h with ha
    split at h
    · rename_i y₁ hs
      have hle := ih ((hok.step_ends ha).of_eq_ok hs) h
      have hstep := hok.callbacks_step ha hs
      rw [List.countP_cons]
      omega
    · cases h

/-- **Six callbacks for each request**: no run makes more of them, in whatever order it makes them
and however long it is. -/
theorem callbacks_le_of_run (hq : q.Bound) (hcache : q.usingGem5Cache = false)
    (hknown : (World.start q).sockets ≤ q.helper.socketNum) (hR : New R) (acts : List Act)
    (h : exec step Obeyed (start q R) acts = some y) :
    acts.countP Act.isCallback ≤ 6 * y.accepted := by
  have hr := run_of_exec h
  have hok := ok_of_run hq hcache hknown hR hr
  have hle := countP_isCallback_le acts (ok_start hq hcache hknown hR) h
  have hbound := hok.callbacks_le (counted_of_run hq hcache hknown hR hr)
    (agrees_of_run hq hcache hknown hR hr)
  omega

/-- A read takes all six. -/
theorem callbacks_le_read : ∃ (acts : List Act) (y : ClosedSystem),
    y.accepted = 1 ∧ acts.countP Act.isCallback = 6 ∧
      acts.countP Act.isCallback ≤ 6 * y.accepted := by
  have hexec : (exec step Obeyed (start twoSocketPort smallRouters)
      [.recvTimingReq (readRequest 0), .peqCb 0 0, .advance 10000, .service {}, .advance 15000,
        .targetDone 0, .memoryDone 0 .ok, .advance 10000, .service {}, .peqCb 0 0]).map
          (fun y => decide (y.accepted = 1)) = some true := by decide
  obtain ⟨y, hy, h⟩ := Option.map_eq_some_iff.1 hexec
  exact ⟨_, y, of_decide_eq_true h, rfl, callbacks_le_of_run bound_twoSocketPort rfl (by decide)
    (fun _ => ⟨_, _, _, _, rfl⟩) _ hy⟩

end ClosedSystem

end Gem5Wrapper
