import Gem5Wrapper.RequestChannel

/-!
# Phases

In which order `pec` takes the phases of a transaction, and whether its assertions hold.

A phase is one gem5 event. Events of one tick are serviced in the reverse of the order in which
they are scheduled, so the order of the phases is that of their ticks, and equal ticks turn it
around.
-/

namespace Gem5Wrapper

open FaultMachine
open Function (update)
open History (Along)

variable {P : Promise} {v u : View} {k s : ℕ} {t : Ptr} {x : Gem5Extension}

/-! ## The queue -/

/-- The events are sorted, and END_REQ is due before the BEGIN_RESP of its transaction. -/
structure Ticks (v : View) : Prop where
  sorted : TimedQueue.Sorted PayloadEvent.tick v.events
  later : ∀ e ∈ v.events, ∀ e' ∈ v.events, e.txn = e'.txn → e.p = .endReq → e'.p = .beginResp →
    e.tick < e'.tick

theorem Ticks.of_initial (h : v.Initial) : Ticks v := by
  constructor <;> simp [h.events, TimedQueue.Sorted]

theorem Ticks.pop (hi : Ticks v) {e : PayloadEvent} {q : List PayloadEvent}
    (hs : Serviced P v e q) (hq : u.events = q) : Ticks u := by
  have hsub : ∀ a ∈ q, a ∈ v.events := fun a ha => hs.events ▸ List.mem_cons_of_mem _ ha
  have hsort := hi.sorted
  rw [hs.events] at hsort
  exact ⟨hq ▸ hsort.tail, fun a ha a' ha' => hi.later a (hsub a (hq ▸ ha)) a' (hsub a' (hq ▸ ha'))⟩

section

variable (ho : ∀ v a, P v a → PhasesObeyed v a) (hS : ∀ v a, P v a → StrictlyLater v a)

include ho hS in
theorem Ticks.step (hl : Life v) (hi : Ticks v) (h : Move P v u) : Ticks u := by
  cases h
  case close e q s hs hp hc hf => exact hi.pop hs rfl
  case retry e q s hs hp hc hf => exact hi.pop hs rfl
  case keep e q hs hp => exact hi.pop hs rfl
  case updated r ha hs hp =>
    refine ⟨hi.sorted.insert, fun e he e' he' ht hp hp' => ?_⟩
    simp only [View.notify_events, View.begin_events, TimedQueue.mem_insert] at he he'
    rcases he with rfl | he <;> rcases he' with rfl | he'
    · rw [hp] at hp'; cases hp'
    · exact absurd ht (hl.event_lt he').ne'
    · exact absurd ht (hl.event_lt he).ne
    · exact hi.later e he e' he' ht hp hp'
  case bw k t ph delay hP =>
    refine ⟨hi.sorted.insert, fun e he e' he' ht hp hp' => ?_⟩
    simp only [View.notify_events, View.emit_events, TimedQueue.mem_insert] at he he'
    rcases he with rfl | he <;> rcases he' with rfl | he'
    · rw [hp] at hp'; cases hp'
    · -- no END_REQ is sent after BEGIN_RESP
      have hsent := (hl.event e' he').2.2.1
      rw [← ht, hp'] at hsent
      rcases (ho _ _ hP).2 with ⟨-, -, hn⟩ | ⟨hph, -⟩
      · exact absurd hsent hn
      · exact absurd (hp.symm.trans hph) (by decide)
    · have hph : ph = .beginResp := hp'
      subst hph
      exact hS _ _ hP e he ht hp
    · exact hi.later e he e' he' ht hp hp'
  all_goals exact ⟨hi.sorted, hi.later⟩

/-- The head of the queue is due first. -/
theorem Ticks.takenInOrder (hi : Ticks v) (a : Act) : TakenInOrder v a := by
  cases a with
  | service o =>
    intro e he hp e' he' ht hp'
    cases hq : v.events with
    | nil => rw [hq] at he'; cases he'
    | cons e₀ q =>
      rw [hq] at he he'
      obtain rfl : e₀ = e := Option.some.inj he
      have hlt := hi.later e' (hq ▸ he') e₀ (hq ▸ List.mem_cons_self) ht hp' hp
      have hsort := hi.sorted
      rw [hq] at hsort
      rcases List.mem_cons.1 he' with rfl | he'
      · rw [hp] at hp'; cases hp'
      · exact absurd (hsort.head_le he') (Nat.not_le.2 hlt)
  | _ => trivial

end

/-- Targets that send BEGIN_RESP to take effect strictly later than END_REQ have them taken in
this order. -/
theorem PortRun.takenInOrder {q : SCSlavePort} {w : World} (hq : q.Bound)
    (hb : ∀ v a, P v a → RefsBalanced v a) (ho : ∀ v a, P v a → PhasesObeyed v a)
    (hS : ∀ v a, P v a → StrictlyLater v a) (h : PortRun P q w) :
    PortRun (fun v a => P v a ∧ TakenInOrder v a) q w ∧ ∀ a, TakenInOrder w.view a := by
  have hJ : ∀ w, PortRun P q w → Life w.view ∧ Ticks w.view := fun w hw =>
    hw.invariant (I := fun v => Life v ∧ Ticks v) hq (fun _ hv => ⟨.of_initial hv, .of_initial hv⟩)
      fun _ _ hi hm => ⟨hi.1.step hb ho hm, hi.2.step ho hS hi.1 hm⟩
  exact ⟨(h.strengthen hJ).mono fun w a hP => ⟨hP.1, hP.2.2.takenInOrder a⟩,
    (hJ w h).2.takenInOrder⟩

/-! ## The order of the phases -/

/-- `pec` never runs for a transaction that the port has released, and it runs for END_REQ before
it runs for BEGIN_RESP if the target has sent both. -/
def PhasesInOrder : List Obs → Prop := Along fun o l =>
  match o with
  | .pec k ph => ¬ Released l k ∧ (ph = .endReq → .pec k .beginResp ∉ l) ∧
      (ph = .beginResp → Sent l k .endReq → .pec k .endReq ∈ l)
  | _ => True

/-- A phase that was sent is scheduled until `pec` runs for it. -/
structure Delivery (v : View) : Prop where
  pending : ∀ k ph, Sent v.trace k ph → .pec k ph ∈ v.trace ∨
    ∃ e ∈ v.events, e.txn = k ∧ e.p = ph
  inOrder : PhasesInOrder v.trace

theorem Delivery.of_initial (h : v.Initial) : Delivery v := by
  have htr : v.trace = [] := by simp [View.trace, h.log]
  constructor <;> simp [htr, sent_nil, PhasesInOrder]

section

variable (ho : ∀ v a, P v a → PhasesObeyed v a) (hT : ∀ v a, P v a → TakenInOrder v a)

theorem Delivery.step_pending (hi : Delivery v) (h : Move P v u) (k : ℕ) (ph : Phase)
    (hk : Sent u.trace k ph) : .pec k ph ∈ u.trace ∨ ∃ e ∈ u.events, e.txn = k ∧ e.p = ph := by
  have hold := hi.pending k ph
  have hpop : ∀ e q, Serviced P v e q → Sent v.trace k ph →
      .pec k ph ∈ .pec e.txn e.p :: v.trace ∨ ∃ e ∈ q, e.txn = k ∧ e.p = ph := by
    intro e q hs hsent
    rcases hold hsent with hm | ⟨e', he', ht, hp⟩
    · exact .inl (List.mem_cons_of_mem _ hm)
    · rw [hs.events] at he'
      rcases List.mem_cons.1 he' with rfl | he'
      · exact .inl (by simp [ht, hp])
      · exact .inr ⟨e', he', ht, hp⟩
  cases h
  case close e q s hs hp hc hf => exact hpop e q hs (by simpa [Obs.sends] using hk)
  case retry e q s hs hp hc hf => simpa using hpop e q hs (by simpa [Obs.sends] using hk)
  case keep e q hs hp => exact hpop e q hs (by simpa [Obs.sends] using hk)
  case accepted r ha hs =>
    simp [Obs.sends, hs] at hk
    simpa using hold hk
  case updated r ha hs hp =>
    simp [Obs.sends, hs] at hk
    rcases hk with ⟨rfl, rfl⟩ | hk
    · exact .inr ⟨_, TimedQueue.mem_insert.2 (.inl rfl), rfl, rfl⟩
    · rcases hold hk with hm | ⟨e, he, ht, hp⟩
      · exact .inl (by simpa using hm)
      · exact .inr ⟨e, by simp [he], ht, hp⟩
  case completed r ha hs =>
    simp [Obs.sends, hs] at hk
    simpa using hold hk
  case bw k' t ph' delay hP =>
    simp [Obs.sends] at hk
    rcases hk with ⟨rfl, rfl⟩ | hk
    · exact .inr ⟨_, TimedQueue.mem_insert.2 (.inl rfl), rfl, rfl⟩
    · rcases hold hk with hm | ⟨e, he, ht, hp⟩
      · exact .inl (by simpa using hm)
      · exact .inr ⟨e, by simp [he], ht, hp⟩
  case advance => exact hold hk
  all_goals
    simp [Obs.sends] at hk
    simpa using hold hk

include hT in
theorem Delivery.step_inOrder (hl : Life v) (hc : Channel v) (hi : Delivery v) (h : Move P v u) :
    PhasesInOrder u.trace := by
  have hv := hi.inOrder
  have hpop : ∀ e q, Serviced P v e q → PhasesInOrder (.pec e.txn e.p :: v.trace) := by
    intro e q hs
    obtain ⟨x, hx, hcar, -⟩ := hc.serviced hl hs
    refine ⟨⟨hx ▸ hcar.unreleased, fun hp => hc.order e hs.mem hp, fun hp hsent => ?_⟩, hv⟩
    rcases hi.pending _ _ hsent with hm | ⟨e', he', ht, hp'⟩
    · exact hm
    · obtain ⟨o, hP⟩ := hs.promise
      exact absurd hp' (hT _ _ hP e (by rw [hs.events]; rfl) hp e' he' ht)
  unfold PhasesInOrder at *
  cases h
  case close e q s hs hp hcl hf => exact hpop e q hs
  case retry e q s hs hp hcl hf => exact ⟨trivial, hpop e q hs⟩
  case keep e q hs hp => exact hpop e q hs
  case advance => exact hv
  all_goals simpa using hv

end

/-- Targets send BEGIN_RESP to take effect no earlier than END_REQ. -/
def NotEarlier (v : View) : Act → Prop
  | .nbTransportBw k _ .beginResp delay =>
      ∀ e ∈ v.events, e.txn = k → e.p = .endReq → e.tick ≤ v.now + delay
  | _ => True

instance (v : View) : (a : Act) → Decidable (NotEarlier v a)
  | .nbTransportBw k _ .beginResp delay => inferInstanceAs (Decidable
      (∀ e ∈ v.events, e.txn = k → e.p = .endReq → e.tick ≤ v.now + delay))
  | .nbTransportBw _ _ .beginReq _ | .nbTransportBw _ _ .endReq _ | .nbTransportBw _ _ .endResp _ |
    .recvTimingReq _ | .service _ | .recvRespRetry _ | .targetAcquire .. |
    .targetRelease .. | .downstreamResponse _ | .advance _ => .isTrue trivial

/-- **Phases are taken in the order in which they are sent**, if each BEGIN_RESP is sent to take
effect strictly later than its END_REQ. -/
theorem phasesInOrder_of_run {q : SCSlavePort} {w : World} (hq : q.Bound)
    (h : PortRun (fun v a => RefsBalanced v a ∧ PhasesObeyed v a ∧ StrictlyLater v a) q w) :
    PhasesInOrder w.trace := by
  obtain ⟨h', -⟩ := h.takenInOrder hq (fun _ _ h => h.1) (fun _ _ h => h.2.1) (fun _ _ h => h.2.2)
  have hi := h'.invariant (I := fun v => Life v ∧ Channel v ∧ Delivery v) hq
    (fun _ hv => ⟨.of_initial hv, .of_initial hv, .of_initial hv⟩) fun _ _ hi hm =>
      ⟨hi.1.step (fun _ _ h => h.1.1) (fun _ _ h => h.1.2.1) hm,
        hi.2.1.step (fun _ _ h => h.1.1) (fun _ _ h => h.1.2.1) (fun _ _ h => h.2) hi.1 hm,
        hi.2.2.step_pending hm, hi.2.2.step_inOrder (fun _ _ h => h.2) hi.1 hi.2.1 hm⟩
  exact w.trace_view ▸ hi.2.2.inOrder

theorem phasesInOrder_laterResponse : ∃ w : World, .pec 0 .beginResp ∈ w.trace ∧
    .pec 0 .endReq ∈ w.trace ∧ PhasesInOrder w.trace := by
  obtain ⟨w, hr, hw⟩ := exists_portRun (q := oneSocketPort)
    (P := fun v a => RefsBalanced v a ∧ PhasesObeyed v a ∧ StrictlyLater v a)
    (p := fun w => decide (.pec 0 .beginResp ∈ w.trace ∧ .pec 0 .endReq ∈ w.trace))
    [.recvTimingReq (readRequest 0), .nbTransportBw 0 0 .endReq 5, .nbTransportBw 0 0 .beginResp 6,
      .advance 5, .service {}, .advance 1, .service {}] (by decide)
  obtain ⟨h₁, h₂⟩ := of_decide_eq_true hw
  exact ⟨w, h₁, h₂, phasesInOrder_of_run bound_oneSocketPort hr⟩

/-- Both phases take effect at tick 5: `pec` runs for BEGIN_RESP first, releases the payload, and
then runs for END_REQ of the transaction it has released. -/
theorem not_phasesInOrder : ¬ ∀ (q : SCSlavePort) (w : World), q.Bound →
    PortRun (fun v a => RefsBalanced v a ∧ PhasesObeyed v a ∧ NotEarlier v a) q w →
    PhasesInOrder w.trace := by
  intro h
  obtain ⟨w, hr, hw⟩ := exists_portRun (q := oneSocketPort)
    (P := fun v a => RefsBalanced v a ∧ PhasesObeyed v a ∧ NotEarlier v a)
    (p := fun w => decide (w.trace.head? = some (.pec 0 .endReq) ∧
      .release 0 0 ∈ w.trace))
    [.recvTimingReq (readRequest 0), .nbTransportBw 0 0 .endReq 5, .nbTransportBw 0 0 .beginResp 5,
      .advance 5, .service {}, .recvTimingReq (readRequest 1), .service {}] (by decide)
  obtain ⟨h₁, h₂⟩ := of_decide_eq_true hw
  have := h _ _ bound_oneSocketPort hr
  cases htr : w.trace with
  | nil => rw [htr] at h₁; cases h₁
  | cons o l =>
    rw [htr] at h₁ h₂ this
    obtain rfl : o = .pec 0 .endReq := Option.some.inj h₁
    exact this.1.1 ⟨0, by simpa using h₂⟩

/-! ## The assertions of `pec` -/

/-- The transactions so far, with their sockets. -/
def starts (l : List Obs) : List (ℕ × ℕ) := l.filterMap fun o =>
  match o with
  | .beginReq k _ s _ _ _ => some (k, s)
  | _ => none

/-- END_RESP of transaction `k`. -/
def Obs.ends (k : ℕ) : Obs → Bool
  | .endResp k' _ _ _ => k' = k
  | _ => false

/-- Has END_RESP been sent? -/
def Ended (l : List Obs) (k : ℕ) : Prop := ∃ o ∈ l, o.ends k = true

instance (l : List Obs) (k : ℕ) : Decidable (Ended l k) :=
  inferInstanceAs (Decidable (∃ o ∈ l, o.ends k = true))

/-- Targets send no second BEGIN_RESP on a socket before END_RESP of the previous one. -/
def ResponsesExclusive (v : View) (_ : Act) : Prop := Along (fun o l =>
  ∀ b ∈ starts v.trace, ∀ b' ∈ starts v.trace, b.2 = b'.2 → b.1 ≠ b'.1 →
    o.sends b.1 .beginResp = true → Sent l b'.1 .beginResp → Ended l b'.1) v.trace

/-- Targets answer BEGIN_REQ with TLM_ACCEPTED, or with TLM_UPDATED and a later phase. -/
def Handled (_ : View) (a : Act) : Prop := ∀ r ∈ a.requests,
  r.reply.status = .accepted ∧ r.reply.phase = .beginReq ∨
    r.reply.status = .updated ∧ (r.reply.phase = .endReq ∨ r.reply.phase = .beginResp)

/-- No target answers BEGIN_REQ with TLM_UPDATED and END_REQ. -/
def NoUpdatedEndReq (_ : View) (a : Act) : Prop := ∀ r ∈ a.requests,
  r.reply.status = .updated → r.reply.phase ≠ .endReq

instance (v : View) (a : Act) : Decidable (ResponsesExclusive v a) :=
  inferInstanceAs (Decidable (Along _ v.trace))

instance (v : View) (a : Act) : Decidable (Handled v a) :=
  inferInstanceAs (Decidable (∀ r ∈ a.requests, _))

instance (v : View) (a : Act) : Decidable (NoUpdatedEndReq v a) :=
  inferInstanceAs (Decidable (∀ r ∈ a.requests, _ → _))

/-- Of two transactions of a socket whose BEGIN_RESP has been sent, one has ended. -/
theorem ended_or_ended {S : List (ℕ × ℕ)} {l : List Obs} {k k' : ℕ}
    (h : Along (fun o l => ∀ b ∈ S, ∀ b' ∈ S, b.2 = b'.2 → b.1 ≠ b'.1 →
      o.sends b.1 .beginResp = true → Sent l b'.1 .beginResp → Ended l b'.1) l)
    (hk : (k, s) ∈ S) (hk' : (k', s) ∈ S) (hne : k ≠ k') (hs : Sent l k .beginResp)
    (hs' : Sent l k' .beginResp) : Ended l k ∨ Ended l k' := by
  induction l with
  | nil => exact absurd hs sent_nil
  | cons o l ih =>
    have hcons : ∀ k, Ended l k → Ended (o :: l) k := fun k ⟨o', ho, hk⟩ =>
      ⟨o', List.mem_cons_of_mem _ ho, hk⟩
    rw [sent_cons] at hs hs'
    have hfun : o.sends k .beginResp = true → o.sends k' .beginResp = true → False := by
      intro h₁ h₂
      cases o <;> simp [Obs.sends] at h₁ h₂
      · exact hne (h₁.1.symm.trans h₂.1)
      · exact hne (h₁.1.symm.trans h₂.1)
    rcases hs with hs | hs
    · rcases hs' with hs' | hs'
      · exact (hfun hs hs').elim
      · exact .inr (hcons _ (h.1 _ hk _ hk' rfl hne hs hs'))
    · rcases hs' with hs' | hs'
      · exact .inl (hcons _ (h.1 _ hk' _ hk rfl hne.symm hs' hs))
      · exact (ih h.2 hs hs').imp (hcons _) (hcons _)

/-- What the assertions of `pec` rely on. -/
structure Served (v : View) : Prop where
  /-- The response slot of a BEGIN_RESP that is being taken is free. -/
  free : ∀ t k x, v.cur = .popped t k → v.carried t = some x → v.slots.response x.coreId = none
  /-- Only a BEGIN_REQ answered with TLM_ACCEPTED is followed by END_REQ. -/
  accepted : ∀ e ∈ v.events, e.p = .endReq → ∃ s a d r,
    .beginReq e.txn e.t s a d r ∈ v.trace ∧ r.status = .accepted
  updated : ∀ k t s a d r, .beginReq k t s a d r ∈ v.trace → r.status = .updated →
    r.phase = .endReq ∨ r.phase = .beginResp

theorem Served.of_initial (h : v.Initial) : Served v := by
  have htr : v.trace = [] := by simp [View.trace, h.log]
  constructor <;> simp [h.cur, h.events, htr]

section

variable (ho : ∀ v a, P v a → PhasesObeyed v a) (hE : ∀ v a, P v a → ResponsesExclusive v a)
  (hN : ∀ v a, P v a → NoUpdatedEndReq v a)

include hE in
theorem Served.step_free (hl : Life v) (hi : Served v) (h : Move P v u) (t : Ptr) (k : ℕ)
    (x : Gem5Extension) (hcur : u.cur = .popped t k) (hx : u.carried t = some x) :
    u.slots.response x.coreId = none := by
  have hpop : ∀ e q, Serviced P v e q → e.p = .beginResp → v.carried e.t = some x →
      v.slots.response x.coreId = none := by
    intro e q hs hp hx
    obtain ⟨x', hx', hcar, -⟩ := hl.inHand_of_serviced hs hp
    obtain rfl := Option.some.inj (hx.symm.trans hcar.carried)
    obtain ⟨-, -, hsent, hn⟩ := hl.event e hs.mem
    rw [hp] at hsent hn
    by_contra hne
    obtain ⟨t', ht'⟩ := Option.ne_none_iff_exists'.1 hne
    obtain ⟨y, hy, hys, hyp⟩ := hl.response _ _ ht'
    have hser : x.serial ≠ y.serial := fun heq => hn (hx' ▸ heq ▸ hyp)
    have hmem : ∀ t z, v.carried t = some z → (z.serial, z.coreId) ∈ starts v.trace := by
      intro t z hz
      obtain ⟨d, r, hm⟩ := hl.born t z hz
      exact List.mem_filterMap.2 ⟨_, hm, rfl⟩
    have hended : ∀ z, Ended v.trace z → Released v.trace z := by
      rintro z ⟨o, ho, hz⟩
      cases o <;> simp [Obs.ends] at hz
      exact ⟨_, hz ▸ hl.ended _ _ _ _ ho⟩
    obtain ⟨o, hP⟩ := hs.promise
    rcases ended_or_ended (hE _ _ hP) (hmem _ _ hx) (hys ▸ hmem _ _ hy.carried) hser
      (hx' ▸ hsent) (hl.sent _ _ hyp) with he | he
    · exact hcar.unreleased (hended _ he)
    · exact hy.unreleased (hended _ he)
  have hold : u.cur = v.cur → u.slots.response = v.slots.response →
      u.slots.response x.coreId = none := by
    intro hc hr
    have hcur' := hc.symm.trans hcur
    have hh := hl.cur
    rw [hcur'] at hh
    obtain ⟨x', -, hh⟩ := hh
    have hne := hl.pool.ne_next (hl.pool.refs _ _ hh.carries.carried)
    rw [hr]
    exact hi.free t k x hcur' (h.carried hx hne)
  cases id h
  case close e q s hs hp hc hf =>
    simp only [View.setRequest_cur, View.pop_cur] at hcur
    split_ifs at hcur with hph
    obtain ⟨rfl, -⟩ := Cur.popped.inj hcur
    exact hpop e q hs hph hx
  case retry e q s hs hp hc hf =>
    simp only [View.emit_cur, View.setOwed_cur, View.setRequest_cur, View.pop_cur] at hcur
    split_ifs at hcur with hph
    obtain ⟨rfl, -⟩ := Cur.popped.inj hcur
    exact hpop e q hs hph hx
  case keep e q hs hp =>
    simp only [View.pop_cur] at hcur
    split_ifs at hcur with hph
    obtain ⟨rfl, -⟩ := Cur.popped.inj hcur
    exact hpop e q hs hph hx
  case enter => cases hcur
  case makeResponse => cases hcur
  case respond => cases hcur
  case block => cases hcur
  case finish =>
    rcases v.cur.next_cases with hn | hn <;> exact absurd (hn.symm.trans hcur) (by simp)
  case respRetry => cases hcur
  case retried => cases hcur
  case take => cases hcur
  case resend => cases hcur
  all_goals exact hold rfl rfl

include ho hN in
theorem Served.step_accepted (hi : Served v) (h : Move P v u) (e : PayloadEvent)
    (he : e ∈ u.events) (hp : e.p = .endReq) : ∃ s a d r,
      .beginReq e.txn e.t s a d r ∈ u.trace ∧ r.status = .accepted := by
  rcases h.event he with hev | ⟨delay, hP, -⟩ | ⟨r, ha, hst, -, -, hph, -⟩
  · obtain ⟨s, a, d, r, hm, hr⟩ := hi.accepted e hev hp
    exact ⟨s, a, d, r, h.mem_trace hm, hr⟩
  · obtain ⟨⟨o, hm, hbeg⟩, hph⟩ := ho _ _ hP
    obtain ⟨-, hn₁, hn₂⟩ := hph.resolve_right fun hph => absurd (hp.symm.trans hph.1) (by decide)
    cases o <;> simp [Obs.begins] at hbeg
    rename_i k t s a d r
    obtain ⟨rfl, rfl, hst⟩ := hbeg
    refine ⟨s, a, d, r, h.mem_trace hm, ?_⟩
    cases hr : r.status with
    | accepted => rfl
    | completed => exact absurd hr hst
    | updated =>
      -- the answer itself would have been one of the phases
      have hsent : ∀ ph, r.phase = ph → Sent v.trace e.txn ph := fun ph hph =>
        ⟨_, hm, by simp [Obs.sends, hr, hph]⟩
      rcases hi.updated _ _ _ _ _ _ hm hr with hph | hph
      · exact absurd (hsent _ hph) hn₁
      · exact absurd (hsent _ hph) hn₂
  · obtain ⟨v', a, hP, hr⟩ := ha.makes
    exact absurd (hph ▸ hp) (hN _ _ hP r hr hst)

theorem Served.step_updated (hi : Served v) (h : Move P v u) (k : ℕ) (t : Ptr) (s a d : ℕ)
    (r : Reply) (hm : .beginReq k t s a d r ∈ u.trace) (hr : r.status = .updated) :
    r.phase = .endReq ∨ r.phase = .beginResp := by
  rcases h.beginReq hm with hm | ⟨rq, -, -, -, -, -, -, -, -, hph⟩
  · exact hi.updated _ _ _ _ _ _ hm hr
  · exact hph hr

include ho hE hN in
theorem Served.step (hl : Life v) (hi : Served v) (h : Move P v u) : Served u where
  free := hi.step_free hE hl h
  accepted := hi.step_accepted ho hN h
  updated := hi.step_updated h

end

/-- A call in which `pec`, or `getExtension` for it, fails an assertion. -/
def Fault.ofPec : Fault → Prop
  | .scAssert function _ => function = "SCSlavePort::pec" ∨ function = "Gem5Extension::getExtension"
  | _ => False

/-- In no view with the invariants an assertion of `pec` fails. -/
theorem Stuck.not_ofPec (hl : Life v) (hc : Channel v) (hi : Served v) {f : Fault}
    (h : Stuck P v f) : ¬ f.ofPec := by
  cases h
  case notBlocking e q hs hp hn =>
    intro _
    obtain ⟨s, a, d, r, hm, hr⟩ := hi.accepted e hs.mem hp
    have hopen : ¬ Closed v.trace e.txn := by
      rintro (hcl | hcl)
      · exact (hl.event e hs.mem).2.2.2 (hp ▸ hcl)
      · exact hc.order e hs.mem hp hcl
    exact hn s (hc.opened _ _ _ _ _ _ hm hr hopen)
  case noExtension t hx ht =>
    intro _
    rcases ht with ⟨e, q, i, hs, rfl, hi'⟩ | ⟨k, hcur⟩ | ⟨-, i, hi'⟩
    · obtain ⟨x, hx', -⟩ := hc.request i _ hi'
      rw [hx] at hx'; cases hx'
    · have hh := hl.cur
      rw [hcur] at hh
      obtain ⟨x, -, hh⟩ := hh
      cases hh.carries.carried.symm.trans hx
    · obtain ⟨x, hcar, -⟩ := hl.response i t hi'
      cases hcar.carried.symm.trans hx
  case blocked t k x c hcur hx hn => exact fun _ => hn (hi.free t k x hcur hx)
  all_goals simp [Fault.ofPec]

/-- What the targets promise about the phases: their ticks, and one response at a time. -/
def PhasesServed (v : View) (a : Act) : Prop :=
  RefsBalanced v a ∧ PhasesObeyed v a ∧ StrictlyLater v a ∧ ResponsesExclusive v a ∧ Handled v a

instance (v : View) (a : Act) : Decidable (PhasesServed v a) :=
  inferInstanceAs (Decidable (_ ∧ _))

/-- **The assertions of `pec` hold** in every run in which no target answers BEGIN_REQ with
TLM_UPDATED and END_REQ, whatever act comes next. -/
theorem not_ofPec_of_run {q : SCSlavePort} {w : World} {a : Act} {f : Fault} (hq : q.Bound)
    (h : PortRun (fun v a => PhasesServed v a ∧ NoUpdatedEndReq v a) q w)
    (ha : PhasesServed w.view a ∧ NoUpdatedEndReq w.view a) (hf : w.step a = .error f) :
    ¬ f.ofPec := by
  obtain ⟨h', hT⟩ := h.takenInOrder hq (fun _ _ h => h.1.1) (fun _ _ h => h.1.2.1)
    (fun _ _ h => h.1.2.2.1)
  obtain ⟨v, hi, hs⟩ := h'.stops (I := fun v => Life v ∧ Channel v ∧ Served v) hq
    (fun _ hv => ⟨.of_initial hv, .of_initial hv, .of_initial hv⟩)
    (fun _ _ hi hm => ⟨hi.1.step (fun _ _ h => h.1.1.1) (fun _ _ h => h.1.1.2.1) hm,
      hi.2.1.step (fun _ _ h => h.1.1.1) (fun _ _ h => h.1.1.2.1) (fun _ _ h => h.2) hi.1 hm,
      hi.2.2.step (fun _ _ h => h.1.1.2.1) (fun _ _ h => h.1.1.2.2.2.1) (fun _ _ h => h.1.2)
        hi.1 hm⟩) ⟨ha, hT a⟩ hf
  exact hs.not_ofPec hi.1 hi.2.1 hi.2.2

/-- From inside `sendTimingResp` gem5 sends a request that is neither a read nor a write. -/
theorem not_ofPec_badRequest : ∃ (w : World) (a : Act) (f : Fault),
    w.step a = .error f ∧ ¬ f.ofPec := by
  let r : Request := { readRequest 1 with content := { cmd := {} } }
  let a : Act := .service { resp := { requests := [r] } }
  obtain ⟨w, hr, hw⟩ := exists_portRun (q := oneSocketPort)
    (P := fun v a => PhasesServed v a ∧ NoUpdatedEndReq v a)
    (p := fun w => decide ((PhasesServed w.view a ∧ NoUpdatedEndReq w.view a) ∧
      w.fault a = some (.panic "Should only see read and writes at TLM memory\n")))
    [.recvTimingReq (readRequest 0), .nbTransportBw 0 0 .endReq 5, .nbTransportBw 0 0 .beginResp 6,
      .advance 5, .service {}, .advance 1] (by decide)
  obtain ⟨ha, hf⟩ := of_decide_eq_true hw
  have hs := World.step_of_fault hf
  exact ⟨w, a, _, hs, not_ofPec_of_run bound_oneSocketPort hr ha hs⟩

/-- The END_REQ that the target answers BEGIN_REQ with finds the request slot of its socket free:
only an answer TLM_ACCEPTED fills it. -/
theorem ofPec_updatedEndReq : ¬ ∀ (q : SCSlavePort) (w : World) (a : Act) (f : Fault), q.Bound →
    PortRun PhasesServed q w → PhasesServed w.view a → w.step a = .error f → ¬ f.ofPec := by
  intro h
  obtain ⟨w, hr, hw⟩ := exists_portRun (q := oneSocketPort) (P := PhasesServed)
    (p := fun w => decide (PhasesServed w.view (.service {}) ∧
      w.fault (.service {}) = some (.scAssert "SCSlavePort::pec"
        "blk_pkt_helper->isBlockingTrans(&trans, pktType::Request)")))
    [.recvTimingReq { readRequest 0 with reply := ⟨.updated, .endReq, 3⟩ }, .advance 3] (by decide)
  obtain ⟨ha, hf⟩ := of_decide_eq_true hw
  exact h _ _ _ _ bound_oneSocketPort hr ha (World.step_of_fault hf) (.inl rfl)

end Gem5Wrapper
