import Gem5Wrapper.Order

/-!
# No transaction is stranded

A transaction that the port has accepted and not released is either on its way, in an event that is
scheduled or in its memory, or it waits behind a response that gem5 has refused; and gem5 is owed a
retry only by a socket of which this is true. So a closed system in which nothing is scheduled, no
memory works and no response is refused has finished everything it was asked to do.

What has been sent to the port is scheduled or serviced (`Delivery`), and what was serviced is
released or kept for a retry (`Kept`). The protocol of the router leaves four reasons to wait at it:
a callback, `target_done_event`, its memory, and an END_RESP of the port.
-/

namespace Gem5Wrapper

open FaultMachine OneAtATime
open Function (update)
open TxnRouter (eventsOf)

/-! ## Responses that are kept -/

/-- The call that the port is in deals with the response of transaction `k`. -/
def Cur.deals (k : ℕ) : Cur → Prop
  | .popped _ k' => k' = k
  | .entered _ x | .taken _ x | .answered _ x _ _ => x.serial = k
  | .idle | .retrying => False

/-- A response slot holds the payload of transaction `k`. -/
def View.Keeps (v : View) (k : ℕ) : Prop :=
  ∃ s t x, v.slots.response s = some t ∧ v.carried t = some x ∧ x.serial = k

/-- The slot that a response gets if gem5 refuses it is free. -/
def Cur.Free (response : ℕ → Option Ptr) : Cur → Prop
  | .entered _ x | .answered _ x false _ => response x.coreId = none
  | .idle | .popped .. | .retrying | .taken .. | .answered _ _ true _ => True

/-- A response that has been serviced is released, or in hand, or kept. -/
structure Kept (v : View) : Prop where
  free : v.cur.Free v.slots.response
  kept : ∀ k, .pec k .beginResp ∈ v.trace → Released v.trace k ∨ v.cur.deals k ∨ v.Keeps k

section Kept

variable {P : Promise} {v u : View} {k : ℕ} {t : Ptr} {x : Gem5Extension}

theorem Released.mono {l l' : List Obs} (h : Released l k) (hl : l ⊆ l') : Released l' k :=
  h.imp fun _ => fun hm => hl hm

/-- A slot keeps its response until `recvRespRetry` takes it. -/
theorem View.Keeps.mono (hu : Life u) (h : Move P v u) (hv : Life v)
    (hs : u.slots.response = v.slots.response) (hk : v.Keeps k) : u.Keeps k := by
  obtain ⟨s, t, x, hr, hx, rfl⟩ := hk
  obtain ⟨y, hy, -, -⟩ := hu.response s t (hs ▸ hr)
  have hne : t ≠ v.next := hv.pool.ne_next (hv.pool.refs t x hx)
  obtain rfl := Option.some.inj (hx.symm.trans (h.carried hy.carried hne))
  exact ⟨s, t, x, hs ▸ hr, hy.carried, rfl⟩

/-- The call of the port goes on with the same transaction. -/
theorem Kept.of_cur (hi : Kept v) (hu : Life u) (h : Move P v u) (hv : Life v)
    (hs : u.slots.response = v.slots.response) (hf : u.cur.Free v.slots.response)
    (hc : ∀ k, v.cur.deals k → Released u.trace k ∨ u.cur.deals k)
    (hp : ∀ k, .pec k .beginResp ∈ u.trace → .pec k .beginResp ∈ v.trace) : Kept u := by
  refine ⟨hs ▸ hf, fun k hk => ?_⟩
  obtain hr | hd | hkeep := hi.kept k (hp k hk)
  · exact .inl (hr.mono h.suffix.subset)
  · exact (hc k hd).imp id .inl
  · exact .inr (.inr (hkeep.mono hu h hv hs))

/-- A move that leaves the call of the port where it is. -/
theorem Kept.of_same (hi : Kept v) (hu : Life u) (h : Move P v u) (hv : Life v)
    (hs : u.slots.response = v.slots.response) (hc : u.cur = v.cur)
    (hp : ∀ k, .pec k .beginResp ∈ u.trace → .pec k .beginResp ∈ v.trace) : Kept u :=
  hi.of_cur hu h hv hs (hc ▸ hi.free) (fun _ hd => .inr (hc ▸ hd)) hp

/-- An event is serviced. -/
theorem Kept.of_pop (hi : Kept v) (hu : Life u) (h : Move P v u) (hv : Life v) {e : PayloadEvent}
    {q : List PayloadEvent} (hs : Serviced P v e q) (hr : u.slots.response = v.slots.response)
    (hcur : u.cur = if e.p = .beginResp then .popped e.t e.txn else .idle)
    (hp : ∀ k, .pec k .beginResp ∈ u.trace → .pec k .beginResp ∈ v.trace ∨
      k = e.txn ∧ e.p = .beginResp) : Kept u := by
  refine ⟨?_, fun k hk => ?_⟩
  · rw [hcur]
    split_ifs <;> trivial
  obtain hk | ⟨rfl, hph⟩ := hp k hk
  · obtain hrel | hd | hkeep := hi.kept k hk
    · exact .inl (hrel.mono h.suffix.subset)
    · rw [hs.idle] at hd
      exact hd.elim
    · exact .inr (.inr (hkeep.mono hu h hv hr))
  · rw [hcur, if_pos hph]
    exact .inr (.inl rfl)

/-- gem5 refuses a response, which gets the free slot of its socket. -/
theorem Kept.of_block (hi : Kept v) (hcur : v.cur = .answered t x false false)
    (hx : v.carried t = some x) : Kept ((v.setResponse x.coreId (some t)).goto .idle) := by
  have hfree := hi.free
  rw [hcur] at hfree
  refine ⟨trivial, fun k hk => ?_⟩
  obtain hr | hd | ⟨s, t', x', hr, hx', rfl⟩ := hi.kept k hk
  · exact .inl hr
  · rw [hcur] at hd
    exact .inr (.inr ⟨x.coreId, t, x, by simp, hx, hd⟩)
  · have hs : s ≠ x.coreId := by
      rintro rfl
      cases hr.symm.trans hfree
    exact .inr (.inr ⟨s, t', x', by simpa [hs] using hr, hx', rfl⟩)

/-- `recvRespRetry` takes a response out of its slot. -/
theorem Kept.of_take (hi : Kept v) (hv : Life v) (hcur : v.cur = .retrying) {i s : ℕ}
    (hr : v.slots.response i = some t) (hx : v.carried t = some x) (hs : s = i ∨ s = x.coreId) :
    Kept ((v.setResponse s none).goto (.taken t x)) := by
  obtain ⟨y, hy, rfl, -⟩ := hv.response i t hr
  obtain rfl := Option.some.inj (hx.symm.trans hy.carried)
  obtain rfl : s = x.coreId := hs.elim id id
  refine ⟨trivial, fun k hk => ?_⟩
  obtain hrel | hd | ⟨s', t', x', hr', hx', rfl⟩ := hi.kept k hk
  · exact .inl hrel
  · rw [hcur] at hd
    exact hd.elim
  · refine .inr ?_
    by_cases hne : s' = x.coreId
    · subst hne
      obtain rfl := Option.some.inj (hr.symm.trans hr')
      obtain rfl := Option.some.inj (hx.symm.trans hx')
      exact .inl rfl
    · exact .inr ⟨s', t', x', by simpa [hne] using hr', hx', rfl⟩

/-- Every move preserves `Kept`. -/
theorem Kept.step (hv : Life v) (hu : Life u) (hi : Kept v) (h : Move P v u) : Kept u := by
  have hpec : ∀ (e : PayloadEvent) (l : List Obs), ∀ k, .pec k .beginResp ∈ .pec e.txn e.p :: l →
      .pec k .beginResp ∈ l ∨ k = e.txn ∧ e.p = .beginResp := by
    intro e l k hk
    obtain hk | hk := List.mem_cons.1 hk
    · obtain ⟨rfl, hp⟩ := Obs.pec.inj hk
      exact .inr ⟨rfl, hp.symm⟩
    · exact .inl hk
  have hin := hv.cur
  have hfree := hi.free
  cases id h
  case close e q s hs hp hc ho => exact hi.of_pop hu h hv hs rfl rfl (hpec e _)
  case retry e q s hs hp hc ho =>
    refine hi.of_pop hu h hv hs rfl rfl fun k hk => hpec e _ k ?_
    exact List.mem_of_ne_of_mem (by simp) hk
  case keep e q hs hp => exact hi.of_pop hu h hv hs rfl rfl (hpec e _)
  case enter t k x hcur hx hslot hn =>
    rw [hcur] at hin
    obtain ⟨x', rfl, hh⟩ := hin
    obtain rfl := Option.some.inj (hx.symm.trans hh.carries.carried)
    refine hi.of_cur hu h hv rfl hslot (fun k hd => ?_) fun _ => id
    rw [hcur] at hd
    exact .inr hd
  case makeResponse t k x hcur hx hslot hn =>
    rw [hcur] at hin
    obtain ⟨x', rfl, hh⟩ := hin
    obtain rfl := Option.some.inj (hx.symm.trans hh.carries.carried)
    refine hi.of_cur hu h hv rfl hslot (fun k hd => ?_) fun _ hk => by simpa using hk
    rw [hcur] at hd
    exact .inr hd
  case respond t x accepted hcur hresp =>
    rw [hcur] at hfree
    refine hi.of_cur hu h hv rfl hfree (fun k hd => ?_) fun _ hk => by simpa using hk
    rw [hcur] at hd
    exact .inr hd
  case resend t x accepted hcur hP =>
    refine hi.of_cur hu h hv rfl trivial (fun k hd => ?_) fun _ hk => by simpa using hk
    rw [hcur] at hd
    exact .inr hd
  case block t x hcur =>
    rw [hcur] at hin
    exact hi.of_block hcur hin.carries.carried
  case take t x i s hcur hr hx hs => exact hi.of_take hv hcur hr hx hs
  case finish t x hd hpos =>
    refine hi.of_cur hu h hv rfl ?_ (fun k hdeal => ?_) fun _ hk => by simpa using hk
    · obtain hn | hn := v.cur.next_cases <;> rw [View.finish_cur, hn] <;> trivial
    · obtain ⟨hcur, -⟩ | ⟨again, hcur⟩ := hd <;> rw [hcur] at hdeal <;>
        exact .inl ⟨t, by simp [show x.serial = k from hdeal]⟩
  case respRetry hcur =>
    refine hi.of_cur hu h hv rfl trivial (fun k hd => ?_) fun _ hk => by simpa using hk
    rw [hcur] at hd
    exact hd.elim
  case retried hn hcur =>
    refine hi.of_cur hu h hv rfl trivial (fun k hd => ?_) fun _ => id
    rw [hcur] at hd
    exact hd.elim
  case advance => exact hi.of_same hu h hv rfl rfl fun _ => id
  all_goals exact hi.of_same hu h hv rfl rfl fun _ hk => by simpa using hk

theorem Kept.of_initial (h : v.Initial) : Kept v := by
  have htr : v.trace = [] := by simp [View.trace, h.log]
  refine ⟨h.cur ▸ trivial, fun k hk => ?_⟩
  simp [htr] at hk

end Kept

namespace ClosedSystem

/-! ## What is on its way -/

/-- Something of socket `s` happens by itself: an event of the port for one of its transactions, a
callback or notification of its router, or the return of its memory. -/
inductive Busy (y : ClosedSystem) (s : ℕ) : Prop
  | event {e : PayloadEvent} {t : Ptr} {a d : ℕ} {r : Reply} : e ∈ y.port.events →
      .beginReq e.txn t s a d r ∈ y.port.trace → Busy y s
  | callback {e : PeqEvent Transaction} : e ∈ (y.routers s).mPeq → Busy y s
  | done {t : ℕ} : (y.routers s).targetDoneEvent = some t → Busy y s
  | memory {x : Transaction} : (y.routers s).process = some x → Busy y s

/-- gem5 has refused a response of socket `s`, and will ask for it. -/
def Refused (y : ClosedSystem) (s : ℕ) : Prop := y.port.port.slots.response s ≠ none

/-- Whoever waits, waits for something that happens by itself or for gem5. -/
structure NoneStranded (y : ClosedSystem) : Prop where
  transactions : ∀ k t s a d r, .beginReq k t s a d r ∈ y.port.trace →
    ¬ Released y.port.trace k → y.Busy s ∨ y.Refused s
  retries : ∀ s, y.port.port.slots.owed s = true → y.Busy s ∨ y.Refused s

/-- What keeps the system going. -/
structure Live (y : ClosedSystem) : Prop where
  delivery : Delivery y.port.view
  kept : Kept y.port.view
  notStranded : ∀ s, (y.routers s).NotStranded
  agrees : ∀ s, y.Agrees s

variable {c : Wiring} {y y' : ClosedSystem} {s k : ℕ} {t : Ptr} {w w' : World} {l : List Obs}
  {q : SCSlavePort} {R : ℕ → TxnRouter Transaction} {x : Transaction}

/-! ## Steps -/

theorem sent_append {l' : List Obs} {ph : Phase} (h : Sent (l' ++ l) k ph) :
    Sent l' k ph ∨ Sent l k ph := by
  obtain ⟨o, ho, hs⟩ := h
  exact (List.mem_append.1 ho).imp (fun ho => ⟨o, ho, hs⟩) fun ho => ⟨o, ho, hs⟩

/-- What a router calls is scheduled, and nothing is serviced. -/
theorem delivery_of_shown {t : List (TxnRouter.Obs Transaction)} {now : ℕ}
    (h : Shown (shown now t) w w') (hi : Delivery w.view) : Delivery w'.view := by
  have hmem : ∀ o ∈ shown now t, ∃ o', shownAt now o' = some o := fun o ho =>
    let ⟨o', _, hs⟩ := List.mem_filterMap.1 ho; ⟨o', hs⟩
  have htr : w'.view.trace = shown now t ++ w.view.trace := by
    rw [World.trace_view, World.trace_view, h.trace]
  refine ⟨fun k ph hk => ?_, ?_⟩
  · rw [htr] at hk ⊢
    obtain ⟨o, ho, hs⟩ | hk := sent_append hk
    · obtain ⟨o', ho'⟩ := hmem o ho
      have hbw : ∃ due, o = .bw k ph due := by
        cases o' <;> cases ho' <;> simp [Obs.sends] at hs <;> exact ⟨_, by rw [hs.1, hs.2]⟩
      obtain ⟨due, rfl⟩ := hbw
      obtain ⟨e, he, htxn, hp, -⟩ := h.scheduled k ph due ho
      exact .inr ⟨e, he, htxn, hp⟩
    · obtain hm | ⟨e, he, htxn, hp⟩ := hi.pending k ph hk
      · exact .inl (List.mem_append_right _ hm)
      · exact .inr ⟨e, h.keeps e he, htxn, hp⟩
  · rw [htr]
    unfold PhasesInOrder
    generalize shown now t = l at hmem
    induction l with
    | nil => exact hi.inOrder
    | cons o l ih =>
      refine ⟨?_, ih fun o ho => hmem o (List.mem_cons_of_mem _ ho)⟩
      obtain ⟨o', ho'⟩ := hmem o List.mem_cons_self
      cases o' <;> cases ho' <;> trivial

theorem kept_of_shown {t : List (TxnRouter.Obs Transaction)} {now : ℕ}
    (h : Shown (shown now t) w w') (hl : Life w'.view) (hi : Kept w.view) : Kept w'.view := by
  have htr : w'.view.trace = shown now t ++ w.view.trace := by
    rw [World.trace_view, World.trace_view, h.trace]
  have hslots : w'.view.slots = w.view.slots := congrArg SCSlavePort.slots h.port
  refine ⟨trivial, fun k hk => ?_⟩
  have hk : .pec k .beginResp ∈ w.view.trace := by
    obtain hk | hk := List.mem_append.1 (htr ▸ hk)
    · obtain ⟨o', -, ho'⟩ := List.mem_filterMap.1 hk
      cases o' <;> cases ho'
    · exact hk
  obtain hr | hd | ⟨s, t, x, hr, hx, rfl⟩ := hi.kept k hk
  · exact .inl (hr.mono fun o ho => htr ▸ List.mem_append_right _ ho)
  · exact hd.elim
  · obtain ⟨y, hy, -, -⟩ := hl.response s t (hslots ▸ hr)
    obtain rfl := Option.some.inj (hx.symm.trans (h.extension t y hy.carried))
    exact .inr (.inr ⟨s, t, x, hslots ▸ hr, hy.carried, rfl⟩)

theorem notStranded_of_called {r r' : TxnRouter Transaction} {now : ℕ}
    {t : List (TxnRouter.Obs Transaction)} (h : Called now t r r') (hi : r.NotStranded) :
    r'.NotStranded := by
  intro hp
  rw [h.endReqPending] at hp
  rw [h.inProgress]
  exact hi hp

/-- The moves of the port. -/
theorem port_of_moves {v u : View} (hm : Moves (FromGem5 c) v u) (hp : PortInv c v)
    (hd : Delivery v) (hk : Kept v) : Delivery u ∧ Kept u := by
  have hi := hm.invariant (I := fun v => PortInv c v ∧ Delivery v ∧ Kept v) ⟨hp, hd, hk⟩
    fun v u hi hm => by
      obtain ⟨hp, hd, hk⟩ := hi
      have hu := hp.move hm
      exact ⟨hu, ⟨hd.step_pending hm, hd.step_inOrder (fun _ _ h => h.1.inOrder) hp.life hp.channel
        hm⟩, hk.step hp.life hu.life hm⟩
  exact hi.2

/-- Every step keeps the system going. -/
theorem Live.step (hok : Ok c y) (hok' : Ok c y') (hi : y.Live) (h : Steps c y y') : y'.Live := by
  have hagrees := step_agrees h hi.agrees
  cases h with
  | port a l _ _ hm _ hf =>
    obtain ⟨hd, hk⟩ := port_of_moves hm hok.joint.port hi.delivery hi.kept
    exact ⟨hd, hk, fun s => notStranded_of_called (forwards_called hf s) (hi.notStranded s),
      hagrees⟩
  | router s a l r ha hr _ _ hb hR =>
    have hshown := backwards_shown hb
    refine ⟨delivery_of_shown hshown hi.delivery, kept_of_shown hshown hok'.joint.port.life hi.kept,
      fun s' => ?_, hagrees⟩
    obtain ⟨w₀, st, hprot⟩ := ((hok.joint.settled s).at y.port.now (y.routers s).payloads).protocol
    have hnot : TxnRouter.NotCompleted (y.routerAt s) a := by
      cases a with
      | memoryDone p a =>
        obtain rfl : a = TxnRouter.accepting .beginResp := ha
        exact fun hc => by cases hc
      | _ => trivial
    rw [hR]
    by_cases hs : s' = s
    · rw [hs, Function.update_self]
      exact ((TxnRouter.step_ends hprot a).of_eq_ok hr).2 hnot (hi.notStranded s)
    · rw [Function.update_of_ne hs]
      exact hi.notStranded s'

theorem live_start (hq : q.Bound) (hR : New R) : (start q R).Live := by
  have hv := World.initial_start hq
  refine ⟨.of_initial hv, .of_initial hv, fun s => ?_, agrees_start hR⟩
  obtain ⟨_, _, _, _, hs⟩ := hR s
  intro hp
  refine absurd ?_ hp
  show (R s).endReqPending = none
  rw [hs]
  rfl

theorem live_of_run (hq : q.Bound) (hcache : q.usingGem5Cache = false)
    (hknown : (World.start q).sockets ≤ q.helper.socketNum) (hR : New R)
    (h : Run step Obeyed (start q R) y) : y.Live :=
  invariant_of_run hq hcache hknown hR h (live_start hq hR)
    fun _ _ _ hok hok' hi hs => hi.step hok hok' hs

/-! ## Why a transaction waits -/

/-- What the port has released has had its END_RESP, on the socket of its BEGIN_REQ, after `pec`
for its BEGIN_RESP. -/
theorem Ok.ended_of_released (hok : Ok c y) {a d : ℕ} {r : Reply}
    (hb : .beginReq k t s a d r ∈ y.port.trace) (hr : Released y.port.trace k) :
    ⟨k, t⟩ ∈ ended s y.port.trace ∧ .pec k .beginResp ∈ y.port.trace := by
  have hi := hok.joint.port
  obtain ⟨t', hr⟩ := hr
  rw [← World.trace_view] at hr hb ⊢
  obtain ⟨l, hl, s', a', he⟩ := hi.ended.of_mem hr
  have he : .endResp k t' s' a' ∈ y.port.view.trace := hl.subset (List.mem_cons_of_mem _ he)
  obtain ⟨l', hl', hpec, d', r', hb'⟩ := hi.returned.of_mem he
  obtain ⟨rfl, rfl⟩ := hi.one.unique hb (hl'.subset (List.mem_cons_of_mem _ hb'))
  exact ⟨List.mem_filterMap.2 ⟨_, he, if_pos rfl⟩, hl'.subset (List.mem_cons_of_mem _ hpec)⟩

theorem Ok.released_of_ended (hok : Ok c y) (hx : x ∈ ended s y.port.trace) :
    Released y.port.trace x.serial := by
  obtain ⟨o, ho, hx⟩ := List.mem_filterMap.1 hx
  cases o with
  | endResp k t s' a =>
    obtain ⟨-, rfl⟩ : s' = s ∧ ⟨k, t⟩ = x := by simpa using hx
    exact ⟨t, by simpa using hok.joint.port.life.ended k t s' a (by simpa using ho)⟩
  | _ => cases hx

/-- The router waits for an END_RESP: the port has its BEGIN_RESP scheduled, or kept for gem5. -/
theorem waits_of_answered (hok : Ok c y) (hi : y.Live) (hx : x ∈ requests (y.routers s).events)
    (ha : x ∈ answers (y.routers s).events) (hn : x ∉ acks (y.routers s).events) :
    y.Busy s ∨ y.Refused s := by
  have hlinked := hok.joint.linked s
  obtain ⟨a, d, r, hb⟩ := (hlinked.begun x).1 hx
  have hsent : Sent y.port.view.trace x.serial .beginResp := by
    have hph : .beginResp ∈ TxnRouter.phases x (y.routers s).events := by
      obtain ⟨e, he, hxe⟩ := List.mem_filterMap.1 ha
      refine TxnRouter.mem_phases.2 ⟨e, he, ?_⟩
      cases e <;> simp at hxe
      subst hxe
      exact ⟨by simp [Event.about], rfl⟩
    rw [show TxnRouter.phases x (y.routers s).events = _ from hlinked.same x hx] at hph
    obtain ⟨o, ho, hp⟩ := List.mem_filterMap.1 hph
    refine ⟨o, ho, ?_⟩
    cases o <;> simp [Obs.phase] at hp
    simp [Obs.sends, hp]
  obtain hpec | ⟨e, he, htxn, -⟩ := hi.delivery.pending _ _ hsent
  · obtain hr | hd | ⟨s', t, x', hr, hx', hserial⟩ := hi.kept.kept _ hpec
    · rw [(hi.agrees s).ended] at hn
      rw [World.trace_view] at hb hr
      exact absurd (hok.ended_of_released hb hr).1 hn
    · exact hd.elim
    · obtain ⟨z, hz, rfl, -⟩ := hok.joint.port.life.response s' t hr
      obtain rfl := Option.some.inj (hx'.symm.trans hz.carried)
      obtain ⟨d', r', hb'⟩ := hok.joint.port.life.born t x' hx'
      rw [hserial] at hb'
      obtain ⟨-, rfl⟩ := hok.joint.port.one.unique hb hb'
      refine .inr fun hnone => ?_
      cases hr.symm.trans hnone
  · rw [World.trace_view] at hb
    exact .inl (.event he (htxn ▸ hb))

/-- A request that the router has not closed waits for something. -/
theorem waits_of_open (hok : Ok c y) (hi : y.Live) (hx : x ∈ requests (y.routers s).events)
    (hn : x ∉ acks (y.routers s).events) : y.Busy s ∨ y.Refused s := by
  by_contra hnot
  obtain ⟨hbusy, hrefused⟩ := not_or.1 hnot
  have hpeq : (y.routers s).mPeq = [] :=
    List.eq_nil_iff_forall_not_mem.2 fun e he => hbusy (.callback he)
  have hdone : (y.routers s).targetDoneEvent = none :=
    Option.eq_none_iff_forall_ne_some.2 fun t ht => hbusy (.done ht)
  have hproc : (y.routers s).process = none :=
    Option.eq_none_iff_forall_ne_some.2 fun z hz => hbusy (.memory hz)
  obtain ⟨w, st, hprot⟩ := (hok.joint.settled s).protocol
  obtain ⟨hserves, hreq, hends, -⟩ := hprot.front
  have hord := hserves.ordered
  have hacks := hserves.acks_eq (hok.joint.settled s).not_refused
  have hstage := hprot.stage
  cases st with
  | idle =>
    have hnot : (y.routers s).endReqPending = none :=
      TxnRouter.notStranded_iff.1 (hi.notStranded s) hstage.1
    have hw : w.toList = [] := by
      rw [← hreq, hnot, TxnRouter.queued, hpeq]
      rfl
    rw [hord.requests, hw] at hx
    rw [hacks] at hn
    exact hn hx
  | granted z =>
    rw [TxnRouter.StageOf, hdone] at hstage
    exact absurd hstage.2.2.2 (by simp)
  | started z =>
    rw [TxnRouter.StageOf, hproc] at hstage
    exact absurd hstage.2.2.1 (by simp)
  | finished z => exact hstage
  | answered z owed =>
    cases owed with
    | false =>
      rw [TxnRouter.queued, hpeq] at hends
      cases hends
    | true =>
      have hz : z ∈ answers (y.routers s).events := by simp [hord.answers, Stage.answered?]
      have hzr : z ∈ requests (y.routers s).events := by simp [hord.requests, Stage.granted?]
      have hza : z ∉ acks (y.routers s).events := by
        have hnd := hord.nodup
        rw [hord.requests, List.append_assoc] at hnd
        rw [hacks]
        exact fun hz => (List.nodup_cons.1 (List.nodup_append.1 hnd).2.1).1 hz
      exact (waits_of_answered hok hi hzr hz hza).elim hbusy hrefused

theorem noneStranded_of_live (hok : Ok c y) (hi : y.Live) : y.NoneStranded := by
  have hopen : ∀ k t s a d r, .beginReq k t s a d r ∈ y.port.trace →
      ¬ Released y.port.trace k → y.Busy s ∨ y.Refused s := by
    intro k t s a d r hb hn
    have hx : (⟨k, t⟩ : Transaction) ∈ begun s y.port.trace :=
      List.mem_filterMap.2 ⟨_, hb, if_pos rfl⟩
    refine waits_of_open hok hi (x := ⟨k, t⟩) ((hi.agrees s).begun ▸ hx) fun ha => hn ?_
    rw [(hi.agrees s).ended] at ha
    exact hok.released_of_ended ha
  refine ⟨hopen, fun s hs => ?_⟩
  obtain ⟨t, ht⟩ := Option.ne_none_iff_exists'.1 (hok.joint.port.channel.owed s hs)
  obtain ⟨x, hx, rfl, -, hclosed⟩ := hok.joint.port.channel.request _ t ht
  obtain ⟨d, r, hb⟩ := hok.joint.port.life.born t x hx
  rw [World.trace_view] at hb hclosed
  exact hopen _ _ _ _ _ _ hb fun hr => hclosed (.inr (hok.ended_of_released hb hr).2)

/-- **No transaction is stranded.** -/
theorem noneStranded_of_run (hq : q.Bound) (hcache : q.usingGem5Cache = false)
    (hknown : (World.start q).sockets ≤ q.helper.socketNum) (hR : New R)
    (h : Run step Obeyed (start q R) y) : y.NoneStranded :=
  noneStranded_of_live (ok_of_run hq hcache hknown hR h) (live_of_run hq hcache hknown hR h)

/-- gem5 has refused the response to a read, and waits for a retry of its next request but one. -/
theorem noneStranded_refused : ∃ y : ClosedSystem, y.Refused 0 ∧
    y.port.port.slots.owed 0 = true ∧ y.NoneStranded := by
  have hexec : (exec step Obeyed (start twoSocketPort smallRouters)
      [.recvTimingReq (readRequest 0), .peqCb 0 0, .advance 10000, .service {},
        .recvTimingReq (readRequest 1), .peqCb 0 0, .recvTimingReq (readRequest 2),
        .advance 15000, .targetDone 0, .memoryDone 0 .ok, .advance 10000,
        .service { resp := { accept := false } }]).map (fun y =>
          decide (y.port.port.slots.response 0 ≠ none ∧ y.port.port.slots.owed 0 = true)) =
            some true := by decide
  obtain ⟨y, hr, hy⟩ := exists_run_of_exec hexec
  obtain ⟨h₁, h₂⟩ := of_decide_eq_true hy
  exact ⟨y, h₁, h₂, noneStranded_of_run bound_twoSocketPort rfl (by decide)
    (fun _ => ⟨_, _, _, _, rfl⟩) hr⟩

end ClosedSystem

end Gem5Wrapper
