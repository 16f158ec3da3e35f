import Gem5Wrapper.Standstill

/-!
# The time that a transaction takes

The port records with each phase that a router sends when it takes effect: 10 ns later. A router
needs 15 ns from then on for a transaction, and works on one at a time. So a socket answers at most
once in 35 ns, whatever the other sockets, the memories and gem5 do (`Paced`).

`Clocked` says how long each router still has to wait.
-/

namespace Gem5Wrapper

open FaultMachine OneAtATime
open Function (update)
open TxnRouter (eventsOf bwDelay)

variable {c : Wiring} {v u : View}

/-! ## What is scheduled -/

/-- What a router has sent has taken effect, or is scheduled. -/
def OnTime (v : View) : Prop :=
  ∀ k ph due, .bw k ph due ∈ v.trace →
    due ≤ v.now ∨ ∃ e ∈ v.events, e.txn = k ∧ e.p = ph ∧ e.tick = due

/-- What a move of the port does to what is scheduled. -/
structure KeepsTime (v u : View) : Prop where
  now : v.now ≤ u.now
  sent : ∀ k ph due, .bw k ph due ∈ u.trace → .bw k ph due ∈ v.trace
  events : ∀ e ∈ v.events, e ∈ u.events ∨ e.tick ≤ u.now

theorem KeepsTime.onTime (h : KeepsTime v u) (hi : OnTime v) : OnTime u := by
  intro k ph due hm
  obtain hle | ⟨e, he, htxn, hp, hdue⟩ := hi k ph due (h.sent k ph due hm)
  · exact .inl (hle.trans h.now)
  · obtain he | hle := h.events e he
    · exact .inr ⟨e, he, htxn, hp, hdue⟩
    · exact .inl (hdue ▸ hle)

theorem KeepsTime.trans {u' : View} (h : KeepsTime v u) (h' : KeepsTime u u') :
    KeepsTime v u' where
  now := h.now.trans h'.now
  sent k ph due hm := h.sent k ph due (h'.sent k ph due hm)
  events e he := (h.events e he).elim (h'.events e) fun hle => .inr (hle.trans h'.now)

/-- An event leaves the queue when it is due. -/
theorem Serviced.keepsTime {P : Promise} {e : PayloadEvent} {q : List PayloadEvent}
    (hs : Serviced P v e q) : ∀ e' ∈ v.events, e' ∈ q ∨ e'.tick ≤ v.now := by
  intro e' he
  obtain rfl | he := List.mem_cons.1 (hs.events ▸ he)
  · exact .inr hs.due.le
  · exact .inl he

theorem Move.keepsTime (h : Move (FromGem5 c) v u) : KeepsTime v u := by
  cases h
  case bw hP => exact hP.2.elim
  case targetAcquire hP _ => exact hP.2.elim
  case targetRelease hP _ => exact hP.2.elim
  case updated r ha hs hp =>
    refine ⟨le_rfl, fun k ph due hm => by simpa using hm, fun e he => .inl ?_⟩
    exact TimedQueue.mem_insert.2 (.inr he)
  case close hs hp hc ho => exact ⟨le_rfl, fun k ph due hm => by simpa using hm, hs.keepsTime⟩
  case retry hs hp hc ho => exact ⟨le_rfl, fun k ph due hm => by simpa using hm, hs.keepsTime⟩
  case keep hs hp => exact ⟨le_rfl, fun k ph due hm => by simpa using hm, hs.keepsTime⟩
  case advance => exact ⟨Nat.le_add_right .., fun k ph due hm => hm, fun e he => .inl he⟩
  all_goals exact ⟨le_rfl, fun k ph due hm => by simpa using hm, fun e he => .inl he⟩

theorem Moves.keepsTime (h : Moves (FromGem5 c) v u) : KeepsTime v u := by
  induction h with
  | refl => exact ⟨le_rfl, fun _ _ _ hm => hm, fun _ he => .inl he⟩
  | tail _ hm ih => exact ih.trans hm.keepsTime

namespace ClosedSystem

variable {y y' : ClosedSystem} {s s' k due now : ℕ} {ph : Phase} {l : List Obs}
  {R : ℕ → TxnRouter Transaction} {x z : Transaction} {q : SCSlavePort} {w : Option Transaction}
  {st : Stage Transaction} {ev : List (Event Transaction)}

/-! ## How long a router waits -/

/-- Phase `ph` of a transaction takes effect at `due`. -/
def Effective (y : ClosedSystem) (x : Transaction) (ph : Phase) (due : ℕ) : Prop :=
  .bw x.serial ph due ∈ y.port.trace

/-- The time at which router `s` goes on. -/
def doneAt (y : ClosedSystem) (s : ℕ) : ℕ := (y.routers s).targetDoneEvent.getD y.port.now

/-- The answers of socket `s` are 35 ns apart, and each comes 25 ns after its END_REQ. -/
structure Paced (y : ClosedSystem) (s : ℕ) : Prop where
  service : ∀ x ∈ answers (y.routers s).events, ∀ t t', y.Effective x .endReq t →
    y.Effective x .beginResp t' → t + 25000 ≤ t'
  apart : (answers (y.routers s).events).Pairwise fun x x' => ∀ t t',
    y.Effective x .beginResp t → y.Effective x' .beginResp t' → t' + 35000 ≤ t
  rate : 35000 * (answers (y.routers s).events).length ≤ y.port.now + 10000

/-- What holds of the clock of socket `s`. -/
structure Ticking (y : ClosedSystem) (s : ℕ) : Prop where
  /-- A transaction is executed 15 ns after its END_REQ. -/
  wait : ∀ x ∈ grants (y.routers s).events, ∀ t, y.Effective x .endReq t →
    t + 15000 ≤ y.doneAt s
  /-- It is executed 25 ns after the last answer. -/
  busy : ∀ z ∈ grants (y.routers s).events, z ∉ answers (y.routers s).events →
    25000 ≤ y.doneAt s ∧ ∀ x ∈ answers (y.routers s).events, ∀ t, y.Effective x .beginResp t →
      t + 25000 ≤ y.doneAt s
  service : ∀ x ∈ answers (y.routers s).events, ∀ t t', y.Effective x .endReq t →
    y.Effective x .beginResp t' → t + 25000 ≤ t'
  apart : (answers (y.routers s).events).Pairwise fun x x' => ∀ t t',
    y.Effective x .beginResp t → y.Effective x' .beginResp t' → t' + 35000 ≤ t
  count : answers (y.routers s).events = [] ∨ ∃ x ∈ answers (y.routers s).events, ∃ t,
    y.Effective x .beginResp t ∧ 35000 * (answers (y.routers s).events).length ≤ t

/-- The clock of the system. -/
structure Clocked (y : ClosedSystem) : Prop where
  onTime : OnTime y.port.view
  ahead : ∀ k ph due, .bw k ph due ∈ y.port.trace → due ≤ y.port.now + bwDelay
  ticking : ∀ s, y.Ticking s

theorem Clocked.paced (h : y.Clocked) (s : ℕ) : y.Paced s := by
  obtain ⟨-, -, hs, ha, hc⟩ := h.ticking s
  refine ⟨hs, ha, ?_⟩
  obtain hnil | ⟨x, -, t, ht, hle⟩ := hc
  · rw [hnil]
    exact Nat.zero_le _
  · exact hle.trans (h.ahead _ _ _ ht)

/-! ## Histories -/

/-- The phases that the port has got are those that the router has sent. -/
theorem Ok.grants_of_effective (h : Ok c y)
    (hx : x ∈ requests (y.routers s).events) (he : y.Effective x .endReq due) :
    x ∈ grants (y.routers s).events := by
  refine TxnRouter.grants_of_phases (((h.joint.linked s).same x hx).symm ▸ ?_)
  rw [World.trace_view]
  exact List.mem_filterMap.2 ⟨_, he, if_pos rfl⟩

theorem Ok.answers_of_effective (h : Ok c y)
    (hx : x ∈ requests (y.routers s).events) (he : y.Effective x .beginResp due) :
    x ∈ answers (y.routers s).events := by
  refine TxnRouter.answers_of_phases (((h.joint.linked s).same x hx).symm ▸ ?_)
  rw [World.trace_view]
  exact List.mem_filterMap.2 ⟨_, he, if_pos rfl⟩

/-- When a request is granted, everything that was answered has been acknowledged. -/
theorem acks_of_grant (h : Serves w st (.grant x :: ev)) (ha : ∀ x, .answer x false ∉ ev)
    (hz : z ∈ answers ev) : z ∈ acks ev := by
  cases h with
  | grant h =>
    rw [h.ordered.answers] at hz
    rw [h.acks_eq ha]
    exact hz

/-- When a transaction is answered, everything that was granted is answered: the router works on
one transaction at a time. -/
theorem answers_of_answer {owed : Bool} (h : Serves w st (.answer z owed :: .finish z :: ev))
    (hx : x ∈ grants ev) : x ∈ z :: answers ev := by
  cases h with
  | answer _ h =>
    have hx : x ∈ grants (.finish z :: ev) := hx
    rw [h.ordered.grants] at hx
    refine (List.mem_cons.1 hx).elim (fun he => he ▸ List.mem_cons_self) fun hx => ?_
    have hanswers := h.ordered.answers
    exact List.mem_cons_of_mem z (show x ∈ answers ev from hanswers ▸ hx)

/-- What a socket has ended has taken effect. -/
theorem Ok.effective_le (hok : Ok c y) (hi : OnTime y.port.view)
    (hx : x ∈ acks (y.routers s).events) (hr : x ∈ requests (y.routers s).events)
    (he : y.Effective x .beginResp due) : due ≤ y.port.now := by
  have hlinked := hok.joint.linked s
  obtain ⟨a, hend⟩ := hlinked.ended x hx
  obtain ⟨a', d, r, hb⟩ := (hlinked.begun x).1 hr
  have hrel : Released y.port.trace x.serial := by
    have hend' := hok.joint.port.life.ended _ _ _ _ hend
    exact ⟨_, World.trace_view _ ▸ hend'⟩
  rw [World.trace_view] at hb
  have hpec := (hok.ended_of_released hb hrel).2
  obtain hle | ⟨e, he, htxn, hp, -⟩ := hi x.serial .beginResp due (by rwa [World.trace_view])
  · exact hle
  · have hnot := (hok.joint.port.life.event e he).2.2.2
    rw [htxn, hp, World.trace_view] at hnot
    exact absurd hpec hnot

/-! ## Steps -/

theorem Ok.requests_of_grants (h : Ok c y) : grants (y.routers s).events ⊆
    requests (y.routers s).events := by
  obtain ⟨w, st, hi⟩ := (h.joint.settled s).protocol
  exact hi.front.serves.grants_suffix.subset

theorem Ok.grants_of_answers (h : Ok c y) : answers (y.routers s).events ⊆
    grants (y.routers s).events := by
  obtain ⟨w, st, hi⟩ := (h.joint.settled s).protocol
  have hs := hi.front.serves
  exact ((hs.answers_suffix.trans hs.finishes_suffix).trans hs.starts_suffix).subset

theorem Ok.requests_of_answers (h : Ok c y) : answers (y.routers s).events ⊆
    requests (y.routers s).events :=
  fun _ hx => h.requests_of_grants (h.grants_of_answers hx)

/-- What takes effect for an answered transaction has been sent before, when only `z` is sent a
phase and `z` is not answered. -/
theorem Ok.effective_of_answered {p : Prop} (h : Ok c y)
    (hz : z ∈ requests (y.routers s).events) (hza : z ∉ answers (y.routers s).events)
    (hx : x ∈ answers (y.routers s).events)
    (hnew : x.serial = z.serial ∧ p ∨ y.Effective x ph due) : y.Effective x ph due := by
  obtain ⟨hserial, -⟩ | he := hnew
  · have hlinked := h.joint.linked s
    obtain ⟨rfl, -⟩ := hlinked.eq_of_serial hlinked h.joint.port.one hz (h.requests_of_answers hx)
      hserial
    exact absurd hx hza
  · exact he

/-- Nothing is sent for the transactions of socket `s`, and its router does not go on earlier. -/
theorem Ticking.mono (hok : Ok c y) (hi : y.Ticking s)
    (hg : grants (y'.routers s).events = grants (y.routers s).events)
    (ha : answers (y'.routers s).events = answers (y.routers s).events)
    (hnew : ∀ x ∈ requests (y.routers s).events, ∀ ph due, y'.Effective x ph due →
      y.Effective x ph due)
    (hold : y.port.trace ⊆ y'.port.trace) (hd : y.doneAt s ≤ y'.doneAt s) : y'.Ticking s := by
  have hgr := fun {x} hx => hok.requests_of_grants (s := s) (a := x) hx
  have har := fun {x} hx => hok.requests_of_answers (s := s) (a := x) hx
  refine ⟨fun x hx t ht => ?_, fun z hz hn => ?_, fun x hx t t' ht ht' => ?_, ?_, ?_⟩
  · rw [hg] at hx
    exact (hi.wait x hx t (hnew x (hgr hx) _ _ ht)).trans hd
  · rw [hg] at hz
    rw [ha] at hn ⊢
    obtain ⟨h₁, h₂⟩ := hi.busy z hz hn
    exact ⟨h₁.trans hd, fun x hx t ht => (h₂ x hx t (hnew x (har hx) _ _ ht)).trans hd⟩
  · rw [ha] at hx
    exact hi.service x hx t t' (hnew x (har hx) _ _ ht) (hnew x (har hx) _ _ ht')
  · rw [ha]
    exact hi.apart.imp_of_mem fun hx hx' h t t' ht ht' =>
      h t t' (hnew _ (har hx) _ _ ht) (hnew _ (har hx') _ _ ht')
  · rw [ha]
    refine hi.count.imp_right fun h => ?_
    obtain ⟨x, hx, t, ht, hle⟩ := h
    exact ⟨x, hx, t, hold ht, hle⟩

/-- END_REQ of `z` starts the work on it. -/
theorem Ticking.grant (hok : Ok c y) (hi : y.Ticking s) (ht : OnTime y.port.view)
    (hev : (y'.routers s).events = .grant z :: ev) (hserves : Serves w st (.grant z :: ev))
    (hnot : ∀ x, .answer x false ∉ ev) (hreq : requests ev = requests (y.routers s).events)
    (hgr : grants ev = grants (y.routers s).events)
    (hans : answers ev = answers (y.routers s).events)
    (hacks : acks ev = acks (y.routers s).events)
    (hnew : ∀ x ph due, y'.Effective x ph due →
      x.serial = z.serial ∧ ph = .endReq ∧ due = y.port.now + bwDelay ∨ y.Effective x ph due)
    (hold : y.port.trace ⊆ y'.port.trace) (hd : (y.routers s).targetDoneEvent = none)
    (hd' : (y'.routers s).targetDoneEvent = some (y.port.now + bwDelay + 15000)) :
    y'.Ticking s := by
  have hdone : y.doneAt s = y.port.now := by rw [doneAt, hd, Option.getD_none]
  have hbw : bwDelay = 10000 := rfl
  have hdone' : y'.doneAt s = y.port.now + bwDelay + 15000 := by rw [doneAt, hd', Option.getD_some]
  obtain ⟨hz, hzg⟩ := hserves.of_grant
  rw [hreq] at hz
  rw [hgr] at hzg
  have hza : z ∉ answers (y.routers s).events := fun h => hzg (hok.grants_of_answers h)
  have holder : ∀ x ∈ answers (y.routers s).events, ∀ ph due, y'.Effective x ph due →
      y.Effective x ph due :=
    fun x hx ph due he => hok.effective_of_answered hz hza hx (hnew x ph due he)
  have hans' : answers (y'.routers s).events = answers (y.routers s).events := by
    rw [hev]
    exact hans
  refine ⟨fun x hx t he => ?_, fun _ _ _ => ⟨?_, fun x hx t he => ?_⟩, fun x hx t t' he he' => ?_,
    ?_, ?_⟩
  · obtain ⟨-, -, rfl⟩ | he := hnew x _ t he
    · exact hdone'.ge
    · rw [hev] at hx
      have hx : x ∈ grants (y.routers s).events := by
        obtain rfl | hx := List.mem_cons.1 hx
        · exact hok.grants_of_effective hz he
        · exact hgr ▸ hx
      have hle := hi.wait x hx t he
      omega
  · omega
  · rw [hans'] at hx
    have hack : x ∈ acks (y.routers s).events :=
      hacks ▸ acks_of_grant hserves hnot (hans.symm ▸ hx)
    have hle := hok.effective_le ht hack (hok.requests_of_answers hx) (holder x hx _ _ he)
    omega
  · rw [hans'] at hx
    exact hi.service x hx t t' (holder x hx _ _ he) (holder x hx _ _ he')
  · rw [hans']
    exact hi.apart.imp_of_mem fun hx hx' h t t' he he' =>
      h t t' (holder _ hx _ _ he) (holder _ hx' _ _ he')
  · rw [hans']
    refine hi.count.imp_right fun h => ?_
    obtain ⟨x, hx, t, he, hle⟩ := h
    exact ⟨x, hx, t, hold he, hle⟩

/-- BEGIN_RESP of `z` ends the work on it. -/
theorem Ticking.answer (hok : Ok c y) (hi : y.Ticking s) {owed : Bool}
    (hev : (y'.routers s).events = .answer z owed :: .finish z :: (y.routers s).events)
    (hserves : Serves w st (.answer z owed :: .finish z :: (y.routers s).events))
    (hnew : ∀ x ph due, y'.Effective x ph due →
      x.serial = z.serial ∧ ph = .beginResp ∧ due = y.port.now + bwDelay ∨ y.Effective x ph due)
    (hsent : y'.Effective z .beginResp (y.port.now + bwDelay))
    (hd : (y.routers s).targetDoneEvent = none)
    (hnow : y'.port.now = y.port.now) (hd' : (y'.routers s).targetDoneEvent = none) :
    y'.Ticking s := by
  have hdone : y.doneAt s = y.port.now := by rw [doneAt, hd, Option.getD_none]
  have hdone' : y'.doneAt s = y.port.now := by rw [doneAt, hd', Option.getD_none, hnow]
  obtain ⟨hzg, hza, hclosed⟩ := hserves.of_answer
  have hzg : z ∈ grants (y.routers s).events := hzg
  have hza : z ∉ answers (y.routers s).events := hza
  have hz := hok.requests_of_grants hzg
  have holder : ∀ x ∈ answers (y.routers s).events, ∀ ph due, y'.Effective x ph due →
      y.Effective x ph due :=
    fun x hx ph due he => hok.effective_of_answered hz hza hx (hnew x ph due he)
  have hlast : ∀ due, y'.Effective z .beginResp due → due = y.port.now + 10000 := by
    intro due he
    obtain ⟨-, -, hdue⟩ | he := hnew z _ due he
    · exact hdue
    · exact absurd (hok.answers_of_effective hz he) hza
  have hendReq : ∀ x t, y'.Effective x .endReq t → y.Effective x .endReq t := by
    intro x t he
    obtain ⟨-, hph, -⟩ | he := hnew x _ t he
    · cases hph
    · exact he
  obtain ⟨hfirst, hbusy⟩ := hi.busy z hzg hza
  have hans' : answers (y'.routers s).events = z :: answers (y.routers s).events := by
    rw [hev]
    rfl
  have hgr' : grants (y'.routers s).events = grants (y.routers s).events := by
    rw [hev]
    rfl
  refine ⟨fun x hx t he => ?_, fun x hx hn => ?_, fun x hx t t' he he' => ?_, ?_, .inr ?_⟩
  · rw [hgr'] at hx
    have hle := hi.wait x hx t (hendReq x t he)
    omega
  · rw [hgr'] at hx
    rw [hans'] at hn
    exact absurd (answers_of_answer hserves hx) hn
  · rw [hans'] at hx
    obtain rfl | hx := List.mem_cons.1 hx
    · have hle := hi.wait x hzg t (hendReq x t he)
      have hdue := hlast t' he'
      omega
    · exact hi.service x hx t t' (holder x hx _ _ he) (holder x hx _ _ he')
  · rw [hans']
    refine List.pairwise_cons.2 ⟨fun x hx t t' he he' => ?_, ?_⟩
    · have hdue := hlast t he
      have hle := hbusy x hx t' (holder x hx _ _ he')
      omega
    · exact hi.apart.imp_of_mem fun hx hx' h t t' he he' =>
        h t t' (holder _ hx _ _ he) (holder _ hx' _ _ he')
  · rw [hans']
    refine ⟨z, List.mem_cons_self, _, hsent, ?_⟩
    have hbw : bwDelay = 10000 := rfl
    rw [List.length_cons]
    obtain hnil | ⟨x, hx, t, he, hle⟩ := hi.count
    · rw [hnil, List.length_nil]
      omega
    · have hlt := hbusy x hx t he
      omega

/-- The port grants nothing, and answers nothing. -/
theorem grants_called (s : ℕ) (l : List Obs) :
    grants (eventsOf (called s l)) = [] ∧ answers (eventsOf (called s l)) = [] := by
  induction l with
  | nil => exact ⟨rfl, rfl⟩
  | cons o l ih =>
    rw [called_cons, eventsOf_append, grants, answers, List.filterMap_append, List.filterMap_append]
    refine ⟨List.append_eq_nil_iff.2 ⟨?_, ih.1⟩, List.append_eq_nil_iff.2 ⟨?_, ih.2⟩⟩
    all_goals
      cases o with
      | beginReq k t s' a d r => by_cases h : s' = s <;> simp [calledAt, eventsOf,
          TxnRouter.Obs.event, h]
      | endResp k t s' a => by_cases h : s' = s <;> simp [calledAt, eventsOf,
          TxnRouter.Obs.event, h]
      | _ => rfl

/-- What a router sends takes effect 10 ns later. -/
theorem sent_of_shown {l : List (TxnRouter.Obs Transaction)} (h : .bw k ph due ∈ shown now l) :
    due = now + bwDelay ∧ ∃ x, x.serial = k ∧ (ph = .endReq ∧ .endReq x ∈ l ∨
      ph = .beginResp ∧ ∃ status reply, .beginResp x status reply ∈ l) := by
  obtain ⟨o, ho, hs⟩ := List.mem_filterMap.1 h
  cases o with
  | endReq x =>
    cases hs
    exact ⟨rfl, x, rfl, .inl ⟨rfl, ho⟩⟩
  | beginResp x status reply =>
    cases hs
    exact ⟨rfl, x, rfl, .inr ⟨rfl, status, reply, ho⟩⟩
  | _ => cases hs

/-- The router of a socket goes on. -/
theorem Clocked.reacts (hok : Ok c y) (hok' : Ok c y') (hi : y.Clocked)
    {l : List (TxnRouter.Obs Transaction)} {r : TxnRouter Transaction}
    (hreact : (y.routerAt s).Reacts r) (ht : r.trace = l ++ (y.routers s).trace)
    (hb : Shown (shown y.port.now l) y.port y'.port) (hr : y'.routers s = r) : y'.Ticking s := by
  have hts := hi.ticking s
  have hold : y.port.trace ⊆ y'.port.trace := hb.trace ▸ List.subset_append_right ..
  have hev : (y'.routers s).events = eventsOf l ++ (y.routers s).events := by
    rw [hr]
    show eventsOf r.trace = _
    rw [ht, eventsOf_append]
    rfl
  have hnot : ∀ x, .answer x false ∉ (y.routers s).events := (hok.joint.settled s).not_refused
  obtain ⟨w, st, hprot⟩ := (hok'.joint.settled s).protocol
  have hserves := hprot.front.serves
  rw [hev] at hserves
  -- what has been sent before, and what is sent now
  have hsent : ∀ x ph due, y'.Effective x ph due →
      .bw x.serial ph due ∈ shown y.port.now l ∨ y.Effective x ph due := fun x ph due he =>
    List.mem_append.1 (hb.trace ▸ he)
  have hquiet : eventsOf l = [] ∨ (∃ x, eventsOf l = [.close x]) ∨ (∃ x, eventsOf l = [.start x]) →
      (∀ k ph due, .bw k ph due ∉ shown y.port.now l) → y.doneAt s ≤ y'.doneAt s →
      y'.Ticking s := by
    intro hl hnone hdone
    refine hts.mono hok ?_ ?_ (fun x _ ph due he => (hsent x ph due he).resolve_left
      (hnone _ _ _)) hold hdone
    all_goals
      rw [hev]
      obtain hl | ⟨x, hl⟩ | ⟨x, hl⟩ := hl <;> rw [hl] <;> rfl
  have hsame : r.targetDoneEvent = (y.routers s).targetDoneEvent → y.doneAt s ≤ y'.doneAt s :=
    fun h => by rw [doneAt, doneAt, hr, h, hb.now]
  have hl : ∀ m, r.trace = m ++ (y.routers s).trace → l = m := fun m h =>
    List.append_cancel_right (ht.symm.trans h)
  cases hreact with
  | take x _ htr hd =>
    obtain rfl := hl [.acquire x] htr
    exact hquiet (.inl rfl) (by simp [shown, shownAt]) (hsame hd)
  | close x htr hd =>
    obtain rfl := hl [.ended x] htr
    exact hquiet (.inr (.inl ⟨x, rfl⟩)) (by simp [shown, shownAt]) (hsame hd)
  | start x htr hd hd' =>
    obtain rfl := hl [.execute x] htr
    refine hquiet (.inr (.inr ⟨x, rfl⟩)) (by simp [shown, shownAt]) ?_
    have hd : (y.routers s).targetDoneEvent = some y.port.now := hd
    rw [doneAt, doneAt, hr, hd, hd', hb.now]
    exact le_rfl
  | grant x _ htr hd =>
    obtain rfl := hl [.endReq x, .acquire x] htr
    refine hts.grant hok hi.onTime hev hserves hnot rfl rfl rfl rfl (fun z ph due he => ?_) hold
      hd.1 (hr ▸ hd.2)
    refine (hsent z ph due he).imp_left fun hm => ?_
    simpa [shown, shownAt] using hm
  | closeGrant x z _ htr hd =>
    obtain rfl := hl [.endReq z, .ended x] htr
    have hnot' : ∀ y', .answer y' false ∉ (.close x :: (y.routers s).events) := fun y' hm => by
      obtain hm | hm := List.mem_cons.1 hm
      · cases hm
      · exact hnot y' hm
    refine hts.grant hok hi.onTime hev hserves hnot' rfl rfl rfl rfl (fun z ph due he => ?_) hold
      hd.1 (hr ▸ hd.2)
    refine (hsent z ph due he).imp_left fun hm => ?_
    simpa [shown, shownAt] using hm
  | answer x status status' htr hd hd' =>
    obtain rfl := hl [.release x, .beginResp x status ⟨.accepted, .beginResp, bwDelay⟩,
      .executed x status'] htr
    refine hts.answer hok hev hserves (fun z ph due he => ?_) ?_ hd hb.now (hr ▸ hd')
    · refine (hsent z ph due he).imp_left fun hm => ?_
      simpa [shown, shownAt] using hm
    · show _ ∈ y'.port.trace
      rw [hb.trace]
      exact List.mem_append_left _ (by simp [shown, shownAt])

theorem Clocked.step (h : Steps c y y') (hok : Ok c y) (hok' : Ok c y') (hi : y.Clocked) :
    y'.Clocked := by
  cases h with
  | port a l _ _ hm ht hf =>
    have hk := hm.keepsTime
    have hsent : ∀ k ph due, .bw k ph due ∈ y'.port.trace → .bw k ph due ∈ y.port.trace := by
      intro k ph due hmem
      rw [← World.trace_view] at hmem ⊢
      exact hk.sent k ph due hmem
    refine ⟨hk.onTime hi.onTime, fun k ph due hmem => ?_, fun s => ?_⟩
    · exact (hi.ahead k ph due (hsent k ph due hmem)).trans (Nat.add_le_add_right hk.now _)
    · have hc := forwards_called hf s
      obtain ⟨hg, ha⟩ := grants_called s l
      have hev := hc.events_eq
      refine (hi.ticking s).mono hok ?_ ?_ (fun x _ ph due => hsent _ ph due)
        (ht ▸ List.subset_append_right ..) ?_
      · rw [hev, grants, List.filterMap_append]
        exact congrArg (· ++ _) hg
      · rw [hev, answers, List.filterMap_append]
        exact congrArg (· ++ _) ha
      · rw [doneAt, doneAt, hc.targetDoneEvent]
        cases (y.routers s).targetDoneEvent with
        | none => exact hk.now
        | some t => exact le_rfl
  | router s a l r _ hstep hreact ht hb hR =>
    have hshown := backwards_shown hb
    have hr : y'.routers s = r := by rw [hR, Function.update_self]
    refine ⟨fun k ph due hm => ?_, fun k ph due hm => ?_, fun s' => ?_⟩
    · rw [World.trace_view, hshown.trace] at hm
      obtain hm | hm := List.mem_append.1 hm
      · exact .inr (hshown.scheduled k ph due hm)
      · rw [← World.trace_view] at hm
        obtain hle | ⟨e, he, hdue⟩ := hi.onTime k ph due hm
        · exact .inl (hle.trans hshown.now.ge)
        · exact .inr ⟨e, hshown.keeps e he, hdue⟩
    · rw [hshown.now]
      rw [hshown.trace] at hm
      obtain hm | hm := List.mem_append.1 hm
      · exact (sent_of_shown hm).1.le
      · exact hi.ahead k ph due hm
    · by_cases hs : s' = s
      · subst hs
        exact hi.reacts hok hok' hreact ht hshown hr
      have hsame : y'.routers s' = y.routers s' := by rw [hR, Function.update_of_ne hs]
      refine (hi.ticking s').mono hok (by rw [hsame]) (by rw [hsame]) (fun x hx ph due he => ?_)
        (hshown.trace ▸ List.subset_append_right ..) (by rw [doneAt, doneAt, hsame, hshown.now])
      have he : .bw x.serial ph due ∈ y'.port.trace := he
      rw [hshown.trace] at he
      obtain hm | hm := List.mem_append.1 he
      · -- the transaction would be one of both sockets
        obtain ⟨-, z, hz, hmem⟩ := sent_of_shown hm
        have hzr : z ∈ requests (y'.routers s).events := by
          obtain ⟨-, hmem⟩ | ⟨-, status, reply, hmem⟩ := hmem
          · refine hok'.requests_of_grants (List.mem_filterMap.2 ⟨.grant z, ?_, rfl⟩)
            refine List.mem_filterMap.2 ⟨TxnRouter.Obs.endReq z, ?_, rfl⟩
            rw [hr, ht]
            exact List.mem_append_left _ hmem
          · refine hok'.requests_of_grants (hok'.grants_of_answers
              (List.mem_filterMap.2 ⟨.answer z (reply.status = .accepted), ?_, rfl⟩))
            refine List.mem_filterMap.2 ⟨TxnRouter.Obs.beginResp z status reply, ?_, rfl⟩
            rw [hr, ht]
            exact List.mem_append_left _ hmem
        have hxr : x ∈ requests (y'.routers s').events := by rw [hsame]; exact hx
        obtain ⟨-, hs'⟩ := (hok'.joint.linked s').eq_of_serial (hok'.joint.linked s)
          hok'.joint.port.one hxr hzr hz
        exact absurd hs'.symm hs
      · exact hm

/-! ## Runs -/

theorem clocked_start (hR : New R) : (start q R).Clocked := by
  have hev : ∀ s, ((start q R).routers s).events = [] := by
    intro s
    obtain ⟨_, _, _, _, hs⟩ := hR s
    show (R s).events = []
    rw [hs]
    rfl
  refine ⟨fun k ph due hm => ?_, fun k ph due hm => ?_, fun s => ?_⟩
  · cases hm
  · cases hm
  · constructor <;> rw [hev]
    · exact fun x hx => by cases hx
    · exact fun x hx => by cases hx
    · exact fun x hx => by cases hx
    · exact .nil
    · exact .inl rfl

/-- **A socket answers at most once in 35 ns**, in every run. -/
theorem paced_of_run (hq : q.Bound) (hcache : q.usingGem5Cache = false)
    (hknown : (World.start q).sockets ≤ q.helper.socketNum) (hR : New R)
    (h : Run step Obeyed (start q R) y) (s : ℕ) : y.Paced s :=
  (invariant_of_run hq hcache hknown hR h (clocked_start hR)
    fun _ _ _ hok hok' hi hs => hi.step hs hok hok').paced s

/-- The memory works in no time: two reads of one socket are answered after 70 ns. -/
theorem paced_twoReads : ∃ y : ClosedSystem, y.port.now = 60000 ∧
    answers (y.routers 0).events = [⟨1, 1⟩, ⟨0, 0⟩] ∧ y.Effective ⟨1, 1⟩ .beginResp 70000 ∧
      ∀ s, y.Paced s := by
  have hexec : (exec step Obeyed (start twoSocketPort smallRouters)
      [.recvTimingReq (readRequest 0), .peqCb 0 0, .advance 10000, .service {},
        .recvTimingReq (readRequest 1), .peqCb 0 0, .advance 15000, .targetDone 0,
        .memoryDone 0 .ok, .advance 10000, .service {}, .peqCb 0 0, .advance 10000, .service {},
        .advance 15000, .targetDone 0, .memoryDone 0 .ok]).map (fun y =>
          decide (y.port.now = 60000 ∧ answers (y.routers 0).events = [⟨1, 1⟩, ⟨0, 0⟩] ∧
            .bw 1 .beginResp 70000 ∈ y.port.trace)) = some true := by decide
  obtain ⟨y, hr, hy⟩ := exists_run_of_exec hexec
  obtain ⟨hnow, hans, he⟩ := of_decide_eq_true hy
  exact ⟨y, hnow, hans, he, paced_of_run bound_twoSocketPort rfl (by decide)
    (fun _ => ⟨_, _, _, _, rfl⟩) hr⟩

end ClosedSystem

end Gem5Wrapper
