import Gem5Wrapper.Callbacks
import Gem5Wrapper.Draining

/-!
# Every run can be finished

Wherever a run has come to, the system can finish what it was asked to do, with no further request:
gem5 takes the responses that it has refused, time passes until the next callback is due, and the
callback is made. None of this can fail, each callback counts (`Callbacks`), and somebody who still
waits waits for one of them (`Standstill`); so this ends, and ends with everything released.
-/

namespace Gem5Wrapper

open FaultMachine OneAtATime
open Function (update)
open TxnRouter (eventsOf)

/-! ## A router that has nothing to do -/

namespace TxnRouter

variable {α : Type} {r : TxnRouter α} {w : Option α} {st : Stage α}

/-- A router that was asked for nothing is quiet. -/
theorem InProtocol.quiet (h : InProtocol w st r) (hn : requests r.events = []) :
    r.mPeq = [] ∧ r.targetDoneEvent = none ∧ r.process = none := by
  have hreq := hn ▸ h.front.serves.ordered.requests
  obtain ⟨hg, -⟩ := List.append_eq_nil_iff.1 hreq.symm
  obtain ⟨hw, hst⟩ := List.append_eq_nil_iff.1 hg
  have hstage := h.stage
  cases st with
  | idle =>
    refine ⟨List.eq_nil_iff_forall_not_mem.2 fun e he => ?_, hstage.2.2.2, hstage.2.2.1⟩
    have hqueued : ∀ ph, r.queued ph = [] → e.phase ≠ ph := by
      intro ph hq hp
      have hm : e.txn ∈ r.queued ph :=
        List.mem_map.2 ⟨e, List.mem_filter.2 ⟨he, by simp [hp]⟩, rfl⟩
      rw [hq] at hm
      cases hm
    obtain hp | hp := h.front.phases e he
    · exact hqueued _ (List.append_eq_nil_iff.1 (h.front.requests.trans hw)).1 hp
    · exact hqueued _ h.front.ends hp
  | granted x => cases hst
  | started x => cases hst
  | finished x => cases hst
  | answered x owed => cases hst

end TxnRouter

namespace ClosedSystem

variable {c : Wiring} {y y' : ClosedSystem} {a : Act} {s : ℕ} {q : SCSlavePort}
  {R : ℕ → TxnRouter Transaction}

/-- A router with something to do is that of a socket. -/
theorem Ok.lt_sockets (hok : Ok c y) (hn : requests (y.routers s).events ≠ []) :
    s < y.port.sockets := by
  obtain ⟨x, hx⟩ := List.exists_mem_of_ne_nil _ hn
  obtain ⟨a, d, r, hb⟩ := ((hok.joint.linked s).begun x).1 hx
  have hsockets : y.port.sockets = c.sockets := hok.joint.port.sockets
  exact hsockets ▸ (hok.joint.port.addressed _ _ _ _ _ _ hb).1

/-! ## Nothing is late -/

/-- Nothing that is scheduled is due in the past. -/
structure Timely (y : ClosedSystem) : Prop where
  events : ∀ e ∈ y.port.events, y.port.now ≤ e.tick
  queue : ∀ s < y.port.sockets, ∀ e ∈ (y.routers s).mPeq, y.port.now ≤ e.due
  done : ∀ s < y.port.sockets, ∀ t ∈ (y.routers s).targetDoneEvent, y.port.now ≤ t

/-- gem5 schedules nothing at the port. -/
theorem events_of_moves {v u : View} (h : Moves (FromGem5 c) v u) :
    ∀ e ∈ u.events, e ∈ v.events := by
  induction h with
  | refl => exact fun _ => id
  | tail _ hm ih =>
    intro e he
    obtain he | ⟨delay, hP, -⟩ | ⟨r, ha, hs, -⟩ := hm.event he
    · exact ih e he
    · exact hP.2.elim
    · obtain ⟨v', a, hP, hr⟩ := ha.makes
      cases hs.symm.trans (hP.1.requests r hr).status

/-- A call of the port takes no time. -/
theorem Timely.portStep (hok : Ok c y) (hok' : Ok c y') (hi : y.Timely) {b : Gem5Wrapper.Act}
    (hP : FromGem5 c y.port.view b) (hd : ∀ d, b ≠ .advance d) (hs : y.portStep b = .ok y') :
    y'.Timely := by
  have hsockets : y'.port.sockets = y.port.sockets :=
    hok'.joint.port.sockets.trans hok.joint.port.sockets.symm
  obtain ⟨w, hw, hf⟩ := bind_eq_ok.1 hs
  obtain ⟨R, hR, hy⟩ := bind_eq_ok.1 hf
  cases hy
  have hnow : w.now = y.port.now := (World.step_goes hw hd).now
  have hevents := events_of_moves ((World.step_ends hok.port hP).of_eq_ok hw).2
  refine ⟨fun e he => ?_, fun s hs e he => ?_, fun s hs t ht => ?_⟩
  · exact hnow ▸ hi.events e (hevents e he)
  · obtain he | hle := (forwards_called hR s).queue e he
    · exact hnow ▸ hi.queue s (hsockets ▸ hs) e he
    · exact hnow ▸ hle
  · rw [(forwards_called hR s).targetDoneEvent] at ht
    exact hnow ▸ hi.done s (hsockets ▸ hs) t ht

/-- Time does not pass what is scheduled. -/
theorem advance_eq {d : ℕ} (hs : y.step (.advance d) = .ok y') :
    y' = ⟨{ y.port with now := y.port.now + d }, y.routers⟩ ∧
      (∀ s < y.port.sockets, (∀ e ∈ (y.routers s).mPeq, y.port.now + d ≤ e.due) ∧
        ∀ t ∈ (y.routers s).targetDoneEvent, y.port.now + d ≤ t) ∧
      ∀ e ∈ y.port.events, y.port.now + d ≤ e.tick := by
  obtain ⟨_, hc, hs⟩ := bind_eq_ok.1 hs
  obtain ⟨w, hw, hf⟩ := bind_eq_ok.1 hs
  obtain ⟨_, hc', hw⟩ := bind_eq_ok.1 hw
  cases hw
  rw [show newer y.port.trace ({ y.port with now := y.port.now + d } : World).trace = [] from
    newer_append _ []] at hf
  cases hf
  exact ⟨rfl, check_eq_ok.1 hc, check_eq_ok.1 hc'⟩

/-- A callback of a router schedules for later. -/
theorem Timely.routerStep (hok : Ok c y) (hi : y.Timely) {b : TxnRouter.Act Transaction}
    (hb : b.Accepting) (hs : y.routerStep s b = .ok y') : y'.Timely := by
  obtain ⟨r, hr, hback⟩ := bind_eq_ok.1 hs
  obtain ⟨w, hw, hy⟩ := bind_eq_ok.1 hback
  cases hy
  have hsettled := (hok.joint.settled s).at y.port.now (y.routers s).payloads
  obtain ⟨hreact, -⟩ := (TxnRouter.step_reacts hsettled hb).of_eq_ok hr
  obtain ⟨l, hl⟩ := hreact.suffix
  rw [show r.trace = l ++ (y.routers s).trace from hl.symm, newer_append] at hw
  have hshown := backwards_shown hw
  have hsockets : w.sockets = y.port.sockets := by rw [World.sockets, World.sockets, hshown.port]
  have hqueue := (TxnRouter.step_ofQueue hb hr).1
  have hdone : ∀ t ∈ r.targetDoneEvent, t ∈ (y.routers s).targetDoneEvent ∨ y.port.now ≤ t := by
    intro t ht
    cases hreact with
    | take x _ _ hd => exact .inl (hd ▸ ht)
    | close x _ hd => exact .inl (hd ▸ ht)
    | grant x _ _ hd =>
      rw [hd.2] at ht
      exact .inr (Option.mem_some.1 ht ▸ (by omega : y.port.now ≤ y.port.now + _ + 15000))
    | closeGrant x z _ _ hd =>
      rw [hd.2] at ht
      exact .inr (Option.mem_some.1 ht ▸ (by omega : y.port.now ≤ y.port.now + _ + 15000))
    | start x _ _ hd => rw [hd] at ht; cases ht
    | answer x _ _ _ _ hd => rw [hd] at ht; cases ht
  have hnow : w.now = y.port.now := hshown.now
  refine ⟨fun e he => ?_, fun s' hs' e he => ?_, fun s' hs' t ht => ?_⟩ <;> dsimp only at *
  · rw [hnow]
    exact (hshown.events e he).elim (hi.events e) id
  · rw [hnow]
    have hs' : s' < y.port.sockets := hsockets ▸ hs'
    by_cases hne : s' = s
    · subst hne
      rw [Function.update_self] at he
      exact hi.queue s' hs' e (hqueue.subset he)
    · rw [Function.update_of_ne hne] at he
      exact hi.queue s' hs' e he
  · rw [hnow]
    have hs' : s' < y.port.sockets := hsockets ▸ hs'
    by_cases hne : s' = s
    · subst hne
      rw [Function.update_self] at ht
      exact (hdone t ht).elim (hi.done s' hs' t) id
    · rw [Function.update_of_ne hne] at ht
      exact hi.done s' hs' t ht

theorem Timely.step (hok : Ok c y) (hi : y.Timely) (ha : y.Obeyed a) (hs : y.step a = .ok y') :
    y'.Timely := by
  have hok' : Ok c y' := (hok.step_ends ha).of_eq_ok hs
  obtain ⟨hr, hA⟩ := ha
  cases a with
  | recvTimingReq r =>
    exact hi.portStep hok hok' (hok.fromGem5 (a := .recvTimingReq r) hr trivial trivial) (by simp)
      hs
  | service o =>
    exact hi.portStep hok hok' (hok.fromGem5 (a := .service o) hr trivial trivial) (by simp) hs
  | recvRespRetry answers =>
    exact hi.portStep hok hok' (hok.fromGem5 (a := .recvRespRetry answers) hr hA trivial) (by simp)
      hs
  | peqCb s i => exact hi.routerStep hok (b := .peqCb i TxnRouter.acceptingCb) rfl hs
  | targetDone s => exact hi.routerStep hok (b := .targetDone) trivial hs
  | memoryDone s status =>
    exact hi.routerStep hok (b := .memoryDone _ (TxnRouter.accepting .beginResp)) rfl hs
  | advance d =>
    obtain ⟨rfl, hrouters, hevents⟩ := advance_eq hs
    exact ⟨hevents, fun s hs => (hrouters s hs).1, fun s hs => (hrouters s hs).2⟩

theorem timely_of_run (hq : q.Bound) (hcache : q.usingGem5Cache = false)
    (hknown : (World.start q).sockets ≤ q.helper.socketNum) (hR : New R)
    (h : Run step Obeyed (start q R) y) : y.Timely := by
  refine h.invariant_of (J := fun y =>
    Ok ⟨q.targetSocket, (World.start q).sockets, fun s a => (R s).toMem a⟩ y)
    (fun _ ht => ok_of_run hq hcache hknown hR ht) ?_ fun y a y' hok hi ha hs => hi.step hok ha hs
  have hnew : ∀ s, (R s).mPeq = [] ∧ (R s).targetDoneEvent = none := by
    intro s
    obtain ⟨_, _, _, _, hs⟩ := hR s
    rw [hs]
    exact ⟨rfl, rfl⟩
  refine ⟨fun e he => (by cases he), fun s _ e he => ?_, fun s _ t ht => ?_⟩
  · have he : e ∈ (R s).mPeq := he
    rw [(hnew s).1] at he
    cases he
  · have ht : t ∈ (R s).targetDoneEvent := ht
    rw [(hnew s).2] at ht
    cases ht

/-! ## Acts without requests -/

/-- gem5 keeps its promises, and makes no request. -/
def Quiet (y : ClosedSystem) (a : Act) : Prop := y.Obeyed a ∧ a.requests = []

/-- Without requests, nothing is accepted. -/
theorem begins_of_moves {v u : View}
    (h : Moves (fun v b => FromGem5 c v b ∧ b.requests = []) v u) :
    begins u.trace = begins v.trace := by
  have hnone : ∀ v r, ¬ Admitted (fun v b => FromGem5 c v b ∧ b.requests = []) v r := by
    intro v r ha
    obtain ⟨_, b, ⟨-, hb⟩, hr⟩ := ha.makes
    rw [hb] at hr
    cases hr
  induction h with
  | refl => rfl
  | tail _ hm ih =>
    rw [← ih]
    cases hm with
    | accepted ha => exact absurd ha (hnone _ _)
    | updated ha => exact absurd ha (hnone _ _)
    | completed ha => exact absurd ha (hnone _ _)
    | _ => rfl

theorem Ok.accepted_portStep (hok : Ok c y) {b : Gem5Wrapper.Act} (hP : FromGem5 c y.port.view b)
    (hb : b.requests = []) (hs : y.portStep b = .ok y') : y'.accepted = y.accepted := by
  obtain ⟨w, hw, hf⟩ := bind_eq_ok.1 hs
  obtain ⟨R, -, hy⟩ := bind_eq_ok.1 hf
  cases hy
  have hm := ((World.step_ends (P := fun v b => FromGem5 c v b ∧ b.requests = []) hok.port
    ⟨hP, hb⟩).of_eq_ok hw).2
  have hbegins := begins_of_moves hm
  rw [World.trace_view, World.trace_view] at hbegins
  exact congrArg List.length hbegins

theorem Ok.accepted_routerStep (hok : Ok c y) {b : TxnRouter.Act Transaction} (hb : b.Accepting)
    (hs : y.routerStep s b = .ok y') : y'.accepted = y.accepted := by
  obtain ⟨r, hr, hback⟩ := bind_eq_ok.1 hs
  obtain ⟨w, hw, hy⟩ := bind_eq_ok.1 hback
  cases hy
  have hsettled := (hok.joint.settled s).at y.port.now (y.routers s).payloads
  obtain ⟨l, hl⟩ := ((TxnRouter.step_reacts hsettled hb).of_eq_ok hr).1.suffix
  rw [show r.trace = l ++ (y.routers s).trace from hl.symm, newer_append] at hw
  show (begins w.trace).length = _
  rw [(backwards_shown hw).trace, begins_append, (pecs_shown y.port.now l).2]
  rfl

theorem Ok.accepted_step (hok : Ok c y) (ha : y.Quiet a) (hs : y.step a = .ok y') :
    y'.accepted = y.accepted := by
  obtain ⟨⟨hr, hA⟩, hnone⟩ := ha
  cases a with
  | recvTimingReq r => cases hnone
  | service o =>
    exact hok.accepted_portStep (hok.fromGem5 (a := .service o) hr trivial trivial) hnone hs
  | recvRespRetry answers =>
    exact hok.accepted_portStep (hok.fromGem5 (a := .recvRespRetry answers) hr hA trivial) hnone hs
  | peqCb s i => exact hok.accepted_routerStep (b := .peqCb i TxnRouter.acceptingCb) rfl hs
  | targetDone s => exact hok.accepted_routerStep (b := .targetDone) trivial hs
  | memoryDone s status =>
    exact hok.accepted_routerStep (b := .memoryDone _ (TxnRouter.accepting .beginResp)) rfl hs
  | advance d =>
    rw [(advance_eq hs).1]
    rfl

/-! ## What cannot fail -/

theorem forwards_fault (now : ℕ) (R : ℕ → TxnRouter Transaction) (l : List Obs) :
    Ends (fun _ => True) (fun f => ¬ f.Outside) (forwards now R l) := by
  have hreceive : ∀ (r : TxnRouter Transaction) o x address ph delay,
      Ends (fun _ => True) (fun f => ¬ f.Outside) (receive r now o x address ph delay) := by
    intro r o x address ph delay
    unfold receive TxnRouter.nbTransportFw
    dsimp only
    split_ifs
    · trivial
    · exact id
  induction l with
  | nil => trivial
  | cons o l ih =>
    refine ih.bind fun R _ _ => ?_
    cases o with
    | beginReq k t s a d r => exact (hreceive ..).bind fun _ _ _ => trivial
    | endResp k t s a => exact (hreceive ..).bind fun _ _ _ => trivial
    | _ => trivial

/-- An act of the port happens, if nothing is wrong with the act itself. -/
theorem Ok.exists_portStep (hok : Ok c y) {b : Gem5Wrapper.Act}
    (hr : ∀ r ∈ b.requests, y.Routed r) (hA : ResendsAccepted y.port.view b) (hb : b.OfGem5)
    (hf : ∀ f, y.port.step b = .error f → ¬ f.Outside) : ∃ y', y.portStep b = .ok y' := by
  cases hs : y.portStep b with
  | ok y' => exact ⟨y', rfl⟩
  | error f =>
    have hout : f.Outside := (hok.portStep_ends hr hA hb).of_eq_error hs
    obtain h | ⟨w, -, h⟩ := bind_eq_error.1 hs
    · exact absurd hout (hf f h)
    · obtain h | ⟨R, -, h⟩ := bind_eq_error.1 h
      · exact absurd hout ((forwards_fault ..).of_eq_error h)
      · cases h

/-- The port takes what a callback of a router shows. -/
theorem Ok.exists_routerStep (hok : Ok c y) {b : TxnRouter.Act Transaction} (hb : b.Accepting)
    {r : TxnRouter Transaction} (hr : (y.routerAt s).step b = .ok r) :
    ∃ y', y.routerStep s b = .ok y' := by
  have hsettled : (y.routerAt s).Settled :=
    (hok.joint.settled s).at y.port.now (y.routers s).payloads
  obtain ⟨hreact, -⟩ := (TxnRouter.step_reacts hsettled hb).of_eq_ok hr
  obtain ⟨l, w, ht, hw, -⟩ := Half.reacts (r := y.routerAt s) (Half.of_joint hok.port hok.joint s)
    rfl hsettled (hsettled.step hb hr) hreact
  have ht : r.trace = l ++ (y.routers s).trace := ht
  refine ⟨⟨w, update y.routers s r⟩, ?_⟩
  unfold ClosedSystem.routerStep
  rw [show ({ y.routers s with now := y.port.now } : TxnRouter Transaction).step b = .ok r from hr,
    ok_bind, ht, newer_append, hw]
  rfl

/-! ## The next callback -/

/-- Something is due at time `m`. -/
inductive Due (y : ClosedSystem) (m : ℕ) : Prop
  | event {e : PayloadEvent} : e ∈ y.port.events → e.tick = m → Due y m
  | callback {s : ℕ} {e : PeqEvent Transaction} : s < y.port.sockets → e ∈ (y.routers s).mPeq →
      e.due = m → Due y m
  | done {s : ℕ} : s < y.port.sockets → (y.routers s).targetDoneEvent = some m → Due y m

theorem Timely.le_of_due (hi : y.Timely) {m : ℕ} (h : y.Due m) : y.port.now ≤ m := by
  cases h with
  | event he hm => exact hm ▸ hi.events _ he
  | callback hs he hm => exact hm ▸ hi.queue _ hs _ he
  | done hs hm => exact hi.done _ hs _ hm

/-- Time can pass until something is due. -/
theorem exists_advance {m : ℕ} (hle : y.port.now ≤ m) (hm : ∀ m', y.Due m' → m ≤ m') :
    y.step (.advance (m - y.port.now)) =
      .ok ⟨{ y.port with now := m }, y.routers⟩ := by
  have hnow : y.port.now + (m - y.port.now) = m := Nat.add_sub_cancel' hle
  have hrouters : ∀ s < y.port.sockets, (∀ e ∈ (y.routers s).mPeq, m ≤ e.due) ∧
      ∀ t ∈ (y.routers s).targetDoneEvent, m ≤ t :=
    fun s hs => ⟨fun e he => hm _ (.callback hs he rfl), fun t ht => hm _ (.done hs ht)⟩
  have hevents : ∀ e ∈ y.port.events, m ≤ e.tick := fun e he => hm _ (.event he rfl)
  have hport : y.port.step (.advance (m - y.port.now)) = .ok { y.port with now := m } := by
    simp only [World.step, hnow, check_pos hevents, ok_bind, pure_eq_ok]
  have hnewer : newer y.port.trace ({ y.port with now := m } : World).trace = [] :=
    newer_append _ []
  simp only [ClosedSystem.step, hnow, check_pos hrouters, ok_bind, portStep, hport, hnewer]
  rfl

/-- A memory can give its transaction back. -/
theorem Ok.exists_memoryDone (hok : Ok c y) {x : Transaction}
    (hx : (y.routers s).process = some x) : ∃ y', y.step (.memoryDone s .ok) = .ok y' := by
  obtain ⟨w, st, hi⟩ := (hok.joint.settled s).protocol
  obtain rfl := hi.stage.eq_started hx
  obtain ⟨htip, hrip, -, -⟩ := hi.stage
  exact hok.exists_routerStep (b := .memoryDone _ (TxnRouter.accepting .beginResp)) rfl (r := _) (by
    simp only [TxnRouter.step, TxnRouter.memoryDone, routerAt, hx, TxnRouter.emit, hrip, htip,
      TxnRouter.sendResponse_accepting]
    rfl)

/-- What is due now can be done now. -/
theorem Ok.exists_callback (hok : Ok c y) (hdue : y.Due y.port.now)
    (hm : ∀ m, y.Due m → y.port.now ≤ m) :
    ∃ a y', y.Quiet a ∧ a.isCallback = true ∧ y.step a = .ok y' := by
  have hrouter : ∀ s, (y.routerAt s).Settled := fun s =>
    (hok.joint.settled s).at y.port.now (y.routers s).payloads
  cases hdue with
  | event he htick =>
    have hsorted : TimedQueue.Sorted PayloadEvent.tick y.port.events := hok.joint.port.ticks.sorted
    have hhead : ∃ e' q, y.port.events = e' :: q ∧ e'.tick = y.port.now := by
      cases hev : y.port.events with
      | nil =>
        rw [hev] at he
        cases he
      | cons e' q =>
        rw [hev] at he hsorted
        refine ⟨e', q, rfl, le_antisymm ?_ (hm _ (.event (hev ▸ List.mem_cons_self) rfl))⟩
        obtain rfl | he := List.mem_cons.1 he
        · exact htick.le
        · exact (hsorted.head_le he).trans htick.le
    obtain ⟨e', q, hev, hnow⟩ := hhead
    obtain ⟨y', hy⟩ := hok.exists_portStep (b := .service {}) (by simp [Gem5Wrapper.Act.requests])
      trivial trivial fun f hf => by
        simp only [World.step, hev, check_pos hnow, ok_bind] at hf
        exact (World.goes_stepRule.pec ..).of_eq_error hf rfl rfl
    exact ⟨.service {}, y', ⟨⟨by simp [Act.requests], trivial⟩, rfl⟩, rfl, hy⟩
  | @callback s e hs he hnow =>
    obtain ⟨w, st, hi⟩ := (hrouter s).protocol
    obtain ⟨i, hi', he⟩ := List.mem_iff_getElem.1 he
    have hget : (y.routerAt s).mPeq[i]? = some e := List.getElem?_eq_some_iff.2 ⟨hi', he⟩
    obtain ⟨r, hr, -⟩ := TxnRouter.peqCb_reacts hi hget
    have hnow' : e.due = (y.routerAt s).now := hnow
    obtain ⟨y', hy⟩ := hok.exists_routerStep (s := s) (b := .peqCb i TxnRouter.acceptingCb) rfl
      (r := r) (by simp only [TxnRouter.step, hget, check_pos hnow', ok_bind, hr])
    exact ⟨.peqCb s i, y', ⟨⟨by simp [Act.requests], trivial⟩, rfl⟩, rfl, hy⟩
  | @done s hs hd =>
    obtain ⟨w, st, hi⟩ := (hrouter s).protocol
    have hd' : (y.routerAt s).targetDoneEvent = some (y.routerAt s).now := hd
    obtain ⟨x, rfl⟩ := hi.stage.eq_granted hd'
    obtain ⟨htip, -, hproc, -⟩ := hi.stage
    obtain ⟨y', hy⟩ := hok.exists_routerStep (s := s) (b := .targetDone) trivial (r := _) (by
      simp only [TxnRouter.step, check_pos hd', ok_bind, TxnRouter.wake, hproc, htip]
      rfl)
    exact ⟨.targetDone s, y', ⟨⟨by simp [Act.requests], trivial⟩, rfl⟩, rfl, hy⟩

/-- Who is busy has its memory at work or something that is due. -/
theorem Ok.due_of_busy (hok : Ok c y) (h : y.Busy s) :
    (∃ x, (y.routers s).process = some x) ∨ ∃ m, y.Due m := by
  obtain ⟨w, st, hi⟩ := (hok.joint.settled s).protocol
  cases h with
  | event he hb => exact .inr ⟨_, .event he rfl⟩
  | callback he =>
    refine .inr ⟨_, .callback (hok.lt_sockets fun hn => ?_) he rfl⟩
    rw [(hi.quiet hn).1] at he
    cases he
  | done hd =>
    refine .inr ⟨_, .done (hok.lt_sockets fun hn => ?_) hd⟩
    cases (hi.quiet hn).2.1.symm.trans hd
  | memory hx => exact .inl ⟨_, hx⟩

/-- **Somebody who is busy gets on.** -/
theorem Ok.exists_progress (hok : Ok c y) (ht : y.Timely) (h : y.Busy s) :
    ∃ y', Run step Quiet y y' ∧ y.callbacks < y'.callbacks := by
  have hquiet : ∀ a : Act, (∀ b, a ≠ .recvRespRetry b) → a.requests = [] → y.Quiet a := by
    intro a ha hr
    refine ⟨⟨hr ▸ by simp, ?_⟩, hr⟩
    cases a <;> first | trivial | exact absurd rfl (ha _)
  obtain ⟨x, hx⟩ | hdue := hok.due_of_busy h
  · obtain ⟨y', hy⟩ := hok.exists_memoryDone hx
    have hq := hquiet (.memoryDone s .ok) (by simp) rfl
    exact ⟨y', .snoc .refl hq hy, hok.callbacks_step hq.1 hy⟩
  · obtain ⟨m, hm, hmin⟩ := Nat.lt_wfRel.wf.has_min {m | y.Due m} hdue
    have hle : ∀ m', y.Due m' → m ≤ m' := fun m' hm' => Nat.le_of_not_lt (hmin m' hm')
    have hadv := exists_advance (ht.le_of_due hm) hle
    have hq := hquiet (.advance (m - y.port.now)) (by simp) rfl
    have hok' : Ok c ⟨{ y.port with now := m }, y.routers⟩ := (hok.step_ends hq.1).of_eq_ok hadv
    have hsame : ∀ m', Due ⟨{ y.port with now := m }, y.routers⟩ m' ↔ y.Due m' := by
      intro m'
      refine ⟨fun h => ?_, fun h => ?_⟩ <;> cases h with
      | event he hd => exact .event he hd
      | callback hs he hd => exact .callback hs he hd
      | done hs hd => exact .done hs hd
    obtain ⟨a, y', hqa, hcb, hy⟩ := hok'.exists_callback ((hsame m).2 hm)
      fun m' hm' => hle m' ((hsame m').1 hm')
    refine ⟨y', .snoc (.snoc .refl hq hadv) hqa hy, ?_⟩
    have hstep := hok'.callbacks_step hqa.1 hy
    rw [hcb] at hstep
    exact hstep

/-! ## Refused responses -/

/-- A retry with an answer for each response that waits. -/
theorem Ok.step_respRetry (hok : Ok c y) {answers : List RespAnswer}
    (hans : ∀ b ∈ answers, b = {}) (hlen : y.port.blocked.length ≤ answers.length) :
    Ends (fun w => ∀ s, w.port.slots.response s = none) (fun f => ¬ f.Outside)
      (y.port.step (.recvRespRetry answers)) := by
  have hP : FromGem5 c y.port.view (.recvRespRetry answers) := by
    refine hok.fromGem5 (fun r hr => ?_) (fun b hb => hans b hb ▸ rfl) trivial
    obtain ⟨b, hb, hr⟩ := List.mem_flatMap.1 hr
    rw [hans b hb] at hr
    cases hr
  have hlife : ∀ c' w', World.At (FromGem5 c) y.port.view c' w' → Life (w'.viewAt c') :=
    fun c' w' h => (h.moves.invariant hok.joint.port fun _ _ hi hm => hi.move hm).life
  have hidle : World.At (FromGem5 c) y.port.view .idle y.port.catchup := World.at_catchup hok.port
  have hat : World.At (FromGem5 c) y.port.view .retrying (y.port.catchup.emit .respRetry) :=
    hidle.move (hidle.ok.emit _) rfl (.respRetry rfl)
  have hloop : y.port.step (.recvRespRetry answers) =
      (y.port.catchup.emit .respRetry).respRetryLoop answers := by
    simp only [World.step, World.recvRespRetry, World.caughtUp, World.catchup, check_pos, ok_bind]
  rw [hloop]
  refine (World.respRetryLoop_drains (n := y.port.serial) hlife hat ?_ ?_ hlen le_rfl ?_).mono
    (fun w _ h => h.2.empty) ?_
  · exact fun b hb => ⟨y.port.view, answers, hP, b, hb, rfl⟩
  · intro b hb r hr
    rw [hans b hb] at hr
    cases hr
  · exact fun t _ x hx => hok.joint.port.life.pool.serial t x hx
  · intro f _ hf
    obtain ⟨b, hb, w, hw⟩ | ⟨-, rfl⟩ := hf
    · rw [hans b hb] at hw
      cases hw
    · exact id

/-- gem5 takes what it has refused. -/
theorem Ok.exists_retry (hok : Ok c y) :
    ∃ y', Run step Quiet y y' ∧ y.callbacks ≤ y'.callbacks ∧ ∀ s, ¬ y'.Refused s := by
  have hans : ∀ b ∈ List.replicate y.port.blocked.length ({} : RespAnswer), b = {} :=
    fun b hb => List.eq_of_mem_replicate hb
  have hq : y.Quiet (.recvRespRetry (List.replicate y.port.blocked.length {})) := by
    have hnone : (Act.recvRespRetry (List.replicate y.port.blocked.length {})).requests = [] := by
      simp [Act.requests]
    refine ⟨⟨fun r hr => ?_, fun b hb => hans b hb ▸ rfl⟩, hnone⟩
    rw [hnone] at hr
    cases hr
  have hends := hok.step_respRetry hans (by simp)
  obtain ⟨y', hy⟩ := hok.exists_portStep
    (b := .recvRespRetry (List.replicate y.port.blocked.length {})) hq.1.1 hq.1.2 trivial
    fun f hf => hends.of_eq_error hf
  have hempty : ∀ s, y'.port.port.slots.response s = none := by
    obtain ⟨w, hw, hf⟩ := bind_eq_ok.1 hy
    obtain ⟨R, -, hy⟩ := bind_eq_ok.1 hf
    cases hy
    exact hends.of_eq_ok hw
  have hs : y.step (.recvRespRetry (List.replicate y.port.blocked.length {})) = .ok y' := hy
  exact ⟨y', .snoc .refl hq hs, hok.callbacks_step hq.1 hs, fun s hr => hr (hempty s)⟩

/-! ## Runs -/

/-- Everything is released, nobody is owed a retry, and nothing is scheduled. -/
structure Finished (y : ClosedSystem) : Prop where
  released : ∀ k t s a d r, .beginReq k t s a d r ∈ y.port.trace → Released y.port.trace k
  owed : ∀ s, y.port.port.slots.owed s = false
  response : ∀ s, y.port.port.slots.response s = none
  quiet : ∀ s, ¬ y.Busy s

theorem NoneStranded.finished (h : y.NoneStranded) (hb : ∀ s, ¬ y.Busy s)
    (hr : ∀ s, ¬ y.Refused s) : y.Finished := by
  refine ⟨fun k t s a d r hm => ?_, fun s => ?_, fun s => Classical.not_not.1 (hr s), hb⟩
  · by_contra hn
    exact (h.transactions k t s a d r hm hn).elim (hb s) (hr s)
  · cases ho : y.port.port.slots.owed s with
    | false => rfl
    | true => exact ((h.retries s ho).elim (hb s) (hr s)).elim

theorem accepted_of_quiet (hok : Ok c y) (h : Run step Quiet y y') :
    Ok c y' ∧ y'.accepted = y.accepted := by
  refine h.invariant (I := fun y' => Ok c y' ∧ y'.accepted = y.accepted) ⟨hok, rfl⟩
    fun u a u' hi ha hs => ?_
  exact ⟨(hi.1.step_ends ha.1).of_eq_ok hs, (hi.1.accepted_step ha hs).trans hi.2⟩

/-- **Every run can be finished**: gem5 need not ask for anything else. -/
theorem finishes_of_run (hq : q.Bound) (hcache : q.usingGem5Cache = false)
    (hknown : (World.start q).sockets ≤ q.helper.socketNum) (hR : New R)
    (h : Run step Obeyed (start q R) y) :
    ∃ y', Run step Quiet y y' ∧ y'.Finished ∧ y'.accepted = y.accepted := by
  -- by induction on the callbacks that are left
  generalize hn : 6 * y.accepted - y.callbacks = n
  induction n using Nat.strong_induction_on generalizing y with
  | _ n ih =>
    have hok := ok_of_run hq hcache hknown hR h
    obtain ⟨y₁, hr₁, hle₁, hrefused⟩ := hok.exists_retry
    obtain ⟨hok₁, hacc₁⟩ := accepted_of_quiet hok hr₁
    have h₁ : Run step Obeyed (start q R) y₁ := h.trans (hr₁.mono fun _ _ ha => ha.1)
    by_cases hbusy : ∃ s, y₁.Busy s
    · obtain ⟨s, hb⟩ := hbusy
      obtain ⟨y₂, hr₂, hlt⟩ := hok₁.exists_progress (timely_of_run hq hcache hknown hR h₁) hb
      obtain ⟨hok₂, hacc₂⟩ := accepted_of_quiet hok₁ hr₂
      have h₂ : Run step Obeyed (start q R) y₂ := h₁.trans (hr₂.mono fun _ _ ha => ha.1)
      have hbound := hok₂.callbacks_le (counted_of_run hq hcache hknown hR h₂)
        (agrees_of_run hq hcache hknown hR h₂)
      obtain ⟨y₃, hr₃, hfin, hacc₃⟩ := ih _ (by omega) h₂ rfl
      exact ⟨y₃, (hr₁.trans hr₂).trans hr₃, hfin, hacc₃.trans (hacc₂.trans hacc₁)⟩
    · have hnone := noneStranded_of_live hok₁ (live_of_run hq hcache hknown hR h₁)
      exact ⟨y₁, hr₁, hnone.finished (fun s hb => hbusy ⟨s, hb⟩) hrefused, hacc₁⟩

/-- gem5 has refused the response to a read, and is owed a retry of its third request. -/
theorem finishes_refused : ∃ y y' : ClosedSystem, y.Refused 0 ∧ y.accepted = 2 ∧
    Run step Quiet y y' ∧ y'.Finished ∧ y'.accepted = y.accepted := by
  have hexec : (exec step Obeyed (start twoSocketPort smallRouters)
      [.recvTimingReq (readRequest 0), .peqCb 0 0, .advance 10000, .service {},
        .recvTimingReq (readRequest 1), .peqCb 0 0, .recvTimingReq (readRequest 2),
        .advance 15000, .targetDone 0, .memoryDone 0 .ok, .advance 10000,
        .service { resp := { accept := false } }]).map (fun y =>
          decide (y.port.port.slots.response 0 ≠ none ∧ y.accepted = 2)) = some true := by decide
  obtain ⟨y, hr, hy⟩ := exists_run_of_exec hexec
  obtain ⟨h₁, h₂⟩ := of_decide_eq_true hy
  obtain ⟨y', hy'⟩ := finishes_of_run bound_twoSocketPort rfl (by decide)
    (fun _ => ⟨_, _, _, _, rfl⟩) hr
  exact ⟨y, y', h₁, h₂, hy'⟩

end ClosedSystem

end Gem5Wrapper
