import Gem5Wrapper.ClosedRuns

/-!
# The steps of a closed system

An act of the port is a run of its moves, and what it shows is called at the routers in order; an
act of a router is one of its reactions, and what it shows is called at the port. `Ok.steps` says so
once, so that a law of the system is proved for these two cases.
-/

namespace Gem5Wrapper

open FaultMachine OneAtATime
open Function (update)
open TxnRouter (eventsOf)

theorem Moves.suffix {P : Promise} {v u : View} (h : Moves P v u) : v.trace <:+ u.trace := by
  induction h with
  | refl => exact List.suffix_rfl
  | tail _ hm ih => exact ih.trans hm.suffix

namespace ClosedSystem

/-- Router `s` as it is when it is called. -/
def routerAt (y : ClosedSystem) (s : ℕ) : TxnRouter Transaction :=
  { y.routers s with now := y.port.now }

/-- What a step of the system is. -/
inductive Steps (c : Wiring) (y y' : ClosedSystem) : Prop
  | port (a : Gem5Wrapper.Act) (l : List Obs) : FromGem5 c y.port.view a →
      y.port.step a = .ok y'.port → Moves (FromGem5 c) y.port.view y'.port.view →
      y'.port.trace = l ++ y.port.trace →
      forwards y.port.now y.routers l = .ok y'.routers → Steps c y y'
  | router (s : ℕ) (a : TxnRouter.Act Transaction) (l : List (TxnRouter.Obs Transaction))
      (r : TxnRouter Transaction) : a.Accepting → (y.routerAt s).step a = .ok r →
      (y.routerAt s).Reacts r → r.trace = l ++ (y.routers s).trace →
      backwards y.port l = .ok y'.port → y'.routers = update y.routers s r → Steps c y y'

variable {c : Wiring} {y y' : ClosedSystem} {a : Act} {s s' now : ℕ} {l : List Obs} {o : Obs}
  {R R' : ℕ → TxnRouter Transaction} {t : List (TxnRouter.Obs Transaction)} {w w' : World}
  {x : Transaction} {r r' : TxnRouter Transaction} {q : SCSlavePort}

/-! ## The two kinds of steps -/

/-- gem5 keeps what it promises to the port. -/
theorem Ok.fromGem5 (h : Ok c y) {a : Gem5Wrapper.Act} (hr : ∀ r ∈ a.requests, y.Routed r)
    (hA : ResendsAccepted y.port.view a) (ha : a.OfGem5) : FromGem5 c y.port.view a := by
  refine ⟨h.joint.port.obeys (fun r hm => h.takes (hr r hm)) hA ?_ ?_ ?_ ?_, ha⟩ <;>
    cases a <;> trivial

theorem Ok.steps_of_port (h : Ok c y) {a : Gem5Wrapper.Act} (hr : ∀ r ∈ a.requests, y.Routed r)
    (hA : ResendsAccepted y.port.view a) (ha : a.OfGem5) (hs : y.portStep a = .ok y') :
    Steps c y y' := by
  have hP := h.fromGem5 hr hA ha
  obtain ⟨w, hw, hf⟩ := bind_eq_ok.1 hs
  obtain ⟨-, hm⟩ := (World.step_ends h.port hP).of_eq_ok hw
  obtain ⟨l, hl⟩ := hm.suffix
  rw [World.trace_view, World.trace_view] at hl
  rw [← hl, newer_append] at hf
  obtain ⟨R, hR, hy⟩ := bind_eq_ok.1 hf
  cases hy
  exact .port a l hP hw hm hl.symm hR

theorem Ok.steps_of_router (h : Ok c y) {a : TxnRouter.Act Transaction} (ha : a.Accepting)
    (hs : y.routerStep s a = .ok y') : Steps c y y' := by
  obtain ⟨r, hr, hb⟩ := bind_eq_ok.1 hs
  have hsettled := (h.joint.settled s).at y.port.now (y.routers s).payloads
  obtain ⟨hreact, -⟩ := (TxnRouter.step_reacts hsettled ha).of_eq_ok hr
  obtain ⟨l, hl⟩ := hreact.suffix
  have hl' : r.trace = l ++ (y.routers s).trace := hl.symm
  rw [hl', newer_append] at hb
  obtain ⟨w, hw, hy⟩ := bind_eq_ok.1 hb
  cases hy
  exact .router s a l r ha hr hreact hl' hw rfl

/-- **Every step of the system is one of the two.** -/
theorem Ok.steps (h : Ok c y) (ha : y.Obeyed a) (hs : y.step a = .ok y') : Steps c y y' := by
  obtain ⟨hr, hA⟩ := ha
  cases a with
  | recvTimingReq r => exact h.steps_of_port (a := .recvTimingReq r) hr trivial trivial hs
  | service o => exact h.steps_of_port (a := .service o) hr trivial trivial hs
  | recvRespRetry answers => exact h.steps_of_port (a := .recvRespRetry answers) hr hA trivial hs
  | peqCb s i => exact h.steps_of_router (a := .peqCb i TxnRouter.acceptingCb) rfl hs
  | targetDone s => exact h.steps_of_router (a := .targetDone) trivial hs
  | memoryDone s status =>
    exact h.steps_of_router (a := .memoryDone _ (TxnRouter.accepting .beginResp)) rfl hs
  | advance d =>
    obtain ⟨-, -, hs⟩ := bind_eq_ok.1 hs
    exact h.steps_of_port (a := .advance d) hr trivial trivial hs

/-- What the steps keep holds in every run. -/
theorem invariant_of_run {I : ClosedSystem → Prop} {R : ℕ → TxnRouter Transaction}
    (hq : q.Bound) (hcache : q.usingGem5Cache = false)
    (hknown : (World.start q).sockets ≤ q.helper.socketNum) (hR : New R)
    (h : Run step Obeyed (start q R) y) (h₀ : I (start q R))
    (hstep : ∀ c y y', Ok c y → Ok c y' → I y → Steps c y y' → I y') : I y := by
  refine h.invariant_of (J := fun y =>
    Ok ⟨q.targetSocket, (World.start q).sockets, fun s a => (R s).toMem a⟩ y)
    (fun _ ht => ok_of_run hq hcache hknown hR ht) h₀ fun y a y' hok hi ha hs => ?_
  exact hstep _ y y' hok ((hok.step_ends ha).of_eq_ok hs) hi (hok.steps ha hs)

/-! ## What the port calls -/

/-- What the port shows, as router `s` sees it. -/
def calledAt (s : ℕ) : Obs → Option (TxnRouter.Obs Transaction)
  | .beginReq k t s' .. => if s' = s then some (.beginReq ⟨k, t⟩) else none
  | .endResp k t s' _ => if s' = s then some (.endResp ⟨k, t⟩) else none
  | _ => none

/-- The calls of the port at router `s`, newest first. -/
def called (s : ℕ) (l : List Obs) : List (TxnRouter.Obs Transaction) := l.filterMap (calledAt s)

theorem called_cons (s : ℕ) (o : Obs) (l : List Obs) :
    called s (o :: l) = (calledAt s o).toList ++ called s l := by
  rw [called, List.filterMap_cons]
  cases calledAt s o <;> rfl

/-- What calls of the port at time `now` make of a router. -/
structure Called (now : ℕ) (l : List (TxnRouter.Obs Transaction)) (r r' : TxnRouter Transaction) :
    Prop where
  trace : r'.trace = l ++ r.trace
  queue : ∀ e ∈ r'.mPeq, e ∈ r.mPeq ∨ now ≤ e.due
  length : r'.mPeq.length = l.length + r.mPeq.length
  targetDoneEvent : r'.targetDoneEvent = r.targetDoneEvent
  process : r'.process = r.process
  endReqPending : r'.endReqPending = r.endReqPending
  inProgress : r'.transactionInProgress = r.transactionInProgress

theorem Called.refl (now : ℕ) (r : TxnRouter Transaction) : Called now [] r r :=
  ⟨rfl, fun _ he => .inl he, (Nat.zero_add _).symm, rfl, rfl, rfl, rfl⟩

theorem Called.events_eq (h : Called now t r r') : r'.events = eventsOf t ++ r.events := by
  show eventsOf r'.trace = _
  rw [h.trace]
  exact List.filterMap_append

theorem Called.trans {t' : List (TxnRouter.Obs Transaction)} {r'' : TxnRouter Transaction}
    (h : Called now t r r') (h' : Called now t' r' r'') : Called now (t' ++ t) r r'' where
  trace := by rw [h'.trace, h.trace, List.append_assoc]
  queue e he := (h'.queue e he).elim (h.queue e) .inr
  length := by rw [h'.length, h.length, List.length_append, Nat.add_assoc]
  targetDoneEvent := h'.targetDoneEvent.trans h.targetDoneEvent
  process := h'.process.trans h.process
  endReqPending := h'.endReqPending.trans h.endReqPending
  inProgress := h'.inProgress.trans h.inProgress

theorem receive_called {address delay : ℕ} {o : TxnRouter.Obs Transaction} {ph : Phase}
    (h : receive r now o x address ph delay = .ok r') : Called now [o] r r' := by
  unfold receive TxnRouter.nbTransportFw at h
  dsimp only at h
  split_ifs at h
  cases h
  refine ⟨rfl, fun e he => ?_, ?_, rfl, rfl, rfl, rfl⟩
  · obtain he | he := List.mem_append.1 he
    · exact .inl he
    · exact .inr (List.mem_singleton.1 he ▸ Nat.le_add_right ..)
  · rw [TxnRouter.notify, List.length_append, Nat.add_comm]
    rfl

/-- A call at router `s'`, as router `s` sees it. -/
theorem update_called {o : TxnRouter.Obs Transaction} (h : Called now [o] (R s') r') (s : ℕ) :
    Called now (if s' = s then some o else none).toList (R s) (update R s' r' s) := by
  by_cases hs : s' = s
  · subst hs
    rw [Function.update_self, if_pos rfl]
    exact h
  · rw [Function.update_of_ne (Ne.symm hs), if_neg hs]
    exact .refl now (R s)

theorem forward_called (h : forward now R o = .ok R') (s : ℕ) :
    Called now (calledAt s o).toList (R s) (R' s) := by
  cases o with
  | beginReq k t s' address delay reply =>
    obtain ⟨r, hr, hR⟩ := bind_eq_ok.1 h
    cases hR
    exact update_called (receive_called hr) s
  | endResp k t s' address =>
    obtain ⟨r, hr, hR⟩ := bind_eq_ok.1 h
    cases hR
    exact update_called (receive_called hr) s
  | _ =>
    cases h
    exact .refl now (R s)

/-- Each router gets the calls that the port makes at its socket. -/
theorem forwards_called (h : forwards now R l = .ok R') (s : ℕ) :
    Called now (called s l) (R s) (R' s) := by
  induction l generalizing R' with
  | nil =>
    cases h
    exact .refl now (R s)
  | cons o l ih =>
    obtain ⟨R₁, h₁, h₂⟩ := bind_eq_ok.1 h
    rw [called_cons]
    exact (ih h₁).trans (forward_called h₂ s)

/-! ## What a router calls -/

/-- What a router shows, as the port sees it at time `now`. -/
def shownAt (now : ℕ) : TxnRouter.Obs Transaction → Option Obs
  | .acquire x => some (.targetAcquire x.serial)
  | .endReq x => some (.bw x.serial .endReq (now + TxnRouter.bwDelay))
  | .beginResp x _ _ => some (.bw x.serial .beginResp (now + TxnRouter.bwDelay))
  | .release x => some (.targetRelease x.serial)
  | _ => none

def shown (now : ℕ) (t : List (TxnRouter.Obs Transaction)) : List Obs := t.filterMap (shownAt now)

/-- What calls of a router make of the port. -/
structure Shown (l : List Obs) (w w' : World) : Prop where
  trace : w'.trace = l ++ w.trace
  port : w'.port = w.port
  now : w'.now = w.now
  events : ∀ e ∈ w'.events, e ∈ w.events ∨ w.now ≤ e.tick
  keeps : ∀ e ∈ w.events, e ∈ w'.events
  scheduled : ∀ k ph due, .bw k ph due ∈ l →
    ∃ e ∈ w'.events, e.txn = k ∧ e.p = ph ∧ e.tick = due
  extension : ∀ t x, (w'.payloads t).extension = some x → (w.payloads t).extension = some x

theorem Shown.refl (w : World) : Shown [] w w :=
  ⟨rfl, rfl, rfl, fun _ => .inl, fun _ => id, by simp, fun _ _ => id⟩

theorem Shown.trans {l' : List Obs} {w'' : World} (h : Shown l w w') (h' : Shown l' w' w'') :
    Shown (l' ++ l) w w'' where
  trace := by rw [h'.trace, h.trace, List.append_assoc]
  port := h'.port.trans h.port
  now := h'.now.trans h.now
  events e he := (h'.events e he).elim (h.events e) fun hl => .inr (h.now ▸ hl)
  keeps e he := h'.keeps e (h.keeps e he)
  scheduled k ph due hm := by
    obtain hm | hm := List.mem_append.1 hm
    · exact h'.scheduled k ph due hm
    · obtain ⟨e, he, hdue⟩ := h.scheduled k ph due hm
      exact ⟨e, h'.keeps e he, hdue⟩
  extension t x hx := h.extension t x (h'.extension t x hx)

/-- A call that schedules nothing, and at most takes the extension of a payload away. -/
theorem shown_quiet (ht : w'.trace = l ++ w.trace) (hp : w'.port = w.port) (hn : w'.now = w.now)
    (he : w'.events = w.events) (hl : ∀ k ph due, .bw k ph due ∉ l)
    (hx : ∀ t x, (w'.payloads t).extension = some x → (w.payloads t).extension = some x) :
    Shown l w w' :=
  ⟨ht, hp, hn, fun _ h => .inl (he ▸ h), fun _ h => he ▸ h,
    fun k ph due h => absurd h (hl k ph due), hx⟩

theorem shown_of_acquire {k : ℕ} {p : Ptr} (h : (w.emit (.targetAcquire k)).acquire p = .ok w') :
    Shown [.targetAcquire k] w w' := by
  obtain ⟨-, -, h⟩ := bind_eq_ok.1 h
  cases h
  refine shown_quiet rfl rfl rfl rfl (by simp) fun t x hx => ?_
  by_cases ht : t = p
  · subst ht
    simpa [World.setPayload, World.emit] using hx
  · simpa [World.setPayload, World.emit, ht] using hx

theorem shown_of_release {k : ℕ} {p : Ptr} (h : (w.emit (.targetRelease k)).release p = .ok w') :
    Shown [.targetRelease k] w w' := by
  obtain ⟨-, -, h⟩ := bind_eq_ok.1 h
  dsimp only at h
  split_ifs at h
  all_goals
    cases h
    refine shown_quiet rfl rfl rfl rfl (by simp) fun t x hx => ?_
    by_cases ht : t = p
    · subst ht
      simp_all [World.setPayload, World.emit, Payload.reset]
    · simpa [World.setPayload, World.emit, ht] using hx

theorem shown_nbTransportBw (w : World) (k : ℕ) (t : Ptr) (ph : Phase) (delay : ℕ) :
    Shown [.bw k ph (w.now + delay)] w (w.nbTransportBw k t ph delay) := by
  refine ⟨rfl, rfl, rfl, fun e he => ?_, fun e he => TimedQueue.mem_insert.2 (.inr he),
    fun k' ph' due hm => ?_, fun _ _ => id⟩
  · obtain rfl | he := TimedQueue.mem_insert.1 he
    · exact .inr (Nat.le_add_right ..)
    · exact .inl he
  · cases List.mem_singleton.1 hm
    exact ⟨_, TimedQueue.mem_insert.2 (.inl rfl), rfl, rfl, rfl⟩

theorem backward_shown {o : TxnRouter.Obs Transaction} (h : backward w o = .ok w') :
    Shown (shownAt w.now o).toList w w' := by
  cases o with
  | acquire x => exact shown_of_acquire h
  | release x => exact shown_of_release h
  | endReq x =>
    cases h
    exact shown_nbTransportBw ..
  | beginResp x status reply =>
    cases h
    exact shown_nbTransportBw ..
  | _ =>
    cases h
    exact .refl w

/-- The port gets the calls that a router makes. -/
theorem backwards_shown (h : backwards w t = .ok w') : Shown (shown w.now t) w w' := by
  induction t generalizing w' with
  | nil =>
    cases h
    exact .refl w
  | cons o t ih =>
    obtain ⟨w₁, h₁, h₂⟩ := bind_eq_ok.1 h
    have hs := (ih h₁).trans (backward_shown h₂)
    have he : shown w.now (o :: t) = (shownAt w₁.now o).toList ++ shown w.now t := by
      rw [(ih h₁).now, shown, List.filterMap_cons]
      cases shownAt w.now o <;> rfl
    exact he ▸ hs

/-- Histories only grow. -/
theorem Steps.history (h : Steps c y y') : y.port.trace <:+ y'.port.trace ∧
    ∀ s, (y.routers s).trace <:+ (y'.routers s).trace := by
  cases h with
  | port a l _ _ _ ht hf =>
    exact ⟨⟨l, ht.symm⟩, fun s => ⟨called s l, (forwards_called hf s).trace.symm⟩⟩
  | router s' a l r _ _ _ ht hb hR =>
    refine ⟨⟨shown y.port.now l, (backwards_shown hb).trace.symm⟩, fun s => ?_⟩
    rw [hR]
    by_cases hs : s = s'
    · rw [hs, Function.update_self]
      exact ⟨l, ht.symm⟩
    · rw [Function.update_of_ne hs]

end ClosedSystem

end Gem5Wrapper
