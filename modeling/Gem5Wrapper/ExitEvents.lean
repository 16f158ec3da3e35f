import Gem5Wrapper.Module
import Gem5Wrapper.Lib.History

/-!
# The exit event

`eventLoop` signals an exit event to `simulate` in the next delta cycle. Until the thread of
`simulate` runs, `inSimulate` holds, so `eventLoop` may be entered again, and what it services then
replaces the exit event.
-/

namespace Gem5Wrapper

open FaultMachine Notification History

namespace Module

/-- The exit event that has been serviced and that `simulate` has not returned. -/
def exitOf : List Obs → Option GemEvent
  | .serviced e _ _ :: l => (exitOf l).or (if e.isExitEvent then some e else none)
  | _ => none

/-- Nothing is serviced after the exit event until `simulate` returns it. -/
def ExitLaw : Obs → List Obs → Prop
  | .entered, _ => True
  | .serviced _ _ _, l => exitOf l = none
  | .returned e, l => exitOf l = some e

variable {m m' : Module} {e : GemEvent} {os : List QueueOp}

/-- The exit event is kept for the thread of `simulate`. -/
structure Keeps (m : Module) : Prop where
  law : Along ExitLaw m.trace
  exit : ∀ e, exitOf m.trace = some e → m.exitEvent = some e ∧ m.inSimulate = true
  signalled : m.eventLoopExitEvent ≠ .none → m.inSimulate = true → exitOf m.trace ≠ none
  ready : m.simulateReady = true → exitOf m.trace ≠ none
  looping : m.looping = true → m.inSimulate = true

theorem Keeps.frame (h : Keeps m) (hf : OpsFrame m m') : Keeps m' := by
  obtain ⟨_, _, _, _, rfl⟩ := hf
  exact ⟨h.law, h.exit, h.signalled, h.ready, h.looping⟩

theorem Keeps.eventLoop {o : AsyncAnswers} (h : Keeps m) (hm : m.eventLoop o = .ok m') :
    Keeps m' := by
  simp only [Module.eventLoop, bind_eq_ok, check_eq_ok, pure_eq_ok, Except.ok.injEq] at hm
  obtain ⟨-, hsim, m₁, ha, rfl⟩ := hm
  have hf := serviceAsync_frame ha
  have h₁ := h.frame hf
  have hsim₁ : m₁.inSimulate = true := by
    obtain ⟨_, _, _, _, rfl⟩ := hf
    exact hsim
  exact ⟨h₁.law, h₁.exit, h₁.signalled, h₁.ready, fun _ => hsim₁⟩

theorem Keeps.serviceExternalEvent {o : AsyncAnswers} (h : Keeps m)
    (hm : m.serviceExternalEvent o = .ok m') : Keeps m' := by
  simp only [Module.serviceExternalEvent, bind_eq_ok] at hm
  obtain ⟨m₁, ha, hm⟩ := hm
  have h₁ := h.frame (serviceAsync_frame ha)
  split_ifs at hm
  · exact h₁.eventLoop hm
  · cases hm
    exact h₁

/-- After the exit event, no turn of the loop finds an event that is due, until the thread of
`simulate` runs. -/
def Undisturbed (m : Module) : Act → Prop
  | .turn _ => exitOf m.trace ≠ none → ∀ e ∈ m.queue.head?, m.now < e.tick
  | _ => True

instance (m : Module) : (a : Act) → Decidable (Undisturbed m a)
  | .turn _ => inferInstanceAs (Decidable (exitOf m.trace ≠ none →
      ∀ e ∈ m.queue.head?, m.now < e.tick))
  | .eventLoop _ | .serviceExternalEvent _ | .resume | .simulate .. | .process _ | .signal _
  | .delta | .advance _ => .isTrue trivial

theorem serviceOne_frame (h : m.serviceOne e os = .ok m') :
    OpsFrame (m.emit (.serviced e m.now m.curTick)) m' :=
  OpsFrame.trans ⟨_, _, _, _, rfl⟩ (ops_frame h)

/-- What a turn of the loop can do. -/
theorem turn_cases (h : m.turn os = .ok m') :
    ∃ e q w, m.queue = e :: q ∧
      ((m.now < e.tick ∧ m' = { m with
          curTick := m.now, waitExitTime := w, looping := false,
          eventLoopEnterEvent := m.eventLoopEnterEvent.notify m.now (e.tick - m.now) }) ∨
        (e.tick = m.now ∧ ∃ m₁,
          ({ m with curTick := m.now, waitExitTime := w } : Module).serviceOne e os = .ok m₁ ∧
          ((e.isExitEvent = true ∧ m' = { m₁ with
              exitEvent := some e
              eventLoopExitEvent := m₁.eventLoopExitEvent.notify m₁.now 0
              looping := false }) ∨
            (e.isExitEvent = false ∧ m' = { m₁ with exitEvent := none })))) := by
  unfold turn at h
  split at h
  · cases h
  rename_i e q hq
  simp only [bind_eq_ok] at h
  obtain ⟨m₁, hc, h⟩ := h
  obtain rfl := catchup_eq hc
  obtain ⟨w, hw⟩ : ∃ w, (if m.waitExitTime > m.now then
      ({ m with curTick := m.now, waitExitTime := m.now } : Module)
      else { m with curTick := m.now }) = { m with curTick := m.now, waitExitTime := w } := by
    split_ifs <;> exact ⟨_, rfl⟩
  dsimp only at h
  rw [hw] at h
  dsimp only at h
  split_ifs at h with hlt hgt hexit
  · exact ⟨e, q, m.now + (e.tick - m.now), hq, .inl ⟨hlt, (Except.ok.inj h).symm⟩⟩
  all_goals
    have he : e.tick = m.now := by omega
    simp only [bind_eq_ok, pure_eq_ok, Except.ok.injEq] at h
    obtain ⟨m₁, hs, rfl⟩ := h
  · exact ⟨e, q, w, hq, .inr ⟨he, m₁, hs, .inl ⟨hexit, rfl⟩⟩⟩
  · exact ⟨e, q, w, hq, .inr ⟨he, m₁, hs, .inr ⟨by simpa using hexit, rfl⟩⟩⟩

/-- What `simulate` can do when it goes on: its limit event leaves the queue if another event was
the exit event. -/
theorem resume_cases (h : m.resume = .ok m') : ∃ e m₁, m.exitEvent = some e ∧
    m' = m₁.emit (.returned e) ∧
    (m₁ = { m with eventLoopEnterEvent := .none, inSimulate := false, simulateReady := false } ∨
      ({ m with eventLoopEnterEvent := .none, inSimulate := false, simulateReady := false } :
        Module).deschedule m.limitEvent = .ok m₁) := by
  simp only [Module.resume] at h
  split at h
  · cases h
  rename_i e he
  simp only [bind_eq_ok] at h
  obtain ⟨-, -, -, -, h⟩ := h
  split_ifs at h
  · simp only [bind_eq_ok, pure_eq_ok, Except.ok.injEq] at h
    obtain ⟨m₁, hd, rfl⟩ := h
    exact ⟨e, m₁, he, rfl, .inr hd⟩
  · cases h
    exact ⟨e, _, he, rfl, .inl rfl⟩

theorem resume_frame (h : m.resume = .ok m') : ∃ e m₁, m.exitEvent = some e ∧
    m' = m₁.emit (.returned e) ∧
    OpsFrame { m with
      eventLoopEnterEvent := .none, inSimulate := false, simulateReady := false } m₁ := by
  obtain ⟨e, m₁, he, hm, rfl | hd⟩ := resume_cases h
  · exact ⟨e, _, he, hm, .refl _⟩
  · exact ⟨e, m₁, he, hm, deschedule_frame hd⟩

theorem Keeps.turn (h : Keeps m) (hu : Undisturbed m (.turn os)) (hl : m.looping = true)
    (hm : m.turn os = .ok m') : Keeps m' := by
  have hsim := h.looping hl
  obtain ⟨e, q, w, hq, ⟨-, rfl⟩ | ⟨he, m₁, hs, hm⟩⟩ := turn_cases hm
  · exact ⟨h.law, h.exit, h.signalled, h.ready, by simp⟩
  -- the event is due, so no exit event has been serviced
  have hnone : exitOf m.trace = none := by
    by_contra hne
    have := hu hne e (by simp [hq])
    omega
  obtain ⟨_, _, _, _, rfl⟩ := serviceOne_frame hs
  have hlaw : Along ExitLaw (.serviced e m.now m.now :: m.trace) := ⟨hnone, h.law⟩
  obtain ⟨hexit, rfl⟩ | ⟨hexit, rfl⟩ := hm
  · have hexit : exitOf (.serviced e m.now m.now :: m.trace) = some e := by
      simp [exitOf, hnone, hexit]
    refine ⟨hlaw, fun x hx => ?_, fun _ _ => ?_, fun _ => ?_, by simp⟩
    · obtain rfl := Option.some.inj (hexit.symm.trans hx)
      exact ⟨rfl, hsim⟩
    · exact fun hn => absurd (hexit.symm.trans hn) (by simp)
    · exact fun hn => absurd (hexit.symm.trans hn) (by simp)
  · have hexit : exitOf (.serviced e m.now m.now :: m.trace) = none := by
      simp [exitOf, hnone, hexit]
    refine ⟨hlaw, fun x hx => ?_, fun hp hs => ?_, fun hr => ?_, fun _ => hsim⟩
    · exact absurd (hexit.symm.trans hx) (by simp)
    · exact absurd hnone (h.signalled hp hs)
    · exact absurd hnone (h.ready hr)

theorem Keeps.simulate {numCycles limit : ℕ} (h : Keeps m)
    (hm : m.simulate numCycles limit = .ok m') : Keeps m' := by
  simp only [Module.simulate, bind_eq_ok, check_eq_ok, pure_eq_ok, Except.ok.injEq] at hm
  obtain ⟨-, hsim, m₁, hs, rfl⟩ := hm
  obtain ⟨_, _, _, _, rfl⟩ := scheduleNew_frame hs
  have hnone : exitOf m.trace = none := by
    by_contra hne
    obtain ⟨e, he⟩ := Option.ne_none_iff_exists'.1 hne
    exact absurd (hsim.symm.trans (h.exit e he).2) (by simp)
  exact ⟨⟨trivial, h.law⟩, fun e he => (by cases he), fun hp => absurd rfl hp,
    fun hr => absurd hnone (h.ready hr), fun _ => rfl⟩

theorem Keeps.resume (h : Keeps m) (hr : m.simulateReady = true) (hl : m.looping = false)
    (hm : m.resume = .ok m') : Keeps m' := by
  obtain ⟨e, he⟩ := Option.ne_none_iff_exists'.1 (h.ready hr)
  obtain ⟨x, m₁, hx, rfl, hf⟩ := resume_frame hm
  obtain rfl := Option.some.inj ((h.exit e he).1.symm.trans hx)
  obtain ⟨_, _, _, _, rfl⟩ := hf
  exact ⟨⟨he, h.law⟩, fun e he => (by cases he), fun _ hs => (by cases hs),
    fun hr => (by cases hr), fun hl' => absurd (hl.symm.trans hl') (by simp)⟩

theorem Keeps.trigger (h : Keeps m) (p : Pending) (after : Pending → Pending)
    (hp : p ≠ .none) (hafter : after .none = .none) : Keeps (m.trigger p after) := by
  refine ⟨h.law, h.exit, fun hne hsim => ?_, fun hr => ?_, h.looping⟩
  · exact h.signalled (fun hq => hne (by simp [Module.trigger, hq, hafter])) hsim
  · obtain ⟨hq, hsim⟩ := of_decide_eq_true hr
    exact h.signalled (fun hn => hp (hq.symm.trans hn)) hsim

theorem Keeps.step {a : Act} (h : Keeps m) (hu : Undisturbed m a) (hm : m.step a = .ok m') :
    Keeps m' := by
  cases a with
  | eventLoop o =>
    simp only [Module.step, bind_eq_ok] at hm
    obtain ⟨-, -, hm⟩ := hm
    exact Keeps.eventLoop (m := { m with eventLoopReady := false })
      ⟨h.law, h.exit, h.signalled, h.ready, h.looping⟩ hm
  | serviceExternalEvent o =>
    simp only [Module.step, bind_eq_ok] at hm
    obtain ⟨-, -, hm⟩ := hm
    exact Keeps.serviceExternalEvent (m := { m with externalReady := false })
      ⟨h.law, h.exit, h.signalled, h.ready, h.looping⟩ hm
  | resume =>
    simp only [Module.step, bind_eq_ok, check_eq_ok] at hm
    obtain ⟨-, hr, hm⟩ := hm
    exact h.resume hr.1 hr.2 hm
  | turn os =>
    simp only [Module.step, bind_eq_ok, check_eq_ok] at hm
    obtain ⟨-, hl, hm⟩ := hm
    exact h.turn hu hl hm
  | simulate numCycles limit =>
    simp only [Module.step, bind_eq_ok] at hm
    obtain ⟨-, -, hm⟩ := hm
    exact h.simulate hm
  | process os =>
    simp only [Module.step, bind_eq_ok] at hm
    obtain ⟨-, -, hm⟩ := hm
    exact h.frame (ops_frame hm)
  | signal a =>
    obtain rfl := Except.ok.inj hm
    exact h.frame (withAsync_frame m _)
  | delta =>
    simp only [Module.step, bind_eq_ok, pure_eq_ok, Except.ok.injEq] at hm
    obtain ⟨-, -, rfl⟩ := hm
    exact h.trigger .delta Pending.afterDelta (by simp) rfl
  | advance d =>
    simp only [Module.step, bind_eq_ok, pure_eq_ok, Except.ok.injEq] at hm
    obtain ⟨-, -, -, -, rfl⟩ := hm
    have h₁ := h.trigger (.timed (m.now + d)) (Pending.after (m.now + d)) (by simp) rfl
    exact ⟨h₁.law, h₁.exit, h₁.signalled, h₁.ready, h₁.looping⟩

/-! ## Runs -/

/-- The exit event that was serviced is the one that `simulate` reads, and nothing is serviced
between. -/
structure ExitKept (m : Module) : Prop where
  law : Along ExitLaw m.trace
  reads : m.simulateReady = true → ∃ e, exitOf m.trace = some e ∧ m.exitEvent = some e

theorem exitKept_of_run {waitExitTime : ℕ} (h : Run step Undisturbed (new waitExitTime) m) :
    ExitKept m := by
  have hk : Keeps m := by
    refine h.invariant (I := Keeps) ?_ fun _ _ _ hk hu hs => hk.step hu hs
    exact ⟨trivial, fun _ he => (by cases he), fun hp => absurd rfl hp, fun hr => (by cases hr),
      fun hl => (by cases hl)⟩
  refine ⟨hk.law, fun hr => ?_⟩
  obtain ⟨e, he⟩ := Option.ne_none_iff_exists'.1 (hk.ready hr)
  exact ⟨e, he, (hk.exit e he).1⟩

/-- The limit event at tick 6 is serviced while an event at tick 20 is queued; in the same delta
cycle another process schedules an event at `tick`, and the next one lets `serviceExternalEvent` run
before the thread of `simulate`. -/
def laterEvent (tick : ℕ) : List Act :=
  [.process [.schedule ⟨1, 20, 0, .ordinary⟩], .simulate 6 0, .delta, .eventLoop {}, .turn [],
    .advance 6, .eventLoop {}, .turn [], .process [.schedule ⟨2, tick, 0, .ordinary⟩, .notify 0],
    .delta, .serviceExternalEvent {}, .turn []]

/-- The event is scheduled for later. -/
theorem exitKept_laterEvent : ∃ m, m.simulateReady = true ∧ m.exitEvent.isSome ∧ ExitKept m := by
  have h : (exec step Undisturbed (new 0) (laterEvent 9)).map (fun m =>
    decide (m.simulateReady = true ∧ m.exitEvent.isSome)) = some true := by decide
  obtain ⟨m, hr, hp⟩ := exists_run_of_exec h
  obtain ⟨hready, hexit⟩ := of_decide_eq_true hp
  exact ⟨m, hready, hexit, exitKept_of_run hr⟩

/-- The event is scheduled with zero delay. -/
theorem not_exitKept : ¬ ∀ (waitExitTime : ℕ) (m : Module),
    Run step (fun _ _ => True) (new waitExitTime) m → ExitKept m := by
  intro h
  have hexec : (exec step (fun _ _ => True) (new 0) (laterEvent 6 ++ [.turn []])).map (fun m =>
    decide (m.simulateReady = true ∧ m.looping = false ∧ m.exitEvent = none)) = some true := by
    decide
  obtain ⟨m, hr, hp⟩ := exists_run_of_exec hexec
  obtain ⟨hready, -, hexit⟩ := of_decide_eq_true hp
  obtain ⟨e, -, he⟩ := (h 0 m hr).reads hready
  exact absurd (hexit.symm.trans he) (by simp)

end Module

end Gem5Wrapper
