import Gem5Wrapper.Module
import Mathlib.Data.List.Sort

/-!
# gem5 time and SystemC time

Inside `simulate`, every queued event has a wake-up that is due no later than the event
(`InTime.awake`), so SystemC time does not pass an event, and gem5 services each event when
its own time has caught up.
-/

namespace Gem5Wrapper

open FaultMachine Notification

/-! ## The order of the queue -/

/-- Sorted by tick. -/
def Sorted (q : List GemEvent) : Prop := q.Pairwise fun a b => a.tick ≤ b.tick

variable {e x : GemEvent} {q : List GemEvent}

@[simp] theorem GemEvent.mem_insert : x ∈ e.insert q ↔ x = e ∨ x ∈ q := by
  induction q with
  | nil => simp [GemEvent.insert]
  | cons y q ih =>
    unfold GemEvent.insert
    split_ifs
    · simp only [List.mem_cons, ih]
      tauto
    · simp only [List.mem_cons]

theorem GemEvent.tick_le_of_before (h : x.before e) : x.tick ≤ e.tick := by
  obtain h | ⟨h, -⟩ := h <;> omega

theorem GemEvent.tick_le_of_not_before (h : ¬ x.before e) : e.tick ≤ x.tick := by
  by_contra hlt
  exact h (.inl (by omega))

theorem Sorted.insert (h : Sorted q) (e : GemEvent) : Sorted (e.insert q) := by
  induction q with
  | nil => exact List.pairwise_singleton _ _
  | cons y q ih =>
    obtain ⟨hy, hq⟩ := List.pairwise_cons.1 h
    unfold GemEvent.insert
    split_ifs with hb
    · refine List.pairwise_cons.2 ⟨fun x hx => ?_, ih hq⟩
      obtain rfl | hx := GemEvent.mem_insert.1 hx
      · exact GemEvent.tick_le_of_before hb
      · exact hy x hx
    · have hle := GemEvent.tick_le_of_not_before hb
      refine List.pairwise_cons.2 ⟨fun x hx => ?_, h⟩
      obtain rfl | hx := List.mem_cons.1 hx
      · exact hle
      · exact hle.trans (hy x hx)

theorem Sorted.head_le (h : Sorted (e :: q)) (hx : x ∈ e :: q) : e.tick ≤ x.tick := by
  obtain rfl | hx := List.mem_cons.1 hx
  · exact le_rfl
  · exact (List.pairwise_cons.1 h).1 x hx

namespace Module

variable {m m' m'' : Module} {o : QueueOp} {os : List QueueOp} {P : Prop}

/-! ## What code does to the queue -/

/-- What code that runs at one time can do: it schedules events from gem5 time on. -/
structure Grows (m m' : Module) : Prop where
  frame : OpsFrame m m'
  external : ∀ t, m.externalSchedulingEvent.By t → m'.externalSchedulingEvent.By t
  queue : ∀ e ∈ m'.queue, e ∈ m.queue ∨ m.curTick ≤ e.tick
  curTick : m.curTick ≤ m'.curTick
  lag : m.curTick ≤ m.now → m'.curTick ≤ m.now
  sorted : Sorted m.queue → Sorted m'.queue

theorem Grows.refl (m : Module) : Grows m m :=
  ⟨⟨_, _, _, _, rfl⟩, fun _ => id, fun _ => .inl, le_rfl, id, id⟩

theorem Grows.trans (h : Grows m m') (h' : Grows m' m'') : Grows m m'' := by
  have hnow := h.frame.now_eq
  refine ⟨h.frame.trans h'.frame, fun t => h'.external t ∘ h.external t, fun e he => ?_,
    h.curTick.trans h'.curTick,
    fun hl => ?_, h'.sorted ∘ h.sorted⟩
  · obtain he | he := h'.queue e he
    · exact h.queue e he
    · exact .inr (h.curTick.trans he)
  · exact hnow ▸ h'.lag (hnow ▸ h.lag hl)

/-- The fatals on gem5 time. -/
def OutOfTime (f : Fault) : Prop :=
  ∃ function, f = .fatal function mustLag ∨ f = .fatal function missedEvent

/-- Nothing queued is in the past. -/
def Future (m : Module) : Prop := ∀ e ∈ m.queue, m.now ≤ e.tick

theorem schedule_ends (m : Module) (e : GemEvent) :
    Ends (fun m' => Grows m m' ∧ m.curTick ≤ e.tick ∧ ∀ x ∈ m'.queue, x = e ∨ x ∈ m.queue)
      (¬ OutOfTime ·) (m.schedule e) := by
  refine .check (fun _ => by simp [OutOfTime]) fun hc => .check (fun _ => by simp [OutOfTime])
    fun _ => ⟨⟨⟨_, _, _, _, rfl⟩, fun _ => id, fun x hx => ?_, le_rfl, id, fun h => h.insert e⟩, hc,
      fun x hx => GemEvent.mem_insert.1 hx⟩
  obtain rfl | hx := GemEvent.mem_insert.1 hx
  · exact .inr hc
  · exact .inl hx

theorem deschedule_ends (m : Module) (i : ℕ) :
    Ends (fun m' => Grows m m' ∧ ∀ x ∈ m'.queue, x ∈ m.queue) (¬ OutOfTime ·)
      (m.deschedule i) := by
  refine .check (fun _ => by simp [OutOfTime]) fun _ => ?_
  have hsub : ∀ x ∈ m.queue.eraseP (·.id = i), x ∈ m.queue := fun x hx => List.mem_of_mem_eraseP hx
  exact ⟨⟨⟨_, _, _, _, rfl⟩, fun _ => id, fun x hx => .inl (hsub x hx), le_rfl, id,
    fun h => h.sublist List.eraseP_sublist⟩, hsub⟩

theorem catchup_ends (hl : m.curTick ≤ m.now) (hf : P → m.Future) :
    Ends (fun m' => m' = { m with curTick := m.now }) (fun f => P → ¬ OutOfTime f) m.catchup := by
  refine .check (fun hn => absurd hl hn) fun _ => .check (fun hn hP => ?_) fun _ => rfl
  refine absurd (fun e he => ?_) hn
  exact hl.trans (hf hP e (List.mem_of_mem_head? he))

theorem grows_catchup (hl : m.curTick ≤ m.now) : Grows m { m with curTick := m.now } :=
  ⟨⟨_, _, _, _, rfl⟩, fun _ => id, fun _ => .inl, hl, fun _ => le_rfl, id⟩

/-- The events that come into the queue are those that are scheduled. -/
def Adds (m : Module) (scheduled : GemEvent → Prop) (m' : Module) : Prop :=
  ∀ x ∈ m'.queue, x ∈ m.queue ∨ scheduled x ∧ m.curTick ≤ x.tick

/-- One operation. `P` says when the fatals on gem5 time are excluded. -/
theorem op_ends (hl : m.curTick ≤ m.now) (hf : P → m.Future) (o : QueueOp) :
    Ends (fun m' => Grows m m' ∧ Adds m (fun x => o = .schedule x) m')
      (fun f => P → ¬ OutOfTime f) (m.op o) := by
  cases o with
  | schedule e =>
    refine (schedule_ends m e).mono (fun m' _ ⟨hg, hc, hq⟩ => ⟨hg, fun x hx => ?_⟩)
      fun _ _ h _ => h
    obtain rfl | hx := hq x hx
    · exact .inr ⟨rfl, hc⟩
    · exact .inl hx
  | deschedule id =>
    exact (deschedule_ends m id).mono (fun m' _ h => ⟨h.1, fun x hx => .inl (h.2 x hx)⟩)
      fun _ _ h _ => h
  | notify d =>
    exact ⟨⟨⟨_, _, _, _, rfl⟩, fun _ h => h.notify, fun _ => .inl, le_rfl, id, id⟩, fun _ => .inl⟩
  | catchup =>
    refine (catchup_ends hl hf).mono (fun m' _ h => ?_) fun _ _ => id
    subst h
    exact ⟨grows_catchup hl, fun _ => .inl⟩

/-- The operations of one evaluation. -/
theorem ops_ends (hl : m.curTick ≤ m.now) (hf : P → m.Future)
    (hs : P → ∀ e, .schedule e ∈ os → m.curTick ≤ e.tick → m.now ≤ e.tick) :
    Ends (fun m' => Grows m m' ∧ Adds m (fun x => .schedule x ∈ os) m')
      (fun f => P → ¬ OutOfTime f) (m.ops os) := by
  induction os generalizing m with
  | nil => exact ⟨.refl m, fun _ => .inl⟩
  | cons o os ih =>
    refine (op_ends hl hf o).bind fun m₁ _ ⟨hg, hq⟩ => ?_
    have hnow := hg.frame.now_eq
    refine (ih (m := m₁) ?_ ?_ ?_).mono (fun m₂ _ ⟨hg₂, hq₂⟩ => ⟨hg.trans hg₂, fun x hx => ?_⟩)
      fun _ _ => id
    · exact hnow ▸ hg.lag hl
    · intro hP e he
      rw [hnow]
      obtain he | ⟨rfl, hc⟩ := hq e he
      · exact hf hP e he
      · exact hs hP e (List.mem_cons_self ..) hc
    · intro hP e he hc
      rw [hnow]
      exact hs hP e (List.mem_cons_of_mem _ he) (hg.curTick.trans hc)
    · obtain hx | ⟨hx, hc⟩ := hq₂ x hx
      · obtain hx | ⟨rfl, hc⟩ := hq x hx
        · exact .inl hx
        · exact .inr ⟨List.mem_cons_self .., hc⟩
      · exact .inr ⟨List.mem_cons_of_mem _ hx, hg.curTick.trans hc⟩

/-- What is notified stays notified. -/
theorem by_of_notify {d t : ℕ} (h : m.ops os = .ok m') (hl : m.curTick ≤ m.now)
    (hd : .notify d ∈ os) (ht : m.now + d ≤ t) : m'.externalSchedulingEvent.By t := by
  induction os generalizing m with
  | nil => cases hd
  | cons o os ih =>
    simp only [ops, bind_eq_ok] at h
    obtain ⟨m₁, ho, h⟩ := h
    have hg := ((op_ends hl (False.elim : False → _) o).of_eq_ok ho).1
    have hnow := hg.frame.now_eq
    have hl₁ : m₁.curTick ≤ m₁.now := hnow ▸ hg.lag hl
    obtain rfl | hd := List.mem_cons.1 hd
    · have hends : Ends _ _ (m₁.ops os) := ops_ends hl₁ (False.elim : False → _) fun h => h.elim
      have hg₂ := (hends.of_eq_ok h).1
      refine hg₂.external t ?_
      obtain rfl := Except.ok.inj ho
      exact Pending.by_notify ht
    · exact ih h hl₁ hd (hnow ▸ ht)

/-! ## Asynchronous events -/

/-- gem5 time has caught up, and what has been scheduled since is not in the past. -/
structure Caught (m m' : Module) : Prop extends Grows m m' where
  caught : m'.curTick = m.now
  since : ∀ x ∈ m'.queue, x ∈ m.queue ∨ m.now ≤ x.tick

theorem Caught.now_eq (h : Caught m m') : m'.now = m.now := h.frame.now_eq

theorem Caught.grows (h : Caught m m') (hg : Grows m' m'') : Caught m m'' := by
  have hle : m''.curTick ≤ m'.now := hg.lag (by rw [h.caught, h.now_eq])
  refine ⟨h.toGrows.trans hg, ?_, fun x hx => ?_⟩
  · exact le_antisymm (h.now_eq ▸ hle) (h.caught ▸ hg.curTick)
  · obtain hx | hx := hg.queue x hx
    · exact h.since x hx
    · exact .inr (h.caught ▸ hx)

theorem Caught.future (h : Caught m m') (hf : m.Future) : m'.Future := fun e he => by
  rw [h.now_eq]
  obtain he | he := h.since e he
  · exact hf e he
  · exact he

theorem Grows.withAsync (m : Module) (a : Async) : Grows m { m with async := a } :=
  ⟨⟨_, _, _, _, rfl⟩, fun _ => id, fun _ => .inl, le_rfl, id, id⟩

theorem scheduleNew_ends (m : Module) (e : GemEvent) :
    Ends (fun m' => Grows m m' ∧ m.curTick ≤ e.tick ∧ ∀ x ∈ m'.queue, x = e ∨ x ∈ m.queue)
      (fun f => P → ¬ OutOfTime f) (m.scheduleNew e) :=
  .check (fun _ _ => by simp [OutOfTime]) fun _ =>
    (schedule_ends m e).mono (fun _ _ => id) fun _ _ h _ => h

/-- `serviceAsyncEvent` catches up first. -/
theorem serviceAsyncEvent_ends (hl : m.curTick ≤ m.now) (hf : P → m.Future) (o : AsyncAnswers) :
    Ends (Caught m) (fun f => P → ¬ OutOfTime f) (m.serviceAsyncEvent o) := by
  refine .check (fun _ _ => by simp [OutOfTime]) fun _ => ?_
  refine Ends.bind (G := Caught m) ?_ fun m₁ _ h₁ => ?_
  · refine (catchup_ends hl hf).mono (fun m₁ _ h => ?_) fun _ _ => id
    subst h
    exact ⟨grows_catchup hl, rfl, fun _ => .inl⟩
  have h₁ := h₁.grows (.withAsync m₁ { m₁.async with event := false })
  refine Ends.bind (G := Caught m) ?_ fun m₂ _ h₂ => ?_
  · unfold asyncStat
    split_ifs
    · exact (scheduleNew_ends _ _).bind fun m₂ _ hg => (h₁.grows hg.1).grows (.withAsync m₂ _)
    · exact h₁
  refine Ends.bind (G := Caught m) ?_ fun m₃ _ h₃ => ?_
  · unfold asyncExit
    split_ifs
    · exact (scheduleNew_ends _ _).mono (fun m₃ _ hg => (h₂.grows (.withAsync m₂ _)).grows hg.1)
        fun _ _ => id
    · exact h₂
  refine Ends.bind (G := Caught m) ?_ fun m₄ _ h₄ => ?_
  · unfold asyncIo
    split_ifs
    · have h₃ := h₃.grows (.withAsync m₃ { m₃.async with io := false })
      refine (ops_ends (P := P) ?_ (fun hP => h₃.future (hf hP)) ?_).mono
        (fun m₄ _ h => h₃.grows h.1) fun _ _ => id
      · rw [h₃.caught, h₃.now_eq]
      · intro _ e _ hc
        rw [h₃.now_eq]
        exact h₃.caught ▸ hc
    · exact h₃
  exact .check (fun _ _ => by simp [OutOfTime, mustLag, missedEvent]) fun _ => h₄

/-! ## The invariant -/

/-- The ticks of the events that were serviced. -/
def ticks (l : List Obs) : List ℕ := l.filterMap fun
  | .serviced e _ _ => some e.tick
  | _ => none

/-- A process of the module runs before time passes. -/
def Active (m : Module) : Prop := m.quiet = false ∨ m.eventLoopExitEvent = .delta

/-- The module is woken up at `t` at the latest. -/
def Wakes (m : Module) (t : ℕ) : Prop :=
  m.eventLoopEnterEvent.By t ∨ m.externalSchedulingEvent.By t

/-- gem5 time lags, and every event was serviced in time. -/
structure InOrder (m : Module) : Prop where
  lag : m.curTick ≤ m.now
  sorted : Sorted m.queue
  serviced : ∀ e t c, .serviced e t c ∈ m.trace → e.tick = t ∧ c = t ∧ t ≤ m.now
  ordered : (ticks m.trace).Pairwise (· ≥ ·)
  looping : m.looping = true → m.inSimulate = true

/-- Inside `simulate` nothing queued is in the past, and there is a wake-up for all of it. -/
structure InTime (m : Module) : Prop extends InOrder m where
  future : m.inSimulate = true → m.Future
  awake : m.inSimulate = true → m.Active ∨ ∀ e ∈ m.queue, m.Wakes e.tick

theorem InOrder.grows (h : InOrder m) (hg : Grows m m') : InOrder m' := by
  have hlag := hg.lag h.lag
  have hs := hg.sorted h.sorted
  obtain ⟨_, _, _, _, rfl⟩ := hg.frame
  exact ⟨hlag, hs, h.serviced, h.ordered, h.looping⟩

/-- An event is serviced when its time has come. -/
theorem InOrder.serviced_cons {e : GemEvent} {q : List GemEvent} (h : InOrder m)
    (hq : m.queue = e :: q) (hc : m.curTick = m.now) (he : e.tick = m.now) :
    InOrder ({ m with queue := m.queue.tail, curTick := e.tick }.emit
      (.serviced e m.now m.curTick)) := by
  have hs := h.sorted
  rw [hq] at hs
  refine ⟨he.le, ?_, fun x t c hx => ?_, ?_, h.looping⟩
  · show Sorted m.queue.tail
    rw [hq]
    exact (List.pairwise_cons.1 hs).2
  · obtain hx | hx := List.mem_cons.1 hx
    · obtain ⟨rfl, rfl, rfl⟩ := Obs.serviced.inj hx
      exact ⟨he, hc, le_rfl⟩
    · exact h.serviced x t c hx
  · refine List.pairwise_cons.2 ⟨fun t ht => ?_, h.ordered⟩
    obtain ⟨o, ho, hto⟩ := List.mem_filterMap.1 ht
    rcases o with _ | ⟨x, t', c⟩ | _ <;> cases hto
    obtain ⟨hx, -, hle⟩ := h.serviced x t' c ho
    exact he ▸ hx ▸ hle

/-! ## The processes of the module -/

theorem serviceAsync_ends (hl : m.curTick ≤ m.now) (hf : P → m.Future) (o : AsyncAnswers) :
    Ends (fun m' => Grows m m' ∧ (m.Future → m'.Future)) (fun f => P → ¬ OutOfTime f)
      (m.serviceAsync o) := by
  unfold serviceAsync
  split_ifs
  · exact (serviceAsyncEvent_ends hl hf o).mono (fun _ _ h => ⟨h.toGrows, h.future⟩) fun _ _ => id
  · exact ⟨.refl m, id⟩

/-- The fatals on gem5 time are excluded inside `simulate`. -/
def Reports (m : Module) (f : Fault) : Prop := m.inSimulate = true → ¬ OutOfTime f

theorem eventLoop_ends (h : InOrder m) (hf : m.inSimulate = true → m.Future) (o : AsyncAnswers) :
    Ends InTime (Reports m) (m.eventLoop o) := by
  refine .check (fun _ _ => by simp [OutOfTime, mustLag, missedEvent]) fun hsim => ?_
  refine (serviceAsync_ends h.lag hf o).bind fun m₁ _ ⟨hg, hf₁⟩ => ?_
  have h₁ := h.grows hg
  have hsim₁ : m₁.inSimulate = true := by
    obtain ⟨_, _, _, _, rfl⟩ := hg.frame
    exact hsim
  exact ⟨⟨h₁.lag, h₁.sorted, h₁.serviced, h₁.ordered, fun _ => hsim₁⟩, fun _ => hf₁ (hf hsim),
    fun _ => .inl (.inl rfl)⟩

theorem serviceExternalEvent_ends (h : InOrder m) (hf : m.inSimulate = true → m.Future)
    (o : AsyncAnswers) : Ends InTime (Reports m) (m.serviceExternalEvent o) := by
  refine (serviceAsync_ends h.lag hf o).bind fun m₁ _ ⟨hg, hf₁⟩ => ?_
  have h₁ := h.grows hg
  have hsim₁ : m₁.inSimulate = m.inSimulate := by
    obtain ⟨_, _, _, _, rfl⟩ := hg.frame
    rfl
  have hf₁ : m₁.inSimulate = true → m₁.Future := fun hsim => hf₁ (hf (hsim₁ ▸ hsim))
  split_ifs with hc
  · refine (eventLoop_ends h₁ hf₁ o).mono (fun _ _ => id) fun _ _ hr hsim => hr (hsim₁ ▸ hsim)
  · refine ⟨h₁, hf₁, fun hsim => .inr fun e he => ?_⟩
    exact absurd ⟨hsim, List.ne_nil_of_mem he⟩ hc

/-- An event of the current time is serviced; what it schedules is not in the past. -/
theorem serviceOne_ends {e : GemEvent} {q : List GemEvent} (h : InOrder m) (hf : m.Future)
    (hq : m.queue = e :: q) (hc : m.curTick = m.now) (he : e.tick = m.now) (os : List QueueOp) :
    Ends (fun m' => InOrder m' ∧ m'.Future ∧ m'.looping = m.looping) (fun f => P → ¬ OutOfTime f)
      (m.serviceOne e os) := by
  have h₁ := h.serviced_cons hq hc he
  have hf₁ : ∀ x ∈ m.queue.tail, m.now ≤ x.tick := fun x hx => hf x (List.mem_of_mem_tail hx)
  refine (ops_ends h₁.lag (fun _ => hf₁) fun _ x _ hx => he ▸ hx).mono (fun m' _ ⟨hg, _⟩ => ?_)
    fun _ _ => id
  refine ⟨h₁.grows hg, fun x hx => ?_, ?_⟩
  · rw [hg.frame.now_eq]
    show m.now ≤ x.tick
    obtain hx | hx := hg.queue x hx
    · exact hf₁ x hx
    · exact he ▸ hx
  · obtain ⟨_, _, _, _, rfl⟩ := hg.frame
    rfl

/-- A turn of the loop waits for the first event, or services it when gem5 time has come to its
tick. -/
theorem turn_ends (h : InTime m) (hloop : m.looping = true) (os : List QueueOp) :
    Ends InTime (Reports m) (m.turn os) := by
  have hsim := h.looping hloop
  unfold turn
  split
  · exact fun _ => by simp [OutOfTime, mustLag, missedEvent]
  rename_i e q hq
  refine (catchup_ends h.lag h.future).bind fun m₁ _ h₁ => ?_
  subst h₁
  have hfut : m.now ≤ e.tick := h.future hsim e (by simp [hq])
  have hs := h.sorted
  dsimp only
  -- the branches differ from here only in `wait_exit_time`
  generalize hm₂ : (if m.waitExitTime > m.now then
    ({ m with curTick := m.now, waitExitTime := m.now } : Module)
    else { m with curTick := m.now }) = m₂
  obtain ⟨w, rfl⟩ : ∃ w, m₂ = { m with curTick := m.now, waitExitTime := w } := by
    subst hm₂
    split_ifs <;> exact ⟨_, rfl⟩
  have h₂ : InOrder { m with curTick := m.now, waitExitTime := w } :=
    ⟨le_rfl, hs, h.serviced, h.ordered, h.looping⟩
  have hone := fun he => serviceOne_ends (P := m.inSimulate = true) h₂ (h.future hsim) hq rfl he os
  dsimp only
  split_ifs with hlt hgt
  · refine ⟨⟨le_rfl, hs, h.serviced, h.ordered, fun hl => (nomatch hl)⟩, fun _ => h.future hsim,
      fun _ => .inr fun x hx => .inl (Pending.by_notify ?_)⟩
    have := (hq ▸ hs).head_le (hq ▸ hx)
    omega
  · omega
  · refine (hone (le_antisymm (not_lt.1 hlt) hfut)).bind fun m₃ _ ⟨h₃, hf₃, hl₃⟩ => ?_
    exact ⟨⟨h₃.lag, h₃.sorted, h₃.serviced, h₃.ordered, fun hl => (nomatch hl)⟩, fun _ => hf₃,
      fun _ => .inl (.inr rfl)⟩
  · refine (hone (le_antisymm (not_lt.1 hlt) hfut)).bind fun m₃ _ ⟨h₃, hf₃, hl₃⟩ => ?_
    refine ⟨⟨h₃.lag, h₃.sorted, h₃.serviced, h₃.ordered, h₃.looping⟩, fun _ => hf₃,
      fun _ => .inl (.inl ?_)⟩
    simp [quiet, hl₃, hloop]

/-- The rest of `simulate`. -/
theorem resume_ends (h : InOrder m) (hloop : m.looping = false) :
    Ends InTime (Reports m) m.resume := by
  have h₁ : InOrder { m with
      eventLoopEnterEvent := .none, inSimulate := false, simulateReady := false } :=
    ⟨h.lag, h.sorted, h.serviced, h.ordered, fun hl => absurd (hloop.symm.trans hl) (by simp)⟩
  have hret : ∀ {m' : Module} {e}, InOrder m' → m'.inSimulate = false →
      InTime (m'.emit (.returned e)) := fun {m' e} h hsim => by
    refine ⟨⟨h.lag, h.sorted, fun x t c hx => h.serviced x t c ?_, h.ordered, h.looping⟩,
      fun hs => absurd (hsim.symm.trans hs) (by simp),
      fun hs => absurd (hsim.symm.trans hs) (by simp)⟩
    simpa [emit] using hx
  unfold resume
  dsimp only
  split
  · exact fun _ => by simp [OutOfTime]
  refine .check (fun _ _ => by simp [OutOfTime]) fun _ => .check (fun _ _ => by simp [OutOfTime])
    fun _ => ?_
  split_ifs
  · refine ((deschedule_ends _ _).mono (fun _ _ => id) fun _ _ h (_ : m.inSimulate = true) =>
      h).bind fun m₁ _ ⟨hg, _⟩ => hret (h₁.grows hg) ?_
    obtain ⟨_, _, _, _, rfl⟩ := hg.frame
    rfl
  · exact hret h₁ rfl

/-! ## Runs -/

/-- The events that operations schedule, and the delays with which they notify the module. -/
def scheduled (os : List QueueOp) : List GemEvent := os.filterMap fun
  | .schedule e => some e
  | _ => none

def notified (os : List QueueOp) : List ℕ := os.filterMap fun
  | .notify d => some d
  | _ => none

theorem mem_scheduled {e : GemEvent} : e ∈ scheduled os ↔ .schedule e ∈ os := by
  refine List.mem_filterMap.trans ⟨?_, fun h => ⟨_, h, rfl⟩⟩
  rintro ⟨o, ho, he⟩
  cases o <;> cases he
  exact ho

theorem mem_notified {d : ℕ} : d ∈ notified os ↔ .notify d ∈ os := by
  refine List.mem_filterMap.trans ⟨?_, fun h => ⟨_, h, rfl⟩⟩
  rintro ⟨o, ho, hd⟩
  cases o <;> cases hd
  exact ho

/-- The events that other processes schedule inside `simulate` are not in the past and come with a
notification in the same evaluation, and `simulate` starts with no event in the past, its
limit event included. -/
def Timely (m : Module) : Act → Prop
  | .process os => m.inSimulate = true → ∀ e ∈ scheduled os,
      m.now ≤ e.tick ∧ ∃ d ∈ notified os, m.now + d ≤ e.tick
  | .simulate numCycles _ => (∀ e ∈ m.queue, m.now ≤ e.tick) ∧ m.now ≤ m.limitTick numCycles
  | _ => True

instance (m : Module) : (a : Act) → Decidable (Timely m a)
  | .process os => inferInstanceAs (Decidable (m.inSimulate = true → ∀ e ∈ scheduled os,
      m.now ≤ e.tick ∧ ∃ d ∈ notified os, m.now + d ≤ e.tick))
  | .simulate numCycles _ => inferInstanceAs (Decidable ((∀ e ∈ m.queue, m.now ≤ e.tick) ∧
      m.now ≤ m.limitTick numCycles))
  | .eventLoop _ | .serviceExternalEvent _ | .resume | .turn _ | .signal _ | .delta
  | .advance _ => .isTrue trivial

theorem simulate_ends (h : InOrder m) {numCycles limit : ℕ}
    (ht : Timely m (.simulate numCycles limit)) :
    Ends InTime (Reports m) (m.simulate numCycles limit) := by
  refine .check (fun _ _ => by simp [OutOfTime]) fun _ => ?_
  refine (scheduleNew_ends _ _).bind fun m₁ _ ⟨hg, _, hq⟩ => ?_
  have h₁ := h.grows hg
  have hnow := hg.frame.now_eq
  refine ⟨⟨h₁.lag, h₁.sorted, fun x t c hx => h₁.serviced x t c ?_, h₁.ordered, fun _ => rfl⟩,
    fun _ e he => ?_, fun _ => .inr fun e he => .inl ?_⟩
  · simpa [emit] using hx
  · show m₁.now ≤ e.tick
    rw [hnow]
    obtain rfl | he := hq e he
    · exact ht.2
    · exact ht.1 e he
  · trivial

theorem process_ends (h : InTime m) {os : List QueueOp} (ht : Timely m (.process os)) :
    Ends InTime (Reports m) (m.ops os) := by
  have ht' : m.inSimulate = true → ∀ e, .schedule e ∈ os →
      m.now ≤ e.tick ∧ ∃ d, .notify d ∈ os ∧ m.now + d ≤ e.tick := fun hsim e he => by
    obtain ⟨hle, d, hd, hdt⟩ := ht hsim e (mem_scheduled.2 he)
    exact ⟨hle, d, mem_notified.1 hd, hdt⟩
  have hs : m.inSimulate = true → ∀ e, .schedule e ∈ os → m.curTick ≤ e.tick → m.now ≤ e.tick :=
    fun hsim e he _ => (ht' hsim e he).1
  have hends : Ends _ _ (m.ops os) := ops_ends h.lag h.future hs
  cases hm : m.ops os with
  | error f => exact hends.of_eq_error hm
  | ok m' =>
    obtain ⟨hg, hq⟩ := hends.of_eq_ok hm
    have hby := fun d t hd => by_of_notify (d := d) (t := t) hm h.lag hd
    have h₁ := h.toInOrder.grows hg
    have hext := hg.external
    obtain ⟨ext, _, _, _, rfl⟩ := hg.frame
    refine ⟨h₁, fun hsim e he => ?_, fun hsim => ?_⟩
    · obtain he | ⟨he, -⟩ := hq e he
      · exact h.future hsim e he
      · exact (ht' hsim e he).1
    · refine (h.awake hsim).imp id fun hw e he => ?_
      obtain he | ⟨he, -⟩ := hq e he
      · exact (hw e he).imp id (hext _)
      · obtain ⟨-, d, hd, hle⟩ := ht' hsim e he
        exact .inr (hby d _ hd hle)

/-- The kernel triggers what is notified. -/
theorem delta_ends (h : InTime m) : Ends InTime (Reports m) (m.step .delta) := by
  refine .check (fun _ _ => by simp [OutOfTime]) fun hq => ?_
  refine ⟨⟨h.lag, h.sorted, h.serviced, h.ordered, h.looping⟩, h.future, fun hsim => ?_⟩
  have hsim : m.inSimulate = true := hsim
  obtain (ha | ha) | hw := h.awake hsim
  · exact absurd (hq.symm.trans ha) (by simp)
  · refine .inl (.inl ?_)
    simp [quiet, trigger, ha, hsim]
  by_cases he : m.eventLoopEnterEvent = .delta
  · refine .inl (.inl ?_)
    simp [quiet, trigger, he]
  by_cases hx : m.externalSchedulingEvent = .delta
  · refine .inl (.inl ?_)
    simp [quiet, trigger, hx]
  exact .inr fun e hmem => (hw e hmem).imp (fun h => h.afterDelta.resolve_left he)
    fun h => h.afterDelta.resolve_left hx

/-- Time passes to the next notification at most. -/
theorem advance_ends (h : InTime m) (d : ℕ) : Ends InTime (Reports m) (m.step (.advance d)) := by
  refine .check (fun _ _ => by simp [OutOfTime]) fun hq => .check (fun _ _ => by simp [OutOfTime])
    fun ⟨_, _, hle, hlx, hlt⟩ => ?_
  have hw : m.inSimulate = true → ∀ e ∈ m.queue, m.Wakes e.tick := fun hsim => by
    obtain (ha | ha) | hw := h.awake hsim
    · exact absurd (hq.symm.trans ha) (by simp)
    · rw [ha] at hlt
      exact hlt.elim
    · exact hw
  have hlag : m.curTick ≤ m.now + d := h.lag.trans (Nat.le_add_right ..)
  have hserv : ∀ e t c, .serviced e t c ∈ m.trace → e.tick = t ∧ c = t ∧ t ≤ m.now + d :=
    fun e t c hx => ⟨(h.serviced e t c hx).1, (h.serviced e t c hx).2.1,
      (h.serviced e t c hx).2.2.trans (Nat.le_add_right ..)⟩
  refine ⟨⟨hlag, h.sorted, hserv, h.ordered, h.looping⟩, fun hsim e he => ?_, fun hsim => ?_⟩
  · exact (hw hsim e he).elim (fun h => h.le hle) fun h => h.le hlx
  by_cases he : m.eventLoopEnterEvent = .timed (m.now + d)
  · refine .inl (.inl ?_)
    simp [quiet, trigger, he]
  by_cases hx : m.externalSchedulingEvent = .timed (m.now + d)
  · refine .inl (.inl ?_)
    simp [quiet, trigger, hx]
  exact .inr fun e hmem => (hw hsim e hmem).imp (fun h => h.advance.resolve_left he)
    fun h => h.advance.resolve_left hx

theorem step_ends (h : InTime m) {a : Act} (ht : Timely m a) :
    Ends InTime (Reports m) (m.step a) := by
  cases a with
  | eventLoop o =>
    refine .check (fun _ _ => by simp [OutOfTime]) fun _ => ?_
    exact eventLoop_ends (m := { m with eventLoopReady := false })
      ⟨h.lag, h.sorted, h.serviced, h.ordered, h.looping⟩ h.future o
  | serviceExternalEvent o =>
    refine .check (fun _ _ => by simp [OutOfTime]) fun _ => ?_
    exact serviceExternalEvent_ends (m := { m with externalReady := false })
      ⟨h.lag, h.sorted, h.serviced, h.ordered, h.looping⟩ h.future o
  | resume =>
    exact .check (fun _ _ => by simp [OutOfTime]) fun hr => resume_ends h.toInOrder hr.2
  | turn os => exact .check (fun _ _ => by simp [OutOfTime]) fun hl => turn_ends h hl os
  | simulate numCycles limit =>
    exact .check (fun _ _ => by simp [OutOfTime]) fun _ => simulate_ends h.toInOrder ht
  | process os => exact .check (fun _ _ => by simp [OutOfTime]) fun _ => process_ends h ht
  | signal a =>
    exact ⟨⟨h.lag, h.sorted, h.serviced, h.ordered, h.looping⟩, h.future, h.awake⟩
  | delta => exact delta_ends h
  | advance d => exact advance_ends h d

/-- gem5 time is locked to SystemC time: events are serviced at their tick, in order, and the fatals
on gem5 time cannot be reached inside `simulate`. -/
structure LockStep (ok : Module → Act → Prop) (m : Module) : Prop where
  lag : m.curTick ≤ m.now
  serviced : ∀ e now curTick, .serviced e now curTick ∈ m.trace → curTick = now ∧ e.tick = now
  ordered : (ticks m.trace).Pairwise (· ≥ ·)
  fatals : m.inSimulate = true → ∀ a f, ok m a → m.fault a = some f → ¬ OutOfTime f

/-- An event at tick 4, which wakes up early for an event that another process schedules at tick 2
and for one that it deschedules, and the limit event at tick 6. -/
def lockedRun : List Act :=
  [.process [.schedule ⟨1, 4, 0, .ordinary⟩], .simulate 6 0, .delta, .eventLoop {}, .turn [],
    .advance 1,
    .process [.schedule ⟨2, 2, 0, .ordinary⟩, .schedule ⟨3, 3, 0, .ordinary⟩, .notify 0],
    .delta, .serviceExternalEvent {}, .turn [], .process [.deschedule 3], .advance 1, .eventLoop {},
    .turn [.schedule ⟨4, 4, 0, .ordinary⟩], .turn [], .advance 2, .eventLoop {}, .turn [], .turn [],
    .turn [], .advance 2, .eventLoop {}, .turn [], .delta, .resume]

end Module

end Gem5Wrapper
