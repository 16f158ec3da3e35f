import Gem5Wrapper.LockStep
import Gem5Wrapper.ExitEvents

/-!
# One call of `simulate`

`simulate` queues a limit event and takes it out again if another exit event comes first. Nobody
else has the address of this event. So it is queued as long as it is not the exit event
(`Limited`), and SystemC time does not pass it. The exit event is signalled in the next delta cycle,
and the thread of `simulate` runs before time passes.
-/

namespace Gem5Wrapper

open FaultMachine Notification

/-- The events at address `i`. -/
def named (i : ℕ) (q : List GemEvent) : List GemEvent := q.filter (·.id = i)

/-- The operation leaves the event at `i` alone. -/
def QueueOp.Spares (i : ℕ) : QueueOp → Prop
  | .schedule e => e.id ≠ i
  | .deschedule j => j ≠ i
  | .notify _ | .catchup => True

instance (i : ℕ) : (o : QueueOp) → Decidable (o.Spares i)
  | .schedule e => inferInstanceAs (Decidable (e.id ≠ i))
  | .deschedule j => inferInstanceAs (Decidable (j ≠ i))
  | .notify _ | .catchup => .isTrue trivial

/-- So do the new events of `serviceAsyncEvent` and `pollQueue.service()`. -/
def AsyncAnswers.Spares (o : AsyncAnswers) (i : ℕ) : Prop :=
  o.statEvent ≠ i ∧ o.exitEvent ≠ i ∧ ∀ x ∈ o.poll, x.Spares i

instance (o : AsyncAnswers) (i : ℕ) : Decidable (o.Spares i) :=
  inferInstanceAs (Decidable (_ ∧ _ ∧ _))

variable {i : ℕ} {e lim : GemEvent} {q : List GemEvent}

theorem named_insert (h : e.id ≠ i) : named i (e.insert q) = named i q := by
  induction q with
  | nil => simp [named, GemEvent.insert, h]
  | cons x q ih =>
    unfold named at *
    unfold GemEvent.insert
    split_ifs
    · rw [List.filter_cons, List.filter_cons, ih]
    · rw [List.filter_cons_of_neg (by simpa using h)]

theorem named_insert_self (h : named e.id q = []) : named e.id (e.insert q) = [e] := by
  induction q with
  | nil => simp [named, GemEvent.insert]
  | cons x q ih =>
    have hx : x.id ≠ e.id := by
      simpa using List.filter_eq_nil_iff.1 h x List.mem_cons_self
    unfold named at *
    rw [List.filter_cons_of_neg (by simpa using hx)] at h
    unfold GemEvent.insert
    split_ifs
    · rw [List.filter_cons_of_neg (by simpa using hx), ih h]
    · rw [List.filter_cons_of_pos (by simp), List.filter_cons_of_neg (by simpa using hx), h]

theorem named_eraseP {j : ℕ} (h : j ≠ i) : named i (q.eraseP (·.id = j)) = named i q := by
  induction q with
  | nil => rfl
  | cons x q ih =>
    unfold named at *
    by_cases hx : x.id = j
    · rw [List.eraseP_cons_of_pos (by simpa using hx),
        List.filter_cons_of_neg (by simpa [hx] using h)]
    · rw [List.eraseP_cons_of_neg (by simpa using hx), List.filter_cons, List.filter_cons, ih]

/-- Without the limit event, what is left is the rest of the queue. -/
theorem eraseP_of_named (h : named i q = [lim]) :
    q.eraseP (·.id = i) = q.filter (·.id ≠ i) := by
  induction q with
  | nil => rfl
  | cons x q ih =>
    unfold named at *
    by_cases hx : x.id = i
    · rw [List.filter_cons_of_pos (by simpa using hx)] at h
      have hnil := (List.cons.inj h).2
      rw [List.eraseP_cons_of_pos (by simpa using hx), List.filter_cons_of_neg (by simpa using hx)]
      refine (List.filter_eq_self.2 fun y hy => ?_).symm
      simpa using List.filter_eq_nil_iff.1 hnil y hy
    · rw [List.filter_cons_of_neg (by simpa using hx)] at h
      rw [List.eraseP_cons_of_neg (by simpa using hx), List.filter_cons_of_pos (by simpa using hx),
        ih h]

theorem filter_of_named (h : named i q = []) : q.filter (·.id ≠ i) = q := by
  refine List.filter_eq_self.2 fun y hy => ?_
  simpa using List.filter_eq_nil_iff.1 h y hy

theorem mem_of_named (h : named i q = [lim]) : lim ∈ q ∧ lim.id = i := by
  have hmem : lim ∈ named i q := h ▸ List.mem_cons_self
  obtain ⟨hq, hi⟩ := List.mem_filter.1 hmem
  exact ⟨hq, of_decide_eq_true hi⟩

namespace Module

variable {m m' m₀ m₁ m₂ : Module} {os : List QueueOp} {o : AsyncAnswers}

/-! ## What others do to the limit event -/

theorem named_schedule (hi : e.id ≠ i) (h : m.schedule e = .ok m') :
    named i m'.queue = named i m.queue := by
  simp only [schedule, bind_eq_ok, pure_eq_ok, Except.ok.injEq] at h
  obtain ⟨-, -, -, -, rfl⟩ := h
  exact named_insert hi

theorem named_scheduleNew (hi : e.id ≠ i) (h : m.scheduleNew e = .ok m') :
    named i m'.queue = named i m.queue := by
  simp only [scheduleNew, bind_eq_ok] at h
  obtain ⟨-, -, h⟩ := h
  exact named_schedule hi h

theorem named_ops (hi : ∀ x ∈ os, x.Spares i) (h : m.ops os = .ok m') :
    named i m'.queue = named i m.queue := by
  induction os generalizing m with
  | nil =>
    cases h
    rfl
  | cons x os ih =>
    simp only [ops, bind_eq_ok] at h
    obtain ⟨m₁, hx, h⟩ := h
    rw [ih (fun y hy => hi y (List.mem_cons_of_mem _ hy)) h]
    have hi := hi x List.mem_cons_self
    cases x with
    | schedule e => exact named_schedule hi hx
    | deschedule j =>
      simp only [op, deschedule, bind_eq_ok, pure_eq_ok, Except.ok.injEq] at hx
      obtain ⟨-, -, rfl⟩ := hx
      exact named_eraseP hi
    | notify d =>
      cases hx
      rfl
    | catchup =>
      obtain rfl := catchup_eq hx
      rfl

theorem named_asyncStat (hi : o.statEvent ≠ i) (h : m.asyncStat o = .ok m') :
    named i m'.queue = named i m.queue := by
  unfold asyncStat at h
  split_ifs at h
  · obtain ⟨m₁, hs, h⟩ := bind_eq_ok.1 h
    cases h
    have hnamed := named_scheduleNew (i := i) hi hs
    exact hnamed
  · cases h
    rfl

theorem named_asyncExit (hi : o.exitEvent ≠ i) (h : m.asyncExit o = .ok m') :
    named i m'.queue = named i m.queue := by
  unfold asyncExit at h
  split_ifs at h
  · have hnamed := named_scheduleNew (i := i) hi h
    exact hnamed
  · cases h
    rfl

theorem named_asyncIo (hi : ∀ x ∈ o.poll, x.Spares i) (h : m.asyncIo o = .ok m') :
    named i m'.queue = named i m.queue := by
  unfold asyncIo at h
  split_ifs at h
  · have hnamed := named_ops hi h
    exact hnamed
  · cases h
    rfl

theorem named_serviceAsync (hi : o.Spares i) (h : m.serviceAsync o = .ok m') :
    named i m'.queue = named i m.queue := by
  unfold serviceAsync at h
  split_ifs at h
  · simp only [serviceAsyncEvent, bind_eq_ok, pure_eq_ok, Except.ok.injEq] at h
    obtain ⟨-, -, m₁, hc, m₂, hs, m₃, he, m₄, hio, -, -, rfl⟩ := h
    obtain rfl := catchup_eq hc
    rw [named_asyncIo hi.2.2 hio, named_asyncExit hi.2.1 he]
    have hnamed := named_asyncStat hi.1 hs
    exact hnamed
  · cases h
    rfl

/-- A turn of the loop waits, or takes out the first event, which is due. -/
theorem named_turn (hi : ∀ x ∈ os, x.Spares i) (h : m.turn os = .ok m') :
    ∃ e q, m.queue = e :: q ∧ (m.now < e.tick ∧ m'.queue = m.queue ∨
      e.tick = m.now ∧ named i m'.queue = named i q) := by
  obtain ⟨e, q, w, hq, ⟨hlt, rfl⟩ | ⟨he, m₁, hs, hm⟩⟩ := turn_cases h
  · exact ⟨e, q, hq, .inl ⟨hlt, rfl⟩⟩
  have htail : named i m₁.queue = named i m.queue.tail := named_ops hi hs
  rw [hq] at htail
  refine ⟨e, q, hq, .inr ⟨he, ?_⟩⟩
  obtain ⟨-, rfl⟩ | ⟨-, rfl⟩ := hm <;> exact htail

/-! ## The limit event -/

/-- Nobody but `simulate` has the address of its limit event, and it is not called again. -/
def Within (i : ℕ) (_ : Module) : Act → Prop
  | .turn os | .process os => ∀ x ∈ os, x.Spares i
  | .eventLoop o | .serviceExternalEvent o => o.Spares i
  | .simulate .. => False
  | .resume | .signal _ | .delta | .advance _ => True

instance (i : ℕ) (m : Module) : (a : Act) → Decidable (Within i m a)
  | .turn os | .process os => inferInstanceAs (Decidable (∀ x ∈ os, x.Spares i))
  | .eventLoop o | .serviceExternalEvent o => inferInstanceAs (Decidable (o.Spares i))
  | .simulate .. => .isFalse id
  | .resume | .signal _ | .delta | .advance _ => .isTrue trivial

/-- Inside `simulate` its limit event is queued, or it is the exit event. The exit event has just
been serviced, and is signalled to the thread of `simulate`. -/
structure Limited (lim : GemEvent) (m : Module) : Prop where
  queued : m.inSimulate = true → m.limitEvent = lim.id ∧
    (named lim.id m.queue = [lim] ∧ (∀ e, exitOf m.trace = some e → e.id ≠ lim.id) ∨
      named lim.id m.queue = [] ∧ exitOf m.trace = some lim)
  signalled : ∀ e, exitOf m.trace = some e → m.now = e.tick ∧
    (m.eventLoopExitEvent = .delta ∨ m.simulateReady = true)

theorem Limited.frame (h : Limited lim m) (hf : OpsFrame m m')
    (hq : named lim.id m'.queue = named lim.id m.queue) : Limited lim m' := by
  obtain ⟨_, _, _, _, rfl⟩ := hf
  exact ⟨fun hs => hq ▸ h.queued hs, h.signalled⟩

theorem Limited.eventLoop (h : Limited lim m) (ho : o.Spares lim.id) (hm : m.eventLoop o = .ok m') :
    Limited lim m' := by
  simp only [Module.eventLoop, bind_eq_ok, pure_eq_ok, Except.ok.injEq] at hm
  obtain ⟨-, -, m₁, ha, rfl⟩ := hm
  have h₁ := h.frame (serviceAsync_frame ha) (named_serviceAsync ho ha)
  exact ⟨h₁.queued, h₁.signalled⟩

theorem Limited.serviceExternalEvent (h : Limited lim m) (ho : o.Spares lim.id)
    (hm : m.serviceExternalEvent o = .ok m') : Limited lim m' := by
  simp only [Module.serviceExternalEvent, bind_eq_ok] at hm
  obtain ⟨m₁, ha, hm⟩ := hm
  have h₁ := h.frame (serviceAsync_frame ha) (named_serviceAsync ho ha)
  split_ifs at hm
  · exact h₁.eventLoop ho hm
  · cases hm
    exact h₁

/-- No exit event has been serviced when a turn of the loop finds an event that is due. -/
theorem Undisturbed.exitOf (hu : Undisturbed m (.turn os)) (hq : m.queue = e :: q)
    (he : e.tick = m.now) : Module.exitOf m.trace = none := by
  by_contra hne
  have hlt := hu hne e (by rw [hq]; rfl)
  omega

theorem Limited.turn (h : Limited lim m) (hlim : lim.isExitEvent = true) (hk : Keeps m)
    (hu : Undisturbed m (.turn os)) (ho : ∀ x ∈ os, x.Spares lim.id) (hl : m.looping = true)
    (hm : m.turn os = .ok m') : Limited lim m' := by
  obtain ⟨hlimit, hqueued⟩ := h.queued (hk.looping hl)
  obtain ⟨e', q', hq', hturn⟩ := named_turn ho hm
  obtain ⟨e, q, w, hq, hcases⟩ := turn_cases hm
  obtain ⟨rfl, rfl⟩ := List.cons.inj (hq'.symm.trans hq)
  rcases hcases with ⟨hlt, rfl⟩ | ⟨he, m₁, hs, hcases⟩
  · exact ⟨fun _ => ⟨hlimit, hqueued⟩, h.signalled⟩
  have hnone := hu.exitOf hq he
  have hqueue : named lim.id m'.queue = named lim.id q' := by
    rcases hturn with ⟨hlt, -⟩ | ⟨-, hqueue⟩
    · exact absurd he (Nat.ne_of_gt hlt)
    · exact hqueue
  -- the limit event is queued, and may be the one that is serviced
  obtain ⟨hnamed, -⟩ := hqueued.resolve_right fun hb => by rw [hnone] at hb; cases hb.2
  obtain ⟨_, _, _, _, rfl⟩ := serviceOne_frame hs
  have hserviced : named lim.id q' = [lim] ∧ e'.id ≠ lim.id ∨
      named lim.id q' = [] ∧ e' = lim := by
    rw [hq] at hnamed
    unfold named at hnamed ⊢
    by_cases hid : e'.id = lim.id
    · rw [List.filter_cons_of_pos (by simpa using hid)] at hnamed
      exact .inr ⟨(List.cons.inj hnamed).2, (List.cons.inj hnamed).1⟩
    · rw [List.filter_cons_of_neg (by simpa using hid)] at hnamed
      exact .inl ⟨hnamed, hid⟩
  rcases hcases with ⟨hexit, rfl⟩ | ⟨hexit, rfl⟩
  · have hexit : Module.exitOf (.serviced e' m.now m.now :: m.trace) = some e' := by
      simp [Module.exitOf, hnone, hexit]
    constructor
    · intro _
      refine ⟨hlimit, ?_⟩
      rcases hserviced with ⟨hn, hid⟩ | ⟨hn, rfl⟩
      · refine .inl ⟨hqueue.trans hn, fun x hx => ?_⟩
        obtain rfl := Option.some.inj (hexit.symm.trans hx)
        exact hid
      · exact .inr ⟨hqueue.trans hn, hexit⟩
    · intro x hx
      obtain rfl := Option.some.inj (hexit.symm.trans hx)
      exact ⟨he.symm, .inl rfl⟩
  · have hexit' : Module.exitOf (.serviced e' m.now m.now :: m.trace) = none := by
      simp [Module.exitOf, hnone, hexit]
    constructor
    · intro _
      refine ⟨hlimit, ?_⟩
      rcases hserviced with ⟨hn, -⟩ | ⟨-, rfl⟩
      · exact .inl ⟨hqueue.trans hn, fun x hx => absurd (hexit'.symm.trans hx) (by simp)⟩
      · exact absurd hlim (by rw [hexit]; simp)
    · intro x hx
      exact absurd (hexit'.symm.trans hx) (by simp)

/-- `simulate` returns. -/
theorem resume_returns (h : m.resume = .ok m') :
    m'.inSimulate = false ∧ ∃ e, m'.trace = .returned e :: m.trace := by
  obtain ⟨e, m₁, -, rfl, hf⟩ := resume_frame h
  obtain ⟨_, _, _, _, rfl⟩ := hf
  exact ⟨rfl, e, rfl⟩

/-- It returns the exit event and takes its limit event out of the queue. -/
theorem resume_eq (he : m.exitEvent = some e) (hk : e.kind = .simLoopExit)
    (hq : e.id ≠ m.limitEvent → ∃ x ∈ m.queue, x.id = m.limitEvent) :
    m.resume = .ok ({ m with
      eventLoopEnterEvent := .none
      inSimulate := false
      simulateReady := false
      queue := if e.id ≠ m.limitEvent then m.queue.eraseP (·.id = m.limitEvent)
        else m.queue }.emit (.returned e)) := by
  unfold resume
  dsimp only
  rw [he]
  dsimp only
  rw [check_pos (by rw [hk]; decide), ok_bind, check_pos hk, ok_bind]
  split_ifs with hid
  · rw [deschedule, check_pos (hq hid), ok_bind, pure_eq_ok, ok_bind, pure_eq_ok]
  · rw [pure_eq_ok]

/-- A notified exit event makes the thread of `simulate` runnable. -/
theorem Limited.trigger (h : Limited lim m) (hk : Keeps m) (hq : m.quiet = true) (p : Pending)
    (after : Pending → Pending) (hp : m.eventLoopExitEvent = .delta → p = .delta) :
    Limited lim (m.trigger p after) := by
  refine ⟨h.queued, fun e he => ⟨(h.signalled e he).1, .inr ?_⟩⟩
  rcases (h.signalled e he).2 with hd | hr
  · exact decide_eq_true ⟨hd.trans (hp hd).symm, (hk.exit e he).2⟩
  · simp [quiet, hr] at hq

theorem Limited.step {a : Act} (h : Limited lim m) (hlim : lim.isExitEvent = true) (hk : Keeps m)
    (hu : Undisturbed m a) (hw : Within lim.id m a) (hm : m.step a = .ok m') :
    Limited lim m' := by
  cases a with
  | eventLoop o =>
    simp only [Module.step, bind_eq_ok] at hm
    obtain ⟨-, -, hm⟩ := hm
    exact Limited.eventLoop (m := { m with eventLoopReady := false }) ⟨h.queued, h.signalled⟩ hw hm
  | serviceExternalEvent o =>
    simp only [Module.step, bind_eq_ok] at hm
    obtain ⟨-, -, hm⟩ := hm
    exact Limited.serviceExternalEvent (m := { m with externalReady := false })
      ⟨h.queued, h.signalled⟩ hw hm
  | resume =>
    simp only [Module.step, bind_eq_ok] at hm
    obtain ⟨-, -, hm⟩ := hm
    obtain ⟨hsim, e, htrace⟩ := resume_returns hm
    refine ⟨fun hs => absurd (hsim.symm.trans hs) (by simp), fun x hx => ?_⟩
    rw [htrace] at hx
    cases hx
  | turn os =>
    simp only [Module.step, bind_eq_ok, check_eq_ok] at hm
    obtain ⟨-, hl, hm⟩ := hm
    exact h.turn hlim hk hu hw hl hm
  | simulate numCycles limit => exact hw.elim
  | process os =>
    simp only [Module.step, bind_eq_ok] at hm
    obtain ⟨-, -, hm⟩ := hm
    exact h.frame (ops_frame hm) (named_ops hw hm)
  | signal a =>
    obtain rfl := Except.ok.inj hm
    exact ⟨h.queued, h.signalled⟩
  | delta =>
    simp only [Module.step, bind_eq_ok, check_eq_ok, pure_eq_ok, Except.ok.injEq] at hm
    obtain ⟨-, hq, rfl⟩ := hm
    exact h.trigger hk hq _ _ fun _ => rfl
  | advance d =>
    simp only [Module.step, bind_eq_ok, check_eq_ok, pure_eq_ok, Except.ok.injEq] at hm
    obtain ⟨-, hq, -, ⟨-, -, -, -, hallows⟩, rfl⟩ := hm
    have hdelta : m.eventLoopExitEvent ≠ .delta := fun hd => by
      rw [hd] at hallows
      exact hallows.elim
    have h₁ := h.trigger hk hq (.timed (m.now + d)) (Pending.after (m.now + d))
      fun hd => absurd hd hdelta
    refine ⟨h₁.queued, fun e he => ?_⟩
    -- the thread of `simulate` would run first
    rcases (h.signalled e he).2 with hd | hr
    · exact absurd hd hdelta
    · simp [quiet, hr] at hq

/-! ## Runs -/

/-- Other processes schedule in time, and nothing is serviced after the exit event. -/
def Orderly (m : Module) (a : Act) : Prop := Timely m a ∧ Undisturbed m a

instance (m : Module) (a : Act) : Decidable (Orderly m a) := inferInstanceAs (Decidable (_ ∧ _))

/-- What holds inside a call of `simulate` whose limit event is at `i`. -/
structure KeepsLimit (limit i : ℕ) (m : Module) : Prop where
  now_le : m.now ≤ limit
  /-- Before the exit event, the loop does not run out of events. -/
  queued : exitOf m.trace = none → ∃ e ∈ m.queue, e.id = i ∧ e.tick = limit
  /-- The thread runs at the tick of the exit event. It returns this event and leaves the queue
  without the limit event. -/
  returns : m.simulateReady = true → m.looping = false → ∃ e, exitOf m.trace = some e ∧
    e.tick = m.now ∧ (e.id = i → m.now = limit) ∧ (e.kind = .simLoopExit →
      ∃ m', m.step .resume = .ok m' ∧ m'.trace = .returned e :: m.trace ∧
        m'.queue = m.queue.filter (·.id ≠ i))

theorem Limited.keepsLimit (h : Limited lim m) (ht : InTime m) (hk : Keeps m)
    (hsim : m.inSimulate = true) : KeepsLimit lim.tick lim.id m := by
  obtain ⟨hlimit, hqueued⟩ := h.queued hsim
  refine ⟨?_, fun hnone => ?_, fun hready hloop => ?_⟩
  · rcases hqueued with ⟨hq, -⟩ | ⟨-, hexit⟩
    · exact ht.future hsim lim (mem_of_named hq).1
    · exact (h.signalled lim hexit).1.le
  · rcases hqueued with ⟨hq, -⟩ | ⟨-, hexit⟩
    · exact ⟨lim, (mem_of_named hq).1, rfl, rfl⟩
    · exact absurd (hnone.symm.trans hexit) (by simp)
  obtain ⟨e, he⟩ := Option.ne_none_iff_exists'.1 (hk.ready hready)
  refine ⟨e, he, (h.signalled e he).1.symm, fun hid => ?_, fun hkind => ?_⟩
  · rcases hqueued with ⟨-, hne⟩ | ⟨-, hexit⟩
    · exact absurd hid (hne e he)
    · obtain rfl := Option.some.inj (he.symm.trans hexit)
      exact (h.signalled e he).1
  have hresume := resume_eq (hk.exit e he).1 hkind ?_
  · refine ⟨_, bind_eq_ok.2 ⟨_, check_pos ⟨hready, hloop⟩, hresume⟩, rfl, ?_⟩
    show (if e.id ≠ m.limitEvent then m.queue.eraseP (·.id = m.limitEvent) else m.queue) = _
    rw [hlimit]
    rcases hqueued with ⟨hq, hne⟩ | ⟨hq, hexit⟩
    · rw [if_pos (hne e he)]
      exact eraseP_of_named hq
    · obtain rfl := Option.some.inj (he.symm.trans hexit)
      rw [if_neg (not_not.2 rfl)]
      exact (filter_of_named hq).symm
  · intro hid
    rw [hlimit] at hid ⊢
    rcases hqueued with ⟨hq, -⟩ | ⟨-, hexit⟩
    · exact ⟨lim, mem_of_named hq⟩
    · obtain rfl := Option.some.inj (he.symm.trans hexit)
      exact absurd rfl hid

theorem inTime_new (waitExitTime : ℕ) : InTime (new waitExitTime) :=
  ⟨⟨le_rfl, List.Pairwise.nil, by simp [new], by simp [new, ticks], by simp [new]⟩,
    by simp [new], by simp [new]⟩

theorem keeps_new (waitExitTime : ℕ) : Keeps (new waitExitTime) :=
  ⟨trivial, fun _ he => (by cases he), fun hp => absurd rfl hp, fun hr => (by cases hr),
    fun hl => (by cases hl)⟩

/-- `simulate` queues its limit event. -/
theorem Limited.simulate {n : ℕ} (hm : m.simulate n i = .ok m') :
    Limited ⟨i, m.limitTick n, simExitPri, .simLoopExit⟩ m' := by
  simp only [Module.simulate, scheduleNew, Module.schedule, bind_eq_ok, check_eq_ok, pure_eq_ok,
    Except.ok.injEq] at hm
  obtain ⟨-, -, m₁, ⟨-, hnew, -, -, -, -, rfl⟩, rfl⟩ := hm
  refine ⟨fun _ => ⟨rfl, .inl ⟨named_insert_self ?_, fun x hx => (by cases hx)⟩⟩,
    fun x hx => (by cases hx)⟩
  exact List.filter_eq_nil_iff.2 fun x hx => by simpa using hnew x hx

/-- Inside `simulate`, the event at tick 4 exits the loop. -/
def earlyExit : List Act :=
  [.delta, .eventLoop {}, .turn [], .advance 4, .eventLoop {}, .turn [], .delta]

/-- An exit event at tick 4, and an event at tick 12. -/
def twoQueued : Module :=
  { waitExitTime := 7, queue := [⟨1, 4, 0, .simLoopExit⟩, ⟨2, 12, 0, .ordinary⟩] }

end Module

end Gem5Wrapper
