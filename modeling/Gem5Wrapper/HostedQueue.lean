import Gem5Wrapper.Hosted
import Gem5Wrapper.Sessions

/-!
# The events of the port in the queue of a module

The queue of a module holds the events of the port among others, under their addresses (`Queued`).
What other code and the module do to the queue leaves those alone, and what the port schedules is
entered as if there were no others: so the loop services exactly the first of them.
-/

namespace Gem5Wrapper

open FaultMachine Notification
open Function (update)

/-! ## The port's events in the queue -/

section Queue

variable {e g : GemEvent} {q : List GemEvent} {f : GemEvent → Option PayloadEvent}
  {event : ℕ → Option PayloadEvent} {l : List PayloadEvent} {p : PayloadEvent} {id : ℕ}

theorem GemEvent.insert_perm (e : GemEvent) (q : List GemEvent) : (e.insert q).Perm (e :: q) := by
  induction q with
  | nil => exact .refl _
  | cons x q ih =>
    unfold GemEvent.insert
    split_ifs
    · exact (ih.cons x).trans (.swap e x q)
    · exact .refl _

theorem filterMap_insert_none (he : f e = none) : (e.insert q).filterMap f = q.filterMap f := by
  induction q with
  | nil => simp [GemEvent.insert, he]
  | cons x q ih =>
    unfold GemEvent.insert
    split_ifs
    · rw [List.filterMap_cons, List.filterMap_cons, ih]
    · rw [List.filterMap_cons, he]

theorem TimedQueue.insert_eq_cons {l : List PayloadEvent}
    (h : ∀ x ∈ l, p.tick ≤ x.tick) : TimedQueue.insert PayloadEvent.tick p l = p :: l := by
  cases l with
  | nil => rfl
  | cons x l => exact if_neg (Nat.not_lt.2 (h x (List.mem_cons_self ..)))

/-- An event of the port is entered among the events of the port as if there were no others. -/
theorem filterMap_insert_some (he : f e = some p) (htick : e.tick = p.tick) (hprio : e.priority = 0)
    (hq : ∀ x ∈ q, ∀ y ∈ f x, x.tick = y.tick ∧ x.priority = 0) (hs : Sorted q) :
    (e.insert q).filterMap f = TimedQueue.insert PayloadEvent.tick p (q.filterMap f) := by
  induction q with
  | nil => simp [GemEvent.insert, he, TimedQueue.insert]
  | cons x q ih =>
    have ih := ih (fun y hy => hq y (List.mem_cons_of_mem _ hy)) (List.pairwise_cons.1 hs).2
    have hx := hq x (List.mem_cons_self ..)
    unfold GemEvent.insert
    split_ifs with hb
    · rw [List.filterMap_cons, List.filterMap_cons, ih]
      cases hfx : f x with
      | none => rfl
      | some y =>
        obtain ⟨ht, hp⟩ := hx y hfx
        have hlt : y.tick < p.tick := by
          obtain hb | ⟨-, hb⟩ := hb
          · omega
          · omega
        exact (if_pos hlt).symm
    · -- the events behind are due later
      have hle := GemEvent.tick_le_of_not_before hb
      rw [List.filterMap_cons, he]
      refine (TimedQueue.insert_eq_cons fun y hy => ?_).symm
      obtain ⟨z, hz, hfz⟩ := List.mem_filterMap.1 hy
      have hxz := hs.head_le hz
      have hzy := (hq z hz y hfz).1
      omega

namespace Hosted

/-- The queue holds the events `l` of the port, in their order, under their addresses. -/
structure Queued (event : ℕ → Option PayloadEvent) (q : List GemEvent) (l : List PayloadEvent) :
    Prop where
  events : q.filterMap (fun g => event g.id) = l
  entry : ∀ g ∈ q, ∀ e ∈ event g.id, g = { id := g.id, tick := e.tick }
  addresses : (q.map GemEvent.id).Nodup
  scheduled : ∀ id e, event id = some e → ∃ g ∈ q, g.id = id

theorem Queued.tick (h : Queued event q l) (hg : g ∈ q) (he : event g.id = some p) :
    g.tick = p.tick := by
  rw [h.entry g hg p he]

theorem Queued.not_mem (h : Queued event q l) (hn : ∀ x ∈ q, x.id ≠ id) : event id = none := by
  cases he : event id with
  | none => rfl
  | some e =>
    obtain ⟨g, hg, hid⟩ := h.scheduled id e he
    exact absurd hid (hn g hg)

theorem addresses_insert (ha : (q.map GemEvent.id).Nodup) (hn : ∀ x ∈ q, x.id ≠ e.id) :
    ((e.insert q).map GemEvent.id).Nodup := by
  refine ((GemEvent.insert_perm e q).map _).nodup_iff.2 (List.nodup_cons.2 ⟨fun hm => ?_, ha⟩)
  obtain ⟨x, hx, hid⟩ := List.mem_map.1 hm
  exact hn x hx hid

/-- Another event is scheduled. -/
theorem Queued.schedule (h : Queued event q l) (hn : ∀ x ∈ q, x.id ≠ e.id) :
    Queued event (e.insert q) l where
  events := (filterMap_insert_none (f := fun g => event g.id) (h.not_mem hn)).trans h.events
  entry g hg p hp := by
    obtain rfl | hg := GemEvent.mem_insert.1 hg
    · exact absurd ((h.not_mem hn).symm.trans hp) (by simp)
    · exact h.entry g hg p hp
  addresses := addresses_insert h.addresses hn
  scheduled id p hp := by
    obtain ⟨g, hg, hid⟩ := h.scheduled id p hp
    exact ⟨g, GemEvent.mem_insert.2 (.inr hg), hid⟩

/-- An event of the port is scheduled. -/
theorem Queued.enter (h : Queued event q l) (hs : Sorted q) (hn : ∀ x ∈ q, x.id ≠ id) :
    Queued (update event id (some p)) (GemEvent.insert { id, tick := p.tick } q)
      (TimedQueue.insert PayloadEvent.tick p l) where
  events := by
    have hsame : q.filterMap (fun g => update event id (some p) g.id) = l := by
      rw [← h.events]
      exact List.filterMap_congr fun x hx => Function.update_of_ne (hn x hx) ..
    rw [← hsame]
    refine filterMap_insert_some (Function.update_self ..) rfl rfl (fun x hx y hy => ?_) hs
    rw [Option.mem_def, Function.update_of_ne (hn x hx)] at hy
    rw [h.entry x hx y hy]
    exact ⟨rfl, rfl⟩
  entry g hg y hy := by
    obtain rfl | hg := GemEvent.mem_insert.1 hg
    · rw [Option.mem_def, Function.update_self, Option.some.injEq] at hy
      rw [hy]
    · rw [Option.mem_def, Function.update_of_ne (hn g hg)] at hy
      exact h.entry g hg y hy
  addresses := addresses_insert h.addresses hn
  scheduled i y hy := by
    by_cases hi : i = id
    · exact ⟨_, GemEvent.mem_insert.2 (.inl rfl), hi.symm⟩
    · rw [Function.update_of_ne hi] at hy
      obtain ⟨g, hg, hid⟩ := h.scheduled i y hy
      exact ⟨g, GemEvent.mem_insert.2 (.inr hg), hid⟩

/-- Another event is descheduled. -/
theorem Queued.deschedule (h : Queued event q l) (hid : event id = none) :
    Queued event (q.eraseP (·.id = id)) l where
  events := by
    have herase : ∀ q : List GemEvent, (q.eraseP (·.id = id)).filterMap (fun g => event g.id) =
        q.filterMap fun g => event g.id := by
      intro q
      induction q with
      | nil => rfl
      | cons x q ih =>
        by_cases hx : x.id = id
        · rw [List.eraseP_cons_of_pos (by simpa using hx), List.filterMap_cons, hx, hid]
        · rw [List.eraseP_cons_of_neg (by simpa using hx), List.filterMap_cons, ih,
            List.filterMap_cons]
    exact (herase q).trans h.events
  entry g hg := h.entry g (List.mem_of_mem_eraseP hg)
  addresses := h.addresses.sublist (List.eraseP_sublist.map _)
  scheduled i y hy := by
    obtain ⟨g, hg, rfl⟩ := h.scheduled i y hy
    refine ⟨g, (List.mem_eraseP_of_neg ?_).2 hg, rfl⟩
    intro he
    rw [of_decide_eq_true he] at hy
    exact absurd (hid.symm.trans hy) (by simp)

/-- The first event leaves the queue, and the port's own its address. -/
theorem Queued.tail (h : Queued event (g :: q) l) :
    Queued (update event g.id none) q ((event g.id).elim l fun _ => l.tail) := by
  obtain ⟨hg, hq⟩ := List.nodup_cons.1 h.addresses
  have hne : ∀ x ∈ q, x.id ≠ g.id := fun x hx he => hg (he ▸ List.mem_map_of_mem hx)
  have hsame : ∀ x ∈ q, update event g.id none x.id = event x.id :=
    fun x hx => Function.update_of_ne (hne x hx) ..
  refine ⟨?_, fun x hx y hy => ?_, hq, fun i y hy => ?_⟩
  · rw [List.filterMap_congr hsame, ← h.events, List.filterMap_cons]
    cases event g.id <;> rfl
  · rw [hsame x hx] at hy
    exact h.entry x (List.mem_cons_of_mem _ hx) y hy
  · by_cases hi : i = g.id
    · rw [hi, Function.update_self] at hy
      cases hy
    · rw [Function.update_of_ne hi] at hy
      obtain ⟨x, hx, rfl⟩ := h.scheduled i y hy
      obtain rfl | hx := List.mem_cons.1 hx
      · exact absurd rfl hi
      · exact ⟨x, hx, rfl⟩

theorem Queued.tail_none (h : Queued event (g :: q) l) (hg : event g.id = none) :
    Queued event q l := by
  have h' := h.tail
  have hsame : update event g.id none = event := by rw [← hg, Function.update_eq_self]
  rw [hsame, hg] at h'
  exact h'

theorem Queued.tail_some (h : Queued event (g :: q) l) (hg : event g.id = some p) :
    l = p :: l.tail ∧ Queued (update event g.id none) q l.tail := by
  have h' := h.tail
  rw [hg] at h'
  refine ⟨?_, h'⟩
  rw [← h.events, List.filterMap_cons, hg]
  rfl

end Hosted

end Queue

/-! ## What the module does to them -/

namespace Module

variable {m m' : Module}

theorem eventLoop_now {o : AsyncAnswers} (hm : m.eventLoop o = .ok m') : m'.now = m.now := by
  obtain ⟨_, _, hm⟩ := bind_eq_ok.1 hm
  obtain ⟨m₁, hm₁, hm⟩ := bind_eq_ok.1 hm
  cases hm
  exact (serviceAsync_frame hm₁).now_eq

/-- **Only `advance` takes time.** -/
theorem step_now {a : Act} (hm : m.step a = .ok m') (ha : ∀ d, a ≠ .advance d) :
    m'.now = m.now := by
  cases a with
  | eventLoop o =>
    obtain ⟨_, _, hm⟩ := bind_eq_ok.1 hm
    exact (eventLoop_now hm :)
  | serviceExternalEvent o =>
    obtain ⟨_, _, hm⟩ := bind_eq_ok.1 hm
    obtain ⟨m₁, hm₁, hm⟩ := bind_eq_ok.1 hm
    have hnow : m₁.now = m.now := (serviceAsync_frame hm₁).now_eq
    split_ifs at hm
    · exact (eventLoop_now hm).trans hnow
    · cases hm
      exact hnow
  | resume =>
    obtain ⟨_, _, hm⟩ := bind_eq_ok.1 hm
    obtain ⟨e, m₁, -, rfl, hf⟩ := resume_frame hm
    exact (hf.now_eq :)
  | turn os =>
    obtain ⟨_, _, hm⟩ := bind_eq_ok.1 hm
    obtain ⟨e, q, w, _, ⟨_, rfl⟩ | ⟨_, m₁, hs, ⟨_, rfl⟩ | ⟨_, rfl⟩⟩⟩ := turn_cases hm
    · rfl
    · exact (serviceOne_frame hs).now_eq
    · exact (serviceOne_frame hs).now_eq
  | simulate numCycles limit =>
    obtain ⟨_, _, hm⟩ := bind_eq_ok.1 hm
    obtain ⟨_, _, hm⟩ := bind_eq_ok.1 hm
    obtain ⟨m₁, hm₁, hm⟩ := bind_eq_ok.1 hm
    cases hm
    exact ((scheduleNew_frame hm₁).now_eq :)
  | process os =>
    obtain ⟨_, _, hm⟩ := bind_eq_ok.1 hm
    exact (ops_frame hm).now_eq
  | signal b =>
    cases hm
    rfl
  | delta =>
    obtain ⟨_, _, hm⟩ := bind_eq_ok.1 hm
    cases hm
    rfl
  | advance d => exact absurd rfl (ha d)

end Module

namespace Hosted

section Module

variable {m m' : Module} {event : ℕ → Option PayloadEvent} {l : List PayloadEvent}
  {os : List QueueOp} {o : QueueOp} {e : GemEvent} {a : AsyncAnswers}

theorem queued_schedule (hm : m.schedule e = .ok m') (h : Queued event m.queue l) :
    Queued event m'.queue l := by
  simp only [Module.schedule, bind_eq_ok, check_eq_ok, pure_eq_ok, Except.ok.injEq] at hm
  obtain ⟨_, _, _, hn, rfl⟩ := hm
  exact h.schedule hn

theorem queued_scheduleNew (hm : m.scheduleNew e = .ok m') (h : Queued event m.queue l) :
    Queued event m'.queue l := by
  obtain ⟨_, _, hm⟩ := bind_eq_ok.1 hm
  exact queued_schedule hm h

theorem queued_deschedule {id : ℕ} (hm : m.deschedule id = .ok m') (hid : event id = none)
    (h : Queued event m.queue l) : Queued event m'.queue l := by
  obtain ⟨_, _, hm⟩ := bind_eq_ok.1 hm
  cases hm
  exact h.deschedule hid

theorem queued_op (hm : m.op o = .ok m') (hs : ∀ id, o = .deschedule id → event id = none)
    (h : Queued event m.queue l) : Queued event m'.queue l := by
  cases o with
  | schedule e => exact queued_schedule hm h
  | deschedule id => exact queued_deschedule hm (hs id rfl) h
  | notify d =>
    cases hm
    exact h
  | catchup =>
    obtain rfl := Module.catchup_eq hm
    exact h

theorem spares_iff : Spares event o ↔ ∀ id, o = .deschedule id → event id = none := by
  cases o with
  | deschedule id => exact ⟨fun h i hi => QueueOp.deschedule.inj hi ▸ h, fun h => h id rfl⟩
  | _ => exact ⟨fun _ i hi => (by cases hi), fun _ => trivial⟩

theorem spared_cons : Spared event (o :: os) ↔
    (∀ id, o = .deschedule id → event id = none) ∧ Spared event os := by
  rw [Spared, List.forall_mem_cons, spares_iff]
  rfl

theorem Spared.update {id : ℕ} (hs : Spared event os) : Spared (update event id none) os := by
  induction os with
  | nil => exact fun o ho => by cases ho
  | cons o os ih =>
    obtain ⟨ho, hos⟩ := spared_cons.1 hs
    refine spared_cons.2 ⟨fun i hi => ?_, ih hos⟩
    by_cases he : i = id
    · rw [he, Function.update_self]
    · rw [Function.update_of_ne he]
      exact ho i hi

/-- Other code leaves the events of the port in the queue. -/
theorem queued_ops (hm : m.ops os = .ok m') (hs : Spared event os)
    (h : Queued event m.queue l) : Queued event m'.queue l := by
  induction os generalizing m with
  | nil =>
    cases hm
    exact h
  | cons o os ih =>
    obtain ⟨ho, hos⟩ := spared_cons.1 hs
    obtain ⟨m₁, hm₁, hm⟩ := bind_eq_ok.1 hm
    exact ih hm hos (queued_op hm₁ ho h)

theorem queued_serviceAsync (hm : m.serviceAsync a = .ok m') (hs : Spared event a.poll)
    (h : Queued event m.queue l) : Queued event m'.queue l := by
  unfold Module.serviceAsync at hm
  split_ifs at hm
  · simp only [Module.serviceAsyncEvent, bind_eq_ok, pure_eq_ok, Except.ok.injEq] at hm
    obtain ⟨_, _, m₁, hc, m₂, hstat, m₃, hexit, m₄, hio, _, _, rfl⟩ := hm
    obtain rfl := Module.catchup_eq hc
    have h₂ : Queued event m₂.queue l := by
      unfold Module.asyncStat at hstat
      split_ifs at hstat
      · obtain ⟨m', hm', hstat⟩ := bind_eq_ok.1 hstat
        cases hstat
        exact (queued_scheduleNew hm' h :)
      · cases hstat
        exact h
    have h₃ : Queued event m₃.queue l := by
      unfold Module.asyncExit at hexit
      split_ifs at hexit
      · exact queued_scheduleNew hexit h₂
      · cases hexit
        exact h₂
    unfold Module.asyncIo at hio
    split_ifs at hio
    · exact queued_ops hio hs h₃
    · cases hio
      exact h₃
  · cases hm
    exact h

theorem queued_eventLoop (hm : m.eventLoop a = .ok m') (hs : Spared event a.poll)
    (h : Queued event m.queue l) : Queued event m'.queue l := by
  obtain ⟨_, _, hm⟩ := bind_eq_ok.1 hm
  obtain ⟨m₁, hm₁, hm⟩ := bind_eq_ok.1 hm
  cases hm
  exact (queued_serviceAsync hm₁ hs h :)

theorem queued_serviceExternalEvent (hm : m.serviceExternalEvent a = .ok m')
    (hs : Spared event a.poll) (h : Queued event m.queue l) : Queued event m'.queue l := by
  obtain ⟨m₁, hm₁, hm⟩ := bind_eq_ok.1 hm
  have h₁ := queued_serviceAsync hm₁ hs h
  split_ifs at hm
  · exact queued_eventLoop hm hs h₁
  · cases hm
    exact h₁

theorem queued_simulate {numCycles limit : ℕ} (hm : m.simulate numCycles limit = .ok m')
    (h : Queued event m.queue l) : Queued event m'.queue l := by
  obtain ⟨_, _, hm⟩ := bind_eq_ok.1 hm
  obtain ⟨m₁, hm₁, hm⟩ := bind_eq_ok.1 hm
  cases hm
  exact (queued_scheduleNew hm₁ h :)

theorem queued_resume (hm : m.resume = .ok m') (hlimit : event m.limitEvent = none)
    (h : Queued event m.queue l) : Queued event m'.queue l := by
  obtain ⟨e, m₁, -, rfl, rfl | hd⟩ := Module.resume_cases hm
  · exact h
  · exact (queued_deschedule hd hlimit h :)

/-- A turn of the loop services what is due, and nothing else. -/
theorem queued_turn (hm : m.turn os = .ok m') (hs : Spared event os)
    (h : Queued event m.queue l) :
    (due m = none ∧ Queued event m'.queue l) ∨ ∃ g, due m = some g ∧ g.tick = m.now ∧
      (event g.id = none → Queued event m'.queue l) ∧
      ∀ p, event g.id = some p → p.tick = m.now ∧
        l = p :: l.tail ∧ Queued (update event g.id none) m'.queue l.tail := by
  obtain ⟨g, q, w, hq, ⟨hlt, rfl⟩ | ⟨htick, m₁, hm₁, hm⟩⟩ := Module.turn_cases hm
  · exact .inl ⟨by simp [due, hq, hlt], h⟩
  have hqueue : m'.queue = m₁.queue := by
    obtain ⟨-, rfl⟩ | ⟨-, rfl⟩ := hm <;> rfl
  rw [hqueue]
  rw [hq] at h
  refine .inr ⟨g, by simp [due, hq, htick], htick, fun hg => ?_, fun p hp => ?_⟩
  · refine queued_ops hm₁ hs ?_
    show Queued event m.queue.tail l
    rw [hq]
    exact h.tail_none hg
  · obtain ⟨hl, h'⟩ := h.tail_some hp
    refine ⟨(h.tick (List.mem_cons_self ..) hp).symm.trans htick, hl,
      queued_ops hm₁ hs.update ?_⟩
    show Queued _ m.queue.tail _
    rw [hq]
    exact h'

/-- The port's own events are entered one after the other. -/
theorem queued_schedules {z : List (ℕ × PayloadEvent)} (hm : m.ops (schedules z) = .ok m')
    (hs : Sorted m.queue) (h : Queued event m.queue l) :
    Queued (enter event z) m'.queue
      (z.foldl (fun l p => TimedQueue.insert PayloadEvent.tick p.2 l) l) := by
  induction z generalizing m event l with
  | nil =>
    cases hm
    exact h
  | cons p z ih =>
    obtain ⟨id, e⟩ := p
    obtain ⟨m₁, hn, hm⟩ := bind_eq_ok.1 hm
    cases hn
    obtain ⟨m₂, hsched, hm⟩ := bind_eq_ok.1 hm
    obtain ⟨_, _, hsched⟩ := bind_eq_ok.1 hsched
    obtain ⟨_, hfree, hsched⟩ := bind_eq_ok.1 hsched
    cases hsched
    exact ih hm (hs.insert _) (h.enter hs (check_eq_ok.1 hfree))

theorem timely_schedules {z : List (ℕ × PayloadEvent)} (htick : ∀ p ∈ z, m.now ≤ p.2.tick) :
    m.Timely (.process (schedules z)) := by
  have hscheduled : ∀ e ∈ Module.scheduled (schedules z), ∃ p ∈ z, e.tick = p.2.tick := by
    intro e he
    induction z with
    | nil => cases he
    | cons p z ih =>
      obtain he | he := List.mem_cons.1 (he : e ∈ _ :: Module.scheduled (schedules z))
      · exact ⟨p, List.mem_cons_self .., by rw [he]⟩
      · obtain ⟨q, hq, ht⟩ := ih (fun q hq => htick q (List.mem_cons_of_mem _ hq)) he
        exact ⟨q, List.mem_cons_of_mem _ hq, ht⟩
  intro _ e he
  obtain ⟨p, hp, ht⟩ := hscheduled e he
  have hle : m.now ≤ e.tick := ht ▸ htick p hp
  refine ⟨hle, 0, ?_, hle⟩
  cases z with
  | nil => cases hp
  | cons q z => exact List.mem_cons_self ..

end Module

end Hosted

end Gem5Wrapper
