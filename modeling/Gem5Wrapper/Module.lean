import Mathlib.Algebra.Group.Nat.Defs
import Gem5Wrapper.Tlm
import Gem5Wrapper.Lib.FaultMachine
import Gem5Wrapper.Lib.Notification

/-!
# `Module`

`Module` runs the gem5 event queue inside SystemC: the methods `eventLoop` and
`serviceExternalEvent`, and `simulate`, which waits in a thread for the exit event.

A step is what runs without giving way: one of the processes of the module up to where it waits
or returns, except that the loop of `eventLoop` takes one step for each turn (`turn`); one
evaluation of another process; or the kernel, which goes on to the next delta cycle or to a later
time. The order in which the runnable processes run is open.

Everything that happens is recorded in `trace`, newest first. The code reads none of it.
-/

namespace Gem5Wrapper

open FaultMachine Notification

/-! ## The gem5 event queue -/

/-- What `isExitEvent()` and `globalEvent()` say of an event. -/
inductive EventKind
  | ordinary
  | localExit
  | simLoopExit
  | otherGlobalExit
  deriving DecidableEq, Repr

/-- A scheduled gem5 event. `id` stands for its address. -/
structure GemEvent where
  id : ℕ
  tick : ℕ
  priority : ℤ := 0
  kind : EventKind := .ordinary
  deriving DecidableEq, Repr

namespace GemEvent

def isExitEvent (e : GemEvent) : Bool := e.kind ≠ .ordinary

/-- Events are serviced by tick and priority; of two events with the same the one scheduled last
comes first. -/
def before (a b : GemEvent) : Prop := a.tick < b.tick ∨ a.tick = b.tick ∧ a.priority < b.priority

instance (a b : GemEvent) : Decidable (a.before b) := inferInstanceAs (Decidable (_ ∨ _))

/-- `EventQueue::insert`. -/
def insert (e : GemEvent) : List GemEvent → List GemEvent
  | [] => [e]
  | x :: q => if x.before e then x :: insert e q else e :: x :: q

end GemEvent

/-- `Stat_Event_Pri`, `Sim_Exit_Pri` and `MaxTick` of gem5. -/
def statEventPri : ℤ := 90
def simExitPri : ℤ := 100
def maxTick : ℕ := 2 ^ 64 - 1

/-- What code that gem5 or another process runs can do to the event queue and the module. -/
inductive QueueOp
  | schedule (e : GemEvent)
  | deschedule (id : ℕ)
  | notify (d : ℕ)
  | catchup
  deriving DecidableEq, Repr

/-- The globals `async_event`, `async_statdump` and so on. -/
structure Async where
  event : Bool := false
  statdump : Bool := false
  statreset : Bool := false
  exit : Bool := false
  io : Bool := false
  exception : Bool := false
  deriving DecidableEq, Repr

/-- A signal handler sets flags. -/
def Async.or (a b : Async) : Async where
  event := a.event || b.event
  statdump := a.statdump || b.statdump
  statreset := a.statreset || b.statreset
  exit := a.exit || b.exit
  io := a.io || b.io
  exception := a.exception || b.exception

/-- The new events of `serviceAsyncEvent`, and what `pollQueue.service()` does. -/
structure AsyncAnswers where
  statEvent : ℕ := 0
  exitEvent : ℕ := 0
  poll : List QueueOp := []
  deriving DecidableEq, Repr

/-! ## The module -/

namespace Module

/-- What happens in a module. -/
inductive Obs
  /-- `simulate` is entered. -/
  | entered
  /-- An event is serviced, at the SystemC time `now` and the gem5 time `curTick`. -/
  | serviced (e : GemEvent) (now curTick : ℕ)
  /-- `simulate` returns. -/
  | returned (e : GemEvent)
  deriving DecidableEq, Repr

end Module

/-- `Module`, with the SystemC time, the time and the queue of gem5, and the processes that are
runnable. -/
structure Module where
  externalSchedulingEvent : Pending := .none
  eventLoopExitEvent : Pending := .none
  eventLoopEnterEvent : Pending := .none
  waitExitTime : ℕ := 0
  inSimulate : Bool := false
  exitEvent : Option GemEvent := none
  /-- `limit_event` of `simulate`. -/
  limitEvent : ℕ := 0
  now : ℕ := 0
  curTick : ℕ := 0
  queue : List GemEvent := []
  async : Async := {}
  eventLoopReady : Bool := false
  externalReady : Bool := false
  simulateReady : Bool := false
  /-- A process is inside the loop of `eventLoop`. -/
  looping : Bool := false
  trace : List Module.Obs := []

namespace Module

def emit (m : Module) (o : Obs) : Module := { m with trace := o :: m.trace }

/-- `EventQueue::schedule`. -/
def schedule (m : Module) (e : GemEvent) : Except Fault Module := do
  check (m.curTick ≤ e.tick) (.assert "EventQueue::schedule" "when >= getCurTick()")
  check (∀ x ∈ m.queue, x.id ≠ e.id) (.assert "EventQueue::schedule" "!event->scheduled()")
  pure { m with queue := e.insert m.queue }

/-- `EventQueue::deschedule`. -/
def deschedule (m : Module) (id : ℕ) : Except Fault Module := do
  check (∃ x ∈ m.queue, x.id = id) (.assert "EventQueue::deschedule" "event->scheduled()")
  pure { m with queue := m.queue.eraseP (·.id = id) }

/-- `Module::notify`; `SCEventQueue::wakeup` calls it with no delay. -/
def notify (m : Module) (d : ℕ) : Module :=
  { m with externalSchedulingEvent := m.externalSchedulingEvent.notify m.now d }

/-- The text of the two fatals on gem5 time. -/
def mustLag : String := "gem5 time must lag SystemC time gem5: %d SystemC: %d"
def missedEvent : String := "Missed an event at time %d gem5: %d, SystemC: %d"

/-- `Module::catchup`. -/
def catchup (m : Module) : Except Fault Module := do
  let gem5Time := m.curTick
  -- gem5 time must lag SystemC as SystemC is the master
  check (gem5Time ≤ m.now) (.fatal "Module::catchup" mustLag)
  let m := { m with curTick := m.now }
  check (∀ e ∈ m.queue.head?, gem5Time ≤ e.tick) (.fatal "Module::catchup" missedEvent)
  pure m

def op (m : Module) : QueueOp → Except Fault Module
  | .schedule e => m.schedule e
  | .deschedule id => m.deschedule id
  | .notify d => .ok (m.notify d)
  | .catchup => m.catchup

def ops (m : Module) : List QueueOp → Except Fault Module
  | [] => .ok m
  | o :: os => do
    let m ← m.op o
    m.ops os

/-- Schedule an event that has just been created. -/
def scheduleNew (m : Module) (e : GemEvent) : Except Fault Module := do
  check (∀ x ∈ m.queue, x.id ≠ e.id) (.environment "new: address in use")
  m.schedule e

/-- `async_statdump` and `async_statreset`: `schedStatEvent`. -/
def asyncStat (m : Module) (o : AsyncAnswers) : Except Fault Module :=
  if m.async.statdump || m.async.statreset then do
    let m ← m.scheduleNew { id := o.statEvent, tick := m.curTick, priority := statEventPri }
    pure { m with async := { m.async with statdump := false, statreset := false } }
  else .ok m

/-- `async_exit`: `exitSimLoop`. -/
def asyncExit (m : Module) (o : AsyncAnswers) : Except Fault Module :=
  if m.async.exit then
    { m with async := { m.async with exit := false } }.scheduleNew
      { id := o.exitEvent, tick := m.curTick, priority := simExitPri, kind := .simLoopExit }
  else .ok m

/-- `async_io`. -/
def asyncIo (m : Module) (o : AsyncAnswers) : Except Fault Module :=
  if m.async.io then { m with async := { m.async with io := false } }.ops o.poll
  else .ok m

/-- `Module::serviceAsyncEvent`. -/
def serviceAsyncEvent (m : Module) (o : AsyncAnswers) : Except Fault Module := do
  check (m.async.event = true) (.assert "Module::serviceAsyncEvent" "gem5::async_event")
  let m ← m.catchup
  let m ← { m with async := { m.async with event := false } }.asyncStat o
  let m ← m.asyncExit o
  let m ← m.asyncIo o
  check (m.async.exception = false)
    (.fatal "Module::serviceAsyncEvent" "received gem5::async_exception, shouldn't be possible")
  pure m

/-- What `eventLoop` and `serviceExternalEvent` do first. -/
def serviceAsync (m : Module) (o : AsyncAnswers) : Except Fault Module :=
  if m.async.event then m.serviceAsyncEvent o else .ok m

/-- `Module::eventLoop`, up to its loop. -/
def eventLoop (m : Module) (o : AsyncAnswers) : Except Fault Module := do
  check (m.inSimulate = true) (.fatal "Module::eventLoop"
    "Gem5SystemC event loop entered while outside Gem5SystemC::Module::simulate")
  let m ← m.serviceAsync o
  pure { m with looping := true }

/-- `EventQueue::serviceOne`: the first event `e` leaves the queue and is processed, which does
`os`. -/
def serviceOne (m : Module) (e : GemEvent) (os : List QueueOp) : Except Fault Module :=
  ({ m with queue := m.queue.tail, curTick := e.tick }.emit (.serviced e m.now m.curTick)).ops os

/-- One turn of the loop of `Module::eventLoop`. -/
def turn (m : Module) (os : List QueueOp) : Except Fault Module :=
  match m.queue with
  | [] => .error (.fatal "Module::eventLoop" "Ran out of events without seeing exit event")
  | e :: _ => do
    -- move time on to match SystemC
    let m ← m.catchup
    let m := if m.waitExitTime > m.now then { m with waitExitTime := m.now } else m
    if m.curTick < e.tick then
      let waitPeriod := e.tick - m.curTick
      -- wait until the next event or until externalSchedulingEvent
      pure { m with
        waitExitTime := m.curTick + waitPeriod
        eventLoopEnterEvent := m.eventLoopEnterEvent.notify m.now waitPeriod
        looping := false }
    else if m.curTick > e.tick then
      throw (.fatal "Module::eventLoop" missedEvent)
    else do
      let m ← m.serviceOne e os
      if e.isExitEvent then
        pure { m with
          exitEvent := some e
          eventLoopExitEvent := m.eventLoopExitEvent.notify m.now 0
          looping := false }
      else pure { m with exitEvent := none }

/-- `Module::serviceExternalEvent`. It warns when it is called outside `simulate`. -/
def serviceExternalEvent (m : Module) (o : AsyncAnswers) : Except Fault Module := do
  let m ← m.serviceAsync o
  if m.inSimulate ∧ m.queue ≠ [] then m.eventLoop o else pure m

/-- The tick of the limit event of `simulate`. -/
def limitTick (m : Module) (numCycles : ℕ) : ℕ :=
  if numCycles < maxTick - m.curTick then m.curTick + numCycles
  else maxTick -- counter would roll over or be set to MaxTick anyhow

/-- `Module::simulate`, up to where it waits for `eventLoopExitEvent`: `exitEvent` has just been
cleared. `limit` is the address of its limit event. -/
def simulate (m : Module) (numCycles limit : ℕ) : Except Fault Module := do
  check (m.inSimulate = false) (.environment "simulate: called inside simulate")
  let m ← m.scheduleNew
    { id := limit, tick := m.limitTick numCycles, priority := simExitPri, kind := .simLoopExit }
  let m := { m with limitEvent := limit, exitEvent := none }
  -- cancel any outstanding events
  let m := { m with eventLoopExitEvent := .none, externalSchedulingEvent := .none }
  pure ({ m with
    inSimulate := true
    eventLoopEnterEvent := m.eventLoopEnterEvent.notify m.now 0 }.emit .entered)

/-- `Module::simulate`, after it has been woken up. -/
def resume (m : Module) : Except Fault Module := do
  -- cancel any outstanding event loop entries
  let m := { m with eventLoopEnterEvent := .none, inSimulate := false, simulateReady := false }
  match m.exitEvent with
  | none => throw (.undefinedBehaviour "Module::simulate: exitEvent is NULL")
  | some e => do
    check (e.kind ≠ .localExit) (.assert "Module::simulate" "global_event != NULL")
    check (e.kind = .simLoopExit) (.assert "Module::simulate" "global_exit_event != NULL")
    if e.id ≠ m.limitEvent then do
      let m ← m.deschedule m.limitEvent
      pure (m.emit (.returned e))
    else pure (m.emit (.returned e))

/-! ## What the queue operations leave alone -/

section Frame

variable {m m' m'' : Module} {e : GemEvent} {os : List QueueOp} {o : AsyncAnswers}

/-- What code that runs at one time can change. -/
def OpsFrame (m m' : Module) : Prop :=
  ∃ externalSchedulingEvent curTick queue async,
    m' = { m with externalSchedulingEvent, curTick, queue, async }

theorem OpsFrame.refl (m : Module) : OpsFrame m m := ⟨_, _, _, _, rfl⟩

theorem OpsFrame.trans (h : OpsFrame m m') (h' : OpsFrame m' m'') : OpsFrame m m'' := by
  obtain ⟨_, _, _, _, rfl⟩ := h
  obtain ⟨_, _, _, _, rfl⟩ := h'
  exact ⟨_, _, _, _, rfl⟩

theorem OpsFrame.now_eq (h : OpsFrame m m') : m'.now = m.now := by
  obtain ⟨_, _, _, _, rfl⟩ := h
  rfl

theorem schedule_frame (h : m.schedule e = .ok m') : OpsFrame m m' := by
  simp only [schedule, bind_eq_ok, check_eq_ok, pure_eq_ok, Except.ok.injEq] at h
  obtain ⟨-, -, -, -, rfl⟩ := h
  exact ⟨_, _, _, _, rfl⟩

theorem scheduleNew_frame (h : m.scheduleNew e = .ok m') : OpsFrame m m' := by
  simp only [scheduleNew, bind_eq_ok] at h
  obtain ⟨-, -, h⟩ := h
  exact schedule_frame h

theorem deschedule_frame {i : ℕ} (h : m.deschedule i = .ok m') : OpsFrame m m' := by
  simp only [deschedule, bind_eq_ok, check_eq_ok, pure_eq_ok, Except.ok.injEq] at h
  obtain ⟨-, -, rfl⟩ := h
  exact ⟨_, _, _, _, rfl⟩

theorem catchup_eq (h : m.catchup = .ok m') : m' = { m with curTick := m.now } := by
  simp only [catchup, bind_eq_ok, check_eq_ok, pure_eq_ok, Except.ok.injEq] at h
  obtain ⟨-, -, -, -, rfl⟩ := h
  rfl

theorem catchup_frame (h : m.catchup = .ok m') : OpsFrame m m' := by
  obtain rfl := catchup_eq h
  exact ⟨_, _, _, _, rfl⟩

theorem ops_frame (h : m.ops os = .ok m') : OpsFrame m m' := by
  induction os generalizing m with
  | nil => cases h; exact .refl _
  | cons o os ih =>
    simp only [ops, bind_eq_ok] at h
    obtain ⟨m₁, ho, h⟩ := h
    refine OpsFrame.trans ?_ (ih h)
    cases o with
    | schedule e => exact schedule_frame ho
    | deschedule i => exact deschedule_frame ho
    | notify d => cases ho; exact ⟨_, _, _, _, rfl⟩
    | catchup => exact catchup_frame ho

theorem withAsync_frame (m : Module) (a : Async) : OpsFrame m { m with async := a } :=
  ⟨_, _, _, _, rfl⟩

theorem asyncStat_frame (h : m.asyncStat o = .ok m') : OpsFrame m m' := by
  unfold asyncStat at h
  split_ifs at h
  · simp only [bind_eq_ok, pure_eq_ok, Except.ok.injEq] at h
    obtain ⟨m₁, h, rfl⟩ := h
    exact (scheduleNew_frame h).trans (withAsync_frame _ _)
  · cases h
    exact .refl _

theorem asyncExit_frame (h : m.asyncExit o = .ok m') : OpsFrame m m' := by
  unfold asyncExit at h
  split_ifs at h
  · exact (withAsync_frame _ _).trans (scheduleNew_frame h)
  · cases h
    exact .refl _

theorem asyncIo_frame (h : m.asyncIo o = .ok m') : OpsFrame m m' := by
  unfold asyncIo at h
  split_ifs at h
  · exact (withAsync_frame _ _).trans (ops_frame h)
  · cases h
    exact .refl _

theorem serviceAsync_frame (h : m.serviceAsync o = .ok m') : OpsFrame m m' := by
  unfold serviceAsync at h
  split_ifs at h
  · simp only [serviceAsyncEvent, bind_eq_ok, pure_eq_ok, Except.ok.injEq] at h
    obtain ⟨-, -, m₁, hc, m₂, hs, m₃, he, m₄, hi, -, -, rfl⟩ := h
    exact ((((catchup_frame hc).trans (withAsync_frame _ _)).trans (asyncStat_frame hs)).trans
      (asyncExit_frame he)).trans (asyncIo_frame hi)
  · cases h
    exact .refl _

end Frame

/-! ## Runs -/

/-- What can happen next. -/
inductive Act
  /-- A process of the module runs. -/
  | eventLoop (o : AsyncAnswers)
  | serviceExternalEvent (o : AsyncAnswers)
  | resume
  /-- The loop of `eventLoop` takes a turn. An event that it services does `os`. -/
  | turn (os : List QueueOp)
  /-- A thread calls `simulate`. -/
  | simulate (numCycles limit : ℕ)
  /-- Another process is evaluated. -/
  | process (os : List QueueOp)
  /-- A signal arrives. -/
  | signal (a : Async)
  /-- The next delta cycle. -/
  | delta
  /-- Time passes. -/
  | advance (d : ℕ)
  deriving DecidableEq, Repr

/-- No process of the module is running or runnable. -/
def quiet (m : Module) : Bool :=
  !m.looping && !m.eventLoopReady && !m.externalReady && !m.simulateReady

/-- The notified processes are runnable. The thread of `simulate` waits as long as it is inside
`simulate`. -/
def trigger (m : Module) (p : Pending) (after : Pending → Pending) : Module :=
  { m with
    eventLoopReady := m.eventLoopEnterEvent = p
    externalReady := m.externalSchedulingEvent = p
    simulateReady := m.eventLoopExitEvent = p ∧ m.inSimulate
    eventLoopEnterEvent := after m.eventLoopEnterEvent
    externalSchedulingEvent := after m.externalSchedulingEvent
    eventLoopExitEvent := after m.eventLoopExitEvent }

/-- Time may pass to `t`. -/
def Allows (m : Module) (t : ℕ) : Prop :=
  m.eventLoopEnterEvent.Allows t ∧ m.externalSchedulingEvent.Allows t ∧
    m.eventLoopExitEvent.Allows t

instance (m : Module) (t : ℕ) : Decidable (m.Allows t) := inferInstanceAs (Decidable (_ ∧ _))

def step (m : Module) : Act → Except Fault Module
  | .eventLoop o => do
    check (m.eventLoopReady = true ∧ m.looping = false) (.environment "eventLoop: not runnable")
    { m with eventLoopReady := false }.eventLoop o
  | .serviceExternalEvent o => do
    check (m.externalReady = true ∧ m.looping = false)
      (.environment "serviceExternalEvent: not runnable")
    { m with externalReady := false }.serviceExternalEvent o
  | .resume => do
    check (m.simulateReady = true ∧ m.looping = false) (.environment "simulate: not runnable")
    m.resume
  | .turn os => do
    check (m.looping = true) (.environment "not in the loop")
    m.turn os
  | .simulate numCycles limit => do
    check (m.looping = false) (.environment "eventLoop is running")
    m.simulate numCycles limit
  | .process os => do
    check (m.looping = false) (.environment "eventLoop is running")
    m.ops os
  | .signal a => .ok { m with async := m.async.or a }
  | .delta => do
    check (m.quiet = true) (.environment "a process is runnable")
    pure (m.trigger .delta Pending.afterDelta)
  | .advance d => do
    check (m.quiet = true) (.environment "a process is runnable")
    check (0 < d ∧ m.now + d ≤ maxTick ∧ m.Allows (m.now + d)) (.environment "time cannot pass")
    pure { m.trigger (.timed (m.now + d)) (Pending.after (m.now + d)) with now := m.now + d }

/-- The fault that an act ends in. -/
def fault (m : Module) (a : Act) : Option Fault :=
  match m.step a with
  | .ok _ => none
  | .error f => some f

theorem step_of_fault {m : Module} {a : Act} {f : Fault} (h : m.fault a = some f) :
    m.step a = .error f := by
  unfold fault at h
  cases hs : m.step a with
  | ok u => rw [hs] at h; cases h
  | error g => rw [hs] at h; rw [Option.some.inj h]

/-- A module after its construction, which does not initialise `wait_exit_time`. -/
def new (waitExitTime : ℕ) : Module := { waitExitTime }

end Module

end Gem5Wrapper
