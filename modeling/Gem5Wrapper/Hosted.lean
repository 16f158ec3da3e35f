import Gem5Wrapper.ClosedSystem
import Gem5Wrapper.LockStep

/-!
# The closed system in the event loop

The `PayloadEvent`s of a port are events of gem5: `PayloadEvent::notify` wakes the module up and
schedules the event in its queue, and the event loop of the module services it. gem5 calls the port
from its own events, or from a process that has caught up.

A `Hosted` system is a module and a closed system that share the time, the time of gem5 and the
scheduled events. Nothing here says when a phase is due or that gem5 has caught up: the port goes on
with the times that it finds, and what happens when is left to the module. Only the callbacks of the
routers are still SystemC's own.
-/

namespace Gem5Wrapper

open FaultMachine
open Function (update)

/-- A closed system whose port schedules its events in the queue of a module. -/
structure Hosted where
  module : Module
  system : ClosedSystem
  /-- The scheduled `PayloadEvent`s, by their addresses. -/
  event : ℕ → Option PayloadEvent := fun _ => none

namespace Hosted

/-! ## The port, at a time of gem5 -/

/-- A call of gem5 at the port. -/
inductive Call
  | recvTimingReq (r : Request)
  | recvRespRetry (answers : List RespAnswer)
  deriving DecidableEq, Repr

/-- The act of the closed system. -/
def Call.act : Call → ClosedSystem.Act
  | recvTimingReq r => .recvTimingReq r
  | recvRespRetry answers => .recvRespRetry answers

/-- The port has come to `w`: what it has shown are calls of the routers. -/
def shows (y : ClosedSystem) (w : World) : Except Fault ClosedSystem := do
  let R ← ClosedSystem.forwards y.port.now y.routers (ClosedSystem.newer y.port.trace w.trace)
  pure ⟨w, R⟩

def call (y : ClosedSystem) (curTick : ℕ) : Call → Except Fault ClosedSystem
  | .recvTimingReq r => do
    let (_, w) ← { y.port with curTick }.gem5Request r
    shows y w
  | .recvRespRetry answers => do
    let w ← { y.port with curTick }.recvRespRetry answers
    shows y w

def calls (y : ClosedSystem) (curTick : ℕ) : List Call → Except Fault ClosedSystem
  | [] => .ok y
  | c :: cs => do
    let y ← call y curTick c
    calls y curTick cs

/-- `PayloadEvent::process`. -/
def process (y : ClosedSystem) (curTick : ℕ) (e : PayloadEvent) (o : PecAnswers) :
    Except Fault ClosedSystem := do
  let w ← { y.port with curTick, events := y.port.events.erase e }.pec e o
  shows y w

/-! ## Scheduled events -/

/-- The event that a call of `nb_transport_bw` creates. -/
def created (now : ℕ) : TxnRouter.Obs Transaction → Option PayloadEvent
  | .endReq x => some ⟨x.payload, .endReq, now + TxnRouter.bwDelay, x.serial⟩
  | .beginResp x _ _ => some ⟨x.payload, .beginResp, now + TxnRouter.bwDelay, x.serial⟩
  | _ => none

/-- The router that is called back. -/
def routerOf : ClosedSystem.Act → Option ℕ
  | .peqCb s _ | .targetDone s | .memoryDone s _ => some s
  | _ => none

/-- The events that are created on the way from `y` to `y'`, in their order. -/
def createdBy (y y' : ClosedSystem) (s : ℕ) : List PayloadEvent :=
  ((ClosedSystem.newer (y.routers s).trace (y'.routers s).trace).filterMap
    (created y.port.now)).reverse

/-- `PayloadEvent::notify`: `wakeupEventQueue` and `schedule`. -/
def schedules : List (ℕ × PayloadEvent) → List QueueOp
  | [] => []
  | (id, e) :: z => .notify 0 :: .schedule { id, tick := e.tick } :: schedules z

/-- Events are entered under their addresses. -/
def enter (event : ℕ → Option PayloadEvent) (z : List (ℕ × PayloadEvent)) :
    ℕ → Option PayloadEvent :=
  z.foldl (fun event p => update event p.1 (some p.2)) event

/-! ## Steps -/

/-- What can happen. -/
inductive Act
  /-- The event loop takes a turn. If it services an event of the port then gem5 answers `o`, and
  if it services another event then this makes `cs`. Besides the event does `os`. -/
  | turn (cs : List Call) (o : PecAnswers) (os : List QueueOp)
  /-- A callback of a router or the return of a memory, with addresses for the events that the port
  creates. -/
  | callback (a : ClosedSystem.Act) (ids : List ℕ)
  /-- Another process, which catches up before it makes `cs`. -/
  | process (cs : List Call) (os : List QueueOp)
  /-- What the module and the kernel do besides. -/
  | module (a : Module.Act)
  | advance (d : ℕ)
  deriving DecidableEq, Repr

/-- The event that a turn of the loop services. -/
def due (m : Module) : Option GemEvent :=
  match m.queue with
  | [] => none
  | g :: _ => if m.now < g.tick then none else some g

def step (h : Hosted) : Act → Except Fault Hosted
  | .turn cs o os => do
    let m ← h.module.step (.turn os)
    match due h.module with
    | none => do
      check (cs = []) (.environment "no event is serviced")
      pure { h with module := m }
    | some g =>
      match h.event g.id with
      | none => do
        let y ← calls h.system g.tick cs
        pure { h with module := m, system := y }
      | some e => do
        check (cs = []) (.environment "the port makes no calls at itself")
        let y ← process h.system g.tick e o
        pure ⟨m, y, update h.event g.id none⟩
  | .callback a ids =>
    match routerOf a with
    | none => .error (.environment "no callback")
    | some s => do
      let y ← h.system.step a
      let new := createdBy h.system y s
      check (ids.length = new.length ∧ ids.Nodup ∧ ∀ g ∈ h.module.queue, g.id ∉ ids)
        (.environment "new: address in use")
      let m ← h.module.step (.process (schedules (ids.zip new)))
      pure ⟨m, y, enter h.event (ids.zip new)⟩
  | .process cs os => do
    check (cs = [] ∨ os.head? = some .catchup) (.environment "gem5 is called before catchup")
    let m ← h.module.step (.process os)
    let y ← calls h.system h.module.now cs
    pure { h with module := m, system := y }
  | .module a =>
    match a with
    | .turn _ | .process _ | .advance _ => .error (.environment "an act of its own")
    | a => do
      let m ← h.module.step a
      pure { h with module := m }
  | .advance d => do
    check (∀ s < h.system.port.sockets,
        (∀ e ∈ (h.system.routers s).mPeq, h.system.port.now + d ≤ e.due) ∧
          ∀ t ∈ (h.system.routers s).targetDoneEvent, h.system.port.now + d ≤ t)
      (.environment "callback passed over")
    let m ← h.module.step (.advance d)
    pure { h with
      module := m
      system := { h.system with port := { h.system.port with now := h.system.port.now + d } } }

/-! ## What the environment promises -/

/-- gem5 obeys in each of the calls. -/
def CallsObeyed (y : ClosedSystem) (curTick : ℕ) : List Call → Prop
  | [] => True
  | c :: cs => y.Obeyed c.act ∧
    Ends (fun y => CallsObeyed y curTick cs) (fun _ => True) (call y curTick c)

/-- Nobody else deschedules an event of the port. -/
def Spares (event : ℕ → Option PayloadEvent) : QueueOp → Prop
  | .deschedule id => event id = none
  | .schedule _ | .notify _ | .catchup => True

def Spared (event : ℕ → Option PayloadEvent) (os : List QueueOp) : Prop :=
  ∀ o ∈ os, Spares event o

/-- Neither does the module. -/
def SparedBy (h : Hosted) : Module.Act → Prop
  | .eventLoop o | .serviceExternalEvent o => Spared h.event o.poll
  | .resume => h.event h.module.limitEvent = none
  | _ => True

/-- gem5 obeys, the other processes schedule in time and touch no event of the port, and time
passes inside `simulate` or when the port waits for nothing. -/
def Promised (h : Hosted) : Act → Prop
  | .turn cs o os => Spared h.event os ∧ ∀ g ∈ due h.module,
    (h.event g.id = none → CallsObeyed h.system g.tick cs) ∧
      (h.event g.id ≠ none → h.system.Obeyed (.service o))
  | .callback _ _ => True
  | .process cs os => Spared h.event os ∧ CallsObeyed h.system h.module.now cs ∧
    h.module.Timely (.process os)
  | .module a => h.module.Timely a ∧ h.SparedBy a
  | .advance _ => h.module.inSimulate = true ∨ h.system.port.events = []

instance : (y : ClosedSystem) → (curTick : ℕ) → (cs : List Call) →
    Decidable (CallsObeyed y curTick cs)
  | _, _, [] => .isTrue trivial
  | y, curTick, c :: cs =>
    have (y : ClosedSystem) : Decidable (CallsObeyed y curTick cs) :=
      instDecidableCallsObeyed y curTick cs
    inferInstanceAs (Decidable (y.Obeyed c.act ∧
      Ends (fun y => CallsObeyed y curTick cs) (fun _ => True) (call y curTick c)))

instance (event : ℕ → Option PayloadEvent) : (o : QueueOp) → Decidable (Spares event o)
  | .deschedule id => inferInstanceAs (Decidable (event id = none))
  | .schedule _ | .notify _ | .catchup => .isTrue trivial

instance (event : ℕ → Option PayloadEvent) (os : List QueueOp) : Decidable (Spared event os) :=
  inferInstanceAs (Decidable (∀ o ∈ os, Spares event o))

instance (h : Hosted) : (a : Module.Act) → Decidable (h.SparedBy a)
  | .eventLoop o | .serviceExternalEvent o => inferInstanceAs (Decidable (Spared h.event o.poll))
  | .resume => inferInstanceAs (Decidable (h.event h.module.limitEvent = none))
  | .turn _ | .simulate .. | .process _ | .signal _ | .delta | .advance _ => .isTrue trivial

instance (h : Hosted) : (a : Act) → Decidable (h.Promised a)
  | .turn cs o os => inferInstanceAs (Decidable (Spared h.event os ∧ ∀ g ∈ due h.module,
      (h.event g.id = none → CallsObeyed h.system g.tick cs) ∧
        (h.event g.id ≠ none → h.system.Obeyed (.service o))))
  | .callback _ _ => .isTrue trivial
  | .process cs os => inferInstanceAs (Decidable (Spared h.event os ∧
      CallsObeyed h.system h.module.now cs ∧ h.module.Timely (.process os)))
  | .module a => inferInstanceAs (Decidable (h.module.Timely a ∧ h.SparedBy a))
  | .advance _ =>
    inferInstanceAs (Decidable (h.module.inSimulate = true ∨ h.system.port.events = []))

/-- The system before anything happens. -/
def start (q : SCSlavePort) (R : ℕ → TxnRouter Transaction) (waitExitTime : ℕ) : Hosted :=
  ⟨.new waitExitTime, .start q R, fun _ => none⟩

end Hosted

end Gem5Wrapper
