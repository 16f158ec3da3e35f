import Gem5Wrapper.Completion
import Gem5Wrapper.RouterSteps

/-!
# A slave port and its routers

One slave port whose transactor has a `TxnRouter` at each socket, as a closed system: gem5 above the
port and the memories below the routers are all that is left of the environment.

A call between the two sides returns before either of them goes on, and only schedules something at
the other side. So each act of one side is one step of that side, and the calls that it shows are
then made at the other, in their order. SystemC has one time, which is that of the port; a router
reads it when it is called.
-/

namespace Gem5Wrapper

open FaultMachine
open Function (update)

/-- A transaction as a router sees it: the payload, with the number of what it carries. -/
structure Transaction where
  serial : ℕ
  payload : Ptr
  deriving DecidableEq, Repr

/-- A slave port and the routers of its sockets. -/
structure ClosedSystem where
  port : World
  routers : ℕ → TxnRouter Transaction

namespace ClosedSystem

/-! ## Calls between the two sides -/

/-- `nb_transport_fw` of a router is called, with a payload for `address`. -/
def receive (r : TxnRouter Transaction) (now : ℕ) (o : TxnRouter.Obs Transaction)
    (x : Transaction) (address : ℕ) (ph : Phase) (delay : ℕ) :
    Except Fault (TxnRouter Transaction) :=
  let r := { r with now, payloads := update r.payloads x { r.payloads x with address } }
  (r.emit o).nbTransportFw x ph delay

/-- What the port shows, as calls of the routers. END_RESP has no delay. -/
def forward (now : ℕ) (R : ℕ → TxnRouter Transaction) :
    Obs → Except Fault (ℕ → TxnRouter Transaction)
  | .beginReq k t s address delay _ => do
    let r ← receive (R s) now (.beginReq ⟨k, t⟩) ⟨k, t⟩ address .beginReq delay
    pure (update R s r)
  | .endResp k t s address => do
    let r ← receive (R s) now (.endResp ⟨k, t⟩) ⟨k, t⟩ address .endResp 0
    pure (update R s r)
  | _ => .ok R

/-- The calls of a list of observations, newest first. -/
def forwards (now : ℕ) (R : ℕ → TxnRouter Transaction) :
    List Obs → Except Fault (ℕ → TxnRouter Transaction)
  | [] => .ok R
  | o :: l => do
    let R ← forwards now R l
    forward now R o

/-- What a router shows, as calls of the port and of the payload. -/
def backward (w : World) : TxnRouter.Obs Transaction → Except Fault World
  | .acquire x => w.step (.targetAcquire x.serial x.payload)
  | .endReq x => w.step (.nbTransportBw x.serial x.payload .endReq TxnRouter.bwDelay)
  | .beginResp x _ _ => w.step (.nbTransportBw x.serial x.payload .beginResp TxnRouter.bwDelay)
  | .release x => w.step (.targetRelease x.serial x.payload)
  | _ => .ok w

def backwards (w : World) : List (TxnRouter.Obs Transaction) → Except Fault World
  | [] => .ok w
  | o :: l => do
    let w ← backwards w l
    backward w o

/-! ## Acts -/

/-- What can happen to the system. -/
inductive Act
  | recvTimingReq (r : Request)
  /-- gem5 services an event of the port: `pec`. -/
  | service (o : PecAnswers)
  | recvRespRetry (answers : List RespAnswer)
  /-- The payload event queue of router `s` calls back for an event that is due. -/
  | peqCb (s i : ℕ)
  | targetDone (s : ℕ)
  /-- `b_transport` of the memory of router `s` returns. -/
  | memoryDone (s : ℕ) (status : ResponseStatus)
  | advance (d : ℕ)
  deriving DecidableEq, Repr

/-- What has been added to a history. -/
def newer {β : Type} (old new : List β) : List β := new.take (new.length - old.length)

@[simp] theorem newer_append {β : Type} (l l' : List β) : newer l (l' ++ l) = l' := by
  simp [newer]

/-- An act of the port. -/
def portStep (y : ClosedSystem) (a : Gem5Wrapper.Act) : Except Fault ClosedSystem := do
  let w ← y.port.step a
  let R ← forwards y.port.now y.routers (newer y.port.trace w.trace)
  pure ⟨w, R⟩

/-- An act of router `s`. -/
def routerStep (y : ClosedSystem) (s : ℕ) (a : TxnRouter.Act Transaction) :
    Except Fault ClosedSystem := do
  let r ← { y.routers s with now := y.port.now }.step a
  let w ← backwards y.port (newer (y.routers s).trace r.trace)
  pure ⟨w, update y.routers s r⟩

/-- The payload that the memory gives back: it sets the status. -/
def returned (r : TxnRouter Transaction) (status : ResponseStatus) : Payload :=
  match r.process with
  | some x => { r.payloads x with responseStatus := status }
  | none => {}

def step (y : ClosedSystem) : Act → Except Fault ClosedSystem
  | .recvTimingReq r => y.portStep (.recvTimingReq r)
  | .service o => y.portStep (.service o)
  | .recvRespRetry answers => y.portStep (.recvRespRetry answers)
  | .peqCb s i => y.routerStep s (.peqCb i TxnRouter.acceptingCb)
  | .targetDone s => y.routerStep s .targetDone
  | .memoryDone s status =>
    y.routerStep s (.memoryDone (returned (y.routers s) status) (TxnRouter.accepting .beginResp))
  | .advance d => do
    check (∀ s < y.port.sockets, (∀ e ∈ (y.routers s).mPeq, y.port.now + d ≤ e.due) ∧
        ∀ t ∈ (y.routers s).targetDoneEvent, y.port.now + d ≤ t)
      (.environment "callback passed over")
    y.portStep (.advance d)

/-! ## What gem5 promises -/

/-- The requests that gem5 makes in an act. -/
def Act.requests : Act → List Request
  | .recvTimingReq r => [r]
  | .service o => o.retry ++ o.resp.requests
  | .recvRespRetry answers => answers.flatMap RespAnswer.requests
  | _ => []

/-- The packet is for the memory behind one of the sockets, where the router answers BEGIN_REQ with
TLM_ACCEPTED and leaves the phase and the delay as they are. -/
def Routed (y : ClosedSystem) (r : Request) : Prop :=
  y.port.port.targetSocket r.content < y.port.sockets ∧
    (y.routers (y.port.port.targetSocket r.content)).toMem r.content.addr = true ∧
    r.reply = ⟨.accepted, .beginReq, r.content.payloadDelay⟩

/-- gem5 accepts the responses that it has asked for. -/
def Act.AcceptsResends : Act → Prop
  | .recvRespRetry answers => ∀ b ∈ answers, b.accept = true
  | _ => True

/-- gem5 sends packets for the memories, and accepts the responses that it has asked for. -/
def Obeyed (y : ClosedSystem) (a : Act) : Prop :=
  (∀ r ∈ a.requests, y.Routed r) ∧ a.AcceptsResends

instance (y : ClosedSystem) (r : Request) : Decidable (y.Routed r) :=
  inferInstanceAs (Decidable (_ ∧ _ ∧ _))

instance : (a : Act) → Decidable a.AcceptsResends
  | .recvRespRetry answers => inferInstanceAs (Decidable (∀ b ∈ answers, b.accept = true))
  | .recvTimingReq _ | .service _ | .peqCb .. | .targetDone _ | .memoryDone .. | .advance _ =>
    .isTrue trivial

instance (y : ClosedSystem) (a : Act) : Decidable (y.Obeyed a) :=
  inferInstanceAs (Decidable ((∀ r ∈ a.requests, y.Routed r) ∧ a.AcceptsResends))

/-- The system before anything happens. -/
def start (q : SCSlavePort) (R : ℕ → TxnRouter Transaction) : ClosedSystem :=
  ⟨.start q, R⟩

end ClosedSystem

end Gem5Wrapper
