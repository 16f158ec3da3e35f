import Mathlib.Algebra.Group.Nat.Defs
import Gem5Wrapper.Socket
import Gem5Wrapper.Lib.OneAtATime

/-!
# `TxnRouter`

The router between the initiator of a socket and the memory and bus below it: the blocking and
debug calls, and the non-blocking protocol with its payload event queue and the process that
executes a transaction while the memory may block.

The delays of the code are in ticks of 1 ps, as everywhere in the wrapper.
-/

namespace Gem5Wrapper

open FaultMachine OneAtATime

variable {α : Type}

/-! ## The source -/

/-- The answers to the calls of one callback of the payload event queue. -/
structure CbAnswers (α : Type) where
  endReq : Answer α
  beginResp : Answer α
  deriving DecidableEq, Repr

namespace TxnRouter

/-- What happens at the sockets of the router. -/
inductive Obs (α : Type)
  | beginReq (x : α)
  | endReq (x : α)
  /-- `b_transport` of the memory is called. -/
  | execute (x : α)
  /-- The memory returns, and has set the status. -/
  | executed (x : α) (status : ResponseStatus)
  | beginResp (x : α) (status : ResponseStatus) (reply : Reply)
  | endResp (x : α)
  /-- END_RESP takes effect, or TLM_COMPLETED ends the transaction. -/
  | ended (x : α)
  | acquire (x : α)
  | release (x : α)
  deriving DecidableEq, Repr

end TxnRouter

/-- `TxnRouter`, with the process that waits for `target_done_event` or is in `b_transport` of the
memory. `mem_start_addr` and `mem_size` are 64-bit numbers. -/
structure TxnRouter (α : Type) where
  name : String
  memStartAddr : ℕ
  memSize : ℕ
  mPeq : List (PeqEvent α) := []
  transactionInProgress : Option α := none
  targetDoneEvent : Option ℕ := none
  responseInProgress : Bool := false
  nextResponsePending : Option α := none
  endReqPending : Option α := none
  process : Option α := none
  payloads : α → Payload
  now : ℕ := 0
  trace : List (TxnRouter.Obs α) := []

namespace TxnRouter

/-- `TxnRouter::ToMem`. The sum wraps around. -/
def toMem (r : TxnRouter α) (addr : ℕ) : Bool :=
  if addr < r.memStartAddr then false
  else if addr ≥ (r.memStartAddr + r.memSize) % 2 ^ 64 then false
  else true

/-- `set_response_status(TLM_OK_RESPONSE)`. -/
def setOk (p : Payload) : Payload := { p with responseStatus := .ok }

/-- `TxnRouter::b_transport`, with the `b_transport` of the memory and of the bus. -/
def bTransport (r : TxnRouter α) (mem bus : Payload → ℕ → Payload × ℕ) (p : Payload) (delay : ℕ) :
    Payload × ℕ :=
  if r.toMem p.address then (setOk (mem p delay).1, (mem p delay).2) else bus p delay

/-- `TxnRouter::transport_dbg`, with the `transport_dbg` of the bus. -/
def transportDbg (r : TxnRouter α) (bus : Payload → Payload × ℕ) (p : Payload) :
    Except Fault (Payload × ℕ) :=
  if r.toMem p.address then .ok (bus p)
  else .error (.fatal "TXN_ROUTER" "Address out of range. Please check")

def emit (r : TxnRouter α) (o : Obs α) : TxnRouter α := { r with trace := o :: r.trace }

/-- `m_peq.notify`. -/
def notify (r : TxnRouter α) (x : α) (ph : Phase) (delay : ℕ) : TxnRouter α :=
  { r with mPeq := r.mPeq ++ [⟨x, ph, r.now + delay⟩] }

/-- An event leaves the queue. -/
def dequeue (r : TxnRouter α) (i : ℕ) : TxnRouter α := { r with mPeq := r.mPeq.eraseIdx i }

/-- `target_done_event.notify`: the earlier notification stays. -/
def notifyDone (r : TxnRouter α) (delay : ℕ) : TxnRouter α :=
  { r with targetDoneEvent := some (match r.targetDoneEvent with
      | some t => min t (r.now + delay)
      | none => r.now + delay) }

/-- `TxnRouter::nb_transport_fw`. -/
def nbTransportFw (r : TxnRouter α) (x : α) (ph : Phase) (delay : ℕ) :
    Except Fault (TxnRouter α) :=
  if r.toMem (r.payloads x).address then .ok (r.notify x ph delay)
  else .error (.fatal r.name "Address out of range. Please check")

/-! ## The initiator -/

/-- An observation as an event of the protocol between the initiator and the router. -/
def Obs.event : Obs α → Option (Event α)
  | .beginReq x => some (.request x)
  | .endReq x => some (.grant x)
  | .execute x => some (.start x)
  | .executed x _ => some (.finish x)
  | .beginResp x _ reply => some (.answer x (reply.status = .accepted))
  | .endResp x => some (.ack x)
  | .ended x => some (.close x)
  | .acquire _ | .release _ => none

/-- The protocol events so far. -/
def events (r : TxnRouter α) : List (Event α) := r.trace.filterMap Obs.event

variable [DecidableEq α]

/-- A call of an initiator that obeys the request exclusion rule and sends END_RESP once for each
BEGIN_RESP that it answered with TLM_ACCEPTED. -/
def call (r : TxnRouter α) (c : Call α) : Except Fault (TxnRouter α) :=
  match c.phase with
  | .beginReq => do
    check (MayRequest r.events c.txn) (.environment "BEGIN_REQ: exclusion rule")
    (r.emit (.beginReq c.txn)).nbTransportFw c.txn .beginReq c.delay
  | .endResp => do
    check (MayAck r.events c.txn) (.environment "END_RESP: no response to end")
    (r.emit (.endResp c.txn)).nbTransportFw c.txn .endResp c.delay
  | _ => .error (.environment "not a phase of an initiator")

def calls (r : TxnRouter α) : List (Call α) → Except Fault (TxnRouter α)
  | [] => .ok r
  | c :: cs => do
    let r ← r.call c
    r.calls cs

/-! ## Helping functions and processes -/

/-- `TxnRouter::send_end_req`. -/
def sendEndReq (r : TxnRouter α) (x : α) (a : Answer α) : Except Fault (TxnRouter α) := do
  let r ← (r.emit (.endReq x)).calls a.calls
  let delay := a.reply.delay + 15000 -- latency
  let r := r.notifyDone delay
  check (r.transactionInProgress = none)
    (.assert "TxnRouter::send_end_req" "transaction_in_progress == 0")
  pure { r with transactionInProgress := some x }

/-- `TxnRouter::send_response`. The initiator answers in one of the ways that are handled. -/
def sendResponse (r : TxnRouter α) (x : α) (a : Answer α) : Except Fault (TxnRouter α) := do
  let r := { r with responseInProgress := true }
  check (a.reply.status = .updated → a.reply.phase = .endResp)
    (.environment "BEGIN_RESP: TLM_UPDATED without END_RESP")
  let r ← (r.emit (.beginResp x (r.payloads x).responseStatus a.reply)).calls a.calls
  let r := match a.reply.status with
    | .updated => r.notify x a.reply.phase a.reply.delay
    | .completed =>
      { r with transactionInProgress := none, responseInProgress := false }.emit (.ended x)
    | .accepted => r
  pure (r.emit (.release x))

/-- `TxnRouter::peq_cb`. -/
def peqCb (r : TxnRouter α) (x : α) (ph : Phase) (o : CbAnswers α) :
    Except Fault (TxnRouter α) :=
  match ph with
  | .beginReq =>
    let r := r.emit (.acquire x)
    if r.transactionInProgress = none then r.sendEndReq x o.endReq
    else .ok { r with endReqPending := some x }
  | .endResp => do
    check (r.responseInProgress = true) (.fatal r.name "Illegal transaction phase END RESP")
    let r := { r with transactionInProgress := none, responseInProgress := false }.emit (.ended x)
    let r ← match r.nextResponsePending with
      | some y => do
        let r ← r.sendResponse y o.beginResp
        pure { r with nextResponsePending := none }
      | none => pure r
    match r.endReqPending with
    | some y => do
      let r ← r.sendEndReq y o.endReq
      pure { r with endReqPending := none }
    | none => pure r
  | _ => .error (.fatal r.name "Illegal transaction phase")

/-- `execute_transaction_process` when `target_done_event` fires. A process that does not wait
misses it. -/
def wake (r : TxnRouter α) : Except Fault (TxnRouter α) :=
  let r := { r with targetDoneEvent := none }
  match r.process with
  | some _ => .ok r
  | none =>
    match r.transactionInProgress with
    | none => .error (.undefinedBehaviour "*transaction_in_progress")
    | some x => .ok ({ r with process := some x }.emit (.execute x))

/-- `execute_transaction_process` when the `b_transport` of the memory returns with payload `p`: the
end of `execute_transaction` and the rest of the loop. -/
def memoryDone (r : TxnRouter α) (p : Payload) (a : Answer α) : Except Fault (TxnRouter α) :=
  match r.process with
  | none => .error (.environment "b_transport has not been called")
  | some x =>
    let r := { r with payloads := Function.update r.payloads x (setOk p), process := none }.emit
      (.executed x p.responseStatus)
    if r.responseInProgress then do
      check (r.nextResponsePending = none)
        (.fatal "TLM-2" "Attempt to have two pending responses in target")
      pure { r with nextResponsePending := r.transactionInProgress }
    else
      match r.transactionInProgress with
      | none => .error (.undefinedBehaviour "*transaction_in_progress")
      | some y => r.sendResponse y a

/-! ## Runs -/

/-- What can happen to a router. -/
inductive Act (α : Type)
  | call (c : Call α)
  /-- The payload event queue calls back for an event that is due. -/
  | peqCb (i : ℕ) (o : CbAnswers α)
  | targetDone
  | memoryDone (p : Payload) (a : Answer α)
  /-- Time passes, but not beyond a callback or a notification. -/
  | advance (d : ℕ)
  deriving DecidableEq, Repr

def step (r : TxnRouter α) : Act α → Except Fault (TxnRouter α)
  | .call c => r.call c
  | .peqCb i o =>
    match r.mPeq[i]? with
    | none => .error (.environment "no such event")
    | some e => do
      check (e.due = r.now) (.environment "event not due")
      (r.dequeue i).peqCb e.txn e.phase o
  | .targetDone => do
    check (r.targetDoneEvent = some r.now) (.environment "no notification")
    r.wake
  | .memoryDone p a => r.memoryDone p a
  | .advance d => do
    check ((∀ e ∈ r.mPeq, r.now + d ≤ e.due) ∧ ∀ t ∈ r.targetDoneEvent, r.now + d ≤ t)
      (.environment "callback passed over")
    pure { r with now := r.now + d }

/-- A router, before anything happens. -/
def new (name : String) (memStartAddr memSize : ℕ) (payloads : α → Payload) : TxnRouter α :=
  { name, memStartAddr, memSize, payloads }

end TxnRouter

end Gem5Wrapper
