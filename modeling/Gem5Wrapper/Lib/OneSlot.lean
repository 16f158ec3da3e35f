import Mathlib.Data.Option.Basic
import Mathlib.Tactic.Common

/-!
# A channel with one slot each way

A client sends requests through a channel that carries one request at a time. A request that
meets an open one is refused, and the client gets a retry when the open one ends. Later the
server begins the response. The client is offered it, and accepts it or refuses it; what it has
refused waits in a slot until the client asks for it. The transaction ends when its response is
accepted, or at once if there is nothing to offer.

`after` is what the channel makes of its inputs, newest first. Transactions are numbered in the
order of their requests.
-/

namespace OneSlot

inductive Input
  | request
  | endReq (n : ℕ)
  | beginResp (n : ℕ)
  /-- The client is offered the response for the first time. -/
  | answer (n : ℕ) (accepted : Bool)
  /-- The client asks for what it has refused. -/
  | respRetry
  deriving DecidableEq, Repr

/-- The request side. -/
@[ext] structure Requests where
  /-- How many requests were accepted. -/
  begun : ℕ := 0
  /-- The open request. -/
  blocking : Option ℕ := none
  owed : Bool := false
  /-- Which requests were accepted. -/
  decisions : List Bool := []
  /-- The transactions that the client got a retry because of. -/
  retries : List ℕ := []

/-- The response side. -/
structure Responses where
  /-- The last transaction whose response has begun, if the client has not been offered it. -/
  unanswered : Option ℕ := none
  /-- The response that the client has refused. -/
  waiting : Option ℕ := none
  /-- The transactions that ended, but for the last one. -/
  answered : List ℕ := []

namespace Requests

variable (σ : Requests) (n : ℕ)

def request : Requests :=
  if σ.blocking = none then
    { σ with begun := σ.begun + 1, blocking := some σ.begun, decisions := true :: σ.decisions }
  else { σ with owed := true, decisions := false :: σ.decisions }

/-- The request ends, if it is open still. -/
def close : Requests :=
  if σ.blocking = some n then
    { σ with
      blocking := none
      owed := false
      retries := if σ.owed then n :: σ.retries else σ.retries }
  else σ

end Requests

namespace Responses

variable (σ : Responses) (n : ℕ)

/-- The transactions that ended. -/
def ends : List ℕ := σ.unanswered.toList ++ σ.answered

def begin : Responses := { σ with unanswered := some n, answered := σ.ends }

def answer (accepted : Bool) : Responses where
  unanswered := none
  waiting := if accepted then σ.waiting else some n
  answered := if accepted then n :: σ.answered else σ.answered

def retry : Responses where
  unanswered := none
  waiting := none
  answered := σ.waiting.toList ++ σ.ends

theorem ends_retry : σ.retry.ends = σ.waiting.toList ++ σ.ends := rfl

end Responses

structure State where
  requests : Requests := {}
  responses : Responses := {}

def State.step (σ : State) : Input → State
  | .request => { σ with requests := σ.requests.request }
  | .endReq n => { σ with requests := σ.requests.close n }
  | .beginResp n => ⟨σ.requests.close n, σ.responses.begin n⟩
  | .answer n accepted => { σ with responses := σ.responses.answer n accepted }
  | .respRetry => { σ with responses := σ.responses.retry }

/-- The state of a channel after its inputs. -/
def after : List Input → State
  | [] => {}
  | i :: l => (after l).step i

/-! ## Requests -/

namespace Requests

variable {σ : Requests} {n : ℕ}

theorem request_of_free (h : σ.blocking = none) : σ.request =
    { σ with begun := σ.begun + 1, blocking := some σ.begun, decisions := true :: σ.decisions } :=
  if_pos h

theorem request_of_blocked (h : σ.blocking = some n) :
    σ.request = { σ with owed := true, decisions := false :: σ.decisions } :=
  if_neg (by simp [h])

theorem close_of_blocking (h : σ.blocking = some n) : σ.close n =
    { σ with
      blocking := none
      owed := false
      retries := if σ.owed then n :: σ.retries else σ.retries } := if_pos h

theorem close_of_ne (h : σ.blocking ≠ some n) : σ.close n = σ := if_neg h

end Requests

end OneSlot
