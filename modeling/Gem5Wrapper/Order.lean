import Gem5Wrapper.ClosedSteps

/-!
# The order of a socket

What gem5 sends to one socket stays in its order all the way: the router executes and answers the
transactions of its socket in the order in which the port has accepted their requests, and the port
ends them in this order. Two of them are open at most, whatever the other sockets do.

The histories of the port and of a router name the same requests in the same order (`Agrees`),
since a router gets the calls that the port makes at its socket and no others.
-/

namespace Gem5Wrapper

open FaultMachine OneAtATime
open Function (update)
open TxnRouter (eventsOf)

namespace ClosedSystem

/-! ## The histories of a socket -/

/-- The transactions whose BEGIN_REQ has left by socket `s`, newest first. -/
def begun (s : ℕ) (l : List Obs) : List Transaction := l.filterMap fun
  | .beginReq k t s' .. => if s' = s then some ⟨k, t⟩ else none
  | _ => none

/-- The transactions whose END_RESP has left by socket `s`, newest first. -/
def ended (s : ℕ) (l : List Obs) : List Transaction := l.filterMap fun
  | .endResp k t s' _ => if s' = s then some ⟨k, t⟩ else none
  | _ => none

/-- The transactions of socket `s` go their way in the order of their requests. Histories are
newest first, so what has come further is at the end of what has come less far. -/
structure InOrder (y : ClosedSystem) (s : ℕ) : Prop where
  executed : OneAtATime.starts (y.routers s).events <:+ begun s y.port.trace
  answered : answers (y.routers s).events <:+ OneAtATime.starts (y.routers s).events
  ended : ended s y.port.trace <:+ answers (y.routers s).events
  two : (begun s y.port.trace).length ≤ (ClosedSystem.ended s y.port.trace).length + 2

/-- The port and the router of socket `s` name the same requests and acknowledgements. -/
structure Agrees (y : ClosedSystem) (s : ℕ) : Prop where
  begun : requests (y.routers s).events = ClosedSystem.begun s y.port.trace
  ended : acks (y.routers s).events = ClosedSystem.ended s y.port.trace

variable {c : Wiring} {y y' : ClosedSystem} {s now : ℕ} {l l' : List Obs}
  {t t' : List (TxnRouter.Obs Transaction)} {r r' : TxnRouter Transaction}

theorem begun_append : begun s (l' ++ l) = begun s l' ++ begun s l := List.filterMap_append

theorem ended_append : ended s (l' ++ l) = ended s l' ++ ended s l := List.filterMap_append

theorem eventsOf_append : eventsOf (t' ++ t) = eventsOf t' ++ eventsOf t := List.filterMap_append

/-- What the port calls at a router, in terms of the port. -/
theorem requests_called (s : ℕ) (l : List Obs) :
    requests (eventsOf (called s l)) = begun s l ∧ acks (eventsOf (called s l)) = ended s l := by
  induction l with
  | nil => exact ⟨rfl, rfl⟩
  | cons o l ih =>
    have hb : begun s (o :: l) = begun s [o] ++ begun s l := (begun_append : begun s ([o] ++ l) = _)
    have he : ended s (o :: l) = ended s [o] ++ ended s l := (ended_append : ended s ([o] ++ l) = _)
    rw [called_cons, eventsOf_append, requests, acks, List.filterMap_append, List.filterMap_append,
      hb, he]
    refine ⟨congrArg₂ _ ?_ ih.1, congrArg₂ _ ?_ ih.2⟩
    · cases o with
      | beginReq k p s' a d r => by_cases h : s' = s <;> simp [calledAt, begun, eventsOf,
          TxnRouter.Obs.event, h]
      | endResp k p s' a => by_cases h : s' = s <;> simp [calledAt, begun, eventsOf,
          TxnRouter.Obs.event, h]
      | _ => rfl
    · cases o with
      | beginReq k p s' a d r => by_cases h : s' = s <;> simp [calledAt, ended, eventsOf,
          TxnRouter.Obs.event, h]
      | endResp k p s' a => by_cases h : s' = s <;> simp [calledAt, ended, eventsOf,
          TxnRouter.Obs.event, h]
      | _ => rfl

/-- What a router calls at the port is no request and no acknowledgement. -/
theorem begun_shown (now : ℕ) (t : List (TxnRouter.Obs Transaction)) :
    begun s (shown now t) = [] ∧ ended s (shown now t) = [] := by
  refine ⟨List.filterMap_eq_nil_iff.2 fun o ho => ?_, List.filterMap_eq_nil_iff.2 fun o ho => ?_⟩
  all_goals
    obtain ⟨o', -, ho⟩ := List.mem_filterMap.1 ho
    cases o' <;> cases ho <;> rfl

/-- A callback of a router is no call of the port. -/
theorem requests_of_reacts (h : r.Reacts r') :
    requests r'.events = requests r.events ∧ acks r'.events = acks r.events := by
  unfold TxnRouter.events
  cases h with
  | take x _ ht => rw [ht]; exact ⟨rfl, rfl⟩
  | grant x _ ht => rw [ht]; exact ⟨rfl, rfl⟩
  | close x ht => rw [ht]; exact ⟨rfl, rfl⟩
  | closeGrant x z _ ht => rw [ht]; exact ⟨rfl, rfl⟩
  | start x ht => rw [ht]; exact ⟨rfl, rfl⟩
  | answer x status status' ht => rw [ht]; exact ⟨rfl, rfl⟩

/-! ## Steps -/

theorem step_agrees (h : Steps c y y') (hi : ∀ s, y.Agrees s) (s : ℕ) : y'.Agrees s := by
  obtain ⟨hreq, hack⟩ := hi s
  cases h with
  | port a l _ _ _ ht hf =>
    have hc := forwards_called hf s
    obtain ⟨hb, he⟩ := requests_called s l
    have hev := hc.events_eq
    constructor
    · rw [hev, requests, List.filterMap_append, ht, begun_append]
      exact congrArg₂ _ hb hreq
    · rw [hev, acks, List.filterMap_append, ht, ended_append]
      exact congrArg₂ _ he hack
  | router s' a l r _ _ hreact _ hb hR =>
    obtain ⟨hb', he'⟩ := begun_shown (s := s) y.port.now l
    obtain ⟨hreq', hack'⟩ := requests_of_reacts hreact
    have hsame : requests (y'.routers s).events = requests (y.routers s).events ∧
        acks (y'.routers s).events = acks (y.routers s).events := by
      rw [hR]
      by_cases hs : s = s'
      · rw [hs, Function.update_self]
        exact ⟨hreq', hack'⟩
      · rw [Function.update_of_ne hs]
        exact ⟨rfl, rfl⟩
    have htr := (backwards_shown hb).trace
    constructor
    · rw [hsame.1, htr, begun_append, hb']
      exact hreq
    · rw [hsame.2, htr, ended_append, he']
      exact hack

theorem agrees_start {q : SCSlavePort} {R : ℕ → TxnRouter Transaction} (hR : New R) (s : ℕ) :
    (start q R).Agrees s := by
  obtain ⟨_, _, _, _, hs⟩ := hR s
  have hev : ((start q R).routers s).events = [] := by
    show (R s).events = []
    rw [hs]
    rfl
  constructor <;> rw [hev] <;> rfl

/-- The protocol of a router keeps its requests in order. -/
theorem Ok.inOrder (h : Ok c y) (ha : y.Agrees s) : y.InOrder s := by
  obtain ⟨w, st, hi⟩ := (h.joint.settled s).protocol
  have hserves := hi.front.serves
  have hrefused := (h.joint.settled s).not_refused
  refine ⟨?_, ?_, ?_, ?_⟩
  · rw [← ha.begun]
    exact hserves.starts_suffix.trans hserves.grants_suffix
  · exact hserves.answers_suffix.trans hserves.finishes_suffix
  · rw [← ha.ended]
    exact hserves.acks_suffix hrefused
  · rw [← ha.begun, ← ha.ended, hserves.acks_eq hrefused, List.length_append]
    have hle := hserves.length_requests_le
    omega

/-! ## Runs -/

variable {q : SCSlavePort} {R : ℕ → TxnRouter Transaction}

theorem agrees_of_run (hq : q.Bound) (hcache : q.usingGem5Cache = false)
    (hknown : (World.start q).sockets ≤ q.helper.socketNum) (hR : New R)
    (h : Run step Obeyed (start q R) y) (s : ℕ) : y.Agrees s :=
  invariant_of_run (I := fun y => ∀ s, y.Agrees s) hq hcache hknown hR h (agrees_start hR)
    (fun _ _ _ _ _ hi hs => step_agrees hs hi) s

/-- **Each socket is first in, first out**, from the port to its memory and back. -/
theorem inOrder_of_run (hq : q.Bound) (hcache : q.usingGem5Cache = false)
    (hknown : (World.start q).sockets ≤ q.helper.socketNum) (hR : New R)
    (h : Run step Obeyed (start q R) y) (s : ℕ) : y.InOrder s :=
  (ok_of_run hq hcache hknown hR h).inOrder (agrees_of_run hq hcache hknown hR h s)

/-- Two reads of one socket: the second is accepted while the memory works on the first. -/
theorem inOrder_twoReads : ∃ y : ClosedSystem, begun 0 y.port.trace = [⟨1, 1⟩, ⟨0, 0⟩] ∧
    ended 0 y.port.trace = [⟨0, 0⟩] ∧ ∀ s, y.InOrder s := by
  have hexec : (exec step Obeyed (start twoSocketPort smallRouters)
      [.recvTimingReq (readRequest 0), .peqCb 0 0, .advance 10000, .service {},
        .recvTimingReq (readRequest 1), .peqCb 0 0, .advance 15000, .targetDone 0,
        .memoryDone 0 .ok, .advance 10000, .service {}]).map (fun y =>
          decide (begun 0 y.port.trace = [⟨1, 1⟩, ⟨0, 0⟩] ∧ ended 0 y.port.trace = [⟨0, 0⟩])) =
            some true := by decide
  obtain ⟨y, hr, hy⟩ := exists_run_of_exec hexec
  obtain ⟨h₁, h₂⟩ := of_decide_eq_true hy
  exact ⟨y, h₁, h₂, inOrder_of_run bound_twoSocketPort rfl (by decide)
    (fun _ => ⟨_, _, _, _, rfl⟩) hr⟩

end ClosedSystem

end Gem5Wrapper
