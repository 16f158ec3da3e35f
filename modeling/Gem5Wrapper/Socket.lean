import Mathlib.Data.List.Perm.Basic
import Gem5Wrapper.Tlm

/-!
# A target with a payload event queue

What the router and the master port share: the initiator at their target socket and their payload
event queue.

Transactions are named by values of `α`, and each has its payload. What the initiator does
arrives as `Call`s of `nb_transport_fw`; to each call of `nb_transport_bw` it gives an `Answer`,
which may hold further calls made before it returns. `peq_with_cb_and_phase` runs the callbacks
of one time in some order, none of them inside `notify`.
-/

namespace Gem5Wrapper

/-- A scheduled callback of the payload event queue. -/
structure PeqEvent (α : Type) where
  txn : α
  phase : Phase
  due : ℕ
  deriving DecidableEq, Repr

/-- A call of `nb_transport_fw` by the initiator. -/
structure Call (α : Type) where
  txn : α
  phase : Phase
  delay : ℕ
  deriving DecidableEq, Repr

/-- What the initiator does when `nb_transport_bw` is called: the calls it makes, and its reply. -/
structure Answer (α : Type) where
  calls : List (Call α) := []
  reply : Reply
  deriving DecidableEq, Repr

/-! ## The queue -/

namespace PeqEvent

variable {α : Type} {x : α}

/-- The transactions with a queued callback for phase `ph`. -/
def queued (q : List (PeqEvent α)) (ph : Phase) : List α :=
  (q.filter fun e => e.phase = ph).map PeqEvent.txn

/-- Taking an event out of the queue. -/
theorem queued_eraseIdx {q : List (PeqEvent α)} {i : ℕ} {e : PeqEvent α} (h : q[i]? = some e)
    (ph : Phase) :
    (queued q ph).Perm ((if e.phase = ph then [e.txn] else []) ++ queued (q.eraseIdx i) ph) := by
  obtain ⟨hi, rfl⟩ := List.getElem?_eq_some_iff.1 h
  have hp := ((List.getElem_cons_eraseIdx_perm hi).symm.filter fun e => e.phase = ph).map
    PeqEvent.txn
  by_cases he : q[i].phase = ph
  · simpa [queued, he, List.filter_cons] using hp
  · simpa [queued, he, List.filter_cons] using hp

theorem eq_of_perm {l l' : List α} (h : l.Perm l') (hl : l.length ≤ 1) : l' = l := by
  match l, hl with
  | [], _ => exact List.perm_nil.1 h.symm
  | [x], _ => exact List.perm_singleton.1 h.symm

theorem length_toList_le (w : Option α) : w.toList.length ≤ 1 := by cases w <;> simp

/-- The event that was taken out was the waiting request. -/
theorem eq_of_perm_cons {l l' : List α} {p w : Option α} (hp : l.Perm (x :: l'))
    (h : l ++ p.toList = w.toList) : l' = [] ∧ p = none ∧ w = some x := by
  have hw : w.toList.Perm (x :: (l' ++ p.toList)) := h ▸ hp.append_right p.toList
  have hw := eq_of_perm hw (length_toList_le w)
  cases w with
  | none => cases hw
  | some y =>
    simp only [Option.toList_some, List.cons.injEq, List.append_eq_nil_iff,
      Option.toList_eq_nil_iff] at hw
    exact ⟨hw.2.1, hw.2.2, by rw [hw.1]⟩

end PeqEvent

end Gem5Wrapper
