import Mathlib.Logic.Function.Basic
import Mathlib.Data.Nat.Notation
import Mathlib.Tactic.Common

/-!
# A stack in layers

Something travels through levels with a stack on its back. Whoever takes it from level `k` to
level `k + 1` pushes a label. At a level, its inhabitants push and pop entries of their own, and
they keep to one rule: they pop no more than they have pushed. `pushed k` is how many of the
entries that they have pushed are not popped again.

`Layers home Label pushed k l` says that `l` is the stack of something that is at level `k` and
comes from level `home`: for each level above `home`, the entries of its inhabitants on top of the
label with which it was entered. A label may depend on what lay below it. So the inhabitants pop no
label (`Layers.pop`), and when a level has nothing left on the stack, the top is the label with
which the level was entered, and below it is the stack that was there then (`Layers.leave`).
-/

variable {α : Type*}

inductive Layers (home : ℕ) (Label : ℕ → α → List α → Prop) (pushed : ℕ → ℕ) :
    ℕ → List α → Prop
  | base (l : List α) : Layers home Label pushed home l
  | above {k : ℕ} {l own : List α} {a : α} : Layers home Label pushed k l → Label k a l →
      own.length = pushed (k + 1) → Layers home Label pushed (k + 1) (own ++ a :: l)

namespace Layers

variable {home k : ℕ} {Label Label' : ℕ → α → List α → Prop} {pushed pushed' : ℕ → ℕ}
  {l : List α} {a s : α}

theorem le (h : Layers home Label pushed k l) : home ≤ k := by
  induction h with
  | base => exact Nat.le_refl _
  | above _ _ _ ih => exact Nat.le_succ_of_le ih

/-- What the labels and the counts of the levels up to `k` are, matters only. -/
theorem mono (h : Layers home Label pushed k l)
    (hl : ∀ j a l, j < k → Label j a l → Label' j a l) (hp : ∀ j ≤ k, pushed' j = pushed j) :
    Layers home Label' pushed' k l := by
  induction h with
  | base => exact .base _
  | @above k l own a _ hlabel hn ih =>
    apply Layers.above
    · exact ih (fun j a l hj => hl j a l (Nat.lt_succ_of_lt hj))
        fun j hj => hp j (Nat.le_succ_of_le hj)
    · exact hl k a l (Nat.lt_succ_self k) hlabel
    · exact hn.trans (hp (k + 1) (Nat.le_refl _)).symm

theorem push (h : Layers home Label pushed k l) (s : α) :
    Layers home Label (Function.update pushed k (pushed k + 1)) k (s :: l) := by
  cases h with
  | base => exact .base _
  | @above k l own a h hl hn =>
    show Layers home Label _ (k + 1) ((s :: own) ++ a :: l)
    apply Layers.above _ hl
    · simp [hn]
    · refine h.mono (fun _ _ _ _ => id) fun j hj => ?_
      exact Function.update_of_ne (by omega) _ _

/-- What is popped at a level has been pushed there. -/
theorem pop (h : Layers home Label pushed k (s :: l)) (hp : home = k ∨ 0 < pushed k) :
    Layers home Label (Function.update pushed k (pushed k - 1)) k l := by
  generalize hs : s :: l = l' at h
  cases h with
  | base => exact .base _
  | @above k l' own a h hl hn =>
    have hpos : 0 < pushed (k + 1) := hp.resolve_left fun he => by have := h.le; omega
    cases own with
    | nil => exact absurd hn (Nat.ne_of_lt hpos)
    | cons s' own =>
      obtain ⟨-, rfl⟩ := List.cons.inj hs
      apply Layers.above _ hl
      · rw [List.length_cons] at hn
        rw [Function.update_self, ← hn, Nat.add_sub_cancel]
      · refine h.mono (fun _ _ _ _ => id) fun j hj => ?_
        exact Function.update_of_ne (by omega) _ _

/-- When a level has nothing left on the stack, the label with which it was entered is on top. -/
theorem leave (h : Layers home Label pushed (k + 1) l) (hk : home ≠ k + 1)
    (hp : pushed (k + 1) = 0) :
    ∃ a l', l = a :: l' ∧ Layers home Label pushed k l' ∧ Label k a l' := by
  cases h with
  | base => exact absurd rfl hk
  | @above _ l own a h hl hn =>
    obtain rfl : own = [] := List.eq_nil_of_length_eq_zero (hn.trans hp)
    exact ⟨a, l, rfl, h, hl⟩

theorem enter (h : Layers home Label pushed k l) (hl : Label k a l) :
    Layers home Label (Function.update pushed (k + 1) 0) (k + 1) (a :: l) := by
  show Layers home Label _ (k + 1) ([] ++ a :: l)
  apply Layers.above _ hl
  · simp
  · refine h.mono (fun _ _ _ _ => id) fun j hj => ?_
    exact Function.update_of_ne (by omega) _ _

end Layers
