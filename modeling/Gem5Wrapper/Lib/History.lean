import Mathlib.Data.List.Basic
import Mathlib.Tactic.Common

/-!
# Histories

A history is the list of what has happened, newest first. `Along Q l` says that everything in it
happened in accordance with its past: `Q a l'` for each entry `a` with the history `l'` before
it. A law of this form is proved where the entries are made, one entry at a time (`along_cons`),
and used for any moment of the history (`Along.of_suffix`).
-/

namespace History

variable {α : Type*} {Q : α → List α → Prop} {a : α} {l l₁ l₂ : List α}

/-- Every entry accords with its past. -/
def Along (Q : α → List α → Prop) : List α → Prop
  | [] => True
  | a :: l => Q a l ∧ Along Q l

@[simp] theorem along_nil : Along Q [] := trivial

@[simp] theorem along_cons : Along Q (a :: l) ↔ Q a l ∧ Along Q l := .rfl

instance instDecidableAlong [∀ a l, Decidable (Q a l)] : (l : List α) → Decidable (Along Q l)
  | [] => .isTrue trivial
  | a :: l => haveI := instDecidableAlong l; inferInstanceAs (Decidable (Q a l ∧ Along Q l))

theorem Along.of_append (h : Along Q (l₁ ++ l₂)) : Along Q l₂ := by
  induction l₁ with
  | nil => exact h
  | cons a l₁ ih => exact ih h.2

theorem Along.of_suffix (h : Along Q l) (hs : l₁ <:+ l) : Along Q l₁ := by
  obtain ⟨l₂, rfl⟩ := hs
  exact h.of_append

theorem Along.of_mem (h : Along Q l) (ha : a ∈ l) : ∃ l', a :: l' <:+ l ∧ Q a l' := by
  obtain ⟨l₂, l', rfl⟩ := List.append_of_mem ha
  exact ⟨l', ⟨l₂, rfl⟩, h.of_append.1⟩

theorem Along.mono_of_suffix {Q' : α → List α → Prop} (h : Along Q l)
    (hQ : ∀ a l', a :: l' <:+ l → Q a l' → Q' a l') : Along Q' l := by
  induction l with
  | nil => trivial
  | cons a l ih =>
    refine ⟨hQ a l List.suffix_rfl h.1, ih h.2 fun b l' hs => ?_⟩
    exact hQ b l' (hs.trans (List.suffix_cons ..))

/-- What never happens after itself happens at most once. -/
theorem Along.countP_le_one {p : α → Bool} (h : Along Q l)
    (hQ : ∀ a l, p a = true → Q a l → ∀ b ∈ l, p b = false) : l.countP p ≤ 1 := by
  induction l with
  | nil => simp
  | cons a l ih =>
    rw [List.countP_cons]
    split_ifs with ha
    · have : l.countP p = 0 := List.countP_eq_zero.2 fun b hb => by simp [hQ a l ha h.1 b hb]
      omega
    · exact ih h.2

/-! ## Since an entry -/

section Since

variable {P P' : List α → Prop} {b : α}

/-- Entry `a` has been made, and `P` holds of what has happened since then. -/
def Since (a : α) (P : List α → Prop) (l : List α) : Prop := ∃ new old, l = new ++ a :: old ∧ P new

theorem since_self (h : P []) : Since a P (a :: l) := ⟨[], l, rfl, h⟩

theorem Since.append (h : Since a P l) (hP : ∀ new, P new → P' (l₁ ++ new)) :
    Since a P' (l₁ ++ l) := by
  obtain ⟨new, old, rfl, hnew⟩ := h
  exact ⟨l₁ ++ new, old, (List.append_assoc _ _ _).symm, hP new hnew⟩

theorem Since.cons (h : Since a P l) (hP : ∀ new, P new → P' (b :: new)) :
    Since a P' (b :: l) := by
  show Since a P' ([b] ++ l)
  exact h.append hP

end Since

/-! ## Events and their numbers -/

section Collect

variable {β : Type*} {f : α → List α → Option β} {b : β}

/-- What the entries mean, each in the light of its past, newest first. -/
def collect (f : α → List α → Option β) : List α → List β
  | [] => []
  | a :: l => (f a l).toList ++ collect f l

@[simp] theorem collect_nil : collect f [] = [] := rfl

theorem collect_cons_none (h : f a l = none) : collect f (a :: l) = collect f l := by
  simp [collect, h]

theorem collect_cons_some (h : f a l = some b) : collect f (a :: l) = b :: collect f l := by
  simp [collect, h]

end Collect

section Rank

variable [DecidableEq α] {b : α} {n : ℕ}

/-- The number of an entry: how many entries are older than its last occurrence. -/
def rank (a : α) : List α → Option ℕ
  | [] => none
  | b :: l => if b = a then some l.length else rank a l

@[simp] theorem rank_cons_self : rank a (a :: l) = some l.length := if_pos rfl

theorem rank_cons_of_ne (h : b ≠ a) : rank a (b :: l) = rank a l := if_neg h

theorem rank_eq_none_iff : rank a l = none ↔ a ∉ l := by
  induction l with
  | nil => simp [rank]
  | cons b l ih =>
    by_cases h : b = a
    · simp [h]
    · rw [rank_cons_of_ne h, ih, List.mem_cons, not_or, and_iff_right (Ne.symm h)]

theorem exists_rank_of_mem (h : a ∈ l) : ∃ n, rank a l = some n :=
  Option.ne_none_iff_exists'.1 fun hn => rank_eq_none_iff.1 hn h

theorem rank_lt (h : rank a l = some n) : n < l.length := by
  induction l with
  | nil => cases h
  | cons b l ih =>
    by_cases hb : b = a
    · subst hb
      rw [rank_cons_self, Option.some.injEq] at h
      exact h ▸ Nat.lt_succ_self _
    · exact Nat.lt_succ_of_lt (ih (rank_cons_of_ne hb ▸ h))

/-- No two entries have one number. -/
theorem rank_inj (ha : rank a l = some n) (hb : rank b l = some n) : a = b := by
  induction l with
  | nil => cases ha
  | cons c l ih =>
    by_cases hca : c = a <;> by_cases hcb : c = b
    · exact hca.symm.trans hcb
    · subst hca
      rw [rank_cons_self, Option.some.injEq] at ha
      exact absurd (rank_lt (rank_cons_of_ne hcb ▸ hb)) (ha ▸ Nat.lt_irrefl _)
    · subst hcb
      rw [rank_cons_self, Option.some.injEq] at hb
      exact absurd (rank_lt (rank_cons_of_ne hca ▸ ha)) (hb ▸ Nat.lt_irrefl _)
    · exact ih (rank_cons_of_ne hca ▸ ha) (rank_cons_of_ne hcb ▸ hb)

end Rank

end History
