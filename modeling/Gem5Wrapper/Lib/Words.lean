import Mathlib.Data.List.Infix
import Mathlib.Tactic.Common

/-!
# Words read from a stream

`std::getline` with a separator `d` reads up to the next `d`, and fails only when nothing is left
in the stream. `tokens d s` are the results of calling it until it fails. They are the parts
between the separators, except that nothing follows a separator at the very end.

`words d s` are the non-empty parts. The tokens are the words exactly when `s` neither begins with
a separator nor has two in a row (`nil_mem_tokens_iff`).
-/

variable {α : Type*} [DecidableEq α] {d c : α} {s w t : List α}

/-- The characters up to the next separator, and what is left after it. -/
def readWord (d : α) : List α → List α × List α
  | [] => ([], [])
  | c :: s => if c = d then ([], s) else (c :: (readWord d s).1, (readWord d s).2)

/-- What `getline` reads, and what is left then. -/
def getline (d : α) : List α → Option (List α × List α)
  | [] => none
  | s => some (readWord d s)

theorem getline_eq_none_iff : getline d s = none ↔ s = [] := by cases s <;> simp [getline]

theorem readWord_spec (d : α) (s : List α) : d ∉ (readWord d s).1 ∧
    (s = (readWord d s).1 ++ d :: (readWord d s).2 ∨
      s = (readWord d s).1 ∧ (readWord d s).2 = []) := by
  induction s with
  | nil => simp [readWord]
  | cons c s ih =>
    obtain ⟨hd, h⟩ := ih
    by_cases hc : c = d
    · simp [readWord, hc]
    · simp only [readWord, if_neg hc]
      refine ⟨List.not_mem_cons_of_ne_of_not_mem (Ne.symm hc) hd, ?_⟩
      rcases h with h | ⟨h, ht⟩
      · exact .inl (congrArg (c :: ·) h)
      · exact .inr ⟨congrArg (c :: ·) h, ht⟩

/-- A token is followed by a separator, or by nothing if it is not empty. -/
theorem getline_spec (h : getline d s = some (w, t)) :
    d ∉ w ∧ (s = w ++ d :: t ∨ s = w ∧ w ≠ [] ∧ t = []) := by
  have hs : s ≠ [] := fun hs => by rw [getline_eq_none_iff.2 hs] at h; cases h
  have hr : readWord d s = (w, t) := by
    cases s with
    | nil => exact absurd rfl hs
    | cons c s => exact Option.some.inj h
  have hspec := readWord_spec d s
  rw [hr] at hspec
  obtain ⟨hd, hst | ⟨hst, ht⟩⟩ := hspec
  · exact ⟨hd, .inl hst⟩
  · exact ⟨hd, .inr ⟨hst, fun hw => hs (hst.trans hw), ht⟩⟩

theorem getline_length (h : getline d s = some (w, t)) : t.length < s.length := by
  obtain ⟨-, rfl | ⟨rfl, hw, rfl⟩⟩ := getline_spec h
  · simp only [List.length_append, List.length_cons]
    omega
  · exact List.length_pos_iff.2 hw

/-- The results of `getline`, until it fails. -/
def tokens (d : α) (s : List α) : List (List α) :=
  match _h : getline d s with
  | none => []
  | some (w, t) => w :: tokens d t
termination_by s.length
decreasing_by exact getline_length _h

/-- The non-empty parts between separators. -/
def words (d : α) (s : List α) : List (List α) := (s.splitOn d).filter (· ≠ [])

@[simp] theorem tokens_nil : tokens d [] = [] := by rw [tokens]; rfl

theorem tokens_of_getline (h : getline d s = some (w, t)) : tokens d s = w :: tokens d t := by
  rw [tokens]
  split
  · next h' => rw [h'] at h; cases h
  · next w' t' h' => rw [h'] at h; cases h; rfl

/-- Induction along the reads of a stream. -/
theorem tokens_induction {P : List α → Prop} (nil : P [])
    (cons : ∀ s w t, getline d s = some (w, t) → P t → P s) (s : List α) : P s := by
  induction hn : s.length using Nat.strongRecOn generalizing s with
  | ind n ih =>
    cases h : getline d s with
    | none => rw [getline_eq_none_iff.1 h]; exact nil
    | some r => exact cons s r.1 r.2 h (ih _ (hn ▸ getline_length h) _ rfl)

theorem splitOn_word (hd : d ∉ w) (t : List α) : (w ++ d :: t).splitOn d = w :: t.splitOn d := by
  rw [List.splitOn_append_cons_of_beq w t (beq_self_eq_true d), List.splitOn_eq_singleton hd]
  rfl

/-- The tokens that are not empty are the words. -/
theorem filter_tokens (s : List α) : (tokens d s).filter (· ≠ []) = words d s := by
  induction s using tokens_induction (d := d) with
  | nil => simp [words]
  | cons s w t h ih =>
    rw [tokens_of_getline h]
    obtain ⟨hd, rfl | ⟨rfl, hw, rfl⟩⟩ := getline_spec h
    · rw [words, splitOn_word hd, List.filter_cons, List.filter_cons, ih]
      rfl
    · simp [words, List.splitOn_eq_singleton hd, hw]

theorem tokens_eq_words (h : [] ∉ tokens d s) : tokens d s = words d s := by
  have hne : ∀ w ∈ tokens d s, decide (w ≠ []) = true := fun w hw =>
    decide_eq_true fun hn => h (hn ▸ hw)
  rw [← filter_tokens, List.filter_eq_self.2 hne]

omit [DecidableEq α] in
theorem pair_infix_append (hd : d ∉ w) :
    [d, d] <:+: w ++ d :: t ↔ [d] <+: t ∨ [d, d] <:+: t := by
  induction w with
  | nil => simp [List.infix_cons_iff]
  | cons a w ih =>
    obtain ⟨ha, hw⟩ := not_or.1 fun h => hd (List.mem_cons.2 h)
    rw [List.cons_append, List.infix_cons_iff, List.cons_prefix_cons, ← ih hw]
    simp [ha]

/-- An empty token comes from a separator at the start, or from two in a row. -/
theorem nil_mem_tokens_iff : [] ∈ tokens d s ↔ [d] <+: s ∨ [d, d] <:+: s := by
  induction s using tokens_induction (d := d) with
  | nil => simp
  | cons s w t h ih =>
    rw [tokens_of_getline h, List.mem_cons, ih]
    obtain ⟨hd, rfl | ⟨rfl, hw, rfl⟩⟩ := getline_spec h
    · cases w with
      | nil => simp
      | cons a w =>
        have ha : ¬ d = a := fun h => hd (h ▸ List.mem_cons_self)
        have hpre : ¬ [d] <+: a :: w ++ d :: t := by simpa using ha
        rw [or_iff_right hpre, or_iff_right (List.cons_ne_nil a w).symm, pair_infix_append hd]
    · have hpre : ¬ [d] <+: s := fun h => hd (h.subset List.mem_cons_self)
      have hinf : ¬ [d, d] <:+: s := fun h => hd (h.subset List.mem_cons_self)
      simp [hpre, hinf, hw.symm]

/-- The characters of the tokens are those of the stream. -/
theorem mem_of_mem_tokens {a : α} (hw : w ∈ tokens d s) (ha : a ∈ w) : a ∈ s := by
  induction s using tokens_induction (d := d) with
  | nil => simp at hw
  | cons s v t h ih =>
    rw [tokens_of_getline h, List.mem_cons] at hw
    obtain ⟨-, rfl | ⟨rfl, -, rfl⟩⟩ := getline_spec h
    · rcases hw with rfl | hw
      · exact List.mem_append_left _ ha
      · exact List.mem_append_right _ (List.mem_cons_of_mem _ (ih hw))
    · rcases hw with rfl | hw
      · exact ha
      · simp at hw

theorem exists_token_of_mem {a : α} (ha : a ∈ s) (hd : a ≠ d) : ∃ w ∈ tokens d s, a ∈ w := by
  induction s using tokens_induction (d := d) with
  | nil => simp at ha
  | cons s v t h ih =>
    rw [tokens_of_getline h]
    obtain ⟨-, rfl | ⟨rfl, -, rfl⟩⟩ := getline_spec h
    · rcases List.mem_append.1 ha with ha | ha
      · exact ⟨v, List.mem_cons_self, ha⟩
      · obtain ⟨w, hw, ha⟩ := ih ((List.mem_cons.1 ha).resolve_left hd)
        exact ⟨w, List.mem_cons_of_mem _ hw, ha⟩
    · exact ⟨s, List.mem_cons_self, ha⟩
