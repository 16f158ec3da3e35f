import Mathlib.Data.List.TakeWhile
import Gem5Wrapper.Lib.Words

/-!
# Parsing the debug flags

The loop of the `Gem5SimControl` constructor that reads `gem5DebugFlags`: flags separated by
spaces, with a `-` before those to be cleared.

`called` is what each word asks for. `parseDebugFlags_eq_iff` says for which strings the loop makes
just these calls: it reads the first character of each token, and a token may be empty.
-/

namespace Gem5Wrapper

/-! ## The source -/

/-- A call of `gem5::clearDebugFlag` or `gem5::setDebugFlag`. -/
inductive FlagCall
  | clearDebugFlag (flag : List Char)
  | setDebugFlag (flag : List Char)
  deriving DecidableEq, Repr

/-- The calls that the loop makes, and whether `std::out_of_range` ends it. -/
structure FlagCalls where
  calls : List FlagCall
  outOfRange : Bool
  deriving DecidableEq, Repr

/-- The null character. -/
def nul : Char := Char.ofNat 0

/-- What a callee reads of `c_str()`. -/
def cStr (s : List Char) : List Char := s.takeWhile (· ≠ nul)

/-- The body of the loop. `flag.at(0)` throws if there is no first character. -/
def handleFlag : List Char → Option FlagCall
  | [] => none
  | c :: flag =>
    if c = '-' then some (.clearDebugFlag (cStr flag)) -- remove the '-'
    else some (.setDebugFlag (cStr (c :: flag)))

/-- The loop over the flags in the stream. -/
def parseDebugFlags (s : List Char) : FlagCalls :=
  match _h : getline ' ' s with
  | none => ⟨[], false⟩
  | some (flag, rest) =>
    match handleFlag flag with
    | none => ⟨[], true⟩
    | some call => ⟨call :: (parseDebugFlags rest).calls, (parseDebugFlags rest).outOfRange⟩
termination_by s.length
decreasing_by all_goals exact getline_length _h

/-! ## What the words ask for -/

/-- A flag is set, and a flag with a `-` before it is cleared. -/
def called : List Char → FlagCall
  | '-' :: flag => .clearDebugFlag flag
  | flag => .setDebugFlag flag

/-- The loop over a list of tokens. -/
def handleFlags : List (List Char) → FlagCalls
  | [] => ⟨[], false⟩
  | flag :: flags =>
    match handleFlag flag with
    | none => ⟨[], true⟩
    | some call => ⟨call :: (handleFlags flags).calls, (handleFlags flags).outOfRange⟩

variable {s w : List Char} {l : List (List Char)}

theorem parseDebugFlags_eq (s : List Char) : parseDebugFlags s = handleFlags (tokens ' ' s) := by
  induction s using tokens_induction (d := ' ') with
  | nil => rw [parseDebugFlags]; simp [getline, handleFlags]
  | cons s w t h ih =>
    rw [parseDebugFlags, tokens_of_getline h, handleFlags]
    split
    · next h' => rw [h'] at h; cases h
    · next w' t' h' =>
      rw [h'] at h
      cases h
      rw [ih]

theorem handleFlag_eq_none_iff : handleFlag w = none ↔ w = [] := by
  cases w with
  | nil => simp [handleFlag]
  | cons c w => simp only [handleFlag]; split_ifs <;> simp

theorem outOfRange_iff : (handleFlags l).outOfRange = true ↔ [] ∈ l := by
  induction l with
  | nil => simp [handleFlags]
  | cons w l ih =>
    unfold handleFlags
    cases h : handleFlag w with
    | none => simp [handleFlag_eq_none_iff.1 h]
    | some call =>
      have hw : w ≠ [] := fun hw => by rw [handleFlag_eq_none_iff.2 hw] at h; cases h
      simp [ih, hw.symm]

theorem cStr_eq_self_iff : cStr w = w ↔ nul ∉ w := by
  rw [cStr, List.takeWhile_eq_self_iff]
  simp only [decide_eq_true_eq]
  exact ⟨fun h hn => h _ hn rfl, fun h a ha hn => h (hn ▸ ha)⟩

/-- The body of the loop does what the word asks for, if no character hides the rest. -/
theorem handleFlag_eq_called_iff (hw : w ≠ []) : handleFlag w = some (called w) ↔ nul ∉ w := by
  cases w with
  | nil => exact absurd rfl hw
  | cons c w =>
    by_cases hc : c = '-'
    · subst hc
      have hne : nul ≠ '-' := by decide
      simp [handleFlag, called, cStr_eq_self_iff, hne]
    · have hcalled : called (c :: w) = .setDebugFlag (c :: w) := by
        unfold called
        split
        · next h => exact absurd (List.cons.inj h).1 hc
        · rfl
      simp only [handleFlag, if_neg hc, hcalled, Option.some.injEq, FlagCall.setDebugFlag.injEq,
        cStr_eq_self_iff]

theorem handleFlags_eq_iff :
    handleFlags l = ⟨l.map called, false⟩ ↔ ∀ w ∈ l, w ≠ [] ∧ nul ∉ w := by
  induction l with
  | nil => simp [handleFlags]
  | cons w l ih =>
    rw [List.forall_mem_cons, ← ih, handleFlags]
    cases h : handleFlag w with
    | none => simp [handleFlag_eq_none_iff.1 h]
    | some call =>
      have hw : w ≠ [] := fun hw => by rw [handleFlag_eq_none_iff.2 hw] at h; cases h
      rw [← handleFlag_eq_called_iff hw, h]
      simp only [FlagCalls.mk.injEq, List.map_cons, List.cons.injEq, Option.some.injEq, hw, ne_eq,
        not_false_eq_true, true_and]
      constructor
      · rintro ⟨⟨h₁, h₂⟩, h₃⟩
        exact ⟨h₁, by rw [← h₂, ← h₃]⟩
      · rintro ⟨h₁, h₂⟩
        exact ⟨⟨h₁, by rw [h₂]⟩, by rw [h₂]⟩

/-- The loop makes the calls that the words of the string ask for exactly when the string does not
begin with a space, has no two spaces in a row, and has no null character. -/
theorem parseDebugFlags_eq_iff (s : List Char) :
    parseDebugFlags s = ⟨(words ' ' s).map called, false⟩ ↔
      ¬ [' '] <+: s ∧ ¬ [' ', ' '] <:+: s ∧ nul ∉ s := by
  rw [parseDebugFlags_eq, ← and_assoc, ← not_or, ← nil_mem_tokens_iff]
  constructor
  · intro h
    have hnil : [] ∉ tokens ' ' s := fun hn => by
      have := outOfRange_iff.2 hn
      rw [h] at this
      cases this
    rw [← tokens_eq_words hnil, handleFlags_eq_iff] at h
    refine ⟨hnil, fun hn => ?_⟩
    obtain ⟨w, hw, hn⟩ := exists_token_of_mem (d := ' ') hn (by decide)
    exact (h w hw).2 hn
  · rintro ⟨hnil, hn⟩
    rw [← tokens_eq_words hnil, handleFlags_eq_iff]
    exact fun w hw => ⟨fun h => hnil (h ▸ hw), fun h => hn (mem_of_mem_tokens hw h)⟩

/-- Two spaces between two flags end the loop with an exception. -/
theorem not_parseDebugFlags_eq :
    ¬ ∀ s, parseDebugFlags s = ⟨(words ' ' s).map called, false⟩ := by
  intro h
  have hthrow : (handleFlags (tokens ' ' ['A', ' ', ' ', 'B'])).outOfRange = true :=
    outOfRange_iff.2 (nil_mem_tokens_iff.2 (.inr (by decide)))
  rw [← parseDebugFlags_eq, h] at hthrow
  cases hthrow

end Gem5Wrapper
