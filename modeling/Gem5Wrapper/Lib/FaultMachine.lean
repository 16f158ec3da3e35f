import Mathlib.Data.List.Basic
import Mathlib.Logic.Relation
import Mathlib.Tactic.Common

/-!
# Machines that may fault

A step function `step : σ → ι → Except ε σ` reads one input and gives the next state or a
fault. `Run step ok s u` says that `u` is reached from `s` by inputs that the environment may
give (`ok`) and that do not fault.

An invariant is proved once per step and holds along every run (`Run.invariant`). For concrete
runs, `exec` follows a list of inputs and checks `ok` on the way, so a run can be evaluated.
-/

namespace FaultMachine

universe u v

variable {σ ι : Type v} {ε : Type u} {α β : Type v}

/-! ## Results that may fault -/

/-- Go on if `p` holds, stop with the fault `f` otherwise. -/
def check (p : Prop) [Decidable p] (f : ε) : Except ε PUnit.{v + 1} :=
  if p then .ok ⟨⟩ else .error f

@[simp] theorem check_eq_ok {p : Prop} [Decidable p] {f : ε} {u : PUnit} :
    check p f = .ok u ↔ p := by
  unfold check; split_ifs with h <;> simp [h]

@[simp] theorem check_eq_error {p : Prop} [Decidable p] {f g : ε} :
    check p f = .error g ↔ ¬ p ∧ g = f := by
  unfold check; split_ifs with h <;> simp [h, eq_comm]

theorem check_pos {p : Prop} [Decidable p] {f : ε} (h : p) : check p f = .ok ⟨⟩ := if_pos h

/-- A sequence succeeds when its parts do. -/
@[simp] theorem bind_eq_ok {x : Except ε α} {f : α → Except ε β} {b : β} :
    (x >>= f) = .ok b ↔ ∃ a, x = .ok a ∧ f a = .ok b := by
  cases x <;> simp [bind, Except.bind]

/-- A sequence faults where its first part does, or after it. -/
@[simp] theorem bind_eq_error {x : Except ε α} {f : α → Except ε β} {e : ε} :
    (x >>= f) = .error e ↔ x = .error e ∨ ∃ a, x = .ok a ∧ f a = .error e := by
  cases x <;> simp [bind, Except.bind]

@[simp] theorem ok_bind (a : α) (f : α → Except ε β) : (Except.ok a >>= f) = f a := rfl

@[simp] theorem pure_eq_ok (a : α) : (pure a : Except ε α) = .ok a := rfl

@[simp] theorem throw_eq_error (e : ε) : (throw e : Except ε α) = .error e := rfl

/-! ## What a call leads to -/

/-- A call that returns gives a result with `good`, and one that faults gives a fault with
`bad`. -/
def Ends (good : α → Prop) (bad : ε → Prop) : Except ε α → Prop
  | .ok a => good a
  | .error e => bad e

section Ends

variable {G : α → Prop} {G' : β → Prop} {B : ε → Prop} {x : Except ε α} {a : α} {e : ε}

instance [DecidablePred G] [DecidablePred B] : (x : Except ε α) → Decidable (Ends G B x)
  | .ok a => inferInstanceAs (Decidable (G a))
  | .error e => inferInstanceAs (Decidable (B e))

@[simp] theorem ends_ok : Ends G B (.ok a) ↔ G a := .rfl

@[simp] theorem ends_error : Ends G B (.error e) ↔ B e := .rfl

theorem ends_check {p : Prop} [Decidable p] {G : PUnit → Prop} :
    Ends G B (check p e) ↔ (p → G ⟨⟩) ∧ (¬ p → B e) := by
  unfold check; split_ifs with h <;> simp [h]

theorem Ends.of_eq_ok (h : Ends G B x) (hx : x = .ok a) : G a := by subst hx; exact h

theorem Ends.of_eq_error (h : Ends G B x) (hx : x = .error e) : B e := by
  subst hx; exact h

/-- The rule of sequences: the second call starts where the first one ended. -/
theorem Ends.bind {f : α → Except ε β} (hx : Ends G B x)
    (hf : ∀ a, x = .ok a → G a → Ends G' B (f a)) : Ends G' B (x >>= f) := by
  cases x with
  | ok a => exact hf a rfl hx
  | error e => exact hx

theorem Ends.mono {G' : α → Prop} {B' : ε → Prop} (h : Ends G B x)
    (hg : ∀ a, x = .ok a → G a → G' a) (hb : ∀ e, x = .error e → B e → B' e) :
    Ends G' B' x := by
  cases x with
  | ok a => exact hg a rfl h
  | error e => exact hb e rfl h

/-- The rule of checks: go on if the check holds, fault if not. -/
theorem Ends.check {p : Prop} [Decidable p] {f : PUnit → Except ε β} (hn : ¬ p → B e)
    (hp : p → Ends G' B (f ⟨⟩)) : Ends G' B (FaultMachine.check p e >>= f) := by
  by_cases h : p
  · rw [check_pos h]; exact hp h
  · have : FaultMachine.check p e = .error e := if_neg h
    rw [this]; exact hn h

end Ends

/-! ## Runs -/

/-- `u` is reached from `s` by allowed inputs, none of which faults. -/
inductive Run (step : σ → ι → Except ε σ) (ok : σ → ι → Prop) (s : σ) : σ → Prop
  | refl : Run step ok s s
  | snoc {t u : σ} {i : ι} : Run step ok s t → ok t i → step t i = .ok u → Run step ok s u

variable {step : σ → ι → Except ε σ} {ok ok' : σ → ι → Prop} {s t u : σ}

/-- What holds initially and is preserved by every allowed step holds along every run. -/
theorem Run.invariant {I : σ → Prop} (h : Run step ok s u) (h₀ : I s)
    (hstep : ∀ t i u, I t → ok t i → step t i = .ok u → I u) : I u := by
  induction h with
  | refl => exact h₀
  | snoc _ hok hs ih => exact hstep _ _ _ ih hok hs

/-- An invariant may use another one that is known to hold along the run. -/
theorem Run.invariant_of {J I : σ → Prop} (h : Run step ok s u)
    (hJ : ∀ t, Run step ok s t → J t) (h₀ : I s)
    (hstep : ∀ t i u, J t → I t → ok t i → step t i = .ok u → I u) : I u := by
  induction h with
  | refl => exact h₀
  | snoc hr hok hs ih => exact hstep _ _ _ (hJ _ hr) ih hok hs

theorem Run.mono (h : Run step ok s u) (hok : ∀ t i, ok t i → ok' t i) : Run step ok' s u := by
  induction h with
  | refl => exact .refl
  | snoc _ h hs ih => exact .snoc ih (hok _ _ h) hs

/-- Along a run, every step starts in a state that satisfies what is known of the run. -/
theorem Run.strengthen {J : σ → Prop} (h : Run step ok s u) (hJ : ∀ t, Run step ok s t → J t) :
    Run step (fun t i => ok t i ∧ J t) s u := by
  induction h with
  | refl => exact .refl
  | snoc hr hok hs ih => exact .snoc ih ⟨hok, hJ _ hr⟩ hs

theorem Run.trans (h₁ : Run step ok s t) (h₂ : Run step ok t u) : Run step ok s u := by
  induction h₂ with
  | refl => exact h₁
  | snoc _ hok hs ih => exact .snoc ih hok hs

/-- A machine whose steps are runs of a relation `R` between abstract states: what the relation
preserves holds along every run of the machine. -/
theorem Run.simulates {τ : Type*} {R : τ → τ → Prop} {abs : σ → τ} {I : σ → Prop}
    (h : Run step ok s u) (h₀ : I s)
    (hstep : ∀ t i u, I t → ok t i → step t i = .ok u →
      I u ∧ Relation.ReflTransGen R (abs t) (abs u)) :
    I u ∧ Relation.ReflTransGen R (abs s) (abs u) := by
  induction h with
  | refl => exact ⟨h₀, .refl⟩
  | snoc _ hok hs ih =>
    obtain ⟨hi, hr⟩ := hstep _ _ _ ih.1 hok hs
    exact ⟨hi, ih.2.trans hr⟩

/-! ## Concrete runs -/

/-- Follow a list of inputs; `none` when one is not allowed or faults. -/
def exec (step : σ → ι → Except ε σ) (ok : σ → ι → Prop) [∀ s i, Decidable (ok s i)] (s : σ) :
    List ι → Option σ
  | [] => some s
  | i :: is => if ok s i then
      match step s i with
      | .ok t => exec step ok t is
      | .error _ => none
    else none

theorem run_of_exec [∀ s i, Decidable (ok s i)] {is : List ι} {s : σ}
    (h : exec step ok s is = some u) : Run step ok s u := by
  induction is generalizing s with
  | nil => simp only [exec, Option.some.injEq] at h; exact h ▸ .refl
  | cons i is ih =>
    simp only [exec] at h
    split_ifs at h with hok
    cases hs : step s i with
    | error e => simp [hs] at h
    | ok t =>
      rw [hs] at h
      exact Run.trans (.snoc .refl hok hs) (ih h)

/-- A list of inputs that ends in a state with `p` is a run to such a state. -/
theorem exists_run_of_exec [∀ s i, Decidable (ok s i)] {is : List ι} {p : σ → Bool}
    (h : (exec step ok s is).map p = some true) : ∃ u, Run step ok s u ∧ p u = true := by
  obtain ⟨u, hu, hp⟩ := Option.map_eq_some_iff.1 h
  exact ⟨u, run_of_exec hu, hp⟩

end FaultMachine
