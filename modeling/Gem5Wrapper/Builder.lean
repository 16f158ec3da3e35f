import Mathlib.Data.List.Nodup
import Mathlib.Data.List.Infix
import Gem5Wrapper.Tlm

/-!
# Building a simulation

The builder calls of `Gem5Wrapper` that make the sim control and the transactors and bind the one
to the others. Objects are numbered in the order of their `new`.

One flag for the whole list says whether it has been bound, so a transactor that is made later
stays unbound.
-/

namespace Gem5Wrapper

open FaultMachine
open Function (update)

/-! ## The source -/

/-- `Gem5Wrapper`, as far as the sim control and the transactors go, with the transactor of
`Gem5SlaveTransactor_Multi::getInstance`. `binds` counts the calls of `bind` on the `sim_control`
port of each transactor; the code does not read it. -/
structure Wrapper where
  simControl : Bool := false
  transactors : List ℕ := []
  simControlBinded : Bool := false
  singleton : Option ℕ := none
  objects : ℕ := 0
  binds : ℕ → ℕ := fun _ => 0

/-- A builder call. -/
inductive BuilderCall
  | createSimControl
  | createTransactor (portName : String)
  | createSingletonTransactor (portName : String)
  | bindSimControl2Transactor
  deriving DecidableEq, Repr

namespace Wrapper

/-- `new Gem5SlaveTransactor_Multi`. -/
def newTransactor (w : Wrapper) (portName : String) : Except Fault (ℕ × Wrapper) := do
  check (portName ≠ "") (.report "Gem5SlaveTransactor_Multi" "No port name specified!\n")
  pure (w.objects, { w with objects := w.objects + 1 })

/-- `Gem5SlaveTransactor_Multi::getInstance`. -/
def getInstance (w : Wrapper) (portName : String) : Except Fault (ℕ × Wrapper) :=
  match w.singleton with
  | some t => .ok (t, w)
  | none => do
    let (t, w) ← w.newTransactor portName
    pure (t, { w with singleton := some t })

/-- `transactors.push_back`. -/
def pushBack (w : Wrapper) (t : ℕ) : Wrapper := { w with transactors := w.transactors ++ [t] }

/-- `(*it)->sim_control.bind(*sim_control)`. -/
def bind (w : Wrapper) (t : ℕ) : Wrapper := { w with binds := update w.binds t (w.binds t + 1) }

/-- `Gem5Wrapper::bindSimControl2Transactor`. -/
def bindSimControl2Transactor (w : Wrapper) : Wrapper :=
  if w.simControl = false then w
  else if w.simControlBinded then w
  else { w.transactors.foldl bind w with simControlBinded := true }

def step (w : Wrapper) : BuilderCall → Except Fault Wrapper
  | .createSimControl => .ok { w with simControl := true }
  | .createTransactor portName => do
    let (t, w) ← w.newTransactor portName
    pure (w.pushBack t)
  | .createSingletonTransactor portName => do
    let (t, w) ← w.getInstance portName
    pure (w.pushBack t)
  | .bindSimControl2Transactor => .ok w.bindSimControl2Transactor

/-- A call that throws leaves the wrapper as it is. -/
def call (w : Wrapper) (c : BuilderCall) : Wrapper :=
  match w.step c with
  | .ok w' => w'
  | .error _ => w

/-- The wrapper after a sequence of calls. -/
def after (cs : List BuilderCall) : Wrapper := cs.foldl call {}

/-! ## What the calls change -/

variable {w w' : Wrapper} {c : BuilderCall} {cs pre post : List BuilderCall} {t : ℕ}

@[simp] theorem after_append (cs cs' : List BuilderCall) :
    after (cs ++ cs') = cs'.foldl call (after cs) := List.foldl_append

theorem foldl_bind (w : Wrapper) (l : List ℕ) :
    l.foldl bind w = { w with binds := fun t => w.binds t + l.count t } := by
  induction l generalizing w with
  | nil => rfl
  | cons a l ih =>
    rw [List.foldl_cons, ih]
    simp only [bind, Wrapper.mk.injEq, true_and]
    funext t
    by_cases h : t = a
    · subst h
      simp only [Function.update_self, List.count_cons_self]
      omega
    · rw [Function.update_of_ne h, List.count_cons_of_ne (Ne.symm h)]

/-- The bind that binds: the first one that finds the sim control. -/
def Effective (w : Wrapper) : Prop := w.simControl = true ∧ w.simControlBinded = false

theorem bindSimControl2Transactor_of_effective (h : w.Effective) : w.bindSimControl2Transactor =
    { w with binds := fun t => w.binds t + w.transactors.count t, simControlBinded := true } := by
  simp only [bindSimControl2Transactor, h.1, h.2, foldl_bind]
  rfl

theorem bindSimControl2Transactor_of_not (h : ¬ w.Effective) : w.bindSimControl2Transactor = w := by
  unfold bindSimControl2Transactor
  split_ifs with h₁ h₂
  · rfl
  · rfl
  · exact absurd ⟨by simpa using h₁, by simpa using h₂⟩ h

/-- What a call can do: bind, or something that leaves the binds alone and appends. -/
theorem call_cases (w : Wrapper) (c : BuilderCall) :
    (c = .bindSimControl2Transactor ∧ w.Effective ∧ w.call c = { w with
      binds := fun t => w.binds t + w.transactors.count t, simControlBinded := true }) ∨
    (¬ (c = .bindSimControl2Transactor ∧ w.Effective) ∧ w.transactors <+: (w.call c).transactors ∧
      (w.call c).simControlBinded = w.simControlBinded ∧ (w.call c).binds = w.binds ∧
      (w.simControl = true → (w.call c).simControl = true)) := by
  cases c with
  | createSimControl => exact .inr ⟨by simp, List.prefix_rfl, rfl, rfl, fun _ => rfl⟩
  | createTransactor name =>
    refine .inr ⟨by simp, ?_⟩
    by_cases h : name = ""
    · simp [call, step, newTransactor, check, h, Bind.bind, Except.bind]
    · simp [call, step, newTransactor, check, h, Bind.bind, Except.bind, pushBack]
  | createSingletonTransactor name =>
    refine .inr ⟨by simp, ?_⟩
    cases hs : w.singleton with
    | some t => simp [call, step, getInstance, hs, Bind.bind, Except.bind, pushBack]
    | none =>
      by_cases h : name = ""
      · simp [call, step, getInstance, hs, newTransactor, check, h, Bind.bind, Except.bind]
      · simp [call, step, getInstance, hs, newTransactor, check, h, Bind.bind, Except.bind,
          pushBack]
  | bindSimControl2Transactor =>
    by_cases h : w.Effective
    · exact .inl ⟨rfl, h, bindSimControl2Transactor_of_effective h⟩
    · have hc : w.call .bindSimControl2Transactor = w := bindSimControl2Transactor_of_not h
      exact .inr ⟨fun hn => h hn.2, by simp [hc]⟩

theorem transactors_grow (w : Wrapper) (cs : List BuilderCall) :
    w.transactors <+: (cs.foldl call w).transactors := by
  induction cs generalizing w with
  | nil => exact List.prefix_rfl
  | cons c cs ih =>
    refine List.IsPrefix.trans ?_ (ih (w.call c))
    obtain ⟨-, -, hc⟩ | ⟨-, hp, -⟩ := call_cases w c
    · rw [hc]
    · exact hp

/-- Before the effective bind nothing is bound; after it, what was in the list then. -/
theorem binds_after (cs : List BuilderCall) :
    ((after cs).simControlBinded = false ∧ (after cs).binds = fun _ => 0) ∨
    ((after cs).simControlBinded = true ∧ ∃ pre post,
      cs = pre ++ .bindSimControl2Transactor :: post ∧
      (after pre).Effective ∧ (after cs).binds = fun t => (after pre).transactors.count t) := by
  induction cs using List.reverseRecOn with
  | nil => exact .inl ⟨rfl, rfl⟩
  | append_singleton cs c ih =>
    have hafter : after (cs ++ [c]) = (after cs).call c := by simp
    rw [hafter]
    obtain ⟨rfl, he, hc⟩ | ⟨-, -, hb, hbinds, -⟩ := call_cases (after cs) c
    · obtain ⟨-, h0⟩ | ⟨h1, -⟩ := ih
      · refine .inr ⟨by rw [hc], cs, [], rfl, he, ?_⟩
        rw [hc, h0]
        simp
      · rw [he.2] at h1
        cases h1
    · rw [hb, hbinds]
      refine ih.imp id fun ⟨h1, pre, post, hcs, he, hbs⟩ => ⟨h1, pre, post ++ [c], ?_, he, hbs⟩
      rw [hcs]
      simp

/-! ## Exactly once -/

/-- Every transactor in the list is bound exactly once. -/
def BoundOnce (w : Wrapper) : Prop := ∀ t ∈ w.transactors, w.binds t = 1

/-- After each bind made once the sim control exists, every transactor is bound exactly once. -/
def AllBoundOnce (cs : List BuilderCall) : Prop :=
  ∀ pre post, cs = pre ++ .bindSimControl2Transactor :: post → (after pre).simControl = true →
    (after (pre ++ [.bindSimControl2Transactor])).BoundOnce

/-- At the first bind made once the sim control exists no transactor is twice in the list, and at
a later one the list has no transactor that was not there before. -/
def AllInTime (cs : List BuilderCall) : Prop :=
  ∀ pre post, cs = pre ++ .bindSimControl2Transactor :: post → (after pre).simControl = true →
    ((after pre).simControlBinded = false → (after pre).transactors.Nodup) ∧
    ∀ pre₁ post₁, pre = pre₁ ++ .bindSimControl2Transactor :: post₁ →
      (after pre₁).simControl = true → (after pre).transactors ⊆ (after pre₁).transactors

theorem binded_foldl (h : w.simControlBinded = true) (cs : List BuilderCall) :
    (cs.foldl call w).simControlBinded = true := by
  induction cs generalizing w with
  | nil => exact h
  | cons c cs ih =>
    refine ih ?_
    obtain ⟨-, -, hc⟩ | ⟨-, -, hb, -⟩ := call_cases w c
    · rw [hc]
    · exact hb.trans h

/-- After a bind that finds the sim control, the list counts as bound. -/
theorem binded_of_bind (h : (after pre).simControl = true) (cs : List BuilderCall) :
    (after (pre ++ .bindSimControl2Transactor :: cs)).simControlBinded = true := by
  rw [after_append, List.foldl_cons]
  refine binded_foldl ?_ cs
  by_cases hb : (after pre).simControlBinded = true
  · exact binded_foldl hb [.bindSimControl2Transactor]
  · exact congrArg simControlBinded (bindSimControl2Transactor_of_effective ⟨h, by simpa using hb⟩)

/-- A later bind changes nothing. -/
theorem after_bind_of_binded (h : (after pre).simControlBinded = true) :
    after (pre ++ [.bindSimControl2Transactor]) = after pre := by
  rw [after_append]
  exact bindSimControl2Transactor_of_not fun he => by rw [he.2] at h; cases h

theorem boundOnce_of_effective (h : (after pre).Effective) :
    (after (pre ++ [.bindSimControl2Transactor])).BoundOnce ↔ (after pre).transactors.Nodup := by
  have hafter : after (pre ++ [.bindSimControl2Transactor]) =
      (after pre).bindSimControl2Transactor := by rw [after_append]; rfl
  have h0 : (after pre).binds = fun _ => 0 := by
    obtain ⟨-, h0⟩ | ⟨h1, -⟩ := binds_after pre
    · exact h0
    · rw [h.2] at h1
      cases h1
  rw [hafter, bindSimControl2Transactor_of_effective h, List.nodup_iff_count_eq_one]
  simp [BoundOnce, h0]

/-- Nothing that is in the list at the effective bind is missing at an earlier or later bind that
finds the sim control. -/
theorem subset_of_effective {pre₀ post₀ pre₁ post₁ : List BuilderCall} (he : (after pre₀).Effective)
    (h₁ : (after pre₁).simControl = true) (h : pre₀ ++ .bindSimControl2Transactor :: post₀ =
      pre₁ ++ .bindSimControl2Transactor :: post₁) :
    (after pre₀).transactors ⊆ (after pre₁).transactors := by
  obtain ⟨l, rfl, -⟩ | ⟨l, rfl, hl⟩ := List.append_eq_append_iff.1 h
  · rw [after_append]
    exact (transactors_grow (after pre₀) l).subset
  · cases l with
    | nil => simp
    | cons c l =>
      obtain ⟨rfl, -⟩ := List.cons.inj hl
      have := binded_of_bind h₁ l
      rw [he.2] at this
      cases this

/-- The builder calls bind every transactor exactly once if and only if all transactors are in the
list, each once, at the first bind that finds the sim control. -/
theorem allBoundOnce_iff (cs : List BuilderCall) : AllBoundOnce cs ↔ AllInTime cs := by
  constructor
  · intro h pre post hcs hsim
    refine ⟨fun hb => (boundOnce_of_effective ⟨hsim, hb⟩).1 (h pre post hcs hsim), ?_⟩
    rintro pre₁ post₁ rfl hsim₁ t ht
    have hb := binded_of_bind hsim₁ post₁
    have honce := h _ post hcs hsim
    rw [after_bind_of_binded hb] at honce
    obtain ⟨hb', -⟩ | ⟨-, pre₀, post₀, hpre, he, hbinds⟩ :=
      binds_after (pre₁ ++ .bindSimControl2Transactor :: post₁)
    · rw [hb] at hb'
      cases hb'
    · have hcount : (after pre₀).transactors.count t = 1 := by
        rw [← honce t ht, hbinds]
      exact subset_of_effective he hsim₁ hpre.symm (List.count_pos_iff.1 (by omega))
  · intro h pre post hcs hsim
    by_cases hb : (after pre).simControlBinded = true
    · rw [after_bind_of_binded hb]
      obtain ⟨hb', -⟩ | ⟨-, pre₀, post₀, rfl, he, hbinds⟩ := binds_after pre
      · rw [hb] at hb'
        cases hb'
      · intro t ht
        have hmem := (h _ post hcs hsim).2 pre₀ post₀ rfl he.1 ht
        have hnodup := (h pre₀ (post₀ ++ .bindSimControl2Transactor :: post)
          (by rw [hcs]; simp) he.1).1 he.2
        rw [hbinds]
        exact List.count_eq_one_of_mem hnodup hmem
    · have hb : (after pre).simControlBinded = false := by simpa using hb
      exact (boundOnce_of_effective ⟨hsim, hb⟩).2 ((h pre post hcs hsim).1 hb)

/-- A transactor that is made after the first bind stays unbound. -/
theorem not_allBoundOnce : ¬ ∀ cs, AllBoundOnce cs := by
  intro h
  have := h [.createSimControl, .bindSimControl2Transactor, .createTransactor "port",
    .bindSimControl2Transactor]
    [.createSimControl, .bindSimControl2Transactor, .createTransactor "port"] [] rfl rfl 0
    (by decide)
  exact absurd this (by decide)

end Wrapper

end Gem5Wrapper
