import Mathlib.Data.List.Basic
import Gem5Wrapper.Tlm

/-!
# Copying extensions

`clone` and `copy_from` of `Gem5Extension`, which TLM calls when a component copies payloads.

The extension objects are a list, numbered in the order of their `new`. A member that the
constructor does not set is an argument. Beside the objects, `Copies` has what each one would hold
if copying were faithful; no function reads it.
-/

namespace Gem5Wrapper

open FaultMachine

/-! ## The source -/

namespace Gem5Extension

/-- `Gem5Extension::Gem5Extension`. Whatever is in the memory stays the core id. -/
def new (packet : PacketPtr) (memory serial : ℕ) : Gem5Extension := ⟨packet, memory, serial⟩

/-- `Gem5Extension::setCoreID`. -/
def setCoreID (e : Gem5Extension) (id : ℕ) : Gem5Extension := { e with coreId := id }

/-- `Gem5Extension::clone`. -/
def clone (e : Gem5Extension) (memory serial : ℕ) : Gem5Extension := new e.packet memory serial

/-- `Gem5Extension::copy_from`. -/
def copyFrom (e cpyFrom : Gem5Extension) : Gem5Extension := { e with packet := cpyFrom.packet }

/-- What `getPacket` and `getCoreID` return. -/
def content (e : Gem5Extension) : PacketPtr × ℕ := (e.packet, e.coreId)

end Gem5Extension

/-! ## Sequences of copies -/

/-- The extension objects, and what each holds if it is a copy of a copy of ... the object that a
port has made. -/
structure Copies where
  objects : List Gem5Extension := []
  origins : List (PacketPtr × ℕ) := []
  deriving DecidableEq, Repr

/-- An operation on extension objects. -/
inductive CopyAct
  /-- A port makes an extension for a packet and sets its core id. -/
  | attach (packet : PacketPtr) (coreId memory : ℕ)
  /-- `clone` of object `i`. -/
  | clone (i memory : ℕ)
  /-- `copy_from` of object `i`, with object `j` as argument. -/
  | copyFrom (i j : ℕ)
  deriving DecidableEq, Repr

namespace Copies

def step (c : Copies) : CopyAct → Except Fault Copies
  | .attach packet coreId memory =>
    .ok { objects := c.objects ++ [(Gem5Extension.new packet memory c.objects.length).setCoreID
            coreId]
          origins := c.origins ++ [(packet, coreId)] }
  | .clone i memory =>
    match c.objects[i]?, c.origins[i]? with
    | some e, some o =>
      .ok { objects := c.objects ++ [e.clone memory c.objects.length], origins := c.origins ++ [o] }
    | _, _ => .error (.environment "no such object")
  | .copyFrom i j =>
    match c.objects[i]?, c.objects[j]?, c.origins[j]? with
    | some e, some e', some o =>
      .ok { objects := c.objects.set i (e.copyFrom e'), origins := c.origins.set i o }
    | _, _, _ => .error (.environment "no such object")

/-- Every object returns what the one it was copied from does. -/
def Faithful (c : Copies) : Prop := c.objects.map Gem5Extension.content = c.origins

/-- The core id that the operation leaves is that of the object that is copied. -/
def KeepsCoreId (c : Copies) : CopyAct → Prop
  | .attach .. => True
  | .clone i memory => ∀ e ∈ c.objects[i]?, memory = e.coreId
  | .copyFrom i j => ∀ e ∈ c.objects[i]?, ∀ e' ∈ c.objects[j]?, e.coreId = e'.coreId

instance (c : Copies) : Decidable c.Faithful := inferInstanceAs (Decidable (_ = _))

variable {c c' : Copies} {a : CopyAct}

/-- An operation keeps the copies faithful exactly when it leaves the right core id. -/
theorem Faithful.step_iff (hf : c.Faithful) (h : c.step a = .ok c') :
    c'.Faithful ↔ c.KeepsCoreId a := by
  unfold Faithful at hf ⊢
  cases a with
  | attach packet coreId memory =>
    cases h
    simp [KeepsCoreId, hf, Gem5Extension.setCoreID, Gem5Extension.content, Gem5Extension.new]
  | clone i memory =>
    simp only [step] at h
    split at h
    · next e o he ho =>
      cases h
      have hco : e.content = o := by
        rw [← hf, List.getElem?_map, he] at ho
        exact Option.some.inj ho
      simp [KeepsCoreId, he, hf, ← hco, Gem5Extension.clone, Gem5Extension.content,
        Gem5Extension.new]
    · cases h
  | copyFrom i j =>
    simp only [step] at h
    split at h
    · next e e' o he he' ho =>
      cases h
      have hco : e'.content = o := by
        rw [← hf, List.getElem?_map, he'] at ho
        exact Option.some.inj ho
      have hi : i < c.origins.length := by
        rw [← hf, List.length_map]
        exact (List.getElem?_eq_some_iff.1 he).1
      simp only [KeepsCoreId, he, he', Option.mem_def, Option.some.injEq, forall_eq', ← hco,
        List.map_set, hf]
      constructor
      · intro h
        have := congrArg (fun l => l[i]?) h
        simpa [hi, Gem5Extension.copyFrom, Gem5Extension.content] using this
      · intro h
        simp [Gem5Extension.copyFrom, Gem5Extension.content, h]
    · cases h

/-- Every state that a sequence of operations goes through satisfies `P`. -/
def Throughout (P : Copies → Prop) (c : Copies) : List CopyAct → Prop
  | [] => P c
  | a :: as => P c ∧ ∀ c', c.step a = .ok c' → Throughout P c' as

/-- Every operation of a sequence satisfies `Q` in the state it starts from. -/
def Always (Q : Copies → CopyAct → Prop) (c : Copies) : List CopyAct → Prop
  | [] => True
  | a :: as => ∀ c', c.step a = .ok c' → Q c a ∧ Always Q c' as

/-- A sequence of operations copies faithfully exactly when each clone happens to find the core id
of the original in its memory, and each `copy_from` writes to an extension with the same core id. -/
theorem faithful_iff (as : List CopyAct) :
    Throughout Faithful {} as ↔ Always KeepsCoreId {} as := by
  have key : ∀ c : Copies, c.Faithful → (Throughout Faithful c as ↔ Always KeepsCoreId c as) := by
    induction as with
    | nil => exact fun c hc => iff_of_true hc trivial
    | cons a as ih =>
      intro c hc
      rw [Throughout, Always, and_iff_right hc]
      refine forall_congr' fun c' => forall_congr' fun h => ?_
      constructor
      · intro ht
        have hc' : c'.Faithful := by
          cases as with
          | nil => exact ht
          | cons => exact ht.1
        exact ⟨(hc.step_iff h).1 hc', (ih c' hc').1 ht⟩
      · rintro ⟨hk, ha⟩
        exact (ih c' ((hc.step_iff h).2 hk)).2 ha
  exact key {} rfl

/-- A clone of the extension of core 1 has the core id that was in the memory. -/
theorem not_faithful : ¬ ∀ as, Throughout Faithful {} as := by
  intro h
  have hf : Faithful ⟨[⟨5, 1, 0⟩, ⟨5, 0, 1⟩], [(5, 1), (5, 1)]⟩ :=
    ((h [.attach 5 1 0, .clone 0 0]).2 _ rfl).2 _ rfl
  exact absurd hf (by decide)

end Copies

end Gem5Wrapper
