import Mathlib.Data.List.Nodup
import Mathlib.Data.Nat.Notation

/-!
# Free lists

Blocks are numbered in the order in which they are made. A block that comes back is the next one to
be taken, and a new one is made only when none is free.

Code that puts back what it takes, the last one first, leaves the free list as it was but for blocks
that it has made, which are behind the others. `Grows k f f'` says so, and that no more were made
than are needed for `k` at one time. Such code may be nested (`Grows.bracket`) and repeated
(`Grows.trans`).
-/

/-- The number of blocks that were made, and the blocks that are free, the next one first. -/
structure FreeList where
  made : ℕ := 0
  free : List ℕ := []

namespace FreeList

variable {f g h : FreeList} {x k l : ℕ}

def take (f : FreeList) : ℕ × FreeList :=
  match f.free with
  | [] => (f.made, { f with made := f.made + 1 })
  | x :: rest => (x, { f with free := rest })

def put (f : FreeList) (x : ℕ) : FreeList := { f with free := x :: f.free }

/-- The free blocks were made, and none of them is there twice. -/
structure Tidy (f : FreeList) : Prop where
  nodup : f.free.Nodup
  made : ∀ x ∈ f.free, x < f.made

/-- A block that was made and is not free. -/
def InUse (f : FreeList) (x : ℕ) : Prop := x < f.made ∧ x ∉ f.free

/-! ## One block -/

theorem Tidy.take (hf : f.Tidy) : f.take.2.Tidy := by
  obtain ⟨made, free⟩ := f
  cases free with
  | nil => exact ⟨.nil, fun _ hx => absurd hx List.not_mem_nil⟩
  | cons x rest =>
    exact ⟨(List.nodup_cons.1 hf.nodup).2, fun y hy => hf.made y (List.mem_cons_of_mem _ hy)⟩

/-- The block that is taken is in use from then on. -/
theorem Tidy.inUse_take (hf : f.Tidy) : f.take.2.InUse f.take.1 := by
  obtain ⟨made, free⟩ := f
  cases free with
  | nil => exact ⟨Nat.lt_succ_self _, List.not_mem_nil⟩
  | cons x rest => exact ⟨hf.made x List.mem_cons_self, (List.nodup_cons.1 hf.nodup).1⟩

/-- It was not in use before. -/
theorem not_inUse_take (f : FreeList) : ¬ f.InUse f.take.1 := by
  obtain ⟨made, free⟩ := f
  cases free with
  | nil => exact fun hx => absurd hx.1 (Nat.lt_irrefl _)
  | cons x rest => exact fun hx => hx.2 List.mem_cons_self

theorem InUse.take (hx : f.InUse x) : f.take.2.InUse x := by
  obtain ⟨made, free⟩ := f
  cases free with
  | nil => exact ⟨Nat.lt_succ_of_lt hx.1, List.not_mem_nil⟩
  | cons y rest => exact ⟨hx.1, fun hy => hx.2 (List.mem_cons_of_mem _ hy)⟩

/-- A free block is free after another one is taken, or it was not yet made. -/
theorem mem_free_take (hx : x ∈ f.take.2.free) : x ∈ f.free := by
  obtain ⟨made, free⟩ := f
  cases free with
  | nil => exact absurd hx List.not_mem_nil
  | cons y rest => exact List.mem_cons_of_mem _ hx

/-! ## Code that puts back what it takes -/

/-- What is left when some blocks, up to `k` at one time, were taken and put back. -/
structure Grows (k : ℕ) (f g : FreeList) : Prop where
  free : ∃ new : List ℕ, g.free = f.free ++ new ∧ g.made = f.made + new.length ∧ new.Nodup ∧
    ∀ x ∈ new, f.made ≤ x ∧ x < g.made
  length : g.free.length = max f.free.length k

theorem Grows.refl (f : FreeList) : Grows 0 f f :=
  ⟨⟨[], (List.append_nil _).symm, rfl, .nil, fun _ hx => absurd hx List.not_mem_nil⟩,
    (Nat.max_zero _).symm⟩

theorem Grows.trans (hg : Grows k f g) (hh : Grows l g h) : Grows (max k l) f h := by
  obtain ⟨new, hfree, hmade, hnd, hnew⟩ := hg.free
  obtain ⟨new', hfree', hmade', hnd', hnew'⟩ := hh.free
  constructor
  · refine ⟨new ++ new', ?_, ?_, ?_, ?_⟩
    · rw [hfree', hfree, List.append_assoc]
    · rw [hmade', hmade, List.length_append, Nat.add_assoc]
    · refine List.nodup_append.2 ⟨hnd, hnd', ?_⟩
      intro x hx y hy hxy
      have hlt := (hnew x hx).2
      have hle := (hnew' y hy).1
      omega
    · intro x hx
      rw [List.mem_append] at hx
      rcases hx with hx | hx
      · have hlt := hnew x hx
        omega
      · have hlt := hnew' x hx
        omega
  · rw [hh.length, hg.length, Nat.max_assoc]

theorem Grows.inUse (hg : Grows k f g) (hx : f.InUse x) : g.InUse x := by
  obtain ⟨new, hfree, hmade, -, hnew⟩ := hg.free
  refine ⟨Nat.lt_of_lt_of_le hx.1 (hmade ▸ Nat.le_add_right _ _), fun hmem => ?_⟩
  rw [hfree, List.mem_append] at hmem
  rcases hmem with hmem | hmem
  · exact hx.2 hmem
  · exact absurd hx.1 (Nat.not_lt_of_le (hnew x hmem).1)

theorem Grows.tidy (hg : Grows k f g) (hf : f.Tidy) : g.Tidy := by
  obtain ⟨new, hfree, hmade, hnd, hnew⟩ := hg.free
  have hlt : ∀ x ∈ f.free, x < f.made := hf.made
  constructor
  · rw [hfree]
    refine List.nodup_append.2 ⟨hf.nodup, hnd, ?_⟩
    intro x hx y hy hxy
    have hx := hlt x hx
    have hy := (hnew y hy).1
    omega
  · intro x hx
    rw [hfree, List.mem_append] at hx
    rcases hx with hx | hx
    · have hx := hlt x hx
      omega
    · exact (hnew x hx).2

/-- A block that is taken before and put back after counts for one more at a time. -/
theorem Grows.bracket (hg : Grows k f.take.2 g) : Grows (k + 1) f (g.put f.take.1) := by
  obtain ⟨new, hfree, hmade, hnd, hnew⟩ := hg.free
  have hlength := hg.length
  obtain ⟨made, free⟩ := f
  cases free with
  | nil =>
    have hfree : g.free = new := hfree
    have hmade : g.made = made + 1 + new.length := hmade
    have hnew : ∀ x ∈ new, made + 1 ≤ x ∧ x < g.made := hnew
    have hlength : g.free.length = max 0 k := hlength
    constructor
    · refine ⟨made :: new, congrArg _ hfree, ?_, ?_, ?_⟩
      · show g.made = made + (new.length + 1)
        omega
      · refine List.nodup_cons.2 ⟨fun hm => ?_, hnd⟩
        have hle := (hnew _ hm).1
        omega
      · intro x hx
        show made ≤ x ∧ x < g.made
        rw [List.mem_cons] at hx
        rcases hx with rfl | hx
        · omega
        · have hx := hnew x hx
          omega
    · show g.free.length + 1 = max 0 (k + 1)
      omega
  | cons y rest =>
    have hfree : g.free = rest ++ new := hfree
    have hlength : g.free.length = max rest.length k := hlength
    refine ⟨⟨new, congrArg _ hfree, hmade, hnd, hnew⟩, ?_⟩
    show g.free.length + 1 = max (rest.length + 1) (k + 1)
    omega

end FreeList
