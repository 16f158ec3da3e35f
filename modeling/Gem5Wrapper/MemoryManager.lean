import Mathlib.Data.List.Nodup
import Gem5Wrapper.Tlm
import Gem5Wrapper.Lib.History

/-!
# The payload pool

`MemoryManager` hands out payloads and takes them back; a payload that comes back is the next
one to be handed out. `new` gives payloads that were never handed out before: they are numbered
by `numberOfAllocations`.

A `PayloadPool` is a pool with its history, where `new` may give any address at which no payload
lies. Only payloads that are handed out are freed. Each call moves one payload between the list of
those handed out and `freePayloads`, or adds a new one, so that both lists together stay free of
duplicates (`Tidy`).
-/

namespace Gem5Wrapper

open FaultMachine History

/-- `MemoryManager`. `freePayloads` is the vector read from its back. -/
structure MemoryManager where
  numberOfAllocations : ℕ := 0
  numberOfFrees : ℕ := 0
  freePayloads : List Ptr := []
  deriving DecidableEq, Repr

namespace MemoryManager

/-- `MemoryManager::allocate`. -/
def allocate (mm : MemoryManager) : Ptr × MemoryManager :=
  match mm.freePayloads with
  | [] => (mm.numberOfAllocations, { mm with numberOfAllocations := mm.numberOfAllocations + 1 })
  | result :: rest => (result, { mm with freePayloads := rest })

/-- `MemoryManager::free`, as far as the pool is concerned. -/
def free (mm : MemoryManager) (payload : Ptr) : MemoryManager :=
  { mm with freePayloads := payload :: mm.freePayloads }

/-- Is the next payload a new one? -/
def isNew (mm : MemoryManager) : Bool := mm.freePayloads.isEmpty

/-- `MemoryManager::allocate`, when `new` gives `obj`. -/
def allocateWith (mm : MemoryManager) (obj : Ptr) : Ptr × MemoryManager :=
  match mm.freePayloads with
  | [] => (obj, { mm with numberOfAllocations := mm.numberOfAllocations + 1 })
  | result :: rest => (result, { mm with freePayloads := rest })

theorem allocate_eq_allocateWith (mm : MemoryManager) :
    mm.allocate = mm.allocateWith mm.numberOfAllocations := rfl

/-- `MemoryManager::~MemoryManager`, with the payloads that it deletes, the last one first. -/
def destroy (mm : MemoryManager) : List Ptr × MemoryManager :=
  -- from the front of the vector to its back
  mm.freePayloads.foldr (fun payload d =>
    (payload :: d.1, { d.2 with numberOfFrees := d.2.numberOfFrees + 1 })) ([], mm)

theorem destroy_fst (mm : MemoryManager) : mm.destroy.1 = mm.freePayloads := by
  unfold destroy
  induction mm.freePayloads with
  | nil => rfl
  | cons payload l ih => rw [List.foldr_cons, ih]

/-! ## Histories -/

/-- What happens at the pool. -/
inductive Obs
  | allocated (payload : Ptr)
  | freed (payload : Ptr)
  deriving DecidableEq, Repr

/-- The payloads that are handed out. -/
def handedOut : List Obs → List Ptr
  | [] => []
  | .allocated payload :: l => payload :: handedOut l
  | .freed payload :: l => (handedOut l).erase payload

/-- What `allocate` returns is not handed out. -/
def FirstHand : Obs → List Obs → Prop
  | .allocated payload, past => payload ∉ handedOut past
  | .freed _, _ => True

end MemoryManager

open MemoryManager

/-- A pool and its history. -/
structure PayloadPool where
  mm : MemoryManager := {}
  trace : List Obs := []
  deriving DecidableEq, Repr

namespace PayloadPool

/-- A call of the pool, with what `new` gives if it is called. -/
inductive Call
  | allocate (obj : Ptr)
  | free (payload : Ptr)
  deriving DecidableEq, Repr

def step (s : PayloadPool) : Call → Except Fault PayloadPool
  | .allocate obj => do
    check (s.mm.freePayloads = [] → obj ∉ handedOut s.trace)
      (.environment "new: not a fresh object")
    let (payload, mm) := s.mm.allocateWith obj
    pure { mm, trace := .allocated payload :: s.trace }
  | .free payload => do
    check (payload ∈ handedOut s.trace) (.environment "free: not handed out")
    pure { mm := s.mm.free payload, trace := .freed payload :: s.trace }

/-- The payloads that exist are those handed out and those in the pool: each of them has been
counted, and none is there twice. -/
structure Tidy (s : PayloadPool) : Prop where
  nodup : (handedOut s.trace ++ s.mm.freePayloads).Nodup
  counted : s.mm.numberOfAllocations = (handedOut s.trace ++ s.mm.freePayloads).length
  firstHand : Along FirstHand s.trace

variable {s s' : PayloadPool}

theorem Tidy.step {a : Call} (hi : s.Tidy) (h : s.step a = .ok s') : s'.Tidy := by
  cases a with
  | allocate obj =>
    simp only [PayloadPool.step, bind_eq_ok, check_eq_ok] at h
    obtain ⟨-, hobj, h⟩ := h
    have hnodup := hi.nodup
    have hcounted := hi.counted
    unfold allocateWith at h
    split at h
    · rename_i hfree
      obtain rfl := Except.ok.inj h
      rw [hfree, List.append_nil] at hnodup hcounted
      have hnew : obj ∉ handedOut s.trace := hobj hfree
      constructor
      · show (obj :: handedOut s.trace ++ s.mm.freePayloads).Nodup
        rw [hfree, List.append_nil]
        exact List.nodup_cons.2 ⟨hnew, hnodup⟩
      · show s.mm.numberOfAllocations + 1 = (obj :: handedOut s.trace ++ s.mm.freePayloads).length
        rw [hfree, List.append_nil, List.length_cons, hcounted]
      · exact ⟨hnew, hi.firstHand⟩
    · rename_i result rest hfree
      obtain rfl := Except.ok.inj h
      rw [hfree] at hnodup hcounted
      -- the payload moves to the others that are handed out
      have hperm : (handedOut s.trace ++ result :: rest).Perm
          (result :: handedOut s.trace ++ rest) := List.perm_middle
      have hnodup' := hperm.nodup_iff.1 hnodup
      refine ⟨hnodup', hcounted.trans hperm.length_eq, ?_, hi.firstHand⟩
      rw [List.cons_append, List.nodup_cons, List.mem_append, not_or] at hnodup'
      exact hnodup'.1.1
  | free payload =>
    simp only [PayloadPool.step, bind_eq_ok, check_eq_ok] at h
    obtain ⟨-, hmem, h⟩ := h
    obtain rfl := Except.ok.inj h
    have hperm : (handedOut s.trace ++ s.mm.freePayloads).Perm
        ((handedOut s.trace).erase payload ++ payload :: s.mm.freePayloads) :=
      ((List.perm_cons_erase hmem).append_right _).trans List.perm_middle.symm
    exact ⟨hperm.nodup_iff.1 hi.nodup, hi.counted.trans hperm.length_eq, trivial, hi.firstHand⟩

theorem tidy_of_run (h : Run PayloadPool.step (fun _ _ => True) {} s) : s.Tidy := by
  refine h.invariant ⟨.nil, rfl, trivial⟩ ?_
  intro _ _ _ hi _ hs
  exact hi.step hs

/-! ## The laws of the pool -/

/-- What the ports rely on when they tell transactions apart by the addresses of their payloads. -/
structure PoolLaws (s : PayloadPool) : Prop where
  nodup : s.mm.freePayloads.Nodup
  disjoint : ∀ payload ∈ s.mm.freePayloads, payload ∉ handedOut s.trace
  distinct : (handedOut s.trace).Nodup
  firstHand : Along FirstHand s.trace
  counted : s.mm.numberOfAllocations = (handedOut s.trace).length + s.mm.freePayloads.length
  deleted : ∀ payload, s.mm.destroy.1.count payload = if payload ∈ s.mm.freePayloads then 1 else 0

/-- **The pool keeps its payloads apart**, whatever addresses `new` gives. -/
theorem poolLaws_of_run (h : Run PayloadPool.step (fun _ _ => True) {} s) : s.PoolLaws := by
  have hi := tidy_of_run h
  obtain ⟨hout, hfree, hdisjoint⟩ := List.nodup_append.1 hi.nodup
  constructor
  · exact hfree
  · exact fun payload hp ho => hdisjoint payload ho payload hp rfl
  · exact hout
  · exact hi.firstHand
  · rw [hi.counted, List.length_append]
  · intro payload
    rw [destroy_fst]
    split_ifs with hp
    · exact List.count_eq_one_of_mem hfree hp
    · exact List.count_eq_zero_of_not_mem hp

/-- Of two payloads the first one comes back, and is handed out again; then the second one comes
back. -/
theorem poolLaws_handedOutAgain : ∃ s : PayloadPool, handedOut s.trace = [7] ∧
    s.mm.freePayloads = [5] ∧ s.PoolLaws := by
  have hexec : (exec PayloadPool.step (fun _ _ => True) {} [.allocate 7, .allocate 5, .free 7,
      .allocate 9, .free 5]).map (fun s => decide (handedOut s.trace = [7] ∧
        s.mm.freePayloads = [5])) = some true := by decide
  obtain ⟨s, hr, hs⟩ := exists_run_of_exec hexec
  obtain ⟨hout, hfree⟩ := of_decide_eq_true hs
  exact ⟨s, hout, hfree, poolLaws_of_run hr⟩

end PayloadPool

end Gem5Wrapper
