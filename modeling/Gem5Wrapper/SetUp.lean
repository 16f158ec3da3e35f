import Gem5Wrapper.SocketMap

/-!
# Sequences of set-up calls

What repeated calls of `getSlavePort` and `bindToTransactor` make of a slave port.

Both `bindToTransactor` check the pointer to the single-socket transactor, and only one of them
sets it. `updateCorePortMap` replaces the port map, and appends to the vector of CPU names: a core
index past the number of CPUs names a CPU once the vector is long enough.
-/

namespace Gem5Wrapper

open FaultMachine
open Std (TreeMap)

namespace SCSlavePort

/-! ## The calls -/

/-- A call that sets up a port. -/
inductive SetUp
  | getSlavePort
  | bindToTransactor (transactor : ℕ)
  | bindToTransactorMulti (tr : SlaveTransactorMulti)

/-- One of the two `bindToTransactor`. -/
def SetUp.isBind : SetUp → Bool
  | .getSlavePort => false
  | _ => true

/-- A call, where `cpuPorts` is that of `Gem5SimControl`: `getSlavePort` hands it to the port. -/
def setUp (cpuPorts : TreeMap String (List ℕ)) (p : SCSlavePort) : SetUp → Except Fault SCSlavePort
  | .getSlavePort => .ok (p.updateCorePortMap cpuPorts)
  | .bindToTransactor transactor => p.bindToTransactor transactor
  | .bindToTransactorMulti tr => p.bindToTransactorMulti tr

def setUps (cpuPorts : TreeMap String (List ℕ)) (p : SCSlavePort) :
    List SetUp → Except Fault SCSlavePort
  | [] => .ok p
  | c :: cs => do
    let p ← p.setUp cpuPorts c
    p.setUps cpuPorts cs

/-- The port maps every requestor id, and every socket, in the same way. -/
structure SameSocketMap (p q : SCSlavePort) : Prop where
  socketMap : ∀ s : ℕ, p.socketMap[s]? = q.socketMap[s]?
  getSocketId : ∀ id, p.getSocketId id = q.getSocketId id

/-- Each bind after the first one fails its assertion, and a multi-socket bind that comes first
leaves the same socket map after many `getSlavePort` as after one. -/
structure SetUpOnce (cpuPorts : TreeMap String (List ℕ)) (p : SCSlavePort) (cs : List SetUp) :
    Prop where
  bind : ∀ pre c post q, cs = pre ++ c :: post → pre.any SetUp.isBind → c.isBind →
    p.setUps cpuPorts pre = .ok q → q.setUp cpuPorts c =
      .error (.scAssert "SCSlavePort::bindToTransactor" "this->transactor == nullptr")
  update : ∀ k tr post q q', cs = List.replicate (k + 1) .getSlavePort ++
      .bindToTransactorMulti tr :: post →
    p.setUps cpuPorts (List.replicate (k + 1) .getSlavePort ++ [.bindToTransactorMulti tr]) =
      .ok q →
    p.setUps cpuPorts [.getSlavePort, .bindToTransactorMulti tr] = .ok q' → SameSocketMap q q'

/-! ## When once is enough -/

/-- A core index as `initSocketMap` compares it with the number of CPU names. -/
def coreIndex (coreId : ℤ) : ℕ := (coreId % 2 ^ 64).toNat

/-- The requestor ids of the CPU at position `i`. -/
def idsOfCpu (cpuPorts : TreeMap String (List ℕ)) (i : ℕ) : List ℕ :=
  ((cpuPorts.keys[i]?).map fun name => cpuPorts.getD name []).getD []

/-- A core index that names a CPU only in a vector of `k` copies of the CPU names belongs to a CPU
without requestor ids, and is listed with the index of a CPU. -/
def Harmless (cpuPorts : TreeMap String (List ℕ)) (tr : SlaveTransactorMulti) (k : ℕ) : Prop :=
  ∀ (s : ℕ) cores, tr.socketCoreMap[s]? = some cores → ∀ c ∈ cores,
    cpuPorts.size ≤ coreIndex c → coreIndex c < k * cpuPorts.size →
      idsOfCpu cpuPorts (coreIndex c % cpuPorts.size) = [] ∧
        ∃ d ∈ cores, coreIndex d < cpuPorts.size

/-- The first bind is that of a single-socket transactor, unless it is the only one, and the core
map is harmless if the first bind is that of its transactor. -/
structure OnceIsEnough (cpuPorts : TreeMap String (List ℕ)) (cs : List SetUp) : Prop where
  bind : ∀ k tr post, cs = List.replicate k .getSlavePort ++ .bindToTransactorMulti tr :: post →
    ¬ post.any SetUp.isBind
  update : ∀ k tr post, cs = List.replicate (k + 1) .getSlavePort ++
    .bindToTransactorMulti tr :: post → Harmless cpuPorts tr (k + 1)

variable {cpuPorts : TreeMap String (List ℕ)} {p q q' : SCSlavePort} {tr : SlaveTransactorMulti}
  {cs cs' : List SetUp} {c : SetUp} {k : ℕ}

/-! ### Binds -/

theorem setUps_append : p.setUps cpuPorts (cs ++ cs') = (do
    let p ← p.setUps cpuPorts cs
    p.setUps cpuPorts cs') := by
  induction cs generalizing p with
  | nil => rfl
  | cons c cs ih => simp only [List.cons_append, setUps, bind_assoc, ih]

variable (cpuPorts) in
/-- A bind fails if and only if the port has a single-socket transactor. -/
theorem setUp_of_isBind (hc : c.isBind = true) :
    (q.transactor = none → ∃ q', q.setUp cpuPorts c = .ok q') ∧
      (q.transactor ≠ none → q.setUp cpuPorts c =
        .error (.scAssert "SCSlavePort::bindToTransactor" "this->transactor == nullptr")) := by
  cases c with
  | getSlavePort => cases hc
  | bindToTransactor t =>
    refine ⟨fun h => ⟨{ q with transactor := some t }, ?_⟩, fun h => ?_⟩
    · simp [setUp, bindToTransactor, check, h]
    · simp [setUp, bindToTransactor, check, h, Bind.bind, Except.bind]
  | bindToTransactorMulti tr =>
    refine ⟨fun h => ⟨{ (q.setTransactorMulti tr).initSocketMap with
      helper := (q.setTransactorMulti tr).initSocketMap.helper.init
        (q.setTransactorMulti tr).initSocketMap.socketMap.size }, ?_⟩, fun h => ?_⟩
    · simp [setUp, bindToTransactorMulti, check, h]
    · simp [setUp, bindToTransactorMulti, check, h, Bind.bind, Except.bind]

/-- Which calls set the single-socket transactor. -/
theorem setUp_transactor (h : p.setUp cpuPorts c = .ok q) :
    q.transactor = match c with
      | .bindToTransactor t => some t
      | _ => p.transactor := by
  cases c with
  | getSlavePort => cases h; rfl
  | bindToTransactor t =>
    simp only [setUp, bindToTransactor, bind_eq_ok, pure_eq_ok, Except.ok.injEq] at h
    obtain ⟨-, -, rfl⟩ := h
    rfl
  | bindToTransactorMulti tr =>
    simp only [setUp, bindToTransactorMulti, bind_eq_ok, pure_eq_ok, Except.ok.injEq] at h
    obtain ⟨-, -, rfl⟩ := h
    exact (onlyMaps_initSocketMap _).transactor

/-- A port that has a single-socket transactor keeps one. -/
theorem setUps_transactor (h : p.setUps cpuPorts cs = .ok q) (hp : p.transactor ≠ none) :
    q.transactor ≠ none := by
  induction cs generalizing p with
  | nil => cases h; exact hp
  | cons c cs ih =>
    simp only [setUps, bind_eq_ok] at h
    obtain ⟨p₁, h₁, h⟩ := h
    refine ih h ?_
    rw [setUp_transactor h₁]
    split
    · simp
    · exact hp

theorem setUps_replicate (cpuPorts : TreeMap String (List ℕ)) (p : SCSlavePort) (k : ℕ) :
    ∃ q, p.setUps cpuPorts (List.replicate k .getSlavePort) = .ok q ∧
      q.transactor = p.transactor := by
  induction k generalizing p with
  | zero => exact ⟨p, rfl, rfl⟩
  | succ k ih => exact ih (p.updateCorePortMap cpuPorts)

/-- The calls before the first bind. -/
theorem exists_first_bind (h : cs.any SetUp.isBind = true) : ∃ k c post, c.isBind = true ∧
    cs = List.replicate k .getSlavePort ++ c :: post := by
  induction cs with
  | nil => cases h
  | cons c cs ih =>
    cases hc : c.isBind with
    | true => exact ⟨0, c, cs, hc, rfl⟩
    | false =>
      rw [List.any_cons, hc, Bool.false_or] at h
      obtain ⟨k, c', post, hc', rfl⟩ := ih h
      cases c with
      | getSlavePort => exact ⟨k + 1, c', post, hc', rfl⟩
      | _ => cases hc

/-- Every bind after the first one fails if and only if the first one sets the pointer that both
check, or is the only one. -/
theorem bind_iff (hp : p.transactor = none) :
    (∀ pre c post q, cs = pre ++ c :: post → pre.any SetUp.isBind → c.isBind →
      p.setUps cpuPorts pre = .ok q → q.setUp cpuPorts c =
        .error (.scAssert "SCSlavePort::bindToTransactor" "this->transactor == nullptr")) ↔
    ∀ k tr post, cs = List.replicate k .getSlavePort ++ .bindToTransactorMulti tr :: post →
      ¬ post.any SetUp.isBind := by
  constructor
  · rintro h k tr post rfl hpost
    obtain ⟨j, c, post', hc, rfl⟩ := exists_first_bind hpost
    obtain ⟨p₁, h₁, ht₁⟩ := setUps_replicate cpuPorts p k
    obtain ⟨p₂, h₂⟩ := (setUp_of_isBind cpuPorts (q := p₁)
      (c := .bindToTransactorMulti tr) rfl).1 (ht₁.trans hp)
    obtain ⟨p₃, h₃, ht₃⟩ := setUps_replicate cpuPorts p₂ j
    have hpre : p.setUps cpuPorts (List.replicate k .getSlavePort ++
        .bindToTransactorMulti tr :: List.replicate j .getSlavePort) = .ok p₃ := by
      rw [setUps_append, h₁, ok_bind]
      simp only [setUps, h₂, ok_bind, h₃]
    have hfail := h _ c post' p₃ (by simp) (by simp [SetUp.isBind]) hc hpre
    obtain ⟨p₄, h₄⟩ := (setUp_of_isBind cpuPorts hc).1
      (ht₃.trans ((setUp_transactor h₂).trans (ht₁.trans hp)))
    rw [h₄] at hfail
    cases hfail
  · rintro h pre c post q rfl hpre hc hq
    refine (setUp_of_isBind cpuPorts hc).2 ?_
    obtain ⟨k, c₀, rest, hc₀, rfl⟩ := exists_first_bind hpre
    cases c₀ with
    | getSlavePort => cases hc₀
    | bindToTransactor t =>
      rw [setUps_append] at hq
      simp only [setUps, bind_eq_ok] at hq
      obtain ⟨p₁, -, p₂, h₂, hq⟩ := hq
      exact setUps_transactor hq (by rw [setUp_transactor h₂]; simp)
    | bindToTransactorMulti tr =>
      exact absurd (by simp [hc]) (h k tr (rest ++ c :: post) (by simp))

/-! ### Updates -/

/-- A port that has been handed the CPUs `k` times. -/
def updated (cpuPorts : TreeMap String (List ℕ)) (p : SCSlavePort) (k : ℕ) : SCSlavePort :=
  (fun p => p.updateCorePortMap cpuPorts)^[k] p

theorem unbound_updated (hp : Unbound p) (k : ℕ) : Unbound (updated cpuPorts p k) := by
  induction k with
  | zero => exact hp
  | succ k ih =>
    rw [updated, Function.iterate_succ_apply']
    exact .update _ ih

theorem setUps_updated (k : ℕ) (c : SetUp) :
    p.setUps cpuPorts (List.replicate k .getSlavePort ++ [c]) =
    (updated cpuPorts p k).setUp cpuPorts c := by
  induction k generalizing p with
  | zero => exact bind_pure (p.setUp cpuPorts c)
  | succ k ih => exact ih

theorem getElem?_flatten_replicate {α : Type} (l : List α) (k i : ℕ) :
    (List.replicate k l).flatten[i]? = if i < k * l.length then l[i % l.length]? else none := by
  induction k generalizing i with
  | zero => simp
  | succ k ih =>
    rw [List.replicate_succ, List.flatten_cons]
    by_cases hi : i < l.length
    · rw [List.getElem?_append_left hi, if_pos (by rw [Nat.succ_mul]; omega), Nat.mod_eq_of_lt hi]
    · have hi : l.length ≤ i := by omega
      rw [List.getElem?_append_right hi, ih, ← Nat.mod_eq_sub_mod hi]
      exact if_congr (by rw [Nat.succ_mul]; omega) rfl rfl

/-- The CPUs that a port knows after `k + 1` updates. -/
theorem updated_succ (hv : p.cpuVec = []) (k : ℕ) :
    (updated cpuPorts p (k + 1)).cpuPortMap = cpuPorts ∧
      (updated cpuPorts p (k + 1)).cpuVec = (List.replicate (k + 1) cpuPorts.keys).flatten := by
  induction k with
  | zero => exact ⟨rfl, by simp [updated, updateCorePortMap, hv]⟩
  | succ k ih =>
    rw [updated, Function.iterate_succ_apply']
    refine ⟨rfl, ?_⟩
    rw [List.replicate_succ', List.flatten_append, ← ih.2]
    simp [updateCorePortMap, updated]

theorem core_updated (hv : p.cpuVec = []) (k : ℕ) (c : ℤ) :
    (updated cpuPorts p (k + 1)).core c =
      if coreIndex c < (k + 1) * cpuPorts.size then cpuPorts.keys[coreIndex c % cpuPorts.size]?
      else none := by
  rw [core, (updated_succ hv k).2, getElem?_flatten_replicate, TreeMap.length_keys]
  rfl

/-- The requestor ids of a core index after `k + 1` updates. -/
def idsOf (cpuPorts : TreeMap String (List ℕ)) (k : ℕ) (c : ℤ) : List ℕ :=
  if coreIndex c < (k + 1) * cpuPorts.size then idsOfCpu cpuPorts (coreIndex c % cpuPorts.size)
  else []

theorem idsOfCores_updated (hv : p.cpuVec = []) (k : ℕ) (cores : List ℤ) :
    (updated cpuPorts p (k + 1)).idsOfCores ((updated cpuPorts p (k + 1)).coresOf cores) =
      cores.flatMap (idsOf cpuPorts k) := by
  induction cores with
  | nil => rfl
  | cons c cores ih =>
    have hc : (updated cpuPorts p (k + 1)).coresOf (c :: cores) =
        ((updated cpuPorts p (k + 1)).core c).toList ++
          (updated cpuPorts p (k + 1)).coresOf cores := by
      unfold coresOf
      cases hcore : (updated cpuPorts p (k + 1)).core c <;> simp [hcore]
    have happ : ∀ names names', (updated cpuPorts p (k + 1)).idsOfCores (names ++ names') =
        (updated cpuPorts p (k + 1)).idsOfCores names ++
          (updated cpuPorts p (k + 1)).idsOfCores names' := fun _ _ => List.flatMap_append
    rw [hc, happ, ih, List.flatMap_cons, idsOfCores]
    congr 1
    rw [(updated_succ hv k).1, core_updated hv, idsOf, idsOfCpu]
    split_ifs
    · cases cpuPorts.keys[coreIndex c % cpuPorts.size]? <;> simp
    · rfl

variable (cpuPorts) in
theorem coresOf_updated_eq_nil_iff (hv : p.cpuVec = []) (k : ℕ) (cores : List ℤ) :
    (updated cpuPorts p (k + 1)).coresOf cores = [] ↔
      ∀ c ∈ cores, (k + 1) * cpuPorts.size ≤ coreIndex c := by
  rw [coresOf, List.filterMap_eq_nil_iff]
  refine forall₂_congr fun c _ => ?_
  rw [core_updated hv]
  split_ifs with h
  · have hpos : 0 < cpuPorts.size := Nat.pos_of_ne_zero fun h0 => by simp [h0] at h
    have hlt : coreIndex c % cpuPorts.size < cpuPorts.keys.length := by
      rw [TreeMap.length_keys]
      exact Nat.mod_lt _ hpos
    simpa [List.getElem?_eq_getElem hlt] using h
  · simpa using h

/-- Some lists, of which some are left out: nothing is missing if those are empty. -/
theorem flatMap_eq_flatMap_iff {α β : Type} {f g : α → List β} {l : List α}
    (h : ∀ a, g a = f a ∨ g a = []) : l.flatMap f = l.flatMap g ↔ ∀ a ∈ l, f a = g a := by
  have hlen : ∀ l : List α, (l.flatMap g).length ≤ (l.flatMap f).length := by
    intro l
    induction l with
    | nil => rfl
    | cons a l ih =>
      simp only [List.flatMap_cons, List.length_append]
      obtain ha | ha := h a <;> simp only [ha, List.length_nil] <;> omega
  induction l with
  | nil => simp
  | cons a l ih =>
    have hcons : f a ++ l.flatMap f = g a ++ l.flatMap g ↔
        f a = g a ∧ l.flatMap f = l.flatMap g := by
      obtain ha | ha := h a
      · rw [ha, List.append_cancel_left_eq]
        simp
      · constructor
        · intro heq
          have hl := congrArg List.length heq
          have hle := hlen l
          rw [ha, List.length_append, List.nil_append] at hl
          have hf : f a = [] := List.length_eq_zero_iff.1 (by omega)
          rw [hf, ha] at heq
          exact ⟨hf.trans ha.symm, heq⟩
        · rintro ⟨h₁, h₂⟩
          rw [h₁, h₂]
    rw [List.flatMap_cons, List.flatMap_cons, hcons, List.forall_mem_cons]
    exact and_congr_right fun _ => ih

variable (cpuPorts) in
theorem idsOf_zero_eq (k : ℕ) (c : ℤ) :
    idsOf cpuPorts 0 c = idsOf cpuPorts k c ∨ idsOf cpuPorts 0 c = [] := by
  unfold idsOf
  rw [Nat.zero_add, Nat.one_mul]
  by_cases h : coreIndex c < cpuPorts.size
  · have h' : coreIndex c < (k + 1) * cpuPorts.size :=
      h.trans_le (Nat.le_mul_of_pos_left _ k.succ_pos)
    exact .inl (by rw [if_pos h, if_pos h'])
  · exact .inr (if_neg h)

/-- The entry of a socket is the same after many updates as after one if and only if its core
indices are harmless. -/
theorem entry_eq_iff (hv : p.cpuVec = []) (k : ℕ) (cores : List ℤ) :
    (if (updated cpuPorts p (k + 1)).coresOf cores = [] then none else
        some ((updated cpuPorts p (k + 1)).idsOfCores
          ((updated cpuPorts p (k + 1)).coresOf cores))) =
      (if (updated cpuPorts p 1).coresOf cores = [] then none else
        some ((updated cpuPorts p 1).idsOfCores ((updated cpuPorts p 1).coresOf cores))) ↔
    ∀ c ∈ cores, cpuPorts.size ≤ coreIndex c → coreIndex c < (k + 1) * cpuPorts.size →
      idsOfCpu cpuPorts (coreIndex c % cpuPorts.size) = [] ∧
        ∃ d ∈ cores, coreIndex d < cpuPorts.size := by
  have hmany := coresOf_updated_eq_nil_iff cpuPorts hv k cores
  have hone := coresOf_updated_eq_nil_iff cpuPorts hv 0 cores
  have hids := flatMap_eq_flatMap_iff (l := cores) (idsOf_zero_eq cpuPorts k)
  simp only [Nat.zero_add, Nat.one_mul] at hone
  rw [idsOfCores_updated hv, idsOfCores_updated hv 0]
  constructor
  · intro h c hc hle hlt
    have hne : (updated cpuPorts p (k + 1)).coresOf cores ≠ [] := fun hn =>
      absurd hlt (Nat.not_lt.2 (hmany.1 hn c hc))
    rw [if_neg hne] at h
    by_cases hn : (updated cpuPorts p 1).coresOf cores = []
    · rw [if_pos hn] at h
      cases h
    · rw [if_neg hn] at h
      have hc' := hids.1 (Option.some.inj h) c hc
      rw [idsOf, idsOf, if_pos hlt, Nat.zero_add, Nat.one_mul, if_neg (Nat.not_lt.2 hle)] at hc'
      refine ⟨hc', ?_⟩
      by_contra hd
      exact hn (hone.2 fun d hmem => Nat.not_lt.1 fun hlt => hd ⟨d, hmem, hlt⟩)
  · intro h
    have hle : cpuPorts.size ≤ (k + 1) * cpuPorts.size := Nat.le_mul_of_pos_left _ k.succ_pos
    have hids' : cores.flatMap (idsOf cpuPorts k) = cores.flatMap (idsOf cpuPorts 0) := by
      refine hids.2 fun c hc => ?_
      rw [idsOf, idsOf, Nat.zero_add, Nat.one_mul]
      split_ifs with h₁ h₂ h₂
      · rfl
      · exact (h c hc (Nat.not_lt.1 h₂) h₁).1
      · omega
      · rfl
    rw [hids']
    refine if_congr ?_ rfl rfl
    rw [hmany, hone]
    constructor
    · exact fun hn c hc => hle.trans (hn c hc)
    · intro hn c hc
      by_contra hlt
      obtain ⟨d, hd, hdlt⟩ := (h c hc (hn c hc) (Nat.not_le.1 hlt)).2
      exact absurd hdlt (Nat.not_lt.2 (hn d hd))

/-- The socket map is the same after many updates as after one if and only if the core map is
harmless. -/
theorem socketIds_eq_iff (hv : p.cpuVec = []) (k : ℕ) :
    (∀ s, (updated cpuPorts p (k + 1)).socketIds tr s = (updated cpuPorts p 1).socketIds tr s) ↔
      Harmless cpuPorts tr (k + 1) := by
  unfold socketIds Harmless
  cases he : tr.socketCoreMap.isEmpty with
  | true =>
    simp only [if_true, (updated_succ hv k).1, (updated_succ hv 0).1, implies_true, true_iff]
    intro s cores hs
    have hmem : s ∈ tr.socketCoreMap := TreeMap.mem_iff_isSome_getElem?.2 (by simp [hs])
    exact absurd hmem (TreeMap.not_mem_of_isEmpty he)
  | false =>
    refine forall_congr' fun s => ?_
    simp only [Bool.false_eq_true, if_false]
    cases hs : tr.socketCoreMap[s]? with
    | none => simp
    | some cores => simpa using entry_eq_iff hv k cores

/-- Socket maps with the same entries give the same answers. -/
theorem sameSocketMap_iff (hc : q.usingGem5Cache = q'.usingGem5Cache) :
    SameSocketMap q q' ↔ ∀ s : ℕ, q.socketMap[s]? = q'.socketMap[s]? := by
  refine ⟨SameSocketMap.socketMap, fun h => ⟨h, fun id => ?_⟩⟩
  have hl : q.socketMap.toList = q'.socketMap.toList :=
    (TreeMap.Equiv.of_forall_constGet?_eq h).toList_eq
  simp only [getSocketId, hl, hc]

/-- Once is enough for the set-up calls of a port if and only if the first bind is that of a
single-socket transactor or the only one, and the core map is harmless. -/
theorem setUpOnce_iff (cpuPorts : TreeMap String (List ℕ)) (m : Option SlaveTransactorMulti) (n : ℕ)
    (cs : List SetUp) :
    SetUpOnce cpuPorts (new m n) cs ↔ OnceIsEnough cpuPorts cs := by
  have hupdate : ∀ k tr q q', (new m n).setUps cpuPorts
      (List.replicate (k + 1) .getSlavePort ++ [.bindToTransactorMulti tr]) = .ok q →
      (new m n).setUps cpuPorts [.getSlavePort, .bindToTransactorMulti tr] = .ok q' →
      (SameSocketMap q q' ↔ Harmless cpuPorts tr (k + 1)) := by
    intro k tr q q' hq hq'
    rw [setUps_updated] at hq
    have hq' := (setUps_updated 1 (.bindToTransactorMulti tr)).symm.trans hq'
    have hf := fresh_of_bind (unbound_updated (.new m n) (k + 1)) hq
    have hf' := fresh_of_bind (unbound_updated (.new m n) 1) hq'
    rw [sameSocketMap_iff (hf.usingGem5Cache.trans hf'.usingGem5Cache.symm),
      ← socketIds_eq_iff (p := new m n) rfl k]
    exact forall_congr' fun s => by rw [hf.socketMap, hf'.socketMap]
  have hok : ∀ k tr, ∃ q, (new m n).setUps cpuPorts
      (List.replicate k .getSlavePort ++ [.bindToTransactorMulti tr]) = .ok q := by
    intro k tr
    rw [setUps_updated]
    exact (setUp_of_isBind cpuPorts rfl).1 (unbound_updated (.new m n) k).fields.1
  constructor
  · rintro ⟨hbind, hup⟩
    refine ⟨(bind_iff (p := new m n) rfl).1 hbind, fun k tr post hcs => ?_⟩
    obtain ⟨q, hq⟩ := hok (k + 1) tr
    obtain ⟨q', hq'⟩ := hok 1 tr
    exact (hupdate k tr q q' hq hq').1 (hup k tr post q q' hcs hq hq')
  · rintro ⟨hbind, hup⟩
    exact ⟨(bind_iff rfl).2 hbind, fun k tr post q q' hcs hq hq' =>
      (hupdate k tr q q' hq hq').2 (hup k tr post hcs)⟩

/-- The second bind succeeds after a multi-socket one. -/
theorem not_setUpOnce : ¬ ∀ (cpuPorts : TreeMap String (List ℕ)) (m : Option SlaveTransactorMulti)
    (n : ℕ) (cs : List SetUp), SetUpOnce cpuPorts (new m n) cs := by
  intro h
  have hfail := (h ∅ none 0 [.bindToTransactorMulti secondSocketOnly, .bindToTransactor 0]).bind
    [.bindToTransactorMulti secondSocketOnly] (.bindToTransactor 0) [] _ rfl rfl rfl rfl
  cases hfail

end SCSlavePort

end Gem5Wrapper
