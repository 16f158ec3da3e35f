import Gem5Wrapper.SocketMap

/-!
# The routing table

Which socket a requestor id is sent to, in terms of the CPUs and of the core map, and the same
question asked of `Gem5SimControl`, which knows the CPUs only.

Core indices are `int` and sockets are counted in 32 bits. `InRange` says that the inputs are
values of these types.
-/

namespace Gem5Wrapper

open Std (TreeMap)

variable {map : TreeMap String (List ℕ)} {tr : SlaveTransactorMulti} {s id : ℕ}

/-! ## The source -/

/-- `Gem5SimControl::getCoreIDByRequestorID`. -/
def getCoreIDByRequestorID (cpuPorts : TreeMap String (List ℕ)) (id : ℕ) : ℕ :=
  go cpuPorts.toList 0
where
  go : List (String × List ℕ) → ℕ → ℕ
    | [], _ => 0
    | e :: l, coreId => if id ∈ e.2 then coreId else go l ((coreId + 1) % 2 ^ 32)

/-! ## Routes -/

/-- The inputs are values of their C++ types. -/
structure InRange (map : TreeMap String (List ℕ)) (tr : SlaveTransactorMulti) : Prop where
  cpus : map.size < 2 ^ 32
  cores : ∀ (s : ℕ) cores, tr.socketCoreMap[s]? = some cores →
    ∀ c ∈ cores, -2 ^ 31 ≤ c ∧ c < (2 ^ 31 : ℤ)

/-- Core index `c` is listed for socket `s`. Without a core map each socket lists its own core. -/
def SlaveTransactorMulti.Lists (tr : SlaveTransactorMulti) (s : ℕ) (c : ℤ) : Prop :=
  if tr.socketCoreMap.isEmpty then c = s
  else ∃ cores, tr.socketCoreMap[s]? = some cores ∧ c ∈ cores

/-- A core index listed for socket `s` names a CPU that has the requestor id. -/
def Routes (map : TreeMap String (List ℕ)) (tr : SlaveTransactorMulti) (s id : ℕ) : Prop :=
  ∃ c : ℤ, tr.Lists s c ∧ 0 ≤ c ∧ c < map.size ∧
    ∃ name ids, map.toList[c.toNat]? = some (name, ids) ∧ id ∈ ids

/-- The port after one `updateCorePortMap`, with what `bindToTransactor` takes over from the
transactor. -/
def mappedPort (m : Option SlaveTransactorMulti) (n : ℕ) (map : TreeMap String (List ℕ))
    (tr : SlaveTransactorMulti) : SCSlavePort :=
  ((SCSlavePort.new m n).updateCorePortMap map).setTransactorMulti tr

variable {m : Option SlaveTransactorMulti} {n : ℕ}

/-- A core index is that of a CPU if it is one of an array. -/
theorem core_eq_some (hc : map.size < 2 ^ 32) {c : ℤ} (h₁ : -2 ^ 31 ≤ c) (h₂ : c < 2 ^ 31)
    {name : String} : (mappedPort m n map tr).core c = some name ↔
      0 ≤ c ∧ c < map.size ∧ map.keys[c.toNat]? = some name := by
  have hlen : map.keys.length = map.size := TreeMap.length_keys
  have hvec : (mappedPort m n map tr).core c = map.keys[(c % 2 ^ 64).toNat]? := by
    simp [mappedPort, SCSlavePort.core, SCSlavePort.setTransactorMulti,
      SCSlavePort.updateCorePortMap, SCSlavePort.new]
  rw [hvec]
  rcases lt_or_ge c 0 with hneg | hpos
  · have hmod : c % 2 ^ 64 = c + 2 ^ 64 := by omega
    have hout : map.keys.length ≤ (c % 2 ^ 64).toNat := by rw [hmod, hlen]; omega
    rw [List.getElem?_eq_none hout]
    simp [hneg.not_ge]
  · have hmod : c % 2 ^ 64 = c := by omega
    rw [hmod]
    constructor
    · intro h
      have := (List.getElem?_eq_some_iff.1 h).1
      exact ⟨hpos, by omega, h⟩
    · exact fun h => h.2.2

theorem keys_getElem? {i : ℕ} {name : String} : map.keys[i]? = some name ↔
    ∃ ids, map.toList[i]? = some (name, ids) := by
  rw [← TreeMap.map_fst_toList_eq_keys, List.getElem?_map, Option.map_eq_some_iff]
  constructor
  · rintro ⟨⟨_, ids⟩, h, rfl⟩
    exact ⟨ids, h⟩
  · rintro ⟨ids, h⟩
    exact ⟨_, h, rfl⟩

theorem getD_of_toList {i : ℕ} {name : String} {ids : List ℕ}
    (h : map.toList[i]? = some (name, ids)) : map.getD name [] = ids := by
  have := TreeMap.mem_toList_iff_getElem?_eq_some.1 (List.mem_of_getElem? h)
  rw [TreeMap.getD_eq_getD_getElem?, this]
  rfl

/-- A socket gets the ids that are routed to it. -/
theorem serves_iff_routes (hr : InRange map tr) :
    (mappedPort m n map tr).Serves tr s id ↔ Routes map tr s id := by
  unfold SCSlavePort.Serves SCSlavePort.socketIds Routes SlaveTransactorMulti.Lists
  have hmap : (mappedPort m n map tr).cpuPortMap = map := rfl
  split_ifs with he
  · rw [hmap]
    constructor
    · rintro ⟨ids, hs, hid⟩
      obtain ⟨⟨name, ids'⟩, he, rfl⟩ := Option.map_eq_some_iff.1 hs
      have hlt := (List.getElem?_eq_some_iff.1 he).1
      rw [TreeMap.length_toList] at hlt
      exact ⟨s, rfl, by omega, by omega, name, ids', by simpa using he, hid⟩
    · rintro ⟨_, rfl, -, -, name, ids, hs, hid⟩
      exact ⟨ids, by simpa using ⟨name, hs⟩, hid⟩
  · constructor
    · rintro ⟨ids, hs, hid⟩
      obtain ⟨cores, hcores, hs⟩ := Option.bind_eq_some_iff.1 hs
      split_ifs at hs with hne
      obtain rfl := Option.some.inj hs
      obtain ⟨name, hname, hid⟩ := List.mem_flatMap.1 hid
      obtain ⟨c, hc, hcore⟩ := List.mem_filterMap.1 hname
      obtain ⟨h₁, h₂⟩ := hr.cores s cores hcores c hc
      obtain ⟨hpos, hlt, hkey⟩ := (core_eq_some hr.cpus h₁ h₂).1 hcore
      obtain ⟨ids, hids⟩ := keys_getElem?.1 hkey
      rw [hmap, getD_of_toList hids] at hid
      exact ⟨c, ⟨cores, hcores, hc⟩, hpos, hlt, name, ids, hids, hid⟩
    · rintro ⟨c, ⟨cores, hcores, hc⟩, hpos, hlt, name, ids, hids, hid⟩
      obtain ⟨h₁, h₂⟩ := hr.cores s cores hcores c hc
      have hcore : (mappedPort m n map tr).core c = some name :=
        (core_eq_some hr.cpus h₁ h₂).2 ⟨hpos, hlt, keys_getElem?.2 ⟨ids, hids⟩⟩
      have hmem : name ∈ (mappedPort m n map tr).coresOf cores :=
        List.mem_filterMap.2 ⟨c, hc, hcore⟩
      refine ⟨_, Option.bind_eq_some_iff.2 ⟨cores, hcores, if_neg (List.ne_nil_of_mem hmem)⟩, ?_⟩
      exact List.mem_flatMap.2 ⟨name, hmem, by rw [hmap, getD_of_toList hids]; exact hid⟩

variable (id) in
/-- `getSocketId` gives the least socket that the id is routed to. -/
theorem getSocketId_routes (hr : InRange map tr) (hc : tr.isUsingGem5Cache = false) :
    ((∃ s, Routes map tr s id) →
      Routes map tr ((mappedPort m n map tr).initSocketMap.getSocketId id) id ∧
        ∀ s, Routes map tr s id → (mappedPort m n map tr).initSocketMap.getSocketId id ≤ s) ∧
      ((¬ ∃ s, Routes map tr s id) →
        (mappedPort m n map tr).initSocketMap.getSocketId id = 0) := by
  have hbind : ((SCSlavePort.new m n).updateCorePortMap map).bindToTransactorMulti tr = .ok _ := rfl
  have hf := SCSlavePort.fresh_of_bind (.update map (.new m n)) hbind
  have hserves : ∀ s, ((SCSlavePort.new m n).updateCorePortMap map).Serves tr s id ↔
      Routes map tr s id := fun s => serves_iff_routes (m := m) (n := n) hr
  constructor
  · rintro ⟨s, hs⟩
    obtain ⟨i, hi, hmin, hid⟩ := hf.getSocketId_of_serves ⟨s, (hserves s).2 hs⟩
    rw [if_neg (by simp [hc])] at hid
    have hid' : (mappedPort m n map tr).initSocketMap.getSocketId id = i := hid
    rw [hid']
    exact ⟨(hserves i).1 hi, fun s hs => hmin s ((hserves s).2 hs)⟩
  · intro hn
    exact hf.getSocketId_of_not_serves fun ⟨s, hs⟩ => hn ⟨s, (hserves s).1 hs⟩

/-! ## The core of a requestor -/

/-- The loop of `getCoreIDByRequestorID` counts the CPUs before the first one with the id. -/
theorem getCoreIDByRequestorID_go (l : List (String × List ℕ)) (k : ℕ)
    (hk : k + l.length ≤ 2 ^ 32) : getCoreIDByRequestorID.go id l k =
      match l.findIdx? fun e => id ∈ e.2 with
      | some i => k + i
      | none => 0 := by
  induction l generalizing k with
  | nil => rfl
  | cons e l ih =>
    rw [List.length_cons] at hk
    unfold getCoreIDByRequestorID.go
    split_ifs with he
    · simp [List.findIdx?_cons, he]
    · cases l with
      | nil => simp [getCoreIDByRequestorID.go, List.findIdx?_cons, he]
      | cons e' l =>
        rw [List.length_cons] at hk
        rw [Nat.mod_eq_of_lt (by omega), ih (k + 1) (by simp; omega)]
        simp only [List.findIdx?_cons (x := e), he, decide_false, Bool.false_eq_true, if_false]
        cases (e' :: l).findIdx? fun e => decide (id ∈ e.2) with
        | none => rfl
        | some i => exact Nat.add_right_comm k 1 i

/-- Without a core map a requestor is routed to the socket with the number of its core. -/
theorem getSocketId_eq_getCoreIDByRequestorID (hr : InRange map tr)
    (hc : tr.isUsingGem5Cache = false) (he : tr.socketCoreMap.isEmpty) :
    (mappedPort m n map tr).initSocketMap.getSocketId id = getCoreIDByRequestorID map id := by
  obtain ⟨h₁, h₂⟩ := getSocketId_routes (m := m) (n := n) id hr hc
  have hroutes : ∀ s, Routes map tr s id ↔
      ∃ e, map.toList[s]? = some e ∧ id ∈ e.2 := by
    intro s
    rw [← serves_iff_routes (m := m) (n := n) hr]
    simp [SCSlavePort.Serves, SCSlavePort.socketIds, he, mappedPort, SCSlavePort.setTransactorMulti,
      SCSlavePort.updateCorePortMap]
    constructor
    · rintro ⟨ids, ⟨name, h⟩, hid⟩
      exact ⟨name, ids, h, hid⟩
    · rintro ⟨name, ids, h, hid⟩
      exact ⟨ids, ⟨name, h⟩, hid⟩
  unfold getCoreIDByRequestorID
  rw [getCoreIDByRequestorID_go _ 0 (by rw [TreeMap.length_toList]; have := hr.cpus; omega)]
  cases hf : map.toList.findIdx? fun e => id ∈ e.2 with
  | none =>
    refine h₂ ?_
    rintro ⟨s, hs⟩
    obtain ⟨e, hmem, hid⟩ := (hroutes s).1 hs
    have := List.findIdx?_eq_none_iff.1 hf e (List.mem_of_getElem? hmem)
    simp [hid] at this
  | some i =>
    obtain ⟨hi, hid, hmin⟩ := List.findIdx?_eq_some_iff_getElem.1 hf
    have hri : Routes map tr i id :=
      (hroutes i).2 ⟨_, List.getElem?_eq_getElem hi, by simpa using hid⟩
    obtain ⟨hr', hle⟩ := h₁ ⟨i, hri⟩
    show _ = 0 + i
    rw [Nat.zero_add]
    refine le_antisymm (hle i hri) (Nat.le_of_not_lt fun hlt => ?_)
    obtain ⟨e, hmem, hid'⟩ := (hroutes _).1 hr'
    have := hmin _ hlt
    rw [List.getElem?_eq_some_iff] at hmem
    obtain ⟨_, rfl⟩ := hmem
    simp [hid'] at this

/-- **The routing table.** A requestor is sent to the least socket that lists a core of it, or to
socket 0; without a core map that is the socket with the number of its core. -/
theorem routingTable (m : Option SlaveTransactorMulti) (n : ℕ) (map : TreeMap String (List ℕ))
    (tr : SlaveTransactorMulti) (id : ℕ) (hr : InRange map tr) (hc : tr.isUsingGem5Cache = false) :
    let socketId := (mappedPort m n map tr).initSocketMap.getSocketId id
    ((∃ s, Routes map tr s id) →
        Routes map tr socketId id ∧ ∀ s, Routes map tr s id → socketId ≤ s) ∧
      ((¬ ∃ s, Routes map tr s id) → socketId = 0) ∧
      (tr.socketCoreMap.isEmpty → socketId = getCoreIDByRequestorID map id) :=
  have ⟨h₁, h₂⟩ := getSocketId_routes _ hr hc
  ⟨h₁, h₂, getSocketId_eq_getCoreIDByRequestorID hr hc⟩

/-- Two CPUs with two requestor ids each. -/
def twoCpus : TreeMap String (List ℕ) :=
  ((∅ : TreeMap String (List ℕ)).insert "cpu0" [1, 2]).insert "cpu1" [3, 4]

/-- Socket 1 lists two indices of no CPU, and socket 2 the second CPU. -/
def sparseCoreMap : SlaveTransactorMulti where
  socketNum := 3
  socketNum_lt := by decide
  socketCoreMap := ((∅ : TreeMap ℕ (List ℤ)).insert 1 [-1, 5]).insert 2 [1]

theorem inRange_sparseCoreMap : InRange twoCpus sparseCoreMap := by
  refine ⟨by decide, fun s cores hs c hc => ?_⟩
  simp only [sparseCoreMap, TreeMap.getElem?_insert, compare_eq_iff_eq] at hs
  split_ifs at hs with h₁ h₂
  · obtain rfl := Option.some.inj hs
    simp at hc
    omega
  · obtain rfl := Option.some.inj hs
    simp at hc
    omega
  · simp at hs

theorem routingTable_sparseCoreMap :
    (mappedPort none 0 twoCpus sparseCoreMap).initSocketMap.getSocketId 3 = 2 ∧
      ∀ s, Routes twoCpus sparseCoreMap s 3 → 2 ≤ s := by
  have h := routingTable none 0 twoCpus sparseCoreMap 3 inRange_sparseCoreMap rfl
  have hid : (mappedPort none 0 twoCpus sparseCoreMap).initSocketMap.getSocketId 3 = 2 := by decide
  refine ⟨hid, fun s hs => ?_⟩
  have := (h.1 ⟨s, hs⟩).2 s hs
  rwa [hid] at this

end Gem5Wrapper
