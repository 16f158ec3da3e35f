import Gem5Wrapper.SlavePort

/-!
# Setting up a slave port

The constructor of `SCSlavePort`, `updateCorePortMap`, the two `bindToTransactor` and
`initSocketMap`. A field that the constructor leaves uninitialised is an argument of `new`.

The socket map is built from the inputs in three nested loops. `mappedSockets` and `Serves` say
what it holds in terms of the inputs, and `accepts_iff` says for which inputs the socket ids that
it gives out pass the bounds checks of `BlockingPacketHelper`, whose size is the number of the
entries of the map.
-/

namespace Gem5Wrapper

open FaultMachine
open Std (TreeMap)

namespace SCSlavePort

/-! ## The source -/

/-- `SCSlavePort::SCSlavePort`. -/
def new (transactorMulti : Option SlaveTransactorMulti) (socketNum : ℕ) : SCSlavePort where
  transactorMulti := transactorMulti
  helper := { socketNum := socketNum }

/-- `SCSlavePort::updateCorePortMap`. -/
def updateCorePortMap (p : SCSlavePort) (map : TreeMap String (List ℕ)) : SCSlavePort :=
  { p with cpuPortMap := map, cpuVec := p.cpuVec ++ map.keys }

/-- The CPU of a core index: `int` is compared with `size_t` and used as an index as such. -/
def core (p : SCSlavePort) (coreId : ℤ) : Option String := p.cpuVec[(coreId % 2 ^ 64).toNat]?

/-- One round of the inner loop of `initSocketMap`. -/
def addCore (socketId : ℕ) (p : SCSlavePort) (coreId : ℤ) : SCSlavePort :=
  match p.core coreId with
  | none => p
  | some coreName =>
    { p with
      socketMap := p.socketMap.insert socketId
        (p.socketMap.getD socketId [] ++ p.cpuPortMap.getD coreName [])
      cpuPortMap := p.cpuPortMap.insertIfNew coreName [] }

/-- `SCSlavePort::initSocketMap`. -/
def initSocketMap (p : SCSlavePort) : SCSlavePort :=
  match p.transactorMulti with
  | none => p
  | some tr =>
    if tr.socketCoreMap.isEmpty then
      { p with
        socketMap := p.cpuPortMap.toList.zipIdx.foldl (fun m e => m.insertIfNew e.2 e.1.2)
          p.socketMap }
    else
      tr.socketCoreMap.toList.foldl (fun p e => e.2.foldl (addCore e.1) p) p

/-- `SCSlavePort::bindToTransactor(Gem5SlaveTransactor*)`. -/
def bindToTransactor (p : SCSlavePort) (transactor : ℕ) : Except Fault SCSlavePort := do
  check (p.transactor = none)
    (.scAssert "SCSlavePort::bindToTransactor" "this->transactor == nullptr")
  pure { p with transactor := some transactor }

/-- What `bindToTransactor` takes over from the transactor. -/
def setTransactorMulti (p : SCSlavePort) (tr : SlaveTransactorMulti) : SCSlavePort :=
  { p with
    transactorMulti := some tr
    usingGem5Cache := tr.isUsingGem5Cache
    helper := { p.helper with usingGem5Cache := tr.isUsingGem5Cache } }

/-- `SCSlavePort::bindToTransactor(Gem5SlaveTransactor_Multi*)`. -/
def bindToTransactorMulti (p : SCSlavePort) (tr : SlaveTransactorMulti) :
    Except Fault SCSlavePort := do
  check (p.transactor = none)
    (.scAssert "SCSlavePort::bindToTransactor" "this->transactor == nullptr")
  let p := (p.setTransactorMulti tr).initSocketMap
  pure { p with helper := p.helper.init p.socketMap.size }

/-! ## Ports before and after the bind -/

/-- A port on which only `updateCorePortMap` has been called so far. -/
inductive Unbound : SCSlavePort → Prop
  | new (tr : Option SlaveTransactorMulti) (n : ℕ) : Unbound (new tr n)
  | update {p : SCSlavePort} (map : TreeMap String (List ℕ)) :
      Unbound p → Unbound (p.updateCorePortMap map)

/-- A port just bound to a multi-socket transactor. -/
def Bound (q : SCSlavePort) : Prop :=
  ∃ p tr, Unbound p ∧ p.bindToTransactorMulti tr = .ok q

variable {p q : SCSlavePort} {tr : SlaveTransactorMulti} {s id : ℕ}

/-- What the constructor set and nothing has changed since. -/
theorem Unbound.fields (h : Unbound p) :
    p.transactor = none ∧ p.blockingRequest = none ∧ p.needToSendRequestRetry = false ∧
      p.blockingResponse = none ∧ p.socketMap = ∅ ∧
      ∃ n, p.helper = { socketNum := n } := by
  induction h with
  | new tr n => exact ⟨rfl, rfl, rfl, rfl, rfl, n, rfl⟩
  | update map _ ih => exact ih

/-- `initSocketMap` writes to the socket map, and enters empty lists of ids. -/
structure OnlyMaps (p q : SCSlavePort) : Prop where
  transactor : q.transactor = p.transactor
  transactorMulti : q.transactorMulti = p.transactorMulti
  blockingRequest : q.blockingRequest = p.blockingRequest
  needToSendRequestRetry : q.needToSendRequestRetry = p.needToSendRequestRetry
  blockingResponse : q.blockingResponse = p.blockingResponse
  usingGem5Cache : q.usingGem5Cache = p.usingGem5Cache
  helper : q.helper = p.helper
  cpuVec : q.cpuVec = p.cpuVec
  ids : ∀ name, q.cpuPortMap.getD name [] = p.cpuPortMap.getD name []

theorem OnlyMaps.refl (p : SCSlavePort) : OnlyMaps p p :=
  ⟨rfl, rfl, rfl, rfl, rfl, rfl, rfl, rfl, fun _ => rfl⟩

theorem OnlyMaps.trans {r : SCSlavePort} (h₁ : OnlyMaps p q) (h₂ : OnlyMaps q r) :
    OnlyMaps p r :=
  ⟨h₂.1.trans h₁.1, h₂.2.trans h₁.2, h₂.3.trans h₁.3, h₂.4.trans h₁.4, h₂.5.trans h₁.5,
    h₂.6.trans h₁.6, h₂.7.trans h₁.7, h₂.8.trans h₁.8, fun n => (h₂.9 n).trans (h₁.9 n)⟩

theorem onlyMaps_addCore (p : SCSlavePort) (c : ℤ) : OnlyMaps p (p.addCore s c) := by
  unfold addCore
  split
  · exact .refl p
  · refine ⟨rfl, rfl, rfl, rfl, rfl, rfl, rfl, rfl, fun name => ?_⟩
    simp only [TreeMap.getD_insertIfNew]
    split_ifs with h
    · exact (TreeMap.getD_eq_fallback (compare_eq_iff_eq.1 h.1 ▸ h.2)).symm
    · rfl

theorem onlyMaps_foldl {ι : Type} {f : SCSlavePort → ι → SCSlavePort}
    (hf : ∀ p i, OnlyMaps p (f p i)) (l : List ι) (p : SCSlavePort) :
    OnlyMaps p (l.foldl f p) := by
  induction l generalizing p with
  | nil => exact .refl p
  | cons i l ih => exact (hf p i).trans (ih _)

theorem onlyMaps_initSocketMap (p : SCSlavePort) : OnlyMaps p p.initSocketMap := by
  unfold initSocketMap
  split
  · exact .refl p
  · split_ifs
    · exact ⟨rfl, rfl, rfl, rfl, rfl, rfl, rfl, rfl, fun _ => rfl⟩
    · exact onlyMaps_foldl (fun p (e : ℕ × List ℤ) => onlyMaps_foldl onlyMaps_addCore e.2 p) _ p

/-! ## What the socket map holds -/

/-- The CPUs of the core indices listed for a socket; an index without a CPU is skipped. -/
def coresOf (p : SCSlavePort) (cores : List ℤ) : List String := cores.filterMap p.core

/-- The requestor ids of some CPUs. -/
def idsOfCores (p : SCSlavePort) (names : List String) : List ℕ :=
  names.flatMap fun name => p.cpuPortMap.getD name []

/-- The ids that socket `s` gets, if it gets an entry: without a core map the ids of the `s`-th
CPU, with one the ids of the cores listed for it, provided that one of them exists. -/
def socketIds (p : SCSlavePort) (tr : SlaveTransactorMulti) (s : ℕ) : Option (List ℕ) :=
  if tr.socketCoreMap.isEmpty then p.cpuPortMap.toList[s]?.map Prod.snd
  else tr.socketCoreMap[s]?.bind fun cores =>
    if p.coresOf cores = [] then none else some (p.idsOfCores (p.coresOf cores))

theorem coresOf_congr (h : OnlyMaps p q) (cores : List ℤ) : q.coresOf cores = p.coresOf cores := by
  unfold coresOf core
  rw [h.cpuVec]

theorem idsOfCores_congr (h : OnlyMaps p q) (names : List String) :
    q.idsOfCores names = p.idsOfCores names := by
  unfold idsOfCores
  simp only [h.ids]

/-- The inner loop appends the ids of the cores that exist to the entry of its socket. -/
theorem socketMap_addCores (cores : List ℤ) (p : SCSlavePort) (i : ℕ) :
    (cores.foldl (addCore s) p).socketMap[i]? =
      if s = i ∧ p.coresOf cores ≠ [] then
        some (p.socketMap.getD s [] ++ p.idsOfCores (p.coresOf cores))
      else p.socketMap[i]? := by
  induction cores generalizing p with
  | nil => simp [coresOf]
  | cons c cores ih =>
    rw [List.foldl_cons, ih, coresOf_congr (onlyMaps_addCore p c),
      idsOfCores_congr (onlyMaps_addCore p c)]
    cases hc : p.core c with
    | none => simp [addCore, coresOf, hc]
    | some name =>
      have hcs : p.coresOf (c :: cores) = name :: p.coresOf cores := by simp [coresOf, hc]
      have hids : p.idsOfCores (name :: p.coresOf cores) =
          p.cpuPortMap.getD name [] ++ p.idsOfCores (p.coresOf cores) := by
        simp [idsOfCores]
      simp only [addCore, hc, hcs, hids, TreeMap.getElem?_insert, TreeMap.getD_insert_self,
        compare_eq_iff_eq, ne_eq, reduceCtorEq, not_false_eq_true, and_true]
      by_cases hs : s = i
      · by_cases h : p.coresOf cores = []
        · simp [hs, h, idsOfCores]
        · simp [hs, h]
      · simp [hs]

/-- The outer loop makes the entries of all sockets; no socket is listed twice. -/
theorem socketMap_addSockets (l : List (ℕ × List ℤ)) (hl : (l.map Prod.fst).Nodup)
    (p : SCSlavePort) (hp : ∀ i ∈ l.map Prod.fst, p.socketMap[i]? = none) (i : ℕ) :
    (l.foldl (fun p e => e.2.foldl (addCore e.1) p) p).socketMap[i]? =
      match l.find? fun e => e.1 = i with
      | some e => if p.coresOf e.2 = [] then none else some (p.idsOfCores (p.coresOf e.2))
      | none => p.socketMap[i]? := by
  induction l generalizing p with
  | nil => rfl
  | cons e l ih =>
    have hf := onlyMaps_foldl (fun p c => onlyMaps_addCore (s := e.1) p c) e.2 p
    simp only [List.map_cons, List.nodup_cons] at hl
    rw [List.foldl_cons, ih hl.2]
    · simp only [coresOf_congr hf, idsOfCores_congr hf, List.find?_cons]
      by_cases hi : e.1 = i
      · have hnone : (l.find? fun e => e.1 = i) = none := by
          rw [List.find?_eq_none]
          rintro e' he' hi'
          exact hl.1 (List.mem_map.2 ⟨e', he', by simp_all⟩)
        have hold : p.socketMap.getD e.1 [] = [] := by
          rw [TreeMap.getD_eq_getD_getElem?, hp e.1 (by simp)]; rfl
        subst hi
        simp only [decide_true, hnone, socketMap_addCores, true_and, hold, List.nil_append]
        by_cases hc : p.coresOf e.2 = []
        · simp [hc, hp e.1 (by simp)]
        · simp [hc]
      · simp only [hi, decide_false, socketMap_addCores, false_and, if_false]
    · intro j hj
      have hne : e.1 ≠ j := fun h => hl.1 (h ▸ hj)
      rw [socketMap_addCores, if_neg fun h => hne h.1]
      exact hp j (List.mem_map.2 (by simpa using Or.inr (List.mem_map.1 hj)))

/-- Without a core map the CPUs get the sockets in their order. -/
theorem getElem?_zipIdx_insertIfNew {β : Type} (l : List (String × β)) (k : ℕ)
    (m : TreeMap ℕ β) (hm : ∀ i, k ≤ i → i ∉ m) (i : ℕ) :
    ((l.zipIdx k).foldl (fun m e => m.insertIfNew e.2 e.1.2) m)[i]? =
      if k ≤ i then l[i - k]?.map Prod.snd else m[i]? := by
  induction l generalizing k m with
  | nil =>
    simp only [List.zipIdx_nil, List.foldl_nil, List.getElem?_nil, Option.map_none]
    split_ifs with hi
    · exact TreeMap.getElem?_eq_none (hm i hi)
    · rfl
  | cons e l ih =>
    rw [List.zipIdx_cons, List.foldl_cons, ih]
    · simp only [TreeMap.getElem?_insertIfNew, compare_eq_iff_eq]
      rcases Nat.lt_trichotomy k i with hi | hi | hi
      · have h1 : k + 1 ≤ i := hi
        have h2 : i - k = i - (k + 1) + 1 := by omega
        rw [if_pos h1, if_pos hi.le, h2, List.getElem?_cons_succ]
      · subst hi
        simp [hm k le_rfl]
      · have h1 : ¬ k + 1 ≤ i := by omega
        have h2 : ¬ k ≤ i := by omega
        have h3 : k ≠ i := by omega
        simp [h1, h2, h3]
    · intro j hj
      rw [TreeMap.mem_insertIfNew, compare_eq_iff_eq]
      rintro (h | h)
      · omega
      · exact hm j (by omega) h

/-- **The socket map of a port just bound.** -/
theorem socketMap_initSocketMap (htr : p.transactorMulti = some tr) (hp : p.socketMap = ∅)
    (i : ℕ) : p.initSocketMap.socketMap[i]? = p.socketIds tr i := by
  unfold initSocketMap socketIds
  simp only [htr]
  split_ifs with he
  · rw [hp, getElem?_zipIdx_insertIfNew _ _ _ (by simp)]
    simp
  · have hnd : (tr.socketCoreMap.toList.map Prod.fst).Nodup := by
      refine List.Pairwise.map _ (fun a b h => ?_) tr.socketCoreMap.ordered_keys_toList
      rintro h'
      rw [h'] at h
      simp at h
    rw [socketMap_addSockets _ hnd _ (by simp [hp])]
    cases hf : tr.socketCoreMap.toList.find? fun e => e.1 = i with
    | none =>
      have : tr.socketCoreMap[i]? = none := by
        cases hm : tr.socketCoreMap[i]? with
        | none => rfl
        | some cores =>
          have := List.find?_eq_none.1 hf (i, cores) (TreeMap.mem_toList_iff_getElem?_eq_some.2 hm)
          simp at this
      simp [this, hp]
    | some e =>
      have h1 : e.1 = i := by simpa using List.find?_some hf
      have h2 : tr.socketCoreMap[i]? = some e.2 := by
        rw [← TreeMap.mem_toList_iff_getElem?_eq_some, ← h1]
        exact List.mem_of_find?_eq_some hf
      simp [h2]

/-! ## Ports just bound -/

/-- What a port is like just after the bind. -/
structure Fresh (p : SCSlavePort) (tr : SlaveTransactorMulti) (q : SCSlavePort) : Prop where
  transactor : q.transactor = none
  transactorMulti : q.transactorMulti = some tr
  blockingRequest : q.blockingRequest = none
  needToSendRequestRetry : q.needToSendRequestRetry = false
  blockingResponse : q.blockingResponse = none
  usingGem5Cache : q.usingGem5Cache = tr.isUsingGem5Cache
  cache : q.helper.usingGem5Cache = tr.isUsingGem5Cache
  unblocked : q.helper.isSystemPortBlocked = false
  covers : q.helper.Covers
  socketNum : q.helper.socketNum = q.socketMap.size
  request : q.helper.request = fun _ => none
  response : q.helper.response = fun _ => none
  owed : q.helper.owed = fun _ => false
  socketMap : ∀ i, q.socketMap[i]? = p.socketIds tr i

theorem fresh_of_bind (hp : Unbound p) (hq : p.bindToTransactorMulti tr = .ok q) :
    Fresh p tr q := by
  obtain ⟨h1, h2, h3, h4, h5, n, h6⟩ := hp.fields
  simp only [bindToTransactorMulti, bind_eq_ok, check_eq_ok, pure_eq_ok, Except.ok.injEq] at hq
  obtain ⟨-, -, rfl⟩ := hq
  have hf := onlyMaps_initSocketMap (p.setTransactorMulti tr)
  have hh : (p.setTransactorMulti tr).initSocketMap.helper =
      { socketNum := n, usingGem5Cache := tr.isUsingGem5Cache } :=
    hf.helper.trans (by simp [setTransactorMulti, h6])
  refine ⟨hf.transactor.trans h1, hf.transactorMulti, hf.blockingRequest.trans h2,
    hf.needToSendRequestRetry.trans h3, hf.blockingResponse.trans h4, hf.usingGem5Cache, ?_, ?_,
    BlockingPacketHelper.covers_init _ _, rfl, ?_, ?_, ?_,
    socketMap_initSocketMap (p := p.setTransactorMulti tr) rfl h5⟩
  all_goals simp only [hh, BlockingPacketHelper.request_init,
    BlockingPacketHelper.response_init, BlockingPacketHelper.owed_init]
  · rfl
  · rfl
  · funext i; simp [BlockingPacketHelper.request]
  · funext i; simp [BlockingPacketHelper.response]
  · funext i; simp [BlockingPacketHelper.owed]

/-! ## The ids that the helper accepts -/

/-- The inputs map requestor `id` to socket `s`. -/
def Serves (p : SCSlavePort) (tr : SlaveTransactorMulti) (s id : ℕ) : Prop :=
  ∃ ids, p.socketIds tr s = some ids ∧ id ∈ ids

/-- The sockets that get an entry in the socket map. -/
def mappedSockets (p : SCSlavePort) (tr : SlaveTransactorMulti) : List ℕ :=
  (if tr.socketCoreMap.isEmpty then List.range p.cpuPortMap.size else tr.socketCoreMap.keys).filter
    fun s => (p.socketIds tr s).isSome

/-- Gem5 caches shift the sockets of the cores by one, behind the socket of the system port. -/
def shift (tr : SlaveTransactorMulti) : ℕ := if tr.isUsingGem5Cache then 1 else 0

theorem mem_mappedSockets : s ∈ p.mappedSockets tr ↔ (p.socketIds tr s).isSome := by
  unfold mappedSockets
  rw [List.mem_filter, and_iff_right_iff_imp]
  intro h
  unfold socketIds at h
  split_ifs at h ⊢ with he
  · rw [List.mem_range, ← TreeMap.length_toList]
    by_contra hs
    rw [List.getElem?_eq_none (Nat.le_of_not_lt hs)] at h
    exact absurd h (by simp)
  · rw [TreeMap.mem_keys, TreeMap.mem_iff_isSome_getElem?]
    cases hm : tr.socketCoreMap[s]? <;> simp_all

theorem nodup_keys {β : Type} (m : TreeMap ℕ β) : m.keys.Nodup :=
  m.distinct_keys.imp fun h he => h (compare_eq_iff_eq.2 he)

theorem nodup_mappedSockets : (p.mappedSockets tr).Nodup := by
  unfold mappedSockets
  refine List.Nodup.filter _ ?_
  split_ifs
  · exact List.nodup_range
  · exact nodup_keys _

/-- The helper is as large as the number of mapped sockets. -/
theorem Fresh.size (h : Fresh p tr q) : q.socketMap.size = (p.mappedSockets tr).length := by
  rw [← TreeMap.length_keys]
  refine List.Perm.length_eq ((List.perm_ext_iff_of_nodup (nodup_keys _) nodup_mappedSockets).2
    fun i => ?_)
  rw [TreeMap.mem_keys, TreeMap.mem_iff_isSome_getElem?, h.socketMap, mem_mappedSockets]

/-- **`getSocketId` gives the least socket that serves the id.** -/
theorem Fresh.getSocketId_of_serves (h : Fresh p tr q) (hs : ∃ s, p.Serves tr s id) :
    ∃ s, p.Serves tr s id ∧ (∀ i, p.Serves tr i id → s ≤ i) ∧
      q.getSocketId id = if tr.isUsingGem5Cache then (s + 1) % 2 ^ 32 else s := by
  have hmem : ∀ e ∈ q.socketMap.toList, p.socketIds tr e.1 = some e.2 := fun e he => by
    rw [← h.socketMap]; exact TreeMap.mem_toList_iff_getElem?_eq_some.1 he
  cases hf : q.socketMap.toList.find? fun e => id ∈ e.2 with
  | none =>
    obtain ⟨s, ids, hs, hid⟩ := hs
    rw [← h.socketMap, ← TreeMap.mem_toList_iff_getElem?_eq_some] at hs
    exact absurd hid (by simpa using List.find?_eq_none.1 hf _ hs)
  | some e =>
    obtain ⟨hid, l₁, l₂, hl, hl₁⟩ := List.find?_eq_some_iff_append.1 hf
    have he : e ∈ q.socketMap.toList := by rw [hl]; simp
    refine ⟨e.1, ⟨e.2, hmem e he, by simpa using hid⟩, ?_, ?_⟩
    · rintro i ⟨ids, hi, hids⟩
      rw [← h.socketMap, ← TreeMap.mem_toList_iff_getElem?_eq_some, hl, List.mem_append,
        List.mem_cons] at hi
      have hord := q.socketMap.ordered_keys_toList
      rw [hl, List.pairwise_append, List.pairwise_cons] at hord
      rcases hi with hi | hi | hi
      · exact absurd hids (by simpa using hl₁ _ hi)
      · exact le_of_eq (by rw [← hi])
      · exact (compare_lt_iff_lt.1 (hord.2.1.1 _ hi)).le
    · simp only [getSocketId, hf, h.usingGem5Cache]

theorem Fresh.getSocketId_of_not_serves (h : Fresh p tr q) (hs : ¬ ∃ s, p.Serves tr s id) :
    q.getSocketId id = 0 := by
  have hf : (q.socketMap.toList.find? fun e => id ∈ e.2) = none := by
    rw [List.find?_eq_none]
    rintro ⟨s, ids⟩ he
    rw [TreeMap.mem_toList_iff_getElem?_eq_some, h.socketMap] at he
    simpa using fun hid => hs ⟨s, ids, he, hid⟩
  simp only [getSocketId, hf]

end SCSlavePort

namespace BlockingPacketHelper

/-- No call of the helper for socket `s` fails an assertion or reports FATAL. -/
structure Accepts (h : BlockingPacketHelper) (s : ℕ) : Prop where
  isBlockedPort : ∀ ty, ∃ b, h.isBlockedPort s ty = .ok b
  getBlockingTrans : ∀ ty, ∃ t, h.getBlockingTrans s ty = .ok t
  needToSendRequestRetry : ∃ b, h.needToSendRequestRetry s = .ok b
  updateRetryMap : ∀ b, ∃ h', h.updateRetryMap s b = .ok h'
  updateBlockingMap : ∀ t ty, ∃ h', h.updateBlockingMap s t ty = .ok h'

/-- The states of the helper that any calls lead to. -/
inductive Updated (h : BlockingPacketHelper) : BlockingPacketHelper → Prop
  | refl : Updated h h
  | blocking {h₁ h₂ : BlockingPacketHelper} {s : ℕ} {t : Option Ptr} {ty : PktType} :
      Updated h h₁ → h₁.updateBlockingMap s t ty = .ok h₂ → Updated h h₂
  | retry {h₁ h₂ : BlockingPacketHelper} {s : ℕ} {b : Bool} :
      Updated h h₁ → h₁.updateRetryMap s b = .ok h₂ → Updated h h₂

variable {h h' : BlockingPacketHelper} {s : ℕ}

theorem Updated.frame (hu : Updated h h') : h.SameFrame h' := by
  induction hu with
  | refl => exact ⟨rfl, rfl, id⟩
  | blocking _ hs ih =>
    have hf := updateBlockingMap_frame hs
    exact ⟨hf.1.trans ih.1, hf.2.trans ih.2, fun hc => hf.3 (ih.3 hc)⟩
  | retry _ hs ih =>
    have hf := updateRetryMap_frame hs
    exact ⟨hf.1.trans ih.1, hf.2.trans ih.2, fun hc => hf.3 (ih.3 hc)⟩

theorem accepts_of_lt (hc : h.Covers) (hs : s < h.socketNum) : h.Accepts s where
  isBlockedPort ty := by
    cases hb : h.isSystemPortBlocked with
    | true => exact ⟨true, by simp [BlockingPacketHelper.isBlockedPort, hb]⟩
    | false => exact ⟨_, isBlockedPort_eq hb hc hs⟩
  getBlockingTrans _ := ⟨_, getBlockingTrans_eq hc hs⟩
  needToSendRequestRetry := ⟨_, needToSendRequestRetry_eq hc hs⟩
  updateRetryMap b := updateRetryMap_total hs b
  updateBlockingMap t ty := updateBlockingMap_total hc hs.le t ty

theorem Accepts.lt (ha : h.Accepts s) : s < h.socketNum := by
  obtain ⟨t, ht⟩ := ha.getBlockingTrans .request
  exact (getBlockingTrans_ok ht).1

end BlockingPacketHelper

namespace SCSlavePort

variable {p q : SCSlavePort} {tr : SlaveTransactorMulti} {id : ℕ}

/-- A core map that fits its transactor: its sockets are sockets of the transactor; without a
core map, there are as many sockets as CPUs. -/
structure Fits (p : SCSlavePort) (tr : SlaveTransactorMulti) : Prop where
  sockets : ∀ s ∈ tr.socketCoreMap, s < tr.socketNum
  cpus : tr.socketCoreMap.isEmpty → tr.socketNum = p.cpuPortMap.size

theorem Fits.lt_of_serves (hf : Fits p tr) {s : ℕ} (hs : p.Serves tr s id) : s < tr.socketNum := by
  obtain ⟨ids, hs, -⟩ := hs
  unfold socketIds at hs
  split_ifs at hs with he
  · rw [hf.cpus he, ← TreeMap.length_toList]
    by_contra h
    rw [List.getElem?_eq_none (Nat.le_of_not_lt h)] at hs
    exact absurd hs (by simp)
  · refine hf.sockets s (TreeMap.mem_iff_isSome_getElem?.2 ?_)
    cases hm : tr.socketCoreMap[s]? <;> simp_all

/-- The condition on the inputs: some socket is mapped, and an id that is served at all is
served by a socket whose number, shifted for gem5 caches, is below the number of mapped
sockets. -/
def Accepted (p : SCSlavePort) (tr : SlaveTransactorMulti) (id : ℕ) : Prop :=
  0 < (p.mappedSockets tr).length ∧
    ((∃ s, p.Serves tr s id) →
      ∃ s, p.Serves tr s id ∧ s + shift tr < (p.mappedSockets tr).length)

/-- **Which socket ids the helper accepts.** After the bind, whatever calls have been made
before, no call of the helper with the socket of a requestor fails exactly if the inputs satisfy
`Accepted`. -/
theorem accepts_getSocketId_iff (hp : Unbound p) (hq : p.bindToTransactorMulti tr = .ok q)
    (hf : Fits p tr) (id : ℕ) :
    (∀ h, BlockingPacketHelper.Updated q.helper h → h.Accepts (q.getSocketId id)) ↔
      p.Accepted tr id := by
  have hb := fresh_of_bind hp hq
  have hlt : (∀ h, BlockingPacketHelper.Updated q.helper h → h.Accepts (q.getSocketId id)) ↔
      q.getSocketId id < (p.mappedSockets tr).length := by
    rw [← hb.size, ← hb.socketNum]
    constructor
    · exact fun h => (h _ .refl).lt
    · intro h h' hu
      exact BlockingPacketHelper.accepts_of_lt (hu.frame.covers hb.covers)
        (hu.frame.socketNum ▸ h)
  rw [hlt]
  unfold Accepted shift
  by_cases hs : ∃ s, p.Serves tr s id
  · obtain ⟨s, hs, hmin, hid⟩ := hb.getSocketId_of_serves hs
    have hwrap : (s + 1) % 2 ^ 32 = s + 1 :=
      Nat.mod_eq_of_lt ((Nat.succ_le_of_lt (hf.lt_of_serves hs)).trans_lt tr.socketNum_lt)
    have hid' : q.getSocketId id = s + if tr.isUsingGem5Cache then 1 else 0 := by
      rw [hid]; split_ifs
      · exact hwrap
      · rfl
    rw [hid']
    constructor
    · exact fun h => ⟨by omega, fun _ => ⟨s, hs, h⟩⟩
    · rintro ⟨-, h⟩
      obtain ⟨i, hi, hlt⟩ := h ⟨s, hs⟩
      have := hmin i hi
      omega
  · rw [hb.getSocketId_of_not_serves hs]
    simp [hs]

/-! ## A core map that leaves out a socket -/

/-- A port that knows two CPUs with two requestor ids each. -/
def twoCpuPort : SCSlavePort :=
  (SCSlavePort.new none 0).updateCorePortMap
    (((∅ : TreeMap String (List ℕ)).insert "cpu0" [1, 2]).insert "cpu1" [3, 4])

/-- Two sockets, and both cores on the second one. -/
def secondSocketOnly : SlaveTransactorMulti where
  socketNum := 2
  socketNum_lt := by decide
  socketCoreMap := (∅ : TreeMap ℕ (List ℤ)).insert 1 [0, 1]

theorem unbound_twoCpuPort : Unbound twoCpuPort := .update _ (.new none 0)

theorem fits_secondSocketOnly : Fits twoCpuPort secondSocketOnly where
  sockets s hs := by
    simp only [secondSocketOnly, TreeMap.mem_insert, compare_eq_iff_eq] at hs ⊢
    rcases hs with rfl | hs
    · decide
    · simp at hs
  cpus h := absurd h (by decide)

/-- The socket map has one entry, for socket 1, so the helper knows id 0 only: the socket of
requestor 1 fails the bounds check. -/
theorem not_accepts_secondSocketOnly :
    ¬ ∀ (p q : SCSlavePort) (tr : SlaveTransactorMulti) (id : ℕ), Unbound p →
      p.bindToTransactorMulti tr = .ok q → Fits p tr →
      ∀ h, BlockingPacketHelper.Updated q.helper h → h.Accepts (q.getSocketId id) := by
  intro h
  have hlt := (h twoCpuPort _ secondSocketOnly 1 unbound_twoCpuPort rfl fits_secondSocketOnly _
    .refl).lt
  exact absurd hlt (by decide)

theorem accepts_getSocketId_secondSocketOnly :
    ∃ q, twoCpuPort.bindToTransactorMulti secondSocketOnly = .ok q ∧
      ((∀ h, BlockingPacketHelper.Updated q.helper h → h.Accepts (q.getSocketId 1)) ↔
        twoCpuPort.Accepted secondSocketOnly 1) :=
  ⟨_, rfl, accepts_getSocketId_iff unbound_twoCpuPort rfl fits_secondSocketOnly 1⟩

end SCSlavePort

end Gem5Wrapper
