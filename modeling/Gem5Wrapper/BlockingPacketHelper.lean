import Mathlib
import Gem5Wrapper.Tlm

/-!
# `BlockingPacketHelper`

The helper keeps, for each socket, the transaction that blocks its request channel, the one
that blocks its response channel, and whether a request was refused meanwhile. A `std::map` is
a `TreeMap`: it is searched by key and walked in the order of its keys.

The functions follow the source line by line; their bounds checks differ (`<` and `<=`). What
the rest of the development uses is what they do to the three tables, read as functions
(`request`, `response`, `owed`).
-/

namespace Gem5Wrapper

open FaultMachine
open Std (TreeMap)

/-- `pktType`. -/
inductive PktType
  | request
  | response
  deriving DecidableEq, Repr

/-- `BlockingPacketHelper`, without the two fields that no function reads. -/
structure BlockingPacketHelper where
  socketNum : ℕ
  blockingRequestMap : TreeMap ℕ (Option Ptr) := ∅
  blockingResponseMap : TreeMap ℕ (Option Ptr) := ∅
  needToSendRequestRetryMap : TreeMap ℕ Bool := ∅
  isSystemPortBlocked : Bool := false
  usingGem5Cache : Bool := false

namespace BlockingPacketHelper

/-! ## The source -/

/-- Enter `v` for every id up to `num`; `std::map::insert` keeps the entries already there. -/
def fill {β : Type} (v : β) (num : ℕ) (m : TreeMap ℕ β) : TreeMap ℕ β :=
  (List.range (num + 1)).foldl (fun m i => m.insertIfNew i v) m

/-- `BlockingPacketHelper::init`. -/
def init (h : BlockingPacketHelper) (num : ℕ) : BlockingPacketHelper :=
  { h with
    socketNum := num
    blockingRequestMap := fill none num h.blockingRequestMap
    blockingResponseMap := fill none num h.blockingResponseMap
    needToSendRequestRetryMap := fill false num h.needToSendRequestRetryMap }

/-- The map that `switch (type)` selects. -/
def blockingMap (h : BlockingPacketHelper) : PktType → TreeMap ℕ (Option Ptr)
  | .request => h.blockingRequestMap
  | .response => h.blockingResponseMap

/-- `iter->second = blocking_trans` in the map of `type`. -/
def setBlockingMap (h : BlockingPacketHelper) (type : PktType) (coreId : ℕ) (v : Option Ptr) :
    BlockingPacketHelper :=
  match type with
  | .request => { h with blockingRequestMap := h.blockingRequestMap.insert coreId v }
  | .response => { h with blockingResponseMap := h.blockingResponseMap.insert coreId v }

/-- `BlockingPacketHelper::updateBlockingMap`. -/
def updateBlockingMap (h : BlockingPacketHelper) (coreId : ℕ) (blockingTrans : Option Ptr)
    (type : PktType) : Except Fault BlockingPacketHelper := do
  check (coreId ≤ h.socketNum)
    (.assert "BlockingPacketHelper::updateBlockingMap" "core_id <= this->socket_num")
  let h := if coreId = 0 ∧ h.usingGem5Cache then
      { h with isSystemPortBlocked := blockingTrans.isSome }
    else h
  if coreId ∈ h.blockingMap type then
    pure (h.setBlockingMap type coreId blockingTrans)
  else throw (.fatal "SCSlavePort" "Invaild blocking request")

/-- `BlockingPacketHelper::getBlockingTrans`. -/
def getBlockingTrans (h : BlockingPacketHelper) (coreId : ℕ) (type : PktType) :
    Except Fault (Option Ptr) := do
  check (coreId < h.socketNum)
    (.assert "BlockingPacketHelper::getBlockingTrans" "core_id < this->socket_num")
  match (h.blockingMap type)[coreId]? with
  | some t => pure t
  | none => throw (.fatal "SCSlavePort" "Invaild blocking request")

/-- `BlockingPacketHelper::isBlockedPort`. -/
def isBlockedPort (h : BlockingPacketHelper) (coreId : ℕ) (type : PktType) :
    Except Fault Bool := do
  if h.isSystemPortBlocked then pure true
  else do
    let t ← h.getBlockingTrans coreId type
    pure t.isSome

/-- `BlockingPacketHelper::isBlockingTrans`. The type is not looked at: the search is always in
`blockingRequestMap`. -/
def isBlockingTrans (h : BlockingPacketHelper) (t : Ptr) (_type : PktType) : Bool :=
  h.blockingRequestMap.toList.any fun e => e.2 = some t

/-- `BlockingPacketHelper::needToSendRequestRetry`. -/
def needToSendRequestRetry (h : BlockingPacketHelper) (coreId : ℕ) : Except Fault Bool := do
  check (coreId < h.socketNum)
    (.assert "BlockingPacketHelper::needToSendRequestRetry" "core_id < this->socket_num")
  match h.needToSendRequestRetryMap[coreId]? with
  | some b => pure b
  | none => throw (.fatal "SCSlavePort" "Invaild send request retry")

/-- `BlockingPacketHelper::updateRetryMap`. -/
def updateRetryMap (h : BlockingPacketHelper) (coreId : ℕ) (state : Bool) :
    Except Fault BlockingPacketHelper := do
  check (coreId < h.socketNum)
    (.assert "BlockingPacketHelper::updateRetryMap" "core_id < this->socket_num")
  pure { h with
    needToSendRequestRetryMap := h.needToSendRequestRetryMap.modify coreId fun _ => state }

/-- `BlockingPacketHelper::getBlockingResponse`. -/
def getBlockingResponse (h : BlockingPacketHelper) : Option Ptr :=
  h.blockingResponseMap.toList.findSome? fun e => e.2

/-! ## The tables as functions -/

/-- The transaction blocking the request channel of socket `s`. -/
def request (h : BlockingPacketHelper) (s : ℕ) : Option Ptr := h.blockingRequestMap.getD s none

/-- The transaction blocking the response channel of socket `s`. -/
def response (h : BlockingPacketHelper) (s : ℕ) : Option Ptr := h.blockingResponseMap.getD s none

/-- Was a request for socket `s` refused meanwhile? -/
def owed (h : BlockingPacketHelper) (s : ℕ) : Bool := h.needToSendRequestRetryMap.getD s false

/-- The blocking transaction of socket `s` in the channel of a type. -/
def blocking (h : BlockingPacketHelper) : PktType → ℕ → Option Ptr
  | .request => h.request
  | .response => h.response

/-- Every id that passes a bounds check has its entries. -/
structure Covers (h : BlockingPacketHelper) : Prop where
  request : ∀ s ≤ h.socketNum, s ∈ h.blockingRequestMap
  response : ∀ s ≤ h.socketNum, s ∈ h.blockingResponseMap
  retry : ∀ s ≤ h.socketNum, s ∈ h.needToSendRequestRetryMap

/-! ## `init` -/

theorem mem_fill {β : Type} {v : β} {num s : ℕ} {m : TreeMap ℕ β} :
    s ∈ fill v num m ↔ s ≤ num ∨ s ∈ m := by
  have key : ∀ (l : List ℕ) (m : TreeMap ℕ β),
      s ∈ l.foldl (fun m i => m.insertIfNew i v) m ↔ s ∈ l ∨ s ∈ m := by
    intro l
    induction l with
    | nil => simp
    | cons i l ih =>
      intro m
      rw [List.foldl_cons, ih, TreeMap.mem_insertIfNew, compare_eq_iff_eq, List.mem_cons]
      tauto
  rw [fill, key, List.mem_range, Nat.lt_succ_iff]

theorem getD_fill {β : Type} {v : β} {num s : ℕ} {m : TreeMap ℕ β} :
    (fill v num m).getD s v = m.getD s v := by
  have key : ∀ (l : List ℕ) (m : TreeMap ℕ β),
      (l.foldl (fun m i => m.insertIfNew i v) m).getD s v = m.getD s v := by
    intro l
    induction l with
    | nil => simp
    | cons i l ih =>
      intro m
      rw [List.foldl_cons, ih, TreeMap.getD_insertIfNew]
      split_ifs with hi
      · rw [compare_eq_iff_eq] at hi
        exact (TreeMap.getD_eq_fallback (hi.1 ▸ hi.2)).symm
      · rfl
  exact key _ m

theorem covers_init (h : BlockingPacketHelper) (num : ℕ) : (h.init num).Covers where
  request _ hs := mem_fill.2 (.inl hs)
  response _ hs := mem_fill.2 (.inl hs)
  retry _ hs := mem_fill.2 (.inl hs)

@[simp] theorem request_init (h : BlockingPacketHelper) (num : ℕ) :
    (h.init num).request = h.request := funext fun _ => getD_fill

@[simp] theorem response_init (h : BlockingPacketHelper) (num : ℕ) :
    (h.init num).response = h.response := funext fun _ => getD_fill

@[simp] theorem owed_init (h : BlockingPacketHelper) (num : ℕ) :
    (h.init num).owed = h.owed := funext fun _ => getD_fill

/-! ## What the updates do to the tables -/

variable {h h' : BlockingPacketHelper} {s : ℕ} {v : Option Ptr} {ty : PktType} {b : Bool}

/-- The parts of the helper that no update changes. -/
structure SameFrame (h h' : BlockingPacketHelper) : Prop where
  socketNum : h'.socketNum = h.socketNum
  cache : h'.usingGem5Cache = h.usingGem5Cache
  covers : h.Covers → h'.Covers

theorem updateBlockingMap_frame (hu : h.updateBlockingMap s v ty = .ok h') :
    h.SameFrame h' := by
  simp only [updateBlockingMap, bind_eq_ok, check_eq_ok] at hu
  obtain ⟨-, -, hu⟩ := hu
  cases ty <;> split_ifs at hu <;> cases hu <;>
    exact ⟨rfl, rfl, fun c => ⟨fun i hi => by simp [setBlockingMap, c.request i hi],
      fun i hi => by simp [setBlockingMap, c.response i hi], c.retry⟩⟩

/-- `updateBlockingMap` stores the transaction in the table of its type and leaves the others
alone. -/
theorem updateBlockingMap_ok (hu : h.updateBlockingMap s v ty = .ok h') :
    s ≤ h.socketNum ∧ h'.blocking ty = Function.update (h.blocking ty) s v ∧
      (∀ ty', ty' ≠ ty → h'.blocking ty' = h.blocking ty') ∧ h'.owed = h.owed ∧
      h'.isSystemPortBlocked =
        if s = 0 ∧ h.usingGem5Cache then v.isSome else h.isSystemPortBlocked := by
  simp only [updateBlockingMap, bind_eq_ok, check_eq_ok] at hu
  obtain ⟨-, hs, hu⟩ := hu
  have hset : ∀ m : TreeMap ℕ (Option Ptr),
      (fun i => (m.insert s v).getD i none) = Function.update (fun i => m.getD i none) s v := by
    intro m
    funext i
    rw [TreeMap.getD_insert, Function.update_apply]
    simp only [compare_eq_iff_eq, eq_comm (a := s)]
  refine ⟨hs, ?_, ?_, ?_, ?_⟩
  · cases ty <;> split_ifs at hu <;> cases hu <;> exact hset _
  · rintro (_ | _) hty <;> cases ty <;> first
      | exact absurd rfl hty
      | (split_ifs at hu <;> cases hu <;> rfl)
  · cases ty <;> split_ifs at hu <;> cases hu <;> rfl
  · cases ty <;> split_ifs at hu ⊢ <;> cases hu <;> rfl

/-- Under its bounds check, `updateBlockingMap` succeeds. -/
theorem updateBlockingMap_total (hc : h.Covers) (hs : s ≤ h.socketNum) (v : Option Ptr)
    (ty : PktType) : ∃ h', h.updateBlockingMap s v ty = .ok h' := by
  have hm : ∀ b, s ∈ ({ h with isSystemPortBlocked := b } : BlockingPacketHelper).blockingMap ty ∧
      s ∈ h.blockingMap ty := by
    intro b; cases ty
    · exact ⟨hc.request s hs, hc.request s hs⟩
    · exact ⟨hc.response s hs, hc.response s hs⟩
  simp only [updateBlockingMap, check_pos hs, ok_bind]
  split_ifs with h0 h1 h1
  · exact ⟨_, rfl⟩
  · exact absurd (hm _).1 h1
  · exact ⟨_, rfl⟩
  · exact absurd (hm false).2 h1

theorem updateRetryMap_frame (hu : h.updateRetryMap s b = .ok h') : h.SameFrame h' := by
  simp only [updateRetryMap, bind_eq_ok, check_eq_ok] at hu
  obtain ⟨-, -, hu⟩ := hu
  cases hu
  exact ⟨rfl, rfl, fun c => ⟨c.request, c.response, fun i hi =>
    TreeMap.mem_modify.2 (c.retry i hi)⟩⟩

/-- `updateRetryMap` sets the flag of one socket and leaves everything else alone. -/
theorem updateRetryMap_ok (hc : h.Covers) (hu : h.updateRetryMap s b = .ok h') :
    s < h.socketNum ∧ h'.owed = Function.update h.owed s b ∧ h'.blocking = h.blocking ∧
      h'.isSystemPortBlocked = h.isSystemPortBlocked := by
  simp only [updateRetryMap, bind_eq_ok, check_eq_ok] at hu
  obtain ⟨-, hs, hu⟩ := hu
  cases hu
  refine ⟨hs, ?_, ?_, rfl⟩
  · funext i
    simp only [owed, TreeMap.getD_modify, compare_eq_iff_eq, Function.update_apply]
    by_cases hi : s = i
    · subst hi
      obtain ⟨x, hx⟩ :=
        Option.isSome_iff_exists.1 (TreeMap.mem_iff_isSome_getElem?.1 (hc.retry s hs.le))
      simp [hx]
    · simp [hi, Ne.symm hi]
  · funext ty; cases ty <;> rfl

theorem updateRetryMap_total (hs : s < h.socketNum) (b : Bool) :
    ∃ h', h.updateRetryMap s b = .ok h' := by
  simp only [updateRetryMap, check_pos hs, ok_bind]
  exact ⟨_, rfl⟩

/-! ## What the queries answer -/

theorem getElem?_blockingMap (hv : (h.blockingMap ty)[s]? = some v) : h.blocking ty s = v := by
  cases ty <;> simp_all [blocking, request, response, blockingMap, TreeMap.getD_eq_getD_getElem?]

theorem getBlockingTrans_ok (hg : h.getBlockingTrans s ty = .ok v) :
    s < h.socketNum ∧ v = h.blocking ty s := by
  simp only [getBlockingTrans, bind_eq_ok, check_eq_ok] at hg
  obtain ⟨-, hs, hg⟩ := hg
  cases hm : (h.blockingMap ty)[s]? with
  | none => simp [hm] at hg
  | some w =>
    simp only [hm, pure_eq_ok, Except.ok.injEq] at hg
    exact ⟨hs, hg ▸ (getElem?_blockingMap hm).symm⟩

theorem getBlockingTrans_eq (hc : h.Covers) (hs : s < h.socketNum) :
    h.getBlockingTrans s ty = .ok (h.blocking ty s) := by
  have hm : s ∈ h.blockingMap ty := by
    cases ty
    · exact hc.request s hs.le
    · exact hc.response s hs.le
  obtain ⟨v, hv⟩ := Option.isSome_iff_exists.1 (TreeMap.mem_iff_isSome_getElem?.1 hm)
  simp only [getBlockingTrans, check_pos hs, ok_bind, hv, pure_eq_ok, getElem?_blockingMap hv]

theorem isBlockedPort_eq (hb : h.isSystemPortBlocked = false) (hc : h.Covers)
    (hs : s < h.socketNum) : h.isBlockedPort s ty = .ok (h.blocking ty s).isSome := by
  simp [isBlockedPort, hb, getBlockingTrans_eq hc hs]

theorem isBlockedPort_of_not_lt (hb : h.isSystemPortBlocked = false) (hs : ¬ s < h.socketNum) :
    h.isBlockedPort s ty = .error
      (.assert "BlockingPacketHelper::getBlockingTrans" "core_id < this->socket_num") := by
  simp [isBlockedPort, hb, getBlockingTrans, hs]

/-- The search finds a transaction exactly if it blocks the requests of some socket. -/
theorem isBlockingTrans_iff {t : Ptr} :
    h.isBlockingTrans t ty = true ↔ ∃ i, h.request i = some t := by
  simp only [isBlockingTrans, List.any_eq_true, Prod.exists, decide_eq_true_eq,
    TreeMap.mem_toList_iff_getElem?_eq_some, request, TreeMap.getD_eq_getD_getElem?]
  constructor
  · rintro ⟨i, v, hi, rfl⟩
    exact ⟨i, by simp [hi]⟩
  · rintro ⟨i, hi⟩
    cases hm : h.blockingRequestMap[i]? with
    | none => simp [hm] at hi
    | some v => exact ⟨i, v, hm, by simpa [hm] using hi⟩

theorem needToSendRequestRetry_eq (hc : h.Covers) (hs : s < h.socketNum) :
    h.needToSendRequestRetry s = .ok (h.owed s) := by
  obtain ⟨v, hv⟩ :=
    Option.isSome_iff_exists.1 (TreeMap.mem_iff_isSome_getElem?.1 (hc.retry s hs.le))
  simp [needToSendRequestRetry, check_pos hs, hv, owed, TreeMap.getD_eq_getD_getElem?]

/-- An entry of the response table, read as a function and in the map. -/
theorem response_eq_some_iff {t : Ptr} :
    h.response s = some t ↔ (s, some t) ∈ h.blockingResponseMap.toList := by
  rw [TreeMap.mem_toList_iff_getElem?_eq_some, response, TreeMap.getD_eq_getD_getElem?]
  cases h.blockingResponseMap[s]? <;> simp

theorem getBlockingResponse_eq_none_iff :
    h.getBlockingResponse = none ↔ ∀ i, h.response i = none := by
  rw [getBlockingResponse, List.findSome?_eq_none_iff]
  constructor
  · intro hn i
    cases hr : h.response i with
    | none => rfl
    | some t => exact hn _ (response_eq_some_iff.1 hr)
  · rintro hn ⟨i, v⟩ hi
    cases v with
    | none => rfl
    | some t => exact absurd (hn i) (by rw [response_eq_some_iff.2 hi]; exact Option.some_ne_none t)

/-- The response found is one of the table. -/
theorem exists_response_of_getBlockingResponse {t : Ptr} (hg : h.getBlockingResponse = some t) :
    ∃ i, h.response i = some t := by
  obtain ⟨⟨i, v⟩, hi, rfl⟩ := List.exists_of_findSome?_eq_some hg
  exact ⟨i, response_eq_some_iff.2 hi⟩

end BlockingPacketHelper

end Gem5Wrapper
