import Gem5Wrapper.BlockingPacketHelper

/-!
# The helper as two tables

`BlockingPacketHelper` stands for two independent tables: the transactions that block the requests
of each socket, and those that block the responses (`Tables`). Whatever updates are called, its maps
hold just these (`refines_of_updates`). The queries do not always answer from the table that they
are asked about. `getBlockingTrans` checks a smaller bound than `updateBlockingMap`,
`isBlockingTrans` searches the requests for either type, and `isBlockedPort` looks at a flag that
the updates of both types write. `asTables_iff` says which answers are those of the tables.
-/

namespace Gem5Wrapper

open FaultMachine
open Function (update)

namespace BlockingPacketHelper

/-- A call that changes the helper. -/
inductive Update
  | updateBlockingMap (coreId : ℕ) (blockingTrans : Option Ptr) (type : PktType)
  | updateRetryMap (coreId : ℕ) (state : Bool)
  deriving DecidableEq, Repr

/-- What the update is about. Retries are those of requests. -/
def Update.type : Update → PktType
  | .updateBlockingMap _ _ type => type
  | .updateRetryMap _ _ => .request

def apply (h : BlockingPacketHelper) : Update → Except Fault BlockingPacketHelper
  | .updateBlockingMap coreId blockingTrans type => h.updateBlockingMap coreId blockingTrans type
  | .updateRetryMap coreId state => h.updateRetryMap coreId state

/-- The helper after `init`. -/
def initial (num : ℕ) (usingGem5Cache : Bool) : BlockingPacketHelper :=
  ({ socketNum := 0, usingGem5Cache } : BlockingPacketHelper).init num

/-- `isBlockingTrans`, with the check of the pointer. -/
def isBlockingPointer (h : BlockingPacketHelper) (t : Option Ptr) (type : PktType) : Bool :=
  match t with
  | none => false
  | some t => h.isBlockingTrans t type

/-- A call that changes nothing. -/
inductive Query
  | getBlockingTrans (coreId : ℕ) (type : PktType)
  | isBlockedPort (coreId : ℕ) (type : PktType)
  | isBlockingTrans (t : Option Ptr) (type : PktType)
  | needToSendRequestRetry (coreId : ℕ)
  | getBlockingResponse
  deriving DecidableEq, Repr

/-- What the query is about. -/
def Query.type : Query → PktType
  | .getBlockingTrans _ type | .isBlockedPort _ type | .isBlockingTrans _ type => type
  | .needToSendRequestRetry _ => .request
  | .getBlockingResponse => .response

def ask (h : BlockingPacketHelper) : Query → Except Fault (Option Ptr ⊕ Bool)
  | .getBlockingTrans coreId type => .inl <$> h.getBlockingTrans coreId type
  | .isBlockedPort coreId type => .inr <$> h.isBlockedPort coreId type
  | .isBlockingTrans t type => .ok (.inr (h.isBlockingPointer t type))
  | .needToSendRequestRetry coreId => .inr <$> h.needToSendRequestRetry coreId
  | .getBlockingResponse => .ok (.inl h.getBlockingResponse)

/-! ## The tables -/

/-- A table of the blocking transactions for each type, and the retries that are owed. -/
structure Tables where
  blocking : PktType → ℕ → Option Ptr := fun _ _ => none
  owed : ℕ → Bool := fun _ => false

namespace Tables

def apply (T : Tables) : Update → Tables
  | .updateBlockingMap coreId t type =>
    { T with blocking := update T.blocking type (update (T.blocking type) coreId t) }
  | .updateRetryMap coreId state => { T with owed := update T.owed coreId state }

/-- The pointer is not null, and is in the table of the type. -/
def Stores (T : Tables) (t : Option Ptr) (type : PktType) : Prop :=
  t ≠ none ∧ ∃ coreId, T.blocking type coreId = t

end Tables

/-- What the updates have stored. -/
def tables (us : List Update) : Tables := us.foldl Tables.apply {}

/-- The pointer that was last stored for id 0, of either type. -/
def systemTrans (us : List Update) : Option Ptr :=
  us.foldl (fun t u => match u with
    | .updateBlockingMap 0 t' _ => t'
    | _ => t) none

/-! ## Refinement -/

variable {h h' : BlockingPacketHelper} {num s : ℕ} {cache : Bool} {us : List Update} {u : Update}
  {t : Option Ptr} {ty : PktType}

/-- The maps are the tables, and the flag is that of id 0. -/
structure Refines (h : BlockingPacketHelper) (num : ℕ) (cache : Bool) (us : List Update) :
    Prop where
  covers : h.Covers
  socketNum : h.socketNum = num
  usingGem5Cache : h.usingGem5Cache = cache
  blocking : h.blocking = (tables us).blocking
  owed : h.owed = (tables us).owed
  isSystemPortBlocked : h.isSystemPortBlocked = (cache && (systemTrans us).isSome)

theorem blocking_init (h : BlockingPacketHelper) (num : ℕ) :
    (h.init num).blocking = h.blocking := by
  funext ty
  cases ty with
  | request => exact request_init h num
  | response => exact response_init h num

theorem refines_initial : (initial num cache).Refines num cache [] := by
  have hempty : ({ socketNum := 0, usingGem5Cache := cache } : BlockingPacketHelper).blocking =
      fun _ _ => none := by
    funext ty s
    cases ty <;> rfl
  refine ⟨covers_init _ _, rfl, rfl, ?_, ?_, ?_⟩
  · exact (blocking_init _ _).trans hempty
  · exact owed_init _ _
  · cases cache <;> rfl

theorem tables_snoc : tables (us ++ [u]) = (tables us).apply u := List.foldl_concat ..

theorem systemTrans_snoc : systemTrans (us ++ [.updateBlockingMap s t ty]) =
    if s = 0 then t else systemTrans us := by
  unfold systemTrans
  rw [List.foldl_concat]
  cases s <;> rfl

theorem Refines.apply (hr : h.Refines num cache us) (hu : h.apply u = .ok h') :
    h'.Refines num cache (us ++ [u]) := by
  cases u with
  | updateBlockingMap s t ty =>
    have hf := updateBlockingMap_frame hu
    obtain ⟨-, hset, hother, howed, hsys⟩ := updateBlockingMap_ok hu
    refine ⟨hf.covers hr.covers, hf.socketNum.trans hr.socketNum,
      hf.cache.trans hr.usingGem5Cache, ?_, ?_, ?_⟩
    · rw [tables_snoc]
      funext ty'
      show h'.blocking ty' = update (tables us).blocking ty _ ty'
      rw [← hr.blocking]
      by_cases hty : ty' = ty
      · subst hty
        rw [hset, Function.update_self]
      · rw [hother ty' hty, Function.update_of_ne hty]
    · rw [tables_snoc]
      exact howed.trans hr.owed
    · rw [hsys, systemTrans_snoc, hr.usingGem5Cache, hr.isSystemPortBlocked]
      by_cases hs : s = 0 <;> cases cache <;> simp [hs]
  | updateRetryMap s b =>
    have hf := updateRetryMap_frame hu
    obtain ⟨-, howed, hsame, hsys⟩ := updateRetryMap_ok hr.covers hu
    refine ⟨hf.covers hr.covers, hf.socketNum.trans hr.socketNum,
      hf.cache.trans hr.usingGem5Cache, ?_, ?_, ?_⟩
    · rw [tables_snoc]
      exact hsame.trans hr.blocking
    · rw [tables_snoc, howed, hr.owed]
      rfl
    · rw [hsys, hr.isSystemPortBlocked]
      unfold systemTrans
      rw [List.foldl_concat]

/-- Whatever updates are called, the maps hold what they have stored. -/
theorem refines_of_updates
    (hus : us.foldlM BlockingPacketHelper.apply (initial num cache) = .ok h) :
    h.Refines num cache us := by
  induction us using List.reverseRecOn generalizing h with
  | nil =>
    obtain rfl := Except.ok.inj hus
    exact refines_initial
  | append_singleton us u ih =>
    rw [List.foldlM_append, bind_eq_ok] at hus
    obtain ⟨h₁, h₁us, hu⟩ := hus
    rw [List.foldlM_cons, bind_eq_ok] at hu
    obtain ⟨h₂, hu, h₂⟩ := hu
    obtain rfl := Except.ok.inj h₂
    exact (ih h₁us).apply hu

/-! ## Answers -/

/-- What one may ask of the helper after some updates: what `getBlockingTrans` returns for an id
that `updateBlockingMap` accepts, whether `isBlockingTrans` finds a pointer in the table of the
type, whether `isBlockedPort` finds a request, and whether an update of one type leaves an answer
about the other type alone. -/
inductive Question
  | getBlockingTrans (coreId : ℕ) (type : PktType)
  | isBlockingTrans (t : Option Ptr) (type : PktType)
  | isBlockedPort (coreId : ℕ)
  | across (u : Update) (q : Query)
  deriving DecidableEq, Repr

/-- The helper does as two independent tables do. -/
def AsTables (h : BlockingPacketHelper) (num : ℕ) (cache : Bool) (T : Tables) : Question → Prop
  | .getBlockingTrans coreId type =>
    coreId ≤ num → h.getBlockingTrans coreId type = .ok (T.blocking type coreId)
  | .isBlockingTrans t type => h.isBlockingPointer t type = true ↔ T.Stores t type
  | .isBlockedPort coreId => h.isBlockedPort coreId .request = .ok (decide
      (T.blocking .request coreId ≠ none ∨ cache = true ∧ T.blocking .request 0 ≠ none))
  | .across u q => ∀ h', h.apply u = .ok h' → q.type ≠ u.type → h'.ask q = h.ask q

/-- Where an update of one type leaves the answer to a query about the other type alone. -/
def Untouched (num : ℕ) (cache : Bool) (us : List Update) (coreId : ℕ) (t : Option Ptr)
    (type : PktType) : Query → Prop
  | .isBlockingTrans p _ => (tables us).Stores p .request ↔
      ((tables us).apply (.updateBlockingMap coreId t type)).Stores p .request
  | .isBlockedPort s type' => (coreId = 0 ∧ cache = true → (t = none ↔ systemTrans us = none)) ∨
      s < num ∧ (tables us).blocking type' s ≠ none
  | .getBlockingTrans _ _ | .needToSendRequestRetry _ | .getBlockingResponse => True

/-- Where the helper does as two independent tables do. -/
def Sound (num : ℕ) (cache : Bool) (us : List Update) : Question → Prop
  | .getBlockingTrans coreId _ => coreId ≠ num
  | .isBlockingTrans t type =>
    type = .response → ((tables us).Stores t .request ↔ (tables us).Stores t .response)
  | .isBlockedPort coreId =>
    if cache = true ∧ systemTrans us ≠ none then
      (tables us).blocking .request coreId ≠ none ∨ (tables us).blocking .request 0 ≠ none
    else coreId < num ∧ ((tables us).blocking .request coreId ≠ none ∨
      (cache = true → (tables us).blocking .request 0 = none))
  | .across (.updateBlockingMap coreId t type) q =>
    coreId ≤ num → q.type ≠ type → Untouched num cache us coreId t type q
  | .across (.updateRetryMap _ _) _ => True

theorem Refines.getBlockingTrans (hr : h.Refines num cache us) (hs : s ≤ num) :
    h.getBlockingTrans s ty = .ok ((tables us).blocking ty s) ↔ s ≠ num := by
  rw [← hr.blocking]
  constructor
  · intro hg
    have hlt := (getBlockingTrans_ok hg).1
    rw [hr.socketNum] at hlt
    exact hlt.ne
  · intro hne
    apply getBlockingTrans_eq hr.covers
    rw [hr.socketNum]
    exact lt_of_le_of_ne hs hne

theorem Refines.isBlockingPointer (hr : h.Refines num cache us) :
    h.isBlockingPointer t ty = true ↔ (tables us).Stores t .request := by
  cases t with
  | none => simp [BlockingPacketHelper.isBlockingPointer, Tables.Stores]
  | some t =>
    rw [BlockingPacketHelper.isBlockingPointer, isBlockingTrans_iff, Tables.Stores, ← hr.blocking]
    simp [BlockingPacketHelper.blocking]

/-- What `isBlockedPort` answers. -/
theorem Refines.isBlockedPort (hr : h.Refines num cache us) : h.isBlockedPort s ty =
    if cache = true ∧ systemTrans us ≠ none then .ok true
    else if s < num then .ok ((tables us).blocking ty s).isSome else
      .error (.assert "BlockingPacketHelper::getBlockingTrans" "core_id < this->socket_num") := by
  rw [← hr.blocking]
  split_ifs with hsys hs
  · have : h.isSystemPortBlocked = true := by
      rw [hr.isSystemPortBlocked, hsys.1, Bool.true_and]
      exact Option.isSome_iff_ne_none.2 hsys.2
    simp [BlockingPacketHelper.isBlockedPort, this]
  all_goals
    have hfalse : h.isSystemPortBlocked = false := by
      rw [hr.isSystemPortBlocked]
      cases cache <;> simp_all
  · exact isBlockedPort_eq hfalse hr.covers (hr.socketNum ▸ hs)
  · exact isBlockedPort_of_not_lt hfalse (hr.socketNum ▸ hs)

theorem Refines.getBlockingTrans_eq (hr : h.Refines num cache us) : h.getBlockingTrans s ty =
    if s < num then .ok ((tables us).blocking ty s) else
      .error (.assert "BlockingPacketHelper::getBlockingTrans" "core_id < this->socket_num") := by
  rw [← hr.blocking]
  split_ifs with hs
  · exact BlockingPacketHelper.getBlockingTrans_eq hr.covers (hr.socketNum ▸ hs)
  · simp [BlockingPacketHelper.getBlockingTrans, hr.socketNum, hs]

theorem Refines.needToSendRequestRetry_eq (hr : h.Refines num cache us) :
    h.needToSendRequestRetry s = if s < num then .ok ((tables us).owed s) else
      .error (.assert "BlockingPacketHelper::needToSendRequestRetry"
        "core_id < this->socket_num") := by
  rw [← hr.owed]
  split_ifs with hs
  · exact BlockingPacketHelper.needToSendRequestRetry_eq hr.covers (hr.socketNum ▸ hs)
  · simp [BlockingPacketHelper.needToSendRequestRetry, hr.socketNum, hs]

theorem isBlockedPort_asTables (hr : h.Refines num cache us) :
    h.AsTables num cache (tables us) (.isBlockedPort s) ↔
      Sound num cache us (.isBlockedPort s) := by
  show h.isBlockedPort s .request = _ ↔ _
  rw [hr.isBlockedPort]
  unfold Sound
  split_ifs with hsys hs
  · simp [hsys.1]
  · by_cases hreq : (tables us).blocking .request s = none
    · cases cache <;> simp [hs, hreq]
    · simp [hs, hreq, Option.isSome_iff_ne_none]
  · simp [hs]

/-! ## Updates of the other type -/

theorem blocking_snoc {ty' : PktType} (hty : ty' ≠ ty) :
    (tables (us ++ [.updateBlockingMap s t ty])).blocking ty' = (tables us).blocking ty' := by
  rw [tables_snoc]
  exact Function.update_of_ne hty _ _

theorem owed_snoc : (tables (us ++ [.updateBlockingMap s t ty])).owed = (tables us).owed := by
  rw [tables_snoc]
  rfl

/-- `isBlockedPort` answers as before if the flag is as before, or if it does not matter. -/
theorem isBlockedPort_across {s' : ℕ} {ty' : PktType} (hr : h.Refines num cache us)
    (hr' : h'.Refines num cache (us ++ [.updateBlockingMap s t ty])) (hty : ty' ≠ ty) :
    h'.isBlockedPort s' ty' = h.isBlockedPort s' ty' ↔
      (s = 0 ∧ cache = true → (t = none ↔ systemTrans us = none)) ∨
        s' < num ∧ (tables us).blocking ty' s' ≠ none := by
  rw [hr.isBlockedPort, hr'.isBlockedPort, systemTrans_snoc, blocking_snoc hty]
  by_cases hsys : s = 0 ∧ cache = true
  · obtain ⟨rfl, rfl⟩ := hsys
    cases t <;> cases hl : systemTrans us <;> by_cases hs : s' < num <;>
      cases hb : (tables us).blocking ty' s' <;> simp [hs]
  · have hsame : (cache = true ∧ (if s = 0 then t else systemTrans us) ≠ none) ↔
        cache = true ∧ systemTrans us ≠ none := by
      by_cases hs : s = 0
      · simp_all
      · simp [hs]
    simp [hsame, hsys]

theorem isBlockingTrans_across {p : Option Ptr} (hr : h.Refines num cache us)
    (hr' : h'.Refines num cache (us ++ [u])) {ty' : PktType} :
    h'.isBlockingPointer p ty' = h.isBlockingPointer p ty' ↔
      ((tables us).Stores p .request ↔ ((tables us).apply u).Stores p .request) := by
  rw [Bool.eq_iff_iff, hr.isBlockingPointer, hr'.isBlockingPointer, tables_snoc]
  exact iff_comm

theorem blockingResponseMap_of_request (hu : h.updateBlockingMap s t .request = .ok h') :
    h'.blockingResponseMap = h.blockingResponseMap := by
  simp only [updateBlockingMap, bind_eq_ok, check_eq_ok] at hu
  obtain ⟨-, -, hu⟩ := hu
  split_ifs at hu <;> cases hu <;> rfl

theorem map_inr_inj {a b : Except Fault Bool} :
    (.inr <$> a : Except Fault (Option Ptr ⊕ Bool)) = .inr <$> b ↔ a = b := by
  cases a <;> cases b <;> simp [Functor.map, Except.map]

/-- What an update does to the answer to a query about the other type. -/
theorem ask_across {q : Query} (hr : h.Refines num cache us)
    (hu : h.updateBlockingMap s t ty = .ok h') (hq : q.type ≠ ty) :
    h'.ask q = h.ask q ↔ Untouched num cache us s t ty q := by
  have hr' : h'.Refines num cache (us ++ [.updateBlockingMap s t ty]) := hr.apply hu
  cases q with
  | getBlockingTrans s' ty' =>
    refine iff_of_true ?_ trivial
    have hty : ty' ≠ ty := hq
    rw [ask, ask, hr.getBlockingTrans_eq, hr'.getBlockingTrans_eq, blocking_snoc hty]
  | isBlockedPort s' ty' =>
    have hty : ty' ≠ ty := hq
    exact map_inr_inj.trans (isBlockedPort_across hr hr' hty)
  | isBlockingTrans p ty' =>
    show Except.ok _ = Except.ok _ ↔ _
    rw [Except.ok.injEq, Sum.inr.injEq]
    exact isBlockingTrans_across hr hr'
  | needToSendRequestRetry s' =>
    refine iff_of_true ?_ trivial
    rw [ask, ask, hr.needToSendRequestRetry_eq, hr'.needToSendRequestRetry_eq, owed_snoc]
  | getBlockingResponse =>
    refine iff_of_true ?_ trivial
    have hty : ty = .request := by
      cases ty with
      | request => rfl
      | response => exact absurd rfl hq
    subst hty
    rw [ask, ask, getBlockingResponse, getBlockingResponse, blockingResponseMap_of_request hu]

theorem across_updateBlockingMap {q : Query} (hr : h.Refines num cache us) :
    h.AsTables num cache (tables us) (.across (.updateBlockingMap s t ty) q) ↔
      Sound num cache us (.across (.updateBlockingMap s t ty) q) := by
  constructor
  · intro ha hs hq
    obtain ⟨h', hu⟩ := updateBlockingMap_total hr.covers (hr.socketNum ▸ hs) t ty
    exact (ask_across hr hu hq).1 (ha h' hu hq)
  · intro ha h' hu hq
    have hs := (updateBlockingMap_ok hu).1
    rw [hr.socketNum] at hs
    exact (ask_across hr hu hq).2 (ha hs hq)

/-- The retries are in no table of responses. -/
theorem across_updateRetryMap {q : Query} {b : Bool} {T : Tables} :
    h.AsTables num cache T (.across (.updateRetryMap s b) q) := by
  intro h' hu hq
  simp only [apply, updateRetryMap, bind_eq_ok, check_eq_ok, pure_eq_ok, Except.ok.injEq] at hu
  obtain ⟨-, -, rfl⟩ := hu
  cases q with
  | needToSendRequestRetry s' => exact absurd rfl hq
  | getBlockingTrans s' ty' => cases ty' <;> rfl
  | isBlockedPort s' ty' => cases ty' <;> rfl
  | isBlockingTrans p ty' => cases p <;> rfl
  | getBlockingResponse => rfl

/-- After any updates that pass their assertions, the helper does as two independent tables do
exactly where `Sound` says. -/
theorem asTables_iff (hus : us.foldlM BlockingPacketHelper.apply (initial num cache) = .ok h)
    (x : Question) : h.AsTables num cache (tables us) x ↔ Sound num cache us x := by
  have hr := refines_of_updates hus
  cases x with
  | getBlockingTrans s ty =>
    constructor
    · intro ha hs
      exact (hr.getBlockingTrans hs.le).1 (ha hs.le) hs
    · intro hne hs
      exact (hr.getBlockingTrans hs).2 hne
  | isBlockingTrans t ty =>
    show (h.isBlockingPointer t ty = true ↔ _) ↔ _
    rw [hr.isBlockingPointer]
    cases ty <;> simp [Sound]
  | isBlockedPort s => exact isBlockedPort_asTables hr
  | across u q =>
    cases u with
    | updateBlockingMap s t ty => exact across_updateBlockingMap hr
    | updateRetryMap s b => exact iff_of_true across_updateRetryMap trivial

/-- A response is stored for id 1, and `isBlockingTrans` does not find it. -/
theorem asTables_storedResponse : ∃ h : BlockingPacketHelper,
    [.updateBlockingMap 1 (some 7) .response].foldlM apply (initial 2 false) = .ok h ∧
      h.isBlockingPointer (some 7) .response = false ∧
      (h.AsTables 2 false (tables [.updateBlockingMap 1 (some 7) .response])
        (.isBlockingTrans (some 7) .response) ↔
      Sound 2 false [.updateBlockingMap 1 (some 7) .response]
        (.isBlockingTrans (some 7) .response)) := by
  have hus : [.updateBlockingMap 1 (some 7) .response].foldlM apply (initial 2 false) =
    .ok _ := rfl
  exact ⟨_, hus, rfl, asTables_iff hus _⟩

/-- `updateBlockingMap` accepts id 2 of a helper with two sockets, `getBlockingTrans` does not. -/
theorem not_asTables : ¬ ∀ (num : ℕ) (cache : Bool) (us : List Update)
    (h : BlockingPacketHelper) (x : Question), us.foldlM apply (initial num cache) = .ok h →
      h.AsTables num cache (tables us) x := by
  intro ha
  have hus : [.updateBlockingMap 2 (some 7) .request].foldlM apply (initial 2 false) =
    .ok _ := rfl
  have := ha 2 false _ _ (.getBlockingTrans 2 .request) hus (by decide)
  cases this

end BlockingPacketHelper

end Gem5Wrapper
