import Gem5Wrapper.RouterRuns

/-!
# The router of an initiator that accepts

An initiator may answer each call of `nb_transport_bw` with TLM_ACCEPTED, leave the phase and the
delay as they are, and make no call before it returns; the slave port does so. A callback of the
router then shows one of six things (`Reacts`), and reports nothing.
-/

namespace Gem5Wrapper

open FaultMachine OneAtATime PeqEvent

variable {α : Type}

namespace TxnRouter

/-! ## Answers -/

/-- The `delay` of `send_end_req` and `send_response`. -/
def bwDelay : ℕ := 10000

/-- A call of `nb_transport_bw` is accepted, and nothing else happens. -/
def accepting (ph : Phase) : Answer α := { reply := ⟨.accepted, ph, bwDelay⟩ }

def acceptingCb : CbAnswers α := ⟨accepting .endReq, accepting .beginResp⟩

/-- The callbacks of a router whose initiator accepts. -/
def Act.Accepting : Act α → Prop
  | .peqCb _ o => o = acceptingCb
  | .targetDone => True
  | .memoryDone _ a => a = accepting .beginResp
  | .call _ | .advance _ => False

/-! ## What a callback shows -/

/-- END_REQ starts the wait for `target_done_event`. -/
def Granted (r r' : TxnRouter α) : Prop :=
  r.targetDoneEvent = none ∧ r'.targetDoneEvent = some (r.now + bwDelay + 15000)

/-- What a callback shows, and what becomes of `target_done_event`. -/
inductive Reacts (r r' : TxnRouter α) : Prop
  /-- A request has to wait. -/
  | take (x : α) : x ∈ r.queued .beginReq → r'.trace = .acquire x :: r.trace →
      r'.targetDoneEvent = r.targetDoneEvent → Reacts r r'
  | grant (x : α) : x ∈ r.queued .beginReq → r'.trace = .endReq x :: .acquire x :: r.trace →
      Granted r r' → Reacts r r'
  | close (x : α) : r'.trace = .ended x :: r.trace → r'.targetDoneEvent = r.targetDoneEvent →
      Reacts r r'
  /-- END_RESP lets the request that waits go on. -/
  | closeGrant (x y : α) : r.endReqPending = some y →
      r'.trace = .endReq y :: .ended x :: r.trace → Granted r r' → Reacts r r'
  | start (x : α) : r'.trace = .execute x :: r.trace → r.targetDoneEvent = some r.now →
      r'.targetDoneEvent = none → Reacts r r'
  | answer (x : α) (status status' : ResponseStatus) : r'.trace = .release x ::
      .beginResp x status ⟨.accepted, .beginResp, bwDelay⟩ :: .executed x status' :: r.trace →
      r.targetDoneEvent = none → r'.targetDoneEvent = none → Reacts r r'

/-- What no callback changes, and the request that waits has been taken up. -/
structure Keeps (r r' : TxnRouter α) : Prop where
  window : r'.memStartAddr = r.memStartAddr ∧ r'.memSize = r.memSize
  pending : ∀ x ∈ r'.endReqPending, x ∈ r.endReqPending ∨ .acquire x ∈ r'.trace

/-- The state between two callbacks, when the initiator has accepted every call so far. -/
structure Settled (r : TxnRouter α) : Prop where
  protocol : ∃ w st, InProtocol w st r
  accepted : ∀ x status reply, .beginResp x status reply ∈ r.trace → reply.status = .accepted
  granted : ∀ x, .endReq x ∈ r.trace → .acquire x ∈ r.trace
  pending : ∀ x ∈ r.endReqPending, .acquire x ∈ r.trace
  released : ∀ x, .release x ∈ r.trace → ∃ status reply, .beginResp x status reply ∈ r.trace

theorem settled_new (name : String) (memStartAddr memSize : ℕ) (payloads : α → Payload) :
    Settled (new name memStartAddr memSize payloads) := by
  refine ⟨⟨_, _, inProtocol_new ..⟩, ?_, ?_, ?_, ?_⟩ <;> simp [new]

variable {r r' : TxnRouter α} {x : α} {w : Option α} {st : Stage α}

/-- A request in the queue has not been granted. -/
theorem InProtocol.of_queued (h : InProtocol w st r) (hx : x ∈ r.queued .beginReq) :
    x ∈ requests r.events ∧ x ∉ grants r.events := by
  obtain ⟨hreq, hgr, -, -, -, hnd⟩ := h.front.serves.ordered
  have hw : x ∈ w.toList := h.front.requests ▸ List.mem_append_left _ hx
  rw [hreq, List.append_assoc] at hnd ⊢
  rw [hgr]
  exact ⟨List.mem_append_left _ hw, fun hg => List.disjoint_of_nodup_append hnd hw hg⟩

theorem Settled.acquire_of_grants (h : Settled r) (hx : x ∈ grants r.events) :
    .acquire x ∈ r.trace := by
  obtain ⟨e, he, hx⟩ := List.mem_filterMap.1 hx
  obtain ⟨o, ho, he⟩ := List.mem_filterMap.1 he
  cases o <;> cases he <;> cases hx
  exact h.granted x ho

theorem Settled.not_refused (h : Settled r) (x : α) : .answer x false ∉ r.events := by
  intro hm
  obtain ⟨o, ho, he⟩ := List.mem_filterMap.1 hm
  cases o <;> simp [Obs.event] at he
  exact he.2 (h.accepted _ _ _ ho)

theorem Settled.answers_of_release (h : Settled r) (hx : .release x ∈ r.trace) :
    x ∈ answers r.events := by
  obtain ⟨status, reply, hm⟩ := h.released x hx
  exact List.mem_filterMap.2 ⟨_, List.mem_filterMap.2 ⟨_, hm, rfl⟩, rfl⟩

variable [DecidableEq α]

theorem sendEndReq_accepting (ht : r.transactionInProgress = none) (hd : r.targetDoneEvent = none) :
    r.sendEndReq x (accepting .endReq) = .ok { r.emit (.endReq x) with
      targetDoneEvent := some (r.now + bwDelay + 15000)
      transactionInProgress := some x } := by
  simp [sendEndReq, accepting, calls, emit, notifyDone, ht, hd, check_pos, Nat.add_assoc]

theorem sendResponse_accepting : r.sendResponse x (accepting .beginResp) =
    .ok (({ r with responseInProgress := true }.emit (.beginResp x (r.payloads x).responseStatus
      ⟨.accepted, .beginResp, bwDelay⟩)).emit (.release x)) := by
  simp [sendResponse, accepting, calls, emit, check_pos]

/-! ## One callback -/

theorem peqCb_reacts {i : ℕ} {e : PeqEvent α} (h : InProtocol w st r) (he : r.mPeq[i]? = some e) :
    ∃ r', (r.dequeue i).peqCb e.txn e.phase acceptingCb = .ok r' ∧ Reacts r r' ∧ Keeps r r' := by
  have hm : e ∈ r.mPeq := List.mem_of_getElem? he
  unfold peqCb
  obtain hp | hp := h.front.phases e hm
  · have hq : e.txn ∈ r.queued .beginReq :=
      List.mem_map.2 ⟨e, List.mem_filter.2 ⟨hm, by simp [hp]⟩, rfl⟩
    simp only [hp]
    split_ifs with htip
    · obtain rfl := h.stage.eq_idle htip
      have hd : r.targetDoneEvent = none := h.stage.2.2.2
      rw [acceptingCb, sendEndReq_accepting htip hd]
      refine ⟨_, rfl, .grant e.txn hq rfl ⟨hd, rfl⟩, ⟨rfl, rfl⟩, fun x hx => .inl hx⟩
    · refine ⟨_, rfl, .take e.txn hq rfl rfl, ⟨rfl, rfl⟩, fun x hx => .inr ?_⟩
      obtain rfl := Option.some.inj hx
      exact List.mem_cons_self
  · have hend := queued_dequeue he .endResp
    rw [h.front.ends, if_pos hp, List.singleton_append] at hend
    obtain ⟨rfl, -⟩ := eq_answered_of_closing hend
    obtain ⟨-, hrip, -, hd⟩ := h.stage
    have hrip' : (r.dequeue i).responseInProgress = true := hrip
    have hnext : (r.dequeue i).nextResponsePending = none := h.next
    have hpend : (r.dequeue i).endReqPending = r.endReqPending := rfl
    simp only [hp, check_pos hrip', ok_bind, emit, hnext, hpend, pure_eq_ok]
    cases hy : r.endReqPending with
    | none =>
      refine ⟨_, rfl, .close e.txn rfl rfl, ⟨rfl, rfl⟩, fun x hx => ?_⟩
      cases hx
    | some y =>
      simp only [acceptingCb]
      rw [sendEndReq_accepting (by rfl) (by exact hd)]
      refine ⟨_, rfl, .closeGrant e.txn y hy rfl ⟨hd, rfl⟩, ⟨rfl, rfl⟩, fun x hx => ?_⟩
      cases hx

theorem step_reacts (h : Settled r) {a : Act α} (ha : a.Accepting) :
    Ends (fun r' => Reacts r r' ∧ Keeps r r') (fun f => ∃ what, f = .environment what)
      (r.step a) := by
  obtain ⟨w, st, hi⟩ := h.protocol
  cases a with
  | call c => exact ha.elim
  | advance d => exact ha.elim
  | peqCb i o =>
    obtain rfl : o = acceptingCb := ha
    simp only [step]
    split
    · exact ⟨_, rfl⟩
    · rename_i e he
      refine .check (fun _ => ⟨_, rfl⟩) fun _ => ?_
      obtain ⟨r', hr', hreact⟩ := peqCb_reacts hi he
      rw [hr']
      exact hreact
  | targetDone =>
    refine .check (fun _ => ⟨_, rfl⟩) fun hd => ?_
    obtain ⟨x, rfl⟩ := hi.stage.eq_granted hd
    obtain ⟨htip, -, hproc, -⟩ := hi.stage
    simp only [wake, hproc, htip]
    exact ⟨.start x rfl hd rfl, ⟨rfl, rfl⟩, fun x hx => .inl hx⟩
  | memoryDone p a =>
    obtain rfl : a = accepting .beginResp := ha
    cases hproc : r.process with
    | none =>
      simp only [step, memoryDone, hproc]
      exact ⟨_, rfl⟩
    | some x =>
      obtain rfl := hi.stage.eq_started hproc
      obtain ⟨htip, hrip, -, hdone⟩ := hi.stage
      simp only [step, memoryDone, hproc, emit, hrip, htip, sendResponse_accepting]
      exact ⟨.answer x _ p.responseStatus rfl hdone hdone, ⟨rfl, rfl⟩, fun x hx => .inl hx⟩

omit [DecidableEq α] in
theorem Reacts.suffix (h : Reacts r r') : r.trace <:+ r'.trace := by
  cases h with
  | take x _ htr => exact htr ▸ List.suffix_cons ..
  | grant x _ htr => exact htr ▸ ⟨[_, _], rfl⟩
  | close x htr => exact htr ▸ List.suffix_cons ..
  | closeGrant x y _ htr => exact htr ▸ ⟨[_, _], rfl⟩
  | start x htr => exact htr ▸ List.suffix_cons ..
  | answer x _ _ htr => exact htr ▸ ⟨[_, _, _], rfl⟩

/-- The state after a callback. -/
theorem Settled.step (h : Settled r) {a : Act α} (ha : a.Accepting) (hs : r.step a = .ok r') :
    Settled r' := by
  obtain ⟨w, st, hi⟩ := h.protocol
  obtain ⟨hreact, hkeep⟩ := (step_reacts h ha).of_eq_ok hs
  have hmem := hreact.suffix.subset
  refine ⟨((step_ends hi a).of_eq_ok hs).1, fun x status reply hm => ?_, fun x hm => ?_,
    fun x hx => ?_, fun x hm => ?_⟩
  · have hold := h.accepted x status reply
    cases hreact <;> grind
  · have hold := h.granted x
    have hpend := h.pending x
    cases hreact <;> grind
  · obtain hx | hx := hkeep.pending x hx
    · exact hmem (h.pending x hx)
    · exact hx
  · have hold := h.released x
    cases hreact <;> grind

/-! ## Calls of the initiator -/

omit [DecidableEq α] in
/-- The time goes on, and the payloads are those of the initiator. -/
theorem Settled.at (h : Settled r) (now : ℕ) (payloads : α → Payload) :
    Settled { r with now, payloads } := by
  obtain ⟨w, st, hi⟩ := h.protocol
  refine ⟨⟨w, st, ⟨hi.front.serves, hi.front.requests, hi.front.ends, hi.front.phases⟩, ?_,
    hi.next⟩, h.accepted, h.granted, h.pending, h.released⟩
  cases st <;> exact hi.stage

theorem Settled.call (h : Settled r) {c : Call α} (hc : r.call c = .ok r')
    (ht : ∃ o : Obs α, r'.trace = o :: r.trace ∧ (o = .beginReq c.txn ∨ o = .endResp c.txn))
    (hp : r'.endReqPending = r.endReqPending) : Settled r' := by
  obtain ⟨w, st, hi⟩ := h.protocol
  have hprot := ((step_ends hi (.call c)).of_eq_ok hc).1
  obtain ⟨o, htr, ho⟩ := ht
  refine ⟨hprot, fun x status reply hm => ?_, fun x hm => ?_, fun x hx => ?_, fun x hm => ?_⟩
  · have hold := h.accepted x status reply
    grind
  · have hold := h.granted x
    grind
  · have hold := h.pending x
    grind
  · have hold := h.released x
    grind

end TxnRouter

end Gem5Wrapper
