import Gem5Wrapper.TxnRouter

/-!
# Runs of the router

A router with an initiator that obeys the rules follows the protocol of `OneAtATime`: `Front`
relates the waiting request and the queued callbacks to the history, `StageOf` the other fields
to the stage of the work. `InProtocol` is the state between two callbacks.

Some requests are stranded: when the initiator completes a response at once, nothing takes up
the request that waits in `end_req_pending`.
-/

namespace Gem5Wrapper

open FaultMachine OneAtATime PeqEvent

variable {α : Type}

namespace TxnRouter

/-! ## The protocol state -/

/-- The transactions with a queued callback for phase `ph`. -/
def queued (r : TxnRouter α) (ph : Phase) : List α := PeqEvent.queued r.mPeq ph

/-- The transaction whose END_RESP is on its way. -/
def closing : Stage α → List α
  | .answered x false => [x]
  | _ => []

/-- The queued callbacks, with the request `pending` that waits for its END_REQ and the
transactions `ends` whose END_RESP is queued. -/
structure Front (w : Option α) (st : Stage α) (pending : Option α) (ends : List α)
    (r : TxnRouter α) : Prop where
  serves : Serves w st r.events
  requests : r.queued .beginReq ++ pending.toList = w.toList
  ends : r.queued .endResp = ends
  phases : ∀ e ∈ r.mPeq, e.phase = .beginReq ∨ e.phase = .endResp

/-- The fields of the router at a stage. No callback returns at stage `finished`. -/
def StageOf (r : TxnRouter α) : Stage α → Prop
  | .idle => r.transactionInProgress = none ∧ r.responseInProgress = false ∧ r.process = none ∧
      r.targetDoneEvent = none
  | .granted x => r.transactionInProgress = some x ∧ r.responseInProgress = false ∧
      r.process = none ∧ r.targetDoneEvent.isSome
  | .started x => r.transactionInProgress = some x ∧ r.responseInProgress = false ∧
      r.process = some x ∧ r.targetDoneEvent = none
  | .finished _ => False
  | .answered x _ => r.transactionInProgress = some x ∧ r.responseInProgress = true ∧
      r.process = none ∧ r.targetDoneEvent = none

/-- The state between two callbacks. -/
structure InProtocol (w : Option α) (st : Stage α) (r : TxnRouter α) : Prop where
  front : Front w st r.endReqPending (closing st) r
  stage : r.StageOf st
  next : r.nextResponsePending = none

/-- The faults that an initiator outside the memory window, or one that breaks the rules, sees. -/
def Expected : Fault → Prop
  | .environment _ => True
  | .fatal _ message => message = "Address out of range. Please check"
  | _ => False

/-! ## The queue -/

variable {r : TxnRouter α} {x : α} {w : Option α} {st : Stage α} {pending : Option α}
  {ph : Phase} {delay : ℕ}

@[simp] theorem queued_emit (o : Obs α) : (r.emit o).queued ph = r.queued ph := rfl

@[simp] theorem endReqPending_emit (o : Obs α) :
    (r.emit o).endReqPending = r.endReqPending := rfl

@[simp] theorem endReqPending_notify :
    (r.notify x ph delay).endReqPending = r.endReqPending := rfl

@[simp] theorem queued_notify (ph' : Phase) :
    (r.notify x ph' delay).queued ph = r.queued ph ++ if ph' = ph then [x] else [] := by
  by_cases h : ph' = ph <;> simp [queued, PeqEvent.queued, notify, h]

@[simp] theorem events_notify : (r.notify x ph delay).events = r.events := rfl

theorem events_emit (o : Obs α) : (r.emit o).events = [o].filterMap Obs.event ++ r.events := by
  simp [events, emit, List.filterMap_cons]
  cases o.event <;> rfl

theorem queued_dequeue {i : ℕ} {e : PeqEvent α} (h : r.mPeq[i]? = some e) (ph : Phase) :
    (r.queued ph).Perm ((if e.phase = ph then [e.txn] else []) ++ (r.dequeue i).queued ph) :=
  PeqEvent.queued_eraseIdx h ph

theorem length_closing_le (st : Stage α) : (closing st).length ≤ 1 := by
  unfold closing; split <;> simp

theorem eq_answered_of_closing {l : List α} (h : (closing st).Perm (x :: l)) :
    st = .answered x false ∧ l = [] := by
  unfold closing at h
  split at h
  · obtain ⟨rfl, rfl⟩ := List.cons_eq_cons.1 (List.perm_singleton.1 h.symm)
    exact ⟨rfl, rfl⟩
  · exact absurd (List.perm_nil.1 h.symm) (by simp)

/-- Only the idle stage has no transaction in progress. -/
theorem StageOf.eq_idle (h : r.StageOf st) (ht : r.transactionInProgress = none) : st = .idle := by
  cases st with
  | idle => rfl
  | finished => exact h.elim
  | _ => exact absurd (h.1.symm.trans ht) (by simp)

theorem StageOf.eq_granted (h : r.StageOf st) {t : ℕ} (hd : r.targetDoneEvent = some t) :
    ∃ x, st = .granted x := by
  cases st with
  | granted x => exact ⟨x, rfl⟩
  | finished => exact h.elim
  | _ => exact absurd (h.2.2.2.symm.trans hd) (by simp)

theorem StageOf.eq_started (h : r.StageOf st) (hproc : r.process = some x) : st = .started x := by
  cases st with
  | started y => exact congrArg _ (Option.some.inj (h.2.2.1.symm.trans hproc))
  | finished => exact h.elim
  | _ => exact absurd (h.2.2.1.symm.trans hproc) (by simp)

/-! ## Calls of the initiator -/

/-- What calls of `nb_transport_fw` can change. -/
def Called (r r' : TxnRouter α) : Prop := r' = { r with mPeq := r'.mPeq, trace := r'.trace }

/-- How calls of `nb_transport_fw` change the stage: END_RESP is sent. -/
inductive Later : Stage α → List α → Stage α → List α → Prop
  | refl {st : Stage α} {ends : List α} : Later st ends st ends
  | ack {x : α} {ends : List α} : Later (.answered x true) ends (.answered x false) (ends ++ [x])

theorem Later.trans {st₁ st₂ st₃ : Stage α} {ends₁ ends₂ ends₃ : List α}
    (h : Later st₁ ends₁ st₂ ends₂) (h' : Later st₂ ends₂ st₃ ends₃) :
    Later st₁ ends₁ st₃ ends₃ := by
  cases h with
  | refl => exact h'
  | ack => cases h' with | refl => exact .ack

/-- What calls of the initiator lead to. -/
def AfterCalls (r : TxnRouter α) (st : Stage α) (pending : Option α) (ends : List α)
    (r' : TxnRouter α) : Prop :=
  Called r r' ∧ ∃ w' st' ends', Front w' st' pending ends' r' ∧ Later st ends st' ends'

/-- The condition under which no request is stranded: the initiator does not complete a response at
once while a request waits in `end_req_pending`. -/
def NotCompleted (r : TxnRouter α) : Act α → Prop
  | .memoryDone _ a => a.reply.status = .completed → r.endReqPending = none
  | _ => True

instance (r : TxnRouter α) : (a : Act α) → Decidable (NotCompleted r a)
  | .memoryDone _ a => inferInstanceAs (Decidable (a.reply.status = .completed →
      r.endReqPending = none))
  | .call _ | .peqCb _ _ | .targetDone | .advance _ => .isTrue trivial

/-- Nothing waits in `end_req_pending` while no transaction is in progress. -/
def NotStranded (r : TxnRouter α) : Prop :=
  r.endReqPending ≠ none → r.transactionInProgress ≠ none

theorem notStranded_iff :
    r.NotStranded ↔ (r.transactionInProgress = none → r.endReqPending = none) := not_imp_not

theorem inProtocol_new (name : String) (memStartAddr memSize : ℕ) (payloads : α → Payload) :
    InProtocol none .idle (new name memStartAddr memSize payloads) :=
  ⟨⟨.nil, rfl, rfl, by simp [new]⟩, ⟨rfl, rfl, rfl, rfl⟩, rfl⟩

variable [DecidableEq α] {ends : List α}

/-- One call of the initiator. -/
theorem call_ends (h : Front w st pending ends r) (c : Call α) :
    Ends (AfterCalls r st pending ends) Expected (r.call c) := by
  unfold call
  split
  · refine .check (fun _ => trivial) fun hm => ?_
    unfold nbTransportFw
    split_ifs with ha
    · obtain rfl := h.serves.eq_none hm
      have hreq : r.queued .beginReq = [] ∧ pending.toList = [] := by simpa using h.requests
      refine ⟨rfl, some c.txn, st, ends, ⟨?_, ?_, ?_, ?_⟩, .refl⟩
      · rw [events_notify, events_emit]
        exact .request h.serves hm.1
      · simp [hreq.1, hreq.2]
      · simp [h.ends]
      · simpa [notify, emit, or_imp, forall_and] using h.phases
    · exact rfl
  · refine .check (fun _ => trivial) fun hm => ?_
    unfold nbTransportFw
    split_ifs with ha
    · obtain rfl := h.serves.eq_answered hm
      refine ⟨rfl, w, .answered c.txn false, ends ++ [c.txn], ⟨?_, ?_, ?_, ?_⟩, .ack⟩
      · rw [events_notify, events_emit]
        exact .ack h.serves
      · simpa using h.requests
      · simp [h.ends]
      · simpa [notify, emit, or_imp, forall_and] using h.phases
    · exact rfl
  · trivial

/-- The calls that the initiator makes before `nb_transport_bw` returns. -/
theorem calls_ends (h : Front w st pending ends r) (cs : List (Call α)) :
    Ends (AfterCalls r st pending ends) Expected (r.calls cs) := by
  induction cs generalizing r w st ends with
  | nil => exact ⟨rfl, w, st, ends, h, .refl⟩
  | cons c cs ih =>
    refine (call_ends h c).bind fun r₁ _ h₁ => ?_
    obtain ⟨hc, w₁, st₁, ends₁, hf, hl⟩ := h₁
    refine (ih hf).mono (fun r₂ _ h₂ => ?_) fun _ _ => id
    obtain ⟨hc', w₂, st₂, ends₂, hf', hl'⟩ := h₂
    exact ⟨hc'.trans (by rw [hc]), w₂, st₂, ends₂, hf', hl.trans hl'⟩

/-! ## The functions of the router -/

/-- `send_end_req` grants the request that waits, whether it comes from `end_req_pending` or
straight from the queue. -/
theorem sendEndReq_ends (h : Front (some x) .idle (some x) [] r) (hs : r.StageOf .idle)
    (a : Answer α) :
    Ends (fun r' => ∃ w, Front w (.granted x) none [] r' ∧ r'.StageOf (.granted x) ∧
      r'.endReqPending = r.endReqPending ∧ r'.nextResponsePending = r.nextResponsePending)
      Expected (r.sendEndReq x a) := by
  have hq : r.queued .beginReq = [] := by simpa using h.requests
  have hf : Front none (.granted x) none [] (r.emit (.endReq x)) :=
    ⟨by rw [events_emit]; exact .grant h.serves, by simp [hq], h.ends, h.phases⟩
  refine (calls_ends hf a.calls).bind fun r₁ _ h₁ => ?_
  obtain ⟨hc, w, st, ends, hf, hl⟩ := h₁
  cases hl
  obtain ⟨q, l, rfl⟩ : ∃ q l, r₁ = { r.emit (.endReq x) with mPeq := q, trace := l } := ⟨_, _, hc⟩
  obtain ⟨htip, hrip, hproc, -⟩ := hs
  refine .check (fun hn => absurd htip hn) fun _ => ?_
  exact ⟨w, ⟨hf.serves, hf.requests, hf.ends, hf.phases⟩, ⟨rfl, hrip, hproc, rfl⟩, rfl, rfl⟩

/-- `send_response` answers the transaction that the memory has finished. -/
theorem sendResponse_ends (h : Front w (.finished x) r.endReqPending [] r)
    (htip : r.transactionInProgress = some x) (hproc : r.process = none)
    (hdone : r.targetDoneEvent = none) (hnext : r.nextResponsePending = none) (a : Answer α) :
    Ends (fun r' => ∃ w' st', InProtocol w' st' r' ∧ r'.endReqPending = r.endReqPending ∧
      (r'.transactionInProgress = none → a.reply.status = .completed)) Expected
      (r.sendResponse x a) := by
  refine .check (fun _ => trivial) fun hup => ?_
  have hf : Front w (.answered x (a.reply.status = .accepted)) r.endReqPending []
      ({ r with responseInProgress := true }.emit
        (.beginResp x (r.payloads x).responseStatus a.reply)) :=
    ⟨by rw [events_emit]; exact .answer _ h.serves, h.requests, h.ends, h.phases⟩
  refine (calls_ends hf a.calls).bind fun r₁ _ h₁ => ?_
  obtain ⟨hc, w', st', ends', hf', hl⟩ := h₁
  obtain ⟨q, l, rfl⟩ : ∃ q l, r₁ =
      ({ r with responseInProgress := true, mPeq := q, trace := l } : TxnRouter α) := ⟨_, _, hc⟩
  refine ⟨w', ?_⟩
  cases hst : a.reply.status with
  | accepted =>
    rw [hst] at hl
    refine ⟨st', ?_, rfl, fun h => absurd (htip.symm.trans h) (by simp)⟩
    cases hl with
    | refl =>
      exact ⟨⟨hf'.serves, hf'.requests, hf'.ends, hf'.phases⟩, ⟨htip, rfl, hproc, hdone⟩, hnext⟩
    | ack =>
      exact ⟨⟨hf'.serves, hf'.requests, hf'.ends, hf'.phases⟩, ⟨htip, rfl, hproc, hdone⟩, hnext⟩
  | updated =>
    rw [hst] at hl
    cases hl
    have hph : a.reply.phase = .endResp := hup hst
    refine ⟨.answered x false, ⟨⟨hf'.serves, ?_, ?_, ?_⟩, ⟨htip, rfl, hproc, hdone⟩, hnext⟩, rfl,
      fun h => absurd (htip.symm.trans h) (by simp)⟩
    · simpa [hph] using hf'.requests
    · simp [hph, hf'.ends, closing]
    · simpa [notify, emit, or_imp, forall_and, hph] using hf'.phases
  | completed =>
    rw [hst] at hl
    cases hl
    exact ⟨.idle, ⟨⟨.close hf'.serves, hf'.requests, hf'.ends, hf'.phases⟩,
      ⟨rfl, rfl, hproc, hdone⟩, hnext⟩, rfl, fun _ => rfl⟩

/-- A callback for an event that has been taken out of the queue. -/
theorem peqCb_ends {i : ℕ} {e : PeqEvent α} (h : InProtocol w st r) (he : r.mPeq[i]? = some e)
    (o : CbAnswers α) :
    Ends (fun r' => ∃ w' st', InProtocol w' st' r' ∧
      ((r.transactionInProgress = none → r.endReqPending = none) →
        r'.transactionInProgress = none → r'.endReqPending = none)) Expected
      ((r.dequeue i).peqCb e.txn e.phase o) := by
  have hm : e ∈ r.mPeq := List.mem_of_getElem? he
  have hphases : ∀ e' ∈ r.mPeq.eraseIdx i, e'.phase = .beginReq ∨ e'.phase = .endResp :=
    fun e' he' => h.front.phases e' (List.mem_of_mem_eraseIdx he')
  have hreq := queued_dequeue he .beginReq
  have hend := queued_dequeue he .endResp
  rw [h.front.ends] at hend
  unfold peqCb
  obtain hp | hp := h.front.phases e hm
  · rw [if_pos hp, List.singleton_append] at hreq
    rw [if_neg (by simp [hp]), List.nil_append] at hend
    obtain ⟨hq, hpend, rfl⟩ := eq_of_perm_cons hreq h.front.requests
    have hend := eq_of_perm hend (length_closing_le st)
    simp only [hp]
    split_ifs with htip
    · obtain rfl := h.stage.eq_idle htip
      have hf : Front (some e.txn) .idle (some e.txn) []
          ((r.dequeue i).emit (.acquire e.txn)) :=
        ⟨h.front.serves, by simp [hq], hend, hphases⟩
      refine (sendEndReq_ends hf h.stage o.endReq).mono (fun r' _ hr' => ?_) fun _ _ => id
      obtain ⟨w', hf', hst', hpend', hnext'⟩ := hr'
      have hpend' : r'.endReqPending = none := hpend'.trans hpend
      exact ⟨w', _, ⟨hpend' ▸ hf', hst', hnext'.trans h.next⟩, fun _ _ => hpend'⟩
    · exact ⟨some e.txn, st, ⟨⟨h.front.serves, congrArg (· ++ [e.txn]) hq, hend, hphases⟩, h.stage,
        h.next⟩,
        fun _ ht => absurd ht htip⟩
  · rw [if_neg (by simp [hp]), List.nil_append] at hreq
    rw [if_pos hp, List.singleton_append] at hend
    obtain ⟨rfl, hq⟩ := eq_answered_of_closing hend
    obtain ⟨htip, hrip, hproc, hdone⟩ := h.stage
    simp only [hp]
    refine .check (fun hn => absurd hrip hn) fun _ => ?_
    have hserves : Serves w .idle ((r.dequeue i).emit (.ended e.txn)).events :=
      .close h.front.serves
    have hreq' : (r.dequeue i).queued .beginReq ++ r.endReqPending.toList = w.toList := by
      have hp := hreq.append_right r.endReqPending.toList
      rw [h.front.requests] at hp
      exact eq_of_perm hp (length_toList_le w)
    simp only [emit, dequeue, h.next, ok_bind, pure_eq_ok]
    cases hpend : r.endReqPending with
    | none =>
      exact ⟨w, .idle, ⟨⟨hserves, hpend ▸ hreq', hq, hphases⟩, ⟨rfl, rfl, hproc, hdone⟩, rfl⟩,
        fun _ _ => rfl⟩
    | some y =>
      rw [hpend] at hreq'
      obtain rfl : w = some y := by
        cases w <;> simp_all [List.append_eq_cons_iff]
      refine (sendEndReq_ends ?_ ?_ o.endReq).bind fun r' _ hr' => ?_
      · exact ⟨hserves, hreq', hq, hphases⟩
      · exact ⟨rfl, rfl, hproc, hdone⟩
      obtain ⟨w', hf', hst', -, hnext'⟩ := hr'
      exact ⟨w', _, ⟨⟨hf'.serves, hf'.requests, hf'.ends, hf'.phases⟩, hst', hnext'.trans rfl⟩,
        fun _ _ => rfl⟩

/-- What one act leads to. -/
theorem step_ends (h : InProtocol w st r) (a : Act α) :
    Ends (fun r' => (∃ w' st', InProtocol w' st' r') ∧
      (NotCompleted r a → NotStranded r → NotStranded r')) Expected (r.step a) := by
  simp only [notStranded_iff]
  cases a with
  | call c =>
    refine (call_ends h.front c).mono (fun r' _ h' => ?_) fun _ _ => id
    obtain ⟨hc, w', st', ends', hf, hl⟩ := h'
    obtain ⟨q, l, rfl⟩ : ∃ q l, r' = { r with mPeq := q, trace := l } := ⟨_, _, hc⟩
    refine ⟨⟨w', st', ⟨hf.serves, hf.requests, ?_, hf.phases⟩, ?_, h.next⟩, fun _ => id⟩
    · rw [hf.ends]
      cases hl <;> rfl
    · cases hl <;> exact h.stage
  | peqCb i o =>
    cases he : r.mPeq[i]? with
    | none =>
      simp only [step, he]
      trivial
    | some e =>
      simp only [step, he]
      refine .check (fun _ => trivial) fun _ => ?_
      refine (peqCb_ends h he o).mono (fun r' _ h' => ?_) fun _ _ => id
      obtain ⟨w', st', h', hs⟩ := h'
      exact ⟨⟨w', st', h'⟩, fun _ => hs⟩
  | targetDone =>
    refine .check (fun _ => trivial) fun hd => ?_
    obtain ⟨x, rfl⟩ := h.stage.eq_granted hd
    obtain ⟨htip, hrip, hproc, -⟩ := h.stage
    simp only [wake, hproc, htip]
    exact ⟨⟨w, .started x, ⟨.start h.front.serves, h.front.requests, h.front.ends, h.front.phases⟩,
      ⟨rfl, hrip, rfl, rfl⟩, h.next⟩, fun _ _ ht => nomatch ht⟩
  | memoryDone p a =>
    cases hproc : r.process with
    | none =>
      simp only [step, memoryDone, hproc]
      trivial
    | some x =>
      obtain rfl := h.stage.eq_started hproc
      obtain ⟨htip, hrip, -, hdone⟩ := h.stage
      simp only [step, memoryDone, hproc, emit, hrip, htip]
      refine (sendResponse_ends (x := x) (w := w) ?_ ?_ ?_ ?_ ?_ a).mono (fun r' _ h' => ?_)
        fun _ _ => id
      · exact ⟨.finish h.front.serves, h.front.requests, h.front.ends, h.front.phases⟩
      · rfl
      · rfl
      · exact hdone
      · exact h.next
      · obtain ⟨w', st', h', hpend, hc⟩ := h'
        exact ⟨⟨w', st', h'⟩, fun hn _ ht => hpend.trans (hn (hc ht))⟩
  | advance d =>
    refine .check (fun _ => trivial) fun _ => ?_
    exact ⟨⟨w, st, ⟨h.front.serves, h.front.requests, h.front.ends, h.front.phases⟩, by
      cases st <;> exact h.stage, h.next⟩, fun _ => id⟩

/-! ## Runs -/

variable {name : String} {memStartAddr memSize : ℕ} {payloads : α → Payload}
  {ok : TxnRouter α → Act α → Prop}

theorem inProtocol_of_run (h : Run step ok (new name memStartAddr memSize payloads) r) :
    ∃ w st, InProtocol w st r :=
  h.invariant (I := fun r => ∃ w st, InProtocol w st r) ⟨none, .idle, inProtocol_new ..⟩
    fun _ a _ ⟨_, _, hi⟩ _ hs => ((step_ends hi a).of_eq_ok hs).1

/-- The laws of a moment in the history: what is between its END_REQ and the end of its response,
how often transactions are executed and answered, and in which order. -/
structure HistoryLaws (l : List (Event α)) : Prop where
  one : ∀ x ∈ grants l, x ∉ closes l → ∀ y ∈ grants l, y ∉ closes l → x = y
  executedOnce : (OneAtATime.starts l).Nodup
  answeredOnce : (answers l).Nodup
  answered : ∀ x ∈ answers l,
    x ∈ grants l ∧ (OneAtATime.starts l).count x = 1 ∧ (finishes l).count x = 1
  endReqs : grants l <:+ requests l
  executions : OneAtATime.starts l <:+ requests l
  beginResps : answers l <:+ requests l

/-- The laws of the router: those of its history, at every moment, and those of its state. The
pending request is written when a queued BEGIN_REQ is called back, so it must not be set then. -/
structure RouterLaws (r : TxnRouter α) : Prop where
  history : ∀ l, l <:+ r.trace → HistoryLaws (l.filterMap Obs.event)
  endReqPending : ∀ e ∈ r.mPeq, e.phase = .beginReq → r.endReqPending = none
  nextResponsePending : r.nextResponsePending = none
  faults : ∀ a f, r.step a = .error f → Expected f

theorem historyLaws_of_serves {l : List (Event α)} (h : Serves w st l) :
    HistoryLaws l := by
  have hs := h.starts_suffix.trans h.grants_suffix
  have hf := h.finishes_suffix.trans hs
  have ha := h.answers_suffix.trans hf
  have hnd := h.ordered.nodup
  refine ⟨fun x hx hx' y hy hy' => h.unique hx hx' hy hy', hnd.sublist hs.sublist,
    hnd.sublist ha.sublist, fun x hx => ?_, h.grants_suffix, hs, ha⟩
  have hxf := h.answers_suffix.subset hx
  have hxs := h.finishes_suffix.subset hxf
  exact ⟨h.starts_suffix.subset hxs, List.count_eq_one_of_mem (hnd.sublist hs.sublist) hxs,
    List.count_eq_one_of_mem (hnd.sublist hf.sublist) hxf⟩

/-- A router with memory from address 0 to 4096, and payloads for its first word. -/
def smallRouter : TxnRouter ℕ := new "router" 0 4096 fun _ => { address := 8, hasMm := true }

/-- An initiator that accepts END_REQ, and answers BEGIN_RESP with `status`. -/
def answersWith (status : SyncEnum) : CbAnswers ℕ where
  endReq := { reply := ⟨.accepted, .endReq, 10000⟩ }
  beginResp := { reply := ⟨status, .endResp, 10000⟩ }

theorem exists_smallRun {P : TxnRouter ℕ → Act ℕ → Prop} [∀ r a, Decidable (P r a)]
    {p : TxnRouter ℕ → Bool} (acts : List (Act ℕ))
    (h : (exec step P smallRouter acts).map p = some true) :
    ∃ r, Run step P smallRouter r ∧ p r = true :=
  exists_run_of_exec h

/-- The first transaction is executed while the second waits for its END_REQ; the initiator answers
the first BEGIN_RESP with `status`. -/
def secondWaits (status : SyncEnum) : List (Act ℕ) :=
  [.call ⟨0, .beginReq, 0⟩, .peqCb 0 (answersWith status), .advance 25000, .targetDone,
    .call ⟨1, .beginReq, 0⟩, .peqCb 0 (answersWith status),
    .memoryDone {} (answersWith status).beginResp]

/-- With an initiator that obeys the rules, every run of the router obeys its laws. -/
theorem routerLaws_of_run
    (h : Run step (fun _ _ => True) (new name memStartAddr memSize payloads) r) :
    RouterLaws r := by
  obtain ⟨w, st, hi⟩ := inProtocol_of_run h
  refine ⟨fun l hl => ?_, fun e he hp => ?_, hi.next, fun a f hf => (step_ends hi a).of_eq_error hf⟩
  · obtain ⟨w', st', hs⟩ := hi.front.serves.of_suffix (hl.filterMap Obs.event)
    exact historyLaws_of_serves hs
  · obtain ⟨i, hi', rfl⟩ := List.getElem_of_mem he
    have hq := queued_dequeue (List.getElem?_eq_getElem hi') .beginReq
    rw [if_pos hp] at hq
    exact (eq_of_perm_cons hq hi.front.requests).2.1

/-- Two transactions; the second is requested while the memory works on the first. -/
theorem routerLaws_twoTransactions :
    ∃ r : TxnRouter ℕ, answers r.events = [1, 0] ∧ RouterLaws r := by
  obtain ⟨r, hr, hp⟩ := exists_smallRun (P := fun (_ : TxnRouter ℕ) _ => True)
    (p := fun r => answers r.events = [1, 0]) (secondWaits .updated ++
      [.advance 10000, .peqCb 0 (answersWith .updated), .advance 25000, .targetDone,
        .memoryDone {} (answersWith .updated).beginResp]) (by decide)
  exact ⟨r, of_decide_eq_true hp, routerLaws_of_run hr⟩

/-- If the initiator never completes a response while a request waits, no request is stranded. -/
theorem notStranded_of_run (h : Run step NotCompleted (new name memStartAddr memSize payloads) r) :
    NotStranded r := by
  refine h.invariant_of (J := fun r => ∃ w st, InProtocol w st r)
    (fun t ht => inProtocol_of_run ht) (fun hn => absurd rfl hn)
    fun t a u ⟨w, st, hi⟩ hn hok hs => ?_
  exact ((step_ends hi a).of_eq_ok hs).2 hok hn

/-- TLM_UPDATED with END_RESP lets the second transaction go on. -/
theorem notStranded_updated : ∃ r : TxnRouter ℕ, r.endReqPending = some 1 ∧ NotStranded r := by
  obtain ⟨r, hr, hp⟩ := exists_smallRun (P := NotCompleted)
    (p := fun r => r.endReqPending = some 1) (secondWaits .updated) (by decide)
  exact ⟨r, of_decide_eq_true hp, notStranded_of_run hr⟩

/-- TLM_COMPLETED leaves the second transaction waiting for an END_REQ that nobody sends. -/
theorem not_notStranded : ¬ ∀ (name : String) (memStartAddr memSize : ℕ) (payloads : ℕ → Payload)
    (r : TxnRouter ℕ), Run step (fun _ _ => True) (new name memStartAddr memSize payloads) r →
      NotStranded r := by
  intro h
  obtain ⟨r, hr, hp⟩ := exists_smallRun (P := fun _ _ => True)
    (p := fun r => r.endReqPending = some 1 ∧ r.transactionInProgress = none)
    (secondWaits .completed) (by decide)
  obtain ⟨h₁, h₂⟩ := of_decide_eq_true hp
  exact h _ _ _ _ r hr (by simp [h₁]) h₂

end TxnRouter

end Gem5Wrapper
