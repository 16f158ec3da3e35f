import Gem5Wrapper.MasterPort
import Gem5Wrapper.Lib.History
import Gem5Wrapper.Lib.TwoChannels

/-!
# The channels of the master port

With an initiator that obeys the exclusion rules and a gem5 that does not answer a request inside
`sendTimingReq`, the port follows the protocol of `TwoChannels`. `Front` relates the queued
callbacks to the protocol, `Stacked` the sender states, and `Flags` the rest of the state between
two callbacks.
-/

namespace Gem5Wrapper

open FaultMachine OneAtATime TwoChannels History PeqEvent

variable {α : Type} [DecidableEq α]

namespace SCMasterPort

/-! ## The law of END_REQ -/

/-- END_REQ is sent right after gem5 accepted the packet of its transaction, and before
BEGIN_RESP. -/
def EndReqLaw (o : Obs α) (l : List (Obs α)) : Prop :=
  (∀ x, o = .endReq x ↔ ∃ p, l.head? = some (.sendTimingReq x p true)) ∧
    ∀ x d reply, o = .beginResp x d reply → .endReq x ∈ l

/-- The law holds so far, and no END_REQ is due. -/
structure Tidy (l : List (Obs α)) : Prop where
  law : Along EndReqLaw l
  settled : ∀ x p, l.head? ≠ some (.sendTimingReq x p true)

/-- Observations that no law of END_REQ speaks of. -/
def Obs.plain : Obs α → Bool
  | .sendTimingReq _ _ true | .endReq _ | .beginResp .. => false
  | _ => true

variable {r r' : SCMasterPort α} {x : α} {p : PacketId α} {l : List (Obs α)} {o : Obs α}
  {w : Option α} {ins : List α} {ch : Channel α} {pending : Option α} {ends : List α}

omit [DecidableEq α] in
theorem Tidy.plain (h : Tidy l) (ho : o.plain = true) : Tidy (o :: l) := by
  refine ⟨⟨⟨fun x => ⟨?_, ?_⟩, ?_⟩, h.law⟩, ?_⟩
  · rintro rfl
    cases ho
  · rintro ⟨p, hp⟩
    exact absurd hp (h.settled x p)
  · rintro x d reply rfl
    cases ho
  · intro x p heq
    rw [List.head?_cons, Option.some.injEq] at heq
    subst heq
    cases ho

omit [DecidableEq α] in
theorem Tidy.endReq (h : Tidy l) (x : α) (p : PacketId α) :
    Tidy (.endReq x :: .sendTimingReq x p true :: l) := by
  refine ⟨⟨⟨fun y => ⟨?_, ?_⟩, by simp⟩,
    ⟨fun y => ⟨by simp, ?_⟩, by simp⟩, h.law⟩, ?_⟩
  · rintro heq
    obtain rfl := Obs.endReq.inj heq
    exact ⟨p, rfl⟩
  · rintro ⟨q, hq⟩
    rw [List.head?_cons, Option.some.injEq] at hq
    obtain ⟨rfl, -, -⟩ := Obs.sendTimingReq.inj hq
    rfl
  · rintro ⟨q, hq⟩
    exact absurd hq (h.settled y q)
  · intro y q heq
    simp at heq

omit [DecidableEq α] in
theorem Tidy.beginResp (h : Tidy l) {d : ℕ} {reply : Reply} (hx : .endReq x ∈ l) :
    Tidy (.beginResp x d reply :: l) := by
  refine ⟨⟨⟨fun y => ⟨by simp, ?_⟩, ?_⟩, h.law⟩, fun y q heq => ?_⟩
  · rintro ⟨q, hq⟩
    exact absurd hq (h.settled y q)
  · rintro y d reply heq
    obtain ⟨rfl, -, -⟩ := Obs.beginResp.inj heq
    exact hx
  · simp at heq

/-! ## The protocol state -/

/-- The queued callbacks, with the request `pending` that waits for its END_REQ and the transactions
`ends` whose END_RESP is queued. -/
structure Front (w : Option α) (ins : List α) (ch : Channel α) (pending : Option α)
    (ends : List α) (r : SCMasterPort α) : Prop where
  pipelines : Pipelines w ins ch r.events
  requests : queued r.peq .beginReq ++ pending.toList = w.toList
  ends : queued r.peq .endResp = ends
  phases : ∀ e ∈ r.peq, e.phase = .beginReq ∨ e.phase = .endResp

/-- The sender states are those of the requests `ins` at gem5 and of the pending one, each on the
packet of its transaction. -/
structure Stacked (ins : List α) (pending : Option α) (r : SCMasterPort α) : Prop where
  mem : ∀ p, ∀ x ∈ r.senderStates p, r.packetOf x = p ∧ (x ∈ ins ∨ pending = some x)
  nodup : ∀ p, (r.senderStates p).Nodup
  packets : ∀ x p b, .sendTimingReq x p b ∈ r.trace → p = r.packetOf x

/-- The fields of the request channel: a request is pending as long as gem5 refuses it. -/
structure Pends (r : SCMasterPort α) : Prop where
  waits : r.waitForRetry = r.pendingRequest.isSome
  packet : r.pendingPacket = r.pendingRequest.map r.packetOf
  refused : lastRefused r.trace = r.pendingRequest.isSome
  taken : ∀ x, r.pendingRequest = some x → lastTaken (r.packetOf x) r.trace = false

/-- The rest of the state between two callbacks. -/
structure Flags (ins : List α) (ch : Channel α) (r : SCMasterPort α) : Prop where
  stacked : Stacked ins r.pendingRequest r
  tidy : Tidy r.trace
  pends : Pends r
  busy : r.responseInProgress = ch.isBusy

/-- The state between two callbacks. -/
def InChannels (r : SCMasterPort α) : Prop :=
  ∃ w ins ch, Front w ins ch r.pendingRequest ch.closing r ∧ Flags ins ch r

/-- Observations outside the protocol. -/
def Obs.outside : Obs α → Bool
  | .rejected .. | .acquire _ | .release _ | .recvTimingResp .. | .sendRetryResp => true
  | _ => false

omit [DecidableEq α] in
theorem Stacked.observe (h : Stacked ins pending r) (ho : ∀ x p b, o ≠ .sendTimingReq x p b) :
    Stacked ins pending (r.emit o) := by
  refine ⟨h.mem, h.nodup, fun x p b hx => h.packets x p b ?_⟩
  exact (List.mem_cons.1 hx).resolve_left (ho x p b).symm

theorem InChannels.observe (h : InChannels r) (ho : o.outside = true) : InChannels (r.emit o) := by
  obtain ⟨w, ins, ch, h, hf⟩ := h
  have hs : Stacked ins r.pendingRequest (r.emit o) :=
    hf.stacked.observe fun x p b heq => by rw [heq] at ho; cases ho
  have ht : o.plain = true := by
    rcases o with _ | _ | _ | _ | _ | _ | _ | _ | _ | _ <;> first | rfl | cases ho
  refine ⟨w, ins, ch, ⟨?_, h.requests, h.ends, h.phases⟩, hs, hf.tidy.plain ht, ⟨hf.pends.waits,
    hf.pends.packet, ?_, ?_⟩, hf.busy⟩
  · rcases o with _ | _ | _ | _ | _ | _ | _ | _ | _ | _ <;> first | exact h.pipelines | cases ho
  · rcases o with _ | _ | _ | _ | _ | _ | _ | _ | _ | _ <;>
      first | exact hf.pends.refused | cases ho
  · rcases o with _ | _ | _ | _ | _ | _ | _ | _ | _ | _ <;>
      first | exact hf.pends.taken | cases ho

/-- Fields that the protocol does not use. -/
theorem InChannels.congr (h : InChannels r) (needToSendRetry : Bool)
    (packets : PacketId α → Packet) (now curTick : ℕ) :
    InChannels { r with needToSendRetry, packets, now, curTick } := by
  obtain ⟨w, ins, ch, h, hf⟩ := h
  exact ⟨w, ins, ch, ⟨h.pipelines, h.requests, h.ends, h.phases⟩, ⟨hf.stacked.mem,
    hf.stacked.nodup, hf.stacked.packets⟩, hf.tidy, ⟨hf.pends.waits, hf.pends.packet,
    hf.pends.refused, hf.pends.taken⟩, hf.busy⟩

/-- An assertion of one of the functions that the channels keep. -/
def OfChannels : Fault → Prop
  | .scAssert function _ => function = "SCMasterPort::handleBeginReq" ∨
      function = "SCMasterPort::handleEndResp" ∨ function = "SCMasterPort::recvReqRetry"
  | _ => False

/-! ## Calls of the initiator -/

omit [DecidableEq α] in
theorem events_emit (o : Obs α) : (r.emit o).events = [o].filterMap Obs.event ++ r.events := by
  simp only [events, emit, List.filterMap_cons, List.filterMap_nil]
  cases o.event <;> rfl

omit [DecidableEq α] in
@[simp] theorem queued_notify (ph ph' : Phase) (delay : ℕ) : queued (r.notify x ph' delay).peq ph =
    queued r.peq ph ++ if ph' = ph then [x] else [] := by
  by_cases h : ph' = ph <;> simp [queued, notify, h]

/-- How calls of the initiator change the response channel: END_RESP is sent. -/
inductive Later : Channel α → List α → Channel α → List α → Prop
  | refl {ch : Channel α} {ends : List α} : Later ch ends ch ends
  | ack {x : α} {ends : List α} : Later (.busy x true) ends (.busy x false) (ends ++ [x])

omit [DecidableEq α] in
theorem Later.trans {ch₁ ch₂ ch₃ : Channel α} {ends₁ ends₂ ends₃ : List α}
    (h : Later ch₁ ends₁ ch₂ ends₂) (h' : Later ch₂ ends₂ ch₃ ends₃) :
    Later ch₁ ends₁ ch₃ ends₃ := by
  cases h with
  | refl => exact h'
  | ack => cases h' with | refl => exact .ack

omit [DecidableEq α] in
theorem Later.closing {ch' : Channel α} {ends' : List α} (h : Later ch ch.closing ch' ends') :
    ends' = ch'.closing ∧ ch'.isBusy = ch.isBusy := by
  cases h with
  | refl => exact ⟨rfl, rfl⟩
  | ack => exact ⟨rfl, rfl⟩

/-- What calls of the initiator lead to. -/
def AfterCalls (ins : List α) (ch : Channel α) (pending : Option α) (ends : List α)
    (r : SCMasterPort α) : Prop :=
  ∃ w' ch' ends', Front w' ins ch' pending ends' r ∧ Later ch ends ch' ends'

/-- What calls of the initiator leave alone. -/
structure Quiet (r r' : SCMasterPort α) : Prop where
  frame : ∃ peq payloads trace, r' = { r with peq, payloads, trace }
  packetOf : ∀ y, r'.packetOf y = r.packetOf y
  tidy : Tidy r.trace → Tidy r'.trace
  refused : lastRefused r'.trace = lastRefused r.trace
  taken : ∀ p, lastTaken p r'.trace = lastTaken p r.trace
  packets : ∀ x p b, .sendTimingReq x p b ∈ r'.trace → .sendTimingReq x p b ∈ r.trace

theorem calls_quiet {cs : List (Call α)} (h : r.calls cs = .ok r') : Quiet r r' := by
  refine calls_invariant (P := Quiet r)
    ⟨⟨_, _, _, rfl⟩, fun _ => rfl, id, rfl, fun _ => rfl, fun _ _ _ => id⟩
    (fun r₁ c r₂ h₁ hc => ?_) h
  obtain ⟨⟨_, _, _, rfl⟩, hpo, ht, hr, htk, hpk⟩ := h₁
  obtain ⟨st, rfl⟩ | ⟨-, rfl⟩ | ⟨-, rfl⟩ := call_cases hc
  · refine ⟨⟨_, _, _, rfl⟩, fun y => (packetOf_setStatus st).trans (hpo y),
      fun h => (ht h).plain rfl, hr, htk, fun x p b hx => hpk x p b ?_⟩
    simpa [emit, setStatus] using hx
  · refine ⟨⟨_, _, _, rfl⟩, hpo, fun h => ((ht h).plain rfl).plain rfl, hr, htk,
      fun x p b hx => hpk x p b ?_⟩
    simpa [emit, notify] using hx
  · refine ⟨⟨_, _, _, rfl⟩, hpo, fun h => ((ht h).plain rfl).plain rfl, hr, htk,
      fun x p b hx => hpk x p b ?_⟩
    simpa [emit, notify] using hx

/-- The request channel does not notice calls of the initiator. -/
theorem Pends.quiet (h : Pends r) (hq : Quiet r r') : Pends r' := by
  obtain ⟨⟨_, _, _, rfl⟩, hpo, -, hr, htk, -⟩ := hq
  refine ⟨h.waits, h.packet.trans (Option.map_congr fun y _ => (hpo y).symm), hr.trans h.refused,
    fun y hy => ?_⟩
  rw [hpo, htk]
  exact h.taken y hy

/-- One call of the initiator. -/
theorem call_front (h : Front w ins ch pending ends r) (c : Call α) :
    Ends (AfterCalls ins ch pending ends) (¬ OfChannels ·) (r.call c) := by
  cases hc : r.call c with
  | ok r₁ =>
    obtain ⟨st, rfl⟩ | ⟨hm, rfl⟩ | ⟨hm, rfl⟩ := call_cases hc
    · exact ⟨w, ch, ends, ⟨h.pipelines, h.requests, h.ends, h.phases⟩, .refl⟩
    · obtain rfl := h.pipelines.eq_none hm
      have hreq : queued r.peq .beginReq = [] ∧ pending.toList = [] := by simpa using h.requests
      refine ⟨some c.txn, ch, ends, ⟨.request h.pipelines hm.1, ?_, ?_, ?_⟩, .refl⟩
      · rw [queued_notify]
        simp [emit, hreq.1, hreq.2]
      · rw [queued_notify]
        simp [emit, h.ends]
      · simpa [notify, emit, or_imp, forall_and] using h.phases
    · obtain rfl := h.pipelines.eq_busy hm
      refine ⟨w, .busy c.txn false, ends ++ [c.txn], ⟨.ack h.pipelines, ?_, ?_, ?_⟩, .ack⟩
      · rw [queued_notify]
        simpa [emit] using h.requests
      · rw [queued_notify]
        simp [emit, h.ends]
      · simpa [notify, emit, or_imp, forall_and] using h.phases
  | error f =>
    unfold call at hc
    split at hc
    · simp only [bind_eq_error, check_eq_error] at hc
      obtain ⟨-, rfl⟩ | ⟨_, _, hc⟩ := hc
      · exact id
      · cases hc
    · simp only [bind_eq_error, check_eq_error] at hc
      obtain ⟨-, rfl⟩ | ⟨_, _, hc⟩ := hc
      · exact id
      · cases hc
    · cases hc
      exact id

theorem calls_front (h : Front w ins ch pending ends r) (cs : List (Call α)) :
    Ends (AfterCalls ins ch pending ends) (¬ OfChannels ·) (r.calls cs) := by
  induction cs generalizing r w ch ends with
  | nil => exact ⟨w, ch, ends, h, .refl⟩
  | cons c cs ih =>
    refine (call_front h c).bind fun r₁ _ ⟨w₁, ch₁, ends₁, hf, hl⟩ => ?_
    refine (ih hf).mono (fun r₂ _ ⟨w₂, ch₂, ends₂, hf', hl'⟩ => ?_) fun _ _ => id
    exact ⟨w₂, ch₂, ends₂, hf', hl.trans hl'⟩

theorem Stacked.quiet (h : Stacked ins pending r) (hq : Quiet r r') : Stacked ins pending r' := by
  have hs : r'.senderStates = r.senderStates := by
    obtain ⟨_, _, _, rfl⟩ := hq.frame
    rfl
  refine ⟨fun p x hx => ?_, fun p => hs ▸ h.nodup p, fun x p b hx => ?_⟩
  · rw [hs] at hx
    rw [hq.packetOf]
    exact h.mem p x hx
  · rw [hq.packetOf]
    exact h.packets x p b (hq.packets x p b hx)

/-! ## Requests -/

theorem sendTimingReq_prompt {a : ReqAnswer α} (ha : a.responses = []) :
    r.sendTimingReq x p a = .ok (a.accept, r.emit (.sendTimingReq x p a.accept)) := by
  simp [sendTimingReq, ha, gem5Responses]

omit [DecidableEq α] in
/-- A packet is sent for the transaction that has its sender state on it. -/
theorem Stacked.send (h : Stacked ins pending r) (b : Bool) :
    Stacked ins pending (r.emit (.sendTimingReq x (r.packetOf x) b)) := by
  refine ⟨h.mem, h.nodup, fun y q c hy => ?_⟩
  simp only [emit, List.mem_cons, Obs.sendTimingReq.injEq] at hy
  obtain ⟨rfl, rfl, -⟩ | hy := hy
  · rfl
  · exact h.packets y q c hy

omit [DecidableEq α] in
/-- END_REQ: the pending request is at gem5. -/
theorem Stacked.endReq (h : Stacked ins (some x) r) :
    Stacked (x :: ins) none (r.emit (.endReq x)) := by
  refine ⟨fun q y hy => ?_, h.nodup, fun y q c hy => h.packets y q c ?_⟩
  · obtain ⟨hpo, hy | hy⟩ := h.mem q y hy
    · exact ⟨hpo, .inl (List.mem_cons_of_mem _ hy)⟩
    · obtain rfl := Option.some.inj hy
      exact ⟨hpo, .inl (List.mem_cons_self ..)⟩
  · simpa [emit] using hy

/-- What END_REQ leads to, right after gem5 accepted the packet. -/
theorem sendEndReq_inChannels (h : Front (some x) ins ch (some x) ch.closing r)
    (hs : Stacked ins (some x) r) (ht : Tidy r.trace) (hb : r.responseInProgress = ch.isBusy)
    (a : Answer α) :
    Ends (fun r' => (∃ peq payloads trace, r' = { r with peq, payloads, trace }) ∧
      InChannels { r'.emit (.release x) with
        waitForRetry := false, pendingPacket := none, pendingRequest := none }) (¬ OfChannels ·)
      ((r.emit (.sendTimingReq x (r.packetOf x) true)).sendEndReq x a) := by
  let r₀ := (r.emit (.sendTimingReq x (r.packetOf x) true)).emit (.endReq x)
  have hq : queued r.peq .beginReq = [] := by simpa using h.requests
  have hf₀ : Front none (x :: ins) ch none ch.closing r₀ :=
    ⟨.grant h.pipelines, by simp [r₀, emit, hq], h.ends, h.phases⟩
  have hs₀ : Stacked (x :: ins) none r₀ := (hs.send true).endReq
  refine Ends.bind (G := fun r' => AfterCalls (x :: ins) ch none ch.closing r' ∧ Quiet r₀ r')
    ?_ fun r₁ _ h₁ => .check (fun _ => id) fun _ => ?_
  · exact (calls_front hf₀ a.calls).mono (fun _ hc h => ⟨h, calls_quiet hc⟩) fun _ _ => id
  obtain ⟨⟨w', ch', ends', hf, hl⟩, hq⟩ := h₁
  obtain ⟨rfl, hch⟩ := hl.closing
  have hs₁ := hs₀.quiet hq
  have ht₁ : Tidy r₁.trace := hq.tidy (ht.endReq x _)
  have hb₁ : r₁.responseInProgress = ch'.isBusy := by
    obtain ⟨_, _, _, rfl⟩ := hq.frame
    exact hb.trans hch.symm
  refine ⟨?_, w', x :: ins, ch', ⟨hf.pipelines, hf.requests, hf.ends, hf.phases⟩,
    ⟨⟨hs₁.mem, hs₁.nodup, fun y q c hy => hs₁.packets y q c ?_⟩, ht₁.plain rfl,
      ⟨rfl, rfl, hq.refused, fun _ heq => (by cases heq)⟩, hb₁⟩⟩
  · obtain ⟨_, _, _, rfl⟩ := hq.frame
    exact ⟨_, _, _, rfl⟩
  · simpa [emit] using hy

theorem obtainPacket_ends (x : α) :
    Ends (fun y => y.1 = r.packetOf x ∧ ∃ packets, y.2 = { r with packets }) (¬ OfChannels ·)
      (r.obtainPacket x) := by
  cases hop : r.obtainPacket x with
  | ok y =>
    obtain ⟨p, r'⟩ := y
    exact obtainPacket_eq hop
  | error f =>
    unfold obtainPacket at hop
    split at hop
    · cases hop
    · simp only [bind_eq_error, generatePacket] at hop
      obtain hop | ⟨_, -, hop⟩ := hop
      · split at hop <;> cases hop
        exact id
      · cases hop

omit [DecidableEq α] in
/-- The sender state of the request that is about to be sent. -/
theorem Stacked.push (h : Stacked ins none r) (hx : x ∉ ins) [DecidableEq α] :
    Stacked ins (some x) (r.pushSenderState (r.packetOf x) x) := by
  have hin : ∀ q, ∀ y ∈ r.senderStates q, r.packetOf y = q ∧ y ∈ ins := fun q y hy =>
    ⟨(h.mem q y hy).1, (h.mem q y hy).2.resolve_right (by simp)⟩
  refine ⟨fun q y hy => ?_, fun q => ?_, h.packets⟩
  · simp only [pushSenderState, Function.update_apply] at hy
    split_ifs at hy with hq
    · obtain rfl | hy := List.mem_cons.1 hy
      · exact ⟨hq.symm, .inr rfl⟩
      · exact ⟨(hin _ _ hy).1.trans hq.symm, .inl (hin _ _ hy).2⟩
    · exact ⟨(hin _ _ hy).1, .inl (hin _ _ hy).2⟩
  · simp only [pushSenderState, Function.update_apply]
    split_ifs
    · exact List.nodup_cons.2 ⟨fun hm => hx (hin _ _ hm).2, h.nodup _⟩
    · exact h.nodup _

theorem handleBeginReq_inChannels (h : Front (some x) ins ch (some x) ch.closing r)
    (hf : Flags ins ch r) (hn : r.pendingRequest = none) {a : ReqAnswers α}
    (ha : a.send.responses = []) :
    Ends InChannels (¬ OfChannels ·) (r.handleBeginReq x a) := by
  have hw : r.waitForRetry = false := by rw [hf.pends.waits, hn]; rfl
  have hp : r.pendingPacket = none := by rw [hf.pends.packet, hn]; rfl
  refine .check (fun hneg => absurd hw hneg) fun _ => .check (fun hneg => absurd hn hneg) fun _ =>
    .check (fun hneg => absurd hp hneg) fun _ => ?_
  refine (obtainPacket_ends x).bind fun ⟨p, r₁⟩ _ h₁ => ?_
  obtain ⟨rfl, packets, rfl⟩ := h₁
  have hs : Stacked ins none { r.emit (.acquire x) with packets } := by
    have hst := hf.stacked
    rw [hn] at hst
    exact ⟨hst.mem, hst.nodup, fun y q b hy => hst.packets y q b (by simpa [emit] using hy)⟩
  have hs := hs.push h.pipelines.not_mem_ins
  have ht : Tidy (.acquire x :: r.trace) := hf.tidy.plain rfl
  dsimp only
  rw [sendTimingReq_prompt ha, ok_bind]
  dsimp only
  split_ifs with hacc
  · rw [hacc]
    refine (sendEndReq_inChannels (r := { r.emit (.acquire x) with packets }.pushSenderState
      (r.packetOf x) x) ⟨h.pipelines, h.requests, h.ends, h.phases⟩ hs ht hf.busy a.endReq).bind
      fun r₂ _ h₂ => ?_
    obtain ⟨⟨_, _, _, rfl⟩, h₂⟩ := h₂
    simpa [emit, pushSenderState, hw, hn, hp] using h₂
  · rw [Bool.not_eq_true] at hacc
    rw [hacc]
    have hs' := hs.send (x := x) false
    refine ⟨some x, ins, ch, ⟨h.pipelines, h.requests, h.ends, h.phases⟩, ⟨hs'.mem, hs'.nodup,
      hs'.packets⟩, ht.plain rfl, ⟨rfl, rfl, rfl, fun y hy => ?_⟩, hf.busy⟩
    obtain rfl := Option.some.inj hy
    exact if_pos rfl

theorem recvReqRetry_inChannels (h : InChannels r) (hr : lastRefused r.trace = true)
    {a : ReqAnswers α} (ha : a.send.responses = []) :
    Ends InChannels (¬ OfChannels ·) (r.recvReqRetry a) := by
  obtain ⟨w, ins, ch, h, hf⟩ := h
  rw [hf.pends.refused] at hr
  obtain ⟨x, hx⟩ := Option.isSome_iff_exists.1 hr
  have hw : r.waitForRetry = true := hf.pends.waits.trans hr
  have hp : r.pendingPacket = some (r.packetOf x) := by rw [hf.pends.packet, hx]; rfl
  have hst := hf.stacked
  rw [hx] at h hst
  obtain rfl : w = some x := by
    have := h.requests
    cases w <;> simp_all [List.append_eq_cons_iff]
  refine .check (fun hneg => absurd hw hneg) fun _ => ?_
  split
  · rename_i hn
    exact absurd (hx.symm.trans hn) (by simp)
  · rename_i hn _
    exact absurd (hp.symm.trans hn) (by simp)
  rename_i y q hy hq
  obtain rfl := Option.some.inj (hx.symm.trans hy)
  obtain rfl := Option.some.inj (hp.symm.trans hq)
  rw [sendTimingReq_prompt ha, ok_bind]
  dsimp only
  split_ifs with hacc
  · rw [hacc]
    refine (sendEndReq_inChannels (r := { r with waitForRetry := false, pendingPacket := none })
      ⟨h.pipelines, h.requests, h.ends, h.phases⟩ ⟨hst.mem, hst.nodup, hst.packets⟩ hf.tidy hf.busy
      a.endReq).bind fun r₂ _ h₂ => ?_
    obtain ⟨⟨_, _, _, rfl⟩, h₂⟩ := h₂
    exact h₂
  · rw [Bool.not_eq_true] at hacc
    rw [hacc]
    have hs' := hst.send (x := x) false
    refine ⟨some x, ins, ch, ?_, ⟨?_, hf.tidy.plain rfl, ⟨hf.pends.waits, hf.pends.packet, hr.symm,
      fun y hy => ?_⟩, hf.busy⟩⟩
    · exact ⟨h.pipelines, hx ▸ h.requests, h.ends, h.phases⟩
    · exact hx ▸ hs'
    · obtain rfl := Option.some.inj (hx.symm.trans hy)
      exact if_pos rfl

/-! ## Responses -/

/-- The sender state at the top of a packet that comes back. -/
theorem Stacked.pop {rest : List α} (h : Stacked ins pending r) (hs : r.senderStates p = x :: rest)
    (hn : pending ≠ some x) :
    r.packetOf x = p ∧ x ∈ ins ∧
      Stacked (ins.erase x) pending { r with
        senderStates := Function.update r.senderStates p rest } := by
  have hnd := h.nodup p
  rw [hs, List.nodup_cons] at hnd
  obtain ⟨hpo, hx⟩ := h.mem p x (by simp [hs])
  refine ⟨hpo, hx.resolve_right hn, fun q y hy => ?_, fun q => ?_, h.packets⟩
  · have hy' : y ∈ r.senderStates q ∧ y ≠ x := by
      simp only [Function.update_apply] at hy
      split_ifs at hy with hq
      · subst hq
        exact ⟨hs ▸ List.mem_cons_of_mem _ hy, fun heq => hnd.1 (heq ▸ hy)⟩
      · refine ⟨hy, fun heq => hq ?_⟩
        rw [← (h.mem q y hy).1, heq, hpo]
    obtain ⟨hpy, hy⟩ := (h.mem q y hy'.1)
    exact ⟨hpy, hy.imp_left fun hy => (List.mem_erase_of_ne hy'.2).2 hy⟩
  · simp only [Function.update_apply]
    split_ifs
    · exact hnd.2
    · exact h.nodup q

/-- BEGIN_RESP for a request at gem5. -/
theorem sendBeginResp_inChannels {delay : ℕ} (h : Front w ins .free r.pendingRequest [] r)
    (hx : x ∈ ins) (hs : Stacked (ins.erase x) r.pendingRequest r) (ht : Tidy r.trace)
    (hp : Pends r) (a : Answer α) :
    Ends InChannels (¬ OfChannels ·) (r.sendBeginResp x delay a) := by
  let r₀ := (r.setStatus x .ok).emit (.beginResp x delay a.reply)
  have hpo : ∀ y, r₀.packetOf y = r.packetOf y := fun y => packetOf_setStatus _
  have hf₀ : Front w (ins.erase x) (.busy x (a.reply.status = .accepted)) r.pendingRequest [] r₀ :=
    ⟨.answer _ h.pipelines hx, h.requests, h.ends, h.phases⟩
  have hs₀ : Stacked (ins.erase x) r.pendingRequest r₀ := by
    refine ⟨fun q y hy => (hpo y).symm ▸ hs.mem q y hy, hs.nodup, fun y q b hy => ?_⟩
    rw [hpo]
    exact hs.packets y q b (by simpa [r₀, emit, setStatus] using hy)
  have ht₀ : Tidy r₀.trace := ht.beginResp (mem_grants.1 (h.pipelines.ins_subset hx))
  have hp₀ : Pends r₀ := by
    refine ⟨hp.waits, hp.packet.trans (Option.map_congr fun y _ => (hpo y).symm), hp.refused,
      fun y hy => ?_⟩
    rw [hpo]
    exact hp.taken y hy
  refine Ends.bind (G := fun r' => AfterCalls (ins.erase x) (.busy x (a.reply.status = .accepted))
    r.pendingRequest [] r' ∧ Quiet r₀ r') ?_ fun r₁ _ h₁ => ?_
  · exact (calls_front hf₀ a.calls).mono (fun _ hc h => ⟨h, calls_quiet hc⟩) fun _ _ => id
  obtain ⟨⟨w', ch', ends', hf, hl⟩, hq⟩ := h₁
  have hs₁ := hs₀.quiet hq
  have ht₁ : Tidy r₁.trace := hq.tidy ht₀
  have hp₁ := hp₀.quiet hq
  have hpend : r₁.pendingRequest = r.pendingRequest := by
    obtain ⟨_, _, _, rfl⟩ := hq.frame
    rfl
  rw [← hpend] at hf hs₁
  split_ifs with hst hst'
  · have hna : a.reply.status ≠ .accepted := by
      rintro heq
      simp [heq] at hst
    simp only [hna, decide_false] at hl
    cases hl
    refine ⟨w', ins.erase x, .free, ⟨.close hf.pipelines, hf.requests, hf.ends, hf.phases⟩,
      ⟨hs₁.mem, hs₁.nodup, fun y q b hy => hs₁.packets y q b (by simpa [emit] using hy)⟩,
      ht₁.plain rfl, ⟨hp₁.waits, hp₁.packet, hp₁.refused, hp₁.taken⟩, rfl⟩
  · simp only [hst', decide_true] at hl
    have hl : ends' = ch'.closing ∧ ch'.isBusy = true := by
      cases hl with
      | refl => exact ⟨rfl, rfl⟩
      | ack => exact ⟨rfl, rfl⟩
    obtain ⟨rfl, hb⟩ := hl
    refine ⟨w', ins.erase x, ch', ⟨hf.pipelines, hf.requests, hf.ends, hf.phases⟩,
      ⟨hs₁.mem, hs₁.nodup, hs₁.packets⟩, ht₁, ⟨hp₁.waits, hp₁.packet, hp₁.refused, hp₁.taken⟩,
      hb.symm⟩
  · exact id

/-- A response for a packet that gem5 has is refused while another one is in progress, and otherwise
begins the response phase of the transaction at the top of its sender states. -/
theorem recvTimingResp_inChannels (h : InChannels r) (hp : lastTaken p r.trace = true)
    (a : Answer α) :
    Ends (fun y => InChannels y.2) (¬ OfChannels ·) (r.recvTimingResp p a) := by
  unfold recvTimingResp
  split_ifs with hrip
  · refine .check (fun _ => by simp [OfChannels]) fun _ => ?_
    exact (h.observe (o := .recvTimingResp p false) rfl).congr true _ _ _
  obtain ⟨w, ins, ch, h, hf⟩ := h
  obtain rfl : ch = .free := by
    cases ch with
    | free => rfl
    | busy y b => exact absurd hf.busy hrip
  refine .check (fun _ => by simp [OfChannels]) fun _ => ?_
  dsimp only
  split
  · simp [OfChannels]
  rename_i x rest hx
  -- gem5 has refused the packet of the pending request when it was last sent
  have hn : r.pendingRequest ≠ some x := fun hpend => by
    have := hf.pends.taken x hpend
    have hmem : x ∈ r.senderStates p := by simp [show r.senderStates p = x :: rest from hx]
    rw [(hf.stacked.mem p x hmem).1, hp] at this
    cases this
  obtain ⟨-, hins, hs⟩ := hf.stacked.pop hx hn
  refine Ends.bind (G := InChannels) ?_ fun r₁ _ h₁ => h₁.observe rfl
  have hs' := hs.observe (o := .recvTimingResp p true) (by simp)
  refine sendBeginResp_inChannels (w := w) ?_ hins ?_ ?_ ?_ a
  · exact ⟨h.pipelines, h.requests, h.ends, h.phases⟩
  · exact ⟨hs'.mem, hs'.nodup, hs'.packets⟩
  · exact hf.tidy.plain rfl
  · exact ⟨hf.pends.waits, hf.pends.packet, hf.pends.refused, hf.pends.taken⟩

theorem gem5Response_inChannels (h : InChannels r) (g : Response α) :
    Ends InChannels (¬ OfChannels ·) (r.gem5Response g) := by
  refine .check (fun _ => by simp [OfChannels]) fun _ => .check (fun _ => by simp [OfChannels])
    fun hat => .check (fun _ => by simp [OfChannels]) fun _ => ?_
  refine (recvTimingResp_inChannels (r := r.setPacket g.packet g.content) ?_ hat.1 g.answer).bind
    fun _ _ h => h
  exact h.congr _ _ _ _

/-! ## Runs -/

/-- gem5 does not answer a request inside `sendTimingReq`. -/
def PromptCall : Gem5Call α → Prop
  | .recvReqRetry a => a.send.responses = []
  | .recvTimingResp _ => True

/-- gem5 never does. -/
def Prompt (_ : SCMasterPort α) : Act α → Prop
  | .peqCb _ o => o.request.send.responses = [] ∧ ∀ c ∈ o.retry, PromptCall c
  | .gem5 c => PromptCall c
  | _ => True

instance : (c : Gem5Call α) → Decidable (PromptCall c)
  | .recvReqRetry a => inferInstanceAs (Decidable (a.send.responses = []))
  | .recvTimingResp _ => .isTrue trivial

instance (r : SCMasterPort α) : (a : Act α) → Decidable (Prompt r a)
  | .peqCb _ o => inferInstanceAs (Decidable (o.request.send.responses = [] ∧
      ∀ c ∈ o.retry, PromptCall c))
  | .gem5 c => inferInstanceAs (Decidable (PromptCall c))
  | .call _ | .advance _ => .isTrue trivial

theorem gem5Call_inChannels (h : InChannels r) {c : Gem5Call α} (hc : PromptCall c) :
    Ends InChannels (¬ OfChannels ·) (r.gem5Call c) := by
  cases c with
  | recvTimingResp g => exact gem5Response_inChannels h g
  | recvReqRetry a =>
    exact .check (fun _ => by simp [OfChannels]) fun hr => recvReqRetry_inChannels h hr hc

theorem gem5Calls_inChannels (h : InChannels r) {cs : List (Gem5Call α)}
    (hc : ∀ c ∈ cs, PromptCall c) :
    Ends InChannels (¬ OfChannels ·) (r.gem5Calls cs) := by
  induction cs generalizing r with
  | nil => exact h
  | cons c cs ih =>
    obtain ⟨hc, hcs⟩ := List.forall_mem_cons.1 hc
    exact (gem5Call_inChannels h hc).bind fun _ _ h₁ => ih h₁ hcs

/-- END_RESP of the transaction whose response is in progress. -/
theorem handleEndResp_inChannels (h : Front w ins (.busy x false) r.pendingRequest [] r)
    (hf : Flags ins (.busy x false) r) {cs : List (Gem5Call α)} (hc : ∀ c ∈ cs, PromptCall c) :
    Ends InChannels (¬ OfChannels ·) (r.handleEndResp x cs) := by
  have hs := hf.stacked.observe (o := .ended x) (by simp)
  have h₁ : InChannels ({ r with responseInProgress := false }.emit (.ended x)) :=
    ⟨w, ins, .free, ⟨.close h.pipelines, h.requests, h.ends, h.phases⟩,
      ⟨hs.mem, hs.nodup, hs.packets⟩, hf.tidy.plain rfl,
      ⟨hf.pends.waits, hf.pends.packet, hf.pends.refused, hf.pends.taken⟩, rfl⟩
  refine .check (fun hneg => absurd hf.busy hneg) fun _ => .check (fun _ => id) fun _ => ?_
  split_ifs
  · exact (gem5Calls_inChannels (h₁.observe (o := .sendRetryResp) rfl) hc).bind
      fun r₂ _ h₂ => h₂.congr false _ _ _
  · exact h₁

theorem step_inChannels (h : InChannels r) {a : Act α} (ha : Prompt r a) :
    Ends InChannels (¬ OfChannels ·) (r.step a) := by
  cases a with
  | call c =>
    obtain ⟨w, ins, ch, h, hf⟩ := h
    refine (call_front h c).mono (fun r₁ hc ⟨w', ch', ends', h₁, hl⟩ => ?_) fun _ _ => id
    obtain ⟨rfl, hb⟩ := hl.closing
    have hcs : r.calls [c] = .ok r₁ := by simp [calls, show r.call c = .ok r₁ from hc]
    have hq : Quiet r r₁ := calls_quiet hcs
    have hs := hf.stacked.quiet hq
    have hp := hf.pends.quiet hq
    have ht := hq.tidy hf.tidy
    have hb' := hf.busy.trans hb.symm
    obtain ⟨_, _, _, rfl⟩ := hq.frame
    exact ⟨w', ins, ch', h₁, hs, ht, hp, hb'⟩
  | peqCb i o =>
    simp only [step]
    cases he : r.peq[i]? with
    | none => exact id
    | some e =>
      refine .check (fun _ => id) fun _ => .check (fun _ => by simp [OfChannels]) fun _ => ?_
      obtain ⟨w, ins, ch, h, hf⟩ := h
      have hreq := queued_eraseIdx he .beginReq
      have hend := queued_eraseIdx he .endResp
      have hphases : ∀ e' ∈ r.peq.eraseIdx i, e'.phase = .beginReq ∨ e'.phase = .endResp :=
        fun e' he' => h.phases e' (List.mem_of_mem_eraseIdx he')
      rw [h.ends] at hend
      obtain hp | hp := h.phases e (List.mem_of_getElem? he)
      · rw [if_pos hp, List.singleton_append] at hreq
        rw [if_neg (by simp [hp]), List.nil_append] at hend
        obtain ⟨hq, hpend, rfl⟩ := eq_of_perm_cons hreq h.requests
        have hend := eq_of_perm hend ch.length_closing_le
        simp only [hp]
        have hfront : Front (some e.txn) ins ch (some e.txn) ch.closing
            { r.dequeue i with curTick := r.now } :=
          ⟨h.pipelines, by simp [dequeue, hq], hend, hphases⟩
        have hflags : Flags ins ch { r.dequeue i with curTick := r.now } :=
          ⟨⟨hf.stacked.mem, hf.stacked.nodup, hf.stacked.packets⟩, hf.tidy,
            ⟨hf.pends.waits, hf.pends.packet, hf.pends.refused, hf.pends.taken⟩, hf.busy⟩
        exact handleBeginReq_inChannels hfront hflags hpend ha.1
      · rw [if_neg (by simp [hp]), List.nil_append] at hreq
        rw [if_pos hp, List.singleton_append] at hend
        obtain ⟨rfl, hq⟩ := Channel.eq_busy_of_closing hend
        simp only [hp]
        have hreq := hreq.append_right r.pendingRequest.toList
        rw [h.requests] at hreq
        have hfront : Front w ins (.busy e.txn false) r.pendingRequest []
            { r.dequeue i with curTick := r.now } :=
          ⟨h.pipelines, eq_of_perm hreq (length_toList_le w), hq, hphases⟩
        have hflags : Flags ins (.busy e.txn false) { r.dequeue i with curTick := r.now } :=
          ⟨⟨hf.stacked.mem, hf.stacked.nodup, hf.stacked.packets⟩, hf.tidy,
            ⟨hf.pends.waits, hf.pends.packet, hf.pends.refused, hf.pends.taken⟩, hf.busy⟩
        exact handleEndResp_inChannels hfront hflags ha.2
  | gem5 c => exact gem5Call_inChannels h ha
  | advance d => exact .check (fun _ => id) fun _ => h.congr _ _ _ _

/-- BEGIN_RESP of a transaction is waiting for its END_RESP. -/
def Responding (l : List (Obs α)) (x : α) : Prop :=
  (∃ d reply, .beginResp x d reply ∈ l) ∧ .ended x ∉ l

/-- What the channels of a port obey, in a state between two callbacks. -/
structure ChannelLaws (ok : SCMasterPort α → Act α → Prop) (r : SCMasterPort α) : Prop where
  waiting : r.waitForRetry = true ↔ r.pendingRequest ≠ none
  pending : r.pendingRequest ≠ none ↔ r.pendingPacket ≠ none
  responding : r.responseInProgress = true ↔ ∃ x, Responding r.trace x
  unique : ∀ x y, Responding r.trace x → Responding r.trace y → x = y
  queued : ∀ x, .endReq x ∈ r.trace → .fw x .beginReq ∈ r.trace
  once : ∀ x, r.trace.count (.endReq x) ≤ 1
  endReq : Along EndReqLaw r.trace ∧ ∀ x p, r.trace.head? ≠ some (.sendTimingReq x p true)
  packets : ∀ x p b, .sendTimingReq x p b ∈ r.trace → p = r.packetOf x
  /-- A retry that gem5 refuses changes nothing: it is only recorded. -/
  refused : ∀ a r', ok r (.gem5 (.recvReqRetry a)) → a.send.accept = false →
    r.step (.gem5 (.recvReqRetry a)) = .ok r' → ∃ x p, r' = r.emit (.sendTimingReq x p false)
  assertions : ∀ a f, ok r a → r.fault a = some f → ¬ OfChannels f

theorem count_grants (l : List (Obs α)) :
    (grants (l.filterMap Obs.event)).count x = l.count (.endReq x) := by
  induction l with
  | nil => rfl
  | cons o l ih =>
    rcases o with ⟨y, ph⟩ | _ | _ | _ | _ | y | _ | _ | _ | _
    case fw => cases ph <;> simpa [List.filterMap_cons, Obs.event, grants] using ih
    case endReq =>
      by_cases hy : y = x
      · subst hy
        simpa [List.filterMap_cons, Obs.event, grants] using ih
      · simpa [List.filterMap_cons, Obs.event, grants, hy] using ih
    all_goals simpa [List.filterMap_cons, Obs.event, grants] using ih

theorem Front.responding_iff (h : Front w ins ch pending ends r) :
    Responding r.trace x ↔ x ∈ ch.toList := by
  rw [← h.pipelines.answered_iff, mem_answers, mem_closes]
  rfl

/-- gem5 refuses a request. -/
def refusedRequest : MasterAnswers ℕ :=
  { taken with request := { taken.request with send := { accept := false } } }

end SCMasterPort

end Gem5Wrapper
