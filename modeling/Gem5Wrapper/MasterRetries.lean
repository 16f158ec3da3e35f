import Gem5Wrapper.MasterPort
import Gem5Wrapper.Lib.History

/-!
# Response retries of the master port

`handleEndResp` calls `sendRetryResp` before it clears `needToSendRetry`. The flag is out of step
with what gem5 waits for during that call, and a response that is refused inside it fails an
assertion.

`Keeps` is a property of the two response flags and the history; the functions of the port keep
what the observations they make keep.
-/

namespace Gem5Wrapper

open FaultMachine OneAtATime History

variable {α : Type}

namespace SCMasterPort

/-! ## The law of the retries -/

/-- A response is refused only when gem5 is not waiting for a retry, and a retry is sent only to a
waiting gem5, when a response phase has just ended; such an end is followed by the retry at once. -/
def RetryLaw : Obs α → List (Obs α) → Prop
  | .recvTimingResp _ false, l => waitsForRetry l = false
  | .sendRetryResp, l => waitsForRetry l = true ∧ ∃ x l', l = .ended x :: l'
  | _, l => ∀ x l', l = .ended x :: l' → waitsForRetry l' = false

/-- A history that obeys the law so far, in which gem5 waits for a retry or not. -/
structure Lawful (waits : Bool) (l : List (Obs α)) : Prop where
  law : Along RetryLaw l
  waits : waitsForRetry l = waits
  answered : ∀ x l', l = .ended x :: l' → waitsForRetry l' = false

/-- The assertion of `recvTimingResp` on the flag. -/
def NotRetryAssert (f : Fault) : Prop :=
  f ≠ .scAssert "SCMasterPort::recvTimingResp" "!needToSendRetry"

/-- Observations that are no part of the response phases. -/
def Obs.calm : Obs α → Bool
  | .recvTimingResp _ false | .sendRetryResp | .ended _ => false
  | _ => true

variable {r r' : SCMasterPort α} {x : α} {p : PacketId α} {l : List (Obs α)} {o : Obs α}
  {waits : Bool}

theorem Lawful.calm (h : Lawful waits l) (ho : o.calm = true) : Lawful waits (o :: l) := by
  rcases o with _ | _ | _ | _ | _ | _ | ⟨q, b⟩ | _ | _ | _
  case recvTimingResp =>
    cases b
    · cases ho
    · exact ⟨⟨h.answered, h.law⟩, h.waits, by simp⟩
  case ended => cases ho
  case sendRetryResp => cases ho
  all_goals exact ⟨⟨h.answered, h.law⟩, h.waits, by simp⟩

theorem Lawful.refuse (h : Lawful false l) (p : PacketId α) :
    Lawful true (.recvTimingResp p false :: l) :=
  ⟨⟨h.waits, h.law⟩, rfl, by simp⟩

theorem Lawful.ended (h : Lawful false l) (x : α) : Lawful false (.ended x :: l) := by
  refine ⟨⟨h.answered, h.law⟩, h.waits, fun _ _ heq => ?_⟩
  obtain ⟨-, rfl⟩ := List.cons.inj heq
  exact h.waits

theorem Lawful.retry (h : Lawful true l) (x : α) :
    Lawful false (.sendRetryResp :: .ended x :: l) :=
  ⟨⟨⟨h.waits, x, l, rfl⟩, h.answered, h.law⟩, rfl, by simp⟩

/-! ## What the functions keep -/

/-- A property of `needToSendRetry`, `responseInProgress` and the history. -/
def Keeps (P : Bool → Bool → List (Obs α) → Prop) (r : SCMasterPort α) : Prop :=
  P r.needToSendRetry r.responseInProgress r.trace

/-- A property that holds whatever else happens. -/
def Calm (P : Bool → Bool → List (Obs α) → Prop) : Prop :=
  ∀ n b l (o : Obs α), o.calm = true → P n b l → P n b (o :: l)

variable {P Q : Bool → Bool → List (Obs α) → Prop}

theorem Keeps.emit (h : Keeps P r) (hP : Calm P) (ho : o.calm = true) : Keeps P (r.emit o) :=
  hP _ _ _ _ ho h

variable [DecidableEq α]

theorem call_ends (hP : Calm P) (h : Keeps P r) (c : Call α) :
    Ends (Keeps P) NotRetryAssert (r.call c) := by
  cases hc : r.call c with
  | ok r₁ =>
    obtain ⟨_, rfl⟩ | ⟨-, rfl⟩ | ⟨-, rfl⟩ := call_cases hc
    · exact hP _ _ _ _ rfl h
    · exact hP _ _ _ _ rfl (hP _ _ _ _ rfl h)
    · exact hP _ _ _ _ rfl (hP _ _ _ _ rfl h)
  | error f =>
    rintro rfl
    unfold call at hc
    split at hc <;> simp at hc

theorem calls_ends (hP : Calm P) (h : Keeps P r) (cs : List (Call α)) :
    Ends (Keeps P) NotRetryAssert (r.calls cs) := by
  induction cs generalizing r with
  | nil => exact h
  | cons c cs ih => exact (call_ends hP h c).bind fun _ _ h₁ => ih h₁

/-- `send_end_req` and what surrounds it. -/
theorem sendEndReq_ends (hP : Calm P) (h : Keeps P r) (a : Answer α) :
    Ends (Keeps P) NotRetryAssert (r.sendEndReq x a) := by
  refine (calls_ends hP (h.emit hP rfl) a.calls).bind fun r₁ _ h₁ => ?_
  exact .check (fun _ => by simp [NotRetryAssert]) fun _ => h₁

/-- A retry of a request keeps what the responses sent from inside `sendTimingReq` keep. -/
theorem recvReqRetry_ends (hP : Calm P) (hQ : Calm Q) (h : Keeps P r) (a : ReqAnswers α)
    (hresp : ∀ r₁, Keeps P r₁ → Ends (Keeps Q) NotRetryAssert
      (gem5Responses r₁ a.send.responses)) :
    Ends (Keeps Q) NotRetryAssert (r.recvReqRetry a) := by
  refine .check (fun _ => by simp [NotRetryAssert]) fun _ => ?_
  split
  · simp [NotRetryAssert]
  · simp [NotRetryAssert]
  · refine Ends.bind (G := fun x => Keeps Q x.2) ?_ fun ⟨b, r₁⟩ _ h₁ => ?_
    · exact (hresp _ (h.emit hP rfl)).bind fun r₁ _ h₁ => h₁
    · dsimp only
      split_ifs
      · refine (sendEndReq_ends hQ ?_ a.endReq).bind fun r₂ _ h₂ => ?_
        · exact h₁
        · exact h₂.emit hQ rfl
      · exact h₁

theorem handleBeginReq_ends (hP : Calm P) (h : Keeps P r) (a : ReqAnswers α)
    (hresp : ∀ r₁, Keeps P r₁ → Ends (Keeps P) NotRetryAssert
      (gem5Responses r₁ a.send.responses)) :
    Ends (Keeps P) NotRetryAssert (r.handleBeginReq x a) := by
  refine .check (fun _ => by simp [NotRetryAssert]) fun _ =>
    .check (fun _ => by simp [NotRetryAssert]) fun _ =>
    .check (fun _ => by simp [NotRetryAssert]) fun _ => ?_
  refine Ends.bind (G := fun x => Keeps P x.2) ?_ fun ⟨p, r₁⟩ _ h₁ => ?_
  · cases hp : (r.emit (.acquire x)).obtainPacket x with
    | ok y =>
      obtain ⟨p, r'⟩ := y
      obtain ⟨-, _, rfl⟩ := obtainPacket_eq hp
      exact h.emit hP rfl
    | error f =>
      rintro rfl
      unfold obtainPacket at hp
      split at hp
      · cases hp
      · simp only [bind_eq_error, generatePacket] at hp
        obtain hp | ⟨_, -, hp⟩ := hp
        · split at hp <;> cases hp
        · cases hp
  · refine Ends.bind (G := fun x => Keeps P x.2) ?_ fun ⟨b, r₂⟩ _ h₂ => ?_
    · refine (hresp _ ?_).bind fun r₁ _ h₁ => h₁
      exact h₁.emit hP rfl
    · dsimp only
      split_ifs
      · exact (sendEndReq_ends hP h₂ a.endReq).bind fun r₂ _ h₂ => h₂.emit hP rfl
      · exact h₂

/-! ## Responses -/

/-- BEGIN_RESP while gem5 is not waiting. -/
theorem sendBeginResp_ends {delay : ℕ} (h : Lawful false r.trace) (a : Answer α) :
    Ends (fun r' => Lawful false r'.trace ∧ r'.needToSendRetry = r.needToSendRetry ∧
      (r'.responseInProgress = true → a.reply.status = .accepted)) NotRetryAssert
      (r.sendBeginResp x delay a) := by
  refine (calls_ends (P := fun n _ l => n = r.needToSendRetry ∧ Lawful false l)
    (fun _ _ _ _ ho h => ⟨h.1, h.2.calm ho⟩) ?_ a.calls).bind fun r₁ _ h₁ => ?_
  · exact ⟨rfl, h.calm rfl⟩
  · split_ifs with h₂ h₃
    · exact ⟨h₁.2.ended x, h₁.1, fun heq => (by cases heq)⟩
    · exact ⟨h₁.2, h₁.1, fun _ => h₃⟩
    · simp [NotRetryAssert]

/-- A response that gem5 sends when it is not waiting: it is refused if another one is in progress,
and then the flag must not be set. -/
theorem recvTimingResp_ends (h : Lawful false r.trace)
    (hn : r.responseInProgress = true → r.needToSendRetry = false) (a : Answer α) :
    Ends (fun x => (r.responseInProgress = true ∧ Lawful true x.2.trace ∧
        x.2.needToSendRetry = true) ∨
      (r.responseInProgress = false ∧ Lawful false x.2.trace ∧
        x.2.needToSendRetry = r.needToSendRetry ∧
        (x.2.responseInProgress = true → a.reply.status = .accepted))) NotRetryAssert
      (r.recvTimingResp p a) := by
  unfold recvTimingResp
  split_ifs with hrip
  · exact .check (fun hneg => absurd (hn hrip) hneg) fun _ => .inl ⟨hrip, h.refuse p, rfl⟩
  · refine .check (fun _ => by simp [NotRetryAssert]) fun _ => ?_
    dsimp only
    split
    · simp [NotRetryAssert]
    · refine (sendBeginResp_ends ?_ a).bind fun r₁ _ h₁ => ?_
      · exact h.calm rfl
      · exact .inr ⟨by simpa using hrip, h₁.1.calm rfl, h₁.2.1, h₁.2.2⟩

/-! ## In step -/

/-- The flag says what gem5 waits for. -/
def InStep (n : Bool) (_ : Bool) (l : List (Obs α)) : Prop := Lawful n l

omit [DecidableEq α] in
theorem calm_inStep : Calm (@InStep α) := fun _ _ _ _ ho h => h.calm ho

theorem gem5Response_inStep (h : Keeps InStep r) (g : Response α) :
    Ends (Keeps InStep) NotRetryAssert (r.gem5Response g) := by
  refine .check (fun _ => by simp [NotRetryAssert]) fun _ =>
    .check (fun _ => by simp [NotRetryAssert]) fun _ =>
    .check (fun _ => by simp [NotRetryAssert]) fun hw => ?_
  have hn : r.needToSendRetry = false := h.waits.symm.trans hw
  have h' : Lawful false r.trace := hn ▸ h
  refine (recvTimingResp_ends (r := r.setPacket g.packet g.content) h' (fun _ => hn) g.answer).bind
    fun ⟨b, r₁⟩ _ h₁ => ?_
  obtain ⟨-, hl, hf⟩ | ⟨-, hl, hf, -⟩ := h₁
  · exact (congrArg (Lawful · r₁.trace) hf).mpr hl
  · exact (congrArg (Lawful · r₁.trace) (hf.trans hn)).mpr hl

theorem gem5Responses_inStep (gs : List (Response α)) (h : Keeps InStep r) :
    Ends (Keeps InStep) NotRetryAssert (r.gem5Responses gs) := by
  induction gs generalizing r with
  | nil => exact h
  | cons g gs ih => exact (gem5Response_inStep h g).bind fun _ _ h₁ => ih h₁

theorem gem5Call_inStep (h : Keeps InStep r) (c : Gem5Call α) :
    Ends (Keeps InStep) NotRetryAssert (r.gem5Call c) := by
  cases c with
  | recvTimingResp g => exact gem5Response_inStep h g
  | recvReqRetry a =>
    exact .check (fun _ => by simp [NotRetryAssert]) fun _ =>
      recvReqRetry_ends calm_inStep calm_inStep h a fun _ h₁ => gem5Responses_inStep _ h₁

/-! ## Inside `sendRetryResp` -/

/-- The responses that gem5 sends in a call. -/
def responses : Gem5Call α → List (Response α)
  | .recvTimingResp g => [g]
  | .recvReqRetry a => a.send.responses

/-- Of these responses, sent one after the other, none finds another one in progress. -/
def Passing (gs : List (Response α)) : Prop :=
  gs.Pairwise fun g _ => g.answer.reply.status ≠ .accepted

/-- The flag is still set, gem5 is not waiting any more, and if it sends the responses `gs`, no
response is in progress. -/
def OutOfStep (gs : List (Response α)) (n b : Bool) (l : List (Obs α)) : Prop :=
  n = true ∧ Lawful false l ∧ (gs ≠ [] → b = false)

omit [DecidableEq α] in
theorem calm_outOfStep (gs : List (Response α)) : Calm (OutOfStep gs) :=
  fun _ _ _ _ ho h => ⟨h.1, h.2.1.calm ho, h.2.2⟩

theorem gem5Response_outOfStep {g : Response α} {gs : List (Response α)}
    (h : Keeps (OutOfStep (g :: gs)) r) (hp : Passing (g :: gs)) :
    Ends (Keeps (OutOfStep gs)) NotRetryAssert (r.gem5Response g) := by
  have hrip : r.responseInProgress = false := h.2.2 (by simp)
  refine .check (fun _ => by simp [NotRetryAssert]) fun _ =>
    .check (fun _ => by simp [NotRetryAssert]) fun _ =>
    .check (fun _ => by simp [NotRetryAssert]) fun _ => ?_
  refine (recvTimingResp_ends (r := r.setPacket g.packet g.content) h.2.1
    (fun hb => absurd (hrip.symm.trans hb) (by simp)) g.answer).bind fun ⟨b, r₁⟩ _ h₁ => ?_
  obtain ⟨hb, -, -⟩ | ⟨-, hl, hf, ha⟩ := h₁
  · exact absurd (hrip.symm.trans hb) (by simp)
  · refine ⟨hf.trans h.1, hl, fun hne => ?_⟩
    obtain ⟨g', hg'⟩ := List.exists_mem_of_ne_nil _ hne
    have hna := List.rel_of_pairwise_cons hp hg'
    exact Bool.eq_false_iff.2 fun hb => hna (ha hb)

theorem gem5Responses_outOfStep (gs : List (Response α)) {rest : List (Response α)}
    (h : Keeps (OutOfStep (gs ++ rest)) r) (hp : Passing (gs ++ rest)) :
    Ends (Keeps (OutOfStep rest)) NotRetryAssert (r.gem5Responses gs) := by
  induction gs generalizing r with
  | nil => exact h
  | cons g gs ih =>
    exact (gem5Response_outOfStep h hp).bind fun _ _ h₁ => ih h₁ (List.Pairwise.of_cons hp)

theorem gem5Call_outOfStep {c : Gem5Call α} {rest : List (Response α)}
    (h : Keeps (OutOfStep (responses c ++ rest)) r) (hp : Passing (responses c ++ rest)) :
    Ends (Keeps (OutOfStep rest)) NotRetryAssert (r.gem5Call c) := by
  cases c with
  | recvTimingResp g => exact gem5Response_outOfStep h hp
  | recvReqRetry a =>
    exact .check (fun _ => by simp [NotRetryAssert]) fun _ =>
      recvReqRetry_ends (calm_outOfStep _) (calm_outOfStep _) h a fun _ h₁ =>
        gem5Responses_outOfStep _ h₁ hp

theorem gem5Calls_outOfStep (cs : List (Gem5Call α))
    (h : Keeps (OutOfStep (cs.flatMap responses)) r)
    (hp : Passing (cs.flatMap responses)) :
    Ends (Keeps (OutOfStep [])) NotRetryAssert (r.gem5Calls cs) := by
  induction cs generalizing r with
  | nil => exact h
  | cons c cs ih =>
    rw [List.flatMap_cons] at h hp
    exact (gem5Call_outOfStep h hp).bind fun _ _ h₁ => ih h₁ (List.pairwise_append.1 hp).2.1

/-- END_RESP: the retry is sent if gem5 waits for it. -/
theorem handleEndResp_ends (h : Keeps InStep r) (cs : List (Gem5Call α))
    (hp : r.needToSendRetry = true → Passing (cs.flatMap responses)) :
    Ends (Keeps InStep) NotRetryAssert (r.handleEndResp x cs) := by
  refine .check (fun _ => by simp [NotRetryAssert]) fun _ =>
    .check (fun _ => by simp [NotRetryAssert]) fun _ => ?_
  split_ifs with hn
  · have hl : Lawful true r.trace := by
      have : r.needToSendRetry = true := hn
      rwa [Keeps, InStep, this] at h
    refine (gem5Calls_outOfStep cs ?_ (hp hn)).bind fun r₁ _ h₁ => ?_
    · exact ⟨hn, hl.retry x, fun _ => rfl⟩
    · exact h₁.2.1
  · have hn : r.needToSendRetry = false := by simpa [emit] using hn
    rw [Keeps, InStep, hn] at h
    have := h.ended x
    rw [← hn] at this
    exact this

/-! ## Runs -/

/-- The condition on what gem5 does from inside `sendRetryResp`. -/
def Passes (r : SCMasterPort α) : Act α → Prop
  | .peqCb i o => ∀ e ∈ r.peq[i]?, e.phase = .endResp → r.needToSendRetry = true →
      Passing (o.retry.flatMap responses)
  | _ => True

instance (gs : List (Response α)) : Decidable (Passing gs) :=
  inferInstanceAs (Decidable (List.Pairwise _ _))

instance (r : SCMasterPort α) : (a : Act α) → Decidable (Passes r a)
  | .peqCb i o => inferInstanceAs (Decidable (∀ e ∈ r.peq[i]?, e.phase = .endResp →
      r.needToSendRetry = true → Passing (o.retry.flatMap responses)))
  | .call _ | .gem5 _ | .advance _ => .isTrue trivial

theorem step_inStep (h : Keeps InStep r) {a : Act α} (ha : Passes r a) :
    Ends (Keeps InStep) NotRetryAssert (r.step a) := by
  cases a with
  | call c => exact call_ends calm_inStep h c
  | peqCb i o =>
    simp only [step]
    cases he : r.peq[i]? with
    | none => simp [NotRetryAssert]
    | some e =>
      refine .check (fun _ => by simp [NotRetryAssert]) fun _ =>
        .check (fun _ => by simp [NotRetryAssert]) fun _ => ?_
      cases hph : e.phase with
      | beginReq =>
        exact handleBeginReq_ends (r := { r.dequeue i with curTick := r.now }) calm_inStep h
          o.request fun _ h₁ => gem5Responses_inStep _ h₁
      | endResp =>
        exact handleEndResp_ends (r := { r.dequeue i with curTick := r.now }) h o.retry
          (ha e he hph)
      | _ => simp [NotRetryAssert]
  | gem5 c => exact gem5Call_inStep h c
  | advance d => exact .check (fun _ => by simp [NotRetryAssert]) fun _ => h

/-- Every refusal gets its own retry at the next END_RESP, and no act that may come next fails the
assertion of `recvTimingResp`. -/
structure RetriesObeyed (ok : SCMasterPort α → Act α → Prop) (r : SCMasterPort α) : Prop where
  law : Along RetryLaw r.trace
  answered : ∀ x l, r.trace = .ended x :: l → waitsForRetry l = false
  assertion : ∀ a, ok r a →
    r.fault a ≠ some (.scAssert "SCMasterPort::recvTimingResp" "!needToSendRetry")

/-- If no response that gem5 sends from inside `sendRetryResp` is refused, the retries are in
order. -/
theorem retriesObeyed_of_run {ownerId : ℕ} {payloads : α → Payload}
    (h : Run step Passes (new ownerId payloads) r) : RetriesObeyed Passes r := by
  have hk : Keeps InStep r := by
    refine h.invariant (I := Keeps InStep) ⟨trivial, rfl, fun _ _ heq => (by cases heq)⟩ ?_
    exact fun _ _ _ hi ha hs => (step_inStep hi ha).of_eq_ok hs
  refine ⟨hk.law, hk.answered, fun a ha hf => ?_⟩
  exact (step_inStep hk ha).of_eq_error (step_of_fault hf) rfl

/-- Three reads at gem5; the response to the second is refused while the first is in progress, and
END_RESP of the first is on its way. -/
def refusedResponse : List (Act ℕ) :=
  [.call ⟨0, .beginReq, 0⟩, .peqCb 0 taken, .call ⟨1, .beginReq, 0⟩, .peqCb 0 taken,
    .call ⟨2, .beginReq, 0⟩, .peqCb 0 taken, .gem5 (.recvTimingResp (readResponse 0 .accepted)),
    .gem5 (.recvTimingResp (readResponse 1 .accepted)), .call ⟨0, .endResp, 0⟩]

/-- gem5 sends the responses from inside `sendRetryResp`. -/
def sentAgain (gs : List (Response ℕ)) : MasterAnswers ℕ :=
  { taken with retry := gs.map .recvTimingResp }

/-- From inside `sendRetryResp`, gem5 sends the refused response again. -/
theorem retriesObeyed_sentAgain : ∃ r : SCMasterPort ℕ, .sendRetryResp ∈ r.trace ∧
    RetriesObeyed Passes r := by
  obtain ⟨r, hr, hp⟩ := exists_readRun (P := Passes) (p := fun r => .sendRetryResp ∈ r.trace)
    (refusedResponse ++ [.peqCb 0 (sentAgain [readResponse 1 .accepted])]) (by decide)
  exact ⟨r, of_decide_eq_true hp, retriesObeyed_of_run hr⟩

/-- From inside `sendRetryResp`, gem5 sends the refused response and one more. -/
theorem not_retriesObeyed : ¬ ∀ (ownerId : ℕ) (payloads : ℕ → Payload) (r : SCMasterPort ℕ),
    Run step (fun _ _ => True) (new ownerId payloads) r → RetriesObeyed (fun _ _ => True) r := by
  intro h
  obtain ⟨r, hr, hp⟩ := exists_readRun (P := fun _ _ => True)
    (p := fun r => r.fault
      (.peqCb 0 (sentAgain [readResponse 1 .accepted, readResponse 2 .accepted])) =
        some (.scAssert "SCMasterPort::recvTimingResp" "!needToSendRetry"))
    refusedResponse (by decide)
  exact (h _ _ r hr).assertion _ trivial (of_decide_eq_true hp)

end SCMasterPort

end Gem5Wrapper
