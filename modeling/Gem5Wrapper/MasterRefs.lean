import Mathlib.Data.List.Perm.Basic
import Gem5Wrapper.MasterPort
import Gem5Wrapper.Lib.History

/-!
# References of the master port

`nb_transport_fw` acquires a payload once for each phase it queues, and `handleBeginReq` once
more; the port releases it after END_REQ and after BEGIN_RESP. `Even` counts both sides for one
transaction, in terms of where the transaction is: in the queue, on the sender-state stack of its
packet, or answered.

A transaction that is ended by a call with END_RESP has been acquired three times.
-/

namespace Gem5Wrapper

open FaultMachine OneAtATime History

variable {α : Type} [DecidableEq α]

namespace SCMasterPort

/-! ## Counts -/

/-- BEGIN_RESP of transaction `x`. -/
def Obs.responds (x : α) : Obs α → Bool
  | .beginResp y _ _ => y = x
  | _ => false

/-- How often what has happened to a transaction. -/
structure Tally where
  begun : ℕ
  endResps : ℕ
  acquires : ℕ
  releases : ℕ
  endReqs : ℕ
  responses : ℕ

def tally (x : α) (l : List (Obs α)) : Tally where
  begun := l.count (.fw x .beginReq)
  endResps := l.count (.fw x .endResp)
  acquires := l.count (.acquire x)
  releases := l.count (.release x)
  endReqs := l.count (.endReq x)
  responses := l.countP (Obs.responds x)

/-- The counts of a transaction with `queued` BEGIN_REQs in the queue and `pushed` sender states. Of
`pending` sender states END_REQ has not been sent, and `due` releases are still to be made. -/
structure Even (t : Tally) (queued pushed pending due : ℕ) : Prop where
  begun : t.begun = queued + pushed + t.responses
  once : t.begun ≤ 1
  acquires : t.acquires = t.begun + pushed + t.responses + t.endResps
  releases : t.releases + due = t.endReqs + t.responses
  granted : t.endReqs + pending = pushed + t.responses

variable {r r' : SCMasterPort α} {x y : α} {p : PacketId α} {pending due q s : ℕ}
  {l : List (Obs α)} {o : Obs α}

section Tally

/-- Observations that the counts do not depend on. -/
def Obs.silent : Obs α → Bool
  | .rejected .. | .sendTimingReq .. | .recvTimingResp .. | .ended _ | .sendRetryResp => true
  | _ => false

theorem tally_silent (ho : o.silent = true) : tally x (o :: l) = tally x l := by
  cases o <;> simp_all [Obs.silent, tally, Obs.responds]

theorem Even.fw_beginReq (h : Even (tally x l) q s pending due)
    (hy : l.count (.fw y .beginReq) = 0) :
    Even (tally x (.acquire y :: .fw y .beginReq :: l)) (q + if y = x then 1 else 0) s pending
      due := by
  obtain ⟨h₁, h₂, h₃, h₄, h₅⟩ := h
  by_cases hx : y = x
  · subst hx
    constructor <;> simp_all [tally, Obs.responds]
    all_goals omega
  · constructor <;> simp_all [tally, Obs.responds]

theorem Even.fw_endResp (h : Even (tally x l) q s pending due) :
    Even (tally x (.acquire y :: .fw y .endResp :: l)) q s pending due := by
  obtain ⟨h₁, h₂, h₃, h₄, h₅⟩ := h
  by_cases hx : y = x
  · subst hx
    constructor <;> simp_all [tally, Obs.responds]
    all_goals omega
  · constructor <;> simp_all [tally, Obs.responds]

/-- `handleBeginReq` takes a transaction out of the queue. -/
theorem Even.acquire (h : Even (tally x l) (q + if y = x then 1 else 0) s pending due) :
    Even (tally x (.acquire y :: l)) q (s + if y = x then 1 else 0)
      (pending + if y = x then 1 else 0) due := by
  obtain ⟨h₁, h₂, h₃, h₄, h₅⟩ := h
  by_cases hx : y = x
  · subst hx
    constructor <;> simp_all [tally, Obs.responds]
    all_goals omega
  · constructor <;> simp_all [tally, Obs.responds]

theorem Even.endReq (h : Even (tally x l) q s (pending + if y = x then 1 else 0) due) :
    Even (tally x (.endReq y :: l)) q s pending (due + if y = x then 1 else 0) := by
  obtain ⟨h₁, h₂, h₃, h₄, h₅⟩ := h
  by_cases hx : y = x
  · subst hx
    constructor <;> simp_all [tally, Obs.responds]
    all_goals omega
  · constructor <;> simp_all [tally, Obs.responds]

theorem Even.beginResp {delay : ℕ} {reply : Reply}
    (h : Even (tally x l) q (s + if y = x then 1 else 0) pending due) :
    Even (tally x (.beginResp y delay reply :: l)) q s pending (due + if y = x then 1 else 0) := by
  obtain ⟨h₁, h₂, h₃, h₄, h₅⟩ := h
  by_cases hx : y = x
  · subst hx
    constructor <;> simp_all [tally, Obs.responds]
    all_goals omega
  · constructor <;> simp_all [tally, Obs.responds]

theorem Even.release (h : Even (tally x l) q s pending (due + if y = x then 1 else 0)) :
    Even (tally x (.release y :: l)) q s pending due := by
  obtain ⟨h₁, h₂, h₃, h₄, h₅⟩ := h
  by_cases hx : y = x
  · subst hx
    constructor <;> simp_all [tally, Obs.responds]
    all_goals omega
  · constructor <;> simp_all [tally, Obs.responds]

/-- The releases that have been made or are due do not outnumber the acquires. -/
theorem Even.le (h : Even (tally x l) q s pending due) :
    (tally x l).releases + due ≤ (tally x l).acquires := by
  obtain ⟨h₁, h₂, h₃, h₄, h₅⟩ := h
  omega

end Tally

/-! ## The port -/

/-- The queued BEGIN_REQs of a transaction. -/
def queuedBegins (r : SCMasterPort α) (x : α) : ℕ :=
  r.peq.countP fun e => e.txn = x ∧ e.phase = .beginReq

/-- The sender states of a transaction on its packet. -/
def pushed (r : SCMasterPort α) (x : α) : ℕ := (r.senderStates (r.packetOf x)).count x

/-- A release that was ever made was preceded by its acquire. -/
def Owned (x : α) : List (Obs α) → Prop :=
  Along fun o l => o = .release x → l.count (.release x) < l.count (.acquire x)

/-- The counts of a transaction at a moment of the port. -/
structure Balance (x : α) (pending due : ℕ) (r : SCMasterPort α) : Prop where
  even : Even (tally x r.trace) (r.queuedBegins x) (r.pushed x) pending due
  stacked : ∀ p, ∀ y ∈ r.senderStates p, r.packetOf y = p
  owned : Owned x r.trace

@[simp] theorem pushed_emit : (r.emit o).pushed x = r.pushed x := rfl

@[simp] theorem pushed_setStatus (st : ResponseStatus) :
    (r.setStatus y st).pushed x = r.pushed x := by
  simp only [pushed, packetOf_setStatus]
  rfl

theorem Balance.setStatus (h : Balance x pending due r) (y : α) (st : ResponseStatus) :
    Balance x pending due (r.setStatus y st) := by
  refine ⟨?_, fun p y hy => ?_, h.owned⟩
  · rw [pushed_setStatus]
    exact h.even
  · rw [packetOf_setStatus]
    exact h.stacked p y hy

theorem Balance.emit_silent (h : Balance x pending due r) (ho : o.silent = true) :
    Balance x pending due (r.emit o) := by
  refine ⟨?_, h.stacked, ⟨fun heq => ?_, h.owned⟩⟩
  · have := h.even
    rw [← tally_silent ho] at this
    exact this
  · subst heq
    cases ho

theorem Balance.release (h : Balance x pending (due + if y = x then 1 else 0) r) :
    Balance x pending due (r.emit (.release y)) := by
  refine ⟨h.even.release, h.stacked, ⟨fun heq => ?_, h.owned⟩⟩
  obtain rfl : y = x := Obs.release.inj heq
  have hle := h.even.le
  rw [if_pos rfl] at hle
  change (tally y r.trace).releases < (tally y r.trace).acquires
  omega

theorem queuedBegins_notify {ph : Phase} {delay : ℕ} :
    (r.notify y ph delay).queuedBegins x =
      r.queuedBegins x + if y = x ∧ ph = .beginReq then 1 else 0 := by
  simp [queuedBegins, notify, List.countP_append]

theorem Balance.call {c : Call α} (h : Balance x pending due r) (hc : r.call c = .ok r') :
    Balance x pending due r' := by
  obtain ⟨st, rfl⟩ | ⟨hm, rfl⟩ | ⟨hm, rfl⟩ := call_cases hc
  · exact (h.setStatus c.txn st).emit_silent rfl
  · have h₀ : r.trace.count (.fw c.txn .beginReq) = 0 :=
      List.count_eq_zero_of_not_mem fun hmem => hm.1 (mem_requests.2 hmem)
    refine ⟨?_, h.stacked, by simpa [Owned, notify, emit] using h.owned⟩
    rw [queuedBegins_notify]
    simp only [and_true]
    exact h.even.fw_beginReq h₀
  · refine ⟨?_, h.stacked, by simpa [Owned, notify, emit] using h.owned⟩
    rw [queuedBegins_notify, if_neg (by simp)]
    exact h.even.fw_endResp

theorem Balance.calls {cs : List (Call α)} (h : Balance x pending due r)
    (hc : r.calls cs = .ok r') : Balance x pending due r' :=
  calls_invariant h (fun _ _ _ h hc => h.call hc) hc

theorem pushed_pop {rest : List α} (h : ∀ p, ∀ y ∈ r.senderStates p, r.packetOf y = p)
    (hs : r.senderStates p = y :: rest) :
    r.pushed x = { r with senderStates := Function.update r.senderStates p rest }.pushed x +
      if y = x then 1 else 0 := by
  have hy : r.packetOf y = p := h p y (by simp [hs])
  change (r.senderStates (r.packetOf x)).count x =
    (Function.update r.senderStates p rest (r.packetOf x)).count x + _
  by_cases hx : r.packetOf x = p
  · rw [hx, hs, Function.update_self, List.count_cons]
    simp
  · rw [Function.update_of_ne hx, if_neg, Nat.add_zero]
    rintro rfl
    exact hx hy

/-- BEGIN_RESP is sent for the transaction on top of the stack. -/
theorem Balance.respond {rest : List α} {packets : PacketId α → Packet} {delay : ℕ}
    {reply : Reply} (h : Balance x pending due r) (hs : r.senderStates p = y :: rest) :
    Balance x pending (due + if y = x then 1 else 0)
      ((({ r with packets, senderStates := Function.update r.senderStates p rest }.emit
        (.recvTimingResp p true)).setStatus y .ok).emit (.beginResp y delay reply)) := by
  have heven := h.even
  rw [pushed_pop h.stacked hs, ← tally_silent (o := .recvTimingResp p true) rfl] at heven
  refine ⟨?_, fun q z hz => ?_, by
    simpa [Owned, emit, SCMasterPort.setStatus] using h.owned⟩
  · rw [pushed_emit, pushed_setStatus]
    exact heven.beginResp
  · rw [packetOf_emit, packetOf_setStatus]
    refine h.stacked q z ?_
    change z ∈ Function.update r.senderStates p rest q at hz
    by_cases hq : q = p
    · subst hq
      rw [Function.update_self] at hz
      rw [hs]
      exact List.mem_cons_of_mem _ hz
    · rwa [Function.update_of_ne hq] at hz

theorem Balance.recvTimingResp {a : Answer α} {b : Bool} (h : Balance x pending due r)
    (hr : r.recvTimingResp p a = .ok (b, r')) : Balance x pending due r' := by
  obtain ⟨-, -, -, rfl⟩ | ⟨-, -, y, rest, r₁, hs, hb, rfl⟩ := recvTimingResp_cases hr
  · have := h.emit_silent (o := .recvTimingResp p false) rfl
    exact ⟨this.even, this.stacked, this.owned⟩
  · obtain ⟨r₂, hc, hr₁⟩ := sendBeginResp_cases hb
    have h₂ := (h.respond hs).calls hc
    obtain ⟨-, rfl⟩ | ⟨-, rfl⟩ := hr₁
    · have := (h₂.emit_silent (o := .ended y) rfl).release
      exact ⟨this.even, this.stacked, this.owned⟩
    · have := h₂.release
      exact ⟨this.even, this.stacked, this.owned⟩

theorem Balance.gem5Response {g : Response α} (h : Balance x pending due r)
    (hg : r.gem5Response g = .ok r') : Balance x pending due r' := by
  obtain ⟨-, -, -, b, hr⟩ := gem5Response_cases hg
  have h' : Balance x pending due (r.setPacket g.packet g.content) := ⟨h.even, h.stacked, h.owned⟩
  exact h'.recvTimingResp hr

theorem Balance.gem5Responses {gs : List (Response α)} (h : Balance x pending due r)
    (hg : r.gem5Responses gs = .ok r') : Balance x pending due r' :=
  gem5Responses_invariant h (fun _ _ _ h hg => h.gem5Response hg) hg

/-- END_REQ and its release. -/
theorem Balance.sendEndReq {cs : List (Call α)}
    (h : Balance x (pending + if y = x then 1 else 0) due r)
    (hc : (r.emit (.endReq y)).calls cs = .ok r') :
    Balance x pending due (r'.emit (.release y)) := by
  have h₁ : Balance x pending (due + if y = x then 1 else 0) (r.emit (.endReq y)) :=
    ⟨h.even.endReq, h.stacked, by simpa [Owned, emit] using h.owned⟩
  exact (h₁.calls hc).release

/-- Between two callbacks: END_REQ is missing for the pending request, and no release is due. -/
def Settled (x : α) (r : SCMasterPort α) : Prop :=
  Balance x (if r.pendingRequest = some x then 1 else 0) 0 r

theorem Settled.recvReqRetry {a : ReqAnswers α} (h : Settled x r)
    (hr : r.recvReqRetry a = .ok r') : Settled x r' := by
  obtain ⟨-, y, p, r₁, hy, -, hg, h'⟩ := recvReqRetry_cases hr
  have h₁ : Balance x (if y = x then 1 else 0) 0 r₁ := by
    unfold Settled at h
    rw [hy] at h
    simp only [Option.some.injEq] at h
    exact (h.emit_silent (o := .sendTimingReq y p a.send.accept) rfl).gem5Responses hg
  obtain ⟨-, r₂, hc, rfl⟩ | ⟨-, rfl⟩ := h'
  · have h₂ : Balance x (0 + if y = x then 1 else 0) 0
        { r₁ with waitForRetry := false, pendingPacket := none } := by
      rw [Nat.zero_add]
      exact ⟨h₁.even, h₁.stacked, h₁.owned⟩
    have h₃ := h₂.sendEndReq hc
    exact ⟨h₃.even, h₃.stacked, h₃.owned⟩
  · have hp : r'.pendingRequest = some y := (gem5Responses_sameRequest hg).2.1.trans hy
    unfold Settled
    rw [hp]
    simpa only [Option.some.injEq] using h₁

theorem Settled.gem5Call {c : Gem5Call α} (h : Settled x r) (hc : r.gem5Call c = .ok r') :
    Settled x r' := by
  cases c with
  | recvTimingResp g =>
    have hp := (gem5Response_sameRequest hc).2.1
    unfold Settled at h ⊢
    rw [hp]
    exact h.gem5Response hc
  | recvReqRetry a =>
    simp only [SCMasterPort.gem5Call, bind_eq_ok] at hc
    obtain ⟨-, -, hc⟩ := hc
    exact h.recvReqRetry hc

theorem Settled.handleEndResp {cs : List (Gem5Call α)} (h : Settled x r)
    (hr : r.handleEndResp y cs = .ok r') : Settled x r' := by
  obtain ⟨-, ⟨-, r₁, hc, rfl⟩ | ⟨-, rfl⟩⟩ := handleEndResp_cases hr
  · have h₁ : Settled x (({ r with responseInProgress := false }.emit (.ended y)).emit
        .sendRetryResp) := by
      have h₂ := (h.emit_silent (o := .ended y) rfl).emit_silent (o := .sendRetryResp) rfl
      exact ⟨h₂.even, h₂.stacked, h₂.owned⟩
    have h₃ := gem5Calls_invariant h₁ (fun _ _ _ h hc => h.gem5Call hc) hc
    exact ⟨h₃.even, h₃.stacked, h₃.owned⟩
  · have h₂ := h.emit_silent (o := .ended y) rfl
    exact ⟨h₂.even, h₂.stacked, h₂.owned⟩

theorem pushed_push : (r.pushSenderState (r.packetOf y) y).pushed x =
    r.pushed x + if y = x then 1 else 0 := by
  change (Function.update r.senderStates (r.packetOf y) (y :: _) (r.packetOf x)).count x =
    (r.senderStates (r.packetOf x)).count x + _
  by_cases hp : r.packetOf x = r.packetOf y
  · rw [hp, Function.update_self, List.count_cons]
    simp
  · rw [Function.update_of_ne hp, if_neg, Nat.add_zero]
    rintro rfl
    exact hp rfl

/-- `handleBeginReq` gets a transaction that has just left the queue. -/
theorem Settled.handleBeginReq {a : ReqAnswers α}
    (heven : Even (tally x r.trace) (r.queuedBegins x + if y = x then 1 else 0) (r.pushed x)
      (if r.pendingRequest = some x then 1 else 0) 0)
    (hstacked : ∀ p, ∀ y ∈ r.senderStates p, r.packetOf y = p) (howned : Owned x r.trace)
    (hr : r.handleBeginReq y a = .ok r') : Settled x r' := by
  obtain ⟨-, hnone, -, packets, r₁, hg, h'⟩ := handleBeginReq_cases hr
  simp only [hnone, reduceCtorEq, if_false] at heven
  have h₀ : Balance x (0 + if y = x then 1 else 0) 0
      ({ r.emit (.acquire y) with packets }.pushSenderState (r.packetOf y) y) := by
    refine ⟨?_, fun p z hz => ?_, by simpa [Owned, emit, pushSenderState] using howned⟩
    · have hp := pushed_push (r := { r.emit (.acquire y) with packets }) (x := x) (y := y)
      change Even _ _ (({ r.emit (.acquire y) with packets }.pushSenderState
        (packetOf { r.emit (.acquire y) with packets } y) y).pushed x) _ _
      rw [hp]
      exact heven.acquire
    · change z ∈ Function.update r.senderStates (r.packetOf y) (y :: _) p at hz
      by_cases hp : p = r.packetOf y
      · subst hp
        rw [Function.update_self] at hz
        obtain rfl | hz := List.mem_cons.1 hz
        · rfl
        · exact hstacked _ z hz
      · rw [Function.update_of_ne hp] at hz
        exact hstacked p z hz
  have h₁ := (h₀.emit_silent (o := .sendTimingReq y (r.packetOf y) a.send.accept) rfl).gem5Responses
    hg
  obtain ⟨-, r₂, hc, rfl⟩ | ⟨-, rfl⟩ := h'
  · have hp : (r₂.emit (.release y)).pendingRequest = none := by
      obtain ⟨_, _, _, rfl⟩ := calls_frame hc
      exact (gem5Responses_sameRequest hg).2.1.trans hnone
    unfold Settled
    rw [hp, if_neg (by simp)]
    exact h₁.sendEndReq hc
  · unfold Settled
    simp only [Option.some.injEq]
    rw [Nat.zero_add] at h₁
    exact ⟨h₁.even, h₁.stacked, h₁.owned⟩

theorem queuedBegins_dequeue {i : ℕ} {e : PeqEvent α} (he : r.peq[i]? = some e) (x : α) :
    r.queuedBegins x =
      (r.dequeue i).queuedBegins x + if e.txn = x ∧ e.phase = .beginReq then 1 else 0 := by
  obtain ⟨hi, rfl⟩ := List.getElem?_eq_some_iff.1 he
  have hp := (List.getElem_cons_eraseIdx_perm hi).countP_eq fun e => e.txn = x ∧ e.phase = .beginReq
  rw [List.countP_cons] at hp
  simpa [queuedBegins, dequeue] using hp.symm

theorem Settled.peqCb {e : PeqEvent α} {i : ℕ} {o : MasterAnswers α} (h : Settled x r)
    (he : r.peq[i]? = some e) (hr : (r.dequeue i).peqCb e.txn e.phase o = .ok r') :
    Settled x r' := by
  have hq := queuedBegins_dequeue he x
  have heven := h.even
  rw [hq] at heven
  simp only [SCMasterPort.peqCb, bind_eq_ok, check_eq_ok] at hr
  obtain ⟨-, -, hr⟩ := hr
  cases hp : e.phase with
  | beginReq =>
    rw [hp] at hr
    simp only [hp, and_true] at heven
    exact Settled.handleBeginReq (r := { r.dequeue i with curTick := r.now }) heven h.stacked
      h.owned hr
  | endResp =>
    rw [hp] at hr
    simp only [hp, reduceCtorEq, and_false, if_false, Nat.add_zero] at heven
    exact Settled.handleEndResp (r := { r.dequeue i with curTick := r.now })
      ⟨heven, h.stacked, h.owned⟩ hr
  | _ => rw [hp] at hr; cases hr

theorem Settled.step {a : Act α} (h : Settled x r) (hs : r.step a = .ok r') : Settled x r' := by
  cases a with
  | call c =>
    have hp : r'.pendingRequest = r.pendingRequest := by
      obtain ⟨_, rfl⟩ | ⟨-, rfl⟩ | ⟨-, rfl⟩ := call_cases hs <;> rfl
    unfold Settled at h ⊢
    rw [hp]
    exact h.call hs
  | peqCb i o =>
    simp only [SCMasterPort.step] at hs
    split at hs
    · cases hs
    · rename_i e he
      simp only [bind_eq_ok] at hs
      obtain ⟨-, -, hs⟩ := hs
      exact h.peqCb he hs
  | gem5 c => exact h.gem5Call hs
  | advance d =>
    simp only [SCMasterPort.step, bind_eq_ok, pure_eq_ok, Except.ok.injEq] at hs
    obtain ⟨-, -, rfl⟩ := hs
    exact ⟨h.even, h.stacked, h.owned⟩

/-! ## Runs -/

variable {ownerId : ℕ} {payloads : α → Payload} {ok : SCMasterPort α → Act α → Prop}

theorem settled_of_run (h : Run SCMasterPort.step ok (new ownerId payloads) r) (x : α) :
    Settled x r := by
  refine h.invariant (I := Settled x) ⟨?_, fun p y hy => ?_, trivial⟩ fun _ _ _ h _ hs => h.step hs
  · constructor <;> simp [new, tally, queuedBegins, pushed]
  · simp [new] at hy

/-- All phases of the transaction are over, and no callback is queued for it. -/
def Finished (r : SCMasterPort α) (x : α) : Prop :=
  .endReq x ∈ r.trace ∧ (∃ delay reply, .beginResp x delay reply ∈ r.trace ∧
    (reply.status = .accepted → .ended x ∈ r.trace)) ∧ ∀ e ∈ r.peq, e.txn ≠ x

theorem Owned.le (h : Owned x l) : l.count (.release x) ≤ l.count (.acquire x) := by
  induction l with
  | nil => exact Nat.le_refl _
  | cons o l ih =>
    have hl := ih h.2
    rw [List.count_cons, List.count_cons]
    by_cases ho : o = .release x
    · have := h.1 ho
      subst ho
      simp
      omega
    · simp only [beq_iff_eq, ho, if_false]
      omega

/-- The port never releases a payload more often than it has acquired it. Of a finished
transaction, it has released it as often exactly if no END_RESP call was made. -/
theorem refs_of_run (h : Run SCMasterPort.step (fun _ _ => True) (new ownerId payloads) r) (x : α) :
    (∀ l, l <:+ r.trace → l.count (.release x) ≤ l.count (.acquire x)) ∧
    (Finished r x → (r.trace.count (.release x) = r.trace.count (.acquire x) ↔
      .fw x .endResp ∉ r.trace)) := by
  have hs := settled_of_run h x
  refine ⟨fun l hl => Owned.le (hs.owned.of_suffix hl), ?_⟩
  rintro ⟨hreq, ⟨d, reply, hresp, -⟩, hpeq⟩
  have hq : r.queuedBegins x = 0 :=
    List.countP_eq_zero.2 fun e he => by simp [hpeq e he]
  have h₁ : 0 < r.trace.count (.endReq x) := List.count_pos_iff.2 hreq
  have h₂ : 0 < r.trace.countP (Obs.responds x) :=
    List.countP_pos_iff.2 ⟨_, hresp, by simp [Obs.responds]⟩
  obtain ⟨e₁, e₂, e₃, e₄, e₅⟩ := hs.even
  rw [← List.count_eq_zero]
  simp only [tally, hq] at e₁ e₂ e₃ e₄ e₅
  omega

/-- The initiator ends the response phase with its answer to BEGIN_RESP. -/
theorem refs_completed : ∃ r : SCMasterPort ℕ, Finished r 0 ∧
    r.trace.count (.release 0) = r.trace.count (.acquire 0) := by
  obtain ⟨r, hr, hp⟩ := exists_readRun (P := fun _ _ => True)
    (p := fun r => .endReq 0 ∈ r.trace ∧ .beginResp 0 0 ⟨.completed, .endResp, 0⟩ ∈ r.trace ∧
      r.peq = [] ∧ .fw 0 .endResp ∉ r.trace)
    [.call ⟨0, .beginReq, 0⟩, .peqCb 0 taken, .gem5 (.recvTimingResp (readResponse 0 .completed))]
    (by decide)
  obtain ⟨h₁, h₂, h₃, h₄⟩ := of_decide_eq_true hp
  have hf : Finished r 0 := ⟨h₁, ⟨_, _, h₂, by simp⟩, by simp [h₃]⟩
  exact ⟨r, hf, ((refs_of_run hr 0).2 hf).2 h₄⟩

/-- The initiator accepts BEGIN_RESP and calls with END_RESP later. -/
theorem not_refs : ¬ ∀ (ownerId : ℕ) (payloads : ℕ → Payload) (r : SCMasterPort ℕ) (x : ℕ),
    Run SCMasterPort.step (fun _ _ => True) (new ownerId payloads) r → Finished r x →
      r.trace.count (.release x) = r.trace.count (.acquire x) := by
  intro h
  obtain ⟨r, hr, hp⟩ := exists_readRun (P := fun _ _ => True)
    (p := fun r => .endReq 0 ∈ r.trace ∧ .beginResp 0 0 ⟨.accepted, .beginResp, 0⟩ ∈ r.trace ∧
      .ended 0 ∈ r.trace ∧ r.peq = [] ∧
      r.trace.count (.release 0) ≠ r.trace.count (.acquire 0))
    [.call ⟨0, .beginReq, 0⟩, .peqCb 0 taken, .gem5 (.recvTimingResp (readResponse 0 .accepted)),
      .call ⟨0, .endResp, 0⟩, .peqCb 0 taken] (by decide)
  obtain ⟨h₁, h₂, h₃, h₄, h₅⟩ := of_decide_eq_true hp
  exact h₅ (h _ _ r 0 hr ⟨h₁, ⟨_, _, h₂, fun _ => h₃⟩, by simp [h₄]⟩)

end SCMasterPort

end Gem5Wrapper
