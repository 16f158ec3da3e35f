import Gem5Wrapper.MasterChannels
import Gem5Wrapper.MasterRetries

/-!
# Where the transactions of the master port are

The port keeps no list of its transactions. A request that gem5 has taken is known only by the
sender state on its packet, and a refused response only by a flag. `Kept` says that neither gets
lost: every request at gem5 has its sender state, and gem5 waits for a retry only while a response
is in progress, whose END_RESP will send the retry.
-/

namespace Gem5Wrapper

open FaultMachine OneAtATime TwoChannels History PeqEvent

variable {α : Type} [DecidableEq α]

namespace SCMasterPort

variable {r r' : SCMasterPort α} {x : α} {p : PacketId α} {i : ℕ}

/-- What the port has handed out comes back. -/
structure Kept (r : SCMasterPort α) : Prop where
  pending : ∀ x, r.pendingRequest = some x → x ∈ r.senderStates (r.packetOf x)
  atGem5 : ∀ x ∈ inside r.events, x ∈ r.senderStates (r.packetOf x)
  waits : waitsForRetry r.trace = true → r.responseInProgress = true

/-! ## Calls of the initiator -/

/-- Calls of the initiator are no matter of gem5. -/
theorem calls_inside {cs : List (Call α)} (h : r.calls cs = .ok r') :
    inside r'.events = inside r.events ∧ waitsForRetry r'.trace = waitsForRetry r.trace := by
  refine calls_invariant (P := fun r₁ => inside r₁.events = inside r.events ∧
    waitsForRetry r₁.trace = waitsForRetry r.trace) ⟨rfl, rfl⟩ (fun r₁ c r₂ h₁ hc => ?_) h
  obtain ⟨_, rfl⟩ | ⟨-, rfl⟩ | ⟨-, rfl⟩ := call_cases hc
  · exact h₁
  · exact h₁
  · exact h₁

theorem Kept.calls (h : Kept r) {cs : List (Call α)} (hc : r.calls cs = .ok r') : Kept r' := by
  obtain ⟨hin, hw⟩ := calls_inside hc
  have hpo := (calls_quiet hc).packetOf
  obtain ⟨_, _, _, rfl⟩ := calls_frame hc
  refine ⟨fun y hy => ?_, fun y hy => ?_, fun hwaits => h.waits (hw ▸ hwaits)⟩
  · rw [hpo]
    exact h.pending y hy
  · rw [hpo]
    exact h.atGem5 y (hin ▸ hy)

/-! ## Requests -/

/-- The sender state of a request goes on top of those of its packet. -/
theorem mem_pushSenderState {y : α} (h : y = x ∨ y ∈ r.senderStates (r.packetOf y)) :
    y ∈ (r.pushSenderState (r.packetOf x) x).senderStates (r.packetOf y) := by
  simp only [pushSenderState, Function.update_apply]
  split_ifs with hp
  · rw [hp] at h
    exact List.mem_cons.2 h
  · exact h.resolve_left fun hy => hp (hy ▸ rfl)

theorem Kept.handleBeginReq (h : Kept r) {a : ReqAnswers α} (ha : a.send.responses = [])
    (hm : r.handleBeginReq x a = .ok r') : Kept r' := by
  obtain ⟨-, hn, -, packets, r₁, hr₁, hm⟩ := handleBeginReq_cases hm
  rw [ha] at hr₁
  cases hr₁
  have hpush : ∀ y, y = x ∨ y ∈ inside r.events →
      y ∈ (r.pushSenderState (r.packetOf x) x).senderStates (r.packetOf y) := fun y hy =>
    mem_pushSenderState (hy.imp_right (h.atGem5 y))
  rcases hm with ⟨-, r₂, hc, rfl⟩ | ⟨-, rfl⟩
  · have h₁ : Kept ((({ r.emit (.acquire x) with packets }.pushSenderState (r.packetOf x) x).emit
        (.sendTimingReq x (r.packetOf x) a.send.accept)).emit (.endReq x)) := by
      refine ⟨fun y hy => absurd (hn.symm.trans hy) (by simp), fun y hy => hpush y ?_, h.waits⟩
      obtain ⟨hg, ha⟩ := mem_inside.1 hy
      exact (List.mem_cons.1 hg).imp_right fun hg => mem_inside.2 ⟨hg, ha⟩
    have h₂ := h₁.calls hc
    exact ⟨h₂.pending, h₂.atGem5, h₂.waits⟩
  · refine ⟨fun y hy => hpush y (.inl ?_), fun y hy => hpush y (.inr hy), h.waits⟩
    exact (Option.some.inj hy).symm

theorem Kept.recvReqRetry (h : Kept r) {a : ReqAnswers α} (ha : a.send.responses = [])
    (hm : r.recvReqRetry a = .ok r') : Kept r' := by
  obtain ⟨-, x, p, r₁, hx, -, hr₁, hm⟩ := recvReqRetry_cases hm
  rw [ha] at hr₁
  cases hr₁
  rcases hm with ⟨-, r₂, hc, rfl⟩ | ⟨-, rfl⟩
  · have h₁ : Kept ({ r.emit (.sendTimingReq x p a.send.accept) with
        waitForRetry := false, pendingPacket := none }.emit (.endReq x)) := by
      refine ⟨h.pending, fun y hy => ?_, h.waits⟩
      obtain ⟨hg, ha⟩ := mem_inside.1 hy
      obtain rfl | hg := List.mem_cons.1 hg
      · exact h.pending y hx
      · exact h.atGem5 y (mem_inside.2 ⟨hg, ha⟩)
    have h₂ := h₁.calls hc
    exact ⟨fun y hy => (by cases hy), h₂.atGem5, h₂.waits⟩
  · exact ⟨h.pending, h.atGem5, h.waits⟩

/-! ## Responses -/

/-- gem5 does not have the packet of the pending request. -/
theorem InChannels.pending_ne (h : InChannels r) (hp : lastTaken p r.trace = true)
    (hx : x ∈ r.senderStates p) : r.pendingRequest ≠ some x := by
  obtain ⟨w, ins, ch, -, hf⟩ := h
  intro hpend
  have htaken := hf.pends.taken x hpend
  rw [(hf.stacked.mem p x hx).1, hp] at htaken
  cases htaken

/-- The sender state that is popped is that of the transaction that is answered. -/
theorem Kept.recvTimingResp (h : Kept r) {a : Answer α} {b : Bool}
    (hw : waitsForRetry r.trace = false)
    (hn : ∀ x ∈ r.senderStates p, r.pendingRequest ≠ some x)
    (hm : r.recvTimingResp p a = .ok (b, r')) : Kept r' := by
  obtain ⟨hrip, -, -, rfl⟩ | ⟨-, -, x, rest, r₁, hs, hb, rfl⟩ := recvTimingResp_cases hm
  · exact ⟨h.pending, h.atGem5, fun _ => hrip⟩
  have hpop : ∀ y, y ≠ x → y ∈ r.senderStates (r.packetOf y) →
      y ∈ Function.update r.senderStates p rest (r.packetOf y) := by
    intro y hy hmem
    rw [Function.update_apply]
    split_ifs with hp
    · rw [hp, hs] at hmem
      exact (List.mem_cons.1 hmem).resolve_left hy
    · exact hmem
  obtain ⟨r₂, hc, hend⟩ := sendBeginResp_cases hb
  have h₂ : Kept r₂ := by
    refine Kept.calls ⟨fun y hy => ?_, fun y hy => ?_, fun hwaits => ?_⟩ hc
    · rw [packetOf_emit, packetOf_setStatus]
      refine hpop y (fun hyx => hn x (by simp [hs]) (hyx ▸ hy)) (h.pending y hy)
    · rw [packetOf_emit, packetOf_setStatus]
      obtain ⟨hg, ha⟩ := mem_inside.1 hy
      have hyx : y ≠ x := fun hyx => ha (hyx ▸ List.mem_cons_self)
      exact hpop y hyx (h.atGem5 y (mem_inside.2 ⟨hg, fun hy => ha (List.mem_cons_of_mem _ hy)⟩))
    · exact absurd (hw.symm.trans hwaits) (by simp)
  have hw₂ : waitsForRetry r₂.trace = false := (calls_inside hc).2.trans hw
  rcases hend with ⟨-, rfl⟩ | ⟨-, rfl⟩
  · exact ⟨h₂.pending, h₂.atGem5, fun hwaits => absurd (hw₂.symm.trans hwaits) (by simp)⟩
  · exact ⟨h₂.pending, h₂.atGem5, fun _ => rfl⟩

theorem Kept.gem5Call (h : Kept r) (hi : InChannels r) {c : Gem5Call α} (hc : PromptCall c)
    (hm : r.gem5Call c = .ok r') : Kept r' := by
  cases c with
  | recvTimingResp g =>
    obtain ⟨-, hat, hw, b, hm⟩ := gem5Response_cases hm
    exact Kept.recvTimingResp (r := r.setPacket g.packet g.content)
      ⟨h.pending, h.atGem5, h.waits⟩ hw (fun x hx => hi.pending_ne hat.1 hx) hm
  | recvReqRetry a =>
    obtain ⟨-, -, hm⟩ := bind_eq_ok.1 hm
    exact h.recvReqRetry hc hm

theorem Kept.gem5Calls (h : Kept r) (hi : InChannels r) {cs : List (Gem5Call α)}
    (hc : ∀ c ∈ cs, PromptCall c) (hm : r.gem5Calls cs = .ok r') : Kept r' := by
  induction cs generalizing r with
  | nil =>
    cases hm
    exact h
  | cons c cs ih =>
    obtain ⟨hc, hcs⟩ := List.forall_mem_cons.1 hc
    obtain ⟨r₁, hm₁, hm⟩ := bind_eq_ok.1 hm
    exact ih (h.gem5Call hi hc hm₁) ((gem5Call_inChannels hi hc).of_eq_ok hm₁) hcs hm

/-- The retry is sent as long as gem5 waits for it. -/
theorem Kept.handleEndResp (h : Kept r) (hn : waitsForRetry r.trace = r.needToSendRetry)
    {cs : List (Gem5Call α)} (hc : ∀ c ∈ cs, PromptCall c)
    (hi : ∀ r₁, r.handleEndResp x [] = .ok r₁ → InChannels r₁)
    (hm : r.handleEndResp x cs = .ok r') : Kept r' := by
  have hcheck : (r.payloads x).responseStatus.isError = false := by
    simp only [SCMasterPort.handleEndResp, bind_eq_ok, check_eq_ok] at hm
    obtain ⟨-, -, -, hcheck, -⟩ := hm
    exact hcheck
  obtain ⟨hrip, ⟨hretry, r₁, hcalls, rfl⟩ | ⟨hretry, rfl⟩⟩ := handleEndResp_cases hm
  · have hi₁ : InChannels (({ r with responseInProgress := false }.emit (.ended x)).emit
        .sendRetryResp) := by
      have h₀ := hi { ({ r with responseInProgress := false }.emit (.ended x)).emit
        .sendRetryResp with needToSendRetry := false } ?_
      · exact h₀.congr r.needToSendRetry r.packets r.now r.curTick
      unfold SCMasterPort.handleEndResp
      rw [check_pos hrip, ok_bind]
      dsimp only
      rw [check_pos (by exact hcheck), ok_bind, if_pos (by exact hretry)]
      rfl
    have h₁ := Kept.gem5Calls (r := ({ r with responseInProgress := false }.emit
      (.ended x)).emit .sendRetryResp) ⟨h.pending, h.atGem5, fun hw => (by cases hw)⟩ hi₁ hc hcalls
    exact ⟨h₁.pending, h₁.atGem5, h₁.waits⟩
  · exact ⟨h.pending, h.atGem5, fun hw => absurd ((hn.trans hretry).symm.trans hw) (by simp)⟩

/-! ## Runs -/

theorem Kept.step (h : Kept r) (hi : InChannels r) (hs : Keeps InStep r) {a : Act α}
    (ha : Prompt r a) (hm : r.step a = .ok r') : Kept r' := by
  cases a with
  | call c =>
    have hcs : r.calls [c] = .ok r' := by
      rw [SCMasterPort.calls, show r.call c = .ok r' from hm]
      rfl
    exact h.calls hcs
  | peqCb i o =>
    simp only [SCMasterPort.step] at hm
    cases he : r.peq[i]? with
    | none =>
      rw [he] at hm
      cases hm
    | some e =>
      rw [he] at hm
      obtain ⟨_, hdue, hm⟩ := bind_eq_ok.1 hm
      obtain ⟨-, -, hm⟩ := bind_eq_ok.1 hm
      have h₁ : Kept { r.dequeue i with curTick := r.now } := ⟨h.pending, h.atGem5, h.waits⟩
      cases hph : e.phase with
      | beginReq =>
        rw [hph] at hm
        exact h₁.handleBeginReq ha.1 hm
      | endResp =>
        rw [hph] at hm
        refine h₁.handleEndResp (Lawful.waits hs) ha.2 (fun r₁ hr₁ => ?_) hm
        -- without the calls, this is an act of its own
        refine (step_inChannels hi (a := .peqCb i { o with retry := [] })
          ⟨ha.1, by simp⟩).of_eq_ok ?_
        simp only [SCMasterPort.step, he]
        rw [show check (e.due = r.now) _ = .ok _ from hdue, ok_bind, hph, SCMasterPort.peqCb,
          check_pos (by rfl), ok_bind]
        exact hr₁
      | _ =>
        rw [hph] at hm
        cases hm
  | gem5 c => exact h.gem5Call hi ha hm
  | advance d =>
    obtain ⟨-, -, hm⟩ := bind_eq_ok.1 hm
    cases hm
    exact ⟨h.pending, h.atGem5, h.waits⟩

/-- Each accepted transaction is in one place, where it is clear who makes the next move. -/
structure Accounted (r : SCMasterPort α) : Prop where
  account : (requests r.events).Perm (queued r.peq .beginReq ++ (r.pendingRequest.toList ++
    (inside r.events ++ (answering r.events ++ closes r.events))))
  once : (requests r.events).Nodup
  /-- gem5 has refused the pending request and is to ask for it. -/
  pending : r.pendingRequest ≠ none → r.waitForRetry = true ∧ lastRefused r.trace = true
  /-- The sender states are those of the requests that gem5 has or is to ask for. -/
  senderStates : ∀ p x, x ∈ r.senderStates p ↔
    p = r.packetOf x ∧ (x ∈ inside r.events ∨ r.pendingRequest = some x)
  nodup : ∀ p, (r.senderStates p).Nodup
  /-- The initiator is to send END_RESP, or its callback is due. -/
  responding : ∀ x ∈ answering r.events, MayAck r.events x ∨ x ∈ queued r.peq .endResp
  /-- A refused response waits for the end of another one. -/
  waits : waitsForRetry r.trace = true → answering r.events ≠ []

theorem InChannels.accounted (hi : InChannels r) (h : Kept r) : Accounted r := by
  obtain ⟨w, ins, ch, hfront, hf⟩ := hi
  have hins : ∀ {x}, x ∈ inside r.events ↔ x ∈ ins := hfront.pipelines.inside_perm.mem_iff
  have hch := hfront.pipelines.answering_eq
  refine ⟨?_, hfront.pipelines.ordered.nodup, fun hp => ?_, fun p x => ⟨fun hx => ?_, ?_⟩,
    hf.stacked.nodup, fun x hx => ?_, fun hw => ?_⟩
  · have haccount := hfront.pipelines.account
    rwa [← hfront.requests, List.append_assoc] at haccount
  · have hsome : r.pendingRequest.isSome = true := Option.isSome_iff_ne_none.2 hp
    exact ⟨hf.pends.waits.trans hsome, hf.pends.refused.trans hsome⟩
  · obtain ⟨hp, hx⟩ := hf.stacked.mem p x hx
    exact ⟨hp.symm, hx.imp_left hins.2⟩
  · intro hx
    obtain ⟨rfl, hx | hx⟩ := hx
    · exact h.atGem5 x hx
    · exact h.pending x hx
  · rw [hch] at hx
    cases ch with
    | free => cases hx
    | busy y owed =>
      obtain rfl := List.mem_singleton.1 hx
      cases owed with
      | true => exact .inl (hfront.pipelines.mayAck rfl)
      | false =>
        refine .inr ?_
        rw [hfront.ends]
        exact List.mem_singleton_self x
  · have hbusy := hf.busy.symm.trans (h.waits hw)
    rw [hch]
    cases ch with
    | free => cases hbusy
    | busy y owed => exact List.cons_ne_nil _ _

end SCMasterPort

end Gem5Wrapper
