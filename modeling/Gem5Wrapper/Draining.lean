import Gem5Wrapper.Calls
import Gem5Wrapper.Transactions

/-!
# Draining refused responses

`recvRespRetry` sends the responses that gem5 refused again, in one loop: `takeResponse_cases` says
which one it takes, and each round leaves one fewer (`blocked_cons`). The slot that is cleared is
the one that the extension names, so a round makes progress because every response waits in the
slot of its own socket (`InOwnSlot`).

The loop asserts that gem5 accepts every response that it sends again.
-/

namespace Gem5Wrapper

open FaultMachine
open Function (update)

/-! ## What a drain is to do -/

namespace World

/-- The responses that wait, by socket. With gem5 caches, socket 0 is that of the system port. -/
def blocked (w : World) : List Ptr :=
  (List.range w.port.helper.socketNum).filterMap w.port.slots.response

/-- What sending a response again shows. -/
def resent (w : World) (t : Ptr) : List Obs :=
  match (w.payloads t).extension with
  | some x => [.resp x.serial x.packet true, .endResp x.serial t x.coreId (w.payloads t).address,
      .release x.serial t]
  | none => []

/-- Every response waits in the slot of the socket that its extension names. -/
def InOwnSlot (w : World) : Prop :=
  ∀ s t, w.port.slots.response s = some t →
    t ∈ w.blocked ∧ ∃ x, (w.payloads t).extension = some x ∧ x.coreId = s

end World

/-- Responses, END_RESPs, and the releases of transactions before `n`. -/
def Obs.ofDrain (n : ℕ) : Obs → Bool
  | .resp .. | .endResp .. => true
  | .release k _ => k < n
  | _ => false

/-- No response waits any more, and each has been sent again, and nothing else. -/
structure Drains (n : ℕ) (w w' : World) : Prop where
  empty : ∀ s, w'.port.slots.response s = none
  trace : ∃ l, w'.trace = l ++ w.trace ∧
    l.reverse.filter (Obs.ofDrain n) = w.blocked.flatMap w.resent

/-- The fault of a request that gem5 makes before it answers. -/
def Nested (answers : List RespAnswer) (f : Fault) : Prop :=
  ∃ a ∈ answers, ∃ w : World, w.gem5Requests a.requests = .error f

/-! ## The next response -/

variable {P : Promise} {v : View} {c : Cur} {w w' : World} {t : Ptr} {x : Gem5Extension} {i n : ℕ}

/-- `getBlockingResponse` finds the response of the lowest socket. -/
theorem BlockingPacketHelper.getBlockingResponse_first {h : BlockingPacketHelper}
    (hg : h.getBlockingResponse = some t) :
    ∃ i, h.response i = some t ∧ ∀ j < i, h.response j = none := by
  obtain ⟨l₁, ⟨i, v⟩, l₂, hl, rfl, hnone⟩ := List.findSome?_eq_some_iff.1 hg
  have hmem : ∀ e, e ∈ l₁ ++ (i, some t) :: l₂ ↔ e ∈ h.blockingResponseMap.toList := by simp [hl]
  refine ⟨i, response_eq_some_iff.2 ((hmem _).1 (by simp)), fun j hj => ?_⟩
  cases hr : h.response j with
  | none => rfl
  | some t' =>
    have hord := h.blockingResponseMap.ordered_keys_toList
    rw [hl, List.pairwise_append, List.pairwise_cons] at hord
    have hm := (hmem _).2 (response_eq_some_iff.1 hr)
    simp only [List.mem_append, List.mem_cons] at hm
    obtain hm | hm | hm := hm
    · exact absurd (hnone _ hm) (by simp)
    · exact absurd (Prod.mk.inj hm).1 hj.ne
    · exact absurd (compare_lt_iff_lt.1 (hord.2.1.1 _ hm)) (by simp; omega)

/-- The first value of a function that is somewhere defined, and the others. -/
theorem filterMap_range_of_first {β : Type} {f : ℕ → Option β} {b : β} (hi : i < n)
    (hb : f i = some b) (hfirst : ∀ j < i, f j = none) :
    (List.range n).filterMap f = b :: (List.range n).filterMap (update f i none) := by
  induction n with
  | zero => omega
  | succ n ih =>
    rw [List.range_succ, List.filterMap_append, List.filterMap_append]
    obtain hlt | rfl := Nat.lt_succ_iff_lt_or_eq.1 hi
    · rw [ih hlt]
      have hne : n ≠ i := hlt.ne'
      simp [List.filterMap_cons, hne]
    · have h₁ : (List.range i).filterMap f = [] :=
        List.filterMap_eq_nil_iff.2 fun j hj => hfirst j (List.mem_range.1 hj)
      have h₂ : (List.range i).filterMap (update f i none) = [] :=
        List.filterMap_eq_nil_iff.2 fun j hj => by
          have hj := List.mem_range.1 hj
          rw [Function.update_of_ne hj.ne]
          exact hfirst j hj
      simp [h₁, h₂, hb]

namespace World

/-- Nothing waits, or the loop takes the response of the lowest socket. -/
theorem takeResponse_cases (hw : w.Ok) :
    (w.takeResponse = .ok none ∧ ∀ s, w.port.slots.response s = none) ∨
    ∃ i t, w.port.slots.response i = some t ∧ (∀ j < i, w.port.slots.response j = none) ∧
      ∀ x, (w.payloads t).extension = some x → x.coreId = i → ∃ p',
        w.takeResponse = .ok (some (t, x, { w with port := p' })) ∧
        SCSlavePort.Sets w.port p' (w.port.slots.put .response i none) := by
  have hp := hw.port
  cases hb : w.port.blockingResponse with
  | some t =>
    have hcache : w.port.usingGem5Cache = true := by
      by_contra hc
      rw [(hp.noCache (by simpa using hc)).2.2] at hb
      cases hb
    refine .inr ⟨0, t, by simp [SCSlavePort.slots, hcache, hb], by simp, fun x hx _ => ?_⟩
    refine ⟨{ w.port with blockingResponse := none }, ?_, hp.setBlockingResponse hcache none⟩
    simp only [takeResponse, hb, getExtension, hx, ok_bind, pure_eq_ok]
  | none =>
    have hslot : ∀ s, w.port.slots.response s = w.port.helper.response s := by
      intro s
      simp only [SCSlavePort.slots]
      split_ifs with h0
      · rw [hb, h0.1, (hp.system h0.2).2.2]
      · rfl
    cases hg : w.port.helper.getBlockingResponse with
    | none =>
      refine .inl ⟨by simp only [takeResponse, hb, hg, pure_eq_ok], fun s => ?_⟩
      rw [hslot, BlockingPacketHelper.getBlockingResponse_eq_none_iff.1 hg]
    | some t =>
      obtain ⟨i, hi, hfirst⟩ := BlockingPacketHelper.getBlockingResponse_first hg
      refine .inr ⟨i, t, (hslot i).trans hi, fun j hj => (hslot j).trans (hfirst j hj),
        fun x hx hxi => ?_⟩
      obtain ⟨h', hh'⟩ := BlockingPacketHelper.updateBlockingMap_total hp.covers
        (hw.known _ _ hx).1.le none .response
      refine ⟨{ w.port with helper := h' }, ?_, ?_⟩
      · simp only [takeResponse, hb, hg, getExtension, hx, ok_bind, hh', pure_eq_ok]
      · have hset := hp.updateBlockingMap hh' fun _ => rfl
        rw [hxi, if_neg] at hset
        · exact hset
        · rintro ⟨rfl, hc⟩
          rw [(hp.system hc).2.2] at hi
          cases hi

/-- In every state that a run comes to, the responses wait in their own slots. -/
theorem inOwnSlot_of_life (hw : w.Ok) (hl : Life (w.viewAt c)) : w.InOwnSlot := by
  intro s t hs
  obtain ⟨x, hc, rfl, -⟩ := hl.response s t hs
  exact ⟨List.mem_filterMap.2 ⟨_, List.mem_range.2 (hw.known _ _ hc.carried).1, hs⟩, x, hc.carried,
    rfl⟩

/-- The loop takes the first response, which leaves the others. -/
theorem takeResponse_blocked (hw : w.Ok) (ho : w.InOwnSlot) :
    (w.takeResponse = .ok none ∧ w.blocked = [] ∧ ∀ s, w.port.slots.response s = none) ∨
    ∃ t x p', (w.payloads t).extension = some x ∧
      w.takeResponse = .ok (some (t, x, { w with port := p' })) ∧
      SCSlavePort.Sets w.port p' (w.port.slots.put .response x.coreId none) ∧
      w.blocked = t :: ({ w with port := p' } : World).blocked := by
  obtain ⟨h, hn⟩ | ⟨i, t, hi, hfirst, htake⟩ := takeResponse_cases hw
  · exact .inl ⟨h, List.filterMap_eq_nil_iff.2 fun s _ => hn s, hn⟩
  · obtain ⟨hmem, x, hx, rfl⟩ := ho i t hi
    obtain ⟨p', htake, hset⟩ := htake x hx rfl
    refine .inr ⟨t, x, p', hx, htake, hset, ?_⟩
    have hlt : x.coreId < w.port.helper.socketNum := (hw.known _ _ hx).1
    unfold blocked
    rw [filterMap_range_of_first hlt hi hfirst, hset.setup.known, hset.slots]
    rfl

/-! ## A round -/

/-- What nested requests leave alone: payloads in use, the response slots, and what a drain
shows. -/
structure Frame (w w' : World) : Prop where
  setup : SCSlavePort.SameSetup w.port w'.port
  response : w'.port.slots.response = w.port.slots.response
  payloads : ∀ t, 0 < (w.payloads t).refCount → w'.payloads t = w.payloads t
  serial : w.serial ≤ w'.serial
  trace : ∃ l, w'.trace = l ++ w.trace ∧ ∀ n ≤ w.serial, ∀ o ∈ l, o.ofDrain n = false

theorem Frame.refl (w : World) : Frame w w :=
  ⟨⟨rfl, rfl, rfl, rfl, rfl⟩, rfl, fun _ _ => rfl, le_rfl, [], rfl, by simp⟩

theorem Frame.trans {w₁ w₂ w₃ : World} (h₁ : Frame w₁ w₂) (h₂ : Frame w₂ w₃) : Frame w₁ w₃ := by
  obtain ⟨l₁, hl₁, ho₁⟩ := h₁.trace
  obtain ⟨l₂, hl₂, ho₂⟩ := h₂.trace
  refine ⟨⟨h₂.setup.1.trans h₁.setup.1, h₂.setup.2.trans h₁.setup.2, h₂.setup.3.trans h₁.setup.3,
    h₂.setup.4.trans h₁.setup.4, h₂.setup.5.trans h₁.setup.5⟩, h₂.response.trans h₁.response,
    fun t ht => ?_, h₁.serial.trans h₂.serial, l₂ ++ l₁, by rw [hl₂, hl₁, List.append_assoc],
    fun n hn o ho => ?_⟩
  · have h := h₁.payloads t ht
    exact (h₂.payloads t (by rw [h]; exact ht)).trans h
  · obtain ho | ho := List.mem_append.1 ho
    · exact ho₂ n (hn.trans h₁.serial) o ho
    · exact ho₁ n hn o ho

/-- A request takes a payload that is not in use. -/
theorem Requested.frame (h : w.Requested w') (hp : Pool (w.viewAt c)) : Frame w w' := by
  obtain ⟨l, hl, ho⟩ := h.trace
  refine ⟨h.setup, h.response, fun t ht => h.payloads t ?_, h.serial, l, hl, fun n hn o hm => ?_⟩
  · exact hp.ne_next (v := w.viewAt c) ht
  · have := ho o hm
    cases o <;> simp_all [Obs.OfRequest, Obs.ofDrain]

/-- The requests that gem5 makes before it answers. -/
theorem gem5Requests_frame (hlife : ∀ w : World, At P v c w → Life (w.viewAt c)) (h : At P v c w)
    (hc : ∀ t x, c ≠ .entered t x) {rs : List Request} (hr : ∀ r ∈ rs, Makes P r)
    (hok : w.gem5Requests rs = .ok w') : Frame w w' := by
  induction rs generalizing w with
  | nil =>
    cases hok
    exact .refl _
  | cons r rs ih =>
    simp only [gem5Requests, bind_eq_ok] at hok
    obtain ⟨⟨b, w₁⟩, h₁, hok⟩ := hok
    have hat : At P v c w₁ := (gem5Request_ends h hc (hr r (by simp))).of_eq_ok h₁
    exact ((gem5Request_keeps h₁).frame (hlife w h).pool).trans
      (ih hat (fun r' hr' => hr r' (by simp [hr'])) hok)

theorem release_total (hmm : (w.payloads t).hasMm = true) (hr : 0 < (w.payloads t).refCount) :
    ∃ mm payloads, w.release t = .ok { w with mm, payloads } ∧
      ∀ t' ≠ t, payloads t' = w.payloads t' := by
  unfold release
  dsimp only
  rw [check_pos ⟨hmm, hr⟩, ok_bind]
  split_ifs
  · exact ⟨_, _, rfl, fun t' ht' => Function.update_of_ne ht' _ _⟩
  · exact ⟨_, _, rfl, fun t' ht' => Function.update_of_ne ht' _ _⟩

/-- END_RESP and the release of a transaction that is in use. -/
theorem sendEndResp_total (hw : w.Ok) (hx : x.coreId < w.sockets)
    (hr : 0 < (w.payloads t).refCount) :
    ∃ w', w.sendEndResp t x = .ok w' ∧ w'.port = w.port ∧
      (∀ t' ≠ t, w'.payloads t' = w.payloads t') ∧ w'.serial = w.serial ∧
      w'.trace = .release x.serial t ::
        .endResp x.serial t x.coreId (w.payloads t).address :: w.trace := by
  obtain ⟨tr, htr⟩ := hw.multi
  have hlt : x.coreId < tr.socketNum := by simpa [sockets, htr] using hx
  have hmm : (w.payloads t).hasMm = true := by
    refine hw.hasMm t (Nat.not_le.1 fun hle => ?_)
    rw [hw.fresh t hle] at hr
    cases hr
  obtain ⟨mm, payloads, hrel, hpl⟩ := release_total (w := (w.emit (.endResp x.serial t x.coreId
    (w.payloads t).address)).emit (.release x.serial t)) hmm hr
  refine ⟨{ (w.emit (.endResp x.serial t x.coreId (w.payloads t).address)).emit
    (.release x.serial t) with mm, payloads }, ?_, rfl, hpl, rfl, rfl⟩
  simp only [sendEndResp, nbTransportFw, hw.transactor, htr, check_pos hlt, ok_bind, pure_eq_ok]
  exact hrel

/-- The responses that wait after a call that does not touch them are the same, and will be sent
again in the same way. -/
theorem blocked_congr (hs : SCSlavePort.SameSetup w.port w'.port)
    (hr : w'.port.slots.response = w.port.slots.response) : w'.blocked = w.blocked := by
  unfold blocked
  rw [hs.known, hr]

theorem resent_congr (h : w'.payloads t = w.payloads t) : w'.resent t = w.resent t := by
  unfold resent
  rw [h]

section Rounds

variable (hlife : ∀ (c : Cur) (w : World), At P v c w → Life (w.viewAt c))

include hlife in
/-- One response is offered to gem5 again, which may make requests before it answers. -/
theorem resend_ends {w₁ : World} (h₁ : At P v (.taken t x) w₁) {a : RespAnswer}
    (hP : Resends P a.accept) (hr : ∀ r ∈ a.requests, Makes P r) :
    Ends (fun r => r.1 = a.accept ∧ At P v (.answered t x true a.accept) r.2 ∧
        Frame (w₁.emit (.resp x.serial x.packet a.accept)) r.2)
      (fun f => ∃ w : World, w.gem5Requests a.requests = .error f)
      (w₁.sendTimingResp x.serial x.packet a) := by
  have h₂ : At P v (.answered t x true a.accept)
      (w₁.emit (.resp x.serial x.packet a.accept)) :=
    h₁.move (h₁.ok.emit _) h₁.caughtUp (.resend rfl hP)
  unfold sendTimingResp
  cases hreq : (w₁.emit (.resp x.serial x.packet a.accept)).gem5Requests a.requests with
  | error f => exact ⟨_, hreq⟩
  | ok w₂ => exact ⟨rfl, (gem5Requests_ends h₂ (by simp) hr).of_eq_ok hreq,
      gem5Requests_frame (fun w => hlife _ w) h₂ (by simp) hr hreq⟩

include hlife in
/-- After gem5 has accepted it, END_RESP and the release follow, and the other responses are left
as they were. -/
theorem finish_round {w₁ w₂ : World} (h₁ : At P v (.taken t x) w₁)
    (h₂ : At P v (.answered t x true true) w₂)
    (hf : Frame (w₁.emit (.resp x.serial x.packet true)) w₂) :
    ∃ w₃, w₂.sendEndResp t x = .ok w₃ ∧ At P v .retrying w₃ ∧ w₃.blocked = w₁.blocked ∧
      (∀ t' ∈ w₁.blocked, w₃.payloads t' = w₁.payloads t') ∧ w₁.serial ≤ w₃.serial ∧
      ∃ l, w₃.trace = l ++ w₁.trace ∧ ∀ n ≤ w₁.serial, x.serial < n →
        l.reverse.filter (Obs.ofDrain n) = w₁.resent t := by
  have hl₁ := hlife _ _ h₁
  have hl₂ := hlife _ _ h₂
  have hin : InHand (w₁.viewAt (.taken t x)) t x := hl₁.cur
  have hin₂ : InHand (w₂.viewAt (.answered t x true true)) t x := hl₂.cur
  have hx : (w₁.payloads t).extension = some x := hin.carries.carried
  have hx₂ : (w₂.payloads t).extension = some x := hin₂.carries.carried
  have hpos : 0 < (w₁.payloads t).refCount := hl₁.pool.refs t x hx
  have hsock := (h₂.ok.known t x hx₂).2
  obtain ⟨w₃, hok, hport, hpl, hserial, htr⟩ :=
    sendEndResp_total h₂.ok hsock (hl₂.pool.refs t x hx₂)
  have h₃ : At P v .retrying w₃ := by
    have hs : x.coreId < v.sockets := by
      have : w₂.sockets = v.sockets := h₂.moves.static.2.2.1
      exact this ▸ hsock
    exact (sendEndResp_ends h₂ (.inr ⟨true, rfl⟩) hs).of_eq_ok hok
  have hb₂ : w₂.blocked = w₁.blocked := blocked_congr hf.setup hf.response
  obtain ⟨l, hl, ho⟩ := hf.trace
  have hserial₂ : w₁.serial ≤ w₂.serial := hf.serial
  refine ⟨w₃, hok, h₃, ?_, fun t' ht' => ?_, by omega, .release x.serial t ::
    .endResp x.serial t x.coreId (w₂.payloads t).address :: (l ++ [.resp x.serial x.packet true]),
    ?_, fun n hn hxn => ?_⟩
  · rw [← hb₂]
    unfold blocked
    rw [hport]
  · obtain ⟨s, -, hs⟩ := List.mem_filterMap.1 ht'
    obtain ⟨x', hc', -, -⟩ := hl₁.response s t' hs
    have hne : t' ≠ t := fun h => hin.free s (h ▸ hs)
    rw [hpl t' hne]
    exact hf.payloads t' (hl₁.pool.refs t' x' hc'.carried)
  · rw [htr, hl]
    simp [trace, emit]
  · have hnone : l.reverse.filter (Obs.ofDrain n) = [] :=
      List.filter_eq_nil_iff.2 fun o hm => by simp [ho n hn o (List.mem_reverse.1 hm)]
    have haddr : (w₂.payloads t).address = (w₁.payloads t).address :=
      congrArg Payload.address (hf.payloads t hpos)
    simp [resent, hx, Obs.ofDrain, hnone, hxn, haddr, List.filter_cons]

/-! ## The loop -/

/-- gem5 accepts what is sent again, for as long as something waits. -/
def Accepts (w : World) (answers : List RespAnswer) : Prop :=
  ∀ a ∈ answers.take w.blocked.length, a.accept = true

/-- The fault of a loop: of a request that gem5 makes, or because gem5 refuses a response. -/
def LoopFault (w : World) (answers : List RespAnswer) (f : Fault) : Prop :=
  Nested answers f ∨
    ¬ w.Accepts answers ∧ f = .scAssert "SCSlavePort::recvRespRetry" "!need_retry"

include hlife in
/-- With an answer for each waiting response, the loop drains them, unless gem5 refuses one. -/
theorem respRetryLoop_drains (h : At P v .retrying w) {answers : List RespAnswer}
    (hP : ∀ a ∈ answers, Resends P a.accept) (hr : ∀ a ∈ answers, ∀ r ∈ a.requests, Makes P r)
    (hlen : w.blocked.length ≤ answers.length) (hn : n ≤ w.serial)
    (hold : ∀ t ∈ w.blocked, ∀ x, (w.payloads t).extension = some x → x.serial < n) :
    Ends (fun w' => w.Accepts answers ∧ Drains n w w') (w.LoopFault answers)
      (w.respRetryLoop answers) := by
  induction answers generalizing w with
  | nil =>
    obtain ⟨htake, hb, hnone⟩ | ⟨t, x, p', -, -, -, hb⟩ :=
      takeResponse_blocked h.ok (inOwnSlot_of_life h.ok (hlife _ _ h))
    · simp only [respRetryLoop, htake, ok_bind]
      exact ⟨by simp [Accepts], hnone, [], rfl, by simp [hb]⟩
    · simp [hb] at hlen
  | cons a answers ih =>
    obtain ⟨htake, hb, hnone⟩ | ⟨t, x, p', hx, htake, hset, hb⟩ :=
      takeResponse_blocked h.ok (inOwnSlot_of_life h.ok (hlife _ _ h))
    · simp only [respRetryLoop, htake, ok_bind]
      exact ⟨by simp [Accepts, hb], hnone, [], rfl, by simp [hb]⟩
    simp only [respRetryLoop, htake, ok_bind]
    have h₁ : At P v (.taken t x) { w with port := p' } :=
      ((takeResponse_ends h).of_eq_ok htake _ rfl).1
    have hacc : w.Accepts (a :: answers) ↔ a.accept = true ∧
        ∀ a' ∈ answers.take ({ w with port := p' } : World).blocked.length, a'.accept = true := by
      unfold Accepts
      rw [hb, List.length_cons, List.take_succ_cons, List.forall_mem_cons]
    refine Ends.bind ((resend_ends hlife h₁ (hP a (by simp)) (hr a (by simp))).mono
      (fun _ _ h => h) fun f _ hf => .inl ⟨a, by simp, hf⟩) ?_
    rintro ⟨_, w₂⟩ - ⟨rfl, h₂, hf⟩
    refine Ends.check (fun hn => .inr ⟨fun hall => hn (hacc.1 hall).1, rfl⟩) fun ha => ?_
    change a.accept = true at ha
    dsimp only at h₂ hf ⊢
    rw [ha] at h₂ hf
    obtain ⟨w₃, hok, h₃, hb₃, hpl, hserial, l, hl, hfilter⟩ := finish_round hlife h₁ h₂ hf
    have hrest : ∀ t' ∈ w₃.blocked, t' ∈ w.blocked ∧ w₃.payloads t' = w.payloads t' := by
      intro t' ht'
      rw [hb₃] at ht'
      exact ⟨hb ▸ List.mem_cons_of_mem _ ht', hpl t' ht'⟩
    rw [hok, ok_bind]
    refine (ih h₃ (fun a' ha' => hP a' (by simp [ha'])) (fun a' ha' => hr a' (by simp [ha'])) ?_
      (hn.trans hserial) fun t' ht' x' hx' => ?_).mono ?_ ?_
    · rw [hb, List.length_cons] at hlen
      rw [hb₃]
      simpa using hlen
    · obtain ⟨hm, hp⟩ := hrest t' ht'
      exact hold t' hm x' (hp ▸ hx')
    · rintro w' - ⟨haccs, hnone, l', hl', hfilter'⟩
      unfold Accepts at haccs
      rw [hb₃] at haccs
      refine ⟨hacc.2 ⟨ha, haccs⟩, hnone, l' ++ l, ?_, ?_⟩
      · rw [hl', hl, List.append_assoc]
        rfl
      · rw [List.reverse_append, List.filter_append, hfilter n hn (hold t (by simp [hb]) x hx),
          hfilter', hb, List.flatMap_cons, hb₃]
        refine congrArg _ (List.flatMap_congr fun t' ht' => ?_)
        exact resent_congr (hrest t' (hb₃ ▸ ht')).2
    · rintro f - (⟨a', ha', hf⟩ | ⟨hna, rfl⟩)
      · exact .inl ⟨a', List.mem_cons_of_mem _ ha', hf⟩
      · refine .inr ⟨fun hall => hna ?_, rfl⟩
        unfold Accepts
        rw [hb₃]
        exact (hacc.1 hall).2

end Rounds

/-- A retry when a port has run. -/
theorem respRetry_ends {q : SCSlavePort} (hq : q.Bound)
    (h : PortRun (fun v a => RefsBalanced v a ∧ PhasesObeyed v a) q w) {answers : List RespAnswer}
    (hlen : w.blocked.length ≤ answers.length) :
    w.InOwnSlot ∧ Ends (fun w' => w.Accepts answers ∧ Drains w.serial w w') (w.LoopFault answers)
      (w.step (.recvRespRetry answers)) := by
  have hlife : ∀ c w', At (fun v a => RefsBalanced v a ∧ PhasesObeyed v a) w.view c w' →
      Life (w'.viewAt c) := fun c w' h' =>
    Moves.invariant h'.moves (h.invariant hq (fun _ hv => .of_initial hv) fun _ _ hi hm =>
      hi.step (fun _ _ h => h.1) (fun _ _ h => h.2) hm)
      fun _ _ hi hm => hi.step (fun _ _ h => h.1) (fun _ _ h => h.2) hm
  have hw : w.Ok := (h.moves hq).1
  have hidle : At (fun v a => RefsBalanced v a ∧ PhasesObeyed v a) w.view .idle w.catchup :=
    at_catchup hw
  have hat : At (fun v a => RefsBalanced v a ∧ PhasesObeyed v a) w.view .retrying
      (w.catchup.emit .respRetry) :=
    hidle.move (hidle.ok.emit _) rfl (.respRetry rfl)
  have hown : w.InOwnSlot := inOwnSlot_of_life (c := .idle) hw (hlife _ w.catchup hidle)
  refine ⟨hown, ?_⟩
  have hloop : w.step (.recvRespRetry answers) =
      (w.catchup.emit .respRetry).respRetryLoop answers := by
    simp only [step, recvRespRetry, caughtUp, catchup, check_pos, ok_bind]
  rw [hloop]
  refine (respRetryLoop_drains (n := w.serial) hlife hat ?_ ?_ hlen le_rfl ?_).mono ?_ ?_
  · exact fun a ha => ⟨w.view, answers, ⟨trivial, trivial⟩, a, ha, rfl⟩
  · exact fun a ha r hr => ⟨w.view, .recvRespRetry answers, ⟨trivial, trivial⟩,
      List.mem_flatMap.2 ⟨a, ha, hr⟩⟩
  · exact fun t _ x hx => (hlife .idle _ hidle).pool.serial t x hx
  · rintro w' - ⟨hacc, hnone, l, hl, hfilter⟩
    refine ⟨hacc, hnone, l ++ [.respRetry], ?_, ?_⟩
    · rw [hl]
      simp [trace, emit, catchup]
    · rw [List.reverse_append, List.filter_append, hfilter]
      rfl
  · exact fun f _ hf => hf

end World

/-! ## Draining -/

/-- **A retry drains the responses that wait**, each on its own socket, if gem5 accepts them:
unless a request that gem5 makes meanwhile faults, it returns. -/
theorem drains_of_run {q : SCSlavePort} {w : World} (hq : q.Bound)
    (h : PortRun (fun v a => RefsBalanced v a ∧ PhasesObeyed v a) q w) {answers : List RespAnswer}
    (hlen : w.blocked.length ≤ answers.length) (hacc : ∀ a ∈ answers, a.accept = true) :
    w.InOwnSlot ∧
      Ends (Drains w.serial w) (Nested answers) (w.step (.recvRespRetry answers)) := by
  obtain ⟨hown, hends⟩ := World.respRetry_ends hq h hlen
  refine ⟨hown, hends.mono (fun _ _ h => h.2) ?_⟩
  rintro f - (hf | ⟨hna, -⟩)
  · exact hf
  · exact absurd (fun a ha => hacc a (List.mem_of_mem_take ha)) hna

/-- gem5 has refused the responses of both sockets. -/
def refuseBoth : List Act :=
  [.recvTimingReq (readRequest 0), .recvTimingReq (secondReadRequest 1),
    .nbTransportBw 0 0 .beginResp 0, .nbTransportBw 1 1 .beginResp 1,
    .service { resp := { accept := false } }, .advance 1, .service { resp := { accept := false } }]

/-- Both are sent again. -/
theorem drains_twoBlocked : ∃ w w' : World, w.blocked = [0, 1] ∧
    w.step (.recvRespRetry [{}, {}]) = .ok w' ∧ Drains w.serial w w' := by
  obtain ⟨w, hr, hw⟩ := exists_portRun (q := twoSocketPort)
    (P := fun v a => RefsBalanced v a ∧ PhasesObeyed v a)
    (p := fun w => decide (w.blocked = [0, 1])) refuseBoth (by decide)
  have hb : w.blocked = [0, 1] := of_decide_eq_true hw
  have hlen : w.blocked.length ≤ [({} : RespAnswer), {}].length := by simp [hb]
  obtain ⟨-, hends⟩ := drains_of_run bound_twoSocketPort hr hlen (by simp)
  cases hs : w.step (.recvRespRetry [{}, {}]) with
  | ok w' => exact ⟨w, w', hb, hs, hends.of_eq_ok hs⟩
  | error f =>
    obtain ⟨a, ha, w₁, hw₁⟩ := hends.of_eq_error hs
    obtain rfl : a = {} := by simpa using ha
    cases hw₁

/-! ## A response that is refused again -/

/-- The retry returns, and a response that gem5 does not accept still waits in its slot. -/
def KeepsRefused (w : World) (answers : List RespAnswer) : Prop :=
  ∃ w' l, w.step (.recvRespRetry answers) = .ok w' ∧ w'.trace = l ++ w.trace ∧
    ∀ s t x, w.port.slots.response s = some t → (w.payloads t).extension = some x →
      .resp x.serial x.packet true ∉ l →
        w'.port.slots.response s = some t ∧ (w'.payloads t).extension = some x ∧
        ∀ o ∈ l, o ≠ .release x.serial t ∧ ∀ i a, o ≠ .endResp x.serial t i a

/-- Two or more responses wait. gem5 accepts the first, and refuses a later one. -/
structure RefusedLater (w : World) (a : RespAnswer) (answers : List RespAnswer) : Prop where
  waiting : 2 ≤ w.blocked.length
  answered : w.blocked.length ≤ (a :: answers).length
  first : a.accept = true
  later : ∃ b ∈ answers.take (w.blocked.length - 1), b.accept = false

/-- **A response is never refused twice**: the port asserts that gem5 accepts each response that
it sends again. -/
theorem not_keepsRefused_of_run {q : SCSlavePort} {w : World} (hq : q.Bound)
    (h : PortRun (fun v a => RefsBalanced v a ∧ PhasesObeyed v a) q w) {a : RespAnswer}
    {answers : List RespAnswer} (hr : RefusedLater w a answers) :
    ¬ KeepsRefused w (a :: answers) := by
  rintro ⟨w', l, hok, -, -⟩
  obtain ⟨hacc, -⟩ := (World.respRetry_ends hq h hr.answered).2.of_eq_ok hok
  obtain ⟨b, hb, hfalse⟩ := hr.later
  have hwaiting := hr.waiting
  obtain ⟨n, hn⟩ : ∃ n, w.blocked.length = n + 1 := ⟨w.blocked.length - 1, by omega⟩
  have hb' : b ∈ (a :: answers).take w.blocked.length := by
    rw [hn] at hb ⊢
    exact List.mem_cons_of_mem _ hb
  rw [hacc b hb'] at hfalse
  cases hfalse

/-- gem5 accepts the response of socket 0 and refuses that of socket 1. -/
theorem not_keepsRefused_twoBlocked : ∃ w : World,
    RefusedLater w {} [{ accept := false }] ∧ ¬ KeepsRefused w [{}, { accept := false }] := by
  obtain ⟨w, hr, hw⟩ := exists_portRun (q := twoSocketPort)
    (P := fun v a => RefsBalanced v a ∧ PhasesObeyed v a)
    (p := fun w => decide (w.blocked = [0, 1])) refuseBoth (by decide)
  have hb : w.blocked = [0, 1] := of_decide_eq_true hw
  have hl : RefusedLater w {} [{ accept := false }] :=
    ⟨by simp [hb], by simp [hb], rfl, by simp [hb]⟩
  exact ⟨w, hl, not_keepsRefused_of_run bound_twoSocketPort hr hl⟩

/-- The assertion fails on the second response. -/
theorem not_keepsRefused : ¬ ∀ (q : SCSlavePort) (w : World) (a : RespAnswer)
    (answers : List RespAnswer), q.Bound →
    PortRun (fun v a => RefsBalanced v a ∧ PhasesObeyed v a) q w → RefusedLater w a answers →
    KeepsRefused w (a :: answers) := by
  intro h
  obtain ⟨w, hr, hw⟩ := exists_portRun (q := twoSocketPort)
    (P := fun v a => RefsBalanced v a ∧ PhasesObeyed v a)
    (p := fun w => decide (w.blocked = [0, 1] ∧ w.fault (.recvRespRetry [{}, { accept := false }]) =
      some (.scAssert "SCSlavePort::recvRespRetry" "!need_retry"))) refuseBoth (by decide)
  obtain ⟨hb, hf⟩ := of_decide_eq_true hw
  obtain ⟨w', l, hok, -, -⟩ := h _ w {} [{ accept := false }] bound_twoSocketPort hr
    ⟨by simp [hb], by simp [hb], rfl, by simp [hb]⟩
  rw [World.fault, hok] at hf
  cases hf

end Gem5Wrapper
