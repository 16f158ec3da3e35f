import Gem5Wrapper.Access
import Gem5Wrapper.Refinement

/-!
# What a request changes

Facts about calls that return, for a caller that looks at a part of the world only: the socket and
the observations of a BEGIN_REQ, and what the requests that gem5 makes leave alone.
-/

namespace Gem5Wrapper

open FaultMachine

/-- The observations of a request that becomes transaction `n`, or is refused. -/
def Obs.OfRequest (n : ℕ) : Obs → Prop
  | .refused _ => True
  | .allocate k .. | .beginReq k .. | .release k _ => k = n
  | _ => False

namespace World

variable {w w' : World} {packet : PacketPtr} {s : ℕ} {t : Ptr}

/-! ## BEGIN_REQ -/

theorem prepare_port (h : w.prepare packet s = .ok (t, w')) :
    w'.port = w.port ∧ w'.log = w.log ∧ w'.serial = w.serial + 1 ∧
      (w'.payloads t).extension = some ⟨packet, s, w.serial⟩ := by
  have ha : w.allocate.2.port = w.port ∧ w.allocate.2.log = w.log ∧
      w.allocate.2.serial = w.serial := by
    unfold allocate
    dsimp only
    split_ifs <;> exact ⟨rfl, rfl, rfl⟩
  simp only [prepare, acquire, packet2payload, bind_eq_ok, check_eq_ok,
    pure_eq_ok, Except.ok.injEq, Prod.mk.injEq] at h
  obtain ⟨_, ⟨-, -, rfl⟩, w₂, ⟨-, -, h₂⟩, rfl, rfl⟩ := h
  split_ifs at h₂ <;> cases h₂ <;>
    exact ⟨ha.1, ha.2.1, congrArg (· + 1) ha.2.2, by simp [attach, setPayload, ha.2.2]⟩

theorem nbTransportFw_eq (w : World) (s : ℕ) (o : ℕ → Obs) :
    w.nbTransportFw s o = (do let s ← w.socket s; pure (w.emit (o s))) := by
  unfold nbTransportFw socket
  cases w.port.transactor with
  | some _ => rfl
  | none =>
    cases w.port.transactorMulti with
    | some tr => simp only [bind_assoc, pure_bind]
    | none => rfl

/-- A single-socket transactor has socket 0 only. -/
theorem socket_ok {c s : ℕ} (h : w.socket c = .ok s) :
    s = if w.port.transactor.isSome then 0 else c := by
  unfold socket at h
  cases ht : w.port.transactor with
  | some _ => simpa [ht] using h.symm
  | none =>
    cases hm : w.port.transactorMulti with
    | some tr =>
      simp only [ht, hm, bind_eq_ok, check_eq_ok, pure_eq_ok, Except.ok.injEq] at h
      obtain ⟨-, -, rfl⟩ := h
      rfl
    | none =>
      simp only [ht, hm] at h
      cases h

theorem socket_congr (h : w'.port = w.port) (s : ℕ) : w'.socket s = w.socket s := by
  simp only [socket, h]

/-- What `recvTimingReq` does with the answer to BEGIN_REQ shows only in a release. -/
theorem handleReply_trace {k : ℕ} {reply : Reply} (h : w.handleReply t s k reply = .ok w') :
    ∃ l, w'.trace = l ++ w.trace ∧ ∀ o ∈ l, o = .release k t := by
  unfold handleReply at h
  split at h
  · simp only [bind_eq_ok, check_eq_ok] at h
    obtain ⟨-, -, h⟩ := h
    split_ifs at h
    · cases h
      exact ⟨[], rfl, by simp⟩
    · simp only [bind_eq_ok, pure_eq_ok, Except.ok.injEq] at h
      obtain ⟨_, -, rfl⟩ := h
      exact ⟨[], rfl, by simp⟩
  · simp only [bind_eq_ok, check_eq_ok, pure_eq_ok, Except.ok.injEq] at h
    obtain ⟨-, -, rfl⟩ := h
    exact ⟨[], rfl, by simp⟩
  · simp only [release, bind_eq_ok, check_eq_ok] at h
    obtain ⟨-, -, -, -, h⟩ := h
    split_ifs at h <;> cases h <;> exact ⟨[.release k t], rfl, by simp⟩

/-- What a timing request shows: the allocation of its payload, BEGIN_REQ, and a release if the
target completes it. -/
theorem sendBeginReq_trace {reply : Reply} (h : w.sendBeginReq packet s reply = .ok w') :
    ∃ t a d s' l, w.socket s = .ok s' ∧ (∀ o ∈ l, o = .release w.serial t) ∧
      w'.trace = l ++ .beginReq w.serial t s' a d reply ::
        .allocate w.serial w.allocate.1 packet (w.packets packet).cmd.needsResponse :: w.trace := by
  rw [sendBeginReq_eq] at h
  simp only [bind_eq_ok, nbTransportFw_eq, pure_eq_ok, Except.ok.injEq] at h
  obtain ⟨⟨t, w₁⟩, hp, w₂, ⟨s', hs, rfl⟩, h⟩ := h
  obtain ⟨hport, hlog, -⟩ := prepare_port hp
  have hs' : w.socket s = .ok s' := by
    rw [← hs]
    exact (socket_congr hport s).symm
  have htr : w₁.trace = .allocate w.serial w.allocate.1 packet
      (w.packets packet).cmd.needsResponse :: w.trace := by
    rw [trace, hlog]
    rfl
  obtain ⟨l, hl, hrel⟩ := handleReply_trace h
  exact ⟨t, _, _, s', l, hs', hrel, hl.trans (congrArg (l ++ _ :: ·) htr)⟩

/-- A timing request that the port accepts is sent on. -/
theorem sendBeginReq_of_accepted {reply : Reply}
    (h : w.recvTimingReq packet reply = .ok (true, w')) :
    w.sendBeginReq packet (w.port.targetSocket (w.packets packet)) reply = .ok w' := by
  simp only [recvTimingReq, bind_eq_ok, check_eq_ok] at h
  obtain ⟨-, -, -, -, -, -, -, -, h⟩ := h
  split_ifs at h
  · cases h
  · simp only [bind_eq_ok] at h
    obtain ⟨blocked, -, h⟩ := h
    split_ifs at h
    · simp only [bind_eq_ok, pure_eq_ok, Except.ok.injEq, Prod.mk.injEq, Bool.false_eq_true,
        false_and, and_false, exists_false] at h
    · simp only [bind_eq_ok, pure_eq_ok, Except.ok.injEq, Prod.mk.injEq, true_and] at h
      obtain ⟨_, h, rfl⟩ := h
      exact h

/-! ## What a request leaves alone -/

/-- A request does not touch the response slots, nor any payload but the one it takes from the
pool. -/
structure Requested (w w' : World) : Prop where
  setup : SCSlavePort.SameSetup w.port w'.port
  response : w'.port.slots.response = w.port.slots.response
  payloads : ∀ t ≠ w.mm.allocate.1, w'.payloads t = w.payloads t
  serial : w.serial ≤ w'.serial
  trace : ∃ l, w'.trace = l ++ w.trace ∧ ∀ o ∈ l, o.OfRequest w.serial

theorem prepare_payloads (h : w.prepare packet s = .ok (t, w')) :
    t = w.mm.allocate.1 ∧ ∀ t' ≠ t, w'.payloads t' = w.payloads t' := by
  have ha : ∀ t' ≠ w.mm.allocate.1, w.allocate.2.payloads t' = w.payloads t' := by
    intro t' ht'
    unfold allocate
    dsimp only
    split_ifs <;> simp [setPayload, ht']
  simp only [prepare, acquire, packet2payload, bind_eq_ok, check_eq_ok, pure_eq_ok,
    Except.ok.injEq, Prod.mk.injEq] at h
  obtain ⟨_, ⟨-, -, rfl⟩, w₂, ⟨-, -, h₂⟩, rfl, rfl⟩ := h
  refine ⟨rfl, fun t' ht' => ?_⟩
  split_ifs at h₂ <;> cases h₂ <;> simp [attach, setPayload, ht', ha t' ht']

theorem handleReply_keeps {k : ℕ} {reply : Reply} (h : w.handleReply t s k reply = .ok w') :
    SCSlavePort.SameSetup w.port w'.port ∧ w'.port.slots.response = w.port.slots.response ∧
      (∀ t' ≠ t, w'.payloads t' = w.payloads t') ∧ w'.serial = w.serial := by
  unfold handleReply at h
  split at h
  · simp only [bind_eq_ok, check_eq_ok] at h
    obtain ⟨-, -, h⟩ := h
    split_ifs at h
    · cases h
      exact ⟨⟨rfl, rfl, rfl, rfl, rfl⟩, rfl, fun _ _ => rfl, rfl⟩
    · simp only [bind_eq_ok, pure_eq_ok, Except.ok.injEq] at h
      obtain ⟨hlp, hu, rfl⟩ := h
      have hf := BlockingPacketHelper.updateBlockingMap_frame hu
      obtain ⟨-, -, hother, -, -⟩ := BlockingPacketHelper.updateBlockingMap_ok hu
      have hresp : hlp.response = w.port.helper.response := hother .response (by simp)
      refine ⟨⟨rfl, rfl, rfl, hf.socketNum, rfl⟩, ?_, fun _ _ => rfl, rfl⟩
      simp only [SCSlavePort.slots, hresp]
  · simp only [bind_eq_ok, check_eq_ok, pure_eq_ok, Except.ok.injEq] at h
    obtain ⟨-, -, rfl⟩ := h
    exact ⟨⟨rfl, rfl, rfl, rfl, rfl⟩, rfl, fun _ _ => rfl, rfl⟩
  · simp only [release, bind_eq_ok, check_eq_ok] at h
    obtain ⟨-, -, -, -, h⟩ := h
    split_ifs at h <;> cases h <;>
      exact ⟨⟨rfl, rfl, rfl, rfl, rfl⟩, rfl, fun t' ht' => by simp [setPayload, emit, ht'], rfl⟩

theorem sendBeginReq_keeps {reply : Reply} (h : w.sendBeginReq packet s reply = .ok w') :
    w.Requested w' := by
  obtain ⟨t, a, d, s', l, -, hl, htr⟩ := sendBeginReq_trace h
  have htrace : ∃ l, w'.trace = l ++ w.trace ∧ ∀ o ∈ l, o.OfRequest w.serial := by
    refine ⟨l ++ [.beginReq w.serial t s' a d reply, .allocate w.serial w.allocate.1 packet
      (w.packets packet).cmd.needsResponse], by simp [htr], fun o ho => ?_⟩
    simp only [List.mem_append, List.mem_cons, List.not_mem_nil, or_false] at ho
    obtain ho | rfl | rfl := ho
    · rw [hl o ho]
      rfl
    · rfl
    · rfl
  rw [sendBeginReq_eq] at h
  simp only [bind_eq_ok, nbTransportFw_eq, pure_eq_ok, Except.ok.injEq] at h
  obtain ⟨⟨t, w₁⟩, hp, _, ⟨s', -, rfl⟩, h⟩ := h
  obtain ⟨hport, -, hserial, -⟩ := prepare_port hp
  obtain ⟨ht, hpl⟩ := prepare_payloads hp
  obtain ⟨hsetup, hresp, hpl', hserial'⟩ := handleReply_keeps h
  have hport : w₁.port = w.port := hport
  have hserial : w₁.serial = w.serial + 1 := hserial
  have ht : t = w.mm.allocate.1 := ht
  refine ⟨hport ▸ hsetup, hresp.trans (congrArg (·.slots.response) hport), fun t' ht' => ?_, ?_,
    htrace⟩
  · rw [← ht] at ht'
    exact (hpl' t' ht').trans (hpl t' ht')
  · have := hserial'.trans hserial
    omega

/-- The port refuses a packet and owes a retry, or it sends BEGIN_REQ and accepts the packet. -/
theorem recvTimingReq_cases {reply : Reply} {b : Bool}
    (h : w.recvTimingReq packet reply = .ok (b, w')) :
    (∃ k port, SCSlavePort.SameSetup w.port port ∧
      port.slots.response = w.port.slots.response ∧
      b = false ∧ w' = { w.emit (.refused k) with port := port }) ∨
    ∃ s, b = true ∧ w.sendBeginReq packet s reply = .ok w' := by
  simp only [recvTimingReq, bind_eq_ok, check_eq_ok] at h
  obtain ⟨-, -, -, -, -, -, -, -, h⟩ := h
  split_ifs at h
  · cases h
    refine .inl ⟨_, _, ?_, ?_, rfl, rfl⟩
    · exact ⟨rfl, rfl, rfl, rfl, rfl⟩
    · rfl
  · obtain ⟨blocked, -, h⟩ := bind_eq_ok.1 h
    split_ifs at h
    · obtain ⟨hlp, hu, h⟩ := bind_eq_ok.1 h
      cases h
      have hf := BlockingPacketHelper.updateRetryMap_frame hu
      simp only [BlockingPacketHelper.updateRetryMap, bind_eq_ok, check_eq_ok, pure_eq_ok,
        Except.ok.injEq] at hu
      obtain ⟨-, -, rfl⟩ := hu
      refine .inl ⟨_, _, ?_, ?_, rfl, rfl⟩
      · exact ⟨rfl, rfl, rfl, hf.socketNum, rfl⟩
      · rfl
    · obtain ⟨_, h, hw⟩ := bind_eq_ok.1 h
      cases hw
      exact .inr ⟨_, rfl, h⟩

/-- A request that gem5 makes. -/
theorem gem5Request_keeps {r : Request} {b : Bool} (h : w.gem5Request r = .ok (b, w')) :
    w.Requested w' := by
  obtain ⟨-, -, h⟩ := bind_eq_ok.1 h
  obtain ⟨-, -, h⟩ := bind_eq_ok.1 h
  obtain ⟨k, port, hsetup, hresp, -, rfl⟩ | ⟨s, -, h⟩ := recvTimingReq_cases h
  · exact ⟨hsetup, hresp, fun _ _ => rfl, le_rfl, [_], rfl, by simp [Obs.OfRequest]⟩
  · obtain ⟨h₁, h₂, h₃, h₄, h₅⟩ := sendBeginReq_keeps h
    exact ⟨h₁, h₂, h₃, h₄, h₅⟩

end World

end Gem5Wrapper
