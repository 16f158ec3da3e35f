import Gem5Wrapper.PipeThrough
import Gem5Wrapper.Refinement

/-!
# What the functions of a slave port change

For the calls that return: which parts of the world they write, and what becomes of the response
slots and of the references to the payloads. Nothing but the port itself need be in order.
-/

namespace Gem5Wrapper

open FaultMachine
open Function (update)

namespace World

variable {w w' : World} {t : Ptr} {e : Gem5Extension}

theorem acquire_eq_ok (h : w.acquire t = .ok w') :
    ∃ payloads, w' = { w with payloads } ∧ w'.view = w.view.addRef t := by
  simp only [acquire, bind_eq_ok, check_eq_ok, pure_eq_ok, Except.ok.injEq] at h
  obtain ⟨-, -, rfl⟩ := h
  refine ⟨_, rfl, ?_⟩
  simp only [view, viewAt, setPayload, View.addRef, View.mk.injEq, true_and, and_true]
  refine ⟨?_, ?_, ?_⟩ <;> funext t' <;> by_cases ht : t' = t <;> simp [ht]

/-- A release of payload `t`, which may give it back to the pool. -/
structure Drops (w w' : World) (t : Ptr) : Prop where
  pos : 0 < (w.payloads t).refCount
  refs : w'.view.refs = (w.view.dropRef t).refs
  carried : w'.view.carried = (w.view.dropRef t).carried
  pool : w'.view.pool = (w.view.dropRef t).pool
  serial : w'.serial = w.serial

theorem release_eq_ok (h : w.release t = .ok w') :
    ∃ mm payloads, w' = { w with mm, payloads } ∧ w.Drops w' t := by
  simp only [release, bind_eq_ok, check_eq_ok] at h
  obtain ⟨-, ⟨-, hpos⟩, h⟩ := h
  have hiff : (w.payloads t).refCount - 1 = 0 ↔ (w.payloads t).refCount = 1 := by omega
  simp only [hiff] at h
  split_ifs at h with h1
  · obtain rfl := Except.ok.inj h
    refine ⟨_, _, rfl, hpos, ?_, ?_, ?_, rfl⟩
    · funext t'
      by_cases ht' : t' = t <;> simp [view, viewAt, setPayload, Payload.reset, ht', h1]
    · funext t'
      by_cases ht' : t' = t <;> simp [view, viewAt, setPayload, Payload.reset, ht', h1]
    · simp [view, viewAt, h1]
  · obtain rfl := Except.ok.inj h
    refine ⟨_, _, rfl, hpos, ?_, ?_, ?_, rfl⟩
    · funext t'
      by_cases ht' : t' = t <;> simp [view, viewAt, setPayload, ht']
    · funext t'
      by_cases ht' : t' = t
      · subst ht'
        simp [view, viewAt, setPayload, h1]
      · simp [view, viewAt, setPayload, ht', h1]
    · simp [view, viewAt, h1, setPayload]

theorem release_eq_error {f : Fault} (h : w.release t = .error f) :
    f = .scAssert "tlm_generic_payload::release" "m_mm != 0 && m_ref_count > 0" := by
  simp only [release, bind_eq_error, check_eq_error, check_eq_ok] at h
  obtain ⟨-, rfl⟩ | ⟨-, -, h⟩ := h
  · rfl
  · split_ifs at h <;> cases h

theorem nbTransportFw_eq_ok {s : ℕ} {o : ℕ → Obs} (h : w.nbTransportFw s o = .ok w') :
    ∃ log, w' = { w with log } := by
  unfold nbTransportFw at h
  split at h
  · exact ⟨_, (Except.ok.inj h).symm⟩
  · simp only [bind_eq_ok, pure_eq_ok, Except.ok.injEq] at h
    obtain ⟨-, -, rfl⟩ := h
    exact ⟨_, rfl⟩
  · cases h

theorem sendEndResp_eq_ok (h : w.sendEndResp t e = .ok w') :
    ∃ mm payloads log, w' = { w with mm, payloads, log } ∧ w.Drops w' t := by
  simp only [sendEndResp, bind_eq_ok] at h
  obtain ⟨w₁, h₁, h⟩ := h
  obtain ⟨log, rfl⟩ := nbTransportFw_eq_ok h₁
  obtain ⟨mm, payloads, rfl, hd⟩ := release_eq_ok h
  exact ⟨_, _, _, rfl, hd.pos, hd.refs, hd.carried, hd.pool, hd.serial⟩

/-- `handleReply` for a component that passes BEGIN_REQ on. -/
theorem handleReply_eq_ok {s k : ℕ} {reply : Reply} (hp : w.port.Ok)
    (hr : Chain.PassesOn reply) (h : w.handleReply t s k reply = .ok w') :
    ∃ port events, w' = { w with port, events } ∧ port.Ok ∧
      port.slots.response = w.port.slots.response ∧
      (events = w.events ∨ ∃ d, events = TimedQueue.insert PayloadEvent.tick
        ⟨t, .endReq, d, k⟩ w.events) := by
  unfold handleReply at h
  obtain ⟨hs, hph⟩ | ⟨hs, hph⟩ := hr <;> simp only [hs, hph] at h
  · simp only [bind_eq_ok, check_eq_ok] at h
    obtain ⟨-, -, h⟩ := h
    split_ifs at h with hsys
    · obtain rfl := Except.ok.inj h
      have hset := hp.setBlockingRequest hsys.2 (some t)
      exact ⟨_, _, rfl, hset.ok, by rw [hset.slots]; rfl, .inl rfl⟩
    · simp only [bind_eq_ok, pure_eq_ok, Except.ok.injEq] at h
      obtain ⟨hlp, hu, rfl⟩ := h
      have hset := hp.updateBlockingMap hu fun hn => absurd hn hsys
      refine ⟨_, _, rfl, hset.ok, ?_, .inl rfl⟩
      rw [hset.slots, if_neg hsys]
      rfl
  · simp only [bind_eq_ok, check_eq_ok, pure_eq_ok, Except.ok.injEq] at h
    obtain ⟨-, -, rfl⟩ := h
    exact ⟨_, _, rfl, hp, rfl, .inr ⟨_, rfl⟩⟩

theorem allocate_eq (w : World) : ∃ pl : Payload, w.allocate = (w.mm.allocate.1, { w with
      mm := w.mm.allocate.2, payloads := update w.payloads w.mm.allocate.1 pl }) ∧
    (pl.refCount = (w.payloads w.mm.allocate.1).refCount ∨ pl.refCount = 0) := by
  unfold allocate
  dsimp only
  split_ifs
  · exact ⟨_, rfl, .inr rfl⟩
  · exact ⟨w.payloads w.mm.allocate.1, by rw [Function.update_eq_self], .inl rfl⟩

theorem packet2payload_eq_ok {p : PacketPtr} (h : w.packet2payload p t = .ok w') :
    ∃ pl : Payload, w' = w.setPayload t pl ∧ pl.refCount = (w.payloads t).refCount := by
  simp only [packet2payload, bind_eq_ok, check_eq_ok] at h
  obtain ⟨-, -, h⟩ := h
  split_ifs at h <;> exact ⟨_, (Except.ok.inj h).symm, rfl⟩

/-- BEGIN_REQ takes a payload from the pool, which gets an extension for packet `p`. -/
structure Sends (w w' : World) (p : PacketPtr) (s : ℕ) : Prop where
  port : w'.port.Ok
  response : w'.port.slots.response = w.port.slots.response
  events : w'.events = w.events ∨ ∃ d, w'.events = TimedQueue.insert PayloadEvent.tick
    ⟨w.mm.allocate.1, .endReq, d, w.serial⟩ w.events
  mm : w'.mm = w.mm.allocate.2
  payloads : ∃ pl : Payload, w'.payloads = update w.payloads w.mm.allocate.1 pl ∧
    pl.extension = some ⟨p, s, w.serial⟩ ∧ pl.refCount = 1
  packets : ∀ q, (w'.packets q).cmd = (w.packets q).cmd
  serial : w'.serial = w.serial + 1

theorem sendBeginReq_eq_ok {p : PacketPtr} {s : ℕ} {reply : Reply} (hp : w.port.Ok)
    (hr : Chain.PassesOn reply) (hz : (w.payloads w.mm.allocate.1).refCount = 0)
    (h : w.sendBeginReq p s reply = .ok w') : w.Sends w' p s := by
  obtain ⟨pl, ha, hpl⟩ := w.allocate_eq
  simp only [sendBeginReq, bind_eq_ok, ha] at h
  obtain ⟨w₁, h₁, w₂, h₂, w₃, h₃, h⟩ := h
  simp only [acquire, bind_eq_ok, check_eq_ok, pure_eq_ok, Except.ok.injEq] at h₁
  obtain ⟨-, -, rfl⟩ := h₁
  obtain ⟨pl₂, rfl, hc⟩ := packet2payload_eq_ok h₂
  obtain ⟨log, rfl⟩ := nbTransportFw_eq_ok h₃
  obtain ⟨port, events, rfl, hok, hresp, hev⟩ := handleReply_eq_ok (by exact hp) hr h
  refine ⟨hok, hresp, hev, rfl, ⟨{ pl₂ with extension := some ⟨p, s, w.serial⟩ }, ?_, rfl, ?_⟩, ?_,
    rfl⟩
  · simp only [attach, setPayload, setPacket, emit, Function.update_idem, Function.update_self]
  · have hz' : pl.refCount = 0 := hpl.elim (fun h => h.trans hz) id
    simpa [setPayload, emit, hz'] using hc
  · intro q
    by_cases hq : q = p <;> simp [attach, setPayload, setPacket, emit, hq]

/-- With gem5 caches, the helper does not block the requests of socket 0. -/
theorem not_system_of_blocked {port : SCSlavePort} {s : ℕ} (hp : port.Ok)
    (h : port.helper.isBlockedPort s .request = .ok true) :
    ¬ (s = 0 ∧ port.usingGem5Cache = true) := by
  rintro ⟨rfl, hc⟩
  simp only [BlockingPacketHelper.isBlockedPort, hp.unblocked, Bool.false_eq_true, if_false,
    bind_eq_ok, pure_eq_ok, Except.ok.injEq] at h
  obtain ⟨t, ht, hsome⟩ := h
  obtain ⟨-, rfl⟩ := BlockingPacketHelper.getBlockingTrans_ok ht
  simp [BlockingPacketHelper.blocking, (hp.system hc).1] at hsome

theorem not_system_of_owed {port : SCSlavePort} {s : ℕ} (hp : port.Ok)
    (h : port.helper.needToSendRequestRetry s = .ok true) :
    ¬ (s = 0 ∧ port.usingGem5Cache = true) := by
  rintro ⟨rfl, hc⟩
  have hlt : 0 < port.helper.socketNum := by
    simp only [BlockingPacketHelper.needToSendRequestRetry, bind_eq_ok, check_eq_ok] at h
    exact h.choose_spec.1
  rw [BlockingPacketHelper.needToSendRequestRetry_eq hp.covers hlt, (hp.system hc).2.1] at h
  cases h

/-- A request is refused, which shows in the request slots only, or it is sent on. -/
theorem recvTimingReq_eq_ok {p : PacketPtr} {reply : Reply} {b : Bool} (hp : w.port.Ok)
    (h : w.recvTimingReq p reply = .ok (b, w')) :
    (b = false ∧ ∃ port log, w' = { w with port, log } ∧ port.Ok ∧
      port.slots.response = w.port.slots.response) ∨
    (b = true ∧ w.sendBeginReq p (w.port.targetSocket (w.packets p)) reply = .ok w') := by
  simp only [recvTimingReq, bind_eq_ok, check_eq_ok] at h
  obtain ⟨-, -, -, -, -, -, -, -, h⟩ := h
  split_ifs at h with hsys
  · cases h
    have hset := hp.setNeedToSendRequestRetry hsys.2 true
    exact .inl ⟨rfl, _, _, rfl, hset.ok, by rw [hset.slots]⟩
  · simp only [bind_eq_ok] at h
    obtain ⟨blocked, hb, h⟩ := h
    split_ifs at h with hblocked
    · simp only [bind_eq_ok, pure_eq_ok, Except.ok.injEq, Prod.mk.injEq] at h
      obtain ⟨hlp, hu, rfl, rfl⟩ := h
      have hset := hp.updateRetryMap hu (not_system_of_blocked hp (hblocked ▸ hb))
      exact .inl ⟨rfl, _, _, rfl, hset.ok, by rw [hset.slots]⟩
    · simp only [bind_eq_ok, pure_eq_ok, Except.ok.injEq, Prod.mk.injEq] at h
      obtain ⟨_, h, rfl, rfl⟩ := h
      exact .inr ⟨rfl, h⟩

/-- The end of a request phase shows in the request slots only. -/
theorem pecRequest_eq_ok {e : PayloadEvent} (hp : w.port.Ok) (h : w.pecRequest e [] = .ok w') :
    ∃ port log, w' = { w with port, log } ∧ port.Ok ∧
      port.slots.response = w.port.slots.response := by
  unfold pecRequest at h
  dsimp only at h
  split_ifs at h with hcond hsys
  · -- the slot of the system port
    have hset := hp.setBlockingRequest hsys.2 none
    have hset' := hset.ok.setNeedToSendRequestRetry hsys.2 false
    obtain rfl := Except.ok.inj h
    exact ⟨_, _, rfl, hset'.ok, by rw [hset'.slots, hset.slots]; rfl⟩
  · have hset := hp.setBlockingRequest hsys.2 none
    obtain rfl := Except.ok.inj h
    exact ⟨_, w.log, rfl, hset.ok, by rw [hset.slots]; rfl⟩
  · -- the slot of a socket
    simp only [bind_eq_ok, check_eq_ok] at h
    obtain ⟨-, -, x, -, hlp, hu, b, hb, h⟩ := h
    have hset := hp.updateBlockingMap hu fun _ => rfl
    have hresp : ({ w.port with helper := hlp } : SCSlavePort).slots.response =
        w.port.slots.response := by
      rw [hset.slots]
      split_ifs <;> rfl
    split_ifs at h with hretry
    · simp only [bind_eq_ok] at h
      obtain ⟨hlp', hu', h⟩ := h
      have hset' := hset.ok.updateRetryMap hu' (not_system_of_owed hset.ok (hretry ▸ hb))
      obtain rfl := Except.ok.inj h
      exact ⟨_, _, rfl, hset'.ok, by rw [hset'.slots]; exact hresp⟩
    · obtain rfl := Except.ok.inj h
      exact ⟨_, w.log, rfl, hset.ok, hresp⟩
  · cases h
    exact ⟨_, w.log, rfl, hp, rfl⟩

theorem extension_of_getExtension (h : w.getExtension t = .ok e) :
    (w.payloads t).extension = some e := by
  unfold getExtension at h
  split at h
  · rename_i x hx
    rw [hx, Except.ok.inj h]
  · cases h

/-- A response is taken out of its slot. -/
theorem takeResponse_eq_ok (hp : w.port.Ok) (h : w.takeResponse = .ok (some (t, e, w'))) :
    ∃ i port, w' = { w with port } ∧ w.port.slots.response i = some t ∧
      (w.payloads t).extension = some e ∧ (e.coreId = i → port.Ok ∧
        port.slots.response = update w.port.slots.response i none) := by
  unfold takeResponse at h
  split at h
  · rename_i t' hb
    simp only [bind_eq_ok, pure_eq_ok, Except.ok.injEq, Option.some.injEq, Prod.mk.injEq] at h
    obtain ⟨x, hx, rfl, rfl, rfl⟩ := h
    have hcache : w.port.usingGem5Cache = true := by
      by_contra hc
      rw [(hp.noCache (by simpa using hc)).2.2] at hb
      cases hb
    have hset := hp.setBlockingResponse hcache none
    refine ⟨0, _, rfl, by simp [SCSlavePort.slots, hcache, hb], extension_of_getExtension hx,
      fun _ => ⟨hset.ok, by rw [hset.slots]; rfl⟩⟩
  · rename_i t' hb hg
    simp only [bind_eq_ok, pure_eq_ok, Except.ok.injEq, Option.some.injEq, Prod.mk.injEq] at h
    obtain ⟨x, hx, hlp, hu, rfl, rfl, rfl⟩ := h
    obtain ⟨i, hi⟩ := BlockingPacketHelper.exists_response_of_getBlockingResponse hg
    have hsys : ¬ (i = 0 ∧ w.port.usingGem5Cache = true) := by
      rintro ⟨rfl, hc⟩
      rw [(hp.system hc).2.2] at hi
      cases hi
    refine ⟨i, _, rfl, by simp [SCSlavePort.slots, hsys, hi], extension_of_getExtension hx,
      fun hxi => ?_⟩
    have hset := hp.updateBlockingMap hu fun _ => rfl
    rw [hxi, if_neg hsys] at hset
    exact ⟨hset.ok, by rw [hset.slots]; rfl⟩
  · cases h

/-- A refused response goes to its slot. -/
theorem blockResponse_eq_ok {s : ℕ} (hp : w.port.Ok) (h : w.blockResponse t s = .ok w') :
    ∃ port, w' = { w with port } ∧ port.Ok ∧
      port.slots.response = update w.port.slots.response s (some t) := by
  unfold blockResponse at h
  split_ifs at h with hsys
  · obtain rfl := Except.ok.inj h
    have hset := hp.setBlockingResponse hsys.2 (some t)
    exact ⟨_, rfl, hset.ok, by rw [hset.slots, hsys.1]; rfl⟩
  · simp only [bind_eq_ok, pure_eq_ok, Except.ok.injEq] at h
    obtain ⟨hlp, hu, rfl⟩ := h
    have hset := hp.updateBlockingMap hu fun hn => absurd hn hsys
    exact ⟨_, rfl, hset.ok, by rw [hset.slots, if_neg hsys]; rfl⟩

end World

end Gem5Wrapper
