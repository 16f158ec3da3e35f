import Gem5Wrapper.Channels

/-!
# The port refines its channels

`step_moves`: an act of the port is a run of moves on its view, and an act that faults gets
stuck in a view reached by moves. Both are read off the code function by function.
-/

namespace Gem5Wrapper

open FaultMachine
open Function (update)

/-! ## Ports -/

/-- Set a slot of the channel of a type. -/
def Slots.put (sl : Slots) : PktType → ℕ → Option Ptr → Slots
  | .request, s, t => { sl with request := update sl.request s t }
  | .response, s, t => { sl with response := update sl.response s t }

namespace SCSlavePort

/-- The slots of socket 0 are kept in one place: in the port with gem5 caches, in the helper
without. -/
structure Ok (p : SCSlavePort) : Prop where
  cache : p.helper.usingGem5Cache = p.usingGem5Cache
  covers : p.helper.Covers
  unblocked : p.helper.isSystemPortBlocked = false
  noCache : p.usingGem5Cache = false →
    p.blockingRequest = none ∧ p.needToSendRequestRetry = false ∧ p.blockingResponse = none
  system : p.usingGem5Cache = true →
    p.helper.request 0 = none ∧ p.helper.owed 0 = false ∧ p.helper.response 0 = none

/-- The parts of a port that no call changes. -/
structure SameSetup (p p' : SCSlavePort) : Prop where
  cache : p'.usingGem5Cache = p.usingGem5Cache
  transactor : p'.transactor = p.transactor
  multi : p'.transactorMulti = p.transactorMulti
  known : p'.helper.socketNum = p.helper.socketNum
  target : p'.targetSocket = p.targetSocket

/-- A call that changes the slots to `sl`. -/
structure Sets (p p' : SCSlavePort) (sl : Slots) : Prop where
  setup : SameSetup p p'
  ok : p'.Ok
  slots : p'.slots = sl

variable {p : SCSlavePort} {h : BlockingPacketHelper} {s : ℕ} {t : Option Ptr} {b : Bool}
  {ty : PktType}

theorem Ok.setBlockingRequest (hp : p.Ok) (hc : p.usingGem5Cache = true) (t : Option Ptr) :
    Sets p { p with blockingRequest := t } (p.slots.put .request 0 t) := by
  refine ⟨⟨rfl, rfl, rfl, rfl, rfl⟩, ⟨hp.1, hp.2, hp.3, fun h => ?_, hp.5⟩, ?_⟩
  · exact absurd hc (by simpa using h)
  · simp only [slots, Slots.put, hc, and_true, Slots.mk.injEq]
    funext i
    by_cases hi : i = 0 <;> simp [hi]

theorem Ok.setNeedToSendRequestRetry (hp : p.Ok) (hc : p.usingGem5Cache = true) (b : Bool) :
    Sets p { p with needToSendRequestRetry := b }
      { p.slots with owed := update p.slots.owed 0 b } := by
  refine ⟨⟨rfl, rfl, rfl, rfl, rfl⟩, ⟨hp.1, hp.2, hp.3, fun h => ?_, hp.5⟩, ?_⟩
  · exact absurd hc (by simpa using h)
  · simp only [slots, hc, and_true, true_and, Slots.mk.injEq]
    funext i
    by_cases hi : i = 0 <;> simp [hi]

theorem Ok.setBlockingResponse (hp : p.Ok) (hc : p.usingGem5Cache = true) (t : Option Ptr) :
    Sets p { p with blockingResponse := t } (p.slots.put .response 0 t) := by
  refine ⟨⟨rfl, rfl, rfl, rfl, rfl⟩, ⟨hp.1, hp.2, hp.3, fun h => ?_, hp.5⟩, ?_⟩
  · exact absurd hc (by simpa using h)
  · simp only [slots, Slots.put, hc, and_true, true_and, Slots.mk.injEq]
    funext i
    by_cases hi : i = 0 <;> simp [hi]

/-- What `updateBlockingMap` makes of the slots: nothing, if it clears an entry that is kept in
the port. -/
theorem Ok.updateBlockingMap (hp : p.Ok) (hu : p.helper.updateBlockingMap s t ty = .ok h)
    (hs : s = 0 ∧ p.usingGem5Cache = true → t = none) :
    Sets p { p with helper := h }
      (if s = 0 ∧ p.usingGem5Cache then p.slots else p.slots.put ty s t) := by
  have hf := BlockingPacketHelper.updateBlockingMap_frame hu
  obtain ⟨-, hty, hother, howed, hsys⟩ := BlockingPacketHelper.updateBlockingMap_ok hu
  have hreq : h.request = if ty = .request then update p.helper.request s t
      else p.helper.request := by
    split_ifs with h'
    · subst h'; exact hty
    · exact hother .request (Ne.symm h')
  have hresp : h.response = if ty = .response then update p.helper.response s t
      else p.helper.response := by
    split_ifs with h'
    · subst h'; exact hty
    · exact hother .response (Ne.symm h')
  have hput : ∀ f : ℕ → Option Ptr, f 0 = none → p.usingGem5Cache = true →
      update f s t 0 = none := by
    intro f hf0 hc
    by_cases h0 : s = 0
    · subst h0; simpa using hs ⟨rfl, hc⟩
    · rw [Function.update_of_ne (Ne.symm h0)]; exact hf0
  refine ⟨⟨rfl, rfl, rfl, hf.socketNum, rfl⟩, ⟨hf.cache.trans hp.cache, hf.covers hp.covers, ?_,
    hp.noCache, fun hc => ?_⟩, ?_⟩
  · rw [hsys, hp.cache, hp.unblocked]
    split_ifs with h0
    · simp [hs h0]
    · rfl
  · obtain ⟨h1, h2, h3⟩ := hp.system hc
    rw [hreq, hresp, howed]
    refine ⟨?_, h2, ?_⟩
    · split_ifs
      · exact hput _ h1 hc
      · exact h1
    · split_ifs
      · exact hput _ h3 hc
      · exact h3
  · have hkeep : ∀ f : ℕ → Option Ptr, f 0 = none → s = 0 → p.usingGem5Cache = true →
        update f s t = f := by
      rintro f hf0 rfl hc
      rw [hs ⟨rfl, hc⟩, ← hf0, Function.update_eq_self]
    split_ifs with h0
    · obtain ⟨h1, -, h3⟩ := hp.system h0.2
      have h4 : h.request = p.helper.request := by
        rw [hreq]; split_ifs
        · exact hkeep _ h1 h0.1 h0.2
        · rfl
      have h5 : h.response = p.helper.response := by
        rw [hresp]; split_ifs
        · exact hkeep _ h3 h0.1 h0.2
        · rfl
      simp only [slots, h4, h5, howed]
    · cases ty with
      | request =>
        simp only [slots, Slots.put, hreq, hresp, howed, if_true, reduceCtorEq, if_false,
          Slots.mk.injEq, and_true]
        funext i
        by_cases hi : i = s
        · subst hi; simp [h0]
        · simp [hi]
      | response =>
        simp only [slots, Slots.put, hreq, hresp, howed, if_true, reduceCtorEq, if_false,
          Slots.mk.injEq, true_and]
        funext i
        by_cases hi : i = s
        · subst hi; simp [h0]
        · simp [hi]

theorem Ok.updateRetryMap (hp : p.Ok) (hu : p.helper.updateRetryMap s b = .ok h)
    (hs : ¬ (s = 0 ∧ p.usingGem5Cache = true)) :
    Sets p { p with helper := h } { p.slots with owed := update p.slots.owed s b } := by
  have hf := BlockingPacketHelper.updateRetryMap_frame hu
  obtain ⟨-, howed, hb, hsys⟩ := BlockingPacketHelper.updateRetryMap_ok hp.covers hu
  have hreq : h.request = p.helper.request := congrFun hb .request
  have hresp : h.response = p.helper.response := congrFun hb .response
  refine ⟨⟨rfl, rfl, rfl, hf.socketNum, rfl⟩, ⟨hf.cache.trans hp.cache, hf.covers hp.covers,
    hsys.trans hp.unblocked, hp.noCache, fun hc => ?_⟩, ?_⟩
  · obtain ⟨h1, h2, h3⟩ := hp.system hc
    rw [hreq, hresp, howed]
    refine ⟨h1, ?_, h3⟩
    rw [Function.update_of_ne fun h0 => hs ⟨h0.symm, hc⟩]
    exact h2
  · simp only [slots, hreq, hresp, howed, Slots.mk.injEq, and_true, true_and]
    funext i
    by_cases hi : i = s
    · subst hi; simp [hs]
    · simp [hi]

/-- Which socket's slot holds a payload, in the port or in the helper. -/
theorem Ok.exists_request (hp : p.Ok) {t : Ptr} :
    (∃ i, p.slots.request i = some t) ↔
      p.blockingRequest = some t ∨ ∃ i, p.helper.request i = some t := by
  cases hc : p.usingGem5Cache with
  | false => simp [slots, hc, (hp.noCache hc).1]
  | true =>
    have h0 := (hp.system hc).1
    constructor
    · rintro ⟨i, hi⟩
      simp only [slots, hc, and_true] at hi
      split_ifs at hi
      · exact .inl hi
      · exact .inr ⟨i, hi⟩
    · rintro (h | ⟨i, hi⟩)
      · exact ⟨0, by simpa [slots, hc] using h⟩
      · have : i ≠ 0 := by rintro rfl; simp [h0] at hi
        exact ⟨i, by simpa [slots, this] using hi⟩

end SCSlavePort

/-! ## Worlds -/

namespace World

/-- The sockets of the transactor. -/
def sockets (w : World) : ℕ :=
  (w.port.transactorMulti.map SlaveTransactorMulti.socketNum).getD 0

/-- What holds of every world a port comes to: only payloads that were handed out are in use,
and their extensions name sockets that the helper and the transactor know. -/
structure Ok (w : World) : Prop where
  port : w.port.Ok
  transactor : w.port.transactor = none
  multi : ∃ tr, w.port.transactorMulti = some tr
  hasMm : ∀ t < w.mm.numberOfAllocations, (w.payloads t).hasMm = true
  fresh : ∀ t, w.mm.numberOfAllocations ≤ t → w.payloads t = {}
  free : ∀ t ∈ w.mm.freePayloads, t < w.mm.numberOfAllocations
  known : ∀ t x, (w.payloads t).extension = some x →
    x.coreId < w.port.helper.socketNum ∧ x.coreId < w.sockets
  log : ∀ e ∈ w.log, e.port.Ok

variable {w w' : World} {t : Ptr} {c : Cur} {p' : SCSlavePort} {sl : Slots}

theorem Ok.emit (hw : w.Ok) (o : Obs) : (w.emit o).Ok :=
  ⟨hw.1, hw.2, hw.3, hw.4, hw.5, hw.6, hw.7, fun e he => by
    rcases List.mem_cons.1 he with rfl | he
    · exact hw.port
    · exact hw.log e he⟩

theorem Ok.setPacket (hw : w.Ok) (p : PacketPtr) (pkt : Packet) : (w.setPacket p pkt).Ok :=
  ⟨hw.1, hw.2, hw.3, hw.4, hw.5, hw.6, hw.7, hw.8⟩

theorem Ok.notify (hw : w.Ok) (t : Ptr) (ph : Phase) (d k : ℕ) : (w.notify t ph d k).Ok :=
  ⟨hw.1, hw.2, hw.3, hw.4, hw.5, hw.6, hw.7, hw.8⟩

theorem Ok.setPort (hw : w.Ok) (hp : SCSlavePort.Sets w.port p' sl) :
    ({ w with port := p' } : World).Ok where
  port := hp.ok
  transactor := hp.setup.transactor.trans hw.transactor
  multi := hp.setup.multi ▸ hw.multi
  hasMm := hw.hasMm
  fresh := hw.fresh
  free := hw.free
  known t x hx := by
    have := hw.known t x hx
    unfold sockets at this ⊢
    rw [hp.setup.multi, hp.setup.known]
    exact this
  log := hw.log

/-- Writing to a payload that was handed out. -/
theorem Ok.setPayload (hw : w.Ok) (ht : t < w.mm.numberOfAllocations) {p : Payload}
    (hp : p.hasMm = true) (hx : ∀ x, p.extension = some x →
      x.coreId < w.port.helper.socketNum ∧ x.coreId < w.sockets) : (w.setPayload t p).Ok where
  port := hw.port
  transactor := hw.transactor
  multi := hw.multi
  hasMm t' ht' := by
    simp only [World.setPayload, Function.update_apply]
    split_ifs
    · exact hp
    · exact hw.hasMm t' ht'
  fresh t' ht' := by
    have : t' ≠ t := fun h => absurd ht (Nat.not_lt.2 (h ▸ ht'))
    simp only [World.setPayload, Function.update_of_ne this]
    exact hw.fresh t' ht'
  free := hw.free
  known t' x hx' := by
    simp only [World.setPayload, Function.update_apply] at hx'
    split_ifs at hx'
    · exact hx x hx'
    · exact hw.known t' x hx'
  log := hw.log

theorem Ok.lt_of_hasMm (hw : w.Ok) (h : (w.payloads t).hasMm = true) :
    t < w.mm.numberOfAllocations := by
  by_contra hn
  simp [hw.fresh t (Nat.not_lt.1 hn)] at h

theorem viewAt_setPort (hp : SCSlavePort.Sets w.port p' sl) :
    ({ w with port := p' } : World).viewAt c = { w.viewAt c with slots := sl } := by
  simp only [viewAt, hp.setup.cache, hp.setup.known, hp.setup.multi, hp.setup.target, hp.slots]

/-! ## Payloads -/

theorem acquire_ends (hw : w.Ok) :
    Ends (fun w' => w'.Ok ∧ w'.viewAt c = (w.viewAt c).addRef t ∧ w'.curTick = w.curTick ∧
        t < w.mm.numberOfAllocations)
      (fun f => w.mm.numberOfAllocations ≤ t ∧
        f = .scAssert "tlm_generic_payload::acquire" "m_mm != 0") (w.acquire t) := by
  unfold acquire
  refine Ends.check (fun h => ⟨?_, rfl⟩) fun h => ⟨?_, ?_, rfl, hw.lt_of_hasMm h⟩
  · exact Nat.not_lt.1 fun ht => h (hw.hasMm t ht)
  · exact hw.setPayload (hw.lt_of_hasMm h) h fun x hx => hw.known t x hx
  · simp only [viewAt, setPayload, View.addRef, View.mk.injEq, true_and, and_true]
    refine ⟨?_, ?_, ?_⟩ <;> funext t' <;> by_cases ht : t' = t <;> simp [ht]

theorem release_ends (hw : w.Ok) :
    Ends (fun w' => w'.Ok ∧ w'.viewAt c = (w.viewAt c).dropRef t ∧ w'.curTick = w.curTick ∧
        0 < (w.viewAt c).refs t)
      (fun f => (w.viewAt c).refs t = 0 ∧
        f = .scAssert "tlm_generic_payload::release" "m_mm != 0 && m_ref_count > 0")
      (w.release t) := by
  unfold release
  refine Ends.check (fun h => ⟨?_, rfl⟩) fun h => ?_
  · by_cases ht : t < w.mm.numberOfAllocations
    · simpa [hw.hasMm t ht, viewAt] using h
    · simp [viewAt, hw.fresh t (Nat.not_lt.1 ht)]
  obtain ⟨hm, hpos⟩ := h
  have ht := hw.lt_of_hasMm hm
  have hiff : (w.payloads t).refCount - 1 = 0 ↔ (w.payloads t).refCount = 1 := by omega
  simp only [hiff]
  split_ifs with h1
  · have hset : (w.setPayload t { w.payloads t with
        refCount := (w.payloads t).refCount - 1, extension := none }).Ok :=
      hw.setPayload ht hm fun x hx => by simp at hx
    refine ⟨⟨hset.1, hset.2, hset.3, hset.4, hset.5, ?_, hset.7, hset.8⟩, ?_, rfl, hpos⟩
    · intro t' ht'
      rcases List.mem_cons.1 ht' with rfl | ht'
      · exact ht
      · exact hw.free t' ht'
    · simp only [viewAt, setPayload, View.dropRef, Payload.reset, h1, if_true, View.mk.injEq,
        true_and, and_true]
      refine ⟨?_, ?_, ?_⟩ <;> funext t' <;> by_cases ht' : t' = t <;> simp [ht']
  · refine ⟨hw.setPayload ht hm fun x hx => hw.known t x hx, ?_, rfl, hpos⟩
    simp only [viewAt, setPayload, View.dropRef, h1, if_false, View.mk.injEq, true_and, and_true]
    refine ⟨?_, ?_, ?_⟩ <;> funext t' <;> by_cases ht' : t' = t <;> simp [ht']

/-- A payload from the pool was handed out before, or it is a new one. -/
theorem allocate_ok (hw : w.Ok) :
    w.allocate.2.Ok ∧ (w.allocate.2.payloads w.allocate.1).hasMm = true ∧
      w.allocate.2.viewAt c = { w.viewAt c with pool := w.mm.allocate.2 } := by
  unfold allocate MemoryManager.allocate MemoryManager.isNew
  cases hf : w.mm.freePayloads with
  | nil =>
    simp only [List.isEmpty_nil, if_true, setPayload, Function.update_self, true_and]
    have hnew := hw.fresh _ le_rfl
    refine ⟨⟨hw.1, hw.2, hw.3, ?_, ?_, ?_, ?_, hw.8⟩, ?_⟩
    · intro t ht
      simp only [Function.update_apply]
      split_ifs with h
      · rfl
      · exact hw.hasMm t (Nat.lt_of_le_of_ne (Nat.lt_succ_iff.1 ht) h)
    · intro t ht
      have : t ≠ w.mm.numberOfAllocations := (Nat.lt_of_succ_le ht).ne'
      simp only [Function.update_of_ne this]
      exact hw.fresh t (Nat.le_of_succ_le ht)
    · intro t ht
      simp at ht
    · intro t x hx
      simp only [Function.update_apply] at hx
      split_ifs at hx
      exact hw.known t x hx
    · simp only [viewAt, View.mk.injEq, true_and, and_true]
      refine ⟨?_, ?_, ?_⟩ <;> funext t <;> by_cases ht : t = w.mm.numberOfAllocations <;>
        simp [ht, hnew]
  | cons t rest =>
    have hlt : ∀ t' ∈ t :: rest, t' < w.mm.numberOfAllocations := fun t' ht' =>
      hw.free t' (hf ▸ ht')
    refine ⟨⟨hw.1, hw.2, hw.3, hw.4, hw.5, ?_, hw.7, hw.8⟩, hw.hasMm t (hlt t (by simp)), rfl⟩
    exact fun t' ht' => hlt t' (List.mem_cons_of_mem _ ht')

/-! ## Requests -/

@[simp] theorem setPayload_payloads (w : World) (t : Ptr) (pl : Payload) :
    (w.setPayload t pl).payloads t = pl := by simp [setPayload]

@[simp] theorem setPayload_setPayload (w : World) (t : Ptr) (pl pl' : Payload) :
    (w.setPayload t pl).setPayload t pl' = w.setPayload t pl' := by simp [setPayload]

theorem acquire_eq (h : (w.payloads t).hasMm = true) : ∃ pl : Payload,
    w.acquire t = .ok (w.setPayload t pl) ∧ pl.hasMm = true ∧
      pl.refCount = (w.payloads t).refCount + 1 := by
  unfold acquire
  rw [check_pos h]
  exact ⟨_, rfl, h, rfl⟩

/-- `packet2payload` writes the attributes of a read or write, and the address. -/
theorem packet2payload_eq {p : PacketPtr} (h : (w.payloads t).hasMm = true)
    (hrw : (w.packets p).cmd.isRead = true ∨ (w.packets p).cmd.isWrite = true) :
    ∃ pl : Payload, w.packet2payload p t = .ok (w.setPayload t pl) ∧ pl.hasMm = true ∧
      pl.refCount = (w.payloads t).refCount ∧ pl.address = (w.packets p).addr := by
  unfold packet2payload
  simp only [check_pos h, ok_bind]
  split_ifs with h1 h2 h3
  · exact ⟨_, rfl, h, rfl, rfl⟩
  · exact ⟨_, rfl, h, rfl, rfl⟩
  · exact ⟨_, rfl, h, rfl, rfl⟩
  · exact absurd hrw (by simp [h1, h3])

/-- A payload that was handed out is made ready for a packet. -/
theorem prepare_ok (hw : w.Ok) {p : PacketPtr} {s : ℕ} {o : Obs}
    (h : (w.payloads t).hasMm = true)
    (hrw : (w.packets p).cmd.isRead = true ∨ (w.packets p).cmd.isWrite = true)
    (hs : s < w.port.helper.socketNum) :
    ∃ w₁ w₂, (w.emit o).acquire t = .ok w₁ ∧ w₁.packet2payload p t = .ok w₂ ∧
      (s < w.sockets → (w₂.attach t p s).Ok) ∧ (w₂.attach t p s).port = w.port ∧
      (w₂.attach t p s).curTick = w.curTick ∧
      (w₂.attach t p s).viewAt c = (({ w.viewAt c with
        carried := update (w.viewAt c).carried t (some ⟨p, s, w.serial⟩)
        address := update (w.viewAt c).address t (w.packets p).addr
        serial := w.serial + 1 } : View).emit o).addRef t := by
  obtain ⟨pl₁, h₁, hm₁, hr₁⟩ := acquire_eq (w := w.emit o) h
  obtain ⟨pl₂, h₂, hm₂, hr₂, ha₂⟩ := packet2payload_eq (p := p) (t := t)
    (w := (w.emit o).setPayload t pl₁) (by simpa using hm₁) hrw
  rw [setPayload_payloads, hr₁] at hr₂
  refine ⟨_, _, h₁, h₂, fun hlt => ?_, rfl, rfl, ?_⟩
  · have hok := (hw.emit o).setPayload (hw.lt_of_hasMm h)
      (p := { pl₂ with extension := some ⟨p, s, w.serial⟩ }) hm₂ (by
        rintro x hx; obtain rfl := Option.some.inj hx; exact ⟨hs, hlt⟩)
    simp only [attach, setPayload_payloads, setPayload_setPayload]
    exact ⟨hok.1, hok.2, hok.3, hok.4, hok.5, hok.6, hok.7, hok.8⟩
  · simp only [attach, setPayload_payloads, setPayload_setPayload]
    simp only [viewAt, setPayload, View.emit, View.addRef, World.emit, List.map_cons,
      Entry.record, View.mk.injEq, true_and, and_true]
    refine ⟨?_, ?_, ?_⟩ <;> funext t' <;> by_cases ht : t' = t <;> simp [ht, hr₂, ha₂] <;> rfl

theorem nbTransportFw_ends {s : ℕ} {o : ℕ → Obs} (ht : w.port.transactor = none)
    (hm : ∃ tr, w.port.transactorMulti = some tr) :
    Ends (fun w' => w' = w.emit (o s) ∧ s < w.sockets) (fun f => ¬ s < w.sockets ∧
      f = .undefinedBehaviour "transactor_multi->sockets[socket_id]") (w.nbTransportFw s o) := by
  obtain ⟨tr, htr⟩ := hm
  have hs : w.sockets = tr.socketNum := by simp [sockets, htr]
  simp only [nbTransportFw, ht, htr, hs]
  exact Ends.check (fun h => ⟨h, rfl⟩) fun h => ⟨rfl, h⟩

/-- BEGIN_REQ of a request leaves, and the port deals with the answer. -/
theorem sendBeginReq_ends (hw : w.Ok) {r : Request} {s : ℕ}
    (hs : s = w.port.targetSocket r.content) (hk : s < w.port.helper.socketNum)
    (hrw : r.content.cmd.isRead = true ∨ r.content.cmd.isWrite = true)
    {good : World → Prop} {bad : Fault → Prop}
    (hbad : ¬ s < w.sockets → bad (.undefinedBehaviour "transactor_multi->sockets[socket_id]"))
    (hgood : ∀ w' : World, w'.Ok → w'.viewAt c = (w.viewAt c).begin r → w'.curTick = w.curTick →
      w'.port = w.port → s < w.sockets →
      Ends good bad (w'.handleReply w.mm.allocate.1 s w.serial r.reply)) :
    Ends good bad ((w.setPacket r.packet r.content).sendBeginReq r.packet s r.reply) := by
  obtain ⟨hok, hmm, hview⟩ := allocate_ok (hw.setPacket r.packet r.content) (c := c)
  have hpk : (w.setPacket r.packet r.content).packets r.packet = r.content := by
    simp [setPacket]
  have hport : (w.setPacket r.packet r.content).allocate.2.port = w.port := by
    unfold allocate; dsimp only; split_ifs <;> rfl
  have hct : (w.setPacket r.packet r.content).allocate.2.curTick = w.curTick := by
    unfold allocate; dsimp only; split_ifs <;> rfl
  have hpkts : (w.setPacket r.packet r.content).allocate.2.packets =
      update w.packets r.packet r.content := congrArg View.packets hview
  have hser : (w.setPacket r.packet r.content).allocate.2.serial = w.serial :=
    congrArg View.serial hview
  have ht : (w.setPacket r.packet r.content).allocate.1 = w.mm.allocate.1 := rfl
  have hser' : (w.setPacket r.packet r.content).serial = w.serial := rfl
  unfold sendBeginReq
  simp only [hpk, ht, hser'] at hmm ⊢
  generalize (w.setPacket r.packet r.content).allocate.2 = w₁ at *
  generalize w.mm.allocate.1 = t at *
  obtain ⟨w₂, w₃, h₂, h₃, h₄, h₅, h₆, h₇⟩ := prepare_ok hok (c := c)
    (o := .allocate w.serial t r.packet r.content.cmd.needsResponse) hmm (p := r.packet) (s := s)
    (by simp [hpkts, hrw]) (hport ▸ hk)
  rw [h₂, ok_bind, h₃, ok_bind]
  generalize w₃.attach t r.packet s = w₄ at *
  have hsock : w₄.sockets = w.sockets := by simp [sockets, h₅, hport]
  have haddr : (w₄.payloads t).address = r.content.addr := by
    have := congrFun (congrArg View.address h₇) t
    simpa [View.addRef, View.emit, viewAt, hpkts] using this
  refine Ends.bind ((nbTransportFw_ends (h₅ ▸ hport ▸ hw.transactor)
    (h₅ ▸ hport ▸ hw.multi)).mono (fun _ _ h => h) ?_) ?_
  · rintro f - ⟨hn, rfl⟩
    exact hbad (hsock ▸ hn)
  rintro _ - ⟨rfl, hlt⟩
  have hlt' : s < w.sockets := hsock ▸ hlt
  refine hgood _ ?_ ?_ (h₆.trans hct) (h₅.trans hport) hlt'
  · exact ((h₄ (by simpa [sockets, hport] using hlt')).setPacket _ _).emit _
  · have : ∀ o pkt, ((w₄.setPacket r.packet pkt).emit o).viewAt c =
      ((w₄.viewAt c).store r.packet pkt).emit o := fun _ _ => rfl
    have hn : (w.viewAt c).next = t := ht
    have htarget : (w.viewAt c).target r.content = s := hs.symm
    have hidem := Function.update_idem (a := r.packet) r.content
      { r.content with payloadDelay := 0, headerDelay := 0 } w.packets
    rw [this, h₇, hview]
    simp only [View.begin, hn, htarget, hser, hpkts, Function.update_self]
    simp only [View.emit, View.store, View.addRef, viewAt, setPacket, haddr, hidem]

/-! ## Calls -/

section Calls

variable {P : Promise} {v : View} {w : World} {c : Cur}

/-- In the middle of a call, at a view reached from `v` by moves. -/
structure At (P : Promise) (v : View) (c : Cur) (w : World) : Prop where
  ok : w.Ok
  caughtUp : w.curTick = w.now
  moves : Moves P v (w.viewAt c)

theorem At.stop {f : Fault} (h : At P v c w) (hs : Stuck P (w.viewAt c) f) : Stops P v f :=
  ⟨_, h.moves, hs⟩

theorem At.move {w' : World} {c' : Cur} (h : At P v c w) (hok : w'.Ok)
    (hc : w'.curTick = w'.now) (hm : Move P (w.viewAt c) (w'.viewAt c')) : At P v c' w' :=
  ⟨hok, hc, h.moves.tail hm⟩

theorem At.movePort {u : World} {c' : Cur} {p' : SCSlavePort} {sl : Slots} (h : At P v c w)
    (hok : u.Ok) (hset : SCSlavePort.Sets u.port p' sl) (hc : u.curTick = u.now)
    (hm : Move P (w.viewAt c) { u.viewAt c' with slots := sl }) :
    At P v c' { u with port := p' } :=
  h.move (hok.setPort hset) hc (by rw [viewAt_setPort hset]; exact hm)

/-- The port deals with the answer to BEGIN_REQ. -/
theorem handleReply_ends (h : At P v c w) {r : Request} (ha : Admitted P (w.viewAt c) r)
    {w' : World} (hok : w'.Ok) (hview : w'.viewAt c = (w.viewAt c).begin r)
    (hct : w'.curTick = w.curTick) :
    Ends (At P v c) (Stops P v) (w'.handleReply (w.viewAt c).next ((w.viewAt c).target r.content)
      (w.viewAt c).serial r.reply) := by
  have hnow : w'.curTick = w'.now :=
    (hct.trans h.caughtUp).trans (congrArg View.now hview).symm
  have hcache : w'.port.usingGem5Cache = (w.viewAt c).cache := congrArg View.cache hview
  have hknown : w'.port.helper.socketNum = (w.viewAt c).known := congrArg View.known hview
  unfold handleReply
  generalize hs : (w.viewAt c).target r.content = s
  have hlt : s < w'.port.helper.socketNum := hs ▸ hknown ▸ ha.known
  split
  · -- TLM_ACCEPTED
    rename_i hst
    refine Ends.check (fun hn => h.stop (.accepted ha.makes hst hn)) fun _ => ?_
    have hm := Move.accepted ha hst
    split_ifs with hsys
    · have hset := hok.port.setBlockingRequest hsys.2 (some (w.viewAt c).next)
      have hsl : w'.port.slots = (w.viewAt c).slots := congrArg View.slots hview
      refine h.movePort hok hset hnow ?_
      rw [hs, hsys.1] at hm
      rw [hview, hsl]
      exact hm
    · obtain ⟨h', hh'⟩ := BlockingPacketHelper.updateBlockingMap_total hok.port.covers hlt.le
        (some (w.viewAt c).next) .request
      have hset := hok.port.updateBlockingMap hh' fun hn => absurd hn hsys
      rw [hh', ok_bind]
      have hsl : w'.port.slots = (w.viewAt c).slots := congrArg View.slots hview
      refine h.movePort hok hset hnow ?_
      rw [hs] at hm
      rw [hview, if_neg hsys, hsl]
      exact hm
  · -- TLM_UPDATED
    rename_i hst
    refine Ends.check (fun hn => h.stop (.updated ha.makes hst hn)) fun hph => ?_
    refine h.move (hok.notify _ _ _ _) hnow ?_
    have : (w'.notify (w.viewAt c).next r.reply.phase r.reply.delay (w.viewAt c).serial).viewAt c =
        (w'.viewAt c).notify (w.viewAt c).next r.reply.phase r.reply.delay
          (w.viewAt c).serial := rfl
    rw [this, hview]
    exact .updated ha hst hph
  · -- TLM_COMPLETED
    rename_i hst
    refine Ends.check (fun hn => h.stop (.completed ha.makes hst hn)) fun hph => ?_
    refine (release_ends (c := c) (hok.emit _)).mono ?_ ?_
    · rintro w'' - ⟨hok', hview', hct', -⟩
      refine h.move hok' ?_ ?_
      · exact (hct'.trans hnow).trans (congrArg View.now hview').symm
      · have : (w'.emit (.release (w.viewAt c).serial (w.viewAt c).next)).viewAt c =
          (w'.viewAt c).emit (.release (w.viewAt c).serial (w.viewAt c).next) := rfl
        rw [hview', this, hview]
        exact .completed ha hst
    · rintro f - ⟨hn, -⟩
      have : (w'.emit (.release (w.viewAt c).serial (w.viewAt c).next)).viewAt c =
          (w'.viewAt c).emit (.release (w.viewAt c).serial (w.viewAt c).next) := rfl
      rw [this, hview] at hn
      simp [View.begin, View.emit] at hn

theorem blocker_eq_zero (h : w.port.blockingRequest.isSome ∧ w.port.usingGem5Cache = true)
    (s : ℕ) : (w.viewAt c).blocker s = 0 ∧
      (w.viewAt c).slots.request 0 = w.port.blockingRequest := by
  have h0 : (w.viewAt c).slots.request 0 = w.port.blockingRequest := by
    simp [viewAt, SCSlavePort.slots, h.2]
  refine ⟨if_pos ⟨h.2, ?_⟩, h0⟩
  rw [h0]
  exact Option.isSome_iff_ne_none.1 h.1

theorem blocker_eq_self (hp : w.port.Ok)
    (h : ¬ (w.port.blockingRequest.isSome ∧ w.port.usingGem5Cache = true)) (s : ℕ) :
    (w.viewAt c).blocker s = s ∧ (w.viewAt c).slots.request s = w.port.helper.request s := by
  have hb : w.port.usingGem5Cache = true → w.port.blockingRequest = none := fun hc => by
    by_contra hn
    exact h ⟨Option.isSome_iff_ne_none.2 hn, hc⟩
  constructor
  · refine if_neg fun hn => hn.2 ?_
    have hc : w.port.usingGem5Cache = true := hn.1
    simp [viewAt, SCSlavePort.slots, hc, hb hc]
  · simp only [viewAt, SCSlavePort.slots]
    split_ifs with h0
    · rw [hb h0.2, h0.1, (hp.system h0.2).1]
    · rfl

/-- gem5 makes a request. -/
theorem gem5Request_ends (h : At P v c w) (hc : ∀ t x, c ≠ .entered t x) {r : Request}
    (hr : Makes P r) :
    Ends (fun x => At P v c x.2) (Stops P v) (w.gem5Request r) := by
  have hp := h.ok.port
  have hpk : (w.setPacket r.packet r.content).packets r.packet = r.content := by
    simp [setPacket]
  unfold gem5Request
  refine Ends.check (fun _ => h.stop .environment) fun hreq => ?_
  refine Ends.check (fun _ => h.stop .environment) fun hfree => ?_
  have hs : (w.viewAt c).Sendable r := by
    refine ⟨hc, hreq, fun t ht x hx hxp => ?_⟩
    simp only [inFlight, List.any_eq_false, List.mem_range] at hfree
    have hx' : (w.payloads t).extension = some x := hx
    have htr : (w.viewAt c).trace = w.trace := by simp [View.trace, trace, viewAt, Entry.record]
    have := hfree t ht
    simp only [hx', hxp] at this
    rw [htr]
    by_contra hn
    rw [not_or] at hn
    simp [hn.1, hn.2] at this
  unfold recvTimingReq
  refine Ends.check (fun hn => absurd h.caughtUp hn) fun _ => ?_
  simp only [hpk]
  refine Ends.check (fun _ => h.stop .panic) fun _ => ?_
  refine Ends.check (fun _ => h.stop .panic) fun hrw => ?_
  refine Ends.check (fun hn => h.stop ?_) fun _ => ?_
  · have hflag : w.port.needToSendRequestRetry = true := by simpa [setPacket] using hn
    have hc : w.port.usingGem5Cache = true := by
      by_contra hc
      rw [(hp.noCache (by simpa using hc)).2.1] at hflag
      exact absurd hflag (by simp)
    exact .owed hc (by simp [viewAt, SCSlavePort.slots, hc, hflag])
  have htarget : (w.viewAt c).target r.content = w.port.targetSocket r.content := rfl
  have hport : (w.setPacket r.packet r.content).port = w.port := rfl
  simp only [hport]
  split_ifs with hsys
  · -- the system port is blocked
    obtain ⟨hbl, h0⟩ := blocker_eq_zero (c := c) hsys (w.port.targetSocket r.content)
    obtain ⟨t, ht⟩ := Option.isSome_iff_exists.1 hsys.1
    have hset := hp.setNeedToSendRequestRetry hsys.2 true
    have hm := Move.refuse (P := P) hr hs (t := t) (by rw [htarget, hbl, h0, ht])
    rw [htarget, hbl] at hm
    have ho : (w.port.blockingRequest.bind fun a => (w.setPacket r.packet r.content).serialOf a) =
        w.serialOf t := by rw [ht]; rfl
    rw [ho]
    exact h.movePort (u := (w.setPacket r.packet r.content).emit (.refused (w.serialOf t)))
      ((h.ok.setPacket _ _).emit _) hset h.caughtUp hm
  · obtain ⟨hbl, hreqs⟩ := blocker_eq_self (c := c) hp hsys (w.port.targetSocket r.content)
    by_cases hlt : w.port.targetSocket r.content < w.port.helper.socketNum
    swap
    · rw [BlockingPacketHelper.isBlockedPort_of_not_lt hp.unblocked hlt]
      exact h.stop (.unknown hr hlt)
    rw [BlockingPacketHelper.isBlockedPort_eq hp.unblocked hp.covers hlt, ok_bind]
    cases hb : w.port.helper.blocking .request (w.port.targetSocket r.content) with
    | some t =>
      -- the socket is blocked
      have ht : (w.viewAt c).slots.request (w.port.targetSocket r.content) = some t :=
        hreqs.trans hb
      have hns : ¬ (w.port.targetSocket r.content = 0 ∧ w.port.usingGem5Cache = true) := by
        rintro ⟨h0, hc⟩
        have : w.port.helper.request 0 = some t := h0 ▸ hb
        rw [(hp.system hc).1] at this
        cases this
      obtain ⟨h', hh'⟩ := BlockingPacketHelper.updateRetryMap_total hlt true
      have hset := hp.updateRetryMap hh' hns
      have hm := Move.refuse (P := P) hr hs (t := t) (by rw [htarget, hbl, ht])
      rw [htarget, hbl] at hm
      have hb' : w.port.helper.request (w.port.targetSocket r.content) = some t := hb
      simp only [Option.isSome_some, if_true, hh', ok_bind, hb', Option.bind_some]
      exact h.movePort (u := (w.setPacket r.packet r.content).emit (.refused (w.serialOf t)))
        ((h.ok.setPacket _ _).emit _) hset h.caughtUp hm
    | none =>
      simp only [Option.isSome_none, Bool.false_eq_true, if_false]
      refine Ends.bind (G := At P v c) ?_ fun w' _ hw' => hw'
      refine sendBeginReq_ends (c := c) h.ok rfl hlt hrw (fun hn => h.stop (.outside hr hn)) ?_
      intro w' hok' hview' hct' hport' hsock
      refine handleReply_ends h ⟨hr, hs, ?_, hlt, hsock⟩ hok' hview' hct'
      rw [htarget, hbl, hreqs]
      exact hb

/-- gem5 makes requests, one after the other. -/
theorem gem5Requests_ends (h : At P v c w) (hc : ∀ t x, c ≠ .entered t x) {rs : List Request}
    (hr : ∀ r ∈ rs, Makes P r) :
    Ends (At P v c) (Stops P v) (w.gem5Requests rs) := by
  induction rs generalizing w with
  | nil => exact h
  | cons r rs ih =>
    unfold gem5Requests
    refine (gem5Request_ends h hc (hr r (by simp))).bind fun x _ hx => ?_
    exact ih hx fun r' hr' => hr r' (by simp [hr'])

/-- Where `pec` is after the request phase. -/
def afterRequest (e : PayloadEvent) : Cur :=
  if e.p = .beginResp then .popped e.t e.txn else .idle

theorem afterRequest_ne (e : PayloadEvent) (t : Ptr) (x : Gem5Extension) :
    afterRequest e ≠ .entered t x := by
  unfold afterRequest
  split_ifs <;> simp

/-- gem5 gets a retry and makes requests. -/
theorem sendRetryReq_ends (h : At P v c w) {u : World} {p' : SCSlavePort} {sl : Slots}
    {c' : Cur} (hc' : ∀ t x, c' ≠ .entered t x) {k : ℕ} {rs : List Request}
    (hr : ∀ r ∈ rs, Makes P r) (hok : u.Ok)
    (hset : SCSlavePort.Sets u.port p' sl) (hc : u.curTick = u.now)
    (hm : Move P (w.viewAt c) (({ u.viewAt c' with slots := sl } : View).emit (.retryReq k))) :
    Ends (At P v c') (Stops P v) (({ u with port := p' } : World).sendRetryReq k rs) := by
  refine gem5Requests_ends (h.move ((hok.setPort hset).emit _) hc ?_) hc' hr
  have : ((({ u with port := p' } : World).emit (.retryReq k)).viewAt c') =
      (({ u with port := p' } : World).viewAt c').emit (.retryReq k) := rfl
  rw [this, viewAt_setPort hset]
  exact hm

/-- The first part of `pec`: the request phase ends. -/
theorem pecRequest_ends (h : At P v .idle w) {e : PayloadEvent} {q : List PayloadEvent}
    (hs : Serviced P (w.viewAt .idle) e q) {rs : List Request} (hr : ∀ r ∈ rs, Makes P r) :
    Ends (At P v (afterRequest e)) (Stops P v)
      ((({ w with events := q } : World).emit (.pec e.txn e.p)).pecRequest e rs) := by
  generalize hw₁ : ({ w with events := q } : World).emit (.pec e.txn e.p) = w₁
  have hok : w₁.Ok := by
    have : ({ w with events := q } : World).Ok :=
      ⟨h.ok.1, h.ok.2, h.ok.3, h.ok.4, h.ok.5, h.ok.6, h.ok.7, h.ok.8⟩
    exact hw₁ ▸ this.emit _
  have hview : w₁.viewAt (afterRequest e) = (w.viewAt .idle).pop e q := hw₁ ▸ rfl
  have hpay : w₁.payloads = w.payloads := hw₁ ▸ rfl
  have hc : w₁.curTick = w₁.now := hw₁ ▸ h.caughtUp
  have hslots : (w.viewAt .idle).slots = w₁.port.slots := hw₁ ▸ rfl
  have hp := hok.port
  unfold pecRequest
  split_ifs with hcond hsys
  · -- the slot of the system port
    have hph : e.p = .endReq ∨ e.p = .beginResp := by tauto
    have hcl : Closes (w.viewAt .idle) e.t 0 :=
      .inl (by rw [hslots]; simp [SCSlavePort.slots, hsys.1, hsys.2])
    have howed : (w.viewAt .idle).slots.owed 0 = w₁.port.needToSendRequestRetry := by
      rw [hslots]; simp [SCSlavePort.slots, hsys.2]
    have hset := hp.setBlockingRequest hsys.2 none
    cases hn : w₁.port.needToSendRequestRetry with
    | false =>
      have hm := Move.close hs hph hcl (howed.trans hn)
      refine h.movePort hok hset hc ?_
      rw [hview, ← hslots]
      exact hm
    | true =>
      have hm := Move.retry hs hph hcl (howed.trans hn)
      have hset' := hset.ok.setNeedToSendRequestRetry hsys.2 false
      refine sendRetryReq_ends h (afterRequest_ne e) hr (hok.setPort hset) hset' hc ?_
      rw [viewAt_setPort hset, hview, hset.slots, ← hslots]
      exact hm
  · -- the slot of a socket
    refine Ends.check (fun hn => ?_) fun hb => ?_
    · have hfree : ∀ i, (w.viewAt .idle).slots.request i ≠ some e.t := by
        intro i hi
        rw [hslots] at hi
        rcases hp.exists_request.1 ⟨i, hi⟩ with hb | hb
        · refine hsys ⟨hb, ?_⟩
          by_contra hcache
          rw [(hp.noCache (by simpa using hcache)).1] at hb
          cases hb
        · exact hn (BlockingPacketHelper.isBlockingTrans_iff.2 hb)
      have hph : e.p = .endReq := by
        rcases hcond with hph | ⟨hb, -⟩ | ⟨hb, -⟩
        · exact hph
        · exact absurd hb hn
        · obtain ⟨i, hi⟩ := hp.exists_request.2 (.inl hb)
          exact absurd (hslots ▸ hi) (hfree i)
      exact h.stop (.notBlocking hs hph hfree)
    have hph : e.p = .endReq ∨ e.p = .beginResp := by tauto
    obtain ⟨i, hi⟩ := hp.exists_request.2 (.inr (BlockingPacketHelper.isBlockingTrans_iff.1 hb))
    rw [← hslots] at hi
    unfold getExtension
    cases hx : (w₁.payloads e.t).extension with
    | none =>
      rw [hpay] at hx
      exact h.stop (.noExtension hx (.inl ⟨e, q, i, hs, rfl, hi⟩))
    | some x =>
      have hx' : (w.viewAt .idle).carried e.t = some x := by rw [hpay] at hx; exact hx
      have hk := (hok.known _ _ hx).1
      obtain ⟨h', hh'⟩ := BlockingPacketHelper.updateBlockingMap_total hp.covers hk.le none .request
      have hset := hp.updateBlockingMap hh' fun _ => rfl
      have howed : h'.owed = w₁.port.helper.owed :=
        (BlockingPacketHelper.updateBlockingMap_ok hh').2.2.2.1
      have hf := BlockingPacketHelper.updateBlockingMap_frame hh'
      simp only [ok_bind, hh', BlockingPacketHelper.needToSendRequestRetry_eq
        (hf.covers hp.covers) (hf.socketNum ▸ hk), howed]
      by_cases hstale : x.coreId = 0 ∧ w₁.port.usingGem5Cache = true
      · -- the extension names a socket whose slot is not in the helper
        rw [if_pos hstale] at hset
        rw [hstale.1, (hp.system hstale.2).2.1]
        refine h.movePort hok hset hc ?_
        rw [hview, ← hslots]
        refine .keep hs (.inr ⟨i, x, hi, hx', ?_⟩)
        rintro rfl
        refine hsys ⟨?_, hstale.2⟩
        rw [hslots, hstale.1] at hi
        simpa [SCSlavePort.slots, hstale.2] using hi
      · rw [if_neg hstale] at hset
        have hcl : Closes (w.viewAt .idle) e.t x.coreId := .inr ⟨i, x, hi, hx', rfl⟩
        have howed' : (w.viewAt .idle).slots.owed x.coreId = w₁.port.helper.owed x.coreId := by
          rw [hslots]; simp only [SCSlavePort.slots, if_neg hstale]
        cases hn : w₁.port.helper.owed x.coreId with
        | false =>
          have hm := Move.close hs hph hcl (howed'.trans hn)
          refine h.movePort hok hset hc ?_
          rw [hview, ← hslots]
          exact hm
        | true =>
          have hm := Move.retry hs hph hcl (howed'.trans hn)
          obtain ⟨h'', hh''⟩ := BlockingPacketHelper.updateRetryMap_total (h := h')
            (hf.socketNum ▸ hk) false
          have hset' := hset.ok.updateRetryMap hh'' hstale
          simp only [if_true, hh'', ok_bind]
          refine sendRetryReq_ends (u := { w₁ with port := { w₁.port with helper := h' } }) h
            (afterRequest_ne e) hr
            (hok.setPort hset) hset' hc ?_
          rw [viewAt_setPort hset, hview, hset.slots, ← hslots]
          exact hm
  · -- no request to end
    refine h.move hok hc ?_
    rw [hview]
    refine .keep hs (.inl ?_)
    rw [not_or, not_or] at hcond
    refine ⟨hcond.1, fun hph i hi => ?_⟩
    rw [hslots] at hi
    rcases hp.exists_request.1 ⟨i, hi⟩ with hb | hb
    · exact hcond.2.2 ⟨hb, hph⟩
    · exact hcond.2.1 ⟨BlockingPacketHelper.isBlockingTrans_iff.2 hb, hph⟩

variable {t : Ptr} {x : Gem5Extension}

/-- END_RESP and the release. -/
theorem sendEndResp_ends (h : At P v c w) (hd : Done (w.viewAt c) t x) (hx : x.coreId < v.sockets) :
    Ends (At P v c.next) (Stops P v) (w.sendEndResp t x) := by
  have hs : x.coreId < w.sockets := by
    have : w.sockets = v.sockets := h.moves.static.2.2.1
    exact this ▸ hx
  unfold sendEndResp
  refine ((nbTransportFw_ends h.ok.transactor h.ok.multi).mono (fun _ _ h => h)
    fun f _ hf => absurd hs hf.1).bind ?_
  rintro _ - ⟨rfl, -⟩
  refine (release_ends (c := c) ((h.ok.emit _).emit _)).mono ?_ ?_
  · rintro w' - ⟨hok, hview, hct, hpos⟩
    have hnow : w'.now = w.now := congrArg View.now hview
    refine h.move hok ((hct.trans h.caughtUp).trans hnow.symm) ?_
    have := Move.finish (P := P) hd hpos
    have hgoto : w'.viewAt c.next = (w'.viewAt c).goto c.next := rfl
    rw [hgoto, hview]
    exact this
  · rintro f - ⟨hz, rfl⟩
    exact h.stop (.finish hd hz)

/-- Remember a refused response. -/
theorem blockResponse_ends (h : At P v (.answered t x false false) w) (hx : x.coreId < v.known) :
    Ends (At P v .idle) (Stops P v) (w.blockResponse t x.coreId) := by
  have hk : x.coreId < w.port.helper.socketNum := by
    have : w.port.helper.socketNum = v.known := h.moves.static.2.1
    exact this ▸ hx
  have hm := Move.block (P := P) (v := w.viewAt (.answered t x false false)) rfl
  unfold blockResponse
  split_ifs with hsys
  · rw [hsys.1] at hm
    exact h.movePort h.ok (h.ok.port.setBlockingResponse hsys.2 (some t)) h.caughtUp hm
  · obtain ⟨h', hh'⟩ := BlockingPacketHelper.updateBlockingMap_total h.ok.port.covers hk.le
      (some t) .response
    have hset := h.ok.port.updateBlockingMap hh' fun hn => absurd hn hsys
    rw [if_neg hsys] at hset
    rw [hh', ok_bind]
    exact h.movePort h.ok hset h.caughtUp hm

/-- The response of a transaction is made and offered to gem5. -/
theorem sendResponse_ends {k : ℕ} (h : At P v (.popped t k) w)
    (hx : (w.payloads t).extension = some x) (hfree : w.port.slots.response x.coreId = none)
    {a : RespAnswer} (hr : ∀ r ∈ a.requests, Makes P r) :
    Ends (fun r => ∃ c : Cur, At P v c r.2 ∧ c.next = .idle ∧
      (r.1 = true → c = .answered t x false false) ∧
      (r.1 = false → Done (r.2.viewAt c) t x)) (Stops P v) (w.sendResponse x a) := by
  unfold sendResponse
  dsimp only
  have hent : At P v (.entered t x) (if (w.packets x.packet).cmd.needsResponse then
      (w.setPacket x.packet (w.packets x.packet).makeResponse).emit
        (.makeResponse x.serial x.packet) else w) := by
    split_ifs with hn
    · exact h.move ((h.ok.setPacket _ _).emit _) h.caughtUp
        (.makeResponse (k := k) rfl hx hfree hn)
    · have hn' : (w.packets x.packet).cmd.needsResponse = false := by simpa using hn
      exact h.move h.ok h.caughtUp (.enter (k := k) rfl hx hfree hn')
  generalize (if (w.packets x.packet).cmd.needsResponse then
      (w.setPacket x.packet (w.packets x.packet).makeResponse).emit
        (.makeResponse x.serial x.packet) else w) = w₁ at hent ⊢
  split_ifs with hresp
  · have hans : At P v (.answered t x false a.accept)
        (w₁.emit (.resp x.serial x.packet a.accept)) :=
      hent.move (hent.ok.emit _) hent.caughtUp (.respond rfl hresp)
    unfold sendTimingResp
    refine Ends.bind (G := fun r => At P v (.answered t x false a.accept) r.2 ∧
      r.1 = a.accept) ?_ ?_
    · exact (gem5Requests_ends hans (by simp) hr).bind fun w' _ hw' => ⟨hw', rfl⟩
    · rintro ⟨b, w'⟩ - ⟨hw', rfl⟩
      refine ⟨_, hw', rfl, fun hb => ?_, fun hb => .inr ⟨false, ?_⟩⟩
      · rw [show a.accept = false by simpa using hb]
      · rw [show a.accept = true by simpa using hb]; rfl
  · have hresp' : (w₁.packets x.packet).cmd.isResponse = false := by simpa using hresp
    exact ⟨_, hent, rfl, by simp, fun _ => .inl ⟨rfl, hresp'⟩⟩

/-- The second part of `pec`: the response phase. -/
theorem pecResponse_ends {e : PayloadEvent} (h : At P v (afterRequest e) w) {a : RespAnswer}
    (hr : ∀ r ∈ a.requests, Makes P r) :
    Ends (At P v .idle) (Stops P v) (w.pecResponse e a) := by
  unfold pecResponse afterRequest at *
  split_ifs at h ⊢ with hph
  · refine Ends.check (fun hn => absurd h.caughtUp hn) fun _ => ?_
    unfold getExtension
    cases hx : (w.payloads e.t).extension with
    | none => exact h.stop (.noExtension hx (.inr (.inl ⟨_, rfl⟩)))
    | some x =>
      obtain ⟨hk, hs⟩ := h.ok.known _ _ hx
      have hk' : x.coreId < v.known := h.moves.static.2.1 ▸ hk
      have hs' : x.coreId < v.sockets := h.moves.static.2.2.1 ▸ hs
      rw [ok_bind]
      refine Ends.bind (G := fun _ => w.port.slots.response x.coreId = none) ?_ ?_
      · unfold assertNotBlocked
        split_ifs with hsys
        · have hslot : w.port.slots.response x.coreId = w.port.blockingResponse := by
            simp only [SCSlavePort.slots, if_pos hsys]
          exact ends_check.2 ⟨hslot.trans,
            fun hb => h.stop (.blocked rfl hx fun hn => hb (hslot.symm.trans hn))⟩
        · have hslot : w.port.slots.response x.coreId = w.port.helper.response x.coreId := by
            simp only [SCSlavePort.slots, if_neg hsys]
          rw [BlockingPacketHelper.getBlockingTrans_eq h.ok.port.covers hk, ok_bind]
          exact ends_check.2 ⟨hslot.trans,
            fun hb => h.stop (.blocked rfl hx fun hn => hb (hslot.symm.trans hn))⟩
      rintro - - hfree
      refine (sendResponse_ends h hx hfree hr).bind ?_
      rintro ⟨retry, w'⟩ - ⟨c', hw', hn, h1, h2⟩
      cases retry with
      | true => exact blockResponse_ends (h1 rfl ▸ hw') hk'
      | false => exact hn ▸ sendEndResp_ends hw' (h2 rfl) hs'
  · exact h

/-- `pec`, called for the first event of the queue. -/
theorem pec_ends (h : At P v .idle w) {e : PayloadEvent} {q : List PayloadEvent}
    (hs : Serviced P (w.viewAt .idle) e q) {o : PecAnswers}
    (hr : ∀ r ∈ o.retry ++ o.resp.requests, Makes P r) :
    Ends (At P v .idle) (Stops P v) (({ w with events := q } : World).pec e o) :=
  (pecRequest_ends h hs fun r hr' => hr r (List.mem_append_left _ hr')).bind fun _ _ h' =>
    pecResponse_ends h' fun r hr' => hr r (List.mem_append_right _ hr')

/-! ## Response retries -/

/-- A refused response is taken out of its slot. -/
theorem takeResponse_ends (h : At P v .retrying w) :
    Ends (fun r => ∀ y ∈ r, At P v (.taken y.1 y.2.1) y.2.2 ∧ y.2.1.coreId < v.sockets)
      (Stops P v) w.takeResponse := by
  have hp := h.ok.port
  unfold takeResponse
  split
  · -- the slot of the system port
    rename_i t hb
    have hcache : w.port.usingGem5Cache = true := by
      by_contra hc
      rw [(hp.noCache (by simpa using hc)).2.2] at hb
      cases hb
    have hslot : (w.viewAt .retrying).slots.response 0 = some t := by
      simp [viewAt, SCSlavePort.slots, hcache, hb]
    unfold getExtension
    cases hx : (w.payloads t).extension with
    | none =>
      simp only [hx]
      exact h.stop (.noExtension hx (.inr (.inr ⟨rfl, 0, hslot⟩)))
    | some x =>
      simp only [hx, ok_bind, pure_eq_ok, ends_ok, Option.mem_def, Option.some.injEq,
        forall_eq']
      exact ⟨h.movePort h.ok (hp.setBlockingResponse hcache none) h.caughtUp
        (.take rfl hslot hx (.inl rfl)), h.moves.static.2.2.1 ▸ (h.ok.known _ _ hx).2⟩
  · -- the slot of a socket
    rename_i t hb hg
    obtain ⟨i, hi⟩ := BlockingPacketHelper.exists_response_of_getBlockingResponse hg
    have hslot : (w.viewAt .retrying).slots.response i = some t := by
      simp only [viewAt, SCSlavePort.slots]
      split_ifs with h0
      · rw [h0.1, (hp.system h0.2).2.2] at hi; cases hi
      · exact hi
    unfold getExtension
    cases hx : (w.payloads t).extension with
    | none =>
      exact h.stop (.noExtension hx (.inr (.inr ⟨rfl, i, hslot⟩)))
    | some x =>
      obtain ⟨hk, hs⟩ := h.ok.known _ _ hx
      obtain ⟨h', hh'⟩ := BlockingPacketHelper.updateBlockingMap_total hp.covers hk.le none
        .response
      have hset := hp.updateBlockingMap hh' fun _ => rfl
      simp only [ok_bind, hh', pure_eq_ok, ends_ok, Option.mem_def, Option.some.injEq, forall_eq']
      refine ⟨?_, h.moves.static.2.2.1 ▸ hs⟩
      have hm : Move P (w.viewAt .retrying) _ := .take (s := x.coreId) rfl hslot hx (.inr rfl)
      refine h.movePort h.ok hset h.caughtUp ?_
      split_ifs with h0
      · have hnone : (w.viewAt .retrying).slots.response 0 = none := by
          simp only [viewAt, SCSlavePort.slots, h0.2, and_self, if_true, hb]
        rw [h0.1] at hm
        have hkeep : update (w.viewAt .retrying).slots.response 0 none =
            (w.viewAt .retrying).slots.response := by rw [← hnone, Function.update_eq_self]
        unfold View.setResponse at hm
        rw [hkeep] at hm
        exact hm
      · exact hm
  · simp

/-- The loop ends when no response waits. -/
theorem response_of_takeResponse (h : w.takeResponse = .ok none) (s : ℕ) :
    w.port.slots.response s = none := by
  unfold takeResponse at h
  split at h
  · obtain ⟨x, -, h⟩ := bind_eq_ok.1 h
    cases h
  · obtain ⟨x, -, h⟩ := bind_eq_ok.1 h
    obtain ⟨h', -, h⟩ := bind_eq_ok.1 h
    cases h
  · rename_i hb hg
    simp only [SCSlavePort.slots, hb, BlockingPacketHelper.getBlockingResponse_eq_none_iff.1 hg s,
      ite_self]

/-- The loop of `recvRespRetry`. -/
theorem respRetryLoop_ends (h : At P v .retrying w) {answers : List RespAnswer}
    (hP : ∀ a ∈ answers, Resends P a.accept) (hr : ∀ a ∈ answers, ∀ r ∈ a.requests, Makes P r) :
    Ends (fun w' => At P v .retrying w' ∧ ∀ s, w'.port.slots.response s = none) (Stops P v)
      (w.respRetryLoop answers) := by
  induction answers generalizing w with
  | nil =>
    unfold respRetryLoop
    refine (takeResponse_ends h).bind fun r hr' hr => ?_
    cases r with
    | none => exact ⟨h, response_of_takeResponse hr'⟩
    | some y => exact (hr y rfl).1.stop .environment
  | cons a answers ih =>
    unfold respRetryLoop
    refine (takeResponse_ends h).bind fun r hr' hy => ?_
    cases r with
    | none => exact ⟨h, response_of_takeResponse hr'⟩
    | some y =>
      obtain ⟨t, x, w₁⟩ := y
      obtain ⟨h₁, hs⟩ := hy _ rfl
      have h₂ : At P v (.answered t x true a.accept)
          (w₁.emit (.resp x.serial x.packet a.accept)) :=
        h₁.move (h₁.ok.emit _) h₁.caughtUp (.resend rfl (hP a (by simp)))
      refine Ends.bind (G := fun r => At P v (.answered t x true a.accept) r.2 ∧
        r.1 = a.accept) ?_ ?_
      · exact (gem5Requests_ends h₂ (by simp) (hr a (by simp))).bind fun w' _ hw' => ⟨hw', rfl⟩
      rintro ⟨b, w₂⟩ - ⟨h₃, rfl⟩
      refine Ends.check (fun hn => ?_) fun hacc => ?_
      · rw [show a.accept = false by simpa using hn] at h₃
        exact h₃.stop (.refused (t := t) (x := x) rfl)
      have hdone : Done (w₂.viewAt (.answered t x true a.accept)) t x := .inr ⟨true, by
        rw [show a.accept = true from hacc]; rfl⟩
      refine (sendEndResp_ends h₃ hdone hs).bind fun w₄ _ h₄ => ?_
      exact ih h₄ (fun a' ha' => hP a' (by simp [ha'])) fun a' ha' => hr a' (by simp [ha'])

/-! ## Acts -/

/-- An act starts between two calls, when gem5 has caught up. -/
theorem at_catchup (hw : w.Ok) : At P w.view .idle w.catchup :=
  ⟨⟨hw.1, hw.2, hw.3, hw.4, hw.5, hw.6, hw.7, hw.8⟩, rfl, .refl⟩

/-- **The port refines its channels.** An act that returns is a run of moves, and one that
faults stops in a view reached by moves. -/
theorem step_ends (hw : w.Ok) {a : Act} (hP : P w.view a) :
    Ends (fun w' => w'.Ok ∧ Moves P w.view w'.view) (Stops P w.view) (w.step a) := by
  have h := at_catchup (P := P) hw
  cases a with
  | recvTimingReq r =>
    refine (gem5Request_ends h (by simp) ⟨_, _, hP, by simp [Act.requests]⟩).bind ?_
    exact fun x _ hx => ⟨hx.ok, hx.moves⟩
  | service o =>
    simp only [step]
    cases hev : w.events with
    | nil => exact h.stop .environment
    | cons e q =>
      refine Ends.check (fun _ => h.stop .environment) fun hdue => ?_
      have hs : Serviced P (w.catchup.viewAt .idle) e q := ⟨⟨o, hP⟩, rfl, hev, hdue⟩
      exact (pec_ends h hs fun r hr => ⟨_, _, hP, hr⟩).mono (fun _ _ h => ⟨h.ok, h.moves⟩)
        fun _ _ h => h
  | recvRespRetry answers =>
    refine Ends.check (fun hn => absurd rfl hn) fun _ => ?_
    have h' : At P w.view .retrying (w.catchup.emit .respRetry) :=
      h.move (h.ok.emit _) rfl (.respRetry rfl)
    refine (respRetryLoop_ends h' (fun a ha => ⟨_, _, hP, a, ha, rfl⟩) fun a ha r hr =>
      ⟨_, _, hP, List.mem_flatMap.2 ⟨a, ha, hr⟩⟩).mono
        (fun _ _ h => ⟨h.1.ok, h.1.moves.tail (.retried h.2 rfl)⟩) fun _ _ h => h
  | nbTransportBw k t ph delay =>
    exact ⟨(hw.emit _).notify _ _ _ _, .single (.bw hP)⟩
  | targetAcquire k t =>
    refine (acquire_ends (c := .idle) (hw.emit _)).mono ?_ ?_
    · rintro w' - ⟨hok, hview, -, hlt⟩
      refine ⟨hok, ?_⟩
      rw [show w'.view = _ from hview]
      exact .single (.targetAcquire hP hlt)
    · rintro f - ⟨hlt, rfl⟩
      exact h.stop (.targetAcquire hP hlt)
  | targetRelease k t =>
    refine (release_ends (c := .idle) (hw.emit _)).mono ?_ ?_
    · rintro w' - ⟨hok, hview, -, hpos⟩
      refine ⟨hok, ?_⟩
      rw [show w'.view = _ from hview]
      exact .single (.targetRelease hP hpos)
    · rintro f - ⟨hz, rfl⟩
      exact h.stop (.targetRelease hP hz)
  | downstreamResponse p =>
    exact Ends.check (fun _ => h.stop .environment) fun hn =>
      ⟨hw.setPacket _ _, .single (.downstream hn)⟩
  | advance d =>
    exact Ends.check (fun _ => h.stop .environment) fun hn =>
      ⟨⟨hw.1, hw.2, hw.3, hw.4, hw.5, hw.6, hw.7, hw.8⟩, .single (.advance hn)⟩

end Calls

end World

/-! ## Runs -/

section Runs

variable {P : Promise} {q : SCSlavePort} {w : World}

theorem World.ok_start (hq : q.Bound) : (World.start q).Ok := by
  obtain ⟨p, tr, hp, hq⟩ := hq
  have hf := SCSlavePort.fresh_of_bind hp hq
  refine ⟨⟨hf.cache.trans hf.usingGem5Cache.symm, hf.covers, hf.unblocked, fun _ => ?_,
    fun _ => ?_⟩, hf.transactor, ⟨tr, hf.transactorMulti⟩, ?_, fun _ _ => rfl, ?_, ?_, ?_⟩
  · exact ⟨hf.blockingRequest, hf.needToSendRequestRetry, hf.blockingResponse⟩
  · exact ⟨congrFun hf.request 0, congrFun hf.owed 0, congrFun hf.response 0⟩
  · exact fun t ht => absurd ht (Nat.not_lt_zero t)
  · exact fun t ht => absurd ht (List.not_mem_nil)
  · exact fun t x hx => by cases hx
  · exact fun e he => absurd he (List.not_mem_nil)

/-- The view of a port on which nothing has happened yet. -/
structure View.Initial (v : View) : Prop where
  request : v.slots.request = fun _ => none
  owed : v.slots.owed = fun _ => false
  response : v.slots.response = fun _ => none
  carried : v.carried = fun _ => none
  refs : v.refs = fun _ => 0
  pool : v.pool = {}
  serial : v.serial = 0
  events : v.events = []
  log : v.log = []
  cur : v.cur = .idle

theorem World.initial_start (hq : q.Bound) : (World.start q).view.Initial := by
  obtain ⟨p, tr, hp, hq⟩ := hq
  have hf := SCSlavePort.fresh_of_bind hp hq
  refine ⟨?_, ?_, ?_, rfl, rfl, rfl, rfl, rfl, rfl, rfl⟩ <;>
    simp only [World.view, World.viewAt, World.start, SCSlavePort.slots, hf.request, hf.owed,
      hf.response, hf.blockingRequest, hf.needToSendRequestRetry, hf.blockingResponse, ite_self]

/-- **Runs of the port are runs of its channels.** -/
theorem PortRun.moves (h : PortRun P q w) (hq : q.Bound) :
    w.Ok ∧ Moves P (World.start q).view w.view :=
  h.simulates (World.ok_start hq) fun _ _ _ hok hP hs => (World.step_ends hok hP).of_eq_ok hs

/-- An invariant of the moves holds along every run. -/
theorem PortRun.invariant {I : View → Prop} (h : PortRun P q w) (hq : q.Bound)
    (h₀ : ∀ v, v.Initial → I v) (hstep : ∀ v u, I v → Move P v u → I u) : I w.view :=
  Moves.invariant (h.moves hq).2 (h₀ _ (World.initial_start hq)) hstep

/-- An act after a run faults in a view that satisfies every invariant of the moves. -/
theorem PortRun.stops {I : View → Prop} (h : PortRun P q w) (hq : q.Bound)
    (h₀ : ∀ v, v.Initial → I v) (hstep : ∀ v u, I v → Move P v u → I u) {a : Act} {f : Fault}
    (hP : P w.view a) (hf : w.step a = .error f) : ∃ v, I v ∧ Stuck P v f := by
  obtain ⟨u, hm, hs⟩ := (World.step_ends (h.moves hq).1 hP).of_eq_error hf
  exact ⟨u, hm.invariant (h.invariant hq h₀ hstep) hstep, hs⟩

end Runs

end Gem5Wrapper
