import Gem5Wrapper.Payloads
import Gem5Wrapper.Direct

/-!
# The access of a transaction

A payload gets its attributes from the packet when the port sends BEGIN_REQ, and both are objects
that are used again: payloads come from the pool, and gem5 sends a packet object again once it has
taken the response. The memory is called later, and the response is made later still.

As long as a payload carries a transaction its attributes stay, and as long as gem5 waits for the
response the packet still asks for the access that the payload describes. So the memory is called
for the access of the packet that gem5 gets back.
-/

namespace Gem5Wrapper

open FaultMachine OneAtATime
open Function (update)

/-! ## Accesses -/

/-- Two packets that ask for the same access: delays and responses make no difference. -/
structure Packet.SameAccess (p q : Packet) : Prop where
  addr : q.addr = p.addr
  size : q.size = p.size
  dataPtr : q.dataPtr = p.dataPtr
  requestorId : q.requestorId = p.requestorId
  isRead : q.cmd.isRead = p.cmd.isRead
  isWrite : q.cmd.isWrite = p.cmd.isWrite
  isInvalidate : q.cmd.isInvalidate = p.cmd.isInvalidate

/-- The payload describes the access of the packet. `packet2payload` sets no command for a packet
that invalidates and does not read. -/
structure Payload.Describes (p : Payload) (pkt : Packet) : Prop where
  address : p.address = pkt.addr
  dataLength : p.dataLength = pkt.size
  streamingWidth : p.streamingWidth = pkt.size
  dataPtr : p.dataPtr = some pkt.dataPtr
  command : pkt.Stated → p.command = pkt.access.command

theorem Packet.SameAccess.refl (p : Packet) : p.SameAccess p := ⟨rfl, rfl, rfl, rfl, rfl, rfl, rfl⟩

theorem Packet.SameAccess.trans {p q r : Packet} (h : p.SameAccess q) (h' : q.SameAccess r) :
    p.SameAccess r where
  addr := h'.addr.trans h.addr
  size := h'.size.trans h.size
  dataPtr := h'.dataPtr.trans h.dataPtr
  requestorId := h'.requestorId.trans h.requestorId
  isRead := h'.isRead.trans h.isRead
  isWrite := h'.isWrite.trans h.isWrite
  isInvalidate := h'.isInvalidate.trans h.isInvalidate

theorem SameAttributes.refl (p : Payload) : SameAttributes p p :=
  ⟨rfl, rfl, rfl, rfl, rfl, rfl, rfl⟩

theorem Payload.Describes.access {p : Payload} {pkt : Packet} (h : p.Describes pkt)
    (hst : pkt.Stated) : p.access = pkt.access := by
  unfold Payload.access
  rw [h.address, h.dataLength, h.dataPtr, h.command hst]
  rfl

theorem Payload.Describes.congr {p p' : Payload} {pkt pkt' : Packet} (h : p.Describes pkt)
    (hp : SameAttributes p p') (hpkt : pkt.SameAccess pkt') : p'.Describes pkt' where
  address := hp.address.symm.trans (h.address.trans hpkt.addr.symm)
  dataLength := hp.dataLength.symm.trans (h.dataLength.trans hpkt.size.symm)
  streamingWidth := hp.streamingWidth.symm.trans (h.streamingWidth.trans hpkt.size.symm)
  dataPtr := hp.dataPtr.symm.trans (h.dataPtr.trans (congrArg some hpkt.dataPtr.symm))
  command hst := by
    have hst' : pkt.Stated := hst.imp hpkt.isRead.symm.trans hpkt.isInvalidate.symm.trans
    rw [← hp.command, h.command hst']
    unfold Packet.access
    rw [hpkt.isRead]

namespace World

/-! ## What calls keep of accesses -/

/-- gem5 has taken the response of the transaction that payload `t` carries, or the port has
released it: gem5 may use the packet again. -/
def Answered (w : World) (t : Ptr) (x : Gem5Extension) : Prop :=
  .resp x.serial x.packet true ∈ w.trace ∨ .release x.serial t ∈ w.trace

/-- The payloads that carry transactions are payloads of the pool, and describe the accesses of
packets that gem5 waits for. -/
structure Described (w : World) : Prop where
  pooled : ∀ t, (w.payloads t).hasMm = true → t < w.mm.numberOfAllocations
  carried : ∀ t x, (w.payloads t).extension = some x →
    (w.payloads t).hasMm = true ∧ x.serial < w.serial
  describes : ∀ t x, (w.payloads t).extension = some x → ¬ w.Answered t x →
    (w.payloads t).Describes (w.packets x.packet)

/-- The transactions of `w` that are carried in `w'` still have their attributes, and their packets
their accesses unless gem5 may use them again. -/
structure Intact (w w' : World) : Prop where
  serial : w.serial ≤ w'.serial
  history : w.trace <:+ w'.trace
  payload : ∀ t x, (w'.payloads t).extension = some x → x.serial < w.serial →
    (w.payloads t).extension = some x ∧ SameAttributes (w.payloads t) (w'.payloads t)
  packet : ∀ t x, (w'.payloads t).extension = some x → x.serial < w.serial → ¬ w'.Answered t x →
    (w.packets x.packet).SameAccess (w'.packets x.packet)

/-- A call that starts with described payloads leaves them intact, and ends with such. -/
def Retains (w w' : World) : Prop := w.Described → w'.Described ∧ w.Intact w'

variable {w w' w'' : World} {packet : PacketPtr} {s : ℕ} {t : Ptr} {x : Gem5Extension}

theorem Answered.mono (h : w.trace <:+ w'.trace) (ha : w.Answered t x) : w'.Answered t x :=
  ha.imp (fun hm => h.subset hm) fun hm => h.subset hm

theorem Intact.refl (w : World) : w.Intact w :=
  ⟨le_rfl, List.suffix_rfl, fun _ _ h _ => ⟨h, .refl _⟩, fun _ _ _ _ _ => .refl _⟩

theorem Intact.trans (h : w.Intact w') (h' : w'.Intact w'') : w.Intact w'' where
  serial := h.serial.trans h'.serial
  history := h.history.trans h'.history
  payload t x hx hlt := by
    obtain ⟨hx', ha'⟩ := h'.payload t x hx (hlt.trans_le h.serial)
    obtain ⟨hx'', ha⟩ := h.payload t x hx' hlt
    exact ⟨hx'', ha.trans ha'⟩
  packet t x hx hlt hn := by
    have hlt' := hlt.trans_le h.serial
    have hx' := (h'.payload t x hx hlt').1
    exact (h.packet t x hx' hlt fun ha => hn (ha.mono h'.history)).trans (h'.packet t x hx hlt' hn)

theorem Retains.refl (w : World) : w.Retains w := fun h => ⟨h, .refl w⟩

theorem Retains.trans (h : w.Retains w') (h' : w'.Retains w'') : w.Retains w'' := by
  intro hd
  obtain ⟨hd', hi⟩ := h hd
  obtain ⟨hd'', hi'⟩ := h' hd'
  exact ⟨hd'', hi.trans hi'⟩

/-- What describes accesses is described again if it is intact, unless it is new. -/
theorem Intact.described (h : w.Intact w') (hd : w.Described)
    (hpooled : ∀ t, (w'.payloads t).hasMm = true → t < w'.mm.numberOfAllocations)
    (hcarried : ∀ t x, (w'.payloads t).extension = some x →
      (w'.payloads t).hasMm = true ∧ x.serial < w'.serial)
    (hnew : ∀ t x, (w'.payloads t).extension = some x → w.serial ≤ x.serial →
      (w'.payloads t).Describes (w'.packets x.packet)) : w'.Described where
  pooled := hpooled
  carried := hcarried
  describes t x hx hn := by
    obtain hlt | hle := Nat.lt_or_ge x.serial w.serial
    · obtain ⟨hx', ha⟩ := h.payload t x hx hlt
      have hn' : ¬ w.Answered t x := fun ha => hn (ha.mono h.history)
      exact (hd.describes t x hx' hn').congr ha (h.packet t x hx hlt hn)
    · exact hnew t x hx hle

/-- A change of anything but payloads and packets. -/
theorem retains_of_eq (hs : w'.serial = w.serial) (hh : w.trace <:+ w'.trace)
    (hmm : w'.mm = w.mm) (hp : w'.payloads = w.payloads) (hpk : w'.packets = w.packets) :
    w.Retains w' := by
  intro hd
  have hi : w.Intact w' := by
    refine ⟨hs.ge, hh, fun t x hx _ => ?_, fun t x _ _ _ => ?_⟩
    · rw [hp] at hx ⊢
      exact ⟨hx, .refl _⟩
    · rw [hpk]
      exact .refl _
  refine ⟨hi.described hd (by rw [hp, hmm]; exact hd.pooled) (by rw [hp, hs]; exact hd.carried) ?_,
    hi⟩
  intro t x hx hle
  rw [hp] at hx
  exact absurd (hd.carried t x hx).2 (Nat.not_lt.2 hle)

/-- A change of a packet that no transaction waits for, or of none of its access. -/
theorem retains_setPacket {p : PacketPtr} {pkt : Packet}
    (h : (w.packets p).SameAccess pkt ∨
      ∀ t x, (w.payloads t).extension = some x → x.packet = p → w.Answered t x) :
    w.Retains (w.setPacket p pkt) := by
  intro hd
  have hi : w.Intact (w.setPacket p pkt) := by
    refine ⟨le_rfl, List.suffix_rfl, fun t x hx _ => ⟨hx, .refl _⟩, fun t x hx _ hn => ?_⟩
    show (w.packets x.packet).SameAccess (update w.packets p pkt x.packet)
    by_cases hp : x.packet = p
    · obtain h | h := h
      · rw [hp, Function.update_self]
        exact h
      · exact absurd (h t x hx hp) hn
    · rw [Function.update_of_ne hp]
      exact .refl _
  refine ⟨hi.described hd hd.pooled hd.carried fun t x hx hle => ?_, hi⟩
  exact absurd (hd.carried t x hx).2 (Nat.not_lt.2 hle)

/-- A change of a payload that keeps the attributes. Its extension goes or stays. -/
theorem retains_setPayload {p : Payload} {mm : MemoryManager}
    (hmm : mm.numberOfAllocations = w.mm.numberOfAllocations)
    (ha : SameAttributes (w.payloads t) p) (hhas : p.hasMm = (w.payloads t).hasMm)
    (hx : p.extension = none ∨ p.extension = (w.payloads t).extension) :
    w.Retains { w.setPayload t p with mm := mm } := by
  intro hd
  have hold : ∀ t' x, (update w.payloads t p t').extension = some x →
      (w.payloads t').extension = some x ∧
        SameAttributes (w.payloads t') (update w.payloads t p t') := by
    intro t' x hx'
    by_cases ht : t' = t
    · rw [ht, Function.update_self] at hx' ⊢
      obtain hx | hx := hx
      · rw [hx] at hx'
        cases hx'
      · exact ⟨hx.symm.trans hx', ha⟩
    · rw [Function.update_of_ne ht] at hx' ⊢
      exact ⟨hx', .refl _⟩
  have hi : w.Intact { w.setPayload t p with mm := mm } :=
    ⟨le_rfl, List.suffix_rfl, fun t' x hx' _ => hold t' x hx', fun _ _ _ _ _ => .refl _⟩
  have hhas' : ∀ t', (update w.payloads t p t').hasMm = (w.payloads t').hasMm := by
    intro t'
    by_cases ht : t' = t
    · rw [ht, Function.update_self]
      exact hhas
    · rw [Function.update_of_ne ht]
  refine ⟨hi.described hd (fun t' ht => ?_) (fun t' x hx' => ?_) fun t' x hx' hle => ?_, hi⟩
  · show t' < mm.numberOfAllocations
    rw [hmm]
    exact hd.pooled t' ((hhas' t').symm.trans ht)
  · obtain ⟨hm, hlt⟩ := hd.carried t' x (hold t' x hx').1
    exact ⟨(hhas' t').trans hm, hlt⟩
  · exact absurd (hd.carried t' x (hold t' x hx').1).2 (Nat.not_lt.2 hle)

/-! ## Requests -/

/-- A payload that could be prepared came from the pool, and the packet has a command. -/
theorem of_prepare (h : w.prepare packet s = .ok (t, w')) : w.pooled.hasMm = true ∧
    ((w.packets packet).cmd.isRead = true ∨ (w.packets packet).cmd.isInvalidate = true ∨
      (w.packets packet).cmd.isWrite = true) := by
  constructor
  · obtain ⟨_, ha, -⟩ := bind_eq_ok.1 h
    obtain ⟨_, hmm, -⟩ := bind_eq_ok.1 ha
    rw [check_eq_ok, w.allocate_payloads.1] at hmm
    exact hmm
  · by_contra hc
    obtain ⟨e, he⟩ : ∃ e, w.prepare packet s = .error e :=
      prepare_fault s (by simpa using hc)
    rw [h] at he
    cases he

/-- The payload that a packet gets describes its access. -/
theorem describes_fill (p : Payload) (pkt : Packet) : (p.fill pkt).Describes pkt where
  address := rfl
  dataLength := rfl
  streamingWidth := rfl
  dataPtr := rfl
  command hst := by
    unfold Packet.Stated at hst
    unfold Payload.fill Packet.access
    cases hr : pkt.cmd.isRead with
    | true => rfl
    | false =>
      rw [hr] at hst
      rw [hst.resolve_left Bool.false_ne_true]
      rfl

/-- The payloads that are handed out are counted. -/
theorem Described.lt_allocations (hd : w.Described) (hmm : w.pooled.hasMm = true) :
    w.mm.allocate.1 < w.mm.allocate.2.numberOfAllocations ∧
      w.mm.numberOfAllocations ≤ w.mm.allocate.2.numberOfAllocations := by
  unfold World.pooled MemoryManager.isNew at hmm
  unfold MemoryManager.allocate at hmm ⊢
  cases hfree : w.mm.freePayloads with
  | nil => exact ⟨Nat.lt_succ_self _, Nat.le_succ _⟩
  | cons t rest =>
    rw [hfree] at hmm
    exact ⟨hd.pooled t hmm, le_rfl⟩

theorem prepare_retains (h : w.prepare packet s = .ok (t, w')) : w.Retains w' := by
  intro hd
  obtain ⟨hmm, hc⟩ := of_prepare h
  obtain ⟨hlt, hle⟩ := hd.lt_allocations hmm
  rw [prepare_eq hmm hc] at h
  cases h
  -- what is carried is new, or was carried before
  have hcarried : ∀ t' x, (update w.payloads w.mm.allocate.1
      { w.pooled.fill (w.packets packet) with
        refCount := w.pooled.refCount + 1
        extension := some ⟨packet, s, w.serial⟩ } t').extension = some x →
      t' = w.mm.allocate.1 ∧ x = ⟨packet, s, w.serial⟩ ∨
        t' ≠ w.mm.allocate.1 ∧ (w.payloads t').extension = some x := by
    intro t' x hx
    by_cases ht : t' = w.mm.allocate.1
    · rw [ht, Function.update_self] at hx
      exact .inl ⟨ht, (Option.some.inj hx).symm⟩
    · rw [Function.update_of_ne ht] at hx
      exact .inr ⟨ht, hx⟩
  have hi : w.Intact { w with
      mm := w.mm.allocate.2
      payloads := update w.payloads w.mm.allocate.1
        { w.pooled.fill (w.packets packet) with
          refCount := w.pooled.refCount + 1
          extension := some ⟨packet, s, w.serial⟩ }
      serial := w.serial + 1 } := by
    refine ⟨Nat.le_succ _, List.suffix_rfl, fun t' x hx hlt' => ?_, fun _ _ _ _ _ => .refl _⟩
    obtain ⟨-, rfl⟩ | ⟨ht, hx'⟩ := hcarried t' x hx
    · exact absurd hlt' (lt_irrefl _)
    · refine ⟨hx', ?_⟩
      show SameAttributes _ (update w.payloads _ _ t')
      rw [Function.update_of_ne ht]
      exact .refl _
  refine ⟨hi.described hd (fun t' ht => ?_) (fun t' x hx => ?_) fun t' x hx hle' => ?_, hi⟩
  · by_cases he : t' = w.mm.allocate.1
    · exact he ▸ hlt
    · change (update w.payloads _ _ t').hasMm = true at ht
      rw [Function.update_of_ne he] at ht
      exact (hd.pooled t' ht).trans_le hle
  · show (update w.payloads _ _ t').hasMm = true ∧ x.serial < w.serial + 1
    obtain ⟨rfl, rfl⟩ | ⟨ht, hx'⟩ := hcarried t' x hx
    · rw [Function.update_self]
      exact ⟨hmm, Nat.lt_succ_self _⟩
    · rw [Function.update_of_ne ht]
      exact (hd.carried t' x hx').imp id Nat.lt_succ_of_lt
  · show (update w.payloads _ _ t').Describes (w.packets x.packet)
    obtain ⟨rfl, rfl⟩ | ⟨-, hx'⟩ := hcarried t' x hx
    · rw [Function.update_self]
      exact (describes_fill w.pooled _).congr ⟨rfl, rfl, rfl, rfl, rfl, rfl, rfl⟩ (.refl _)
    · exact absurd (hd.carried t' x hx').2 (Nat.not_lt.2 hle')

theorem release_retains (h : w.release t = .ok w') : w.Retains w' := by
  obtain ⟨-, -, h⟩ := bind_eq_ok.1 h
  dsimp only at h
  split_ifs at h
  · cases h
    exact retains_setPayload rfl ⟨rfl, rfl, rfl, rfl, rfl, rfl, rfl⟩ rfl (.inl rfl)
  · cases h
    exact retains_setPayload rfl ⟨rfl, rfl, rfl, rfl, rfl, rfl, rfl⟩ rfl (.inr rfl)

theorem emit_retains (w : World) (o : Obs) : w.Retains (w.emit o) :=
  retains_of_eq rfl (List.suffix_cons ..) rfl rfl rfl

theorem handleReply_retains {k : ℕ} {reply : Reply} (h : w.handleReply t s k reply = .ok w') :
    w.Retains w' := by
  unfold handleReply at h
  split at h
  · obtain ⟨-, -, h⟩ := bind_eq_ok.1 h
    split_ifs at h
    · cases h
      exact retains_of_eq rfl List.suffix_rfl rfl rfl rfl
    · obtain ⟨_, -, h⟩ := bind_eq_ok.1 h
      cases h
      exact retains_of_eq rfl List.suffix_rfl rfl rfl rfl
  · obtain ⟨-, -, h⟩ := bind_eq_ok.1 h
    cases h
    exact retains_of_eq rfl List.suffix_rfl rfl rfl rfl
  · obtain ⟨-, -, h⟩ := bind_eq_ok.1 h
    exact (emit_retains w _).trans (release_retains h)

theorem sendBeginReq_retains {reply : Reply} (h : w.sendBeginReq packet s reply = .ok w') :
    w.Retains w' := by
  rw [sendBeginReq_eq] at h
  obtain ⟨⟨t, w₁⟩, hp, h⟩ := bind_eq_ok.1 h
  obtain ⟨w₂, hw, h⟩ := bind_eq_ok.1 h
  have hpackets : w₁.packets = w.packets := (prepare_packets hp :)
  have hprep : w.Retains w₁ := (emit_retains w _).trans (prepare_retains hp)
  have hdelays : w₁.Retains (w₁.setPacket packet
      { w.packets packet with payloadDelay := 0, headerDelay := 0 }) := by
    refine retains_setPacket (.inl ?_)
    rw [hpackets]
    exact ⟨rfl, rfl, rfl, rfl, rfl, rfl, rfl⟩
  have hfw : (w₁.setPacket packet
      { w.packets packet with payloadDelay := 0, headerDelay := 0 }).Retains w₂ := by
    rw [nbTransportFw_eq] at hw
    obtain ⟨_, -, hw⟩ := bind_eq_ok.1 hw
    cases hw
    exact emit_retains _ _
  exact hprep.trans (hdelays.trans (hfw.trans (handleReply_retains h)))

/-- gem5 sends no packet that it waits for. -/
theorem answered_of_inFlight (h : w.inFlight packet = false) (hd : w.Described)
    (hx : (w.payloads t).extension = some x) (hp : x.packet = packet) : w.Answered t x := by
  have ht : t < w.mm.numberOfAllocations := hd.pooled t (hd.carried t x hx).1
  have hany := List.any_eq_false.1 h t (List.mem_range.2 ht)
  rw [hx] at hany
  simp only [hp, beq_self_eq_true, Bool.true_and, Bool.and_eq_true, Bool.not_eq_true', not_and,
    List.contains_eq_mem, decide_eq_false_iff_not] at hany
  unfold Answered
  rw [hp]
  by_cases hr : .resp x.serial packet true ∈ w.trace
  · exact .inl hr
  · exact .inr (not_not.1 (hany hr))

theorem gem5Request_retains {r : Request} {b : Bool} (h : w.gem5Request r = .ok (b, w')) :
    w.Retains w' := by
  obtain ⟨-, -, h⟩ := bind_eq_ok.1 h
  obtain ⟨_, hfree, h⟩ := bind_eq_ok.1 h
  have hset : w.Retains (w.setPacket r.packet r.content) := fun hd =>
    retains_setPacket (.inr fun t x => answered_of_inFlight (check_eq_ok.1 hfree) hd) hd
  refine hset.trans ?_
  obtain ⟨k, port, -, -, -, rfl⟩ | ⟨s, -, h⟩ := recvTimingReq_cases h
  · exact retains_of_eq rfl (List.suffix_cons ..) rfl rfl rfl
  · exact sendBeginReq_retains h

/-- Transaction `k` has come, with the packet and the access of request `r`. -/
def Comes (w : World) (k : ℕ) (r : Request) : Prop :=
  ∃ t x, (w.payloads t).extension = some x ∧ x.serial = k ∧ x.packet = r.packet ∧
    r.content.SameAccess (w.packets r.packet)

theorem sendBeginReq_comes {r : Request} (hr : r.reply.status = .accepted)
    (hc : w.packets r.packet = r.content) (h : w.sendBeginReq r.packet s r.reply = .ok w') :
    w'.Comes w.serial r := by
  rw [sendBeginReq_eq] at h
  obtain ⟨⟨t, w₁⟩, hp, h⟩ := bind_eq_ok.1 h
  obtain ⟨w₂, hw, h⟩ := bind_eq_ok.1 h
  obtain ⟨-, -, -, hx⟩ := prepare_port hp
  have hw₂ : w₂.payloads = w₁.payloads ∧ w₂.packets = update w₁.packets r.packet
      { w.packets r.packet with payloadDelay := 0, headerDelay := 0 } := by
    rw [nbTransportFw_eq] at hw
    obtain ⟨_, -, hw⟩ := bind_eq_ok.1 hw
    cases hw
    exact ⟨rfl, rfl⟩
  have hw' : w'.payloads = w₂.payloads ∧ w'.packets = w₂.packets := by
    unfold handleReply at h
    rw [hr] at h
    obtain ⟨-, -, h⟩ := bind_eq_ok.1 h
    split_ifs at h
    · cases h
      exact ⟨rfl, rfl⟩
    · obtain ⟨_, -, h⟩ := bind_eq_ok.1 h
      cases h
      exact ⟨rfl, rfl⟩
  refine ⟨t, _, by rw [hw'.1, hw₂.1]; exact hx, rfl, rfl, ?_⟩
  rw [hw'.2, hw₂.2, Function.update_self, hc]
  exact ⟨rfl, rfl, rfl, rfl, rfl, rfl, rfl⟩

/-- A request that becomes a transaction brings its access. -/
theorem gem5Request_comes {r : Request} {b : Bool} (h : w.gem5Request r = .ok (b, w'))
    (hr : r.reply.status = .accepted) (hs : w.serial < w'.serial) : w'.Comes w.serial r := by
  obtain ⟨-, -, h⟩ := bind_eq_ok.1 h
  obtain ⟨-, -, h⟩ := bind_eq_ok.1 h
  obtain ⟨k, port, -, -, -, rfl⟩ | ⟨s, -, h⟩ := recvTimingReq_cases h
  · exact absurd hs (Nat.lt_irrefl _)
  · exact sendBeginReq_comes (w := w.setPacket r.packet r.content) hr (Function.update_self ..) h

theorem retains_stepRule : StepRule Retains where
  refl := .refl
  trans _ _ _ h h' := h.trans h'
  emit := emit_retains
  port _ _ := retains_of_eq rfl List.suffix_rfl rfl rfl rfl
  release _ _ _ h := release_retains h
  makeResponse _ _ := retains_setPacket (.inl ⟨rfl, rfl, rfl, rfl, rfl, rfl, rfl⟩)
  request _ _ _ _ h := gem5Request_retains h
  catchup _ := retains_of_eq rfl List.suffix_rfl rfl rfl rfl
  events _ _ := retains_of_eq rfl List.suffix_rfl rfl rfl rfl
  acquire _ _ _ h := by
    obtain ⟨-, -, h⟩ := bind_eq_ok.1 h
    cases h
    exact retains_setPayload rfl ⟨rfl, rfl, rfl, rfl, rfl, rfl, rfl⟩ rfl (.inr rfl)

/-- **Every act of the port leaves the accesses intact.** -/
theorem step_retains {a : Gem5Wrapper.Act} (h : w.step a = .ok w') : w.Retains w' := by
  by_cases ha : ∃ d, a = .advance d
  · obtain ⟨d, rfl⟩ := ha
    obtain ⟨-, -, h⟩ := bind_eq_ok.1 h
    cases h
    exact retains_of_eq rfl List.suffix_rfl rfl rfl rfl
  · exact retains_stepRule.step h fun d hd => ha ⟨d, hd⟩

theorem described_start (q : SCSlavePort) : (World.start q).Described where
  pooled t ht := absurd ht Bool.false_ne_true
  carried t x hx := by cases hx
  describes t x hx := by cases hx

end World

/-! ## The closed system -/

namespace ClosedSystem

/-- An open transaction has its payload, which describes the access of its packet, and what a
memory executes is open. -/
structure Faithful (y : ClosedSystem) : Prop where
  waiting : ∀ k t s a d r, .beginReq k t s a d r ∈ y.port.trace → ¬ Released y.port.trace k →
    ∃ e, (y.port.payloads t).extension = some e ∧ e.serial = k ∧ e.coreId = s ∧
      (y.port.payloads t).Describes (y.port.packets e.packet)
  memory : ∀ s x, (y.routers s).process = some x → ∃ a d r,
    .beginReq x.serial x.payload s a d r ∈ y.port.trace ∧ ¬ Released y.port.trace x.serial

variable {c : Wiring} {y y' : ClosedSystem} {a : Act} {s k : ℕ} {t : Ptr} {w w' : World}
  {q : SCSlavePort} {R : ℕ → TxnRouter Transaction} {x : Transaction}

theorem backwards_retains {l : List (TxnRouter.Obs Transaction)}
    (h : backwards w l = .ok w') : w.Retains w' := by
  induction l generalizing w' with
  | nil =>
    cases h
    exact .refl w
  | cons o l ih =>
    obtain ⟨w₁, h₁, h₂⟩ := bind_eq_ok.1 h
    refine (ih h₁).trans ?_
    cases o with
    | acquire z => exact World.step_retains (a := .targetAcquire _ _) h₂
    | endReq z => exact World.step_retains (a := .nbTransportBw _ _ _ _) h₂
    | beginResp z status reply => exact World.step_retains (a := .nbTransportBw _ _ _ _) h₂
    | release z => exact World.step_retains (a := .targetRelease _ _) h₂
    | _ =>
      cases h₂
      exact .refl _

theorem step_retains (h : y.step a = .ok y') : y.port.Retains y'.port := by
  have hport : ∀ b, y.portStep b = .ok y' → y.port.Retains y'.port := by
    intro b hb
    obtain ⟨w, hw, hb⟩ := bind_eq_ok.1 hb
    obtain ⟨_, -, hb⟩ := bind_eq_ok.1 hb
    cases hb
    exact World.step_retains hw
  have hrouter : ∀ s b, y.routerStep s b = .ok y' → y.port.Retains y'.port := by
    intro s b hb
    obtain ⟨_, -, hb⟩ := bind_eq_ok.1 hb
    obtain ⟨w, hw, hb⟩ := bind_eq_ok.1 hb
    cases hb
    exact backwards_retains hw
  cases a with
  | recvTimingReq r => exact hport _ h
  | service o => exact hport _ h
  | recvRespRetry answers => exact hport _ h
  | peqCb s i => exact hrouter s _ h
  | targetDone s => exact hrouter s _ h
  | memoryDone s status => exact hrouter s _ h
  | advance d =>
    obtain ⟨-, -, h⟩ := bind_eq_ok.1 h
    exact hport _ h

theorem retains_of_run (h : Run step Obeyed y y') : y.port.Retains y'.port :=
  h.invariant (I := fun u => y.port.Retains u.port) (.refl _)
    fun _ _ _ hi _ hs => hi.trans (step_retains hs)

/-- What the port has not released carries its transaction: `pec` has not run for its BEGIN_RESP,
or a slot keeps the response. -/
theorem Ok.carries_of_unreleased (hok : Ok c y) (hi : y.Live) {a d : ℕ} {r : Reply}
    (hb : .beginReq k t s a d r ∈ y.port.trace) (hn : ¬ Released y.port.trace k) :
    ∃ e, (y.port.payloads t).extension = some e ∧ e.serial = k ∧ e.coreId = s := by
  have hport := hok.joint.port
  rw [← World.trace_view] at hb hn
  obtain ⟨t', e, he, rfl⟩ : ∃ t' e, y.port.view.carried t' = some e ∧ e.serial = k := by
    by_cases hpec : .pec k .beginResp ∈ y.port.view.trace
    · obtain hr | hd | ⟨s', t', e, -, he, hk⟩ := hi.kept.kept k hpec
      · exact absurd hr hn
      · exact hd.elim
      · exact ⟨t', e, he, hk⟩
    · have hbegun : Begun y.port.view.trace k t :=
        ⟨_, hb, by simp [Obs.begins, hport.accepted _ _ _ _ _ _ hb]⟩
      obtain ⟨e, hk, he⟩ := hport.life.alive k t hbegun hpec
      exact ⟨t, e, he.carried, hk⟩
  obtain ⟨d', r', hb'⟩ := hport.life.born t' e he
  obtain ⟨rfl, rfl⟩ := hport.one.unique hb hb'
  exact ⟨e, he, rfl, rfl⟩

/-- The memory executes what is not answered yet. -/
theorem Ok.unreleased_of_process (hok : Ok c y) (hx : (y.routers s).process = some x) :
    ∃ a d r, .beginReq x.serial x.payload s a d r ∈ y.port.trace ∧
      ¬ Released y.port.trace x.serial := by
  obtain ⟨w, st, hprot⟩ := (hok.joint.settled s).protocol
  obtain rfl : st = .started x := hprot.stage.eq_started hx
  have hord := hprot.front.serves.ordered
  have hreq : x ∈ requests (y.routers s).events := by simp [hord.requests, Stage.granted?]
  have hans : x ∉ answers (y.routers s).events := by
    have hnd := hord.nodup
    rw [hord.requests, List.append_assoc] at hnd
    have hcl := (List.nodup_cons.1 (List.nodup_append.1 hnd).2.1).1
    rw [hord.answers]
    simpa [Stage.answered?] using hcl
  have hhalf := Half.of_joint hok.port hok.joint s
  have hpec := hhalf.not_pec hreq hans
  obtain ⟨a, d, r, hb⟩ := ((hok.joint.linked s).begun x).1 hreq
  rw [World.trace_view] at hb hpec
  exact ⟨a, d, r, hb, fun hr => hpec (hok.ended_of_released hb hr).2⟩

theorem Ok.faithful (hok : Ok c y) (hi : y.Live) (hd : y.port.Described) : y.Faithful where
  waiting k t s a d r hb hn := by
    obtain ⟨e, he, rfl, hs⟩ := hok.carries_of_unreleased hi hb hn
    refine ⟨e, he, rfl, hs, hd.describes t e he fun ha => ?_⟩
    obtain hresp | hrel := ha
    · rw [← World.trace_view] at hresp hn
      obtain hr | ⟨_, _, _, hcur, -⟩ := hok.joint.port.accepting.accepted _ _ hresp
      · exact hn hr
      · cases hcur
    · exact hn ⟨t, hrel⟩
  memory s x hx := hok.unreleased_of_process hx

/-- A request of gem5 that becomes a transaction. -/
theorem comes_of_step {r : Request} (hr : y.Routed r) (hs : y.step (.recvTimingReq r) = .ok y')
    (hk : y.port.serial < y'.port.serial) : y'.port.Comes y.port.serial r := by
  obtain ⟨w, hw, hs⟩ := bind_eq_ok.1 hs
  obtain ⟨_, -, hs⟩ := bind_eq_ok.1 hs
  cases hs
  obtain ⟨⟨b, u⟩, hu, hw⟩ := bind_eq_ok.1 hw
  cases hw
  have haccepted : r.reply.status = .accepted := by rw [hr.2.2]
  exact World.gem5Request_comes (w := y.port.catchup) hu haccepted hk

/-- A write of 8 bytes at address 64. -/
def writeRequest (packet : PacketPtr) : Request where
  packet := packet
  content := { cmd := { isWrite := true, needsResponse := true }, addr := 64, size := 8 }
  reply := ⟨.accepted, .beginReq, 0⟩

end ClosedSystem

end Gem5Wrapper
