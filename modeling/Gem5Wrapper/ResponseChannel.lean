import Gem5Wrapper.Phases

/-!
# The response channel

A transaction whose packet needs a response is released after gem5 has accepted the response, and
a response that gem5 has refused stands in the way of all others.

Both hold with exceptions. The port releases a transaction that the target completes at once
without a response, and it remembers refused responses for each socket, while gem5 has one port.
-/

namespace Gem5Wrapper

open FaultMachine
open Function (update)
open History (Along)
open Std (TreeMap)

variable {P : Promise} {v u : View} {k s : ℕ} {t : Ptr} {x : Gem5Extension}

/-! ## Responses before releases -/

/-- Each transaction whose packet needs a response is released after gem5 has accepted it. -/
def ResponsesFirst : List Obs → Prop := Along fun o l =>
  match o with
  | .release k _ => ∀ t p, .allocate k t p true ∈ l → .resp k p true ∈ l
  | _ => True

/-- A packet that needs a response, or is one. -/
def Packet.Responds (pkt : Packet) : Prop :=
  pkt.cmd.needsResponse = true ∨ pkt.cmd.isResponse = true

/-- The extension names the packet of its transaction. -/
structure Named (v : View) (x : Gem5Extension) : Prop where
  serial : x.serial < v.serial
  packet : ∀ t p, .allocate x.serial t p true ∈ v.trace → p = x.packet

/-- If the transaction needs a response, gem5 has accepted it or can still get it. -/
def Awaited (v : View) (x : Gem5Extension) : Prop :=
  ∀ t p, .allocate x.serial t p true ∈ v.trace →
    .resp x.serial p true ∈ v.trace ∨ (v.packets p).Responds

theorem Move.allocated (h : Move P v u) {p : PacketPtr} {b : Bool}
    (hk : .allocate k t p b ∈ u.trace) : .allocate k t p b ∈ v.trace ∨
      ∃ r, Admitted P v r ∧ k = v.serial ∧ t = v.next ∧ p = r.packet ∧
        b = r.content.cmd.needsResponse ∧ u.serial = v.serial + 1 := by
  cases h
  case accepted r ha hs => simp at hk; tauto
  case updated r ha hs hp => simp at hk; tauto
  case completed r ha hs => simp at hk; tauto
  case advance => exact .inl hk
  all_goals simp at hk; exact .inl hk

theorem Move.serial_le (h : Move P v u) : v.serial ≤ u.serial := by
  cases h
  case accepted => exact Nat.le_succ _
  case updated => exact Nat.le_succ _
  case completed => exact Nat.le_succ _
  all_goals exact Nat.le_refl _

/-- Packets become responses, or gem5 reuses them for a request. -/
theorem Move.packets (h : Move P v u) (p : PacketPtr) : u.packets p = v.packets p ∨
    ((v.packets p).cmd.needsResponse = true ∧ u.packets p = (v.packets p).makeResponse) ∨
      ∃ r, v.Sendable r ∧ r.packet = p := by
  have hmake : ∀ q, (v.packets q).cmd.needsResponse = true →
      update v.packets q (v.packets q).makeResponse p = v.packets p ∨
        ((v.packets p).cmd.needsResponse = true ∧
          update v.packets q (v.packets q).makeResponse p = (v.packets p).makeResponse) := by
    intro q hn
    by_cases hq : p = q
    · subst hq; simp [hn]
    · simp [hq]
  have hsend : ∀ r pkt, v.Sendable r → update v.packets r.packet pkt p = v.packets p ∨
      ∃ r, v.Sendable r ∧ r.packet = p := by
    intro r pkt hr
    by_cases hq : p = r.packet
    · exact .inr ⟨r, hr, hq.symm⟩
    · simp [hq]
  cases h
  case refuse r t hr hs ht => exact (hsend r _ hs).imp id .inr
  case accepted r ha hs => exact (hsend r _ ha.sendable).imp id .inr
  case updated r ha hs hp => exact (hsend r _ ha.sendable).imp id .inr
  case completed r ha hs => exact (hsend r _ ha.sendable).imp id .inr
  case makeResponse t k x hc hx hf hn => exact (hmake _ hn).imp id .inl
  case downstream q hn => exact (hmake _ hn).imp id .inl
  all_goals exact .inl rfl

theorem Named.mono (hn : Named v x) (h : Move P v u) : Named u x := by
  refine ⟨hn.serial.trans_le h.serial_le, fun t p hm => ?_⟩
  rcases h.allocated hm with hm | ⟨r, -, hk, -⟩
  · exact hn.packet t p hm
  · exact absurd hk hn.serial.ne

theorem Awaited.mono (ha : Awaited v x) (hn : Named v x) (h : Move P v u)
    (hs : ∀ r, v.Sendable r → r.packet = x.packet → Awaited v x → ∀ t,
      .allocate x.serial t x.packet true ∈ v.trace → .resp x.serial x.packet true ∈ v.trace) :
    Awaited u x := by
  intro t p hm
  rcases h.allocated hm with hm | ⟨r, -, hk, -⟩
  · rcases ha t p hm with hr | hr
    · exact .inl (h.mem_trace hr)
    · obtain rfl := hn.packet t p hm
      rcases h.packets x.packet with hp | ⟨-, hp⟩ | ⟨r, hr', hp⟩
      · exact .inr (hp ▸ hr)
      · exact .inr (by rw [hp]; exact .inr rfl)
      · exact .inl (h.mem_trace (hs r hr' hp ha t hm))
  · exact absurd hk hn.serial.ne

/-- How far the response is, in a call of the port. -/
def Cur.Answering (v : View) : Cur → Prop
  | .idle | .popped .. | .retrying => True
  | .entered _ x => Named v x ∧ Awaited v x ∧ (v.packets x.packet).cmd.needsResponse = false
  | .taken _ x => Named v x
  | .answered _ x _ accepted =>
      Named v x ∧ (accepted = true → .resp x.serial x.packet true ∈ v.trace)

/-- Only payloads that were handed out are in use, or free again. -/
structure Handed (v : View) : Prop where
  refs : ∀ t, 0 < v.refs t → t < v.pool.numberOfAllocations
  carried : ∀ t x, v.carried t = some x → t < v.pool.numberOfAllocations
  free : ∀ t ∈ v.pool.freePayloads, t < v.pool.numberOfAllocations

/-- What holds of the responses, whatever phases the targets send. -/
structure Answering (v : View) : Prop where
  handed : Handed v
  allocated : ∀ k t p b, .allocate k t p b ∈ v.trace → k < v.serial
  released : ∀ k t, .release k t ∈ v.trace → k < v.serial ∧
    ∀ t' p, .allocate k t' p true ∈ v.trace → .resp k p true ∈ v.trace
  carried : ∀ t x, v.carried t = some x → Named v x ∧ Awaited v x
  cur : v.cur.Answering v
  first : ResponsesFirst v.trace

/-- No target answers the BEGIN_REQ of a packet that needs a response with TLM_COMPLETED. -/
def NotCompleted (_ : View) (a : Act) : Prop :=
  ∀ r ∈ a.requests, r.content.cmd.needsResponse = true → r.reply.status ≠ .completed

instance (v : View) (a : Act) : Decidable (NotCompleted v a) :=
  inferInstanceAs (Decidable (∀ r ∈ a.requests, _ → _))

theorem Handed.of_initial (h : v.Initial) : Handed v := by
  constructor <;> simp [h.refs, h.carried, h.pool]

theorem Answering.of_initial (h : v.Initial) : Answering v := by
  have htr : v.trace = [] := by simp [View.trace, h.log]
  refine ⟨.of_initial h, ?_, ?_, ?_, ?_, ?_⟩ <;>
    simp [h.carried, h.cur, htr, Cur.Answering, ResponsesFirst]

theorem Handed.begin (hi : Handed v) (r : Request) : Handed (v.begin r) := by
  have hall : v.next < v.pool.allocate.2.numberOfAllocations ∧
      v.pool.numberOfAllocations ≤ v.pool.allocate.2.numberOfAllocations ∧
      v.pool.allocate.2.freePayloads ⊆ v.pool.freePayloads := by
    unfold View.next MemoryManager.allocate
    split
    · rename_i hf; simp [hf]
    · rename_i t rest hf
      exact ⟨hi.free t (hf ▸ List.mem_cons_self), le_rfl, by simp [hf]⟩
  obtain ⟨h₁, h₂, h₃⟩ := hall
  refine ⟨fun t ht => ?_, fun t x hx => ?_, fun t ht => (hi.free t (h₃ ht)).trans_le h₂⟩
  · by_cases hn : t = v.next
    · exact hn ▸ h₁
    · exact (hi.refs t (by simpa [hn] using ht)).trans_le h₂
  · by_cases hn : t = v.next
    · exact hn ▸ h₁
    · exact (hi.carried t x (by simpa [hn] using hx)).trans_le h₂

theorem Handed.dropRef (hi : Handed v) (ht : 0 < v.refs t) : Handed (v.dropRef t) := by
  have hpool : (v.dropRef t).pool.numberOfAllocations = v.pool.numberOfAllocations := by
    simp only [View.dropRef_pool]
    split_ifs <;> rfl
  refine ⟨fun t' ht' => ?_, fun t' x hx => ?_, fun t' ht' => ?_⟩ <;> rw [hpool]
  · by_cases hn : t' = t
    · exact hn ▸ hi.refs t ht
    · exact hi.refs t' (by simpa [hn] using ht')
  · exact hi.carried t' x (View.carried_of_dropRef hx).1
  · simp only [View.dropRef_pool] at ht'
    split_ifs at ht'
    · rcases List.mem_cons.1 ht' with rfl | ht'
      · exact hi.refs _ ht
      · exact hi.free t' ht'
    · exact hi.free t' ht'

theorem Handed.step (hi : Handed v) (h : Move P v u) : Handed u := by
  cases h
  case accepted r ha hs => exact ⟨(hi.begin r).1, (hi.begin r).2, (hi.begin r).3⟩
  case updated r ha hs hp => exact ⟨(hi.begin r).1, (hi.begin r).2, (hi.begin r).3⟩
  case completed r ha hs =>
    have hb : Handed ((v.begin r).emit (.release v.serial v.next)) :=
      ⟨(hi.begin r).1, (hi.begin r).2, (hi.begin r).3⟩
    exact hb.dropRef (by simp)
  case finish t x hd hpos =>
    have hb := hi.dropRef hpos
    exact ⟨hb.1, hb.2, hb.3⟩
  case targetAcquire k t hP hlt =>
    refine ⟨fun t' ht' => ?_, hi.2, hi.3⟩
    by_cases hn : t' = t
    · exact hn ▸ hlt
    · exact hi.refs t' (by simpa [hn] using ht')
  case targetRelease k t hP hpos =>
    have hb := hi.dropRef hpos
    exact ⟨hb.1, hb.2, hb.3⟩
  all_goals exact ⟨hi.1, hi.2, hi.3⟩

namespace Answering

/-- A packet in flight is not sent again. -/
theorem resp_of_sendable (hi : Answering v) (hx : v.carried t = some x) {r : Request}
    (hr : v.Sendable r) (hp : r.packet = x.packet) {t' : Ptr}
    (hm : .allocate x.serial t' x.packet true ∈ v.trace) :
    .resp x.serial x.packet true ∈ v.trace := by
  rcases hr.free t (hi.handed.carried t x hx) x hx hp.symm with h | h
  · exact hp ▸ h
  · exact (hi.released _ _ h).2 _ _ hm

theorem resp_of_done (hi : Answering v) (hd : Done v t x) {t' : Ptr} {p : PacketPtr}
    (hm : .allocate x.serial t' p true ∈ v.trace) : .resp x.serial p true ∈ v.trace := by
  have hc := hi.cur
  rcases hd with ⟨hcur, hresp⟩ | ⟨again, hcur⟩ <;> rw [hcur] at hc
  · obtain ⟨hn, ha, hneeds⟩ := hc
    obtain rfl := hn.packet _ _ hm
    rcases ha _ _ hm with h | h | h
    · exact h
    · rw [hneeds] at h; cases h
    · rw [hresp] at h; cases h
  · exact hc.1.packet _ _ hm ▸ hc.2 rfl

theorem named_of_done (hi : Answering v) (hd : Done v t x) : Named v x := by
  have hc := hi.cur
  rcases hd with ⟨hcur, -⟩ | ⟨again, hcur⟩ <;> rw [hcur] at hc
  · exact hc.1
  · exact hc.1

/-- What a transaction that is completed at once needs. -/
theorem not_allocated (hC : ∀ v a, P v a → NotCompleted v a) (hi : Answering v) {r : Request}
    (ha : Admitted P v r) (hs : r.reply.status = .completed) {t : Ptr} {p : PacketPtr} :
    .allocate v.serial t p true ∉ (v.begin r).trace := by
  intro hm
  simp only [View.trace_begin, List.mem_cons, reduceCtorEq, false_or, Obs.allocate.injEq] at hm
  rcases hm with ⟨-, -, -, hneeds⟩ | hm
  · obtain ⟨v', a, hP, hr⟩ := ha.makes
    exact hC _ _ hP r hr hneeds.symm hs
  · exact absurd (hi.allocated _ _ _ _ hm) (Nat.lt_irrefl _)

theorem step_allocated (hi : Answering v) (h : Move P v u) (k : ℕ) (t : Ptr) (p : PacketPtr)
    (b : Bool) (hk : .allocate k t p b ∈ u.trace) : k < u.serial := by
  rcases h.allocated hk with hk | ⟨r, -, rfl, -, -, -, hs⟩
  · exact (hi.allocated _ _ _ _ hk).trans_le h.serial_le
  · exact hs ▸ Nat.lt_succ_self _

section

variable (hC : ∀ v a, P v a → NotCompleted v a)

include hC in
theorem step_released (hi : Answering v) (h : Move P v u) (k : ℕ) (t : Ptr)
    (hk : .release k t ∈ u.trace) : k < u.serial ∧
      ∀ t' p, .allocate k t' p true ∈ u.trace → .resp k p true ∈ u.trace := by
  rcases h.release hk with hk | ⟨x, hd, rfl, rfl⟩ | ⟨r, ha, hs, rfl, htr⟩
  · obtain ⟨hlt, hresp⟩ := hi.released k t hk
    refine ⟨hlt.trans_le h.serial_le, fun t' p hm => ?_⟩
    rcases h.allocated hm with hm | ⟨r, -, hk, -⟩
    · exact h.mem_trace (hresp t' p hm)
    · exact absurd hk hlt.ne
  · refine ⟨(hi.named_of_done hd).serial, fun t' p hm => ?_⟩
    exact h.mem_trace (hi.resp_of_done hd (by simpa using hm))
  · refine ⟨?_, fun t' p hm => ?_⟩
    · have : Obs.allocate v.serial v.next r.packet r.content.cmd.needsResponse ∈ u.trace := by
        simp [htr]
      exact hi.step_allocated h _ _ _ _ this
    · rw [htr] at hm
      exact absurd (List.mem_of_ne_of_mem (by simp) hm) (hi.not_allocated hC ha hs)

include hC in
theorem step_first (hi : Answering v) (h : Move P v u) : ResponsesFirst u.trace := by
  have hv := hi.first
  unfold ResponsesFirst at *
  cases h
  case finish t x hd hpos =>
    refine ⟨fun t' p hm => List.mem_cons_of_mem _ ?_, trivial, hv⟩
    exact hi.resp_of_done hd (List.mem_of_ne_of_mem (by simp) hm)
  case completed r ha hs =>
    exact ⟨fun t' p hm => absurd hm (hi.not_allocated hC ha hs), trivial, trivial, hv⟩
  case advance => exact hv
  all_goals simpa using hv

end

/-- A new transaction is named, and its packet awaited. -/
theorem named_begin (hi : Answering v) (r : Request) (hs : u.serial = v.serial + 1)
    (hp : u.packets = (v.begin r).packets) (htr : ∀ k t p b, .allocate k t p b ∈ u.trace →
      .allocate k t p b ∈ (v.begin r).trace) :
    Named u ⟨r.packet, v.target r.content, v.serial⟩ ∧
      Awaited u ⟨r.packet, v.target r.content, v.serial⟩ := by
  have hm : ∀ t p, .allocate v.serial t p true ∈ u.trace →
      p = r.packet ∧ r.content.cmd.needsResponse = true := by
    intro t p hm
    have := htr _ _ _ _ hm
    simp only [View.trace_begin, List.mem_cons, reduceCtorEq, false_or, Obs.allocate.injEq] at this
    rcases this with ⟨-, -, rfl, hneeds⟩ | this
    · exact ⟨rfl, hneeds.symm⟩
    · exact absurd (hi.allocated _ _ _ _ this) (Nat.lt_irrefl _)
  refine ⟨⟨hs ▸ Nat.lt_succ_self _, fun t p h => (hm t p h).1⟩, fun t p h => .inr (.inl ?_)⟩
  obtain ⟨rfl, hneeds⟩ := hm t p h
  simpa [hp] using hneeds

theorem step_carried (hi : Answering v) (h : Move P v u) (t : Ptr) (x : Gem5Extension)
    (hx : u.carried t = some x) : Named u x ∧ Awaited u x := by
  have hold : v.carried t = some x → Named u x ∧ Awaited u x := fun hx =>
    have ⟨hn, ha⟩ := hi.carried t x hx
    ⟨hn.mono h, ha.mono hn h fun r hr hp _ t' hm => hi.resp_of_sendable hx hr hp hm⟩
  have hbegin : ∀ r, (v.begin r).carried t = some x → u.serial = v.serial + 1 →
      u.packets = (v.begin r).packets → (∀ k t p b, .allocate k t p b ∈ u.trace →
        .allocate k t p b ∈ (v.begin r).trace) → Named u x ∧ Awaited u x := by
    intro r hx hs hp htr
    by_cases ht : t = v.next
    · subst ht
      simp only [View.begin_carried, Function.update_self, Option.some.injEq] at hx
      exact hx ▸ hi.named_begin r hs hp htr
    · exact hold (by simpa [ht] using hx)
  cases id h
  case accepted r ha hs => exact hbegin r hx rfl rfl fun _ _ _ _ => id
  case updated r ha hs hp => exact hbegin r hx rfl rfl fun _ _ _ _ => id
  case completed r ha hs =>
    refine hbegin r (View.carried_of_dropRef hx).1 rfl rfl fun _ _ _ _ hm => ?_
    exact List.mem_of_ne_of_mem (by simp) hm
  case finish t' x' hd hpos => exact hold (View.carried_of_dropRef hx).1
  case targetRelease k t' hP hpos => exact hold (View.carried_of_dropRef hx).1
  all_goals exact hold hx

/-- A move that is no step of the call itself. -/
theorem step_cur_of_eq (hi : Answering v) (h : Move P v u) (hcur : u.cur = v.cur)
    (hp : ∀ t x, v.cur = .entered t x → (v.packets x.packet).cmd.needsResponse = false →
      (u.packets x.packet).cmd.needsResponse = false) : u.cur.Answering u := by
  have hc := hi.cur
  rw [hcur]
  cases hv : v.cur with
  | idle => trivial
  | popped => trivial
  | retrying => trivial
  | entered t x =>
    rw [hv] at hc
    obtain ⟨hn, ha, hneeds⟩ := hc
    exact ⟨hn.mono h, ha.mono hn h fun r hr => absurd hv (hr.outside t x), hp t x hv hneeds⟩
  | taken t x => rw [hv] at hc; exact hc.mono h
  | answered t x again accepted =>
    rw [hv] at hc
    exact ⟨hc.1.mono h, fun ha => h.mem_trace (hc.2 ha)⟩

theorem step_cur (hi : Answering v) (h : Move P v u) : u.cur.Answering u := by
  have hc := hi.cur
  have hpop : ∀ e : PayloadEvent, u.cur = (if e.p = .beginResp then .popped e.t e.txn else .idle) →
      u.cur.Answering u := by
    intro e hcur
    rw [hcur]
    split_ifs <;> trivial
  cases id h
  case close e q s hs hp hcl hf => exact hpop e rfl
  case retry e q s hs hp hcl hf => exact hpop e rfl
  case keep e q hs hp => exact hpop e rfl
  case enter t k x hcur hx hfree hneeds =>
    obtain ⟨hn, ha⟩ := hi.carried t x hx
    exact ⟨hn.mono h, ha, hneeds⟩
  case makeResponse t k x hcur hx hfree hneeds =>
    obtain ⟨hn, ha⟩ := hi.step_carried h t x hx
    exact ⟨hn, ha, by simp [Packet.makeResponse, MemCmd.responseCommand]⟩
  case respond t x accepted hcur hresp =>
    rw [hcur] at hc
    exact ⟨hc.1.mono h, fun ha => by simp [ha]⟩
  case take t x i s hcur hr hx hs => exact (hi.step_carried h t x hx).1
  case resend t x accepted hcur hP =>
    rw [hcur] at hc
    exact ⟨hc.mono h, fun ha => by simp [ha]⟩
  case block => trivial
  case finish =>
    rcases v.cur.next_cases with hn | hn <;> rw [View.finish_cur, hn] <;> trivial
  case respRetry => trivial
  case retried => trivial
  case refuse r t hr hs ht =>
    exact hi.step_cur_of_eq h rfl fun t x hcur => absurd hcur (hs.outside t x)
  case accepted r ha hs =>
    exact hi.step_cur_of_eq h rfl fun t x hcur => absurd hcur (ha.sendable.outside t x)
  case updated r ha hs hp =>
    exact hi.step_cur_of_eq h rfl fun t x hcur => absurd hcur (ha.sendable.outside t x)
  case completed r ha hs =>
    exact hi.step_cur_of_eq h rfl fun t x hcur => absurd hcur (ha.sendable.outside t x)
  case downstream p hneeds =>
    refine hi.step_cur_of_eq h rfl fun t x hcur hf => ?_
    have hne : x.packet ≠ p := by rintro rfl; rw [hneeds] at hf; cases hf
    simpa [hne] using hf
  all_goals exact hi.step_cur_of_eq h rfl fun _ _ _ => id

/-- Every move preserves `Answering`. -/
theorem step (hC : ∀ v a, P v a → NotCompleted v a) (hi : Answering v) (h : Move P v u) :
    Answering u where
  handed := hi.handed.step h
  allocated := hi.step_allocated h
  released := hi.step_released hC h
  carried := hi.step_carried h
  cur := hi.step_cur h
  first := hi.step_first hC h

end Answering

/-- **No transaction that needs a response is released without one**, whatever phases the targets
send, if they complete none of them at once. -/
theorem responsesFirst_of_run {q : SCSlavePort} {w : World} (hq : q.Bound)
    (h : PortRun NotCompleted q w) : ResponsesFirst w.trace :=
  w.trace_view ▸ (h.invariant (I := Answering) hq (fun _ hv => .of_initial hv)
    fun _ _ hi hm => hi.step (fun _ _ h => h) hm).first

/-- gem5 refuses the response and asks for it again. -/
theorem responsesFirst_resend : ∃ w : World, .release 0 0 ∈ w.trace ∧
    .resp 0 0 false ∈ w.trace ∧ ResponsesFirst w.trace := by
  obtain ⟨w, hr, hw⟩ := exists_portRun (q := oneSocketPort) (P := NotCompleted)
    (p := fun w => decide (.release 0 0 ∈ w.trace ∧ .resp 0 0 false ∈ w.trace))
    [.recvTimingReq { readRequest 0 with reply := ⟨.updated, .beginResp, 2⟩ }, .advance 2,
      .service { resp := { accept := false } }, .recvRespRetry [{}]] (by decide)
  obtain ⟨h₁, h₂⟩ := of_decide_eq_true hw
  exact ⟨w, h₁, h₂, responsesFirst_of_run bound_oneSocketPort hr⟩

/-- The target completes a read at once: the port releases the payload, and gem5 gets no
response. -/
theorem not_responsesFirst : ¬ ∀ (q : SCSlavePort) (w : World), q.Bound →
    PortRun (fun v a => RefsBalanced v a ∧ PhasesObeyed v a) q w → ResponsesFirst w.trace := by
  intro h
  obtain ⟨w, hr, hw⟩ := exists_portRun (q := oneSocketPort)
    (P := fun v a => RefsBalanced v a ∧ PhasesObeyed v a)
    (p := fun w => decide (w.trace.head? = some (.release 0 0) ∧ .allocate 0 0 0 true ∈ w.trace ∧
      .resp 0 0 true ∉ w.trace))
    [.recvTimingReq { readRequest 0 with reply := ⟨.completed, .endResp, 0⟩ }] (by decide)
  obtain ⟨h₁, h₂, h₃⟩ := of_decide_eq_true hw
  have := h _ _ bound_oneSocketPort hr
  cases htr : w.trace with
  | nil => rw [htr] at h₁; cases h₁
  | cons o l =>
    rw [htr] at h₁ h₂ h₃ this
    obtain rfl : o = .release 0 0 := Option.some.inj h₁
    exact h₃ (List.mem_cons_of_mem _ (this.1 _ _ (List.mem_of_ne_of_mem (by simp) h₂)))

/-! ## Refused responses -/

/-- gem5 has refused a response, and not asked for it since. -/
def refusing : List Obs → Bool
  | [] => false
  | .respRetry :: _ => false
  | .resp _ _ accepted :: l => !accepted || refusing l
  | _ :: l => refusing l

/-- The port sends no response while gem5 refuses responses. -/
def RefusalsObeyed : List Obs → Prop := Along fun o l =>
  match o with
  | .resp .. => refusing l = false
  | _ => True

/-- When BEGIN_RESP of a packet with a response takes effect, no response of another socket
waits for a retry. -/
def OthersUnblocked (v : View) : Act → Prop
  | .service _ => ∀ e ∈ v.events.head?, e.p = .beginResp → ∀ x ∈ v.carried e.t,
      (v.packets x.packet).Responds → ∀ s < v.known, s ≠ x.coreId → v.slots.response s = none
  | _ => True

instance (pkt : Packet) : Decidable pkt.Responds := inferInstanceAs (Decidable (_ ∨ _))

instance (v : View) : (a : Act) → Decidable (OthersUnblocked v a)
  | .service _ => inferInstanceAs (Decidable (∀ e ∈ v.events.head?, e.p = .beginResp →
      ∀ x ∈ v.carried e.t, (v.packets x.packet).Responds → ∀ s < v.known, s ≠ x.coreId →
        v.slots.response s = none))
  | .recvTimingReq _ | .nbTransportBw .. | .recvRespRetry _ | .targetAcquire .. |
    .targetRelease .. | .downstreamResponse _ | .advance _ => .isTrue trivial

/-- A response is made or offered to gem5. -/
def Obs.answers (k : ℕ) : Obs → Bool
  | .makeResponse k' _ | .resp k' _ _ => k' = k
  | _ => false

/-- No response to the transaction has been made or offered yet. -/
def Unanswered (l : List Obs) (k : ℕ) : Prop := ∀ o ∈ l, o.answers k = false

/-- Transactions are answered in the response phase. -/
structure Fresh (v : View) : Prop where
  before : ∀ k, .pec k .beginResp ∉ v.trace → Unanswered v.trace k
  popped : ∀ t k, v.cur = .popped t k → Unanswered v.trace k

/-- Where the port can be while gem5 refuses responses. -/
def Cur.Refused (v : View) : Cur → Prop
  | .idle => ∃ s < v.known, v.slots.response s ≠ none
  | .popped t _ => (∃ s < v.known, v.slots.response s ≠ none) ∧
      ∀ x, v.carried t = some x → (v.packets x.packet).Responds →
        ∀ s < v.known, s ≠ x.coreId → v.slots.response s = none
  | .entered _ x => (∃ s < v.known, v.slots.response s ≠ none) ∧ ¬ (v.packets x.packet).Responds
  | .retrying | .taken .. => False
  | .answered _ _ _ accepted => accepted = false

/-- What holds of refused responses. -/
structure Refusals (v : View) : Prop where
  handed : Handed v
  known : ∀ t x, v.carried t = some x → x.coreId < v.known
  fresh : Fresh v
  cur : refusing v.trace = true → v.cur.Refused v
  obeyed : RefusalsObeyed v.trace

theorem Fresh.of_initial (h : v.Initial) : Fresh v := by
  have htr : v.trace = [] := by simp [View.trace, h.log]
  constructor <;> simp [htr, Unanswered, h.cur]

theorem Refusals.of_initial (h : v.Initial) : Refusals v := by
  have htr : v.trace = [] := by simp [View.trace, h.log]
  refine ⟨.of_initial h, ?_, .of_initial h, ?_, ?_⟩ <;>
    simp [h.carried, htr, refusing, RefusalsObeyed]

theorem Fresh.step (hl : Life v) (hi : Fresh v) (h : Move P v u) : Fresh u := by
  have hh := hl.cur
  constructor
  · intro k hk
    have hv := hi.before k fun hm => hk (h.mem_trace hm)
    unfold Unanswered at *
    cases id h
    case makeResponse t k' x hcur hx hf hn =>
      rw [hcur] at hh
      obtain ⟨x', -, hh⟩ := hh
      obtain rfl := Option.some.inj (hx.symm.trans hh.carries.carried)
      have hne : x.serial ≠ k := by rintro rfl; exact hk (h.mem_trace hh.begun)
      simpa [Obs.answers, hne] using hv
    case respond t x b hcur hr =>
      rw [hcur] at hh
      have hne : x.serial ≠ k := by rintro rfl; exact hk (h.mem_trace hh.begun)
      simpa [Obs.answers, hne] using hv
    case resend t x b hcur hr =>
      rw [hcur] at hh
      have hne : x.serial ≠ k := by rintro rfl; exact hk (h.mem_trace hh.begun)
      simpa [Obs.answers, hne] using hv
    case advance => exact hv
    all_goals simpa [Obs.answers] using hv
  · intro t k hcur
    have hpop : ∀ e q, Serviced P v e q →
        (if e.p = .beginResp then Cur.popped e.t e.txn else .idle) = .popped t k →
        Unanswered (.pec e.txn e.p :: v.trace) k := by
      intro e q hs hc
      split_ifs at hc with hp
      obtain ⟨-, rfl⟩ := Cur.popped.inj hc
      simpa [Unanswered, Obs.answers] using hi.before e.txn (hp ▸ (hl.event e hs.mem).2.2.2)
    have hold := hi.popped t k
    cases id h
    case close e q s hs hp hc hf => exact hpop e q hs hcur
    case retry e q s hs hp hc hf => simpa [Unanswered, Obs.answers] using hpop e q hs hcur
    case keep e q hs hp => exact hpop e q hs hcur
    case enter => cases hcur
    case makeResponse => cases hcur
    case respond => cases hcur
    case block => cases hcur
    case finish =>
      rcases v.cur.next_cases with hn | hn <;> exact absurd (hn.symm.trans hcur) (by simp)
    case respRetry => cases hcur
    case retried => cases hcur
    case take => cases hcur
    case resend => cases hcur
    case advance => exact hold hcur
    all_goals simpa [Unanswered, Obs.answers] using hold hcur

namespace Refusals

theorem step_known (hi : Refusals v) (h : Move P v u) (t : Ptr) (x : Gem5Extension)
    (hx : u.carried t = some x) : x.coreId < u.known := by
  have hold : v.carried t = some x → x.coreId < v.known := hi.known t x
  have hbegin : ∀ r, Admitted P v r → (v.begin r).carried t = some x → x.coreId < v.known := by
    intro r ha hx
    by_cases ht : t = v.next
    · subst ht
      simp only [View.begin_carried, Function.update_self, Option.some.injEq] at hx
      exact hx ▸ ha.known
    · exact hold (by simpa [ht] using hx)
  rw [h.static.2.1]
  cases h
  case accepted r ha hs => exact hbegin r ha hx
  case updated r ha hs hp => exact hbegin r ha hx
  case completed r ha hs => exact hbegin r ha (View.carried_of_dropRef hx).1
  case finish => exact hold (View.carried_of_dropRef hx).1
  case targetRelease => exact hold (View.carried_of_dropRef hx).1
  all_goals exact hold hx

/-- A move that is no step of the call itself. -/
theorem step_cur_of_eq (hl : Life v) (hi : Refusals v) (h : Move P v u) (hcur : u.cur = v.cur)
    (hresp : u.slots.response = v.slots.response) (hr : refusing u.trace = refusing v.trace)
    (hu : refusing u.trace = true) : u.cur.Refused u := by
  have hc := hi.cur (hr ▸ hu)
  have hk : u.known = v.known := h.static.2.1
  have hh := hl.cur
  rw [hcur]
  cases hv : v.cur with
  | idle => rw [hv] at hc; simpa only [Cur.Refused, hk, hresp] using hc
  | retrying => rw [hv] at hc; exact hc
  | taken t x => rw [hv] at hc; exact hc
  | answered t x again accepted => rw [hv] at hc; exact hc
  | entered t x =>
    rw [hv] at hc
    refine ⟨by simpa only [hk, hresp] using hc.1, fun hres => hc.2 ?_⟩
    rcases h.packets x.packet with hp | ⟨hn, -⟩ | ⟨r, hr, -⟩
    · exact hp ▸ hres
    · exact .inl hn
    · exact absurd hv (hr.outside t x)
  | popped t k =>
    rw [hv] at hc hh
    refine ⟨by simpa only [hk, hresp] using hc.1, fun x hx hres => ?_⟩
    rw [hk, hresp]
    obtain ⟨x', rfl, hh⟩ := hh
    have hx' := h.carried hx (hl.pool.ne_next (hl.pool.refs _ _ hh.carries.carried))
    obtain rfl := Option.some.inj (hx'.symm.trans hh.carries.carried)
    refine hc.2 x hx' ?_
    rcases h.packets x.packet with hp | ⟨hn, -⟩ | ⟨r, hr, hp⟩
    · exact hp ▸ hres
    · exact .inl hn
    · -- the packet is in flight
      rcases hr.free t (hi.handed.carried t x hx') x hx' hp.symm with hm | hm
      · have := hi.fresh.popped t _ hv _ hm
        simp [Obs.answers] at this
      · exact absurd ⟨t, hm⟩ hh.carries.unreleased

section

variable (hO : ∀ v a, P v a → OthersUnblocked v a)

include hO in
theorem refused_pop (hi : Refusals v) {e : PayloadEvent} {q : List PayloadEvent}
    (hs : Serviced P v e q) (hr : refusing v.trace = true) (hk : u.known = v.known)
    (hresp : u.slots.response = v.slots.response) (hcar : u.carried = v.carried)
    (hp : u.packets = v.packets)
    (hcur : u.cur = if e.p = .beginResp then .popped e.t e.txn else .idle) : u.cur.Refused u := by
  have hc := hi.cur hr
  rw [hs.idle] at hc
  rw [hcur]
  split_ifs with hph
  · obtain ⟨o, hP⟩ := hs.promise
    refine ⟨by rw [hk, hresp]; exact hc, fun x hx hres => ?_⟩
    rw [hk, hresp]
    exact hO _ _ hP e (by rw [hs.events]; rfl) hph x (hcar ▸ hx) (hp ▸ hres)
  · simpa only [Cur.Refused, hk, hresp] using hc

/-- The packet of a transaction that enters the response phase is no response. -/
theorem not_responds (hc : (Cur.popped t k).Refused v) (hx : v.carried t = some x)
    (hfree : v.slots.response x.coreId = none) : ¬ (v.packets x.packet).Responds := by
  intro hres
  obtain ⟨⟨s, hs, hne⟩, hothers⟩ := hc
  refine hne ?_
  by_cases hsx : s = x.coreId
  · exact hsx ▸ hfree
  · exact hothers x hx hres s hs hsx

include hO in
theorem step_cur (hl : Life v) (hi : Refusals v) (h : Move P v u)
    (hu : refusing u.trace = true) : u.cur.Refused u := by
  have hc := hi.cur
  cases id h
  case close e q s hs hp hcl hf => exact hi.refused_pop hO hs hu rfl rfl rfl rfl rfl
  case retry e q s hs hp hcl hf => exact hi.refused_pop hO hs hu rfl rfl rfl rfl rfl
  case keep e q hs hp => exact hi.refused_pop hO hs hu rfl rfl rfl rfl rfl
  case enter t k x hcur hx hfree hn =>
    have hc := hc hu
    rw [hcur] at hc
    exact ⟨hc.1, not_responds (v := v) hc hx hfree⟩
  case makeResponse t k x hcur hx hfree hn =>
    have hc := hc hu
    rw [hcur] at hc
    exact absurd (.inl hn) (not_responds hc hx hfree)
  case respond t x accepted hcur hresp =>
    rw [hcur] at hc
    cases accepted with
    | false => rfl
    | true => exact absurd (.inr hresp) (hc hu).2
  case resend t x accepted hcur hP =>
    rw [hcur] at hc
    cases accepted with
    | false => rfl
    | true => exact absurd (hc hu) id
  case block t x hcur =>
    have hh := hl.cur
    rw [hcur] at hh
    exact ⟨x.coreId, hi.known _ _ hh.carries.carried, by simp⟩
  case finish t x hd hpos =>
    have hc := hc hu
    rcases hd with ⟨hcur, -⟩ | ⟨again, hcur⟩ <;> rw [hcur] at hc
    · rw [View.finish_cur, hcur]
      exact hc.1
    · cases hc
  case respRetry => cases hu
  case retried hcur => exact absurd (hc hu) (by rw [hcur]; exact id)
  case take t x i s hcur hr hx hs => exact absurd (hc hu) (by rw [hcur]; exact id)
  all_goals exact hi.step_cur_of_eq hl h rfl rfl rfl hu

end

theorem step_obeyed (hi : Refusals v) (h : Move P v u) : RefusalsObeyed u.trace := by
  have hc := hi.cur
  have hv := hi.obeyed
  unfold RefusalsObeyed at *
  cases h
  case respond t x accepted hcur hresp =>
    rw [hcur] at hc
    exact ⟨Bool.eq_false_iff.2 fun hr => (hc hr).2 (.inr hresp), hv⟩
  case resend t x accepted hcur hP =>
    rw [hcur] at hc
    exact ⟨Bool.eq_false_iff.2 fun hr => hc hr, hv⟩
  case advance => exact hv
  all_goals simpa using hv

/-- Every move preserves `Refusals`. -/
theorem step (hO : ∀ v a, P v a → OthersUnblocked v a) (hl : Life v) (hi : Refusals v)
    (h : Move P v u) : Refusals u where
  handed := hi.handed.step h
  known := hi.step_known h
  fresh := hi.fresh.step hl h
  cur := hi.step_cur hO hl h
  obeyed := hi.step_obeyed h

end Refusals

/-- **The port sends no response while gem5 refuses responses**, if no BEGIN_RESP of a packet
with a response takes effect while a response of another socket waits. -/
theorem refusalsObeyed_of_run {q : SCSlavePort} {w : World} (hq : q.Bound)
    (h : PortRun (fun v a => RefsBalanced v a ∧ PhasesObeyed v a ∧ OthersUnblocked v a) q w) :
    RefusalsObeyed w.trace := by
  have hi := h.invariant (I := fun v => Life v ∧ Refusals v) hq
    (fun _ hv => ⟨.of_initial hv, .of_initial hv⟩) fun _ _ hi hm =>
      ⟨hi.1.step (fun _ _ h => h.1) (fun _ _ h => h.2.1) hm,
        hi.2.step (fun _ _ h => h.2.2) hi.1 hm⟩
  exact w.trace_view ▸ hi.2.obeyed

/-- gem5 asks for the refused response of socket 0 before that of socket 1 takes effect. -/
theorem refusalsObeyed_retryFirst : ∃ w : World, .resp 0 0 false ∈ w.trace ∧
    .resp 1 1 true ∈ w.trace ∧ RefusalsObeyed w.trace := by
  obtain ⟨w, hr, hw⟩ := exists_portRun (q := twoSocketPort)
    (P := fun v a => RefsBalanced v a ∧ PhasesObeyed v a ∧ OthersUnblocked v a)
    (p := fun w => decide (.resp 0 0 false ∈ w.trace ∧ .resp 1 1 true ∈ w.trace))
    [.recvTimingReq (readRequest 0), .recvTimingReq (secondReadRequest 1),
      .nbTransportBw 0 0 .beginResp 0, .nbTransportBw 1 1 .beginResp 1,
      .service { resp := { accept := false } }, .recvRespRetry [{}], .advance 1, .service {}]
    (by decide)
  obtain ⟨h₁, h₂⟩ := of_decide_eq_true hw
  exact ⟨w, h₁, h₂, refusalsObeyed_of_run bound_twoSocketPort hr⟩

/-- gem5 refuses the response of socket 0, and the port offers it that of socket 1. -/
theorem not_refusalsObeyed : ¬ ∀ (q : SCSlavePort) (w : World), q.Bound →
    PortRun (fun v a => RefsBalanced v a ∧ PhasesObeyed v a) q w → RefusalsObeyed w.trace := by
  intro h
  obtain ⟨w, hr, hw⟩ := exists_portRun (q := twoSocketPort)
    (P := fun v a => RefsBalanced v a ∧ PhasesObeyed v a)
    (p := fun w => decide (w.trace.head? = some (.resp 1 1 false) ∧ refusing w.trace.tail = true))
    [.recvTimingReq (readRequest 0), .recvTimingReq (secondReadRequest 1),
      .nbTransportBw 0 0 .beginResp 0, .nbTransportBw 1 1 .beginResp 1,
      .service { resp := { accept := false } }, .advance 1,
      .service { resp := { accept := false } }] (by decide)
  obtain ⟨h₁, h₂⟩ := of_decide_eq_true hw
  have := h _ _ bound_twoSocketPort hr
  cases htr : w.trace with
  | nil => rw [htr] at h₁; cases h₁
  | cons o l =>
    rw [htr] at h₁ h₂ this
    obtain rfl : o = .resp 1 1 false := Option.some.inj h₁
    have hl : refusing l = false := this.1
    rw [List.tail_cons, hl] at h₂
    cases h₂

end Gem5Wrapper
