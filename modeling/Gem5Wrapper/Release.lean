import Gem5Wrapper.ResponseChannel

/-!
# Releases

Each payload goes back to the pool once, at the end of its transaction, and nothing in the port
refers to it then: no slot, and no scheduled event. The pool recycles payloads last in, first
out, so a reference that stayed behind would be taken for one to the next transaction.

The payloads that the pool has handed out are those with references (`InUse`), so that the laws of
the pool hold along the runs of the port.
-/

namespace Gem5Wrapper

open FaultMachine
open History (Along)

variable {P : Promise} {v u : View} {k s : ℕ} {t : Ptr} {x : Gem5Extension}

/-! ## References -/

/-- The payload changes hands between the port and the pool. -/
def Obs.hands (t : Ptr) : Obs → Bool
  | .allocate _ t' _ _ | .release _ t' => t' = t
  | _ => false

/-- No slot and no scheduled event refers to the payload. -/
structure Record.Untracked (e : Record) (t : Ptr) : Prop where
  request : ∀ s, e.slots.request s ≠ some t
  response : ∀ s, e.slots.response s ≠ some t
  events : ∀ e' ∈ e.events, e'.t ≠ t

/-- Neither the port nor the event queue refers to the payload. -/
structure Entry.Untracked (e : Entry) (t : Ptr) : Prop where
  blockingRequest : e.port.blockingRequest ≠ some t
  blockingResponse : e.port.blockingResponse ≠ some t
  blockingRequestMap : ∀ s : ℕ, e.port.helper.blockingRequestMap[s]? ≠ some (some t)
  blockingResponseMap : ∀ s : ℕ, e.port.helper.blockingResponseMap[s]? ≠ some (some t)
  events : ∀ e' ∈ e.events, e'.t ≠ t

theorem Record.Untracked.entry {e : Entry} (h : e.record.Untracked t) (hp : e.port.Ok) :
    e.Untracked t := by
  have hreq : ∀ s, e.port.slots.request s ≠ some t := h.request
  have hresp : ∀ s, e.port.slots.response s ≠ some t := h.response
  simp only [SCSlavePort.slots] at hreq hresp
  refine ⟨?_, ?_, fun s hs => ?_, fun s hs => ?_, h.events⟩
  · cases hc : e.port.usingGem5Cache with
    | false => rw [(hp.noCache hc).1]; simp
    | true => simpa [hc] using hreq 0
  · cases hc : e.port.usingGem5Cache with
    | false => rw [(hp.noCache hc).2.2]; simp
    | true => simpa [hc] using hresp 0
  · have hs' : e.port.helper.request s = some t := by
      simp [BlockingPacketHelper.request, Std.TreeMap.getD_eq_getD_getElem?, hs]
    by_cases h0 : s = 0 ∧ e.port.usingGem5Cache = true
    · rw [h0.1, (hp.system h0.2).1] at hs'
      cases hs'
    · exact hreq s (by rw [if_neg h0]; exact hs')
  · have hs' : e.port.helper.response s = some t := by
      simp [BlockingPacketHelper.response, Std.TreeMap.getD_eq_getD_getElem?, hs]
    by_cases h0 : s = 0 ∧ e.port.usingGem5Cache = true
    · rw [h0.1, (hp.system h0.2).2.2] at hs'
      cases hs'
    · exact hresp s (by rw [if_neg h0]; exact hs')

/-- Nothing refers to a payload that no transaction uses. -/
theorem Channel.untracked_next (hl : Life v) (hc : Channel v) (o : Obs) :
    (⟨o, v.slots, v.events⟩ : Record).Untracked v.next := by
  have hnone := hl.pool.carried_next
  refine ⟨fun s hs => ?_, fun s hs => ?_, fun e he ht => ?_⟩
  · obtain ⟨x, hx, -⟩ := hc.request s _ hs
    exact absurd (hnone.symm.trans hx) (by simp)
  · obtain ⟨x, hx, -⟩ := hl.response s _ hs
    exact absurd (hnone.symm.trans hx.carried) (by simp)
  · obtain ⟨x, -, hx, -⟩ := hc.scheduled hl he
    rw [ht] at hx
    exact absurd (hnone.symm.trans hx.carried) (by simp)

/-- Nothing refers to a payload whose response is dealt with. -/
theorem InHand.untracked (hl : Life v) (hc : Channel v) (hh : InHand v t x) (o : Obs) :
    (⟨o, v.slots, v.events⟩ : Record).Untracked t := by
  refine ⟨fun s hs => ?_, hh.free, fun e he ht => ?_⟩
  · obtain ⟨x', hx', -, -, hn⟩ := hc.request s _ hs
    obtain rfl := Option.some.inj (hx'.symm.trans hh.carries.carried)
    exact hn (.inr hh.begun)
  · obtain ⟨x', hx', hcar, hn⟩ := hc.scheduled hl he
    obtain rfl := Option.some.inj ((ht ▸ hcar.carried).symm.trans hh.carries.carried)
    exact hn (hx' ▸ hh.begun)

/-! ## The ledger -/

/-- Each transaction releases the payload it has allocated, and makes the response of its packet,
at most once. -/
def Ledger : List Obs → Prop := Along fun o l =>
  match o with
  | .release k t => ¬ Released l k ∧ ∃ p b, .allocate k t p b ∈ l
  | .makeResponse k p => (∀ p', .makeResponse k p' ∉ l) ∧ ∃ t b, .allocate k t p b ∈ l
  | _ => True

/-- Payloads and their transactions, on their way from the pool and back. -/
structure Tracking (v : View) : Prop where
  fresh : Fresh v
  allocated : ∀ t x, v.carried t = some x → ∃ b, .allocate x.serial t x.packet b ∈ v.trace
  ledger : Ledger v.trace
  untracked : ∀ e ∈ v.log, ∀ t, e.obs.hands t = true → e.Untracked t

theorem Tracking.of_initial (h : v.Initial) : Tracking v := by
  have htr : v.trace = [] := by simp [View.trace, h.log]
  refine ⟨.of_initial h, ?_, ?_, ?_⟩ <;> simp [h.carried, htr, h.log, Ledger]

namespace Tracking

theorem step_allocated (hi : Tracking v) (h : Move P v u) (t : Ptr) (x : Gem5Extension)
    (hx : u.carried t = some x) : ∃ b, .allocate x.serial t x.packet b ∈ u.trace := by
  have hold : v.carried t = some x → ∃ b, .allocate x.serial t x.packet b ∈ u.trace := fun hx =>
    (hi.allocated t x hx).imp fun _ => h.mem_trace
  have hbegin : ∀ r, (v.begin r).carried t = some x → (v.begin r).trace ⊆ u.trace →
      ∃ b, .allocate x.serial t x.packet b ∈ u.trace := by
    intro r hx htr
    by_cases ht : t = v.next
    · subst ht
      simp only [View.begin_carried, Function.update_self, Option.some.injEq] at hx
      subst hx
      exact ⟨r.content.cmd.needsResponse, htr (by simp)⟩
    · exact hold (by simpa [ht] using hx)
  cases id h
  case accepted r ha hs => exact hbegin r hx (List.Subset.refl _)
  case updated r ha hs hp => exact hbegin r hx (List.Subset.refl _)
  case completed r ha hs =>
    exact hbegin r (View.carried_of_dropRef hx).1 fun _ => List.mem_cons_of_mem _
  case finish => exact hold (View.carried_of_dropRef hx).1
  case targetRelease => exact hold (View.carried_of_dropRef hx).1
  all_goals exact hold hx

theorem step_ledger (hl : Life v) (hi : Tracking v) (h : Move P v u) : Ledger u.trace := by
  have hv := hi.ledger
  have hh := hl.cur
  unfold Ledger at *
  cases h
  case completed r ha hs =>
    have hn : ¬ Released (v.begin r).trace v.serial := by
      simpa using hl.not_released (k := v.serial) le_rfl
    exact ⟨⟨hn, r.packet, r.content.cmd.needsResponse, by simp⟩, trivial, trivial, hv⟩
  case finish t x hd hpos =>
    have hcar := (hl.inHand_of_done hd).carries
    obtain ⟨b, hb⟩ := hi.allocated t x hcar.carried
    have hn : ¬ Released (.endResp x.serial t x.coreId (v.address t) :: v.trace) x.serial := by
      simpa using hcar.unreleased
    exact ⟨⟨hn, x.packet, b, List.mem_cons_of_mem _ hb⟩, trivial, hv⟩
  case makeResponse t k x hcur hx hf hn =>
    rw [hcur] at hh
    obtain ⟨x', rfl, hh⟩ := hh
    obtain rfl := Option.some.inj (hx.symm.trans hh.carries.carried)
    obtain ⟨b, hb⟩ := hi.allocated t x hx
    refine ⟨⟨fun p' hm => ?_, t, b, hb⟩, hv⟩
    have := hi.fresh.popped t _ hcur _ hm
    simp [Obs.answers] at this
  case advance => exact hv
  all_goals simpa using hv

theorem step_untracked (hl : Life v) (hc : Channel v) (hi : Tracking v) (h : Move P v u) :
    ∀ e ∈ u.log, ∀ t, e.obs.hands t = true → e.Untracked t := by
  have hv := hi.untracked
  have hnext : ∀ o, ∀ t, v.next = t → (⟨o, v.slots, v.events⟩ : Record).Untracked t :=
    fun o t ht => ht ▸ hc.untracked_next hl o
  cases h
  case accepted r ha hs => simpa [Obs.hands] using ⟨hnext _ _ rfl, hv⟩
  case updated r ha hs hp => simpa [Obs.hands] using ⟨hnext _ _ rfl, hv⟩
  case completed r ha hs => simpa [Obs.hands] using ⟨hnext _ _ rfl, hnext _ _ rfl, hv⟩
  case finish t x hd hpos =>
    simpa [Obs.hands] using ⟨(hl.inHand_of_done hd).untracked hl hc _, hv⟩
  case advance => exact hv
  all_goals simpa [Obs.hands] using hv

/-- Every move preserves `Tracking`. -/
theorem step (hl : Life v) (hc : Channel v) (hi : Tracking v) (h : Move P v u) : Tracking u where
  fresh := hi.fresh.step hl h
  allocated := hi.step_allocated h
  ledger := hi.step_ledger hl h
  untracked := hi.step_untracked hl hc h

end Tracking

/-! ## The laws -/

/-- The port releases the payload of transaction `k`. -/
def Obs.releases (k : ℕ) : Obs → Bool
  | .release k' _ => k' = k
  | _ => false

/-- The port makes the response of transaction `k`. -/
def Obs.makes (k : ℕ) : Obs → Bool
  | .makeResponse k' _ => k' = k
  | _ => false

theorem Ledger.released_le_one {l : List Obs} (h : Ledger l) (k : ℕ) :
    l.countP (Obs.releases k) ≤ 1 := by
  refine Along.countP_le_one h fun o l ho hl o' ho' => ?_
  cases o <;> simp [Obs.releases] at ho
  subst ho
  cases o' <;> simp [Obs.releases]
  rintro rfl
  exact hl.1 ⟨_, ho'⟩

theorem Ledger.made_le_one {l : List Obs} (h : Ledger l) (k : ℕ) :
    l.countP (Obs.makes k) ≤ 1 := by
  refine Along.countP_le_one h fun o l ho hl o' ho' => ?_
  cases o <;> simp [Obs.makes] at ho
  subst ho
  cases o' <;> simp [Obs.makes]
  rintro rfl
  exact hl.1 _ ho'

/-- The packets and payloads named in the ledger are those of the transaction. -/
theorem Ledger.allocated {l : List Obs} (h : Ledger l) :
    (∀ k t, .release k t ∈ l → ∃ p b, .allocate k t p b ∈ l) ∧
      ∀ k p, .makeResponse k p ∈ l → ∃ t b, .allocate k t p b ∈ l := by
  induction l with
  | nil => simp
  | cons o l ih =>
    obtain ⟨h₁, h₂⟩ := ih h.2
    constructor
    · intro k t hm
      obtain ⟨p, b, hp⟩ : ∃ p b, .allocate k t p b ∈ l := by
        rcases List.mem_cons.1 hm with rfl | hm
        · exact h.1.2
        · exact h₁ k t hm
      exact ⟨p, b, List.mem_cons_of_mem _ hp⟩
    · intro k p hm
      obtain ⟨t, b, hp⟩ : ∃ t b, .allocate k t p b ∈ l := by
        rcases List.mem_cons.1 hm with rfl | hm
        · exact h.1.2
        · exact h₂ k p hm
      exact ⟨t, b, List.mem_cons_of_mem _ hp⟩

/-- What is promised of the payloads. -/
structure ReleaseLaws (w : World) : Prop where
  /-- The port releases a payload at most once for each time it takes it from the pool. -/
  once : ∀ k, w.trace.countP (Obs.releases k) ≤ 1
  own : ∀ k t, .release k t ∈ w.trace → ∃ p b, .allocate k t p b ∈ w.trace
  /-- The payload is released when END_RESP has been sent. -/
  ended : ∀ k t s a, .endResp k t s a ∈ w.trace →
    .release k t ∈ w.trace ∧ w.trace.countP (Obs.releases k) = 1
  /-- The port makes the response of a packet at most once. -/
  made : ∀ k, w.trace.countP (Obs.makes k) ≤ 1
  ownPacket : ∀ k p, .makeResponse k p ∈ w.trace → ∃ t b, .allocate k t p b ∈ w.trace
  /-- Nothing refers to a payload when it is released, -/
  released : ∀ e ∈ w.log, ∀ k t, e.obs = .release k t → e.Untracked t
  /-- and nothing refers to one that is allocated. -/
  allocated : ∀ e ∈ w.log, ∀ k t p b, e.obs = .allocate k t p b → e.Untracked t

/-- **Payloads are released once, and nothing refers to them any more**, in every run in which
targets balance their references and take each END_REQ before the BEGIN_RESP of its
transaction. -/
theorem releaseLaws_of_run {q : SCSlavePort} {w : World} (hq : q.Bound)
    (h : PortRun (fun v a => RefsBalanced v a ∧ PhasesObeyed v a ∧ TakenInOrder v a) q w) :
    ReleaseLaws w := by
  have hi := h.invariant (I := fun v => Life v ∧ Channel v ∧ Tracking v) hq
    (fun _ hv => ⟨.of_initial hv, .of_initial hv, .of_initial hv⟩) fun _ _ hi hm =>
      ⟨hi.1.step (fun _ _ h => h.1) (fun _ _ h => h.2.1) hm,
        hi.2.1.step (fun _ _ h => h.1) (fun _ _ h => h.2.1) (fun _ _ h => h.2.2) hi.1 hm,
        hi.2.2.step hi.1 hi.2.1 hm⟩
  obtain ⟨hl, hc, ht⟩ := hi
  have hled : Ledger w.trace := w.trace_view ▸ ht.ledger
  have hun : ∀ e ∈ w.log, ∀ t, e.obs.hands t = true → e.Untracked t := fun e he t ho =>
    Record.Untracked.entry (ht.untracked e.record (List.mem_map_of_mem he) t ho)
      ((h.moves hq).1.log e he)
  refine ⟨hled.released_le_one, hled.allocated.1, fun k t s a he => ?_, hled.made_le_one,
    hled.allocated.2, fun e he k t ho => hun e he t (by simp [ho, Obs.hands]),
    fun e he k t p b ho => hun e he t (by simp [ho, Obs.hands])⟩
  have hr : .release k t ∈ w.trace := w.trace_view ▸ hl.ended k t s a (w.trace_view ▸ he)
  refine ⟨hr, le_antisymm (hled.released_le_one k) (List.countP_pos_iff.2 ⟨_, hr, ?_⟩)⟩
  simp [Obs.releases]

/-- The target keeps a reference beyond END_RESP; the next request gets another payload. -/
theorem releaseLaws_heldPayload : ∃ w : World, .endResp 0 0 0 0 ∈ w.trace ∧
    .allocate 1 1 1 true ∈ w.trace ∧ ReleaseLaws w := by
  obtain ⟨w, hr, hw⟩ := exists_portRun (q := oneSocketPort)
    (P := fun v a => RefsBalanced v a ∧ PhasesObeyed v a ∧ TakenInOrder v a)
    (p := fun w => decide (.endResp 0 0 0 0 ∈ w.trace ∧ .allocate 1 1 1 true ∈ w.trace))
    [.recvTimingReq (readRequest 0), .targetAcquire 0 0, .nbTransportBw 0 0 .endReq 1,
      .nbTransportBw 0 0 .beginResp 2, .advance 1, .service {}, .advance 1, .service {},
      .recvTimingReq (readRequest 1), .targetRelease 0 0] (by decide)
  obtain ⟨h₁, h₂⟩ := of_decide_eq_true hw
  exact ⟨w, h₁, h₂, releaseLaws_of_run bound_oneSocketPort hr⟩

/-! ## The calls of the pool -/

/-- A run of the pool, after which the payloads with references are handed out. -/
structure InUse (v : View) (s : PayloadPool) : Prop where
  run : Run PayloadPool.step (fun _ _ => True) {} s
  mm : s.mm = v.pool
  handedOut : ∀ t, t ∈ MemoryManager.handedOut s.trace ↔ 0 < v.refs t

namespace InUse

variable {s : PayloadPool}

theorem of_initial (h : v.Initial) : InUse v {} := by
  refine ⟨.refl, h.pool.symm, fun t => ?_⟩
  rw [h.refs]
  simp [MemoryManager.handedOut]

theorem congr (h : InUse v s) (hpool : u.pool = v.pool) (hrefs : u.refs = v.refs) : InUse u s := by
  refine ⟨h.run, h.mm.trans hpool.symm, fun t => ?_⟩
  rw [hrefs]
  exact h.handedOut t

theorem addRef (h : InUse v s) (ht : 0 < v.refs t) : InUse (v.addRef t) s := by
  refine ⟨h.run, h.mm, fun t' => ?_⟩
  rw [h.handedOut, View.addRef_refs]
  by_cases hne : t' = t
  · subst hne
    simp [ht]
  · rw [Function.update_of_ne hne]

/-- `new` gives a payload without references. -/
theorem begin (h : InUse v s) (hp : Pool v) (r : Request) : ∃ s', InUse (v.begin r) s' := by
  have hnew : v.pool.numberOfAllocations ∉ MemoryManager.handedOut s.trace := by
    rw [h.handedOut, hp.fresh _ le_rfl]
    exact Nat.lt_irrefl 0
  have hstep : s.step (.allocate v.pool.numberOfAllocations) =
      .ok ⟨v.pool.allocate.2, .allocated v.next :: s.trace⟩ := by
    rw [PayloadPool.step, check_pos fun _ => hnew, ok_bind, h.mm]
    rfl
  refine ⟨_, h.run.snoc trivial hstep, rfl, fun t => ?_⟩
  rw [MemoryManager.handedOut, List.mem_cons, h.handedOut, View.begin_refs]
  by_cases hne : t = v.next
  · subst hne
    simp
  · simp [hne]

/-- The payload whose last reference is given up is handed out. -/
theorem dropRef (h : InUse v s) (ht : 0 < v.refs t) : ∃ s', InUse (v.dropRef t) s' := by
  by_cases h1 : v.refs t = 1
  · have hstep : s.step (.free t) = .ok ⟨v.pool.free t, .freed t :: s.trace⟩ := by
      rw [PayloadPool.step, check_pos ((h.handedOut t).2 ht), ok_bind, h.mm]
      rfl
    have hnodup := (List.nodup_append.1 (PayloadPool.tidy_of_run h.run).nodup).1
    refine ⟨_, h.run.snoc trivial hstep, ?_, fun t' => ?_⟩
    · simp [h1]
    · rw [MemoryManager.handedOut, hnodup.mem_erase_iff, h.handedOut, View.dropRef_refs]
      by_cases hne : t' = t
      · simp [hne, h1]
      · simp [hne]
  · refine ⟨s, h.run, ?_, fun t' => ?_⟩
    · simp [h.mm, h1]
    · rw [h.handedOut, View.dropRef_refs]
      by_cases hne : t' = t
      · subst hne
        rw [Function.update_self]
        omega
      · rw [Function.update_of_ne hne]

theorem step (hb : ∀ v a, P v a → RefsBalanced v a) (hl : Life v) (h : InUse v s)
    (hm : Move P v u) : ∃ s', InUse u s' := by
  cases hm
  case accepted r ha hs =>
    obtain ⟨s', h'⟩ := h.begin hl.pool r
    exact ⟨s', h'.congr rfl rfl⟩
  case updated r ha hs hp =>
    obtain ⟨s', h'⟩ := h.begin hl.pool r
    exact ⟨s', h'.congr rfl rfl⟩
  case completed r ha hs =>
    obtain ⟨s', h'⟩ := h.begin hl.pool r
    have hpos : 0 < (v.begin r).refs v.next := by simp
    obtain ⟨s'', h''⟩ := h'.dropRef hpos
    exact ⟨s'', h''.congr rfl rfl⟩
  case finish t x hd hpos =>
    obtain ⟨s', h'⟩ := h.dropRef hpos
    exact ⟨s', h'.congr rfl rfl⟩
  case targetAcquire k t hP hlt =>
    have hs : v.serialOf t = some k := hb _ _ hP
    obtain ⟨x, hx, -⟩ := Option.map_eq_some_iff.1 hs
    exact ⟨s, (h.addRef (hl.pool.refs _ _ hx)).congr rfl rfl⟩
  case targetRelease k t hP hpos =>
    obtain ⟨s', h'⟩ := h.dropRef hpos
    exact ⟨s', h'.congr rfl rfl⟩
  all_goals exact ⟨s, h.congr rfl rfl⟩

end InUse

/-- **The port frees only payloads that are handed out**, so that the laws of the pool hold along
its runs. -/
theorem inUse_of_run {q : SCSlavePort} {w : World} (hq : q.Bound)
    (h : PortRun (fun v a => RefsBalanced v a ∧ PhasesObeyed v a) q w) :
    ∃ s, InUse w.view s ∧ s.mm = w.mm := by
  have hi := h.invariant (I := fun v => Life v ∧ ∃ s, InUse v s) hq
    (fun _ hv => ⟨.of_initial hv, _, .of_initial hv⟩) fun _ _ hi hm =>
      ⟨hi.1.step (fun _ _ h => h.1) (fun _ _ h => h.2) hm,
        hi.2.elim fun _ hs => hs.step (fun _ _ h => h.1) hi.1 hm⟩
  obtain ⟨-, s, hs⟩ := hi
  exact ⟨s, hs, hs.mm⟩

end Gem5Wrapper
