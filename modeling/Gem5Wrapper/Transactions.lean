import Gem5Wrapper.Refinement

/-!
# The life of a transaction
-/

namespace Gem5Wrapper

open Function (update)

variable {P : Promise} {v u : View} {k : ℕ} {t : Ptr} {ph : Phase}

/-! ## What a move can change -/

theorem Move.suffix (h : Move P v u) : v.trace <:+ u.trace := by
  cases h <;> first
    | exact List.suffix_rfl
    | exact List.suffix_cons _ _
    | exact ⟨[_, _], rfl⟩
    | exact ⟨[_, _, _], rfl⟩

theorem Move.mem_trace {o : Obs} (h : Move P v u) (ho : o ∈ v.trace) : o ∈ u.trace :=
  h.suffix.subset ho

/-- What is released: the transaction that is finished, or one that is completed at once. -/
theorem Move.release (h : Move P v u) (hk : .release k t ∈ u.trace) : .release k t ∈ v.trace ∨
    (∃ x, Done v t x ∧ x.serial = k ∧ u = v.finish t x) ∨
      ∃ r, Admitted P v r ∧ r.reply.status = .completed ∧ k = v.serial ∧
        u.trace = .release v.serial v.next :: (v.begin r).trace := by
  cases h
  case finish t' x hd hr =>
    simp only [View.trace_finish, List.mem_cons, Obs.release.injEq, reduceCtorEq, false_or] at hk
    rcases hk with ⟨rfl, rfl⟩ | hk
    · exact .inr (.inl ⟨x, hd, rfl, rfl⟩)
    · exact .inl hk
  case completed r ha hs =>
    simp only [View.trace_dropRef, View.trace_emit, View.trace_begin, List.mem_cons,
      Obs.release.injEq, reduceCtorEq, false_or] at hk
    rcases hk with ⟨rfl, -⟩ | hk
    · exact .inr (.inr ⟨r, ha, hs, rfl, rfl⟩)
    · exact .inl hk
  case advance => exact .inl hk
  all_goals simp at hk; exact .inl hk

theorem Move.released (h : Move P v u) (hk : Released u.trace k) : Released v.trace k ∨
    (∃ t x, Done v t x ∧ x.serial = k ∧ u = v.finish t x) ∨ k = v.serial := by
  obtain ⟨t, ht⟩ := hk
  rcases h.release ht with ht | ⟨x, hd, hx, hu⟩ | ⟨r, -, -, hs, -⟩
  · exact .inl ⟨t, ht⟩
  · exact .inr (.inl ⟨t, x, hd, hx, hu⟩)
  · exact .inr (.inr hs)

/-- Whose BEGIN_REQ leaves. -/
theorem Move.begun (h : Move P v u) (hk : Begun u.trace k t) : Begun v.trace k t ∨
    ∃ r, Admitted P v r ∧ r.reply.status ≠ .completed ∧ k = v.serial ∧ t = v.next ∧
      u.carried t = some ⟨r.packet, v.target r.content, v.serial⟩ ∧
      u.trace = (v.begin r).trace := by
  cases h
  case accepted r ha hs =>
    simp [Obs.begins] at hk
    rcases hk with ⟨rfl, rfl, hk⟩ | hk
    · exact .inr ⟨r, ha, hk, rfl, rfl, by simp, rfl⟩
    · exact .inl hk
  case updated r ha hs hp =>
    simp [Obs.begins] at hk
    rcases hk with ⟨rfl, rfl, hk⟩ | hk
    · exact .inr ⟨r, ha, hk, rfl, rfl, by simp, rfl⟩
    · exact .inl hk
  case completed r ha hs =>
    simp [Obs.begins, hs] at hk
    exact .inl hk
  case advance => exact .inl hk
  all_goals simp [Obs.begins] at hk; exact .inl hk

/-- For whom `pec` runs. -/
theorem Move.pec (h : Move P v u) (hk : .pec k ph ∈ u.trace) : .pec k ph ∈ v.trace ∨
    ∃ e, Serviced P v e u.events ∧ e.txn = k ∧ e.p = ph := by
  cases h
  case close e q s hs hp hc ho =>
    simp at hk
    rcases hk with ⟨rfl, rfl⟩ | hk
    · exact .inr ⟨e, hs, rfl, rfl⟩
    · exact .inl hk
  case retry e q s hs hp hc ho =>
    simp at hk
    rcases hk with ⟨rfl, rfl⟩ | hk
    · exact .inr ⟨e, hs, rfl, rfl⟩
    · exact .inl hk
  case keep e q hs hp =>
    simp at hk
    rcases hk with ⟨rfl, rfl⟩ | hk
    · exact .inr ⟨e, hs, rfl, rfl⟩
    · exact .inl hk
  case advance => exact .inl hk
  all_goals simp at hk; exact .inl hk

/-- Where a scheduled event comes from. -/
theorem Move.event (h : Move P v u) {e : PayloadEvent} (he : e ∈ u.events) : e ∈ v.events ∨
    (∃ delay, P v (.nbTransportBw e.txn e.t e.p delay) ∧ e.tick = v.now + delay) ∨
      ∃ r, Admitted P v r ∧ r.reply.status = .updated ∧ e.txn = v.serial ∧ e.t = v.next ∧
        e.p = r.reply.phase ∧ (e.p = .endReq ∨ e.p = .beginResp) := by
  cases h
  case updated r ha hs hp =>
    simp at he
    rcases he with rfl | he
    · exact .inr (.inr ⟨r, ha, hs, rfl, rfl, rfl, hp⟩)
    · exact .inl he
  case bw k t ph delay hP =>
    simp at he
    rcases he with rfl | he
    · exact .inr (.inl ⟨delay, hP, rfl⟩)
    · exact .inl he
  case close e q s hs hp hc ho =>
    simp at he; exact .inl (hs.events ▸ List.mem_cons_of_mem _ he)
  case retry e q s hs hp hc ho =>
    simp at he; exact .inl (hs.events ▸ List.mem_cons_of_mem _ he)
  case keep e q hs hp =>
    simp at he; exact .inl (hs.events ▸ List.mem_cons_of_mem _ he)
  case advance => exact .inl he
  all_goals simp at he; exact .inl he

/-- What a response slot holds: what it held before, or the response that was just refused. -/
theorem Move.response (h : Move P v u) {s : ℕ} (hs : u.slots.response s = some t) :
    v.slots.response s = some t ∨
      ∃ x, v.cur = .answered t x false false ∧ s = x.coreId ∧ u.cur = .idle := by
  cases h
  case block t' x hc =>
    by_cases hx : s = x.coreId
    · simp [hx] at hs
      exact .inr ⟨x, hs ▸ hc, hx, rfl⟩
    · simp [hx] at hs
      exact .inl hs
  case take t' x i s' hc hi hx hs' =>
    by_cases h' : s = s'
    · simp [h'] at hs
    · simp [h'] at hs
      exact .inl hs
  case advance => exact .inl hs
  all_goals simp at hs; exact .inl hs

/-! ## The pool -/

/-- The free payloads are not in use, and no two payloads carry one transaction. -/
structure Pool (v : View) : Prop where
  nodup : v.pool.freePayloads.Nodup
  free : ∀ t ∈ v.pool.freePayloads, t < v.pool.numberOfAllocations ∧ v.refs t = 0
  fresh : ∀ t, v.pool.numberOfAllocations ≤ t → v.refs t = 0
  refs : ∀ t x, v.carried t = some x → 0 < v.refs t
  serial : ∀ t x, v.carried t = some x → x.serial < v.serial
  inj : ∀ t t' x x', v.carried t = some x → v.carried t' = some x' → x.serial = x'.serial → t = t'

/-- A payload that still carries a transaction after a release was not released for good. -/
theorem View.carried_of_dropRef {t' : Ptr} {x : Gem5Extension}
    (hx : (v.dropRef t).carried t' = some x) :
    v.carried t' = some x ∧ (t' = t → v.refs t ≠ 1) := by
  by_cases h1 : v.refs t = 1
  · by_cases ht : t' = t
    · simp [h1, ht] at hx
    · exact ⟨by simpa [h1, ht] using hx, fun h => absurd h ht⟩
  · exact ⟨by simpa [h1] using hx, fun _ => h1⟩

namespace Pool

variable (hi : Pool v)

include hi

theorem congr (h₁ : u.pool = v.pool) (h₂ : u.refs = v.refs) (h₃ : u.carried = v.carried)
    (h₄ : u.serial = v.serial) : Pool u := by
  refine ⟨?_, ?_, ?_, ?_, ?_, ?_⟩ <;> simp only [h₁, h₂, h₃, h₄]
  exacts [hi.1, hi.2, hi.3, hi.4, hi.5, hi.6]

theorem refs_next : v.refs v.next = 0 := by
  unfold View.next MemoryManager.allocate
  split
  · exact hi.fresh _ le_rfl
  · rename_i t rest hf
    exact (hi.free t (hf ▸ List.mem_cons_self)).2

theorem carried_next : v.carried v.next = none := by
  by_contra hn
  obtain ⟨x, hx⟩ := Option.ne_none_iff_exists'.1 hn
  exact absurd (hi.refs _ _ hx) (by rw [hi.refs_next]; simp)

theorem ne_next (ht : 0 < v.refs t) : t ≠ v.next := by
  rintro rfl
  simp [hi.refs_next] at ht

theorem addRef (ht : 0 < v.refs t) : Pool (v.addRef t) := by
  refine ⟨hi.nodup, fun t' ht' => ?_, fun t' ht' => ?_, fun t' x hx => ?_, hi.serial, hi.inj⟩
  · have := hi.free t' ht'
    have hne : t' ≠ t := by rintro rfl; omega
    simpa [hne] using this
  · have := hi.fresh t' ht'
    have hne : t' ≠ t := by rintro rfl; omega
    simpa [hne] using this
  · have := hi.refs t' x hx
    by_cases hne : t' = t
    · simp [hne]
    · simpa [hne] using this

theorem dropRef (ht : 0 < v.refs t) : Pool (v.dropRef t) := by
  have hnf : t ∉ v.pool.freePayloads := fun hf => by have := (hi.free t hf).2; omega
  have hlt : t < v.pool.numberOfAllocations := by
    by_contra hn; have := hi.fresh t (Nat.not_lt.1 hn); omega
  have hcar : ∀ t' x, (v.dropRef t).carried t' = some x → v.carried t' = some x :=
    fun _ _ hx => (View.carried_of_dropRef hx).1
  refine ⟨?_, fun t' ht' => ?_, fun t' ht' => ?_, fun t' x hx => ?_,
    fun t' x hx => hi.serial t' x (hcar _ _ hx),
    fun t' t'' x x' hx hx' => hi.inj _ _ _ _ (hcar _ _ hx) (hcar _ _ hx')⟩
  · simp only [View.dropRef_pool]
    split_ifs
    · exact List.nodup_cons.2 ⟨hnf, hi.nodup⟩
    · exact hi.nodup
  · simp only [View.dropRef_pool, View.dropRef_refs] at ht' ⊢
    split_ifs at ht' ⊢ with h1
    · rcases List.mem_cons.1 ht' with rfl | hm
      · exact ⟨hlt, by simp [h1]⟩
      · have hne : t' ≠ t := fun h => hnf (h ▸ hm)
        simpa [hne, MemoryManager.free] using hi.free t' hm
    · have hne : t' ≠ t := fun h => hnf (h ▸ ht')
      simpa [hne] using hi.free t' ht'
  · have hle : v.pool.numberOfAllocations ≤ t' := by
      simp only [View.dropRef_pool] at ht'
      split_ifs at ht' <;> exact ht'
    have hne : t' ≠ t := fun h => absurd hlt (Nat.not_lt.2 (h ▸ hle))
    simpa [hne] using hi.fresh t' hle
  · have := hi.refs t' x (hcar _ _ hx)
    by_cases hne : t' = t
    · subst hne
      simp only [View.dropRef_carried, View.dropRef_refs, Function.update_self] at hx ⊢
      split_ifs at hx
      · simp at hx
      · omega
    · simpa [hne] using this

theorem begin (r : Request) : Pool (v.begin r) := by
  have hnext := hi.refs_next
  have hall : v.pool.numberOfAllocations ≤ v.pool.allocate.2.numberOfAllocations ∧
      (∀ t ∈ v.pool.allocate.2.freePayloads, t ∈ v.pool.freePayloads ∧ t ≠ v.next) ∧
      v.pool.allocate.2.freePayloads.Nodup ∧ v.next < v.pool.allocate.2.numberOfAllocations := by
    unfold View.next MemoryManager.allocate
    split
    · rename_i hf; simp [hf]
    · rename_i t rest hf
      have hnd := hf ▸ hi.nodup
      refine ⟨le_rfl, fun t' ht' => ⟨hf ▸ List.mem_cons_of_mem _ ht', ?_⟩,
        (List.nodup_cons.1 hnd).2, (hi.free t (hf ▸ List.mem_cons_self)).1⟩
      rintro rfl
      exact (List.nodup_cons.1 hnd).1 ht'
  obtain ⟨h1, h2, h3, h4⟩ := hall
  refine ⟨h3, fun t ht => ?_, fun t ht => ?_, fun t x hx => ?_, fun t x hx => ?_,
    fun t t' x x' hx hx' he => ?_⟩
  · obtain ⟨hf, hne⟩ := h2 t ht
    have := hi.free t hf
    exact ⟨this.1.trans_le h1, by simpa [hne] using this.2⟩
  · have hne : t ≠ v.next := by rintro rfl; exact absurd h4 (Nat.not_lt.2 ht)
    simpa [hne] using hi.fresh t (h1.trans ht)
  · by_cases hne : t = v.next
    · simp [hne]
    · simp only [View.begin_carried, Function.update_of_ne hne] at hx
      simpa [hne] using hi.refs t x hx
  · by_cases hne : t = v.next
    · simp [hne] at hx
      simp [← hx]
    · simp only [View.begin_carried, Function.update_of_ne hne] at hx
      exact (hi.serial t x hx).trans (Nat.lt_succ_self _)
  · simp only [View.begin_carried, Function.update_apply] at hx hx'
    split_ifs at hx hx' with g1 g2 g2
    · exact g1.trans g2.symm
    · obtain rfl := Option.some.inj hx
      exact absurd he (hi.serial _ _ hx').ne'
    · obtain rfl := Option.some.inj hx'
      exact absurd he (hi.serial _ _ hx).ne
    · exact hi.inj _ _ _ _ hx hx' he

end Pool

/-! ## Transactions in the port -/

variable {x : Gem5Extension}

/-- The payload carries a transaction that the port has not released. -/
structure Carries (v : View) (t : Ptr) (x : Gem5Extension) : Prop where
  carried : v.carried t = some x
  unreleased : ¬ Released v.trace x.serial

/-- The references to the payload of transaction `k`: those of the target, and one of the port
until it releases the payload. -/
structure Owned (l : List Obs) (k n : ℕ) : Prop where
  unreleased : ¬ Released l k → n = held l k + 1
  released : Released l k → n = held l k

/-- The port deals with the response of the transaction; the payload is in no response slot. -/
structure InHand (v : View) (t : Ptr) (x : Gem5Extension) : Prop where
  carries : Carries v t x
  begun : .pec x.serial .beginResp ∈ v.trace
  free : ∀ s, v.slots.response s ≠ some t

/-- The payload of the call that the port is in. -/
def Cur.Ok (v : View) : Cur → Prop
  | .idle | .retrying => True
  | .popped t k => ∃ x, x.serial = k ∧ InHand v t x
  | .entered t x | .taken t x | .answered t x _ _ => InHand v t x

/-- What holds of transactions and their payloads, if targets balance their references and send
phases as TLM allows. -/
structure Life (v : View) : Prop where
  pool : Pool v
  known : ∀ o ∈ v.trace, ∀ k, o.txn = some k → k < v.serial
  balanced : ∀ k, v.trace.count (.targetRelease k) ≤ v.trace.count (.targetAcquire k)
  refs : ∀ t x, v.carried t = some x → Owned v.trace x.serial (v.refs t)
  /-- BEGIN_REQ left by the socket that the extension names, with the address of the payload. -/
  born : ∀ t x, v.carried t = some x →
    ∃ d r, .beginReq x.serial t x.coreId (v.address t) d r ∈ v.trace
  /-- A transaction keeps its payload until `pec` has run for its BEGIN_RESP. -/
  alive : ∀ k t, Begun v.trace k t → .pec k .beginResp ∉ v.trace →
    ∃ x, x.serial = k ∧ Carries v t x
  event : ∀ e ∈ v.events, (e.p = .endReq ∨ e.p = .beginResp) ∧ Begun v.trace e.txn e.t ∧
    Sent v.trace e.txn e.p ∧ .pec e.txn e.p ∉ v.trace
  unique : v.events.Pairwise fun e e' => e.txn = e'.txn → e.p ≠ e'.p
  sent : ∀ k ph, .pec k ph ∈ v.trace → Sent v.trace k ph
  ended : ∀ k t s a, .endResp k t s a ∈ v.trace → .release k t ∈ v.trace
  response : ∀ s t, v.slots.response s = some t → ∃ x, Carries v t x ∧ x.coreId = s ∧
    .pec x.serial .beginResp ∈ v.trace
  cur : v.cur.Ok v

namespace Life

variable (hi : Life v)

include hi

theorem inHand_of_done (hd : Done v t x) : InHand v t x := by
  have := hi.cur
  rcases hd with ⟨h, -⟩ | ⟨again, h⟩ <;> rw [h] at this <;> exact this

theorem begun_lt (h : Begun v.trace k t) : k < v.serial := by
  obtain ⟨o, ho, hk⟩ := h
  refine hi.known o ho k ?_
  cases o <;> simp [Obs.begins] at hk
  simp [Obs.txn, hk.1]

theorem event_lt {e : PayloadEvent} (he : e ∈ v.events) : e.txn < v.serial :=
  hi.begun_lt (hi.event e he).2.1

end Life

theorem Serviced.mem {e : PayloadEvent} {q : List PayloadEvent} (hs : Serviced P v e q) :
    e ∈ v.events := hs.events ▸ List.mem_cons_self

variable (hb : ∀ v a, P v a → RefsBalanced v a) (ho : ∀ v a, P v a → PhasesObeyed v a)

include hb in
theorem Life.step_pool (hi : Life v) (h : Move P v u) : Pool u := by
  have hp := hi.pool
  cases h
  case accepted r ha hs => exact (hp.begin r).congr rfl rfl rfl rfl
  case updated r ha hs hp' => exact (hp.begin r).congr rfl rfl rfl rfl
  case completed r ha hs =>
    have hpos : 0 < (v.begin r).refs v.next := by simp
    exact ((hp.begin r).dropRef hpos).congr rfl rfl rfl rfl
  case finish t x hd hpos => exact (hp.dropRef hpos).congr rfl rfl rfl rfl
  case targetAcquire k t hP hlt =>
    have hs : v.serialOf t = some k := hb _ _ hP
    obtain ⟨x, hx, -⟩ := Option.map_eq_some_iff.1 hs
    exact (hp.addRef (hp.refs _ _ hx)).congr rfl rfl rfl rfl
  case targetRelease k t hP hpos => exact (hp.dropRef hpos).congr rfl rfl rfl rfl
  all_goals exact hp.congr rfl rfl rfl rfl

include hb ho in
theorem Life.step_known (hi : Life v) (h : Move P v u) :
    ∀ o ∈ u.trace, ∀ k, o.txn = some k → k < u.serial := by
  have hk := hi.known
  have hk' : ∀ o ∈ v.trace, ∀ k, o.txn = some k → k < v.serial + 1 :=
    fun o ho k hok => (hk o ho k hok).trans (Nat.lt_succ_self _)
  have hc := hi.cur
  cases h
  case refuse r t hr hs ht =>
    simp only [View.trace_setOwed, View.trace_emit, View.trace_store, List.forall_mem_cons]
    refine ⟨fun k hok => ?_, hk⟩
    obtain ⟨x, hx, rfl⟩ := Option.map_eq_some_iff.1 (show v.serialOf t = some k from hok)
    exact hi.pool.serial _ _ hx
  case accepted r ha hs => simpa [Obs.txn] using hk'
  case updated r ha hs hp => simpa [Obs.txn] using hk'
  case completed r ha hs => simpa [Obs.txn] using hk'
  case close e q s hs hp hc ho => simpa [Obs.txn] using ⟨hi.event_lt hs.mem, hk⟩
  case retry e q s hs hp hc ho => simpa [Obs.txn] using ⟨hi.event_lt hs.mem, hk⟩
  case keep e q hs hp => simpa [Obs.txn] using ⟨hi.event_lt hs.mem, hk⟩
  case makeResponse t k' x hcur hx hfree hn => simpa [Obs.txn] using ⟨hi.pool.serial _ _ hx, hk⟩
  case respond t x b hcur hresp =>
    rw [hcur] at hc
    simpa [Obs.txn] using ⟨hi.pool.serial _ _ hc.carries.carried, hk⟩
  case resend t x b hcur hb' =>
    rw [hcur] at hc
    simpa [Obs.txn] using ⟨hi.pool.serial _ _ hc.carries.carried, hk⟩
  case finish t x hd hpos =>
    simpa [Obs.txn] using ⟨hi.pool.serial _ _ (hi.inHand_of_done hd).carries.carried, hk⟩
  case bw k' t ph delay hP =>
    have := ho _ _ hP
    simpa [Obs.txn] using ⟨hi.begun_lt this.1, hk⟩
  case targetAcquire k' t hP hlt =>
    have hs : v.serialOf t = some k' := hb _ _ hP
    obtain ⟨x, hx, rfl⟩ := Option.map_eq_some_iff.1 hs
    simpa [Obs.txn] using ⟨hi.pool.serial _ _ hx, hk⟩
  case targetRelease k' t hP hpos =>
    obtain ⟨x, hx, rfl⟩ := Option.map_eq_some_iff.1 (hb _ _ hP).1
    simpa [Obs.txn] using ⟨hi.pool.serial _ _ hx, hk⟩
  case respRetry => simpa [Obs.txn] using hk
  case advance => exact hk
  all_goals simpa using hk

include hb in
theorem Life.step_balanced (hi : Life v) (h : Move P v u) (k : ℕ) :
    u.trace.count (.targetRelease k) ≤ u.trace.count (.targetAcquire k) := by
  have hbal := hi.balanced k
  cases h
  case targetAcquire k' t hP hlt =>
    simp only [View.trace_addRef, View.trace_emit, List.count_cons, beq_iff_eq, reduceCtorEq,
      if_false]
    omega
  case targetRelease k' t hP hpos =>
    have hheld := (hb _ _ hP).2
    unfold held at hheld
    simp only [View.trace_dropRef, View.trace_emit, List.count_cons, beq_iff_eq, reduceCtorEq,
      if_false, Obs.targetRelease.injEq]
    split_ifs with h'
    · subst h'; omega
    · omega
  case advance => exact hbal
  all_goals simpa using hbal

/-- A transaction that is not known yet has no references. -/
theorem Life.held_eq_zero (hi : Life v) (hk : v.serial ≤ k) : held v.trace k = 0 := by
  have : v.trace.count (.targetAcquire k) = 0 := List.count_eq_zero.2 fun hm =>
    absurd (hi.known _ hm k rfl) (Nat.not_lt.2 hk)
  simp [held, this]

theorem Life.not_released (hi : Life v) (hk : v.serial ≤ k) : ¬ Released v.trace k := by
  rintro ⟨t, ht⟩
  exact absurd (hi.known _ ht k rfl) (Nat.not_lt.2 hk)

theorem Owned.congr {l l' : List Obs} {n : ℕ} (h : Owned l k n) (hh : held l' k = held l k)
    (hr : Released l' k ↔ Released l k) : Owned l' k n :=
  ⟨fun hn => hh ▸ h.1 (hr.not.1 hn), fun hn => hh ▸ h.2 (hr.1 hn)⟩

theorem Life.owned_begin (hi : Life v) (r : Request) (hx : (v.begin r).carried t = some x) :
    Owned (v.begin r).trace x.serial ((v.begin r).refs t) := by
  by_cases ht : t = v.next
  · subst ht
    simp only [View.begin_carried, Function.update_self, Option.some.injEq] at hx
    subst hx
    have h1 := hi.held_eq_zero (k := v.serial) le_rfl
    have h2 := hi.not_released (k := v.serial) le_rfl
    refine Owned.congr (l := v.trace) ⟨fun _ => ?_, fun hn => absurd hn h2⟩ (by simp [held])
      (by simp)
    simp [h1, hi.pool.refs_next]
  · simp only [View.begin_carried, View.begin_refs, Function.update_of_ne ht] at hx ⊢
    exact (hi.refs t x hx).congr (by simp [held]) (by simp)

include hb in
theorem Life.step_refs (hi : Life v) (h : Move P v u) (t : Ptr) (x : Gem5Extension)
    (hx : u.carried t = some x) : Owned u.trace x.serial (u.refs t) := by
  have hr := hi.refs
  cases h
  case accepted r ha hs => exact hi.owned_begin r hx
  case updated r ha hs hp => exact hi.owned_begin r hx
  case completed r ha hs =>
    have hrefs : (v.begin r).refs v.next = 1 := by simp [hi.pool.refs_next]
    have ht : t ≠ v.next := by
      rintro rfl
      simp [hi.pool.refs_next] at hx
    have hx' : (v.begin r).carried t = some x := by simpa [hi.pool.refs_next, ht] using hx
    have hser : x.serial ≠ v.serial := by
      have : v.carried t = some x := by simpa [ht] using hx'
      exact (hi.pool.serial _ _ this).ne
    have := hi.owned_begin r hx'
    simp only [View.dropRef_refs, View.emit_refs, Function.update_of_ne ht]
    exact this.congr (by simp [held]) (by simp [hser.symm])
  case finish t' x' hd hpos =>
    have hc := (hi.inHand_of_done hd).carries
    obtain ⟨hx, h1⟩ := View.carried_of_dropRef hx
    have hx : v.carried t = some x := hx
    have ho := hr t x hx
    by_cases ht : t = t'
    · subst ht
      obtain rfl : x = x' := Option.some.inj (hx.symm.trans hc.carried)
      have hn := ho.1 hc.unreleased
      refine ⟨fun h => absurd ?_ h, fun _ => ?_⟩
      · simp
      · simp [held] at hn ⊢
        omega
    · have hser : x'.serial ≠ x.serial := fun h => ht (hi.pool.inj _ _ _ _ hx hc.carried h.symm)
      simp only [View.finish_refs, Function.update_of_ne ht]
      exact ho.congr (by simp [held]) (by simp [hser])
  case targetAcquire k' t' hP hlt =>
    obtain ⟨x', hx', rfl⟩ := Option.map_eq_some_iff.1 (hb _ _ hP : v.serialOf t' = some k')
    have hx : v.carried t = some x := hx
    have hbal := hi.balanced x'.serial
    have ho := hr t x hx
    by_cases ht : t = t'
    · subst ht
      obtain rfl : x = x' := Option.some.inj (hx.symm.trans hx')
      have hheld : held (.targetAcquire x.serial :: v.trace) x.serial =
          held v.trace x.serial + 1 := by
        simp [held]; omega
      refine ⟨fun hn => ?_, fun hn => ?_⟩
      · have := ho.1 (by simpa using hn)
        simp [hheld, this]
      · have := ho.2 (by simpa using hn)
        simp [hheld, this]
    · have hser : x'.serial ≠ x.serial := fun h => ht (hi.pool.inj _ _ _ _ hx hx' h.symm)
      simp only [View.addRef_refs, View.emit_refs, Function.update_of_ne ht]
      exact ho.congr (by simp [held, hser]) (by simp)
  case targetRelease k' t' hP hpos =>
    obtain ⟨hs, hheld⟩ := hb _ _ hP
    obtain ⟨x', hx', rfl⟩ := Option.map_eq_some_iff.1 hs
    have hcar : v.carried t = some x := (View.carried_of_dropRef hx).1
    have ho := hr t x hcar
    by_cases ht : t = t'
    · subst ht
      obtain rfl : x = x' := Option.some.inj (hcar.symm.trans hx')
      have hheld' : held (.targetRelease x.serial :: v.trace) x.serial =
          held v.trace x.serial - 1 := by
        simp [held]; omega
      refine ⟨fun hn => ?_, fun hn => ?_⟩
      · have := ho.1 (by simpa using hn)
        simp [hheld', this]
        omega
      · have := ho.2 (by simpa using hn)
        simp [hheld', this]
    · have hser : x'.serial ≠ x.serial := fun h => ht (hi.pool.inj _ _ _ _ hcar hx' h.symm)
      simp only [View.dropRef_refs, View.emit_refs, Function.update_of_ne ht]
      exact ho.congr (by simp [held, hser]) (by simp)
  case advance => exact hr t x hx
  all_goals exact (hr t x hx).congr (by simp [held]) (by simp)

theorem Begun.mono {l l' : List Obs} (h : Begun l k t) (hl : l ⊆ l') : Begun l' k t :=
  let ⟨o, ho, hk⟩ := h; ⟨o, hl ho, hk⟩

theorem Sent.mono {l l' : List Obs} (h : Sent l k ph) (hl : l ⊆ l') : Sent l' k ph :=
  let ⟨o, ho, hk⟩ := h; ⟨o, hl ho, hk⟩

theorem View.carried_dropRef {t' : Ptr} (h : t' = t → v.refs t ≠ 1) :
    (v.dropRef t).carried t' = v.carried t' := by
  by_cases h1 : v.refs t = 1
  · have ht : t' ≠ t := fun ht => h ht h1
    simp [h1, ht]
  · simp [h1]

/-- Only a new transaction gives a payload something new to carry. -/
theorem Move.carried (h : Move P v u) (hx : u.carried t = some x) (ht : t ≠ v.next) :
    v.carried t = some x := by
  cases h
  case accepted => simpa [ht] using hx
  case updated => simpa [ht] using hx
  case completed => simpa [ht] using (View.carried_of_dropRef hx).1
  case finish => exact (View.carried_of_dropRef hx).1
  case targetRelease => exact (View.carried_of_dropRef hx).1
  all_goals exact hx

include hb in
/-- What carries an unreleased transaction goes on carrying it. -/
theorem Life.carries_mono (hi : Life v) (h : Move P v u) (hc : Carries v t x)
    (hr : ¬ Released u.trace x.serial) : Carries u t x := by
  have hne := hi.pool.ne_next (hi.pool.refs _ _ hc.carried)
  refine ⟨?_, hr⟩
  cases h
  case accepted r ha hs => simpa [hne] using hc.carried
  case updated r ha hs hp => simpa [hne] using hc.carried
  case completed r ha hs =>
    rw [View.carried_dropRef fun h => absurd h hne]
    simpa [hne] using hc.carried
  case finish t' x' hd hpos =>
    have hc' := (hi.inHand_of_done hd).carries
    refine (View.carried_dropRef ?_).trans hc.carried
    rintro rfl
    obtain rfl : x = x' := Option.some.inj (hc.carried.symm.trans hc'.carried)
    exact absurd hr (by simp)
  case targetRelease k' t' hP hpos =>
    obtain ⟨hs, hheld⟩ := hb _ _ hP
    refine (View.carried_dropRef ?_).trans hc.carried
    rintro rfl
    have hk : x.serial = k' := by simpa [View.serialOf, hc.carried] using hs
    have := (hi.refs _ _ hc.carried).1 hc.unreleased
    rw [hk] at this
    simp only [View.emit_refs]
    omega
  all_goals exact hc.carried

/-- Of the known transactions, a move releases the one it finishes. -/
theorem Move.released_of_lt (h : Move P v u) (hk : k < v.serial)
    (hd : ∀ t x, Done v t x → x.serial = k → u ≠ v.finish t x) :
    Released u.trace k → Released v.trace k := by
  intro hr
  rcases h.released hr with hr | ⟨t, x, hdone, hx, hu⟩ | hk'
  · exact hr
  · exact absurd hu (hd t x hdone hx)
  · omega

theorem Life.step_born (hi : Life v) (h : Move P v u) (t : Ptr) (x : Gem5Extension)
    (hx : u.carried t = some x) :
    ∃ d r, .beginReq x.serial t x.coreId (u.address t) d r ∈ u.trace := by
  have hbegin : ∀ r, (v.begin r).carried t = some x →
      ∃ d r', .beginReq x.serial t x.coreId ((v.begin r).address t) d r' ∈ (v.begin r).trace := by
    intro r hx
    by_cases ht : t = v.next
    · subst ht
      simp only [View.begin_carried, Function.update_self, Option.some.injEq] at hx
      subst hx
      exact ⟨r.content.payloadDelay, r.reply, by simp⟩
    · simp only [View.begin_carried, Function.update_of_ne ht] at hx
      obtain ⟨d, r', hm⟩ := hi.born t x hx
      exact ⟨d, r', by simp [ht, hm]⟩
  have hold : v.carried t = some x → u.address t = v.address t →
      ∃ d r, .beginReq x.serial t x.coreId (u.address t) d r ∈ u.trace := by
    intro hx ha
    obtain ⟨d, r, hm⟩ := hi.born t x hx
    exact ⟨d, r, h.mem_trace (ha ▸ hm)⟩
  cases id h
  case accepted r ha hs => exact hbegin r hx
  case updated r ha hs hp => exact hbegin r hx
  case completed r ha hs =>
    obtain ⟨d, r', hm⟩ := hbegin r (View.carried_of_dropRef hx).1
    exact ⟨d, r', List.mem_cons_of_mem _ hm⟩
  case finish => exact hold (View.carried_of_dropRef hx).1 rfl
  case targetRelease => exact hold (View.carried_of_dropRef hx).1 rfl
  all_goals exact hold hx rfl

include hb in
theorem Life.step_alive (hi : Life v) (h : Move P v u) (k : ℕ) (t : Ptr)
    (hbeg : Begun u.trace k t) (hpec : .pec k .beginResp ∉ u.trace) :
    ∃ x, x.serial = k ∧ Carries u t x := by
  have hpec' : .pec k .beginResp ∉ v.trace := fun hm => hpec (h.mem_trace hm)
  rcases h.begun hbeg with hbeg | ⟨r, ha, -, rfl, -, hx, htr⟩
  · obtain ⟨x, rfl, hc⟩ := hi.alive k t hbeg hpec'
    refine ⟨x, rfl, hi.carries_mono hb h hc fun hr => hc.unreleased ?_⟩
    refine h.released_of_lt (hi.begun_lt hbeg) (fun t' x' hd hx' _ => hpec' ?_) hr
    exact hx' ▸ (hi.inHand_of_done hd).begun
  · refine ⟨_, rfl, hx, ?_⟩
    rw [htr]
    simpa using hi.not_released (k := v.serial) le_rfl

include ho in
theorem Life.step_event (hi : Life v) (h : Move P v u) (e : PayloadEvent) (he : e ∈ u.events) :
    (e.p = .endReq ∨ e.p = .beginResp) ∧ Begun u.trace e.txn e.t ∧
      Sent u.trace e.txn e.p ∧ .pec e.txn e.p ∉ u.trace := by
  have hold : e ∈ v.events → .pec e.txn e.p ∉ u.trace → (e.p = .endReq ∨ e.p = .beginResp) ∧
      Begun u.trace e.txn e.t ∧ Sent u.trace e.txn e.p ∧ .pec e.txn e.p ∉ u.trace := by
    intro he hn
    obtain ⟨h1, h2, h3, -⟩ := hi.event e he
    exact ⟨h1, h2.mono h.suffix.subset, h3.mono h.suffix.subset, hn⟩
  have hpop : ∀ e' q, Serviced P v e' q → e ∈ q → e ∈ v.events ∧
      (.pec e.txn e.p : Obs) ∉ .pec e'.txn e'.p :: v.trace := by
    intro e' q hs heq
    have hm : e ∈ v.events := hs.events ▸ List.mem_cons_of_mem _ heq
    refine ⟨hm, fun hpec => ?_⟩
    rcases List.mem_cons.1 hpec with hpec | hpec
    · have := (List.pairwise_cons.1 (hs.events ▸ hi.unique)).1 e heq
      simp only [Obs.pec.injEq] at hpec
      exact this hpec.1.symm hpec.2.symm
    · exact (hi.event e hm).2.2.2 hpec
  cases h
  case close e' q s hs hp hc ho =>
    obtain ⟨hm, hn⟩ := hpop e' q hs he
    exact hold hm hn
  case retry e' q s hs hp hc ho =>
    obtain ⟨hm, hn⟩ := hpop e' q hs he
    exact hold hm (by simpa using hn)
  case keep e' q hs hp =>
    obtain ⟨hm, hn⟩ := hpop e' q hs he
    exact hold hm hn
  case updated r ha hs hp =>
    simp only [View.notify_events, View.begin_events, TimedQueue.mem_insert] at he
    rcases he with rfl | he
    · refine ⟨hp, by simp [Obs.begins, hs], by simp [Obs.sends, hs], fun hm => ?_⟩
      simp only [View.trace_notify, View.trace_begin, List.mem_cons, reduceCtorEq, false_or] at hm
      exact absurd (hi.known _ hm _ rfl) (Nat.lt_irrefl _)
    · exact hold he (by simpa using (hi.event e he).2.2.2)
  case bw k t ph delay hP =>
    obtain ⟨hbeg, hph⟩ := ho _ _ hP
    simp only [View.notify_events, View.emit_events, TimedQueue.mem_insert] at he
    rcases he with rfl | he
    · refine ⟨hph.imp (·.1) (·.1), by simpa [Obs.begins] using hbeg, by simp [Obs.sends],
        fun hm => ?_⟩
      have := hi.sent k ph (by simpa using hm)
      rcases hph with ⟨rfl, hn, -⟩ | ⟨rfl, hn⟩
      · exact hn this
      · exact hn this
    · exact hold he (by simpa using (hi.event e he).2.2.2)
  case advance => exact hi.event e he
  all_goals exact hold he (by simpa using (hi.event e he).2.2.2)


include ho in
theorem Life.step_unique (hi : Life v) (h : Move P v u) :
    u.events.Pairwise fun e e' => e.txn = e'.txn → e.p ≠ e'.p := by
  have hinsert : ∀ e : PayloadEvent, (∀ e' ∈ v.events, e.txn = e'.txn → e.p ≠ e'.p) →
      (TimedQueue.insert PayloadEvent.tick e v.events).Pairwise
        fun e e' => e.txn = e'.txn → e.p ≠ e'.p := by
    intro e he
    refine ((TimedQueue.insert_perm e v.events).pairwise_iff ?_).2
      (List.pairwise_cons.2 ⟨he, hi.unique⟩)
    exact fun h ht hp => h ht.symm hp.symm
  have hpop : ∀ e q, Serviced P v e q → q.Pairwise fun e e' => e.txn = e'.txn → e.p ≠ e'.p :=
    fun e q hs => (List.pairwise_cons.1 (hs.events ▸ hi.unique)).2
  cases h
  case close e q s hs hp hc ho => exact hpop e q hs
  case retry e q s hs hp hc ho => exact hpop e q hs
  case keep e q hs hp => exact hpop e q hs
  case updated r ha hs hp =>
    exact hinsert _ fun e' he' ht => absurd ht (hi.event_lt he').ne'
  case bw k t ph delay hP =>
    refine hinsert _ fun e' he' ht hp => ?_
    have hsent := (hi.event e' he').2.2.1
    rw [← ht, ← hp] at hsent
    rcases (ho _ _ hP).2 with ⟨rfl, hn, -⟩ | ⟨rfl, hn⟩
    · exact hn hsent
    · exact hn hsent
  all_goals exact hi.unique

theorem Life.step_sent (hi : Life v) (h : Move P v u) (k : ℕ) (ph : Phase)
    (hk : .pec k ph ∈ u.trace) : Sent u.trace k ph := by
  rcases h.pec hk with hk | ⟨e, hs, rfl, rfl⟩
  · exact (hi.sent k ph hk).mono h.suffix.subset
  · exact (hi.event e hs.mem).2.2.1.mono h.suffix.subset

theorem Life.step_ended (hi : Life v) (h : Move P v u) (k : ℕ) (t : Ptr) (s a : ℕ)
    (hk : .endResp k t s a ∈ u.trace) : .release k t ∈ u.trace := by
  have he := hi.ended k t s a
  cases h
  case finish t' x hd hpos =>
    simp at hk
    rcases hk with ⟨rfl, rfl, -, -⟩ | hk
    · simp
    · simp [he hk]
  case advance => exact he hk
  all_goals
    simp at hk
    simp [he hk]

theorem InHand.mono (hh : InHand v t x) (h : Move P v u) (hc : Carries u t x)
    (hs : ∀ s, u.slots.response s = some t → v.slots.response s = some t) : InHand u t x :=
  ⟨hc, h.mem_trace hh.begun, fun s hs' => hh.free s (hs s hs')⟩

include hb in
theorem Life.step_response (hi : Life v) (h : Move P v u) (s : ℕ) (t : Ptr)
    (hs : u.slots.response s = some t) :
    ∃ x, Carries u t x ∧ x.coreId = s ∧ .pec x.serial .beginResp ∈ u.trace := by
  rcases h.response hs with hs | ⟨x, hcur, rfl, -⟩
  · obtain ⟨x, hc, rfl, hp⟩ := hi.response s t hs
    refine ⟨x, hi.carries_mono hb h hc fun hr => hc.unreleased ?_, rfl, h.mem_trace hp⟩
    refine h.released_of_lt (hi.pool.serial _ _ hc.carried) (fun t' x' hd hx' _ => ?_) hr
    have hh := hi.inHand_of_done hd
    obtain rfl := hi.pool.inj _ _ _ _ hh.carries.carried hc.carried hx'
    exact hh.free _ hs
  · have hh : InHand v t x := by have := hi.cur; rw [hcur] at this; exact this
    refine ⟨x, hi.carries_mono hb h hh.carries fun hr => hh.carries.unreleased ?_, rfl,
      h.mem_trace hh.begun⟩
    refine h.released_of_lt (hi.pool.serial _ _ hh.carries.carried) (fun t' x' hd hx' _ => ?_) hr
    rcases hd with ⟨hd, -⟩ | ⟨again, hd⟩ <;> rw [hcur] at hd <;> cases hd

include hb in
/-- A move that is no step of the call itself. -/
theorem Life.step_cur_of_eq (hi : Life v) (h : Move P v u) (hcur : u.cur = v.cur)
    (hs : u.slots.response = v.slots.response)
    (hr : ∀ k < v.serial, Released u.trace k → Released v.trace k) : u.cur.Ok u := by
  have hmono : ∀ t x, InHand v t x → InHand u t x := fun t x hh =>
    hh.mono h (hi.carries_mono hb h hh.carries fun hr' => hh.carries.unreleased
      (hr _ (hi.pool.serial _ _ hh.carries.carried) hr')) fun s h' => hs ▸ h'
  have hc := hi.cur
  rw [hcur]
  cases hv : v.cur with
  | idle => trivial
  | retrying => trivial
  | popped t k =>
    rw [hv] at hc
    obtain ⟨x, hx, hh⟩ := hc
    exact ⟨x, hx, hmono _ _ hh⟩
  | entered t x => rw [hv] at hc; exact hmono _ _ hc
  | taken t x => rw [hv] at hc; exact hmono _ _ hc
  | answered t x _ _ => rw [hv] at hc; exact hmono _ _ hc

/-- The payload whose BEGIN_RESP is serviced is in no response slot. -/
theorem Life.inHand_of_serviced (hi : Life v) {e : PayloadEvent} {q : List PayloadEvent}
    (hs : Serviced P v e q) (hp : e.p = .beginResp) :
    ∃ x, x.serial = e.txn ∧ Carries v e.t x ∧ ∀ s, v.slots.response s ≠ some e.t := by
  obtain ⟨-, hbeg, -, hn⟩ := hi.event e hs.mem
  rw [hp] at hn
  obtain ⟨x, hx, hc⟩ := hi.alive _ _ hbeg hn
  refine ⟨x, hx, hc, fun s hs' => ?_⟩
  obtain ⟨x', hc', -, hp'⟩ := hi.response s _ hs'
  obtain rfl := Option.some.inj (hc.carried.symm.trans hc'.carried)
  exact hn (hx ▸ hp')

include hb in
theorem Life.step_cur (hi : Life v) (h : Move P v u) : u.cur.Ok u := by
  have hc := hi.cur
  have hpop : ∀ e q, Serviced P v e q → .pec e.txn e.p ∈ u.trace →
      u.slots.response = v.slots.response → (∀ k, Released u.trace k → Released v.trace k) →
      u.cur = (if e.p = .beginResp then .popped e.t e.txn else .idle) → u.cur.Ok u := by
    intro e q hs hm hresp hr hcur
    rw [hcur]
    split_ifs with hp
    · obtain ⟨x, hx, hcar, hfree⟩ := hi.inHand_of_serviced hs hp
      exact ⟨x, hx, hi.carries_mono hb h hcar fun hr' => hcar.unreleased (hr _ hr'),
        hx ▸ hp ▸ hm, fun s => hresp ▸ hfree s⟩
    · trivial
  cases id h
  case close e q s hs hp hc ho => exact hpop e q hs (by simp) rfl (by simp) rfl
  case retry e q s hs hp hc ho => exact hpop e q hs (by simp) rfl (by simp) rfl
  case keep e q hs hp => exact hpop e q hs (by simp) rfl (by simp) rfl
  case enter t k x hcur hx hfree hn =>
    rw [hcur] at hc
    obtain ⟨x', -, hh⟩ := hc
    obtain rfl := Option.some.inj (hx.symm.trans hh.carries.carried)
    exact ⟨⟨hx, hh.carries.unreleased⟩, hh.begun, hh.free⟩
  case makeResponse t k x hcur hx hfree hn =>
    rw [hcur] at hc
    obtain ⟨x', -, hh⟩ := hc
    obtain rfl := Option.some.inj (hx.symm.trans hh.carries.carried)
    exact ⟨⟨hx, by simpa using hh.carries.unreleased⟩, by simpa using hh.begun, hh.free⟩
  case respond t x b hcur hresp =>
    rw [hcur] at hc
    exact ⟨⟨hc.carries.carried, by simpa using hc.carries.unreleased⟩, by simpa using hc.begun,
      hc.free⟩
  case resend t x b hcur hb' =>
    rw [hcur] at hc
    exact ⟨⟨hc.carries.carried, by simpa using hc.carries.unreleased⟩, by simpa using hc.begun,
      hc.free⟩
  case block t x hcur => trivial
  case finish t x hd hpos =>
    rcases v.cur.next_cases with hn | hn <;> rw [View.finish_cur, hn] <;> trivial
  case take t x i s hcur hr hx hs =>
    obtain ⟨x', hcar, rfl, hp⟩ := hi.response i t hr
    obtain rfl := Option.some.inj (hx.symm.trans hcar.carried)
    obtain rfl : s = x.coreId := hs.elim id id
    refine ⟨⟨hx, hcar.unreleased⟩, hp, fun s' hs' => ?_⟩
    by_cases hne : s' = x.coreId
    · simp [hne] at hs'
    · simp [hne] at hs'
      obtain ⟨x', hcar', rfl, -⟩ := hi.response s' t hs'
      obtain rfl := Option.some.inj (hx.symm.trans hcar'.carried)
      exact hne rfl
  case completed r ha hs =>
    refine hi.step_cur_of_eq hb h rfl rfl fun k hk hr => ?_
    simp only [View.trace_dropRef, View.trace_emit, View.trace_begin, released_cons,
      Obs.release.injEq, reduceCtorEq, exists_const, false_or] at hr
    rcases hr with ⟨t, rfl, -⟩ | hr
    · exact absurd hk (Nat.lt_irrefl _)
    · exact hr
  case respRetry => trivial
  case retried => trivial
  case advance => exact hi.step_cur_of_eq hb h rfl rfl fun _ _ hr => hr
  all_goals exact hi.step_cur_of_eq hb h rfl rfl (by simp)

theorem Life.of_initial (h : v.Initial) : Life v := by
  have htr : v.trace = [] := by simp [View.trace, h.log]
  refine ⟨⟨?_, ?_, ?_, ?_, ?_, ?_⟩, ?_, ?_, ?_, ?_, ?_, ?_, ?_, ?_, ?_, ?_, ?_⟩
  all_goals simp [htr, h.pool, h.refs, h.carried, h.events, h.response, h.cur, begun_nil, Cur.Ok]

include hb ho in
/-- Every move preserves `Life`. -/
theorem Life.step (hi : Life v) (h : Move P v u) : Life u where
  pool := hi.step_pool hb h
  known := hi.step_known hb ho h
  balanced := hi.step_balanced hb h
  refs := hi.step_refs hb h
  born := hi.step_born h
  alive := hi.step_alive hb h
  event := hi.step_event ho h
  unique := hi.step_unique ho h
  sent := hi.step_sent h
  ended := hi.step_ended h
  response := hi.step_response hb h
  cur := hi.step_cur hb h

end Gem5Wrapper
