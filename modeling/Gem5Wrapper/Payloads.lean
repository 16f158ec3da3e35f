import Gem5Wrapper.Callbacks

/-!
# Two payloads for each socket

The pool of payloads never grows beyond two for each socket, however long a closed system runs, and
none is lost: a payload that is not in the pool is that of a transaction which the port has not
released.

When the port releases a transaction its router has given its reference back: it acquires a payload
once, when it takes the request, and releases it with its answer. So the release of the port is the
last one, and brings the payload back to the pool.
-/

namespace Gem5Wrapper

open FaultMachine OneAtATime
open Function (update)
open TxnRouter (eventsOf)

/-! ## The references of a router -/

namespace TxnRouter

variable {α : Type} {r r' : TxnRouter α} {x : α} {l : List (Obs α)} {w : Option α} {st : Stage α}

/-- The transactions whose payload the router has acquired, newest first. -/
def acquired (l : List (Obs α)) : List α := l.filterMap fun
  | .acquire x => some x
  | _ => none

theorem mem_acquired : x ∈ acquired l ↔ .acquire x ∈ l := by
  unfold acquired
  rw [List.mem_filterMap]
  refine ⟨fun h => ?_, fun h => ⟨_, h, rfl⟩⟩
  obtain ⟨o, ho, hx⟩ := h
  cases o <;> cases hx
  exact ho

theorem acquired_append {l' : List (Obs α)} : acquired (l' ++ l) = acquired l' ++ acquired l :=
  List.filterMap_append

/-- The router gives its reference back with its answer. -/
def Gives (r : TxnRouter α) : Prop := ∀ x ∈ answers r.events, .release x ∈ r.trace

theorem countP_ofQueue (l : List (Obs α)) :
    l.countP Obs.ofQueue = (acquired l).length + (closes (eventsOf l)).length := by
  induction l with
  | nil => rfl
  | cons o l ih =>
    have hcl : closes (eventsOf (o :: l)) = closes (eventsOf [o]) ++ closes (eventsOf l) := by
      cases o <;> rfl
    have hacq : acquired (o :: l) = acquired [o] ++ acquired l := by cases o <;> rfl
    have hone : (acquired [o]).length + (closes (eventsOf [o])).length =
        if o.ofQueue then 1 else 0 := by cases o <;> rfl
    rw [List.countP_cons, ih, hcl, hacq, List.length_append, List.length_append, ← hone]
    omega

/-- The queue holds requests and acknowledgements. -/
theorem InProtocol.length_mPeq (h : InProtocol w st r) :
    r.mPeq.length = (r.queued .beginReq).length + (r.queued .endResp).length := by
  have hph := h.front.phases
  unfold queued PeqEvent.queued
  rw [List.length_map, List.length_map]
  generalize r.mPeq = q at hph
  induction q with
  | nil => rfl
  | cons e q ih =>
    have hq := ih fun e he => hph e (List.mem_cons_of_mem _ he)
    obtain hp | hp := hph e List.mem_cons_self <;> simp [hp] <;> omega

/-- Each payload is acquired once. -/
theorem Settled.nodup_acquired (h : Settled r) (hp : r.Paid) :
    (acquired r.trace).Nodup ∧ ∀ x ∈ acquired r.trace, x ∈ requests r.events := by
  obtain ⟨w, st, hi⟩ := h.protocol
  obtain ⟨hreq, hgr, -, -, -, hnd⟩ := hi.front.serves.ordered
  have hacks := hi.front.serves.acks_eq h.not_refused
  have hqueued := hi.front.requests
  have hends : r.queued .endResp = st.acked? := by
    rw [hi.front.ends]
    cases st with
    | answered x owed => cases owed <;> rfl
    | _ => rfl
  have hreq' : requests r.events =
      r.queued .beginReq ++ (r.endReqPending.toList ++ grants r.events) := by
    rw [hreq, hgr, ← hqueued, List.append_assoc, List.append_assoc]
  have hsub : r.endReqPending.toList ++ grants r.events ⊆ acquired r.trace := by
    intro x hx
    obtain hx | hx := List.mem_append.1 hx
    · exact mem_acquired.2 (h.pending x (Option.mem_toList.1 hx))
    · exact mem_acquired.2 (h.acquire_of_grants hx)
  have hnd' : (r.endReqPending.toList ++ grants r.events).Nodup :=
    (List.nodup_append.1 (hreq' ▸ hnd)).2.1
  -- as many are acquired as are pending or granted
  have hlen : (acquired r.trace).length ≤
      (r.endReqPending.toList ++ grants r.events).length := by
    have hcount := countP_ofQueue r.trace
    have hmPeq := hi.length_mPeq
    have hpaid : r.trace.countP Obs.ofQueue + r.mPeq.length =
      (requests r.events).length + (acks r.events).length := hp
    simp only [hreq', hacks, List.length_append] at hpaid ⊢
    rw [hends] at hmPeq
    have hcount : r.trace.countP Obs.ofQueue =
      (acquired r.trace).length + (closes r.events).length := hcount
    omega
  have hperm := (hnd'.subperm hsub).perm_of_length_le hlen
  refine ⟨hperm.nodup_iff.1 hnd', fun x hx => ?_⟩
  rw [hreq']
  exact List.mem_append_right _ (hperm.mem_iff.2 hx)

theorem Gives.of_reacts (hi : r.Gives) (h : r.Reacts r') : r'.Gives := by
  have hold : ∀ x ∈ answers r.events, .release x ∈ r'.trace :=
    fun x hx => h.suffix.subset (hi x hx)
  unfold Gives TxnRouter.events at *
  cases h with
  | take y _ ht => exact fun x hx => hold x (by rw [ht] at hx; exact hx)
  | grant y _ ht => exact fun x hx => hold x (by rw [ht] at hx; exact hx)
  | close y ht => exact fun x hx => hold x (by rw [ht] at hx; exact hx)
  | closeGrant y z _ ht => exact fun x hx => hold x (by rw [ht] at hx; exact hx)
  | start y ht => exact fun x hx => hold x (by rw [ht] at hx; exact hx)
  | answer y status status' ht =>
    intro x hx
    rw [ht] at hx
    obtain rfl | hx := List.mem_cons.1 hx
    · rw [ht]
      exact List.mem_cons_self
    · exact hold x hx

end TxnRouter

namespace ClosedSystem

variable {c : Wiring} {y y' : ClosedSystem} {s k now : ℕ} {l l' : List Obs} {v u : View}
  {R R' : ℕ → TxnRouter Transaction} {x : Transaction} {q : SCSlavePort}

/-- What the history of a port says of the references of its routers. -/
structure Balanced (l : List Obs) (R : ℕ → TxnRouter Transaction) : Prop where
  acquired : ∀ k, .targetAcquire k ∈ l → ∃ s x, x.serial = k ∧ .acquire x ∈ (R s).trace
  once : ∀ k, l.count (.targetAcquire k) ≤ 1
  released : ∀ s x, .release x ∈ (R s).trace → .targetRelease x.serial ∈ l
  gives : ∀ s, (R s).Gives
  paid : ∀ s, (R s).Paid

/-- What the port calls is no matter of references. -/
theorem quiet_called (s : ℕ) (l : List Obs) : answers (eventsOf (called s l)) = [] ∧
    ∀ x, .release x ∉ called s l := by
  have hcalled : ∀ o ∈ called s l, (∃ x, o = .beginReq x) ∨ ∃ x, o = .endResp x := by
    intro o ho
    obtain ⟨o', -, ho'⟩ := List.mem_filterMap.1 ho
    cases o' <;> simp only [calledAt, reduceCtorEq] at ho' <;> split_ifs at ho' <;> cases ho'
    · exact .inl ⟨_, rfl⟩
    · exact .inr ⟨_, rfl⟩
  refine ⟨List.filterMap_eq_nil_iff.2 fun e he => ?_, fun x hx => ?_⟩
  · obtain ⟨o, ho, he⟩ := List.mem_filterMap.1 he
    obtain ⟨x, rfl⟩ | ⟨x, rfl⟩ := hcalled o ho <;> cases he <;> rfl
  · obtain ⟨y, h⟩ | ⟨y, h⟩ := hcalled _ hx <;> cases h

/-- The port calls its routers. -/
theorem Balanced.called (h : Balanced l R) (hl : ∀ k, l'.count (.targetAcquire k) = 0)
    (hf : forwards now R l' = .ok R') : Balanced (l' ++ l) R' := by
  have hc := forwards_called hf
  refine ⟨fun k hk => ?_, fun k => ?_, fun s x hx => ?_, fun s x hx => ?_,
    fun s => paid_of_called (h.paid s) hf⟩
  · obtain hk | hk := List.mem_append.1 hk
    · exact absurd hk (List.count_eq_zero.1 (hl k))
    · obtain ⟨s, x, hx, ha⟩ := h.acquired k hk
      exact ⟨s, x, hx, (hc s).trace ▸ List.mem_append_right _ ha⟩
  · rw [List.count_append, hl k, Nat.zero_add]
    exact h.once k
  · rw [(hc s).trace] at hx
    obtain hx | hx := List.mem_append.1 hx
    · exact absurd hx ((quiet_called s l').2 x)
    · exact List.mem_append_right _ (h.released s x hx)
  · have hev : answers (R' s).events = answers (R s).events := by
      rw [(hc s).events_eq, answers, List.filterMap_append]
      exact congrArg (· ++ _) (quiet_called s l').1
    rw [(hc s).trace]
    exact List.mem_append_right _ (h.gives s x (hev ▸ hx))

theorem count_shown (k : ℕ) (t : List (TxnRouter.Obs Transaction)) :
    (shown now t).count (.targetAcquire k) =
      (TxnRouter.acquired t).countP fun x => x.serial = k := by
  induction t with
  | nil => rfl
  | cons o t ih =>
    have hs : shown now (o :: t) = shown now [o] ++ shown now t :=
      List.filterMap_append (l := [o])
    have ha : TxnRouter.acquired (o :: t) = TxnRouter.acquired [o] ++ TxnRouter.acquired t :=
      List.filterMap_append (l := [o])
    have hone : (shown now [o]).count (.targetAcquire k) =
        (TxnRouter.acquired [o]).countP fun x => x.serial = k := by
      cases o with
      | acquire x => simp [shown, shownAt, TxnRouter.acquired, List.count_cons, List.countP_cons]
      | _ => rfl
    rw [hs, ha, List.count_append, List.countP_append, ih, hone]

/-- A callback acquires one payload at most. -/
theorem length_acquired_of_reacts {r r' : TxnRouter Transaction}
    {t : List (TxnRouter.Obs Transaction)} (h : r.Reacts r') (ht : r'.trace = t ++ r.trace) :
    (TxnRouter.acquired t).length ≤ 1 := by
  have hlen : (TxnRouter.acquired r'.trace).length ≤ (TxnRouter.acquired r.trace).length + 1 := by
    cases h with
    | take x _ h => rw [h]; exact le_rfl
    | grant x _ h => rw [h]; exact le_rfl
    | close x h => rw [h]; exact Nat.le_succ _
    | closeGrant x z _ h => rw [h]; exact Nat.le_succ _
    | start x h => rw [h]; exact Nat.le_succ _
    | answer x _ _ h => rw [h]; exact Nat.le_succ _
  rw [ht, TxnRouter.acquired_append, List.length_append] at hlen
  omega

/-- A callback of router `s` is shown to the port. -/
theorem Balanced.reacts (h : Balanced l R) {r₀ r : TxnRouter Transaction}
    {t : List (TxnRouter.Obs Transaction)} (hlinked : ∀ s, Linked l s (R s).trace)
    (hone : OneBeginReq l)
    (hacq : ∀ s, ∀ x ∈ TxnRouter.acquired (R s).trace, x ∈ requests (R s).events)
    (hnodup : (TxnRouter.acquired r.trace).Nodup)
    (hmem : ∀ x ∈ TxnRouter.acquired r.trace, x ∈ requests (R s).events)
    (hr : r₀.Reacts r) (hr₀ : r₀.trace = (R s).trace) (ht : r.trace = t ++ (R s).trace)
    (hp : r.Paid) : Balanced (shown now t ++ l) (update R s r) := by
  have happ : TxnRouter.acquired r.trace =
      TxnRouter.acquired t ++ TxnRouter.acquired (R s).trace := by
    rw [ht, TxnRouter.acquired_append]
  -- what was acquired by any router before
  have hold : ∀ s' x, .acquire x ∈ (R s').trace → .acquire x ∈ (update R s r s').trace := by
    intro s' x hx
    by_cases hs : s' = s
    · subst hs
      rw [Function.update_self, ht]
      exact List.mem_append_right _ hx
    · rwa [Function.update_of_ne hs]
  refine ⟨fun k hk => ?_, fun k => ?_, ?_, ?_, ?_⟩
  · rw [← List.count_pos_iff, List.count_append, count_shown] at hk
    by_cases hl : .targetAcquire k ∈ l
    · obtain ⟨s', x, hx, ha⟩ := h.acquired k hl
      exact ⟨s', x, hx, hold s' x ha⟩
    · rw [List.count_eq_zero.2 hl, Nat.add_zero, List.countP_pos_iff] at hk
      obtain ⟨x, hx, hk⟩ := hk
      refine ⟨s, x, of_decide_eq_true hk, ?_⟩
      rw [Function.update_self, ht]
      exact List.mem_append_left _ (TxnRouter.mem_acquired.1 hx)
  · rw [List.count_append, count_shown]
    have hle : (TxnRouter.acquired t).countP (fun x => x.serial = k) ≤ 1 :=
      List.countP_le_length.trans (length_acquired_of_reacts hr (hr₀ ▸ ht))
    by_cases hl : .targetAcquire k ∈ l
    · obtain ⟨s', x', hx', ha'⟩ := h.acquired k hl
      have hzero : (TxnRouter.acquired t).countP (fun x => x.serial = k) = 0 := by
        refine List.countP_eq_zero.2 fun x hx hk => ?_
        have hk : x.serial = k := of_decide_eq_true hk
        have hxr : x ∈ requests (R s).events := hmem x (happ ▸ List.mem_append_left _ hx)
        have hxr' : x' ∈ requests (R s').events := hacq s' x' (TxnRouter.mem_acquired.2 ha')
        obtain ⟨rfl, rfl⟩ := (hlinked s).eq_of_serial (hlinked s') hone hxr hxr' (hx'.trans hk.symm)
        exact (List.disjoint_of_nodup_append (happ ▸ hnodup)) hx (TxnRouter.mem_acquired.2 ha')
      rw [hzero, Nat.zero_add]
      exact h.once k
    · rw [List.count_eq_zero.2 hl]
      exact hle
  · rw [Function.forall_update_iff R fun _ r => ∀ x, .release x ∈ r.trace →
      .targetRelease x.serial ∈ shown now t ++ l]
    refine ⟨fun x hx => ?_, fun s' _ x hx => List.mem_append_right _ (h.released s' x hx)⟩
    rw [ht] at hx
    obtain hx | hx := List.mem_append.1 hx
    · exact List.mem_append_left _ (List.mem_filterMap.2 ⟨_, hx, rfl⟩)
    · exact List.mem_append_right _ (h.released s x hx)
  · rw [Function.forall_update_iff R fun _ r => r.Gives]
    refine ⟨TxnRouter.Gives.of_reacts (r := r₀) ?_ hr, fun s' _ => h.gives s'⟩
    unfold TxnRouter.Gives TxnRouter.events
    rw [hr₀]
    exact h.gives s
  · rw [Function.forall_update_iff R fun _ r => r.Paid]
    exact ⟨hp, fun s' _ => h.paid s'⟩

/-! ## Payloads in use -/

/-- A payload is in the pool, or carries a transaction that the port has not released. -/
def Housed (v : View) : Prop :=
  ∀ t < v.pool.numberOfAllocations, t ∈ v.pool.freePayloads ∨ ∃ x, Carries v t x

theorem Housed.congr (hi : Housed v) (hp : u.pool = v.pool) (hc : u.carried = v.carried)
    (hr : ∀ k, Released u.trace k → Released v.trace k) : Housed u := by
  intro t ht
  rw [hp] at ht ⊢
  refine (hi t ht).imp id fun h => ?_
  obtain ⟨x, hx, hn⟩ := h
  exact ⟨x, hc ▸ hx, fun h => hn (hr _ h)⟩

/-- A new transaction takes a payload. -/
theorem Housed.begin (hi : Housed v) (hl : Life v) (r : Request) : Housed (v.begin r) := by
  have hnew : ∀ k, Released (v.begin r).trace k → Released v.trace k := by
    intro k hk
    obtain ⟨t, ht⟩ := hk
    exact ⟨t, by simpa using ht⟩
  intro t ht
  by_cases hne : t = v.next
  · refine .inr ⟨⟨r.packet, v.target r.content, v.serial⟩, ?_, fun h => ?_⟩
    · rw [View.begin_carried, hne, Function.update_self]
    · obtain ⟨t', ht'⟩ := hnew _ h
      exact absurd (hl.known _ ht' _ rfl) (Nat.lt_irrefl _)
  have hold : t < v.pool.numberOfAllocations ∧
      (t ∈ v.pool.freePayloads → t ∈ (v.begin r).pool.freePayloads) := by
    rw [View.begin_pool] at ht ⊢
    unfold View.next at hne
    unfold MemoryManager.allocate at ht hne ⊢
    split at ht
    · rename_i hf
      rw [hf] at hne ⊢
      exact ⟨Nat.lt_of_le_of_ne (Nat.le_of_lt_succ ht) hne, id⟩
    · rename_i t' rest hf
      rw [hf] at hne ⊢
      exact ⟨ht, fun hm => (List.mem_cons.1 hm).resolve_left hne⟩
  refine (hi t hold.1).imp hold.2 fun h => ?_
  obtain ⟨x, hx, hn⟩ := h
  refine ⟨x, ?_, fun h => hn (hnew _ h)⟩
  rw [View.begin_carried, Function.update_of_ne hne]
  exact hx

theorem View.numberOfAllocations_dropRef (v : View) (p : Ptr) :
    (v.dropRef p).pool.numberOfAllocations = v.pool.numberOfAllocations := by
  rw [View.dropRef_pool]
  split_ifs <;> rfl

/-- A payload goes back to the pool with its last reference. -/
theorem Housed.dropRef (hi : Housed v) (p : Ptr) : Housed (v.dropRef p) := by
  intro t ht
  rw [View.numberOfAllocations_dropRef] at ht
  by_cases hfree : t = p ∧ v.refs p = 1
  · refine .inl ?_
    rw [View.dropRef_pool, if_pos hfree.2, hfree.1]
    exact List.mem_cons_self
  · refine (hi t ht).imp (fun hm => ?_) fun hc => ?_
    · rw [View.dropRef_pool]
      split_ifs
      · exact List.mem_cons_of_mem _ hm
      · exact hm
    · obtain ⟨x, hx, hn⟩ := hc
      exact ⟨x, (View.carried_dropRef fun he h1 => hfree ⟨he, h1⟩).trans hx, hn⟩

/-- No target holds a payload that the port is about to release. -/
theorem held_of_inHand (hj : Joint c v R) (hb : Balanced v.trace R) {t : Ptr} {z : Gem5Extension}
    (hh : InHand v t z) : held v.trace z.serial = 0 := by
  obtain ⟨d, r, hbegin⟩ := hj.port.life.born t z hh.carries.carried
  have hx : (⟨z.serial, t⟩ : Transaction) ∈ requests (R z.coreId).events :=
    ((hj.linked z.coreId).begun _).2 ⟨_, d, r, hbegin⟩
  have hans := hj.answered hx (hj.port.life.sent _ _ hh.begun)
  have hpos := List.count_pos_iff.2 (hb.released _ _ (hb.gives _ _ hans))
  have hone := hb.once z.serial
  have hpos : 0 < v.trace.count (.targetRelease z.serial) := hpos
  unfold held
  omega

/-- The port gives the last reference back. -/
theorem Housed.finish (hi : Housed v) (hj : Joint c v R) (hb : Balanced v.trace R) {t : Ptr}
    {z : Gem5Extension} (hd : Done v t z) : Housed (v.finish t z) := by
  have hh := hj.port.life.inHand_of_done hd
  have hrefs : v.refs t = 1 := by
    rw [(hj.port.life.refs t z hh.carries.carried).unreleased hh.carries.unreleased,
      held_of_inHand hj hb hh]
  have hpool : (v.finish t z).pool = v.pool.free t := by
    rw [View.finish_pool]
    exact if_pos hrefs
  have hcar : (v.finish t z).carried = update v.carried t none := by
    rw [View.finish_carried]
    exact if_pos hrefs
  intro t' ht'
  rw [hpool] at ht' ⊢
  by_cases hne : t' = t
  · exact .inl (hne ▸ List.mem_cons_self)
  refine (hi t' ht').imp (List.mem_cons_of_mem _) fun h => ?_
  obtain ⟨x, hx, hn⟩ := h
  refine ⟨x, ?_, fun hr => hn ?_⟩
  · rw [hcar, Function.update_of_ne hne]
    exact hx
  · obtain ⟨t'', hr⟩ := hr
    obtain hr | hr := List.mem_cons.1 hr
    · exact absurd (hj.port.life.pool.inj _ _ _ _ hx hh.carries.carried (Obs.release.inj hr).1) hne
    · exact ⟨t'', (List.mem_cons.1 hr).resolve_left Obs.noConfusion⟩

theorem Admitted.accepted {r : Request} (h : Admitted (FromGem5 c) v r) :
    r.reply.status = .accepted := by
  obtain ⟨v', a, hP, hr⟩ := h.makes
  exact (hP.1.requests r hr).status

/-- Every move of the port keeps the payloads housed. -/
theorem Housed.move (hi : Housed v) (hj : Joint c v R) (hb : Balanced v.trace R)
    (h : Move (FromGem5 c) v u) : Housed u := by
  have hnone : ∀ {l : List Obs}, (∀ o ∈ l, ∀ k t, o ≠ .release k t) → ∀ k,
      Released (l ++ v.trace) k → Released v.trace k := by
    intro l hl k hk
    obtain ⟨t, ht⟩ := hk
    obtain ht | ht := List.mem_append.1 ht
    · exact absurd rfl (hl _ ht k t)
    · exact ⟨t, ht⟩
  cases h with
  | accepted ha hs => exact (hi.begin hj.port.life _).congr rfl rfl fun _ => id
  | updated ha hs => cases hs.symm.trans (Admitted.accepted ha)
  | completed ha hs => cases hs.symm.trans (Admitted.accepted ha)
  | finish hd hpos => exact hi.finish hj hb hd
  | bw hP => exact hP.2.elim
  | targetAcquire hP => exact hP.2.elim
  | targetRelease hP => exact hP.2.elim
  | close | keep | refuse | makeResponse | respond | resend | respRetry =>
    exact hi.congr rfl rfl (hnone (l := [_]) (by simp))
  | retry => exact hi.congr rfl rfl (hnone (l := [_, _]) (by simp))
  | enter | block | take | retried | downstream | advance => exact hi.congr rfl rfl fun _ => id

/-- When the pool is empty, two payloads of each socket are in use at most. -/
theorem Housed.numberOfAllocations_le (hi : Housed v) (hj : Joint c v R)
    (hf : v.pool.freePayloads = []) : v.pool.numberOfAllocations ≤ 2 * c.sockets := by
  classical
  -- the requests of a socket that the port has not ended
  let opened : ℕ → Finset Ptr := fun s =>
    (((requests (R s).events).filter fun x => x ∉ closes (R s).events).map
      Transaction.payload).toFinset
  have hcard : ∀ s, (opened s).card ≤ 2 := by
    intro s
    obtain ⟨w, st, hp⟩ := (hj.settled s).protocol
    obtain ⟨hreq, -, -, -, -, -⟩ := hp.front.serves.ordered
    have hlen : ((requests (R s).events).filter fun x => x ∉ closes (R s).events).length ≤
        (w.toList ++ st.granted?).length := by
      have hnone : (closes (R s).events).filter (fun x => x ∉ closes (R s).events) = [] :=
        List.filter_eq_nil_iff.2 fun x hx hn => of_decide_eq_true hn hx
      rw [hreq, List.filter_append, hnone, List.append_nil]
      exact List.length_filter_le ..
    have hw : w.toList.length ≤ 1 := by cases w <;> simp
    have hst : st.granted?.length ≤ 1 := by cases st <;> simp [Stage.granted?]
    rw [List.length_append] at hlen
    refine (List.toFinset_card_le _).trans ?_
    rw [List.length_map]
    omega
  have hsub : Finset.range v.pool.numberOfAllocations ⊆
      (Finset.range c.sockets).biUnion opened := by
    intro t ht
    obtain hm | ⟨x, hx, hn⟩ := hi t (Finset.mem_range.1 ht)
    · rw [hf] at hm
      cases hm
    obtain ⟨d, r, hb⟩ := hj.port.life.born t x hx
    have hlt := (hj.port.addressed _ _ _ _ _ _ hb).1
    have hreq : (⟨x.serial, t⟩ : Transaction) ∈ requests (R x.coreId).events :=
      ((hj.linked x.coreId).begun _).2 ⟨_, d, r, hb⟩
    refine Finset.mem_biUnion.2 ⟨x.coreId, Finset.mem_range.2 hlt, List.mem_toFinset.2
      (List.mem_map.2 ⟨_, List.mem_filter.2 ⟨hreq, decide_eq_true fun hcl => hn ?_⟩, rfl⟩)⟩
    obtain ⟨w, st, hp⟩ := (hj.settled x.coreId).protocol
    have hack : (⟨x.serial, t⟩ : Transaction) ∈ acks (R x.coreId).events := by
      rw [hp.front.serves.acks_eq (hj.settled x.coreId).not_refused]
      exact List.mem_append_right _ hcl
    obtain ⟨a, he⟩ := (hj.linked x.coreId).ended _ hack
    exact ⟨_, hj.port.life.ended _ _ _ _ he⟩
  calc v.pool.numberOfAllocations = (Finset.range v.pool.numberOfAllocations).card :=
        (Finset.card_range _).symm
    _ ≤ ((Finset.range c.sockets).biUnion opened).card := Finset.card_le_card hsub
    _ ≤ (Finset.range c.sockets).card * 2 :=
        Finset.card_biUnion_le_card_mul _ _ _ fun s _ => hcard s
    _ = 2 * c.sockets := by rw [Finset.card_range, Nat.mul_comm]

/-! ## Steps -/

theorem Move.count_targetAcquire (h : Move (FromGem5 c) v u) (k : ℕ) :
    u.trace.count (.targetAcquire k) = v.trace.count (.targetAcquire k) := by
  cases h with
  | targetAcquire hP => exact hP.2.elim
  | advance => rfl
  | _ => simp

/-- A move that makes a payload leaves the pool empty. -/
theorem Move.numberOfAllocations_le (h : Move (FromGem5 c) v u) :
    u.pool.freePayloads = [] ∨ u.pool.numberOfAllocations ≤ v.pool.numberOfAllocations := by
  cases h with
  | @accepted r ha hs =>
    show (v.begin r).pool.freePayloads = [] ∨ (v.begin r).pool.numberOfAllocations ≤ _
    rw [View.begin_pool]
    unfold MemoryManager.allocate
    split
    · rename_i hf
      exact .inl hf
    · exact .inr le_rfl
  | updated ha hs => cases hs.symm.trans (Admitted.accepted ha)
  | completed ha hs => cases hs.symm.trans (Admitted.accepted ha)
  | finish => exact .inr (View.numberOfAllocations_dropRef _ _).le
  | targetRelease => exact .inr (View.numberOfAllocations_dropRef _ _).le
  | _ => exact .inr le_rfl

/-- What is known of the payloads and of the references to them. -/
structure Accounted (v : View) (R : ℕ → TxnRouter Transaction) : Prop where
  balanced : Balanced v.trace R
  housed : Housed v
  bounded : v.pool.numberOfAllocations ≤ 2 * v.sockets

/-- A move of the port, with what it calls. -/
theorem Accounted.move (hi : Accounted v R) (hj : Joint c v R) (now : ℕ)
    (h : Move (FromGem5 c) v u) : ∃ l R', u.trace = l ++ v.trace ∧ forwards now R l = .ok R' ∧
      Joint c u R' ∧ Accounted u R' := by
  obtain ⟨l, R', ht, hf, hj'⟩ := hj.move now h
  have hl : ∀ k, l.count (.targetAcquire k) = 0 := by
    intro k
    have hcount := Move.count_targetAcquire h k
    rw [ht, List.count_append] at hcount
    omega
  have hhoused := hi.housed.move hj hi.balanced h
  refine ⟨l, R', ht, hf, hj', ht ▸ hi.balanced.called hl hf, hhoused, ?_⟩
  obtain he | hle := Move.numberOfAllocations_le h
  · exact hj'.port.sockets ▸ hhoused.numberOfAllocations_le hj' he
  · exact hle.trans (h.static.2.2.1 ▸ hi.bounded)

theorem Accounted.moves (hi : Accounted v R) (hj : Joint c v R) (now : ℕ)
    (h : Moves (FromGem5 c) v u) : ∃ l R', u.trace = l ++ v.trace ∧ forwards now R l = .ok R' ∧
      Joint c u R' ∧ Accounted u R' := by
  induction h with
  | refl => exact ⟨[], R, rfl, rfl, hj, hi⟩
  | tail _ hm ih =>
    obtain ⟨l, R₁, ht, hf, hj₁, hi₁⟩ := ih
    obtain ⟨l', R₂, ht', hf', hj₂, hi₂⟩ := hi₁.move hj₁ now hm
    refine ⟨l' ++ l, R₂, ?_, ?_, hj₂, hi₂⟩
    · rw [ht', ht, List.append_assoc]
    · rw [forwards_append, hf]
      exact hf'

/-- A router acquires or releases a payload, or sends a phase. -/
theorem housed_of_backward {w w' : World} {o : TxnRouter.Obs Transaction} (hw : w.Ok)
    (h : backward w o = .ok w') (hi : Housed w.view) :
    w'.Ok ∧ Housed w'.view ∧ w'.mm.numberOfAllocations = w.mm.numberOfAllocations := by
  have hemit : ∀ o : Obs, (∀ k t, o ≠ .release k t) → Housed (w.view.emit o) := fun o ho =>
    hi.congr rfl rfl fun k hk =>
      (released_cons.1 hk).resolve_left fun he => he.elim fun t he => ho k t he
  cases o with
  | acquire x =>
    obtain ⟨hok, hview, -, -⟩ :=
      (World.acquire_ends (c := .idle) (hw.emit (.targetAcquire x.serial))).of_eq_ok h
    have hview : w'.view = (w.view.emit (.targetAcquire x.serial)).addRef x.payload := hview
    exact ⟨hok, hview ▸ (hemit (.targetAcquire x.serial) (by simp)).congr rfl rfl fun _ => id,
      congrArg (·.pool.numberOfAllocations) hview⟩
  | release x =>
    obtain ⟨hok, hview, -, -⟩ :=
      (World.release_ends (c := .idle) (hw.emit (.targetRelease x.serial))).of_eq_ok h
    have hview : w'.view = (w.view.emit (.targetRelease x.serial)).dropRef x.payload := hview
    exact ⟨hok, hview ▸ (hemit (.targetRelease x.serial) (by simp)).dropRef x.payload,
      (congrArg (·.pool.numberOfAllocations) hview).trans
        (View.numberOfAllocations_dropRef _ _)⟩
  | endReq x =>
    cases h
    exact ⟨(hw.emit _).notify _ _ _ _,
      (hemit _ fun _ _ => Obs.noConfusion).congr rfl rfl fun _ => id, rfl⟩
  | beginResp x status reply =>
    cases h
    exact ⟨(hw.emit _).notify _ _ _ _,
      (hemit _ fun _ _ => Obs.noConfusion).congr rfl rfl fun _ => id, rfl⟩
  | _ =>
    cases h
    exact ⟨hw, hi, rfl⟩

theorem housed_of_backwards {w w' : World} {t : List (TxnRouter.Obs Transaction)} (hw : w.Ok)
    (h : backwards w t = .ok w') (hi : Housed w.view) :
    w'.Ok ∧ Housed w'.view ∧ w'.mm.numberOfAllocations = w.mm.numberOfAllocations := by
  induction t generalizing w' with
  | nil =>
    cases h
    exact ⟨hw, hi, rfl⟩
  | cons o t ih =>
    obtain ⟨w₁, h₁, h₂⟩ := bind_eq_ok.1 h
    obtain ⟨hok, hh, hn⟩ := ih h₁
    obtain ⟨hok', hh', hn'⟩ := housed_of_backward hok h₂ hh
    exact ⟨hok', hh', hn'.trans hn⟩

theorem Accounted.step (hok : Ok c y) (hok' : Ok c y') (hi : Accounted y.port.view y.routers)
    (h : Steps c y y') : Accounted y'.port.view y'.routers := by
  cases h with
  | port a l _ _ hm ht hf =>
    obtain ⟨l', R', ht', hf', -, hi'⟩ := hi.moves hok.joint y.port.now hm
    rw [World.trace_view, World.trace_view, ht] at ht'
    obtain rfl := List.append_cancel_right ht'
    obtain rfl := Except.ok.inj (hf.symm.trans hf')
    exact hi'
  | router s a l r ha hr hreact ht hb hR =>
    have hshown := backwards_shown hb
    obtain ⟨-, hhoused, hnum⟩ := housed_of_backwards hok.port hb hi.housed
    have hsettled : r.Settled :=
      ((hok.joint.settled s).at y.port.now (y.routers s).payloads).step ha hr
    have hpaid : r.Paid := by
      obtain ⟨hreq, hack⟩ := requests_of_reacts hreact
      have hstep := (TxnRouter.step_ofQueue ha hr).2
      unfold TxnRouter.Paid
      rw [hstep, hreq, hack]
      exact hi.balanced.paid s
    obtain ⟨hnd, hmem⟩ := hsettled.nodup_acquired hpaid
    refine ⟨?_, hhoused, ?_⟩
    · rw [World.trace_view, hshown.trace, hR]
      refine Balanced.reacts (World.trace_view y.port ▸ hi.balanced) (fun s => ?_) ?_
        (fun s => ((hok.joint.settled s).nodup_acquired (hi.balanced.paid s)).2) hnd ?_ hreact rfl
        ht hpaid
      · exact World.trace_view y.port ▸ hok.joint.linked s
      · exact World.trace_view y.port ▸ hok.joint.port.one
      · intro x hx
        have hreq : requests r.events = requests (y.routers s).events :=
          (requests_of_reacts hreact).1
        exact hreq ▸ hmem x hx
    · have hsockets : y'.port.view.sockets = y.port.view.sockets :=
        hok'.joint.port.sockets.trans hok.joint.port.sockets.symm
      rw [hsockets]
      exact (show y'.port.view.pool.numberOfAllocations = _ from hnum).trans_le hi.bounded

/-! ## Runs -/

/-- The pool of payloads is small, and loses nothing. -/
structure Pooled (y : ClosedSystem) : Prop where
  bounded : y.port.mm.numberOfAllocations ≤ 2 * y.port.sockets
  inUse : ∀ t < y.port.mm.numberOfAllocations, t ∉ y.port.mm.freePayloads →
    ∃ k s a d r, .beginReq k t s a d r ∈ y.port.trace ∧ ¬ Released y.port.trace k

theorem accounted_of_run (hq : q.Bound) (hcache : q.usingGem5Cache = false)
    (hknown : (World.start q).sockets ≤ q.helper.socketNum) (hR : New R)
    (h : Run step Obeyed (start q R) y) : Accounted y.port.view y.routers := by
  refine invariant_of_run (I := fun y => Accounted y.port.view y.routers) hq hcache hknown hR h
    ⟨⟨fun k hk => ?_, fun k => Nat.zero_le _, fun s x hx => ?_, fun s x hx => ?_,
      (counted_start (q := q) hR).routers⟩, fun t ht => ?_, Nat.zero_le _⟩
    fun _ _ _ hok hok' hi hs => hi.step hok hok' hs
  · cases hk
  · obtain ⟨_, _, _, _, hs⟩ := hR s
    have hx : .release x ∈ (R s).trace := hx
    rw [hs] at hx
    cases hx
  · obtain ⟨_, _, _, _, hs⟩ := hR s
    have hx : x ∈ answers (R s).events := hx
    rw [hs] at hx
    cases hx
  · exact absurd ht (Nat.not_lt_zero _)

/-- **Two payloads for each socket** are all that a run ever allocates. -/
theorem pooled_of_run (hq : q.Bound) (hcache : q.usingGem5Cache = false)
    (hknown : (World.start q).sockets ≤ q.helper.socketNum) (hR : New R)
    (h : Run step Obeyed (start q R) y) : y.Pooled := by
  have hok := ok_of_run hq hcache hknown hR h
  have hi := accounted_of_run hq hcache hknown hR h
  refine ⟨hi.bounded, fun t ht hn => ?_⟩
  obtain ⟨x, hx, hn⟩ := (hi.housed t ht).resolve_left hn
  obtain ⟨d, r, hb⟩ := hok.joint.port.life.born t x hx
  rw [World.trace_view] at hb hn
  exact ⟨_, _, _, _, _, hb, hn⟩

/-- Three reads of one socket share two payloads. -/
theorem pooled_threeReads : ∃ y : ClosedSystem, y.accepted = 3 ∧
    y.port.mm.numberOfAllocations = 2 ∧ y.Pooled := by
  have hexec : (exec step Obeyed (start twoSocketPort smallRouters)
      [.recvTimingReq (readRequest 0), .peqCb 0 0, .advance 10000, .service {},
        .recvTimingReq (readRequest 1), .peqCb 0 0, .advance 15000, .targetDone 0,
        .memoryDone 0 .ok, .advance 10000, .service {}, .peqCb 0 0, .advance 10000, .service {},
        .recvTimingReq (readRequest 2)]).map (fun y =>
          decide (y.accepted = 3 ∧ y.port.mm.numberOfAllocations = 2)) = some true := by decide
  obtain ⟨y, hr, hy⟩ := exists_run_of_exec hexec
  obtain ⟨h₁, h₂⟩ := of_decide_eq_true hy
  exact ⟨y, h₁, h₂, pooled_of_run bound_twoSocketPort rfl (by decide)
    (fun _ => ⟨_, _, _, _, rfl⟩) hr⟩

end ClosedSystem

end Gem5Wrapper
