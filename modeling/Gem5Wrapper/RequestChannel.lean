import Gem5Wrapper.Transactions
import Gem5Wrapper.Lib.History

/-!
# The request channel
-/

namespace Gem5Wrapper

open FaultMachine
open Function (update)
open History (Along)

variable {P : Promise} {v u : View} {k s : ℕ} {t : Ptr} {x : Gem5Extension}

/-- The request channels of the sockets: who blocks which socket, and who is owed a retry. -/
structure Channel (v : View) : Prop where
  /-- A slot holds the payload of an open request of its socket. -/
  request : ∀ s t, v.slots.request s = some t → ∃ x, v.carried t = some x ∧ x.coreId = s ∧
    Begun v.trace x.serial t ∧ ¬ Closed v.trace x.serial
  /-- A request answered with TLM_ACCEPTED is in the slot of its socket while it is open. -/
  opened : ∀ k t s a d r, .beginReq k t s a d r ∈ v.trace → r.status = .accepted →
    ¬ Closed v.trace k → v.slots.request s = some t
  /-- A retry that is owed is still due. -/
  owed : ∀ s, v.slots.owed s = true → v.slots.request s ≠ none
  /-- An END_REQ that is scheduled will be taken before its BEGIN_RESP. -/
  order : ∀ e ∈ v.events, e.p = .endReq → .pec e.txn .beginResp ∉ v.trace

variable (hb : ∀ v a, P v a → RefsBalanced v a) (ho : ∀ v a, P v a → PhasesObeyed v a)
  (hT : ∀ v a, P v a → TakenInOrder v a)

theorem Admitted.request_eq {r : Request} (h : Admitted P v r) :
    v.slots.request (v.target r.content) = none := by
  have := h.free
  unfold View.blocker at this
  split_ifs at this with hc
  · exact absurd this hc.2
  · exact this

/-- The payload of a scheduled event carries the transaction that the event is for, which is not
in its response phase yet. -/
theorem Channel.scheduled (hi : Life v) (hc : Channel v) {e : PayloadEvent} (he : e ∈ v.events) :
    ∃ x, x.serial = e.txn ∧ Carries v e.t x ∧ .pec e.txn .beginResp ∉ v.trace := by
  obtain ⟨hp, hbeg, -, hn⟩ := hi.event e he
  have hpec : .pec e.txn .beginResp ∉ v.trace := by
    rcases hp with hp | hp
    · exact hc.order e he hp
    · exact hp ▸ hn
  obtain ⟨x, hx, hcar⟩ := hi.alive _ _ hbeg hpec
  exact ⟨x, hx, hcar, hpec⟩

/-- The event serviced is one of the payload's own transaction, and the slot it clears is the
slot of that transaction. -/
theorem Channel.serviced (hi : Life v) (hc : Channel v) {e : PayloadEvent} {q : List PayloadEvent}
    (hs : Serviced P v e q) : ∃ x, x.serial = e.txn ∧ Carries v e.t x ∧
      (∀ i, v.slots.request i = some e.t → i = x.coreId) ∧
      ∀ s, Closes v e.t s → s = x.coreId ∧ v.slots.request s = some e.t := by
  obtain ⟨x, hx, hcar, -⟩ := hc.scheduled hi hs.mem
  have hslot : ∀ i, v.slots.request i = some e.t → i = x.coreId := by
    intro i h
    obtain ⟨x', hx', rfl, -⟩ := hc.request i _ h
    exact congrArg _ (Option.some.inj (hx'.symm.trans hcar.carried))
  refine ⟨x, hx, hcar, hslot, fun s hcl => ?_⟩
  rcases hcl with h | ⟨i, x', h, hx', rfl⟩
  · exact ⟨hslot s h, h⟩
  · obtain rfl := Option.some.inj (hx'.symm.trans hcar.carried)
    exact ⟨rfl, hslot i h ▸ h⟩

include ho hT in
theorem Channel.step_order (hi : Life v) (hc : Channel v) (h : Move P v u) (e : PayloadEvent)
    (he : e ∈ u.events) (hp : e.p = .endReq) : .pec e.txn .beginResp ∉ u.trace := by
  have hpop : ∀ e' q, Serviced P v e' q → e ∈ q →
      (.pec e.txn .beginResp : Obs) ∉ .pec e'.txn e'.p :: v.trace := by
    intro e' q hs heq hm
    have hev : e ∈ v.events := hs.events ▸ List.mem_cons_of_mem _ heq
    rcases List.mem_cons.1 hm with hm | hm
    · simp only [Obs.pec.injEq] at hm
      obtain ⟨o, hP⟩ := hs.promise
      have := hT _ _ hP e' (by rw [hs.events]; rfl) hm.2.symm e hev hm.1
      exact this hp
    · exact hc.order e hev hp hm
  cases h
  case close e' q s hs hp' hcl ho => exact hpop e' q hs he
  case retry e' q s hs hp' hcl ho => simpa using hpop e' q hs he
  case keep e' q hs hp' => exact hpop e' q hs he
  case updated r ha hs hp' =>
    simp only [View.notify_events, View.begin_events, TimedQueue.mem_insert] at he
    rcases he with rfl | he
    · intro hm
      simp only [View.trace_notify, View.trace_begin, List.mem_cons, reduceCtorEq, false_or] at hm
      exact absurd (hi.known _ hm _ rfl) (Nat.lt_irrefl _)
    · simpa using hc.order e he hp
  case bw k t ph delay hP =>
    simp only [View.notify_events, View.emit_events, TimedQueue.mem_insert] at he
    rcases he with rfl | he
    · intro hm
      have := hi.sent k .beginResp (by simpa using hm)
      rcases (ho _ _ hP).2 with ⟨-, -, hn⟩ | ⟨hph, -⟩
      · exact hn this
      · rw [hph] at hp; cases hp
    · simpa using hc.order e he hp
  case advance => exact hc.order e he hp
  all_goals simpa using hc.order e he hp

/-- Which BEGIN_REQs a move sends. -/
theorem Move.beginReq (h : Move P v u) {a d : ℕ} {r : Reply}
    (hm : .beginReq k t s a d r ∈ u.trace) : .beginReq k t s a d r ∈ v.trace ∨
      ∃ rq, Admitted P v rq ∧ k = v.serial ∧ t = v.next ∧ s = v.target rq.content ∧
        a = rq.content.addr ∧ d = rq.content.payloadDelay ∧ r = rq.reply ∧
        (r.status = .accepted → u.slots.request = update v.slots.request s (some t)) ∧
        (r.status = .updated → r.phase = .endReq ∨ r.phase = .beginResp) := by
  cases h
  case accepted rq ha hs =>
    simp at hm
    rcases hm with ⟨rfl, rfl, rfl, rfl, rfl, rfl⟩ | hm
    · exact .inr ⟨rq, ha, rfl, rfl, rfl, rfl, rfl, rfl, fun _ => rfl,
        fun h => absurd (hs.symm.trans h) (by decide)⟩
    · exact .inl hm
  case updated rq ha hs hp =>
    simp at hm
    rcases hm with ⟨rfl, rfl, rfl, rfl, rfl, rfl⟩ | hm
    · exact .inr ⟨rq, ha, rfl, rfl, rfl, rfl, rfl, rfl,
        fun h => absurd (hs.symm.trans h) (by decide),
        fun _ => hp⟩
    · exact .inl hm
  case completed rq ha hs =>
    simp at hm
    rcases hm with ⟨rfl, rfl, rfl, rfl, rfl, rfl⟩ | hm
    · exact .inr ⟨rq, ha, rfl, rfl, rfl, rfl, rfl, rfl,
        fun h => absurd (hs.symm.trans h) (by decide),
        fun h => absurd (hs.symm.trans h) (by decide)⟩
    · exact .inl hm
  case advance => exact .inl hm
  all_goals simp at hm; exact .inl hm

/-- What a move does to the request slots: nothing, and the requests in them stay open; it fills
a free one; or it clears the one of the request that it ends. -/
theorem Channel.cases (hi : Life v) (hc : Channel v) (h : Move P v u) :
    (u.slots.request = v.slots.request ∧ ∀ s t x, v.slots.request s = some t →
      v.carried t = some x → ¬ Closed u.trace x.serial) ∨
    (∃ r, Admitted P v r ∧ u.trace = (v.begin r).trace ∧ u.carried = (v.begin r).carried ∧
      r.reply.status = .accepted ∧
      u.slots.request = update v.slots.request (v.target r.content) (some v.next)) ∨
    ∃ t x, v.slots.request x.coreId = some t ∧ Carries v t x ∧ Closed u.trace x.serial ∧
      (∀ k, k ≠ x.serial → Closed u.trace k → Closed v.trace k) ∧
      u.slots.request = update v.slots.request x.coreId none := by
  have hopen : ∀ s t x, v.slots.request s = some t → v.carried t = some x →
      ¬ Closed v.trace x.serial := by
    intro s t x hs hx
    obtain ⟨x', hx', -, -, hn⟩ := hc.request s t hs
    obtain rfl := Option.some.inj (hx.symm.trans hx')
    exact hn
  cases h
  case accepted r ha hs => exact .inr (.inl ⟨r, ha, rfl, rfl, hs, rfl⟩)
  case close e q s hs hp hcl ho =>
    obtain ⟨x, hx, hcar, -, h'⟩ := hc.serviced hi hs
    obtain ⟨rfl, ht⟩ := h' s hcl
    refine .inr (.inr ⟨e.t, x, ht, hcar, ?_, fun k hk hk' => ?_, rfl⟩)
    · rcases hp with hp | hp <;> simp [hx, hp]
    · simpa [hx ▸ Ne.symm hk] using hk'
  case retry e q s hs hp hcl ho =>
    obtain ⟨x, hx, hcar, -, h'⟩ := hc.serviced hi hs
    obtain ⟨rfl, ht⟩ := h' s hcl
    refine .inr (.inr ⟨e.t, x, ht, hcar, ?_, fun k hk hk' => ?_, rfl⟩)
    · rcases hp with hp | hp <;> simp [hx, hp]
    · simpa [hx ▸ Ne.symm hk] using hk'
  case keep e q hs hp =>
    obtain ⟨x, hx, hcar, hslot, -⟩ := hc.serviced hi hs
    have hnone : ∀ i, v.slots.request i ≠ some e.t := by
      intro i hi'
      rcases hp with hp | ⟨i', x', hi'', hx', hne⟩
      · have hph := (hi.event e hs.mem).1.resolve_left hp.1
        exact hp.2 hph i hi'
      · obtain rfl := Option.some.inj (hx'.symm.trans hcar.carried)
        exact hne (hslot i' hi'')
    refine .inl ⟨rfl, fun s t x' hs' hx' hcl => ?_⟩
    have hne : e.txn ≠ x'.serial := by
      rintro heq
      obtain rfl := hi.pool.inj _ _ _ _ hx' hcar.carried (heq.symm.trans hx.symm)
      exact hnone s hs'
    exact hopen s t x' hs' hx' (by simpa [hne] using hcl)
  case advance => exact .inl ⟨rfl, hopen⟩
  all_goals exact .inl ⟨rfl, fun s t x hs hx => by simpa using hopen s t x hs hx⟩

include hb in
theorem Channel.step_request (hi : Life v) (hu : Life u) (hc : Channel v) (h : Move P v u) (s : ℕ)
    (t : Ptr) (hs : u.slots.request s = some t) : ∃ x, u.carried t = some x ∧ x.coreId = s ∧
      Begun u.trace x.serial t ∧ ¬ Closed u.trace x.serial := by
  -- an old slot whose request is still open
  have hold : ∀ s t, v.slots.request s = some t → (∀ x, v.carried t = some x →
      ¬ Closed u.trace x.serial) → ∃ x, u.carried t = some x ∧ x.coreId = s ∧
        Begun u.trace x.serial t ∧ ¬ Closed u.trace x.serial := by
    intro s t hs hn
    obtain ⟨x, hx, rfl, hbeg, hcl⟩ := hc.request s t hs
    have hbeg' := hbeg.mono h.suffix.subset
    have hn' := hn x hx
    obtain ⟨x', hx', hcar⟩ := hu.alive _ _ hbeg' fun hm => hn' (.inr hm)
    have hrel : ¬ Released u.trace x.serial := hx' ▸ hcar.unreleased
    have hv : Carries v t x := ⟨hx, fun hr => hrel (hr.imp fun _ hm => h.mem_trace hm)⟩
    exact ⟨x, (hi.carries_mono hb h hv hrel).carried, rfl, hbeg', hn'⟩
  rcases hc.cases hi h with
    ⟨heq, hn⟩ | ⟨r, ha, htr, hcar, hst, heq⟩ | ⟨t', x', ht', hcar', hcl, hk, heq⟩
  · rw [heq] at hs
    exact hold s t hs fun x hx => hn s t x hs hx
  · rw [heq] at hs
    by_cases hne : s = v.target r.content
    · subst hne
      simp only [Function.update_self, Option.some.injEq] at hs
      subst hs
      refine ⟨⟨r.packet, v.target r.content, v.serial⟩, by rw [hcar]; simp, rfl, ?_, ?_⟩
      · rw [htr]; simp [Obs.begins, hst]
      · rw [htr]
        intro hcl
        rcases hcl with hcl | hcl <;> simp at hcl <;>
          exact absurd (hi.known _ hcl _ rfl) (Nat.lt_irrefl _)
    · rw [Function.update_of_ne hne] at hs
      refine hold s t hs fun x hx hcl => ?_
      obtain ⟨x', hx', -, -, hn⟩ := hc.request s t hs
      obtain rfl := Option.some.inj (hx.symm.trans hx')
      rw [htr] at hcl
      exact hn (by simpa using hcl)
  · rw [heq] at hs
    by_cases hne : s = x'.coreId
    · simp [hne] at hs
    · rw [Function.update_of_ne hne] at hs
      refine hold s t hs fun x hx hcl' => ?_
      obtain ⟨x'', hx'', hs'', -, hn⟩ := hc.request s t hs
      obtain rfl := Option.some.inj (hx.symm.trans hx'')
      refine hn (hk _ (fun heq' => ?_) hcl')
      obtain rfl := hi.pool.inj _ _ _ _ hx hcar'.carried heq'
      obtain rfl := Option.some.inj (hx.symm.trans hcar'.carried)
      exact hne hs''.symm

theorem Channel.step_opened (hi : Life v) (hc : Channel v) (h : Move P v u) (k : ℕ) (t : Ptr)
    (s a d : ℕ) (r : Reply) (hm : .beginReq k t s a d r ∈ u.trace) (hr : r.status = .accepted)
    (hn : ¬ Closed u.trace k) : u.slots.request s = some t := by
  rcases h.beginReq hm with hm | ⟨rq, -, -, -, -, -, -, -, heq, -⟩
  swap
  · rw [heq hr, Function.update_self]
  have hn' : ¬ Closed v.trace k := fun hcl => hn (hcl.imp (h.mem_trace ·) (h.mem_trace ·))
  have hs := hc.opened k t s a d r hm hr hn'
  rcases hc.cases hi h with ⟨heq, -⟩ | ⟨r', ha, -, -, -, heq⟩ | ⟨t', x', ht', hcar', hcl, -, heq⟩
  · rw [heq]; exact hs
  · have hne : s ≠ v.target r'.content := by
      rintro rfl
      rw [ha.request_eq] at hs; cases hs
    rw [heq, Function.update_of_ne hne]; exact hs
  · have hne : s ≠ x'.coreId := by
      rintro rfl
      obtain rfl := Option.some.inj (hs.symm.trans ht')
      have hbeg : Begun v.trace k t := ⟨_, hm, by simp [Obs.begins, hr]⟩
      obtain ⟨x, rfl, hcar⟩ := hi.alive k t hbeg fun hm => hn' (.inr hm)
      obtain rfl := Option.some.inj (hcar.carried.symm.trans hcar'.carried)
      exact hn hcl
    rw [heq, Function.update_of_ne hne]; exact hs

theorem Channel.step_owed (hc : Channel v) (h : Move P v u) (s : ℕ)
    (hs : u.slots.owed s = true) : u.slots.request s ≠ none := by
  have ho := hc.owed s
  cases h
  case refuse r t hr hsend ht =>
    by_cases hne : s = v.blocker (v.target r.content)
    · subst hne; simp [ht]
    · simpa using ho (by simpa [hne] using hs)
  case accepted r ha hst =>
    by_cases hne : s = v.target r.content
    · simp [hne]
    · simpa [hne] using ho hs
  case close e q s' hs' hp hcl hf =>
    have hne : s ≠ s' := by
      rintro rfl
      simp [hf] at hs
    simpa [hne] using ho hs
  case retry e q s' hs' hp hcl hf =>
    have hne : s ≠ s' := by
      rintro rfl
      simp at hs
    simpa [hne] using ho (by simpa [hne] using hs)
  all_goals exact ho hs

theorem Channel.of_initial (h : v.Initial) : Channel v := by
  have htr : v.trace = [] := by simp [View.trace, h.log]
  constructor <;> simp [htr, h.request, h.owed, h.events]

include hb ho hT in
theorem Channel.step (hi : Life v) (hc : Channel v) (h : Move P v u) : Channel u where
  request := hc.step_request hb hi (hi.step hb ho h) h
  opened := hc.step_opened hi h
  owed := hc.step_owed h
  order := hc.step_order ho hT hi h

/-! ## Retries -/

/-- There is one retry because of a transaction if it blocked a request and has ended its request
phase, and none otherwise. -/
def Retried (l : List Obs) (k : ℕ) : Prop :=
  (Closed l k → .refused (some k) ∈ l → l.count (.retryReq k) = 1) ∧
    (¬ (Closed l k ∧ .refused (some k) ∈ l) → l.count (.retryReq k) = 0)

/-- Who was refused because of whom, and who gets a retry. -/
structure Retries (v : View) : Prop where
  /-- The flag of a blocked socket says whether a request was refused because of the
  transaction that blocks it. -/
  owed_iff : ∀ s t x, v.slots.request s = some t → v.carried t = some x →
    (v.slots.owed s = true ↔ .refused (some x.serial) ∈ v.trace)
  /-- Requests are refused because of open requests. -/
  refused : ∀ k, .refused (some k) ∈ v.trace → Closed v.trace k ∨
    ∃ t x, v.slots.request x.coreId = some t ∧ v.carried t = some x ∧ x.serial = k
  count : ∀ k, Retried v.trace k

theorem Channel.owed_eq_false (hc : Channel v) (hs : v.slots.request s = none) :
    v.slots.owed s = false := by
  by_contra hn
  exact hc.owed s (by simpa using hn) hs

/-- Two slots hold payloads of different transactions. -/
theorem Channel.slot_inj (hi : Life v) (hc : Channel v) {s' : ℕ} {t' : Ptr} {x' : Gem5Extension}
    (hs : v.slots.request s = some t) (hx : v.carried t = some x)
    (hs' : v.slots.request s' = some t') (hx' : v.carried t' = some x')
    (h : x.serial = x'.serial) : s = s' := by
  obtain rfl := hi.pool.inj _ _ _ _ hx hx' h
  obtain ⟨y, hy, rfl, -⟩ := hc.request s t hs
  obtain ⟨y', hy', rfl, -⟩ := hc.request s' t hs'
  rw [Option.some.inj (hy.symm.trans hy')]

/-- The payload of a slot goes on carrying its transaction. -/
theorem Channel.carried (hi : Life v) (hv : Channel v) (hu : Channel u) (h : Move P v u)
    (hs : v.slots.request s = some t) (hs' : u.slots.request s = some t) :
    u.carried t = v.carried t := by
  obtain ⟨x, hx, -⟩ := hv.request s t hs
  obtain ⟨x', hx', -⟩ := hu.request s t hs'
  rw [hx', h.carried hx' (hi.pool.ne_next (hi.pool.refs _ _ hx))]

namespace Retries

theorem step_owed_iff (hi : Life v) (hv : Channel v) (hr : Retries v) (h : Move P v u) (s : ℕ)
    (t : Ptr) (x : Gem5Extension) (hs : u.slots.request s = some t) (hx : u.carried t = some x) :
    u.slots.owed s = true ↔ .refused (some x.serial) ∈ u.trace := by
  have hold : v.slots.request s = some t → v.carried t = some x := fun hs' =>
    h.carried hx (by
      obtain ⟨x', hx', -⟩ := hv.request s t hs'
      exact hi.pool.ne_next (hi.pool.refs _ _ hx'))
  have hkeep : v.slots.request s = some t →
      (v.slots.owed s = true ↔ .refused (some x.serial) ∈ v.trace) := fun hs' =>
    hr.owed_iff s t x hs' (hold hs')
  cases h
  case refuse r t₀ hr' hsend ht₀ =>
    obtain ⟨x₀, hx₀, -⟩ := hv.request _ _ ht₀
    by_cases hne : s = v.blocker (v.target r.content)
    · subst hne
      obtain rfl := Option.some.inj (hs.symm.trans ht₀)
      simp [View.serialOf, hold hs]
    · have hser : x.serial ≠ x₀.serial := fun hk =>
        hne (hv.slot_inj hi hs (hold hs) ht₀ hx₀ hk)
      simpa [hne, View.serialOf, hx₀, hser] using hkeep hs
  case accepted r ha hst =>
    by_cases hne : s = v.target r.content
    · subst hne
      simp at hs
      subst hs
      simp at hx
      subst hx
      have hn : (.refused (some v.serial) : Obs) ∉ v.trace := fun hm =>
        absurd (hi.known _ hm _ rfl) (Nat.lt_irrefl _)
      simp [hv.owed_eq_false ha.request_eq, hn]
    · simpa [hne] using hkeep (by simpa [hne] using hs)
  case close e q s' hs' hp hcl hf =>
    by_cases hne : s = s'
    · simp [hne] at hs
    · simpa [hne] using hkeep (by simpa [hne] using hs)
  case retry e q s' hs' hp hcl hf =>
    by_cases hne : s = s'
    · simp [hne] at hs
    · simpa [hne] using hkeep (by simpa [hne] using hs)
  case advance => exact hkeep hs
  all_goals simpa using hkeep hs

theorem step_refused (hi : Life v) (hv : Channel v) (hu : Channel u) (hr : Retries v)
    (h : Move P v u) (k : ℕ) (hk : .refused (some k) ∈ u.trace) : Closed u.trace k ∨
      ∃ t x, u.slots.request x.coreId = some t ∧ u.carried t = some x ∧ x.serial = k := by
  have hmono : Closed v.trace k → Closed u.trace k := fun hcl =>
    hcl.imp (h.mem_trace ·) (h.mem_trace ·)
  have hslot : ∀ t x, v.slots.request x.coreId = some t → v.carried t = some x → x.serial = k →
      u.slots.request x.coreId = some t → Closed u.trace k ∨
        ∃ t x, u.slots.request x.coreId = some t ∧ u.carried t = some x ∧ x.serial = k :=
    fun t x hs hx hk hs' => .inr ⟨t, x, hs', (hv.carried hi hu h hs hs').trans hx, hk⟩
  have hold : .refused (some k) ∈ v.trace → Closed u.trace k ∨
      ∃ t x, u.slots.request x.coreId = some t ∧ u.carried t = some x ∧ x.serial = k := by
    intro hm
    rcases hr.refused k hm with hcl | ⟨t, x, hs, hx, hk⟩
    · exact .inl (hmono hcl)
    rcases hv.cases hi h with ⟨heq, -⟩ | ⟨r, ha, -, -, -, heq⟩ | ⟨t', x', ht', hcar', hcl, -, heq⟩
    · exact hslot t x hs hx hk (by rw [heq]; exact hs)
    · have hne : x.coreId ≠ v.target r.content := fun hn => by
        rw [hn, ha.request_eq] at hs; cases hs
      exact hslot t x hs hx hk (by rw [heq, Function.update_of_ne hne]; exact hs)
    · by_cases hne : x.coreId = x'.coreId
      · obtain rfl := Option.some.inj ((hne ▸ hs).symm.trans ht')
        obtain rfl := Option.some.inj (hx.symm.trans hcar'.carried)
        exact .inl (hk ▸ hcl)
      · exact hslot t x hs hx hk (by rw [heq, Function.update_of_ne hne]; exact hs)
  cases id h
  case refuse r t₀ hr' hsend ht₀ =>
    obtain ⟨x₀, hx₀, hs₀, -⟩ := hv.request _ _ ht₀
    simp only [View.trace_setOwed, View.trace_emit, View.trace_store, List.mem_cons,
      Obs.refused.injEq, View.serialOf, hx₀, Option.map_some, Option.some.injEq] at hk
    rcases hk with rfl | hk
    · exact .inr ⟨t₀, x₀, hs₀ ▸ ht₀, hx₀, rfl⟩
    · exact hold hk
  case advance => exact hold hk
  all_goals exact hold (by simpa using hk)

/-- A transaction that has not ended its request phase has made no retry. -/
theorem count_eq_zero (hr : Retries v) (hk : ¬ Closed v.trace k) :
    v.trace.count (.retryReq k) = 0 :=
  (hr.count k).2 fun h => hk h.1

theorem step_count (hi : Life v) (hv : Channel v) (hr : Retries v) (h : Move P v u) (k : ℕ) :
    Retried u.trace k := by
  have hk := hr.count k
  unfold Retried at *
  -- the event that ends the request in slot `s`
  have hend : ∀ e q s, Serviced P v e q → Closes v e.t s → ¬ Closed v.trace e.txn ∧
      (v.slots.owed s = true ↔ .refused (some e.txn) ∈ v.trace) := by
    intro e q s hs hcl
    obtain ⟨x, hx, hcar, -, h'⟩ := hv.serviced hi hs
    obtain ⟨rfl, ht⟩ := h' s hcl
    obtain ⟨x', hx', -, -, hn⟩ := hv.request _ _ ht
    obtain rfl := Option.some.inj (hx'.symm.trans hcar.carried)
    exact ⟨hx ▸ hn, hx ▸ hr.owed_iff _ _ _ ht hcar.carried⟩
  cases h
  case refuse r t₀ hr' hsend ht₀ =>
    obtain ⟨x₀, hx₀, -, -, hn⟩ := hv.request _ _ ht₀
    by_cases hne : k = x₀.serial
    · subst hne
      have h0 := hr.count_eq_zero hn
      simp [h0, hn]
    · simpa [View.serialOf, hx₀, hne] using hk
  case close e q s hs hp hcl hf =>
    obtain ⟨hn, hiff⟩ := hend e q s hs hcl
    by_cases hne : e.txn = k
    · subst hne
      have h0 := hr.count_eq_zero hn
      simp [h0, ← hiff, hf]
    · simpa [hne] using hk
  case retry e q s hs hp hcl hf =>
    obtain ⟨hn, hiff⟩ := hend e q s hs hcl
    by_cases hne : e.txn = k
    · subst hne
      have h0 := hr.count_eq_zero hn
      rcases hp with hp | hp <;> simp [h0, ← hiff, hf, hp]
    · simpa [hne] using hk
  case keep e q hs hp =>
    by_cases hne : e.txn = k
    · subst hne
      -- the request has ended before, or nobody was refused because of it
      have hcl : .refused (some e.txn) ∈ v.trace → Closed v.trace e.txn := by
        intro hm
        obtain ⟨x, hx, hcar, hslot, -⟩ := hv.serviced hi hs
        rcases hr.refused _ hm with hcl | ⟨t', x', ht', hx', hk'⟩
        · exact hcl
        · obtain rfl := hi.pool.inj _ _ _ _ hx' hcar.carried (hk'.trans hx.symm)
          obtain rfl := Option.some.inj (hx'.symm.trans hcar.carried)
          rcases hp with hp | ⟨i, y, hi', hy, hne⟩
          · have hph := (hi.event e hs.mem).1.resolve_left hp.1
            exact absurd ht' (hp.2 hph _)
          · obtain rfl := Option.some.inj (hy.symm.trans hx')
            exact absurd (hslot i hi') hne
      by_cases hm : .refused (some e.txn) ∈ v.trace
      · simpa [hm, hcl hm] using hk
      · simpa [hm] using hk
    · simpa [hne] using hk
  case advance => exact hk
  all_goals simpa using hk

theorem of_initial (h : v.Initial) : Retries v := by
  have htr : v.trace = [] := by simp [View.trace, h.log]
  constructor <;> simp [htr, h.request, Retried]

theorem step (hi : Life v) (hv : Channel v) (hu : Channel u) (hr : Retries v) (h : Move P v u) :
    Retries u where
  owed_iff := hr.step_owed_iff hi hv h
  refused := hr.step_refused hi hv hu h
  count := hr.step_count hi hv h

end Retries

/-! ## The flags -/

/-- The slots that an observation records are those before the move or those after it. -/
theorem Move.slots (h : Move P v u) {e : Record} (he : e ∈ u.log) :
    e ∈ v.log ∨ e.slots = v.slots ∨ e.slots = u.slots := by
  cases h
  case advance => exact .inl he
  case retry =>
    simp at he
    rcases he with rfl | rfl | he
    · exact .inr (.inr rfl)
    · exact .inr (.inl rfl)
    · exact .inl he
  all_goals
    simp at he
    first
      | exact .inl he
      | (rcases he with rfl | he
         · exact .inr (.inl rfl)
         · exact .inl he)
      | (rcases he with rfl | rfl | he
         · exact .inr (.inl rfl)
         · exact .inr (.inl rfl)
         · exact .inl he)
      | (rcases he with rfl | rfl | rfl | he
         · exact .inr (.inl rfl)
         · exact .inr (.inl rfl)
         · exact .inr (.inl rfl)
         · exact .inl he)

/-- The latest refusal has not been followed by a retry yet. -/
def AwaitsRetry : List Obs → Bool
  | [] => false
  | .refused _ :: _ => true
  | .retryReq _ :: _ => false
  | _ :: l => AwaitsRetry l

/-- gem5 sends no request between a refusal and the retry. Each request is refused or gets a
payload. -/
def Patient : List Obs → Prop := History.Along fun o l =>
  match o with
  | .refused _ | .allocate .. => AwaitsRetry l = false
  | _ => True

/-- At most one flag is set, and only while a retry is awaited. -/
structure OneFlag (v : View) : Prop where
  awaits : ∀ s, v.slots.owed s = true → AwaitsRetry v.trace = true
  unique : ∀ s s', v.slots.owed s = true → v.slots.owed s' = true → s = s'

theorem OneFlag.step (h : Move P v u) (hp : Patient u.trace)
    (hv : Patient v.trace → OneFlag v) : OneFlag u := by
  have hf := hv (hp.of_suffix h.suffix)
  have hnone : AwaitsRetry v.trace = false → ∀ s, v.slots.owed s = false := by
    intro ha s
    by_contra hs
    rw [hf.awaits s (by simpa using hs)] at ha
    cases ha
  unfold Patient at hp
  cases h
  case refuse r t hr hsend ht =>
    have hn := hnone hp.1
    constructor
    · exact fun s _ => rfl
    · intro s s' hs hs'
      have key : ∀ i, update v.slots.owed (v.blocker (v.target r.content)) true i = true →
          i = v.blocker (v.target r.content) := by
        intro i hi
        by_contra hne
        simp [hne, hn] at hi
      exact (key s hs).trans (key s' hs').symm
  case accepted r ha hs =>
    have hn := hnone hp.2.1
    exact ⟨fun s hs => absurd hs (by simp [hn]), fun s s' hs => absurd hs (by simp [hn])⟩
  case updated r ha hs hp' =>
    have hn := hnone hp.2.1
    exact ⟨fun s hs => absurd hs (by simp [hn]), fun s s' hs => absurd hs (by simp [hn])⟩
  case completed r ha hs =>
    have hn := hnone hp.2.2.1
    exact ⟨fun s hs => absurd hs (by simp [hn]), fun s s' hs => absurd hs (by simp [hn])⟩
  case retry e q s hs hp' hcl hf' =>
    have hn : ∀ i, update v.slots.owed s false i = false := by
      intro i
      by_cases hne : i = s
      · simp [hne]
      · by_contra hi
        exact hne (hf.unique i s (by simpa [hne] using hi) hf')
    exact ⟨fun i hi => absurd hi (by simp [hn]), fun i i' hi => absurd hi (by simp [hn])⟩
  case advance => exact ⟨hf.awaits, hf.unique⟩
  all_goals exact ⟨fun s hs => by simpa [AwaitsRetry] using hf.awaits s hs, hf.unique⟩


variable (hA : ∀ v a, P v a → AnsweredAccepted v a)

/-! ## One open request on each socket -/

/-- A transaction of socket `s` between its BEGIN_REQ and its END_REQ or BEGIN_RESP. -/
def OpenOn (l : List Obs) (s k : ℕ) : Prop :=
  (∃ t a d r, .beginReq k t s a d r ∈ l) ∧ ¬ Closed l k

/-- BEGIN_REQ is sent on sockets without an open request. -/
def Exclusive : List Obs → Prop := Along fun o l =>
  match o with
  | .beginReq _ _ s _ _ _ => ∀ k, ¬ OpenOn l s k
  | _ => True

theorem OpenOn.of_cons {o : Obs} {l : List Obs} (h : OpenOn (o :: l) s k) :
    OpenOn l s k ∨ ∃ t a d r, o = .beginReq k t s a d r := by
  obtain ⟨⟨t, a, d, r, hm⟩, hn⟩ := h
  rcases List.mem_cons.1 hm with rfl | hm
  · exact .inr ⟨t, a, d, r, rfl⟩
  · exact .inl ⟨⟨t, a, d, r, hm⟩, fun hcl => hn (by simp [hcl])⟩

/-- At each moment, at most one transaction of a socket is open. -/
theorem Exclusive.unique {l : List Obs} (h : Exclusive l) {k' : ℕ} (hk : OpenOn l s k)
    (hk' : OpenOn l s k') : k = k' := by
  induction l with
  | nil => obtain ⟨⟨_, _, _, _, hm⟩, -⟩ := hk; cases hm
  | cons o l ih =>
    rcases hk.of_cons with hl | ⟨t, a, d, r, rfl⟩
    · rcases hk'.of_cons with hl' | ⟨t, a, d, r, rfl⟩
      · exact ih h.2 hl hl'
      · exact absurd hl (h.1 k)
    · rcases hk'.of_cons with hl' | ⟨t', a', d', r', he⟩
      · exact absurd hl' (h.1 k')
      · exact (Obs.beginReq.inj he).1

/-- Every BEGIN_REQ so far was answered with TLM_ACCEPTED. -/
def AllAccepted (l : List Obs) : Prop :=
  ∀ k t s a d r, .beginReq k t s a d r ∈ l → r.status = .accepted

include hA in
theorem AllAccepted.step (hv : AllAccepted v.trace) (h : Move P v u) : AllAccepted u.trace := by
  intro k t s a d r hm
  rcases h.beginReq hm with hm | ⟨rq, ha, -, -, -, -, -, rfl, -, -⟩
  · exact hv _ _ _ _ _ _ hm
  · obtain ⟨v', a', hP, hr⟩ := ha.makes
    exact hA _ _ hP rq hr

theorem Exclusive.step (hc : Channel v) (ha : AllAccepted v.trace) (hv : Exclusive v.trace)
    (h : Move P v u) : Exclusive u.trace := by
  have hbegin : ∀ r, Admitted P v r → Exclusive (v.begin r).trace := by
    intro r hr
    refine ⟨fun k hk => ?_, trivial, hv⟩
    rcases hk.of_cons with ⟨⟨t, a, d, r', hm⟩, hn⟩ | ⟨_, _, _, _, he⟩
    · have := hc.opened _ _ _ _ _ _ hm (ha _ _ _ _ _ _ hm) hn
      rw [hr.request_eq] at this
      cases this
    · cases he
  unfold Exclusive at *
  cases h
  case accepted r hr hs => exact hbegin r hr
  case updated r hr hs hp => exact hbegin r hr
  case completed r hr hs => exact ⟨trivial, hbegin r hr⟩
  case advance => exact hv
  all_goals simpa using hv

/-! ## The request channel -/

/-- A port has its retries still due: what it owes a retry for is blocked. -/
structure SCSlavePort.RetriesDue (p : SCSlavePort) : Prop where
  sockets : ∀ s, p.helper.owed s = true → p.helper.request s ≠ none
  system : p.needToSendRequestRetry = true → p.blockingRequest ≠ none

/-- The retry flags of a port: `needToSendRequestRetry`, and those of the sockets. -/
def SCSlavePort.flag (p : SCSlavePort) : Option ℕ → Bool
  | none => p.needToSendRequestRetry
  | some s => p.helper.owed s

theorem SCSlavePort.Ok.retriesDue {p : SCSlavePort} (hp : p.Ok)
    (h : ∀ s, p.slots.owed s = true → p.slots.request s ≠ none) : p.RetriesDue := by
  constructor
  · intro s hs
    by_cases h0 : s = 0 ∧ p.usingGem5Cache = true
    · rw [h0.1, (hp.system h0.2).2.1] at hs
      cases hs
    · have := h s
      simp only [SCSlavePort.slots, if_neg h0] at this
      exact this hs
  · intro hs
    have hc : p.usingGem5Cache = true := by
      by_contra hc
      rw [(hp.noCache (by simpa using hc)).2.1] at hs
      cases hs
    have := h 0
    simp only [SCSlavePort.slots, hc, and_self, if_true] at this
    exact this hs

theorem SCSlavePort.Ok.flag_unique {p : SCSlavePort} (hp : p.Ok)
    (h : ∀ s s', p.slots.owed s = true → p.slots.owed s' = true → s = s') {f f' : Option ℕ}
    (hf : p.flag f = true) (hf' : p.flag f' = true) : f = f' := by
  -- the socket of a flag, and the flag of a socket
  have key : ∀ f, p.flag f = true → ∃ s, p.slots.owed s = true ∧
      f = if s = 0 ∧ p.usingGem5Cache = true then none else some s := by
    rintro (_ | s) hf
    · have hc : p.usingGem5Cache = true := by
        by_contra hc
        rw [SCSlavePort.flag, (hp.noCache (by simpa using hc)).2.1] at hf
        cases hf
      exact ⟨0, by simpa [SCSlavePort.slots, hc, SCSlavePort.flag] using hf, by simp [hc]⟩
    · have h0 : ¬ (s = 0 ∧ p.usingGem5Cache = true) := by
        rintro ⟨rfl, hc⟩
        rw [SCSlavePort.flag, (hp.system hc).2.1] at hf
        cases hf
      exact ⟨s, by simpa only [SCSlavePort.slots, if_neg h0, SCSlavePort.flag] using hf,
        by rw [if_neg h0]⟩
  obtain ⟨s, hs, rfl⟩ := key f hf
  obtain ⟨s', hs', rfl⟩ := key f' hf'
  rw [h s s' hs hs']

/-- The port when a call of it returns or calls out. -/
def World.Shows (w : World) (p : SCSlavePort) : Prop := p = w.port ∨ ∃ e ∈ w.log, p = e.port

/-- What is promised of the request channel. -/
structure RequestLaws (w : World) : Prop where
  /-- On each socket at most one transaction is open at a time. -/
  exclusive : ∀ l, l <:+ w.trace → ∀ s k k', OpenOn l s k → OpenOn l s k' → k = k'
  /-- Whenever the port returns or calls out, every retry that is owed is still due. -/
  due : ∀ p, w.Shows p → p.RetriesDue
  /-- There is one retry for each transaction that blocked requests and has ended. -/
  retried : ∀ k, Retried w.trace k
  /-- If gem5 waits for the retry after a refusal, at most one flag is ever set. -/
  oneFlag : Patient w.trace → ∀ p, w.Shows p → ∀ f f', p.flag f = true → p.flag f' = true → f = f'

/-- The invariant of the request channel. -/
structure RequestInv (v : View) : Prop where
  life : Life v
  channel : Channel v
  retries : Retries v
  accepted : AllAccepted v.trace
  exclusive : Exclusive v.trace
  due : ∀ e ∈ v.log, ∀ s, e.slots.owed s = true → e.slots.request s ≠ none
  flags : Patient v.trace → OneFlag v ∧
    ∀ e ∈ v.log, ∀ s s', e.slots.owed s = true → e.slots.owed s' = true → s = s'

theorem RequestInv.of_initial (h : v.Initial) : RequestInv v := by
  have htr : v.trace = [] := by simp [View.trace, h.log]
  refine ⟨.of_initial h, .of_initial h, .of_initial h, ?_, ?_, ?_, fun _ => ⟨⟨?_, ?_⟩, ?_⟩⟩
  all_goals simp [htr, h.log, h.owed, AllAccepted, Exclusive]

include hb ho hT hA in
theorem RequestInv.step (hi : RequestInv v) (h : Move P v u) : RequestInv u := by
  have hc := hi.channel.step hb ho hT hi.life h
  refine ⟨hi.life.step hb ho h, hc, hi.retries.step hi.life hi.channel hc h,
    hi.accepted.step hA h, hi.exclusive.step hi.channel hi.accepted h, fun e he => ?_,
    fun hp => ?_⟩
  · rcases h.slots he with he | he | he
    · exact hi.due e he
    · rw [he]; exact hi.channel.owed
    · rw [he]; exact hc.owed
  · have hf := OneFlag.step h hp fun hp => (hi.flags hp).1
    have hold := hi.flags (hp.of_suffix h.suffix)
    refine ⟨hf, fun e he => ?_⟩
    rcases h.slots he with he | he | he
    · exact hold.2 e he
    · rw [he]; exact hold.1.unique
    · rw [he]; exact hf.unique

/-- **The request channel.** In every run in which targets accept BEGIN_REQs and take each END_REQ
before the BEGIN_RESP of its transaction, for either value of `usingGem5Cache`. -/
theorem requestLaws_of_run {q : SCSlavePort} {w : World} (hq : q.Bound)
    (h : PortRun (fun v a => AnsweredAccepted v a ∧ RefsBalanced v a ∧ PhasesObeyed v a ∧
      TakenInOrder v a) q w) : RequestLaws w := by
  have hi : RequestInv w.view := h.invariant hq (fun _ => .of_initial) fun v u hv hm =>
    hv.step (fun _ _ hP => hP.2.1) (fun _ _ hP => hP.2.2.1) (fun _ _ hP => hP.2.2.2)
      (fun _ _ hP => hP.1) hm
  have hok := (h.moves hq).1
  have htr : w.view.trace = w.trace := by
    simp [View.trace, World.trace, World.view, World.viewAt, Entry.record]
  have hdue : ∀ p, w.Shows p → p.Ok ∧ (∀ s, p.slots.owed s = true → p.slots.request s ≠ none) ∧
      (Patient w.trace → ∀ s s', p.slots.owed s = true → p.slots.owed s' = true → s = s') := by
    rintro p (rfl | ⟨e, he, rfl⟩)
    · exact ⟨hok.port, hi.channel.owed, fun hp => (hi.flags (htr ▸ hp)).1.unique⟩
    · have hmem : e.record ∈ w.view.log := List.mem_map_of_mem he
      exact ⟨hok.log e he, hi.due _ hmem, fun hp => (hi.flags (htr ▸ hp)).2 _ hmem⟩
  refine ⟨fun l hl s k k' hk hk' => ?_, fun p hp => ?_, fun k => htr ▸ hi.retries.count k,
    fun hpat p hp f f' hf hf' => ?_⟩
  · exact Exclusive.unique (hi.exclusive.of_suffix (htr ▸ hl)) hk hk'
  · exact (hdue p hp).1.retriesDue (hdue p hp).2.1
  · exact (hdue p hp).1.flag_unique ((hdue p hp).2.2 hpat) hf hf'

/-- A request meets an open one and is refused; END_REQ brings the retry. -/
theorem requestLaws_refusedRequest : ∃ w, .retryReq 0 ∈ w.trace ∧ RequestLaws w := by
  obtain ⟨w, hr, hw⟩ := exists_portRun (q := oneSocketPort)
    (P := fun v a => AnsweredAccepted v a ∧ RefsBalanced v a ∧ PhasesObeyed v a ∧ TakenInOrder v a)
    (p := fun w => decide (.retryReq 0 ∈ w.trace))
    [.recvTimingReq (readRequest 0), .recvTimingReq (readRequest 1),
      .nbTransportBw 0 0 .endReq 5, .advance 5, .service {}] (by decide)
  exact ⟨w, by simpa using hw, requestLaws_of_run bound_oneSocketPort hr⟩

/-- END_REQ and BEGIN_RESP are sent in this order and take effect at the same tick. BEGIN_RESP is
taken first and the payload goes back to the pool; the END_REQ that is left ends the request of
the transaction that has got the payload meanwhile, and the next BEGIN_REQ leaves while that
request is open. -/
theorem not_requestLaws : ¬ ∀ (q : SCSlavePort) (w : World), q.Bound →
    PortRun (fun v a => AnsweredAccepted v a ∧ RefsBalanced v a ∧ PhasesObeyed v a) q w →
    RequestLaws w := by
  intro h
  obtain ⟨w, hr, hw⟩ := exists_portRun (q := oneSocketPort)
    (P := fun v a => AnsweredAccepted v a ∧ RefsBalanced v a ∧ PhasesObeyed v a)
    (p := fun w => decide (.beginReq 1 0 0 0 0 ⟨.accepted, .beginReq, 0⟩ ∈ w.trace ∧
      .beginReq 2 1 0 0 0 ⟨.accepted, .beginReq, 0⟩ ∈ w.trace ∧
      ¬ Closed w.trace 1 ∧ ¬ Closed w.trace 2))
    [.recvTimingReq (readRequest 0), .nbTransportBw 0 0 .endReq 5,
      .nbTransportBw 0 0 .beginResp 5, .advance 5, .service {}, .recvTimingReq (readRequest 1),
      .service {}, .recvTimingReq (readRequest 2)] (by decide)
  obtain ⟨h₁, h₂, hn₁, hn₂⟩ := of_decide_eq_true hw
  have := (h _ _ bound_oneSocketPort hr).exclusive _ List.suffix_rfl 0 1 2
    ⟨⟨_, _, _, _, h₁⟩, hn₁⟩ ⟨⟨_, _, _, _, h₂⟩, hn₂⟩
  exact absurd this (by decide)

end Gem5Wrapper
