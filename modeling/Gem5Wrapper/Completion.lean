import Gem5Wrapper.Release

/-!
# What a released transaction has had

Behind targets that accept each BEGIN_REQ, the port releases a transaction after its END_RESP,
which leaves by the socket of its BEGIN_REQ. By then gem5 has accepted one response, if the packet
of the transaction needs one, and has been offered none otherwise.
-/

namespace Gem5Wrapper

open FaultMachine
open Function (update)
open History (Along)

variable {P : Promise} {v u : View} {k s : ℕ} {t : Ptr} {x : Gem5Extension}

/-! ## Responses that are offered -/

/-- Which responses a move offers to gem5. -/
theorem Move.resp (h : Move P v u) {p : PacketPtr} {b : Bool} (hk : .resp k p b ∈ u.trace) :
    .resp k p b ∈ v.trace ∨ ∃ t x again, u.cur = .answered t x again b ∧ x.serial = k ∧
      u.carried = v.carried ∧ u.trace = .resp k p b :: v.trace ∧
      (v.cur = .entered t x ∧ (v.packets x.packet).cmd.isResponse = true ∨ v.cur = .taken t x) := by
  cases h
  case respond t x accepted hcur hresp =>
    simp at hk
    obtain ⟨rfl, rfl, rfl⟩ | hk := hk
    · exact .inr ⟨t, x, false, rfl, rfl, rfl, rfl, .inl ⟨hcur, hresp⟩⟩
    · exact .inl hk
  case resend t x accepted hcur hP =>
    simp at hk
    obtain ⟨rfl, rfl, rfl⟩ | hk := hk
    · exact .inr ⟨t, x, true, rfl, rfl, rfl, rfl, .inr hcur⟩
    · exact .inl hk
  case advance => exact .inl hk
  all_goals simp at hk; exact .inl hk

/-- gem5 accepts at most one response to a transaction. -/
def AcceptedOnce : List Obs → Prop := Along fun o l =>
  match o with
  | .resp k _ true => ∀ p, .resp k p true ∉ l
  | _ => True

/-- The response that gem5 has accepted is the one that the port deals with, or its transaction
is released. -/
structure Accepting (v : View) : Prop where
  accepted : ∀ k p, .resp k p true ∈ v.trace → Released v.trace k ∨
    ∃ t x again, v.cur = .answered t x again true ∧ x.serial = k
  once : AcceptedOnce v.trace

namespace Accepting

theorem of_initial (h : v.Initial) : Accepting v := by
  have htr : v.trace = [] := by simp [View.trace, h.log]
  constructor <;> simp [htr, AcceptedOnce]

/-- What the port offers to gem5 has not been accepted yet. -/
theorem not_accepted (hi : Accepting v) (hh : InHand v t x)
    (hc : v.cur = .entered t x ∨ v.cur = .taken t x) (p : PacketPtr) :
    .resp x.serial p true ∉ v.trace := by
  intro hm
  obtain hr | ⟨t', x', again, hcur, -⟩ := hi.accepted _ _ hm
  · exact hh.carries.unreleased hr
  · obtain hc | hc := hc <;> cases hc.symm.trans hcur

/-- What gem5 has accepted goes on to END_RESP. -/
theorem step_answered (h : Move P v u) {again : Bool} (hcur : v.cur = .answered t x again true) :
    u.cur = v.cur ∨ Released u.trace x.serial := by
  have hpop : ∀ e q, ¬ Serviced P v e q := by
    intro e q hs
    cases hcur.symm.trans hs.idle
  cases h
  case close e q s hs hp hcl hf => exact absurd hs (hpop e q)
  case retry e q s hs hp hcl hf => exact absurd hs (hpop e q)
  case keep e q hs hp => exact absurd hs (hpop e q)
  case enter hc _ _ _ => cases hcur.symm.trans hc
  case makeResponse hc _ _ _ => cases hcur.symm.trans hc
  case respond hc _ => cases hcur.symm.trans hc
  case block hc => cases hcur.symm.trans hc
  case respRetry hc => cases hcur.symm.trans hc
  case take hc _ _ _ => cases hcur.symm.trans hc
  case resend hc _ => cases hcur.symm.trans hc
  case retried hc => cases hcur.symm.trans hc
  case finish t' x' hd hpos =>
    obtain ⟨hc, -⟩ | ⟨_, hc⟩ := hd
    · cases hcur.symm.trans hc
    · cases hcur.symm.trans hc
      exact .inr (by simp)
  all_goals exact .inl rfl

theorem step_accepted (hi : Accepting v) (h : Move P v u) (k : ℕ) (p : PacketPtr)
    (hk : .resp k p true ∈ u.trace) : Released u.trace k ∨
      ∃ t x again, u.cur = .answered t x again true ∧ x.serial = k := by
  obtain hk | ⟨t, x, again, hcur, hx, -⟩ := h.resp hk
  · obtain hr | ⟨t, x, again, hcur, rfl⟩ := hi.accepted k p hk
    · exact .inl (hr.imp fun _ => h.mem_trace)
    · obtain hu | hr := step_answered h hcur
      · exact .inr ⟨t, x, again, hu.trans hcur, rfl⟩
      · exact .inl hr
  · exact .inr ⟨t, x, again, hcur, hx⟩

theorem step_once (hl : Life v) (hi : Accepting v) (h : Move P v u) : AcceptedOnce u.trace := by
  have hv := hi.once
  have hh := hl.cur
  unfold AcceptedOnce at *
  cases h
  case respond t x accepted hcur hresp =>
    rw [hcur] at hh
    refine ⟨?_, hv⟩
    cases accepted with
    | false => trivial
    | true => exact hi.not_accepted hh (.inl hcur)
  case resend t x accepted hcur hP =>
    rw [hcur] at hh
    refine ⟨?_, hv⟩
    cases accepted with
    | false => trivial
    | true => exact hi.not_accepted hh (.inr hcur)
  case advance => exact hv
  all_goals simpa using hv

/-- Every move preserves `Accepting`. -/
theorem step (hl : Life v) (hi : Accepting v) (h : Move P v u) : Accepting u where
  accepted := hi.step_accepted h
  once := hi.step_once hl h

end Accepting

/-! ## Packets that need no response -/

/-- The packet of transaction `k` needed no response when it came. -/
def NeedsNone (l : List Obs) (k : ℕ) : Prop := ∃ t p, .allocate k t p false ∈ l

/-- A response to transaction `k` has been offered to gem5. -/
def Offered (l : List Obs) (k : ℕ) : Prop := ∃ p b, .resp k p b ∈ l

theorem Offered.mono {l l' : List Obs} (h : Offered l k) (hl : l ⊆ l') : Offered l' k :=
  let ⟨p, b, hm⟩ := h; ⟨p, b, hl hm⟩

/-- The response that the port deals with has been offered. -/
def Cur.Offered (l : List Obs) : Cur → Prop
  | .taken _ x | .answered _ x _ _ => Gem5Wrapper.Offered l x.serial
  | _ => True

/-- No response is offered for a packet that needs none. -/
structure Silent (v : View) : Prop where
  packet : ∀ t x, Carries v t x → NeedsNone v.trace x.serial → ¬ (v.packets x.packet).Responds
  waiting : ∀ s t x, v.slots.response s = some t → v.carried t = some x →
    Offered v.trace x.serial
  cur : v.cur.Offered v.trace
  none : ∀ k, NeedsNone v.trace k → ¬ Offered v.trace k

theorem Move.needsNone (h : Move P v u) (hk : k < v.serial)
    (hn : NeedsNone u.trace k) : NeedsNone v.trace k := by
  obtain ⟨t, p, hm⟩ := hn
  obtain hm | ⟨r, -, rfl, -⟩ := h.allocated hm
  · exact ⟨t, p, hm⟩
  · exact absurd hk (Nat.lt_irrefl _)

namespace Silent

theorem of_initial (h : v.Initial) : Silent v := by
  have htr : v.trace = [] := by simp [View.trace, h.log]
  constructor <;> simp [htr, h.carried, h.response, h.cur, NeedsNone, Cur.Offered]

theorem step_packet (hl : Life v) (hh : Handed v) (hi : Silent v) (h : Move P v u) (t : Ptr)
    (x : Gem5Extension) (hc : Carries u t x) (hn : NeedsNone u.trace x.serial) :
    ¬ (u.packets x.packet).Responds := by
  have hold : v.carried t = some x → ¬ (u.packets x.packet).Responds := by
    intro hx
    have hv : Carries v t x := ⟨hx, fun hr => hc.unreleased (hr.imp fun _ => h.mem_trace)⟩
    have hn' := h.needsNone (hl.pool.serial t x hx) hn
    have hp := hi.packet t x hv hn'
    obtain heq | ⟨hneeds, -⟩ | ⟨r, hr, heq⟩ := h.packets x.packet
    · rw [heq]
      exact hp
    · exact absurd (.inl hneeds) hp
    · -- the packet is in flight
      obtain hm | hm := hr.free t (hh.carried t x hx) x hx heq.symm
      · exact absurd ⟨_, _, hm⟩ (hi.none _ hn')
      · exact absurd ⟨_, hm⟩ hv.unreleased
  have hbegin : ∀ r, v.Sendable r → (v.begin r).carried t = some x →
      u.packets = (v.begin r).packets → (∀ k t p b, .allocate k t p b ∈ u.trace →
        .allocate k t p b ∈ (v.begin r).trace) → ¬ (u.packets x.packet).Responds := by
    intro r hs hx hp htr
    by_cases ht : t = v.next
    · subst ht
      simp only [View.begin_carried, Function.update_self, Option.some.injEq] at hx
      subst hx
      obtain ⟨t', p, hm⟩ := hn
      have hm := htr _ _ _ _ hm
      simp only [View.trace_begin, List.mem_cons, reduceCtorEq, false_or,
        Obs.allocate.injEq] at hm
      obtain ⟨-, -, -, hneeds⟩ | hm := hm
      · simp [hp, Packet.Responds, hs.request, ← hneeds]
      · exact absurd (hl.known _ hm _ rfl) (Nat.lt_irrefl _)
    · exact hold (by simpa [ht] using hx)
  have hx := hc.carried
  cases id h
  case accepted r ha hs => exact hbegin r ha.sendable hx rfl fun _ _ _ _ => id
  case updated r ha hs hp => exact hbegin r ha.sendable hx rfl fun _ _ _ _ => id
  case completed r ha hs =>
    refine hbegin r ha.sendable (View.carried_of_dropRef hx).1 rfl fun _ _ _ _ hm => ?_
    exact List.mem_of_ne_of_mem (by simp) hm
  case finish => exact hold (View.carried_of_dropRef hx).1
  case targetRelease => exact hold (View.carried_of_dropRef hx).1
  all_goals exact hold hx

theorem step_waiting (hl : Life v) (hi : Silent v) (h : Move P v u) (s : ℕ) (t : Ptr)
    (x : Gem5Extension) (hs : u.slots.response s = some t) (hx : u.carried t = some x) :
    Offered u.trace x.serial := by
  have hold : ∀ y, Carries v t y → Offered v.trace y.serial → Offered u.trace x.serial := by
    intro y hy ho
    have hne := hl.pool.ne_next (hl.pool.refs _ _ hy.carried)
    obtain rfl := Option.some.inj ((h.carried hx hne).symm.trans hy.carried)
    exact ho.mono h.suffix.subset
  obtain hs | ⟨y, hcur, -, -⟩ := h.response hs
  · obtain ⟨y, hy, -⟩ := hl.response s t hs
    exact hold y hy (hi.waiting s t y hs hy.carried)
  · have hh := hl.cur
    have ho := hi.cur
    rw [hcur] at hh ho
    exact hold y hh.carries ho

theorem step_cur (hi : Silent v) (h : Move P v u) : u.cur.Offered u.trace := by
  have hc := hi.cur
  have hsame : u.cur = v.cur → u.cur.Offered u.trace := by
    intro hcur
    rw [hcur]
    cases hv : v.cur with
    | taken t x => rw [hv] at hc; exact hc.mono h.suffix.subset
    | answered t x again accepted => rw [hv] at hc; exact hc.mono h.suffix.subset
    | _ => trivial
  have hpop : ∀ e : PayloadEvent, u.cur = (if e.p = .beginResp then .popped e.t e.txn else .idle) →
      u.cur.Offered u.trace := by
    intro e hcur
    rw [hcur]
    split_ifs <;> trivial
  cases id h
  case close e q s hs hp hcl hf => exact hpop e rfl
  case retry e q s hs hp hcl hf => exact hpop e rfl
  case keep e q hs hp => exact hpop e rfl
  case enter => trivial
  case makeResponse => trivial
  case respond t x accepted hcur hresp => exact ⟨x.packet, accepted, by simp⟩
  case resend t x accepted hcur hP => exact ⟨x.packet, accepted, by simp⟩
  case block => trivial
  case finish =>
    obtain hn | hn := v.cur.next_cases <;> rw [View.finish_cur, hn] <;> trivial
  case respRetry => trivial
  case retried => trivial
  case take t x i s hcur hr hx hs => exact hi.waiting i t x hr hx
  all_goals exact hsame rfl

theorem step_none (hl : Life v) (hi : Silent v) (h : Move P v u) (k : ℕ)
    (hn : NeedsNone u.trace k) : ¬ Offered u.trace k := by
  rintro ⟨p, b, hm⟩
  obtain hm | ⟨t, x, again, -, rfl, -, htr, hcur⟩ := h.resp hm
  · exact hi.none k (h.needsNone (hl.known _ hm _ rfl) hn) ⟨p, b, hm⟩
  · have hn : NeedsNone v.trace x.serial := by simpa [NeedsNone, htr] using hn
    have hh := hl.cur
    have ho := hi.cur
    obtain ⟨hcur, hresp⟩ | hcur := hcur <;> rw [hcur] at hh ho
    · exact hi.packet t x hh.carries hn (.inr hresp)
    · exact hi.none _ hn ho

/-- Every move preserves `Silent`. -/
theorem step (hl : Life v) (hh : Handed v) (hi : Silent v) (h : Move P v u) : Silent u where
  packet := hi.step_packet hl hh h
  waiting := hi.step_waiting hl h
  cur := hi.step_cur h
  none := hi.step_none hl h

end Silent

/-! ## BEGIN_REQ and END_RESP -/

/-- A transaction has one BEGIN_REQ. -/
def OneBeginReq : List Obs → Prop := Along fun o l =>
  match o with
  | .beginReq k .. => ∀ t s a d r, .beginReq k t s a d r ∉ l
  | _ => True

theorem OneBeginReq.unique {l : List Obs} (h : OneBeginReq l) {t' : Ptr} {s' a a' d d' : ℕ}
    {r r' : Reply} (hm : .beginReq k t s a d r ∈ l) (hm' : .beginReq k t' s' a' d' r' ∈ l) :
    t = t' ∧ s = s' := by
  induction l with
  | nil => cases hm
  | cons o l ih =>
    obtain rfl | hl := List.mem_cons.1 hm
    · obtain he | hl' := List.mem_cons.1 hm'
      · cases he
        exact ⟨rfl, rfl⟩
      · exact (h.1 _ _ _ _ _ hl').elim
    · obtain rfl | hl' := List.mem_cons.1 hm'
      · exact (h.1 _ _ _ _ _ hl).elim
      · exact ih h.2 hl hl'

theorem OneBeginReq.step (hl : Life v) (hi : OneBeginReq v.trace) (h : Move P v u) :
    OneBeginReq u.trace := by
  have hnew : ∀ t s a d r, .beginReq v.serial t s a d r ∉ v.trace := by
    intro t s a d r hm
    exact absurd (hl.known _ hm _ rfl) (Nat.lt_irrefl _)
  have hbegin : ∀ r, OneBeginReq (v.begin r).trace := by
    intro r
    refine ⟨fun t s a d r' hm => ?_, trivial, hi⟩
    exact hnew t s a d r' (List.mem_of_ne_of_mem (by simp) hm)
  unfold OneBeginReq at *
  cases h
  case accepted r ha hs => exact hbegin r
  case updated r ha hs hp => exact hbegin r
  case completed r ha hs => exact ⟨trivial, hbegin r⟩
  case advance => exact hi
  all_goals simpa using hi

/-- END_RESP leaves by the socket of BEGIN_REQ, in the response phase. -/
def Returned : List Obs → Prop := Along fun o l =>
  match o with
  | .endResp k t s a => .pec k .beginResp ∈ l ∧ ∃ d r, .beginReq k t s a d r ∈ l
  | _ => True

theorem Returned.step (hl : Life v) (hi : Returned v.trace) (h : Move P v u) :
    Returned u.trace := by
  unfold Returned at *
  cases h
  case finish t x hd hpos =>
    have hh := hl.inHand_of_done hd
    exact ⟨trivial, ⟨hh.begun, hl.born _ _ hh.carries.carried⟩, hi⟩
  case advance => exact hi
  all_goals simpa using hi

/-- What is released has had its END_RESP, if no target completes a transaction at once. -/
def EndedFirst : List Obs → Prop := Along fun o l =>
  match o with
  | .release k t => ∃ s a, .endResp k t s a ∈ l
  | _ => True

theorem EndedFirst.step (hA : ∀ v a, P v a → AnsweredAccepted v a) (hi : EndedFirst v.trace)
    (h : Move P v u) : EndedFirst u.trace := by
  unfold EndedFirst at *
  cases h
  case finish t x hd hpos => exact ⟨⟨x.coreId, v.address t, by simp⟩, trivial, hi⟩
  case completed r ha hs =>
    obtain ⟨v', a, hP, hr⟩ := ha.makes
    cases hs.symm.trans (hA _ _ hP r hr)
  case advance => exact hi
  all_goals simpa using hi

end Gem5Wrapper
