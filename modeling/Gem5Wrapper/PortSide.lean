import Gem5Wrapper.Completion

/-!
# The port of a closed system

What holds of a slave port without gem5 caches whose targets accept each BEGIN_REQ and keep to the
rules of TLM (`Obeys`), in every view: the invariants of the earlier modules in one (`PortInv`). In
such a view no call fails an assertion (`PortInv.outside`).
-/

namespace Gem5Wrapper

open FaultMachine
open Function (update)
open History (Along)

/-- The socket of each packet, the number of sockets, and the addresses of the memory behind each
socket. -/
structure Wiring where
  target : Packet → ℕ
  sockets : ℕ
  inMemory : ℕ → ℕ → Bool

/-- No BEGIN_RESP is sent on a socket before END_RESP of the previous one. -/
def ResponsesApart (v : View) : Act → Prop
  | .nbTransportBw k _ .beginResp _ => ∀ b ∈ starts v.trace, ∀ b' ∈ starts v.trace, b.2 = b'.2 →
      b.1 = k → b'.1 ≠ k → Sent v.trace b'.1 .beginResp → Ended v.trace b'.1
  | _ => True

/-- A request for the memory behind one of the sockets, which the target accepts. -/
structure Wiring.Takes (c : Wiring) (r : Request) : Prop where
  socket : c.target r.content < c.sockets
  address : c.inMemory (c.target r.content) r.content.addr = true
  status : r.reply.status = .accepted
  phase : r.reply.phase = .beginReq

/-- What gem5 and the targets promise to a port. -/
structure Obeys (c : Wiring) (v : View) (a : Act) : Prop where
  requests : ∀ r ∈ a.requests, c.Takes r
  resends : ResendsAccepted v a
  refs : RefsBalanced v a
  phases : PhasesObeyed v a
  later : StrictlyLater v a
  inOrder : TakenInOrder v a
  exclusive : ResponsesExclusive v a
  apart : ResponsesApart v a

variable {c : Wiring} {P : Promise} {v u : View} {k s : ℕ} {t : Ptr} {x : Gem5Extension}

theorem Obeys.answered {a : Act} (h : Obeys c v a) : AnsweredAccepted v a :=
  fun r hr => (h.requests r hr).status

theorem Obeys.noUpdated {a : Act} (h : Obeys c v a) : NoUpdatedEndReq v a := by
  intro r hr hs
  cases hs.symm.trans (h.requests r hr).status

theorem Obeys.notCompleted {a : Act} (h : Obeys c v a) : NotCompleted v a := by
  intro r hr _ hs
  cases hs.symm.trans (h.requests r hr).status

/-! ## One response at a time -/

/-- In the history, no BEGIN_RESP has been sent on a socket before END_RESP of the previous one. -/
def Apart (l : List Obs) : Prop := Along (fun o past => ∀ b ∈ starts l, ∀ b' ∈ starts l,
  b.2 = b'.2 → b.1 ≠ b'.1 → o.sends b.1 .beginResp = true → Sent past b'.1 .beginResp →
    Ended past b'.1) l

theorem Apart.exclusive (h : Apart v.trace) (a : Act) : ResponsesExclusive v a := h

/-- What is no BEGIN_REQ and no BEGIN_RESP makes no difference. -/
theorem Apart.cons {o : Obs} {l : List Obs} (h : Apart l) (hs : starts (o :: l) = starts l)
    (ho : ∀ k, o.sends k .beginResp = false) : Apart (o :: l) := by
  unfold Apart
  rw [hs]
  refine ⟨fun b _ b' _ _ _ hsend => ?_, h⟩
  cases (ho b.1).symm.trans hsend

theorem mem_starts {l : List Obs} {b : ℕ × ℕ} :
    b ∈ starts l ↔ ∃ t a d r, .beginReq b.1 t b.2 a d r ∈ l := by
  unfold starts
  rw [List.mem_filterMap]
  refine ⟨fun h => ?_, fun h => ?_⟩
  · obtain ⟨o, ho, hb⟩ := h
    cases o <;> cases hb
    exact ⟨_, _, _, _, ho⟩
  · obtain ⟨t, a, d, r, hb⟩ := h
    exact ⟨_, hb, rfl⟩

theorem Obs.txn_of_sends {o : Obs} {ph : Phase} (h : o.sends k ph = true) : o.txn = some k := by
  cases o <;> simp [Obs.sends] at h
  · exact congrArg some h.1
  · exact congrArg some h.1

/-- Nothing has been sent for a transaction with a new number. -/
theorem Apart.begin {l : List Obs} (h : Apart l) (hk : ∀ o ∈ l, ∀ j, o.txn = some j → j < k)
    {p : PacketPtr} {needs : Bool} {a d : ℕ} {r : Reply} (hr : r.status = .accepted) :
    Apart (.beginReq k t s a d r :: .allocate k t p needs :: l) := by
  have hnew : ∀ o ∈ l, o.sends k .beginResp ≠ true := by
    intro o ho hsend
    exact absurd (hk o ho k (Obs.txn_of_sends hsend)) (Nat.lt_irrefl _)
  refine ⟨fun b _ b' _ _ _ hsend => ?_, fun b _ b' _ _ _ hsend => ?_, ?_⟩
  · simp [Obs.sends, hr] at hsend
  · simp [Obs.sends] at hsend
  · refine Along.mono_of_suffix h fun o l' hsuf hQ b hb b' hb' hs hne hsend hsent => ?_
    have hold : ∀ e ∈ starts (.beginReq k t s a d r :: .allocate k t p needs :: l),
        e.1 ≠ k → e ∈ starts l := by
      intro e he hk
      obtain rfl | he := List.mem_cons.1 he
      · exact absurd rfl hk
      · exact he
    have hmem : o :: l' ⊆ l := hsuf.subset
    refine hQ b (hold b hb ?_) b' (hold b' hb' ?_) hs hne hsend hsent
    · intro hbk
      exact hnew o (hmem List.mem_cons_self) (hbk ▸ hsend)
    · intro hbk
      obtain ⟨o', ho', hsend'⟩ := hsent
      exact hnew o' (hmem (List.mem_cons_of_mem _ ho')) (hbk ▸ hsend')

theorem Apart.step (hP : ∀ v a, P v a → Obeys c v a) (hl : Life v) (hi : Apart v.trace)
    (h : Move P v u) : Apart u.trace := by
  have hstatus : ∀ r, Admitted P v r → r.reply.status = .accepted := by
    intro r ha
    obtain ⟨v', a, hP', hr⟩ := ha.makes
    exact ((hP _ _ hP').requests r hr).status
  cases h
  case accepted r ha hs => exact hi.begin hl.known hs
  case updated r ha hs hp => cases hs.symm.trans (hstatus r ha)
  case completed r ha hs => cases hs.symm.trans (hstatus r ha)
  case bw k t ph delay hbw =>
    have hap := (hP _ _ hbw).apart
    refine ⟨fun b hb b' hb' hs hne hsend hsent => ?_, hi⟩
    obtain ⟨rfl, rfl⟩ : k = b.1 ∧ ph = .beginResp := by simpa [Obs.sends] using hsend
    exact hap b hb b' hb' hs rfl (Ne.symm hne) hsent
  case advance => exact hi
  case retry => exact (hi.cons rfl fun _ => rfl).cons rfl fun _ => rfl
  case finish => exact (hi.cons rfl fun _ => rfl).cons rfl fun _ => rfl
  all_goals first
    | exact hi
    | exact hi.cons rfl fun _ => rfl

/-! ## The invariant -/

/-- gem5 has accepted the response that was sent again. -/
def Cur.Resent : Cur → Prop
  | .answered _ _ true accepted => accepted = true
  | _ => True

theorem Cur.Resent.step (hP : ∀ v a, P v a → Obeys c v a) (hi : v.cur.Resent) (h : Move P v u) :
    u.cur.Resent := by
  have hpop : ∀ e : PayloadEvent,
      (if e.p = .beginResp then Cur.popped e.t e.txn else .idle).Resent := by
    intro e
    split_ifs <;> trivial
  cases h
  case close e q s hs hp hcl hf => exact hpop e
  case retry e q s hs hp hcl hf => exact hpop e
  case keep e q hs hp => exact hpop e
  case enter => trivial
  case makeResponse => trivial
  case respond => trivial
  case block => trivial
  case finish =>
    obtain hn | hn := v.cur.next_cases <;> rw [View.finish_cur, hn] <;> trivial
  case respRetry => trivial
  case take => trivial
  case retried => trivial
  case resend t x accepted hcur hr =>
    obtain ⟨v', answers, hP', b, hb, rfl⟩ := hr
    exact (hP _ _ hP').resends b hb
  all_goals exact hi

/-- What holds in every view of the port. -/
structure PortInv (c : Wiring) (v : View) : Prop where
  cache : v.cache = false
  target : v.target = c.target
  sockets : v.sockets = c.sockets
  known : c.sockets ≤ v.known
  life : Life v
  channel : Channel v
  served : Served v
  ticks : Ticks v
  answering : Answering v
  accepting : Accepting v
  silent : Silent v
  tracking : Tracking v
  one : OneBeginReq v.trace
  returned : Returned v.trace
  ended : EndedFirst v.trace
  accepted : AllAccepted v.trace
  apart : Apart v.trace
  resent : v.cur.Resent
  addressed : ∀ k t s a d r, .beginReq k t s a d r ∈ v.trace →
    s < c.sockets ∧ c.inMemory s a = true

theorem PortInv.of_initial (h : v.Initial) (hcache : v.cache = false)
    (htarget : v.target = c.target) (hsockets : v.sockets = c.sockets)
    (hknown : c.sockets ≤ v.known) : PortInv c v := by
  have htr : v.trace = [] := by simp [View.trace, h.log]
  refine ⟨hcache, htarget, hsockets, hknown, .of_initial h, .of_initial h, .of_initial h,
    .of_initial h, .of_initial h, .of_initial h, .of_initial h, .of_initial h, ?_, ?_, ?_, ?_, ?_,
    ?_, ?_⟩
  all_goals
    simp [htr, h.cur, OneBeginReq, Returned, EndedFirst, AllAccepted, Apart, Cur.Resent]

/-- Every move preserves the invariant. -/
theorem PortInv.step (hP : ∀ v a, P v a → Obeys c v a) (hi : PortInv c v) (h : Move P v u) :
    PortInv c u := by
  obtain ⟨hcache, hknown, hsockets, htarget⟩ := h.static
  exact {
    cache := hcache.trans hi.cache
    target := htarget.trans hi.target
    sockets := hsockets.trans hi.sockets
    known := hknown ▸ hi.known
    life := hi.life.step (fun v a h => (hP v a h).refs) (fun v a h => (hP v a h).phases) h
    channel := hi.channel.step (fun v a h => (hP v a h).refs) (fun v a h => (hP v a h).phases)
      (fun v a h => (hP v a h).inOrder) hi.life h
    served := hi.served.step (fun v a h => (hP v a h).phases) (fun v a h => (hP v a h).exclusive)
      (fun v a h => (hP v a h).noUpdated) hi.life h
    ticks := hi.ticks.step (fun v a h => (hP v a h).phases) (fun v a h => (hP v a h).later)
      hi.life h
    answering := hi.answering.step (fun v a h => (hP v a h).notCompleted) h
    accepting := hi.accepting.step hi.life h
    silent := hi.silent.step hi.life hi.answering.handed h
    tracking := hi.tracking.step hi.life hi.channel h
    one := hi.one.step hi.life h
    returned := hi.returned.step hi.life h
    ended := hi.ended.step (fun v a h => (hP v a h).answered) h
    accepted := hi.accepted.step (fun v a h => (hP v a h).answered) h
    apart := hi.apart.step hP hi.life h
    resent := hi.resent.step hP h
    addressed := fun k t s a d r hm => by
      obtain hm | ⟨rq, ha, -, -, rfl, rfl, -⟩ := h.beginReq hm
      · exact hi.addressed k t s a d r hm
      · obtain ⟨v', a', hP', hr⟩ := ha.makes
        have htakes := (hP _ _ hP').requests rq hr
        rw [hi.target]
        exact ⟨htakes.socket, htakes.address⟩ }

/-- The invariant keeps the promises about the past. The others are about the act. -/
theorem PortInv.obeys (hi : PortInv c v) {a : Act} (hr : ∀ r ∈ a.requests, c.Takes r)
    (hA : ResendsAccepted v a) (hb : RefsBalanced v a) (ho : PhasesObeyed v a)
    (hS : StrictlyLater v a) (hR : ResponsesApart v a) : Obeys c v a :=
  ⟨hr, hA, hb, ho, hS, hi.ticks.takenInOrder a, hi.apart.exclusive a, hR⟩

/-! ## Faults -/

/-- A fault that is none of the port's own: a call that cannot be made, or a packet of gem5 that
the port panics at. -/
def Fault.Outside : Fault → Prop
  | .environment _ | .panic _ => True
  | _ => False

/-- No assertion fails. -/
theorem PortInv.outside (hP : ∀ v a, P v a → Obeys c v a) (hi : PortInv c v) {f : Fault}
    (h : Stuck P v f) : f.Outside := by
  have htakes : ∀ r, Makes P r → c.Takes r := by
    rintro r ⟨v', a, hP', hr⟩
    exact (hP _ _ hP').requests r hr
  have hpec := h.not_ofPec hi.life hi.channel hi.served
  cases h with
  | environment => trivial
  | panic => trivial
  | owed hc => cases hi.cache.symm.trans hc
  | unknown hr hn =>
    rw [hi.target] at hn
    exact absurd ((htakes _ hr).socket.trans_le hi.known) hn
  | outside hr hn =>
    rw [hi.target, hi.sockets] at hn
    exact absurd (htakes _ hr).socket hn
  | accepted hr hs hp => exact absurd (htakes _ hr).phase hp
  | updated hr hs => cases hs.symm.trans (htakes _ hr).status
  | completed hr hs => cases hs.symm.trans (htakes _ hr).status
  | notBlocking => exact absurd (.inl rfl) hpec
  | noExtension => exact absurd (.inr rfl) hpec
  | blocked => exact absurd (.inl rfl) hpec
  | refused hcur =>
    have hr := hi.resent
    rw [hcur] at hr
    cases hr
  | finish hd hz =>
    have hh := hi.life.inHand_of_done hd
    exact absurd (hi.life.pool.refs _ _ hh.carries.carried) (hz ▸ Nat.lt_irrefl 0)
  | targetAcquire ht hle =>
    obtain ⟨x, hx, -⟩ := Option.map_eq_some_iff.1 (show v.serialOf _ = _ from (hP _ _ ht).refs)
    exact absurd (hi.answering.handed.carried _ x hx) (Nat.not_lt.2 hle)
  | targetRelease ht hz =>
    obtain ⟨hs, -⟩ : v.serialOf _ = _ ∧ _ := (hP _ _ ht).refs
    obtain ⟨x, hx, -⟩ := Option.map_eq_some_iff.1 hs
    exact absurd (hi.life.pool.refs _ x hx) (hz ▸ Nat.lt_irrefl 0)

end Gem5Wrapper
