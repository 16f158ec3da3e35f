import Gem5Wrapper.Handshakes
import Gem5Wrapper.PortSide

/-!
# What the port sends to its routers

`Joint` is the invariant of a closed system: that of the port, that of each router, and what links
their histories. Each move that the port makes for gem5 keeps it, and what it calls at a router is
what that router's protocol allows: BEGIN_REQ when the last request of the socket is granted,
because the slot of the socket is free, and END_RESP once for each answer, because the transaction
has not been released.
-/

namespace Gem5Wrapper

open FaultMachine OneAtATime
open Function (update)

/-! ## The invariant of both sides -/

/-- What holds of the port and its routers between two calls. -/
structure Joint (c : Wiring) (v : View) (R : ℕ → TxnRouter Transaction) : Prop where
  port : PortInv c v
  settled : ∀ s, (R s).Settled
  window : ∀ s a, (R s).toMem a = c.inMemory s a
  linked : ∀ s, Linked v.trace s (R s).trace
  /-- A scheduled END_REQ is due before the memory can answer. -/
  later : ∀ e ∈ v.events, e.p = .endReq → ∀ t s a d r, .beginReq e.txn t s a d r ∈ v.trace →
    e.tick + 15000 ≤ (R s).targetDoneEvent.getD v.now

/-- An act of gem5. -/
def Act.OfGem5 : Act → Prop
  | .recvTimingReq _ | .service _ | .recvRespRetry _ | .advance _ => True
  | .nbTransportBw .. | .targetAcquire .. | .targetRelease .. | .downstreamResponse _ => False

/-- The promise of gem5, when the targets are routers. -/
def FromGem5 (c : Wiring) : Promise := fun v a => Obeys c v a ∧ a.OfGem5

variable {c : Wiring} {v u : View} {R : ℕ → TxnRouter Transaction} {r r' : TxnRouter Transaction}
  {l l' : List Obs} {s k now : ℕ} {t : List (TxnRouter.Obs Transaction)} {x : Transaction} {o : Obs}
  {ph : Phase}

theorem PortInv.move (hi : PortInv c v) (h : Move (FromGem5 c) v u) : PortInv c u :=
  hi.step (fun _ _ h => h.1) h

/-- What the targets have sent is among the phases, if they accept each BEGIN_REQ. -/
theorem mem_phases_of_sent (ha : AllAccepted l) (h : Sent l k ph) : ph ∈ phases k l := by
  obtain ⟨o, ho, hs⟩ := h
  refine List.mem_filterMap.2 ⟨o, ho, ?_⟩
  cases o <;> simp [Obs.sends] at hs
  · rw [ha _ _ _ _ _ _ ho] at hs
    exact absurd hs.2.1 (by decide)
  · simp [Obs.phase, hs]

/-- A transaction whose response phase has begun has been answered by its router. -/
theorem Joint.answered (hj : Joint c v R) (hx : x ∈ requests (R s).events)
    (hp : Sent v.trace x.serial .beginResp) : x ∈ answers (R s).events := by
  refine TxnRouter.answers_of_phases ?_
  rw [show TxnRouter.phases x (R s).events = _ from (hj.linked s).same x hx]
  exact mem_phases_of_sent hj.port.accepted hp

/-- A transaction for which a target has sent something is granted by its router. -/
theorem Joint.granted (hj : Joint c v R) (hx : x ∈ requests (R s).events)
    (hp : ph = .endReq ∨ ph = .beginResp) (hs : Sent v.trace x.serial ph) :
    x ∈ grants (R s).events := by
  obtain rfl | rfl := hp
  · refine TxnRouter.grants_of_phases ?_
    rw [show TxnRouter.phases x (R s).events = _ from (hj.linked s).same x hx]
    exact mem_phases_of_sent hj.port.accepted hs
  · obtain ⟨w, st, hi⟩ := (hj.settled s).protocol
    have hserves := hi.front.serves
    refine hserves.starts_suffix.subset (hserves.finishes_suffix.subset ?_)
    exact hserves.answers_suffix.subset (hj.answered hx hs)

/-! ## Calls -/

namespace ClosedSystem

theorem forwards_of_silent (hl : ∀ o ∈ l, o.silent = true) : forwards now R l = .ok R := by
  induction l with
  | nil => rfl
  | cons o l ih =>
    obtain ⟨ho, hl⟩ := List.forall_mem_cons.1 hl
    rw [forwards, ih hl]
    cases o <;> first | rfl | cases ho

theorem forwards_append : forwards now R (l' ++ l) =
    forwards now R l >>= fun R => forwards now R l' := by
  induction l' with
  | nil =>
    show _ = forwards now R l >>= pure
    rw [bind_pure]
    rfl
  | cons o l' ih => rw [List.cons_append, forwards, ih, bind_assoc]; rfl

/-- A router takes a call that its protocol allows. -/
theorem receive_eq_ok (now delay : ℕ) (h : r.Settled) {address : ℕ} {o : TxnRouter.Obs Transaction}
    (ha : r.toMem address = true)
    (hc : ph = .beginReq ∧ o = .beginReq x ∧ MayRequest r.events x ∨
      ph = .endResp ∧ o = .endResp x ∧ MayAck r.events x) :
    ∃ r', receive r now o x address ph delay = .ok r' ∧ r'.Settled ∧ r'.trace = o :: r.trace ∧
      r'.targetDoneEvent = r.targetDoneEvent ∧ ∀ a, r'.toMem a = r.toMem a := by
  have hs := h.at now (update r.payloads x { r.payloads x with address })
  generalize hr₀ : ({ r with now, payloads := update r.payloads x { r.payloads x with address } } :
    TxnRouter Transaction) = r₀ at hs
  have hfw : (r₀.emit o).nbTransportFw x ph delay = .ok ((r₀.emit o).notify x ph delay) := by
    subst hr₀
    refine if_pos ?_
    simp only [TxnRouter.emit, Function.update_self]
    exact ha
  have hev : r₀.events = r.events := hr₀ ▸ rfl
  have hcall : r₀.call ⟨x, ph, delay⟩ = .ok ((r₀.emit o).notify x ph delay) := by
    rw [← hev] at hc
    obtain ⟨rfl, rfl, hm⟩ | ⟨rfl, rfl, hm⟩ := hc
    · simp only [TxnRouter.call, check_pos hm]
      exact hfw
    · simp only [TxnRouter.call, check_pos hm]
      exact hfw
  refine ⟨_, ?_, hs.call hcall ⟨o, rfl, hc.imp (·.2.1) (·.2.1)⟩ rfl, ?_, ?_, fun a => ?_⟩
  · rw [receive, hr₀]
    exact hfw
  · exact hr₀ ▸ rfl
  · exact hr₀ ▸ rfl
  · exact hr₀ ▸ rfl

end ClosedSystem

open ClosedSystem

namespace Joint

/-! ## What a move delivers -/

/-- The port goes on, and router `s` becomes `r'`. -/
theorem replace (hj : Joint c v R) (hu : PortInv c u) (hs : r'.Settled)
    (hw : ∀ a, r'.toMem a = (R s).toMem a) (hd : r'.targetDoneEvent = (R s).targetDoneEvent)
    (hl : ∀ s', Linked u.trace s' (update R s r' s').trace) (he : ∀ e ∈ u.events, e ∈ v.events)
    (hb : ∀ e ∈ v.events, ∀ t s a d r, .beginReq e.txn t s a d r ∈ u.trace →
      .beginReq e.txn t s a d r ∈ v.trace) (hn : v.now ≤ u.now) : Joint c u (update R s r') := by
  refine ⟨hu, ?_, ?_, hl, fun e hm hp t s' a d r hbm => ?_⟩
  · rw [Function.forall_update_iff]
    exact ⟨hs, fun s' _ => hj.settled s'⟩
  · rw [Function.forall_update_iff R fun s' r => ∀ a, r.toMem a = c.inMemory s' a]
    exact ⟨fun a => (hw a).trans (hj.window s a), fun s' _ => hj.window s'⟩
  · have hsame : (update R s r' s').targetDoneEvent = (R s').targetDoneEvent := by
      by_cases h : s' = s
      · rw [h, Function.update_self, hd]
      · rw [Function.update_of_ne h]
    have hlater := hj.later e (he e hm) hp t s' a d r (hb e (he e hm) t s' a d r hbm)
    rw [hsame]
    cases ht : (R s').targetDoneEvent with
    | some _ =>
      rw [ht] at hlater
      exact hlater
    | none =>
      rw [ht] at hlater
      exact hlater.trans hn

/-- What a move shows is delivered, and the invariant holds again. -/
def Delivered (c : Wiring) (now : ℕ) (v u : View) (R : ℕ → TxnRouter Transaction) : Prop :=
  ∃ l R', u.trace = l ++ v.trace ∧ forwards now R l = .ok R' ∧ Joint c u R'

/-- A move that calls no router. -/
theorem silent (hj : Joint c v R) (hu : PortInv c u) (ht : u.trace = l ++ v.trace)
    (hl : ∀ o ∈ l, o.silent = true) (he : ∀ e ∈ u.events, e ∈ v.events) (hn : v.now ≤ u.now) :
    Delivered c now v u R := by
  refine ⟨l, R, ht, forwards_of_silent hl, ?_⟩
  have h := hj.replace hu (hj.settled 0) (fun _ => rfl) rfl (fun s => ?_) he
    (fun e _ t s a d r hm => ?_) hn
  · rwa [Function.update_eq_self] at h
  · rw [Function.update_eq_self, ht]
    exact (hj.linked s).elsewhere_append fun o ho => .of_silent (hl o ho)
  · obtain hm | hm := List.mem_append.1 (ht ▸ hm)
    · cases hl _ hm
    · exact hm

/-- A move that calls router `s`. -/
theorem deliver (hj : Joint c v R) (hu : PortInv c u) (ht : u.trace = l ++ v.trace)
    (hf : forwards now R l = .ok (Function.update R s r')) (hs : r'.Settled)
    (hw : ∀ a, r'.toMem a = (R s).toMem a) (hd : r'.targetDoneEvent = (R s).targetDoneEvent)
    (hl : Linked u.trace s r'.trace) (ho : ∀ s' ≠ s, ∀ o ∈ l, Elsewhere o s' (R s').trace)
    (he : ∀ e ∈ u.events, e ∈ v.events) (hb : ∀ e ∈ v.events, ∀ t s a d r,
      .beginReq e.txn t s a d r ∉ l) (hn : v.now ≤ u.now) : Delivered c now v u R := by
  refine ⟨l, _, ht, hf, hj.replace hu hs hw hd ?_ he (fun e hm t s a d r hbm => ?_) hn⟩
  · rw [Function.forall_update_iff R fun s' r => Linked u.trace s' r.trace]
    refine ⟨hl, fun s' hne => ?_⟩
    rw [ht]
    exact (hj.linked s').elsewhere_append (ho s' hne)
  · exact (List.mem_append.1 (ht ▸ hbm)).resolve_left (hb e hm t s a d r)

/-! ## BEGIN_REQ and END_RESP -/

/-- When the port has room for a request of socket `s`, its router may get it. -/
theorem mayRequest (hj : Joint c v R) (hfree : v.slots.request s = none)
    (hx : v.serial ≤ x.serial) : MayRequest (R s).events x := by
  refine ⟨fun hm => ?_, fun y hy => ?_⟩
  · obtain ⟨a, d, r, hb⟩ := ((hj.linked s).begun x).1 hm
    exact absurd (hj.port.life.known _ hb _ rfl) (Nat.not_lt.2 hx)
  · obtain ⟨a, d, r, hb⟩ := ((hj.linked s).begun y).1 hy
    have hclosed : Closed v.trace y.serial := by
      by_contra hn
      have hslot := hj.port.channel.opened _ _ _ _ _ _ hb (hj.port.accepted _ _ _ _ _ _ hb) hn
      cases hfree.symm.trans hslot
    obtain hp | hp := hclosed
    · exact hj.granted hy (.inl rfl) (hj.port.life.sent _ _ hp)
    · exact hj.granted hy (.inr rfl) (hj.port.life.sent _ _ hp)

/-- When the port has dealt with the response of a transaction, its router may get END_RESP. -/
theorem mayAck (hj : Joint c v R) {t : Ptr} {x : Gem5Extension} (hh : InHand v t x) :
    (⟨x.serial, t⟩ : Transaction) ∈ requests (R x.coreId).events ∧
      MayAck (R x.coreId).events ⟨x.serial, t⟩ := by
  obtain ⟨d, r, hb⟩ := hj.port.life.born _ _ hh.carries.carried
  have hx : (⟨x.serial, t⟩ : Transaction) ∈ requests (R x.coreId).events :=
    ((hj.linked x.coreId).begun _).2 ⟨_, d, r, hb⟩
  refine ⟨hx, owed_of_answers (hj.settled _).not_refused ?_, fun hm => ?_⟩
  · exact hj.answered hx (hj.port.life.sent _ _ hh.begun)
  · obtain ⟨a, he⟩ := (hj.linked _).ended _ hm
    exact hh.carries.unreleased ⟨t, hj.port.life.ended _ _ _ _ he⟩

/-- BEGIN_REQ is delivered. -/
theorem begin (hj : Joint c v R) {rq : Request} (ha : Admitted (FromGem5 c) v rq)
    (hs : rq.reply.status = .accepted) : Delivered c now v
      ((v.begin rq).setRequest (v.target rq.content) (some v.next)) R := by
  have hu := hj.port.move (.accepted ha hs)
  obtain ⟨v', a', hP, hr⟩ := ha.makes
  have haddr := (hP.1.requests rq hr).address
  rw [← hj.port.target] at haddr
  have hmay := hj.mayRequest (x := ⟨v.serial, v.next⟩) ha.request_eq le_rfl
  obtain ⟨r', hrec, hs', htr, hd, hw⟩ := receive_eq_ok now rq.content.payloadDelay
    (hj.settled (v.target rq.content))
    ((hj.window _ _).trans haddr) (.inl ⟨rfl, rfl, hmay⟩)
  refine hj.deliver hu (l := [.beginReq v.serial v.next (v.target rq.content) rq.content.addr
    rq.content.payloadDelay rq.reply, .allocate v.serial v.next rq.packet
    rq.content.cmd.needsResponse]) rfl ?_ hs' hw hd ?_ ?_ (fun _ he => he) ?_ le_rfl
  · simp only [forwards, forward, hrec, ok_bind, pure_eq_ok]
  · have hold := (hj.linked (v.target rq.content)).elsewhere (o := .allocate v.serial v.next
      rq.packet rq.content.cmd.needsResponse) (.of_silent rfl)
    rw [htr]
    obtain ⟨w, st, hi⟩ := (hj.settled (v.target rq.content)).protocol
    refine hold.begin (fun o ho hsilent hk => ?_) (hi.front.serves.courses.new _ hmay.1)
    obtain rfl | ho := List.mem_cons.1 ho
    · cases hsilent
    · exact absurd (hj.port.life.known o ho _ hk) (Nat.lt_irrefl _)
  · intro s hne o ho
    obtain rfl | ho := List.mem_cons.1 ho
    · refine ⟨fun _ _ _ _ _ he => hne (Obs.beginReq.inj he).2.2.1.symm, fun y hy => ?_,
        fun _ _ => Obs.noConfusion⟩
      obtain ⟨a, d, r, hb⟩ := ((hj.linked s).begun y).1 hy
      exact if_neg (hj.port.life.known _ hb _ rfl).ne'
    · obtain rfl := List.mem_singleton.1 ho
      exact .of_silent rfl
  · intro e he t s a d r hm
    obtain hm | hm := List.mem_cons.1 hm
    · exact absurd (Obs.beginReq.inj hm).1 (hj.port.life.event_lt he).ne
    · cases List.mem_singleton.1 hm

/-- END_RESP is delivered. -/
theorem finish (hj : Joint c v R) {t : Ptr} {x : Gem5Extension} (hd : Done v t x)
    (hpos : 0 < v.refs t) : Delivered c now v (v.finish t x) R := by
  have hu := hj.port.move (.finish hd hpos)
  have hh := hj.port.life.inHand_of_done hd
  obtain ⟨d, rep, hb⟩ := hj.port.life.born _ _ hh.carries.carried
  obtain ⟨hx, hmay⟩ := hj.mayAck hh
  obtain ⟨r', hrec, hs, htr, hdone, hw⟩ := receive_eq_ok now 0 (hj.settled x.coreId)
    ((hj.window _ _).trans (hj.port.addressed _ _ _ _ _ _ hb).2)
    (.inr ⟨rfl, rfl, hmay⟩)
  refine hj.deliver hu (l := [.release x.serial t, .endResp x.serial t x.coreId (v.address t)]) rfl
    ?_ hs hw hdone ?_ ?_ (fun _ he => he) ?_ le_rfl
  · simp only [forwards, forward, hrec, ok_bind, pure_eq_ok]
  · rw [htr]
    refine ((hj.linked x.coreId).phase (x := ⟨x.serial, t⟩) (e := .ack ⟨x.serial, t⟩)
      (o := .endResp x.serial t x.coreId (v.address t)) hj.port.one hx
      (fun _ => rfl) (fun _ _ _ _ _ => Obs.noConfusion) (fun _ => Obs.noConfusion) rfl rfl
      (fun y => ?_) rfl (fun y hy => ?_) (by simp)).elsewhere (.of_silent rfl)
    · simp [Event.about]
    · obtain rfl | hy := List.mem_cons.1 hy
      · exact .inr ⟨_, rfl⟩
      · exact .inl hy
  · intro s hne o ho
    obtain rfl | ho := List.mem_cons.1 ho
    · exact .of_silent rfl
    · obtain rfl := List.mem_singleton.1 ho
      exact (hj.linked x.coreId).elsewhere_of_ne (hj.linked s) hj.port.one hx hne
        (fun _ _ _ _ _ => Obs.noConfusion) fun k hk => ⟨if_neg hk, Obs.noConfusion⟩
  · intro e he t' s a d r hm
    obtain hm | hm := List.mem_cons.1 hm
    · cases hm
    · cases List.mem_singleton.1 hm

/-! ## Moves -/

/-- Every move of the port is delivered. -/
theorem move (hj : Joint c v R) (now : ℕ) (h : Move (FromGem5 c) v u) : Delivered c now v u R := by
  have hu := hj.port.move h
  have hstatus : ∀ r, Admitted (FromGem5 c) v r → r.reply.status = .accepted := by
    intro r ha
    obtain ⟨v', a, hP, hr⟩ := ha.makes
    exact (hP.1.requests r hr).status
  have hpop : ∀ e q, Serviced (FromGem5 c) v e q → ∀ e' ∈ q, e' ∈ v.events := by
    intro e q hs e' he'
    exact hs.events ▸ List.mem_cons_of_mem _ he'
  cases id h with
  | accepted ha hs => exact hj.begin ha hs
  | updated ha hs => cases hs.symm.trans (hstatus _ ha)
  | completed ha hs => cases hs.symm.trans (hstatus _ ha)
  | finish hd hpos => exact hj.finish hd hpos
  | bw hP => exact hP.2.elim
  | targetAcquire hP => exact hP.2.elim
  | targetRelease hP => exact hP.2.elim
  | close hs | keep hs =>
    exact hj.silent hu (l := [_]) rfl (by simp [Obs.silent]) (hpop _ _ hs) le_rfl
  | retry hs => exact hj.silent hu (l := [_, _]) rfl (by simp [Obs.silent]) (hpop _ _ hs) le_rfl
  | advance => exact hj.silent hu (l := []) rfl (by simp) (fun _ he => he) (Nat.le_add_right ..)
  | refuse | makeResponse | respond | resend | respRetry =>
    exact hj.silent hu (l := [_]) rfl (by simp [Obs.silent]) (fun _ he => he) le_rfl
  | enter | block | take | retried | downstream =>
    exact hj.silent hu (l := []) rfl (by simp) (fun _ he => he) le_rfl

/-- So is every run of moves. -/
theorem moves (hj : Joint c v R) (now : ℕ) (h : Moves (FromGem5 c) v u) :
    Delivered c now v u R := by
  induction h with
  | refl => exact ⟨[], R, rfl, rfl, hj⟩
  | tail _ hm ih =>
    obtain ⟨l, R₁, ht, hf, hj⟩ := ih
    obtain ⟨l', R₂, ht', hf', hj⟩ := hj.move now hm
    refine ⟨l' ++ l, R₂, ?_, ?_, hj⟩
    · rw [ht', ht, List.append_assoc]
    · rw [forwards_append, hf]
      exact hf'

end Joint

/-- An act of gem5 at the port. -/
theorem ClosedSystem.portStep_ends {y : ClosedSystem} {a : Gem5Wrapper.Act} (hok : y.port.Ok)
    (hj : Joint c y.port.view y.routers) (hP : FromGem5 c y.port.view a) :
    Ends (fun y' => y'.port.Ok ∧ Joint c y'.port.view y'.routers) Fault.Outside
      (y.portStep a) := by
  refine ((World.step_ends hok hP).mono (fun _ _ h => h) fun f _ h => ?_).bind ?_
  · obtain ⟨u, hm, hs⟩ := h
    exact (hm.invariant hj.port fun _ _ hi hm => hi.move hm).outside (fun _ _ h => h.1) hs
  · intro w _ hw
    obtain ⟨hok', hm⟩ := hw
    obtain ⟨l, R, ht, hf, hj'⟩ := hj.moves y.port.now hm
    rw [World.trace_view, World.trace_view] at ht
    rw [ht, newer_append, hf]
    exact ⟨hok', hj'⟩

end Gem5Wrapper
