import Gem5Wrapper.ToRouters

/-!
# What the routers send to their port

A callback of a router calls the port up to three times. `Half` is the invariant between these
calls: the port has seen what the router has shown so far, and the router itself is not settled yet.
Each call is one that the port relies on: the router is asked for each phase by its protocol, and
what the protocol says of its history says it of the port's.
-/

namespace Gem5Wrapper

open FaultMachine OneAtATime ClosedSystem
open Function (update)
open TxnRouter (eventsOf)

/-- What holds in the middle of a callback of router `s`, which has come to the history `t`. The
memory of the router cannot answer before `done`. -/
structure Half (c : Wiring) (R : ℕ → TxnRouter Transaction) (s : ℕ) (w : World)
    (t : List (TxnRouter.Obs Transaction)) (done : ℕ) : Prop where
  ok : w.Ok
  port : PortInv c w.view
  linked : Linked w.view.trace s t
  others : ∀ s' ≠ s, Linked w.view.trace s' (R s').trace
  later : ∀ e ∈ w.events, e.p = .endReq → ∀ t s' a d r, .beginReq e.txn t s' a d r ∈ w.view.trace →
    e.tick + 15000 ≤ if s' = s then done else (R s').targetDoneEvent.getD w.now

variable {c : Wiring} {R : ℕ → TxnRouter Transaction} {r' : TxnRouter Transaction}
  {s done done' : ℕ} {w w' : World} {t : List (TxnRouter.Obs Transaction)} {x : Transaction}
  {o : Obs} {o' : TxnRouter.Obs Transaction} {ph : Phase}

namespace Half

/-! ## Before and after -/

theorem of_joint (hok : w.Ok) (hj : Joint c w.view R) (s : ℕ) :
    Half c R s w (R s).trace ((R s).targetDoneEvent.getD w.now) := by
  refine ⟨hok, hj.port, hj.linked s, fun s' _ => hj.linked s', fun e he hp t s' a d r hb => ?_⟩
  have hlater := hj.later e he hp t s' a d r hb
  split_ifs with hs
  · exact hs ▸ hlater
  · exact hlater

theorem joint (hh : Half c R s w r'.trace done) (hd : done ≤ r'.targetDoneEvent.getD w.now)
    (hs : ∀ s', (update R s r' s').Settled)
    (hw : ∀ s' a, (update R s r' s').toMem a = c.inMemory s' a) :
    Joint c w.view (update R s r') := by
  refine ⟨hh.port, hs, hw, ?_, fun e he hp t s' a d r hb => ?_⟩
  · rw [Function.forall_update_iff R fun s' r => Linked w.view.trace s' r.trace]
    exact ⟨hh.linked, hh.others⟩
  · have hlater := hh.later e he hp t s' a d r hb
    split_ifs at hlater with hs
    · rw [hs, Function.update_self]
      exact hlater.trans hd
    · rwa [Function.update_of_ne hs]

theorem mono (hh : Half c R s w t done) (hd : done ≤ done') : Half c R s w t done' := by
  refine ⟨hh.ok, hh.port, hh.linked, hh.others, fun e he hp t s' a d r hb => ?_⟩
  have hlater := hh.later e he hp t s' a d r hb
  split_ifs at hlater ⊢
  · exact hlater.trans hd
  · exact hlater

/-- The router goes on by itself. -/
theorem inner (hh : Half c R s w t done) (ho : o'.inner = true) : Half c R s w (o' :: t) done :=
  ⟨hh.ok, hh.port, hh.linked.inner ho, hh.others, hh.later⟩

/-! ## A call of the port -/

/-- The port has taken a call for transaction `x` of the router. -/
theorem call (hh : Half c R s w t done) (hx : x ∈ requests (eventsOf t)) {a : Gem5Wrapper.Act}
    (hP : Obeys c w.view a) (hs : w.step a = .ok w') (ht : w'.view.trace = o :: w.view.trace)
    (hl : Linked w'.view.trace s (o' :: t)) (hb : ∀ k p s a d r, o ≠ .beginReq k p s a d r)
    (ho : ∀ k, x.serial ≠ k → o.phase k = none ∧ o ≠ .targetRelease k) (hn : w'.now = w.now)
    (he : ∀ e ∈ w'.events, e.p = .endReq → e ∈ w.events ∨
      e.txn = x.serial ∧ e.tick + 15000 ≤ done) : Half c R s w' (o' :: t) done := by
  obtain ⟨hok, hm⟩ := (World.step_ends hh.ok hP).of_eq_ok hs
  have hport : PortInv c w'.view :=
    hm.invariant hh.port fun _ _ hi hm => hi.step (fun _ _ h => h) hm
  refine ⟨hok, hport, hl, fun s' hne => ?_, fun e hm hp t' s' a' d r hbm => ?_⟩
  · rw [ht]
    exact (hh.others s' hne).elsewhere (hh.linked.elsewhere_of_ne (hh.others s' hne) hh.port.one hx
      hne (fun k p => hb k p s') ho)
  · have hbm : .beginReq e.txn t' s' a' d r ∈ w.view.trace := by
      obtain hbm | hbm := List.mem_cons.1 (ht ▸ hbm)
      · exact absurd hbm.symm (hb _ _ _ _ _ _)
      · exact hbm
    rw [hn]
    obtain hm | ⟨htxn, htick⟩ := he e hm hp
    · exact hh.later e hm hp t' s' a' d r hbm
    · obtain ⟨a₁, d₁, r₁, hbx⟩ := (hh.linked.begun x).1 hx
      obtain ⟨-, rfl⟩ := hh.port.one.unique (htxn ▸ hbm) hbx
      rw [if_pos rfl]
      exact htick

/-- A transaction whose request phase has begun, as the port knows it. -/
theorem begun (hh : Half c R s w t done) (hx : x ∈ requests (eventsOf t)) :
    Begun w.view.trace x.serial x.payload := by
  obtain ⟨a, d, r, hb⟩ := (hh.linked.begun x).1 hx
  have hr := hh.port.accepted _ _ _ _ _ _ hb
  exact ⟨_, hb, by simp [Obs.begins, hr]⟩

/-- What the port has been sent is in the history of the router. -/
theorem phases_of_sent (hh : Half c R s w t done) (hx : x ∈ requests (eventsOf t))
    (hs : Sent w.view.trace x.serial ph) : ph ∈ TxnRouter.phases x (eventsOf t) := by
  rw [hh.linked.same x hx]
  exact mem_phases_of_sent hh.port.accepted hs

/-- A transaction that has not been answered keeps its payload. -/
theorem serialOf (hh : Half c R s w t done) (hx : x ∈ requests (eventsOf t))
    (hp : .pec x.serial .beginResp ∉ w.view.trace) :
    w.view.serialOf x.payload = some x.serial := by
  obtain ⟨y, hy, hc⟩ := hh.port.life.alive _ _ (hh.begun hx) hp
  rw [View.serialOf, hc.carried, Option.map_some, hy]

theorem not_pec (hh : Half c R s w t done) (hx : x ∈ requests (eventsOf t))
    (ha : x ∉ answers (eventsOf t)) : .pec x.serial .beginResp ∉ w.view.trace := by
  intro hp
  exact ha (TxnRouter.answers_of_phases (hh.phases_of_sent hx (hh.port.life.sent _ _ hp)))

/-- The router takes a reference to a payload. -/
theorem acquire (hh : Half c R s w t done) (hx : x ∈ requests (eventsOf t))
    (ha : x ∉ answers (eventsOf t)) : ∃ w', backward w (.acquire x) = .ok w' ∧
      Half c R s w' (.acquire x :: t) done ∧ w'.now = w.now := by
  have hserial := hh.serialOf hx (hh.not_pec hx ha)
  have hP : Obeys c w.view (.targetAcquire x.serial x.payload) :=
    hh.port.obeys (by simp [Gem5Wrapper.Act.requests]) trivial hserial trivial trivial trivial
  obtain ⟨y, hy, -⟩ := Option.map_eq_some_iff.1 hserial
  have hends := World.acquire_ends (c := .idle) (t := x.payload)
    (hh.ok.emit (.targetAcquire x.serial))
  cases hs : (w.emit (.targetAcquire x.serial)).acquire x.payload with
  | error f =>
    rw [hs] at hends
    exact absurd (hh.port.answering.handed.carried _ y hy) (Nat.not_lt.2 hends.1)
  | ok w' =>
    rw [hs] at hends
    have hview : w'.view = (w.view.emit (.targetAcquire x.serial)).addRef x.payload := hends.2.1
    have ht : w'.view.trace = .targetAcquire x.serial :: w.view.trace := by
      rw [hview]
      rfl
    have hev : w'.events = w.events := congrArg View.events hview
    refine ⟨w', hs, hh.call hx hP hs ht ?_ (by simp) (fun _ _ => ⟨rfl, by simp⟩) ?_ ?_, ?_⟩
    · rw [ht]
      exact hh.linked.acquire
    · exact congrArg View.now hview
    · exact fun e he _ => .inl (hev ▸ he)
    · exact congrArg View.now hview

/-- The router gives its reference back. -/
theorem release (hh : Half c R s w t done) (hx : x ∈ requests (eventsOf t))
    (hp : .pec x.serial .beginResp ∉ w.view.trace) (hacq : .acquire x ∈ t) (hrel : .release x ∉ t) :
    ∃ w', backward w (.release x) = .ok w' ∧ Half c R s w' (.release x :: t) done ∧
      w'.now = w.now := by
  have hserial := hh.serialOf hx hp
  have hheld : 0 < held w.view.trace x.serial := by
    have hpos := List.count_pos_iff.2 (hh.linked.acquired x hacq)
    have hzero := List.count_eq_zero.2 fun hm => hrel (hh.linked.released x hx hm)
    unfold held
    omega
  have hP : Obeys c w.view (.targetRelease x.serial x.payload) :=
    hh.port.obeys (by simp [Gem5Wrapper.Act.requests]) trivial ⟨hserial, hheld⟩ trivial trivial
      trivial
  obtain ⟨y, hy, -⟩ := Option.map_eq_some_iff.1 hserial
  have hends := World.release_ends (c := .idle) (t := x.payload)
    (hh.ok.emit (.targetRelease x.serial))
  cases hs : (w.emit (.targetRelease x.serial)).release x.payload with
  | error f =>
    rw [hs] at hends
    have hz : w.view.refs x.payload = 0 := hends.1
    exact absurd (hh.port.life.pool.refs _ y hy) (hz ▸ Nat.lt_irrefl 0)
  | ok w' =>
    rw [hs] at hends
    have hview : w'.view = (w.view.emit (.targetRelease x.serial)).dropRef x.payload := hends.2.1
    have ht : w'.view.trace = .targetRelease x.serial :: w.view.trace := by
      rw [hview]
      rfl
    have hev : w'.events = w.events := congrArg View.events hview
    refine ⟨w', hs, hh.call hx hP hs ht ?_ (by simp) (fun k hk => ⟨rfl, by simp [hk]⟩) ?_ ?_, ?_⟩
    · rw [ht]
      exact hh.linked.release hh.port.one hx
    · exact congrArg View.now hview
    · exact fun e he _ => .inl (hev ▸ he)
    · exact congrArg View.now hview

/-- The router grants a request. -/
theorem endReq (hh : Half c R s w t done) (hx : x ∈ requests (eventsOf t))
    (hg : x ∉ grants (eventsOf t)) (ha : x ∉ answers (eventsOf t))
    (hd : w.now + TxnRouter.bwDelay + 15000 ≤ done) : ∃ w', backward w (.endReq x) = .ok w' ∧
      Half c R s w' (.endReq x :: t) done ∧ w'.now = w.now := by
  have hP : Obeys c w.view (.nbTransportBw x.serial x.payload .endReq TxnRouter.bwDelay) := by
    refine hh.port.obeys (by simp [Gem5Wrapper.Act.requests]) trivial trivial
      ⟨hh.begun hx, .inl ⟨rfl, fun hs => hg ?_, fun hs => ha ?_⟩⟩ trivial trivial
    · exact TxnRouter.grants_of_phases (hh.phases_of_sent hx hs)
    · exact TxnRouter.answers_of_phases (hh.phases_of_sent hx hs)
  refine ⟨_, rfl, hh.call (o := .bw x.serial .endReq (w.now + TxnRouter.bwDelay)) hx hP rfl rfl ?_
    (by simp) (fun k hk => ⟨if_neg hk, by simp⟩) rfl fun e he _ => ?_, rfl⟩
  · exact hh.linked.phase (o := .bw x.serial .endReq (w.now + TxnRouter.bwDelay)) (e := .grant x)
      hh.port.one hx (fun _ => rfl) (by simp) (by simp) rfl rfl (by simp [Event.about]) rfl
      (fun _ => .inl) (by simp)
  · obtain rfl | he := TimedQueue.mem_insert.1 he
    · exact .inr ⟨rfl, hd⟩
    · exact .inl he

/-- The router answers, when all that it has answered before is acknowledged. -/
theorem beginResp (hh : Half c R s w t done) (hx : x ∈ requests (eventsOf t))
    (ha : x ∉ answers (eventsOf t)) (hacks : ∀ y ∈ answers (eventsOf t), y ∈ acks (eventsOf t))
    (hd : done ≤ w.now) (status : ResponseStatus) (reply : Reply) :
    ∃ w', backward w (.beginResp x status reply) = .ok w' ∧
      Half c R s w' (.beginResp x status reply :: t) done ∧ w'.now = w.now ∧
      .pec x.serial .beginResp ∉ w'.view.trace := by
  obtain ⟨a, d, r, hb⟩ := (hh.linked.begun x).1 hx
  have hP : Obeys c w.view (.nbTransportBw x.serial x.payload .beginResp TxnRouter.bwDelay) := by
    refine hh.port.obeys (by simp [Gem5Wrapper.Act.requests]) trivial trivial
      ⟨hh.begun hx, .inr ⟨rfl, fun hs => ha ?_⟩⟩ (fun e he htxn hp => ?_) ?_
    · exact TxnRouter.answers_of_phases (hh.phases_of_sent hx hs)
    · have hlater := hh.later e he hp x.payload s a d r (htxn ▸ hb)
      rw [if_pos rfl] at hlater
      show e.tick < w.now + TxnRouter.bwDelay
      omega
    · -- what was answered on the socket before
      intro b hbm b' hbm' hsock hbx _ hsent
      obtain ⟨t₁, a₁, d₁, r₁, h₁⟩ := mem_starts.1 hbm
      obtain ⟨t₂, a₂, d₂, r₂, h₂⟩ := mem_starts.1 hbm'
      obtain ⟨-, hs⟩ := hh.port.one.unique (hbx ▸ h₁) hb
      rw [← hsock, hs] at h₂
      have hy : (⟨b'.1, t₂⟩ : Transaction) ∈ requests (eventsOf t) :=
        (hh.linked.begun _).2 ⟨a₂, d₂, r₂, h₂⟩
      have hans := TxnRouter.answers_of_phases (hh.phases_of_sent hy hsent)
      obtain ⟨a₃, he⟩ := hh.linked.ended _ (hacks _ hans)
      exact ⟨_, he, by simp [Obs.ends]⟩
  refine ⟨_, rfl, hh.call (o := .bw x.serial .beginResp (w.now + TxnRouter.bwDelay)) hx hP rfl rfl
    ?_ (by simp) (fun k hk => ⟨if_neg hk, by simp⟩) rfl fun e he hp => ?_, rfl,
    fun hm => hh.not_pec hx ha ?_⟩
  · exact hh.linked.phase (o := .bw x.serial .beginResp (w.now + TxnRouter.bwDelay))
      (e := .answer x (reply.status = .accepted)) hh.port.one hx (fun _ => rfl) (by simp) (by simp)
      rfl rfl (by simp [Event.about]) rfl (fun _ => .inl) (by simp)
  · obtain rfl | he := TimedQueue.mem_insert.1 he
    · cases hp
    · exact .inl he
  · obtain hm | hm := List.mem_cons.1 hm
    · cases hm
    · exact hm

/-! ## Callbacks -/

/-- The port takes what a callback of router `s` shows. -/
theorem reacts {r : TxnRouter Transaction}
    (hh : Half c R s w r.trace (r.targetDoneEvent.getD w.now)) (hnow : r.now = w.now)
    (hr : r.Settled) (hr' : r'.Settled) (h : r.Reacts r') : ∃ l w', r'.trace = l ++ r.trace ∧
      backwards w l = .ok w' ∧ Half c R s w' r'.trace (r'.targetDoneEvent.getD w'.now) := by
  obtain ⟨w₀, st, hi⟩ := hr.protocol
  obtain ⟨w₁, st', hi'⟩ := hr'.protocol
  have hserves := hi.front.serves
  have hserves' : Serves w₁ st' (eventsOf r'.trace) := hi'.front.serves
  have hans : ∀ x, x ∉ grants r.events → x ∉ answers r.events := by
    intro x hg ha
    exact hg (hserves.starts_suffix.subset (hserves.finishes_suffix.subset
      (hserves.answers_suffix.subset ha)))
  -- END_REQ starts the wait for `target_done_event`
  have hle : ∀ w' : World, w'.now = w.now → TxnRouter.Granted r r' →
      r.targetDoneEvent.getD w.now ≤ w'.now + TxnRouter.bwDelay + 15000 := by
    intro w' hn hgr
    rw [hgr.1, hn, Nat.add_assoc]
    exact Nat.le_add_right ..
  cases h with
  | take x hq htr hd =>
    obtain ⟨hx, hg⟩ := hi.of_queued hq
    obtain ⟨w', hw, hh', hn⟩ := hh.acquire hx (hans x hg)
    refine ⟨[.acquire x], w', htr, hw, ?_⟩
    rw [htr, hd, hn]
    exact hh'
  | grant x hq htr hgr =>
    obtain ⟨hx, hg⟩ := hi.of_queued hq
    obtain ⟨w', hw, hh', hn⟩ := hh.acquire hx (hans x hg)
    obtain ⟨w'', hw', hh'', hn'⟩ := (hh'.mono (hle _ hn hgr)).endReq hx hg (hans x hg) le_rfl
    refine ⟨[.endReq x, .acquire x], w'', htr, ?_, ?_⟩
    · show backward w (.acquire x) >>= _ = _
      rw [hw]
      exact hw'
    · rw [htr, hgr.2, hnow, ← hn]
      exact hh''
  | close x htr hd =>
    refine ⟨[.ended x], w, htr, rfl, ?_⟩
    rw [htr, hd]
    exact hh.inner rfl
  | closeGrant x y hy htr hgr =>
    rw [htr] at hserves'
    obtain ⟨hx, hg⟩ := hserves'.of_grant
    have hended := hh.inner (show TxnRouter.Obs.inner (.ended x) = true from rfl)
    obtain ⟨w', hw, hh', hn⟩ := (hended.mono (hle _ rfl hgr)).endReq hx hg (hans y hg) le_rfl
    refine ⟨[.endReq y, .ended x], w', htr, hw, ?_⟩
    rw [htr, hgr.2, hnow]
    exact hh'
  | start x htr hd hd' =>
    refine ⟨[.execute x], w, htr, rfl, ?_⟩
    rw [hd, hnow] at hh
    rw [htr, hd']
    exact hh.inner rfl
  | answer x status status' htr hd hd' =>
    rw [htr] at hserves'
    obtain ⟨hg, ha, hcl⟩ := hserves'.of_answer
    have hx : x ∈ requests r.events := hserves.grants_suffix.subset hg
    have hacks : ∀ y ∈ answers r.events, y ∈ acks r.events := by
      intro y hy
      exact (hserves.acked hr.not_refused).1 y (hcl y hy)
    rw [hd] at hh
    have hexecuted := hh.inner (show TxnRouter.Obs.inner (.executed x status') = true from rfl)
    obtain ⟨w', hw, hh', hn, hp⟩ := hexecuted.beginResp hx ha hacks le_rfl status
      ⟨.accepted, .beginResp, TxnRouter.bwDelay⟩
    have hacq := hr.acquire_of_grants hg
    have hrel : .release x ∉ r.trace := fun hm => ha (hr.answers_of_release hm)
    obtain ⟨w'', hw', hh'', hn'⟩ := hh'.release hx hp (by simp [hacq]) (by simp [hrel])
    refine ⟨[.release x, .beginResp x status ⟨.accepted, .beginResp, TxnRouter.bwDelay⟩,
      .executed x status'], w'', htr, ?_, ?_⟩
    · show backward w (.beginResp x status ⟨.accepted, .beginResp, TxnRouter.bwDelay⟩) >>= _ = _
      rw [hw]
      exact hw'
    · rw [htr, hd', hn', hn]
      exact hh''

end Half

/-- A callback of router `s`. -/
theorem ClosedSystem.routerStep_ends {y : ClosedSystem} {a : TxnRouter.Act Transaction}
    (hok : y.port.Ok) (hj : Joint c y.port.view y.routers) (ha : a.Accepting) (s : ℕ) :
    Ends (fun y' => y'.port.Ok ∧ Joint c y'.port.view y'.routers) Fault.Outside
      (y.routerStep s a) := by
  have hr := (hj.settled s).at y.port.now (y.routers s).payloads
  refine ((TxnRouter.step_reacts hr ha).mono (fun _ _ h => h) fun f _ h => ?_).bind ?_
  · obtain ⟨what, rfl⟩ := h
    trivial
  · intro r' hs h
    obtain ⟨hreact, hkeep⟩ := h
    have hr' := hr.step ha hs
    have hh := Half.of_joint hok hj s
    obtain ⟨l, w', ht, hw, hh'⟩ := Half.reacts (r := { y.routers s with now := y.port.now }) hh rfl
      hr hr' hreact
    rw [show r'.trace = l ++ (y.routers s).trace from ht, newer_append, hw]
    refine ⟨hh'.ok, hh'.joint le_rfl ?_ ?_⟩
    · rw [Function.forall_update_iff y.routers fun _ r => r.Settled]
      exact ⟨hr', fun s' _ => hj.settled s'⟩
    · rw [Function.forall_update_iff y.routers fun s' r => ∀ a, r.toMem a = c.inMemory s' a]
      refine ⟨fun a => ?_, fun s' _ => hj.window s'⟩
      rw [← hj.window s a, TxnRouter.toMem, TxnRouter.toMem, hkeep.window.1, hkeep.window.2]

end Gem5Wrapper
