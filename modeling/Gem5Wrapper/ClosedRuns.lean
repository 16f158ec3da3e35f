import Mathlib.Algebra.BigOperators.Group.Finset.Basic
import Gem5Wrapper.ToPort

/-!
# Runs of the closed system

In every run of a slave port and the routers of its sockets, each transaction is executed once and
answered once, and what it has had is complete when the port releases it. No assertion of either
side fails.
-/

namespace Gem5Wrapper

open FaultMachine OneAtATime
open Function (update)
open History (Along)
open TxnRouter (eventsOf)

namespace ClosedSystem

/-! ## Steps -/

/-- What holds of the system between two acts. -/
structure Ok (c : Wiring) (y : ClosedSystem) : Prop where
  port : y.port.Ok
  joint : Joint c y.port.view y.routers

variable {c : Wiring} {y : ClosedSystem} {a : Act} {s k : ℕ} {t : Ptr} {x : Transaction}
  {l : List Obs} {e : List (Event Transaction)}

theorem Ok.takes (h : Ok c y) {r : Request} (hr : y.Routed r) : c.Takes r := by
  obtain ⟨hs, ha, hreply⟩ := hr
  have htarget : y.port.port.targetSocket = c.target := h.joint.port.target
  have hsockets : y.port.sockets = c.sockets := h.joint.port.sockets
  rw [htarget, hsockets] at hs
  rw [htarget, h.joint.window] at ha
  exact ⟨hs, ha, congrArg _ hreply, congrArg _ hreply⟩

/-- An act of the port. -/
theorem Ok.portStep_ends (h : Ok c y) {a : Gem5Wrapper.Act} (hr : ∀ r ∈ a.requests, y.Routed r)
    (hA : ResendsAccepted y.port.view a) (ha : a.OfGem5) :
    Ends (Ok c) Fault.Outside (y.portStep a) := by
  have hP : FromGem5 c y.port.view a := by
    refine ⟨h.joint.port.obeys (fun r hm => h.takes (hr r hm)) hA ?_ ?_ ?_ ?_, ha⟩ <;>
      cases a <;> trivial
  exact (ClosedSystem.portStep_ends h.port h.joint hP).mono (fun _ _ h => ⟨h.1, h.2⟩) fun _ _ => id

theorem Ok.routerStep_ends (h : Ok c y) {a : TxnRouter.Act Transaction} (ha : a.Accepting) (s : ℕ) :
    Ends (Ok c) Fault.Outside (y.routerStep s a) :=
  (ClosedSystem.routerStep_ends h.port h.joint ha s).mono (fun _ _ h => ⟨h.1, h.2⟩) fun _ _ => id

/-- Every act keeps the invariant of both sides. -/
theorem Ok.step_ends (h : Ok c y) (ha : y.Obeyed a) : Ends (Ok c) Fault.Outside (y.step a) := by
  obtain ⟨hr, hA⟩ := ha
  cases a with
  | recvTimingReq r => exact h.portStep_ends hr trivial trivial
  | service o => exact h.portStep_ends hr trivial trivial
  | recvRespRetry answers => exact h.portStep_ends hr hA trivial
  | peqCb s i => exact h.routerStep_ends (a := .peqCb i TxnRouter.acceptingCb) rfl s
  | targetDone s => exact h.routerStep_ends (a := .targetDone) trivial s
  | memoryDone s status =>
    exact h.routerStep_ends (a := .memoryDone _ (TxnRouter.accepting .beginResp)) rfl s
  | advance d => exact .check (fun _ => trivial) fun _ => h.portStep_ends hr trivial trivial

/-! ## Runs -/

/-- Routers on which nothing has happened yet. -/
def New (R : ℕ → TxnRouter Transaction) : Prop :=
  ∀ s, ∃ name memStartAddr memSize payloads, R s = .new name memStartAddr memSize payloads

variable {q : SCSlavePort} {R : ℕ → TxnRouter Transaction}

theorem ok_start (hq : q.Bound) (hcache : q.usingGem5Cache = false)
    (hknown : (World.start q).sockets ≤ q.helper.socketNum) (hR : New R) :
    Ok ⟨q.targetSocket, (World.start q).sockets, fun s a => (R s).toMem a⟩ (start q R) := by
  refine ⟨World.ok_start hq, .of_initial (World.initial_start hq) hcache rfl rfl hknown,
    fun s => ?_, fun _ _ => rfl, fun s => ?_, fun e he => ?_⟩
  · obtain ⟨_, _, _, _, hs⟩ := hR s
    show (R s).Settled
    rw [hs]
    exact TxnRouter.settled_new ..
  · obtain ⟨_, _, _, _, hs⟩ := hR s
    show Linked [] s (R s).trace
    rw [hs]
    exact .nil s
  · cases he

theorem ok_of_run (hq : q.Bound) (hcache : q.usingGem5Cache = false)
    (hknown : (World.start q).sockets ≤ q.helper.socketNum) (hR : New R)
    (h : Run step Obeyed (start q R) y) :
    Ok ⟨q.targetSocket, (World.start q).sockets, fun s a => (R s).toMem a⟩ y :=
  h.invariant (ok_start hq hcache hknown hR) fun _ _ _ hi ha hs => (hi.step_ends ha).of_eq_ok hs

/-! ## What a transaction has had -/

/-- The router calls its memory for transaction `k`. -/
def executes (k : ℕ) : TxnRouter.Obs Transaction → Bool
  | .execute x => x.serial = k
  | _ => false

/-- How often the routers have called their memories for transaction `k`. -/
def executions (y : ClosedSystem) (k : ℕ) : ℕ :=
  ∑ s ∈ Finset.range y.port.sockets, (y.routers s).trace.countP (executes k)

/-- gem5 accepts the response to transaction `k`. -/
def accepts (k : ℕ) : Obs → Bool
  | .resp k' _ accepted => k' = k ∧ accepted
  | _ => false

/-- The phases of a transaction that has ended, newest first. -/
def allPhases : List Phase := [.endResp, .beginResp, .endReq, .beginReq]

/-- What transaction `k` has had by socket `s`, when the port has come to the history `l`. -/
structure Complete (y : ClosedSystem) (k : ℕ) (t : Ptr) (l : List Obs) (s : ℕ) : Prop where
  socket : s < y.port.sockets
  begun : ∃ a d r, .beginReq k t s a d r ∈ l
  ended : ∃ a, .endResp k t s a ∈ l
  phases : phases k l = allPhases
  router : TxnRouter.phases ⟨k, t⟩ (y.routers s).events = allPhases
  others : ∀ s' ≠ s, ∀ x, x.serial = k → TxnRouter.phases x (y.routers s').events = []
  executed : y.executions k = 1
  responses : ∃ p needs, .allocate k t p needs ∈ l ∧ l.countP (accepts k) = if needs then 1 else 0

/-- The laws of a closed system. -/
structure Laws (y : ClosedSystem) : Prop where
  executedOnce : ∀ k, y.executions k ≤ 1
  answeredOnce : ∀ k, y.port.trace.countP (accepts k) ≤ 1
  /-- What the port releases is complete at that moment. -/
  released : ∀ k t l, .release k t :: l <:+ y.port.trace → ∃ s, y.Complete k t l s
  faults : ∀ a f, y.Obeyed a → y.step a = .error f → f.Outside

/-! ## Executions -/

theorem countP_executes (r : TxnRouter Transaction) (k : ℕ) : r.trace.countP (executes k) =
    (OneAtATime.starts r.events).countP fun x => x.serial = k := by
  rw [TxnRouter.events, OneAtATime.starts, List.countP_filterMap, List.countP_filterMap]
  congr 1
  funext o
  cases o <;> rfl

theorem Ok.executions_eq (h : Ok c y) (hx : x ∈ requests (y.routers s).events) :
    y.executions x.serial = (OneAtATime.starts (y.routers s).events).count x := by
  have hstarts : ∀ s',
      OneAtATime.starts (y.routers s').events ⊆ requests (y.routers s').events := by
    intro s'
    obtain ⟨w, st, hi⟩ := (h.joint.settled s').protocol
    exact (TxnRouter.historyLaws_of_serves hi.front.serves).executions.subset
  have heq : ∀ s', ∀ z ∈ OneAtATime.starts (y.routers s').events, z.serial = x.serial →
      z = x ∧ s' = s := by
    intro s' z hz hzx
    exact (h.joint.linked s).eq_of_serial (h.joint.linked s') h.joint.port.one hx
      (hstarts s' hz) hzx
  obtain ⟨a, d, r, hb⟩ := ((h.joint.linked s).begun x).1 hx
  have hs : s < y.port.sockets := by
    have hsockets : y.port.sockets = c.sockets := h.joint.port.sockets
    exact hsockets ▸ (h.joint.port.addressed _ _ _ _ _ _ hb).1
  unfold executions
  rw [Finset.sum_eq_single s]
  · rw [countP_executes, List.count_eq_countP]
    refine List.countP_congr fun z hz => ?_
    simp only [decide_eq_true_eq, beq_iff_eq]
    exact ⟨fun hzx => (heq s z hz hzx).1, fun hzx => congrArg _ hzx⟩
  · intro s' _ hne
    rw [countP_executes, List.countP_eq_zero]
    intro z hz hzx
    exact hne (heq s' z hz (of_decide_eq_true hzx)).2
  · exact fun hn => absurd (Finset.mem_range.2 hs) hn

theorem Ok.executions_le_one (h : Ok c y) (k : ℕ) : y.executions k ≤ 1 := by
  by_cases hk : ∃ s, ∃ x ∈ requests (y.routers s).events, x.serial = k
  · obtain ⟨s, x, hx, rfl⟩ := hk
    obtain ⟨w, st, hi⟩ := (h.joint.settled s).protocol
    rw [h.executions_eq hx]
    exact List.nodup_iff_count_le_one.1
      (TxnRouter.historyLaws_of_serves hi.front.serves).executedOnce x
  · have hzero : y.executions k = 0 := by
      refine Finset.sum_eq_zero fun s _ => ?_
      rw [countP_executes, List.countP_eq_zero]
      intro x hx hxk
      obtain ⟨w, st, hi⟩ := (h.joint.settled s).protocol
      exact hk ⟨s, x, (TxnRouter.historyLaws_of_serves hi.front.serves).executions.subset hx,
        of_decide_eq_true hxk⟩
    exact hzero ▸ Nat.zero_le 1

/-! ## Complete transactions -/

theorem countP_accepts_le_one (h : AcceptedOnce l) (k : ℕ) : l.countP (accepts k) ≤ 1 := by
  refine Along.countP_le_one h fun o l ho hl o' ho' => ?_
  cases o with
  | resp j p accepted =>
    obtain ⟨rfl, rfl⟩ : j = k ∧ accepted = true := by simpa [accepts] using ho
    cases o' with
    | resp j' p' accepted' =>
      by_contra hn
      obtain ⟨rfl, rfl⟩ : j' = j ∧ accepted' = true := by simpa [accepts] using hn
      exact hl p' ho'
    | _ => rfl
  | _ => cases ho

theorem eq_allPhases {p : List Phase} (hs : p <:+ allPhases) (hp : .endResp ∈ p) :
    p = allPhases := by
  obtain h | h := List.suffix_cons_iff.1 hs
  · exact h
  · exact absurd (h.subset hp) (by decide)

/-- gem5 has accepted one response by the release, if the packet needs one. -/
theorem Ok.responses (h : Ok c y) (hl : .release k t :: l <:+ y.port.view.trace) :
    ∃ p needs, .allocate k t p needs ∈ l ∧
      l.countP (accepts k) = if needs then 1 else 0 := by
  have hi := h.joint.port
  have hsuf : l <:+ y.port.view.trace := (List.suffix_cons ..).trans hl
  obtain ⟨⟨-, p, needs, ha⟩, -⟩ := Along.of_suffix hi.tracking.ledger hl
  refine ⟨p, needs, ha, ?_⟩
  cases needs with
  | false =>
    refine List.countP_eq_zero.2 fun o ho hacc => ?_
    cases o <;> simp [accepts] at hacc
    obtain ⟨rfl, -⟩ := hacc
    exact hi.silent.none _ ⟨t, p, hsuf.subset ha⟩ ⟨_, _, hsuf.subset ho⟩
  | true =>
    have hresp := (Along.of_suffix hi.answering.first hl).1 t p ha
    refine le_antisymm ?_ (List.countP_pos_iff.2 ⟨_, hresp, by simp [accepts]⟩)
    exact countP_accepts_le_one (Along.of_suffix hi.accepting.once hsuf) k

/-- A transaction is complete when it is released. -/
theorem Ok.complete (h : Ok c y) (hl : .release k t :: l <:+ y.port.trace) :
    ∃ s, y.Complete k t l s := by
  rw [← World.trace_view] at hl
  have hi := h.joint.port
  have hsuf : l <:+ y.port.view.trace := (List.suffix_cons ..).trans hl
  obtain ⟨⟨s, a, he⟩, -⟩ := Along.of_suffix hi.ended hl
  obtain ⟨l', hl', -, d, r, hb⟩ := (Along.of_suffix hi.returned hsuf).of_mem he
  have hb : .beginReq k t s a d r ∈ l := hl'.subset (List.mem_cons_of_mem _ hb)
  have hlinked := h.joint.linked s
  have hx : (⟨k, t⟩ : Transaction) ∈ requests (y.routers s).events :=
    (hlinked.begun _).2 ⟨a, d, r, hsuf.subset hb⟩
  have hsame : TxnRouter.phases ⟨k, t⟩ (y.routers s).events = phases k y.port.view.trace :=
    hlinked.same _ hx
  have hphases : phases k l <:+ phases k y.port.view.trace := hsuf.filterMap _
  have hend : .endResp ∈ phases k l := List.mem_filterMap.2 ⟨_, he, if_pos rfl⟩
  obtain ⟨w, st, hp⟩ := (h.joint.settled s).protocol
  have hrouter : TxnRouter.phases ⟨k, t⟩ (y.routers s).events = allPhases := by
    have hack := TxnRouter.acks_of_phases (hsame ▸ hphases.subset hend)
    rw [TxnRouter.phases, hp.front.serves.courses.acked _ hack]
    rfl
  have hans := TxnRouter.answers_of_phases (x := ⟨k, t⟩) (l := (y.routers s).events)
    (hrouter ▸ by decide)
  have hsockets : y.port.sockets = c.sockets := hi.sockets
  refine ⟨s, ⟨?_, ⟨a, d, r, hb⟩, ⟨a, he⟩, ?_, hrouter, fun s' hne x hxk => ?_, ?_,
    h.responses hl⟩⟩
  · exact hsockets ▸ (hi.addressed _ _ _ _ _ _ (hsuf.subset hb)).1
  · rw [hsame] at hrouter
    exact eq_allPhases (hrouter ▸ hphases) hend
  · obtain ⟨w', st', hp'⟩ := (h.joint.settled s').protocol
    have hnew : x ∉ requests (y.routers s').events := fun hm =>
      hne (hlinked.eq_of_serial (h.joint.linked s') hi.one hx hm hxk).2
    rw [TxnRouter.phases, hp'.front.serves.courses.new x hnew]
    rfl
  · rw [h.executions_eq hx]
    exact ((TxnRouter.historyLaws_of_serves hp.front.serves).answered _ hans).2.1

/-! ## The laws -/

/-- **Every run of a closed system obeys its laws**: a port without gem5 caches, whose helper knows
the sockets of its transactor, and a router at each socket. -/
theorem closedLaws_of_run (hq : q.Bound) (hcache : q.usingGem5Cache = false)
    (hknown : (World.start q).sockets ≤ q.helper.socketNum) (hR : New R)
    (h : Run step Obeyed (start q R) y) : y.Laws := by
  have hok := ok_of_run hq hcache hknown hR h
  refine ⟨hok.executions_le_one, fun k => ?_, fun k t l hl => hok.complete hl, fun a f ha hf => ?_⟩
  · rw [← World.trace_view]
    exact countP_accepts_le_one hok.joint.port.accepting.once k
  · exact (hok.step_ends ha).of_eq_error hf

/-- Routers with memory from address 0 to 4096. -/
def smallRouters (_ : ℕ) : TxnRouter Transaction := .new "router" 0 4096 fun _ => {}

/-- A read for each of two sockets. gem5 refuses the response to the second, and asks for it when it
has taken the response to the first. -/
theorem closedLaws_twoReads : ∃ y : ClosedSystem, .release 0 0 ∈ y.port.trace ∧
    .release 1 1 ∈ y.port.trace ∧ .resp 1 1 false ∈ y.port.trace ∧ y.Laws := by
  have hexec : (exec step Obeyed (start twoSocketPort smallRouters)
      [.recvTimingReq (readRequest 0), .peqCb 0 0, .recvTimingReq (secondReadRequest 1), .peqCb 1 0,
        .advance 10000, .service {}, .service {}, .advance 15000, .targetDone 0, .targetDone 1,
        .memoryDone 0 .ok, .memoryDone 1 .ok, .advance 10000,
        .service { resp := { accept := false } }, .service {}, .recvRespRetry [{}], .peqCb 0 0,
        .peqCb 1 0]).map (fun y => decide (.release 0 0 ∈ y.port.trace ∧
          .release 1 1 ∈ y.port.trace ∧ .resp 1 1 false ∈ y.port.trace)) = some true := by decide
  obtain ⟨y, hr, hy⟩ := exists_run_of_exec hexec
  obtain ⟨h₁, h₂, h₃⟩ := of_decide_eq_true hy
  exact ⟨y, h₁, h₂, h₃, closedLaws_of_run bound_twoSocketPort rfl (by decide)
    (fun _ => ⟨_, _, _, _, rfl⟩) hr⟩

end ClosedSystem

end Gem5Wrapper
