import Gem5Wrapper.PipeMaster

/-!
# Pipe through is transparent

Each act of a chain keeps `Inv` (`Inv.step_act`), so that it holds along every run. Its law is that
of pipe through (`transparent_of_run`). It also says that the assertion after the `dynamic_cast` in
`recvTimingResp` never fails: the cast looks at the type only, but on top lies the sender state that
the port itself has pushed.
-/

namespace Gem5Wrapper

open FaultMachine History

namespace Chain

variable {c c' : Chain} {k length : ℕ} {p : PacketPtr} {ports : ℕ → SCSlavePort}

/-! ## Runs -/

theorem Inv.step_gem5Act {a : Gem5Act} (hi : c.Inv) (h : c.stepGem5 k a = .ok c') : c'.Inv := by
  cases a with
  | prepare p pkt stack => exact hi.prepare h
  | push p tag => exact hi.pushState h
  | pop p => exact hi.popState h
  | makeResponse p => exact hi.respondTo h
  | annotate p pkt => exact hi.annotate h
  | consume p => exact hi.consume h

theorem Inv.step_hopAct {a : HopAct} (hi : c.Inv) (hk : k < c.length) (h : c.stepHop k a = .ok c') :
    c'.Inv := by
  cases a with
  | recvTimingReq p reply => exact hi.recvTimingReq hk h
  | pec => exact hi.pec hk h
  | pecResponse accept => exact hi.pecResponse hk h
  | recvRespRetry accept => exact hi.recvRespRetry hk h
  | responded => exact hi.responded hk h
  | nbTransportBw x ph delay => exact hi.nbTransportBw hk h
  | nbTransportFw x ph delay => exact hi.nbTransportFw hk h
  | peqCb i accept => exact hi.peqCb hk h
  | requested status => exact hi.requested hk h
  | recvReqRetry accept => exact hi.recvReqRetry hk h
  | recvTimingResp p reply => exact hi.recvTimingResp hk h
  | retried => exact hi.retried hk h
  | acquire x => exact hi.acquire hk h
  | release x => exact hi.release hk h

theorem Inv.step_act {a : Act} (hi : c.Inv) (h : c.step a = .ok c') : c'.Inv := by
  cases a with
  | gem5 k a => exact hi.step_gem5Act h
  | hop k a =>
    simp only [Chain.step, bind_eq_ok, check_eq_ok] at h
    obtain ⟨-, hk, h⟩ := h
    exact hi.step_hopAct hk h
  | advance d =>
    simp only [Chain.step, bind_eq_ok, check_eq_ok, pure_eq_ok, Except.ok.injEq] at h
    obtain ⟨-, -, rfl⟩ := h
    exact hi.advance

/-- All packets are in world 0, and no port knows of any. -/
theorem inv_start (hports : ∀ k < length, (ports k).Bound) : (start length ports).Inv := by
  constructor
  · intro p
    exact journey_of_gem5 rfl (.base _)
  · intro k hk
    have hinit := World.initial_start (hports k hk)
    refine ⟨(World.ok_start (hports k hk)).port, ?_, .nil, ?_, ?_, ?_, ?_⟩
    · simp [start, PayloadEvent.responses]
    · simp [start]
    · simp [start]
    · simp [start]
    · intro s x hx
      rw [show (start length ports).hops k = { slave := ports k } from rfl] at hx
      rw [show (ports k).slots.response = fun _ => none from hinit.response] at hx
      cases hx
  · intro k _
    refine ⟨?_, .nil, ?_, ?_⟩ <;> simp [start, PeqEvent.queued]
  · constructor
    · constructor <;> simp [start, world, World.view, World.viewAt]
    · intro x
      exact Nat.zero_le _
  · intro p hp
    cases hp
  · trivial

theorem inv_of_run (hports : ∀ k < length, (ports k).Bound)
    (h : Run Chain.step (fun _ _ => True) (start length ports) c) : c.Inv :=
  h.invariant (inv_start hports) fun _ _ _ hi _ hs => hi.step_act hs

/-! ## Transparency -/

/-- A component of world `k + 1` may send the packet as a response to master port `k`. -/
structure Arriving (c : Chain) (k : ℕ) (p : PacketPtr) : Prop where
  holder : c.holder p = .gem5 (k + 1)
  guest : c.home p ≠ k + 1
  isResponse : (c.packets p).cmd.isResponse = true
  popped : c.pushed p (k + 1) = 0

/-- **Pipe through is transparent**, for ports that are bound when the simulation starts. -/
theorem transparent_of_run (hports : ∀ k < length, (ports k).Bound)
    (h : Run Chain.step (fun _ _ => True) (start length ports) c) :
    Along Transparent c.trace ∧ ∀ k p, c.Arriving k p → ∀ taken,
      Transparent (.arrived k p (c.senderStates p) taken) c.trace := by
  have hi := inv_of_run hports h
  refine ⟨hi.law, fun k p ha => ?_⟩
  obtain ⟨_, _, _, _, _, _, _, htop⟩ := hi.arrives ha.holder ha.guest ha.isResponse ha.popped
  exact htop

theorem sendBeginResp_eq_error {x : Ptr} {reply : Reply} {f : Fault}
    (h : c.sendBeginResp k x p reply = .error f) :
    f = .panic "Unexpected status after sending BEGIN_RESP" ∨
      f = .scAssert "tlm_generic_payload::release" "m_mm != 0 && m_ref_count > 0" := by
  simp only [Chain.sendBeginResp, bind_eq_error, check_eq_error] at h
  obtain ⟨-, rfl⟩ | ⟨-, -, hw | ⟨w, -, hf⟩⟩ := h
  · exact .inl rfl
  · exact .inr (World.release_eq_error hw)
  · cases hf

/-- The `dynamic_cast` in `recvTimingResp` finds a `TlmSenderState`. -/
theorem tlmSenderState_of_run (hports : ∀ k < length, (ports k).Bound)
    (h : Run Chain.step (fun _ _ => True) (start length ports) c) (k : ℕ) (p : PacketPtr)
    (reply : Reply) : c.recvTimingResp k p reply ≠
      .error (.scAssert "SCMasterPort::recvTimingResp" "tlmSenderState != nullptr") := by
  intro hf
  simp only [Chain.recvTimingResp, bind_eq_error, check_eq_error, check_eq_ok] at hf
  obtain ⟨-, hf⟩ | ⟨-, ⟨hh, hhome⟩, ⟨-, hf⟩ | ⟨-, hr, ⟨-, hf⟩ | ⟨-, hpushed, hf⟩⟩⟩ := hf
  · cases hf
  · cases hf
  · cases hf
  obtain ⟨x, n, l, hs, -⟩ := (inv_of_run hports h).arrives hh hhome hr hpushed
  rw [hs] at hf
  split_ifs at hf with hbusy
  · simp at hf
  · simp only [bind_eq_error, check_eq_error] at hf
    obtain ⟨-, hf⟩ | ⟨-, -, hf⟩ := hf
    · simp at hf
    · -- what faults is `sendBeginResp`
      obtain hf | hf := sendBeginResp_eq_error hf <;> simp at hf

/-! A packet goes through two hops. gem5 refuses it as a request and as a response; while it is
away, another packet goes after it. -/

def passedOn : Reply := ⟨.accepted, .beginReq, 0⟩

def answered : Reply := ⟨.accepted, .beginResp, 0⟩

def roundTrip : List Act :=
  [.gem5 0 (.prepare 0 (readRequest 0).content [.component 0 9]),
    .hop 0 (.recvTimingReq 0 passedOn), .hop 0 (.nbTransportFw 0 .beginReq 0),
    .hop 0 (.peqCb 0 false), .hop 0 (.requested .accepted), .hop 0 (.recvReqRetry true),
    .hop 0 (.requested .accepted), .hop 0 (.nbTransportBw 0 .endReq 0), .hop 0 .pec,
    .gem5 0 (.prepare 1 (readRequest 1).content []), .hop 0 (.recvTimingReq 1 passedOn),
    .gem5 1 (.push 0 3), .hop 1 (.recvTimingReq 0 passedOn), .hop 1 (.nbTransportFw 2 .beginReq 0),
    .hop 1 (.peqCb 0 true), .hop 1 (.requested .accepted), .gem5 2 (.makeResponse 0),
    .hop 1 (.recvTimingResp 0 answered), .hop 1 (.nbTransportBw 2 .beginResp 0), .hop 1 .pec,
    .hop 1 (.pecResponse true), .hop 1 .responded, .gem5 1 (.pop 0),
    .hop 0 (.recvTimingResp 0 answered), .hop 0 (.nbTransportBw 0 .beginResp 0), .hop 0 .pec,
    .hop 0 (.pecResponse false), .hop 0 .responded, .hop 0 (.recvRespRetry true),
    .hop 0 .responded]

theorem transparent_twoHops : ∃ c : Chain, .resp 0 0 0 0 [.component 0 9] true ∈ c.trace ∧
    Along Transparent c.trace ∧ ∀ k p, c.Arriving k p → ∀ taken,
      Transparent (.arrived k p (c.senderStates p) taken) c.trace := by
  have hexec : (exec Chain.step (fun _ _ => True) (start 2 fun _ => oneSocketPort) roundTrip).map
      (fun c => decide (.resp 0 0 0 0 [.component 0 9] true ∈ c.trace)) = some true := by
    decide +kernel
  obtain ⟨c, hr, hc⟩ := exists_run_of_exec hexec
  exact ⟨c, of_decide_eq_true hc, transparent_of_run (fun _ _ => bound_oneSocketPort) hr⟩

end Chain

end Gem5Wrapper
