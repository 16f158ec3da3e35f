import Gem5Wrapper.PortSystem

/-!
# The two `bindToTransactor`

A port bound to a single-socket transactor runs the same code as one bound to a multi-socket
transactor, but only the bind of the latter sets up the `BlockingPacketHelper`. So
`isBlockedPort` faults on the first timing request (`isBlockedPort_faults`), whatever value the
uninitialised `socket_num` has, and the two ports agree as long as no request is made.

Before the first request nothing is in use, and an act that does not fault hardly reads the
port (`Unused.step`).
-/

namespace Gem5Wrapper

open FaultMachine

namespace SCSlavePort

/-- A port just bound to a single-socket transactor. -/
def BoundSingle (s : SCSlavePort) : Prop :=
  ∃ p transactor, Unbound p ∧ p.bindToTransactor transactor = .ok s

/-- One socket, and one core in the core map. -/
structure OneCore (q : SCSlavePort) : Prop where
  socket : q.transactorMulti.map SlaveTransactorMulti.socketNum = some 1
  core : q.cpuPortMap.size = 1

/-- No transaction waits at the port. -/
structure Idle (p : SCSlavePort) : Prop where
  blockingRequest : p.blockingRequest = none
  blockingResponse : p.blockingResponse = none
  isBlockingTrans : ∀ t, p.helper.isBlockingTrans t .request = false
  getBlockingResponse : p.helper.getBlockingResponse = none

/-- What a single-socket bind leaves uninitialised or empty. -/
structure Unprepared (s : SCSlavePort) : Prop where
  blockingRequest : s.blockingRequest = none
  blockingResponse : s.blockingResponse = none
  needToSendRequestRetry : s.needToSendRequestRetry = false
  helper : ∃ n, s.helper = { socketNum := n }

variable {s q : SCSlavePort}

theorem BoundSingle.unprepared (h : s.BoundSingle) : s.Unprepared := by
  obtain ⟨p, t, hp, hs⟩ := h
  simp only [bindToTransactor, bind_eq_ok, pure_eq_ok, Except.ok.injEq] at hs
  obtain ⟨-, -, rfl⟩ := hs
  obtain ⟨-, hreq, hretry, hresp, -, hn⟩ := hp.fields
  exact ⟨hreq, hresp, hretry, hn⟩

theorem Unprepared.idle (h : s.Unprepared) : s.Idle := by
  obtain ⟨n, hn⟩ := h.helper
  refine ⟨h.blockingRequest, h.blockingResponse, fun t => ?_, ?_⟩
  · rw [hn]
    rfl
  · rw [hn]
    rfl

theorem Bound.idle (h : q.Bound) : q.Idle := by
  obtain ⟨p, tr, hp, hq⟩ := h
  have hf := fresh_of_bind hp hq
  refine ⟨hf.blockingRequest, hf.blockingResponse, fun t => ?_, ?_⟩
  · refine Bool.eq_false_iff.2 fun ht => ?_
    obtain ⟨i, hi⟩ := BlockingPacketHelper.isBlockingTrans_iff.1 ht
    rw [hf.request] at hi
    cases hi
  · exact BlockingPacketHelper.getBlockingResponse_eq_none_iff.2 fun i => congrFun hf.response i

/-- With the maps empty, no value of `socket_num` lets a request through. -/
theorem Unprepared.isBlockedPort_faults (h : s.Unprepared) (socketId : ℕ) :
    ∃ f, s.helper.isBlockedPort socketId .request = .error f := by
  obtain ⟨n, hn⟩ := h.helper
  rw [hn]
  by_cases hlt : socketId < n
  · refine ⟨.fatal "SCSlavePort" "Invaild blocking request", ?_⟩
    simp [BlockingPacketHelper.isBlockedPort, BlockingPacketHelper.getBlockingTrans, check_pos hlt,
      BlockingPacketHelper.blockingMap]
  · refine ⟨.assert "BlockingPacketHelper::getBlockingTrans" "core_id < this->socket_num", ?_⟩
    simp [BlockingPacketHelper.isBlockedPort, BlockingPacketHelper.getBlockingTrans, hlt]

end SCSlavePort

/-! ## Before the first request -/

namespace World

/-- No transaction has been made. -/
structure Unused (w : World) : Prop where
  port : w.port.Idle
  payloads : ∀ t, w.payloads t = {}

/-- The same world with another port, and a log of its own. -/
def rebound (w : World) (s : SCSlavePort) (l : List Entry) : World := { w with port := s, log := l }

variable {w w' : World} {s : SCSlavePort} {l : List Entry}

/-- `pec` returns only for a phase that it does not look at. -/
theorem Unused.pec (hw : w.Unused) {e : PayloadEvent} {o : PecAnswers} (h : w.pec e o = .ok w') :
    e.p ≠ .endReq ∧ e.p ≠ .beginResp ∧ w' = w.emit (.pec e.txn e.p) := by
  have hp := hw.port
  have hreq : ∀ t, w.port.blockingRequest ≠ some t := fun t => by simp [hp.blockingRequest]
  simp only [World.pec, bind_eq_ok] at h
  obtain ⟨w₁, h₁, h₂⟩ := h
  have hne : e.p ≠ .endReq := by
    intro he
    simp [pecRequest, emit, he, hreq, hp.isBlockingTrans] at h₁
  have hw₁ : w₁ = w.emit (.pec e.txn e.p) := by
    simpa [pecRequest, emit, hne, hreq, hp.isBlockingTrans, eq_comm] using h₁
  subst hw₁
  have hne' : e.p ≠ .beginResp := by
    intro he
    simp [pecResponse, emit, he, getExtension, hw.payloads] at h₂
  exact ⟨hne, hne', by simpa [pecResponse, hne', eq_comm] using h₂⟩

theorem pec_of_ignored {e : PayloadEvent} {o : PecAnswers} (h₁ : e.p ≠ .endReq)
    (h₂ : e.p ≠ .beginResp) : w.pec e o = .ok (w.emit (.pec e.txn e.p)) := by
  simp [World.pec, pecRequest, pecResponse, h₁, h₂]

/-- Nothing is sent again. -/
theorem Unused.recvRespRetry (hw : w.Unused) (hc : w.curTick = w.now) (answers : List RespAnswer) :
    w.recvRespRetry answers = .ok (w.emit .respRetry) := by
  have htake : (w.emit .respRetry).takeResponse = .ok none := by
    simp [takeResponse, emit, hw.port.blockingResponse, hw.port.getBlockingResponse]
  simp only [World.recvRespRetry, caughtUp, check_pos hc, ok_bind]
  cases answers <;> simp [respRetryLoop, htake]

/-- An act other than a request does the same with any port that is idle. -/
theorem Unused.step (hw : w.Unused) (hs : s.Idle) (hl : l.map Entry.obs = w.trace) {a : Act}
    (ha : ∀ r, a ≠ .recvTimingReq r) (h : w.step a = .ok w') :
    w'.Unused ∧ ∃ l', l'.map Entry.obs = w'.trace ∧
      (w.rebound s l).step a = .ok (w'.rebound s l') := by
  cases a with
  | recvTimingReq r => exact absurd rfl (ha r)
  | service o =>
    simp only [World.step] at h ⊢
    cases hev : w.events with
    | nil => simp [hev] at h
    | cons e q =>
      simp only [hev, bind_eq_ok, check_eq_ok] at h
      obtain ⟨-, hdue, h⟩ := h
      have hu : ({ w.catchup with events := q } : World).Unused := ⟨hw.port, hw.payloads⟩
      obtain ⟨h₁, h₂, rfl⟩ := hu.pec h
      refine ⟨⟨hw.port, hw.payloads⟩, ⟨.pec e.txn e.p, s, q⟩ :: l, ?_, ?_⟩
      · simp [emit, trace, catchup, hl]
      · simp only [rebound, hev, check_pos hdue, ok_bind]
        exact pec_of_ignored h₁ h₂
  | recvRespRetry answers =>
    have hu : w.catchup.Unused := ⟨hw.port, hw.payloads⟩
    rw [World.step, hu.recvRespRetry rfl] at h
    cases h
    refine ⟨⟨hw.port, hw.payloads⟩, ⟨.respRetry, s, w.events⟩ :: l, ?_, ?_⟩
    · simp [emit, trace, catchup, hl]
    · have hu' : (w.rebound s l).catchup.Unused := ⟨hs, hw.payloads⟩
      exact hu'.recvRespRetry rfl answers
  | nbTransportBw k t ph d =>
    cases h
    refine ⟨⟨hw.port, hw.payloads⟩, ⟨.bw k ph (w.now + d), s, w.events⟩ :: l, ?_, rfl⟩
    simp [nbTransportBw, notify, emit, trace, hl]
  | targetAcquire k t => simp [World.step, acquire, emit, hw.payloads] at h
  | targetRelease k t => simp [World.step, release, emit, hw.payloads] at h
  | downstreamResponse p =>
    simp only [World.step, bind_eq_ok, check_eq_ok, pure_eq_ok, Except.ok.injEq] at h
    obtain ⟨-, hp, rfl⟩ := h
    exact ⟨⟨hw.port, hw.payloads⟩, l, hl, bind_eq_ok.2 ⟨⟨⟩, check_pos hp, rfl⟩⟩
  | advance d =>
    simp only [World.step, bind_eq_ok, check_eq_ok, pure_eq_ok, Except.ok.injEq] at h
    obtain ⟨-, hd, rfl⟩ := h
    exact ⟨⟨hw.port, hw.payloads⟩, l, hl, bind_eq_ok.2 ⟨⟨⟩, check_pos hd, rfl⟩⟩

/-- A request that the port answers, with whatever it does, faults in a port whose helper was not
set up. -/
theorem Unused.request_faults (hw : w.Unused) (hs : s.Unprepared) {r : Request}
    (h : w.step (.recvTimingReq r) = .ok w') :
    ∃ f, (w.rebound s l).step (.recvTimingReq r) = .error f := by
  simp only [World.step, gem5Request, bind_eq_ok, check_eq_ok] at h
  obtain ⟨⟨b, w₁⟩, ⟨-, hresp, -, hfl, h⟩, -⟩ := h
  simp only [recvTimingReq, bind_eq_ok, check_eq_ok] at h
  obtain ⟨-, -, -, hcr, -, hrw, -⟩ := h
  have hfl' : (w.rebound s l).catchup.inFlight r.packet = false := by
    simp [inFlight, rebound, catchup, hw.payloads]
  obtain ⟨f, hf⟩ := hs.isBlockedPort_faults (s.targetSocket r.content)
  have hreq : ((w.rebound s l).catchup.setPacket r.packet r.content).recvTimingReq r.packet
      r.reply = .error f := by
    simp only [setPacket, Function.update_self] at hcr hrw
    simp only [recvTimingReq, caughtUp, catchup, rebound, setPacket, Function.update_self, hs.1,
      hs.3, check_pos hcr, check_pos hrw, check_pos, ok_bind]
    simp [hf]
  refine ⟨f, ?_⟩
  simp only [World.step, gem5Request, check_pos hresp, check_pos hfl', ok_bind, hreq]
  rfl

/-- A run of one port, followed with the other one. -/
theorem Unused.run (hw : w.Unused) (hs : s.Unprepared) (hl : l.map Entry.obs = w.trace)
    {acts : List Act} (h : acts.foldlM World.step w = .ok w') :
    (∃ u, acts.foldlM World.step (w.rebound s l) = .ok u ∧ u.trace = w'.trace) ↔
      ∀ r, .recvTimingReq r ∉ acts := by
  induction acts generalizing w l with
  | nil =>
    cases h
    exact iff_of_true ⟨_, rfl, hl⟩ (by simp)
  | cons a acts ih =>
    simp only [List.foldlM_cons, bind_eq_ok] at h ⊢
    obtain ⟨w₁, h₁, h⟩ := h
    by_cases ha : ∀ r, a ≠ .recvTimingReq r
    · obtain ⟨hw₁, l₁, hl₁, hs₁⟩ := hw.step hs.idle hl ha h₁
      simp only [hs₁, Except.ok.injEq, exists_eq_left', ih hw₁ hl₁ h]
      exact forall_congr' fun r => by simp [Ne.symm (ha r)]
    · push Not at ha
      obtain ⟨r, rfl⟩ := ha
      obtain ⟨f, hf⟩ := hw.request_faults (l := l) hs h₁
      exact iff_of_false (by simp [hf]) fun hn => hn r (by simp)

end World

/-! ## Agreement -/

/-- The single-socket port goes through the acts as well, and shows the same. -/
def BindingsAgree (s : SCSlavePort) (acts : List Act) (w : World) : Prop :=
  ∃ u, acts.foldlM World.step (.start s) = .ok u ∧ u.trace = w.trace

/-- **The single-socket port does what a multi-socket port does if and only if there is no timing
request**, for any acts that the multi-socket port goes through. -/
theorem bindingsAgree_iff {s q : SCSlavePort} (hs : s.BoundSingle) (hq : q.Bound) {acts : List Act}
    {w : World} (h : acts.foldlM World.step (.start q) = .ok w) :
    BindingsAgree s acts w ↔ ∀ r, .recvTimingReq r ∉ acts :=
  World.Unused.run (w := .start q) (l := []) ⟨hq.idle, fun _ => rfl⟩ hs.unprepared rfl h

/-- A port bound to a single-socket transactor, with `socket_num` 1. -/
def singleSocketPort : SCSlavePort := { SCSlavePort.new none 1 with transactor := some 0 }

theorem boundSingle_singleSocketPort : singleSocketPort.BoundSingle :=
  ⟨_, 0, .new none 1, rfl⟩

theorem oneCore_oneSocketPort : oneSocketPort.OneCore := ⟨rfl, rfl⟩

/-- Only the multi-socket port answers a read. -/
theorem bindingsAgree_read : ∃ w : World,
    [.recvTimingReq (readRequest 0)].foldlM World.step (.start oneSocketPort) = .ok w ∧
      ¬ BindingsAgree singleSocketPort [.recvTimingReq (readRequest 0)] w := by
  obtain ⟨w, hw⟩ : ∃ w, [.recvTimingReq (readRequest 0)].foldlM World.step
    (.start oneSocketPort) = .ok w := ⟨_, rfl⟩
  refine ⟨w, hw, ?_⟩
  rw [bindingsAgree_iff boundSingle_singleSocketPort bound_oneSocketPort hw]
  simp

/-- The single-socket port faults on the read. -/
theorem not_bindingsAgree : ¬ ∀ (s q : SCSlavePort) (acts : List Act) (w : World),
    s.BoundSingle → q.Bound → q.OneCore →
    (∀ a ∈ acts, ∀ r ∈ a.requests, r.content.cpuClusterId = none) →
    acts.foldlM World.step (.start q) = .ok w → BindingsAgree s acts w := by
  intro h
  obtain ⟨w, hw⟩ : ∃ w, [.recvTimingReq (readRequest 0)].foldlM World.step
    (.start oneSocketPort) = .ok w := ⟨_, rfl⟩
  obtain ⟨u, hu, -⟩ := h _ _ [.recvTimingReq (readRequest 0)] w boundSingle_singleSocketPort
    bound_oneSocketPort oneCore_oneSocketPort (by simp [Act.requests, readRequest]) hw
  cases hu

end Gem5Wrapper
