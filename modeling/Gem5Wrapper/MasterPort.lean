import Gem5Wrapper.Socket
import Gem5Wrapper.Lib.OneAtATime

/-!
# `SCMasterPort` in timing mode

The master port turns transactions of an initiator into gem5 packets: `nb_transport_fw` and the
callbacks of its payload event queue on one side, `recvTimingResp` and `recvReqRetry` on the
other.

gem5 answers `sendTimingReq` with yes or no, and may send responses before it returns
(`ReqAnswer`); from inside `sendRetryResp` it may make any `Gem5Call`s. Of the sender states of a
packet, `senderStates` has those that this port has pushed: the components of gem5 push and pop
theirs in balance.

Everything that happens is recorded in `trace`, newest first. Only what describes the initiator
and gem5 reads it.
-/

namespace Gem5Wrapper

open FaultMachine OneAtATime

variable {α : Type}

/-! ## The state -/

/-- A packet: the one that a payload carries in its extension, or the one that the port generates
for a transaction. -/
inductive PacketId (α : Type)
  | piped (packet : PacketPtr)
  | generated (x : α)
  deriving DecidableEq, Repr

/-- A response that gem5 sends, with the answer of the initiator to BEGIN_RESP. -/
structure Response (α : Type) where
  packet : PacketId α
  content : Packet
  answer : Answer α
  deriving DecidableEq, Repr

/-- How gem5 answers `sendTimingReq`, and the responses it sends before it returns. -/
structure ReqAnswer (α : Type) where
  accept : Bool
  responses : List (Response α) := []
  deriving DecidableEq, Repr

/-- The answers to the calls made for a request: `sendTimingReq`, and END_REQ. -/
structure ReqAnswers (α : Type) where
  send : ReqAnswer α
  endReq : Answer α
  deriving DecidableEq, Repr

/-- A call of gem5. -/
inductive Gem5Call (α : Type)
  | recvTimingResp (g : Response α)
  | recvReqRetry (a : ReqAnswers α)
  deriving DecidableEq, Repr

/-- The answers to the calls of one callback: to those for a request, and what gem5 does from inside
`sendRetryResp`. -/
structure MasterAnswers (α : Type) where
  request : ReqAnswers α
  retry : List (Gem5Call α) := []
  deriving DecidableEq, Repr

namespace SCMasterPort

/-- What happens at the port. -/
inductive Obs (α : Type)
  /-- `nb_transport_fw` queues a phase. -/
  | fw (x : α) (ph : Phase)
  /-- `nb_transport_fw` completes a transaction that it does not support. -/
  | rejected (x : α) (status : ResponseStatus)
  | acquire (x : α)
  | release (x : α)
  | sendTimingReq (x : α) (p : PacketId α) (accepted : Bool)
  | endReq (x : α)
  | recvTimingResp (p : PacketId α) (accepted : Bool)
  | beginResp (x : α) (delay : ℕ) (reply : Reply)
  /-- The response phase ends: END_RESP takes effect, or BEGIN_RESP is answered with it. -/
  | ended (x : α)
  | sendRetryResp
  deriving DecidableEq, Repr

end SCMasterPort

/-- `SCMasterPort`. `ownerId` is `owner.id`. -/
structure SCMasterPort (α : Type) where
  ownerId : ℕ
  peq : List (PeqEvent α) := []
  waitForRetry : Bool := false
  pendingRequest : Option α := none
  pendingPacket : Option (PacketId α) := none
  needToSendRetry : Bool := false
  responseInProgress : Bool := false
  payloads : α → Payload
  packets : PacketId α → Packet := fun _ => { cmd := {} }
  senderStates : PacketId α → List α := fun _ => []
  now : ℕ := 0
  curTick : ℕ := 0
  trace : List (SCMasterPort.Obs α) := []

namespace SCMasterPort

def emit (r : SCMasterPort α) (o : Obs α) : SCMasterPort α := { r with trace := o :: r.trace }

/-- `peq.notify`. -/
def notify (r : SCMasterPort α) (x : α) (ph : Phase) (delay : ℕ) : SCMasterPort α :=
  { r with peq := r.peq ++ [⟨x, ph, r.now + delay⟩] }

/-- An event leaves the queue. -/
def dequeue (r : SCMasterPort α) (i : ℕ) : SCMasterPort α := { r with peq := r.peq.eraseIdx i }

variable [DecidableEq α]

/-- `set_response_status`. -/
def setStatus (r : SCMasterPort α) (x : α) (s : ResponseStatus) : SCMasterPort α :=
  { r with payloads := Function.update r.payloads x { r.payloads x with responseStatus := s } }

def setPacket (r : SCMasterPort α) (p : PacketId α) (pkt : Packet) : SCMasterPort α :=
  { r with packets := Function.update r.packets p pkt }

/-! ## The initiator -/

/-- `SCMasterPort::nb_transport_fw`. -/
def nbTransportFw (r : SCMasterPort α) (x : α) (ph : Phase) (delay : ℕ) : SCMasterPort α :=
  let p := r.payloads x
  if p.byteEnablePtr ≠ none then
    (r.setStatus x .byteEnableError).emit (.rejected x .byteEnableError)
  else if p.streamingWidth < p.dataLength then
    (r.setStatus x .burstError).emit (.rejected x .burstError)
  else ((r.emit (.fw x ph)).emit (.acquire x)).notify x ph delay

/-- An observation as an event of the protocol between the initiator and the port. -/
def Obs.event : Obs α → Option (Event α)
  | .fw x .beginReq => some (.request x)
  | .fw x .endResp => some (.ack x)
  | .endReq x => some (.grant x)
  | .beginResp x _ reply => some (.answer x (reply.status = .accepted))
  | .ended x => some (.close x)
  | _ => none

/-- The protocol events so far. -/
def events (r : SCMasterPort α) : List (Event α) := r.trace.filterMap Obs.event

/-- A call of an initiator that obeys the exclusion rules. -/
def call (r : SCMasterPort α) (c : Call α) : Except Fault (SCMasterPort α) :=
  match c.phase with
  | .beginReq => do
    check (MayRequest r.events c.txn) (.environment "BEGIN_REQ: exclusion rule")
    pure (r.nbTransportFw c.txn .beginReq c.delay)
  | .endResp => do
    check (MayAck r.events c.txn) (.environment "END_RESP: no response to end")
    pure (r.nbTransportFw c.txn .endResp c.delay)
  | _ => .error (.environment "not a phase of an initiator")

def calls (r : SCMasterPort α) : List (Call α) → Except Fault (SCMasterPort α)
  | [] => .ok r
  | c :: cs => do
    let r ← r.call c
    r.calls cs

/-! ## Responses -/

/-- `SCMasterPort::sendBeginResp`. -/
def sendBeginResp (r : SCMasterPort α) (x : α) (delay : ℕ) (a : Answer α) :
    Except Fault (SCMasterPort α) := do
  let r := r.setStatus x .ok
  let r ← (r.emit (.beginResp x delay a.reply)).calls a.calls
  if a.reply.status = .completed ∨ a.reply.status = .updated ∧ a.reply.phase = .endResp then
    -- transaction completed -> no need to wait for tlm::END_RESP
    pure ({ r with responseInProgress := false }.emit (.ended x))
  else if a.reply.status = .accepted then
    -- we need to wait for tlm::END_RESP
    pure { r with responseInProgress := true }
  else throw (.panic "Unexpected status after sending BEGIN_RESP")

/-- `SCMasterPort::recvTimingResp`. `destroyPacket` frees a generated packet, which nobody names any
more. -/
def recvTimingResp (r : SCMasterPort α) (p : PacketId α) (a : Answer α) :
    Except Fault (Bool × SCMasterPort α) :=
  if r.responseInProgress then do
    check (r.needToSendRetry = false)
      (.scAssert "SCMasterPort::recvTimingResp" "!needToSendRetry")
    pure (false, { r.emit (.recvTimingResp p false) with needToSendRetry := true })
  else do
    let pkt := r.packets p
    check (pkt.cmd.isResponse = true)
      (.scAssert "SCMasterPort::recvTimingResp" "pkt->isResponse()")
    let delay := pkt.payloadDelay
    let r := r.setPacket p { pkt with payloadDelay := 0, headerDelay := 0 }
    match r.senderStates p with
    | [] => throw (.scAssert "SCMasterPort::recvTimingResp" "tlmSenderState != nullptr")
    | x :: rest => do
      let r := { r with senderStates := Function.update r.senderStates p rest }
      let r ← (r.emit (.recvTimingResp p true)).sendBeginResp x delay a
      pure (true, r.emit (.release x))

/-- Has gem5 been refused a response, and not been told to send it again? -/
def waitsForRetry : List (Obs α) → Bool
  | [] => false
  | .recvTimingResp _ false :: _ => true
  | .sendRetryResp :: _ => false
  | _ :: l => waitsForRetry l

/-- Did gem5 take the packet when it was last sent? -/
def lastTaken (p : PacketId α) : List (Obs α) → Bool
  | [] => false
  | .sendTimingReq _ q accepted :: l => if q = p then accepted else lastTaken p l
  | _ :: l => lastTaken p l

/-- Does gem5 take the packet? -/
def Obs.takes (p : PacketId α) : Obs α → Bool
  | .sendTimingReq _ q accepted => q = p && accepted
  | _ => false

/-- gem5 has the packet: it has taken it more often than given it back. -/
def AtGem5 (l : List (Obs α)) (p : PacketId α) : Prop :=
  lastTaken p l = true ∧ l.count (.recvTimingResp p true) < l.countP (Obs.takes p)

instance (l : List (Obs α)) (p : PacketId α) : Decidable (AtGem5 l p) :=
  inferInstanceAs (Decidable (_ ∧ _))

/-- gem5 sends a response: a packet that it has, unless it waits for a retry. -/
def gem5Response (r : SCMasterPort α) (g : Response α) : Except Fault (SCMasterPort α) := do
  check (g.content.cmd.isResponse = true) (.environment "sendTimingResp: not a response")
  check (AtGem5 r.trace g.packet) (.environment "sendTimingResp: not a packet of gem5")
  check (waitsForRetry r.trace = false) (.environment "sendTimingResp: waiting for a retry")
  let (_, r) ← (r.setPacket g.packet g.content).recvTimingResp g.packet g.answer
  pure r

/-- The responses that gem5 sends from inside `sendTimingReq`. -/
def gem5Responses (r : SCMasterPort α) : List (Response α) → Except Fault (SCMasterPort α)
  | [] => .ok r
  | g :: gs => do
    let r ← r.gem5Response g
    r.gem5Responses gs

/-! ## Requests -/

/-- `sendTimingReq`. -/
def sendTimingReq (r : SCMasterPort α) (x : α) (p : PacketId α) (a : ReqAnswer α) :
    Except Fault (Bool × SCMasterPort α) := do
  let r ← (r.emit (.sendTimingReq x p a.accept)).gem5Responses a.responses
  pure (a.accept, r)

/-- `SCMasterPort::sendEndReq`. -/
def sendEndReq (r : SCMasterPort α) (x : α) (a : Answer α) : Except Fault (SCMasterPort α) := do
  let r ← (r.emit (.endReq x)).calls a.calls
  check (a.reply.status = .accepted) (.panic "Unexpected status after sending END_REQ")
  pure r

/-- `SCMasterPort::generatePacket`. -/
def generatePacket (r : SCMasterPort α) (x : α) : Except Fault (SCMasterPort α) :=
  let p := r.payloads x
  let packet (cmd : MemCmd) : Packet :=
    { cmd, addr := p.address, size := p.dataLength, dataPtr := p.dataPtr.getD 0,
      requestorId := r.ownerId }
  match p.command with
  | .read =>
    .ok (r.setPacket (.generated x) (packet { isRead := true, needsResponse := true }))
  | .write =>
    .ok (r.setPacket (.generated x) (packet { isWrite := true, needsResponse := true }))
  | .ignore =>
    .error (.fatal "SCMasterPort" "received transaction with unsupported command")

/-- The packet for a transaction: if there is an extension, the transaction was initiated by the
gem5 world and the original packet is piped through. -/
def obtainPacket (r : SCMasterPort α) (x : α) : Except Fault (PacketId α × SCMasterPort α) :=
  match (r.payloads x).extension with
  | some ext => .ok (.piped ext.packet, r)
  | none => do
    let r ← r.generatePacket x
    pure (.generated x, r)

/-- `pushSenderState` with a new `TlmSenderState`. -/
def pushSenderState (r : SCMasterPort α) (p : PacketId α) (x : α) : SCMasterPort α :=
  { r with senderStates := Function.update r.senderStates p (x :: r.senderStates p) }

/-- `SCMasterPort::handleBeginReq`. -/
def handleBeginReq (r : SCMasterPort α) (x : α) (a : ReqAnswers α) :
    Except Fault (SCMasterPort α) := do
  check (r.waitForRetry = false) (.scAssert "SCMasterPort::handleBeginReq" "!waitForRetry")
  check (r.pendingRequest = none)
    (.scAssert "SCMasterPort::handleBeginReq" "pendingRequest == nullptr")
  check (r.pendingPacket = none)
    (.scAssert "SCMasterPort::handleBeginReq" "pendingPacket == nullptr")
  let r := r.emit (.acquire x)
  let (p, r) ← r.obtainPacket x
  let (accepted, r) ← (r.pushSenderState p x).sendTimingReq x p a.send
  if accepted then do -- port is free -> send END_REQ immediately
    let r ← r.sendEndReq x a.endReq
    pure (r.emit (.release x))
  else -- port is blocked -> wait for retry before sending END_REQ
    pure { r with waitForRetry := true, pendingRequest := some x, pendingPacket := some p }

/-- `SCMasterPort::recvReqRetry`. -/
def recvReqRetry (r : SCMasterPort α) (a : ReqAnswers α) : Except Fault (SCMasterPort α) := do
  check (r.waitForRetry = true) (.scAssert "SCMasterPort::recvReqRetry" "waitForRetry")
  match r.pendingRequest, r.pendingPacket with
  | none, _ => throw (.scAssert "SCMasterPort::recvReqRetry" "pendingRequest != nullptr")
  | _, none => throw (.scAssert "SCMasterPort::recvReqRetry" "pendingPacket != nullptr")
  | some x, some p => do
    let (accepted, r) ← r.sendTimingReq x p a.send
    if accepted then do
      let r := { r with waitForRetry := false, pendingPacket := none }
      let r ← r.sendEndReq x a.endReq
      pure { r.emit (.release x) with pendingRequest := none }
    else pure r

/-- Was the last request refused? -/
def lastRefused : List (Obs α) → Bool
  | [] => false
  | .sendTimingReq _ _ accepted :: _ => !accepted
  | _ :: l => lastRefused l

/-- A call of gem5. It asks for a request again only when it has refused it. -/
def gem5Call (r : SCMasterPort α) : Gem5Call α → Except Fault (SCMasterPort α)
  | .recvTimingResp g => r.gem5Response g
  | .recvReqRetry a => do
    check (lastRefused r.trace = true) (.environment "sendRetryReq: nothing refused")
    r.recvReqRetry a

/-- The calls that gem5 makes from inside `sendRetryResp`. -/
def gem5Calls (r : SCMasterPort α) : List (Gem5Call α) → Except Fault (SCMasterPort α)
  | [] => .ok r
  | c :: cs => do
    let r ← r.gem5Call c
    r.gem5Calls cs

/-! ## The payload event queue -/

/-- `SCMasterPort::handleEndResp`, with `checkTransaction`. -/
def handleEndResp (r : SCMasterPort α) (x : α) (calls : List (Gem5Call α)) :
    Except Fault (SCMasterPort α) := do
  check (r.responseInProgress = true)
    (.scAssert "SCMasterPort::handleEndResp" "responseInProgress")
  let r := { r with responseInProgress := false }.emit (.ended x)
  check ((r.payloads x).responseStatus.isError = false)
    (.report "TLM-2" ("Transaction returned with error, response status = " ++
      (r.payloads x).responseStatus.string))
  if r.needToSendRetry then do
    let r ← (r.emit .sendRetryResp).gem5Calls calls
    pure { r with needToSendRetry := false }
  else pure r

/-- `SCMasterPort::peq_cb`. -/
def peqCb (r : SCMasterPort α) (x : α) (ph : Phase) (o : MasterAnswers α) :
    Except Fault (SCMasterPort α) := do
  -- catch up with SystemC time
  let r := { r with curTick := r.now }
  check (r.curTick = r.now)
    (.assert "SCMasterPort::peq_cb" "gem5::curTick() == sc_core::sc_time_stamp().value()")
  match ph with
  | .beginReq => r.handleBeginReq x o.request
  | .endResp => r.handleEndResp x o.retry
  | _ => throw (.panic "unimplemented phase in callback")

/-! ## Runs -/

/-- What can happen to a master port. -/
inductive Act (α : Type)
  | call (c : Call α)
  /-- The payload event queue calls back for an event that is due. -/
  | peqCb (i : ℕ) (o : MasterAnswers α)
  | gem5 (c : Gem5Call α)
  /-- Time passes, but not beyond a callback. -/
  | advance (d : ℕ)
  deriving DecidableEq, Repr

def step (r : SCMasterPort α) : Act α → Except Fault (SCMasterPort α)
  | .call c => r.call c
  | .peqCb i o =>
    match r.peq[i]? with
    | none => .error (.environment "no such event")
    | some e => do
      check (e.due = r.now) (.environment "event not due")
      (r.dequeue i).peqCb e.txn e.phase o
  | .gem5 c => r.gem5Call c
  | .advance d => do
    check (∀ e ∈ r.peq, r.now + d ≤ e.due) (.environment "callback passed over")
    pure { r with now := r.now + d }

/-- The fault that an act ends in. -/
def fault (r : SCMasterPort α) (a : Act α) : Option Fault :=
  match r.step a with
  | .ok _ => none
  | .error f => some f

theorem step_of_fault {r : SCMasterPort α} {a : Act α} {f : Fault} (h : r.fault a = some f) :
    r.step a = .error f := by
  unfold fault at h
  cases hs : r.step a with
  | ok u => rw [hs] at h; cases h
  | error g => rw [hs] at h; rw [Option.some.inj h]

/-- A port, before anything happens. -/
def new (ownerId : ℕ) (payloads : α → Payload) : SCMasterPort α := { ownerId, payloads }

/-! ## The protocol events -/

section Events

variable {r : SCMasterPort α} {x : α}

omit [DecidableEq α] in
/-- The observations with an event that `f` selects. -/
theorem mem_filterMap_events {f : Event α → Option α} :
    x ∈ r.events.filterMap f ↔ ∃ o ∈ r.trace, o.event.bind f = some x := by
  simp only [events, List.filterMap_filterMap, List.mem_filterMap]

omit [DecidableEq α] in
theorem mem_requests : x ∈ requests r.events ↔ .fw x .beginReq ∈ r.trace := by
  rw [requests, mem_filterMap_events]
  constructor
  · rintro ⟨o, ho, he⟩
    rcases o with ⟨y, ph⟩ | _ | _ | _ | _ | _ | _ | _ | _ | _ <;> try cases he
    cases ph <;> cases he
    exact ho
  · exact fun h => ⟨_, h, rfl⟩

omit [DecidableEq α] in
theorem mem_grants : x ∈ grants r.events ↔ .endReq x ∈ r.trace := by
  rw [grants, mem_filterMap_events]
  constructor
  · rintro ⟨o, ho, he⟩
    rcases o with ⟨y, ph⟩ | _ | _ | _ | _ | _ | _ | _ | _ | _ <;> try cases he
    · cases ph <;> cases he
    · exact ho
  · exact fun h => ⟨_, h, rfl⟩

omit [DecidableEq α] in
theorem mem_answers : x ∈ answers r.events ↔ ∃ d reply, .beginResp x d reply ∈ r.trace := by
  rw [answers, mem_filterMap_events]
  constructor
  · rintro ⟨o, ho, he⟩
    rcases o with ⟨y, ph⟩ | _ | _ | _ | _ | _ | _ | _ | _ | _ <;> try cases he
    · cases ph <;> cases he
    · exact ⟨_, _, ho⟩
  · rintro ⟨d, reply, ho⟩
    exact ⟨_, ho, rfl⟩

omit [DecidableEq α] in
theorem mem_closes : x ∈ closes r.events ↔ .ended x ∈ r.trace := by
  rw [closes, mem_filterMap_events]
  constructor
  · rintro ⟨o, ho, he⟩
    rcases o with ⟨y, ph⟩ | _ | _ | _ | _ | _ | _ | _ | _ | _ <;> try cases he
    · cases ph <;> cases he
    · exact ho
  · exact fun h => ⟨_, h, rfl⟩

end Events

/-! ## What the calls do -/

section Spec

variable {r r' : SCMasterPort α} {x : α} {p : PacketId α}

/-- What a call of the initiator can do. -/
theorem call_cases {c : Call α} (h : r.call c = .ok r') :
    (∃ s, r' = (r.setStatus c.txn s).emit (.rejected c.txn s)) ∨
    (MayRequest r.events c.txn ∧ r' = ((r.emit (.fw c.txn .beginReq)).emit
      (.acquire c.txn)).notify c.txn .beginReq c.delay) ∨
    (MayAck r.events c.txn ∧ r' = ((r.emit (.fw c.txn .endResp)).emit
      (.acquire c.txn)).notify c.txn .endResp c.delay) := by
  unfold call at h
  split at h
  · simp only [bind_eq_ok, check_eq_ok, pure_eq_ok, Except.ok.injEq] at h
    obtain ⟨-, hm, rfl⟩ := h
    unfold nbTransportFw
    dsimp only
    split_ifs
    · exact .inl ⟨_, rfl⟩
    · exact .inl ⟨_, rfl⟩
    · exact .inr (.inl ⟨hm, rfl⟩)
  · simp only [bind_eq_ok, check_eq_ok, pure_eq_ok, Except.ok.injEq] at h
    obtain ⟨-, hm, rfl⟩ := h
    unfold nbTransportFw
    dsimp only
    split_ifs
    · exact .inl ⟨_, rfl⟩
    · exact .inl ⟨_, rfl⟩
    · exact .inr (.inr ⟨hm, rfl⟩)
  · cases h

/-- What every call of the initiator preserves, all its calls preserve. -/
theorem calls_invariant {P : SCMasterPort α → Prop} (hP : P r)
    (hcall : ∀ r c r', P r → r.call c = .ok r' → P r') {cs : List (Call α)}
    (h : r.calls cs = .ok r') : P r' := by
  induction cs generalizing r with
  | nil => cases h; exact hP
  | cons c cs ih =>
    simp only [calls, bind_eq_ok] at h
    obtain ⟨r₁, hc, h⟩ := h
    exact ih (hcall _ _ _ hP hc) h

/-- What calls of the initiator can change. -/
theorem calls_frame {cs : List (Call α)} (h : r.calls cs = .ok r') :
    ∃ peq payloads trace, r' = { r with peq, payloads, trace } := by
  refine calls_invariant (P := fun r₁ => ∃ peq payloads trace, r₁ = { r with peq, payloads, trace })
    ⟨_, _, _, rfl⟩ (fun r₁ c r₂ h₁ hc => ?_) h
  obtain ⟨_, _, _, rfl⟩ := h₁
  obtain ⟨st, rfl⟩ | ⟨-, rfl⟩ | ⟨-, rfl⟩ := call_cases hc <;> exact ⟨_, _, _, rfl⟩

/-- What every response preserves, the responses sent from inside `sendTimingReq` preserve. -/
theorem gem5Responses_invariant {P : SCMasterPort α → Prop} (hP : P r)
    (hresp : ∀ r g r', P r → r.gem5Response g = .ok r' → P r') {gs : List (Response α)}
    (h : r.gem5Responses gs = .ok r') : P r' := by
  induction gs generalizing r with
  | nil => cases h; exact hP
  | cons g gs ih =>
    simp only [gem5Responses, bind_eq_ok] at h
    obtain ⟨r₁, hg, h⟩ := h
    exact ih (hresp _ _ _ hP hg) h

/-- What every call of gem5 preserves, those from inside `sendRetryResp` preserve. -/
theorem gem5Calls_invariant {P : SCMasterPort α → Prop} (hP : P r)
    (hcall : ∀ r c r', P r → r.gem5Call c = .ok r' → P r') {cs : List (Gem5Call α)}
    (h : r.gem5Calls cs = .ok r') : P r' := by
  induction cs generalizing r with
  | nil => cases h; exact hP
  | cons c cs ih =>
    simp only [gem5Calls, bind_eq_ok] at h
    obtain ⟨r₁, hc, h⟩ := h
    exact ih (hcall _ _ _ hP hc) h

/-- The ways in which a response phase that was begun goes on. -/
theorem sendBeginResp_cases {delay : ℕ} {a : Answer α} (h : r.sendBeginResp x delay a = .ok r') :
    ∃ r₁, ((r.setStatus x .ok).emit (.beginResp x delay a.reply)).calls a.calls = .ok r₁ ∧
      ((a.reply.status ≠ .accepted ∧
          r' = { r₁ with responseInProgress := false }.emit (.ended x)) ∨
        (a.reply.status = .accepted ∧ r' = { r₁ with responseInProgress := true })) := by
  simp only [sendBeginResp, bind_eq_ok] at h
  obtain ⟨r₁, hc, h⟩ := h
  refine ⟨r₁, hc, ?_⟩
  split_ifs at h with h₁ h₂
  · refine .inl ⟨fun ha => ?_, (Except.ok.inj h).symm⟩
    rw [ha] at h₁
    simp at h₁
  · exact .inr ⟨h₂, (Except.ok.inj h).symm⟩

/-- A response is refused, or taken from the top of the packet's sender states. -/
theorem recvTimingResp_cases {a : Answer α} {b : Bool} (h : r.recvTimingResp p a = .ok (b, r')) :
    (r.responseInProgress = true ∧ r.needToSendRetry = false ∧ b = false ∧
      r' = { r.emit (.recvTimingResp p false) with needToSendRetry := true }) ∨
    (r.responseInProgress = false ∧ b = true ∧ ∃ x rest r₁, r.senderStates p = x :: rest ∧
      ({ r.setPacket p { r.packets p with payloadDelay := 0, headerDelay := 0 } with
        senderStates := Function.update r.senderStates p rest }.emit
        (.recvTimingResp p true)).sendBeginResp x (r.packets p).payloadDelay a = .ok r₁ ∧
      r' = r₁.emit (.release x)) := by
  unfold recvTimingResp at h
  split_ifs at h with hrip
  · simp only [bind_eq_ok, check_eq_ok, pure_eq_ok, Except.ok.injEq, Prod.mk.injEq] at h
    obtain ⟨-, hn, rfl, rfl⟩ := h
    exact .inl ⟨hrip, hn, rfl, rfl⟩
  · simp only [bind_eq_ok, check_eq_ok] at h
    obtain ⟨-, -, h⟩ := h
    split at h
    · cases h
    · rename_i x rest hs
      simp only [bind_eq_ok, pure_eq_ok, Except.ok.injEq, Prod.mk.injEq] at h
      obtain ⟨r₁, hb, rfl, rfl⟩ := h
      exact .inr ⟨by simpa using hrip, rfl, x, rest, r₁, hs, hb, rfl⟩

theorem gem5Response_cases {g : Response α} (h : r.gem5Response g = .ok r') :
    g.content.cmd.isResponse = true ∧ AtGem5 r.trace g.packet ∧ waitsForRetry r.trace = false ∧
      ∃ b, (r.setPacket g.packet g.content).recvTimingResp g.packet g.answer = .ok (b, r') := by
  simp only [gem5Response, bind_eq_ok, check_eq_ok, pure_eq_ok, Except.ok.injEq] at h
  obtain ⟨-, h₁, -, h₂, -, h₃, ⟨b, _⟩, h, rfl⟩ := h
  exact ⟨h₁, h₂, h₃, b, h⟩

/-- The fields of the request channel. -/
def SameRequest (r r' : SCMasterPort α) : Prop :=
  r'.waitForRetry = r.waitForRetry ∧ r'.pendingRequest = r.pendingRequest ∧
    r'.pendingPacket = r.pendingPacket

/-- Responses leave the request channel alone. -/
theorem gem5Response_sameRequest {g : Response α} (h : r.gem5Response g = .ok r') :
    SameRequest r r' := by
  obtain ⟨-, -, -, b, h⟩ := gem5Response_cases h
  obtain ⟨-, -, -, rfl⟩ | ⟨-, -, x, rest, r₁, -, hb, rfl⟩ := recvTimingResp_cases h
  · exact ⟨rfl, rfl, rfl⟩
  · obtain ⟨r₂, hc, h⟩ := sendBeginResp_cases hb
    obtain ⟨peq, payloads, trace, hf⟩ := calls_frame hc
    have h₁ : r₂.waitForRetry = r.waitForRetry := by rw [hf]; rfl
    have h₂ : r₂.pendingRequest = r.pendingRequest := by rw [hf]; rfl
    have h₃ : r₂.pendingPacket = r.pendingPacket := by rw [hf]; rfl
    obtain ⟨-, rfl⟩ | ⟨-, rfl⟩ := h <;> exact ⟨h₁, h₂, h₃⟩

theorem gem5Responses_sameRequest {gs : List (Response α)} (h : r.gem5Responses gs = .ok r') :
    SameRequest r r' :=
  gem5Responses_invariant (P := SameRequest r) ⟨rfl, rfl, rfl⟩ (fun _ _ _ ⟨h₁, h₂, h₃⟩ hg =>
    have ⟨h₁', h₂', h₃'⟩ := gem5Response_sameRequest hg
    ⟨h₁'.trans h₁, h₂'.trans h₂, h₃'.trans h₃⟩) h

/-- The packet of a transaction: the one of its extension, or a generated one. -/
def packetOf (r : SCMasterPort α) (x : α) : PacketId α :=
  match (r.payloads x).extension with
  | some ext => .piped ext.packet
  | none => .generated x

omit [DecidableEq α] in
theorem packetOf_congr {y : α} (h : (r'.payloads y).extension = (r.payloads y).extension) :
    r'.packetOf y = r.packetOf y := by unfold packetOf; rw [h]

omit [DecidableEq α] in
@[simp] theorem packetOf_emit {o : Obs α} {y : α} : (r.emit o).packetOf y = r.packetOf y := rfl

@[simp] theorem packetOf_setStatus {y : α} (s : ResponseStatus) :
    (r.setStatus x s).packetOf y = r.packetOf y := by
  refine packetOf_congr ?_
  by_cases h : y = x
  · subst h
    simp [setStatus]
  · simp [setStatus, h]

theorem obtainPacket_eq (h : r.obtainPacket x = .ok (p, r')) :
    p = r.packetOf x ∧ ∃ packets, r' = { r with packets } := by
  unfold obtainPacket at h
  unfold packetOf
  split at h
  · cases h
    exact ⟨rfl, _, rfl⟩
  · simp only [bind_eq_ok, pure_eq_ok, Except.ok.injEq, Prod.mk.injEq] at h
    obtain ⟨r₁, h, rfl, rfl⟩ := h
    refine ⟨rfl, ?_⟩
    simp only [generatePacket] at h
    split at h <;> cases h <;> exact ⟨_, rfl⟩

/-- A request that gem5 accepts gets its END_REQ; one that it refuses becomes the pending one. -/
theorem handleBeginReq_cases {a : ReqAnswers α} (h : r.handleBeginReq x a = .ok r') :
    r.waitForRetry = false ∧ r.pendingRequest = none ∧ r.pendingPacket = none ∧
    ∃ packets r₁, (({ r.emit (.acquire x) with packets }.pushSenderState (r.packetOf x) x).emit
        (.sendTimingReq x (r.packetOf x) a.send.accept)).gem5Responses a.send.responses = .ok r₁ ∧
      ((a.send.accept = true ∧ ∃ r₂, (r₁.emit (.endReq x)).calls a.endReq.calls = .ok r₂ ∧
          r' = r₂.emit (.release x)) ∨
        (a.send.accept = false ∧ r' = { r₁ with
          waitForRetry := true
          pendingRequest := some x
          pendingPacket := some (r.packetOf x) })) := by
  simp only [handleBeginReq, sendTimingReq, sendEndReq, bind_eq_ok, check_eq_ok, pure_eq_ok,
    Except.ok.injEq] at h
  obtain ⟨-, h₁, -, h₂, -, h₃, ⟨p, r₀⟩, hp, ⟨b, r₁⟩, ⟨_, hr, heq⟩, h⟩ := h
  obtain ⟨rfl, packets, rfl⟩ := obtainPacket_eq hp
  obtain ⟨rfl, rfl⟩ := Prod.mk.inj heq
  refine ⟨h₁, h₂, h₃, packets, _, hr, ?_⟩
  split_ifs at h with ha
  · simp only [bind_eq_ok, check_eq_ok, Except.ok.injEq] at h
    obtain ⟨_, ⟨r₂, hc, -, -, rfl⟩, rfl⟩ := h
    exact .inl ⟨ha, r₂, hc, rfl⟩
  · exact .inr ⟨by simpa using ha, (Except.ok.inj h).symm⟩

/-- A pending request that gem5 accepts gets its END_REQ; one that it refuses stays pending. -/
theorem recvReqRetry_cases {a : ReqAnswers α} (h : r.recvReqRetry a = .ok r') :
    r.waitForRetry = true ∧ ∃ x p r₁, r.pendingRequest = some x ∧ r.pendingPacket = some p ∧
      (r.emit (.sendTimingReq x p a.send.accept)).gem5Responses a.send.responses = .ok r₁ ∧
      ((a.send.accept = true ∧ ∃ r₂, ({ r₁ with waitForRetry := false, pendingPacket := none }.emit
            (.endReq x)).calls a.endReq.calls = .ok r₂ ∧
          r' = { r₂.emit (.release x) with pendingRequest := none }) ∨
        (a.send.accept = false ∧ r' = r₁)) := by
  simp only [recvReqRetry, bind_eq_ok, check_eq_ok] at h
  obtain ⟨-, hw, h⟩ := h
  refine ⟨hw, ?_⟩
  split at h
  · cases h
  · cases h
  · rename_i x p hx hp
    simp only [sendTimingReq, sendEndReq, bind_eq_ok, pure_eq_ok, Except.ok.injEq] at h
    obtain ⟨⟨b, r₁⟩, ⟨_, hr, heq⟩, h⟩ := h
    obtain ⟨rfl, rfl⟩ := Prod.mk.inj heq
    refine ⟨x, p, _, hx, hp, hr, ?_⟩
    split_ifs at h with ha
    · simp only [bind_eq_ok, check_eq_ok, Except.ok.injEq] at h
      obtain ⟨_, ⟨r₂, hc, -, -, rfl⟩, rfl⟩ := h
      exact .inl ⟨ha, r₂, hc, rfl⟩
    · exact .inr ⟨by simpa using ha, (Except.ok.inj h).symm⟩

/-- END_RESP ends the response phase, and a response that was refused is asked for again. -/
theorem handleEndResp_cases {calls : List (Gem5Call α)} (h : r.handleEndResp x calls = .ok r') :
    r.responseInProgress = true ∧
      ((r.needToSendRetry = true ∧ ∃ r₁, (({ r with responseInProgress := false }.emit
            (.ended x)).emit .sendRetryResp).gem5Calls calls = .ok r₁ ∧
          r' = { r₁ with needToSendRetry := false }) ∨
        (r.needToSendRetry = false ∧
          r' = { r with responseInProgress := false }.emit (.ended x))) := by
  simp only [handleEndResp, bind_eq_ok, check_eq_ok, pure_eq_ok] at h
  obtain ⟨-, hrip, -, -, h⟩ := h
  refine ⟨hrip, ?_⟩
  split_ifs at h with hn
  · simp only [bind_eq_ok, Except.ok.injEq] at h
    obtain ⟨r₁, hc, rfl⟩ := h
    exact .inl ⟨hn, r₁, hc, rfl⟩
  · exact .inr ⟨by simpa [emit] using hn, (Except.ok.inj h).symm⟩

end Spec

/-! ## Runs of reads -/

/-- Reads of 64 bytes. -/
def reads (_ : ℕ) : Payload :=
  { command := .read, address := 4096, dataLength := 64, streamingWidth := 64, dataPtr := some 7 }

/-- gem5 takes a request, and the initiator takes END_REQ. -/
def taken : MasterAnswers ℕ where
  request := { send := { accept := true }, endReq := { reply := ⟨.accepted, .endReq, 0⟩ } }

/-- gem5 sends the response for the packet of a transaction, and the initiator answers BEGIN_RESP
with `status`. -/
def readResponse (x : ℕ) (status : SyncEnum) : Response ℕ where
  packet := .generated x
  content := { cmd := { isRead := true, isResponse := true } }
  answer := { reply := ⟨status, if status = .accepted then .beginResp else .endResp, 0⟩ }

theorem exists_readRun {P : SCMasterPort ℕ → Act ℕ → Prop} [∀ r a, Decidable (P r a)]
    {p : SCMasterPort ℕ → Bool} (acts : List (Act ℕ))
    (h : (exec step P (new 0 reads) acts).map p = some true) :
    ∃ r, Run step P (new 0 reads) r ∧ p r = true :=
  exists_run_of_exec h

end SCMasterPort

end Gem5Wrapper
