import Gem5Wrapper.SocketMap

/-!
# Runs of the slave port

A run of a port is a sequence of `Act`s: gem5 sends requests, services the scheduled
`PayloadEvent`s and retries responses; targets send phases and hold references to payloads; gem5
models below the targets turn packets into responses; time passes. Each act of gem5 is a gem5
event, serviced when gem5 has caught up with SystemC.

What the other sides promise is a predicate on the state and the act, so that a claim about
runs names the promises it relies on.
-/

namespace Gem5Wrapper

open FaultMachine
open Std (TreeMap)

/-! ## Acts -/

/-- What can happen to a port. The targets name transactions by their serial numbers. -/
inductive Act
  /-- gem5 sends a request. -/
  | recvTimingReq (r : Request)
  /-- gem5 services the first event of the queue. -/
  | service (o : PecAnswers)
  /-- gem5 asks for refused responses. -/
  | recvRespRetry (answers : List RespAnswer)
  /-- A target sends a phase. -/
  | nbTransportBw (k : ℕ) (t : Ptr) (ph : Phase) (delay : ℕ)
  | targetAcquire (k : ℕ) (t : Ptr)
  | targetRelease (k : ℕ) (t : Ptr)
  /-- A gem5 model below a target makes the response of a packet. -/
  | downstreamResponse (packet : PacketPtr)
  /-- Time passes, but not beyond an event. -/
  | advance (d : ℕ)
  deriving DecidableEq, Repr

namespace World

/-- One act. The last kind of fault marks acts that cannot happen. -/
def step (w : World) : Act → Except Fault World
  | .recvTimingReq r => do
    let (_, w) ← w.catchup.gem5Request r
    pure w
  | .service o =>
    match w.events with
    | [] => throw (.environment "no event")
    | e :: q => do
      check (e.tick = w.now) (.environment "event not due")
      pec { w.catchup with events := q } e o
  | .recvRespRetry answers => w.catchup.recvRespRetry answers
  | .nbTransportBw k t ph delay => .ok (w.nbTransportBw k t ph delay)
  | .targetAcquire k t => (w.emit (.targetAcquire k)).acquire t
  | .targetRelease k t => (w.emit (.targetRelease k)).release t
  | .downstreamResponse p => do
    check ((w.packets p).cmd.needsResponse = true) (.environment "makeResponse: needsResponse()")
    pure (w.setPacket p (w.packets p).makeResponse)
  | .advance d => do
    check (∀ e ∈ w.events, w.now + d ≤ e.tick) (.environment "event passed over")
    pure { w with now := w.now + d }

/-- The fault that an act ends in. -/
def fault (w : World) (a : Act) : Option Fault :=
  match w.step a with
  | .ok _ => none
  | .error f => some f

theorem step_of_fault {w : World} {a : Act} {f : Fault} (h : w.fault a = some f) :
    w.step a = .error f := by
  unfold fault at h
  cases hs : w.step a with
  | ok u => rw [hs] at h; cases h
  | error g => rw [hs] at h; rw [Option.some.inj h]

/-- The world of a port, before anything happens. -/
def start (p : SCSlavePort) : World := { port := p }

end World

/-- The requests that gem5 makes in an act. -/
def Act.requests : Act → List Request
  | .recvTimingReq r => [r]
  | .service o => o.retry ++ o.resp.requests
  | .recvRespRetry answers => answers.flatMap RespAnswer.requests
  | _ => []

/-! ## The history of a transaction -/

/-- BEGIN_REQ of transaction `k` with payload `t`, unless the target completes it at once. -/
def Obs.begins (k : ℕ) (t : Ptr) : Obs → Bool
  | .beginReq k' t' _ _ _ r => k' = k ∧ t' = t ∧ r.status ≠ .completed
  | _ => false

/-- The target sends phase `ph` of transaction `k`, in a call or in its answer to BEGIN_REQ. -/
def Obs.sends (k : ℕ) (ph : Phase) : Obs → Bool
  | .bw k' ph' _ => k' = k ∧ ph' = ph
  | .beginReq k' _ _ _ _ r => k' = k ∧ r.status = .updated ∧ r.phase = ph
  | _ => false

/-- The transaction that an observation is about. -/
def Obs.txn : Obs → Option ℕ
  | .allocate k .. | .beginReq k .. | .bw k .. | .pec k .. | .retryReq k | .makeResponse k .. |
    .resp k .. | .endResp k .. | .release k .. | .targetAcquire k | .targetRelease k => some k
  | .refused k => k
  | .respRetry => none

/-- Has the target sent the phase? -/
def Sent (l : List Obs) (k : ℕ) (ph : Phase) : Prop := ∃ o ∈ l, o.sends k ph = true

/-- Has BEGIN_REQ been sent, and does the transaction go on? -/
def Begun (l : List Obs) (k : ℕ) (t : Ptr) : Prop := ∃ o ∈ l, o.begins k t = true

/-- Has the request phase been ended by END_REQ or BEGIN_RESP? -/
def Closed (l : List Obs) (k : ℕ) : Prop := .pec k .endReq ∈ l ∨ .pec k .beginResp ∈ l

/-- Has the port released the payload of the transaction? -/
def Released (l : List Obs) (k : ℕ) : Prop := ∃ t, .release k t ∈ l

/-- The references that the target holds. -/
def held (l : List Obs) (k : ℕ) : ℕ := l.count (.targetAcquire k) - l.count (.targetRelease k)

instance (l : List Obs) (k : ℕ) (ph : Phase) : Decidable (Sent l k ph) :=
  inferInstanceAs (Decidable (∃ o ∈ l, o.sends k ph = true))

instance (l : List Obs) (k : ℕ) (t : Ptr) : Decidable (Begun l k t) :=
  inferInstanceAs (Decidable (∃ o ∈ l, o.begins k t = true))

instance (l : List Obs) (k : ℕ) : Decidable (Closed l k) :=
  inferInstanceAs (Decidable (_ ∨ _))

section History

variable {o : Obs} {l : List Obs} {k : ℕ} {t : Ptr} {ph : Phase}

@[simp] theorem sent_cons : Sent (o :: l) k ph ↔ o.sends k ph = true ∨ Sent l k ph := by
  simp [Sent]

@[simp] theorem begun_cons : Begun (o :: l) k t ↔ o.begins k t = true ∨ Begun l k t := by
  simp [Begun]

@[simp] theorem released_cons :
    Released (o :: l) k ↔ (∃ t, o = .release k t) ∨ Released l k := by
  simp [Released, exists_or, eq_comm]

@[simp] theorem closed_cons :
    Closed (o :: l) k ↔ o = .pec k .endReq ∨ o = .pec k .beginResp ∨ Closed l k := by
  simp only [Closed, List.mem_cons, eq_comm (b := o)]
  tauto

theorem sent_nil : ¬ Sent [] k ph := by simp [Sent]

theorem begun_nil : ¬ Begun [] k t := by simp [Begun]

end History

/-! ## What a port shows -/

/-- The slots of the sockets. With gem5 caches, those of socket 0 are fields of the port. -/
structure Slots where
  request : ℕ → Option Ptr
  owed : ℕ → Bool
  response : ℕ → Option Ptr

/-- Where the port is in a call. -/
inductive Cur
  | idle
  /-- `pec` of a BEGIN_RESP, before the response phase. -/
  | popped (t : Ptr) (k : ℕ)
  /-- In the response phase, before `sendTimingResp`. -/
  | entered (t : Ptr) (x : Gem5Extension)
  /-- In `recvRespRetry`, between two responses. -/
  | retrying
  /-- Taken out of its slot by `recvRespRetry`. -/
  | taken (t : Ptr) (x : Gem5Extension)
  /-- After `sendTimingResp`, which `recvRespRetry` may have made again. -/
  | answered (t : Ptr) (x : Gem5Extension) (again accepted : Bool)

/-- Where the port is after END_RESP. -/
def Cur.next : Cur → Cur
  | .answered _ _ true _ => .retrying
  | _ => .idle

theorem Cur.next_cases (c : Cur) : c.next = .idle ∨ c.next = .retrying := by
  unfold Cur.next
  split <;> simp

/-- An observation, with the slots and the event queue as they are when it is made. -/
structure Record where
  obs : Obs
  slots : Slots
  events : List PayloadEvent

/-- What matters of a `World`: the slots as functions of the sockets, what the payloads carry,
and what has happened. The first four fields never change. -/
structure View where
  cache : Bool
  known : ℕ
  sockets : ℕ
  target : Packet → ℕ
  slots : Slots
  carried : Ptr → Option Gem5Extension
  refs : Ptr → ℕ
  address : Ptr → ℕ
  pool : MemoryManager
  serial : ℕ
  packets : PacketPtr → Packet
  events : List PayloadEvent
  now : ℕ
  log : List Record
  cur : Cur

/-- The slots of a port. -/
def SCSlavePort.slots (p : SCSlavePort) : Slots where
  request s := if s = 0 ∧ p.usingGem5Cache then p.blockingRequest else p.helper.request s
  owed s := if s = 0 ∧ p.usingGem5Cache then p.needToSendRequestRetry else p.helper.owed s
  response s := if s = 0 ∧ p.usingGem5Cache then p.blockingResponse else p.helper.response s

def Entry.record (e : Entry) : Record := ⟨e.obs, e.port.slots, e.events⟩

/-- The view of a world in the middle of a call. -/
def World.viewAt (w : World) (c : Cur) : View where
  cache := w.port.usingGem5Cache
  known := w.port.helper.socketNum
  sockets := (w.port.transactorMulti.map SlaveTransactorMulti.socketNum).getD 0
  target := w.port.targetSocket
  slots := w.port.slots
  carried t := (w.payloads t).extension
  refs t := (w.payloads t).refCount
  address t := (w.payloads t).address
  pool := w.mm
  serial := w.serial
  packets := w.packets
  events := w.events
  now := w.now
  log := w.log.map Entry.record
  cur := c

/-- The view of a world between two calls. -/
def World.view (w : World) : View := w.viewAt .idle

namespace View

/-- The observations, newest first. -/
def trace (v : View) : List Obs := v.log.map Record.obs

/-- The transaction that a payload carries. -/
def serialOf (v : View) (t : Ptr) : Option ℕ := (v.carried t).map Gem5Extension.serial

end View

@[simp] theorem World.trace_view (w : World) : w.view.trace = w.trace := by
  simp [View.trace, World.trace, World.view, World.viewAt, Entry.record]

/-! ## What the other sides promise -/

/-- What the environment of a port promises for its next act. -/
abbrev Promise := View → Act → Prop

/-- Targets acquire payloads they have been given, and release what they have acquired. -/
def RefsBalanced (v : View) : Act → Prop
  | .targetAcquire k t => v.serialOf t = some k
  | .targetRelease k t => v.serialOf t = some k ∧ 0 < held v.trace k
  | _ => True

/-- Targets send each transaction at most one END_REQ, and at most one BEGIN_RESP, in this
order. -/
def PhasesObeyed (v : View) : Act → Prop
  | .nbTransportBw k t ph _ => Begun v.trace k t ∧
      (ph = .endReq ∧ ¬ Sent v.trace k .endReq ∧ ¬ Sent v.trace k .beginResp ∨
        ph = .beginResp ∧ ¬ Sent v.trace k .beginResp)
  | _ => True

/-- A BEGIN_RESP takes effect when no END_REQ of its transaction is scheduled any more. -/
def TakenInOrder (v : View) : Act → Prop
  | .service _ => ∀ e ∈ v.events.head?, e.p = .beginResp →
      ∀ e' ∈ v.events, e'.txn = e.txn → e'.p ≠ .endReq
  | _ => True

/-- The BEGIN_RESP of a transaction is sent to take effect later than its END_REQ, unless that
has taken effect already. -/
def StrictlyLater (v : View) : Act → Prop
  | .nbTransportBw k _ .beginResp delay =>
      ∀ e ∈ v.events, e.txn = k → e.p = .endReq → e.tick < v.now + delay
  | _ => True

/-- gem5 accepts the responses it has asked for. -/
def ResendsAccepted (_ : View) : Act → Prop
  | .recvRespRetry answers => ∀ a ∈ answers, a.accept = true
  | _ => True

/-- The targets answer every BEGIN_REQ with TLM_ACCEPTED. -/
def AnsweredAccepted (_ : View) (a : Act) : Prop :=
  ∀ r ∈ a.requests, r.reply.status = .accepted

instance (v : View) : (a : Act) → Decidable (RefsBalanced v a)
  | .targetAcquire k t => inferInstanceAs (Decidable (v.serialOf t = some k))
  | .targetRelease k t => inferInstanceAs (Decidable (v.serialOf t = some k ∧ 0 < held v.trace k))
  | .recvTimingReq _ | .service _ | .recvRespRetry _ | .nbTransportBw .. | .downstreamResponse _ |
    .advance _ => .isTrue trivial

instance (v : View) : (a : Act) → Decidable (PhasesObeyed v a)
  | .nbTransportBw k t ph _ => inferInstanceAs (Decidable (Begun v.trace k t ∧
      (ph = .endReq ∧ ¬ Sent v.trace k .endReq ∧ ¬ Sent v.trace k .beginResp ∨
        ph = .beginResp ∧ ¬ Sent v.trace k .beginResp)))
  | .recvTimingReq _ | .service _ | .recvRespRetry _ | .targetAcquire .. | .targetRelease .. |
    .downstreamResponse _ | .advance _ => .isTrue trivial

instance (v : View) : (a : Act) → Decidable (TakenInOrder v a)
  | .service _ => inferInstanceAs (Decidable (∀ e ∈ v.events.head?, e.p = .beginResp →
      ∀ e' ∈ v.events, e'.txn = e.txn → e'.p ≠ .endReq))
  | .recvTimingReq _ | .nbTransportBw .. | .recvRespRetry _ | .targetAcquire .. |
    .targetRelease .. | .downstreamResponse _ | .advance _ => .isTrue trivial

instance (v : View) : (a : Act) → Decidable (StrictlyLater v a)
  | .nbTransportBw k _ .beginResp delay => inferInstanceAs (Decidable
      (∀ e ∈ v.events, e.txn = k → e.p = .endReq → e.tick < v.now + delay))
  | .nbTransportBw _ _ .beginReq _ | .nbTransportBw _ _ .endReq _ | .nbTransportBw _ _ .endResp _ |
    .recvTimingReq _ | .service _ | .recvRespRetry _ | .targetAcquire .. |
    .targetRelease .. | .downstreamResponse _ | .advance _ => .isTrue trivial

instance (v : View) (a : Act) : Decidable (AnsweredAccepted v a) :=
  inferInstanceAs (Decidable (∀ r ∈ a.requests, r.reply.status = .accepted))

/-- A run of a port that was just bound, in an environment that keeps its promise. -/
def PortRun (P : Promise) (q : SCSlavePort) (w : World) : Prop :=
  Run World.step (fun w a => P w.view a) (.start q) w

/-- A list of acts that keep the promise leads to a run. -/
theorem exists_portRun {P : Promise} [∀ v a, Decidable (P v a)] {q : SCSlavePort} {p : World → Bool}
    (acts : List Act)
    (h : (exec World.step (fun w a => P w.view a) (.start q) acts).map p = some true) :
    ∃ w, PortRun P q w ∧ p w = true := exists_run_of_exec h

/-! ## Ports with one and two sockets -/

/-- A transactor with one socket. -/
def oneSocket : SlaveTransactorMulti where
  socketNum := 1
  socketNum_lt := by decide

/-- A port with one CPU, bound to a transactor with one socket. -/
def oneSocketPort : SCSlavePort :=
  let p := (((SCSlavePort.new none 0).updateCorePortMap
    ((∅ : TreeMap String (List ℕ)).insert "cpu0" [0])).setTransactorMulti oneSocket).initSocketMap
  { p with helper := p.helper.init p.socketMap.size }

theorem bound_oneSocketPort : oneSocketPort.Bound :=
  ⟨_, oneSocket, .update _ (.new none 0), rfl⟩

theorem two_lt : 2 < 2 ^ 32 := by decide

/-- A port with two CPUs, bound to a transactor with two sockets. -/
def twoSocketPort : SCSlavePort :=
  let p := (((SCSlavePort.new none 0).updateCorePortMap
    (((∅ : TreeMap String (List ℕ)).insert "cpu0" [0]).insert "cpu1" [1])).setTransactorMulti
      ⟨2, two_lt, false, ∅⟩).initSocketMap
  { p with helper := p.helper.init p.socketMap.size }

theorem bound_twoSocketPort : twoSocketPort.Bound :=
  ⟨_, ⟨2, two_lt, false, ∅⟩, .update _ (.new none 0), rfl⟩

/-- A read of requestor 0, answered with TLM_ACCEPTED. -/
def readRequest (packet : PacketPtr) : Request where
  packet := packet
  content := { cmd := { isRead := true, needsResponse := true } }
  reply := ⟨.accepted, .beginReq, 0⟩

/-- A read of requestor 1, answered with TLM_ACCEPTED. -/
def secondReadRequest (packet : PacketPtr) : Request :=
  { readRequest packet with content := { (readRequest packet).content with requestorId := 1 } }

end Gem5Wrapper
