import Gem5Wrapper.PortSystem

/-!
# The channels of a slave port

The port as a machine of small moves on its `View`: what each socket's request and response
channel is for. A request is refused while another one of its socket is open; it ends with the
first phase of its transaction, and who was refused meanwhile gets one retry; a response is
offered to gem5 once, waits in its slot if it is refused, and the payload goes back to the pool
after END_RESP.

`Stuck` lists the views in which a call faults instead. That the code makes these moves, and
faults in these views only, is proved in `Refinement`.
-/

namespace Gem5Wrapper

open Function (update)

namespace View

/-! ## Parts of a move -/

@[simps -fullyApplied] def emit (v : View) (o : Obs) : View :=
  { v with log := ⟨o, v.slots, v.events⟩ :: v.log }

@[simps -fullyApplied] def setRequest (v : View) (s : ℕ) (t : Option Ptr) : View :=
  { v with slots := { v.slots with request := update v.slots.request s t } }

@[simps -fullyApplied] def setOwed (v : View) (s : ℕ) (b : Bool) : View :=
  { v with slots := { v.slots with owed := update v.slots.owed s b } }

@[simps -fullyApplied] def setResponse (v : View) (s : ℕ) (t : Option Ptr) : View :=
  { v with slots := { v.slots with response := update v.slots.response s t } }

@[simps -fullyApplied] def store (v : View) (p : PacketPtr) (pkt : Packet) : View :=
  { v with packets := update v.packets p pkt }

@[simps -fullyApplied] def goto (v : View) (c : Cur) : View := { v with cur := c }

@[simps -fullyApplied] def notify (v : View) (t : Ptr) (ph : Phase) (delay k : ℕ) : View :=
  { v with events := TimedQueue.insert PayloadEvent.tick ⟨t, ph, v.now + delay, k⟩ v.events }

@[simps -fullyApplied] def addRef (v : View) (t : Ptr) : View :=
  { v with refs := update v.refs t (v.refs t + 1) }

/-- The last reference to a payload takes its extension and gives it back to the pool. -/
@[simps -fullyApplied] def dropRef (v : View) (t : Ptr) : View :=
  { v with
    refs := update v.refs t (v.refs t - 1)
    carried := if v.refs t = 1 then update v.carried t none else v.carried
    pool := if v.refs t = 1 then v.pool.free t else v.pool }

/-- The payload that the next transaction gets. -/
def next (v : View) : Ptr := v.pool.allocate.1

/-- The socket whose open request stands in the way of a request for socket `s`: with gem5
caches, an open request of socket 0 stands in the way of all. -/
def blocker (v : View) (s : ℕ) : ℕ := if v.cache ∧ v.slots.request 0 ≠ none then 0 else s

/-- gem5 may send the packet: it is a request, and not in flight, and the port is not between
`makeResponse` and `sendTimingResp`. -/
structure Sendable (v : View) (r : Request) : Prop where
  outside : ∀ t x, v.cur ≠ .entered t x
  request : r.content.cmd.isResponse = false
  free : ∀ t < v.pool.numberOfAllocations, ∀ x, v.carried t = some x → x.packet = r.packet →
    .resp x.serial r.packet true ∈ v.trace ∨ .release x.serial t ∈ v.trace

/-- A new transaction takes a payload from the pool, and its BEGIN_REQ leaves. -/
@[simps -fullyApplied] def begin (v : View) (r : Request) : View :=
  { v with
    carried := update v.carried v.next (some ⟨r.packet, v.target r.content, v.serial⟩)
    refs := update v.refs v.next (v.refs v.next + 1)
    address := update v.address v.next r.content.addr
    pool := v.pool.allocate.2
    serial := v.serial + 1
    packets := update v.packets r.packet { r.content with payloadDelay := 0, headerDelay := 0 }
    log := ⟨.beginReq v.serial v.next (v.target r.content) r.content.addr r.content.payloadDelay
        r.reply, v.slots, v.events⟩ ::
      ⟨.allocate v.serial v.next r.packet r.content.cmd.needsResponse, v.slots, v.events⟩ ::
      v.log }

/-- The first event is taken out of the queue. -/
@[simps! -fullyApplied] def pop (v : View) (e : PayloadEvent) (q : List PayloadEvent) : View :=
  ({ v with
    events := q
    cur := if e.p = Phase.beginResp then .popped e.t e.txn else .idle }).emit (.pec e.txn e.p)

/-- END_RESP leaves, and the port gives its reference back. -/
@[simps! -fullyApplied] def finish (v : View) (t : Ptr) (x : Gem5Extension) : View :=
  (((v.emit (.endResp x.serial t x.coreId (v.address t))).emit (.release x.serial t)).dropRef
    t).goto v.cur.next

section Trace

variable (v : View) (o : Obs) (s : ℕ) (t : Option Ptr) (p : Ptr) (k : ℕ)

@[simp] theorem trace_emit : (v.emit o).trace = o :: v.trace := rfl

@[simp] theorem trace_setRequest : (v.setRequest s t).trace = v.trace := rfl

@[simp] theorem trace_setOwed (b : Bool) : (v.setOwed s b).trace = v.trace := rfl

@[simp] theorem trace_setResponse : (v.setResponse s t).trace = v.trace := rfl

@[simp] theorem trace_store (pkt : Packet) : (v.store p pkt).trace = v.trace := rfl

@[simp] theorem trace_goto (c : Cur) : (v.goto c).trace = v.trace := rfl

@[simp] theorem trace_notify (ph : Phase) (d : ℕ) : (v.notify p ph d k).trace = v.trace := rfl

@[simp] theorem trace_addRef : (v.addRef p).trace = v.trace := rfl

@[simp] theorem trace_dropRef : (v.dropRef p).trace = v.trace := rfl

@[simp] theorem trace_begin (r : Request) : (v.begin r).trace =
    .beginReq v.serial v.next (v.target r.content) r.content.addr r.content.payloadDelay r.reply ::
      .allocate v.serial v.next r.packet r.content.cmd.needsResponse :: v.trace := rfl

@[simp] theorem trace_pop (e : PayloadEvent) (q : List PayloadEvent) :
    (v.pop e q).trace = .pec e.txn e.p :: v.trace := rfl

@[simp] theorem trace_finish (x : Gem5Extension) : (v.finish p x).trace =
    .release x.serial p :: .endResp x.serial p x.coreId (v.address p) :: v.trace := rfl

end Trace

end View

/-! ## Moves -/

section Moves

variable (P : Promise)

/-- gem5 makes the request in an act that keeps the promise. -/
def Makes (r : Request) : Prop := ∃ v a, P v a ∧ r ∈ Act.requests a

/-- gem5 gives the answer to a response that it has asked for. -/
def Resends (accepted : Bool) : Prop :=
  ∃ v answers, P v (.recvRespRetry answers) ∧ ∃ a ∈ answers, a.accept = accepted

/-- A request that is not refused. -/
structure Admitted (v : View) (r : Request) : Prop where
  makes : Makes P r
  sendable : v.Sendable r
  free : v.slots.request (v.blocker (v.target r.content)) = none
  known : v.target r.content < v.known
  socket : v.target r.content < v.sockets

/-- The port services the first event of its queue. -/
structure Serviced (v : View) (e : PayloadEvent) (q : List PayloadEvent) : Prop where
  promise : ∃ o, P v (.service o)
  idle : v.cur = .idle
  events : v.events = e :: q
  due : e.tick = v.now

/-- The port ends the request phase of a socket: the one that the payload blocks, or, if it
blocks another one, the one that its extension names. -/
def Closes (v : View) (t : Ptr) (s : ℕ) : Prop :=
  v.slots.request s = some t ∨
    ∃ i x, v.slots.request i = some t ∧ v.carried t = some x ∧ x.coreId = s

/-- The response of a transaction has been dealt with: it needs none, or gem5 has accepted it. -/
def Done (v : View) (t : Ptr) (x : Gem5Extension) : Prop :=
  v.cur = .entered t x ∧ (v.packets x.packet).cmd.isResponse = false ∨
    ∃ again, v.cur = .answered t x again true

/-- What a port can do. -/
inductive Move : View → View → Prop
  | refuse {v : View} {r : Request} {t : Ptr} : Makes P r → v.Sendable r →
      v.slots.request (v.blocker (v.target r.content)) = some t →
      Move v (((v.store r.packet r.content).emit (.refused (v.serialOf t))).setOwed
        (v.blocker (v.target r.content)) true)
  | accepted {v : View} {r : Request} : Admitted P v r → r.reply.status = .accepted →
      Move v ((v.begin r).setRequest (v.target r.content) (some v.next))
  | updated {v : View} {r : Request} : Admitted P v r → r.reply.status = .updated →
      r.reply.phase = .endReq ∨ r.reply.phase = .beginResp →
      Move v ((v.begin r).notify v.next r.reply.phase r.reply.delay v.serial)
  | completed {v : View} {r : Request} : Admitted P v r → r.reply.status = .completed →
      Move v (((v.begin r).emit (.release v.serial v.next)).dropRef v.next)
  /-- A phase ends the request, and nobody was refused. -/
  | close {v : View} {e : PayloadEvent} {q : List PayloadEvent} {s : ℕ} : Serviced P v e q →
      e.p = .endReq ∨ e.p = .beginResp → Closes v e.t s → v.slots.owed s = false →
      Move v ((v.pop e q).setRequest s none)
  /-- A phase ends the request, and gem5 gets the retry it is owed. -/
  | retry {v : View} {e : PayloadEvent} {q : List PayloadEvent} {s : ℕ} : Serviced P v e q →
      e.p = .endReq ∨ e.p = .beginResp → Closes v e.t s → v.slots.owed s = true →
      Move v ((((v.pop e q).setRequest s none).setOwed s false).emit (.retryReq e.txn))
  /-- A phase of a request that has ended already (or of a payload in the wrong slot). -/
  | keep {v : View} {e : PayloadEvent} {q : List PayloadEvent} : Serviced P v e q →
      (e.p ≠ .endReq ∧ (e.p = .beginResp → ∀ i, v.slots.request i ≠ some e.t)) ∨
        (∃ i x, v.slots.request i = some e.t ∧ v.carried e.t = some x ∧ i ≠ x.coreId) →
      Move v (v.pop e q)
  | enter {v : View} {t : Ptr} {k : ℕ} {x : Gem5Extension} : v.cur = .popped t k →
      v.carried t = some x → v.slots.response x.coreId = none →
      (v.packets x.packet).cmd.needsResponse = false → Move v (v.goto (.entered t x))
  | makeResponse {v : View} {t : Ptr} {k : ℕ} {x : Gem5Extension} : v.cur = .popped t k →
      v.carried t = some x → v.slots.response x.coreId = none →
      (v.packets x.packet).cmd.needsResponse = true →
      Move v (((v.store x.packet (v.packets x.packet).makeResponse).emit
        (.makeResponse x.serial x.packet)).goto (.entered t x))
  | respond {v : View} {t : Ptr} {x : Gem5Extension} {accepted : Bool} : v.cur = .entered t x →
      (v.packets x.packet).cmd.isResponse = true →
      Move v ((v.emit (.resp x.serial x.packet accepted)).goto (.answered t x false accepted))
  | block {v : View} {t : Ptr} {x : Gem5Extension} : v.cur = .answered t x false false →
      Move v ((v.setResponse x.coreId (some t)).goto .idle)
  | finish {v : View} {t : Ptr} {x : Gem5Extension} : Done v t x → 0 < v.refs t →
      Move v (v.finish t x)
  | respRetry {v : View} : v.cur = .idle → Move v ((v.emit .respRetry).goto .retrying)
  | take {v : View} {t : Ptr} {x : Gem5Extension} {i s : ℕ} : v.cur = .retrying →
      v.slots.response i = some t → v.carried t = some x → s = i ∨ s = x.coreId →
      Move v ((v.setResponse s none).goto (.taken t x))
  | resend {v : View} {t : Ptr} {x : Gem5Extension} {accepted : Bool} : v.cur = .taken t x →
      Resends P accepted →
      Move v ((v.emit (.resp x.serial x.packet accepted)).goto (.answered t x true accepted))
  | retried {v : View} : (∀ s, v.slots.response s = none) → v.cur = .retrying →
      Move v (v.goto .idle)
  | bw {v : View} {k : ℕ} {t : Ptr} {ph : Phase} {delay : ℕ} :
      P v (.nbTransportBw k t ph delay) →
      Move v ((v.emit (.bw k ph (v.now + delay))).notify t ph delay k)
  | targetAcquire {v : View} {k : ℕ} {t : Ptr} : P v (.targetAcquire k t) →
      t < v.pool.numberOfAllocations → Move v ((v.emit (.targetAcquire k)).addRef t)
  | targetRelease {v : View} {k : ℕ} {t : Ptr} : P v (.targetRelease k t) → 0 < v.refs t →
      Move v ((v.emit (.targetRelease k)).dropRef t)
  | downstream {v : View} {p : PacketPtr} : (v.packets p).cmd.needsResponse = true →
      Move v (v.store p (v.packets p).makeResponse)
  | advance {v : View} {d : ℕ} : (∀ e ∈ v.events, v.now + d ≤ e.tick) →
      Move v { v with now := v.now + d }

/-- The views in which a call faults, with the fault. -/
inductive Stuck : View → Fault → Prop
  | environment {v : View} {what : String} : Stuck v (.environment what)
  | panic {v : View} {message : String} : Stuck v (.panic message)
  | owed {v : View} : v.cache = true → v.slots.owed 0 = true →
      Stuck v (.scAssert "SCSlavePort::recvTimingReq" "!needToSendRequestRetry")
  | unknown {v : View} {r : Request} : Makes P r → ¬ v.target r.content < v.known →
      Stuck v (.assert "BlockingPacketHelper::getBlockingTrans" "core_id < this->socket_num")
  | outside {v : View} {r : Request} : Makes P r → ¬ v.target r.content < v.sockets →
      Stuck v (.undefinedBehaviour "transactor_multi->sockets[socket_id]")
  | accepted {v : View} {r : Request} : Makes P r → r.reply.status = .accepted →
      r.reply.phase ≠ .beginReq →
      Stuck v (.scAssert "SCSlavePort::recvTimingReq" "phase == BEGIN_REQ")
  | updated {v : View} {r : Request} : Makes P r → r.reply.status = .updated →
      ¬ (r.reply.phase = .endReq ∨ r.reply.phase = .beginResp) →
      Stuck v (.scAssert "SCSlavePort::recvTimingReq" "phase == END_REQ || phase == BEGIN_RESP")
  | completed {v : View} {r : Request} : Makes P r → r.reply.status = .completed →
      r.reply.phase ≠ .endResp →
      Stuck v (.scAssert "SCSlavePort::recvTimingReq" "phase == END_RESP")
  | notBlocking {v : View} {e : PayloadEvent} {q : List PayloadEvent} : Serviced P v e q →
      e.p = .endReq → (∀ i, v.slots.request i ≠ some e.t) →
      Stuck v (.scAssert "SCSlavePort::pec"
        "blk_pkt_helper->isBlockingTrans(&trans, pktType::Request)")
  | noExtension {v : View} {t : Ptr} : v.carried t = none →
      ((∃ e q i, Serviced P v e q ∧ e.t = t ∧ v.slots.request i = some t) ∨
        (∃ k, v.cur = .popped t k) ∨ (v.cur = .retrying ∧ ∃ i, v.slots.response i = some t)) →
      Stuck v (.scAssert "Gem5Extension::getExtension" "result!=NULL")
  | blocked {v : View} {t : Ptr} {k : ℕ} {x : Gem5Extension} {condition : String} :
      v.cur = .popped t k → v.carried t = some x → v.slots.response x.coreId ≠ none →
      Stuck v (.scAssert "SCSlavePort::pec" condition)
  | refused {v : View} {t : Ptr} {x : Gem5Extension} : v.cur = .answered t x true false →
      Stuck v (.scAssert "SCSlavePort::recvRespRetry" "!need_retry")
  | finish {v : View} {t : Ptr} {x : Gem5Extension} : Done v t x → v.refs t = 0 →
      Stuck v (.scAssert "tlm_generic_payload::release" "m_mm != 0 && m_ref_count > 0")
  | targetAcquire {v : View} {k : ℕ} {t : Ptr} : P v (.targetAcquire k t) →
      v.pool.numberOfAllocations ≤ t →
      Stuck v (.scAssert "tlm_generic_payload::acquire" "m_mm != 0")
  | targetRelease {v : View} {k : ℕ} {t : Ptr} : P v (.targetRelease k t) → v.refs t = 0 →
      Stuck v (.scAssert "tlm_generic_payload::release" "m_mm != 0 && m_ref_count > 0")

end Moves

/-- `u` is reached from `v` by moves. -/
def Moves (P : Promise) : View → View → Prop := Relation.ReflTransGen (Move P)

variable {P : Promise} {v u : View}

/-- No move changes the first four fields. -/
theorem Move.static (h : Move P v u) : u.cache = v.cache ∧ u.known = v.known ∧
    u.sockets = v.sockets ∧ u.target = v.target := by
  cases h <;> simp

theorem Moves.static (h : Moves P v u) : u.cache = v.cache ∧ u.known = v.known ∧
    u.sockets = v.sockets ∧ u.target = v.target := by
  induction h with
  | refl => exact ⟨rfl, rfl, rfl, rfl⟩
  | tail _ hm ih =>
    obtain ⟨h₁, h₂, h₃, h₄⟩ := hm.static
    exact ⟨h₁.trans ih.1, h₂.trans ih.2.1, h₃.trans ih.2.2.1, h₄.trans ih.2.2.2⟩

theorem Moves.invariant {I : View → Prop} (h : Moves P v u) (hv : I v)
    (hstep : ∀ v u, I v → Move P v u → I u) : I u := by
  induction h with
  | refl => exact hv
  | tail _ hm ih => exact hstep _ _ ih hm

/-- The fault happens in a view reached from `v`. -/
def Stops (P : Promise) (v : View) (f : Fault) : Prop := ∃ u, Moves P v u ∧ Stuck P u f

end Gem5Wrapper
