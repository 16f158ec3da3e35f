import Gem5Wrapper.Effects
import Gem5Wrapper.Transactions
import Gem5Wrapper.Lib.History
import Gem5Wrapper.Lib.Layers

/-!
# The journeys of the packets of a chain

A packet has come to where it is through some hops, and in each of them it has left a transaction
behind (`Txn`): a payload that the slave port holds for it. When master port `k` sends the packet
into world `k + 1`, it pushes the label of the transaction of hop `k`, so that the sender states of
the packet lie in layers. `Journey` says this of each packet.

What the ports and the event queues of a hop name are packets at the stations of this hop
(`SlaveOk`, `MasterOk`). What happens in a hop leaves the transactions of other packets, and those
of the lower hops, as they are (`Touches`).
-/

namespace Gem5Wrapper

open FaultMachine History
open Function (update)

/-- The payloads whose BEGIN_RESP is scheduled. -/
def PayloadEvent.responses (q : List PayloadEvent) : List Ptr :=
  (q.filter fun e => e.p = .beginResp).map PayloadEvent.t

theorem PayloadEvent.responses_insert (e : PayloadEvent) (q : List PayloadEvent) :
    (responses (TimedQueue.insert PayloadEvent.tick e q)).Perm (responses (e :: q)) :=
  ((TimedQueue.insert_perm e q).filter _).map _

/-- The stations of packets that the slave port of a hop knows. -/
def Place.ofSlave : Place → Bool
  | .scheduled | .serving | .sending | .refused => true
  | .forward | .queued | .pending | .backward => false

/-- The stations of packets that the master port of a hop knows. -/
def Place.ofMaster : Place → Bool
  | .queued | .pending => true
  | .forward | .backward | .scheduled | .serving | .sending | .refused => false

/-- The stations of packets whose response is on its way. -/
def Place.back : Place → Bool
  | .backward | .scheduled | .serving | .sending | .refused => true
  | .forward | .queued | .pending => false

theorem Place.ofMaster_of_back {place : Place} (h : place.back = true) :
    place.ofMaster = false := by
  cases place <;> first | rfl | cases h

/-- The slave port of the hop, its events and its calls are as before. -/
structure Hop.SameSlave (h' h : Hop) : Prop where
  slave : h'.slave = h.slave
  events : h'.events = h.events
  serving : h'.serving = h.serving
  responding : h'.responding = h.responding

/-- What the master port of the hop names is as before. -/
structure Hop.SameMaster (h' h : Hop) : Prop where
  peq : h'.peq = h.peq
  requesting : h'.requesting = h.requesting
  pendingRequest : h'.pendingRequest = h.pendingRequest
  pendingPacket : h'.pendingPacket = h.pendingPacket

namespace Chain

/-! ## The history of a packet -/

variable {c c' : Chain} {j k m n : ℕ} {x y : Ptr} {p q : PacketPtr} {l : List SenderState}
  {place : Place}

namespace Obs

def packet : Obs → PacketPtr
  | .prepared _ p | .request _ _ _ p _ | .begun _ _ _ p | .arrived _ p _ _ | .beginResp _ _ _ p |
    .makeResponse p | .resp _ _ _ p _ _ => p

/-- Packet `p` goes from world `k` into hop `k`, or comes back. -/
def crosses (k : ℕ) (p : PacketPtr) : Obs → Bool
  | .request j _ _ q _ => j = k ∧ q = p
  | .resp j _ _ q _ accepted => accepted ∧ j = k ∧ q = p
  | _ => false

/-- Master port `k` pushes its sender state on packet `p`. -/
def begins (k : ℕ) (p : PacketPtr) : Obs → Bool
  | .begun j _ _ q => j = k ∧ q = p
  | _ => false

variable {o : Obs}

theorem crosses_of_packet (h : o.packet ≠ p) : o.crosses k p = false := by
  cases o <;> simp_all [packet, crosses]

theorem begins_of_packet (h : o.packet ≠ p) : o.begins k p = false := by
  cases o <;> simp_all [packet, begins]

end Obs

/-- Packet `p` has stayed beyond world `k`, and it has been turned into a response once if it is one
(`r`), and not at all otherwise. -/
structure Away (k : ℕ) (p : PacketPtr) (r : Bool) (l : List Obs) : Prop where
  stays : ∀ o ∈ l, o.crosses k p = false
  turned : l.count (.makeResponse p) = r.toNat

theorem Away.cons {r : Bool} {o : Obs} {past : List Obs} (h : Away k p r past)
    (ho : o.crosses k p = false) (hn : o ≠ .makeResponse p) : Away k p r (o :: past) := by
  constructor
  · exact List.forall_mem_cons.2 ⟨ho, h.stays⟩
  · rw [List.count_cons_of_ne hn, h.turned]

/-- Master port `k` has pushed nothing more on packet `p`. -/
def LastPush (k : ℕ) (p : PacketPtr) (l : List Obs) : Prop := ∀ o ∈ l, o.begins k p = false

/-- What transparency says of each event. A response that arrives at master port `k` has on top the
sender state that this port has pushed for the transaction that brought the packet in, and below
it the stack which the packet came with. BEGIN_RESP is sent for this transaction. The packet that
slave port `k` sends back is the one of the transaction, with its stack, and has been turned into a
response exactly once. -/
def Transparent : Obs → List Obs → Prop
  | .arrived k p stack _, past => ∃ x n rest, stack = .tlm k x n :: rest ∧
      Since (.begun k x n p) (LastPush k p) past ∧
        Since (.request k x n p rest) (Away k p true) past
  | .beginResp k x n p, past => ∃ m rest past', n = some m ∧
      past = .arrived k p (.tlm k x m :: rest) true :: past'
  | .resp k x n p stack _, past => Since (.request k x n p stack) (Away k p true) past
  | _, _ => True

/-! ## Where packets and payloads are -/

/-- Payload `x` is that of transaction `n`, for which slave port `k` has taken packet `p` with
stack `l` and waits. -/
structure Txn (c : Chain) (p : PacketPtr) (k : ℕ) (x : Ptr) (n : ℕ) (l : List SenderState) :
    Prop where
  extension : ∃ s, (c.payloads x).extension = some ⟨p, s, n⟩
  hop : (c.owners x).hop = k
  slave : (c.owners x).slave = true
  waiting : (c.owners x).waiting = true
  taken : Since (.request k x n p l) (Away k p (c.packets p).cmd.isResponse) c.trace

/-- Sender state `a`, on top of stack `l`, is what master port `k` has pushed for the transaction
of hop `k`. -/
def Label (c : Chain) (p : PacketPtr) (k : ℕ) (a : SenderState) (l : List SenderState) : Prop :=
  ∃ x n, a = .tlm k x n ∧ c.Txn p k x n l ∧ (c.owners x).begun = true ∧
    Since (.begun k x n p) (LastPush k p) c.trace

/-- `l` is a stack that the packet can have in world `k`. -/
def Stack (c : Chain) (p : PacketPtr) (k : ℕ) (l : List SenderState) : Prop :=
  Layers (c.home p) (c.Label p) (c.pushed p) k l

/-- What holds of a packet at a station of hop `k`, with payload `x`, that has come with stack
`l`. -/
def AtStation (c : Chain) (p : PacketPtr) (k : ℕ) (x : Ptr) (l : List SenderState) : Place → Prop
  | .forward => c.senderStates p = l ∧ (c.owners x).accepted = false
  | .queued => c.senderStates p = l ∧ (c.owners x).queued = true ∧ (c.owners x).accepted = false
  | .pending => (∃ a, c.senderStates p = a :: l ∧ c.Label p k a l) ∧
      (c.owners x).queued = true ∧ (c.owners x).accepted = false
  | .backward | .scheduled | .serving | .sending | .refused => c.senderStates p = l ∧
      (c.packets p).cmd.isResponse = true

theorem atStation_of_back (h : place.back = true) : c.AtStation p k x l place ↔
    c.senderStates p = l ∧ (c.packets p).cmd.isResponse = true := by
  cases place <;> first | exact .rfl | cases h

def Journey (c : Chain) (p : PacketPtr) : Prop :=
  match c.holder p with
  | .gem5 k => c.Stack p k (c.senderStates p)
  | .hop k place x => ∃ n l, c.Txn p k x n l ∧ c.Stack p k l ∧ c.AtStation p k x l place

theorem Journey.stack (h : c.Journey p) (hh : c.holder p = .gem5 k) :
    c.Stack p k (c.senderStates p) := by
  unfold Journey at h
  rw [hh] at h
  exact h

theorem Journey.txn (h : c.Journey p) (hh : c.holder p = .hop k place x) :
    ∃ n l, c.Txn p k x n l ∧ c.Stack p k l ∧ c.AtStation p k x l place := by
  unfold Journey at h
  rw [hh] at h
  exact h

theorem journey_of_gem5 (hh : c.holder p = .gem5 k) (hs : c.Stack p k (c.senderStates p)) :
    c.Journey p := by
  unfold Journey
  rw [hh]
  exact hs

theorem journey_of_hop (hh : c.holder p = .hop k place x) (ht : c.Txn p k x n l)
    (hs : c.Stack p k l) (ha : c.AtStation p k x l place) : c.Journey p := by
  unfold Journey
  rw [hh]
  exact ⟨n, l, ht, hs, ha⟩

/-- Some packet is at the station, with payload `x`. -/
def IsAt (c : Chain) (k : ℕ) (place : Place) (x : Ptr) : Prop := ∃ p, c.holder p = .hop k place x

theorem IsAt.txn (h : c.IsAt k place x) (hj : ∀ p, c.Journey p) :
    ∃ p n l, c.holder p = .hop k place x ∧ c.Txn p k x n l ∧ c.Stack p k l ∧
      c.AtStation p k x l place := by
  obtain ⟨p, hp⟩ := h
  obtain ⟨n, l, h⟩ := (hj p).txn hp
  exact ⟨p, n, l, hp, h⟩

/-- Slave port `k` is about to release the payload. -/
structure Leaving (c : Chain) (k : ℕ) (x : Ptr) : Prop where
  hop : (c.owners x).hop = k
  slave : (c.owners x).slave = true
  waiting : (c.owners x).waiting = false

/-- Master port `k` is about to release the payload, whose packet gem5 has taken. -/
structure Accepted (c : Chain) (k : ℕ) (x : Ptr) : Prop where
  hop : (c.owners x).hop = k
  queued : (c.owners x).queued = true
  accepted : (c.owners x).accepted = true

/-- The packet of a request that a master port has sent, or sends. -/
structure RequestOk (c : Chain) (k : ℕ) (r : Requesting) : Prop where
  accepted : r.accepted = true → c.Accepted k r.trans
  refused : r.accepted = false → c.holder r.packet = .hop k .pending r.trans
  again : r.again = true → (c.hops k).pendingRequest = some r.trans ∧
    (c.hops k).pendingPacket = some r.packet
  first : r.again = false → (c.hops k).pendingRequest = none

/-- What the slave port of a hop and its events name is where it should be, and named once. -/
structure SlaveOk (c : Chain) (k : ℕ) : Prop where
  port : (c.hops k).slave.Ok
  scheduled : ∀ x ∈ PayloadEvent.responses (c.hops k).events, c.IsAt k .scheduled x
  distinct : (PayloadEvent.responses (c.hops k).events).Nodup
  serving : ∀ e ∈ (c.hops k).serving, e.p = .beginResp ∧ c.IsAt k .serving e.t
  sending : ∀ r ∈ (c.hops k).responding, r.needRetry = true →
    c.IsAt k .sending r.trans ∧ (c.payloads r.trans).extension = some r.extension
  leaving : ∀ r ∈ (c.hops k).responding, r.needRetry = false → c.Leaving k r.trans
  refused : ∀ s x, (c.hops k).slave.slots.response s = some x →
    c.IsAt k .refused x ∧ ∃ e, (c.payloads x).extension = some e ∧ e.coreId = s

/-- What the master port of a hop and its queue name is where it should be, and named once. -/
structure MasterOk (c : Chain) (k : ℕ) : Prop where
  queued : ∀ x ∈ PeqEvent.queued (c.hops k).peq .beginReq, c.IsAt k .queued x
  distinct : (PeqEvent.queued (c.hops k).peq .beginReq).Nodup
  requesting : ∀ r ∈ (c.hops k).requesting, c.RequestOk k r
  pending : (c.hops k).requesting = none → ∀ x ∈ (c.hops k).pendingRequest,
    ∃ p, (c.hops k).pendingPacket = some p ∧ c.holder p = .hop k .pending x

/-- The references that the owners of a payload have. -/
def count (o : Owners) : ℕ :=
  o.slave.toNat + o.queued.toNat + o.begun.toNat + o.components

/-- The references to a payload cover its owners, and free payloads have none. -/
structure Books (c : Chain) : Prop where
  pool : Pool (c.world 0).view
  count : ∀ x, count (c.owners x) ≤ (c.payloads x).refCount

/-- What holds of every chain that a run comes to. -/
structure Inv (c : Chain) : Prop where
  journey : ∀ p, c.Journey p
  slave : ∀ k < c.length, c.SlaveOk k
  master : ∀ k < c.length, c.MasterOk k
  books : c.Books
  cmd : ∀ p, (c.packets p).cmd.isResponse = true → (c.packets p).cmd.needsResponse = false
  law : Along Transparent c.trace

/-! ## What happens elsewhere -/

/-- The payload is that of a transaction of packet `p`, which the slave port has not given back. -/
structure Live (c : Chain) (p : PacketPtr) (x : Ptr) : Prop where
  extension : ∃ s n, (c.payloads x).extension = some ⟨p, s, n⟩
  slave : (c.owners x).slave = true
  waiting : (c.owners x).waiting = true

theorem Txn.live (h : c.Txn p k x n l) : c.Live p x :=
  ⟨h.extension.imp fun _ hs => ⟨n, hs⟩, h.slave, h.waiting⟩

/-- A payload is that of one packet. -/
theorem Txn.packet_eq (h : c.Txn p k x n l) (hq : c.Live q x) : q = p := by
  obtain ⟨s, hs⟩ := h.extension
  obtain ⟨s', n', hs'⟩ := hq.extension
  rw [hs] at hs'
  exact (congrArg Gem5Extension.packet (Option.some.inj hs')).symm

theorem Txn.serial_eq {e : Gem5Extension} (h : c.Txn p k x n l)
    (he : (c.payloads x).extension = some e) : e.serial = n := by
  obtain ⟨s, hs⟩ := h.extension
  rw [he] at hs
  exact congrArg Gem5Extension.serial (Option.some.inj hs)

/-- Of a single packet it is known where it is. -/
theorem station_of_mem (hh : c.holder p = .hop k place x) (hq : q ∈ ({p} : Set PacketPtr))
    {a : Place} (ha : c.holder q = .hop j a y) : j = k ∧ a = place ∧ y = x := by
  obtain rfl : q = p := hq
  rw [hh] at ha
  cases ha
  exact ⟨rfl, rfl, rfl⟩

theorem not_station_of_mem (hh : c.holder p = .gem5 k) (hq : q ∈ ({p} : Set PacketPtr)) :
    c.holder q ≠ .hop j place y := by
  obtain rfl : q = p := hq
  rw [hh]
  intro h
  cases h

/-- Payload `x` stays that of its transaction. -/
structure Stays (c c' : Chain) (x : Ptr) : Prop where
  extension : (c'.payloads x).extension = (c.payloads x).extension
  hop : (c'.owners x).hop = (c.owners x).hop
  slave : (c'.owners x).slave = (c.owners x).slave
  waiting : (c'.owners x).waiting = (c.owners x).waiting

/-- Payload `x` stays as it is for a packet on its way. -/
structure Unmoved (c c' : Chain) (x : Ptr) : Prop extends Stays c c' x where
  begun : (c'.owners x).begun = (c.owners x).begun
  accepted : (c'.owners x).accepted = (c.owners x).accepted
  queued : (c.owners x).accepted = false → (c'.owners x).queued = (c.owners x).queued

theorem Leaving.stays (h : c.Leaving k x) (hs : c.Stays c' x) : c'.Leaving k x :=
  ⟨hs.hop.trans h.hop, hs.slave.trans h.slave, hs.waiting.trans h.waiting⟩

/-- The transactions of packet `p` in the hops below `m` stay as they are. -/
structure Keeps (c c' : Chain) (p : PacketPtr) (m : ℕ) : Prop where
  payload : ∀ x, c.Live p x → (c.owners x).hop < m → c.Stays c' x
  begun : ∀ x, c.Live p x → (c.owners x).hop < m → (c'.owners x).begun = (c.owners x).begun
  trace : ∃ new, c'.trace = new ++ c.trace ∧
    (∀ o ∈ new, ∀ k < m, o.crosses k p = false ∧ o.begins k p = false) ∧
      new.count (.makeResponse p) + (c.packets p).cmd.isResponse.toNat =
        (c'.packets p).cmd.isResponse.toNat

theorem Keeps.away (hk : c.Keeps c' p m) (hm : k < m) {o : Obs}
    (h : Since o (Away k p (c.packets p).cmd.isResponse) c.trace) :
    Since o (Away k p (c'.packets p).cmd.isResponse) c'.trace := by
  obtain ⟨new, htr, hnew, hcount⟩ := hk.trace
  rw [htr]
  apply h.append
  intro l hl
  constructor
  · exact List.forall_mem_append.2 ⟨fun o' ho' => (hnew o' ho' k hm).1, hl.stays⟩
  · rw [List.count_append, hl.turned, hcount]

theorem Keeps.lastPush (hk : c.Keeps c' p m) (hm : k < m) {o : Obs}
    (h : Since o (LastPush k p) c.trace) : Since o (LastPush k p) c'.trace := by
  obtain ⟨new, htr, hnew, -⟩ := hk.trace
  rw [htr]
  apply h.append
  intro l hl
  exact List.forall_mem_append.2 ⟨fun o' ho' => (hnew o' ho' k hm).2, hl⟩

theorem Txn.stays (h : c.Txn p k x n l) (hs : c.Stays c' x)
    (htaken : Since (.request k x n p l) (Away k p (c'.packets p).cmd.isResponse) c'.trace) :
    c'.Txn p k x n l := by
  refine ⟨?_, ?_, ?_, ?_, htaken⟩
  · rw [hs.extension]
    exact h.extension
  · rw [hs.hop, h.hop]
  · rw [hs.slave, h.slave]
  · rw [hs.waiting, h.waiting]

theorem Txn.keep (h : c.Txn p k x n l) (hk : c.Keeps c' p m) (hm : k < m) :
    c'.Txn p k x n l :=
  h.stays (hk.payload x h.live (h.hop.symm ▸ hm)) (hk.away hm h.taken)

theorem Label.keep {a : SenderState} (h : c.Label p k a l) (hk : c.Keeps c' p m) (hm : k < m) :
    c'.Label p k a l := by
  obtain ⟨x, n, ha, ht, hb, hl⟩ := h
  refine ⟨x, n, ha, ht.keep hk hm, ?_, hk.lastPush hm hl⟩
  rw [hk.begun x ht.live (ht.hop.symm ▸ hm), hb]

/-- The labels of the hops below `k` stay. -/
theorem Stack.labels (h : c.Stack p k l) (hk : c.Keeps c' p k) :
    Layers (c.home p) (c'.Label p) (c.pushed p) k l :=
  h.mono (fun _ _ _ hj hl => hl.keep hk hj) fun _ _ => rfl

theorem Stack.keep (h : c.Stack p k l) (hk : c.Keeps c' p k) (hhome : c'.home p = c.home p)
    (hpushed : c'.pushed p = c.pushed p) : c'.Stack p k l := by
  have hl := h.labels hk
  rw [← hhome, ← hpushed] at hl
  exact hl

/-- Only the payloads in `X` and the packets in `P` are touched. -/
structure Touches (c c' : Chain) (X : Set Ptr) (P : Set PacketPtr) : Prop where
  length : c'.length = c.length
  extension : ∀ x ∉ X, (c.owners x).slave = true →
    (c'.payloads x).extension = (c.payloads x).extension
  owners : ∀ x ∉ X, ∃ m, c'.owners x = { c.owners x with components := m }
  holder : ∀ p ∉ P, c'.holder p = c.holder p
  home : ∀ p ∉ P, c'.home p = c.home p
  stack : ∀ p ∉ P, c'.senderStates p = c.senderStates p
  pushed : ∀ p ∉ P, c'.pushed p = c.pushed p
  isResponse : ∀ p ∉ P, (c'.packets p).cmd.isResponse = (c.packets p).cmd.isResponse
  trace : ∃ new, c'.trace = new ++ c.trace ∧ ∀ o ∈ new, o.packet ∈ P

/-- What a step does not write is as here. -/
theorem Touches.refl (c : Chain) (X : Set Ptr) (P : Set PacketPtr) : c.Touches c X P :=
  ⟨rfl, fun _ _ _ => rfl, fun _ _ => ⟨_, rfl⟩, fun _ _ => rfl, fun _ _ => rfl, fun _ _ => rfl,
    fun _ _ => rfl, fun _ _ => rfl, [], rfl, fun _ ho => absurd ho List.not_mem_nil⟩

namespace Touches

variable {X : Set Ptr} {P : Set PacketPtr} (ht : c.Touches c' X P)

include ht

theorem unmoved (hx : x ∉ X) (hs : (c.owners x).slave = true) : c.Unmoved c' x := by
  obtain ⟨m, hm⟩ := ht.owners x hx
  refine ⟨⟨ht.extension x hx hs, ?_, ?_, ?_⟩, ?_, ?_, fun _ => ?_⟩ <;> rw [hm]

theorem stays (hx : x ∉ X) (hs : (c.owners x).slave = true) : c.Stays c' x :=
  (ht.unmoved hx hs).toStays

theorem keeps (hp : p ∉ P) (hX : ∀ x ∈ X, c.Live p x → c.Unmoved c' x) (m : ℕ) :
    c.Keeps c' p m := by
  have hunmoved : ∀ x, c.Live p x → c.Unmoved c' x := by
    intro x hx
    by_cases hxX : x ∈ X
    · exact hX x hxX hx
    · exact ht.unmoved hxX hx.slave
  constructor
  · exact fun x hx _ => (hunmoved x hx).toStays
  · exact fun x hx _ => (hunmoved x hx).begun
  · obtain ⟨new, htr, hnew⟩ := ht.trace
    have hne : ∀ o ∈ new, o.packet ≠ p := fun o ho hop => hp (hop ▸ hnew o ho)
    refine ⟨new, htr, fun o ho k _ => ?_, ?_⟩
    · exact ⟨Obs.crosses_of_packet (hne o ho), Obs.begins_of_packet (hne o ho)⟩
    · have : new.count (.makeResponse p) = 0 := List.count_eq_zero.2 fun hm => hp (hnew _ hm)
      rw [this, Nat.zero_add, ht.isResponse p hp]

/-- The transactions of any packet in the hops below `m`, where nothing happens. -/
theorem keeps_below (hX : ∀ x ∈ X, c.Live p x → m ≤ (c.owners x).hop) {new : List Obs}
    (htr : c'.trace = new ++ c.trace)
    (hnew : ∀ o ∈ new, ∀ k < m, o.crosses k p = false ∧ o.begins k p = false)
    (hr : new.count (.makeResponse p) + (c.packets p).cmd.isResponse.toNat =
      (c'.packets p).cmd.isResponse.toNat) : c.Keeps c' p m := by
  have hunmoved : ∀ x, c.Live p x → (c.owners x).hop < m → c.Unmoved c' x := by
    intro x hx hm
    apply ht.unmoved _ hx.slave
    exact fun hxX => absurd hm (Nat.not_lt.2 (hX x hxX hx))
  exact ⟨fun x hx hm => (hunmoved x hx hm).toStays, fun x hx hm => (hunmoved x hx hm).begun,
    new, htr, hnew, hr⟩

/-- A step that leaves the history alone leaves the transactions alone. -/
theorem keeps_of_trace (hX : ∀ x ∈ X, c.Live p x → m ≤ (c.owners x).hop)
    (htr : c'.trace = c.trace)
    (hr : (c'.packets p).cmd.isResponse = (c.packets p).cmd.isResponse) : c.Keeps c' p m := by
  have hnil : c'.trace = [] ++ c.trace := htr
  refine ht.keeps_below hX hnil (by simp) ?_
  rw [hr, List.count_nil, Nat.zero_add]

/-- A step with one event. -/
theorem keeps_of_event {o : Obs} (hX : ∀ x ∈ X, c.Live p x → m ≤ (c.owners x).hop)
    (htr : c'.trace = o :: c.trace)
    (ho : ∀ k < m, o.crosses k p = false ∧ o.begins k p = false) (hn : o ≠ .makeResponse p)
    (hr : (c'.packets p).cmd.isResponse = (c.packets p).cmd.isResponse) : c.Keeps c' p m := by
  have htr : c'.trace = [o] ++ c.trace := htr
  refine ht.keeps_below hX htr (by simpa using ho) ?_
  rw [hr, List.count_singleton, beq_eq_false_iff_ne.2 hn]
  simp

/-- The journeys of the other packets. -/
theorem journey (hp : p ∉ P) (hX : ∀ x ∈ X, c.Live p x → c.Unmoved c' x) (hj : c.Journey p) :
    c'.Journey p := by
  have hk := ht.keeps hp hX
  unfold Journey at hj ⊢
  rw [ht.holder p hp]
  cases hh : c.holder p with
  | gem5 k =>
    rw [hh] at hj
    show c'.Stack p k (c'.senderStates p)
    rw [ht.stack p hp]
    exact Stack.keep hj (hk k) (ht.home p hp) (ht.pushed p hp)
  | hop k place x =>
    rw [hh] at hj
    obtain ⟨n, l, htxn, hstack, hat⟩ := hj
    have hs : c.Unmoved c' x := by
      by_cases hx : x ∈ X
      · exact hX x hx htxn.live
      · exact ht.unmoved hx htxn.slave
    refine ⟨n, l, htxn.keep (hk (k + 1)) (Nat.lt_succ_self k),
      hstack.keep (hk k) (ht.home p hp) (ht.pushed p hp), ?_⟩
    cases place with
    | forward => exact ⟨(ht.stack p hp).trans hat.1, hs.accepted.trans hat.2⟩
    | queued =>
      exact ⟨(ht.stack p hp).trans hat.1, (hs.queued hat.2.2).trans hat.2.1,
        hs.accepted.trans hat.2.2⟩
    | pending =>
      obtain ⟨⟨a, ha, hl⟩, hq, hacc⟩ := hat
      exact ⟨⟨a, (ht.stack p hp).trans ha, hl.keep (hk (k + 1)) (Nat.lt_succ_self k)⟩,
        (hs.queued hacc).trans hq, hs.accepted.trans hacc⟩
    | backward | scheduled | serving | sending | refused =>
      exact ⟨(ht.stack p hp).trans hat.1, (ht.isResponse p hp).trans hat.2⟩

theorem isAt (hP : ∀ p ∈ P, c.holder p ≠ .hop k place x) (h : c.IsAt k place x) :
    c'.IsAt k place x := by
  obtain ⟨p, hp⟩ := h
  exact ⟨p, (ht.holder p fun hpP => hP p hpP hp).trans hp⟩

/-! Of what a hop names, each part stays as it is when nothing happens to it. -/

theorem scheduled (h : c.SlaveOk k)
    (hev : (PayloadEvent.responses (c'.hops k).events).Perm
      (PayloadEvent.responses (c.hops k).events))
    (hP : ∀ p ∈ P, ∀ x, c.holder p ≠ .hop k .scheduled x) :
    ∀ x ∈ PayloadEvent.responses (c'.hops k).events, c'.IsAt k .scheduled x :=
  fun x hx => ht.isAt (fun p hp => hP p hp x) (h.scheduled x (hev.mem_iff.1 hx))

theorem serving (h : c.SlaveOk k) (hserving : (c'.hops k).serving = (c.hops k).serving)
    (hP : ∀ p ∈ P, ∀ x, c.holder p ≠ .hop k .serving x) :
    ∀ e ∈ (c'.hops k).serving, e.p = .beginResp ∧ c'.IsAt k .serving e.t := by
  rw [hserving]
  exact fun e he => ⟨(h.serving e he).1, ht.isAt (fun p hp => hP p hp e.t) (h.serving e he).2⟩

/-- A packet at a station keeps its extension. -/
theorem extension_of_isAt (hj : ∀ p, c.Journey p)
    (hX : ∀ x ∈ X, ∀ p, c.Live p x → (c.owners x).hop = k → c.Stays c' x)
    (h : c.IsAt k place x) : (c'.payloads x).extension = (c.payloads x).extension := by
  obtain ⟨p, n, l, -, htxn, -⟩ := h.txn hj
  by_cases hx : x ∈ X
  · exact (hX x hx p htxn.live htxn.hop).extension
  · exact ht.extension x hx htxn.slave

theorem sending (h : c.SlaveOk k) (hj : ∀ p, c.Journey p)
    (hresp : (c'.hops k).responding = (c.hops k).responding)
    (hP : ∀ p ∈ P, ∀ x, c.holder p ≠ .hop k .sending x)
    (hX : ∀ x ∈ X, ∀ p, c.Live p x → (c.owners x).hop = k → c.Stays c' x) :
    ∀ r ∈ (c'.hops k).responding, r.needRetry = true →
      c'.IsAt k .sending r.trans ∧ (c'.payloads r.trans).extension = some r.extension := by
  rw [hresp]
  intro r hr hn
  obtain ⟨hx, he⟩ := h.sending r hr hn
  exact ⟨ht.isAt (fun p hp => hP p hp _) hx, (ht.extension_of_isAt hj hX hx).trans he⟩

theorem leaving (h : c.SlaveOk k) (hresp : (c'.hops k).responding = (c.hops k).responding)
    (hX : ∀ x ∈ X, c.Leaving k x → c'.Leaving k x) :
    ∀ r ∈ (c'.hops k).responding, r.needRetry = false → c'.Leaving k r.trans := by
  rw [hresp]
  intro r hr hn
  have hl := h.leaving r hr hn
  by_cases hx : r.trans ∈ X
  · exact hX _ hx hl
  · exact hl.stays (ht.stays hx hl.slave)

theorem refused (h : c.SlaveOk k) (hj : ∀ p, c.Journey p)
    (hslots : (c'.hops k).slave.slots.response = (c.hops k).slave.slots.response)
    (hP : ∀ p ∈ P, ∀ x, c.holder p ≠ .hop k .refused x)
    (hX : ∀ x ∈ X, ∀ p, c.Live p x → (c.owners x).hop = k → c.Stays c' x) :
    ∀ s x, (c'.hops k).slave.slots.response s = some x →
      c'.IsAt k .refused x ∧ ∃ e, (c'.payloads x).extension = some e ∧ e.coreId = s := by
  rw [hslots]
  intro s x hx
  obtain ⟨hx, e, he, hs⟩ := h.refused s x hx
  exact ⟨ht.isAt (fun p hp => hP p hp x) hx, e, (ht.extension_of_isAt hj hX hx).trans he, hs⟩

/-- The slave port does nothing, or nothing that has to do with responses. -/
theorem slaveOk (h : c.SlaveOk k) (hj : ∀ p, c.Journey p)
    (hport : (c'.hops k).slave.Ok)
    (hslots : (c'.hops k).slave.slots.response = (c.hops k).slave.slots.response)
    (hev : (PayloadEvent.responses (c'.hops k).events).Perm
      (PayloadEvent.responses (c.hops k).events))
    (hserving : (c'.hops k).serving = (c.hops k).serving)
    (hresp : (c'.hops k).responding = (c.hops k).responding)
    (hP : ∀ p ∈ P, ∀ place x, c.holder p = .hop k place x → place.ofSlave = false)
    (hX : ∀ x ∈ X, (c.owners x).hop = k → (c.owners x).slave = true → c.Stays c' x) :
    c'.SlaveOk k := by
  have hP' : ∀ place, place.ofSlave = true → ∀ p ∈ P, ∀ x, c.holder p ≠ .hop k place x := by
    intro place hplace p hp x hh
    rw [hP p hp place x hh] at hplace
    cases hplace
  exact ⟨hport, ht.scheduled h hev (hP' _ rfl), hev.nodup_iff.2 h.distinct,
    ht.serving h hserving (hP' _ rfl),
    ht.sending h hj hresp (hP' _ rfl) fun x hx _ hl hk => hX x hx hk hl.slave,
    ht.leaving h hresp fun x hx hl => hl.stays (hX x hx hl.hop hl.slave),
    ht.refused h hj hslots (hP' _ rfl) fun x hx _ hl hk => hX x hx hk hl.slave⟩

/-- Nothing happens to the slave port. -/
theorem slaveOk_of_same (h : c.SlaveOk k) (hj : ∀ p, c.Journey p)
    (hsame : (c'.hops k).SameSlave (c.hops k))
    (hP : ∀ p ∈ P, ∀ place x, c.holder p = .hop k place x → place.ofSlave = false)
    (hX : ∀ x ∈ X, (c.owners x).hop = k → (c.owners x).slave = true → c.Stays c' x) :
    c'.SlaveOk k := by
  apply ht.slaveOk h hj _ _ _ hsame.serving hsame.responding hP hX
  · rw [hsame.slave]
    exact h.port
  · rw [hsame.slave]
  · rw [hsame.events]

theorem queued (h : c.MasterOk k)
    (hpeq : (PeqEvent.queued (c'.hops k).peq .beginReq).Perm
      (PeqEvent.queued (c.hops k).peq .beginReq))
    (hP : ∀ p ∈ P, ∀ x, c.holder p ≠ .hop k .queued x) :
    ∀ x ∈ PeqEvent.queued (c'.hops k).peq .beginReq, c'.IsAt k .queued x :=
  fun x hx => ht.isAt (fun p hp => hP p hp x) (h.queued x (hpeq.mem_iff.1 hx))

theorem requesting (h : c.MasterOk k) (hreq : (c'.hops k).requesting = (c.hops k).requesting)
    (hpend : (c'.hops k).pendingRequest = (c.hops k).pendingRequest)
    (hpkt : (c'.hops k).pendingPacket = (c.hops k).pendingPacket)
    (hP : ∀ p ∈ P, ∀ x, c.holder p ≠ .hop k .pending x)
    (hX : ∀ x ∈ X, c.Accepted k x → c'.Accepted k x) :
    ∀ r ∈ (c'.hops k).requesting, c'.RequestOk k r := by
  rw [hreq]
  intro r hr
  have hok := h.requesting r hr
  refine ⟨fun hacc => ?_, fun hacc => ?_, ?_, ?_⟩
  · have hacc := hok.accepted hacc
    by_cases hx : r.trans ∈ X
    · exact hX _ hx hacc
    · obtain ⟨m, hm⟩ := ht.owners _ hx
      refine ⟨?_, ?_, ?_⟩ <;> rw [hm]
      exacts [hacc.hop, hacc.queued, hacc.accepted]
  · have hh := hok.refused hacc
    exact (ht.holder _ fun hp => hP _ hp _ hh).trans hh
  · rw [hpend, hpkt]
    exact hok.again
  · rw [hpend]
    exact hok.first

theorem pending (h : c.MasterOk k) (hreq : (c'.hops k).requesting = (c.hops k).requesting)
    (hpend : (c'.hops k).pendingRequest = (c.hops k).pendingRequest)
    (hpkt : (c'.hops k).pendingPacket = (c.hops k).pendingPacket)
    (hP : ∀ p ∈ P, ∀ x, c.holder p ≠ .hop k .pending x) :
    (c'.hops k).requesting = none → ∀ x ∈ (c'.hops k).pendingRequest,
      ∃ p, (c'.hops k).pendingPacket = some p ∧ c'.holder p = .hop k .pending x := by
  rw [hreq, hpend, hpkt]
  intro hn x hx
  obtain ⟨p, hp, hh⟩ := h.pending hn x hx
  exact ⟨p, hp, (ht.holder p fun hpP => hP p hpP x hh).trans hh⟩

/-- The master port does nothing, or nothing that has to do with requests. -/
theorem masterOk (h : c.MasterOk k)
    (hpeq : (PeqEvent.queued (c'.hops k).peq .beginReq).Perm
      (PeqEvent.queued (c.hops k).peq .beginReq))
    (hreq : (c'.hops k).requesting = (c.hops k).requesting)
    (hpend : (c'.hops k).pendingRequest = (c.hops k).pendingRequest)
    (hpkt : (c'.hops k).pendingPacket = (c.hops k).pendingPacket)
    (hP : ∀ p ∈ P, ∀ place x, c.holder p = .hop k place x → place.ofMaster = false)
    (hX : ∀ x ∈ X, c.Accepted k x → c'.Accepted k x) : c'.MasterOk k := by
  have hP' : ∀ place, place.ofMaster = true → ∀ p ∈ P, ∀ x, c.holder p ≠ .hop k place x := by
    intro place hplace p hp x hh
    rw [hP p hp place x hh] at hplace
    cases hplace
  exact ⟨ht.queued h hpeq (hP' _ rfl), hpeq.nodup_iff.2 h.distinct,
    ht.requesting h hreq hpend hpkt (hP' _ rfl) hX, ht.pending h hreq hpend hpkt (hP' _ rfl)⟩

/-- Nothing happens to the master port. -/
theorem masterOk_of_same (h : c.MasterOk k) (hsame : (c'.hops k).SameMaster (c.hops k))
    (hP : ∀ p ∈ P, ∀ place x, c.holder p = .hop k place x → place.ofMaster = false)
    (hX : ∀ x ∈ X, c.Accepted k x → c'.Accepted k x) : c'.MasterOk k :=
  ht.masterOk h (.of_eq (by rw [hsame.peq])) hsame.requesting hsame.pendingRequest
    hsame.pendingPacket hP hX

end Touches

/-- A step that happens in hop `k`. -/
theorem Inv.step {X : Set Ptr} {P : Set PacketPtr} (hi : c.Inv) (ht : c.Touches c' X P)
    (hops : ∀ j ≠ k, c'.hops j = c.hops j)
    (hP : ∀ p ∈ P, ∀ j place x, c.holder p = .hop j place x → j = k)
    (hX : ∀ x ∈ X, (c.owners x).hop = k ∨
      (c.owners x).slave = false ∧ (c.owners x).queued = false)
    (hlive : ∀ x ∈ X, ∀ p ∉ P, c.Live p x → c.Unmoved c' x) (hj : ∀ p ∈ P, c'.Journey p)
    (hs : k < c.length → c'.SlaveOk k) (hm : k < c.length → c'.MasterOk k) (hb : c'.Books)
    (hcmd : ∀ p, (c'.packets p).cmd.isResponse = true → (c'.packets p).cmd.needsResponse = false)
    (hlaw : Along Transparent c'.trace) : c'.Inv := by
  have hplace : ∀ j ≠ k, ∀ p ∈ P, ∀ place x, c.holder p = .hop j place x → False :=
    fun j hjk p hp place x hh => hjk (hP p hp j place x hh)
  constructor
  · intro p
    by_cases hp : p ∈ P
    · exact hj p hp
    · exact ht.journey hp (fun x hx => hlive x hx p hp) (hi.journey p)
  · intro j hjl
    by_cases hjk : j = k
    · subst hjk
      exact hs (ht.length ▸ hjl)
    · apply ht.slaveOk_of_same (hi.slave j (ht.length ▸ hjl)) hi.journey
      · rw [hops j hjk]
        exact ⟨rfl, rfl, rfl, rfl⟩
      · exact fun p hp place x hh => (hplace j hjk p hp place x hh).elim
      · intro x hx hxj hslave
        obtain hxk | hxf := hX x hx
        · exact absurd (hxj.symm.trans hxk) hjk
        · rw [hxf.1] at hslave
          cases hslave
  · intro j hjl
    by_cases hjk : j = k
    · subst hjk
      exact hm (ht.length ▸ hjl)
    · apply ht.masterOk_of_same (hi.master j (ht.length ▸ hjl))
      · rw [hops j hjk]
        exact ⟨rfl, rfl, rfl, rfl⟩
      · exact fun p hp place x hh => (hplace j hjk p hp place x hh).elim
      · intro x hx hacc
        obtain hxk | hxf := hX x hx
        · exact absurd (hacc.hop.symm.trans hxk) hjk
        · have := hacc.queued
          rw [hxf.2] at this
          cases this
  · exact hb
  · exact hcmd
  · exact hlaw

/-- A step that happens to a packet at a station of hop `k`, and to its payload. -/
theorem Inv.step_packet (hi : c.Inv) (hh : c.holder p = .hop k place x)
    (ht : c.Touches c' {x} {p}) (hops : ∀ j ≠ k, c'.hops j = c.hops j) (hj : c'.Journey p)
    (hs : k < c.length → c'.SlaveOk k) (hm : k < c.length → c'.MasterOk k) (hb : c'.Books)
    (hcmd : ∀ p, (c'.packets p).cmd.isResponse = true → (c'.packets p).cmd.needsResponse = false)
    (hlaw : Along Transparent c'.trace) : c'.Inv := by
  obtain ⟨n, l, htxn, -⟩ := (hi.journey p).txn hh
  refine hi.step ht hops ?_ ?_ ?_ ?_ hs hm hb hcmd hlaw
  · exact fun q hq j a y hy => (station_of_mem hh hq hy).1
  · rintro y rfl
    exact .inl htxn.hop
  · rintro y rfl q hq hlive
    exact absurd (htxn.packet_eq hlive) hq
  · rintro q rfl
    exact hj

end Chain

end Gem5Wrapper
