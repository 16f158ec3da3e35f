import Gem5Wrapper.Journeys

/-!
# What gem5 and the slave ports of a chain do

Each act keeps `Inv`: for what the act changes this is read off the code, for the rest it is
`Inv.step`.
-/

namespace Gem5Wrapper

open FaultMachine History
open Function (update)

namespace Chain

variable {c c' : Chain} {k n : ℕ} {x y : Ptr} {p q : PacketPtr} {l : List SenderState}

/-! ## Books -/

namespace Books

theorem poolAt (h : c.Books) (k : ℕ) : Pool (c.world k).view := h.pool.congr rfl rfl rfl rfl

/-- Payloads whose references are as before. -/
theorem same (h : c.Books) (hmm : c'.mm = c.mm) (hserial : c'.serial = c.serial)
    (hext : ∀ x, (c'.payloads x).extension = (c.payloads x).extension)
    (href : ∀ x, (c'.payloads x).refCount = (c.payloads x).refCount)
    (hc : ∀ x, Chain.count (c'.owners x) ≤ Chain.count (c.owners x)) : c'.Books :=
  ⟨h.pool.congr hmm (funext href) (funext hext) hserial,
    fun x => (hc x).trans ((h.count x).trans (href x).ge)⟩

theorem acquire (h : c.Books) {w : World} (hw : (c.world k).acquire x = .ok w)
    (hx : 0 < (c.payloads x).refCount) (hmm : c'.mm = w.mm) (hserial : c'.serial = w.serial)
    (hpay : c'.payloads = w.payloads)
    (hcx : Chain.count (c'.owners x) ≤ Chain.count (c.owners x) + 1)
    (hc : ∀ y ≠ x, Chain.count (c'.owners y) ≤ Chain.count (c.owners y)) : c'.Books := by
  obtain ⟨-, -, hview⟩ := World.acquire_eq_ok hw
  have hpool : Pool w.view := hview ▸ (h.poolAt k).addRef hx
  constructor
  · apply hpool.congr hmm _ _ hserial
    · funext y
      show (c'.payloads y).refCount = _
      rw [hpay]
      rfl
    · funext y
      show (c'.payloads y).extension = _
      rw [hpay]
      rfl
  · intro y
    have href : (c'.payloads y).refCount = w.view.refs y := by
      rw [hpay]
      rfl
    rw [href, hview]
    have := h.count y
    by_cases hy : y = x
    · subst hy
      rw [View.addRef_refs, Function.update_self]
      exact hcx.trans (Nat.succ_le_succ this)
    · rw [View.addRef_refs, Function.update_of_ne hy]
      exact (hc y hy).trans this

theorem release (h : c.Books) {w : World} (hd : (c.world k).Drops w x)
    (hmm : c'.mm = w.mm) (hserial : c'.serial = w.serial) (hpay : c'.payloads = w.payloads)
    (hcx : Chain.count (c'.owners x) + 1 ≤ Chain.count (c.owners x))
    (hc : ∀ y ≠ x, Chain.count (c'.owners y) ≤ Chain.count (c.owners y)) : c'.Books := by
  constructor
  · apply ((h.poolAt k).dropRef hd.pos).congr (hmm.trans hd.pool) _ _ (hserial.trans hd.serial)
    · rw [← hd.refs]
      funext y
      show (c'.payloads y).refCount = (w.payloads y).refCount
      rw [hpay]
    · rw [← hd.carried]
      funext y
      show (c'.payloads y).extension = (w.payloads y).extension
      rw [hpay]
  · intro y
    have href : (c'.payloads y).refCount = w.view.refs y := by
      rw [hpay]
      rfl
    rw [href, hd.refs]
    have := h.count y
    by_cases hy : y = x
    · subst hy
      rw [View.dropRef_refs, Function.update_self]
      exact Nat.le_sub_one_of_lt (Nat.lt_of_lt_of_le hcx this)
    · rw [View.dropRef_refs, Function.update_of_ne hy]
      exact (hc y hy).trans this

/-- A payload that is not given back keeps its extension. -/
theorem extension_of_release (h : c.Books) {w : World} (hd : (c.world k).Drops w x)
    (hy : y = x → 1 < Chain.count (c.owners x)) :
    (w.payloads y).extension = (c.payloads y).extension := by
  show w.view.carried y = (c.world k).view.carried y
  rw [hd.carried]
  apply View.carried_dropRef
  intro hyx h1
  have := h.count x
  have h1 : (c.payloads x).refCount = 1 := h1
  have := hy hyx
  omega

end Books

/-! ## The components of gem5 -/

/-- A step in a gem5 world. -/
theorem Inv.step_gem5 (hi : c.Inv) (ht : c.Touches c' ∅ {p}) (hops : c'.hops = c.hops)
    (hh : c.holder p = .gem5 k) (hj : c'.Journey p) (hb : c'.Books)
    (hcmd : ∀ q, (c'.packets q).cmd.isResponse = true → (c'.packets q).cmd.needsResponse = false)
    (hlaw : Along Transparent c'.trace) : c'.Inv := by
  -- no hop of the chain
  apply hi.step (k := c.length) ht
  · exact fun j _ => congrFun hops j
  · exact fun q hq j place x h => absurd h (not_station_of_mem hh hq)
  · exact fun x hx => absurd hx (Set.notMem_empty x)
  · exact fun x hx => absurd hx (Set.notMem_empty x)
  · rintro q rfl
    exact hj
  · exact fun h => absurd h (Nat.lt_irrefl _)
  · exact fun h => absurd h (Nat.lt_irrefl _)
  · exact hb
  · exact hcmd
  · exact hlaw

theorem Inv.prepare {pkt : Packet} (hi : c.Inv) (h : c.prepare k p pkt l = .ok c') : c'.Inv := by
  simp only [Chain.prepare, bind_eq_ok, check_eq_ok, pure_eq_ok, Except.ok.injEq] at h
  obtain ⟨-, -, -, hh, -, hr, rfl⟩ := h
  refine hi.step_gem5 (p := p) ?_ rfl hh ?_ ?_ ?_ ⟨trivial, hi.law⟩
  · exact { Touches.refl c ∅ {p} with
      holder := fun q hq => Function.update_of_ne hq _ _
      home := fun q hq => Function.update_of_ne hq _ _
      stack := fun q hq => Function.update_of_ne hq _ _
      isResponse := fun q hq => by simp [show q ≠ p from hq]
      trace := ⟨[.prepared k p], rfl, by simp [Obs.packet]⟩ }
  · apply journey_of_gem5 (k := k)
    · simp
    · simp [Stack]
      exact .base _
  · exact hi.books.same rfl rfl (fun _ => rfl) (fun _ => rfl) fun _ => le_rfl
  · intro q
    by_cases hq : q = p
    · simp [hq, hr]
    · simpa [hq] using hi.cmd q

theorem Inv.pushState {tag : ℕ} (hi : c.Inv) (h : c.pushState k p tag = .ok c') : c'.Inv := by
  simp only [Chain.pushState, bind_eq_ok, check_eq_ok, pure_eq_ok, Except.ok.injEq] at h
  obtain ⟨-, hh, rfl⟩ := h
  have ht : c.Touches ((c.setStack p (.component k tag :: c.senderStates p)).setPushed p k
      (c.pushed p k + 1)) ∅ {p} :=
    { Touches.refl c ∅ {p} with
      stack := fun q hq => Function.update_of_ne hq _ _
      pushed := fun q hq => Function.update_of_ne hq _ _ }
  refine hi.step_gem5 ht rfl hh ?_ ?_ hi.cmd hi.law
  · refine journey_of_gem5 hh ?_
    have hl := ((hi.journey p).stack hh).labels (ht.keeps_of_trace (by simp) rfl rfl)
    have := hl.push (.component k tag)
    simpa [Stack] using this
  · exact hi.books.same rfl rfl (fun _ => rfl) (fun _ => rfl) fun _ => le_rfl

theorem Inv.popState (hi : c.Inv) (h : c.popState k p = .ok c') : c'.Inv := by
  simp only [Chain.popState, bind_eq_ok, check_eq_ok] at h
  obtain ⟨-, hh, -, hpop, h⟩ := h
  cases hl : c.senderStates p with
  | nil =>
    rw [hl] at h
    cases h
  | cons s rest =>
    rw [hl] at h
    obtain rfl := Except.ok.inj h
    have ht : c.Touches ((c.setStack p rest).setPushed p k (c.pushed p k - 1)) ∅ {p} :=
      { Touches.refl c ∅ {p} with
        stack := fun q hq => Function.update_of_ne hq _ _
        pushed := fun q hq => Function.update_of_ne hq _ _ }
    refine hi.step_gem5 ht rfl hh ?_ ?_ hi.cmd hi.law
    · refine journey_of_gem5 hh ?_
      have hs := ((hi.journey p).stack hh).labels (ht.keeps_of_trace (by simp) rfl rfl)
      rw [hl] at hs
      have := hs.pop hpop
      simpa [Stack] using this
    · exact hi.books.same rfl rfl (fun _ => rfl) (fun _ => rfl) fun _ => le_rfl

theorem Inv.respondTo (hi : c.Inv) (h : c.respondTo k p = .ok c') : c'.Inv := by
  simp only [Chain.respondTo, bind_eq_ok, check_eq_ok, pure_eq_ok, Except.ok.injEq] at h
  obtain ⟨-, hh, -, hn, rfl⟩ := h
  have hr : (c.packets p).cmd.isResponse = false := by
    by_contra hr
    rw [hi.cmd p (by simpa using hr)] at hn
    cases hn
  have ht : c.Touches (c.turn p) ∅ {p} :=
    { Touches.refl c ∅ {p} with
      isResponse := fun q hq => by simp [show q ≠ p from hq]
      trace := ⟨[.makeResponse p], rfl, by simp [Obs.packet]⟩ }
  refine hi.step_gem5 ht rfl hh ?_ ?_ ?_ ⟨trivial, hi.law⟩
  · refine journey_of_gem5 hh ?_
    have hk : c.Keeps (c.turn p) p k := by
      have htr : (c.turn p).trace = [.makeResponse p] ++ c.trace := rfl
      refine ht.keeps_below (by simp) htr (by simp [Obs.crosses, Obs.begins]) ?_
      simp [hr, Packet.makeResponse, MemCmd.responseCommand]
    exact ((hi.journey p).stack hh).keep hk rfl rfl
  · exact hi.books.same rfl rfl (fun _ => rfl) (fun _ => rfl) fun _ => le_rfl
  · intro q
    by_cases hq : q = p
    · simp [hq, Packet.makeResponse, MemCmd.responseCommand]
    · simpa [hq] using hi.cmd q

theorem Inv.annotate {pkt : Packet} (hi : c.Inv) (h : c.annotate k p pkt = .ok c') : c'.Inv := by
  simp only [Chain.annotate, bind_eq_ok, check_eq_ok, pure_eq_ok, Except.ok.injEq] at h
  obtain ⟨-, hh, -, hcmd, rfl⟩ := h
  have hsame : ∀ q, ((c.setPacket p pkt).packets q).cmd = (c.packets q).cmd := by
    intro q
    by_cases hq : q = p
    · simp [hq, hcmd]
    · simp [hq]
  have ht : c.Touches (c.setPacket p pkt) ∅ {p} :=
    { Touches.refl c ∅ {p} with isResponse := fun q _ => by rw [hsame] }
  refine hi.step_gem5 ht rfl hh ?_ ?_ ?_ hi.law
  · refine journey_of_gem5 hh ?_
    exact ((hi.journey p).stack hh).keep
      (ht.keeps_of_trace (by simp) rfl (by rw [hsame])) rfl rfl
  · exact hi.books.same rfl rfl (fun _ => rfl) (fun _ => rfl) fun _ => le_rfl
  · intro q
    rw [hsame]
    exact hi.cmd q

theorem Inv.consume (hi : c.Inv) (h : c.consume k p = .ok c') : c'.Inv := by
  simp only [Chain.consume, bind_eq_ok, check_eq_ok, pure_eq_ok, Except.ok.injEq] at h
  obtain ⟨-, hh, -, -, rfl⟩ := h
  refine hi.step_gem5 (p := p) ?_ rfl hh ?_ ?_ hi.cmd hi.law
  · exact { Touches.refl c ∅ {p} with home := fun q hq => Function.update_of_ne hq _ _ }
  · refine journey_of_gem5 hh ?_
    simp [Stack]
    exact .base _
  · exact hi.books.same rfl rfl (fun _ => rfl) (fun _ => rfl) fun _ => le_rfl

/-! ## The slave ports -/

/-- A step of a hop that no packet and no payload notices. -/
theorem Inv.step_hop (hi : c.Inv) (ht : c.Touches c' ∅ ∅) (hops : ∀ j ≠ k, c'.hops j = c.hops j)
    (hs : k < c.length → c'.SlaveOk k) (hm : k < c.length → c'.MasterOk k)
    (hb : c'.Books) (hpkts : c'.packets = c.packets) (htr : c'.trace = c.trace) : c'.Inv := by
  apply hi.step ht hops
  · exact fun p hp => absurd hp (Set.notMem_empty p)
  · exact fun x hx => absurd hx (Set.notMem_empty x)
  · exact fun x hx => absurd hx (Set.notMem_empty x)
  · exact fun p hp => absurd hp (Set.notMem_empty p)
  · exact hs
  · exact hm
  · exact hb
  · rw [hpkts]
    exact hi.cmd
  · rw [htr]
    exact hi.law

/-- The slave port has another state, and perhaps other events, with the same responses. -/
theorem Inv.step_port {w : World} (hi : c.Inv) (hk : k < c.length) (hp : w.port.Ok)
    (hresp : w.port.slots.response = (c.hops k).slave.slots.response)
    (hev : (PayloadEvent.responses w.events).Perm (PayloadEvent.responses (c.hops k).events))
    (hmm : w.mm = c.mm) (hpay : w.payloads = c.payloads) (hpkt : w.packets = c.packets)
    (hser : w.serial = c.serial) : (c.put k w).Inv := by
  have ht : c.Touches (c.put k w) ∅ ∅ :=
    { Touches.refl c ∅ ∅ with
      extension := fun x _ _ => by simp [hpay]
      isResponse := fun _ _ => by simp [hpkt] }
  apply hi.step_hop (k := k) ht
  · exact fun j hj => Function.update_of_ne hj _ _
  · intro _
    apply ht.slaveOk (hi.slave k hk) hi.journey <;> simp [hp, hresp, hev]
  · intro _
    apply ht.masterOk_of_same (hi.master k hk)
    · constructor <;> simp
    · exact fun p hp => absurd hp (Set.notMem_empty p)
    · exact fun x hx => absurd hx (Set.notMem_empty x)
  · exact hi.books.same hmm hser (fun _ => by simp [hpay]) (fun _ => by simp [hpay])
      fun _ => le_rfl
  · exact hpkt
  · rfl

/-- The first payload of the pool has no owners. -/
theorem Books.fresh (h : c.Books) : (c.payloads c.mm.allocate.1).refCount = 0 ∧
    (c.owners c.mm.allocate.1).slave = false ∧ (c.owners c.mm.allocate.1).queued = false := by
  have hz : (c.payloads c.mm.allocate.1).refCount = 0 := h.pool.refs_next
  have hc := h.count c.mm.allocate.1
  rw [hz] at hc
  unfold Chain.count at hc
  refine ⟨hz, ?_, ?_⟩
  · by_contra hs
    rw [Bool.not_eq_false] at hs
    simp [hs] at hc
  · by_contra hs
    rw [Bool.not_eq_false] at hs
    simp [hs] at hc

theorem Books.begin (h : c.Books) {pl : Payload} {s : ℕ} (hmm : c'.mm = c.mm.allocate.2)
    (hser : c'.serial = c.serial + 1)
    (hpay : c'.payloads = update c.payloads c.mm.allocate.1 pl)
    (hext : pl.extension = some ⟨p, s, c.serial⟩) (href : pl.refCount = 1)
    (hx : Chain.count (c'.owners c.mm.allocate.1) ≤ 1)
    (hc : ∀ y ≠ c.mm.allocate.1, c'.owners y = c.owners y) : c'.Books := by
  have hz := h.fresh.1
  have hpool : Pool { (c.world 0).view with target := fun _ => s } := h.pool.congr rfl rfl rfl rfl
  constructor
  · apply (hpool.begin (readRequest p)).congr hmm _ _ hser
    · funext y
      show (c'.payloads y).refCount = update (fun y => (c.payloads y).refCount) c.mm.allocate.1
        ((c.payloads c.mm.allocate.1).refCount + 1) y
      rw [hpay]
      by_cases hy : y = c.mm.allocate.1 <;> simp [hy, href, hz]
    · funext y
      show (c'.payloads y).extension = update (fun y => (c.payloads y).extension) c.mm.allocate.1
        (some ⟨p, s, c.serial⟩) y
      rw [hpay]
      by_cases hy : y = c.mm.allocate.1 <;> simp [hy, hext]
  · intro y
    rw [hpay]
    by_cases hy : y = c.mm.allocate.1
    · subst hy
      rw [Function.update_self, href]
      exact hx
    · rw [Function.update_of_ne hy, hc y hy]
      exact h.count y

theorem Inv.recvTimingReq {reply : Reply} (hi : c.Inv) (hk : k < c.length)
    (h : c.recvTimingReq k p reply = .ok c') : c'.Inv := by
  simp only [Chain.recvTimingReq, bind_eq_ok, check_eq_ok] at h
  obtain ⟨-, hh, -, hr, -, hpass, ⟨taken, w⟩, hw, h⟩ := h
  obtain ⟨rfl, port, log, rfl, hok, hresp⟩ | ⟨rfl, hsend⟩ :=
    World.recvTimingReq_eq_ok (hi.slave k hk).port hw
  · obtain rfl := Except.ok.inj h
    exact hi.step_port hk hok hresp (.refl _) rfl rfl rfl rfl
  obtain ⟨hz, hslave, hqueued⟩ := hi.books.fresh
  have hs := World.sendBeginReq_eq_ok (hi.slave k hk).port hpass hz hsend
  have hmm : w.mm = c.mm.allocate.2 := hs.mm
  have hserial : w.serial = c.serial + 1 := hs.serial
  have hpkt : ∀ q, (w.packets q).cmd = (c.packets q).cmd := hs.packets
  obtain ⟨pl, hpay, hext, href⟩ := hs.payloads
  have hpay : w.payloads = update c.payloads c.mm.allocate.1 pl := hpay
  obtain ⟨s, hext⟩ : ∃ s, pl.extension = some ⟨p, s, c.serial⟩ := ⟨_, hext⟩
  obtain rfl := Except.ok.inj h
  generalize hx : c.mm.allocate.1 = x at *
  generalize hc' : Chain.emit _ _ = c'
  have ht : c.Touches c' {x} {p} := by
    subst hc'
    exact { Touches.refl c {x} {p} with
      extension := fun y hy _ => by simp [hpay, show y ≠ x from hy]
      owners := fun y hy => ⟨(c.owners y).components, by simp [show y ≠ x from hy]⟩
      holder := fun q hq => Function.update_of_ne hq _ _
      isResponse := fun q _ => by simp [hpkt]
      trace := ⟨[_], rfl, by simp [Obs.packet]⟩ }
  have hlive : ∀ q, ¬ c.Live q x := fun q hq => by simp [hq.slave] at hslave
  apply hi.step (k := k) ht
  · subst hc'
    exact fun j hj => Function.update_of_ne hj _ _
  · exact fun q hq j place y h => absurd h (not_station_of_mem hh hq)
  · rintro y rfl
    exact .inr ⟨hslave, hqueued⟩
  · rintro y rfl q _ hq
    exact absurd hq (hlive q)
  · rintro q rfl
    have hr' : (c'.packets q).cmd.isResponse = false := by
      subst hc'
      simp [hpkt, hr]
    have htr : c'.trace = .request k x c.serial q (c.senderStates q) :: c.trace := by
      subst hc'
      rfl
    have hkeep : c.Keeps c' q k := by
      refine ht.keeps_of_event (by simp [hlive]) htr (fun j hj => ?_) (by simp) (hr'.trans hr.symm)
      simp [Obs.crosses, Obs.begins, hj.ne']
    have htxn : c'.Txn q k x c.serial (c.senderStates q) := by
      refine ⟨⟨s, ?_⟩, ?_, ?_, ?_, ?_⟩
      · subst hc'
        simp [hpay, hext]
      · subst hc'; simp
      · subst hc'; simp
      · subst hc'; simp
      · rw [htr, hr']
        exact since_self ⟨by simp, rfl⟩
    have hh' : c'.holder q = .hop k .forward x := by
      subst hc'
      simp
    refine journey_of_hop hh' htxn ?_ ?_
    · refine ((hi.journey q).stack hh).keep hkeep ?_ ?_ <;> subst hc' <;> rfl
    · subst hc'
      exact ⟨rfl, by simp⟩
  · intro _
    apply ht.slaveOk (hi.slave k hk) hi.journey
    · subst hc'
      simpa using hs.port
    · subst hc'
      simp [hs.response]
      rfl
    · subst hc'
      simp only [emit_hops, setOwners_hops, move_hops, put_hops, Function.update_self]
      obtain hev | ⟨d, hev⟩ := hs.events
      · rw [hev]
        exact .refl _
      · rw [hev]
        exact PayloadEvent.responses_insert _ _
    · subst hc'
      simp
    · subst hc'
      simp
    · exact fun q hq place y h => absurd h (not_station_of_mem hh hq)
    · rintro y rfl _ hy
      rw [hslave] at hy
      cases hy
  · intro _
    apply ht.masterOk_of_same (hi.master k hk)
    · subst hc'
      constructor <;> simp
    · exact fun q hq place y h => absurd h (not_station_of_mem hh hq)
    · rintro y rfl hacc
      have := hacc.queued
      rw [hqueued] at this
      cases this
  · subst hx
    refine hi.books.begin ?_ ?_ ?_ hext href ?_ ?_
    · subst hc'
      exact hmm
    · subst hc'
      exact hserial
    · subst hc'
      exact hpay
    · subst hc'
      simp [Chain.count]
    · intro y hy
      subst hc'
      simp [hy]
  · intro q hq
    subst hc'
    simp only [emit_packets, setOwners_packets, move_packets, put_packets, hpkt] at hq ⊢
    exact hi.cmd q hq
  · subst hc'
    exact ⟨trivial, hi.law⟩

theorem moveTo_eq {s : ℕ} {place : Place} (h : (c.payloads x).extension = some ⟨p, s, n⟩) :
    c.moveTo k place x = c.move p (.hop k place x) := by
  simp only [moveTo, h]

/-- A packet goes from one station of slave port `k` to another; `h` is what the hop is then. -/
theorem Inv.step_station {a b : Place} {h : Hop} {t : ℕ} (hi : c.Inv) (hk : k < c.length)
    (hh : c.holder p = .hop k a x) (ha : a.back = true) (hb : b.back = true) (hport : h.slave.Ok)
    (hev : ∀ y ∈ PayloadEvent.responses h.events, b = .scheduled ∧ y = x ∨
      y ∈ PayloadEvent.responses (c.hops k).events ∧ (a = .scheduled → y ≠ x))
    (hnodup : (PayloadEvent.responses h.events).Nodup)
    (hserving : ∀ e ∈ h.serving, b = .serving ∧ e.t = x ∧ e.p = .beginResp ∨
      e ∈ (c.hops k).serving ∧ a ≠ .serving)
    (hresp : ∀ r ∈ h.responding, r ∈ (c.hops k).responding ∧ a ≠ .sending)
    (hslots : ∀ s y, h.slave.slots.response s = some y →
      b = .refused ∧ y = x ∧ (∃ e, (c.payloads x).extension = some e ∧ e.coreId = s) ∨
        (c.hops k).slave.slots.response s = some y ∧ a ≠ .refused)
    (hm : h.SameMaster (c.hops k)) :
    ({ c with hops := update c.hops k h, holder := update c.holder p (.hop k b x),
              curTick := t } : Chain).Inv := by
  generalize hc' : Chain.mk _ _ _ _ _ _ _ _ _ _ _ _ _ _ = c'
  have hslave := hi.slave k hk
  have ht : c.Touches c' ∅ {p} := by
    subst hc'
    exact { Touches.refl c ∅ {p} with holder := fun q hq => Function.update_of_ne hq _ _ }
  have hh' : c'.holder p = .hop k b x := by
    subst hc'
    exact Function.update_self _ _ _
  have hhop : c'.hops k = h := by
    subst hc'
    exact Function.update_self _ _ _
  have hpay : c'.payloads = c.payloads := by
    subst hc'
    rfl
  -- the other packets stay where they are
  have hstay : ∀ place y, (place = a → y ≠ x) → c.IsAt k place y → c'.IsAt k place y := by
    intro place y hne
    apply ht.isAt
    intro q hq h
    obtain ⟨-, hp, hy⟩ := station_of_mem hh hq h
    exact hne hp hy
  apply hi.step (k := k) ht
  · subst hc'
    exact fun j hj => Function.update_of_ne hj _ _
  · exact fun q hq j place y h => (station_of_mem hh hq h).1
  · exact fun x hx => absurd hx (Set.notMem_empty x)
  · exact fun x hx => absurd hx (Set.notMem_empty x)
  · rintro q rfl
    obtain ⟨n, l, htxn, hstack, hl⟩ := (hi.journey q).txn hh
    have hkeep : ∀ m, c.Keeps c' q m := by
      intro m
      apply ht.keeps_of_trace fun x hx => absurd hx (Set.notMem_empty x)
      · subst hc'
        rfl
      · subst hc'
        rfl
    refine journey_of_hop hh' (htxn.keep (hkeep (k + 1)) (Nat.lt_succ_self k))
      (hstack.keep (hkeep k) ?_ ?_) ?_
    · subst hc'
      rfl
    · subst hc'
      rfl
    · rw [atStation_of_back ha] at hl
      rw [atStation_of_back hb]
      subst hc'
      exact hl
  · intro _
    constructor
    · rwa [hhop]
    · rw [hhop]
      intro y hy
      obtain ⟨rfl, rfl⟩ | ⟨hy, hne⟩ := hev y hy
      · exact ⟨p, hh'⟩
      · exact hstay _ _ (fun hp => hne hp.symm) (hslave.scheduled y hy)
    · rwa [hhop]
    · rw [hhop]
      intro e he
      obtain ⟨rfl, rfl, hp⟩ | ⟨he, hne⟩ := hserving e he
      · exact ⟨hp, p, hh'⟩
      · obtain ⟨hp, hat⟩ := hslave.serving e he
        exact ⟨hp, hstay _ _ (fun hp => absurd hp.symm hne) hat⟩
    · rw [hhop, hpay]
      intro r hr hn
      obtain ⟨hr, hne⟩ := hresp r hr
      obtain ⟨hat, hext⟩ := hslave.sending r hr hn
      exact ⟨hstay _ _ (fun hp => absurd hp.symm hne) hat, hext⟩
    · rw [hhop]
      intro r hr hn
      obtain ⟨hr, -⟩ := hresp r hr
      have hl := hslave.leaving r hr hn
      exact hl.stays (ht.stays (Set.notMem_empty _) hl.slave)
    · rw [hhop, hpay]
      intro s y hy
      obtain ⟨rfl, rfl, he⟩ | ⟨hy, hne⟩ := hslots s y hy
      · exact ⟨⟨p, hh'⟩, he⟩
      · obtain ⟨hat, he⟩ := hslave.refused s y hy
        exact ⟨hstay _ _ (fun hp => absurd hp.symm hne) hat, he⟩
  · intro _
    apply ht.masterOk_of_same (hi.master k hk)
    · rwa [hhop]
    · intro q hq place y h
      obtain ⟨-, rfl, -⟩ := station_of_mem hh hq h
      exact Place.ofMaster_of_back ha
    · exact fun y hy => absurd hy (Set.notMem_empty y)
  · subst hc'
    exact hi.books.same rfl rfl (fun _ => rfl) (fun _ => rfl) fun _ => le_rfl
  · subst hc'
    exact hi.cmd
  · subst hc'
    exact hi.law

theorem Inv.pec (hi : c.Inv) (hk : k < c.length) (h : c.pec k = .ok c') : c'.Inv := by
  have hslave := hi.slave k hk
  unfold Chain.pec at h
  cases hq : (c.hops k).events with
  | nil =>
    rw [hq] at h
    cases h
  | cons e q =>
    rw [hq] at h
    simp only [bind_eq_ok, check_eq_ok] at h
    obtain ⟨-, -, -, hnone, w, hw, h⟩ := h
    obtain ⟨port, log, rfl, hok, hresp⟩ := World.pecRequest_eq_ok hslave.port hw
    split_ifs at h with hp
    · -- the response phase is still to come
      have hall : PayloadEvent.responses (c.hops k).events = e.t :: PayloadEvent.responses q := by
        simp [PayloadEvent.responses, hq, hp]
      have hnodup := hslave.distinct
      rw [hall] at hnodup
      obtain ⟨hfirst, hnodup⟩ := List.nodup_cons.1 hnodup
      have hat : c.IsAt k .scheduled e.t := hslave.scheduled _ (hall ▸ List.mem_cons_self)
      obtain ⟨p, n, l, hh, htxn, -⟩ := hat.txn hi.journey
      obtain ⟨s, hext⟩ := htxn.extension
      have hc' : c' = { c with
          hops := update c.hops k
            { c.hops k with slave := port, events := q, serving := some e }
          holder := update c.holder p (.hop k .serving e.t)
          curTick := c.now } := by
        rw [moveTo_eq (by exact hext)] at h
        rw [← Except.ok.inj h]
        simp [Chain.put, Chain.setHop, Chain.move, world, World.catchup]
      rw [hc']
      refine hi.step_station (b := .serving)
        (h := { c.hops k with slave := port, events := q, serving := some e })
        hk hh rfl rfl hok ?_ hnodup ?_ ?_ ?_ ⟨rfl, rfl, rfl, rfl⟩
      · intro y hy
        refine .inr ⟨hall ▸ List.mem_cons_of_mem _ hy, fun _ hye => ?_⟩
        exact hfirst (hye ▸ hy)
      · intro e' he'
        obtain rfl := Option.mem_some_iff.1 he'
        exact .inl ⟨rfl, rfl, hp⟩
      · exact fun r hr => ⟨hr, fun ha => by cases ha⟩
      · exact fun s y hy => .inr ⟨by rwa [hresp] at hy, fun ha => by cases ha⟩
    · obtain rfl := Except.ok.inj h
      refine hi.step_port hk hok hresp ?_ rfl rfl rfl rfl
      rw [hq]
      simp [PayloadEvent.responses, hp]

/-- Slave port `k` calls `sendTimingResp` for a packet that it knows at station `a`; `h` is what it
has written before. -/
theorem Inv.sendTimingResp {a : Place} {e : Gem5Extension} {h : Hop} {t : ℕ} {accept again : Bool}
    (hi : c.Inv) (hk : k < c.length) (ha : a = .serving ∨ a = .refused)
    (hh : c.holder e.packet = .hop k a x) (hext : (c.payloads x).extension = some e)
    (hport : h.slave.Ok)
    (hslots : ∀ s y, h.slave.slots.response s = some y →
      (c.hops k).slave.slots.response s = some y ∧ (a = .refused → y ≠ x))
    (hserving : ∀ e' ∈ h.serving, e' ∈ (c.hops k).serving ∧ a ≠ .serving)
    (hev : h.events = (c.hops k).events) (hm : h.SameMaster (c.hops k)) :
    (({ c with hops := update c.hops k h, curTick := t } : Chain).sendTimingResp k x e accept
      again).Inv := by
  generalize hc' : Chain.sendTimingResp _ _ _ _ _ _ = c'
  have hslave := hi.slave k hk
  obtain ⟨n, l, htxn, hstack, hl⟩ := (hi.journey e.packet).txn hh
  obtain ⟨rfl, hr⟩ : c.senderStates e.packet = l ∧ (c.packets e.packet).cmd.isResponse = true := by
    obtain rfl | rfl := ha <;> exact hl
  obtain rfl : e.serial = n := htxn.serial_eq hext
  have htr : c'.trace =
      .resp k x e.serial e.packet (c.senderStates e.packet) accept :: c.trace := by
    subst hc'
    rfl
  have ht : c.Touches c' {x} {e.packet} := by
    subst hc'
    exact { Touches.refl c {x} {e.packet} with
      owners := fun y hy => ⟨(c.owners y).components, Function.update_of_ne hy _ _⟩
      holder := fun q hq => Function.update_of_ne hq _ _
      trace := ⟨[_], rfl, by simp [Obs.packet]⟩ }
  apply hi.step_packet hh ht
  · subst hc'
    exact fun j hj => by simp [Chain.sendTimingResp, hj]
  · have hkeep : c.Keeps c' e.packet k := by
      refine ht.keeps_of_event ?_ htr (fun j hj => ?_) (by simp) ?_
      · rintro y rfl _
        exact htxn.hop.ge
      · simp [Obs.crosses, Obs.begins, hj.ne']
      · subst hc'
        rfl
    have hstack' : c'.Stack e.packet k (c.senderStates e.packet) := by
      apply hstack.keep hkeep <;> subst hc' <;> rfl
    cases accept with
    | true =>
      apply journey_of_gem5 (k := k)
      · subst hc'
        simp [Chain.sendTimingResp]
      · subst hc'
        exact hstack'
    | false =>
      have hh' : c'.holder e.packet = .hop k .sending x := by
        subst hc'
        simp [Chain.sendTimingResp]
      have htxn' : c'.Txn e.packet k x e.serial (c.senderStates e.packet) := by
        constructor
        · subst hc'
          exact htxn.extension
        · subst hc'
          simpa [Chain.sendTimingResp] using htxn.hop
        · subst hc'
          simpa [Chain.sendTimingResp] using htxn.slave
        · subst hc'
          simp [Chain.sendTimingResp]
        · have hr' : (c'.packets e.packet).cmd.isResponse =
              (c.packets e.packet).cmd.isResponse := by
            subst hc'
            rfl
          rw [htr, hr']
          exact htxn.taken.cons fun new hnew => hnew.cons (by simp [Obs.crosses]) (by simp)
      refine journey_of_hop hh' htxn' hstack' ?_
      subst hc'
      exact ⟨rfl, hr⟩
  · intro _
    have hne : ∀ place ≠ a, ∀ q ∈ ({e.packet} : Set PacketPtr), ∀ y,
        c.holder q ≠ .hop k place y :=
      fun place hplace q hq y h => hplace (station_of_mem hh hq h).2.1
    have hscheduled : .scheduled ≠ a := by
      rintro rfl
      obtain ha | ha := ha <;> cases ha
    have hresponses : PayloadEvent.responses (c'.hops k).events =
        PayloadEvent.responses (c.hops k).events := by
      subst hc'
      simp [Chain.sendTimingResp, hev]
    have hresponding : (c'.hops k).responding = some ⟨x, e, !accept, again⟩ := by
      subst hc'
      simp [Chain.sendTimingResp]
    constructor
    · subst hc'
      simpa [Chain.sendTimingResp] using hport
    · exact ht.scheduled hslave (.of_eq hresponses) (hne _ hscheduled)
    · rw [hresponses]
      exact hslave.distinct
    · intro e' he'
      have he' : e' ∈ h.serving := by
        subst hc'
        simpa [Chain.sendTimingResp] using he'
      obtain ⟨he', hserv⟩ := hserving e' he'
      obtain ⟨hp, hat⟩ := hslave.serving e' he'
      exact ⟨hp, ht.isAt (fun q hq => hne _ hserv.symm q hq _) hat⟩
    · rw [hresponding]
      intro r hr' hn
      obtain rfl := Option.mem_some_iff.1 hr'
      subst hc'
      simp only [Bool.not_eq_true'] at hn
      exact ⟨⟨e.packet, by simp [Chain.sendTimingResp, hn]⟩, hext⟩
    · rw [hresponding]
      intro r hr' hn
      obtain rfl := Option.mem_some_iff.1 hr'
      subst hc'
      simp only [Bool.not_eq_false'] at hn
      constructor <;> simp [Chain.sendTimingResp, htxn.hop, htxn.slave, hn]
    · intro s y hy
      have hy : h.slave.slots.response s = some y := by
        subst hc'
        simpa [Chain.sendTimingResp] using hy
      obtain ⟨hy, hxy⟩ := hslots s y hy
      obtain ⟨hat, hey⟩ := hslave.refused s y hy
      refine ⟨ht.isAt ?_ hat, ?_⟩
      · intro q hq h
        obtain ⟨-, hp, hy⟩ := station_of_mem hh hq h
        exact hxy hp.symm hy
      · subst hc'
        exact hey
  · intro _
    apply ht.masterOk_of_same (hi.master k hk)
    · subst hc'
      constructor <;> simp [Chain.sendTimingResp, hm.peq, hm.requesting, hm.pendingRequest,
        hm.pendingPacket]
    · intro q hq place y h
      obtain ⟨-, rfl, -⟩ := station_of_mem hh hq h
      obtain rfl | rfl := ha <;> rfl
    · rintro y rfl hacc
      subst hc'
      constructor <;> simp [Chain.sendTimingResp, hacc.hop, hacc.queued, hacc.accepted]
  · subst hc'
    refine hi.books.same rfl rfl (fun _ => rfl) (fun _ => rfl) fun y => ?_
    by_cases hy : y = x
    · simp [Chain.sendTimingResp, Chain.count, hy]
    · simp [Chain.sendTimingResp, hy]
  · subst hc'
    exact hi.cmd
  · rw [htr]
    refine ⟨?_, hi.law⟩
    have := htxn.taken
    rw [hr] at this
    exact this

/-- The packet of a payload at a station is that of its extension. -/
theorem IsAt.holder {a : Place} {e : Gem5Extension} (h : c.IsAt k a x) (hj : ∀ p, c.Journey p)
    (hext : (c.payloads x).extension = some e) : c.holder e.packet = .hop k a x := by
  obtain ⟨p, n, l, hh, htxn, -⟩ := h.txn hj
  obtain ⟨s, hs⟩ := htxn.extension
  rw [hext] at hs
  obtain rfl := Option.some.inj hs
  exact hh

theorem Inv.pecResponse {accept : Bool} (hi : c.Inv) (hk : k < c.length)
    (h : c.pecResponse k accept = .ok c') : c'.Inv := by
  have hslave := hi.slave k hk
  unfold Chain.pecResponse at h
  cases hs : (c.hops k).serving with
  | none =>
    rw [hs] at h
    cases h
  | some e =>
    rw [hs] at h
    simp only [bind_eq_ok, check_eq_ok] at h
    obtain ⟨-, -, -, -, x, hx, -, -, h⟩ := h
    have hext : (c.payloads e.t).extension = some x := World.extension_of_getExtension hx
    have hh := (hslave.serving e hs).2.holder hi.journey hext
    -- a gem5 model below has made the response
    obtain ⟨n, l, htxn, -, hl⟩ := (hi.journey x.packet).txn hh
    have hr : (c.packets x.packet).cmd.isResponse = true := hl.2
    have hn := hi.cmd x.packet hr
    simp only [setHop_packets, hn, hr, if_true, Bool.false_eq_true, if_false] at h
    obtain rfl := Except.ok.inj h
    refine hi.sendTimingResp (h := { c.hops k with serving := none }) hk (.inl rfl) hh hext
      hslave.port ?_ ?_ rfl ⟨rfl, rfl, rfl, rfl⟩
    · exact fun s y hy => ⟨hy, fun hp => by cases hp⟩
    · exact fun e' he' => by cases he'

theorem Inv.recvRespRetry {accept : Bool} (hi : c.Inv) (hk : k < c.length)
    (h : c.recvRespRetry k accept = .ok c') : c'.Inv := by
  have hslave := hi.slave k hk
  simp only [Chain.recvRespRetry, bind_eq_ok, check_eq_ok] at h
  obtain ⟨-, -, r, hr, h⟩ := h
  obtain _ | ⟨x, e, w⟩ := r
  · obtain rfl := Except.ok.inj h
    exact hi
  · obtain rfl := Except.ok.inj h
    obtain ⟨i, port, rfl, hi', hext, hset⟩ := World.takeResponse_eq_ok hslave.port hr
    have hext : (c.payloads x).extension = some e := hext
    obtain ⟨hat, e', he', hcore⟩ := hslave.refused i x hi'
    obtain rfl : e = e' := Option.some.inj (hext.symm.trans he')
    obtain ⟨hok, hslots⟩ := hset hcore
    refine hi.sendTimingResp (h := { c.hops k with slave := port }) hk (.inr rfl)
      (hat.holder hi.journey hext) hext hok ?_ ?_ rfl ⟨rfl, rfl, rfl, rfl⟩
    · intro s y hy
      rw [hslots] at hy
      by_cases hsi : s = i
      · subst hsi
        rw [Function.update_self] at hy
        cases hy
      · rw [Function.update_of_ne hsi] at hy
        refine ⟨hy, fun _ hyx => ?_⟩
        obtain ⟨-, f, hf, hs⟩ := hslave.refused s y hy
        have hef : some f = some e := hf.symm.trans (hyx ▸ hext)
        obtain rfl := Option.some.inj hef
        exact hsi (hs.symm.trans hcore)
    · exact fun e' he' => ⟨he', fun hp => by cases hp⟩

theorem Inv.responded (hi : c.Inv) (hk : k < c.length) (h : c.responded k = .ok c') : c'.Inv := by
  have hslave := hi.slave k hk
  unfold Chain.responded at h
  cases hr : (c.hops k).responding with
  | none =>
    rw [hr] at h
    cases h
  | some r =>
    rw [hr] at h
    dsimp only at h
    split_ifs at h with hretry
    · -- the response is refused
      simp only [bind_eq_ok, check_eq_ok, pure_eq_ok, Except.ok.injEq] at h
      obtain ⟨-, -, w, hw, h⟩ := h
      obtain ⟨hat, hext⟩ := hslave.sending r hr hretry
      have hh := hat.holder hi.journey hext
      have hport : ((c.setHop k { c.hops k with responding := none }).world k).port =
          (c.hops k).slave := by simp [world]
      obtain ⟨port, rfl, hok, hslots⟩ :=
        World.blockResponse_eq_ok (by rw [hport]; exact hslave.port) hw
      rw [hport] at hslots
      have hc' : c' = { c with
          hops := update c.hops k { c.hops k with slave := port, responding := none }
          holder := update c.holder r.extension.packet (.hop k .refused r.trans)
          curTick := c.curTick } := by
        rw [moveTo_eq (by exact hext)] at h
        rw [← h]
        simp [Chain.put, Chain.setHop, Chain.move, world]
      rw [hc']
      refine hi.step_station (b := .refused)
        (h := { c.hops k with slave := port, responding := none })
        hk hh rfl rfl hok ?_ hslave.distinct ?_ ?_ ?_ ⟨rfl, rfl, rfl, rfl⟩
      · exact fun y hy => .inr ⟨hy, fun ha => by cases ha⟩
      · exact fun e he => .inr ⟨he, fun ha => by cases ha⟩
      · exact fun r hr => by cases hr
      · intro s y hy
        rw [hslots] at hy
        by_cases hs : s = r.extension.coreId
        · subst hs
          rw [Function.update_self] at hy
          obtain rfl := Option.some.inj hy
          exact .inl ⟨rfl, rfl, _, hext, rfl⟩
        · rw [Function.update_of_ne hs] at hy
          exact .inr ⟨hy, fun ha => by cases ha⟩
    · -- the response is accepted, or there is none
      simp only [bind_eq_ok, pure_eq_ok, Except.ok.injEq] at h
      obtain ⟨w, hw, h⟩ := h
      have hleave := hslave.leaving r hr (by simpa using hretry)
      obtain ⟨mm, payloads, log, rfl, hd⟩ := World.sendEndResp_eq_ok hw
      have hb : (c.setHop k { c.hops k with responding := none }).Books :=
        hi.books.same rfl rfl (fun _ => rfl) (fun _ => rfl) fun _ => le_rfl
      have ht : c.Touches c' {r.trans} ∅ := by
        subst h
        exact { Touches.refl c {r.trans} ∅ with
          extension := fun x hx _ => hb.extension_of_release hd fun hxr => absurd hxr hx
          owners := fun x hx => ⟨(c.owners x).components, Function.update_of_ne hx _ _⟩ }
      apply hi.step (k := k) ht
      · subst h
        exact fun j hj => by simp [hj]
      · exact fun p hp => absurd hp (Set.notMem_empty p)
      · rintro x rfl
        exact .inl hleave.hop
      · rintro x rfl p _ hlive
        exact absurd hlive.waiting (by simp [hleave.waiting])
      · exact fun p hp => absurd hp (Set.notMem_empty p)
      · intro _
        have hev : (c'.hops k).events = (c.hops k).events := by
          subst h
          simp [world]
        have hport : (c'.hops k).slave = (c.hops k).slave := by
          subst h
          simp [world]
        have hnone : (c'.hops k).responding = none := by
          subst h
          simp
        constructor
        · rw [hport]
          exact hslave.port
        · exact ht.scheduled hslave (by rw [hev]) fun p hp => absurd hp (Set.notMem_empty p)
        · rw [hev]
          exact hslave.distinct
        · apply ht.serving hslave _ fun p hp => absurd hp (Set.notMem_empty p)
          subst h
          simp
        · simp [hnone]
        · simp [hnone]
        · apply ht.refused hslave hi.journey (by rw [hport]) fun p hp =>
            absurd hp (Set.notMem_empty p)
          rintro x rfl p hlive _
          exact absurd hlive.waiting (by simp [hleave.waiting])
      · intro _
        apply ht.masterOk_of_same (hi.master k hk)
        · subst h
          constructor <;> simp
        · exact fun p hp => absurd hp (Set.notMem_empty p)
        · rintro x rfl hacc
          subst h
          constructor <;> simp [hacc.hop, hacc.queued, hacc.accepted]
      · subst h
        refine hb.release hd rfl rfl rfl ?_ ?_
        · have := hleave.slave
          simp [Chain.count, this]
        · intro y hy
          simp [hy]
      · subst h
        exact hi.cmd
      · subst h
        exact hi.law

theorem holder_of_whereIs {a : Place} (h : c.whereIs x = some (.hop k a x)) :
    ∃ e, (c.payloads x).extension = some e ∧ c.holder e.packet = .hop k a x :=
  Option.map_eq_some_iff.1 h

theorem Inv.nbTransportBw {ph : Phase} {delay : ℕ} (hi : c.Inv) (hk : k < c.length)
    (h : c.nbTransportBw k x ph delay = .ok c') : c'.Inv := by
  have hslave := hi.slave k hk
  unfold Chain.nbTransportBw at h
  generalize hser : (c.serialOf x).getD 0 = n at h
  have hev := PayloadEvent.responses_insert ⟨x, ph, c.now + delay, n⟩ (c.hops k).events
  cases ph with
  | endReq =>
    obtain rfl := Except.ok.inj h
    exact hi.step_port hk hslave.port rfl hev rfl rfl rfl rfl
  | beginResp =>
    simp only [bind_eq_ok, check_eq_ok, pure_eq_ok, Except.ok.injEq] at h
    obtain ⟨-, hwhere, h⟩ := h
    obtain ⟨e, hext, hh⟩ := holder_of_whereIs hwhere
    have hnew : x ∉ PayloadEvent.responses (c.hops k).events := by
      intro hx
      have := (hslave.scheduled x hx).holder hi.journey hext
      rw [hh] at this
      cases this
    have hc' : c' = { c with
        hops := update c.hops k { c.hops k with
          events := TimedQueue.insert PayloadEvent.tick ⟨x, .beginResp, c.now + delay, n⟩
            (c.hops k).events }
        holder := update c.holder e.packet (.hop k .scheduled x)
        curTick := c.curTick } := by
      rw [moveTo_eq (by exact hext)] at h
      rw [← h]
      rfl
    rw [hc']
    refine hi.step_station (b := .scheduled) (h := { c.hops k with events := _ })
      hk hh rfl rfl hslave.port ?_ ?_ ?_ ?_ ?_ ⟨rfl, rfl, rfl, rfl⟩
    · intro y hy
      obtain rfl | hy := List.mem_cons.1 (hev.mem_iff.1 hy)
      · exact .inl ⟨rfl, rfl⟩
      · exact .inr ⟨hy, fun ha => by cases ha⟩
    · exact hev.nodup_iff.2 (List.nodup_cons.2 ⟨hnew, hslave.distinct⟩)
    · exact fun e he => .inr ⟨he, fun ha => by cases ha⟩
    · exact fun r hr => ⟨hr, fun ha => by cases ha⟩
    · exact fun s y hy => .inr ⟨hy, fun ha => by cases ha⟩
  | beginReq | endResp => cases h

end Chain

end Gem5Wrapper
