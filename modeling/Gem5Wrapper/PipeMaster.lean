import Gem5Wrapper.PipeSlave

/-!
# What the master ports of a chain do

A request that goes on, with a sender state of the port on its stack, and a response that comes
back, from which the port takes this sender state off again (`Inv.arrives`).
-/

namespace Gem5Wrapper

open FaultMachine History
open Function (update)

namespace Chain

variable {c c' : Chain} {k n : ℕ} {x y : Ptr} {p q : PacketPtr} {l : List SenderState}

/-! ## Steps that no packet notices -/

/-- `set_response_status`. -/
theorem Inv.setStatus {s : ResponseStatus} (hi : c.Inv) : (c.setStatus x s).Inv := by
  have hpay : ∀ y, ((c.setStatus x s).payloads y).extension = (c.payloads y).extension ∧
      ((c.setStatus x s).payloads y).refCount = (c.payloads y).refCount := by
    intro y
    by_cases hy : y = x <;> simp [hy]
  -- no hop of the chain
  apply hi.step_hop (k := c.length)
  · exact { Touches.refl c ∅ ∅ with extension := fun y _ _ => (hpay y).1 }
  · exact fun _ _ => rfl
  · exact fun h => absurd h (Nat.lt_irrefl _)
  · exact fun h => absurd h (Nat.lt_irrefl _)
  · exact hi.books.same rfl rfl (fun y => (hpay y).1) (fun y => (hpay y).2) fun _ => le_rfl
  · rfl
  · rfl

/-- Time passes. -/
theorem Inv.advance {t : ℕ} (hi : c.Inv) : ({ c with now := t } : Chain).Inv := by
  apply hi.step_hop (k := c.length)
  · exact { Touches.refl c ∅ ∅ with }
  · exact fun _ _ => rfl
  · exact fun h => absurd h (Nat.lt_irrefl _)
  · exact fun h => absurd h (Nat.lt_irrefl _)
  · exact hi.books.same rfl rfl (fun _ => rfl) (fun _ => rfl) fun _ => le_rfl
  · rfl
  · rfl

theorem touches_of_hops {f : ℕ → Hop} {t : ℕ} :
    c.Touches ({ c with hops := f, curTick := t } : Chain) ∅ ∅ :=
  { Touches.refl c ∅ ∅ with }

/-- The master port of a hop has another state; `h` is what the hop is then. -/
theorem Inv.step_master {h : Hop} {t : ℕ} (hi : c.Inv) (hk : k < c.length)
    (hsame : h.SameSlave (c.hops k))
    (hm : ({ c with hops := update c.hops k h, curTick := t } : Chain).MasterOk k) :
    ({ c with hops := update c.hops k h, curTick := t } : Chain).Inv := by
  apply hi.step_hop (k := k) touches_of_hops
  · exact fun j hj => Function.update_of_ne hj _ _
  · intro _
    apply touches_of_hops.slaveOk_of_same (hi.slave k hk) hi.journey
    · show (Function.update c.hops k h k).SameSlave (c.hops k)
      rwa [Function.update_self]
    · exact fun p hp => absurd hp (Set.notMem_empty p)
    · exact fun x hx => absurd hx (Set.notMem_empty x)
  · exact fun _ => hm
  · exact hi.books.same rfl rfl (fun _ => rfl) (fun _ => rfl) fun _ => le_rfl
  · rfl
  · rfl

/-- The master port names what it has named before. -/
theorem MasterOk.update {h : Hop} {t : ℕ} (hm : c.MasterOk k)
    (hpeq : (PeqEvent.queued h.peq .beginReq).Perm (PeqEvent.queued (c.hops k).peq .beginReq))
    (hreq : h.requesting = (c.hops k).requesting)
    (hpend : h.pendingRequest = (c.hops k).pendingRequest)
    (hpkt : h.pendingPacket = (c.hops k).pendingPacket) :
    ({ c with hops := update c.hops k h, curTick := t } : Chain).MasterOk k := by
  apply touches_of_hops.masterOk hm <;> simp [hpeq, hreq, hpend, hpkt]

/-! ## References of SystemC components -/

/-- Components count their references; the payload of a transaction is not given back. -/
theorem Inv.step_components {w : World} {m : ℕ} (hi : c.Inv) (hk : k < c.length)
    (hport : w.port = (c.hops k).slave) (hev : w.events = (c.hops k).events)
    (hpkt : w.packets = c.packets) (hext : ∀ y, (c.owners y).slave = true →
      (w.payloads y).extension = (c.payloads y).extension)
    (hb : ((c.put k w).setOwners x { c.owners x with components := m }).Books) :
    ((c.put k w).setOwners x { c.owners x with components := m }).Inv := by
  have ht : c.Touches ((c.put k w).setOwners x { c.owners x with components := m }) ∅ ∅ := by
    refine { Touches.refl c ∅ ∅ with
      extension := fun y _ hs => hext y hs
      owners := fun y _ => ?_
      isResponse := fun _ _ => by simp [hpkt] }
    by_cases hy : y = x
    · exact ⟨m, by simp [hy]⟩
    · exact ⟨(c.owners y).components, by simp [hy]⟩
  apply hi.step_hop (k := k) ht
  · exact fun j hj => Function.update_of_ne hj _ _
  · intro _
    apply ht.slaveOk_of_same (hi.slave k hk) hi.journey
    · constructor <;> simp [hport, hev]
    · exact fun p hp => absurd hp (Set.notMem_empty p)
    · exact fun y hy => absurd hy (Set.notMem_empty y)
  · intro _
    apply ht.masterOk_of_same (hi.master k hk)
    · constructor <;> simp
    · exact fun p hp => absurd hp (Set.notMem_empty p)
    · exact fun y hy => absurd hy (Set.notMem_empty y)
  · exact hb
  · exact hpkt
  · rfl

theorem Inv.acquire (hi : c.Inv) (hk : k < c.length) (h : c.acquire k x = .ok c') : c'.Inv := by
  simp only [Chain.acquire, bind_eq_ok, check_eq_ok, pure_eq_ok, Except.ok.injEq] at h
  obtain ⟨-, hpos, w, hw, rfl⟩ := h
  obtain ⟨payloads, hwc, hview⟩ := World.acquire_eq_ok hw
  apply hi.step_components hk
  · rw [hwc]
    rfl
  · rw [hwc]
    rfl
  · rw [hwc]
    rfl
  · exact fun y _ => congrFun (congrArg View.carried hview) y
  · refine hi.books.acquire hw hpos rfl rfl rfl ?_ ?_
    · simp [Chain.count]
      omega
    · intro y hy
      simp [hy]

theorem Inv.release (hi : c.Inv) (hk : k < c.length) (h : c.release k x = .ok c') : c'.Inv := by
  simp only [Chain.release, bind_eq_ok, check_eq_ok, pure_eq_ok, Except.ok.injEq] at h
  obtain ⟨-, hpos, w, hw, rfl⟩ := h
  obtain ⟨mm, payloads, hwc, hd⟩ := World.release_eq_ok hw
  apply hi.step_components hk
  · rw [hwc]
    rfl
  · rw [hwc]
    rfl
  · rw [hwc]
    rfl
  · intro y hs
    apply hi.books.extension_of_release hd
    rintro rfl
    unfold Chain.count
    rw [hs]
    simp only [Bool.toNat_true]
    omega
  · refine hi.books.release hd rfl rfl rfl ?_ ?_
    · simp [Chain.count]
      omega
    · intro y hy
      simp [hy]

/-! ## END_RESP -/

theorem Inv.handleEndResp (hi : c.Inv) (hk : k < c.length) (h : c.handleEndResp k x = .ok c') :
    c'.Inv := by
  simp only [Chain.handleEndResp, bind_eq_ok, check_eq_ok, pure_eq_ok, Except.ok.injEq] at h
  obtain ⟨-, -, -, -, rfl⟩ := h
  refine hi.step_master (h := { c.hops k with
    responseInProgress := false, retrying := (c.hops k).needToSendRetry })
    hk ⟨rfl, rfl, rfl, rfl⟩ ?_
  exact (hi.master k hk).update (.refl _) rfl rfl rfl

theorem Inv.retried (hi : c.Inv) (hk : k < c.length) (h : c.retried k = .ok c') : c'.Inv := by
  simp only [Chain.retried, bind_eq_ok, check_eq_ok, pure_eq_ok, Except.ok.injEq] at h
  obtain ⟨-, -, rfl⟩ := h
  refine hi.step_master (h := { c.hops k with needToSendRetry := false, retrying := false })
    hk ⟨rfl, rfl, rfl, rfl⟩ ?_
  exact (hi.master k hk).update (.refl _) rfl rfl rfl

/-! ## BEGIN_REQ -/

/-- The slave port of a hop does not see a packet at a station that it does not know. -/
theorem Inv.slaveOk_of_place {place : Place} (hi : c.Inv) (hk : k < c.length)
    (hh : c.holder p = .hop k place x) (hplace : place.ofSlave = false)
    (ht : c.Touches c' {x} {p}) (hstays : c.Stays c' x)
    (hsame : (c'.hops k).SameSlave (c.hops k)) : c'.SlaveOk k := by
  apply ht.slaveOk_of_same (hi.slave k hk) hi.journey hsame
  · intro q hq a y h
    obtain ⟨-, rfl, -⟩ := station_of_mem hh hq h
    exact hplace
  · rintro y rfl _ _
    exact hstays

theorem queued_append {q : List (PeqEvent Ptr)} {e : PeqEvent Ptr} :
    PeqEvent.queued (q ++ [e]) .beginReq =
      PeqEvent.queued q .beginReq ++ if e.phase = .beginReq then [e.txn] else [] := by
  by_cases he : e.phase = .beginReq <;> simp [PeqEvent.queued, he]

theorem Txn.referenced (h : c.Txn p k x n l) (hb : c.Books) : 0 < (c.payloads x).refCount := by
  have := hb.count x
  unfold Chain.count at this
  rw [h.slave, Bool.toNat_true] at this
  omega

/-- BEGIN_REQ goes into the payload event queue. -/
theorem Inv.queue {w : World} {delay : ℕ} (hi : c.Inv) (hk : k < c.length)
    (hwhere : c.whereIs x = some (.hop k .forward x)) (hw : (c.world k).acquire x = .ok w)
    (h : (((c.put k w).notify k x .beginReq delay).moveTo k .queued x).setOwners x
      { c.owners x with queued := true } = c') : c'.Inv := by
  obtain ⟨e, hext, hh⟩ := holder_of_whereIs hwhere
  obtain ⟨payloads, hwc, hview⟩ := World.acquire_eq_ok hw
  have hext' : (w.payloads x).extension = some e :=
    (congrFun (congrArg View.carried hview) x).trans hext
  rw [moveTo_eq (by exact hext')] at h
  generalize hp : e.packet = p at *
  obtain ⟨n, l, htxn, hstack, hl⟩ := (hi.journey p).txn hh
  have hmaster := hi.master k hk
  have hpayload : ∀ y, (c'.payloads y).extension = (c.payloads y).extension := by
    subst h
    exact fun y => congrFun (congrArg View.carried hview) y
  have howners : c'.owners = update c.owners x { c.owners x with queued := true } := by
    subst h
    rfl
  have hhop : c'.hops k = { c.hops k with
      peq := (c.hops k).peq ++ [⟨x, .beginReq, c.now + delay⟩] } := by
    subst h
    simp [hwc, world]
  have hh' : c'.holder p = .hop k .queued x := by
    subst h
    simp
  have ht : c.Touches c' {x} {p} := by
    subst h
    exact { Touches.refl c {x} {p} with
      extension := fun y _ _ => hpayload y
      owners := fun y hy => ⟨(c.owners y).components, Function.update_of_ne hy _ _⟩
      holder := fun q hq => Function.update_of_ne hq _ _
      isResponse := fun _ _ => by simp [hwc, world] }
  have hstays : c.Stays c' x := by
    refine ⟨hpayload x, ?_, ?_, ?_⟩
    all_goals simp [howners]
  have htr : c'.trace = c.trace := by
    subst h
    rfl
  have hr : c'.packets = c.packets := by
    subst h
    simp [hwc, world]
  have hkeep : c.Keeps c' p k := by
    apply ht.keeps_of_trace _ htr (by rw [hr])
    rintro y rfl _
    exact htxn.hop.ge
  apply hi.step_packet hh ht
  · subst h
    exact fun j hj => by simp [hj]
  · refine journey_of_hop hh' (htxn.stays hstays ?_) (hstack.keep hkeep ?_ ?_) ?_
    · rw [htr, hr]
      exact htxn.taken
    · subst h
      rfl
    · subst h
      rfl
    · refine ⟨?_, ?_, ?_⟩
      · subst h
        exact hl.1
      · simp [howners]
      · simp [howners, hl.2]
  · intro _
    refine hi.slaveOk_of_place hk hh rfl ht hstays ?_
    rw [hhop]
    exact ⟨rfl, rfl, rfl, rfl⟩
  · intro _
    have hnew : x ∉ PeqEvent.queued (c.hops k).peq .beginReq := by
      intro hx
      have := (hmaster.queued x hx).holder hi.journey hext
      rw [hp, hh] at this
      cases this
    have hne : ∀ place ≠ .forward, ∀ q ∈ ({p} : Set PacketPtr), ∀ y,
        c.holder q ≠ .hop k place y :=
      fun place hplace q hq y h => hplace (station_of_mem hh hq h).2.1
    have hpeq : PeqEvent.queued (c'.hops k).peq .beginReq =
        PeqEvent.queued (c.hops k).peq .beginReq ++ [x] := by
      rw [hhop, queued_append, if_pos rfl]
    constructor
    · rw [hpeq]
      intro y hy
      obtain hy | hy := List.mem_append.1 hy
      · exact ht.isAt (fun q hq => hne _ (by simp) q hq y) (hmaster.queued y hy)
      · rw [List.mem_singleton.1 hy]
        exact ⟨p, hh'⟩
    · rw [hpeq]
      refine List.nodup_append.2 ⟨hmaster.distinct, List.nodup_singleton x, ?_⟩
      rintro y hy z hz rfl
      exact hnew (List.mem_singleton.1 hz ▸ hy)
    · apply ht.requesting hmaster _ _ _ (hne _ (by simp))
      · rintro y rfl hacc
        have := hacc.accepted
        rw [hl.2] at this
        cases this
      · rw [hhop]
      · rw [hhop]
      · rw [hhop]
    · apply ht.pending hmaster _ _ _ (hne _ (by simp))
      · rw [hhop]
      · rw [hhop]
      · rw [hhop]
  · refine hi.books.acquire hw (htxn.referenced hi.books) ?_ ?_ ?_ ?_ ?_
    · subst h
      rfl
    · subst h
      rfl
    · subst h
      rfl
    · rw [howners, Function.update_self]
      unfold Chain.count
      simp only [Bool.toNat_true]
      omega
    · intro y hy
      rw [howners, Function.update_of_ne hy]
  · rw [hr]
    exact hi.cmd
  · rw [htr]
    exact hi.law

theorem Inv.nbTransportFw {ph : Phase} {delay : ℕ} (hi : c.Inv) (hk : k < c.length)
    (h : c.nbTransportFw k x ph delay = .ok c') : c'.Inv := by
  simp only [Chain.nbTransportFw, bind_eq_ok, check_eq_ok] at h
  obtain ⟨-, hpass, h⟩ := h
  split_ifs at h with hbyte hburst hph
  · obtain rfl := Except.ok.inj h
    exact hi.setStatus
  · obtain rfl := Except.ok.inj h
    exact hi.setStatus
  · subst hph
    simp only [bind_eq_ok] at h
    obtain ⟨w, hw, h⟩ := h
    exact hi.queue hk hpass hw (Except.ok.inj h)
  · simp only [bind_eq_ok] at h
    obtain ⟨w, hw, h⟩ := h
    obtain rfl := Except.ok.inj h
    have hpos : 0 < (c.payloads x).refCount := by
      cases ph with
      | beginReq => exact absurd rfl hph
      | endResp => exact hpass
      | endReq | beginResp => exact hpass.elim
    have hput : (c.put k w).Inv := by
      obtain ⟨payloads, hwc, hview⟩ := World.acquire_eq_ok hw
      have hset : (c.put k w).setOwners x
          { c.owners x with components := (c.owners x).components } = c.put k w := by
        simp [Chain.setOwners]
        rfl
      rw [← hset]
      apply hi.step_components hk
      · rw [hwc]
        rfl
      · rw [hwc]
        rfl
      · rw [hwc]
        rfl
      · exact fun y _ => congrFun (congrArg View.carried hview) y
      · refine hi.books.acquire hw hpos rfl rfl rfl ?_ ?_
        · simp
        · intro y hy
          simp [hy]
    refine hput.step_master (h := { (c.put k w).hops k with
      peq := ((c.put k w).hops k).peq ++ [⟨x, ph, c.now + delay⟩] })
      hk ⟨rfl, rfl, rfl, rfl⟩ ?_
    refine (hput.master k hk).update ?_ rfl rfl rfl
    rw [queued_append, if_neg hph, List.append_nil]

/-! ## Requests to gem5 -/

/-- Master port `k` calls `sendTimingReq` for a packet with its sender state on top. -/
theorem Inv.sendTimingReq {accept again : Bool} (hi : c.Inv) (hk : k < c.length)
    (hh : c.holder p = .hop k .pending x)
    (hagain : again = true → (c.hops k).pendingRequest = some x ∧
      (c.hops k).pendingPacket = some p)
    (hfirst : again = false → (c.hops k).pendingRequest = none) :
    (c.sendTimingReq k x p accept again).Inv := by
  have hmaster := hi.master k hk
  obtain ⟨n, l, htxn, hstack, ⟨a, hs, hlabel⟩, hqueued, -⟩ := (hi.journey p).txn hh
  cases accept with
  | false =>
    have hc' : c.sendTimingReq k x p false again = { c with
        hops := update c.hops k { c.hops k with requesting := some ⟨x, p, false, again⟩ }
        curTick := c.curTick } := by
      simp [Chain.sendTimingReq, Chain.setHop, Chain.move, ← hh]
    rw [hc']
    refine hi.step_master (h := { c.hops k with requesting := some ⟨x, p, false, again⟩ })
      hk ⟨rfl, rfl, rfl, rfl⟩ ?_
    constructor
    · simp only [Function.update_self]
      exact hmaster.queued
    · simp only [Function.update_self]
      exact hmaster.distinct
    · simp only [Function.update_self]
      intro r hr
      obtain rfl := Option.mem_some_iff.1 hr
      refine ⟨fun hacc => (by cases hacc), fun _ => hh, ?_, ?_⟩
      · simpa using hagain
      · simpa using hfirst
    · simp
  | true =>
    generalize hc' : c.sendTimingReq k x p true again = c'
    have howners : c'.owners = update c.owners x { c.owners x with accepted := true } := by
      subst hc'
      rfl
    have hhop : c'.hops k = { c.hops k with requesting := some ⟨x, p, true, again⟩ } := by
      subst hc'
      simp [Chain.sendTimingReq]
    have hh' : c'.holder p = .gem5 (k + 1) := by
      subst hc'
      simp [Chain.sendTimingReq]
    have hpushed : c'.pushed p = update (c.pushed p) (k + 1) 0 := by
      subst hc'
      simp [Chain.sendTimingReq]
    have ht : c.Touches c' {x} {p} := by
      subst hc'
      exact { Touches.refl c {x} {p} with
        owners := fun y hy => ⟨(c.owners y).components, Function.update_of_ne hy _ _⟩
        holder := fun q hq => Function.update_of_ne hq _ _
        pushed := fun q hq => Function.update_of_ne hq _ _ }
    have hpay : c'.payloads = c.payloads := by
      subst hc'
      rfl
    have hstays : c.Stays c' x := by
      refine ⟨by rw [hpay], ?_, ?_, ?_⟩ <;> simp [howners]
    have hpkts : c'.packets = c.packets := by
      subst hc'
      rfl
    have htr : c'.trace = c.trace := by
      subst hc'
      rfl
    apply hi.step_packet hh ht
    · subst hc'
      exact fun j hj => by simp [Chain.sendTimingReq, hj]
    · -- the label of this hop stays, too
      have hkeep : c.Keeps c' p (k + 1) := by
        have hpay' : ∀ y, c.Stays c' y ∧ (c'.owners y).begun = (c.owners y).begun := by
          intro y
          by_cases hy : y = x
          · subst hy
            exact ⟨hstays, by simp [howners]⟩
          · refine ⟨⟨by rw [hpay], ?_, ?_, ?_⟩, ?_⟩ <;> simp [howners, hy]
        refine ⟨fun y _ _ => (hpay' y).1, fun y _ _ => (hpay' y).2, [], htr, by simp, ?_⟩
        rw [hpkts, List.count_nil, Nat.zero_add]
      refine journey_of_gem5 hh' ?_
      have hlabel' := hlabel.keep hkeep (Nat.lt_succ_self k)
      have hlayers : Layers (c.home p) (c'.Label p) (c.pushed p) k l :=
        hstack.mono (fun _ _ _ hj hl => hl.keep hkeep (Nat.lt_succ_of_lt hj)) fun _ _ => rfl
      have := hlayers.enter hlabel'
      rw [← hpushed, ← hs] at this
      subst hc'
      exact this
    · intro _
      refine hi.slaveOk_of_place hk hh rfl ht hstays ?_
      rw [hhop]
      exact ⟨rfl, rfl, rfl, rfl⟩
    · intro _
      constructor
      · apply ht.queued hmaster
        · rw [hhop]
        · intro q hq y h
          obtain ⟨-, hne, -⟩ := station_of_mem hh hq h
          cases hne
      · rw [hhop]
        exact hmaster.distinct
      · rw [hhop]
        intro r hr
        obtain rfl := Option.mem_some_iff.1 hr
        refine ⟨fun _ => ?_, fun hacc => (by cases hacc), ?_, ?_⟩
        · constructor <;> simp [howners, htxn.hop, hqueued]
        · rw [hhop]
          exact hagain
        · rw [hhop]
          exact hfirst
      · rw [hhop]
        exact fun hn => by cases hn
    · refine hi.books.same ?_ ?_ (fun y => by rw [hpay]) (fun y => by rw [hpay]) fun y => ?_
      · subst hc'
        rfl
      · subst hc'
        rfl
      · by_cases hy : y = x
        · simp [howners, Chain.count, hy]
        · simp [howners, hy]
    · rw [hpkts]
      exact hi.cmd
    · rw [htr]
      exact hi.law

/-- The call of `sendTimingReq` moves the packet, wherever it is. -/
theorem sendTimingReq_move {h : Holder} {accept again : Bool} :
    (c.move p h).sendTimingReq k x p accept again = c.sendTimingReq k x p accept again := by
  cases accept <;> simp [Chain.sendTimingReq, Chain.move, Chain.setHop]

/-- The sender state is pushed: the packet is where `sendTimingReq` is called. -/
theorem Inv.beginReq {w : World} {i : ℕ} {e : PeqEvent Ptr} {f : Gem5Extension} (hi : c.Inv)
    (hk : k < c.length) (he : (c.hops k).peq[i]? = some e) (hp : e.phase = .beginReq)
    (hext : (c.payloads e.txn).extension = some f) (hreq : (c.hops k).requesting = none)
    (hpend : (c.hops k).pendingRequest = none) (hw : (c.world k).acquire e.txn = .ok w)
    (h : (((((c.setHop k { c.hops k with peq := (c.hops k).peq.eraseIdx i }).put k w).setOwners
      e.txn { c.owners e.txn with begun := true }).setStack f.packet
        (.tlm k e.txn f.serial :: c.senderStates f.packet)).emit
          (.begun k e.txn f.serial f.packet)).move f.packet (.hop k .pending e.txn) = c') :
    c'.Inv := by
  have hmaster := hi.master k hk
  obtain ⟨payloads, hwc, hview⟩ := World.acquire_eq_ok hw
  have hperm := PeqEvent.queued_eraseIdx he .beginReq
  rw [if_pos hp, List.singleton_append] at hperm
  generalize hx : e.txn = x at *
  obtain ⟨hfirst, hnodup⟩ := List.nodup_cons.1 (hperm.nodup_iff.1 hmaster.distinct)
  have hh := (hmaster.queued x (hperm.mem_iff.2 List.mem_cons_self)).holder hi.journey hext
  generalize hpkt : f.packet = p at *
  obtain ⟨n, l, htxn, hstack, hs, hqueued, hacc⟩ := (hi.journey p).txn hh
  obtain rfl : f.serial = n := htxn.serial_eq hext
  have howners : c'.owners = update c.owners x { c.owners x with begun := true } := by
    subst h
    rfl
  have hhop : c'.hops k = { c.hops k with peq := (c.hops k).peq.eraseIdx i } := by
    subst h
    simp [hwc, world]
  have hh' : c'.holder p = .hop k .pending x := by
    subst h
    simp
  have htr : c'.trace = .begun k x f.serial p :: c.trace := by
    subst h
    rfl
  have hpkts : c'.packets = c.packets := by
    subst h
    simp [hwc, world]
  have hpay : ∀ y, (c'.payloads y).extension = (c.payloads y).extension := by
    subst h
    exact fun y => congrFun (congrArg View.carried hview) y
  have ht : c.Touches c' {x} {p} := by
    subst h
    exact { Touches.refl c {x} {p} with
      extension := fun y _ _ => hpay y
      owners := fun y hy => ⟨(c.owners y).components, Function.update_of_ne hy _ _⟩
      holder := fun q hq => Function.update_of_ne hq _ _
      stack := fun q hq => Function.update_of_ne hq _ _
      isResponse := fun _ _ => by rw [hpkts]
      trace := ⟨[_], htr, by simp [Obs.packet]⟩ }
  have hstays : c.Stays c' x := by
    refine ⟨hpay x, ?_, ?_, ?_⟩
    all_goals simp [howners]
  apply hi.step_packet hh ht
  · subst h
    exact fun j hj => by simp [hj]
  · have hkeep : c.Keeps c' p k := by
      refine ht.keeps_of_event ?_ htr (fun j hj => ?_) (by simp) (by rw [hpkts])
      · rintro y rfl _
        exact htxn.hop.ge
      · simp [Obs.crosses, Obs.begins, hj.ne']
    have htxn' : c'.Txn p k x f.serial l := by
      apply htxn.stays hstays
      rw [htr, hpkts]
      exact htxn.taken.cons fun new hnew => hnew.cons (by simp [Obs.crosses]) (by simp)
    have hlabel : c'.Label p k (.tlm k x f.serial) l := by
      refine ⟨x, f.serial, rfl, htxn', ?_, ?_⟩
      · simp [howners]
      · rw [htr]
        exact since_self (by simp [LastPush])
    refine journey_of_hop hh' htxn' (hstack.keep hkeep ?_ ?_) ⟨⟨_, ?_, hlabel⟩, ?_, ?_⟩
    · subst h
      rfl
    · subst h
      rfl
    · subst h
      simp [hs]
    · simp [howners, hqueued]
    · simp [howners, hacc]
  · intro _
    refine hi.slaveOk_of_place hk hh rfl ht hstays ?_
    rw [hhop]
    exact ⟨rfl, rfl, rfl, rfl⟩
  · intro _
    constructor
    · rw [hhop]
      intro y hy
      apply ht.isAt _ (hmaster.queued y (hperm.mem_iff.2 (List.mem_cons_of_mem _ hy)))
      intro q hq h
      obtain ⟨-, -, rfl⟩ := station_of_mem hh hq h
      exact hfirst hy
    · rwa [hhop]
    · rw [hhop]
      intro r hr
      rw [hreq] at hr
      cases hr
    · rw [hhop]
      intro _ y hy
      rw [hpend] at hy
      cases hy
  · refine hi.books.acquire hw (htxn.referenced hi.books) ?_ ?_ ?_ ?_ ?_
    · subst h
      rfl
    · subst h
      rfl
    · subst h
      rfl
    · rw [howners, Function.update_self]
      unfold Chain.count
      simp only [Bool.toNat_true]
      omega
    · intro y hy
      rw [howners, Function.update_of_ne hy]
  · rw [hpkts]
    exact hi.cmd
  · rw [htr]
    exact ⟨trivial, hi.law⟩

theorem Inv.handleBeginReq {i : ℕ} {e : PeqEvent Ptr} {accept : Bool} (hi : c.Inv)
    (hk : k < c.length) (he : (c.hops k).peq[i]? = some e) (hp : e.phase = .beginReq)
    (hreq : (c.hops k).requesting = none)
    (h : (c.setHop k { c.hops k with peq := (c.hops k).peq.eraseIdx i }).handleBeginReq k e.txn
      accept = .ok c') : c'.Inv := by
  simp only [Chain.handleBeginReq, bind_eq_ok, check_eq_ok] at h
  obtain ⟨-, -, -, hpend, -, -, w, hw, h⟩ := h
  have hpend : (c.hops k).pendingRequest = none := by simpa using hpend
  have hworld : (c.setHop k { c.hops k with peq := (c.hops k).peq.eraseIdx i }).world k =
      c.world k := by simp [world]
  rw [hworld] at hw
  have hat : c.IsAt k .queued e.txn := by
    apply (hi.master k hk).queued
    rw [(PeqEvent.queued_eraseIdx he .beginReq).mem_iff, if_pos hp]
    exact List.mem_cons_self
  obtain ⟨p, n, l, hh, htxn, -⟩ := hat.txn hi.journey
  obtain ⟨s, hext⟩ := htxn.extension
  obtain ⟨payloads, hwc, hview⟩ := World.acquire_eq_ok hw
  have hext' : (w.payloads e.txn).extension = some ⟨p, s, n⟩ :=
    (congrFun (congrArg View.carried hview) e.txn).trans hext
  have hbegin := hi.beginReq hk he hp hext hreq hpend hw rfl
  simp only [setOwners_payloads, put_payloads, hext'] at h
  obtain rfl := Except.ok.inj h
  rw [← sendTimingReq_move (h := .hop k .pending e.txn)]
  refine hbegin.sendTimingReq hk ?_ (fun ha => by cases ha) fun _ => ?_
  · simp
  · simpa using hpend

/-- gem5 calls `recvReqRetry`: the sender state is on the packet already. -/
theorem Inv.recvReqRetry {accept : Bool} (hi : c.Inv) (hk : k < c.length)
    (h : c.recvReqRetry k accept = .ok c') : c'.Inv := by
  simp only [Chain.recvReqRetry, bind_eq_ok, check_eq_ok] at h
  obtain ⟨-, hreq, -, -, h⟩ := h
  cases hpend : (c.hops k).pendingRequest with
  | none =>
    rw [hpend] at h
    cases h
  | some x =>
    obtain ⟨p, hpkt, hh⟩ := (hi.master k hk).pending hreq x hpend
    rw [hpend, hpkt] at h
    obtain rfl := Except.ok.inj h
    exact hi.sendTimingReq hk hh (fun _ => ⟨hpend, hpkt⟩) fun ha => by cases ha

/-- gem5 has taken the packet: END_REQ is sent, and the reference of the queue is given back; `h` is
what the hop is then. -/
theorem Inv.endReq {w : World} {h : Hop} (hi : c.Inv) (hk : k < c.length) (hx : c.Accepted k x)
    (hw : (c.world k).release x = .ok w) (hsame : h.SameSlave (c.hops k))
    (hpeq : h.peq = (c.hops k).peq)
    (hreq : h.requesting = none) (hpend : h.pendingRequest = none)
    (hc' : ((c.put k w).setOwners x { c.owners x with queued := false }).setHop k h = c') :
    c'.Inv := by
  obtain ⟨mm, payloads, hwc, hd⟩ := World.release_eq_ok hw
  have hmaster := hi.master k hk
  have howners : c'.owners = update c.owners x { c.owners x with queued := false } := by
    subst hc'
    rfl
  have hhop : c'.hops k = h := by
    subst hc'
    simp
  have hpkts : c'.packets = c.packets := by
    subst hc'
    simp [hwc, world]
  have hpay : ∀ y, (y = x → (c.owners y).slave = true) →
      (c'.payloads y).extension = (c.payloads y).extension := by
    intro y hy
    subst hc'
    apply hi.books.extension_of_release hd
    rintro rfl
    unfold Chain.count
    rw [hy rfl, hx.queued]
    simp only [Bool.toNat_true]
    omega
  have ht : c.Touches c' {x} ∅ := by
    subst hc'
    exact { Touches.refl c {x} ∅ with
      extension := fun y hy _ => hpay y fun hyx => absurd hyx hy
      owners := fun y hy => ⟨(c.owners y).components, Function.update_of_ne hy _ _⟩
      isResponse := fun _ _ => by rw [hpkts] }
  have hstays : (c.owners x).slave = true → c.Stays c' x := by
    intro hs
    refine ⟨hpay x fun _ => hs, ?_, ?_, ?_⟩
    all_goals simp [howners]
  apply hi.step (k := k) ht
  · subst hc'
    exact fun j hj => by simp [hj]
  · exact fun p hp => absurd hp (Set.notMem_empty p)
  · rintro y rfl
    exact .inl hx.hop
  · rintro y rfl p _ hlive
    refine ⟨hstays hlive.slave, ?_, ?_, fun hacc => ?_⟩
    · simp [howners]
    · simp [howners]
    · rw [hx.accepted] at hacc
      cases hacc
  · exact fun p hp => absurd hp (Set.notMem_empty p)
  · intro _
    apply ht.slaveOk_of_same (hi.slave k hk) hi.journey
    · rwa [hhop]
    · exact fun p hp => absurd hp (Set.notMem_empty p)
    · rintro y rfl _ hs
      exact hstays hs
  · intro _
    constructor
    · apply ht.queued hmaster
      · rw [hhop, hpeq]
      · exact fun p hp => absurd hp (Set.notMem_empty p)
    · rw [hhop, hpeq]
      exact hmaster.distinct
    · rw [hhop, hreq]
      intro r hr
      cases hr
    · rw [hhop, hpend]
      intro _ y hy
      cases hy
  · refine hi.books.release hd ?_ ?_ ?_ ?_ ?_
    · subst hc'
      rfl
    · subst hc'
      rfl
    · subst hc'
      rfl
    · rw [howners, Function.update_self]
      unfold Chain.count
      simp only [hx.queued, Bool.toNat_true, Bool.toNat_false]
      omega
    · intro y hy
      rw [howners, Function.update_of_ne hy]
  · rw [hpkts]
    exact hi.cmd
  · subst hc'
    exact hi.law

theorem sendEndReq_eq_ok {h : Hop} {status : SyncEnum} (hslave : h.slave = (c.hops k).slave)
    (hev : h.events = (c.hops k).events) (hs : (c.setHop k h).sendEndReq k x status = .ok c') :
    ∃ w, (c.world k).release x = .ok w ∧
      ((c.put k w).setOwners x { c.owners x with queued := false }).setHop k h = c' := by
  simp only [Chain.sendEndReq, bind_eq_ok, pure_eq_ok, Except.ok.injEq] at hs
  obtain ⟨-, -, w, hw, rfl⟩ := hs
  have hworld : (c.setHop k h).world k = c.world k := by simp [world, hslave, hev]
  rw [hworld] at hw
  obtain ⟨mm, payloads, rfl, -⟩ := World.release_eq_ok hw
  refine ⟨_, hw, ?_⟩
  simp [Chain.put, Chain.setHop, Chain.setOwners, world, ← hslave, ← hev]

/-- gem5 has refused the packet. -/
theorem Inv.refuse {h : Hop} (hi : c.Inv) (hk : k < c.length)
    (hsame : h.SameSlave (c.hops k)) (hpeq : h.peq = (c.hops k).peq) (hreq : h.requesting = none)
    (hpend : ∀ x ∈ h.pendingRequest, ∃ p, h.pendingPacket = some p ∧
      c.holder p = .hop k .pending x) : (c.setHop k h).Inv := by
  have hmaster := hi.master k hk
  apply hi.step_master (t := c.curTick) hk hsame
  constructor
  · simp only [Function.update_self, hpeq]
    exact hmaster.queued
  · simp only [Function.update_self, hpeq]
    exact hmaster.distinct
  · simp [hreq]
  · simp only [Function.update_self]
    exact fun _ => hpend

theorem Inv.requested {status : SyncEnum} (hi : c.Inv) (hk : k < c.length)
    (h : c.requested k status = .ok c') : c'.Inv := by
  have hmaster := hi.master k hk
  unfold Chain.requested at h
  cases hreq : (c.hops k).requesting with
  | none =>
    rw [hreq] at h
    cases h
  | some r =>
    have hok := hmaster.requesting r hreq
    rw [hreq] at h
    cases hacc : r.accepted <;> cases hagain : r.again <;> simp only [hacc, hagain] at h
    · -- refused: `recvReqRetry` will find the packet
      obtain rfl := Except.ok.inj h
      apply hi.refuse hk (h := { c.hops k with
        requesting := none, waitForRetry := true, pendingRequest := some r.trans,
        pendingPacket := some r.packet }) ⟨rfl, rfl, rfl, rfl⟩ rfl rfl
      exact fun x hx => ⟨r.packet, rfl, Option.mem_some_iff.1 hx ▸ hok.refused hacc⟩
    · obtain rfl := Except.ok.inj h
      obtain ⟨hpend, hpkt⟩ := hok.again hagain
      apply hi.refuse hk (h := { c.hops k with requesting := none }) ⟨rfl, rfl, rfl, rfl⟩ rfl rfl
      intro x hx
      obtain rfl := Option.mem_some_iff.1 (hpend ▸ hx)
      exact ⟨r.packet, hpkt, hok.refused hacc⟩
    · obtain ⟨w, hw, h⟩ := sendEndReq_eq_ok (by rfl) (by rfl) h
      exact hi.endReq (h := { c.hops k with requesting := none }) hk (hok.accepted hacc) hw
        ⟨rfl, rfl, rfl, rfl⟩ rfl rfl (hok.first hagain) h
    · simp only [bind_eq_ok, pure_eq_ok, Except.ok.injEq] at h
      obtain ⟨c₁, h₁, h⟩ := h
      obtain ⟨w, hw, h₁⟩ := sendEndReq_eq_ok (by rfl) (by rfl) h₁
      refine hi.endReq (h := { c.hops k with
        requesting := none, waitForRetry := false, pendingPacket := none, pendingRequest := none })
        hk (hok.accepted hacc) hw ⟨rfl, rfl, rfl, rfl⟩ rfl rfl rfl ?_
      rw [← h, ← h₁]
      simp [Chain.setHop]

/-! ## Responses from gem5 -/

/-- A response that has nothing of world `k + 1` on its stack has on top what master port `k` has
pushed for the transaction of hop `k`. -/
theorem Inv.arrives (hi : c.Inv) (hh : c.holder p = .gem5 (k + 1)) (hhome : c.home p ≠ k + 1)
    (hr : (c.packets p).cmd.isResponse = true) (hpushed : c.pushed p (k + 1) = 0) :
    ∃ x n l, c.senderStates p = .tlm k x n :: l ∧ c.Stack p k l ∧ c.Txn p k x n l ∧
      (c.owners x).begun = true ∧
        ∀ taken, Transparent (.arrived k p (c.senderStates p) taken) c.trace := by
  have hstack := (hi.journey p).stack hh
  obtain ⟨a, l, hs, hlayers, x, n, rfl, htxn, hbegun, hlast⟩ := hstack.leave hhome hpushed
  refine ⟨x, n, l, hs, hlayers, htxn, hbegun, fun taken => ?_⟩
  have htaken := htxn.taken
  rw [hr] at htaken
  exact ⟨x, n, l, hs, hlast, htaken⟩

/-- Master port `k` refuses a response. -/
theorem Inv.refuseResp {h : Hop} (hi : c.Inv) (hk : k < c.length)
    (hh : c.holder p = .gem5 (k + 1))
    (harr : Transparent (.arrived k p l false) c.trace) (hs : h.SameSlave (c.hops k))
    (hm : h.SameMaster (c.hops k)) :
    ((c.setHop k h).emit (.arrived k p l false)).Inv := by
  have ht : c.Touches ((c.setHop k h).emit (.arrived k p l false)) ∅ {p} :=
    { Touches.refl c ∅ {p} with trace := ⟨[_], rfl, by simp [Obs.packet]⟩ }
  apply hi.step (k := k) ht
  · exact fun j hj => Function.update_of_ne hj _ _
  · exact fun q hq j place y h => absurd h (not_station_of_mem hh hq)
  · exact fun y hy => absurd hy (Set.notMem_empty y)
  · exact fun y hy => absurd hy (Set.notMem_empty y)
  · rintro q rfl
    have hkeep : c.Keeps ((c.setHop k h).emit (.arrived k q l false)) q (k + 1) := by
      apply ht.keeps_of_event (by simp) rfl _ (by simp) rfl
      simp [Obs.crosses, Obs.begins]
    exact journey_of_gem5 hh (((hi.journey q).stack hh).keep hkeep rfl rfl)
  · intro _
    apply ht.slaveOk_of_same (hi.slave k hk) hi.journey
    · simpa using hs
    · exact fun q hq place y h => absurd h (not_station_of_mem hh hq)
    · exact fun y hy => absurd hy (Set.notMem_empty y)
  · intro _
    apply ht.masterOk_of_same (hi.master k hk)
    · simpa using hm
    · exact fun q hq place y h => absurd h (not_station_of_mem hh hq)
    · exact fun y hy => absurd hy (Set.notMem_empty y)
  · exact hi.books.same rfl rfl (fun _ => rfl) (fun _ => rfl) fun _ => le_rfl
  · exact hi.cmd
  · exact ⟨harr, hi.law⟩

/-- Master port `k` takes a response: BEGIN_RESP is sent, and the reference of the request is given
back. -/
theorem Inv.sendBeginResp {pkt : Packet} {reply : Reply} (hi : c.Inv) (hk : k < c.length)
    (hh : c.holder p = .gem5 (k + 1)) (hr : (c.packets p).cmd.isResponse = true)
    (hs : c.senderStates p = .tlm k x n :: l) (hstack : c.Stack p k l) (htxn : c.Txn p k x n l)
    (hbegun : (c.owners x).begun = true)
    (harr : Transparent (.arrived k p (c.senderStates p) true) c.trace)
    (hpkt : pkt.cmd = (c.packets p).cmd)
    (h : (((c.setPacket p pkt).setStack p l).emit
      (.arrived k p (c.senderStates p) true)).sendBeginResp k x p reply = .ok c') : c'.Inv := by
  obtain ⟨s, hext⟩ := htxn.extension
  simp only [Chain.sendBeginResp, bind_eq_ok, check_eq_ok, pure_eq_ok, Except.ok.injEq] at h
  obtain ⟨-, -, w, hw, h⟩ := h
  obtain ⟨mm, payloads, hwc, hd⟩ := World.release_eq_ok hw
  generalize hc₁ : Chain.setHop _ _ _ = c₁ at hw hwc hd h
  have hpay₁ : ∀ y, (c₁.payloads y).extension = (c.payloads y).extension ∧
      (c₁.payloads y).refCount = (c.payloads y).refCount := by
    intro y
    subst hc₁
    by_cases hy : y = x <;> simp [hy]
  have hb : c₁.Books := by
    subst hc₁
    exact hi.books.same rfl rfl (fun y => (hpay₁ y).1) (fun y => (hpay₁ y).2) fun _ => le_rfl
  have howners₁ : c₁.owners = c.owners := by
    subst hc₁
    rfl
  have howners : c'.owners = update c.owners x { c.owners x with begun := false } := by
    rw [← h, ← howners₁]
    rfl
  have hpay : ∀ y, (y = x → (c.owners y).slave = true) →
      (c'.payloads y).extension = (c.payloads y).extension := by
    intro y hy
    rw [← (hpay₁ y).1]
    subst h
    apply hb.extension_of_release hd
    rintro rfl
    unfold Chain.count
    rw [howners₁, hy rfl, hbegun]
    simp only [Bool.toNat_true]
    omega
  have htr : c'.trace = .beginResp k x (some n) p ::
      .arrived k p (.tlm k x n :: l) true :: c.trace := by
    subst h hc₁
    simp [serialOf, hext, hs]
  have hcmd : ∀ q, (c'.packets q).cmd = (c.packets q).cmd := by
    intro q
    subst h hc₁
    by_cases hq : q = p <;> simp [hwc, world, hq, hpkt]
  have hh' : c'.holder p = .hop k .backward x := by
    subst h
    simp
  have ht : c.Touches c' {x} {p} := by
    subst h hc₁
    exact { Touches.refl c {x} {p} with
      extension := fun y hy _ => hpay y fun hyx => absurd hyx hy
      owners := fun y hy => ⟨(c.owners y).components, Function.update_of_ne hy _ _⟩
      holder := fun q hq => Function.update_of_ne hq _ _
      stack := fun q hq => Function.update_of_ne hq _ _
      isResponse := fun q _ => by rw [hcmd]
      trace := ⟨[_, _], htr, by simp [Obs.packet]⟩ }
  have hstays : c.Stays c' x := by
    refine ⟨hpay x fun _ => htxn.slave, ?_, ?_, ?_⟩
    all_goals simp [howners]
  have hhop : c'.hops k = { c.hops k with responseInProgress := reply.status = .accepted } := by
    subst h hc₁
    simp [hwc, world]
  apply hi.step (k := k) ht
  · subst h hc₁
    exact fun j hj => by simp [hj]
  · exact fun q hq j place y h => absurd h (not_station_of_mem hh hq)
  · rintro y rfl
    exact .inl htxn.hop
  · rintro y rfl q hq hlive
    exact absurd (htxn.packet_eq hlive) hq
  · rintro q rfl
    have hkeep : c.Keeps c' q k := by
      have htr' : c'.trace = [.beginResp k x (some n) q,
        .arrived k q (.tlm k x n :: l) true] ++ c.trace := htr
      refine ht.keeps_below ?_ htr' (by simp [Obs.crosses, Obs.begins]) ?_
      · rintro y rfl _
        exact htxn.hop.ge
      · simp [hcmd]
    have htxn' : c'.Txn q k x n l := by
      apply htxn.stays hstays
      rw [htr, hcmd]
      have harrived : Since (.request k x n q l) (Away k q (c.packets q).cmd.isResponse)
          (.arrived k q (.tlm k x n :: l) true :: c.trace) :=
        htxn.taken.cons fun new hnew => hnew.cons (by simp [Obs.crosses]) (by simp)
      exact harrived.cons fun new hnew => hnew.cons (by simp [Obs.crosses]) (by simp)
    refine journey_of_hop hh' htxn' (hstack.keep hkeep ?_ ?_) ⟨?_, ?_⟩
    · subst h hc₁
      rfl
    · subst h hc₁
      rfl
    · subst h hc₁
      simp
    · rw [hcmd]
      exact hr
  · intro _
    apply ht.slaveOk_of_same (hi.slave k hk) hi.journey
    · rw [hhop]
      exact ⟨rfl, rfl, rfl, rfl⟩
    · exact fun q hq place y h => absurd h (not_station_of_mem hh hq)
    · rintro y rfl _ _
      exact hstays
  · intro _
    apply ht.masterOk_of_same (hi.master k hk)
    · rw [hhop]
      exact ⟨rfl, rfl, rfl, rfl⟩
    · exact fun q hq place y h => absurd h (not_station_of_mem hh hq)
    · rintro y rfl hacc
      constructor <;> simp [howners, hacc.hop, hacc.queued, hacc.accepted]
  · refine hb.release hd ?_ ?_ ?_ ?_ ?_
    · subst h
      rfl
    · subst h
      rfl
    · subst h
      rfl
    · rw [howners, howners₁, Function.update_self]
      unfold Chain.count
      simp only [hbegun, Bool.toNat_true, Bool.toNat_false]
      omega
    · intro y hy
      rw [howners, howners₁, Function.update_of_ne hy]
  · intro q
    rw [hcmd]
    exact hi.cmd q
  · rw [htr]
    exact ⟨⟨n, l, c.trace, rfl, rfl⟩, hs ▸ harr, hi.law⟩

theorem Inv.recvTimingResp {reply : Reply} (hi : c.Inv) (hk : k < c.length)
    (h : c.recvTimingResp k p reply = .ok c') : c'.Inv := by
  simp only [Chain.recvTimingResp, bind_eq_ok, check_eq_ok] at h
  obtain ⟨-, ⟨hh, hhome⟩, -, hr, -, hpushed, h⟩ := h
  obtain ⟨x, n, l, hs, hstack, htxn, hbegun, harr⟩ := hi.arrives hh hhome hr hpushed
  split_ifs at h with hbusy
  · simp only [bind_eq_ok, check_eq_ok, pure_eq_ok, Except.ok.injEq] at h
    obtain ⟨-, -, rfl⟩ := h
    exact hi.refuseResp (h := { c.hops k with needToSendRetry := true }) hk hh (harr false)
      ⟨rfl, rfl, rfl, rfl⟩ ⟨rfl, rfl, rfl, rfl⟩
  · simp only [bind_eq_ok, check_eq_ok] at h
    obtain ⟨-, -, h⟩ := h
    have hsend : (((c.setPacket p { c.packets p with payloadDelay := 0, headerDelay := 0 }).setStack
        p l).emit (.arrived k p (c.senderStates p) true)).sendBeginResp k x p reply = .ok c' := by
      rw [hs] at h ⊢
      exact h
    exact hi.sendBeginResp hk hh hr hs hstack htxn hbegun (harr true) (by rfl) hsend

/-! ## The callback of the payload event queue -/

theorem Inv.peqCb {i : ℕ} {accept : Bool} (hi : c.Inv) (hk : k < c.length)
    (h : c.peqCb k i accept = .ok c') : c'.Inv := by
  unfold Chain.peqCb at h
  cases he : (c.hops k).peq[i]? with
  | none =>
    rw [he] at h
    cases h
  | some e =>
    rw [he] at h
    simp only [bind_eq_ok, check_eq_ok] at h
    obtain ⟨-, -, -, ⟨hreq, -⟩, h⟩ := h
    cases hp : e.phase with
    | beginReq =>
      rw [hp] at h
      -- time first
      have hnow : ({ c with curTick := c.now } : Chain).Inv := by
        have := hi.step_master (h := c.hops k) (t := c.now) hk ⟨rfl, rfl, rfl, rfl⟩
          ((hi.master k hk).update (.refl _) rfl rfl rfl)
        rwa [Function.update_eq_self] at this
      exact hnow.handleBeginReq hk he hp hreq h
    | endResp =>
      rw [hp] at h
      have hperm := PeqEvent.queued_eraseIdx he .beginReq
      rw [if_neg (by simp [hp]), List.nil_append] at hperm
      have hpop := hi.step_master (h := { c.hops k with peq := (c.hops k).peq.eraseIdx i })
        (t := c.now) hk ⟨rfl, rfl, rfl, rfl⟩
        ((hi.master k hk).update hperm.symm rfl rfl rfl)
      exact hpop.handleEndResp hk h
    | endReq | beginResp =>
      rw [hp] at h
      cases h

end Chain

end Gem5Wrapper
