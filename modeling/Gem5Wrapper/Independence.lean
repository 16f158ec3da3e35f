import Gem5Wrapper.Lib.OneSlot
import Gem5Wrapper.ResponseChannel

/-!
# Independence of the sockets

Without gem5 caches, the port is a product of channels, one for each socket: what it does for a
socket follows from the events of this socket alone, whatever happens on the others.

The sockets share the search for a blocking payload, the pool of the payloads and
`recvRespRetry`. So this rests on the order of the phases: a phase of a transaction that the port
has released ends the request of whoever has got the payload since.
-/

namespace Gem5Wrapper

open FaultMachine
open Function (update)
open History (collect rank)
open OneSlot (Input Requests Responses State after)

variable {P : Promise} {v u : View} {k s : ℕ} {t : Ptr} {x : Gem5Extension}

/-! ## The events of a socket -/

/-- The transaction that begins on socket `s`. -/
def Obs.begunOn (s : ℕ) : Obs → Option ℕ
  | .beginReq k _ s' _ _ _ => if s' = s then some k else none
  | _ => none

/-- The transactions of socket `s`. -/
def txnsOn (s : ℕ) (l : List Obs) : List ℕ := l.filterMap (Obs.begunOn s)

/-- The number of transaction `k` among those of socket `s`. -/
def number (s k : ℕ) (l : List Obs) : Option ℕ := rank k (txnsOn s l)

/-- gem5 is offered the response of transaction `k`. -/
def Obs.asks (k : ℕ) : Obs → Bool
  | .resp k' _ _ => k' = k
  | _ => false

/-- gem5 has been offered the response of transaction `k`. -/
def Asked (l : List Obs) (k : ℕ) : Prop := ∃ o ∈ l, o.asks k = true

instance (l : List Obs) (k : ℕ) : Decidable (Asked l k) :=
  inferInstanceAs (Decidable (∃ o ∈ l, o.asks k = true))

/-- The event of socket `s` that an observation is. A refused request is one for the socket of
the transaction in its way; a phase counts when it takes effect; gem5 answers for a response that
it is offered first. -/
def Obs.input (s : ℕ) (o : Obs) (l : List Obs) : Option Input :=
  match o with
  | .beginReq _ _ s' _ _ _ => if s' = s then some .request else none
  | .refused k => (k.bind (number s · l)).map fun _ => .request
  | .pec k .endReq => (number s k l).map .endReq
  | .pec k .beginResp => (number s k l).map .beginResp
  | .resp k _ accepted => if Asked l k then none else (number s k l).map (.answer · accepted)
  | .respRetry => some .respRetry
  | _ => none

/-- Is a request for socket `s` accepted? -/
def Obs.decision (s : ℕ) (o : Obs) (l : List Obs) : Option Bool :=
  match o with
  | .beginReq _ _ s' _ _ _ => if s' = s then some true else none
  | .refused k => (k.bind (number s · l)).map fun _ => false
  | _ => none

/-- The transaction of socket `s` that a retry is sent because of. -/
def Obs.retryOn (s : ℕ) (o : Obs) (l : List Obs) : Option ℕ :=
  match o with
  | .retryReq k => number s k l
  | _ => none

/-- The transaction of socket `s` that END_RESP is sent for. -/
def Obs.endOn (s : ℕ) (o : Obs) (l : List Obs) : Option ℕ :=
  match o with
  | .endResp k _ _ _ => number s k l
  | _ => none

/-- The events of socket `s`, and the calls of `recvRespRetry`. -/
def inputs (s : ℕ) : List Obs → List Input := collect (Obs.input s)

def decisions (s : ℕ) : List Obs → List Bool := collect (Obs.decision s)

def retries (s : ℕ) : List Obs → List ℕ := collect (Obs.retryOn s)

def ends (s : ℕ) : List Obs → List ℕ := collect (Obs.endOn s)

/-- The channel of socket `s`. -/
def channel (s : ℕ) (l : List Obs) : State := after (inputs s l)

section Cons

variable {o : Obs} {l : List Obs} {i : Input}

theorem channel_cons_none (h : o.input s l = none) : channel s (o :: l) = channel s l :=
  congrArg after (History.collect_cons_none h)

theorem channel_cons_some (h : o.input s l = some i) :
    channel s (o :: l) = (channel s l).step i :=
  congrArg after (History.collect_cons_some h)

@[simp] theorem asked_cons : Asked (o :: l) k ↔ o.asks k = true ∨ Asked l k := by simp [Asked]

end Cons

/-! ## Transactions and their sockets -/

/-- What begins with a move. -/
theorem Move.begunOn (h : Move P v u) : (∀ s, txnsOn s u.trace = txnsOn s v.trace) ∨
    ∃ s₀, ∀ s, txnsOn s u.trace =
      if s₀ = s then v.serial :: txnsOn s v.trace else txnsOn s v.trace := by
  have hbegin : ∀ r s, txnsOn s (v.begin r).trace =
      if v.target r.content = s then v.serial :: txnsOn s v.trace else txnsOn s v.trace := by
    intro r s
    split_ifs with hs
    · exact List.filterMap_cons_some (if_pos hs)
    · exact List.filterMap_cons_none (if_neg hs)
  cases h
  case accepted r ha hs => exact .inr ⟨_, hbegin r⟩
  case updated r ha hs hp => exact .inr ⟨_, hbegin r⟩
  case completed r ha hs => exact .inr ⟨_, hbegin r⟩
  all_goals exact .inl fun _ => rfl

theorem Life.lt_of_mem (hl : Life v) (hk : k ∈ txnsOn s v.trace) : k < v.serial := by
  obtain ⟨o, ho, hk⟩ := List.mem_filterMap.1 hk
  refine hl.known o ho k ?_
  cases o <;> simp [Obs.begunOn] at hk
  exact congrArg some hk.2

theorem Move.number_eq (h : Move P v u) (hk : k < v.serial) (s : ℕ) :
    number s k u.trace = number s k v.trace := by
  unfold number
  rcases h.begunOn with hb | ⟨s₀, hb⟩ <;> rw [hb]
  split_ifs
  · exact History.rank_cons_of_ne hk.ne'
  · rfl

/-- A transaction has one socket. -/
def OneSocket (v : View) : Prop :=
  ∀ k s s', k ∈ txnsOn s v.trace → k ∈ txnsOn s' v.trace → s = s'

theorem OneSocket.of_initial (h : v.Initial) : OneSocket v := by
  have htr : v.trace = [] := by simp [View.trace, h.log]
  simp [OneSocket, htr, txnsOn]

theorem OneSocket.step (hl : Life v) (hi : OneSocket v) (h : Move P v u) : OneSocket u := by
  intro k s s' hs hs'
  rcases h.begunOn with hb | ⟨s₀, hb⟩ <;> rw [hb] at hs hs'
  · exact hi k s s' hs hs'
  · have hnew : ∀ s, (k ∈ if s₀ = s then v.serial :: txnsOn s v.trace else txnsOn s v.trace) →
        s₀ = s ∧ k = v.serial ∨ k ∈ txnsOn s v.trace := by
      intro s hs
      split_ifs at hs with h₀
      · exact (List.mem_cons.1 hs).imp (⟨h₀, ·⟩) id
      · exact .inr hs
    rcases hnew s hs with ⟨rfl, rfl⟩ | hs <;> rcases hnew s' hs' with ⟨h₀, hk⟩ | hs'
    · exact h₀
    · exact absurd (hl.lt_of_mem hs') (Nat.lt_irrefl _)
    · exact absurd (hl.lt_of_mem hs) (hk ▸ Nat.lt_irrefl _)
    · exact hi k s s' hs hs'

/-- The transaction of a payload belongs to the socket that its extension names. -/
theorem Life.mem_txnsOn (hl : Life v) (hx : v.carried t = some x) :
    x.serial ∈ txnsOn x.coreId v.trace := by
  obtain ⟨d, r, hm⟩ := hl.born t x hx
  exact List.mem_filterMap.2 ⟨_, hm, if_pos rfl⟩

theorem Life.exists_number (hl : Life v) (hx : v.carried t = some x) :
    ∃ n, number x.coreId x.serial v.trace = some n :=
  History.exists_rank_of_mem (hl.mem_txnsOn hx)

theorem OneSocket.number_eq_none (hi : OneSocket v) (hl : Life v) (hx : v.carried t = some x)
    (hs : x.coreId ≠ s) : number s x.serial v.trace = none :=
  History.rank_eq_none_iff.2 fun hm => hs (hi _ _ _ (hl.mem_txnsOn hx) hm)

/-! ## Responses offered once, and again -/

/-- Whether gem5 has been offered the response that the call deals with. -/
def Cur.Offers (v : View) : Cur → Prop
  | .idle | .retrying | .popped .. => True
  | .entered _ x => ¬ Asked v.trace x.serial
  | .taken _ x | .answered _ x _ _ => Asked v.trace x.serial

/-- What waits in a slot has been offered to gem5 before, and nothing else is offered again. -/
structure Offers (v : View) : Prop where
  fresh : Fresh v
  slot : ∀ s t x, v.slots.response s = some t → v.carried t = some x → Asked v.trace x.serial
  cur : v.cur.Offers v

theorem Offers.of_initial (h : v.Initial) : Offers v := by
  refine ⟨.of_initial h, ?_, ?_⟩ <;> simp [h.response, h.cur, Cur.Offers]

theorem Fresh.not_asked (hf : Fresh v) (hcur : v.cur = .popped t k) : ¬ Asked v.trace k := by
  rintro ⟨o, ho, hk⟩
  have := hf.popped t k hcur o ho
  cases o <;> simp [Obs.asks, Obs.answers] at hk this
  exact this hk

theorem Move.asked (h : Move P v u) (hk : Asked v.trace k) : Asked u.trace k :=
  hk.imp fun _ ho => ⟨h.mem_trace ho.1, ho.2⟩

theorem Offers.step_slot (hl : Life v) (hi : Offers v) (h : Move P v u) (s : ℕ) (t : Ptr)
    (x : Gem5Extension) (hs : u.slots.response s = some t) (hx : u.carried t = some x) :
    Asked u.trace x.serial := by
  have hold : v.slots.response s = some t → Asked u.trace x.serial := fun hs => by
    obtain ⟨y, hy, -⟩ := hl.response s t hs
    have hx' := h.carried hx (hl.pool.ne_next (hl.pool.refs _ _ hy.carried))
    exact h.asked (hi.slot s t x hs hx')
  have hc := hi.cur
  cases id h
  case block t' x' hcur =>
    have hh := hl.cur
    rw [hcur] at hc hh
    by_cases hne : s = x'.coreId
    · subst hne
      obtain rfl : t' = t := by simpa using hs
      obtain rfl := Option.some.inj (hx.symm.trans hh.carries.carried)
      exact hc
    · exact hold (by simpa [hne] using hs)
  case take t' x' i s' hcur hr hx' hs' =>
    by_cases hne : s = s'
    · simp [hne] at hs
    · exact hold (by simpa [hne] using hs)
  all_goals exact hold hs

theorem Offers.step_cur (hl : Life v) (hi : Offers v) (h : Move P v u) : u.cur.Offers u := by
  have hc := hi.cur
  have hh := hl.cur
  -- a move that is no step of the call itself, and offers nothing
  have hold : u.cur = v.cur → (∀ k, Asked u.trace k ↔ Asked v.trace k) → u.cur.Offers u := by
    intro hcur hk
    rw [hcur]
    cases hv : v.cur <;> rw [hv] at hc <;> first | trivial | simpa only [Cur.Offers, hk] using hc
  have hpop : ∀ e : PayloadEvent, (if e.p = .beginResp then Cur.popped e.t e.txn else .idle).Offers
      u := by
    intro e
    split_ifs <;> trivial
  cases h
  case close e q s hs hp hcl hf => exact hpop e
  case retry e q s hs hp hcl hf => exact hpop e
  case keep e q hs hp => exact hpop e
  case enter t k x hcur hx hf hn =>
    rw [hcur] at hh
    obtain ⟨y, rfl, hh⟩ := hh
    obtain rfl := Option.some.inj (hx.symm.trans hh.carries.carried)
    exact hi.fresh.not_asked hcur
  case makeResponse t k x hcur hx hf hn =>
    rw [hcur] at hh
    obtain ⟨y, rfl, hh⟩ := hh
    obtain rfl := Option.some.inj (hx.symm.trans hh.carries.carried)
    simpa [Cur.Offers, Obs.asks] using hi.fresh.not_asked hcur
  case respond t x b hcur hr => exact asked_cons.2 (.inl (by simp [Obs.asks]))
  case resend t x b hcur hr => exact asked_cons.2 (.inl (by simp [Obs.asks]))
  case block t x hcur => trivial
  case finish t x hd hpos =>
    rcases v.cur.next_cases with hn | hn <;> rw [View.finish_cur, hn] <;> trivial
  case respRetry hcur => trivial
  case retried hs hcur => trivial
  case take t x i s hcur hr hx hs => exact hi.slot i t x hr hx
  case advance => exact hold rfl fun _ => .rfl
  all_goals exact hold rfl fun k => by simp [Obs.asks]

theorem Offers.step (hl : Life v) (hi : Offers v) (h : Move P v u) : Offers u where
  fresh := hi.fresh.step hl h
  slot := hi.step_slot hl h
  cur := hi.step_cur hl h

/-! ## One channel for each socket -/

/-- The number of the transaction in a slot of socket `s`. -/
def View.numberIn (v : View) (s : ℕ) (slot : Option Ptr) : Option ℕ :=
  (slot.bind v.serialOf).bind (number s · v.trace)

/-- The request side of socket `s`. -/
def View.requests (v : View) (s : ℕ) : Requests where
  begun := (txnsOn s v.trace).length
  blocking := v.numberIn s (v.slots.request s)
  owed := v.slots.owed s
  decisions := decisions s v.trace
  retries := retries s v.trace

/-- The number of the refused response of socket `s`. -/
def View.refused (v : View) (s : ℕ) : Option ℕ := v.numberIn s (v.slots.response s)

/-- The response side of socket `s` does what the channel does. In the middle of a call the
channel may be ahead: it has ended the transaction that the call is about to end, and all those
that `recvRespRetry` is about to end. -/
def Cur.Follows (s : ℕ) (v : View) (σ : Responses) : Cur → Prop
  | .idle => σ.waiting = v.refused s ∧ σ.ends = ends s v.trace
  | .popped _ k => σ.waiting = v.refused s ∧
      σ.ends = (number s k v.trace).toList ++ ends s v.trace ∧
      ∀ n, number s k v.trace = some n → σ.unanswered = some n
  | .entered _ x => σ.waiting = v.refused s ∧
      σ.ends = (number s x.serial v.trace).toList ++ ends s v.trace ∧
      ∀ n, number s x.serial v.trace = some n → σ.unanswered = some n
  | .answered _ x false true => σ.waiting = v.refused s ∧
      σ.ends = (number s x.serial v.trace).toList ++ ends s v.trace
  | .answered _ x false false => σ.waiting = (number s x.serial v.trace).or (v.refused s) ∧
      σ.ends = ends s v.trace
  | .retrying => σ.waiting = none ∧ σ.ends = (v.refused s).toList ++ ends s v.trace
  | .taken _ x | .answered _ x true _ => σ.waiting = none ∧
      σ.ends = (v.refused s).toList ++ ((number s x.serial v.trace).toList ++ ends s v.trace)

/-- What the port does for socket `s` is what the channel of the socket does. -/
structure Follows (s : ℕ) (v : View) : Prop where
  requests : (channel s v.trace).requests = v.requests s
  responses : v.cur.Follows s v (channel s v.trace).responses

theorem Follows.of_initial (h : v.Initial) (s : ℕ) : Follows s v := by
  have htr : v.trace = [] := by simp [View.trace, h.log]
  constructor
  · simp [htr, channel, inputs, after, View.requests, h.request, h.owed, View.numberIn, txnsOn,
      Gem5Wrapper.decisions, Gem5Wrapper.retries]
  · simp [htr, channel, inputs, after, h.cur, Cur.Follows, h.response, View.refused,
      View.numberIn, Responses.ends, ends]

/-! ### The slots -/

/-- The number of an occupant that stays where it is. -/
theorem numberIn_eq {o : Option Ptr} (h : Move P v u) (hl : Life v)
    (ho : ∀ t, o = some t → ∃ x, v.carried t = some x ∧ u.carried t = v.carried t) :
    u.numberIn s o = v.numberIn s o := by
  cases o with
  | none => rfl
  | some t =>
    obtain ⟨x, hx, hu⟩ := ho t rfl
    obtain ⟨d, r, hm⟩ := hl.born t x hx
    simp only [View.numberIn, View.serialOf, Option.bind_some, hu, hx, Option.map_some]
    exact h.number_eq (hl.known _ hm _ rfl) s

/-- What is in the way of a request is a transaction of the socket of the request, and of no
other. -/
theorem Channel.numberIn (hl : Life v) (hc : Channel v) (h₁ : OneSocket v)
    (ht : v.slots.request s = some t) : (∃ n, v.numberIn s (some t) = some n) ∧
      ∀ s', s' ≠ s → v.numberIn s' (some t) = none := by
  obtain ⟨x, hx, rfl, -⟩ := hc.request s t ht
  have hnum : ∀ s, v.numberIn s (some t) = number s x.serial v.trace := fun s => by
    simp [View.numberIn, View.serialOf, hx]
  simp only [hnum]
  exact ⟨hl.exists_number hx, fun s' hs' => h₁.number_eq_none hl hx hs'.symm⟩

theorem Channel.numberIn_request (h : Move P v u) (hl : Life v) (hv : Channel v) (hu : Channel u)
    (hs : u.slots.request s = v.slots.request s) :
    u.numberIn s (u.slots.request s) = v.numberIn s (v.slots.request s) := by
  rw [hs]
  refine numberIn_eq h hl fun t ht => ?_
  obtain ⟨x, hx, -⟩ := hv.request s t ht
  exact ⟨x, hx, hv.carried hl hu h ht (hs.trans ht)⟩

theorem Life.refused_eq (h : Move P v u) (hv : Life v) (hu : Life u)
    (hs : u.slots.response s = v.slots.response s) : u.refused s = v.refused s := by
  unfold View.refused
  rw [hs]
  refine numberIn_eq h hv fun t ht => ?_
  obtain ⟨x, hx, -⟩ := hv.response s t ht
  obtain ⟨y, hy, -⟩ := hu.response s t (hs.trans ht)
  exact ⟨x, hx.carried, hy.carried.trans
    (h.carried hy.carried (hv.pool.ne_next (hv.pool.refs _ _ hx.carried))).symm⟩

/-! ### The request side -/

section Step

variable (hl : Life v) (hc : Channel v) (hi : Follows s v) (h : Move P v u)

theorem channel_resp (p : PacketPtr) (accepted : Bool) (l : List Obs) :
    (channel s (.resp k p accepted :: l)).requests = (channel s l).requests := by
  cases hin : Obs.input s (.resp k p accepted) l with
  | none => rw [channel_cons_none hin]
  | some i =>
    rw [channel_cons_some hin]
    simp only [Obs.input] at hin
    split_ifs at hin
    obtain ⟨n, -, rfl⟩ := Option.map_eq_some_iff.1 hin
    rfl

include hl hc hi in
theorem Follows.requests_close {e : PayloadEvent} {q : List PayloadEvent} (h₁ : OneSocket v)
    (hs : Serviced P v e q) (hp : e.p = .endReq ∨ e.p = .beginResp) :
    (channel s (.pec e.txn e.p :: v.trace)).requests =
      if v.slots.request s = some e.t then
        { v.requests s with
          blocking := none
          owed := false
          retries := if v.slots.owed s then
              (number s e.txn v.trace).toList ++ (v.requests s).retries
            else (v.requests s).retries }
      else v.requests s := by
  obtain ⟨x, hx, hcar, hslot, -⟩ := hc.serviced hl hs
  have hin : (channel s (.pec e.txn e.p :: v.trace)).requests =
      ((number s e.txn v.trace).map (channel s v.trace).requests.close).getD
        (channel s v.trace).requests := by
    cases hn : number s e.txn v.trace with
    | none =>
      rw [channel_cons_none]
      · rfl
      · rcases hp with hp | hp <;> simp [Obs.input, hp, hn]
    | some n =>
      rcases hp with hp | hp
      · rw [channel_cons_some (i := .endReq n) (by simp [Obs.input, hp, hn])]; rfl
      · rw [channel_cons_some (i := .beginResp n) (by simp [Obs.input, hp, hn])]; rfl
  rw [hin, hi.requests]
  by_cases hxs : x.coreId = s
  · subst hxs
    obtain ⟨n, hn⟩ := hl.exists_number hcar.carried
    rw [← hx, hn, Option.map_some, Option.getD_some]
    have hb : v.slots.request x.coreId = some e.t ↔ (v.requests x.coreId).blocking = some n := by
      constructor
      · intro ht
        simp [View.requests, View.numberIn, ht, View.serialOf, hcar.carried, hn]
      · intro hb
        obtain ⟨k, hk, hkn⟩ := Option.bind_eq_some_iff.1 hb
        obtain ⟨t, ht, htk⟩ := Option.bind_eq_some_iff.1 hk
        obtain ⟨y, hy, rfl⟩ := Option.map_eq_some_iff.1 htk
        rw [ht, hl.pool.inj _ _ _ _ hy hcar.carried (History.rank_inj hkn hn)]
    split_ifs with ht ho
    · rw [Requests.close_of_blocking (hb.1 ht)]; simp [View.requests, ho]
    · rw [Requests.close_of_blocking (hb.1 ht)]; simp [View.requests, ho]
    · rw [Requests.close_of_ne fun hn => ht (hb.2 hn)]
  · rw [← hx, h₁.number_eq_none hl hcar.carried hxs, if_neg fun ht => hxs (hslot s ht).symm]
    rfl

/-- What a BEGIN_REQ means for a socket. -/
theorem channel_begin (r : Request) : channel s (v.begin r).trace =
    if v.target r.content = s then (channel s v.trace).step .request else channel s v.trace := by
  rw [View.trace_begin]
  split_ifs with hs
  · exact channel_cons_some (if_pos hs)
  · exact channel_cons_none (if_neg hs)

theorem View.requests_eq (hb : txnsOn s u.trace = txnsOn s v.trace)
    (hr : u.numberIn s (u.slots.request s) = v.numberIn s (v.slots.request s))
    (ho : u.slots.owed s = v.slots.owed s) (hd : decisions s u.trace = decisions s v.trace)
    (ht : retries s u.trace = retries s v.trace) : u.requests s = v.requests s := by
  simp only [View.requests, hb, hr, ho, hd, ht]

include hl hc hi h in
theorem Follows.step_requests (hc' : Channel u) (h₁ : OneSocket v) (hcache : v.cache = false)
    (hA : ∀ v a, P v a → AnsweredAccepted v a) :
    (channel s u.trace).requests = u.requests s := by
  have hacc : ∀ r, Admitted P v r → r.reply.status = .accepted := by
    rintro r ⟨⟨v', a, hP, hr⟩, -⟩
    exact hA _ _ hP r hr
  -- a move that changes nothing here
  have hkeep : u.slots.request s = v.slots.request s → u.slots.owed s = v.slots.owed s →
      txnsOn s u.trace = txnsOn s v.trace → decisions s u.trace = decisions s v.trace →
      retries s u.trace = retries s v.trace → v.requests s = u.requests s :=
    fun hr ho hb hd ht => (View.requests_eq hb (hc.numberIn_request h hl hc' hr) ho hd ht).symm
  cases id h
  case refuse r t hr hsend ht =>
    have hb : v.blocker (v.target r.content) = v.target r.content := by simp [View.blocker, hcache]
    rw [hb] at ht hkeep ⊢
    obtain ⟨⟨n, hn⟩, hne⟩ := hc.numberIn hl h₁ ht
    by_cases hs : v.target r.content = s
    · subst hs
      have hin : Obs.input (v.target r.content) (.refused (v.serialOf t)) v.trace =
          some .request := congrArg (Option.map fun _ => Input.request) hn
      have hd : Obs.decision (v.target r.content) (.refused (v.serialOf t)) v.trace =
          some false := congrArg (Option.map fun _ => false) hn
      have hblocked : (v.requests (v.target r.content)).blocking = some n :=
        (congrArg (v.numberIn _) ht).trans hn
      refine (congrArg State.requests (channel_cons_some hin)).trans ?_
      simp only [State.step, hi.requests, Requests.request_of_blocked hblocked]
      refine Requests.ext rfl rfl ?_ (History.collect_cons_some hd).symm rfl
      simp [View.requests]
    · have hn := hne s (Ne.symm hs)
      have hin : Obs.input s (.refused (v.serialOf t)) v.trace = none :=
        congrArg (Option.map fun _ => Input.request) hn
      have hd : Obs.decision s (.refused (v.serialOf t)) v.trace = none :=
        congrArg (Option.map fun _ => false) hn
      exact (congrArg State.requests (channel_cons_none hin)).trans (hi.requests.trans
        (hkeep rfl (by simp [Ne.symm hs]) rfl (History.collect_cons_none hd) rfl))
  case accepted r ha hst =>
    by_cases hs : v.target r.content = s
    · subst hs
      have hfree : (v.requests (v.target r.content)).blocking = none := by
        simp [View.requests, View.numberIn, ha.request_eq]
      have hb : txnsOn (v.target r.content) (v.begin r).trace =
          v.serial :: txnsOn (v.target r.content) v.trace := List.filterMap_cons_some (if_pos rfl)
      have hd : decisions (v.target r.content) (v.begin r).trace =
          true :: decisions (v.target r.content) v.trace := by
        rw [View.trace_begin]
        exact History.collect_cons_some (if_pos rfl)
      refine (congrArg State.requests ((channel_begin r).trans (if_pos rfl))).trans ?_
      rw [State.step, hi.requests, Requests.request_of_free hfree]
      refine Requests.ext (congrArg List.length hb).symm ?_ rfl hd.symm rfl
      have hn : number (v.target r.content) v.serial (v.begin r).trace =
          some (txnsOn (v.target r.content) v.trace).length := by
        rw [number, hb, History.rank_cons_self]
      simpa [View.requests, View.numberIn, View.serialOf] using hn.symm
    · have hin : txnsOn s (v.begin r).trace = txnsOn s v.trace :=
        List.filterMap_cons_none (if_neg hs)
      refine (congrArg State.requests ((channel_begin r).trans (if_neg hs))).trans ?_
      exact (hi.requests.trans
        (hkeep (by simp [Ne.symm hs]) rfl hin (History.collect_cons_none (if_neg hs)) rfl))
  case updated r ha hst hp => exact absurd (hst.symm.trans (hacc r ha)) (by decide)
  case completed r ha hst => exact absurd (hst.symm.trans (hacc r ha)) (by decide)
  case close e q s' hs hp hcl ho =>
    obtain ⟨x, hx, hcar, hslot, h'⟩ := hc.serviced hl hs
    obtain ⟨rfl, ht⟩ := h' s' hcl
    refine (hi.requests_close hl hc h₁ hs hp).trans ?_
    split_ifs with hs' ho'
    · rw [← hslot s hs', hs'] at *
      cases ho.symm.trans ho'
    · obtain rfl := hslot s hs'
      refine Requests.ext rfl ?_ ho.symm rfl rfl
      simp [View.requests, View.numberIn]
    · have hne : s ≠ x.coreId := fun hne => hs' (hne ▸ ht)
      exact hkeep (by simp [hne]) rfl rfl rfl rfl
  case retry e q s' hs hp hcl ho =>
    obtain ⟨x, hx, hcar, hslot, h'⟩ := hc.serviced hl hs
    obtain ⟨rfl, ht⟩ := h' s' hcl
    refine (hi.requests_close hl hc h₁ hs hp).trans ?_
    split_ifs with hs' ho'
    · obtain rfl := hslot s hs'
      refine Requests.ext rfl ?_ ?_ rfl rfl
      · simp [View.requests, View.numberIn]
      · simp [View.requests]
    · obtain rfl := hslot s hs'
      exact absurd ho ho'
    · have hne : s ≠ x.coreId := fun hne => hs' (hne ▸ ht)
      have hn := h₁.number_eq_none hl hcar.carried hne.symm
      exact hkeep (by simp [hne]) (by simp [hne]) rfl rfl
        (History.collect_cons_none (hx ▸ hn))
  case keep e q hs hp =>
    obtain ⟨x, hx, hcar, hslot, -⟩ := hc.serviced hl hs
    have hph := (hl.event e hs.mem).1
    refine (hi.requests_close hl hc h₁ hs hph).trans ?_
    rw [if_neg]
    · exact hkeep rfl rfl rfl rfl rfl
    · intro hs'
      rcases hp with hp | ⟨i, y, hi', hy, hne⟩
      · exact hp.2 (hph.resolve_left hp.1) s hs'
      · obtain rfl := Option.some.inj (hy.symm.trans hcar.carried)
        exact hne (hslot i hi')
  case respond t x b hcur hr =>
    exact (channel_resp ..).trans (hi.requests.trans (hkeep rfl rfl rfl rfl rfl))
  case resend t x b hcur hr =>
    exact (channel_resp ..).trans (hi.requests.trans (hkeep rfl rfl rfl rfl rfl))
  all_goals exact hi.requests.trans (hkeep rfl rfl rfl rfl rfl)

end Step

/-! ### The response side -/

/-- The transaction that a call of the port deals with. -/
def Cur.txn : Cur → Option ℕ
  | .idle | .retrying => none
  | .popped _ k => some k
  | .entered _ x | .taken _ x | .answered _ x _ _ => some x.serial

theorem Life.lt_of_cur (hl : Life v) (hk : v.cur.txn = some k) : k < v.serial := by
  have hc := hl.cur
  have hlt : ∀ t x, InHand v t x → x.serial < v.serial := by
    intro t x hh
    obtain ⟨d, r, hm⟩ := hl.born t x hh.carries.carried
    exact hl.known _ hm _ rfl
  cases hv : v.cur <;> rw [hv] at hc hk <;>
    simp only [Cur.txn, reduceCtorEq, Option.some.injEq] at hk
  · obtain ⟨x, hx, hh⟩ := hc
    exact hk ▸ hx ▸ hlt _ _ hh
  all_goals exact hk ▸ hlt _ _ hc

theorem Cur.Follows.congr {c : Cur} {σ : Responses} (hi : c.Follows s v σ)
    (hr : u.refused s = v.refused s) (he : ends s u.trace = ends s v.trace)
    (hn : ∀ k, c.txn = some k → number s k u.trace = number s k v.trace) : c.Follows s u σ := by
  cases c with
  | idle => simpa only [Cur.Follows, hr, he] using hi
  | popped t k => simpa only [Cur.Follows, hr, he, hn _ rfl] using hi
  | entered t x => simpa only [Cur.Follows, hr, he, hn _ rfl] using hi
  | retrying => simpa only [Cur.Follows, hr, he] using hi
  | taken t x => simpa only [Cur.Follows, hr, he, hn _ rfl] using hi
  | answered t x again accepted =>
    cases again <;> cases accepted <;> simpa only [Cur.Follows, hr, he, hn _ rfl] using hi

section Step

variable (hl : Life v) (hl' : Life u) (hi : Follows s v) (h : Move P v u)

theorem input_resp {l : List Obs} (hk : ¬ Asked l k) (p : PacketPtr) (accepted : Bool) :
    Obs.input s (.resp k p accepted) l = (number s k l).map (.answer · accepted) := if_neg hk

theorem input_resp_of_asked {l : List Obs} (hk : Asked l k) (p : PacketPtr) (accepted : Bool) :
    Obs.input s (.resp k p accepted) l = none := if_pos hk

theorem channel_refused (k : Option ℕ) (l : List Obs) :
    (channel s (.refused k :: l)).responses = (channel s l).responses := by
  cases hin : Obs.input s (.refused k) l with
  | none => rw [channel_cons_none hin]
  | some i =>
    obtain ⟨n, -, rfl⟩ := Option.map_eq_some_iff.1 hin
    rw [channel_cons_some hin]
    rfl

include hi in
/-- A phase that takes effect, when the port is in no call. -/
theorem Follows.responses_pec {e : PayloadEvent} {q : List PayloadEvent} (hs : Serviced P v e q)
    (hp : e.p = .endReq ∨ e.p = .beginResp) (hr : u.refused s = v.refused s)
    (he : ends s u.trace = ends s v.trace)
    (hn : ∀ k, number s k u.trace = number s k v.trace) :
    (if e.p = .beginResp then Cur.popped e.t e.txn else .idle).Follows s u
      (channel s (.pec e.txn e.p :: v.trace)).responses := by
  have hv := hi.responses
  rw [hs.idle] at hv
  obtain ⟨hw, hends⟩ := hv
  rcases hp with hp | hp
  · have hσ : (channel s (.pec e.txn e.p :: v.trace)).responses =
        (channel s v.trace).responses := by
      cases hk : number s e.txn v.trace with
      | none => rw [channel_cons_none (by simp [Obs.input, hp, hk])]
      | some n => rw [channel_cons_some (i := .endReq n) (by simp [Obs.input, hp, hk])]; rfl
    rw [if_neg (by rw [hp]; decide), hσ]
    exact ⟨hw.trans hr.symm, hends.trans he.symm⟩
  · rw [if_pos hp]
    cases hk : number s e.txn v.trace with
    | none =>
      rw [channel_cons_none (by simp [Obs.input, hp, hk])]
      exact ⟨hw.trans hr.symm, by simp [hn, hk, hends, he], by simp [hn, hk]⟩
    | some n =>
      rw [channel_cons_some (i := .beginResp n) (by simp [Obs.input, hp, hk])]
      refine ⟨hw.trans hr.symm, ?_, ?_⟩
      · rw [hn, hk, he, ← hends]; rfl
      · rw [hn, hk]; exact fun m hm => hm

include hl hl' hi h in
theorem Follows.step_responses (h₁ : OneSocket v) (ho : Offers v) :
    u.cur.Follows s u (channel s u.trace).responses := by
  have hv := hi.responses
  -- a move that is no step of the call itself
  have hkeep : u.cur = v.cur → (channel s u.trace).responses = (channel s v.trace).responses →
      u.slots.response s = v.slots.response s → ends s u.trace = ends s v.trace →
      u.cur.Follows s u (channel s u.trace).responses := by
    intro hcur hσ hr he
    rw [hcur, hσ]
    exact hv.congr (hl.refused_eq h hl' hr) he fun k hk => h.number_eq (hl.lt_of_cur hk) s
  cases id h
  case refuse r t hr hsend ht => exact hkeep rfl (channel_refused ..) rfl rfl
  case accepted r ha hst =>
    refine hkeep rfl ?_ rfl rfl
    refine (congrArg State.responses (channel_begin r)).trans ?_
    split_ifs <;> rfl
  case updated r ha hst hp =>
    refine hkeep rfl ?_ rfl rfl
    refine (congrArg State.responses (channel_begin r)).trans ?_
    split_ifs <;> rfl
  case completed r ha hst =>
    refine hkeep rfl ?_ rfl rfl
    refine (congrArg State.responses (channel_begin r)).trans ?_
    split_ifs <;> rfl
  case close e q s' hs hp hcl ho =>
    exact hi.responses_pec hs hp (hl.refused_eq h hl' rfl) rfl fun _ => rfl
  case retry e q s' hs hp hcl ho =>
    exact hi.responses_pec hs hp (hl.refused_eq h hl' rfl) rfl fun _ => rfl
  case keep e q hs hp =>
    exact hi.responses_pec hs (hl.event e hs.mem).1 (hl.refused_eq h hl' rfl) rfl fun _ => rfl
  case enter t k x hcur hx hf hn =>
    have hh := hl.cur
    rw [hcur] at hv hh
    obtain ⟨y, rfl, hh⟩ := hh
    obtain rfl := Option.some.inj (hx.symm.trans hh.carries.carried)
    exact hv
  case makeResponse t k x hcur hx hf hn =>
    have hh := hl.cur
    rw [hcur] at hv hh
    obtain ⟨y, rfl, hh⟩ := hh
    obtain rfl := Option.some.inj (hx.symm.trans hh.carries.carried)
    exact hv
  case respond t x b hcur hr =>
    have hc := ho.cur
    have hr' := hl.refused_eq (s := s) h hl' rfl
    rw [hcur] at hv hc
    obtain ⟨hw, he, hu⟩ := hv
    change Cur.Follows s _ (channel s (.resp x.serial x.packet b :: v.trace)).responses _
    cases hn : number s x.serial v.trace with
    | none =>
      rw [channel_cons_none ((input_resp hc _ _).trans (by rw [hn]; rfl))]
      rw [hn] at he
      cases b with
      | true => exact ⟨hw.trans hr'.symm, he.trans (congrArg (Option.toList · ++ _) hn.symm)⟩
      | false => exact ⟨hw.trans (congrArg₂ Option.or hn.symm hr'.symm), he⟩
    | some n =>
      rw [channel_cons_some ((input_resp hc _ _).trans (by rw [hn]; rfl))]
      have hu := hu n hn
      have ha : (channel s v.trace).responses.answered = ends s v.trace := by
        simpa [Responses.ends, hu, hn] using he
      cases b with
      | true =>
        refine ⟨hw.trans hr'.symm, ?_⟩
        change n :: (channel s v.trace).responses.answered = (number s x.serial v.trace).toList ++ _
        rw [ha, hn]
        rfl
      | false => exact ⟨(congrArg₂ Option.or hn.symm hr'.symm :), ha⟩
  case resend t x b hcur hr =>
    have hc := ho.cur
    rw [hcur] at hv hc
    change Cur.Follows s _ (channel s (.resp x.serial x.packet b :: v.trace)).responses _
    rw [channel_cons_none (input_resp_of_asked hc _ _)]
    exact hv
  case block t x hcur =>
    have hh := hl.cur
    rw [hcur] at hv hh
    obtain ⟨hw, he⟩ := hv
    refine ⟨hw.trans ?_, he⟩
    by_cases hs : x.coreId = s
    · subst hs
      obtain ⟨n, hn⟩ := hl.exists_number hh.carries.carried
      rw [hn, Option.some_or]
      simp [View.refused, View.numberIn, View.serialOf, hh.carries.carried, hn]
    · rw [h₁.number_eq_none hl hh.carries.carried hs]
      exact (hl.refused_eq h hl' (by simp [Ne.symm hs])).symm
  case finish t x hd hpos =>
    have hr' := hl.refused_eq (s := s) h hl' rfl
    rcases hd with ⟨hcur, -⟩ | ⟨again, hcur⟩ <;> rw [hcur] at hv <;> rw [View.finish_cur, hcur]
    · exact ⟨hv.1.trans hr'.symm, hv.2.1⟩
    · cases again with
      | false => exact ⟨hv.1.trans hr'.symm, hv.2⟩
      | true => exact ⟨hv.1, hv.2.trans (congrArg (Option.toList · ++ _) hr'.symm)⟩
  case respRetry hcur =>
    have hr' := hl.refused_eq (s := s) h hl' rfl
    rw [hcur] at hv
    refine ⟨rfl, (Responses.ends_retry _).trans ?_⟩
    rw [hr', ← hv.1]
    exact congrArg (_ ++ ·) hv.2
  case retried hs hcur =>
    rw [hcur] at hv
    have hr : v.refused s = none := by simp [View.refused, hs, View.numberIn]
    exact ⟨hv.1.trans hr.symm, by simpa [hr] using hv.2⟩
  case take t x i s' hcur hr hx hs =>
    obtain ⟨y, hy, rfl, -⟩ := hl.response i t hr
    obtain rfl := Option.some.inj (hx.symm.trans hy.carried)
    obtain rfl : s' = x.coreId := hs.elim id id
    rw [hcur] at hv
    obtain ⟨hw, he⟩ := hv
    refine ⟨hw, he.trans ?_⟩
    by_cases hs : x.coreId = s
    · subst hs
      obtain ⟨n, hn⟩ := hl.exists_number hx
      simp [View.refused, View.numberIn, View.serialOf, hr, hx, hn]
    · have hn := h₁.number_eq_none hl hx hs
      rw [hl.refused_eq h hl' (by simp [Ne.symm hs])]
      change _ = _ ++ ((number s x.serial v.trace).toList ++ ends s v.trace)
      rw [hn]
      rfl
  all_goals exact hkeep rfl rfl rfl rfl

end Step

/-! ## Independence -/

instance (v : View) : (a : Act) → Decidable (ResendsAccepted v a)
  | .recvRespRetry answers => inferInstanceAs (Decidable (∀ a ∈ answers, a.accept = true))
  | .recvTimingReq _ | .service _ | .nbTransportBw .. | .targetAcquire .. | .targetRelease .. |
    .downstreamResponse _ | .advance _ => .isTrue trivial

/-- What the other sides promise, for a port without gem5 caches. -/
def SocketsObeyed (v : View) (a : Act) : Prop :=
  AnsweredAccepted v a ∧ RefsBalanced v a ∧ PhasesObeyed v a ∧ ResponsesExclusive v a ∧
    ResendsAccepted v a

instance (v : View) (a : Act) : Decidable (SocketsObeyed v a) :=
  inferInstanceAs (Decidable (_ ∧ _))

/-- **The port is a product of channels**, if each BEGIN_RESP takes effect when no END_REQ of its
transaction is scheduled any more. -/
theorem follows_of_run {q : SCSlavePort} {w : World} (hq : q.Bound) (hc : q.usingGem5Cache = false)
    (h : PortRun (fun v a => SocketsObeyed v a ∧ TakenInOrder v a) q w) (s : ℕ) :
    Follows s w.view := by
  have hi := h.invariant (I := fun v => Life v ∧ Channel v ∧ OneSocket v ∧ Offers v ∧
    (v.cache = false → Follows s v)) hq
    (fun _ hv => ⟨.of_initial hv, .of_initial hv, .of_initial hv, .of_initial hv,
      fun _ => .of_initial hv s⟩) fun v u hi hm => by
    obtain ⟨hl, hch, h₁, ho, hf⟩ := hi
    have hl' := hl.step (fun _ _ h => h.1.2.1) (fun _ _ h => h.1.2.2.1) hm
    have hch' := hch.step (fun _ _ h => h.1.2.1) (fun _ _ h => h.1.2.2.1) (fun _ _ h => h.2) hl hm
    refine ⟨hl', hch', h₁.step hl hm, ho.step hl hm, fun hcu => ?_⟩
    have hcv : v.cache = false := hm.static.1 ▸ hcu
    exact ⟨(hf hcv).step_requests hl hch hm hch' h₁ hcv fun _ _ h => h.1.1,
      (hf hcv).step_responses hl hl' hm h₁ ho⟩
  exact hi.2.2.2.2 ((h.moves hq).2.static.1.trans hc)

/-- **Sockets do not interfere.** In two runs with the same events of a socket, the same requests
of it are accepted, and retries and END_RESP are sent for the same transactions of it. -/
theorem sockets_independent {q₁ q₂ : SCSlavePort} {w₁ w₂ : World} {s : ℕ} (hq₁ : q₁.Bound)
    (hq₂ : q₂.Bound) (hc₁ : q₁.usingGem5Cache = false) (hc₂ : q₂.usingGem5Cache = false)
    (h₁ : PortRun (fun v a => SocketsObeyed v a ∧ TakenInOrder v a) q₁ w₁)
    (h₂ : PortRun (fun v a => SocketsObeyed v a ∧ TakenInOrder v a) q₂ w₂)
    (h : inputs s w₁.trace = inputs s w₂.trace) :
    decisions s w₁.trace = decisions s w₂.trace ∧ retries s w₁.trace = retries s w₂.trace ∧
      ends s w₁.trace = ends s w₂.trace := by
  have hf₁ := follows_of_run hq₁ hc₁ h₁ s
  have hf₂ := follows_of_run hq₂ hc₂ h₂ s
  have hσ : channel s w₁.view.trace = channel s w₂.view.trace := by
    rw [w₁.trace_view, w₂.trace_view]
    exact congrArg after h
  have hr : w₁.view.requests s = w₂.view.requests s := by
    rw [← hf₁.requests, ← hf₂.requests, hσ]
  have he : ends s w₁.view.trace = ends s w₂.view.trace := by
    rw [← hf₁.responses.2, ← hf₂.responses.2, hσ]
  rw [← w₁.trace_view, ← w₂.trace_view]
  exact ⟨congrArg Requests.decisions hr, congrArg Requests.retries hr, he⟩

/-- Socket 1 has a transaction in one of the runs, whose payload socket 0 gets next. -/
theorem sockets_independent_recycled : ∃ w₁ w₂ : World, .release 0 0 ∈ w₁.trace ∧
    decisions 0 w₂.trace = [false, true] ∧ decisions 0 w₁.trace = decisions 0 w₂.trace ∧
    retries 0 w₁.trace = retries 0 w₂.trace ∧ ends 0 w₁.trace = ends 0 w₂.trace := by
  obtain ⟨w₁, hr₁, hw₁⟩ := exists_portRun (q := twoSocketPort)
    (P := fun v a => SocketsObeyed v a ∧ TakenInOrder v a)
    (p := fun w => decide (inputs 0 w.trace = [.request, .request] ∧ .release 0 0 ∈ w.trace))
    [.recvTimingReq (secondReadRequest 0), .nbTransportBw 0 0 .endReq 5,
      .nbTransportBw 0 0 .beginResp 6, .advance 5, .service {}, .advance 1, .service {},
      .recvTimingReq (readRequest 1), .recvTimingReq (readRequest 2)] (by decide)
  obtain ⟨w₂, hr₂, hw₂⟩ := exists_portRun (q := twoSocketPort)
    (P := fun v a => SocketsObeyed v a ∧ TakenInOrder v a)
    (p := fun w => decide (inputs 0 w.trace = [.request, .request] ∧
      decisions 0 w.trace = [false, true]))
    [.recvTimingReq (readRequest 1), .recvTimingReq (readRequest 2)] (by decide)
  obtain ⟨hi₁, hm⟩ := of_decide_eq_true hw₁
  obtain ⟨hi₂, hd⟩ := of_decide_eq_true hw₂
  exact ⟨w₁, w₂, hm, hd, sockets_independent bound_twoSocketPort bound_twoSocketPort rfl rfl hr₁ hr₂
    (hi₁.trans hi₂.symm)⟩

/-- In one of the runs, END_REQ and BEGIN_RESP of a transaction of socket 1 take effect at the
same tick. BEGIN_RESP is taken first, socket 0 gets the payload, and the END_REQ that is left ends
its request: the port accepts a second request for socket 0, which it refuses in the other run. -/
theorem not_sockets_independent : ¬ ∀ (q₁ q₂ : SCSlavePort) (w₁ w₂ : World) (s : ℕ), q₁.Bound →
    q₂.Bound → q₁.usingGem5Cache = false → q₂.usingGem5Cache = false →
    PortRun SocketsObeyed q₁ w₁ → PortRun SocketsObeyed q₂ w₂ →
    inputs s w₁.trace = inputs s w₂.trace → decisions s w₁.trace = decisions s w₂.trace ∧
      retries s w₁.trace = retries s w₂.trace ∧ ends s w₁.trace = ends s w₂.trace := by
  intro h
  obtain ⟨w₁, hr₁, hw₁⟩ := exists_portRun (q := twoSocketPort) (P := SocketsObeyed)
    (p := fun w => decide (inputs 0 w.trace = [.request, .request] ∧
      decisions 0 w.trace = [true, true]))
    [.recvTimingReq (secondReadRequest 0), .nbTransportBw 0 0 .endReq 5,
      .nbTransportBw 0 0 .beginResp 5, .advance 5, .service {}, .recvTimingReq (readRequest 1),
      .service {}, .recvTimingReq (readRequest 2)] (by decide)
  obtain ⟨w₂, hr₂, hw₂⟩ := exists_portRun (q := twoSocketPort) (P := SocketsObeyed)
    (p := fun w => decide (inputs 0 w.trace = [.request, .request] ∧
      decisions 0 w.trace = [false, true]))
    [.recvTimingReq (readRequest 1), .recvTimingReq (readRequest 2)] (by decide)
  obtain ⟨hi₁, hd₁⟩ := of_decide_eq_true hw₁
  obtain ⟨hi₂, hd₂⟩ := of_decide_eq_true hw₂
  have := (h _ _ _ _ 0 bound_twoSocketPort bound_twoSocketPort rfl rfl hr₁ hr₂
    (hi₁.trans hi₂.symm)).1
  rw [hd₁, hd₂] at this
  cases this

end Gem5Wrapper
