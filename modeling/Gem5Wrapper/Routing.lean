import Gem5Wrapper.ErrorStatus

/-!
# Where the router sends a transaction

`b_transport` sends an address outside the memory window to the bus. `nb_transport_fw` reports
FATAL there, and the process that executes what it accepts knows only the memory.

`Agree` says that a transaction gets to the same socket both ways. The non-blocking way is a whole
run: the transaction waits in the router until it is executed, and no answer comes before.

The end of the memory window is a 64-bit sum. A bus stores the last address of its window instead,
so that the two differ for a window that ends with the address space (`windowsAgree_iff`).
-/

namespace Gem5Wrapper

open FaultMachine OneAtATime

variable {α : Type}

/-- `isock_mem` and `isock_bus`. -/
inductive Outlet
  | mem
  | bus
  deriving DecidableEq, Repr

namespace TxnRouter

/-! ## The two ways -/

/-- `addr` is one of the `memSize` addresses from `memStartAddr` on. -/
def InWindow (r : TxnRouter α) (addr : ℕ) : Prop :=
  r.memStartAddr ≤ addr ∧ addr < r.memStartAddr + r.memSize

/-- `b_transport` calls the target behind socket `s`: it returns with the delay of this target. -/
def BlockingTo (r : TxnRouter α) (p : Payload) (s : Outlet) : Prop :=
  ∀ (target : Outlet → Payload → ℕ → Payload × ℕ) (delay : ℕ),
    (r.bTransport (target .mem) (target .bus) p delay).2 = (target s p delay).2

/-- A transaction is in the router and still has to be executed: its BEGIN_REQ is queued, or waits
for END_REQ, or has had it and the notification is pending. -/
def Holds (r : TxnRouter α) (x : α) : Prop :=
  x ∈ r.queued .beginReq ∨ r.endReqPending = some x ∨
    r.transactionInProgress = some x ∧ r.targetDoneEvent.isSome

variable [DecidableEq α]

/-- The sockets that the non-blocking way has called for a transaction. -/
def deliveries (r : TxnRouter α) (x : α) : List Outlet :=
  r.trace.filterMap fun
    | .execute y => if y = x then some .mem else none
    | _ => none

/-- What has happened to a transaction on its way to socket `s`. -/
inductive NonBlockingTo (r : TxnRouter α) (x : α) (s : Outlet) : Prop
  | held : r.deliveries x = [] → r.Holds x → x ∉ answers r.events → NonBlockingTo r x s
  | delivered : r.deliveries x = [s] → NonBlockingTo r x s

/-- The transaction gets to the memory if it is for the window and to the bus if not, both through
`b_transport` and with a BEGIN_REQ now and whatever happens next. -/
def Agree (r : TxnRouter α) (x : α) (delay : ℕ) : Prop :=
  ∃ s, (s = .mem ↔ r.InWindow (r.payloads x).address) ∧ r.BlockingTo (r.payloads x) s ∧
    ∃ r', r.call ⟨x, .beginReq, delay⟩ = .ok r' ∧
      ∀ r'', Run step (fun _ _ => True) r' r'' → r''.NonBlockingTo x s

variable {r r' : TxnRouter α} {x : α} {w : Option α} {st : Stage α}

/-- The deliveries of a transaction are its executions by the memory. -/
theorem deliveries_eq (r : TxnRouter α) (x : α) :
    r.deliveries x = List.replicate ((OneAtATime.starts r.events).count x) .mem := by
  unfold deliveries OneAtATime.starts events
  induction r.trace with
  | nil => rfl
  | cons o l ih =>
    cases o with
    | execute y =>
      by_cases hy : y = x
      · subst hy
        simp [Obs.event, ih, List.replicate_succ]
      · simp [Obs.event, ih, hy]
    | _ => simpa [Obs.event, List.filterMap_cons] using ih

omit [DecidableEq α] in
/-- A transaction that is requested and not started is in the router. -/
theorem InProtocol.holds (h : InProtocol w st r) (hr : x ∈ requests r.events)
    (hs : x ∉ OneAtATime.starts r.events) : r.Holds x := by
  obtain ⟨hreq, -, hst, -, -, -⟩ := h.front.serves.ordered
  rw [hreq, List.append_assoc, List.mem_append, List.mem_append] at hr
  rw [hst, List.mem_append, not_or] at hs
  obtain hw | hg | hc := hr
  · have hq : x ∈ r.queued .beginReq ++ r.endReqPending.toList := by
      rw [h.front.requests]
      exact hw
    exact (List.mem_append.1 hq).imp id fun hp => .inl (Option.mem_toList.1 hp)
  · have hstage := h.stage
    cases st with
    | granted y =>
      obtain rfl := List.mem_singleton.1 hg
      exact .inr (.inr ⟨hstage.1, hstage.2.2.2⟩)
    | idle => cases hg
    | _ => exact absurd hg hs.1
  · exact absurd hc hs.2

/-! ## What has happened stays -/

theorem call_trace {c : Call α} (h : r.call c = .ok r') : r.trace <:+ r'.trace := by
  unfold call nbTransportFw at h
  split at h
  · simp only [bind_eq_ok] at h
    obtain ⟨-, -, h⟩ := h
    split_ifs at h
    cases h
    exact List.suffix_cons ..
  · simp only [bind_eq_ok] at h
    obtain ⟨-, -, h⟩ := h
    split_ifs at h
    cases h
    exact List.suffix_cons ..
  · cases h

theorem calls_trace {cs : List (Call α)} (h : r.calls cs = .ok r') : r.trace <:+ r'.trace := by
  induction cs generalizing r with
  | nil => cases h; exact List.suffix_rfl
  | cons c cs ih =>
    simp only [calls, bind_eq_ok] at h
    obtain ⟨r₁, h₁, h⟩ := h
    exact (call_trace h₁).trans (ih h)

theorem sendEndReq_trace {a : Answer α} (h : r.sendEndReq x a = .ok r') :
    r.trace <:+ r'.trace := by
  simp only [sendEndReq, bind_eq_ok, check_eq_ok, pure_eq_ok, Except.ok.injEq] at h
  obtain ⟨r₁, h₁, -, -, rfl⟩ := h
  exact (List.suffix_cons ..).trans (calls_trace h₁)

theorem sendResponse_trace {a : Answer α} (h : r.sendResponse x a = .ok r') :
    r.trace <:+ r'.trace := by
  simp only [sendResponse, bind_eq_ok, check_eq_ok, pure_eq_ok, Except.ok.injEq] at h
  obtain ⟨-, -, r₁, h₁, rfl⟩ := h
  have ht : r.trace <:+ r₁.trace := (List.suffix_cons ..).trans (calls_trace h₁)
  refine ht.trans (List.IsSuffix.trans ?_ (List.suffix_cons ..))
  split
  · exact List.suffix_rfl
  · exact List.suffix_cons ..
  · exact List.suffix_rfl

/-- END_RESP lets the END_REQ that was held back go. -/
theorem heldEndReq_trace {a : Answer α} (h : (match r.endReqPending with
      | some y => do
        let r ← r.sendEndReq y a
        pure { r with endReqPending := none }
      | none => pure r : Except Fault (TxnRouter α)) = .ok r') : r.trace <:+ r'.trace := by
  split at h
  · simp only [bind_eq_ok, pure_eq_ok, Except.ok.injEq] at h
    obtain ⟨r₁, h₁, rfl⟩ := h
    have ht := sendEndReq_trace h₁
    exact ht
  · cases h
    exact List.suffix_rfl

theorem peqCb_trace {ph : Phase} {o : CbAnswers α} (h : r.peqCb x ph o = .ok r') :
    r.trace <:+ r'.trace := by
  unfold peqCb at h
  split at h
  · dsimp only at h
    split_ifs at h
    · exact (List.suffix_cons ..).trans (sendEndReq_trace h)
    · cases h
      exact List.suffix_cons ..
  · simp only [bind_eq_ok, check_eq_ok] at h
    obtain ⟨-, -, h⟩ := h
    split at h
    · simp only [bind_eq_ok, pure_eq_ok, Except.ok.injEq] at h
      obtain ⟨r₁, h₁, _, rfl, h⟩ := h
      have ht₁ := sendResponse_trace h₁
      have ht := heldEndReq_trace (r := { r₁ with nextResponsePending := none }) h
      exact ((List.suffix_cons ..).trans ht₁).trans ht
    · simp only [pure_eq_ok, ok_bind] at h
      exact (List.suffix_cons ..).trans (heldEndReq_trace h)
  · cases h

/-- An act adds to what has happened. -/
theorem step_trace {a : Act α} (h : r.step a = .ok r') : r.trace <:+ r'.trace := by
  cases a with
  | call c => exact call_trace h
  | peqCb i o =>
    simp only [step] at h
    split at h
    · cases h
    · simp only [bind_eq_ok] at h
      obtain ⟨-, -, h⟩ := h
      have ht := peqCb_trace h
      exact ht
  | targetDone =>
    simp only [step, wake, bind_eq_ok] at h
    obtain ⟨-, -, h⟩ := h
    split at h
    · cases h
      exact List.suffix_rfl
    · split at h
      · cases h
      · cases h
        exact List.suffix_cons ..
  | memoryDone p a =>
    simp only [step, memoryDone] at h
    split at h
    · cases h
    · split_ifs at h
      · simp only [bind_eq_ok, pure_eq_ok, Except.ok.injEq] at h
        obtain ⟨-, -, rfl⟩ := h
        exact List.suffix_cons ..
      · split at h
        · cases h
        · exact (List.suffix_cons ..).trans (sendResponse_trace h)
  | advance d =>
    simp only [step, bind_eq_ok, pure_eq_ok, Except.ok.injEq] at h
    obtain ⟨-, -, rfl⟩ := h
    exact List.suffix_rfl

/-- The history of a run grows. -/
theorem run_trace {ok : TxnRouter α → Act α → Prop} (h : Run step ok r r') : r.trace <:+ r'.trace :=
  h.invariant (I := fun u => r.trace <:+ u.trace) List.suffix_rfl fun _ _ _ hi _ hs =>
    hi.trans (step_trace hs)

/-! ## Agreement -/

omit [DecidableEq α] in
theorem toMem_iff {addr : ℕ} : r.toMem addr = true ↔
    r.memStartAddr ≤ addr ∧ addr < (r.memStartAddr + r.memSize) % 2 ^ 64 := by
  unfold toMem
  split_ifs with h₁ h₂
  · exact iff_of_false (by simp) fun h => Nat.not_lt.2 h.1 h₁
  · exact iff_of_false (by simp) fun h => Nat.not_le.2 h.2 h₂
  · exact iff_of_true rfl ⟨Nat.not_lt.1 h₁, Nat.not_le.1 h₂⟩

omit [DecidableEq α] in
/-- What is for the memory is in the window, but the sum that bounds it may have wrapped around. -/
theorem inWindow_of_toMem {addr : ℕ} (h : r.toMem addr = true) : r.InWindow addr := by
  obtain ⟨h₁, h₂⟩ := toMem_iff.1 h
  exact ⟨h₁, Nat.lt_of_lt_of_le h₂ (Nat.mod_le ..)⟩

/-- In the state between two callbacks, a requested transaction is on its way to the memory. -/
theorem InProtocol.nonBlockingTo (h : InProtocol w st r) (hr : x ∈ requests r.events) :
    r.NonBlockingTo x .mem := by
  have hserves := h.front.serves
  by_cases hs : x ∈ OneAtATime.starts r.events
  · have hnd : (OneAtATime.starts r.events).Nodup :=
      hserves.ordered.nodup.sublist (hserves.starts_suffix.trans hserves.grants_suffix).sublist
    refine .delivered ?_
    rw [deliveries_eq, List.count_eq_one_of_mem hnd hs]
    rfl
  · refine .held ?_ (h.holds hr hs) fun ha => ?_
    · rw [deliveries_eq, List.count_eq_zero_of_not_mem hs]
      rfl
    · exact hs ((hserves.answers_suffix.trans hserves.finishes_suffix).subset ha)

variable {name : String} {memStartAddr memSize : ℕ} {payloads : α → Payload} {delay : ℕ}

/-- At every moment of a run, the two ways agree for a transaction that the initiator may send if
and only if its address is from `memStartAddr` on and below the 64-bit sum that bounds the
window. -/
theorem agree_iff (h : Run step (fun _ _ => True) (new name memStartAddr memSize payloads) r)
    (hx : MayRequest r.events x) : r.Agree x delay ↔ r.toMem (r.payloads x).address = true := by
  have hcall : r.call ⟨x, .beginReq, delay⟩ =
      (r.emit (.beginReq x)).nbTransportFw x .beginReq delay := by
    simp only [call, check_pos hx, ok_bind]
  constructor
  · rintro ⟨s, -, -, r', hr', -⟩
    by_contra ha
    rw [hcall] at hr'
    unfold nbTransportFw at hr'
    split_ifs at hr' with ha'
    exact ha ha'
  · intro ha
    have hs : r.step (.call ⟨x, .beginReq, delay⟩) =
        .ok ((r.emit (.beginReq x)).notify x .beginReq delay) := hcall.trans (if_pos ha)
    refine ⟨.mem, iff_of_true rfl (inWindow_of_toMem ha), fun target delay => ?_, _, hs,
      fun r'' hr'' => ?_⟩
    · simp only [bTransport, ha, if_true]
    · obtain ⟨w, st, hi⟩ := inProtocol_of_run ((h.snoc trivial hs).trans hr'')
      refine hi.nonBlockingTo ?_
      have ht := requests_suffix ((run_trace hr'').filterMap Obs.event)
      exact ht.subset (List.mem_cons_self)

/-- The first transaction of the small router. -/
theorem agree_smallRouter : smallRouter.Agree 0 0 ↔ smallRouter.toMem 8 = true := by
  have h : Run step (fun _ _ => True) (new "router" 0 4096 smallRouter.payloads) smallRouter :=
    .refl
  exact agree_iff h ⟨by decide, by decide⟩

/-- `b_transport` sends address 8 to the bus when the memory starts at 4096, and
`nb_transport_fw` reports FATAL. -/
theorem not_agree : ¬ ∀ (name : String) (memStartAddr memSize : ℕ) (payloads : ℕ → Payload)
    (r : TxnRouter ℕ) (x delay : ℕ), memStartAddr < 2 ^ 64 → memSize < 2 ^ 64 →
    Run step (fun _ _ => True) (new name memStartAddr memSize payloads) r →
    MayRequest r.events x → r.Agree x delay := by
  intro h
  obtain ⟨_, -, -, r', hr', -⟩ := h "router" 4096 4096 (fun _ => { address := 8 }) _ 0 0
    (by decide) (by decide) .refl ⟨by decide, by decide⟩
  cases hr'

/-! ## The window and its end -/

/-- The mapping of a bus to the `size` addresses from `start` on; its end belongs to it. -/
def window (start size : ℕ) (hsize : 1 ≤ size) : PortMapping where
  start := start
  finish := start + size - 1
  start_le_finish := by omega

omit [DecidableEq α] in
theorem contains_window {start size addr : ℕ} {hsize : 1 ≤ size} :
    (window start size hsize).contains addr = true ↔ start ≤ addr ∧ addr < start + size := by
  rw [PortMapping.contains, decide_eq_true_iff]
  show start ≤ addr ∧ addr ≤ start + size - 1 ↔ _
  omega

omit [DecidableEq α] in
/-- No address is in a window up to the end of the address space: the sum that bounds it is 0. -/
theorem toMem_eq_false {addr : ℕ} (h : r.memStartAddr + r.memSize = 2 ^ 64) :
    r.toMem addr = false := by
  rw [Bool.eq_false_iff, ne_eq, toMem_iff, h, Nat.mod_self]
  omega

/-- The router, the bus and the integers say the same of an address. -/
structure WindowsAgree (r : TxnRouter α) (m : PortMapping) (addr : ℕ) : Prop where
  router : r.toMem addr = true ↔ m.contains addr = true
  bus : m.contains addr = true ↔ r.memStartAddr ≤ addr ∧ addr < r.memStartAddr + r.memSize

omit [DecidableEq α] in
/-- For every window in the 64-bit address space, router and bus agree on an address if and only if
the window ends before the last address, or the address lies below it. -/
theorem windowsAgree_iff {start size addr : ℕ} (hsize : 1 ≤ size) (hsize' : size < 2 ^ 64)
    (hend : start + size - 1 ≤ 2 ^ 64 - 1) (haddr : addr < 2 ^ 64) :
    (new name start size payloads).WindowsAgree (window start size hsize) addr ↔
      start + size < 2 ^ 64 ∨ addr < start := by
  have hbus : (window start size hsize).contains addr = true ↔ start ≤ addr ∧ addr < start + size :=
    contains_window
  have hle : start + size ≤ 2 ^ 64 := by omega
  constructor
  · intro h
    by_contra hn
    rw [not_or, not_lt, not_lt] at hn
    have htop : start + size = 2 ^ 64 := le_antisymm hle hn.1
    have hin : (window start size hsize).contains addr = true :=
      hbus.2 ⟨hn.2, htop.symm ▸ haddr⟩
    have hmem := h.router.2 hin
    rw [toMem_eq_false htop] at hmem
    cases hmem
  · intro h
    refine ⟨?_, hbus⟩
    rw [hbus, toMem_iff]
    show start ≤ addr ∧ addr < (start + size) % 2 ^ 64 ↔ _
    obtain hlt | hlt := h
    · rw [Nat.mod_eq_of_lt hlt]
    · exact iff_of_false (fun h => absurd h.1 (Nat.not_le.2 hlt)) fun h =>
        absurd h.1 (Nat.not_le.2 hlt)

/-- A window of 4096 addresses in the middle of the address space. -/
theorem windowsAgree_smallWindow :
    (new "router" 4096 4096 smallRouter.payloads).WindowsAgree
      (window 4096 4096 (by decide)) 8191 :=
  (windowsAgree_iff (by decide) (by decide) (by decide) (by decide)).2 (.inl (by decide))

/-- The last page of the address space. -/
theorem not_windowsAgree : ¬ ∀ (name : String) (payloads : ℕ → Payload) (start size addr : ℕ)
    (hsize : 1 ≤ size), start < 2 ^ 64 → size < 2 ^ 64 → start + size - 1 ≤ 2 ^ 64 - 1 →
    addr < 2 ^ 64 → (new name start size payloads).WindowsAgree (window start size hsize) addr := by
  intro h
  have := (h "router" (fun _ => {}) (2 ^ 64 - 4096) 4096 (2 ^ 64 - 1) (by decide) (by decide)
    (by decide) (by decide) (by decide)).router
  revert this
  decide

end TxnRouter

end Gem5Wrapper
