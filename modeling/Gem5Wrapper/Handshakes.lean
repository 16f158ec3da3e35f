import Gem5Wrapper.ClosedSystem

/-!
# What the port and its routers have seen

The port names a transaction by its number, and a router by the payload as well. `Linked` says that
both have seen the same phases of each transaction, in the same order, whatever else they have done
meanwhile. It is kept by each call between the two, and by everything that is no such call.
-/

namespace Gem5Wrapper

open FaultMachine OneAtATime
open Function (update)

/-! ## Phases -/

/-- The phase of transaction `k` that passes between the port and a target. -/
def Obs.phase (k : ℕ) : Obs → Option Phase
  | .beginReq k' .. => if k' = k then some .beginReq else none
  | .bw k' ph _ => if k' = k then some ph else none
  | .endResp k' .. => if k' = k then some .endResp else none
  | _ => none

/-- The phases of transaction `k`, newest first. -/
def phases (k : ℕ) (l : List Obs) : List Phase := l.filterMap (Obs.phase k)

namespace TxnRouter

variable {α : Type} [DecidableEq α] {x : α} {r : TxnRouter α} {l : List (Event α)}

omit [DecidableEq α] in
/-- The phase that an event of the protocol is. -/
def phaseOf : Event α → Option Phase
  | .request _ => some .beginReq
  | .grant _ => some .endReq
  | .answer .. => some .beginResp
  | .ack _ => some .endResp
  | .start _ | .finish _ | .close _ => none

/-- The phases of transaction `x`, newest first. -/
def phases (x : α) (l : List (Event α)) : List Phase := (course x l).filterMap phaseOf

theorem phases_cons (e : Event α) : phases x (e :: l) =
    if e.about x = true then (phaseOf e).toList ++ phases x l else phases x l := by
  unfold phases
  rw [course_cons]
  split_ifs
  · rw [List.filterMap_cons]
    cases phaseOf e <;> rfl
  · rfl

theorem mem_phases {ph : Phase} :
    ph ∈ phases x l ↔ ∃ e ∈ l, e.about x = true ∧ phaseOf e = some ph := by
  unfold phases course
  rw [List.mem_filterMap]
  exact exists_congr fun e => by rw [List.mem_filter, and_assoc]

theorem grants_of_phases (h : .endReq ∈ phases x l) : x ∈ grants l := by
  obtain ⟨e, he, hx, hp⟩ := mem_phases.1 h
  cases e <;> simp [phaseOf, Event.about] at hp hx
  exact List.mem_filterMap.2 ⟨_, hx ▸ he, rfl⟩

theorem answers_of_phases (h : .beginResp ∈ phases x l) : x ∈ answers l := by
  obtain ⟨e, he, hx, hp⟩ := mem_phases.1 h
  cases e <;> simp [phaseOf, Event.about] at hp hx
  exact List.mem_filterMap.2 ⟨_, hx ▸ he, rfl⟩

theorem acks_of_phases (h : .endResp ∈ phases x l) : x ∈ acks l := by
  obtain ⟨e, he, hx, hp⟩ := mem_phases.1 h
  cases e <;> simp [phaseOf, Event.about] at hp hx
  exact List.mem_filterMap.2 ⟨_, hx ▸ he, rfl⟩

omit [DecidableEq α] in
/-- The protocol events of a history. -/
def eventsOf (l : List (Obs α)) : List (Event α) := l.filterMap Obs.event

/-- The memory is called, or it returns, or END_RESP takes effect. -/
def Obs.inner : Obs α → Bool
  | .execute _ | .executed .. | .ended _ => true
  | _ => false

end TxnRouter

open TxnRouter (eventsOf phaseOf)

/-! ## Two histories -/

/-- The histories `l` of the port and `t` of the router of socket `s`. -/
structure Linked (l : List Obs) (s : ℕ) (t : List (TxnRouter.Obs Transaction)) : Prop where
  begun : ∀ x, x ∈ requests (eventsOf t) ↔ ∃ a d r, .beginReq x.serial x.payload s a d r ∈ l
  same : ∀ x ∈ requests (eventsOf t), TxnRouter.phases x (eventsOf t) = phases x.serial l
  ended : ∀ x ∈ acks (eventsOf t), ∃ a, .endResp x.serial x.payload s a ∈ l
  acquired : ∀ x, .acquire x ∈ t → .targetAcquire x.serial ∈ l
  released : ∀ x ∈ requests (eventsOf t), .targetRelease x.serial ∈ l → .release x ∈ t

/-- What the port shows is not about the transactions of the router. -/
structure Elsewhere (o : Obs) (s : ℕ) (t : List (TxnRouter.Obs Transaction)) : Prop where
  begin : ∀ k p a d r, o ≠ .beginReq k p s a d r
  phase : ∀ x ∈ requests (eventsOf t), o.phase x.serial = none
  release : ∀ x ∈ requests (eventsOf t), o ≠ .targetRelease x.serial

variable {l l' : List Obs} {s s' : ℕ} {t t' : List (TxnRouter.Obs Transaction)} {x y : Transaction}
  {o : Obs} {o' : TxnRouter.Obs Transaction} {ph : Phase}

theorem phases_cons_of_none {k : ℕ} (ho : o.phase k = none) : phases k (o :: l) = phases k l := by
  rw [phases, List.filterMap_cons, ho]
  rfl

theorem phases_cons_of_some {k : ℕ} (ho : o.phase k = some ph) :
    phases k (o :: l) = ph :: phases k l := by
  rw [phases, List.filterMap_cons, ho]
  rfl

theorem Obs.txn_of_phase {k : ℕ} (h : o.phase k = some ph) : o.txn = some k := by
  cases o <;> simp [Obs.phase] at h
  · exact congrArg some h.1
  · exact congrArg some h.1
  · exact congrArg some h.1

/-- It is no call between the port and a target. -/
def Obs.silent : Obs → Bool
  | .beginReq .. | .bw .. | .endResp .. | .targetAcquire _ | .targetRelease _ => false
  | _ => true

theorem Elsewhere.of_silent (ho : o.silent = true) : Elsewhere o s t := by
  cases o <;> first
    | exact ⟨fun _ _ _ _ _ => Obs.noConfusion, fun _ _ => rfl, fun _ _ => Obs.noConfusion⟩
    | cases ho

theorem Obs.not_silent_of_phase {k : ℕ} (h : o.phase k = some ph) : o.silent = false := by
  cases o <;> first
    | rfl
    | cases h

namespace Linked

theorem nil (s : ℕ) : Linked [] s [] := by
  constructor <;> simp [eventsOf, requests, acks]

/-- A transaction has one router. -/
theorem eq_of_serial (h : Linked l s t) (h' : Linked l s' t') (h1 : OneBeginReq l)
    (hx : x ∈ requests (eventsOf t)) (hy : y ∈ requests (eventsOf t')) (hxy : y.serial = x.serial) :
    y = x ∧ s' = s := by
  obtain ⟨a, d, r, hx⟩ := (h.begun x).1 hx
  obtain ⟨a', d', r', hy⟩ := (h'.begun y).1 hy
  rw [hxy] at hy
  obtain ⟨hp, hs⟩ := h1.unique hy hx
  cases x
  cases y
  cases hxy
  cases hp
  exact ⟨rfl, hs⟩

/-- The port goes on elsewhere. -/
theorem elsewhere (h : Linked l s t) (ho : Elsewhere o s t) : Linked (o :: l) s t := by
  refine ⟨fun x => ?_, fun x hx => ?_, fun x hx => ?_, fun x hx => ?_, fun x hx hr => ?_⟩
  · rw [h.begun x]
    refine exists_congr fun a => exists_congr fun d => exists_congr fun r => ?_
    rw [List.mem_cons, or_iff_right fun he => ho.begin _ _ _ _ _ he.symm]
  · rw [phases_cons_of_none (ho.phase x hx)]
    exact h.same x hx
  · obtain ⟨a, ha⟩ := h.ended x hx
    exact ⟨a, List.mem_cons_of_mem _ ha⟩
  · exact List.mem_cons_of_mem _ (h.acquired x hx)
  · obtain hr | hr := List.mem_cons.1 hr
    · exact absurd hr.symm (ho.release x hx)
    · exact h.released x hx hr

theorem elsewhere_append (h : Linked l s t) (ho : ∀ o ∈ l', Elsewhere o s t) :
    Linked (l' ++ l) s t := by
  induction l' with
  | nil => exact h
  | cons o l' ih =>
    obtain ⟨ho, hl'⟩ := List.forall_mem_cons.1 ho
    exact (ih hl').elsewhere ho

/-- The router goes on by itself. -/
theorem inner (h : Linked l s t) (ho : o'.inner = true) : Linked l s (o' :: t) := by
  have hreq : requests (eventsOf (o' :: t)) = requests (eventsOf t) := by
    cases o' <;> first | rfl | cases ho
  have hack : acks (eventsOf (o' :: t)) = acks (eventsOf t) := by
    cases o' <;> first | rfl | cases ho
  have hph : ∀ x ∈ requests (eventsOf t),
      TxnRouter.phases x (eventsOf (o' :: t)) = TxnRouter.phases x (eventsOf t) := by
    intro x _
    cases o' with
    | execute y =>
      show TxnRouter.phases x (.start y :: eventsOf t) = _
      rw [TxnRouter.phases_cons]
      split_ifs <;> rfl
    | executed y _ =>
      show TxnRouter.phases x (.finish y :: eventsOf t) = _
      rw [TxnRouter.phases_cons]
      split_ifs <;> rfl
    | ended y => exact TxnRouter.phases_cons _
    | _ => cases ho
  refine ⟨?_, ?_, ?_, fun x hx => ?_, ?_⟩
  · rw [hreq]
    exact h.begun
  · rw [hreq]
    exact fun x hx => (hph x hx).trans (h.same x hx)
  · rw [hack]
    exact h.ended
  · obtain rfl | hx := List.mem_cons.1 hx
    · cases ho
    · exact h.acquired x hx
  · rw [hreq]
    exact fun x hx hr => List.mem_cons_of_mem _ (h.released x hx hr)

/-- A new transaction. -/
theorem begin (h : Linked l s t) (hnew : ∀ o ∈ l, o.silent = false → o.txn ≠ some x.serial)
    (hx : course x (eventsOf t) = []) {a d : ℕ} {r : Reply} :
    Linked (.beginReq x.serial x.payload s a d r :: l) s (.beginReq x :: t) := by
  have hne : ∀ y ∈ requests (eventsOf t), x.serial ≠ y.serial := by
    intro y hy he
    obtain ⟨a, d, r, hm⟩ := (h.begun y).1 hy
    exact hnew _ hm rfl (congrArg some he.symm)
  have hreq : requests (eventsOf (.beginReq x :: t)) = x :: requests (eventsOf t) := rfl
  refine ⟨fun y => ?_, fun y hy => ?_, fun y hy => ?_, fun y hy => ?_, fun y hy hr => ?_⟩
  · rw [hreq, List.mem_cons, h.begun y]
    refine ⟨fun hy => ?_, fun hy => ?_⟩
    · obtain rfl | ⟨a', d', r', hm⟩ := hy
      · exact ⟨a, d, r, List.mem_cons_self⟩
      · exact ⟨a', d', r', List.mem_cons_of_mem _ hm⟩
    · obtain ⟨a', d', r', hm⟩ := hy
      obtain he | hm := List.mem_cons.1 hm
      · exact .inl (by cases x; cases y; cases he; rfl)
      · exact .inr ⟨a', d', r', hm⟩
  · show TxnRouter.phases y (.request x :: eventsOf t) = _
    rw [TxnRouter.phases_cons]
    obtain rfl | hy := List.mem_cons.1 hy
    · have hl : phases y.serial l = [] := by
        refine List.filterMap_eq_nil_iff.2 fun o ho => ?_
        by_contra hn
        obtain ⟨ph, hph⟩ := Option.ne_none_iff_exists'.1 hn
        exact hnew o ho (Obs.not_silent_of_phase hph) (Obs.txn_of_phase hph)
      have ho : (Obs.beginReq y.serial y.payload s a d r).phase y.serial = some .beginReq :=
        if_pos rfl
      rw [if_pos (by simp [Event.about]), phases_cons_of_some ho, hl, TxnRouter.phases, hx]
      rfl
    · have hxy := hne y hy
      have hxy' : x ≠ y := fun he => hxy (congrArg _ he)
      rw [if_neg (by simp [Event.about, hxy']), phases_cons_of_none (by simp [Obs.phase, hxy])]
      exact h.same y hy
  · obtain ⟨a, ha⟩ := h.ended y hy
    exact ⟨a, List.mem_cons_of_mem _ ha⟩
  · exact List.mem_cons_of_mem _ (h.acquired y (List.mem_of_ne_of_mem (by simp) hy))
  · have hrel : .targetRelease y.serial ∈ l := List.mem_of_ne_of_mem (by simp) hr
    obtain rfl | hy := List.mem_cons.1 hy
    · exact absurd rfl (hnew _ hrel rfl)
    · exact List.mem_cons_of_mem _ (h.released y hy hrel)

/-- A phase that passes between the two. `e` is what it is to the router. -/
theorem phase (h : Linked l s t) (h1 : OneBeginReq l) (hx : x ∈ requests (eventsOf t))
    {e : Event Transaction} (ho : ∀ k, o.phase k = if x.serial = k then some ph else none)
    (hb : ∀ k p a d r, o ≠ .beginReq k p s a d r) (hr : ∀ k, o ≠ .targetRelease k)
    (he : eventsOf (o' :: t) = e :: eventsOf t) (hp : phaseOf e = some ph)
    (hab : ∀ y, e.about y = true ↔ x = y)
    (hreq : requests (eventsOf (o' :: t)) = requests (eventsOf t))
    (hack : ∀ y ∈ acks (eventsOf (o' :: t)), y ∈ acks (eventsOf t) ∨
      ∃ a, .endResp y.serial y.payload s a = o)
    (hacq : ∀ y, o' ≠ .acquire y) : Linked (o :: l) s (o' :: t) := by
  refine ⟨?_, ?_, fun y hy => ?_, fun y hy => ?_, ?_⟩
  · rw [hreq]
    intro y
    rw [h.begun y]
    refine exists_congr fun a => exists_congr fun d => exists_congr fun r => ?_
    rw [List.mem_cons, or_iff_right fun he => hb _ _ _ _ _ he.symm]
  · rw [hreq, he]
    intro y hy
    rw [TxnRouter.phases_cons]
    by_cases hxy : x = y
    · subst hxy
      rw [if_pos ((hab x).2 rfl), hp, phases_cons_of_some ((ho _).trans (if_pos rfl)), h.same x hx]
      rfl
    · have hserial : x.serial ≠ y.serial := fun hs =>
        hxy (h.eq_of_serial h h1 hx hy hs.symm).1.symm
      rw [if_neg fun hn => hxy ((hab y).1 hn), phases_cons_of_none ((ho _).trans (if_neg hserial))]
      exact h.same y hy
  · obtain hy | ⟨a, ha⟩ := hack y hy
    · obtain ⟨a, ha⟩ := h.ended y hy
      exact ⟨a, List.mem_cons_of_mem _ ha⟩
    · exact ⟨a, ha ▸ List.mem_cons_self⟩
  · obtain hy | hy := List.mem_cons.1 hy
    · exact absurd hy.symm (hacq y)
    · exact List.mem_cons_of_mem _ (h.acquired y hy)
  · rw [hreq]
    intro y hy hrel
    obtain hrel | hrel := List.mem_cons.1 hrel
    · exact absurd hrel.symm (hr _)
    · exact List.mem_cons_of_mem _ (h.released y hy hrel)

/-- The router takes a reference. -/
theorem acquire (h : Linked l s t) : Linked (.targetAcquire x.serial :: l) s (.acquire x :: t) := by
  have hl := h.elsewhere (o := .targetAcquire x.serial)
    ⟨fun _ _ _ _ _ => by simp, fun _ _ => rfl, fun _ _ => by simp⟩
  refine ⟨hl.begun, hl.same, hl.ended, fun y hy => ?_, fun y hy hr => ?_⟩
  · obtain hy | hy := List.mem_cons.1 hy
    · cases hy
      exact List.mem_cons_self
    · exact hl.acquired y hy
  · exact List.mem_cons_of_mem _ (hl.released y hy hr)

/-- The router gives its reference back. -/
theorem release (h : Linked l s t) (h1 : OneBeginReq l) (hx : x ∈ requests (eventsOf t)) :
    Linked (.targetRelease x.serial :: l) s (.release x :: t) := by
  refine ⟨fun y => ?_, h.same, fun y hy => ?_, fun y hy => ?_, fun y hy hr => ?_⟩
  · show y ∈ requests (eventsOf t) ↔ _
    simp [h.begun y]
  · obtain ⟨a, ha⟩ := h.ended y hy
    exact ⟨a, List.mem_cons_of_mem _ ha⟩
  · exact List.mem_cons_of_mem _ (h.acquired y (List.mem_of_ne_of_mem (by simp) hy))
  · obtain hr | hr := List.mem_cons.1 hr
    · obtain ⟨rfl, -⟩ := h.eq_of_serial h h1 hx hy (by simpa using hr)
      exact List.mem_cons_self
    · exact List.mem_cons_of_mem _ (h.released y hy hr)

/-- What passes between the port and one router is elsewhere to the others. -/
theorem elsewhere_of_ne (h : Linked l s t) (h' : Linked l s' t') (h1 : OneBeginReq l)
    (hx : x ∈ requests (eventsOf t)) (hs : s' ≠ s) (hb : ∀ k p a d r, o ≠ .beginReq k p s' a d r)
    (ho : ∀ k, x.serial ≠ k → o.phase k = none ∧ o ≠ .targetRelease k) : Elsewhere o s' t' := by
  have hne : ∀ y ∈ requests (eventsOf t'), x.serial ≠ y.serial := by
    intro y hy he
    exact hs (h.eq_of_serial h' h1 hx hy he.symm).2
  exact ⟨hb, fun y hy => (ho _ (hne y hy)).1, fun y hy => (ho _ (hne y hy)).2⟩

end Linked

end Gem5Wrapper
