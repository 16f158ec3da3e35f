import Mathlib.Data.List.Perm.Basic
import Gem5Wrapper.Lib.OneAtATime

/-!
# A server with many requests inside

The client and the events are those of `OneAtATime`, but the server grants a request without
waiting for the answer to the one before. Requests are granted one at a time, answers are given
one at a time, in any order, and any number of requests is inside.

`Pipelines w ins ch l` says that the protocol has been followed in the history `l` and ends with
the request `w` waiting, the requests `ins` granted and not answered, and the channel of the
answers at `ch`.
-/

namespace TwoChannels

open OneAtATime

variable {α : Type*}

/-- The channel of the answers: free, or taken by the answer to a request. -/
inductive Channel (α : Type*)
  | free
  | busy (x : α) (owed : Bool)

namespace Channel

def toList : Channel α → List α
  | free => []
  | busy x _ => [x]

/-- The request whose acknowledgement is on its way. -/
def closing : Channel α → List α
  | busy x false => [x]
  | _ => []

def isBusy : Channel α → Bool
  | free => false
  | busy _ _ => true

theorem length_closing_le (ch : Channel α) : ch.closing.length ≤ 1 := by
  unfold closing; split <;> simp

/-- The acknowledgement that is on its way is the one of the channel. -/
theorem eq_busy_of_closing {ch : Channel α} {x : α} {l : List α} (h : ch.closing.Perm (x :: l)) :
    ch = .busy x false ∧ l = [] := by
  unfold closing at h
  split at h
  · obtain ⟨rfl, rfl⟩ := List.cons_eq_cons.1 (List.perm_singleton.1 h.symm)
    exact ⟨rfl, rfl⟩
  · exact absurd (List.perm_nil.1 h.symm) (by simp)

end Channel

inductive Pipelines [DecidableEq α] : Option α → List α → Channel α → List (Event α) → Prop
  | nil : Pipelines none [] .free []
  | request {ins : List α} {ch : Channel α} {l : List (Event α)} {x : α} :
      Pipelines none ins ch l → x ∉ requests l → Pipelines (some x) ins ch (.request x :: l)
  | grant {ins : List α} {ch : Channel α} {l : List (Event α)} {x : α} :
      Pipelines (some x) ins ch l → Pipelines none (x :: ins) ch (.grant x :: l)
  | answer {w : Option α} {ins : List α} {l : List (Event α)} {x : α} (owed : Bool) :
      Pipelines w ins .free l → x ∈ ins →
      Pipelines w (ins.erase x) (.busy x owed) (.answer x owed :: l)
  | ack {w : Option α} {ins : List α} {l : List (Event α)} {x : α} :
      Pipelines w ins (.busy x true) l → Pipelines w ins (.busy x false) (.ack x :: l)
  | close {w : Option α} {ins : List α} {l : List (Event α)} {x : α} :
      Pipelines w ins (.busy x false) l → Pipelines w ins .free (.close x :: l)

variable [DecidableEq α] {w : Option α} {ins : List α} {ch : Channel α} {l l' : List (Event α)}
  {x y : α}

structure Ordered (w : Option α) (ins : List α) (ch : Channel α) (l : List (Event α)) : Prop where
  requests : requests l = w.toList ++ grants l
  grants : (OneAtATime.grants l).Perm (ins ++ answers l)
  answers : answers l = ch.toList ++ closes l
  nodup : (OneAtATime.requests l).Nodup

theorem Pipelines.ordered (h : Pipelines w ins ch l) : Ordered w ins ch l := by
  induction h with
  | nil => exact ⟨rfl, .refl _, rfl, List.nodup_nil⟩
  | request h hx ih =>
    exact ⟨congrArg _ ih.requests, ih.grants, ih.answers, List.nodup_cons.2 ⟨hx, ih.nodup⟩⟩
  | grant h ih => exact ⟨ih.requests, ih.grants.cons _, ih.answers, ih.nodup⟩
  | @answer w ins l x owed h hx ih =>
    refine ⟨ih.requests, ?_, congrArg _ ih.answers, ih.nodup⟩
    have hp : (ins ++ answers l).Perm (ins.erase x ++ x :: answers l) :=
      ((List.perm_cons_erase hx).append_right _).trans List.perm_middle.symm
    exact ih.grants.trans hp
  | ack h ih => exact ⟨ih.requests, ih.grants, ih.answers, ih.nodup⟩
  | close h ih => exact ⟨ih.requests, ih.grants, ih.answers, ih.nodup⟩

/-! ## The client -/

theorem Pipelines.eq_none (h : Pipelines w ins ch l) (hr : MayRequest l x) : w = none := by
  obtain ⟨hreq, -, -, hnd⟩ := h.ordered
  cases w with
  | none => rfl
  | some y =>
    have hy : y ∈ grants l := hr.2 y (by simp [hreq])
    rw [hreq, Option.toList_some, List.singleton_append, List.nodup_cons] at hnd
    exact absurd hy hnd.1

theorem Pipelines.owed (h : Pipelines w ins ch l) (hx : x ∈ owed l) :
    x ∈ acks l ∨ ch = .busy x true := by
  induction h with
  | nil => cases hx
  | request _ _ ih => exact ih hx
  | grant _ ih => exact ih hx
  | answer owed _ _ ih =>
    cases owed with
    | false => exact .inl ((ih hx).resolve_right (by simp))
    | true =>
      obtain rfl | hx := List.mem_cons.1 hx
      · exact .inr rfl
      · exact .inl ((ih hx).resolve_right (by simp))
  | ack _ ih =>
    obtain h | h := ih hx
    · exact .inl (List.mem_cons_of_mem _ h)
    · obtain ⟨rfl, -⟩ := Channel.busy.inj h
      exact .inl (List.mem_cons_self ..)
  | close _ ih => exact .inl ((ih hx).resolve_right (by simp))

theorem Pipelines.eq_busy (h : Pipelines w ins ch l) (ha : MayAck l x) : ch = .busy x true :=
  (h.owed ha.1).resolve_left ha.2

/-! ## At every moment -/

theorem Pipelines.nodup_grants (h : Pipelines w ins ch l) : (grants l).Nodup := by
  have hnd := h.ordered.nodup
  rw [h.ordered.requests] at hnd
  exact (List.nodup_append.1 hnd).2.1

theorem Pipelines.nodup_ins (h : Pipelines w ins ch l) : (ins ++ answers l).Nodup :=
  h.ordered.grants.nodup_iff.1 h.nodup_grants

/-- What is inside has been granted. -/
theorem Pipelines.ins_subset (h : Pipelines w ins ch l) (hx : x ∈ ins) : x ∈ grants l :=
  h.ordered.grants.mem_iff.2 (List.mem_append_left _ hx)

/-- What waits is not inside. -/
theorem Pipelines.not_mem_ins (h : Pipelines (some x) ins ch l) : x ∉ ins := fun hx => by
  have hnd := h.ordered.nodup
  rw [h.ordered.requests, Option.toList_some, List.singleton_append, List.nodup_cons] at hnd
  exact hnd.1 (h.ins_subset hx)

/-- What is answered and not closed takes the channel. -/
theorem Pipelines.answered_iff (h : Pipelines w ins ch l) :
    x ∈ answers l ∧ x ∉ closes l ↔ x ∈ ch.toList := by
  have hnd := (List.nodup_append.1 h.nodup_ins).2.1
  rw [h.ordered.answers] at hnd ⊢
  constructor
  · rintro ⟨hx, hn⟩
    exact (List.mem_append.1 hx).resolve_right hn
  · exact fun hx => ⟨List.mem_append_left _ hx,
      fun hc => (List.nodup_append.1 hnd).2.2 _ hx _ hc rfl⟩

/-! ## The account -/

/-- The requests that have been granted and not answered. -/
def inside (l : List (Event α)) : List α := (OneAtATime.grants l).filter (· ∉ answers l)

/-- The requests whose answer takes the channel. -/
def answering (l : List (Event α)) : List α := (answers l).filter (· ∉ closes l)

theorem mem_inside : x ∈ inside l ↔ x ∈ grants l ∧ x ∉ answers l := by
  simp [inside, List.mem_filter]

/-- Without what is in the second part, the first part is left. -/
theorem filter_append_of_nodup {a b : List α} (h : (a ++ b).Nodup) :
    (a ++ b).filter (· ∉ b) = a := by
  have hdisj := (List.nodup_append.1 h).2.2
  rw [List.filter_append, List.filter_eq_self.2, List.filter_eq_nil_iff.2, List.append_nil]
  · intro y hy
    simpa using hy
  · intro y hy
    simpa using fun hb => hdisj y hy y hb rfl

theorem Pipelines.inside_perm (h : Pipelines w ins ch l) : (inside l).Perm ins := by
  have hp := h.ordered.grants.filter (· ∉ answers l)
  rwa [filter_append_of_nodup h.nodup_ins] at hp

theorem Pipelines.answering_eq (h : Pipelines w ins ch l) : answering l = ch.toList := by
  have hnd := (List.nodup_append.1 h.nodup_ins).2.1
  unfold answering
  rw [h.ordered.answers] at hnd ⊢
  exact filter_append_of_nodup hnd

/-- Each request is in one place: it waits, it is inside, its answer takes the channel, or it is
closed. -/
theorem Pipelines.account (h : Pipelines w ins ch l) :
    (requests l).Perm (w.toList ++ (inside l ++ (answering l ++ closes l))) := by
  rw [h.ordered.requests, h.answering_eq, ← h.ordered.answers]
  refine List.Perm.append_left _ (h.ordered.grants.trans ?_)
  exact h.inside_perm.symm.append_right _

theorem Pipelines.acks_subset (h : Pipelines w ins ch l) (hx : x ∈ acks l) : x ∈ answers l := by
  induction h with
  | nil => cases hx
  | request _ _ ih => exact ih hx
  | grant _ ih => exact ih hx
  | answer _ _ _ ih => exact List.mem_cons_of_mem _ (ih hx)
  | @ack w ins l y h ih =>
    obtain rfl | hx := List.mem_cons.1 hx
    · show x ∈ answers l
      rw [h.ordered.answers]
      exact List.mem_cons_self
    · exact ih hx
  | close _ ih => exact ih hx

/-- The client may acknowledge the answer that takes the channel, or has done so. -/
theorem Pipelines.mayAck (h : Pipelines w ins ch l) (hch : ch = .busy x true) : MayAck l x := by
  induction h with
  | nil => cases hch
  | request _ _ ih => exact ih hch
  | grant _ ih => exact ih hch
  | @answer w ins l y owed h hy ih =>
    obtain ⟨rfl, rfl⟩ := Channel.busy.inj hch
    refine ⟨List.mem_cons_self, fun hx => ?_⟩
    exact (List.nodup_append.1 h.nodup_ins).2.2 _ hy _ (h.acks_subset hx) rfl
  | ack _ ih => cases (Channel.busy.inj hch).2
  | close _ ih => cases hch

end TwoChannels
