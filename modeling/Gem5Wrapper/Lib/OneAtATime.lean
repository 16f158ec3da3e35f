import Mathlib.Data.List.Nodup
import Mathlib.Tactic.Common

/-!
# A server of one request at a time

A client requests, the server grants one request, works on it, answers, and the answer closes
before the next request is granted. The client may request again as soon as its last request is
granted, so one more request can wait. Some answers leave the client with an acknowledgement to
send (`owed`).

`Serves w st l` says that the server and its client follow this protocol in the history `l`,
newest first, and end with the request `w` waiting and the work at stage `st`. `MayRequest` and
`MayAck` are the rules of the client, in terms of the history alone.
-/

namespace OneAtATime

variable {α : Type*} {x y : α}

inductive Event (α : Type*)
  | request (x : α)
  | grant (x : α)
  | start (x : α)
  | finish (x : α)
  | answer (x : α) (owed : Bool)
  | ack (x : α)
  | close (x : α)
  deriving DecidableEq, Repr

/-- How far the work on the granted request is. -/
inductive Stage (α : Type*)
  | idle
  | granted (x : α)
  | started (x : α)
  | finished (x : α)
  | answered (x : α) (owed : Bool)

/-! ## What a history says -/

def requests : List (Event α) → List α := List.filterMap fun | .request x => some x | _ => none
def grants : List (Event α) → List α := List.filterMap fun | .grant x => some x | _ => none
def starts : List (Event α) → List α := List.filterMap fun | .start x => some x | _ => none
def finishes : List (Event α) → List α := List.filterMap fun | .finish x => some x | _ => none
def answers : List (Event α) → List α := List.filterMap fun | .answer x _ => some x | _ => none
def owed : List (Event α) → List α := List.filterMap fun | .answer x true => some x | _ => none
def acks : List (Event α) → List α := List.filterMap fun | .ack x => some x | _ => none
def closes : List (Event α) → List α := List.filterMap fun | .close x => some x | _ => none

theorem requests_suffix {l l' : List (Event α)} (h : l <:+ l') : requests l <:+ requests l' :=
  h.filterMap _

/-- The client requests something new, when all it has requested is granted. -/
def MayRequest (l : List (Event α)) (x : α) : Prop :=
  x ∉ requests l ∧ ∀ y ∈ requests l, y ∈ grants l

/-- The client acknowledges an answer that asks for it, once. -/
def MayAck (l : List (Event α)) (x : α) : Prop := x ∈ owed l ∧ x ∉ acks l

instance [DecidableEq α] (l : List (Event α)) (x : α) : Decidable (MayRequest l x) :=
  inferInstanceAs (Decidable (_ ∧ _))

instance [DecidableEq α] (l : List (Event α)) (x : α) : Decidable (MayAck l x) :=
  inferInstanceAs (Decidable (_ ∧ _))

/-- The histories of the protocol, with the request that waits and the stage of the work. -/
inductive Serves : Option α → Stage α → List (Event α) → Prop
  | nil : Serves none .idle []
  | request {st : Stage α} {l : List (Event α)} {x : α} :
      Serves none st l → x ∉ requests l → Serves (some x) st (.request x :: l)
  | grant {l : List (Event α)} {x : α} :
      Serves (some x) .idle l → Serves none (.granted x) (.grant x :: l)
  | start {w : Option α} {l : List (Event α)} {x : α} :
      Serves w (.granted x) l → Serves w (.started x) (.start x :: l)
  | finish {w : Option α} {l : List (Event α)} {x : α} :
      Serves w (.started x) l → Serves w (.finished x) (.finish x :: l)
  | answer {w : Option α} {l : List (Event α)} {x : α} (owed : Bool) :
      Serves w (.finished x) l → Serves w (.answered x owed) (.answer x owed :: l)
  | ack {w : Option α} {l : List (Event α)} {x : α} :
      Serves w (.answered x true) l → Serves w (.answered x false) (.ack x :: l)
  | close {w : Option α} {l : List (Event α)} {x : α} :
      Serves w (.answered x false) l → Serves w .idle (.close x :: l)

namespace Stage

/-- The request that is granted and not closed, if the work has come as far as the name says. -/
def granted? : Stage α → List α
  | idle => []
  | granted x | started x | finished x | answered x _ => [x]

def started? : Stage α → List α
  | started x | finished x | answered x _ => [x]
  | _ => []

def finished? : Stage α → List α
  | finished x | answered x _ => [x]
  | _ => []

def answered? : Stage α → List α
  | answered x _ => [x]
  | _ => []

/-- The request whose answer the client has yet to acknowledge. -/
def owed? : Stage α → List α
  | answered x true => [x]
  | _ => []

/-- The request whose answer is acknowledged, or needs no acknowledgement, and not closed yet. -/
def acked? : Stage α → List α
  | answered x false => [x]
  | _ => []

end Stage

variable {w w' : Option α} {st st' : Stage α} {l l' : List (Event α)}

/-- What has happened, in terms of what is closed: all in the order of the requests. -/
structure Ordered (w : Option α) (st : Stage α) (l : List (Event α)) : Prop where
  requests : requests l = w.toList ++ st.granted? ++ closes l
  grants : grants l = st.granted? ++ closes l
  starts : starts l = st.started? ++ closes l
  finishes : finishes l = st.finished? ++ closes l
  answers : answers l = st.answered? ++ closes l
  nodup : (OneAtATime.requests l).Nodup

theorem Serves.ordered (h : Serves w st l) : Ordered w st l := by
  induction h with
  | nil => exact ⟨rfl, rfl, rfl, rfl, rfl, List.nodup_nil⟩
  | request h hx ih =>
    exact ⟨congrArg _ ih.requests, ih.grants, ih.starts, ih.finishes, ih.answers,
      List.nodup_cons.2 ⟨hx, ih.nodup⟩⟩
  | grant h ih =>
    exact ⟨ih.requests, congrArg _ ih.grants, ih.starts, ih.finishes, ih.answers, ih.nodup⟩
  | start h ih =>
    exact ⟨ih.requests, ih.grants, congrArg _ ih.starts, ih.finishes, ih.answers, ih.nodup⟩
  | finish h ih =>
    exact ⟨ih.requests, ih.grants, ih.starts, congrArg _ ih.finishes, ih.answers, ih.nodup⟩
  | answer owed h ih =>
    exact ⟨ih.requests, ih.grants, ih.starts, ih.finishes, congrArg _ ih.answers, ih.nodup⟩
  | ack h ih =>
    exact ⟨ih.requests, ih.grants, ih.starts, ih.finishes, ih.answers, ih.nodup⟩
  | close h ih =>
    exact ⟨ih.requests.trans (by simp [Stage.granted?, closes]), ih.grants, ih.starts, ih.finishes,
      ih.answers, ih.nodup⟩

/-! ## The client -/

/-- A client that may request has no request waiting. -/
theorem Serves.eq_none (h : Serves w st l) (hr : MayRequest l x) : w = none := by
  obtain ⟨hreq, hgr, -, -, -, hnd⟩ := h.ordered
  cases w with
  | none => rfl
  | some y =>
    have hy : y ∈ requests l := by simp [hreq]
    have hg : y ∈ st.granted? ++ closes l := hgr ▸ hr.2 y hy
    rw [hreq, Option.toList_some, List.append_assoc, List.singleton_append, List.nodup_cons] at hnd
    exact absurd hg hnd.1

theorem Serves.owed (h : Serves w st l) (hx : x ∈ owed l) : x ∈ acks l ∨ st = .answered x true := by
  induction h with
  | nil => cases hx
  | request _ _ ih => exact ih hx
  | answer owed _ ih =>
    cases owed with
    | false => exact .inl ((ih hx).resolve_right (by simp))
    | true =>
      obtain rfl | hx := List.mem_cons.1 hx
      · exact .inr rfl
      · exact .inl ((ih hx).resolve_right (by simp))
  | ack _ ih =>
    obtain h | h := ih hx
    · exact .inl (List.mem_cons_of_mem _ h)
    · obtain ⟨rfl, -⟩ := Stage.answered.inj h
      exact .inl (List.mem_cons_self ..)
  | _ _ ih => exact .inl ((ih hx).resolve_right (by simp))

/-- A client that may acknowledge has been answered, and has not acknowledged yet. -/
theorem Serves.eq_answered (h : Serves w st l) (ha : MayAck l x) : st = .answered x true :=
  (h.owed ha.1).resolve_left ha.2

/-- The history before a grant. -/
theorem Serves.of_grant (h : Serves w st (.grant x :: l)) : x ∈ requests l ∧ x ∉ grants l := by
  cases h with
  | grant h =>
    obtain ⟨hreq, hgr, -, -, -, hnd⟩ := h.ordered
    rw [hreq, List.append_assoc] at hnd ⊢
    rw [hgr]
    refine ⟨List.mem_append_left _ (by simp), fun hx => ?_⟩
    exact List.disjoint_of_nodup_append hnd (by simp) hx

/-- The history before an answer: the other answers have been closed. -/
theorem Serves.of_answer {b : Bool} (h : Serves w st (.answer x b :: l)) :
    x ∈ grants l ∧ x ∉ answers l ∧ ∀ y ∈ answers l, y ∈ closes l := by
  cases h with
  | answer _ h =>
    obtain ⟨hreq, hgr, -, -, hans, hnd⟩ := h.ordered
    rw [hreq, List.append_assoc] at hnd
    have hx := (List.nodup_append.1 hnd).2.1
    rw [hgr, hans]
    refine ⟨List.mem_append_left _ (by simp [Stage.granted?]), fun hc => ?_, fun y hy => hy⟩
    exact List.disjoint_of_nodup_append hx (by simp [Stage.granted?]) hc

theorem owed_of_answers (ha : ∀ x, .answer x false ∉ l) (hx : x ∈ answers l) : x ∈ owed l := by
  obtain ⟨e, he, hx⟩ := List.mem_filterMap.1 hx
  cases e <;> cases hx
  rename_i b
  cases b with
  | true => exact List.mem_filterMap.2 ⟨_, he, rfl⟩
  | false => exact absurd he (ha x)

/-- If every answer asks for an acknowledgement, what is closed has been acknowledged. -/
theorem Serves.acked (h : Serves w st l) (ha : ∀ x, .answer x false ∉ l) :
    (∀ x ∈ closes l, x ∈ acks l) ∧ ∀ x, st = .answered x false → x ∈ acks l := by
  induction h with
  | nil => refine ⟨fun _ hx => ?_, fun _ hx => ?_⟩ <;> cases hx
  | answer owed h ih =>
    obtain ⟨hc, -⟩ := ih fun x hx => ha x (List.mem_cons_of_mem _ hx)
    refine ⟨hc, fun x hx => ?_⟩
    obtain ⟨rfl, rfl⟩ := Stage.answered.inj hx
    exact absurd List.mem_cons_self (ha _)
  | ack h ih =>
    obtain ⟨hc, -⟩ := ih fun x hx => ha x (List.mem_cons_of_mem _ hx)
    refine ⟨fun x hx => List.mem_cons_of_mem _ (hc x hx), fun x hx => ?_⟩
    obtain ⟨rfl, -⟩ := Stage.answered.inj hx
    exact List.mem_cons_self
  | close h ih =>
    obtain ⟨hc, hst⟩ := ih fun x hx => ha x (List.mem_cons_of_mem _ hx)
    refine ⟨fun x hx => ?_, fun _ hx => by cases hx⟩
    obtain rfl | hx := List.mem_cons.1 hx
    · exact hst _ rfl
    · exact hc x hx
  | request h _ ih =>
    obtain ⟨hc, hst⟩ := ih fun x hx => ha x (List.mem_cons_of_mem _ hx)
    exact ⟨hc, hst⟩
  | _ h ih =>
    obtain ⟨hc, -⟩ := ih fun x hx => ha x (List.mem_cons_of_mem _ hx)
    exact ⟨hc, fun _ hx => by cases hx⟩

/-- If every answer asks for an acknowledgement, they are acknowledged in the order of the
answers, and the last one is closed next. -/
theorem Serves.acks_eq (h : Serves w st l) (ha : ∀ x, .answer x false ∉ l) :
    acks l = st.acked? ++ closes l := by
  induction h with
  | nil => rfl
  | request h _ ih => exact ih fun x hx => ha x (List.mem_cons_of_mem _ hx)
  | answer owed h ih =>
    cases owed with
    | true => exact ih fun x hx => ha x (List.mem_cons_of_mem _ hx)
    | false => exact absurd List.mem_cons_self (ha _)
  | ack h ih => exact congrArg _ (ih fun x hx => ha x (List.mem_cons_of_mem _ hx))
  | _ h ih => exact ih fun x hx => ha x (List.mem_cons_of_mem _ hx)

/-! ## At every moment -/

theorem Serves.tail {e : Event α} (h : Serves w st (e :: l)) : ∃ w' st', Serves w' st' l := by
  cases h <;> exact ⟨_, _, ‹_›⟩

theorem Serves.of_suffix (h : Serves w st l) (hs : l' <:+ l) : ∃ w' st', Serves w' st' l' := by
  obtain ⟨l₁, rfl⟩ := hs
  induction l₁ generalizing w st with
  | nil => exact ⟨w, st, h⟩
  | cons e l₁ ih =>
    obtain ⟨w', st', h'⟩ := h.tail
    exact ih h'

theorem Serves.grants_suffix (h : Serves w st l) : grants l <:+ requests l := by
  rw [h.ordered.requests, h.ordered.grants, List.append_assoc]
  exact List.suffix_append ..

theorem Serves.starts_suffix (h : Serves w st l) : starts l <:+ grants l := by
  rw [h.ordered.grants, h.ordered.starts]
  cases st <;> simp [Stage.granted?, Stage.started?]

theorem Serves.finishes_suffix (h : Serves w st l) : finishes l <:+ starts l := by
  rw [h.ordered.starts, h.ordered.finishes]
  cases st <;> simp [Stage.started?, Stage.finished?]

theorem Serves.answers_suffix (h : Serves w st l) : answers l <:+ finishes l := by
  rw [h.ordered.finishes, h.ordered.answers]
  cases st <;> simp [Stage.finished?, Stage.answered?]

theorem Serves.acks_suffix (h : Serves w st l) (ha : ∀ x, .answer x false ∉ l) :
    acks l <:+ answers l := by
  rw [h.acks_eq ha, h.ordered.answers]
  cases st with
  | answered x owed => cases owed <;> simp [Stage.acked?, Stage.answered?]
  | _ => exact List.suffix_rfl

/-- One request is worked on, and one waits. -/
theorem Serves.length_requests_le (h : Serves w st l) :
    (requests l).length ≤ (closes l).length + 2 := by
  have hw : w.toList.length ≤ 1 := by cases w <;> simp
  have hst : st.granted?.length ≤ 1 := by cases st <;> simp [Stage.granted?]
  rw [h.ordered.requests, List.length_append, List.length_append]
  omega

/-- What is granted and not closed is one request. -/
theorem Serves.unique (h : Serves w st l) (hx : x ∈ grants l) (hx' : x ∉ closes l)
    (hy : y ∈ grants l) (hy' : y ∉ closes l) : x = y := by
  rw [h.ordered.grants, List.mem_append] at hx hy
  have hx := hx.resolve_right hx'
  have hy := hy.resolve_right hy'
  cases st <;> simp_all [Stage.granted?]

/-! ## The course of a request -/

section Course

variable [DecidableEq α]

/-- The events of a request until its answer is acknowledged. -/
def Event.about (x : α) : Event α → Bool
  | .request y | .grant y | .start y | .finish y | .answer y _ | .ack y => y = x
  | .close _ => false

/-- What has happened to a request until its answer is acknowledged, newest first. -/
def course (x : α) (l : List (Event α)) : List (Event α) := l.filter (Event.about x)

theorem course_cons (e : Event α) (l : List (Event α)) :
    course x (e :: l) = if e.about x = true then e :: course x l else course x l :=
  List.filter_cons

/-- The course of a request whose answer is acknowledged. -/
def wholeCourse (x : α) : List (Event α) :=
  [.ack x, .answer x true, .finish x, .start x, .grant x, .request x]

/-- The course of a request that is granted and whose answer is not acknowledged yet. -/
inductive Stage.Course : Stage α → α → List (Event α) → Prop
  | granted {x : α} : Course (.granted x) x [.grant x, .request x]
  | started {x : α} : Course (.started x) x [.start x, .grant x, .request x]
  | finished {x : α} : Course (.finished x) x [.finish x, .start x, .grant x, .request x]
  | answered {x : α} : Course (.answered x true) x
      [.answer x true, .finish x, .start x, .grant x, .request x]

/-- What has happened to the requests of a history. -/
structure Courses (w : Option α) (st : Stage α) (l : List (Event α)) : Prop where
  new : ∀ x, x ∉ requests l → course x l = []
  waiting : ∀ x ∈ w, course x l = [.request x]
  working : ∀ x c, st.Course x c → course x l = c
  acked : ∀ x ∈ acks l, course x l = wholeCourse x

namespace Courses

/-- Requests with different courses are different. -/
theorem ne (hx : course x l ≠ course y l) : x ≠ y := fun hxy => hx (congrArg (course · l) hxy)

/-- The course of request `y` goes on, and the others stay. -/
theorem cons {e : Event α} (h : Courses w st l) (he : ∀ x, e.about x = true ↔ x = y)
    (hn : ∀ x ∉ requests (e :: l), x ∉ requests l ∧ x ≠ y)
    (hw : ∀ x ∈ w', x ∈ w ∧ x ≠ y ∨ x = y ∧ e :: course y l = [.request x])
    (hst : ∀ x c, st'.Course x c → st.Course x c ∧ x ≠ y ∨ x = y ∧ e :: course y l = c)
    (ha : ∀ x ∈ acks (e :: l), x ∈ acks l ∧ x ≠ y ∨ x = y ∧ e :: course y l = wholeCourse x) :
    Courses w' st' (e :: l) := by
  have hself : course y (e :: l) = e :: course y l := by
    rw [course_cons, if_pos ((he y).2 rfl)]
  have hother : ∀ x, x ≠ y → course x (e :: l) = course x l := by
    intro x hx
    rw [course_cons, if_neg fun hn => hx ((he x).1 hn)]
  refine ⟨fun x hx => ?_, fun x hx => ?_, fun x c hx => ?_, fun x hx => ?_⟩
  · obtain ⟨hx, hne⟩ := hn x hx
    exact (hother x hne).trans (h.new x hx)
  · obtain ⟨hx, hne⟩ | ⟨rfl, hx⟩ := hw x hx
    · exact (hother x hne).trans (h.waiting x hx)
    · exact hself.trans hx
  · obtain ⟨hx, hne⟩ | ⟨rfl, hx⟩ := hst x c hx
    · exact (hother x hne).trans (h.working x c hx)
    · exact hself.trans hx
  · obtain ⟨hx, hne⟩ | ⟨rfl, hx⟩ := ha x hx
    · exact (hother x hne).trans (h.acked x hx)
    · exact hself.trans hx

/-- The course `c` of the request `y` that the server works on goes on. -/
theorem work {e : Event α} {c : List (Event α)} (h : Courses w st l) (hc : course y l = c)
    (he : ∀ x, e.about x = true ↔ x = y) (hr : requests (e :: l) = requests l)
    (hw : ∀ x ∈ w', x ∈ w ∧ c ≠ [.request x]) (hst : ∀ x c', st'.Course x c' → x = y ∧ e :: c = c')
    (hne : c ≠ [] ∧ c ≠ wholeCourse y)
    (ha : ∀ x ∈ acks (e :: l), x ∈ acks l ∨ x = y ∧ e :: c = wholeCourse x) :
    Courses w' st' (e :: l) := by
  subst hc
  have hacked : ∀ x ∈ acks l, x ≠ y := by
    rintro x hx rfl
    exact hne.2 (h.acked x hx)
  refine h.cons he (fun x hx => ?_) (fun x hx => ?_) (fun x c hx => .inr (hst x c hx))
    fun x hx => ?_
  · rw [hr] at hx
    refine ⟨hx, ?_⟩
    rintro rfl
    exact hne.1 (h.new x hx)
  · refine .inl ⟨(hw x hx).1, ?_⟩
    rintro rfl
    exact (hw x hx).2 (h.waiting x (hw x hx).1)
  · exact (ha x hx).imp (fun hx => ⟨hx, hacked x hx⟩) id

end Courses

theorem Serves.courses (h : Serves w st l) : Courses w st l := by
  induction h with
  | nil =>
    refine ⟨fun _ _ => rfl, fun _ h => ?_, fun _ _ h => ?_, fun _ h => ?_⟩ <;> cases h
  | @request st l y h hy ih =>
    have hnew := ih.new y hy
    refine ih.cons (y := y) ?_ ?_ ?_ ?_ ?_
    · simp [Event.about, eq_comm]
    · intro x hx
      simpa [requests, and_comm] using hx
    · intro x hx
      obtain rfl := Option.some.inj hx
      exact .inr ⟨rfl, by rw [hnew]⟩
    · intro x c hx
      refine .inl ⟨hx, Courses.ne (l := l) ?_⟩
      rw [hnew, ih.working x c hx]
      cases hx <;> simp
    · intro x hx
      refine .inl ⟨hx, Courses.ne (l := l) ?_⟩
      rw [hnew, ih.acked x hx]
      simp [wholeCourse]
  | grant h ih =>
    refine ih.work (ih.waiting _ rfl) (by simp [Event.about, eq_comm]) rfl (by simp) ?_
      (by simp [wholeCourse]) fun _ => .inl
    rintro _ _ ⟨⟩
    exact ⟨rfl, rfl⟩
  | start h ih =>
    refine ih.work (ih.working _ _ .granted) (by simp [Event.about, eq_comm]) rfl
      (fun x hx => ⟨hx, by simp⟩) ?_ (by simp [wholeCourse]) fun _ => .inl
    rintro _ _ ⟨⟩
    exact ⟨rfl, rfl⟩
  | finish h ih =>
    refine ih.work (ih.working _ _ .started) (by simp [Event.about, eq_comm]) rfl
      (fun x hx => ⟨hx, by simp⟩) ?_ (by simp [wholeCourse]) fun _ => .inl
    rintro _ _ ⟨⟩
    exact ⟨rfl, rfl⟩
  | answer owed h ih =>
    refine ih.work (ih.working _ _ .finished) (by simp [Event.about, eq_comm]) rfl
      (fun x hx => ⟨hx, by simp⟩) ?_ (by simp [wholeCourse]) fun _ => .inl
    rintro _ _ ⟨⟩
    exact ⟨rfl, rfl⟩
  | ack h ih =>
    refine ih.work (ih.working _ _ .answered) (by simp [Event.about, eq_comm]) rfl
      (fun x hx => ⟨hx, by simp⟩) ?_ (by simp [wholeCourse]) fun x hx => ?_
    · rintro _ _ ⟨⟩
    · obtain rfl | hx := List.mem_cons.1 hx
      · exact .inr ⟨rfl, rfl⟩
      · exact .inl hx
  | close h ih =>
    refine ⟨ih.new, ih.waiting, ?_, ih.acked⟩
    rintro _ _ ⟨⟩

end Course

end OneAtATime
