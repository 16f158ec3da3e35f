import Mathlib.Data.Nat.Basic
import Mathlib.Tactic.Common

/-!
# Notifications

An event of a discrete-event kernel has at most one pending notification: in the next delta cycle,
or at a later time. Of two notifications the earlier one stays.

`Pending.By t` says that the event is notified at `t` at the latest. Time may pass to `t` when
every event allows it (`Pending.Allows`), so what is notified in time is triggered in time
(`Pending.By.advance`).
-/

namespace Notification

/-- The pending notification of an event. -/
inductive Pending
  | none
  | delta
  | timed (t : ℕ)
  deriving DecidableEq, Repr

namespace Pending

/-- Notify the event after `d` units of time, or in the next delta cycle if `d` is zero. -/
def notify (now d : ℕ) (p : Pending) : Pending :=
  if d = 0 then delta
  else match p with
    | none => timed (now + d)
    | delta => delta
    | timed t => timed (min t (now + d))

/-- The event is notified at `t` at the latest. -/
def By (t : ℕ) : Pending → Prop
  | none => False
  | delta => True
  | timed u => u ≤ t

/-- Time may pass to `t`. -/
def Allows (t : ℕ) : Pending → Prop
  | none => True
  | delta => False
  | timed u => t ≤ u

instance (t : ℕ) : (p : Pending) → Decidable (p.By t)
  | none => .isFalse id
  | delta => .isTrue trivial
  | timed u => inferInstanceAs (Decidable (u ≤ t))

instance (t : ℕ) : (p : Pending) → Decidable (p.Allows t)
  | none => .isTrue trivial
  | delta => .isFalse id
  | timed u => inferInstanceAs (Decidable (t ≤ u))

/-- What stays pending when time has passed to `t`. -/
def after (t : ℕ) (p : Pending) : Pending := if p = timed t then none else p

/-- What stays pending in the next delta cycle. -/
def afterDelta (p : Pending) : Pending := if p = delta then none else p

variable {p : Pending} {now d t u : ℕ}

/-- A further notification only makes it earlier. -/
theorem By.notify (h : p.By t) : (p.notify now d).By t := by
  unfold Pending.notify
  split_ifs
  · trivial
  · cases p with
    | none => exact h.elim
    | delta => trivial
    | timed u => exact Nat.le_trans (Nat.min_le_left ..) h

theorem by_notify (h : now + d ≤ t) : (p.notify now d).By t := by
  unfold Pending.notify
  split_ifs
  · trivial
  · cases p with
    | none => exact h
    | delta => trivial
    | timed u => exact Nat.le_trans (Nat.min_le_right ..) h

/-- Time does not pass beyond a notification. -/
theorem By.le (h : p.By u) (ha : p.Allows t) : t ≤ u := by
  cases p with
  | none => exact h.elim
  | delta => exact ha.elim
  | timed v => exact Nat.le_trans ha h

/-- What is notified in time is triggered now, or still notified in time. -/
theorem By.advance (h : p.By u) : p = timed t ∨ (p.after t).By u := by
  unfold after
  split_ifs with hp
  · exact .inl hp
  · exact .inr h

theorem By.afterDelta (h : p.By u) : p = delta ∨ (p.afterDelta).By u := by
  unfold Pending.afterDelta
  split_ifs with hp
  · exact .inl hp
  · exact .inr h

end Pending

end Notification
