import Mathlib.Data.Int.Order.Basic
import Mathlib.Data.List.Basic
import Mathlib.Data.List.Perm.Subperm

namespace TokenGateway.Base

open List

/-!
# Sliding windows

A log of times, and the windows of a fixed length over it.

* `inWindow`, `recent` — the times in a window, and those that are not yet too old;
* `Sparse` — no window has more than `n` times, and `Sparse.cons`;
* `Covers` — a queue that has forgotten only what is too old.
-/

/-- The times in the window of length `d` that starts at `a`. -/
def inWindow (a d : Int) (times : List Int) : List Int := times.filter fun t => a ≤ t ∧ t < a + d

/-- The times that are less than `d` old. -/
def recent (now d : Int) (times : List Int) : List Int := times.filter fun t => now - t < d

variable {now now' d t : Int} {n : Nat} {times queue : List Int}

theorem recent_recent (h : now ≤ now') :
    recent now' d (recent now d times) = recent now' d times := by
  rw [recent, recent, filter_filter]
  refine filter_congr fun t _ => ?_
  rw [Bool.and_eq_left_iff_imp, decide_eq_true_eq, decide_eq_true_eq]
  omega

theorem recent_append : recent now d (times ++ queue) = recent now d times ++ recent now d queue :=
  filter_append ..

theorem recent_length_le (h : now ≤ now') :
    (recent now' d times).length ≤ (recent now d times).length := by
  rw [← recent_recent h]
  exact length_filter_le _ _

/-- In a sorted log the recent times are those after the first recent one. -/
theorem dropWhile_eq_recent (h : times.Pairwise (· ≤ ·)) :
    (times.dropWhile fun t => now - t ≥ d) = recent now d times := by
  induction times with
  | nil => rfl
  | cons t rest ih =>
    obtain ⟨hfirst, hrest⟩ := pairwise_cons.mp h
    unfold recent
    rw [dropWhile_cons, filter_cons]
    by_cases hold : now - t ≥ d
    · rw [if_pos (by simpa using hold), if_neg (by simpa using hold)]
      exact ih hrest
    rw [if_neg (by simpa using hold), if_pos (by simpa using hold)]
    refine congrArg (t :: ·) (filter_eq_self.mpr fun later hlater => ?_).symm
    have := hfirst later hlater
    rw [decide_eq_true_eq]
    omega

/-- No window of length `d` has more than `n` of the times. -/
def Sparse (n : Nat) (d : Int) (times : List Int) : Prop := ∀ a, (inWindow a d times).length ≤ n

theorem Sparse.nil : Sparse n d [] := fun _ => Nat.zero_le n

theorem Sparse.subperm {times' : List Int} (h : Sparse n d times) (hsub : times' <+~ times) :
    Sparse n d times' :=
  fun a => Nat.le_trans (hsub.filter _).length_le (h a)

/-- A time is added when less than `n` others are recent. -/
theorem Sparse.cons (h : Sparse n d times) (hnow : (recent now d times).length < n) :
    Sparse n d (now :: times) := by
  intro a
  unfold inWindow
  rw [filter_cons]
  split_ifs with hin
  · rw [decide_eq_true_eq] at hin
    -- what shares a window with `now` is recent
    have hsub : (inWindow a d times).Sublist (recent now d times) := by
      refine monotone_filter_right _ fun t ht => ?_
      rw [decide_eq_true_eq] at ht ⊢
      omega
    exact Nat.succ_le_of_lt (Nat.lt_of_le_of_lt hsub.length_le hnow)
  · exact h a

/-- From `now` on, as many entries of the queue as of the log are recent. -/
def Covers (now d : Int) (times queue : List Int) : Prop :=
  ∀ now', now ≤ now' → (recent now' d times).length ≤ (recent now' d queue).length

namespace Covers

theorem nil : Covers now d [] queue := fun _ _ => Nat.zero_le _

section

variable (h : Covers now d times queue)
include h

theorem later (hnow : now ≤ now') : Covers now' d times queue :=
  fun later hlater => h later (Int.le_trans hnow hlater)

theorem pruned : Covers now d times (recent now d queue) := by
  intro now' hnow
  rw [recent_recent hnow]
  exact h now' hnow

theorem cleared (hold : recent now d queue = []) : Covers now d times [] := hold ▸ h.pruned

theorem more (t : Int) : Covers now d times (queue ++ [t]) := by
  intro now' hnow
  rw [recent_append, length_append]
  exact Nat.le_add_right_of_le (h now' hnow)

theorem push (t : Int) : Covers now d (t :: times) (queue ++ [t]) := by
  intro now' hnow
  have hle := h now' hnow
  rw [recent_append, ← singleton_append, recent_append, length_append, length_append]
  omega

end

end Covers

end TokenGateway.Base
