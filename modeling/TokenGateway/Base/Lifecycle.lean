import Mathlib.Data.List.Basic
import Mathlib.Data.List.Range
import Mathlib.Logic.Function.Basic

namespace TokenGateway.Base

/-!
# Life cycles in a log

A log in which numbered items are started, used and stopped.  `κ` is what a start says about its
item and a use has to repeat.

* `Mark` — what an entry of the log says about an item;
* `phaseOf` — where an item stands, by a pass over the log;
* `phaseOf_eq_ended` — what it means that an item has ended.
-/

variable {κ : Type} [DecidableEq κ]

/-- What an entry says about an item. -/
inductive Mark (κ : Type) where
  | start (k : Nat) (kind : κ)
  | inside (k : Nat) (kind : κ)
  | stop (k : Nat)
  | other

/-- The item of an entry. -/
def Mark.item : Mark κ → Option Nat
  | .start k _ | .inside k _ | .stop k => some k
  | .other => none

/-- The item that an entry starts. -/
def Mark.started : Mark κ → Option Nat
  | .start k _ => some k
  | _ => none

/-- The phases of an item. -/
inductive Phase (κ : Type) where
  | unseen
  | live (kind : κ)
  | ended
  | broken

/-- The phase after an entry. -/
def Phase.step : Phase κ → Mark κ → Phase κ
  | .unseen, .start _ kind => .live kind
  | .live kind, .inside _ kind' => if kind = kind' then .live kind else .broken
  | .live _, .stop _ => .ended
  | _, _ => .broken

/-- Where item `k` stands at the end of a log. -/
def phaseOf (k : Nat) (log : List (Mark κ)) : Phase κ :=
  (log.filter fun mark => mark.item = some k).foldl Phase.step .unseen

theorem phaseOf_append_self {k : Nat} {mark : Mark κ} (h : mark.item = some k)
    (log : List (Mark κ)) : phaseOf k (log ++ [mark]) = (phaseOf k log).step mark := by
  simp [phaseOf, h]

/-- Only the entries about an item move it. -/
theorem phaseOf_append (k : Nat) (log more : List (Mark κ)) :
    phaseOf k (log ++ more) = (more.filter fun mark => mark.item = some k).foldl Phase.step
      (phaseOf k log) := by
  simp [phaseOf]

omit [DecidableEq κ] in
theorem filter_item {marks : List (Mark κ)} {n : Nat} (h : ∀ mark ∈ marks, mark.item = some n)
    (k : Nat) :
    marks.filter (fun mark => mark.item = some k) = if k = n then marks else [] := by
  split_ifs with hk
  · exact List.filter_eq_self.mpr fun mark hmark => by simp [h mark hmark, hk]
  · exact List.filter_eq_nil_iff.mpr fun mark hmark => by simp [h mark hmark, Ne.symm hk]

/-! ### What an ended item looks like -/

/-- A broken item stays broken. -/
theorem foldl_step_broken (marks : List (Mark κ)) : marks.foldl Phase.step .broken = .broken := by
  induction marks with
  | nil => rfl
  | cons mark rest ih => exact ih

/-- Nothing follows the end of an item. -/
theorem foldl_step_ended {marks : List (Mark κ)} (h : marks.foldl Phase.step .ended = .ended) :
    marks = [] := by
  cases marks with
  | nil => rfl
  | cons mark rest =>
    have hbroken : rest.foldl Phase.step .broken = .ended := h
    rw [foldl_step_broken] at hbroken
    cases hbroken

/-- A live item ends after uses of its kind. -/
theorem foldl_step_live {kind : κ} {marks : List (Mark κ)}
    (h : marks.foldl Phase.step (.live kind) = .ended) :
    ∃ uses k, marks = uses ++ [.stop k] ∧ ∀ mark ∈ uses, ∃ j, mark = .inside j kind := by
  induction marks with
  | nil => cases h
  | cons mark rest ih =>
    rw [List.foldl_cons] at h
    cases mark with
    | inside j kind' =>
      rw [Phase.step] at h
      split_ifs at h with hkind
      · obtain ⟨uses, k, rfl, huses⟩ := ih h
        refine ⟨.inside j kind' :: uses, k, rfl, ?_⟩
        rintro mark (_ | ⟨_, hmark⟩)
        · exact ⟨j, by rw [hkind]⟩
        · exact huses mark hmark
      · rw [foldl_step_broken] at h
        cases h
    | stop k =>
      have hrest := foldl_step_ended h
      exact ⟨[], k, by rw [hrest]; rfl, nofun⟩
    | start | other =>
      rw [Phase.step, foldl_step_broken] at h
      · cases h
      all_goals nofun

/-- An item that has ended was started once, then only used, with the kind of its start, and stopped
    once. -/
theorem phaseOf_eq_ended {k : Nat} {log : List (Mark κ)} (h : phaseOf k log = .ended) :
    ∃ kind uses, (log.filter fun mark => mark.item = some k) =
      [.start k kind] ++ uses ++ [.stop k] ∧ ∀ mark ∈ uses, mark = .inside k kind := by
  have hitem : ∀ mark ∈ log.filter fun mark => mark.item = some k, mark.item = some k :=
    fun mark hmark => of_decide_eq_true (List.mem_filter.mp hmark).2
  unfold phaseOf at h
  revert h hitem
  generalize log.filter (fun mark => mark.item = some k) = marks
  intro h hitem
  cases marks with
  | nil => cases h
  | cons first rest =>
    cases first with
    | start j kind =>
      obtain ⟨uses, i, rfl, huses⟩ := foldl_step_live h
      have hstart : j = k := Option.some.inj (hitem (.start j kind) List.mem_cons_self)
      have hstop : i = k := Option.some.inj (hitem (.stop i) (by simp))
      refine ⟨kind, uses, by rw [hstart, hstop]; rfl, fun mark hmark => ?_⟩
      obtain ⟨i, rfl⟩ := huses mark hmark
      rw [Option.some.inj (hitem (.inside i kind) (by simp [hmark]))]
    | _ =>
      rw [List.foldl_cons, Phase.step, foldl_step_broken] at h
      · cases h
      all_goals nofun

end TokenGateway.Base
