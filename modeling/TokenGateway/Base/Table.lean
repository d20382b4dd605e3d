import Mathlib.Data.List.Nodup
import Mathlib.Algebra.BigOperators.Group.List.Basic
import Mathlib.Algebra.Order.BigOperators.Group.List
import Mathlib.Algebra.Group.Pi.Basic
import Mathlib.Algebra.Notation.Pi.Basic
import Mathlib.Tactic.Ring

namespace TokenGateway.Base

open List

/-!
# Keyed tables

A database table with a unique key, as a list of rows in insertion order.  The
`nodup` field carries the unique index, so that a table with two rows of one key
cannot be built and a lookup is a function of the key:

* `Table.get?` — the row of a key (`SELECT … WHERE key = ? LIMIT 1`);
* `Table.set` — replace the row of the same key in place, or append it;
* `Table.erase` — delete the row of a key;
* `Table.column` — the value of a column, row by row, and `Table.column_set` what an
  upsert does to it;
* `Table.sumWhere` — the sum of a column over selected rows, `Table.sumWhere_set` under an
  upsert and `Table.sumWhere_by_reference` split along a foreign key;
* `Table.mem_rows` — the rows are exactly what the lookups return.
-/

variable {ρ κ : Type} [DecidableEq κ]

/-- Replace the row that has the key of `r`, in place, or append `r`. -/
def upsertRow (key : ρ → κ) (r : ρ) : List ρ → List ρ
  | [] => [r]
  | x :: xs => if key x = key r then r :: xs else x :: upsertRow key r xs

/-- Replacing or appending adds at most the key of the new row. -/
theorem mem_map_upsertRow (key : ρ → κ) (r : ρ) (l : List ρ) (k : κ) :
    k ∈ (upsertRow key r l).map key ↔ k = key r ∨ k ∈ l.map key := by
  induction l with
  | nil => simp [upsertRow]
  | cons x xs ih =>
    by_cases h : key x = key r
    · simp [upsertRow, h]
    · simp only [upsertRow, h, if_false, map_cons, mem_cons]
      tauto

theorem nodup_upsertRow (key : ρ → κ) (r : ρ) (l : List ρ) (hl : (l.map key).Nodup) :
    ((upsertRow key r l).map key).Nodup := by
  induction l with
  | nil => simp [upsertRow]
  | cons x xs ih =>
    rw [map_cons, nodup_cons] at hl
    obtain ⟨hx, hxs⟩ := hl
    by_cases h : key x = key r
    · simp only [upsertRow, h, if_true, map_cons, nodup_cons]
      exact ⟨h ▸ hx, hxs⟩
    simp only [upsertRow, h, if_false, map_cons, nodup_cons]
    refine ⟨?_, ih hxs⟩
    rw [mem_map_upsertRow]
    rintro (hk | hk)
    · exact h hk
    · exact hx hk

/-- A table of rows `ρ` with the unique key `key`. -/
structure Table (ρ : Type) {κ : Type} (key : ρ → κ) where
  /-- The rows, oldest first. -/
  rows : List ρ
  /-- The unique index on the key. -/
  nodup : (rows.map key).Nodup

namespace Table

variable {key : ρ → κ}

instance : EmptyCollection (Table ρ key) := ⟨⟨[], by simp⟩⟩

instance : Inhabited (Table ρ key) := ⟨∅⟩

/-- The row with key `k`. -/
def get? (t : Table ρ key) (k : κ) : Option ρ := t.rows.find? (fun r => key r = k)

/-- Insert `r`, replacing the row that has the same key. -/
def set (t : Table ρ key) (r : ρ) : Table ρ key :=
  ⟨upsertRow key r t.rows, nodup_upsertRow key r t.rows t.nodup⟩

/-- Delete the row with key `k`. -/
def erase (t : Table ρ key) (k : κ) : Table ρ key :=
  ⟨t.rows.filter (fun r => key r ≠ k), (t.nodup.sublist (filter_sublist.map key))⟩

/-- A table of given rows, each inserted in turn. -/
def ofList (key : ρ → κ) (l : List ρ) : Table ρ key := l.foldl set ∅

variable {t : Table ρ key} {k : κ} {r : ρ}

theorem key_of_get? (h : t.get? k = some r) : key r = k := by
  simpa using find?_some h

theorem mem_of_get? (h : t.get? k = some r) : r ∈ t.rows := mem_of_find?_eq_some h

theorem get?_eq_none : t.get? k = none ↔ ∀ r ∈ t.rows, key r ≠ k := by
  simp [get?]

private theorem find?_upsertRow (r : ρ) (l : List ρ) (k : κ) :
    (upsertRow key r l).find? (fun x => key x = k) = if key r = k
      then some r else l.find? (fun x => key x = k) := by
  induction l with
  | nil => by_cases h : key r = k <;> simp [upsertRow]
  | cons x xs ih =>
    by_cases hx : key x = key r
    · by_cases h : key r = k <;> simp [upsertRow, hx, h]
    simp only [upsertRow, hx, if_false, find?_cons, ih]
    by_cases h : key r = k
    · have hxk : ¬ key x = k := fun e => hx (e.trans h.symm)
      simp [hxk]
    · simp [h]

section

variable (t : Table ρ key)

theorem get?_set (r : ρ) (k : κ) : (t.set r).get? k = if key r = k then some r else t.get? k :=
  find?_upsertRow r t.rows k

@[simp] theorem get?_set_self (r : ρ) : (t.set r).get? (key r) = some r := by
  rw [get?_set, if_pos rfl]

theorem get?_set_of_eq (h : key r = k) : (t.set r).get? k = some r := by
  rw [get?_set, if_pos h]

theorem get?_set_of_ne (h : key r ≠ k) : (t.set r).get? k = t.get? k := by
  rw [get?_set, if_neg h]

theorem get?_erase (k k' : κ) : (t.erase k).get? k' = if k' = k then none else t.get? k' := by
  by_cases h : k' = k
  · subst h
    rw [if_pos rfl, get?_eq_none]
    intro r hr
    simpa using (mem_filter.mp hr).2
  · rw [if_neg h]
    simp only [get?, erase, find?_filter]
    congr 1
    funext x
    by_cases hx : key x = k'
    · simp [hx, h]
    · simp [hx]

end

theorem mem_rows : r ∈ t.rows ↔ t.get? (key r) = some r := by
  constructor
  · obtain ⟨rows, hnd⟩ := t
    intro hr
    simp only [get?] at hr ⊢
    induction rows with
    | nil => simp at hr
    | cons x xs ih =>
      rw [map_cons, nodup_cons] at hnd
      rcases mem_cons.mp hr with rfl | hr
      · simp
      · have hne : key x ≠ key r := fun e => hnd.1 (e ▸ mem_map_of_mem hr)
        simp only [find?_cons, hne]
        exact ih hnd.2 hr
  · exact mem_of_get?

/-- The rows after an upsert: the new one, and the old ones with another key. -/
theorem mem_rows_set {x : ρ} : x ∈ (t.set r).rows ↔ x = r ∨ (x ∈ t.rows ∧ key x ≠ key r) := by
  rw [mem_rows, get?_set]
  split_ifs with h
  · rw [eq_comm]
    simp [h]
  rw [← mem_rows]
  constructor
  · intro hx
    exact .inr ⟨hx, Ne.symm h⟩
  · rintro (rfl | ⟨hx, -⟩)
    · exact absurd rfl h
    · exact hx

/-- The value of the column `f` in the row with key `k`; a missing row reads as `0`. -/
def column (t : Table ρ key) (f : ρ → Int) (k : κ) : Int := ((t.get? k).map f).getD 0

theorem column_of_get? (h : t.get? k = some r) (f : ρ → Int) : t.column f k = f r := by
  simp [column, h]

/-- Writing `r` moves the column in the row of `r` alone, to the value of `r`. -/
theorem column_set (t : Table ρ key) (f : ρ → Int) (r : ρ) :
    (t.set r).column f = t.column f + Pi.single (key r) (f r - t.column f (key r)) := by
  funext k
  rw [Pi.add_apply, Pi.single_apply]
  by_cases h : k = key r
  · subst h
    rw [if_pos rfl, column_of_get? (get?_set_self t r)]
    ring
  · rw [if_neg h]
    simp [column, get?_set_of_ne t (Ne.symm h)]

private theorem sum_upsertRow (f : ρ → Int) (r : ρ) (l : List ρ) :
    ((upsertRow key r l).map f).sum = (l.map f).sum -
      ((l.find? (fun x => key x = key r)).map f).getD 0 + f r := by
  induction l with
  | nil => simp [upsertRow]
  | cons x xs ih =>
    by_cases hx : key x = key r
    · simp only [upsertRow, hx, if_true, map_cons, sum_cons, find?_cons,
        decide_true, Option.map_some, Option.getD_some]
      ring
    · simp only [upsertRow, hx, if_false, map_cons, sum_cons, find?_cons, decide_false, ih]
      ring

theorem rows_set_of_none (t : Table ρ key) (h : t.get? (key r) = none) :
    (t.set r).rows = t.rows ++ [r] := by
  rw [get?_eq_none] at h
  show upsertRow key r t.rows = t.rows ++ [r]
  generalize t.rows = l at h
  induction l with
  | nil => rfl
  | cons x xs ih =>
    have hx : key x ≠ key r := h x (by simp)
    simp only [upsertRow, hx, if_false, cons_append]
    rw [ih (fun y hy => h y (by simp [hy]))]

/-! ### Sums over selected rows -/

variable {p : ρ → Bool}

/-- The column `f` summed over the rows that satisfy `p` (`SELECT SUM(f) … WHERE p`). -/
def sumWhere (t : Table ρ key) (p : ρ → Bool) (f : ρ → Int) : Int := ((t.rows.filter p).map f).sum

omit [DecidableEq κ] in
theorem sumWhere_eq_sum (t : Table ρ key) (p : ρ → Bool) (f : ρ → Int) :
    t.sumWhere p f = (t.rows.map fun r => if p r then f r else 0).sum := by
  unfold sumWhere
  induction t.rows with
  | nil => rfl
  | cons x xs ih => by_cases hx : p x <;> simp [hx, ih]

/-- Writing `r` moves a selected sum by what `r` counts minus what the row it replaces
    counted. -/
theorem sumWhere_set (t : Table ρ key) (p : ρ → Bool) (f : ρ → Int) (r : ρ) :
    (t.set r).sumWhere p f
      = t.sumWhere p f - ((t.get? (key r)).map fun r => if p r then f r else 0).getD 0
        + (if p r then f r else 0) := by
  rw [sumWhere_eq_sum, sumWhere_eq_sum]
  exact sum_upsertRow _ r t.rows

theorem sumWhere_set_of_none (h : t.get? (key r) = none) (p : ρ → Bool) (f : ρ → Int) :
    (t.set r).sumWhere p f = t.sumWhere p f + (if p r then f r else 0) := by
  rw [sumWhere_set, h]
  simp

theorem sumWhere_set_of_some {old : ρ} (h : t.get? (key r) = some old) (p : ρ → Bool)
    (f : ρ → Int) :
    (t.set r).sumWhere p f = t.sumWhere p f - (if p old then f old else 0) +
      (if p r then f r else 0) := by
  rw [sumWhere_set, h]
  simp

omit [DecidableEq κ] in
/-- A selected sum depends on the selection and the column at the stored rows only. -/
theorem sumWhere_congr {q : ρ → Bool} {f g : ρ → Int} (hp : ∀ r ∈ t.rows, p r = q r)
    (hf : ∀ r ∈ t.rows, q r → f r = g r) : t.sumWhere p f = t.sumWhere q g := by
  rw [sumWhere_eq_sum, sumWhere_eq_sum]
  refine congrArg List.sum (map_congr_left fun r hr => ?_)
  rw [hp r hr]
  by_cases hq : q r
  · simp only [hq]
    exact hf r hr hq
  · simp [hq]

omit [DecidableEq κ] in
theorem sumWhere_eq_zero (h : ∀ r ∈ t.rows, ¬ p r) (f : ρ → Int) : t.sumWhere p f = 0 := by
  have hnone : t.rows.filter p = [] := filter_eq_nil_iff.mpr h
  simp [sumWhere, hnone]

omit [DecidableEq κ] in
theorem sumWhere_nonneg {f : ρ → Int} (h : ∀ r ∈ t.rows, p r → 0 ≤ f r) : 0 ≤ t.sumWhere p f := by
  refine sum_nonneg fun x hx => ?_
  obtain ⟨r, hr, rfl⟩ := mem_map.mp hx
  obtain ⟨hmem, hp⟩ := mem_filter.mp hr
  exact h r hmem hp

omit [DecidableEq κ] in
theorem sumWhere_add (t : Table ρ key) (p : ρ → Bool) (f g : ρ → Int) :
    t.sumWhere p (fun r => f r + g r) = t.sumWhere p f + t.sumWhere p g :=
  sum_map_add

/-- A column that is zero outside the row of one key sums to its value there. -/
theorem sumWhere_single (h : t.get? k = some r) (hp : p r) (v : Int) :
    t.sumWhere p (fun x => if k = key x then v else 0) = v := by
  obtain ⟨rows, hnd⟩ := t
  simp only [get?] at h
  show ((rows.filter p).map _).sum = v
  -- Along the rows: the row of `k` comes once, the keys are distinct.
  induction rows with
  | nil => simp at h
  | cons x xs ih =>
    rw [map_cons, nodup_cons] at hnd
    by_cases hx : key x = k
    · have hxr : x = r := by simpa [hx] using h
      subst hxr
      have hrest : ∀ y ∈ xs.filter p, (if k = key y then v else 0) = 0 := by
        intro y hy
        have hne : k ≠ key y := by
          intro e
          exact hnd.1 (by rw [hx, e]; exact mem_map_of_mem (mem_filter.mp hy).1)
        simp [hne]
      have hzero : ((xs.filter p).map fun y => if k = key y then v else 0).sum = 0 :=
        sum_eq_zero fun y hy => by
          obtain ⟨z, hz, rfl⟩ := mem_map.mp hy
          exact hrest z hz
      simp [hp, hzero, hx]
    · have htail := ih hnd.2 (by simpa [hx] using h)
      by_cases hpx : p x
      · simp [hpx, htail, if_neg (Ne.symm hx)]
      · simpa only [hpx, Bool.false_eq_true, not_false_eq_true, filter_cons_of_neg] using htail

/-- **Sums along a foreign key.** Where every selected row of `u` refers to a row of `t` with `q`,
    the sum over `u` is the sum over those rows of `t` of the sums over what refers to them. -/
theorem sumWhere_by_reference {τ ν : Type} {ukey : τ → ν} (u : Table τ ukey)
    (t : Table ρ key) (ref : τ → κ) {p : τ → Bool} {q : ρ → Bool} (f : τ → Int)
    (h : ∀ x ∈ u.rows, p x → ∃ r, t.get? (ref x) = some r ∧ q r) :
    u.sumWhere p f = t.sumWhere q (fun r => u.sumWhere (fun x => p x ∧ ref x = key r) f) := by
  obtain ⟨rows, hnd⟩ := u
  show ((rows.filter p).map f).sum = t.sumWhere q (fun r =>
    ((rows.filter fun x => p x ∧ ref x = key r).map f).sum)
  replace h : ∀ x ∈ rows, p x → ∃ r, t.get? (ref x) = some r ∧ q r := h
  clear hnd
  induction rows with
  | nil => simp [sumWhere]
  | cons x xs ih =>
    have htail := ih fun y hy => h y (mem_cons_of_mem x hy)
    by_cases hx : p x
    · obtain ⟨r, hr, hq⟩ := h x mem_cons_self hx
      have hsplit : ∀ y, (((x :: xs).filter fun x => p x ∧ ref x = key y).map f).sum
          = (if ref x = key y then f x else 0) +
            ((xs.filter fun x => p x ∧ ref x = key y).map f).sum := by
        intro y
        by_cases hy : ref x = key y <;> simp [hx, hy]
      simp only [hsplit]
      rw [sumWhere_add, sumWhere_single hr hq, ← htail]
      simp [hx]
    · simpa [hx] using htail

end Table

end TokenGateway.Base
