import Mathlib.Data.List.Dedup
import Mathlib.Data.List.Sort

namespace TokenGateway.Invoices

open List

/-!
# Ownership of wallet facts

`organizationInvoiceFinancialFactInScope` gives each timestamp of a period to one of the
organizations that have owned the user, and `organizationInvoiceWalletOwnershipRanges` asks it at
the boundaries of the ownership windows only.

* `factInScope_congr` — between two boundaries the answer does not change;
* `Covered` — what the ranges collected so far say about the timestamps before a boundary;
* `ownershipRanges_exact` — the ranges are the maximal ones of the timestamps in scope.
-/

/-- `organizationInvoiceFinancialOwnership`; an end of 0 is open. -/
structure FinancialOwnership where
  (organizationId membershipId start endExclusive : Int)

/-- `organizationInvoiceAccountScope` of one user. -/
structure AccountScope where
  organizationId : Int
  financialOwnership : List FinancialOwnership

structure InvoicePeriod where
  (startTimestamp endTimestamp : Int)

/-- `organizationInvoiceTimeSlice`. -/
structure TimeSlice where
  (start endExclusive : Int)

/-- A search of `organizationInvoiceFinancialFactInScope`: the best window among those that count,
    the smaller membership id if two start together. -/
def selectOwnership (counts : FinancialOwnership → Bool) (better : Int → Int → Bool)
    (windows : List FinancialOwnership) : Option FinancialOwnership :=
  windows.foldl (fun selected window =>
    if counts window then
      match selected with
      | none => some window
      | some best =>
        if better window.start best.start ∨
            window.start = best.start ∧ window.membershipId < best.membershipId then some window
        else selected
    else selected) none

/-- The latest window that contains the time, or else the earliest one that is still to come. -/
def ownerAt (windows : List FinancialOwnership) (createdAt : Int) : Option FinancialOwnership :=
  (selectOwnership (fun w => w.start ≤ createdAt ∧
    ¬ (0 < w.endExclusive ∧ w.endExclusive ≤ createdAt))
    (fun start best => best < start) windows).or
  (selectOwnership (fun w => createdAt < w.start) (fun start best => start < best) windows)

def organizationInvoiceFinancialFactInScope (scope : AccountScope) (period : InvoicePeriod)
    (createdAt : Int) :
    Bool :=
  (period.startTimestamp ≤ createdAt ∧ createdAt ≤ period.endTimestamp) ∧
    (ownerAt scope.financialOwnership createdAt).map (·.organizationId) = some scope.organizationId

/-- The boundaries after `slices.Sort` and `slices.Compact`; in a sorted list all equal ones stand
    together. -/
def ownershipBounds (scope : AccountScope) (period : InvoicePeriod) : List Int :=
  (([period.startTimestamp, period.endTimestamp + 1] ++
    (scope.financialOwnership.flatMap
      fun window => [window.start, window.endExclusive]).filter fun t =>
      period.startTimestamp < t ∧ t ≤ period.endTimestamp).insertionSort (· ≤ ·)).dedup

/-- One round of the loop; the ranges found so far stand latest first. -/
def addRange (inScope : Int → Bool) (a b : Int) (result : List TimeSlice) : List TimeSlice :=
  if inScope a then
    match result with
    | last :: earlier =>
      if last.endExclusive = a then { last with endExclusive := b } :: earlier else ⟨a, b⟩ ::
        last :: earlier
    | [] => [⟨a, b⟩]
  else result

def collectRanges (inScope : Int → Bool) : List Int → List TimeSlice → List TimeSlice
  | a :: b :: bounds, result => collectRanges inScope (b :: bounds) (addRange inScope a b result)
  | _, result => result

def organizationInvoiceWalletOwnershipRanges (scope : AccountScope) (period : InvoicePeriod) :
    List TimeSlice :=
  (collectRanges (organizationInvoiceFinancialFactInScope scope period)
    (ownershipBounds scope period) []).reverse

/-! ### Boundaries -/

variable {scope : AccountScope} {period : InvoicePeriod}

theorem mem_ownershipBounds {t : Int} : t ∈ ownershipBounds scope period ↔
    t = period.startTimestamp ∨ t = period.endTimestamp + 1 ∨
      (∃ window ∈ scope.financialOwnership, t = window.start ∨ t = window.endExclusive) ∧
        period.startTimestamp < t ∧ t ≤ period.endTimestamp := by
  simp [ownershipBounds]

theorem ownershipBounds_increasing (scope : AccountScope) (period : InvoicePeriod) :
    (ownershipBounds scope period).Pairwise (· < ·) :=
  ((pairwise_insertionSort (· ≤ ·) _).sublist (dedup_sublist _)).imp₂
    (fun _ _ hle hne => lt_of_le_of_ne hle hne) (nodup_dedup _)

theorem selectOwnership_congr {counts counts' : FinancialOwnership → Bool}
    (better : Int → Int → Bool)
    {windows : List FinancialOwnership} (h : ∀ window ∈ windows, counts window = counts' window) :
    selectOwnership counts better windows = selectOwnership counts' better windows := by
  unfold selectOwnership
  refine foldl_ext _ _ _ fun selected window hwindow => ?_
  rw [h window hwindow]

/-- No boundary lies between the two times. -/
theorem factInScope_congr {a x : Int} (hax : a ≤ x)
    (hgap : ∀ t ∈ ownershipBounds scope period, t ≤ a ∨ x < t) :
    organizationInvoiceFinancialFactInScope scope period x =
      organizationInvoiceFinancialFactInScope scope period a := by
  have hstart := hgap _ (mem_ownershipBounds.mpr (.inl rfl))
  have hend := hgap _ (mem_ownershipBounds.mpr (.inr (.inl rfl)))
  have hperiod : (period.startTimestamp ≤ x ∧ x ≤ period.endTimestamp) ↔
      period.startTimestamp ≤ a ∧ a ≤ period.endTimestamp := by omega
  refine decide_eq_decide.mpr ((and_congr_left' hperiod).trans (and_congr_right fun hin => ?_))
  -- within the period every start and every end is a boundary
  have hside : ∀ window ∈ scope.financialOwnership, ∀ t, t = window.start ∨
    t = window.endExclusive → t ≤ a ∨ x < t := by
    intro window hwindow t ht
    by_cases hinside : period.startTimestamp < t ∧ t ≤ period.endTimestamp
    · exact hgap t (mem_ownershipBounds.mpr (.inr (.inr ⟨⟨window, hwindow, ht⟩, hinside⟩)))
    · omega
  have howner : ownerAt scope.financialOwnership x = ownerAt scope.financialOwnership a := by
    unfold ownerAt
    congr 1 <;> refine selectOwnership_congr _ fun window hwindow => decide_eq_decide.mpr ?_
    all_goals
      have hfrom := hside window hwindow _ (.inl rfl)
      have hto := hside window hwindow _ (.inr rfl)
      omega
  rw [howner]

/-! ### Ranges -/

variable {inScope : Int → Bool} {a b : Int} {result : List TimeSlice}

/-- The ranges collected up to `c`, latest first: they do not touch, and hold the times in scope. -/
structure Covered (inScope : Int → Bool) (c : Int) (result : List TimeSlice) : Prop where
  apart : result.Pairwise fun later earlier => earlier.endExclusive < later.start
  within : ∀ range ∈ result, range.start < range.endExclusive ∧ range.endExclusive ≤ c
  exact : ∀ x, (∃ range ∈ result, range.start ≤ x ∧ x < range.endExclusive) ↔ x < c ∧
    inScope x = true

theorem Covered.add (h : Covered inScope a result) (hab : a < b)
    (hconst : ∀ x, a ≤ x → x < b → inScope x = inScope a) :
    Covered inScope b (addRange inScope a b result) := by
  obtain ⟨hapart, hwithin, hexact⟩ := h
  unfold addRange
  cases result with
  | nil =>
    simp only [not_mem_nil, false_and, exists_false] at hexact
    split_ifs <;> refine ⟨by simp, by simp [hab], fun x => ?_⟩ <;>
      simp only [exists_mem_cons_iff, not_mem_nil, false_and, exists_false] <;> grind
  | cons last earlier =>
    -- the last range grows if it ends at this boundary; otherwise there is a gap before the new one
    simp only [pairwise_cons, forall_mem_cons, exists_mem_cons_iff] at hapart hwithin hexact
    dsimp only
    split_ifs <;> refine ⟨?_, ?_, fun x => ?_⟩ <;>
      simp only [pairwise_cons, forall_mem_cons, exists_mem_cons_iff] <;> grind

theorem Covered.collect {bounds : List Int} (h : Covered inScope a result)
    (hchain : (a :: bounds).IsChain fun a b => a < b ∧ ∀ x, a ≤ x → x < b → inScope x = inScope a) :
    ∃ c, (∀ t ∈ a :: bounds, t ≤ c) ∧ Covered inScope c
      (collectRanges inScope (a :: bounds) result) := by
  induction bounds generalizing a result with
  | nil => exact ⟨a, by simp, h⟩
  | cons b bounds ih =>
    obtain ⟨⟨hab, hconst⟩, hrest⟩ := isChain_cons_cons.mp hchain
    obtain ⟨c, hc, hcovered⟩ := ih (h.add hab hconst) hrest
    exact ⟨c, forall_mem_cons.mpr ⟨(hab.trans_le (hc b mem_cons_self)).le, hc⟩, hcovered⟩

/-- Consecutive boundaries have no boundary between them. -/
theorem isChain_of_increasing {bounds : List Int} (h : bounds.Pairwise (· < ·)) :
    bounds.IsChain fun a b => a < b ∧ ∀ t ∈ bounds, t ≤ a ∨ b ≤ t := by
  have hlt := pairwise_iff_getElem.mp h
  refine isChain_iff_getElem.mpr fun i hi => ⟨hlt i (i + 1) _ hi (by omega), fun t ht => ?_⟩
  obtain ⟨j, hj, rfl⟩ := getElem_of_mem ht
  grind

/-- **Ownership ranges are exact**: they are the maximal intervals of the timestamps that are in
    scope, in increasing order, and no timestamp is in scope for two organizations. -/
theorem ownershipRanges_exact (scope : AccountScope) (period : InvoicePeriod) :
    let ranges := organizationInvoiceWalletOwnershipRanges scope period
    let inScope := organizationInvoiceFinancialFactInScope scope period
    (ranges.Pairwise fun earlier later => earlier.endExclusive < later.start) ∧
    (∀ range ∈ ranges, range.start < range.endExclusive ∧
      inScope (range.start - 1) = false ∧ inScope range.endExclusive = false) ∧
    (∀ t, (∃ range ∈ ranges, range.start ≤ t ∧ t < range.endExclusive) ↔ inScope t = true) ∧
    ∀ organizationId t, inScope t = true →
      organizationInvoiceFinancialFactInScope { scope with organizationId } period t = true →
        organizationId = scope.organizationId := by
  intro ranges inScope
  have hstart : period.startTimestamp ∈ ownershipBounds scope period :=
    mem_ownershipBounds.mpr (.inl rfl)
  have hend : period.endTimestamp + 1 ∈ ownershipBounds scope period :=
    mem_ownershipBounds.mpr (.inr (.inl rfl))
  have hincreasing := ownershipBounds_increasing scope period
  have hchain := (isChain_of_increasing hincreasing).imp fun a b hab =>
    (⟨hab.1, fun x hax hxb => factInScope_congr hax fun t ht =>
      (hab.2 t ht).imp_right hxb.trans_le⟩ :
      a < b ∧ ∀ x, a ≤ x → x < b → inScope x = inScope a)
  have hperiod : ∀ t, inScope t = true → period.startTimestamp ≤ t ∧ t ≤ period.endTimestamp :=
    fun t hin => (of_decide_eq_true hin).1
  have hranges : ranges = (collectRanges inScope (ownershipBounds scope period) []).reverse := rfl
  obtain ⟨first, bounds, hbounds⟩ := exists_cons_of_ne_nil (ne_nil_of_mem hstart)
  rw [hbounds] at hchain hincreasing hstart hend hranges
  -- before the first boundary nothing is in scope, and the collected ranges go up to the last one
  have hfirst : Covered inScope first [] := by
    refine ⟨.nil, nofun, fun x => ⟨nofun, ?_⟩⟩
    rintro ⟨hx, hin⟩
    have hlow := (hperiod x hin).1
    have hleast := (pairwise_cons.mp hincreasing).1
    grind
  obtain ⟨c, hc, hcovered⟩ := hfirst.collect hchain
  have hexact : ∀ t, (∃ range ∈ ranges, range.start ≤ t ∧ t < range.endExclusive) ↔
    inScope t = true := by
    intro t
    simp only [hranges, mem_reverse, hcovered.exact, and_iff_right_iff_imp]
    exact fun hin => Int.lt_of_lt_of_le (Int.lt_add_one_iff.mpr (hperiod t hin).2) (hc _ hend)
  have hapart : ranges.Pairwise fun earlier later => earlier.endExclusive < later.start :=
    hranges ▸ pairwise_reverse.mpr hcovered.apart
  have hpositive : ∀ range ∈ ranges, range.start < range.endExclusive :=
    fun range hrange => (hcovered.within range (mem_reverse.mp (hranges ▸ hrange))).1
  -- ranges do not touch, so the times next to a range lie in no other one
  have houtside : ∀ range ∈ ranges, ∀ t, t = range.start - 1 ∨ t = range.endExclusive →
    inScope t = false := by
    intro range hrange t ht
    refine Bool.eq_false_iff.mpr fun hin => ?_
    obtain ⟨other, hother, hwithin⟩ := (hexact t).mpr hin
    have hpos := hpositive range hrange
    have hgap := pairwise_iff_getElem.mp hapart
    obtain ⟨i, hi, rfl⟩ := getElem_of_mem hrange
    obtain ⟨j, hj, rfl⟩ := getElem_of_mem hother
    grind
  refine ⟨hapart, fun range hrange => ⟨hpositive range hrange, houtside range hrange _ (.inl rfl),
    houtside range hrange _ (.inr rfl)⟩, hexact, fun organizationId t hin hother => ?_⟩
  have howner := (of_decide_eq_true hin).2
  rw [(of_decide_eq_true hother).2] at howner
  exact Option.some.inj howner

end TokenGateway.Invoices
