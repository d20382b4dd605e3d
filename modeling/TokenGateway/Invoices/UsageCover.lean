import Mathlib.Data.List.Sort
import Mathlib.Data.Prod.Lex
import Mathlib.Logic.Function.Basic
import TokenGateway.Base.Cover

namespace TokenGateway.Invoices

open Base List

/-!
# The cover of a usage range

`organizationUsageSliceCover` selects stored slices that make up a range exactly.  It walks over
the candidates backwards, marks the boundaries from which the end can be reached and keeps for
each of them the longest slice that still reaches it, and then follows these slices forwards.

* `backward_spec` — the boundaries marked are closed under candidates, and each has its slice;
* `forward_tiles` — the forward loop never runs dry between marked boundaries;
* `organizationUsageSliceCover_exact` — a cover is returned exactly when there is one.
-/

/-- `OrganizationUsageSlice`: the columns that the query reads. -/
structure OrganizationUsageSlice where
  (id organizationId version sliceStart sliceEnd : Int)
  deriving DecidableEq

inductive UsageCoverError where
  | noSlices
  | outOfFuel
  deriving DecidableEq

/-- The `ORDER BY slice_start asc, slice_end desc, id asc` of the query. -/
def OrganizationUsageSlice.order (s : OrganizationUsageSlice) : ℤ ×ₗ ℤ ×ₗ ℤ :=
  toLex (s.sliceStart, toLex (-s.sliceEnd, s.id))

/-- The `WHERE` of the query. -/
def IsCandidate (version organizationId rangeStart rangeEnd : Int) (s : OrganizationUsageSlice) :
    Prop :=
  s.organizationId = organizationId ∧ s.version = version ∧ rangeStart ≤ s.sliceStart ∧
    s.sliceEnd ≤ rangeEnd

instance (version organizationId rangeStart rangeEnd : Int) (s : OrganizationUsageSlice) :
    Decidable (IsCandidate version organizationId rangeStart rangeEnd s) :=
  inferInstanceAs (Decidable (_ ∧ _))

/-- The maps of the backward loop. -/
structure CoverMaps where
  best : Int → Option OrganizationUsageSlice
  reachable : Int → Bool

/-- One round of the backward loop. -/
def CoverMaps.visit (m : CoverMaps) (slice : OrganizationUsageSlice) : CoverMaps :=
  if slice.sliceEnd ≤ slice.sliceStart ∨ m.reachable slice.sliceEnd = false then m
  else
    { best :=
        match m.best slice.sliceStart with
        | none => Function.update m.best slice.sliceStart (some slice)
        | some previous =>
            if previous.sliceEnd < slice.sliceEnd then
              Function.update m.best slice.sliceStart (some slice)
            else m.best
      reachable := Function.update m.reachable slice.sliceStart true }

/-- The backward loop, from the last candidate to the first. -/
def backward (rangeEnd : Int) (candidates : List OrganizationUsageSlice) : CoverMaps :=
  candidates.foldr (fun slice m => m.visit slice)
    { best := fun _ => none, reachable := fun p => decide (p = rangeEnd) }

def forward (m : CoverMaps) (rangeEnd : Int) :
    Nat → Int → Except UsageCoverError (List OrganizationUsageSlice)
  | 0, pos => if pos < rangeEnd then .error .outOfFuel else .ok []
  | fuel + 1, pos =>
      if pos < rangeEnd then
        match m.best pos with
        | none => .error .noSlices
        | some slice => (forward m rangeEnd fuel slice.sliceEnd).map (slice :: ·)
      else .ok []

/-- `organizationUsageSliceCover` on the stored slices; `version` is the calculation version. -/
def organizationUsageSliceCover (version : Int) (stored : List OrganizationUsageSlice)
    (organizationId rangeStart rangeEnd : Int) :
    Except UsageCoverError (List OrganizationUsageSlice) :=
  if rangeEnd ≤ rangeStart then .ok []
  else
    let candidates := (stored.filter fun s => IsCandidate version organizationId rangeStart
      rangeEnd s).insertionSort fun s t => s.order ≤ t.order
    let m := backward rangeEnd candidates
    if m.reachable rangeStart = false then .error .noSlices
    else forward m rangeEnd (rangeEnd - rangeStart).toNat rangeStart

/-! ### The backward loop -/

variable {rangeEnd : Int} {l : List OrganizationUsageSlice}

/-- What the maps say about the candidates `l` visited so far. -/
structure Visited (rangeEnd : Int) (l : List OrganizationUsageSlice) (m : CoverMaps) : Prop where
  atEnd : m.reachable rangeEnd = true
  closed : ∀ s ∈ l, s.sliceStart < s.sliceEnd → m.reachable s.sliceEnd = true →
    m.reachable s.sliceStart = true
  best : ∀ p, m.reachable p = true → p = rangeEnd ∨ ∃ s, m.best p = some s
  slice : ∀ p s, m.best p = some s → s ∈ l ∧ s.sliceStart = p ∧ p < s.sliceEnd ∧
    m.reachable s.sliceEnd = true

variable {m : CoverMaps} {slice : OrganizationUsageSlice}

/-- A visit keeps the slice of each boundary, or puts the visited one there. -/
theorem visit_best (p : Int)
    (hgo : ¬ (slice.sliceEnd ≤ slice.sliceStart ∨ m.reachable slice.sliceEnd = false)) :
    ((m.visit slice).best p = m.best p ∧ (p = slice.sliceStart → m.best p ≠ none)) ∨
      (p = slice.sliceStart ∧ (m.visit slice).best p = some slice) := by
  by_cases hp : p = slice.sliceStart
  · subst hp
    cases hbest : m.best slice.sliceStart with
    | none => simp [CoverMaps.visit, hgo, hbest]
    | some previous => by_cases hlt : previous.sliceEnd < slice.sliceEnd <;>
        simp [CoverMaps.visit, hgo, hbest, hlt]
  · left
    cases hbest : m.best slice.sliceStart with
    | none => simp [CoverMaps.visit, hgo, hbest, hp]
    | some previous => by_cases hlt : previous.sliceEnd < slice.sliceEnd <;>
        simp [CoverMaps.visit, hgo, hbest, hlt, hp]

/-- The candidates come in the order of their starts, so that no slice visited before ends where
    the new one starts. -/
theorem Visited.visit (h : Visited rangeEnd l m)
    (hfirst : ∀ s ∈ l, slice.sliceStart ≤ s.sliceStart) :
    Visited rangeEnd (slice :: l) (m.visit slice) := by
  by_cases hskip : slice.sliceEnd ≤ slice.sliceStart ∨ m.reachable slice.sliceEnd = false
  · have hvisit : m.visit slice = m := if_pos hskip
    rw [hvisit]
    refine { h with closed := fun s hs hpos hend => ?_, slice := fun p s hp => ?_ }
    · rcases mem_cons.mp hs with rfl | hs
      · rcases hskip with hempty | hend'
        · omega
        · exact absurd (hend.symm.trans hend') nofun
      · exact h.closed s hs hpos hend
    · obtain ⟨hs, hrest⟩ := h.slice p s hp
      exact ⟨mem_cons_of_mem _ hs, hrest⟩
  · have hreach : (m.visit slice).reachable =
      Function.update m.reachable slice.sliceStart true := by
      simp [CoverMaps.visit, hskip]
    have hmono : ∀ p, m.reachable p = true → (m.visit slice).reachable p = true := by
      intro p hp
      rw [hreach]
      by_cases heq : p = slice.sliceStart <;> simp [heq, hp]
    obtain ⟨hpos, hend⟩ : slice.sliceStart < slice.sliceEnd ∧
      m.reachable slice.sliceEnd = true := by
      simpa using hskip
    refine ⟨hmono _ h.atEnd, fun s hs hnonempty hlater => ?_, fun p hp => ?_, fun p s hp => ?_⟩
    · rcases mem_cons.mp hs with rfl | hs
      · simp [hreach]
      · -- `s` ends after `slice` starts, so that its end was marked before
        have hle := hfirst s hs
        rw [hreach, Function.update_of_ne (by omega)] at hlater
        exact hmono _ (h.closed s hs hnonempty hlater)
    · rcases visit_best p hskip with ⟨hkept, hsome⟩ | ⟨-, hnew⟩
      · rw [hkept]
        by_cases heq : p = slice.sliceStart
        · exact .inr (Option.ne_none_iff_exists'.mp (hsome heq))
        · rw [hreach, Function.update_of_ne heq] at hp
          exact h.best p hp
      · exact .inr ⟨slice, hnew⟩
    · rcases visit_best p hskip with ⟨hkept, -⟩ | ⟨rfl, hnew⟩
      · rw [hkept] at hp
        obtain ⟨hs, hstart, hlt, hend'⟩ := h.slice p s hp
        exact ⟨mem_cons_of_mem _ hs, hstart, hlt, hmono _ hend'⟩
      · obtain rfl := Option.some.inj (hnew.symm.trans hp)
        exact ⟨mem_cons_self, rfl, hpos, hmono _ hend⟩

theorem backward_spec (rangeEnd : Int)
    (hsorted : l.Pairwise fun s t => s.sliceStart ≤ t.sliceStart) :
    Visited rangeEnd l (backward rangeEnd l) := by
  induction l with
  | nil =>
    refine ⟨by simp [backward], fun s hs => by simp at hs, fun p hp => .inl ?_, fun p s hp => ?_⟩
    · simpa [backward] using hp
    · cases hp
  | cons slice l ih =>
    obtain ⟨hfirst, hrest⟩ := pairwise_cons.mp hsorted
    exact (ih hrest).visit hfirst

/-! ### The forward loop -/

section Forward

variable (h : Visited rangeEnd l m) (hinside : ∀ s ∈ l, s.sliceEnd ≤ rangeEnd)

include h hinside

/-- From a marked boundary the forward loop returns a walk to the end. -/
theorem forward_tiles (fuel : Nat) (pos : Int) (hpos : pos ≤ rangeEnd)
    (hfuel : rangeEnd - pos ≤ fuel) (hreach : m.reachable pos = true) :
    ∃ cover, forward m rangeEnd fuel pos = .ok cover ∧ (∀ s ∈ cover, s ∈ l) ∧
      Tiles OrganizationUsageSlice.sliceStart OrganizationUsageSlice.sliceEnd pos rangeEnd
        cover := by
  induction fuel generalizing pos with
  | zero =>
    obtain rfl : pos = rangeEnd := by omega
    exact ⟨[], if_neg (Int.lt_irrefl pos), by simp, .nil pos⟩
  | succ fuel ih =>
    by_cases hend : pos < rangeEnd
    · obtain ⟨slice, hslice⟩ := (h.best pos hreach).resolve_left (by omega)
      obtain ⟨hmem, hstart, hlt, hnext⟩ := h.slice pos slice hslice
      obtain ⟨cover, hcover, hsub, htiles⟩ :=
        ih slice.sliceEnd (hinside slice hmem) (by omega) hnext
      refine ⟨slice :: cover, ?_, forall_mem_cons.mpr ⟨hmem, hsub⟩, .cons hstart hlt htiles⟩
      simp [forward, hend, hslice, hcover, Except.map]
    · obtain rfl : pos = rangeEnd := by omega
      exact ⟨[], if_neg (Int.lt_irrefl pos), by simp, .nil pos⟩

omit hinside in
/-- A walk along candidates leads from marked boundary to marked boundary. -/
theorem Visited.reachable_of_tiles {pos : Int} {walk : List OrganizationUsageSlice}
    (htiles : Tiles OrganizationUsageSlice.sliceStart OrganizationUsageSlice.sliceEnd pos rangeEnd
      walk) (hwalk : ∀ s ∈ walk, s ∈ l) : m.reachable pos = true := by
  induction htiles with
  | nil a => exact h.atEnd
  | cons hstart hlt hrest ih =>
    obtain ⟨hs, hrest⟩ := forall_mem_cons.mp hwalk
    rw [← hstart]
    exact h.closed _ hs (hstart ▸ hlt) (ih h hrest)

end Forward

/-! ### The cover -/

/-- **The cover is exact whenever one exists.** What is returned are candidates that cover the range
    exactly; if no list of candidates does, it is reported that there is none. -/
theorem organizationUsageSliceCover_exact (version : Int) (stored : List OrganizationUsageSlice)
    (organizationId rangeStart rangeEnd : Int) :
    (∀ cover, organizationUsageSliceCover version stored organizationId rangeStart rangeEnd =
      .ok cover →
      (∀ s ∈ cover, s ∈ stored ∧ IsCandidate version organizationId rangeStart rangeEnd s) ∧
        ExactCover OrganizationUsageSlice.sliceStart OrganizationUsageSlice.sliceEnd rangeStart
          rangeEnd cover) ∧
      ((∃ cover, organizationUsageSliceCover version stored organizationId rangeStart rangeEnd =
        .ok cover) ↔
        ∃ l, (∀ s ∈ l, s ∈ stored ∧ IsCandidate version organizationId rangeStart rangeEnd s) ∧
          ExactCover OrganizationUsageSlice.sliceStart OrganizationUsageSlice.sliceEnd rangeStart
            rangeEnd l) ∧
      ((¬ ∃ cover, organizationUsageSliceCover version stored organizationId rangeStart rangeEnd =
        .ok cover) →
        organizationUsageSliceCover version stored organizationId rangeStart rangeEnd =
          .error .noSlices) := by
  unfold organizationUsageSliceCover
  by_cases hempty : rangeEnd ≤ rangeStart
  · -- an empty range is covered by nothing
    have hnil : ExactCover OrganizationUsageSlice.sliceStart OrganizationUsageSlice.sliceEnd
        rangeStart rangeEnd [] := by
      refine ⟨.nil, .nil, fun x => ⟨fun ⟨_, hs, _⟩ => absurd hs not_mem_nil, fun hx => ?_⟩⟩
      omega
    rw [if_pos hempty]
    refine ⟨fun cover hcover => ?_, ⟨fun _ => ⟨[], by simp, hnil⟩, fun _ => ⟨[], rfl⟩⟩,
      fun hno => absurd ⟨[], rfl⟩ hno⟩
    cases hcover
    exact ⟨by simp, hnil⟩
  rw [if_neg hempty]
  generalize hl : (stored.filter fun s => IsCandidate version organizationId rangeStart rangeEnd
    s).insertionSort (fun s t => s.order ≤ t.order) = l
  have hmem : ∀ s, s ∈ l ↔
      s ∈ stored ∧ IsCandidate version organizationId rangeStart rangeEnd s := by
    intro s
    rw [← hl, mem_insertionSort, mem_filter, decide_eq_true_iff]
  have hsorted : l.Pairwise fun s t => s.sliceStart ≤ t.sliceStart := by
    rw [← hl]
    refine (pairwise_insertionSort _ _).imp fun {s t} hle => ?_
    rcases Prod.Lex.toLex_le_toLex.mp hle with hlt | ⟨heq, -⟩
    · exact hlt.le
    · exact heq.le
  have hvisited := backward_spec rangeEnd hsorted
  have hinside : ∀ s ∈ l, s.sliceEnd ≤ rangeEnd := fun s hs => ((hmem s).mp hs).2.2.2.2
  by_cases hreach : (backward rangeEnd l).reachable rangeStart = true
  · obtain ⟨cover, hcover, hsub, htiles⟩ := forward_tiles hvisited hinside
      (rangeEnd - rangeStart).toNat rangeStart (by omega) (by omega) hreach
    rw [if_neg (by simp [hreach]), hcover]
    have hsub' := fun s hs => (hmem s).mp (hsub s hs)
    refine ⟨fun cover' hcover' => ?_, ⟨fun _ => ⟨cover, hsub', htiles.exactCover⟩,
      fun _ => ⟨cover, rfl⟩⟩, fun hno => absurd ⟨cover, rfl⟩ hno⟩
    cases hcover'
    exact ⟨hsub', htiles.exactCover⟩
  · rw [if_pos (by simpa using hreach)]
    refine ⟨nofun, ⟨nofun, ?_⟩, fun _ => rfl⟩
    rintro ⟨list, hlist, hexact⟩
    obtain ⟨walk, hwalk, htiles⟩ := hexact.tiles (by omega)
    exact absurd (hvisited.reachable_of_tiles htiles fun s hs =>
      (hmem s).mpr (hlist s (hwalk s hs))) hreach

end TokenGateway.Invoices
