import Mathlib.Data.List.Basic
import Mathlib.Data.List.Pairwise

namespace TokenGateway.Base

/-!
# Exact covers of an interval

Pieces `s` stand for the half-open intervals `[lo s, hi s)`, which may be empty.

* `ExactCover` — the pieces of a list are consecutive, pairwise disjoint and together exactly
  `[a, b)`;
* `Tiles` — the same as a walk from `a` to `b` along pieces that are not empty;
* `Tiles.exactCover`, `ExactCover.tiles` — a walk is an exact cover, and whatever covers `[a, b)`
  exactly contains a walk.
-/

variable {ρ : Type} {lo hi : ρ → Int} {a b : Int} {l : List ρ}

/-- Two pieces have no point in common. -/
def Apart (lo hi : ρ → Int) (s t : ρ) : Prop := ∀ x, ¬ ((lo s ≤ x ∧ x < hi s) ∧ lo t ≤ x ∧ x < hi t)

instance : Std.Symm (Apart lo hi) := ⟨fun _ _ h x hx => h x hx.symm⟩

/-- The pieces of `l` are consecutive, pairwise disjoint and together exactly `[a, b)`. -/
structure ExactCover (lo hi : ρ → Int) (a b : Int) (l : List ρ) : Prop where
  consecutive : l.IsChain fun s t => hi s = lo t
  disjoint : l.Pairwise (Apart lo hi)
  exact : ∀ x, (∃ s ∈ l, lo s ≤ x ∧ x < hi s) ↔ a ≤ x ∧ x < b

/-- A walk from `a` to `b` along pieces that are not empty. -/
inductive Tiles (lo hi : ρ → Int) : Int → Int → List ρ → Prop where
  | nil (a : Int) : Tiles lo hi a a []
  | cons {a b : Int} {s : ρ} {l : List ρ} : lo s = a → a < hi s → Tiles lo hi (hi s) b l →
      Tiles lo hi a b (s :: l)

theorem Tiles.le (h : Tiles lo hi a b l) : a ≤ b := by
  induction h with
  | nil a => exact Int.le_refl a
  | cons _ hpos _ ih => omega

/-- **A walk is an exact cover.** -/
theorem Tiles.exactCover (h : Tiles lo hi a b l) : ExactCover lo hi a b l := by
  induction h with
  | nil a =>
    refine ⟨.nil, .nil, fun x => ⟨?_, fun hx => ?_⟩⟩
    · rintro ⟨s, hs, _⟩
      cases hs
    · omega
  | @cons a b s l hfirst hpos hrest ih =>
    have hle := hrest.le
    refine ⟨?_, List.pairwise_cons.mpr ⟨?_, ih.disjoint⟩, fun x => ⟨?_, fun hx => ?_⟩⟩
    · cases hrest with
      | nil => exact .singleton s
      | cons hnext => exact .cons_cons hnext.symm ih.consecutive
    · -- the later pieces lie in `[hi s, b)`
      rintro t ht x ⟨hs, hx⟩
      have := (ih.exact x).mp ⟨t, ht, hx⟩
      omega
    · rintro ⟨t, ht, hx⟩
      rcases List.mem_cons.mp ht with rfl | ht
      · omega
      · have := (ih.exact x).mp ⟨t, ht, hx⟩
        omega
    · by_cases hs : x < hi s
      · exact ⟨s, List.mem_cons_self, by omega, hs⟩
      · obtain ⟨t, ht, hmem⟩ := (ih.exact x).mpr ⟨by omega, hx.2⟩
        exact ⟨t, List.mem_cons_of_mem s ht, hmem⟩

/-- From the start, and from the end of each piece, some piece of an exact cover goes on. -/
theorem ExactCover.next (h : ExactCover lo hi a b l) {p : Int} (hap : a ≤ p) (hpb : p < b)
    (hp : p = a ∨ ∃ t ∈ l, lo t < hi t ∧ hi t = p) : ∃ s ∈ l, lo s = p ∧ p < hi s ∧ hi s ≤ b := by
  obtain ⟨s, hs, hle, hlt⟩ := (h.exact p).mpr ⟨hap, hpb⟩
  have hfirst := (h.exact (lo s)).mp ⟨s, hs, Int.le_refl _, by omega⟩
  have hlast := (h.exact (hi s - 1)).mp ⟨s, hs, by omega, by omega⟩
  refine ⟨s, hs, ?_, hlt, by omega⟩
  rcases hp with rfl | ⟨t, ht, hpos, rfl⟩
  · omega
  · -- a piece that began before the end of `t` would meet it
    by_contra hne
    have hst : s ≠ t := by
      rintro rfl
      omega
    have hmeet : (lo s ≤ hi t - 1 ∧ hi t - 1 < hi s) ∧ lo t ≤ hi t - 1 ∧ hi t - 1 < hi t := by
      omega
    exact h.disjoint.forall hs ht hst _ hmeet

/-- **Whatever covers `[a, b)` exactly contains a walk from `a` to `b`.** -/
theorem ExactCover.tiles (h : ExactCover lo hi a b l) (hab : a ≤ b) :
    ∃ walk, (∀ s ∈ walk, s ∈ l) ∧ Tiles lo hi a b walk := by
  have hwalk : ∀ n p, a ≤ p → p ≤ b → (b - p).toNat = n →
      (p = a ∨ ∃ t ∈ l, lo t < hi t ∧ hi t = p) →
      ∃ walk, (∀ s ∈ walk, s ∈ l) ∧ Tiles lo hi p b walk := by
    intro n
    induction n using Nat.strongRecOn with
    | ind n ih =>
      intro p hap hpb hn hp
      by_cases hend : p = b
      · exact ⟨[], by simp, hend ▸ .nil p⟩
      obtain ⟨s, hs, hstart, hlt, hle⟩ := h.next hap (by omega) hp
      clear hp
      have hless : (b - hi s).toNat < n := by omega
      have hnonempty : lo s < hi s := hstart ▸ hlt
      obtain ⟨walk, hmem, htiles⟩ :=
        ih _ hless (hi s) (by omega) hle rfl (.inr ⟨s, hs, hnonempty, rfl⟩)
      exact ⟨s :: walk, List.forall_mem_cons.mpr ⟨hs, hmem⟩, .cons hstart hlt htiles⟩
  exact hwalk _ a (Int.le_refl a) hab rfl (.inl rfl)

end TokenGateway.Base
