import Mathlib.Data.List.Basic
import Mathlib.Tactic.Ring

namespace TokenGateway.Base

/-!
# Serialized transactions and their runs

A transaction is a partial function on the state: it returns the new state, or an
error and with it the promise that nothing was written.  This file holds what the
proofs about such systems share:

* `seq_ok` — a sequence of statements commits iff each of them does;
* `commit` — the state after a transaction that may have rolled back;
* `run` — the state after a list of steps, and `Reaches`;
* `Along` — every step of a run meets a condition in the state it is taken in;
* `invariant_along` — the induction rule: what one step preserves holds after the whole run.
-/

variable {ε α β σ : Type}

/-- A sequence of two statements commits iff both do, the second on the result of
    the first. -/
theorem seq_ok {first : Except ε α} {next : α → Except ε β} {out : β} :
    (first >>= next) = .ok out ↔ ∃ mid, first = .ok mid ∧ next mid = .ok out := by
  rcases first with e | mid
  · simp [bind, Except.bind]
  · simp [bind, Except.bind]

theorem map_committed {first : Except ε α} {f : α → β} {out : β} :
    first.map f = .ok out ↔ ∃ mid, first = .ok mid ∧ f mid = out := by
  rcases first with e | mid
  · simp [Except.map]
  · simp [Except.map]

/-- The state after a transaction: the new one, or the old one when it rolled back. -/
def commit (s : σ) : Except ε σ → σ
  | .ok s' => s'
  | .error _ => s

@[simp] theorem commit_ok (s s' : σ) : commit s (.ok s' : Except ε σ) = s' := rfl

@[simp] theorem commit_error (s : σ) (e : ε) : commit s (.error e : Except ε σ) = s := rfl

/-- What holds of the old state and of every committed one holds afterwards. -/
theorem commit_of {P : σ → Prop} {s : σ} {r : Except ε σ} (hs : P s)
    (hr : ∀ s', r = .ok s' → P s') : P (commit s r) := by
  cases r with
  | error e => exact hs
  | ok s' => exact hr s' rfl

/-- The state after a list of steps. -/
def run (step : σ → α → σ) (s : σ) (as : List α) : σ := as.foldl step s

section

variable (step : σ → α → σ)
include step

@[simp] theorem run_nil (s : σ) : run step s [] = s := rfl

@[simp] theorem run_cons (s : σ) (a : α) (as : List α) :
    run step s (a :: as) = run step (step s a) as := rfl

theorem run_append (s : σ) (as bs : List α) : run step s (as ++ bs) = run step (run step s as) bs :=
  List.foldl_append

end

/-- Some run leads from `s` to `s'`. -/
def Reaches (step : σ → α → σ) (s s' : σ) : Prop := ∃ as, s' = run step s as

namespace Reaches

variable {step : σ → α → σ} {s s₁ s₂ : σ}

theorem refl (s : σ) : Reaches step s s := ⟨[], rfl⟩

theorem trans (h₁ : Reaches step s s₁) (h₂ : Reaches step s₁ s₂) : Reaches step s s₂ := by
  obtain ⟨as, rfl⟩ := h₁
  obtain ⟨bs, rfl⟩ := h₂
  exact ⟨as ++ bs, (run_append step s as bs).symm⟩

end Reaches

/-- Every step of the run meets `C` in the state it is taken in. -/
def Along (step : σ → α → σ) (C : σ → α → Prop) : σ → List α → Prop
  | _, [] => True
  | s, a :: as => C s a ∧ Along step C (step s a) as

variable {step : σ → α → σ} {C : σ → α → Prop} {I : σ → Prop}

/-- **Invariant rule.** What every step that meets `C` preserves holds after every run
    all of whose steps meet `C`. -/
theorem invariant_along (hstep : ∀ s a, I s → C s a → I (step s a)) (s : σ) (as : List α) (hs : I s)
    (hC : Along step C s as) : I (run step s as) := by
  induction as generalizing s with
  | nil => exact hs
  | cons a as ih => exact ih (step s a) (hstep s a hs hC.1) hC.2

/-- What holds of every step that meets `C` in a state of the invariant holds all along a run
    whose steps meet `C`. -/
theorem along_of_invariant {D : σ → α → Prop} (hstep : ∀ s a, I s → C s a → D s a ∧ I (step s a))
    (s : σ) (as : List α) (hs : I s) (hC : Along step C s as) : Along step D s as := by
  induction as generalizing s with
  | nil => trivial
  | cons a as ih =>
    obtain ⟨hD, hI⟩ := hstep s a hs hC.1
    exact ⟨hD, ih (step s a) hI hC.2⟩

/-- Two conditions that agree in every state of the invariant agree all along a run. -/
theorem along_congr {D E : σ → α → Prop}
    (hstep : ∀ s a, I s → C s a → (D s a ↔ E s a) ∧ (E s a → I (step s a)))
    (s : σ) (as : List α) (hs : I s) (hC : Along step C s as) :
    Along step D s as ↔ Along step E s as := by
  induction as generalizing s with
  | nil => rfl
  | cons a as ih =>
    obtain ⟨hiff, hI⟩ := hstep s a hs hC.1
    rw [Along, Along, hiff]
    exact and_congr_right fun hE => ih (step s a) (hI hE) hC.2

theorem Along.and {D : σ → α → Prop} {s : σ} {as : List α} (hC : Along step C s as)
    (hD : Along step D s as) : Along step (fun s a => C s a ∧ D s a) s as := by
  induction as generalizing s with
  | nil => trivial
  | cons a as ih => exact ⟨⟨hC.1, hD.1⟩, ih hC.2 hD.2⟩

instance (step : σ → α → σ) (C : σ → α → Prop) [∀ s a, Decidable (C s a)] :
    ∀ s as, Decidable (Along step C s as)
  | _, [] => isTrue trivial
  | s, a :: as =>
      have : Decidable (Along step C (step s a) as) := instDecidableAlong step C (step s a) as
      inferInstanceAs (Decidable (C s a ∧ Along step C (step s a) as))

/-- A condition that the steps of the run meet in every state. -/
theorem along_of_forall (s : σ) (as : List α) (h : ∀ a ∈ as, ∀ s, C s a) : Along step C s as := by
  induction as generalizing s with
  | nil => trivial
  | cons a as ih =>
    obtain ⟨hhead, htail⟩ := List.forall_mem_cons.mp h
    exact ⟨hhead s, ih (step s a) htail⟩

theorem invariant_run (hstep : ∀ s a, I s → I (step s a)) (s : σ) (as : List α) (hs : I s) :
    I (run step s as) :=
  invariant_along (C := fun _ _ => True) (fun s a hI _ => hstep s a hI) s as hs
    (along_of_forall s as fun _ _ _ => trivial)

end TokenGateway.Base
