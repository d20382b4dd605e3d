import TokenGateway.Base.Transaction

namespace TokenGateway.Base

/-!
# Append-only logs

What a system has done so far is a list of events that only grows at its end.  Statements about the
order of events say of each event what holds of the events before it:

* `Justified P log` — every event of the log satisfies `P` together with the events that precede it;
* `justified_append` — the rule for a step that may add one event;
* `log_along_iff` — when every step logs only good events exactly if it meets a condition, a run
  does so exactly if all its steps meet the condition.
-/

variable {ε σ α : Type}

/-- Every event of the log is justified by the events before it. -/
def Justified (P : List ε → ε → Prop) (log : List ε) : Prop :=
  ∀ before event later, log = before ++ event :: later → P before event

theorem justified_nil (P : List ε → ε → Prop) : Justified P [] := by
  intro before event later h
  exact absurd h.symm (by simp)

/-- A log stays justified when its new event, if there is one, is justified by all of it. -/
theorem justified_append {P : List ε → ε → Prop} {log : List ε} {new : Option ε}
    (h : Justified P log)
    (hnew : ∀ event ∈ new, P log event) : Justified P (log ++ new.toList) := by
  cases new with
  | none => simpa using h
  | some new =>
    intro before event later heq
    rw [List.append_eq_append_iff] at heq
    obtain ⟨rest, hbefore, hrest⟩ | ⟨rest, hlog, hrest⟩ := heq
    · -- the event is the new one
      obtain ⟨rfl, hevent⟩ : rest = [] ∧ new = event := by
        cases rest with
        | nil => exact ⟨rfl, (List.cons.inj hrest).1⟩
        | cons x xs => exact absurd (List.cons.inj hrest).2 (by simp)
      rw [hbefore, List.append_nil, ← hevent]
      exact hnew new rfl
    · -- the event is an old one, or the new one right after the old log
      cases rest with
      | nil =>
        rw [List.append_nil] at hlog
        rw [← hlog, (List.cons.inj hrest).1]
        exact hnew new rfl
      | cons x xs =>
        rw [(List.cons.inj hrest).1]
        exact h before x xs hlog

theorem log_along_iff {step : σ → α → σ} {log : σ → List ε} {P : ε → Prop} {C : σ → α → Prop}
    {I : σ → Prop}
    (hstep : ∀ s a, I s → I (step s a) ∧ ∃ new, log (step s a) = log s ++ new ∧
      ((∀ event ∈ new, P event) ↔ C s a))
    (s : σ) (as : List α) (hs : I s) :
    (∀ event ∈ log (run step s as), P event) ↔ (∀ event ∈ log s, P event) ∧ Along step C s as := by
  induction as generalizing s with
  | nil => exact ⟨fun h => ⟨h, trivial⟩, fun h => h.1⟩
  | cons a as ih =>
    obtain ⟨hnext, new, hlog, hnew⟩ := hstep s a hs
    rw [run_cons, ih (step s a) hnext, hlog, List.forall_mem_append, hnew, and_assoc]
    rfl

end TokenGateway.Base
