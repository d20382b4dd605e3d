import Mathlib.Data.Option.Basic

namespace TokenGateway.Base

/-!
# Computations with a state that may fail

What an interpreter with side effects computes: a result or a failure, and in both cases the
state it has reached, since the effects before a failure stay visible.

* `Run` — such computations, a monad;
* `Run.Sim` — two computations run in step: they fail together or succeed with related results,
  and leave related states;
* `Run.Refines` — whenever the first succeeds the second does, with a related result;
* `Run.RefinesTo` — the same for the runs of the first that end in states of a class, which has to
  be closed under going back along the run (`Run.Back`);
* `Run.Keeps` — a computation moves the state within a preorder, and its results satisfy a
  predicate.

The relations are closed under sequencing (`Sim.bind`, `Refines.bind`, `Keeps.bind`), so that a
proof about an interpreter needs one lemma for each construct of the language.
-/

/-- A computation on the state `σ` that may fail. -/
def Run (σ α : Type) : Type := σ → Option α × σ

namespace Run

variable {σ τ α β γ δ : Type}

/-- Fail, and leave the state as it is. -/
def fail : Run σ α := fun s => (none, s)

/-- A result that does not depend on the state. -/
def lift (o : Option α) : Run σ α := fun s => (o, s)

/-- Continue with the result of the first computation, in the state it left. -/
def andThen (x : Run σ α) (f : α → Run σ β) : Run σ β := fun s =>
  match x s with
  | (some a, s') => f a s'
  | (none, s') => (none, s')

instance : Monad (Run σ) where
  pure a := fun s => (some a, s)
  bind := andThen

@[simp] theorem pure_apply (a : α) (s : σ) : (pure a : Run σ α) s = (some a, s) := rfl

@[simp] theorem lift_some (a : α) : (lift (some a) : Run σ α) = pure a := rfl

variable {x : Run σ α} {f : α → Run σ β} {s s' : σ} {a : α} {b : β} {o : Option α} {o' : Option β}

theorem bind_of_some (h : x s = (some a, s')) : (x >>= f) s = f a s' := by
  show andThen x f s = f a s'
  simp [andThen, h]

theorem bind_of_none (h : x s = (none, s')) : (x >>= f) s = (none, s') := by
  show andThen x f s = (none, s')
  simp [andThen, h]

@[simp] theorem pure_bind (a : α) (f : α → Run σ β) : ((pure a : Run σ α) >>= f) = f a := rfl

theorem bind_assoc (x : Run σ α) (f : α → Run σ β) (g : β → Run σ γ) :
    ((x >>= f) >>= g) = (x >>= fun a => f a >>= g) := by
  funext s
  cases hx : x s with
  | mk o s' =>
    cases o with
    | none =>
      have hf : (x >>= f) s = (none, s') := bind_of_none hx
      rw [bind_of_none hf, bind_of_none hx]
    | some a =>
      show andThen (x >>= f) g s = _
      simp only [andThen, bind_of_some hx]
      rfl

/-- A sequence succeeds iff both parts do, the second in the state the first left. -/
theorem bind_eq_some {s'' : σ} :
    (x >>= f) s = (some b, s'') ↔ ∃ a s', x s = (some a, s') ∧ f a s' = (some b, s'') := by
  cases hx : x s with
  | mk o s' =>
    cases o with
    | none => simp [bind_of_none hx]
    | some a =>
      rw [bind_of_some hx]
      constructor
      · intro h
        exact ⟨a, s', rfl, h⟩
      · rintro ⟨a', t, hat, h⟩
        obtain ⟨rfl, rfl⟩ : a = a' ∧ s' = t := by simpa using hat
        exact h

/-- When a lifted option returns. -/
theorem lift_eq_some : (lift o : Run σ α) s = (some a, s') ↔ o = some a ∧ s = s' := by
  simp [lift]

theorem pure_eq_some {b : α} : (pure b : Run σ α) s = (some a, s') ↔ b = a ∧ s = s' := by
  simp

/-! ### Running in step -/

/-- From related states, both computations fail or both succeed with related results, and the
    states they leave are related. -/
def Sim (R : σ → τ → Prop) (Q : α → β → Prop) (x : Run σ α) (y : Run τ β) : Prop :=
  ∀ s t, R s t → Option.Rel Q (x s).1 (y t).1 ∧ R (x s).2 (y t).2

theorem rel_eq {x y : Option α} (h : Option.Rel Eq x y) : x = y := by
  cases h with
  | none => rfl
  | some h => rw [h]

section Sim

variable {R : σ → τ → Prop} {Q : α → β → Prop} {P : γ → δ → Prop}

theorem Sim.pure (h : Q a b) : Sim R Q (pure a) (pure b) :=
  fun _ _ hst => ⟨.some h, hst⟩

theorem Sim.fail : Sim R Q fail fail := fun _ _ hst => ⟨.none, hst⟩

theorem Sim.lift (h : Option.Rel Q o o') : Sim R Q (lift o) (lift o') :=
  fun _ _ hst => ⟨h, hst⟩

/-- Simulations compose. -/
theorem Sim.bind {y : Run τ β} {f : α → Run σ γ} {g : β → Run τ δ}
    (hxy : Sim R Q x y) (hfg : ∀ a b, Q a b → Sim R P (f a) (g b)) :
    Sim R P (x >>= f) (y >>= g) := by
  intro s t hst
  obtain ⟨hres, hst'⟩ := hxy s t hst
  cases hx : x s with
  | mk o s' =>
    cases hy : y t with
    | mk o' t' =>
      rw [hx, hy] at hres hst'
      cases hres with
      | none =>
        rw [bind_of_none hx, bind_of_none hy]
        exact ⟨.none, hst'⟩
      | some hab =>
        rw [bind_of_some hx, bind_of_some hy]
        exact hfg _ _ hab s' t' hst'

end Sim

/-! ### Refinement of successful runs -/

/-- From related states, every successful run of the first computation is matched by one of the
    second, with a related result in a related state. -/
def Refines (R : σ → τ → Prop) (Q : α → β → Prop) (x : Run σ α) (y : Run τ β) : Prop :=
  ∀ s t, R s t → ∀ a s', x s = (some a, s') → ∃ b t', y t = (some b, t') ∧ Q a b ∧ R s' t'

/-- The same for the runs of the first computation that end in an `ok` state. -/
def RefinesTo (ok : σ → Prop) (R : σ → τ → Prop) (Q : α → β → Prop) (x : Run σ α) (y : Run τ β) :
    Prop :=
  ∀ s t, R s t → ∀ a s', x s = (some a, s') → ok s' → ∃ b t', y t = (some b, t') ∧ Q a b ∧ R s' t'

/-- A successful run that ends in an `ok` state started in one. -/
def Back (ok : σ → Prop) (x : Run σ α) : Prop := ∀ s a s', x s = (some a, s') → ok s' → ok s

section RefinesTo

variable {ok : σ → Prop} {R : σ → τ → Prop} {Q Q' : α → β → Prop} {P : γ → δ → Prop}

theorem Back.pure : Back ok (pure a) := by
  intro s a' s' hrun hok
  obtain ⟨-, rfl⟩ := pure_eq_some.mp hrun
  exact hok

theorem Back.lift : Back ok (lift o) := by
  intro s a s' hrun hok
  obtain ⟨-, rfl⟩ := lift_eq_some.mp hrun
  exact hok

/-- Going back composes. -/
theorem Back.bind {f : α → Run σ γ} (hx : Back ok x) (hf : ∀ a, Back ok (f a)) :
    Back ok (x >>= f) := by
  intro s c s'' hrun hok
  obtain ⟨a, s', hxs, hfs⟩ := bind_eq_some.mp hrun
  exact hx s a s' hxs (hf a s' c s'' hfs hok)

theorem RefinesTo.pure (h : Q a b) : RefinesTo ok R Q (pure a) (pure b) := by
  intro s t hst a' s' hrun _
  obtain ⟨rfl, rfl⟩ := pure_eq_some.mp hrun
  exact ⟨b, t, rfl, h, hst⟩

variable {y : Run τ β}

theorem RefinesTo.fail : RefinesTo ok R Q fail y := by
  intro s t _ a s' hrun
  cases hrun

theorem RefinesTo.lift (h : ∀ a, o = some a → ∃ b, o' = some b ∧ Q a b) :
    RefinesTo ok R Q (lift o) (lift o') := by
  intro s t hst a s' hrun _
  obtain ⟨ha, rfl⟩ := lift_eq_some.mp hrun
  obtain ⟨b, hb, hab⟩ := h a ha
  exact ⟨b, t, lift_eq_some.mpr ⟨hb, rfl⟩, hab, hst⟩

section

variable (hxy : RefinesTo ok R Q x y)
include hxy

/-- Refinements compose if the second parts go back. -/
theorem RefinesTo.bind {f : α → Run σ γ} {g : β → Run τ δ} (hback : ∀ a, Back ok (f a))
    (hfg : ∀ a b, Q a b → RefinesTo ok R P (f a) (g b)) : RefinesTo ok R P (x >>= f) (y >>= g) := by
  intro s t hst c s'' hrun hok
  obtain ⟨a, s', hx, hf⟩ := bind_eq_some.mp hrun
  obtain ⟨b, t', hy, hab, hst'⟩ := hxy s t hst a s' hx (hback a s' c s'' hf hok)
  obtain ⟨d, t'', hg, hcd, hst''⟩ := hfg a b hab s' t' hst' c s'' hf hok
  exact ⟨d, t'', bind_eq_some.mpr ⟨b, t', hy, hg⟩, hcd, hst''⟩

/-- A step that only the first computation makes: a test or a cast of the result. -/
theorem RefinesTo.test {o : α → Option α} (h : ∀ a b a', Q a b → o a = some a' → Q' a' b) :
    RefinesTo ok R Q' (x >>= fun a => Run.lift (o a)) y := by
  intro s t hst c s'' hrun hok
  obtain ⟨a, s', hx, hf⟩ := bind_eq_some.mp hrun
  obtain ⟨ho, rfl⟩ := lift_eq_some.mp hf
  obtain ⟨b, t', hy, hab, hst'⟩ := hxy s t hst a s' hx hok
  exact ⟨b, t', hy, h a b c hab ho, hst'⟩

/-- A weaker relation of the results. -/
theorem RefinesTo.mono (h : ∀ a b, Q a b → Q' a b) : RefinesTo ok R Q' x y := by
  intro s t hst a s' hrun hok
  obtain ⟨b, t', hy, hab, hst'⟩ := hxy s t hst a s' hrun hok
  exact ⟨b, t', hy, h a b hab, hst'⟩

end

end RefinesTo

section Refines

variable {R : σ → τ → Prop} {Q : α → β → Prop} {P : γ → δ → Prop} {y : Run τ β}

/-- Refinement is refinement without a condition. -/
theorem refines_iff : Refines R Q x y ↔ RefinesTo (fun _ => True) R Q x y :=
  forall₅_congr fun _ _ _ _ _ => forall_congr' fun _ => (forall_const True).symm

theorem Refines.pure (h : Q a b) : Refines R Q (pure a) (pure b) :=
  refines_iff.mpr (.pure h)

theorem Refines.fail : Refines R Q fail y := refines_iff.mpr .fail

theorem Refines.lift (h : ∀ a, o = some a → ∃ b, o' = some b ∧ Q a b) :
    Refines R Q (lift o) (lift o') :=
  refines_iff.mpr (.lift h)

/-- Refinements compose. -/
theorem Refines.bind {f : α → Run σ γ} {g : β → Run τ δ} (hxy : Refines R Q x y)
    (hfg : ∀ a b, Q a b → Refines R P (f a) (g b)) : Refines R P (x >>= f) (y >>= g) :=
  refines_iff.mpr ((refines_iff.mp hxy).bind (fun _ _ _ _ _ _ => trivial) fun a b hab =>
    refines_iff.mp (hfg a b hab))

end Refines

/-! ### What a computation leaves alone -/

/-- Every state the computation leaves is related to the one it started in, and every result
    satisfies `Q`. -/
def Keeps (I : σ → σ → Prop) (Q : α → Prop) (x : Run σ α) : Prop :=
  ∀ s, I s (x s).2 ∧ ∀ a, (x s).1 = some a → Q a

section Keeps

variable {I : σ → σ → Prop} {Q : α → Prop} {P : β → Prop}

theorem Keeps.pure (hI : ∀ s, I s s) (h : Q a) : Keeps I Q (pure a) :=
  fun s => ⟨hI s, fun _ ha => Option.some.inj ha ▸ h⟩

theorem Keeps.lift (hI : ∀ s, I s s) (h : ∀ a, o = some a → Q a) : Keeps I Q (lift o) :=
  fun s => ⟨hI s, h⟩

theorem Keeps.fail (hI : ∀ s, I s s) : Keeps I Q fail := fun s => ⟨hI s, nofun⟩

/-- Invariants of sequences. -/
theorem Keeps.bind (hI : ∀ s t u, I s t → I t u → I s u)
    (hx : Keeps I Q x) (hf : ∀ a, Q a → Keeps I P (f a)) : Keeps I P (x >>= f) := by
  intro s
  obtain ⟨hstate, hres⟩ := hx s
  cases hxs : x s with
  | mk o s' =>
    rw [hxs] at hstate hres
    cases o with
    | none =>
      rw [bind_of_none hxs]
      exact ⟨hstate, nofun⟩
    | some a =>
      rw [bind_of_some hxs]
      obtain ⟨hstate', hres'⟩ := hf a (hres a rfl) s'
      exact ⟨hI _ _ _ hstate hstate', hres'⟩

theorem Keeps.of_some (hx : Keeps I Q x) (h : x s = (some a, s')) : I s s' ∧ Q a := by
  obtain ⟨hstate, hres⟩ := hx s
  rw [h] at hstate hres
  exact ⟨hstate, hres a rfl⟩

/-- Every result of the computation satisfies `Q`. -/
abbrev Returns (Q : α → Prop) (x : Run σ α) : Prop := Keeps (fun _ _ => True) Q x

theorem returns_any (x : Run σ α) :
    Returns (fun _ => True) x := fun _ => ⟨trivial, fun _ _ => trivial⟩

/-- Postconditions of sequences. -/
theorem Returns.bind (hx : Returns Q x) (hf : ∀ a, Q a → Returns P (f a)) : Returns P (x >>= f) :=
  Keeps.bind (fun _ _ _ _ _ => trivial) hx hf

/-- A postcondition of the refined run joins the relation. -/
theorem Refines.and {γ : Type} {R : σ → τ → Prop} {Q' : α → γ → Prop} {y : Run τ γ}
    (h : Refines R Q' x y) (hx : Returns Q x) : Refines R (fun a b => Q' a b ∧ Q a) x y := by
  intro s t hst a s' hrun
  obtain ⟨b, t', hy, hab, hst'⟩ := h s t hst a s' hrun
  exact ⟨b, t', hy, ⟨hab, (hx.of_some hrun).2⟩, hst'⟩

/-- A continuation is only asked about results. -/
theorem Returns.bind_congr {g : α → Run σ β} (hx : Returns Q x) (h : ∀ a, Q a → f a = g a) :
    (x >>= f) = (x >>= g) := by
  funext s
  cases hxs : x s with
  | mk o s' =>
    cases o with
    | none => rw [bind_of_none hxs, bind_of_none hxs]
    | some a => rw [bind_of_some hxs, bind_of_some hxs, h a (hx.of_some hxs).2]

end Keeps

end Run

end TokenGateway.Base
