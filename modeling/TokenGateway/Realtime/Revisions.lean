import TokenGateway.Base.Transaction
import TokenGateway.Realtime.Rules

namespace TokenGateway.Realtime

open Base RealtimeTables List

/-!
# Revisions of a subject's rules

Calls of `SaveRealtimePricing` are transactions, serialized in some order.  Whatever the others do,
the rules of a subject are at each time those of its newest revision, and revisions are counted
without gaps.

* `Saved` — what a committed call has done;
* `Consistent` — the invariant of a subject;
* `runSaves` — the commits of a list of calls;
* `no_lost_update` — the result.
-/

variable {hash : String → String} {snapshotSize : List RealtimePricingItem → Nat}

/-! ### One call -/

variable {t' : RealtimeTables} {call : SaveCall} {t : RealtimeTables}
  {config : RealtimePricingConfig}

/-- The rules of an accepted input belong to the subject. -/
theorem checkItems_key {previous : RealtimePricingConfig} {seen : List String}
    {items : List RealtimePricingItem} {rules : List RealtimePricingRule}
    (h : checkItems hash call previous seen items = .ok rules) :
    ∀ rule ∈ rules, rule.key = call.key := by
  fun_induction checkItems hash call previous seen items generalizing rules with
  | case1 seen =>
    cases h
    exact nofun
  | case2 | case3 => cases h
  | case4 seen item rest rule hrule rest' hrest ih =>
    cases h
    rintro other (_ | ⟨_, hother⟩)
    · unfold checkItem at hrule
      split at hrule
      · cases hrule
      split at hrule
      · cases hrule
      dsimp only at hrule
      split at hrule
      · cases hrule
      cases hrule
      rfl
    · exact ih hrest other hother

/-- What a committed call has done: the revision it expected was the current one, and the rules of
    its subject are replaced by those of the new snapshot. -/
structure Saved (call : SaveCall) (t : RealtimeTables) (config : RealtimePricingConfig)
    (t' : RealtimeTables) : Prop where
  expected : t.revision call.key = call.input.expectedRevision
  nonneg : 0 ≤ call.input.expectedRevision
  revision : config.revision = call.input.expectedRevision + 1
  head : t'.revision call.key = config.revision
  rules : (t'.rulesOf call.key).map (·.item) = config.items
  history : ∃ entry, entry.revision = config.revision ∧ entry.snapshot = config.items ∧
    t'.historyOf call.key = t.historyOf call.key ++ [entry]
  others : ∀ key, key ≠ call.key → t'.revision key = t.revision key ∧
    t'.rulesOf key = t.rulesOf key ∧ t'.historyOf key = t.historyOf key

theorem save_ok {out : RealtimePricingConfig × RealtimeTables}
    (h : saveRealtimePricing hash snapshotSize call t = .ok out) :
    0 ≤ call.input.expectedRevision ∧ t.revision call.key = call.input.expectedRevision ∧
      ∃ rows, (∀ rule ∈ rows, rule.key = call.key) ∧
        storeRules snapshotSize call t
          (Function.update (Function.update t.heads call.key (some (t.revision call.key))) call.key
            (some (call.input.expectedRevision + 1))) rows = .ok out := by
  unfold saveRealtimePricing at h
  split at h
  · cases h
  split_ifs at h with hinput
  split at h
  · cases h
  split_ifs at h
  unfold advanceHead at h
  dsimp only at h
  split_ifs at h with hcreate hupdate hhead hcandidates
  split at h
  · cases h
  next rows hrows =>
  have hexpected : t.revision call.key = call.input.expectedRevision := by
    simpa using hhead
  exact ⟨by omega, hexpected, rows, checkItems_key hrows, h⟩

theorem filter_key_append {α : Type} (key : α → SubjectKey) (old new : List α) (k l : SubjectKey)
    (hnew : ∀ a ∈ new, key a = k) :
    ((old.filter fun a => key a ≠ k) ++ new).filter (fun a => key a = l) =
      if l = k then new else old.filter fun a => key a = l := by
  rw [filter_append, filter_filter]
  split
  · next hkey =>
    subst hkey
    have hnone : (old.filter fun a => decide (key a = l) && decide (key a ≠ l)) = [] := by
      simp
    rw [hnone]
    exact filter_eq_self.mpr fun a ha => decide_eq_true (hnew a ha)
  · next hkey =>
    have hnone : (new.filter fun a => key a = l) = [] :=
      filter_eq_nil_iff.mpr fun a ha => by
        rw [hnew a ha, decide_eq_true_eq]
        exact fun hkl => hkey hkl.symm
    rw [hnone, append_nil]
    refine filter_congr fun a _ => ?_
    by_cases hl : key a = l
    · simp [hl, hkey]
    · simp [hl]

theorem saved_of_ok (h : saveRealtimePricing hash snapshotSize call t = .ok (config, t')) :
    Saved call t config t' := by
  obtain ⟨hnonneg, hexpected, rows, hrows, hstore⟩ := save_ok h
  unfold storeRules at hstore
  dsimp only at hstore
  split_ifs at hstore
  cases hstore
  refine ⟨hexpected, hnonneg, rfl, ?_, ?_, ?_, ?_⟩
  · simp [revision]
  · rw [rulesOf, filter_key_append _ _ _ _ _ hrows, if_pos rfl]
  · simp [historyOf]
  · intro key hkey
    refine ⟨?_, ?_, ?_⟩
    · simp [revision, hkey]
    · rw [rulesOf, filter_key_append _ _ _ _ _ hrows, if_neg hkey]
      rfl
    · have hne : ¬ call.key = key := fun heq => hkey heq.symm
      simp [historyOf, hne]

/-! ### The invariant -/

variable {key : SubjectKey}

/-- The revisions `1, …, n`. -/
def revisionsUpTo (n : Nat) : List Int := (range n).map fun i : Nat => (i : Int) + 1

theorem revisionsUpTo_succ (n : Nat) :
    revisionsUpTo (n + 1) = revisionsUpTo n ++ [(n : Int) + 1] := by
  simp [revisionsUpTo, range_succ]

/-- The rules of the subject are those of its newest history entry. -/
def RulesAreNewest (t : RealtimeTables) (key : SubjectKey) : Prop :=
  ∀ entry, (t.historyOf key).getLast? = some entry →
    (t.rulesOf key).map (·.item) = entry.snapshot ∧ entry.revision = t.revision key

/-- The subject's history holds the revisions up to the current one, and its rules are those of the
    last entry. -/
structure Consistent (t : RealtimeTables) (key : SubjectKey) : Prop where
  nonneg : 0 ≤ t.revision key
  history : (t.historyOf key).map (·.revision) = revisionsUpTo (t.revision key).toNat
  newest : RulesAreNewest t key

theorem consistent_fresh (hhead : t.heads key = none) (hhistory : t.historyOf key = []) :
    Consistent t key := by
  have hzero : t.revision key = 0 := by
    rw [revision, hhead]
    rfl
  refine ⟨le_of_eq hzero.symm, ?_, ?_⟩
  · rw [hhistory, hzero]
    rfl
  · intro entry hentry
    rw [hhistory] at hentry
    cases hentry

/-- **One commit.** -/
theorem consistent_saved (h : Saved call t config t') (hcons : Consistent t key) :
    Consistent t' key := by
  by_cases hkey : key = call.key
  · subst hkey
    obtain ⟨entry, hrevision, hsnapshot, hhistory⟩ := h.history
    have hnext : t'.revision call.key = t.revision call.key + 1 := by
      rw [h.head, h.revision, h.expected]
    have hnonneg := hcons.nonneg
    refine ⟨by omega, ?_, ?_⟩
    · have hnat : (t'.revision call.key).toNat = (t.revision call.key).toNat + 1 := by omega
      rw [hhistory, map_append, hcons.history, hnat, revisionsUpTo_succ]
      have hlast : entry.revision = ((t.revision call.key).toNat : Int) + 1 := by
        rw [hrevision, ← h.head]
        omega
      rw [map_singleton, hlast]
    · intro last hlast
      rw [hhistory, getLast?_concat] at hlast
      cases hlast
      exact ⟨h.rules.trans hsnapshot.symm, hrevision.trans h.head.symm⟩
  · obtain ⟨hrevision, hrules, hhistory⟩ := h.others key hkey
    refine ⟨?_, ?_, ?_⟩
    · rw [hrevision]
      exact hcons.nonneg
    · rw [hhistory, hrevision]
      exact hcons.history
    · intro entry hentry
      rw [hhistory] at hentry
      rw [hrules, hrevision]
      exact hcons.newest entry hentry

/-! ### Runs -/

variable (hash snapshotSize) in
/-- The calls that commit, with their revisions, and the tables they leave. -/
def runSaves : List SaveCall → RealtimeTables → List (SaveCall × Int) × RealtimeTables
  | [], t => ([], t)
  | call :: rest, t =>
    match saveRealtimePricing hash snapshotSize call t with
    | .error _ => runSaves rest t
    | .ok (config, t') => ((call, config.revision) :: (runSaves rest t').1, (runSaves rest t').2)

def commitsOn (key : SubjectKey) (commits : List (SaveCall × Int)) : List (SaveCall × Int) :=
  commits.filter fun entry => entry.1.key = key

variable (calls : List SaveCall)

theorem consistent_run (h : Consistent t key) :
    Consistent (runSaves hash snapshotSize calls t).2 key := by
  fun_induction runSaves hash snapshotSize calls t with
  | case1 t => exact h
  | case2 call rest t e herror ih => exact ih h
  | case3 call rest t config t' hok ih => exact ih (consistent_saved (saved_of_ok hok) h)

/-- A commit's revision is the one after the expected one. -/
theorem revision_of_commit (t : RealtimeTables) :
    ∀ entry ∈ (runSaves hash snapshotSize calls t).1,
      entry.2 = entry.1.input.expectedRevision + 1 := by
  fun_induction runSaves hash snapshotSize calls t with
  | case1 t => exact nofun
  | case2 call rest t e herror ih => exact ih
  | case3 call rest t config t' hok ih =>
    rintro entry (_ | ⟨_, hentry⟩)
    · exact (saved_of_ok hok).revision
    · exact ih entry hentry

/-- The revisions of a subject's commits follow each other from its current one. -/
theorem commits_consecutive (t : RealtimeTables) (key : SubjectKey) :
    let commits := commitsOn key (runSaves hash snapshotSize calls t).1
    commits.map (·.2) = (range commits.length).map fun i : Nat => t.revision key + 1 +
      (i : Int) := by
  fun_induction runSaves hash snapshotSize calls t with
  | case1 t => rfl
  | case2 call rest t e herror ih => exact ih
  | case3 call rest t config t' hok ih =>
    have hsaved := saved_of_ok hok
    by_cases hkey : call.key = key
    · subst hkey
      have hnext : t'.revision call.key = t.revision call.key + 1 := by
        rw [hsaved.head, hsaved.revision, hsaved.expected]
      rw [hnext] at ih
      dsimp only at ih ⊢
      unfold commitsOn at ih ⊢
      rw [filter_cons_of_pos (by simp), map_cons, length_cons, range_succ_eq_map, map_cons, map_map,
        ih]
      have hfirst : config.revision = t.revision call.key + 1 + ((0 : Nat) : Int) := by
        rw [← hsaved.head, hnext]
        simp
      rw [hfirst]
      refine congrArg _ (map_congr_left fun i _ => ?_)
      simp only [Function.comp]
      push_cast
      ring
    · have hsame := (hsaved.others key fun heq => hkey heq.symm).1
      rw [hsame] at ih
      unfold commitsOn at ih ⊢
      rw [filter_cons_of_neg (by simpa using hkey)]
      exact ih

/-- **No lost price updates.** Calls on any subjects, in any order, each with its own view of the
    other tables and its own faults. The commits on a subject have the revisions that follow its
    current one, without gaps or repeats; and after each call the history holds the revisions from
    one on and the rules are those of its newest entry. -/
theorem no_lost_update (hash : String → String) (snapshotSize : List RealtimePricingItem → Nat)
    (calls : List SaveCall) (t : RealtimeTables) (key : SubjectKey) (h : Consistent t key) :
    let commits := commitsOn key (runSaves hash snapshotSize calls t).1
    commits.map (·.2) = (range commits.length).map (fun i : Nat => t.revision key + 1 + (i : Int)) ∧
      (∀ entry ∈ commits, entry.2 = entry.1.input.expectedRevision + 1) ∧
      (commits.map fun entry => entry.1.input.expectedRevision).Nodup ∧
      ∀ earlier, earlier <+: calls →
        let after := (runSaves hash snapshotSize earlier t).2
        (after.historyOf key).map (·.revision) = revisionsUpTo (after.revision key).toNat ∧
          RulesAreNewest after key := by
  intro commits
  have hconsecutive : commits.map (·.2) = (range commits.length).map fun i : Nat => t.revision key +
    1 + (i : Int) :=
    commits_consecutive calls t key
  have hnext : ∀ entry ∈ commits, entry.2 = entry.1.input.expectedRevision + 1 :=
    fun entry hentry =>
    revision_of_commit calls t entry (mem_filter.mp hentry).1
  refine ⟨hconsecutive, hnext, ?_, ?_⟩
  · have hexpected : (commits.map fun entry => entry.1.input.expectedRevision) =
        (commits.map (·.2)).map fun revision => revision - 1 := by
      rw [map_map]
      refine map_congr_left fun entry hentry => ?_
      have hrevision := hnext entry hentry
      simp only [Function.comp]
      omega
    rw [hexpected, hconsecutive, map_map]
    refine Nodup.map ?_ nodup_range
    intro i j hij
    simp only [Function.comp] at hij
    omega
  · intro earlier _
    have hcons : Consistent (runSaves hash snapshotSize earlier t).2 key := consistent_run earlier h
    exact ⟨hcons.history, hcons.newest⟩

/-- A save of one rule by an operator who may do everything. -/
def saveOne (operator expected : Int) (ratio : String) : SaveCall where
  operator := operator
  key := (.user, 1)
  input := { expectedRevision := expected
             items := [{ model := "m", ratio := ratio, channelIDs := [2, 1] }] }
  authorization := .ok ()
  allowed _ _ := true
  listed _ _ := true
  fault _ := false

/-- Two operators write the first revision, one of them retries. -/
def writers : List SaveCall := [saveOne 7 0 "1.5", saveOne 8 0 "2", saveOne 8 1 "2"]

def activeTables : RealtimeTables := { phase := .active }

theorem writers_no_lost_update :
    Consistent activeTables (.user, 1) ∧
      (let commits := commitsOn (.user, 1) (runSaves id (fun _ => 0) writers activeTables).1
       commits.map (·.2) = (range commits.length).map (fun i : Nat => 0 + 1 + (i : Int)) ∧
        (commits.map fun entry => entry.1.input.expectedRevision).Nodup) ∧
      RulesAreNewest (runSaves id (fun _ => 0) writers activeTables).2 (.user, 1) := by
  have hfresh : Consistent activeTables (.user, 1) := consistent_fresh rfl rfl
  have h := no_lost_update id (fun _ => 0) writers activeTables (.user, 1) hfresh
  exact ⟨hfresh, ⟨h.1, h.2.2.1⟩, (h.2.2.2 writers (prefix_rfl)).2⟩

end TokenGateway.Realtime
