import Mathlib

namespace TokenGateway.Authz

open List

/-!
# Permissions of users

`service/authz`: the rule table, the policy that is loaded from it, and the overrides that an
administrator sets for a user.  The overrides of a resource are stored as differences to the
baseline of the admin role, read from the policy in memory.

* `loadPolicy`, `can` — the policy in memory and its answers;
* `setUserPermissionsInTx` — replaces a user's rules for the resources of a map;
* `setUserPermissionsInTx_effect` — after a reload the map holds, and nothing else has changed.
-/

/-! ### Rules and permissions -/

/-- A row of the rule table; the columns together are unique. -/
structure CasbinRule where
  id : Nat := 0
  (ptype v0 v1 v2 v3 : String)
  (v4 v5 : String := "")
  deriving DecidableEq

/-- A rule in memory. -/
structure Policy where
  (subject resource action effect : String)
  deriving DecidableEq

structure Permission where
  (resource action : String)
  deriving DecidableEq

/-- The entries of a map, in the order of its iteration; actions are only looked up. -/
structure PermissionsMap where
  entries : List (String × (String → Option Bool))
  nodup : (entries.map Prod.fst).Nodup

structure ResourceDefinition where
  resource : String
  actions : List String

def registry : List ResourceDefinition :=
  [⟨"audit", ["read"]⟩, ⟨"channel", ["read", "operate", "write", "sensitive_write", "secret_view"]⟩,
    ⟨"reseller", ["create", "quota"]⟩,
    ⟨"account_security", ["recover"]⟩,
    ⟨"task_plugin", ["bind"]⟩]

def effectAllow : String := "allow"
def effectDeny : String := "deny"
def builtInRoleRoot : String := "root"
def builtInRoleAdmin : String := "admin"
def managedRoleKey : String := builtInRoleAdmin
def roleAdminUser : Int := 10
def roleRootUser : Int := 100

def userSubject (userID : Int) : String := "user:" ++ toString userID
def roleSubject (roleKey : String) : String := "role:" ++ roleKey

def isKnownResource (resource : String) : Bool := registry.any (·.resource = resource)

def catalogActions (resource : String) : List String :=
  ((registry.find? (·.resource = resource)).map (·.actions)).getD []

def isKnownPermission (p : Permission) : Bool :=
  registry.any fun known => known.resource = p.resource ∧ p.action ∈ known.actions

/-! ### The policy in memory -/

/-- One round of `LoadPolicy`: nothing, or the rule that is added to the model. -/
def loadRule (rule : CasbinRule) : Except String (Option Policy) :=
  if rule.ptype ≠ "p" then .ok none
  else if rule.v0 = "" ∨ rule.v1 = "" ∨ rule.v2 = "" then
    .error s!"authorization policy {rule.id} is missing a subject, resource or action"
  else
    let effect := if rule.v3 = "" then effectAllow else rule.v3
    if effect ≠ effectAllow ∧ effect ≠ effectDeny then
      .error s!"authorization policy {rule.id} has an invalid effect"
    else if rule.v5 ≠ "" ∨ rule.v4 ≠ "" ∧ rule.v4 ≠ "all" then
      .ok (some ⟨rule.v0, rule.v1, rule.v2, effectDeny⟩)
    else .ok (some ⟨rule.v0, rule.v1, rule.v2, effect⟩)

/-- `LoadPolicyArray` of casbin: it loads a rule to the model and skips a duplicated policy. -/
def addPolicy (policy : List Policy) : Option Policy → List Policy
  | some p => if p ∈ policy then policy else policy ++ [p]
  | none => policy

def loadPolicy (rules : List CasbinRule) : Except String (List Policy) :=
  rules.foldlM (fun policy rule => (loadRule rule).map (addPolicy policy)) []

variable (enforcer : Option (List Policy))

def reloadPolicy (rules : List CasbinRule) : Except String (List Policy) :=
  match enforcer with
  | none => .error "authz enforcer is not initialized"
  | some _ => loadPolicy rules

def policyEffect (policy : Policy) : String :=
  if policy.effect = "" then effectAllow else policy.effect

/-- The loop of `explicitSubjectEffect`. -/
def effectLoop : List Policy → Bool → Option String
  | [], hasAllow => if hasAllow then some effectAllow else none
  | policy :: policies, hasAllow =>
    if policyEffect policy = effectDeny then some effectDeny
    else if policyEffect policy = effectAllow then effectLoop policies true
    else effectLoop policies hasAllow

/-- `GetFilteredPolicy` of casbin, from field 0: the rules whose fields have the given values.  An
    empty value would match any; those of subjects and permissions are not empty. -/
def getFilteredPolicy (e : List Policy) (subject : String) (p : Permission) : List Policy :=
  e.filter fun q => q.subject = subject ∧ q.resource = p.resource ∧ q.action = p.action

def explicitSubjectEffect (e : List Policy) (subject : String) (p : Permission) : Option String :=
  effectLoop (getFilteredPolicy e subject p) false

def roleBaselineAllows (e : List Policy) (roleKey : String) (p : Permission) : Bool :=
  explicitSubjectEffect e (roleSubject roleKey) p = some effectAllow

def resolveSubjectRoles (systemRole : Int) : List String :=
  if roleRootUser ≤ systemRole then [builtInRoleRoot]
  else if roleAdminUser ≤ systemRole then [builtInRoleAdmin]
  else []

def isSuperuserRole (roleKey : String) : Bool := roleKey = builtInRoleRoot

def can (userID systemRole : Int) (p : Permission) : Bool :=
  let roles := resolveSubjectRoles systemRole
  if roles = [] then false
  else if roles.any isSuperuserRole then true
  else if isKnownPermission p = false then false
  else
    match enforcer with
    | none => false
    | some e =>
      match explicitSubjectEffect e (userSubject userID) p with
      | some effect => effect = effectAllow
      | none => roles.any fun role => roleBaselineAllows e role p

/-! ### Setting permissions -/

/-- The rule table, with the counter of its primary key. -/
structure RuleTable where
  nextId : Nat
  rules : List CasbinRule

/-- An `INSERT` that does nothing on a conflict. -/
def RuleTable.create (table : RuleTable) (rule : CasbinRule) : RuleTable :=
  if ∃ old ∈ table.rules, { old with id := 0 } = rule then table
  else { nextId := table.nextId + 1, rules := table.rules ++ [{ rule with id := table.nextId }] }

def newRule (ptype : String) (policy : Policy) : CasbinRule :=
  { ptype, v0 := policy.subject, v1 := policy.resource, v2 := policy.action, v3 := policy.effect }

/-- The overrides that differ from the baseline of the managed role. -/
def userOverridePolicies (e : List Policy) (subject resource : String)
    (actions : String → Option Bool) :
    List Policy :=
  let overrides := (catalogActions resource).filterMap fun action =>
    match actions action with
    | none => none
    | some desired =>
      if desired = roleBaselineAllows e managedRoleKey ⟨resource, action⟩ then none
      else some ⟨subject, resource, action, if desired then effectAllow else effectDeny⟩
  overrides.mergeSort fun a b => a.action ≤ b.action

/-- One round of `SetUserPermissionsInTx`. -/
def setResource (e : List Policy) (subject : String) (table : RuleTable)
    (entry : String × (String → Option Bool)) : RuleTable :=
  if isKnownResource entry.1 = false then table
  else
    let kept := table.rules.filter fun rule => ¬ (rule.ptype = "p" ∧ rule.v0 = subject ∧
      rule.v1 = entry.1)
    (userOverridePolicies e subject entry.1 entry.2).foldl (fun t policy =>
      t.create (newRule "p" policy))
      { table with rules := kept }

def setUserPermissionsInTx (table : RuleTable) (userID : Int)
    (permissions : PermissionsMap) : Except String RuleTable :=
  match enforcer with
  | none => .error "authz enforcer is not initialized"
  | some e => .ok (permissions.entries.foldl (setResource e (userSubject userID)) table)

/-! ### What a table loads -/

/-- The table is accepted, and loads the policies `L`. -/
structure Gives (rules : List CasbinRule) (L : Policy → Prop) : Prop where
  accepted : ∀ rule ∈ rules, ∃ loaded, loadRule rule = .ok loaded
  loads : ∀ q, (∃ rule ∈ rules, loadRule rule = .ok (some q)) ↔ L q

variable {table : RuleTable} {rule : CasbinRule} {subject : String} {e e' : List Policy}
  {p : Policy}
  {L : Policy → Prop}

theorem mem_addPolicy (loaded : Option Policy) :
    p ∈ addPolicy e loaded ↔ p ∈ e ∨ loaded = some p := by
  cases loaded with
  | none => simp [addPolicy]
  | some q =>
    rw [addPolicy]
    split
    · rename_i hmem
      exact ⟨.inl, fun h => h.elim id fun heq => Option.some.inj heq ▸ hmem⟩
    · simp [eq_comm]

/-- Loading stops at a rule that is not accepted, or adds the policies of all rules. -/
theorem foldlM_load (rules : List CasbinRule) (e : List Policy) :
    (∃ rule ∈ rules, ∃ text, loadRule rule = .error text) ∧
        (∃ text, rules.foldlM (fun policy rule => (loadRule rule).map (addPolicy policy)) e =
          .error text) ∨
      ∃ e' L, rules.foldlM (fun policy rule => (loadRule rule).map (addPolicy policy)) e = .ok e' ∧
        Gives rules L ∧ ∀ q, q ∈ e' ↔ q ∈ e ∨ L q := by
  induction rules generalizing e with
  | nil => exact .inr ⟨e, fun _ => False, rfl, ⟨by simp, by simp⟩, by simp⟩
  | cons rule rules ih =>
    rw [foldlM_cons]
    cases hrule : loadRule rule with
    | error text => exact .inl ⟨⟨rule, mem_cons_self, text, hrule⟩, text, rfl⟩
    | ok r =>
      obtain ⟨⟨bad, hbad, hrejected⟩, hfold⟩ | ⟨e', L, hfold, hgives, hmem⟩ := ih (addPolicy e r)
      · exact .inl ⟨⟨bad, mem_cons_of_mem _ hbad, hrejected⟩, hfold⟩
      refine .inr ⟨e', fun q => r = some q ∨ L q, hfold, ⟨?_, fun q => ?_⟩, fun q => ?_⟩
      · exact forall_mem_cons.mpr ⟨⟨r, hrule⟩, hgives.accepted⟩
      · rw [exists_mem_cons_iff, hrule, Except.ok.injEq, hgives.loads]
      · rw [hmem, mem_addPolicy, or_assoc]

theorem loadPolicy_gives {rules : List CasbinRule} (h : loadPolicy rules = .ok e) :
    Gives rules (· ∈ e) := by
  obtain ⟨-, text, hfold⟩ | ⟨e', L, hfold, hgives, hmem⟩ := foldlM_load rules []
  · cases hfold.symm.trans h
  · obtain rfl := Except.ok.inj (hfold.symm.trans h)
    exact ⟨hgives.accepted, fun q => by simp [hmem, hgives.loads]⟩

theorem Gives.loadPolicy {rules : List CasbinRule} (h : Gives rules L) :
    ∃ e, loadPolicy rules = .ok e ∧ ∀ q, q ∈ e ↔ L q := by
  obtain ⟨⟨rule, hrule, text, hrejected⟩, -⟩ | ⟨e, L', hfold, hgives, hmem⟩ := foldlM_load rules []
  · obtain ⟨loaded, haccepted⟩ := h.accepted rule hrule
    cases hrejected.symm.trans haccepted
  · exact ⟨e, hfold, fun q => by simp [hmem, ← h.loads, hgives.loads]⟩

theorem loadRule_id (id : Nat) (loaded : Option Policy) :
    loadRule { rule with id := id } = .ok loaded ↔ loadRule rule = .ok loaded := by
  unfold loadRule
  dsimp only
  split_ifs <;> simp

theorem loadRule_some (h : loadRule rule = .ok (some p)) :
    rule.ptype = "p" ∧ rule.v0 = p.subject ∧ rule.v1 = p.resource := by
  unfold loadRule at h
  dsimp only at h
  split_ifs at h with hptype <;> cases h <;> exact ⟨not_not.mp hptype, rfl, rfl⟩

theorem Gives.create (h : Gives table.rules L) (hrule : loadRule rule = .ok (some p)) :
    Gives (table.create rule).rules fun q => L q ∨ q = p := by
  unfold RuleTable.create
  split
  · rename_i hold
    obtain ⟨old, hmem, rfl⟩ := hold
    refine ⟨h.accepted, fun q => (h.loads q).trans ⟨.inl, ?_⟩⟩
    rintro (hq | rfl)
    · exact hq
    · exact (h.loads q).mp ⟨old, hmem, (loadRule_id 0 _).mp hrule⟩
  · have hnew : ∀ q, loadRule { rule with id := table.nextId } = .ok (some q) ↔ q = p := by
      intro q
      rw [loadRule_id, hrule]
      simp [eq_comm]
    refine ⟨forall_mem_append.mpr ⟨h.accepted, forall_mem_singleton.mpr ⟨some p, (hnew p).mpr rfl⟩⟩,
      fun q => ?_⟩
    simp [hnew, h.loads]

theorem Gives.createAll (policies : List Policy) (h : Gives table.rules L)
    (hnew : ∀ p ∈ policies, loadRule (newRule "p" p) = .ok (some p)) :
    Gives (policies.foldl (fun t policy => t.create (newRule "p" policy)) table).rules
      fun q => L q ∨ q ∈ policies := by
  induction policies generalizing table L with
  | nil => simpa using h
  | cons p policies ih =>
    obtain ⟨hp, hrest⟩ := forall_mem_cons.mp hnew
    simpa [or_assoc] using ih (h.create hp) hrest

/-! ### The overrides of a resource -/

section Overrides

variable {resource : String} {actions : String → Option Bool}

theorem mem_userOverridePolicies :
    p ∈ userOverridePolicies e subject resource actions ↔
      p.subject = subject ∧ p.resource = resource ∧ p.action ∈ catalogActions resource ∧
        ∃ desired, actions p.action = some desired ∧
          desired ≠ roleBaselineAllows e managedRoleKey ⟨resource, p.action⟩ ∧
          p.effect = if desired then effectAllow else effectDeny := by
  rw [userOverridePolicies, mem_mergeSort, mem_filterMap]
  constructor
  · rintro ⟨action, haction, h⟩
    split at h
    · cases h
    rename_i desired hdesired
    split at h
    · cases h
    obtain rfl := Option.some.inj h
    exact ⟨rfl, rfl, haction, desired, hdesired, ‹_›, rfl⟩
  · rintro ⟨rfl, rfl, haction, desired, hdesired, hne, heffect⟩
    refine ⟨p.action, haction, ?_⟩
    rw [hdesired]
    dsimp only
    rw [if_neg hne, ← heffect]

theorem registry_named : ∀ known ∈ registry, known.resource ≠ "" ∧ "" ∉ known.actions ∧
    catalogActions known.resource = known.actions := by decide

theorem loadRule_override (hsubject : subject ≠ "") (h : isKnownResource resource = true)
    (hp : p ∈ userOverridePolicies e subject resource actions) :
    loadRule (newRule "p" p) = .ok (some p) := by
  obtain ⟨hs, hr, haction, desired, -, -, heffect⟩ := mem_userOverridePolicies.mp hp
  obtain ⟨known, hmem, hname⟩ := any_eq_true.mp h
  obtain ⟨hresource, hactions, hcatalog⟩ := registry_named known hmem
  rw [of_decide_eq_true hname] at hresource hcatalog
  have hne : p.action ≠ "" := fun hempty => hactions (by rwa [hempty, hcatalog] at haction)
  obtain ⟨_, _, _, _⟩ := p
  subst hs hr heffect
  rw [loadRule, newRule, if_neg (by simp), if_neg (by simp [hsubject, hresource, hne])]
  cases desired <;> rfl

end Overrides

/-- **One resource.** The rules of the user for the resource become the overrides; the others
    stay. -/
theorem Gives.setResource (hsubject : subject ≠ "") (entry : String × (String → Option Bool))
    (h : Gives table.rules L) :
    Gives (setResource e subject table entry).rules fun q =>
      if isKnownResource entry.1 ∧ q.subject = subject ∧ q.resource = entry.1 then
        q ∈ userOverridePolicies e subject entry.1 entry.2 else L q := by
  unfold Authz.setResource
  split
  · rename_i hunknown
    simpa [hunknown] using h
  rename_i hknown
  rw [Bool.not_eq_false] at hknown
  dsimp only
  generalize hkept : (table.rules.filter fun rule =>
    ¬ (rule.ptype = "p" ∧ rule.v0 = subject ∧ rule.v1 = entry.1)) = kept
  have hgives : Gives kept fun q => ¬ (q.subject = subject ∧ q.resource = entry.1) ∧ L q := by
    subst hkept
    refine ⟨fun rule hrule => h.accepted rule (mem_of_mem_filter hrule), fun q => ?_⟩
    rw [← h.loads, ← exists_and_left]
    refine exists_congr fun rule => ?_
    rw [mem_filter, decide_eq_true_eq, and_assoc, and_left_comm]
    refine and_congr_left fun hload => ?_
    obtain ⟨hptype, hv0, hv1⟩ := loadRule_some hload.2
    simp [hptype, hv0, hv1]
  have hall := @Gives.createAll ⟨table.nextId, kept⟩ _
    (userOverridePolicies e subject entry.1 entry.2) hgives
    fun p hp => loadRule_override hsubject hknown hp
  refine ⟨hall.accepted, fun q => (hall.loads q).trans ?_⟩
  by_cases hown : q.subject = subject ∧ q.resource = entry.1
  · simp [hknown, hown]
  have hnot : q ∉ userOverridePolicies e subject entry.1 entry.2 := by
    intro hq
    obtain ⟨hs, hr, -⟩ := mem_userOverridePolicies.mp hq
    exact hown ⟨hs, hr⟩
  simp [hown, hnot]

/-- **All resources.** The rounds of different resources do not meet. -/
theorem Gives.setResources (hsubject : subject ≠ "")
    (entries : List (String × (String → Option Bool)))
    (hnodup : (entries.map Prod.fst).Nodup) (h : Gives table.rules L) :
    ∃ L', Gives (entries.foldl (Authz.setResource e subject) table).rules L' ∧
      (∀ q, q.subject ≠ subject ∨ q.resource ∉ entries.map Prod.fst → (L' q ↔ L q)) ∧
      ∀ entry ∈ entries, isKnownResource entry.1 = true → ∀ q, q.subject = subject →
        q.resource = entry.1 → (L' q ↔ q ∈ userOverridePolicies e subject entry.1 entry.2) := by
  induction entries generalizing table L with
  | nil => exact ⟨L, h, fun _ _ => Iff.rfl, fun _ h => by cases h⟩
  | cons first entries ih =>
    obtain ⟨hnew, hrest⟩ := nodup_cons.mp hnodup
    obtain ⟨L', hgives, hframe, hset⟩ := ih hrest (h.setResource hsubject first)
    refine ⟨L', hgives, fun q hq => ?_, fun entry hentry hknown q hs hr => ?_⟩
    · rw [hframe q (hq.imp_right fun h hmem => h (mem_cons_of_mem _ hmem)), if_neg]
      rintro ⟨-, hs, hr⟩
      exact hq.elim (fun h => h hs) fun h => h (hr ▸ mem_cons_self)
    · obtain rfl | hmem := mem_cons.mp hentry
      · rw [hframe q (.inr (hr ▸ hnew)), if_pos ⟨hknown, hs, hr⟩]
      · exact hset entry hmem hknown q hs hr

/-! ### The answers of a policy -/

theorem effectLoop_eq (policies : List Policy) (hasAllow : Bool) :
    effectLoop policies hasAllow =
      if ∃ q ∈ policies, policyEffect q = effectDeny then some effectDeny
      else if hasAllow ∨ ∃ q ∈ policies, policyEffect q = effectAllow then some effectAllow
        else none := by
  have hne : effectAllow ≠ effectDeny := by decide
  induction policies generalizing hasAllow with
  | nil => simp [effectLoop]
  | cons q policies ih =>
    rw [effectLoop]
    split
    · simp [*]
    · split <;> simp [*]

variable {p : Permission}

/-- An answer depends on which rules there are, not on their order. -/
theorem explicitSubjectEffect_congr (h : ∀ effect,
    (⟨subject, p.resource, p.action, effect⟩ ∈ e ↔ ⟨subject, p.resource, p.action, effect⟩ ∈ e')) :
    explicitSubjectEffect e subject p = explicitSubjectEffect e' subject p := by
  have hmem : ∀ q, q ∈ getFilteredPolicy e subject p ↔ q ∈ getFilteredPolicy e' subject p := by
    intro q
    rw [getFilteredPolicy, getFilteredPolicy, mem_filter, mem_filter]
    refine and_congr_left fun hq => ?_
    obtain ⟨rfl, hr, ha⟩ := of_decide_eq_true hq
    have := h q.effect
    rwa [← hr, ← ha] at this
  simp [explicitSubjectEffect, effectLoop_eq, hmem]

theorem roleSubject_ne (roleKey : String) (userID : Int) :
    roleSubject roleKey ≠ userSubject userID := by
  intro heq
  have hhead := congrArg (fun text => text.toList.head?) heq
  simp [roleSubject, userSubject] at hhead

theorem userSubject_injective {a b : Int} (h : userSubject a = userSubject b) : a = b := by
  have hdigits := congrArg String.toList h
  simp only [userSubject, String.toList_append, append_cancel_left_eq] at hdigits
  exact Int.repr_injective (String.toList_inj.mp hdigits)

/-- What the overrides of a resource make of one of its permissions. -/
theorem explicitSubjectEffect_override {actions : String → Option Bool}
    (hknown : p.action ∈ catalogActions p.resource) (h : ∀ effect,
      (⟨subject, p.resource, p.action, effect⟩ ∈ e' ↔
        ⟨subject, p.resource, p.action, effect⟩ ∈
          userOverridePolicies e subject p.resource actions)) :
    explicitSubjectEffect e' subject p = (actions p.action).bind fun desired =>
      if desired = roleBaselineAllows e managedRoleKey p then none
      else some (if desired then effectAllow else effectDeny) := by
  have hlist : ∀ rules : List Policy, (∀ effect, (⟨subject, p.resource, p.action, effect⟩ ∈ rules ↔
      ∃ desired, actions p.action = some desired ∧ desired ≠ roleBaselineAllows e managedRoleKey p ∧
        effect = if desired then effectAllow else effectDeny)) →
      explicitSubjectEffect e' subject p = explicitSubjectEffect rules subject p := by
    intro rules hrules
    refine explicitSubjectEffect_congr fun effect => (h effect).trans ?_
    rw [hrules, mem_userOverridePolicies]
    simp [hknown]
  cases hdesired : actions p.action with
  | none => exact hlist [] (by simp [hdesired])
  | some desired =>
    by_cases hbase : desired = roleBaselineAllows e managedRoleKey p
    · refine (hlist [] (by simp [hdesired, hbase])).trans ?_
      simp [hbase, explicitSubjectEffect, getFilteredPolicy, effectLoop]
    refine (hlist [⟨subject, p.resource, p.action, if desired then effectAllow else effectDeny⟩]
      ?_).trans ?_
    · simp [hdesired, hbase]
    · cases desired <;> simp [hbase, explicitSubjectEffect, getFilteredPolicy, effectLoop,
        policyEffect, effectAllow, effectDeny]

/-! ### The main result -/

/-- **Setting permissions.** After the commit and a reload, an administrator has what the map says,
    and the baseline for the other permissions of its resources; nothing changes for other users,
    roles and resources. -/
theorem setUserPermissionsInTx_effect {table : RuleTable} {policy : List Policy}
    (hload : loadPolicy table.rules = .ok policy) (userID : Int) (permissions : PermissionsMap) :
    ∃ table' policy', setUserPermissionsInTx (some policy) table userID permissions = .ok table' ∧
      reloadPolicy (some policy) table'.rules = .ok policy' ∧
      (∀ p, isKnownPermission p = true → ∀ actions, (p.resource, actions) ∈ permissions.entries →
        can (some policy') userID roleAdminUser p =
          (actions p.action).getD (roleBaselineAllows policy managedRoleKey p)) ∧
      ∀ other systemRole p, other ≠ userID ∨ resolveSubjectRoles systemRole ≠ [builtInRoleAdmin] ∨
          p.resource ∉ permissions.entries.map Prod.fst →
        can (some policy') other systemRole p = can (some policy) other systemRole p := by
  have hsubject : userSubject userID ≠ "" := by simp [userSubject]
  obtain ⟨L, hgives, hframe, hset⟩ :=
    (loadPolicy_gives hload).setResources hsubject permissions.entries permissions.nodup
  obtain ⟨policy', hreload, hmem⟩ := hgives.loadPolicy
  have hrole : ∀ role p, roleBaselineAllows policy' role p = roleBaselineAllows policy role p := by
    intro role p
    rw [roleBaselineAllows, roleBaselineAllows, explicitSubjectEffect_congr fun effect => ?_]
    rw [hmem, hframe _ (.inl (roleSubject_ne role userID))]
  refine ⟨_, policy', rfl, hreload, fun p hknown actions hentry => ?_,
    fun other systemRole p hother => ?_⟩
  · obtain ⟨known, hregistered, h⟩ := any_eq_true.mp hknown
    obtain ⟨hname, haction⟩ := of_decide_eq_true h
    have hresource : isKnownResource p.resource = true :=
      any_eq_true.mpr ⟨known, hregistered, decide_eq_true hname⟩
    have hcatalog : p.action ∈ catalogActions p.resource := by
      rwa [← hname, (registry_named known hregistered).2.2]
    have heffect := explicitSubjectEffect_override hcatalog fun effect =>
      (hmem _).trans (hset _ hentry hresource ⟨userSubject userID, p.resource, p.action,
        effect⟩ rfl rfl)
    have hroles : resolveSubjectRoles roleAdminUser = [managedRoleKey] := by decide
    have hsuper : isSuperuserRole managedRoleKey = false := by decide
    have hne : effectDeny ≠ effectAllow := by decide
    rw [can, hroles]
    simp only [any_cons, hsuper, hknown, hrole, heffect]
    cases hdesired : actions p.action with
    | none => simp
    | some desired =>
      by_cases hbase : desired = roleBaselineAllows policy managedRoleKey p
      · simp [hbase]
      · cases desired <;> simp [hbase, hne]
  · by_cases hadmin : resolveSubjectRoles systemRole = [builtInRoleAdmin]
    · have huser : explicitSubjectEffect policy' (userSubject other) p =
          explicitSubjectEffect policy (userSubject other) p := by
        refine explicitSubjectEffect_congr fun effect => (hmem _).trans (hframe _ ?_)
        exact hother.imp (fun h heq => h (userSubject_injective heq)) fun h =>
          h.resolve_left (not_not.mpr hadmin)
      simp [can, huser, hrole]
    · unfold resolveSubjectRoles at hadmin
      unfold can resolveSubjectRoles
      split_ifs at hadmin ⊢ <;> first | rfl | exact absurd rfl hadmin

/-- Reading and writing channels is in the baseline; user 1 has a rule with a legacy scope. -/
def scopedTable : RuleTable where
  nextId := 4
  rules :=
    [⟨1, "p", "role:admin", "channel", "read", "", "", ""⟩,
      ⟨2, "p", "role:admin", "channel", "write", "allow", "", ""⟩,
      ⟨3, "p", "user:1", "channel", "read", "allow", "own", ""⟩]

/-- Taking away the right to write replaces the scoped rule. -/
theorem scopedTable_effect : ∃ (table' : RuleTable) (policy' : List Policy),
    reloadPolicy (some []) table'.rules = .ok policy' ∧
      can (some policy') 1 roleAdminUser ⟨"channel", "read"⟩ = true ∧
      can (some policy') 1 roleAdminUser ⟨"channel", "write"⟩ = false := by
  have hload : loadPolicy scopedTable.rules = .ok [⟨"role:admin", "channel", "read", "allow"⟩,
      ⟨"role:admin", "channel", "write", "allow"⟩,
        ⟨"user:1", "channel", "read", "deny"⟩] := by decide
  obtain ⟨table', policy', -, hreload, hset, -⟩ := setUserPermissionsInTx_effect hload 1
    ⟨[("channel", fun action => if action = "write" then some false else none)], by simp⟩
  refine ⟨table', policy', hreload, ?_, ?_⟩
  · exact (hset ⟨"channel", "read"⟩ (by decide) _ mem_cons_self).trans (by decide)
  · exact (hset ⟨"channel", "write"⟩ (by decide) _ mem_cons_self).trans (by decide)

end TokenGateway.Authz
