import Mathlib.Data.List.Nodup
import Mathlib.Data.List.Sort
import Mathlib.Logic.Function.Basic

namespace TokenGateway.Realtime

/-!
# Realtime pricing rules

`model/realtime_pricing.go`: a subject, a user or an organization, has a list of rules, each with
one ratio for some channels of one model.  All its rules are replaced at once, under an expected
revision, and every revision leaves a snapshot in the history.

* `parseRealtimePricingRatio`, `formatPersonalRatio` — ratios as texts, and `parse_format`;
* `RealtimeTables` — the tables and the phase of the cutover;
* `readRealtimePricing`, `saveRealtimePricing` — the transactions.

A column that holds a JSON list is that list.  The hash of a model name and the size of an encoded
snapshot are parameters.
-/

/-! ### Ratios -/

/-- `ResellerRatioScale`: ratios are stored in millionths. -/
def resellerRatioScale : Int := 1000000

/-- The value of a decimal digit. -/
def digitValue (c : Char) : Option Int :=
  if '0' ≤ c ∧ c ≤ '9' then some (c.toNat - '0'.toNat : Nat) else none

/-- A number up to five with at most two decimals, in millionths. -/
def ratioOfChars : List Char → Option Int
  | [w] => (digitValue w).bind fun whole => if whole ≤ 5 then some (whole * 1000000) else none
  | [w, '.', f] => (digitValue w).bind fun whole => (digitValue f).bind fun tenths =>
      if whole ≤ 4 ∨ whole = 5 ∧ tenths = 0 then some (whole * 1000000 + tenths * 100000) else none
  | [w, '.', f, g] => (digitValue w).bind fun whole => (digitValue f).bind fun tenths =>
      (digitValue g).bind fun hundredths =>
        if whole ≤ 4 ∨ whole = 5 ∧ tenths = 0 ∧ hundredths = 0 then
          some (whole * 1000000 + tenths * 100000 + hundredths * 10000)
        else none
  | _ => none

def parseRealtimePricingRatio (value : String) : Option Int :=
  (ratioOfChars value.toList).filter fun ratio => 0 < ratio

/-- `%06d`. -/
def sixDigits (n : Int) : List Char :=
  let digits := Nat.toDigits 10 n.natAbs
  if n < 0 then '-' :: (List.replicate (5 - digits.length) '0' ++ digits)
  else List.replicate (6 - digits.length) '0' ++ digits

/-- `strings.TrimRight` of one character. -/
def trimRight (c : Char) (s : List Char) : List Char := (s.reverse.dropWhile (· == c)).reverse

/-- The text of a ratio without trailing zeros. -/
def ratioChars (ratio : Int) : List Char :=
  let whole := ratio.tdiv resellerRatioScale
  let sign := if whole < 0 then ['-'] else []
  trimRight '.' (trimRight '0' (sign ++ Nat.toDigits 10 whole.natAbs ++
    '.' :: sixDigits (ratio.tmod resellerRatioScale)))

def formatPersonalRatio (ratio : Int) : String := String.ofList (ratioChars ratio)

/-- The ratios that `RealtimeCustomerQuota` accepts. -/
def ValidRatio (ratio : Int) : Prop := 10000 ≤ ratio ∧ ratio ≤ 5000000 ∧ ratio % 10000 = 0

instance (ratio : Int) : Decidable (ValidRatio ratio) := by
  unfold ValidRatio
  infer_instance

theorem validRatio_hundredths {ratio : Int} (h : ValidRatio ratio) :
    ∃ k : Fin 501, ratio = 10000 * (k.val : Int) := by
  obtain ⟨hlow, hhigh, hmod⟩ := h
  have hrange : (ratio / 10000).toNat < 501 := by omega
  refine ⟨⟨(ratio / 10000).toNat, hrange⟩, ?_⟩
  show ratio = 10000 * ((ratio / 10000).toNat : Int)
  omega

/-- **The text of a valid ratio is read back as that ratio.** -/
theorem parse_format {ratio : Int} (h : ValidRatio ratio) :
    parseRealtimePricingRatio (formatPersonalRatio ratio) = some ratio := by
  have hall : ∀ k : Fin 501, ratioOfChars (ratioChars (10000 * (k.val : Int))) =
    some (10000 * (k.val : Int)) := by
    decide +kernel
  obtain ⟨k, rfl⟩ := validRatio_hundredths h
  have hpos := h.1
  unfold parseRealtimePricingRatio formatPersonalRatio
  rw [String.toList_ofList, hall]
  simp only [Option.filter_some, decide_eq_true_eq]
  rw [if_pos (by omega)]

/-! ### Tables -/

inductive Subject where
  | user | organization
  deriving DecidableEq

/-- `Subject` and `SubjectID`. -/
abbrev SubjectKey := Subject × Int

inductive Phase where
  | legacy | frozen | active
  deriving DecidableEq

structure RealtimePricingItem where
  (model ratio : String)
  channelIDs : List Int
  deriving DecidableEq

structure RealtimePricingConfig where
  revision : Int
  items : List RealtimePricingItem

structure RealtimePricingRule where
  key : SubjectKey
  (modelKey model : String)
  ratio : Int
  channels : List Int

/-- The rule as an item of a configuration. -/
def RealtimePricingRule.item (rule : RealtimePricingRule) : RealtimePricingItem where
  model := rule.model
  ratio := formatPersonalRatio rule.ratio
  channelIDs := rule.channels

structure RealtimePricingHistory where
  key : SubjectKey
  (revision operatorID : Int)
  snapshot : List RealtimePricingItem

/-- The four tables; rules and history in the order of their ids. -/
structure RealtimeTables where
  phase : Phase := .legacy
  heads : SubjectKey → Option Int := fun _ => none
  rules : List RealtimePricingRule := []
  history : List RealtimePricingHistory := []

namespace RealtimeTables

variable (t : RealtimeTables) (key : SubjectKey)

/-- The revision of a subject, zero before its first. -/
def revision : Int := (t.heads key).getD 0

def rulesOf : List RealtimePricingRule := t.rules.filter fun rule => rule.key = key

def historyOf : List RealtimePricingHistory := t.history.filter fun entry => entry.key = key

end RealtimeTables

inductive PricingError where
  | invalid | forbidden | corrupt | conflict | notFound | database
  | customerDisabled | agentDisabled | procurementInsufficient
  | revisionConflict (revision : Int)
  deriving DecidableEq

/-! ### Reading -/

variable (hash : String → String)

def readRule (rule : RealtimePricingRule) : Except PricingError RealtimePricingItem :=
  if rule.modelKey ≠ hash rule.model ∨ rule.channels = [] then .error .corrupt
  else if ¬ ValidRatio rule.ratio then .error .corrupt
  else if ¬ ((∀ channel ∈ rule.channels, 0 < channel) ∧ rule.channels.Nodup) then .error .corrupt
  else .ok rule.item

/-- The rules that a reader of some models asks for. -/
def wantedRules (t : RealtimeTables) (key : SubjectKey) (modelNames : List String) :
    List RealtimePricingRule :=
  (t.rulesOf key).filter fun rule => modelNames = [] ∨ rule.modelKey ∈ modelNames.map hash

/-- `ReadRealtimePricing`; no model names ask for all rules. -/
def readRealtimePricing (t : RealtimeTables) (key : SubjectKey) (modelNames : List String) :
    Except PricingError RealtimePricingConfig :=
  if key.2 ≤ 0 then .error .invalid
  else
    let rows := wantedRules hash t key modelNames
    if rows ≠ [] ∧ t.revision key ≤ 0 then .error .corrupt
    else
      match rows.mapM (readRule hash) with
      | .error e => .error e
      | .ok items => .ok { revision := t.revision key, items }

/-! ### Saving -/

structure RealtimePricingInput where
  expectedRevision : Int
  items : List RealtimePricingItem

/-- The statements of a save that write. -/
inductive SaveStage where
  | createHead | updateHead | candidates | deleteRules | createRules | createHistory | commit
  deriving DecidableEq

/-- A call of `SaveRealtimePricing` with what the other tables answer at its time, and the
    statements that fail. -/
structure SaveCall where
  operator : Int
  key : SubjectKey
  input : RealtimePricingInput
  /-- `AuthorizeRealtimePricing`. -/
  authorization : Except PricingError Unit
  /-- A channel of `RealtimePricingCandidates` offers the model. -/
  allowed : String → Int → Bool
  /-- The channel exists and lists the model. -/
  listed : String → Int → Bool
  fault : SaveStage → Bool

/-- The checks of one item's channels, in ascending order. -/
def checkChannels (call : SaveCall) (model : String) (prior : Int → Bool) :
    Option Int → List Int → Except PricingError Unit
  | _, [] => .ok ()
  | previous, channel :: rest =>
    if channel ≤ 0 ∨ previous = some channel then .error .invalid
    else if ¬ call.allowed model channel ∧ ¬ prior channel then .error .forbidden
    else if ¬ call.listed model channel ∧ ¬ prior channel then .error .invalid
    else checkChannels call model prior (some channel) rest

/-- `prior[model][channel]`: the channel was part of the model's last rule. -/
def priorChannels (previous : RealtimePricingConfig) (model : String) (channel : Int) : Bool :=
  match previous.items.reverse.find? (·.model = model) with
  | none => false
  | some item => item.channelIDs.contains channel

/-- One item of the input, as the rule to be stored. -/
def checkItem (call : SaveCall) (previous : RealtimePricingConfig) (seen : List String)
    (item : RealtimePricingItem) : Except PricingError RealtimePricingRule :=
  match parseRealtimePricingRatio item.ratio with
  | none => .error .invalid
  | some ratio =>
    if item.model = "" ∨ 512 < item.model.utf8ByteSize ∨ item.channelIDs = [] ∨
        10000 < item.channelIDs.length ∨ item.model ∈ seen then .error .invalid
    else
      let ids := item.channelIDs.insertionSort (· ≤ ·)
      match checkChannels call item.model (priorChannels previous item.model) none ids with
      | .error e => .error e
      | .ok () =>
        .ok { key := call.key, modelKey := hash item.model, model := item.model, ratio
              channels := ids }

def checkItems (call : SaveCall) (previous : RealtimePricingConfig) :
    List String → List RealtimePricingItem → Except PricingError (List RealtimePricingRule)
  | _, [] => .ok []
  | seen, item :: rest =>
    match checkItem hash call previous seen item with
    | .error e => .error e
    | .ok rule =>
      match checkItems call previous (item.model :: seen) rest with
      | .error e => .error e
      | .ok rules => .ok (rule :: rules)

variable (snapshotSize : List RealtimePricingItem → Nat)

/-- The end of the transaction, on checked rules: they replace the old ones and the snapshot joins
    the history. A rule is unique for its subject and the hash of its model, a history entry for its
    subject and revision. -/
def storeRules (call : SaveCall) (t : RealtimeTables) (heads : SubjectKey → Option Int)
    (rows : List RealtimePricingRule) :
    Except PricingError (RealtimePricingConfig × RealtimeTables) :=
  let revision := call.input.expectedRevision + 1
  let kept := t.rules.filter fun rule => rule.key ≠ call.key
  let items := rows.map (·.item)
  let entry : RealtimePricingHistory :=
    { key := call.key, revision, operatorID := call.operator, snapshot := items }
  if call.fault .deleteRules then .error .database
  else if call.fault .createRules ∨ ¬ (rows.map (·.modelKey)).Nodup then .error .database
  else if 65535 < snapshotSize items then .error .invalid
  else if call.fault .createHistory ∨
      t.history.any (fun old => old.key = call.key ∧ old.revision = revision) then .error .database
  else if call.fault .commit then .error .database
  else
    .ok ({ revision, items },
      { t with heads, rules := kept ++ rows, history := t.history ++ [entry] })

/-- The middle: the head is created unless it exists and advanced from the expected revision, then
    the input is checked. -/
def advanceHead (call : SaveCall) (t : RealtimeTables) (previous : RealtimePricingConfig) :
    Except PricingError (RealtimePricingConfig × RealtimeTables) :=
  let expected := call.input.expectedRevision
  let created := Function.update t.heads call.key (some (t.revision call.key))
  if call.fault .createHead then .error .database
  else if call.fault .updateHead then .error .database
  else if created call.key ≠ some expected then
    .error (.revisionConflict ((created call.key).getD 0))
  else if call.fault .candidates then .error .database
  else
    match checkItems hash call previous [] call.input.items with
    | .error e => .error e
    | .ok rows =>
      storeRules snapshotSize call t (Function.update created call.key (some (expected + 1))) rows

/-- `SaveRealtimePricing`: the result and the tables of a committed transaction. -/
def saveRealtimePricing (call : SaveCall) (t : RealtimeTables) :
    Except PricingError (RealtimePricingConfig × RealtimeTables) :=
  match call.authorization with
  | .error e => .error e
  | .ok () =>
    if call.input.expectedRevision < 0 ∨ 10000 < call.input.items.length then .error .invalid
    else if t.phase ≠ .active then .error .conflict
    else
      match readRealtimePricing hash t call.key [] with
      | .error e => .error e
      | .ok previous =>
        if previous.revision ≠ call.input.expectedRevision then
          .error (.revisionConflict previous.revision)
        else advanceHead hash snapshotSize call t previous

end TokenGateway.Realtime
