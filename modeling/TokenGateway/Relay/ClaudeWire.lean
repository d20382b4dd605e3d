import TokenGateway.Base.Lifecycle
import TokenGateway.Relay.Wire

namespace TokenGateway.Relay

open Base (Mark phaseOf)

/-!
# The events of a Claude stream

`relaykit/dto/claude.go`, as far as the stream converters write it.  `C` is the usage of a message.

* `ClaudeResponse` — an event;
* `blockMark` — what an event says about a content block;
* `InRuns` — the order in which blocks may start;
* `WellFormedMessage` — Anthropic's state machine of a stream.
-/

inductive BlockKind where
  | text | thinking | toolUse
  deriving DecidableEq

/-- `content_block` of a start; texts are empty there, and so is the input of a tool. -/
inductive ContentBlock where
  | text
  | thinking
  | toolUse (id name : String)
  deriving DecidableEq

inductive BlockDelta where
  | textDelta (text : Text)
  | thinkingDelta (thinking : Text)
  | inputJsonDelta (partialJson : Text)
  | citationsDelta (citation : Json)

inductive ClaudeResponse (C : Type) where
  | messageStart (id model : String) (usage : C)
  | contentBlockStart (index : Nat) (block : ContentBlock)
  | contentBlockDelta (index : Nat) (delta : BlockDelta)
  | contentBlockStop (index : Nat)
  | messageDelta (stopReason : String) (usage : Option C)
  | messageStop

def ContentBlock.kind : ContentBlock → BlockKind
  | .text => .text
  | .thinking => .thinking
  | .toolUse _ _ => .toolUse

/-- The kind of block that takes a delta. -/
def BlockDelta.kind : BlockDelta → BlockKind
  | .textDelta _ | .citationsDelta _ => .text
  | .thinkingDelta _ => .thinking
  | .inputJsonDelta _ => .toolUse

variable {C : Type}

/-- What an event says about a content block. -/
def blockMark : ClaudeResponse C → Mark BlockKind
  | .contentBlockStart index block => .start index block.kind
  | .contentBlockDelta index delta => .inside index delta.kind
  | .contentBlockStop index => .stop index
  | _ => .other

def ClaudeResponse.isBlock : ClaudeResponse C → Bool
  | .contentBlockStart _ _ | .contentBlockDelta _ _ | .contentBlockStop _ => true
  | _ => false

def ClaudeResponse.isMessageStart : ClaudeResponse C → Bool
  | .messageStart _ _ _ => true
  | _ => false

/-- The index and the kind of a block that is started. -/
def ClaudeResponse.started : ClaudeResponse C → Option (Nat × BlockKind)
  | .contentBlockStart index block => some (index, block.kind)
  | _ => none

/-- The blocks below `n`, each started once.  They start in the order of their indexes, run by run:
    only the tools of one run of parallel calls may start in another order. -/
inductive InRuns : Nat → List (Nat × BlockKind) → Prop where
  | nil : InRuns 0 []
  | block {n : Nat} {starts : List (Nat × BlockKind)} {kind : BlockKind} :
    InRuns n starts → kind ≠ .toolUse → InRuns (n + 1) (starts ++ [(n, kind)])
  | tools {n size : Nat} {starts run : List (Nat × BlockKind)} :
    InRuns n starts → run.Perm ((List.range' n size).map (·, .toolUse)) →
    InRuns (n + size) (starts ++ run)

/-- A message is started, then its blocks, and then it ends.  Every block is started once, has only
    deltas of its kind and is stopped once. -/
structure WellFormedMessage (events : List (ClaudeResponse C)) : Prop where
  frame : ∃ id model usage blocks stopReason final,
    events = .messageStart id model usage :: blocks ++
      [.messageDelta stopReason final, .messageStop] ∧ ∀ event ∈ blocks, event.isBlock = true
  blocks : ∃ n, InRuns n (events.filterMap ClaudeResponse.started) ∧
    (∀ k, k < n → phaseOf k (events.map blockMark) = .ended) ∧
    ∀ k, n ≤ k → phaseOf k (events.map blockMark) = .unseen

end TokenGateway.Relay
