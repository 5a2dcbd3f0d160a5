import Juncture.Core.Node

/-!
# Human-in-the-loop interrupts

An `interrupt!()` call takes the next index from a counter, looks the index up in a vector of
resume values, and either returns the value or sends an `InterruptSignal` on a channel and fails
with `Interrupted`.  Counter, vector and channel form the `InterruptContext`, of which there is one
for a superstep.

* `matchResumeToInterrupts` : how the vector is computed from the caller's `ResumeValue` and the
  interrupts the previous run left pending.
* `shouldInterrupt` : static interrupts before or after named nodes, with the version gate that
  keeps a run from stopping twice at the same place.
-/

namespace Juncture

/-- The 128-bit xxh3 digest of a node name and an index, in hexadecimal.  The hash is a third-party
crate. -/
class InterruptHash where
  /-- `format!("{hash:032x}")`. -/
  xxh3Hex : String → ℕ → String

/-- `generate_interrupt_id`. -/
def generateInterruptId [InterruptHash] (nodeName : String) (index : ℕ) : String :=
  InterruptHash.xxh3Hex nodeName index

/-- `InterruptSignal`, without its time stamp. -/
structure InterruptSignal where
  /-- Index of the call in its superstep. -/
  index : ℕ
  /-- Identifier, explicit or generated. -/
  id : Option String
  /-- Payload shown to the human. -/
  payload : Json
deriving DecidableEq

/-- `Scratchpad`: the interrupts that have been answered. -/
structure Scratchpad where
  /-- Ids of the processed interrupts. -/
  processedInterrupts : List String := []
deriving DecidableEq

namespace Scratchpad

/-- `is_interrupt_processed`. -/
def isInterruptProcessed (p : Scratchpad) (id : String) : Bool := p.processedInterrupts.contains id

/-- `get_null_resume`. -/
def getNullResume (p : Scratchpad) (id : String) : Bool := p.isInterruptProcessed id

/-- `mark_interrupt_processed`. -/
def markInterruptProcessed (p : Scratchpad) (id : String) : Scratchpad :=
  { p with processedInterrupts := p.processedInterrupts.insert id }

end Scratchpad

/-- `extract_namespace`: the part of an id before its first colon, if not empty. -/
def extractNamespace (interruptId : String) : Option String :=
  let pre := interruptId.toList.takeWhile (· != ':')
  if interruptId.toList.contains ':' && !pre.isEmpty then some (String.ofList pre) else none

/-- `is_hidden_node`, for a node without tags: a name of the form `__x__`. -/
def isHiddenNode (nodeName : String) : Bool :=
  let cs := nodeName.toList
  ['_', '_'].isPrefixOf cs && ['_', '_'].isSuffixOf cs && decide (4 < (cs.map Char.utf8Size).sum)

/-! ### Resume values -/

/-- The resume value of one pending interrupt. -/
def resumeFor (rv : ResumeValue) (scratchpad : Scratchpad) (signal : InterruptSignal) :
    Option Json :=
  match rv, signal.id with
  | .single value, some id => if scratchpad.getNullResume id then some .null else some value
  | .single value, none => some value
  | .byId map, some id =>
    match map.lookup id with
    | some value => some value
    | none => if scratchpad.getNullResume id then some .null else none
  | .byNamespace map, some id =>
    match (extractNamespace id).bind map.lookup with
    | some value => some value
    | none => if scratchpad.getNullResume id then some .null else none
  | .byId _, none => none
  | .byNamespace _, none => none

/-- `match_resume_to_interrupts`: the resume vector of a superstep, one entry for each pending
interrupt.  A single value with nothing pending answers the first call. -/
def matchResumeToInterrupts (resumeValue : Option ResumeValue)
    (pendingInterrupts : List InterruptSignal) (scratchpad : Scratchpad) : List (Option Json) :=
  match resumeValue with
  | none => []
  | some rv =>
    match rv, pendingInterrupts with
    | .single value, [] => [some value]
    | rv, pending => pending.map (resumeFor rv scratchpad)

/-- `InterruptContext::get_resume_value`. -/
def getResumeValue (resumeValues : List (Option Json)) (index : ℕ) : Option Json :=
  (resumeValues[index]?).join

/-! ### Static interrupts -/

/-- The signals `should_interrupt` pushes for one task. -/
def interruptSignalsOf [InterruptHash] (interruptBefore interruptAfter : List String)
    (signals : List InterruptSignal) (nodeName : String) : List InterruptSignal :=
  let push (reason : String) (signals : List InterruptSignal) : List InterruptSignal :=
    signals ++ [{
      index := signals.length
      id := some (generateInterruptId nodeName signals.length)
      payload := .obj [("node", .str nodeName), ("reason", .str reason)] }]
  if isHiddenNode nodeName then signals
  else
    let signals := if interruptBefore.contains nodeName then push "interrupt_before" signals
      else signals
    if interruptAfter.contains nodeName then push "interrupt_after" signals else signals

/-- The version gate: some channel is newer than at the last interrupt, or there was none.  Both
maps have the keys `field_0, field_1, …`, so they are kept as lists; a missing entry counts as
version `0`. -/
def versionGate (channelVersions versionsSeenForInterrupt : List ℕ) : Bool :=
  versionsSeenForInterrupt.isEmpty ||
    channelVersions.zipIdx.any fun p => decide (versionsSeenForInterrupt.getD p.2 0 < p.1)

/-- `should_interrupt` on the names of the pending tasks. -/
def shouldInterrupt [InterruptHash] (pendingNodes : List String)
    (interruptBefore interruptAfter : List String)
    (channelVersions versionsSeenForInterrupt : List ℕ) : Option (List InterruptSignal) :=
  if versionGate channelVersions versionsSeenForInterrupt then
    let signals := pendingNodes.foldl (interruptSignalsOf interruptBefore interruptAfter) []
    if signals.isEmpty then none else some signals
  else none

/-- `interrupt_node_name`: the node of the first signal's payload. -/
def interruptNodeName (pendingInterrupts : List InterruptSignal) : String :=
  match pendingInterrupts.head?.bind fun s => (s.payload.get "node").bind Json.asStr with
  | some node => node
  | none => "unknown"

end Juncture
