import Juncture.Core.Interrupt

/-!
# A derived state

The instance `#[derive(State)]` generates for

    struct Transcript { #[reducer(append)] log: Vec<u64>, status: u64 }

one field with the append reducer and one with the default replace reducer.  The witnesses and
counterexamples of the development run on it; `Strict` is the same state with a hand-written
`try_apply` that validates the update, the use for which the trait keeps the `Result`.
-/

namespace Juncture

/-- The state. -/
structure Transcript where
  /-- Append field `0`. -/
  log : List ℕ := []
  /-- Replace field `1`. -/
  status : ℕ := 0
deriving DecidableEq, Repr

namespace Transcript

/-- `TranscriptUpdate`. -/
structure Change where
  /-- Entries to append. -/
  log : Option (List ℕ) := none
  /-- New status. -/
  status : Option ℕ := none
deriving DecidableEq, Repr

/-- The generated `apply`. -/
def apply (s : Transcript) (u : Change) : Transcript × FieldsChanged :=
  let r := match u.log with
    | some v => ({ s with log := s.log ++ v }, FieldsChanged.none.setField 0)
    | none => (s, FieldsChanged.none)
  match u.status with
  | some v => ({ r.1 with status := v }, r.2.setField 1)
  | none => r

/-- The generated `field_is_set`. -/
def fieldIsSet (u : Change) : ℕ → Bool
  | 0 => u.log.isSome
  | 1 => u.status.isSome
  | _ => false

/-- The serde encoding. -/
def toJson (s : Transcript) : Json :=
  .obj [("log", .arr (s.log.map fun n => .num n)), ("status", .num s.status)]

/-- A natural number from JSON. -/
def natOfJson : Json → Except String ℕ
  | .num n => if 0 ≤ n then .ok n.toNat else .error "invalid value: expected u64"
  | _ => .error "invalid type: expected u64"

/-- The serde decoding. -/
def ofJson (v : Json) : Except String Transcript :=
  match v.get "log", v.get "status" with
  | some (.arr xs), some st => do
    let log ← xs.mapM natOfJson
    let status ← natOfJson st
    pure { log, status }
  | some _, some _ => .error "invalid type: expected a sequence"
  | none, _ => .error "missing field `log`"
  | _, none => .error "missing field `status`"

/-- The encoding of an update; absent fields are `null`. -/
def Change.toJson (u : Change) : Json :=
  .obj [("log", match u.log with | some v => .arr (v.map fun n => .num n) | none => .null),
    ("status", match u.status with | some v => .num v | none => .null)]

instance : State Transcript where
  Update := Change
  default := {}
  apply := apply
  resetEphemeral s := s
  replaceFieldIndices := [1]
  fieldIsSet := fieldIsSet
  fieldCount := 2
  fieldNames := ["log", "status"]
  toValue s := .ok (toJson s)
  fromValue := ofJson
  updateToValue u := .ok u.toJson

/-- An update that appends one entry. -/
def note (n : ℕ) : Update Transcript := ({ log := some [n] } : Change)

end Transcript

/-- `Transcript` with a hand-written `try_apply`. -/
structure Strict where
  /-- The state. -/
  inner : Transcript := {}
deriving DecidableEq, Repr

namespace Strict

/-- The validating `try_apply`: a zero entry is refused. -/
def tryApply (s : Strict) (u : Transcript.Change) :
    Strict × Except InvalidUpdateError FieldsChanged :=
  if (u.log.getD []).contains 0 then (s, .error (.invalidValue "log" "zero entry"))
  else (⟨(s.inner.apply u).1⟩, .ok (s.inner.apply u).2)

instance : State Strict where
  Update := Transcript.Change
  default := {}
  apply s u := (⟨(s.inner.apply u).1⟩, (s.inner.apply u).2)
  tryApply := tryApply
  resetEphemeral s := s
  replaceFieldIndices := [1]
  fieldIsSet := Transcript.fieldIsSet
  fieldCount := 2
  fieldNames := ["log", "status"]
  toValue s := .ok s.inner.toJson
  fromValue v := (Transcript.ofJson v).map Strict.mk
  updateToValue u := .ok u.toJson

/-- An update that appends one entry. -/
def note (n : ℕ) : Update Strict := ({ log := some [n] } : Transcript.Change)

end Strict

/-- The digest is the business of its crate; the samples get by with any. -/
instance sampleHash : InterruptHash := ⟨fun nodeName index => s!"{nodeName}:{index}"⟩

end Juncture
