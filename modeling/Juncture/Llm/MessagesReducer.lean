import Juncture.Lib.Roster
import Juncture.Llm.Messages

/-!
# `messages_reducer`

The messages of a conversation are merged by their identifiers.  A new message takes the place of the one
with its identifier, or comes last; markers, which are messages as well, remove one message or all.

* `messagesReducer` : the reducer.
* `Merges` : what becomes of the messages.
* `messagesReducer_merges` : any messages are merged so, all at once or in parts.
-/

namespace Juncture

/-- `REMOVE_ALL_MESSAGES`. -/
def REMOVE_ALL_MESSAGES : String := "__remove_all__"

/-- The first message with the identifier of `msg` is replaced by it. -/
def replaceMessage (msg : Message) : List Message → List Message
  | [] => []
  | m :: messages => if m.id = msg.id then msg :: messages else m :: replaceMessage msg messages

/-- One message in `messages_reducer`. -/
def reduceMessage (current : List Message) (msg : Message) : List Message :=
  if msg.id = REMOVE_ALL_MESSAGES then []
  else if "__remove__:".toList.isPrefixOf msg.id.toList then
    current.filter fun m => m.id.toList ≠ msg.id.toList.drop "__remove__:".length
  else if current.any fun m => m.id == msg.id then replaceMessage msg current
  else current ++ [msg]

/-- `messages_reducer`. -/
def messagesReducer (current incoming : List Message) : List Message :=
  incoming.foldl reduceMessage current

/-- What a `__remove__:` marker removes. -/
def removeTarget (id : String) : Option String :=
  if "__remove__:".toList.isPrefixOf id.toList then
    some (String.ofList (id.toList.drop "__remove__:".length))
  else none

namespace Message

/-- A marker, which is not stored. -/
def isMarker (msg : Message) : Bool := msg.id == REMOVE_ALL_MESSAGES || (removeTarget msg.id).isSome

/-- A marker that removes the message of an identifier. -/
def removes (msg : Message) (id : String) : Bool :=
  msg.id == REMOVE_ALL_MESSAGES || removeTarget msg.id == some id

/-- The message that is stored under an identifier from now on, if this one changes it. -/
def changes (id : String) (msg : Message) : Option (Option Message) :=
  if msg.removes id then some none
  else if msg.isMarker then none
  else if msg.id = id then some (some msg)
  else none

/-- The message that is stored under an identifier in the end, if one of these changes it. -/
def lastChange (id : String) (incoming : List Message) : Option (Option Message) :=
  incoming.foldl (fun change msg => (msg.changes id).or change) none

end Message

/-- The message with an identifier. -/
def messageOf (id : String) (messages : List Message) : Option Message :=
  messages.find? fun m => m.id = id

/-- What becomes of the messages `current` when `incoming` are merged into them. -/
structure Merges (current incoming result : List Message) : Prop where
  /-- Identifiers stay distinct. -/
  distinct : (result.map Message.id).Nodup
  /-- Messages that no marker removes stay in front, in their order. -/
  order : ∃ added, result.map Message.id =
    (current.map Message.id).filter (fun id => incoming.all fun m => !m.removes id) ++ added
  /-- The message of each identifier is the last that came for it; there is none if that was a marker. -/
  content : ∀ id, messageOf id result = (Message.lastChange id incoming).getD (messageOf id current)
  /-- Markers are not stored. -/
  stored : ∀ m ∈ result, m ∈ current ∨ m ∈ incoming ∧ m.isMarker = false

/-! ### Messages as edits -/

/-- What a message does to the list. -/
def Message.edit (msg : Message) : Roster.Edit Message String :=
  if msg.id == REMOVE_ALL_MESSAGES then .clear
  else match removeTarget msg.id with
    | some targetId => .remove targetId
    | none => .put msg

theorem put_eq (msg : Message) (current : List Message) :
    Roster.put Message.id msg current =
      if current.any fun m => m.id == msg.id then replaceMessage msg current else current ++ [msg] := by
  induction current with
  | nil => rfl
  | cons m current ih =>
    rw [Roster.put, List.any_cons]
    by_cases hid : m.id = msg.id
    · simp [hid, replaceMessage]
    · rw [if_neg hid, ih, replaceMessage, if_neg hid, beq_eq_false_iff_ne.mpr hid, Bool.false_or]
      split <;> rfl

theorem reduceMessage_eq (current : List Message) (msg : Message) :
    reduceMessage current msg = Roster.edit Message.id current msg.edit := by
  unfold reduceMessage Message.edit removeTarget
  by_cases hall : msg.id = REMOVE_ALL_MESSAGES
  · rw [if_pos hall, if_pos (beq_iff_eq.mpr hall)]
    rfl
  rw [if_neg hall, if_neg (mt beq_iff_eq.mp hall)]
  cases hmarker : "__remove__:".toList.isPrefixOf msg.id.toList with
  | true =>
    refine List.filter_congr fun m _ => ?_
    simp [← String.toList_inj]
  | false => exact (put_eq msg current).symm

theorem messagesReducer_eq (current incoming : List Message) :
    messagesReducer current incoming = Roster.edits Message.id current (incoming.map Message.edit) := by
  rw [messagesReducer, Roster.edits, List.foldl_map]
  congr 1
  funext current msg
  exact reduceMessage_eq current msg

theorem spares_edit (id : String) (msg : Message) : msg.edit.spares id = !msg.removes id := by
  unfold Message.edit Message.removes
  cases hall : msg.id == REMOVE_ALL_MESSAGES with
  | true => rfl
  | false =>
    cases removeTarget msg.id with
    | none => rfl
    | some targetId => simp [Roster.Edit.spares, beq_eq_decide]

theorem word_edit (id : String) (msg : Message) :
    msg.edit.word Message.id id = msg.changes id := by
  unfold Message.edit Message.changes Message.removes Message.isMarker
  cases hall : msg.id == REMOVE_ALL_MESSAGES with
  | true => rfl
  | false =>
    cases removeTarget msg.id with
    | none => simp [Roster.Edit.word]
    | some targetId => simp [Roster.Edit.word]

theorem isMarker_of_edit_put {msg m : Message} (h : msg.edit = .put m) :
    m = msg ∧ msg.isMarker = false := by
  unfold Message.edit at h
  unfold Message.isMarker
  cases hall : msg.id == REMOVE_ALL_MESSAGES with
  | true => simp [hall] at h
  | false =>
    cases htarget : removeTarget msg.id with
    | none => simpa [hall, htarget, eq_comm] using h
    | some targetId => simp [hall, htarget] at h

theorem edit_of_not_marker {msg : Message} (h : msg.isMarker = false) : msg.edit = .put msg := by
  obtain ⟨hall, htarget⟩ := Bool.or_eq_false_iff.mp h
  rw [Option.isSome_eq_false_iff, Option.isNone_iff_eq_none] at htarget
  simp [Message.edit, hall, htarget]

/-! ### Merging -/

theorem messagesReducer_append (current xs ys : List Message) :
    messagesReducer current (xs ++ ys) = messagesReducer (messagesReducer current xs) ys :=
  List.foldl_append

/-- **How messages are merged**: by their identifiers, in place, and all at once as well as in parts. -/
theorem messagesReducer_merges {current : List Message} (h : (current.map Message.id).Nodup)
    (incoming : List Message) :
    Merges current incoming (messagesReducer current incoming) ∧
      (∀ msg : Message, msg.isMarker = false → msg.id ∈ current.map Message.id →
        messagesReducer current [msg] = current.map fun m => if m.id = msg.id then msg else m) ∧
      ∀ xs ys, incoming = xs ++ ys →
        messagesReducer current incoming = messagesReducer (messagesReducer current xs) ys := by
  refine ⟨?_, fun msg hmsg hmem => ?_, ?_⟩
  · rw [messagesReducer_eq]
    refine ⟨Roster.nodup_edits h, ?_, fun id => ?_, fun m hm => ?_⟩
    · obtain ⟨added, hadded⟩ : ∃ added, (Roster.edits Message.id current _).map Message.id = _ ++ added :=
        Roster.keys_edits current (incoming.map Message.edit)
      refine ⟨added, hadded.trans ?_⟩
      simp only [List.all_map, Function.comp_def, spares_edit]
    · refine (Roster.lookup_edits id).trans ?_
      simp only [Roster.lastWord, List.foldl_map, word_edit]
      rfl
    · refine (Roster.mem_edits hm).imp id fun hput => ?_
      obtain ⟨msg, hmsg, hedit⟩ := List.mem_map.mp hput
      obtain ⟨rfl, hmarker⟩ := isMarker_of_edit_put hedit
      exact ⟨hmsg, hmarker⟩
  · rw [messagesReducer_eq, List.map_singleton, edit_of_not_marker hmsg]
    exact Roster.put_of_mem h hmem
  · rintro xs ys rfl
    exact messagesReducer_append current xs ys

/-- One message is replaced, and one is new. -/
theorem twoMessages_merges :
    Merges [Message.system "a" "old", Message.system "b" "kept"]
      [Message.system "a" "new", Message.system "c" "added"]
      (messagesReducer [Message.system "a" "old", Message.system "b" "kept"]
        [Message.system "a" "new", Message.system "c" "added"]) :=
  (messagesReducer_merges (by decide) _).1

end Juncture
