import Juncture.Core.Transcript
import Juncture.Graph.StreamEvents

/-!
# Several modes at once

A caller can ask for several modes, and expects the events that one of them lets through.  But a list of
modes has a filter of its own: it looks at the kind of an event alone, not at the tags of a message, and a
list within the list lets nothing through.

* `StreamMode.Joins` : a list of modes lets through what one of its members does.
* `StreamMode.joins_iff` : for which lists and events this is so.
-/

namespace Juncture

namespace StreamMode

variable {S : Type} [State S] {modes inner : List StreamMode} {mode : StreamMode} {e : StreamEvent S}
  {metadata : MessageStreamMetadata}

/-- A message that is not to be streamed. -/
def NoStream (e : StreamEvent S) : Prop :=
  ∃ metadata, e = .messages metadata ∧ "nostream" ∈ metadata.tags

/-- The list of modes lets the event through exactly if one of its members does. -/
def Joins (modes : List StreamMode) (e : StreamEvent S) : Prop :=
  (multi modes).shouldEmit e = true ↔ ∃ mode ∈ modes, mode.shouldEmit e = true

/-- What a list of modes needs for this. -/
structure Candid (modes : List StreamMode) (e : StreamEvent S) : Prop where
  /-- Whoever asks for messages asks for debug events as well, or for either in an inner list, if the
  event is a message that is not to be streamed. -/
  noStream : NoStream e → messages ∈ modes →
    debug ∈ modes ∨ ∃ inner, multi inner ∈ modes ∧ (messages ∈ inner ∨ debug ∈ inner)
  /-- What matches a mode in an inner list matches one in the list itself. -/
  nested : ∀ inner, multi inner ∈ modes → (∃ mode ∈ inner, mode.modeMatchesSingle e = true) →
    ∃ mode ∈ modes, mode.modeMatchesSingle e = true

/-! ### The two tables -/

/-- A list is asked for the kinds of its members. -/
theorem shouldEmit_multi :
    (multi modes).shouldEmit e = true ↔ ∃ mode ∈ modes, mode.modeMatchesSingle e = true := by
  simp [shouldEmit]

/-- Two modes match messages. -/
theorem modeMatchesSingle_messages :
    mode.modeMatchesSingle (.messages metadata : StreamEvent S) = true ↔
      mode = messages ∨ mode = debug := by
  cases mode <;> simp [modeMatchesSingle]

/-- A list matches nothing. -/
theorem modeMatchesSingle_multi : (multi modes).modeMatchesSingle e = false := by
  cases e <;> rfl

theorem shouldEmit_messages (hno : NoStream e) : messages.shouldEmit e = false := by
  obtain ⟨metadata, rfl, htag⟩ := hno
  simp [shouldEmit, htag]

/-- Apart from messages that are not to be streamed, the table for one mode is the table for a member of
a list. -/
theorem shouldEmit_single (hmode : ∀ inner, mode ≠ multi inner) (hno : mode = messages → ¬ NoStream e) :
    mode.shouldEmit e = mode.modeMatchesSingle e := by
  cases mode with
  | messages =>
    cases e with
    | messages metadata =>
      have htag : "nostream" ∉ metadata.tags := fun h => hno rfl ⟨metadata, rfl, h⟩
      simp [shouldEmit, modeMatchesSingle, htag]
    | _ => rfl
  | multi inner => exact absurd rfl (hmode inner)
  | _ => rfl

/-- What a mode lets through it matches, or is a list of which a member matches it. -/
theorem shouldEmit_cases (h : mode.shouldEmit e = true) :
    (mode.modeMatchesSingle e = true ∧ ¬ (mode = messages ∧ NoStream e)) ∨
      ∃ inner, mode = multi inner ∧ ∃ m ∈ inner, m.modeMatchesSingle e = true := by
  by_cases hmulti : ∃ inner, mode = multi inner
  · obtain ⟨inner, rfl⟩ := hmulti
    exact .inr ⟨inner, rfl, shouldEmit_multi.1 h⟩
  · have hno : ¬ (mode = messages ∧ NoStream e) := by
      rintro ⟨rfl, hno⟩
      rw [shouldEmit_messages hno] at h
      cases h
    rw [shouldEmit_single (fun inner hinner => hmulti ⟨inner, hinner⟩) fun hm hn => hno ⟨hm, hn⟩] at h
    exact .inl ⟨h, hno⟩

/-! ### A list and its members -/

/-- What the list lets through, a member does. -/
theorem Candid.exists_shouldEmit (h : Candid modes e) (hemit : (multi modes).shouldEmit e = true) :
    ∃ mode ∈ modes, mode.shouldEmit e = true := by
  obtain ⟨mode, hmem, hmatch⟩ := shouldEmit_multi.1 hemit
  have hmode : ∀ inner, mode ≠ multi inner := by
    rintro inner rfl
    rw [modeMatchesSingle_multi] at hmatch
    cases hmatch
  by_cases hno : mode = messages ∧ NoStream e
  · -- another member is asked for the message
    obtain ⟨rfl, hno⟩ := hno
    obtain hdebug | ⟨inner, hinner, hwanted⟩ := h.noStream hno hmem
    · exact ⟨debug, hdebug, rfl⟩
    · obtain ⟨metadata, rfl, -⟩ := hno
      refine ⟨multi inner, hinner, shouldEmit_multi.2 ?_⟩
      obtain hmessages | hdebug := hwanted
      · exact ⟨messages, hmessages, rfl⟩
      · exact ⟨debug, hdebug, rfl⟩
  · refine ⟨mode, hmem, ?_⟩
    rw [shouldEmit_single hmode fun hm hn => hno ⟨hm, hn⟩]
    exact hmatch

/-- What a member lets through, the list does. -/
theorem Candid.shouldEmit_multi_of_mem (h : Candid modes e) (hmem : mode ∈ modes)
    (hemit : mode.shouldEmit e = true) : (multi modes).shouldEmit e = true := by
  obtain ⟨hmatch, -⟩ | ⟨inner, rfl, hinner⟩ := shouldEmit_cases hemit
  · exact shouldEmit_multi.2 ⟨mode, hmem, hmatch⟩
  · exact shouldEmit_multi.2 (h.nested inner hmem hinner)

/-- **Several modes.**  A list lets through what its members do if and only if no message that is not to be
streamed comes in by the mode of messages alone, and no event by an inner list alone. -/
theorem joins_iff (modes : List StreamMode) (e : StreamEvent S) : Joins modes e ↔ Candid modes e := by
  constructor
  · intro h
    refine ⟨fun hno hmessages => ?_, fun inner hinner hmatch => ?_⟩
    · have hemit : (multi modes).shouldEmit e = true := by
        obtain ⟨metadata, rfl, -⟩ := hno
        exact shouldEmit_multi.2 ⟨messages, hmessages, rfl⟩
      obtain ⟨mode, hmem, hmode⟩ := h.1 hemit
      obtain ⟨hmatch, hother⟩ | ⟨inner, rfl, m, hm, hmatch⟩ := shouldEmit_cases hmode
      · obtain ⟨metadata, rfl, htag⟩ := hno
        obtain rfl | rfl := modeMatchesSingle_messages.1 hmatch
        · exact absurd ⟨rfl, metadata, rfl, htag⟩ hother
        · exact .inl hmem
      · obtain ⟨metadata, rfl, -⟩ := hno
        refine .inr ⟨inner, hmem, ?_⟩
        obtain rfl | rfl := modeMatchesSingle_messages.1 hmatch
        · exact .inl hm
        · exact .inr hm
    · exact shouldEmit_multi.1 (h.2 ⟨multi inner, hinner, shouldEmit_multi.2 hmatch⟩)
  · intro h
    exact ⟨h.exists_shouldEmit, fun ⟨mode, hmem, hemit⟩ => h.shouldEmit_multi_of_mem hmem hemit⟩

/-! ### One mode in a list -/

/-- A message that is not to be streamed. -/
def hushed : StreamEvent Transcript :=
  .messages { node := "agent", model := "gpt-4", tags := ["nostream"] }

/-- The mode of messages lets the message through if it is the only one of a list, and nothing if it is the
only one of a list in a list. -/
theorem messages_not_joins :
    ¬ Joins [messages] hushed ∧ ¬ Joins [multi [messages]] (.end {} : StreamEvent Transcript) := by
  constructor
  · intro h
    obtain ⟨mode, hmem, hemit⟩ := h.1 rfl
    obtain rfl := List.mem_singleton.1 hmem
    have hno : NoStream hushed := ⟨_, rfl, List.mem_singleton_self _⟩
    rw [shouldEmit_messages hno] at hemit
    cases hemit
  · intro h
    cases h.2 ⟨multi [messages], List.mem_singleton_self _, rfl⟩

end StreamMode

end Juncture
