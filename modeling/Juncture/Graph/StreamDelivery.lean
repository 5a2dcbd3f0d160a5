import Juncture.Graph.StreamEvents
import Juncture.Graph.StopReports
import Juncture.Lib.Relay

/-!
# What a stream delivers

`stream_with_config` runs the loop in one task and forwards its events in another.  The forwarder
filters them and puts what passes into the channel of the caller; the driver puts the state before
each superstep, if the mode is that of values, and the end of the run into the same channel itself.

* `delivers_iff` : every event that passes the filters is delivered once and in order.  But the end of
  the run comes after all of them, in every interleaving, if and only if each is followed by more
  events than the channel of the forwarder holds.
* `restricted_iff` : with `output_keys`, an event is delivered in its filtered form if the driver has
  made it; the forwarder filters the updates and lets the states of the loop through as they are.
-/

namespace Juncture

variable {S σ : Type} [State S]

/-- What the caller gets, with the event it has been made of. -/
structure Delivery (S : Type) [State S] where
  /-- What has been emitted. -/
  source : StreamEvent S
  /-- What is delivered. -/
  event : StreamEvent S

namespace StreamConfig

variable (sc : StreamConfig)

/-- The filter by keys of the forwarder.  An update that does not serialize is left as it is. -/
def restrict (e : StreamEvent S) : StreamEvent S :=
  match sc.outputKeys, e with
  | some keys, .updates node update step =>
    match State.updateToValue update with
    | .ok json => .filteredUpdates node (filterJsonByKeys json keys) step
    | .error _ => e
  | _, e => e

/-- The forwarder. -/
def relayed (e : StreamEvent S) : Option (Delivery S) :=
  if sc.passes e then some ⟨e, sc.restrict e⟩ else none

/-- What the driver makes of the state before a superstep. -/
def snapshotEvent (state : S) (step : ℕ) : StreamEvent S :=
  match sc.outputKeys with
  | none => .values state step
  | some keys =>
    .filteredValues (filterJsonByKeys ((State.toValue state).toOption.getD .null) keys) step

/-- What the driver sends before a superstep. -/
def driverValues (state : S) (step : ℕ) : Option (Delivery S) :=
  match sc.mode with
  | .values => if sc.skips step then none else some ⟨.values state step, sc.snapshotEvent state step⟩
  | _ => none

end StreamConfig

/-- What the driver sends to the caller. -/
abbrev DriverItem (S : Type) [State S] := Except JunctureError (Delivery S)

/-- The arguments of `stream_with_config`. -/
structure StreamCall (S σ : Type) extends InvokeCall S σ where
  /-- What the caller wants to see. -/
  streamConfig : StreamConfig := {}
  /-- The nodes in the namespace of the configuration. -/
  ns : List String := []

/-- The `End` event, and the error that follows it. -/
def endItems (l : PregelLoop S σ) (e : Ending) : List (DriverItem S) :=
  (CompiledGraph.streamEnd l e).map fun r => r.map fun state => ⟨.end state, .end state⟩

theorem endItems_ne_nil (l : PregelLoop S σ) (e : Ending) : endItems l e ≠ [] := by
  cases e <;> simp [endItems, CompiledGraph.streamEnd]

section Runs

variable [InterruptHash]

/-- What is sent in one round before it may turn out to be the last. -/
def StreamConfig.roundSends (sc : StreamConfig) (ns : List String) (l : PregelLoop S σ)
    (round : Round S) : List (Relay.Send (StreamEvent S) (DriverItem S)) :=
  match (l.outside round).tick with
  | (l, .ok true) =>
    (sc.driverValues l.state l.step).toList.map (fun d => .direct (.ok d)) ++
      (l.roundEvents ns round).map .relay
  | _ => []

namespace CompiledGraph

variable (g : CompiledGraph S σ) (call : StreamCall S σ) (rounds : ℕ → Round S)

/-- What is sent in round `i`, if the run gets there. -/
def sendsAt (i : ℕ) : List (Relay.Send (StreamEvent S) (DriverItem S)) :=
  match (g.streamLoop call.toInvokeCall).head rounds i with
  | none => []
  | some l =>
    call.streamConfig.roundSends call.ns l (rounds i) ++
      match l.ending (rounds i) with
      | none => []
      | some (l, e) => (endItems l e).map .direct

/-- What is sent in the first `n` rounds. -/
def sends (n : ℕ) : List (Relay.Send (StreamEvent S) (DriverItem S)) :=
  (List.range n).flatMap (g.sendsAt call rounds)

/-- The forwarder, the driver and the caller get from the first `n` rounds to the state `u`. -/
def Streams (n : ℕ) (u : Relay.State (StreamEvent S) (Delivery S) (DriverItem S)) : Prop :=
  Relay.Runs call.streamConfig.relayed call.streamConfig.mode.streamCapacity
    call.streamConfig.mode.streamCapacity { script := g.sends call rounds n } u

/-- The stream delivers what it should. -/
structure Delivers : Prop where
  /-- At every moment: of the events that the loop has emitted and that pass the filters, none is
  lost, delivered twice or out of order. -/
  events : ∀ n u, g.Streams call rounds n u →
    Relay.Conserved call.streamConfig.relayed (g.sends call rounds n) u
  /-- When the run has ended and everything is delivered, the end comes after all of them. -/
  ending : ∀ n l e, (g.streamLoop call.toInvokeCall).EndsAt rounds n l e →
    ∀ u, g.Streams call rounds (n + 1) u → u.Complete →
      Relay.InOrder call.streamConfig.relayed (g.sends call rounds (n + 1)) (endItems l e) u.got

variable {g call rounds} {n : ℕ} {l : PregelLoop S σ} {e : Ending}

/-- What is sent in a run that has ended. -/
theorem sends_of_endsAt (h : (g.streamLoop call.toInvokeCall).EndsAt rounds n l e) :
    ∃ body, g.sends call rounds (n + 1) = body ++ (endItems l e).map .direct := by
  obtain ⟨t, ht, hend⟩ := h
  have hat : g.sendsAt call rounds n = call.streamConfig.roundSends call.ns t (rounds n) ++
      (endItems l e).map .direct := by
    unfold sendsAt
    rw [ht]
    dsimp only
    rw [hend]
  refine ⟨g.sends call rounds n ++ call.streamConfig.roundSends call.ns t (rounds n), ?_⟩
  unfold sends
  rw [List.range_succ, List.flatMap_append, List.flatMap_singleton, hat, List.append_assoc]

/-- When the end of a run comes last. -/
theorem inOrder_iff_followed (h : (g.streamLoop call.toInvokeCall).EndsAt rounds n l e) :
    (∀ u, g.Streams call rounds (n + 1) u → u.Complete → Relay.InOrder call.streamConfig.relayed
      (g.sends call rounds (n + 1)) (endItems l e) u.got) ↔
      Relay.Followed call.streamConfig.relayed call.streamConfig.mode.streamCapacity
        (g.sends call rounds (n + 1)) := by
  obtain ⟨body, hbody⟩ := sends_of_endsAt h
  have hcap := call.streamConfig.mode.streamCapacity_pos
  have hrelays : Relay.relays (body ++ (endItems l e).map .direct) = Relay.relays body := by simp
  unfold Streams
  rw [hbody]
  simp only [Relay.inOrder_congr hrelays, Relay.followed_congr hrelays]
  exact Relay.inOrder_iff hcap hcap (endItems_ne_nil l e)

/-- **When a stream delivers what it should**: when in every run that ends, each event that passes the
filters is followed by more events of the loop than the channel of the forwarder has places. -/
theorem delivers_iff : g.Delivers call rounds ↔
    ∀ n l e, (g.streamLoop call.toInvokeCall).EndsAt rounds n l e →
      Relay.Followed call.streamConfig.relayed call.streamConfig.mode.streamCapacity
        (g.sends call rounds (n + 1)) := by
  constructor
  · exact fun h n l e hend => (inOrder_iff_followed hend).1 (h.ending n l e hend)
  · exact fun h => ⟨fun n u hu => hu.conserved, fun n l e hend =>
      (inOrder_iff_followed hend).2 (h n l e hend)⟩

/-! ### The filter by keys -/

/-- The value is an object, and this is the object with the keys of `keys` that it has. -/
def Restricts (keys : List String) (value : Except String Json) (data : Json) : Prop :=
  ∃ kvs, value = .ok (.obj kvs) ∧ data = .obj (kvs.filter fun kv => keys.contains kv.1)

/-- A state or an update is delivered in its filtered form. -/
def FilteredForm (keys : List String) (d : Delivery S) : Prop :=
  match d.source with
  | .values state step => ∃ data, Restricts keys (State.toValue state) data ∧
      d.event = .filteredValues data step
  | .updates node update step => ∃ data, Restricts keys (State.updateToValue update) data ∧
      d.event = .filteredUpdates node data step
  | _ => True

/-- The value is an object that the filter by keys can restrict: there are keys, or nothing to
restrict. -/
def Restrictable (keys : List String) (value : Except String Json) : Prop :=
  ∃ kvs, value = .ok (.obj kvs) ∧ (keys ≠ [] ∨ kvs = [])

variable (g call rounds) in
/-- With `output_keys`, every state and every update is delivered in its filtered form, whether the
driver has sent it or the forwarder. -/
def Restricted : Prop :=
  ∀ keys, call.streamConfig.outputKeys = some keys → ∀ n u, g.Streams call rounds n u →
    ∀ d, .inl d ∈ u.got ∨ .inr (.ok d) ∈ u.got → FilteredForm keys d

variable (g call rounds) in
/-- The loop emits the event in some round. -/
def Emits (e : StreamEvent S) : Prop := ∃ n, .relay e ∈ g.sends call rounds n

variable (g call rounds) in
/-- The driver sends something it has made of the state. -/
def Snapshots (state : S) (step : ℕ) : Prop :=
  ∃ n event, .direct (.ok ⟨.values state step, event⟩) ∈ g.sends call rounds n

variable (g call rounds) in
/-- The condition: no state that the loop emits passes the filters, every update that does is an
object that the filter by keys can restrict, and so is every state that the driver sends. -/
structure Covered (keys : List String) : Prop where
  /-- The states of the loop. -/
  values : ∀ state step, g.Emits call rounds (.values state step) →
    call.streamConfig.passes (.values state step) = false
  /-- The updates. -/
  updates : ∀ node update step, g.Emits call rounds (.updates node update step) →
    call.streamConfig.passes (.updates node update step) = true →
      Restrictable keys (State.updateToValue update)
  /-- The states of the driver. -/
  driver : ∀ state step, g.Snapshots call rounds state step →
    Restrictable keys (State.toValue state)

omit [InterruptHash] in
/-- When the filter by keys yields the filtered form. -/
theorem restricts_filterJsonByKeys {keys : List String} {value : Except String Json} {json : Json}
    (h : value = .ok json) :
    Restricts keys value (filterJsonByKeys json keys) ↔ Restrictable keys value := by
  subst h
  have hobj : ∀ kvs : List (String × Json), filterJsonByKeys (.obj kvs) keys =
      .obj (kvs.filter fun kv => keys.contains kv.1) ↔ keys ≠ [] ∨ kvs = [] := by
    intro kvs
    cases keys with
    | nil => simp [filterJsonByKeys]
    | cons key keys => simp [filterJsonByKeys]
  constructor
  · rintro ⟨kvs, hkvs, hdata⟩
    cases hkvs
    exact ⟨kvs, rfl, (hobj kvs).1 hdata⟩
  · rintro ⟨kvs, hkvs, hkeys⟩
    cases hkvs
    exact ⟨kvs, rfl, (hobj kvs).2 hkeys⟩

omit [InterruptHash] in
/-- When an event with the filtered value in it is the filtered form. -/
theorem exists_restricts_iff {keys : List String} {value : Except String Json} {json : Json}
    (h : value = .ok json) {f : Json → StreamEvent S} (hf : Function.Injective f) :
    (∃ data, Restricts keys value data ∧ f (filterJsonByKeys json keys) = f data) ↔
      Restrictable keys value := by
  rw [← restricts_filterJsonByKeys h]
  constructor
  · rintro ⟨data, hdata, heq⟩
    rwa [hf heq]
  · exact fun hdata => ⟨_, hdata, rfl⟩

omit [InterruptHash] in
/-- A value that does not serialize has no filtered form. -/
theorem not_restricts_of_error (keys : List String) {value : Except String Json} {err : String}
    (h : value = .error err) :
    (∀ data, ¬ Restricts keys value data) ∧ ¬ Restrictable keys value := by
  subst h
  exact ⟨fun data => by rintro ⟨kvs, ⟨⟩, -⟩, by rintro ⟨kvs, ⟨⟩, -⟩⟩

section Forms

variable {sc : StreamConfig} {keys : List String} {state : S} {step : ℕ}

omit [InterruptHash]

/-- The forwarder delivers a state of the loop as it is. -/
theorem not_filteredForm_values : ¬ FilteredForm keys
    ⟨.values state step, sc.restrict (.values state step)⟩ := by
  have hsame : sc.restrict (.values state step) = .values state step := by
    unfold StreamConfig.restrict
    cases sc.outputKeys <;> rfl
  rintro ⟨data, -, heq⟩
  dsimp only at heq
  rw [hsame] at heq
  cases heq

/-- The forwarder filters an update that is an object. -/
theorem filteredForm_updates {node : String} {update : Update S} (h : sc.outputKeys = some keys) :
    FilteredForm keys ⟨.updates node update step, sc.restrict (.updates node update step)⟩ ↔
      Restrictable keys (State.updateToValue update) := by
  unfold StreamConfig.restrict
  rw [h]
  dsimp only [FilteredForm]
  cases hvalue : State.updateToValue update with
  | error err =>
    obtain ⟨hnone, hnot⟩ := not_restricts_of_error keys hvalue
    rw [hvalue] at hnone hnot
    exact iff_of_false (fun ⟨data, hdata, _⟩ => hnone data hdata) hnot
  | ok json =>
    exact exists_restricts_iff rfl (f := fun data => .filteredUpdates node data step)
      fun a b hab => by
        cases hab
        rfl

/-- The driver filters a state that is an object. -/
theorem filteredForm_snapshot (h : sc.outputKeys = some keys) :
    FilteredForm keys ⟨.values state step, sc.snapshotEvent state step⟩ ↔
      Restrictable keys (State.toValue state) := by
  unfold StreamConfig.snapshotEvent
  rw [h]
  dsimp only [FilteredForm]
  cases hvalue : State.toValue state with
  | error err =>
    obtain ⟨hnone, hnot⟩ := not_restricts_of_error keys hvalue
    rw [hvalue] at hnone hnot
    exact iff_of_false (fun ⟨data, hdata, _⟩ => hnone data hdata) hnot
  | ok json =>
    exact exists_restricts_iff rfl (f := fun data => .filteredValues data step) fun a b hab => by
      cases hab
      rfl

end Forms

/-- What is sent directly: the states before the supersteps, and the end. -/
theorem direct_of_mem_sends {k : DriverItem S} (h : .direct k ∈ g.sends call rounds n) :
    (∃ state step, k = .ok ⟨.values state step, call.streamConfig.snapshotEvent state step⟩) ∨
      ∃ (l : PregelLoop S σ) (e : Ending), k ∈ endItems l e := by
  obtain ⟨i, -, hi⟩ := List.mem_flatMap.1 h
  unfold sendsAt at hi
  cases hhead : (g.streamLoop call.toInvokeCall).head rounds i with
  | none =>
    rw [hhead] at hi
    cases hi
  | some l =>
    rw [hhead] at hi
    dsimp only at hi
    obtain hround | hend := List.mem_append.1 hi
    · left
      unfold StreamConfig.roundSends at hround
      split at hround
      · obtain hdirect | hrelay := List.mem_append.1 hround
        · obtain ⟨d, hd, hk⟩ := List.mem_map.1 hdirect
          cases hk
          unfold StreamConfig.driverValues at hd
          split at hd
          · split_ifs at hd
            · cases hd
            · exact ⟨_, _, congrArg _ (by simpa using hd)⟩
          · cases hd
        · obtain ⟨e, -, hk⟩ := List.mem_map.1 hrelay
          cases hk
      · cases hround
    · right
      split at hend
      · cases hend
      · rename_i l' e _
        obtain ⟨k', hk', heq⟩ := List.mem_map.1 hend
        cases heq
        exact ⟨l', e, hk'⟩

/-- **When `output_keys` restricts what is delivered**: when no state that the loop emits passes the
filters by mode and step, and what else is delivered of states and updates are objects. -/
theorem restricted_iff : g.Restricted call rounds ↔
    ∀ keys, call.streamConfig.outputKeys = some keys → g.Covered call rounds keys := by
  have hcap := call.streamConfig.mode.streamCapacity_pos
  -- Everything that is sent and passes can be received.
  have hreceive := fun n => Relay.exists_received
    call.streamConfig.relayed hcap hcap (g.sends call rounds n)
  have hpassed : ∀ {e : StreamEvent S}, call.streamConfig.passes e = true →
      call.streamConfig.relayed e = some ⟨e, call.streamConfig.restrict e⟩ := fun h => if_pos h
  constructor
  · intro h keys hkeys
    have hform := h keys hkeys
    constructor
    · rintro state step ⟨n, he⟩
      by_contra hpass
      obtain ⟨u, hu, hgot, -⟩ := hreceive n
      exact not_filteredForm_values
        (hform n u hu _ (.inl (hgot _ _ he (hpassed (by simpa using hpass)))))
    · rintro node update step ⟨n, he⟩ hpass
      obtain ⟨u, hu, hgot, -⟩ := hreceive n
      exact (filteredForm_updates hkeys).1 (hform n u hu _ (.inl (hgot _ _ he (hpassed hpass))))
    · rintro state step ⟨n, event, hdirect⟩
      obtain ⟨u, hu, -, hgot⟩ := hreceive n
      obtain ⟨state', step', hk⟩ | ⟨l, e, hk⟩ := direct_of_mem_sends hdirect
      · cases hk
        exact (filteredForm_snapshot hkeys).1 (hform n u hu _ (.inr (hgot _ hdirect)))
      · -- The states at the end of the run are not those of a superstep.
        cases e <;> simp [endItems, streamEnd, Except.map] at hk
  · intro h keys hkeys n u hu d hd
    obtain ⟨hvalues, hupdates, hdriver⟩ := h keys hkeys
    obtain hd | hd := hd
    · obtain ⟨e, he, hrelayed⟩ := hu.conserved.of_inl_mem hd
      unfold StreamConfig.relayed at hrelayed
      split_ifs at hrelayed with hpass
      cases hrelayed
      cases e with
      | values state step =>
        rw [hvalues state step ⟨n, he⟩] at hpass
        cases hpass
      | updates node update step =>
        exact (filteredForm_updates hkeys).2 (hupdates node update step ⟨n, he⟩ hpass)
      | _ => trivial
    · have hdirect := hu.conserved.of_inr_mem hd
      obtain ⟨state, step, hk⟩ | ⟨l, e, hk⟩ := direct_of_mem_sends hdirect
      · cases hk
        exact (filteredForm_snapshot hkeys).2 (hdriver state step ⟨n, _, hdirect⟩)
      · obtain ⟨r, -, hr⟩ := List.mem_map.1 hk
        cases r with
        | error err => cases hr
        | ok state =>
          cases hr
          trivial

end CompiledGraph

end Runs

/-! ### Two nodes in a row, streamed -/

/-- A stream of the states, with the keys that are wanted. -/
def chainStream (outputKeys : Option (List String)) : StreamCall Transcript MemoryStore where
  toInvokeCall := chainCall none
  streamConfig := { outputKeys }

/-- The state after the last superstep is followed by two events only, so that the end of the run may
overtake it. -/
theorem chain_not_delivers : ¬ chainGraph.Delivers (chainStream none) undisturbed := by
  intro h
  have hend : (((chainGraph.streamLoop (chainCall none)).head undisturbed 2).bind
      fun t => t.ending {}).map Prod.snd = some .done := rfl
  obtain ⟨⟨l, e⟩, hl, rfl⟩ := Option.map_eq_some_iff.1 hend
  obtain ⟨t, ht, hl⟩ := Option.bind_eq_some_iff.1 hl
  have hends : (chainGraph.streamLoop (chainCall none)).EndsAt undisturbed 2 l .done := ⟨t, ht, hl⟩
  have hlen : (Relay.relays (chainGraph.sends (chainStream none) undisturbed 3)).length = 25 := rfl
  have hj : 22 < (Relay.relays (chainGraph.sends (chainStream none) undisturbed 3)).length := by
    omega
  -- The event at this place is the last state.
  have hpass : ((chainStream none).streamConfig.relayed
      (Relay.relays (chainGraph.sends (chainStream none) undisturbed 3))[22]).isSome = true := rfl
  exact Relay.not_followed hj hpass (by rw [hlen]; decide)
    ((CompiledGraph.inOrder_iff_followed hends).1 (h.ending 2 l .done hends))

/-- The field that is not wanted is in the state that the loop emits. -/
theorem chain_not_restricted :
    ¬ chainGraph.Restricted (chainStream (some ["status"])) undisturbed := by
  intro h
  have hcap := (chainStream (some ["status"])).streamConfig.mode.streamCapacity_pos
  obtain ⟨u, hu, hgot, -⟩ := Relay.exists_received (chainStream (some ["status"])).streamConfig.relayed
    hcap hcap (chainGraph.sends (chainStream (some ["status"])) undisturbed 1)
  have hat : (Relay.relays (chainGraph.sends (chainStream (some ["status"])) undisturbed 1))[10]? =
      some (.values { log := [1] } 0) := rfl
  have hsent := Relay.mem_relays.1 (List.mem_of_getElem? hat)
  exact CompiledGraph.not_filteredForm_values
    (h ["status"] rfl 1 u hu _ (.inl (hgot _ _ hsent rfl)))

end Juncture
