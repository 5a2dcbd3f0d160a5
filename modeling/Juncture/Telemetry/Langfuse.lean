import Juncture.Core.Json
import Mathlib.Data.List.Count
import Mathlib.Data.List.Perm.Basic

/-!
# Batches of telemetry and their export

Telemetry items are collected in batches.  A batch is written to the store, and then exported to Langfuse:
each of its traces with the observations of the batch that belong to it.

* `partitionItems` : what a batch consists of.
* `LangfuseExporter.exportBatch` : what is sent for a trace.
* `exports` : what is sent for a batch.
* `exportsOnce_iff` : for which batches every observation is sent exactly once.
-/

namespace Juncture

namespace Telemetry

/-! ### Items -/

/-- A `Uuid`, as its text. -/
abbrev Id := String

/-- `Trace`.  Times are numbers, and numbers of type `f64` are kept as their bits. -/
structure Trace where
  /-- Identifier. -/
  id : Id
  /-- Name. -/
  name : String
  /-- User. -/
  userId : Option String := none
  /-- Session. -/
  sessionId : Option String := none
  /-- Labels. -/
  tags : List String := []
  /-- Metadata. -/
  metadata : Json := .null
  /-- Deployment environment. -/
  environment : Option String := none
  /-- Version of the application. -/
  release : Option String := none
  /-- Input. -/
  input : Option Json := none
  /-- Output. -/
  output : Option Json := none
  /-- When it was started. -/
  startTime : ℕ := 0
  /-- When it was completed. -/
  endTime : Option ℕ := none
  /-- Cost. -/
  totalCost : Option UInt64 := none
  /-- Tokens. -/
  totalTokens : Option UInt64 := none

/-- `ObservationType`. -/
inductive ObservationType where
  | span | generation | toolCall | retrieval
deriving DecidableEq

/-- `ObservationLevel`. -/
inductive ObservationLevel where
  | debug | default | warning | error
deriving DecidableEq

/-- `ObservationLevel::as_str`. -/
def ObservationLevel.asStr : ObservationLevel → String
  | .debug => "DEBUG"
  | .default => "DEFAULT"
  | .warning => "WARNING"
  | .error => "ERROR"

/-- `TokenUsage` of the telemetry. -/
structure Usage where
  /-- Tokens of the request. -/
  inputTokens : UInt64
  /-- Tokens of the response. -/
  outputTokens : UInt64
  /-- All of them. -/
  totalTokens : UInt64
  /-- Tokens of the request that were cached. -/
  cachedTokens : Option UInt64 := none

/-- `Observation`. -/
structure Observation where
  /-- Identifier. -/
  id : Id
  /-- Trace it belongs to. -/
  traceId : Id
  /-- Observation it is part of. -/
  parentObservationId : Option Id := none
  /-- Name. -/
  name : String
  /-- Kind. -/
  observationType : ObservationType := .span
  /-- When it was started. -/
  startTime : ℕ := 0
  /-- When it was completed. -/
  endTime : Option ℕ := none
  /-- Input. -/
  input : Option Json := none
  /-- Output. -/
  output : Option Json := none
  /-- Metadata. -/
  metadata : Json := .null
  /-- Severity. -/
  level : ObservationLevel := .default
  /-- Details of an error. -/
  statusMessage : Option String := none
  /-- Model. -/
  model : Option String := none
  /-- Parameters of the model. -/
  modelParameters : Option Json := none
  /-- Usage. -/
  usage : Option Usage := none
  /-- Cost. -/
  cost : Option UInt64 := none

/-- `Session`. -/
structure Session where
  /-- Identifier. -/
  id : String
  /-- User. -/
  userId : Option String := none
  /-- When it was created. -/
  createdAt : ℕ := 0

/-- `TelemetryItem`. -/
inductive TelemetryItem where
  | trace (t : Trace)
  | observation (o : Observation)
  | session (s : Session)

/-- `partition_items`. -/
def partitionItems (batch : List TelemetryItem) : List Session × List Trace × List Observation :=
  batch.foldl (fun (sessions, traces, observations) item => match item with
    | .session s => (sessions ++ [s], traces, observations)
    | .trace t => (sessions, traces ++ [t], observations)
    | .observation o => (sessions, traces, observations ++ [o])) ([], [], [])

/-- The sessions of a batch. -/
def sessionsOf (batch : List TelemetryItem) : List Session :=
  batch.filterMap fun item => match item with
    | .session s => some s
    | _ => none

/-- The traces of a batch. -/
def tracesOf (batch : List TelemetryItem) : List Trace :=
  batch.filterMap fun item => match item with
    | .trace t => some t
    | _ => none

/-- The observations of a batch. -/
def observationsOf (batch : List TelemetryItem) : List Observation :=
  batch.filterMap fun item => match item with
    | .observation o => some o
    | _ => none

/-- Each part of a batch is in the order of the batch. -/
theorem partitionItems_eq (batch : List TelemetryItem) :
    partitionItems batch = (sessionsOf batch, tracesOf batch, observationsOf batch) := by
  suffices h : ∀ (parts : List Session × List Trace × List Observation),
      batch.foldl (fun (sessions, traces, observations) item => match item with
        | .session s => (sessions ++ [s], traces, observations)
        | .trace t => (sessions, traces ++ [t], observations)
        | .observation o => (sessions, traces, observations ++ [o])) parts =
      (parts.1 ++ sessionsOf batch, parts.2.1 ++ tracesOf batch, parts.2.2 ++ observationsOf batch) by
    exact h ([], [], [])
  induction batch with
  | nil => simp [sessionsOf, tracesOf, observationsOf]
  | cons item batch ih =>
    rintro ⟨sessions, traces, observations⟩
    cases item with
    | session s => simp [ih, sessionsOf, tracesOf, observationsOf]
    | trace t => simp [ih, sessionsOf, tracesOf, observationsOf]
    | observation o => simp [ih, sessionsOf, tracesOf, observationsOf]

/-! ### What is sent -/

namespace LangfuseExporter

section

variable (rfc3339 : ℕ → String) (f64 : UInt64 → Json)

/-- A value that may be missing. -/
def optional (v : Option Json) : Json := v.getD .null

/-- A count. -/
def count (n : UInt64) : Json := .num n.toNat

/-- `build_trace_item`. -/
def buildTraceItem (now : String) (trace : Trace) : Json :=
  .obj [("id", .str s!"juncture-trace-{trace.id}"), ("type", .str "trace-create"),
    ("timestamp", .str now),
    ("body", .obj [("id", .str trace.id), ("name", .str trace.name),
      ("sessionId", optional (trace.sessionId.map .str)), ("userId", optional (trace.userId.map .str)),
      ("tags", .arr (trace.tags.map .str)), ("metadata", trace.metadata),
      ("input", optional trace.input), ("output", optional trace.output)])]

/-- The body of an item for an observation. -/
def obsBody (obs : Observation) : List (String × Json) :=
  [("id", .str obs.id), ("traceId", .str obs.traceId), ("name", .str obs.name),
    ("startTime", .str (rfc3339 obs.startTime)),
    ("endTime", optional (obs.endTime.map fun t => .str (rfc3339 t))),
    ("input", optional obs.input), ("output", optional obs.output), ("metadata", obs.metadata),
    ("level", .str obs.level.asStr)] ++
  (obs.model.map fun model => ("model", Json.str model)).toList ++
  (obs.usage.map fun usage => ("usageDetails", Json.obj [("input", count usage.inputTokens),
    ("output", count usage.outputTokens), ("total", count usage.totalTokens)])).toList ++
  (obs.cost.map fun cost => ("costDetails", Json.obj [("total", f64 cost)])).toList ++
  (obs.parentObservationId.map fun id => ("parentObservationId", Json.str id)).toList

/-- `build_obs_item`. -/
def buildObsItem (now : String) (obs : Observation) : Json :=
  .obj [("id", .str s!"juncture-obs-{obs.id}"),
    ("type", .str (if obs.observationType = .generation then "generation-create" else "span-create")),
    ("timestamp", .str now), ("body", .obj (obsBody rfc3339 f64 obs))]

/-- `export`: the batch of items that is posted. -/
def exportBatch (now : String) (trace : Trace) (observations : List Observation) : List Json :=
  buildTraceItem now trace :: observations.map (buildObsItem rfc3339 f64 now)

end

end LangfuseExporter

/-- The observations that are sent along with each trace. -/
def exportsAt {ω : Type} (traceId : ω → Id) (traces : List Trace) (observations : List ω) :
    List (Trace × List ω) :=
  traces.map fun t => (t, observations.filter fun o => traceId o = t.id)

/-- What `flush_batch` has exported: a trace and its observations for each call of the exporter. -/
def exports (batch : List TelemetryItem) : List (Trace × List Observation) :=
  let (_, traces, observations) := partitionItems batch
  exportsAt Observation.traceId traces observations

/-- Every observation that is posted with a trace names this trace. -/
theorem traceId_of_mem_exportBatch (rfc3339 : ℕ → String) (f64 : UInt64 → Json) (now : String)
    {batch : List TelemetryItem} {e : Trace × List Observation} (he : e ∈ exports batch) :
    ∀ item ∈ (LangfuseExporter.exportBatch rfc3339 f64 now e.1 e.2).tail,
      (item.get "body").bind (·.get "traceId") = some (.str e.1.id) := by
  intro item hitem
  obtain ⟨o, ho, rfl⟩ := List.mem_map.mp hitem
  obtain ⟨t, -, rfl⟩ := List.mem_map.mp he
  have hid : o.traceId = t.id := by simpa using (List.mem_filter.mp ho).2
  rw [← hid]
  rfl

/-! ### Every observation once -/

/-- The observations of batch `i`, each with its number. -/
def occurrencesIn (i : ℕ) (batch : List TelemetryItem) : List ((ℕ × ℕ) × Observation) :=
  (observationsOf batch).zipIdx.map fun o => ((i, o.2), o.1)

/-- What is sent for batch `i`, with the numbers of the observations. -/
def sentIn (i : ℕ) (batch : List TelemetryItem) : List (Trace × (ℕ × ℕ) × Observation) :=
  (exportsAt (fun o => o.2.traceId) (tracesOf batch) (occurrencesIn i batch)).flatMap fun e =>
    e.2.map fun o => (e.1, o)

/-- The observations of batches that are numbered from `k`. -/
def occurrences (k : ℕ) (batches : List (List TelemetryItem)) : List ((ℕ × ℕ) × Observation) :=
  (batches.zipIdx k).flatMap fun b => occurrencesIn b.2 b.1

/-- What is sent for them. -/
def sent (k : ℕ) (batches : List (List TelemetryItem)) : List (Trace × (ℕ × ℕ) × Observation) :=
  (batches.zipIdx k).flatMap fun b => sentIn b.2 b.1

theorem map_snd_occurrencesIn (i : ℕ) (batch : List TelemetryItem) :
    (occurrencesIn i batch).map Prod.snd = observationsOf batch := by
  simp [occurrencesIn, Function.comp_def]

/-- Without the numbers, this is what is exported. -/
theorem exportsAt_occurrencesIn (i : ℕ) (batch : List TelemetryItem) :
    (exportsAt (fun o => o.2.traceId) (tracesOf batch) (occurrencesIn i batch)).map
      (fun e => (e.1, e.2.map Prod.snd)) = exports batch := by
  simp only [exports, partitionItems_eq, exportsAt, List.map_map, Function.comp_def,
    ← map_snd_occurrencesIn i batch, List.filter_map]

/-- Every observation of the batches is sent exactly once, and with its own trace. -/
structure ExportsOnce (batches : List (List TelemetryItem)) : Prop where
  /-- Each goes with its own trace. -/
  attached : ∀ s ∈ sent 0 batches, s.1.id = s.2.2.traceId
  /-- Each is sent once. -/
  once : ∀ o ∈ occurrences 0 batches, ((sent 0 batches).map fun s => s.2.1).count o.1 = 1

section Numbered

variable {κ ω : Type} [BEq κ] [LawfulBEq κ] {l : List (κ × ω)} {a : κ} {o : ω} {p : κ × ω → Bool}

/-- What has a number of its own is there once, if it is chosen. -/
theorem count_filter (hl : (l.map Prod.fst).Nodup) (ho : (a, o) ∈ l) :
    ((l.filter p).map Prod.fst).count a = if p (a, o) then 1 else 0 := by
  induction l with
  | nil => cases ho
  | cons x l ih =>
    obtain ⟨hx, hl⟩ := List.nodup_cons.mp hl
    obtain rfl | ho := List.mem_cons.mp ho
    · have hnot : ((l.filter p).map Prod.fst).count a = 0 := by
        refine List.count_eq_zero.mpr fun hmem => hx ?_
        obtain ⟨y, hy, rfl⟩ := List.mem_map.mp hmem
        exact List.mem_map.mpr ⟨y, List.mem_of_mem_filter hy, rfl⟩
      cases hp : p (a, o) <;> simp [hp, hnot]
    · have hne : x.1 ≠ a := by
        rintro rfl
        exact hx (List.mem_map.mpr ⟨_, ho, rfl⟩)
      cases hp : p x <;> simp [hp, hne, ih hl ho]

end Numbered

variable {k i : ℕ} {batch : List TelemetryItem} {batches : List (List TelemetryItem)}

theorem nodup_occurrencesIn : ((occurrencesIn i batch).map Prod.fst).Nodup := by
  have hnumbers : (occurrencesIn i batch).map Prod.fst =
      ((observationsOf batch).zipIdx.map Prod.snd).map fun j => (i, j) := by
    rw [occurrencesIn, List.map_map, List.map_map]
    rfl
  rw [hnumbers, List.zipIdx_map_snd]
  exact List.Nodup.map (fun _ _ h => (Prod.mk.inj h).2) List.nodup_range'

/-- A number that is sent is that of an observation of the batch, and goes with a trace of the batch. -/
theorem mem_sentIn {s : Trace × (ℕ × ℕ) × Observation} :
    s ∈ sentIn i batch ↔ s.1 ∈ tracesOf batch ∧ s.2 ∈ occurrencesIn i batch ∧ s.2.2.traceId = s.1.id := by
  obtain ⟨t, o⟩ := s
  simp only [sentIn, exportsAt, List.flatMap_map, List.mem_flatMap, List.mem_map, List.mem_filter,
    decide_eq_true_eq, Prod.mk.injEq]
  constructor
  · rintro ⟨t, ht, o, ⟨ho, heq⟩, rfl, rfl⟩
    exact ⟨ht, ho, heq⟩
  · rintro ⟨ht, ho, heq⟩
    exact ⟨t, ht, o, ⟨ho, heq⟩, rfl, rfl⟩

/-- An observation is sent once for each trace of the batch that it belongs to. -/
theorem count_sentIn {o : (ℕ × ℕ) × Observation} (ho : o ∈ occurrencesIn i batch) :
    ((sentIn i batch).map fun s => s.2.1).count o.1 =
      (tracesOf batch).countP fun t => o.2.traceId = t.id := by
  rw [sentIn, exportsAt, List.flatMap_map]
  induction tracesOf batch with
  | nil => rfl
  | cons t traces ih =>
    have hhere := count_filter (p := fun o => o.2.traceId = t.id) (nodup_occurrencesIn (i := i)) ho
    rw [List.flatMap_cons, List.map_append, List.count_append, ih, List.countP_cons, List.map_map,
      Nat.add_comm]
    exact congrArg _ hhere

theorem fst_of_mem_occurrencesIn {o : (ℕ × ℕ) × Observation} (ho : o ∈ occurrencesIn i batch) :
    o.1.1 = i := by
  obtain ⟨x, -, rfl⟩ := List.mem_map.mp ho
  rfl

theorem occurrences_cons : occurrences k (batch :: batches) =
    occurrencesIn k batch ++ occurrences (k + 1) batches := by
  simp [occurrences, List.zipIdx_cons]

theorem sent_cons : sent k (batch :: batches) = sentIn k batch ++ sent (k + 1) batches := by
  simp [sent, List.zipIdx_cons]

theorem le_of_mem_occurrences {o : (ℕ × ℕ) × Observation} (ho : o ∈ occurrences k batches) :
    k ≤ o.1.1 := by
  obtain ⟨b, hb, ho⟩ := List.mem_flatMap.mp ho
  rw [fst_of_mem_occurrencesIn ho]
  exact List.le_snd_of_mem_zipIdx hb

theorem mem_sent {s : Trace × (ℕ × ℕ) × Observation} (hs : s ∈ sent k batches) :
    s.2 ∈ occurrences k batches ∧ s.2.2.traceId = s.1.id := by
  obtain ⟨b, hb, hs⟩ := List.mem_flatMap.mp hs
  obtain ⟨-, ho, heq⟩ := mem_sentIn.mp hs
  exact ⟨List.mem_flatMap.mpr ⟨b, hb, ho⟩, heq⟩

theorem count_sentIn_eq_zero {o : (ℕ × ℕ) × Observation} (ho : o.1.1 ≠ i) :
    ((sentIn i batch).map fun s => s.2.1).count o.1 = 0 := by
  refine List.count_eq_zero.mpr fun hmem => ho ?_
  obtain ⟨s, hs, heq⟩ := List.mem_map.mp hmem
  rw [← heq]
  exact fst_of_mem_occurrencesIn (mem_sentIn.mp hs).2.1

theorem count_sent_eq_zero {o : (ℕ × ℕ) × Observation} (ho : o.1.1 < k) :
    ((sent k batches).map fun s => s.2.1).count o.1 = 0 := by
  refine List.count_eq_zero.mpr fun hmem => ?_
  obtain ⟨s, hs, heq⟩ := List.mem_map.mp hmem
  have hle := le_of_mem_occurrences (mem_sent hs).1
  rw [heq] at hle
  omega

/-- Each observation is sent as often as its trace is in its own batch. -/
theorem count_sent_iff (batches : List (List TelemetryItem)) (k : ℕ) :
    (∀ o ∈ occurrences k batches, ((sent k batches).map fun s => s.2.1).count o.1 = 1) ↔
      ∀ batch ∈ batches, ∀ o ∈ observationsOf batch,
        (tracesOf batch).countP (fun t => o.traceId = t.id) = 1 := by
  induction batches generalizing k with
  | nil => simp [occurrences]
  | cons batch batches ih =>
    rw [List.forall_mem_cons, ← ih (k + 1), occurrences_cons, sent_cons, List.forall_mem_append]
    simp only [List.map_append, List.count_append]
    refine and_congr ?_ (forall₂_congr fun o ho => ?_)
    · -- the observations of this batch are not sent for a later one
      have hhere : ∀ o ∈ occurrencesIn k batch, ((sentIn k batch).map fun s => s.2.1).count o.1 +
          ((sent (k + 1) batches).map fun s => s.2.1).count o.1 =
          (tracesOf batch).countP fun t => o.2.traceId = t.id := by
        intro o ho
        have hk := fst_of_mem_occurrencesIn ho
        rw [count_sentIn ho, count_sent_eq_zero (by omega), Nat.add_zero]
      have hmem : ∀ o, o ∈ observationsOf batch ↔ ∃ n, (n, o) ∈ occurrencesIn k batch := by
        intro o
        rw [← map_snd_occurrencesIn k batch]
        simp
      constructor
      · intro h o ho
        obtain ⟨n, hn⟩ := (hmem o).mp ho
        rw [← hhere _ hn]
        exact h _ hn
      · intro h o ho
        rw [hhere o ho]
        exact h _ ((hmem o.2).mpr ⟨o.1, ho⟩)
    · -- and those of a later one are not sent for this
      have hk := le_of_mem_occurrences ho
      rw [count_sentIn_eq_zero (by omega), Nat.zero_add]

/-- **When every observation is sent exactly once**: its trace is in its own batch, and only once. -/
theorem exportsOnce_iff (batches : List (List TelemetryItem)) :
    ExportsOnce batches ↔ ∀ batch ∈ batches, ∀ o ∈ observationsOf batch,
      (tracesOf batch).countP (fun t => o.traceId = t.id) = 1 := by
  rw [← count_sent_iff batches 0]
  exact ⟨fun h => h.once, fun h => ⟨fun s hs => (mem_sent hs).2.symm, h⟩⟩

/-- A trace in one batch and its observation in the next. -/
def cutBetween : List (List TelemetryItem) :=
  [[.trace { id := "t", name := "graph" }], [.observation { id := "o", traceId := "t", name := "node" }]]

/-- The observation is not sent. -/
theorem cutBetween_not_exportsOnce : ¬ ∀ batches, ExportsOnce batches := by
  intro h
  have honce := (count_sent_iff cutBetween 0).mp (h cutBetween).once
  exact absurd (honce _ (List.mem_cons_of_mem _ List.mem_cons_self) _ List.mem_cons_self) (by decide)

end Telemetry

end Juncture
