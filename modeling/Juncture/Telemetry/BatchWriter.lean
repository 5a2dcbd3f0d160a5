import Juncture.Telemetry.Langfuse
import Mathlib.Logic.Function.Basic

/-!
# The batch writer

Telemetry items are put into a buffer under a lock.  A submit that fills it, the ticks of a background
task and a flush take everything out of the buffer and write it to the store after the lock is released,
one item after the other, so that several batches may be on their way at a time.

* `BatchWriter.step` : what submits, ticks, flushes and writes do, in any order.
* `BatchWriter.Inv` : what holds as long as no write fails and no two batches have an item for the same
  key on the way.
* `BatchWriter.reliable` : what is in the store when a flush returns, and what becomes of failed writes.
-/

namespace Juncture

namespace Telemetry

/-! ### The writer -/

/-- The tables of the store. -/
inductive Kind where
  | session | trace | observation
deriving DecidableEq

/-- The table an item belongs to, and its key there. -/
def TelemetryItem.key : TelemetryItem → Kind × String
  | .session s => (.session, s.id)
  | .trace t => (.trace, t.id)
  | .observation o => (.observation, o.id)

/-- An item and how many were submitted before it. -/
structure Entry where
  /-- Number of the item. -/
  number : ℕ
  /-- The item. -/
  item : TelemetryItem

/-- Who has taken a batch out of the buffer. -/
inductive Caller where
  | submit | background | flush
deriving DecidableEq

/-- A batch on its way to the store, in `flush_batch`. -/
structure Flight where
  /-- Who waits for it. -/
  caller : Caller
  /-- What is still to be written. -/
  remaining : List Entry
  /-- How many items had been submitted when it was taken out of the buffer. -/
  mark : ℕ

/-- `BatchWriterInner` and its store, with the batches on their way and what has become of the items. -/
structure BatchWriter where
  /-- Size of the buffer that makes a submit flush it. -/
  batchSize : ℕ
  /-- Items that wait. -/
  buffer : List Entry := []
  /-- Batches on their way. -/
  flights : ℕ → Option Flight := fun _ => none
  /-- How many batches were taken out of the buffer. -/
  drained : ℕ := 0
  /-- What this writer has written last for each key. -/
  store : Kind × String → Option Entry := fun _ => none
  /-- All items so far, in the order in which they came into the buffer. -/
  submitted : List TelemetryItem := []
  /-- Items whose write has failed. -/
  failed : List Entry := []
  /-- What the calls of `submit` and `flush` have returned. -/
  results : List (Except String Unit) := []

namespace BatchWriter

/-- The order in which a batch is written: sessions, traces, observations. -/
def writeOrder (batch : List Entry) : List Entry :=
  batch.filter (fun e => e.item.key.1 = .session) ++ batch.filter (fun e => e.item.key.1 = .trace) ++
    batch.filter (fun e => e.item.key.1 = .observation)

/-- An item comes into the buffer. -/
def push (s : BatchWriter) (item : TelemetryItem) : BatchWriter :=
  { s with
    buffer := s.buffer ++ [{ number := s.submitted.length, item }]
    submitted := s.submitted ++ [item] }

/-- The buffer is drained. -/
def drain (s : BatchWriter) (caller : Caller) : BatchWriter :=
  { s with
    buffer := []
    flights := Function.update s.flights s.drained
      (some { caller, remaining := writeOrder s.buffer, mark := s.submitted.length })
    drained := s.drained + 1 }

/-- A step of the writer. -/
inductive Act where
  /-- `submit` takes the lock. -/
  | submit (item : TelemetryItem)
  /-- The background task takes the lock. -/
  | tick
  /-- `flush` takes the lock. -/
  | flush
  /-- A batch has its next item written, or fails to. -/
  | write (batch : ℕ) (ok : Bool)
  /-- A batch is done, and who waits for it returns. -/
  | finish (batch : ℕ)

/-- One step.  A flush that finds the buffer empty has nothing to write. -/
def step (s : BatchWriter) : Act → Option BatchWriter
  | .submit item =>
    let s := s.push item
    some (if s.batchSize ≤ s.buffer.length then s.drain .submit
      else { s with results := s.results ++ [.ok ()] })
  | .tick => some (if s.buffer.isEmpty then s else s.drain .background)
  | .flush => some (s.drain .flush)
  | .write batch ok => match s.flights batch with
    | some { caller, remaining := e :: remaining, mark } =>
      let s := { s with
        flights := Function.update s.flights batch (some { caller, remaining, mark }) }
      some (if ok then { s with store := Function.update s.store e.item.key (some e) }
        else { s with failed := s.failed ++ [e] })
    | _ => none
  | .finish batch => match s.flights batch with
    | some { caller, remaining := [], .. } => some
      { s with
        flights := Function.update s.flights batch none
        -- errors are counted and logged by `flush_batch`, and not returned
        results := if caller = .background then s.results else s.results ++ [.ok ()] }
    | _ => none

theorem map_sessionsOf (items : List TelemetryItem) :
    (sessionsOf items).map .session = items.filter fun item => item.key.1 = .session := by
  induction items with
  | nil => rfl
  | cons item items ih => cases item <;> simpa [sessionsOf, TelemetryItem.key] using ih

theorem map_tracesOf (items : List TelemetryItem) :
    (tracesOf items).map .trace = items.filter fun item => item.key.1 = .trace := by
  induction items with
  | nil => rfl
  | cons item items ih => cases item <;> simpa [tracesOf, TelemetryItem.key] using ih

theorem map_observationsOf (items : List TelemetryItem) :
    (observationsOf items).map .observation = items.filter fun item => item.key.1 = .observation := by
  induction items with
  | nil => rfl
  | cons item items ih => cases item <;> simpa [observationsOf, TelemetryItem.key] using ih

/-- What is written of a batch, and in which order, are the parts of `partition_items`. -/
theorem map_item_writeOrder (batch : List Entry) :
    (writeOrder batch).map Entry.item =
      let (sessions, traces, observations) := partitionItems (batch.map Entry.item)
      sessions.map .session ++ traces.map .trace ++ observations.map .observation := by
  have hpart : ∀ kind : Kind, (batch.filter fun e => e.item.key.1 = kind).map Entry.item =
      (batch.map Entry.item).filter fun item => item.key.1 = kind := by
    intro kind
    rw [List.filter_map]
    rfl
  simp only [partitionItems_eq, writeOrder, List.map_append, hpart]
  generalize batch.map Entry.item = items
  rw [map_sessionsOf, map_tracesOf, map_observationsOf]

theorem mem_writeOrder {batch : List Entry} {e : Entry} : e ∈ writeOrder batch ↔ e ∈ batch := by
  cases h : e.item.key.1 <;> simp [writeOrder, h]

/-- Of two items for one key, the one that came first is written first. -/
theorem pairwise_writeOrder {batch : List Entry} (h : batch.Pairwise fun e e' => e.number < e'.number) :
    (writeOrder batch).Pairwise fun e e' => e.item.key = e'.item.key → e.number < e'.number := by
  have hpart : ∀ kind : Kind, (batch.filter fun e => e.item.key.1 = kind).Pairwise fun e e' =>
      e.item.key = e'.item.key → e.number < e'.number := by
    intro kind
    refine (h.filter _).imp ?_
    exact fun hlt _ => hlt
  refine List.pairwise_append.mpr ⟨List.pairwise_append.mpr ⟨hpart _, hpart _, ?_⟩, hpart _, ?_⟩
  · intro e he e' he' hkey
    simp only [List.mem_filter, decide_eq_true_eq] at he he'
    rw [hkey, he'.2] at he
    cases he.2
  · intro e he e' he' hkey
    simp only [List.mem_append, List.mem_filter, decide_eq_true_eq] at he he'
    rw [hkey, he'.2] at he
    obtain ⟨-, he⟩ | ⟨-, he⟩ := he <;> cases he

/-! ### What is promised -/

/-- For every key, the last of the first `mark` items for it is in the store, or a later one. -/
def Persisted (s : BatchWriter) (mark : ℕ) : Prop :=
  ∀ n item, n < mark → s.submitted[n]? = some item →
    ∃ e, s.store item.key = some e ∧ e.item.key = item.key ∧
      s.submitted[e.number]? = some e.item ∧ n ≤ e.number

/-- An item whose write has failed waits for another attempt, or the failure was reported. -/
def Kept (s : BatchWriter) (e : Entry) : Prop :=
  e ∈ s.buffer ∨ (∃ batch f, s.flights batch = some f ∧ e ∈ f.remaining) ∨
    ∃ message, .error message ∈ s.results

/-- What a step from `s` to `t` has to fulfil. -/
structure Reliable (s : BatchWriter) (a : Act) (t : BatchWriter) : Prop where
  /-- When a flush returns, what was submitted before it is in the store. -/
  persisted : ∀ batch f, a = .finish batch → s.flights batch = some f → f.caller = .flush →
    t.Persisted f.mark
  /-- No item is dropped. -/
  kept : ∀ e ∈ t.failed, t.Kept e

/-- What a step takes out of the buffer. -/
def drains (s : BatchWriter) : Act → List Entry
  | .submit item =>
    if (s.push item).batchSize ≤ (s.push item).buffer.length then (s.push item).buffer else []
  | .tick | .flush => s.buffer
  | .write .. | .finish _ => []

/-- A step that goes well. -/
structure Smooth (s : BatchWriter) (a : Act) : Prop where
  /-- No write fails. -/
  succeeds : ∀ batch, a ≠ .write batch false
  /-- What is drained has no key for which another batch has still to write an item. -/
  clear : ∀ e ∈ s.drains a, ∀ batch f, s.flights batch = some f → ∀ e' ∈ f.remaining,
    e'.item.key ≠ e.item.key
  /-- When a flush returns, no other batch has still to write what came before it. -/
  settled : ∀ batch f, a = .finish batch → s.flights batch = some f → f.caller = .flush →
    ∀ batch' f', s.flights batch' = some f' → ∀ e ∈ f'.remaining, f.mark ≤ e.number

/-- The states of the runs all of whose steps are as `P` says. -/
inductive Reached (P : BatchWriter → Act → Prop) (batchSize : ℕ) : BatchWriter → Prop
  | init : Reached P batchSize { batchSize }
  | next {s t : BatchWriter} {a : Act} (hs : Reached P batchSize s) (ha : P s a)
      (ht : s.step a = some t) : Reached P batchSize t

/-! ### Runs that go well -/

/-- Where everything is, as long as all goes well. -/
structure Inv (s : BatchWriter) : Prop where
  /-- Flights are numbered in turn. -/
  flights : ∀ batch f, s.flights batch = some f → batch < s.drained
  /-- Items in the buffer are in order. -/
  buffer : s.buffer.Pairwise fun e e' => e.number < e'.number
  /-- They have the numbers they came with. -/
  waiting : ∀ e ∈ s.buffer, s.submitted[e.number]? = some e.item
  /-- So do those of a batch; they came before its mark, and those in the buffer after it. -/
  flying : ∀ batch f, s.flights batch = some f → f.mark ≤ s.submitted.length ∧
    (∀ e ∈ f.remaining, s.submitted[e.number]? = some e.item ∧ e.number < f.mark) ∧
    ∀ e ∈ s.buffer, f.mark ≤ e.number
  /-- Of one key, earlier items are written first. -/
  order : ∀ batch f, s.flights batch = some f → f.remaining.Pairwise fun e e' =>
    e.item.key = e'.item.key → e.number < e'.number
  /-- Only one batch has items for one key. -/
  single : ∀ batch f batch' f', s.flights batch = some f → s.flights batch' = some f' →
    ∀ e ∈ f.remaining, ∀ e' ∈ f'.remaining, e.item.key = e'.item.key → batch = batch'
  /-- What is in the store came before everything else for its key. -/
  stored : ∀ key e, s.store key = some e → e.item.key = key ∧ s.submitted[e.number]? = some e.item ∧
    (∀ e' ∈ s.buffer, e.number < e'.number) ∧
    ∀ batch f, s.flights batch = some f → ∀ e' ∈ f.remaining, e'.item.key = key → e.number < e'.number
  /-- Every item waits, is on its way, or has come to the store. -/
  accounted : ∀ n item, s.submitted[n]? = some item →
    (∃ e ∈ s.buffer, e.number = n) ∨
    (∃ batch f, s.flights batch = some f ∧ ∃ e ∈ f.remaining, e.number = n) ∨
    ∃ e, s.store item.key = some e ∧ n ≤ e.number
  /-- No write has failed. -/
  failed : s.failed = []

theorem Inv.init (batchSize : ℕ) : Inv { batchSize } where
  flights _ _ h := by cases h
  buffer := .nil
  waiting _ h := by cases h
  flying _ _ h := by cases h
  order _ _ h := by cases h
  single _ _ _ _ h := by cases h
  stored _ _ h := by cases h
  accounted _ _ h := by cases h
  failed := rfl

theorem getElem?_push {items : List TelemetryItem} {n : ℕ} {item new : TelemetryItem}
    (h : items[n]? = some item) : (items ++ [new])[n]? = some item := by
  rw [List.getElem?_append_left (List.getElem?_eq_some_iff.mp h).1]
  exact h

theorem Inv.push {s : BatchWriter} (h : Inv s) (item : TelemetryItem) : Inv (s.push item) where
  flights := h.flights
  buffer := by
    refine List.pairwise_append.mpr ⟨h.buffer, List.pairwise_singleton _ _, fun e he e' he' => ?_⟩
    obtain rfl := List.mem_singleton.mp he'
    exact (List.getElem?_eq_some_iff.mp (h.waiting e he)).1
  waiting e he := by
    obtain he | he := List.mem_append.mp he
    · exact getElem?_push (h.waiting e he)
    · obtain rfl := List.mem_singleton.mp he
      simp [BatchWriter.push]
  flying batch f hf := by
    obtain ⟨hmark, hremaining, hbuffer⟩ := h.flying batch f hf
    refine ⟨?_, fun e he => ⟨getElem?_push (hremaining e he).1, (hremaining e he).2⟩, fun e he => ?_⟩
    · simp only [BatchWriter.push, List.length_append, List.length_singleton]
      omega
    · obtain he | he := List.mem_append.mp he
      · exact hbuffer e he
      · obtain rfl := List.mem_singleton.mp he
        exact hmark
  order := h.order
  single := h.single
  stored key e he := by
    obtain ⟨hkey, hnumber, hbuffer, hflying⟩ := h.stored key e he
    refine ⟨hkey, getElem?_push hnumber, fun e' he' => ?_, hflying⟩
    obtain he' | he' := List.mem_append.mp he'
    · exact hbuffer e' he'
    · obtain rfl := List.mem_singleton.mp he'
      exact (List.getElem?_eq_some_iff.mp hnumber).1
  -- The item is the last one submitted, or was accounted for before.
  accounted n item' hn := by
    by_cases hlt : n < s.submitted.length
    · have hold : s.submitted[n]? = some item' := by
        rwa [BatchWriter.push, List.getElem?_append_left hlt] at hn
      obtain ⟨e, he, hnumber⟩ | hrest := h.accounted n item' hold
      · exact .inl ⟨e, List.mem_append_left _ he, hnumber⟩
      · exact .inr hrest
    · have hlength := (List.getElem?_eq_some_iff.mp hn).1
      simp only [BatchWriter.push, List.length_append, List.length_singleton] at hlength
      refine .inl ⟨_, List.mem_append_right _ (List.mem_singleton_self _), ?_⟩
      show s.submitted.length = n
      omega
  failed := h.failed

theorem update_eq_some_iff {α β : Type} [DecidableEq α] {g : α → Option β} {a b : α} {v : Option β}
    {x : β} : Function.update g a v b = some x ↔ (b = a ∧ v = some x) ∨ (b ≠ a ∧ g b = some x) := by
  by_cases hb : b = a
  · simp [hb]
  · simp [hb]

theorem drain_flights_eq_some_iff {s : BatchWriter} {caller : Caller} {batch : ℕ} {f : Flight} :
    (s.drain caller).flights batch = some f ↔
      (batch = s.drained ∧ f = { caller, remaining := writeOrder s.buffer, mark := s.submitted.length }) ∨
        (batch ≠ s.drained ∧ s.flights batch = some f) := by
  rw [drain, update_eq_some_iff, Option.some_inj, eq_comm (b := f)]

/-- The buffer may be drained if no other batch has still to write for a key in it. -/
theorem Inv.drain {s : BatchWriter} (h : Inv s) (caller : Caller)
    (hclear : ∀ e ∈ s.buffer, ∀ batch f, s.flights batch = some f → ∀ e' ∈ f.remaining,
      e'.item.key ≠ e.item.key) : Inv (s.drain caller) where
  flights batch f hf := by
    show batch < s.drained + 1
    obtain ⟨rfl, -⟩ | ⟨-, hf⟩ := drain_flights_eq_some_iff.mp hf
    · exact Nat.lt_succ_self _
    · exact Nat.lt_succ_of_lt (h.flights batch f hf)
  buffer := .nil
  waiting _ he := by cases he
  flying batch f hf := by
    refine ⟨?_, ?_, fun _ he => by cases he⟩
    · obtain ⟨-, rfl⟩ | ⟨-, hf⟩ := drain_flights_eq_some_iff.mp hf
      · exact le_rfl
      · exact (h.flying batch f hf).1
    · obtain ⟨-, rfl⟩ | ⟨-, hf⟩ := drain_flights_eq_some_iff.mp hf
      · intro e he
        have hwaiting := h.waiting e (mem_writeOrder.mp he)
        exact ⟨hwaiting, (List.getElem?_eq_some_iff.mp hwaiting).1⟩
      · exact (h.flying batch f hf).2.1
  order batch f hf := by
    obtain ⟨-, rfl⟩ | ⟨-, hf⟩ := drain_flights_eq_some_iff.mp hf
    · exact pairwise_writeOrder h.buffer
    · exact h.order batch f hf
  -- The batch that is drained shares no key with one in flight: this is where `hclear` is used.
  single batch f batch' f' hf hf' e he e' he' hkey := by
    obtain ⟨rfl, rfl⟩ | ⟨-, hf⟩ := drain_flights_eq_some_iff.mp hf
    · obtain ⟨rfl, -⟩ | ⟨-, hf'⟩ := drain_flights_eq_some_iff.mp hf'
      · rfl
      · exact absurd hkey.symm (hclear e (mem_writeOrder.mp he) batch' f' hf' e' he')
    · obtain ⟨rfl, rfl⟩ | ⟨-, hf'⟩ := drain_flights_eq_some_iff.mp hf'
      · exact absurd hkey (hclear e' (mem_writeOrder.mp he') batch f hf e he)
      · exact h.single batch f batch' f' hf hf' e he e' he' hkey
  stored key e he := by
    obtain ⟨hkey, hnumber, hbuffer, hflying⟩ := h.stored key e he
    refine ⟨hkey, hnumber, (fun _ he' => by cases he'), fun batch f hf => ?_⟩
    obtain ⟨-, rfl⟩ | ⟨-, hf⟩ := drain_flights_eq_some_iff.mp hf
    · exact fun e' he' _ => hbuffer e' (mem_writeOrder.mp he')
    · exact hflying batch f hf
  accounted n item hn := by
    obtain ⟨e, he, hnumber⟩ | ⟨batch, f, hf, e, he, hnumber⟩ | hstore := h.accounted n item hn
    · exact .inr (.inl ⟨s.drained, _, drain_flights_eq_some_iff.mpr (.inl ⟨rfl, rfl⟩), e,
        mem_writeOrder.mpr he, hnumber⟩)
    · have hne : batch ≠ s.drained := Nat.ne_of_lt (h.flights batch f hf)
      exact .inr (.inl ⟨batch, f, drain_flights_eq_some_iff.mpr (.inr ⟨hne, hf⟩), e, he, hnumber⟩)
    · exact .inr (.inr hstore)
  failed := h.failed

/-- The next item of a batch is written. -/
theorem Inv.write {s : BatchWriter} (h : Inv s) {batch : ℕ} {caller : Caller} {e : Entry}
    {remaining : List Entry} {mark : ℕ}
    (hflight : s.flights batch = some { caller, remaining := e :: remaining, mark }) :
    Inv { s with
      flights := Function.update s.flights batch (some { caller, remaining, mark })
      store := Function.update s.store e.item.key (some e) } := by
  have hflights : ∀ {b f}, Function.update s.flights batch (some { caller, remaining, mark }) b = some f →
      ∃ f', s.flights b = some f' ∧ f'.mark = f.mark ∧ f.remaining.Sublist f'.remaining := by
    intro b f hf
    obtain ⟨rfl, hnew⟩ | ⟨-, hold⟩ := update_eq_some_iff.mp hf
    · obtain rfl := Option.some.inj hnew
      exact ⟨_, hflight, rfl, List.sublist_cons_self _ _⟩
    · exact ⟨f, hold, rfl, List.Sublist.refl _⟩
  obtain ⟨hmark, hremaining, hbuffer⟩ := h.flying _ _ hflight
  obtain ⟨hnumber, hlt⟩ := hremaining e List.mem_cons_self
  have horder := List.pairwise_cons.mp (h.order _ _ hflight)
  refine ⟨fun b f hf => ?_, h.buffer, h.waiting, fun b f hf => ?_, fun b f hf => ?_,
    fun b f b' f' hf hf' e₁ he₁ e₂ he₂ => ?_, fun key e' he' => ?_, fun n item hn => ?_, h.failed⟩
  · obtain ⟨f', hf', -⟩ := hflights hf
    exact h.flights b f' hf'
  · obtain ⟨f', hf', hmark', hsub⟩ := hflights hf
    obtain ⟨hle, hall, hafter⟩ := h.flying b f' hf'
    rw [hmark'] at hle hall hafter
    exact ⟨hle, fun e' he' => hall e' (hsub.subset he'), hafter⟩
  · obtain ⟨f', hf', -, hsub⟩ := hflights hf
    exact (h.order b f' hf').sublist hsub
  · obtain ⟨f₁, hf₁, -, hsub₁⟩ := hflights hf
    obtain ⟨f₂, hf₂, -, hsub₂⟩ := hflights hf'
    exact h.single b f₁ b' f₂ hf₁ hf₂ e₁ (hsub₁.subset he₁) e₂ (hsub₂.subset he₂)
  · obtain ⟨rfl, hnew⟩ | ⟨hkey, hold⟩ := update_eq_some_iff.mp he'
    · -- the item that is now in the store
      obtain rfl := Option.some.inj hnew
      refine ⟨rfl, hnumber, fun e' he' => Nat.lt_of_lt_of_le hlt (hbuffer e' he'), fun b f hf e' he' hkey => ?_⟩
      obtain ⟨rfl, hnew⟩ | ⟨hb, hold⟩ := update_eq_some_iff.mp hf
      · obtain rfl := Option.some.inj hnew
        exact horder.1 e' he' hkey.symm
      · exact absurd (h.single b f batch _ hold hflight e' he' e List.mem_cons_self hkey) hb
    · obtain ⟨hkey', hnumber', hbuffer', hflying⟩ := h.stored key e' hold
      refine ⟨hkey', hnumber', hbuffer', fun b f hf e'' he'' => ?_⟩
      obtain ⟨f', hf', -, hsub⟩ := hflights hf
      exact hflying b f' hf' e'' (hsub.subset he'')
  · obtain hwaiting | ⟨b, f, hf, e', he', rfl⟩ | ⟨e', he', hle⟩ := h.accounted n item hn
    · exact .inl hwaiting
    · by_cases hb : b = batch
      · obtain rfl := hb
        obtain rfl := Option.some.inj (hflight.symm.trans hf)
        obtain rfl | he' := List.mem_cons.mp he'
        · obtain rfl : e'.item = item := Option.some.inj (hnumber.symm.trans hn)
          exact .inr (.inr ⟨e', update_eq_some_iff.mpr (.inl ⟨rfl, rfl⟩), le_rfl⟩)
        · exact .inr (.inl ⟨b, _, update_eq_some_iff.mpr (.inl ⟨rfl, rfl⟩), e', he', rfl⟩)
      · exact .inr (.inl ⟨b, f, update_eq_some_iff.mpr (.inr ⟨hb, hf⟩), e', he', rfl⟩)
    · by_cases hkey : item.key = e.item.key
      · -- what was in the store came before
        have hlt' := (h.stored item.key e' he').2.2.2 batch _ hflight e List.mem_cons_self hkey.symm
        exact .inr (.inr ⟨e, update_eq_some_iff.mpr (.inl ⟨hkey, rfl⟩), by omega⟩)
      · exact .inr (.inr ⟨e', update_eq_some_iff.mpr (.inr ⟨hkey, he'⟩), hle⟩)

/-- A batch is done. -/
theorem Inv.finish {s : BatchWriter} (h : Inv s) {batch : ℕ} {caller : Caller} {mark : ℕ}
    (hflight : s.flights batch = some { caller, remaining := [], mark })
    (results : List (Except String Unit)) :
    Inv { s with flights := Function.update s.flights batch none, results } := by
  have hflights : ∀ {b f}, Function.update s.flights batch none b = some f →
      s.flights b = some f := by
    intro b f hf
    obtain ⟨-, hf⟩ | ⟨-, hf⟩ := update_eq_some_iff.mp hf
    · cases hf
    · exact hf
  refine ⟨fun b f hf => h.flights b f (hflights hf), h.buffer, h.waiting,
    fun b f hf => h.flying b f (hflights hf), fun b f hf => h.order b f (hflights hf),
    fun b f b' f' hf hf' => h.single b f b' f' (hflights hf) (hflights hf'), fun key e he => ?_,
    fun n item hn => ?_, h.failed⟩
  · obtain ⟨hkey, hnumber, hbuffer, hflying⟩ := h.stored key e he
    exact ⟨hkey, hnumber, hbuffer, fun b f hf => hflying b f (hflights hf)⟩
  · obtain hwaiting | ⟨b, f, hf, e, he, hnumber⟩ | hstore := h.accounted n item hn
    · exact .inl hwaiting
    · have hb : b ≠ batch := by
        rintro rfl
        obtain rfl := Option.some.inj (hflight.symm.trans hf)
        cases he
      exact .inr (.inl ⟨b, f, update_eq_some_iff.mpr (.inr ⟨hb, hf⟩), e, he, hnumber⟩)
    · exact .inr (.inr hstore)

theorem Inv.setResults {s : BatchWriter} (h : Inv s) (results : List (Except String Unit)) :
    Inv { s with results } :=
  ⟨h.flights, h.buffer, h.waiting, h.flying, h.order, h.single, h.stored, h.accounted, h.failed⟩

/-- A write is that of the next item of a batch. -/
theorem write_cases {s t : BatchWriter} {batch : ℕ} {ok : Bool} (h : s.step (.write batch ok) = some t) :
    ∃ caller e remaining mark, s.flights batch = some { caller, remaining := e :: remaining, mark } ∧
      t = if ok then
          { s with
            flights := Function.update s.flights batch (some { caller, remaining, mark })
            store := Function.update s.store e.item.key (some e) }
        else
          { s with
            flights := Function.update s.flights batch (some { caller, remaining, mark })
            failed := s.failed ++ [e] } := by
  simp only [step] at h
  split at h
  next caller e remaining mark hflight =>
    exact ⟨caller, e, remaining, mark, hflight, (Option.some.inj h).symm⟩
  next => cases h

/-- A batch that is done has nothing left to write. -/
theorem finish_cases {s t : BatchWriter} {batch : ℕ} (h : s.step (.finish batch) = some t) :
    ∃ caller mark, s.flights batch = some { caller, remaining := [], mark } ∧
      t = { s with
        flights := Function.update s.flights batch none
        results := if caller = .background then s.results else s.results ++ [.ok ()] } := by
  simp only [step] at h
  split at h
  next caller mark hflight => exact ⟨caller, mark, hflight, (Option.some.inj h).symm⟩
  next => cases h

/-- **What a step that goes well preserves.** -/
theorem Inv.step {s t : BatchWriter} {a : Act} (h : Inv s) (ha : s.Smooth a)
    (ht : s.step a = some t) : Inv t := by
  have hclear := ha.clear
  cases a with
  | submit item =>
    obtain rfl := Option.some.inj ht
    by_cases hfull : (s.push item).batchSize ≤ (s.push item).buffer.length
    · simp only [drains, if_pos hfull] at hclear
      rw [if_pos hfull]
      exact (h.push item).drain .submit hclear
    · rw [if_neg hfull]
      exact (h.push item).setResults _
  | tick =>
    obtain rfl := Option.some.inj ht
    by_cases hempty : s.buffer.isEmpty
    · rw [if_pos hempty]
      exact h
    · rw [if_neg hempty]
      exact h.drain .background hclear
  | flush =>
    obtain rfl := Option.some.inj ht
    exact h.drain .flush hclear
  | write batch ok =>
    obtain ⟨caller, e, remaining, mark, hflight, rfl⟩ := write_cases ht
    cases ok with
    | true => exact h.write hflight
    | false => exact absurd rfl (ha.succeeds batch)
  | finish batch =>
    obtain ⟨caller, mark, hflight, rfl⟩ := finish_cases ht
    exact h.finish hflight _

theorem Reached.inv {batchSize : ℕ} {s : BatchWriter} (h : Reached Smooth batchSize s) : Inv s := by
  induction h with
  | init => exact .init batchSize
  | next _ ha ht ih => exact ih.step ha ht

/-- **In a run whose steps all go well, every step is as promised**: no write fails, a batch is drained only
when no other has still to write for a key in it, and a flush returns only when no other batch has still to
write what came before it. -/
theorem reliable {batchSize : ℕ} {s t : BatchWriter} {a : Act} (hs : Reached Smooth batchSize s)
    (ha : s.Smooth a) (ht : s.step a = some t) : Reliable s a t := by
  have h := hs.inv
  refine ⟨?_, fun e he => ?_⟩
  · rintro batch f rfl hflight hcaller n item hn hitem
    obtain ⟨caller, mark, hflight', rfl⟩ := finish_cases ht
    obtain rfl := Option.some.inj (hflight.symm.trans hflight')
    -- what came before the mark does not wait, and is not on its way any more
    obtain ⟨e, he, rfl⟩ | ⟨batch', f', hf', e, he, rfl⟩ | ⟨e, he, hle⟩ := h.accounted n item hitem
    · exact absurd ((h.flying batch _ hflight).2.2 e he) (Nat.not_le.mpr hn)
    · exact absurd (ha.settled batch _ rfl hflight hcaller batch' f' hf' e he) (Nat.not_le.mpr hn)
    · obtain ⟨hkey, hnumber, -⟩ := h.stored _ e he
      exact ⟨e, he, hkey, hnumber, hle⟩
  · rw [(h.step ha ht).failed] at he
    cases he

/-- All goes well as long as no batch has anything to write. -/
theorem smooth_of_alone {s : BatchWriter} {a : Act}
    (h : ∀ batch f, s.flights batch = some f → f.remaining = []) (ha : ∀ batch, a ≠ .write batch false) :
    s.Smooth a where
  succeeds := ha
  clear e _ batch f hf e' he' := by
    rw [h batch f hf] at he'
    cases he'
  settled batch f _ _ _ batch' f' hf' e he := by
    rw [h batch' f' hf'] at he
    cases he

theorem smooth_write (s : BatchWriter) (batch : ℕ) : s.Smooth (.write batch true) where
  succeeds batch' h := by cases h
  clear e he := by cases he
  settled batch' f h := by cases h

/-- A trace. -/
def oneTrace : TelemetryItem := .trace { id := "t", name := "graph" }

/-- It is submitted, flushed and written, and the flush returns. -/
theorem reliable_oneTrace : ∃ s t, s.flights 0 = some { caller := .flush, remaining := [], mark := 1 } ∧
    Reliable s (.finish 0) t := by
  have hinit : Reached Smooth 50 { batchSize := 50 } := .init
  have hsubmit := hinit.next (a := .submit oneTrace)
    (smooth_of_alone (fun batch f h => by cases h) (fun batch h => by cases h)) rfl
  have hflush := hsubmit.next (a := .flush)
    (smooth_of_alone (fun batch f h => by cases h) (fun batch h => by cases h)) rfl
  have hwrite := hflush.next (a := .write 0 true) (smooth_write _ 0) rfl
  refine ⟨_, _, rfl, reliable hwrite (smooth_of_alone ?_ fun batch h => by cases h) rfl⟩
  -- there is no other batch
  intro batch f hf
  obtain ⟨-, hnew⟩ | ⟨hne, hold⟩ := update_eq_some_iff.mp hf
  · obtain rfl := Option.some.inj hnew
    rfl
  · obtain ⟨hzero, -⟩ | ⟨-, hold⟩ := update_eq_some_iff.mp hold
    · exact absurd hzero hne
    · cases hold

/-- A flush returns while the batch of a submit is still on its way. -/
theorem oneTrace_not_reliable : ¬ ∀ (batchSize : ℕ) (s t : BatchWriter) (a : Act),
    Reached (fun _ _ => True) batchSize s → s.step a = some t → Reliable s a t := by
  intro hclaim
  have hinit : Reached (fun _ _ => True) 1 { batchSize := 1 } := .init
  have hsubmit := hinit.next (a := .submit oneTrace) trivial rfl
  have hflush := hsubmit.next (a := .flush) trivial rfl
  have hreliable := hclaim 1 _ _ (.finish 1) hflush rfl
  obtain ⟨e, he, -⟩ := hreliable.persisted 1 _ rfl rfl rfl 0 oneTrace Nat.one_pos rfl
  cases he

end BatchWriter

end Telemetry

end Juncture
