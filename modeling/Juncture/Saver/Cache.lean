import Juncture.Lib.Delimited
import Mathlib.Data.List.AList
import Mathlib.Logic.Function.Basic

/-!
# `MemoryCache`

`MemoryCache` keeps data under pairs of a namespace and a key, as long as there is room and time.  The pair
is written as one text with a colon in it, though neither part is kept from having a colon itself.

* `get`, `set`, `delete`, `clear` : the calls.
* `Watched` : the cache, and what it should be, a map of pairs.
* `pairs_isolated_iff` : in a run in which nothing expires or is evicted, the cache is this map if no call meets an
  entry of another pair under the text of its own.
-/

namespace Juncture

namespace Saver

/-- `CacheEntry`. -/
structure CacheEntry where
  /-- The data. -/
  data : List UInt8
  /-- When it expires, on the clock of the process. -/
  expiresAt : Option ℕ
deriving DecidableEq

/-- `is_expired`, when the clock shows `now`. -/
def CacheEntry.isExpired (now : ℕ) (entry : CacheEntry) : Bool :=
  entry.expiresAt.any fun expiresAt => decide (expiresAt ≤ now)

/-- `LruCache<String, CacheEntry>` of the lru crate: what it keeps is looked at through `iter`. -/
class LruCache (C : Type) where
  /-- `new`. -/
  new : ℕ → C
  /-- `iter`. -/
  iter : C → List (String × CacheEntry)
  /-- `cap`. -/
  cap : C → ℕ
  /-- `put`. -/
  put : C → String → CacheEntry → C
  /-- `get_mut`, with what it finds. -/
  getMut : C → String → Option CacheEntry × C
  /-- `pop`. -/
  pop : C → String → C
  /-- `clear`. -/
  clear : C → C
  /-- A new cache is empty. -/
  iter_new : ∀ n, iter (new n) = []
  /-- What is put takes the place of what was there, and nothing else goes if there is room. -/
  mem_put : ∀ c k e, (∃ e', (k, e') ∈ iter c) ∨ (iter c).length < cap c →
    ∀ x, x ∈ iter (put c k e) ↔ x = (k, e) ∨ x.1 ≠ k ∧ x ∈ iter c
  /-- What is there is found. -/
  getMut_eq_some : ∀ c k e, (getMut c k).1 = some e ↔ (k, e) ∈ iter c
  /-- It stays there. -/
  mem_getMut : ∀ c k x, x ∈ iter (getMut c k).2 ↔ x ∈ iter c
  /-- What is popped is no longer there. -/
  mem_pop : ∀ c k x, x ∈ iter (pop c k) ↔ x.1 ≠ k ∧ x ∈ iter c
  /-- A cache that was cleared is empty. -/
  iter_clear : ∀ c, iter (clear c) = []

/-- `MemoryCache`. -/
structure MemoryCache (C : Type) where
  /-- Entries, under namespace and key. -/
  entries : C
  /-- `default_ttl`. -/
  defaultTtl : Option ℕ := none

namespace MemoryCache

variable {C : Type} [LruCache C]

/-- `new`. -/
def new (capacity : ℕ) : MemoryCache C := { entries := LruCache.new capacity }

/-- `build_key`. -/
def buildKey (ns key : String) : String := ns ++ ":" ++ key

/-- Removes each of these keys. -/
def popAll (entries : C) (keys : List String) : C := keys.foldl LruCache.pop entries

/-- `purge_expired`.  The clock is read for each entry; `now i` is reading `i` of a call. -/
def purgeExpired (now : ℕ → ℕ) (entries : C) : C :=
  popAll entries (((LruCache.iter entries).zipIdx.filter fun x => x.1.2.isExpired (now x.2)).map
    fun x => x.1.1)

/-- `get`. -/
def get (now : ℕ → ℕ) (cache : MemoryCache C) (ns key : String) :
    MemoryCache C × Option (List UInt8) :=
  let entries := purgeExpired now cache.entries
  let cacheKey := buildKey ns key
  match LruCache.getMut entries cacheKey with
  | (none, entries) => ({ cache with entries }, none)
  | (some entry, entries) =>
    if entry.isExpired (now (LruCache.iter cache.entries).length) then
      ({ cache with entries := LruCache.pop entries cacheKey }, none)
    else ({ cache with entries }, some entry.data)

/-- The entry that `set` makes.  `plus` is the addition of a duration to an instant, which may overflow. -/
def entryFor (plus : ℕ → ℕ → Option ℕ) (now : ℕ → ℕ) (defaultTtl : Option ℕ) (value : List UInt8)
    (ttl : Option ℕ) : Option CacheEntry :=
  match ttl.or defaultTtl with
  | none => some { data := value, expiresAt := none }
  | some duration => (plus (now 0) duration).map fun t => { data := value, expiresAt := some t }

/-- `set`, which panics on an overflow. -/
def set (plus : ℕ → ℕ → Option ℕ) (now : ℕ → ℕ) (cache : MemoryCache C) (ns key : String)
    (value : List UInt8) (ttl : Option ℕ) : Option (MemoryCache C) :=
  (entryFor plus now cache.defaultTtl value ttl).map fun entry =>
    { cache with entries := LruCache.put cache.entries (buildKey ns key) entry }

/-- `delete`. -/
def delete (cache : MemoryCache C) (ns key : String) : MemoryCache C :=
  { cache with entries := LruCache.pop cache.entries (buildKey ns key) }

/-- The text starts with the namespace and a colon. -/
def hasPrefix (ns cacheKey : String) : Bool := (ns ++ ":").toList.isPrefixOf cacheKey.toList

/-- `clear`. -/
def clear (cache : MemoryCache C) : Option String → MemoryCache C
  | some ns =>
    let keysToRemove := ((LruCache.iter cache.entries).filter fun x => hasPrefix ns x.1).map Prod.fst
    { cache with entries := popAll cache.entries keysToRemove }
  | none => { cache with entries := LruCache.clear cache.entries }

/-! ### Runs -/

/-- A namespace and a key. -/
abbrev Pair := String × String

/-- The text that a pair is kept under. -/
def slot (p : Pair) : String := buildKey p.1 p.2

/-- The calls of `BaseCache`. -/
inductive Call where
  | get (p : Pair)
  | set (p : Pair) (value : List UInt8) (ttl : Option ℕ)
  | delete (p : Pair)
  | clear (ns : Option String)

/-- A cache, what it should be, and which pair each text was last set for. -/
structure Watched (C : Type) where
  /-- The cache. -/
  cache : MemoryCache C
  /-- The entry of each pair. -/
  ideal : Pair → Option CacheEntry := fun _ => none
  /-- The pair that the entry under a text was set for. -/
  setFor : String → Option Pair := fun _ => none

/-- What the entries of the pairs should be after a call. -/
def idealStep (plus : ℕ → ℕ → Option ℕ) (defaultTtl : Option ℕ) (ideal : Pair → Option CacheEntry)
    (call : Call) (now : ℕ → ℕ) : Pair → Option CacheEntry :=
  match call with
  | .get _ => ideal
  | .set p value ttl =>
    match entryFor plus now defaultTtl value ttl with
    | some entry => Function.update ideal p (some entry)
    | none => ideal
  | .delete p => Function.update ideal p none
  | .clear (some ns) => fun p => if p.1 = ns then none else ideal p
  | .clear none => fun _ => none

namespace Watched

variable (plus : ℕ → ℕ → Option ℕ)

/-- A new cache. -/
def new (capacity : ℕ) (defaultTtl : Option ℕ) : Watched C :=
  { cache := { MemoryCache.new capacity with defaultTtl } }

/-- One call. -/
def step (w : Watched C) (call : Call) (now : ℕ → ℕ) : Watched C :=
  let ideal := idealStep plus w.cache.defaultTtl w.ideal call now
  match call with
  | .get p => { w with ideal, cache := (w.cache.get now p.1 p.2).1 }
  | .set p value ttl =>
    match w.cache.set plus now p.1 p.2 value ttl with
    | some cache => { cache, ideal, setFor := Function.update w.setFor (slot p) (some p) }
    | none => { w with ideal }
  | .delete p => { w with ideal, cache := w.cache.delete p.1 p.2 }
  | .clear ns => { w with ideal, cache := w.cache.clear ns }

/-- Each pair has the entry that was set for it, under its text, and there is nothing else. -/
structure Agrees (w : Watched C) : Prop where
  /-- An entry is there, and is the pair's own. -/
  own : ∀ p entry, w.ideal p = some entry →
    (slot p, entry) ∈ LruCache.iter w.cache.entries ∧ w.setFor (slot p) = some p
  /-- What is there is the entry of a pair. -/
  only : ∀ k entry, (k, entry) ∈ LruCache.iter w.cache.entries →
    ∃ p, slot p = k ∧ w.ideal p = some entry

/-- `get` returns the data of the pair itself. -/
def AnswersOwn (w : Watched C) (now : ℕ → ℕ) : Call → Prop
  | .get p => (w.cache.get now p.1 p.2).2 = (w.ideal p).map CacheEntry.data
  | _ => True

/-- In every state of the run the pairs have their own entries, and every `get` returns its own. -/
def Isolated (w : Watched C) : List (Call × (ℕ → ℕ)) → Prop
  | [] => w.Agrees
  | (call, now) :: calls => w.Agrees ∧ w.AnswersOwn now call ∧ (w.step plus call now).Isolated calls

/-- Nothing has expired that a `get` looks at, and there is room for what is set. -/
def Calm (w : Watched C) (now : ℕ → ℕ) : Call → Prop
  | .get _ => ∀ x ∈ LruCache.iter w.cache.entries, ∀ i, x.2.isExpired (now i) = false
  | .set p _ _ => (∃ entry, (slot p, entry) ∈ LruCache.iter w.cache.entries) ∨
      (LruCache.iter w.cache.entries).length < LruCache.cap w.cache.entries
  | _ => True

/-- The same, for all calls of a run. -/
def CalmRun (w : Watched C) : List (Call × (ℕ → ℕ)) → Prop
  | [] => True
  | (call, now) :: calls => w.Calm now call ∧ (w.step plus call now).CalmRun calls

end Watched

/-- No other pair with an entry has the text of the pair that a call is about, or, if it clears a
namespace, a text that starts with it. -/
def Undisturbed (plus : ℕ → ℕ → Option ℕ) (defaultTtl : Option ℕ) (ideal : Pair → Option CacheEntry)
    (now : ℕ → ℕ) : Call → Prop
  | .get p | .delete p => ∀ p', ideal p' ≠ none → slot p' = slot p → p' = p
  | .set p value ttl => entryFor plus now defaultTtl value ttl = none ∨
      ∀ p', ideal p' ≠ none → slot p' = slot p → p' = p
  | .clear (some ns) => ∀ p', ideal p' ≠ none → hasPrefix ns (slot p') = true → p'.1 = ns
  | .clear none => True

/-- The same, for all calls of a run. -/
def UndisturbedRun (plus : ℕ → ℕ → Option ℕ) (defaultTtl : Option ℕ)
    (ideal : Pair → Option CacheEntry) : List (Call × (ℕ → ℕ)) → Prop
  | [] => True
  | (call, now) :: calls => Undisturbed plus defaultTtl ideal now call ∧
      UndisturbedRun plus defaultTtl (idealStep plus defaultTtl ideal call now) calls

/-! ### One call -/

theorem mem_popAll (entries : C) (keys : List String) (x : String × CacheEntry) :
    x ∈ LruCache.iter (popAll entries keys) ↔ x.1 ∉ keys ∧ x ∈ LruCache.iter entries := by
  induction keys generalizing entries with
  | nil => simp [popAll]
  | cons k keys ih =>
    refine (ih (LruCache.pop entries k)).trans ?_
    rw [LruCache.mem_pop, List.mem_cons, not_or]
    tauto

theorem purgeExpired_of_calm {now : ℕ → ℕ} {entries : C}
    (h : ∀ x ∈ LruCache.iter entries, ∀ i, x.2.isExpired (now i) = false) :
    purgeExpired now entries = entries := by
  have hnone : ((LruCache.iter entries).zipIdx.filter fun x => x.1.2.isExpired (now x.2)) = [] := by
    refine List.filter_eq_nil_iff.mpr fun x hx => ?_
    rw [h x.1 (List.fst_mem_of_mem_zipIdx hx) x.2]
    exact Bool.false_ne_true
  rw [purgeExpired, hnone]
  rfl

/-- What `get` does where nothing has expired. -/
theorem get_of_calm {now : ℕ → ℕ} {cache : MemoryCache C} {p : Pair}
    (h : ∀ x ∈ LruCache.iter cache.entries, ∀ i, x.2.isExpired (now i) = false) :
    cache.get now p.1 p.2 =
      ({ cache with entries := (LruCache.getMut cache.entries (slot p)).2 },
        (LruCache.getMut cache.entries (slot p)).1.map CacheEntry.data) := by
  have hfound := LruCache.getMut_eq_some cache.entries (slot p)
  unfold slot at hfound ⊢
  rcases hget : LruCache.getMut cache.entries (buildKey p.1 p.2) with ⟨found, entries⟩
  rw [hget] at hfound
  simp only [get, purgeExpired_of_calm h, hget]
  cases found with
  | none => rfl
  | some entry =>
    have hlive := h _ ((hfound entry).mp rfl) (LruCache.iter cache.entries).length
    simp only [hlive, Bool.false_eq_true, if_false, Option.map_some]

theorem hasPrefix_slot (p : Pair) : hasPrefix p.1 (slot p) = true := by
  simp [hasPrefix, slot, buildKey]

namespace Watched

variable {plus : ℕ → ℕ → Option ℕ} {w : Watched C} {now : ℕ → ℕ}

/-- Another entry under the text of a pair is that of another pair. -/
theorem Agrees.eq_of_slot (h : w.Agrees) {p p' : Pair} {entry : CacheEntry}
    (hp : w.ideal p = some entry) (hp' : w.ideal p' ≠ none) (hslot : slot p' = slot p) : p' = p := by
  obtain ⟨entry', hentry'⟩ := Option.ne_none_iff_exists'.mp hp'
  have hset := (h.own p' entry' hentry').2
  rw [hslot, (h.own p entry hp).2] at hset
  exact (Option.some.inj hset).symm

theorem Agrees.get_iff (h : w.Agrees) {p : Pair} (hcalm : w.Calm now (.get p)) :
    w.AnswersOwn now (.get p) ∧ (w.step plus (.get p) now).Agrees ↔
      Undisturbed plus w.cache.defaultTtl w.ideal now (.get p) := by
  have hget := get_of_calm (p := p) hcalm
  have hfound := LruCache.getMut_eq_some w.cache.entries (slot p)
  have hagrees : (w.step plus (.get p) now).Agrees := by
    refine ⟨fun p' entry hentry => ?_, fun k entry hmem => ?_⟩
    · obtain ⟨hmem, hset⟩ := h.own p' entry hentry
      refine ⟨?_, hset⟩
      simp only [step, hget]
      exact (LruCache.mem_getMut _ _ _).mpr hmem
    · simp only [step, hget] at hmem
      exact h.only k entry ((LruCache.mem_getMut _ _ _).mp hmem)
  rw [and_iff_left hagrees]
  simp only [AnswersOwn, hget]
  constructor
  · intro hown p' hlive hslot
    obtain ⟨entry', hentry'⟩ := Option.ne_none_iff_exists'.mp hlive
    have hmem := (h.own p' entry' hentry').1
    rw [hslot] at hmem
    rw [(hfound entry').mpr hmem] at hown
    obtain ⟨entry, hentry, -⟩ := Option.map_eq_some_iff.mp hown.symm
    exact h.eq_of_slot hentry hlive hslot
  · intro hclear
    congr 1
    refine Option.ext fun entry => ?_
    rw [hfound entry]
    constructor
    · intro hmem
      obtain ⟨p', hslot, hentry⟩ := h.only _ _ hmem
      obtain rfl := hclear p' (by simp [hentry]) hslot
      exact hentry
    · exact fun hentry => (h.own p entry hentry).1

theorem Agrees.set_iff (h : w.Agrees) {p : Pair} {value : List UInt8} {ttl : Option ℕ}
    (hcalm : w.Calm now (.set p value ttl)) :
    (w.step plus (.set p value ttl) now).Agrees ↔
      Undisturbed plus w.cache.defaultTtl w.ideal now (.set p value ttl) := by
  cases hentry : entryFor plus now w.cache.defaultTtl value ttl with
  | none =>
    have hstep : w.step plus (.set p value ttl) now = w := by
      simp only [step, set, idealStep, hentry, Option.map_none]
    exact iff_of_true (hstep.symm ▸ h) (.inl hentry)
  | some entry =>
    simp only [step, set, idealStep, Undisturbed, hentry, Option.map_some, reduceCtorEq, false_or]
    have hput := LruCache.mem_put w.cache.entries (slot p) entry hcalm
    constructor
    · intro hagrees p' hlive hslot
      by_contra hne
      obtain ⟨entry', hentry'⟩ := Option.ne_none_iff_exists'.mp hlive
      have hset := (hagrees.own p' entry' (by simpa [hne] using hentry')).2
      simp only [hslot, Function.update_self, Option.some.injEq] at hset
      exact hne hset.symm
    · intro hclear
      refine ⟨fun p' entry' hentry' => ?_, fun k entry' hmem => ?_⟩
      · by_cases hp' : p' = p
        · subst hp'
          obtain rfl : entry = entry' := by simpa using hentry'
          exact ⟨(hput _).mpr (.inl rfl), by simp⟩
        · have hold : w.ideal p' = some entry' := by simpa [hp'] using hentry'
          have hslot : slot p' ≠ slot p := fun heq => hp' (hclear p' (by simp [hold]) heq)
          obtain ⟨hmem, hset⟩ := h.own p' entry' hold
          exact ⟨(hput _).mpr (.inr ⟨hslot, hmem⟩), by simpa [hslot] using hset⟩
      · obtain heq | ⟨hk, hmem⟩ := (hput _).mp hmem
        · obtain ⟨rfl, rfl⟩ := Prod.mk.inj heq
          exact ⟨p, rfl, by simp⟩
        · obtain ⟨p', rfl, hentry'⟩ := h.only k entry' hmem
          have hp' : p' ≠ p := fun heq => hk (by rw [heq])
          exact ⟨p', rfl, by simpa [hp'] using hentry'⟩

/-- A removal goes well if all entries under the removed texts are those of the removed pairs. -/
theorem Agrees.remove_iff (h : w.Agrees) {w' : Watched C} (gone : String → Prop) (out : Pair → Prop)
    (hcache : ∀ x, x ∈ LruCache.iter w'.cache.entries ↔
      ¬ gone x.1 ∧ x ∈ LruCache.iter w.cache.entries)
    (hideal : ∀ p entry, w'.ideal p = some entry ↔ ¬ out p ∧ w.ideal p = some entry)
    (hsetFor : w'.setFor = w.setFor) (hout : ∀ p, out p → gone (slot p)) :
    w'.Agrees ↔ ∀ p, w.ideal p ≠ none → gone (slot p) → out p := by
  constructor
  · intro hagrees p hlive hgone
    by_contra hkeep
    obtain ⟨entry, hentry⟩ := Option.ne_none_iff_exists'.mp hlive
    have hmem := (hagrees.own p entry ((hideal p entry).mpr ⟨hkeep, hentry⟩)).1
    exact ((hcache _).mp hmem).1 hgone
  · intro hclear
    refine ⟨fun p entry hentry => ?_, fun k entry hmem => ?_⟩
    · obtain ⟨hkeep, hold⟩ := (hideal p entry).mp hentry
      obtain ⟨hmem, hset⟩ := h.own p entry hold
      refine ⟨(hcache _).mpr ⟨fun hgone => hkeep (hclear p (by simp [hold]) hgone), hmem⟩, ?_⟩
      rw [hsetFor]
      exact hset
    · obtain ⟨hk, hmem⟩ := (hcache _).mp hmem
      obtain ⟨p, rfl, hentry⟩ := h.only k entry hmem
      exact ⟨p, rfl, (hideal p entry).mpr ⟨fun hp => hk (hout p hp), hentry⟩⟩

theorem Agrees.delete_iff (h : w.Agrees) {p : Pair} :
    (w.step plus (.delete p) now).Agrees ↔
      Undisturbed plus w.cache.defaultTtl w.ideal now (.delete p) := by
  have hideal : ∀ p' entry, (w.step plus (.delete p) now).ideal p' = some entry ↔
      ¬ p' = p ∧ w.ideal p' = some entry := by
    intro p' entry
    by_cases hp' : p' = p <;> simp [step, idealStep, hp']
  exact h.remove_iff (· = slot p) (· = p) (LruCache.mem_pop w.cache.entries (slot p)) hideal rfl
    fun p' hp' => congrArg slot hp'

theorem Agrees.clear_iff (h : w.Agrees) {ns : Option String} :
    (w.step plus (.clear ns) now).Agrees ↔
      Undisturbed plus w.cache.defaultTtl w.ideal now (.clear ns) := by
  cases ns with
  | none =>
    refine iff_of_true ⟨fun p entry hentry => ?_, fun k entry hmem => ?_⟩ trivial
    · simp [step, idealStep] at hentry
    · simp [step, clear, LruCache.iter_clear] at hmem
  | some ns =>
    -- what is left is what does not start with the namespace
    have hleft : ∀ x, x ∈ LruCache.iter (w.cache.clear (some ns)).entries ↔
        ¬ hasPrefix ns x.1 = true ∧ x ∈ LruCache.iter w.cache.entries := by
      intro x
      refine (mem_popAll _ _ _).trans (and_congr_left fun hmem => ?_)
      cases hk : hasPrefix ns x.1 with
      | false => simp [hk]
      | true => simpa [hk] using ⟨x.2, hmem⟩
    have hideal : ∀ p entry, (w.step plus (.clear (some ns)) now).ideal p = some entry ↔
        ¬ p.1 = ns ∧ w.ideal p = some entry := by
      intro p entry
      by_cases hp : p.1 = ns <;> simp [step, idealStep, hp]
    exact h.remove_iff (hasPrefix ns · = true) (·.1 = ns) hleft hideal rfl
      fun p hp => hp ▸ hasPrefix_slot p

/-- **One call.**  The pairs keep their own entries, and a `get` returns its own, if the call meets no entry
of another pair. -/
theorem Agrees.step_iff (h : w.Agrees) {call : Call} (hcalm : w.Calm now call) :
    w.AnswersOwn now call ∧ (w.step plus call now).Agrees ↔
      Undisturbed plus w.cache.defaultTtl w.ideal now call := by
  cases call with
  | get p => exact h.get_iff hcalm
  | set p value ttl => exact (and_iff_right trivial).trans (h.set_iff hcalm)
  | delete p => exact (and_iff_right trivial).trans h.delete_iff
  | clear ns => exact (and_iff_right trivial).trans h.clear_iff

theorem step_ideal (call : Call) :
    (w.step plus call now).ideal = idealStep plus w.cache.defaultTtl w.ideal call now ∧
      (w.step plus call now).cache.defaultTtl = w.cache.defaultTtl := by
  cases call with
  | get p =>
    refine ⟨rfl, ?_⟩
    simp only [step, get]
    split
    · rfl
    · split <;> rfl
  | set p value ttl =>
    simp only [step, set]
    cases entryFor plus now w.cache.defaultTtl value ttl <;> exact ⟨rfl, rfl⟩
  | delete p => exact ⟨rfl, rfl⟩
  | clear ns => cases ns <;> exact ⟨rfl, rfl⟩

theorem Agrees.run_iff (h : w.Agrees) {calls : List (Call × (ℕ → ℕ))}
    (hcalm : w.CalmRun plus calls) :
    w.Isolated plus calls ↔ UndisturbedRun plus w.cache.defaultTtl w.ideal calls := by
  induction calls generalizing w with
  | nil => exact iff_of_true h trivial
  | cons step calls ih =>
    obtain ⟨call, now⟩ := step
    obtain ⟨hcalm, hrest⟩ := hcalm
    have hstep : w.AnswersOwn now call ∧ (w.step plus call now).Agrees ↔
        Undisturbed plus w.cache.defaultTtl w.ideal now call := h.step_iff hcalm
    obtain ⟨hideal, httl⟩ : (w.step plus call now).ideal = _ ∧ (w.step plus call now).cache.defaultTtl = _ :=
      w.step_ideal call
    unfold Isolated UndisturbedRun
    constructor
    · rintro ⟨-, hown, hrun⟩
      have hnext : (w.step plus call now).Agrees := by
        cases calls with
        | nil => exact hrun
        | cons _ _ => exact hrun.1
      refine ⟨hstep.mp ⟨hown, hnext⟩, ?_⟩
      rw [← hideal, ← httl]
      exact (ih hnext hrest).mp hrun
    · rintro ⟨hclear, hrun⟩
      obtain ⟨hown, hnext⟩ := hstep.mpr hclear
      rw [← hideal, ← httl] at hrun
      exact ⟨h, hown, (ih hnext hrest).mpr hrun⟩

theorem agrees_new (capacity : ℕ) (defaultTtl : Option ℕ) :
    (new capacity defaultTtl : Watched C).Agrees where
  own p entry h := by cases h
  only k entry h := by simp [new, MemoryCache.new, LruCache.iter_new] at h

end Watched

/-- **A cache of pairs.**  As long as nothing expires or is evicted, every pair keeps its own entry, and
every call stays with its own, if no call meets an entry of another pair under its text. -/
theorem pairs_isolated_iff (plus : ℕ → ℕ → Option ℕ) (capacity : ℕ) (defaultTtl : Option ℕ)
    (calls : List (Call × (ℕ → ℕ)))
    (h : (Watched.new capacity defaultTtl : Watched C).CalmRun plus calls) :
    (Watched.new capacity defaultTtl : Watched C).Isolated plus calls ↔
      UndisturbedRun plus defaultTtl (fun _ => none) calls :=
  (Watched.agrees_new capacity defaultTtl).run_iff h

/-! ### Namespaces without a colon -/

/-- The namespace of a call, if it has one, has no colon. -/
def Call.ColonFree : Call → Prop
  | .get p | .set p _ _ | .delete p => ':' ∉ p.1.toList
  | .clear ns => ∀ s ∈ ns, ':' ∉ s.toList

theorem slot_toList (p : Pair) : (slot p).toList = p.1.toList ++ ':' :: p.2.toList := by
  simp [slot, buildKey]

theorem slot_inj {p p' : Pair} (hp : ':' ∉ p.1.toList) (hp' : ':' ∉ p'.1.toList)
    (h : slot p' = slot p) : p' = p := by
  have hlist := congrArg String.toList h
  rw [slot_toList, slot_toList, Delimited.append_cons_inj hp' hp] at hlist
  exact Prod.ext (String.toList_inj.mp hlist.1) (String.toList_inj.mp hlist.2)

theorem eq_of_hasPrefix {ns : String} {p : Pair} (hns : ':' ∉ ns.toList) (hp : ':' ∉ p.1.toList)
    (h : hasPrefix ns (slot p) = true) : p.1 = ns := by
  obtain ⟨rest, hrest⟩ := List.isPrefixOf_iff_prefix.mp h
  have hlist : ns.toList ++ ':' :: rest = p.1.toList ++ ':' :: p.2.toList := by
    rw [← slot_toList, ← hrest]
    simp
  exact String.toList_inj.mp ((Delimited.append_cons_inj hns hp).mp hlist).1.symm

/-- Calls whose namespaces have no colon do not disturb each other, whatever the keys are. -/
theorem undisturbedRun_of_colonFree {plus : ℕ → ℕ → Option ℕ} {defaultTtl : Option ℕ}
    {ideal : Pair → Option CacheEntry} {calls : List (Call × (ℕ → ℕ))}
    (hideal : ∀ p, ideal p ≠ none → ':' ∉ p.1.toList) (hcalls : ∀ c ∈ calls, c.1.ColonFree) :
    UndisturbedRun plus defaultTtl ideal calls := by
  induction calls generalizing ideal with
  | nil => trivial
  | cons c calls ih =>
    obtain ⟨call, now⟩ := c
    obtain ⟨hcall, hcalls⟩ := List.forall_mem_cons.mp hcalls
    refine ⟨?_, ih (fun p hp => ?_) hcalls⟩
    · cases call with
      | get p | delete p => exact fun p' hlive => slot_inj hcall (hideal p' hlive)
      | set p value ttl => exact .inr fun p' hlive => slot_inj hcall (hideal p' hlive)
      | clear ns =>
        cases ns with
        | none => trivial
        | some ns => exact fun p' hlive => eq_of_hasPrefix (hcall ns rfl) (hideal p' hlive)
    · -- only a `set` makes a pair live, and its namespace has no colon
      cases call with
      | get p' => exact hideal p hp
      | set p' value ttl =>
        cases hentry : entryFor plus now defaultTtl value ttl with
        | none => exact hideal p (by simpa [idealStep, hentry] using hp)
        | some entry =>
          by_cases heq : p = p'
          · exact heq ▸ hcall
          · exact hideal p (by simpa [idealStep, hentry, heq] using hp)
      | delete p' =>
        by_cases heq : p = p'
        · simp [idealStep, heq] at hp
        · exact hideal p (by simpa [idealStep, heq] using hp)
      | clear ns =>
        cases ns with
        | none => simp [idealStep] at hp
        | some ns =>
          by_cases heq : p.1 = ns
          · simp [idealStep, heq] at hp
          · exact hideal p (by simpa [idealStep, heq] using hp)

/-! ### An example -/

/-- The entries of an `LruCache`, most recently used first. -/
structure Recent where
  /-- `cap`. -/
  cap : ℕ
  /-- The entries. -/
  items : AList fun _ : String => CacheEntry

/-- The entries without the least recently used. -/
def Recent.evict (items : AList fun _ : String => CacheEntry) : AList fun _ : String => CacheEntry :=
  ⟨items.entries.dropLast, items.nodupKeys.sublist (List.dropLast_sublist _)⟩

theorem Recent.mem_items {items : AList fun _ : String => CacheEntry} {x : String × CacheEntry} :
    x ∈ (items.entries.map fun e => (e.1, e.2)) ↔ items.lookup x.1 = some x.2 := by
  rw [← Option.mem_def, AList.mem_lookup_iff, List.mem_map]
  exact ⟨fun ⟨e, he, hx⟩ => hx ▸ he, fun h => ⟨⟨x.1, x.2⟩, h, rfl⟩⟩

instance : LruCache Recent where
  new cap := { cap, items := ∅ }
  iter c := c.items.entries.map fun e => (e.1, e.2)
  cap c := c.cap
  put c k e :=
    if k ∈ c.items ∨ c.items.entries.length < c.cap then { c with items := c.items.insert k e }
    else { c with items := (Recent.evict c.items).insert k e }
  getMut c k := (c.items.lookup k, match c.items.lookup k with
    | some e => { c with items := c.items.insert k e }
    | none => c)
  pop c k := { c with items := c.items.erase k }
  clear c := { c with items := ∅ }
  iter_new _ := rfl
  mem_put c k e h x := by
    have hroom : k ∈ c.items ∨ c.items.entries.length < c.cap := by
      refine h.imp (fun ⟨e', he'⟩ => ?_) fun hlt => by simpa using hlt
      exact AList.lookup_isSome.mp (by rw [Recent.mem_items.mp he']; rfl)
    rw [if_pos hroom, Recent.mem_items, Recent.mem_items]
    obtain ⟨k', e'⟩ := x
    by_cases hk : k' = k
    · subst hk
      simp [AList.lookup_insert, eq_comm]
    · simp [AList.lookup_insert_ne hk, hk]
  getMut_eq_some c k e := (Recent.mem_items (x := (k, e))).symm
  mem_getMut c k x := by
    cases hfound : c.items.lookup k with
    | none => rfl
    | some e =>
      refine Recent.mem_items.trans (Iff.trans ?_ Recent.mem_items.symm)
      by_cases hk : x.1 = k
      · rw [hk, AList.lookup_insert, hfound]
      · rw [AList.lookup_insert_ne hk]
  mem_pop c k x := by
    rw [Recent.mem_items, Recent.mem_items]
    obtain ⟨k', e'⟩ := x
    by_cases hk : k' = k
    · subst hk
      simp
    · simp [hk, AList.lookup_erase_ne hk]
  iter_clear _ := rfl

/-- A clock that stands still. -/
def still : ℕ → ℕ := fun _ => 0

/-- Two namespaces, one key. -/
theorem twoNamespaces_isolated :
    (Watched.new 2 none : Watched Recent).Isolated (fun t d => some (t + d))
      [(.set ("a", "k") [1] none, still), (.set ("b", "k") [2] none, still), (.get ("a", "k"), still)] := by
  refine (pairs_isolated_iff _ _ _ _ ?_).mpr (undisturbedRun_of_colonFree (fun p hp => absurd rfl hp) ?_)
  · refine ⟨.inr (by decide), .inr (by decide), fun x hx i => ?_, trivial⟩
    have hnever : x.2.expiresAt = none := by
      revert x
      decide
    rw [CacheEntry.isExpired, hnever, Option.any_none]
  · simp only [List.forall_mem_cons, Call.ColonFree]
    exact ⟨by decide, by decide, by decide, by simp⟩

/-- Two pairs, one text: the second returns what was set for the first. -/
theorem colons_not_isolated :
    ¬ (Watched.new 2 none : Watched Recent).Isolated (fun t d => some (t + d))
        [(.set ("a:b", "c") [1] none, still), (.get ("a", "b:c"), still)] := by
  rintro ⟨-, -, -, hown, -⟩
  revert hown
  simp only [Watched.AnswersOwn]
  decide

end MemoryCache

end Saver

end Juncture
