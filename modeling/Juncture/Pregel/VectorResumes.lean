import Juncture.Core.Transcript
import Juncture.Pregel.PartialResumes

/-!
# Resuming with a vector of values

`From<Vec<Value>>` makes a resume value of a vector: of two values or more it makes a map whose keys
are the positions in decimal, and calls it a map by namespace.  `match_resume_to_interrupts` looks
such a map up by the namespace of an interrupt, which is what stands before the first colon of its
id.  An id that is generated, a hash in hexadecimal, has no colon.

`fromVec_delivers_iff` says which ids find the value of their position.
-/

namespace Juncture

/-- `From<Vec<Value>>`: nothing is `null`, one value answers every interrupt, more are keyed by
their positions. -/
def ResumeValue.fromVec : List Json → ResumeValue
  | [] => .single .null
  | [v] => .single v
  | first :: second :: rest =>
    let map : Dict Json := (AList.insert "0" first ∅).insert "1" second
    .byNamespace (rest.zipIdx.foldl (fun map (v, i) => map.insert (toString (i + 2)) v) map)

/-! ### The map of positions -/

/-- Positions are told apart by their decimals. -/
theorem toString_injective : Function.Injective (toString : ℕ → String) := by
  intro i j h
  have hdigits : Nat.toDigits 10 i = Nat.toDigits 10 j := by
    rw [← Nat.toList_repr, ← Nat.toList_repr]
    exact congrArg String.toList h
  have hback := congrArg (Nat.ofDigitChars 10 · 0) hdigits
  simpa [Nat.ofDigitChars_toDigits] using hback

/-- The loop of the conversion, which inserts its values from position `p` on. -/
theorem lookup_foldl_insert_positions (rest : List Json) (p : ℕ) (map : Dict Json) (key : String)
    (w : Json) (hfresh : ∀ i, p ≤ i → map.lookup (toString i) = none) :
    (((rest.zipIdx p).foldl (fun map (v, i) => map.insert (toString i) v) map).lookup key) = some w ↔
      map.lookup key = some w ∨ ∃ i, key = toString (p + i) ∧ rest[i]? = some w := by
  induction rest generalizing p map with
  | nil => simp
  | cons v rest ih =>
    have hfresh' : ∀ i, p + 1 ≤ i → (map.insert (toString p) v).lookup (toString i) = none := by
      intro i hi
      have hne : toString i ≠ toString p := fun h => by
        have := toString_injective h
        omega
      rw [AList.lookup_insert_ne hne]
      exact hfresh i (by omega)
    rw [List.zipIdx_cons, List.foldl_cons, ih (p + 1) _ hfresh']
    have hsplit : (∃ i, key = toString (p + i) ∧ (v :: rest)[i]? = some w) ↔
        (key = toString p ∧ v = w) ∨ ∃ i, key = toString (p + 1 + i) ∧ rest[i]? = some w := by
      constructor
      · rintro ⟨_ | i, hkey, hw⟩
        · exact .inl ⟨hkey, Option.some.inj hw⟩
        · exact .inr ⟨i, by rw [hkey]; congr 1; omega, hw⟩
      · rintro (⟨hkey, rfl⟩ | ⟨i, hkey, hw⟩)
        · exact ⟨0, hkey, rfl⟩
        · exact ⟨i + 1, by rw [hkey]; congr 1; omega, hw⟩
    rw [hsplit, ← or_assoc]
    refine or_congr_left ?_
    by_cases hkey : key = toString p
    · subst hkey
      rw [AList.lookup_insert, hfresh p le_rfl]
      simp
    · rw [AList.lookup_insert_ne hkey]
      exact ⟨.inl, fun h => h.resolve_right fun h => hkey h.1⟩

/-- **The map of a vector.**  A key finds the value of the position it is the decimal of. -/
theorem exists_fromVec_map (first second : Json) (rest : List Json) :
    ∃ map : Dict Json, ResumeValue.fromVec (first :: second :: rest) = .byNamespace map ∧
      ∀ key w, map.lookup key = some w ↔
        ∃ j : ℕ, key = toString j ∧ (first :: second :: rest)[j]? = some w := by
  refine ⟨_, rfl, fun key w => ?_⟩
  have hloop := lookup_foldl_insert_positions (first :: second :: rest) 0 ∅ key w fun _ _ => rfl
  have hshift : (rest.zipIdx 2).foldl (fun map (v, i) => map.insert (toString i) v)
      ((AList.insert "0" first (∅ : Dict Json)).insert "1" second) =
        rest.zipIdx.foldl (fun map (v, i) => map.insert (toString (i + 2)) v)
          ((AList.insert "0" first (∅ : Dict Json)).insert "1" second) := by
    rw [List.zipIdx_eq_map_add (i := 2), List.foldl_map]
    simp only [Nat.add_comm 2]
  rw [List.zipIdx_cons, List.zipIdx_cons, List.foldl_cons, List.foldl_cons] at hloop
  rw [← hshift]
  refine hloop.trans ((or_iff_right fun h => nomatch h).trans ?_)
  simp only [Nat.zero_add]

/-! ### Delivery -/

/-- The signal of an `interrupt!()` call that was not answered. -/
def Raised [InterruptHash] (signal : InterruptSignal) : Prop :=
  ∃ index payload id, signal = Superstep.unansweredSignal index payload id

/-- The id starts with the decimal of a position, followed by a colon, where the value is found; or
it does not, but the interrupt counts as answered, with the value `null`. -/
def FindsValue (values : List Json) (scratchpad : Scratchpad) (id : String) (value : Json) : Prop :=
  (∃ j : ℕ, extractNamespace id = some (toString j) ∧ values[j]? = some value) ∨
    ((∀ j : ℕ, extractNamespace id = some (toString j) → values.length ≤ j) ∧
      scratchpad.getNullResume id = true ∧ value = .null)

/-- What an interrupt with an id needs: of one value, that it does not count as answered; of more,
that its id finds the value. -/
def Answerable (values : List Json) (scratchpad : Scratchpad) (id : String) (value : Json) : Prop :=
  if values.length = 1 then scratchpad.getNullResume id = true → value = .null
  else FindsValue values scratchpad id value

/-- The value that is matched to an interrupt. -/
theorem resumeFor_fromVec_iff {values : List Json} (hvalues : 0 < values.length)
    {scratchpad : Scratchpad} {signal : InterruptSignal} {id : String} (hid : signal.id = some id)
    {i : ℕ} {value : Json} (hvalue : values[i]? = some value) :
    resumeFor (.fromVec values) scratchpad signal = some value ↔
      Answerable values scratchpad id value := by
  match values, hvalues, hvalue with
  | [v], _, hvalue =>
    obtain ⟨hi, rfl⟩ : i = 0 ∧ v = value := by
      cases i with
      | zero => exact ⟨rfl, Option.some.inj hvalue⟩
      | succ i => cases hvalue
    have hone : [v].length = 1 := rfl
    rw [Answerable, if_pos hone, ResumeValue.fromVec]
    simp only [resumeFor, hid]
    cases scratchpad.getNullResume id with
    | false => simp
    | true => simp [eq_comm]
  | first :: second :: rest, _, hvalue =>
    obtain ⟨map, hmap, hlookup⟩ := exists_fromVec_map first second rest
    have hlong : ¬ (first :: second :: rest).length = 1 := by simp
    rw [Answerable, if_neg hlong, hmap, FindsValue]
    simp only [resumeFor, hid]
    cases hfound : (extractNamespace id).bind fun ns => map.lookup ns with
    | some w =>
      -- the namespace is the decimal of one position, and no other one
      obtain ⟨ns, hns, hw⟩ := Option.bind_eq_some_iff.1 hfound
      obtain ⟨j, rfl, hj⟩ := (hlookup ns w).1 hw
      constructor
      · rintro h
        exact .inl ⟨j, hns, hj.trans h⟩
      · rintro (⟨k, hk, hvalue'⟩ | ⟨hnone, -⟩)
        · obtain rfl := toString_injective (Option.some.inj (hns.symm.trans hk))
          exact hj.symm.trans hvalue'
        · exact absurd (List.getElem?_eq_some_iff.1 hj).1 (Nat.not_lt.2 (hnone j hns))
    | none =>
      have hnone : ∀ j : ℕ, extractNamespace id = some (toString j) →
          (first :: second :: rest).length ≤ j := by
        intro j hj
        by_contra hlt
        have hmem := (hlookup (toString j) _).2
          ⟨j, rfl, List.getElem?_eq_getElem (Nat.lt_of_not_le hlt)⟩
        rw [hj] at hfound
        exact Option.some_ne_none _ (hmem.symm.trans hfound)
      constructor
      · intro h
        split_ifs at h with hnull
        exact .inr ⟨hnone, hnull, (Option.some.inj h).symm⟩
      · rintro (⟨j, hj, hvalue'⟩ | ⟨-, hnull, rfl⟩)
        · exact absurd (List.getElem?_eq_some_iff.1 hvalue').1 (Nat.not_lt.2 (hnone j hj))
        · rw [if_pos hnull]

/-- An id without a colon, such as a hash in hexadecimal, finds nothing. -/
theorem not_findsValue_of_no_colon {values : List Json} {scratchpad : Scratchpad} {id : String}
    {value : Json} (hcolon : ':' ∉ id.toList) (hvalue : value ≠ .null) :
    ¬ FindsValue values scratchpad id value := by
  have hns : extractNamespace id = none := by simp [extractNamespace, hcolon]
  rintro (⟨j, hj, -⟩ | ⟨-, -, hnull⟩)
  · rw [hns] at hj
    cases hj
  · exact hvalue hnull

/-- **When a vector is delivered in order.**  The values converted from a vector are matched to as
many interrupts one by one exactly when each interrupt is answerable: a single value always is as
long as its interrupt does not count as answered; of two values or more, each interrupt needs an id
that names a position where its value is found. -/
theorem fromVec_delivers_iff [InterruptHash] (values : List Json)
    (pendingInterrupts : List InterruptSignal) (scratchpad : Scratchpad)
    (hvalues : 0 < values.length) (hlen : pendingInterrupts.length = values.length)
    (hraised : ∀ signal ∈ pendingInterrupts, Raised signal) :
    (∀ i value, values[i]? = some value →
      getResumeValue (matchResumeToInterrupts (some (.fromVec values)) pendingInterrupts
        scratchpad) i = some value) ↔
      ∀ (i : ℕ) signal id value, pendingInterrupts[i]? = some signal → signal.id = some id →
        values[i]? = some value → Answerable values scratchpad id value := by
  constructor
  · intro h i signal id value hsignal hid hvalue
    have hi := h i value hvalue
    rw [getResumeValue_matchResume hsignal] at hi
    exact (resumeFor_fromVec_iff hvalues hid hvalue).1 hi
  · intro h i value hvalue
    have hlt : i < pendingInterrupts.length := hlen ▸ (List.getElem?_eq_some_iff.1 hvalue).1
    have hsignal := List.getElem?_eq_getElem hlt
    obtain ⟨index, payload, id, hraise⟩ := hraised _ (List.getElem_mem hlt)
    have hid : (pendingInterrupts[i]).id =
        some (id.getD (generateInterruptId "current_node" index)) := by
      rw [hraise]
      rfl
    rw [getResumeValue_matchResume hsignal]
    exact (resumeFor_fromVec_iff hvalues hid hvalue).2 (h i _ _ value hsignal hid hvalue)

/-- Two named interrupts. -/
def twoNamed : List InterruptSignal :=
  [{ index := 0, id := some "left", payload := .null },
    { index := 1, id := some "right", payload := .null }]

theorem raised_twoNamed : ∀ signal ∈ twoNamed, @Raised sampleHash signal := by
  intro signal h
  simp only [twoNamed, List.mem_cons, List.not_mem_nil, or_false] at h
  obtain rfl | rfl := h
  · exact ⟨0, .null, some "left", rfl⟩
  · exact ⟨1, .null, some "right", rfl⟩

/-- Neither of them gets a value of a vector. -/
theorem twoNamed_not_delivered :
    matchResumeToInterrupts (some (.fromVec [.str "yes", .str "no"])) twoNamed {} = [none, none] ∧
      (∀ signal ∈ twoNamed, @Raised sampleHash signal) ∧
      ¬ ∀ i value, [Json.str "yes", .str "no"][i]? = some value →
        getResumeValue (matchResumeToInterrupts (some (.fromVec [.str "yes", .str "no"])) twoNamed
          {}) i = some value := by
  refine ⟨by decide, raised_twoNamed, fun h => ?_⟩
  have hfirst := h 0 (.str "yes") rfl
  revert hfirst
  decide

/-- Two interrupts whose ids name their positions. -/
def twoNumbered : List InterruptSignal :=
  [{ index := 0, id := some "0:left", payload := .null },
    { index := 1, id := some "1:right", payload := .null }]

theorem raised_twoNumbered : ∀ signal ∈ twoNumbered, @Raised sampleHash signal := by
  intro signal h
  simp only [twoNumbered, List.mem_cons, List.not_mem_nil, or_false] at h
  obtain rfl | rfl := h
  · exact ⟨0, .null, some "0:left", rfl⟩
  · exact ⟨1, .null, some "1:right", rfl⟩

theorem fromVec_delivers_twoNumbered :
    getResumeValue (matchResumeToInterrupts (some (.fromVec [.str "yes", .str "no"])) twoNumbered
      {}) 0 = some (.str "yes") ∧
      getResumeValue (matchResumeToInterrupts (some (.fromVec [.str "yes", .str "no"])) twoNumbered
        {}) 1 = some (.str "no") := by
  have hids : ∀ (i : ℕ) signal id value, twoNumbered[i]? = some signal → signal.id = some id →
      [Json.str "yes", .str "no"][i]? = some value →
      Answerable [.str "yes", .str "no"] {} id value := by
    intro i signal id value hsignal hid hvalue
    obtain rfl | rfl | hi : i = 0 ∨ i = 1 ∨ 2 ≤ i := by omega
    · obtain rfl := Option.some.inj hsignal
      obtain rfl := Option.some.inj hid
      exact .inl ⟨0, by decide, hvalue⟩
    · obtain rfl := Option.some.inj hsignal
      obtain rfl := Option.some.inj hid
      exact .inl ⟨1, by decide, hvalue⟩
    · rw [List.getElem?_eq_none hi] at hvalue
      cases hvalue
  have h := (@fromVec_delivers_iff sampleHash [.str "yes", .str "no"] twoNumbered {} (by decide) rfl
    raised_twoNumbered).2 hids
  exact ⟨h 0 _ rfl, h 1 _ rfl⟩

end Juncture
