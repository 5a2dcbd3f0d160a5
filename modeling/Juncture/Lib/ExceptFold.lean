import Mathlib.Data.List.Forall2
import Mathlib.Data.List.Perm.Basic
import Mathlib.Data.Set.Basic

/-!
# Folds that can fail

Rules for `l.foldlM f b` in `Except`, for a step that collects items into an accumulator and may
refuse an item for a reason that does not depend on the accumulator:

* `foldlM_ok_iff` : the fold succeeds exactly when no item is refused.
* `foldlM_collects` : if every step adds to a view of the accumulator what the item stands for, the
  fold adds what the items stand for together.
* `foldl_collects` : the same for a fold that cannot fail.
* `foldlM_invariant`, `foldl_invariant` : what every step preserves.
* `foldlM_congr` : two folds whose steps agree on the items agree.
* `map_foldlM_congr` : two folds whose steps agree on what they show of the accumulator agree on it
  in the end.
* `mapM_eq_ok_iff`, `mapM_perm` : the same for `l.mapM g`, item by item and in another order.
-/

namespace ExceptFold

variable {α ι : Type*} {β ε : Type} {f : β → α → Except ε β}

theorem bind_eq_ok_iff {γ : Type} {x : Except ε γ} {g : γ → Except ε β} {b : β} :
    x >>= g = .ok b ↔ ∃ a, x = .ok a ∧ g a = .ok b := by
  cases x with
  | error e =>
    constructor
    · intro h; cases h
    · rintro ⟨_, h, _⟩; cases h
  | ok a => exact ⟨fun h => ⟨a, rfl, h⟩, fun ⟨_, rfl, h⟩ => h⟩

theorem map_eq_ok_iff {γ : Type} {x : Except ε γ} {g : γ → β} {b : β} :
    x.map g = .ok b ↔ ∃ a, x = .ok a ∧ g a = b := by
  cases x <;> simp [Except.map]

theorem foldlM_cons_eq_ok_iff {a : α} {l : List α} {b b' : β} :
    (a :: l).foldlM f b = .ok b' ↔ ∃ c, f b a = .ok c ∧ l.foldlM f c = .ok b' := by
  rw [List.foldlM_cons]; exact bind_eq_ok_iff

/-- **The fold succeeds exactly when no item is refused.** -/
theorem foldlM_ok_iff {Good : α → Prop} (hf : ∀ b a, (∃ c, f b a = .ok c) ↔ Good a) :
    ∀ (l : List α) (b : β), (∃ c, l.foldlM f b = .ok c) ↔ ∀ a ∈ l, Good a := by
  intro l
  induction l with
  | nil => intro b; exact ⟨fun _ _ h => by simp at h, fun _ => ⟨b, rfl⟩⟩
  | cons a l ih =>
    intro b
    simp only [foldlM_cons_eq_ok_iff, List.forall_mem_cons]
    constructor
    · rintro ⟨c, d, had, hl⟩
      exact ⟨(hf b a).1 ⟨d, had⟩, (ih d).1 ⟨c, hl⟩⟩
    · rintro ⟨ha, hl⟩
      obtain ⟨d, had⟩ := (hf b a).2 ha
      obtain ⟨c, hc⟩ := (ih d).2 hl
      exact ⟨c, d, had, hc⟩

/-- **What the fold collects.**  `view` shows the accumulator, `R a` is what item `a` stands for. -/
theorem foldlM_collects {view : β → Set ι} {R : α → Set ι}
    (hf : ∀ b a c, f b a = .ok c → ∀ i, i ∈ view c ↔ i ∈ view b ∨ i ∈ R a) :
    ∀ {l : List α} {b c : β}, l.foldlM f b = .ok c →
      ∀ i, i ∈ view c ↔ i ∈ view b ∨ ∃ a ∈ l, i ∈ R a := by
  intro l
  induction l with
  | nil =>
    intro b c h i
    cases h
    simp
  | cons a l ih =>
    intro b c h i
    obtain ⟨d, had, hl⟩ := foldlM_cons_eq_ok_iff.1 h
    rw [ih hl i, hf _ _ _ had i, or_assoc]
    simp

/-- **What a total fold collects.** -/
theorem foldl_collects {β : Type*} {f : β → α → β} (view : β → Set ι) {R : α → Set ι}
    (hf : ∀ b a i, i ∈ view (f b a) ↔ i ∈ view b ∨ i ∈ R a) :
    ∀ (l : List α) (b : β) (i : ι), i ∈ view (l.foldl f b) ↔ i ∈ view b ∨ ∃ a ∈ l, i ∈ R a := by
  intro l
  induction l with
  | nil => intro b i; simp
  | cons a l ih =>
    intro b i
    rw [List.foldl_cons, ih, hf, or_assoc]
    simp

/-- What every step preserves, a fold that succeeds preserves. -/
theorem foldlM_invariant {I : β → Prop} (h : ∀ b a c, f b a = .ok c → I b → I c) :
    ∀ {l : List α} {b c : β}, l.foldlM f b = .ok c → I b → I c := by
  intro l
  induction l with
  | nil =>
    intro b c hc hb
    cases hc
    exact hb
  | cons a l ih =>
    intro b c hc hb
    obtain ⟨d, had, hl⟩ := foldlM_cons_eq_ok_iff.1 hc
    exact ih hl (h b a d had hb)

/-- An invariant that refers to the items which are done. -/
theorem foldlM_done {I : List α → β → Prop} {l : List α}
    (h : ∀ done b c, ∀ a ∈ l, f b a = .ok c → I done b → I (done ++ [a]) c) :
    ∀ {done : List α} {b c : β}, l.foldlM f b = .ok c → I done b → I (done ++ l) c := by
  induction l with
  | nil =>
    intro done b c hc hb
    cases hc
    rwa [List.append_nil]
  | cons a l ih =>
    intro done b c hc hb
    obtain ⟨d, had, hl⟩ := foldlM_cons_eq_ok_iff.1 hc
    have hd := h done b d a List.mem_cons_self had hb
    rw [List.append_cons]
    exact ih (fun done b c a' ha' => h done b c a' (List.mem_cons_of_mem a ha')) hl hd

/-- The same from the start of the list. -/
theorem foldlM_all {I : List α → β → Prop} {l : List α} {b c : β}
    (h : ∀ done b c, ∀ a ∈ l, f b a = .ok c → I done b → I (done ++ [a]) c)
    (hc : l.foldlM f b = .ok c) (hb : I [] b) : I l c := foldlM_done h hc hb

/-- What every step preserves, a total fold preserves. -/
theorem foldl_invariant {β : Type*} {f : β → α → β} {I : β → Prop} {l : List α}
    (h : ∀ b, ∀ a ∈ l, I b → I (f b a)) {b : β} (hb : I b) : I (l.foldl f b) := by
  induction l generalizing b with
  | nil => exact hb
  | cons a l ih =>
    exact ih (fun b' a' ha' => h b' a' (List.mem_cons_of_mem a ha')) (h b a List.mem_cons_self hb)

/-- Two folds whose steps agree on the items. -/
theorem foldlM_congr {g : β → α → Except ε β} :
    ∀ {l : List α} {b : β}, (∀ a ∈ l, ∀ c, f c a = g c a) → l.foldlM f b = l.foldlM g b := by
  intro l
  induction l with
  | nil => intro b _; rfl
  | cons a l ih =>
    intro b h
    rw [List.foldlM_cons, List.foldlM_cons, h a List.mem_cons_self]
    cases g b a with
    | error e => rfl
    | ok c => exact ih fun a' ha' => h a' (List.mem_cons_of_mem _ ha')

/-- **Two folds in step.**  `view` shows what the two accumulators have in common. -/
theorem map_foldlM_congr {g : β → α → Except ε β} {γ : Type} {view : β → γ}
    (hfg : ∀ b c a, view b = view c → (f b a).map view = (g c a).map view) :
    ∀ {l : List α} {b c : β}, view b = view c →
      (l.foldlM f b).map view = (l.foldlM g c).map view := by
  intro l
  induction l with
  | nil =>
    intro b c h
    exact congrArg Except.ok h
  | cons a l ih =>
    intro b c h
    have ha := hfg b c a h
    rw [List.foldlM_cons, List.foldlM_cons]
    rcases hf : f b a with e | b' <;> rcases hg : g c a with e' | c' <;> rw [hf, hg] at ha
    · cases ha
      rfl
    · cases ha
    · cases ha
    · exact ih (Except.ok.inj ha)

/-! ### Maps that can fail -/

section

variable {g : α → Except ε β}

/-- Every result comes from an item. -/
theorem mem_of_mapM_eq_ok {l : List α} {l' : List β} (h : l.mapM g = .ok l') {b : β} (hb : b ∈ l') :
    ∃ a ∈ l, g a = .ok b := by
  induction l generalizing l' with
  | nil =>
    obtain rfl : [] = l' := Except.ok.inj h
    cases hb
  | cons a l ih =>
    rw [List.mapM_cons] at h
    obtain ⟨c, hc, h⟩ := bind_eq_ok_iff.mp h
    obtain ⟨cs, hcs, h⟩ := bind_eq_ok_iff.mp h
    obtain rfl : c :: cs = l' := Except.ok.inj h
    obtain rfl | hb := List.mem_cons.mp hb
    · exact ⟨a, List.mem_cons_self, hc⟩
    · obtain ⟨a', ha', hga'⟩ := ih hcs hb
      exact ⟨a', List.mem_cons_of_mem _ ha', hga'⟩

/-- The map succeeds if no item is refused. -/
theorem mapM_eq_ok_of_forall {l : List α} (h : ∀ a ∈ l, ∃ b, g a = .ok b) :
    ∃ l', l.mapM g = .ok l' := by
  induction l with
  | nil => exact ⟨[], rfl⟩
  | cons a l ih =>
    obtain ⟨b, hb⟩ := h a List.mem_cons_self
    obtain ⟨bs, hbs⟩ := ih fun a ha => h a (List.mem_cons_of_mem _ ha)
    exact ⟨b :: bs, by rw [List.mapM_cons, hb, hbs]; rfl⟩

/-- The results of a list, item by item. -/
theorem mapM_eq_ok_iff {l : List α} {l' : List β} :
    l.mapM g = .ok l' ↔ List.Forall₂ (fun a b => g a = .ok b) l l' := by
  induction l generalizing l' with
  | nil =>
    rw [List.mapM_nil, List.forall₂_nil_left_iff]
    exact ⟨fun h => (Except.ok.inj h).symm, fun h => congrArg Except.ok h.symm⟩
  | cons a l ih =>
    rw [List.mapM_cons, bind_eq_ok_iff, List.forall₂_cons_left_iff]
    constructor
    · rintro ⟨b, hb, h⟩
      obtain ⟨bs, hbs, h⟩ := bind_eq_ok_iff.mp h
      exact ⟨b, bs, hb, ih.mp hbs, (Except.ok.inj h).symm⟩
    · rintro ⟨b, bs, hb, hbs, rfl⟩
      exact ⟨b, hb, by rw [ih.mpr hbs]; rfl⟩

/-- A list in another order has its results in another order. -/
theorem mapM_perm {l l' : List α} (h : l'.Perm l) {bs : List β} (hbs : l.mapM g = .ok bs) :
    ∃ bs', l'.mapM g = .ok bs' ∧ bs'.Perm bs := by
  obtain ⟨bs', hbs', hperm⟩ := List.perm_comp_forall₂ h (mapM_eq_ok_iff.mp hbs)
  exact ⟨bs', mapM_eq_ok_iff.mpr hbs', hperm⟩

/-- The map succeeds exactly if no item is refused. -/
theorem mapM_ok_iff_forall {l : List α} :
    (∃ l', l.mapM g = .ok l') ↔ ∀ a ∈ l, ∃ b, g a = .ok b := by
  refine ⟨?_, mapM_eq_ok_of_forall⟩
  rintro ⟨l', h⟩
  rw [mapM_eq_ok_iff] at h
  induction h with
  | nil => simp
  | cons hab _ ih => exact List.forall_mem_cons.mpr ⟨⟨_, hab⟩, ih⟩

end

end ExceptFold
