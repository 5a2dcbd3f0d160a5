import Juncture.Core.Json

/-!
# Schema migrations

A state with `#[state_version(V)]` reads what an older version has stored through the functions of
its attributes `#[migrate_from(k, f)]`.  The derive macro makes of them one recursive function: an
arm for `k` applies `f` and goes on with `k + 1`, and a version without an arm returns the value as
it is.  Some changes of a struct need no function, so a chain may have gaps, and there it ends.

* `applied` : the functions that are called, in order (`migrate_eq_foldl_applied`).
* `migratesDue_iff` : all that are due are called exactly when there is no gap before one of them
  and no version has two.

Versions are `u32`; the successor of an arm's version overflows only where no version is above it.
-/

namespace Juncture

/-- `#[migrate_from(from_ver, func_path)]`. -/
structure Migration where
  /-- The version it starts from. -/
  fromVer : ℕ
  /-- The function. -/
  func : Json → Json

namespace Migration

variable (schemaVersion : ℕ) (migrations : List Migration)

/-- The arm of the generated `match` for a version: the first one. -/
def arm (fromVersion : ℕ) : Option Migration := migrations.find? fun m => m.fromVer == fromVersion

/-- The generated `migrate`. -/
def migrate (fromVersion : ℕ) (value : Json) : Json :=
  if schemaVersion ≤ fromVersion then value
  else match arm migrations fromVersion with
    | some m => migrate (fromVersion + 1) (m.func value)
    | none => value
termination_by schemaVersion - fromVersion

/-- The functions that `migrate` calls. -/
def applied (fromVersion : ℕ) : List Migration :=
  if schemaVersion ≤ fromVersion then []
  else match arm migrations fromVersion with
    | some m => m :: applied (fromVersion + 1)
    | none => []
termination_by schemaVersion - fromVersion

/-- The functions that are due: those of the versions from the stored one on. -/
def due (fromVersion : ℕ) : List Migration :=
  migrations.filter fun m => decide (fromVersion ≤ m.fromVer ∧ m.fromVer < schemaVersion)

/-- Every function that is due is called once, in the order of the versions. -/
def MigratesDue (fromVersion : ℕ) : Prop :=
  (applied schemaVersion migrations fromVersion).Perm (due schemaVersion migrations fromVersion) ∧
    (applied schemaVersion migrations fromVersion).Pairwise fun m m' => m.fromVer ≤ m'.fromVer

/-- No version before a function that is due lacks one, and none that is due has two. -/
def Unbroken (fromVersion : ℕ) : Prop :=
  (∀ m ∈ due schemaVersion migrations fromVersion, ∀ k, fromVersion ≤ k → k < m.fromVer →
    ∃ m' ∈ migrations, m'.fromVer = k) ∧
      ((due schemaVersion migrations fromVersion).map Migration.fromVer).Nodup

variable {schemaVersion migrations} {fromVersion : ℕ}

/-- **What `migrate` computes**: the functions it calls, one after the other. -/
theorem migrate_eq_foldl_applied (fromVersion : ℕ) (value : Json) :
    migrate schemaVersion migrations fromVersion value =
      (applied schemaVersion migrations fromVersion).foldl (fun value m => m.func value) value := by
  induction fromVersion, value using migrate.induct schemaVersion migrations with
  | case1 fromVersion value h => rw [migrate, applied, if_pos h, if_pos h]; rfl
  | case2 fromVersion value h m harm ih =>
    rw [migrate, applied, if_neg h, if_neg h, harm]
    exact ih
  | case3 fromVersion value h harm =>
    rw [migrate, applied, if_neg h, if_neg h, harm]
    rfl

theorem arm_eq_some {m : Migration} (h : arm migrations fromVersion = some m) :
    m ∈ migrations ∧ m.fromVer = fromVersion :=
  ⟨List.mem_of_find?_eq_some h, by simpa using List.find?_some h⟩

theorem exists_arm {m : Migration} (h : m ∈ migrations) : ∃ m', arm migrations m.fromVer = some m' :=
  Option.isSome_iff_exists.1 (List.find?_isSome.2 ⟨m, h, by simp⟩)

theorem mem_due {m : Migration} : m ∈ due schemaVersion migrations fromVersion ↔
    m ∈ migrations ∧ fromVersion ≤ m.fromVer ∧ m.fromVer < schemaVersion := by
  rw [due, List.mem_filter, decide_eq_true_eq]

/-- What is called is due, and every version before it has a function. -/
theorem mem_applied {m : Migration} (h : m ∈ applied schemaVersion migrations fromVersion) :
    m ∈ due schemaVersion migrations fromVersion ∧ ∀ k, fromVersion ≤ k → k < m.fromVer →
      ∃ m' ∈ migrations, m'.fromVer = k := by
  induction fromVersion using applied.induct schemaVersion migrations with
  | case1 fromVersion hle => rw [applied, if_pos hle] at h; cases h
  | case2 fromVersion hle m₀ harm ih =>
    rw [applied, if_neg hle, harm] at h
    obtain ⟨hm₀, hver⟩ := arm_eq_some harm
    obtain rfl | h := List.mem_cons.1 h
    · refine ⟨mem_due.2 ⟨hm₀, by omega, by omega⟩, fun k hk hlt => ?_⟩
      omega
    · obtain ⟨hdue, hbefore⟩ := ih h
      obtain ⟨hm, hge, hlt⟩ := mem_due.1 hdue
      refine ⟨mem_due.2 ⟨hm, by omega, hlt⟩, fun k hk hlt => ?_⟩
      obtain rfl | hk := Nat.eq_or_lt_of_le hk
      · exact ⟨m₀, hm₀, hver⟩
      · exact hbefore k hk hlt
  | case3 fromVersion hle harm => rw [applied, if_neg hle, harm] at h; cases h

/-- The versions of what is called increase. -/
theorem pairwise_applied :
    (applied schemaVersion migrations fromVersion).Pairwise fun m m' => m.fromVer < m'.fromVer := by
  induction fromVersion using applied.induct schemaVersion migrations with
  | case1 fromVersion hle => rw [applied, if_pos hle]; exact .nil
  | case2 fromVersion hle m₀ harm ih =>
    rw [applied, if_neg hle, harm]
    refine List.pairwise_cons.2 ⟨fun m hm => ?_, ih⟩
    have hge := (mem_due.1 (mem_applied hm).1).2.1
    have hver := (arm_eq_some harm).2
    omega
  | case3 fromVersion hle harm => rw [applied, if_neg hle, harm]; exact .nil

/-- A version is reached when each before it has a function. -/
theorem exists_applied {version : ℕ} (hge : fromVersion ≤ version) (hlt : version < schemaVersion)
    (h : ∀ k, fromVersion ≤ k → k ≤ version → ∃ m ∈ migrations, m.fromVer = k) :
    ∃ m ∈ applied schemaVersion migrations fromVersion, m.fromVer = version := by
  induction fromVersion using applied.induct schemaVersion migrations with
  | case1 fromVersion hle => omega
  | case2 fromVersion hle m₀ harm ih =>
    rw [applied, if_neg hle, harm]
    obtain rfl | hgt := Nat.eq_or_lt_of_le hge
    · exact ⟨m₀, List.mem_cons_self, (arm_eq_some harm).2⟩
    · obtain ⟨m, hm, hver⟩ := ih hgt fun k hk => h k (by omega)
      exact ⟨m, List.mem_cons_of_mem _ hm, hver⟩
  | case3 fromVersion hle harm =>
    obtain ⟨m, hm, rfl⟩ := h fromVersion le_rfl hge
    obtain ⟨m', harm'⟩ := exists_arm hm
    rw [harm] at harm'
    cases harm'

/-- **Which chains are complete.**  `migrate` applies the functions it calls one after the other, and
these are all the registered functions that are due, each once and in the order of their versions,
exactly when no version before one of them lacks a function, and none of them shares its version
with another one. -/
theorem migratesDue_iff (schemaVersion : ℕ) (migrations : List Migration) (fromVersion : ℕ) :
    (∀ value, migrate schemaVersion migrations fromVersion value =
        (applied schemaVersion migrations fromVersion).foldl (fun value m => m.func value) value) ∧
      (MigratesDue schemaVersion migrations fromVersion ↔
        Unbroken schemaVersion migrations fromVersion) := by
  refine ⟨migrate_eq_foldl_applied fromVersion, ?_⟩
  have hincreasing : (applied schemaVersion migrations fromVersion).Pairwise
      fun m m' => m.fromVer < m'.fromVer := pairwise_applied
  have hversions :
      ((applied schemaVersion migrations fromVersion).map Migration.fromVer).Nodup :=
    (List.pairwise_map.2 hincreasing).imp Nat.ne_of_lt
  constructor
  · rintro ⟨hperm, -⟩
    refine ⟨fun m hm => (mem_applied (hperm.mem_iff.2 hm)).2, ?_⟩
    exact (hperm.map Migration.fromVer).nodup_iff.1 hversions
  · rintro ⟨hbefore, hnodup⟩
    refine ⟨?_, hincreasing.imp Nat.le_of_lt⟩
    refine (List.perm_ext_iff_of_nodup hversions.of_map hnodup.of_map).2 fun m => ?_
    constructor
    · exact fun hm => (mem_applied hm).1
    · intro hm
      obtain ⟨hmem, hge, hlt⟩ := mem_due.1 hm
      have hall : ∀ k, fromVersion ≤ k → k ≤ m.fromVer → ∃ m' ∈ migrations, m'.fromVer = k := by
        intro k hk hle
        obtain rfl | hlt := Nat.eq_or_lt_of_le hle
        · exact ⟨m, hmem, rfl⟩
        · exact hbefore m hm k hk hlt
      obtain ⟨m', hm', hver⟩ := exists_applied hge hlt hall
      -- no other function that is due has the version of `m`
      have heq : m' = m := List.inj_on_of_nodup_map hnodup (mem_applied hm').1 hm hver
      exact heq ▸ hm'

/-- A state of version `4`: version `2` gained a summary, version `3` an optional field, which needs
no function, and version `4` metadata. -/
def summaryThenMetadata : List Migration :=
  [⟨1, fun v => .arr [v, .str "summary"]⟩, ⟨3, fun v => .arr [v, .str "metadata"]⟩]

/-- What version `1` has stored gets no metadata: the chain ends at version `2`. -/
theorem summaryThenMetadata_stops :
    migrate 4 summaryThenMetadata 1 .null = .arr [.null, .str "summary"] ∧
      ¬ MigratesDue 4 summaryThenMetadata 1 := by
  have harm : arm summaryThenMetadata 2 = none := rfl
  have happlied : applied 4 summaryThenMetadata 1 = [summaryThenMetadata[0]] := by
    rw [applied, if_neg (by decide), show arm summaryThenMetadata 1 = some summaryThenMetadata[0]
      from rfl]
    simp only
    rw [applied, if_neg (by decide), harm]
  refine ⟨?_, fun h => ?_⟩
  · rw [migrate_eq_foldl_applied, happlied]
    rfl
  · have hlen := h.1.length_eq
    rw [happlied] at hlen
    revert hlen
    decide

end Migration

end Juncture
