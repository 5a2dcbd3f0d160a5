import Juncture.Graph.Drivers
import Juncture.Graph.Tasks
import Juncture.Lib.Memo

/-!
# `#[task]` functions

A call of a `#[task]` function first looks for an earlier result, in the cache of the graph that it is
called in and then in the cache of the task, and its future calls the body only when there is none.  A
result is found by the name of the task and a hash of it and the arguments, so that tasks may find the
results of each other; and the time between the two locks with which an expired result is removed belongs
to the other threads.

* `taskCacheKey_inj` : what two calls have in common when they have one key.
* `TaskEnv.form`, `TaskEnv.shelves` : the calls of tasks as questions, whose places are keys in the caches.
* `TaskEnv.reaches_lookup` : left alone, a call looks for its result as the expanded macro does.
* `TaskEnv.returns_own_iff` : a call returns what its own body can come to, in every order of steps, if and
  only if calls with one name and one hash understand each other's results as such.
* `TaskEnv.runs_once` : with a cache that keeps everything, a task is run no more for arguments that it
  has a result for.
-/

namespace Juncture

/-- The hash of the name and the arguments of a task. -/
class TaskHash where
  /-- `finish`, after both. -/
  hash : String → Json → UInt64

/-- The last digits of a number in base sixteen. -/
def hashDigits : ℕ → ℕ → List Char
  | 0, _ => []
  | k + 1, n => hashDigits k (n / 16) ++ [(n % 16).digitChar]

theorem length_hashDigits (k n : ℕ) : (hashDigits k n).length = k := by
  induction k generalizing n with
  | zero => rfl
  | succ k ih => rw [hashDigits, List.length_append, ih, List.length_singleton]

theorem digitChar_inj : ∀ a < 16, ∀ b < 16, Nat.digitChar a = Nat.digitChar b → a = b := by decide

theorem hashDigits_inj {k m n : ℕ} (hm : m < 16 ^ k) (hn : n < 16 ^ k)
    (h : hashDigits k m = hashDigits k n) : m = n := by
  induction k generalizing m n with
  | zero =>
    simp only [pow_zero, Nat.lt_one_iff] at hm hn
    rw [hm, hn]
  | succ k ih =>
    obtain ⟨hinit, hlast⟩ := List.append_inj' h rfl
    have hdiv : m / 16 = n / 16 := by
      refine ih ?_ ?_ hinit
      · rw [pow_succ] at hm
        exact Nat.div_lt_of_lt_mul (by omega)
      · rw [pow_succ] at hn
        exact Nat.div_lt_of_lt_mul (by omega)
    have hmod : m % 16 = n % 16 :=
      digitChar_inj _ (Nat.mod_lt _ (by decide)) _ (Nat.mod_lt _ (by decide)) (List.singleton_inj.1 hlast)
    rw [← Nat.div_add_mod m 16, hdiv, hmod, Nat.div_add_mod]

/-- `task_cache_key`. -/
def taskCacheKey [TaskHash] (ns : String) (args : Json) : String :=
  s!"task:{ns}:{String.ofList (hashDigits 16 (TaskHash.hash ns args).toNat)}"

section Keys

variable [TaskHash]

/-- **Keys of tasks.**  A key tells the name and the hash. -/
theorem taskCacheKey_inj {ns ns' : String} {args args' : Json} :
    taskCacheKey ns args = taskCacheKey ns' args' ↔
      ns = ns' ∧ TaskHash.hash ns args = TaskHash.hash ns' args' := by
  constructor
  · intro h
    have hlist := congrArg String.toList h
    simp only [taskCacheKey, String.toList_append, String.toList_ofList, toString] at hlist
    obtain ⟨hname, hdigits⟩ := List.append_inj' hlist (by rw [length_hashDigits, length_hashDigits])
    rw [List.append_cancel_right_eq, List.append_cancel_left_eq] at hname
    exact ⟨String.toList_inj.1 hname,
      UInt64.toNat_inj.1 (hashDigits_inj (UInt64.toNat_lt _) (UInt64.toNat_lt _) hdigits)⟩
  · rintro ⟨hns, hhash⟩
    rw [taskCacheKey, taskCacheKey, hhash, hns]

/-! ### The two caches -/

/-- `try_task_cache_lookup`, where this policy is in scope. -/
def tryTaskCacheLookup {O : Type} (fromValue : Json → Option O) (policy : Option ResultCachePolicy)
    (results : ResultStore) (now : ℕ) (ns : String) (args : Json) : ResultStore × Option O :=
  match policy with
  | none => (results, none)
  | some policy =>
    let found := policy.get results now (taskCacheKey ns args)
    (found.1, found.2.bind fromValue)

/-- `try_task_cache_store`, where this policy is in scope. -/
def tryTaskCacheStore {O : Type} (toValue : O → Option Json) (policy : Option ResultCachePolicy)
    (results : ResultStore) (now : ℕ) (ns : String) (args : Json) (result : O) : ResultStore :=
  match policy, toValue result with
  | some policy, some value => policy.put results now (taskCacheKey ns args) value
  | _, _ => results

end Keys

/-- A `#[task]` function, with what its attributes say. -/
structure TaskFn (F : Type) where
  /-- The arguments. -/
  Args : Type
  /-- What it returns. -/
  Out : Type
  /-- Its errors. -/
  Err : Type
  /-- `name`, or the name of the function. -/
  taskNamespace : Args → String
  /-- The arguments as JSON, `null` if they do not serialize. -/
  argsValue : Args → Json
  /-- `serde_json::to_value`. -/
  toValue : Out → Option Json
  /-- `serde_json::from_value`. -/
  fromValue : Json → Option Out
  /-- Errors become errors of the engine. -/
  into : Err → JunctureError
  /-- `retry`. -/
  retry : Option (TimedRetryPolicy F) := none
  /-- `timeout`. -/
  timeout : Option Duration := none
  /-- `cache`: the policy of the static. -/
  cache : Option ResultCachePolicy := none
  /-- What attempts the body may make. -/
  body : Args → Set (ℕ → TaskAttempt Err Out)

/-- Graphs with their policies, and tasks. -/
structure TaskEnv (F G T : Type) where
  /-- The cache policies of the graphs. -/
  graphs : G → ResultCachePolicy
  /-- The tasks. -/
  tasks : T → TaskFn F
  /-- How a duration is printed. -/
  debug : Duration → String

namespace TaskEnv

section Calls

variable [TaskHash] {F G T : Type} [Factor F] (env : TaskEnv F G T)

/-- A task and its arguments. -/
abbrev TaskCall : Type := (t : T) × (env.tasks t).Args

/-- What the future of a call can come to. -/
def ends (call : env.TaskCall) : Set (Except JunctureError (env.tasks call.1).Out) :=
  {r | ∃ attempts ∈ (env.tasks call.1).body call.2, ∃ fractions,
    (runTask (env.tasks call.1).retry (env.tasks call.1).timeout (env.tasks call.1).into env.debug fractions
      attempts).result = some r}

/-- The cache policy of a graph, or of a task. -/
def policy : G ⊕ T → ResultCachePolicy
  | .inl g => env.graphs g
  | .inr t => (env.tasks t).cache.getD { generateKey := fun _ _ => "" }

/-- The key of a call. -/
def key (call : env.TaskCall) : String :=
  taskCacheKey ((env.tasks call.1).taskNamespace call.2) ((env.tasks call.1).argsValue call.2)

/-- The caches that a call looks into, in the scope of a graph or of none. -/
def layers (t : T) (scope : Option G) : List (G ⊕ T) :=
  scope.toList.map .inl ++ (env.tasks t).cache.toList.map fun _ => .inr t

/-- Calls as questions. -/
def form : Memo.Form env.TaskCall ((G ⊕ T) × String) (Option G) Json fun call =>
    (env.tasks call.1).Out where
  places call scope := (env.layers call.1 scope).map fun layer => (layer, env.key call)
  encode call := (env.tasks call.1).toValue
  decode call := (env.tasks call.1).fromValue

section Stores

variable [DecidableEq G] [DecidableEq T]

/-- The caches.  A result is looked at under one lock, and an expired one removed under another. -/
def shelves : Memo.Shelves ((G ⊕ T) × String) Json (G ⊕ T → ResultStore) where
  empty _ := ∅
  look stores x := (stores x.1).lookup x.2
  put stores now x value :=
    Function.update stores x.1 ((env.policy x.1).put (stores x.1) now x.2 value)
  drop stores x := Function.update stores x.1 ((stores x.1).erase x.2)
  expired x now inserted := (env.policy x.1).ttl.any fun ttl => decide (ttl < now - inserted)
  look_empty x := AList.lookup_empty x.2
  look_put stores now x value := by
    simp only [Function.update_self, ResultCachePolicy.put, AList.lookup_insert]
  look_put_of_ne stores now x value y hyx := by
    by_cases hlayer : y.1 = x.1
    · have hkey : y.2 ≠ x.2 := fun hkey => hyx (Prod.ext hlayer hkey)
      simp only [hlayer, Function.update_self, ResultCachePolicy.put, AList.lookup_insert_ne hkey]
      split_ifs
      · exact .inl (AList.lookup_empty _)
      · exact .inr rfl
    · exact .inr (by rw [Function.update_of_ne hlayer])
  look_drop stores x y := by
    by_cases hlayer : y.1 = x.1
    · simp only [hlayer, Function.update_self]
      by_cases hkey : y.2 = x.2
      · exact .inl (by rw [hkey, AList.lookup_erase])
      · exact .inr (AList.lookup_erase_ne hkey)
    · exact .inr (by rw [Function.update_of_ne hlayer])
  expired_self x now := by
    cases (env.policy x.1).ttl <;> simp

/-- What the expanded macro does before it makes its future: one cache after the other. -/
def lookupTask (call : env.TaskCall) (now : ℕ) :
    List (G ⊕ T) → (G ⊕ T → ResultStore) → (G ⊕ T → ResultStore) × Option (env.tasks call.1).Out
  | [], stores => (stores, none)
  | layer :: layers, stores =>
    let found := tryTaskCacheLookup (env.tasks call.1).fromValue (some (env.policy layer)) (stores layer) now
      ((env.tasks call.1).taskNamespace call.2) ((env.tasks call.1).argsValue call.2)
    match found.2 with
    | some a => (Function.update stores layer found.1, some a)
    | none => lookupTask call now layers (Function.update stores layer found.1)

/-- What the future does with a result: it is kept in one cache after the other. -/
def storeTask (call : env.TaskCall) (now : ℕ) (result : (env.tasks call.1).Out) (layers : List (G ⊕ T))
    (stores : G ⊕ T → ResultStore) : G ⊕ T → ResultStore :=
  layers.foldl (fun stores layer => Function.update stores layer
    (tryTaskCacheStore (env.tasks call.1).toValue (some (env.policy layer)) (stores layer) now
      ((env.tasks call.1).taskNamespace call.2) ((env.tasks call.1).argsValue call.2) result)) stores

/-- Where a call goes with what it has found. -/
def found (call : env.TaskCall) :
    Option (env.tasks call.1).Out → Memo.Stage ((G ⊕ T) × String) JunctureError (env.tasks call.1).Out
  | some a => .returned (.ok a)
  | none => .running

/-- What happens to the caches and to the calls. -/
abbrev TaskRuns (w w' : Memo.World (G ⊕ T → ResultStore) ((G ⊕ T) × String) JunctureError
    fun call : env.TaskCall => (env.tasks call.1).Out) : Prop :=
  Memo.Runs env.form env.shelves env.ends w w'

variable {env} {call : env.TaskCall} {stores : G ⊕ T → ResultStore}

/-- Left alone, a call looks for its result as the expanded macro does. -/
theorem reaches_lookup (now : ℕ)
    (cs : List (Memo.Call ((G ⊕ T) × String) JunctureError
      (fun call : env.TaskCall => (env.tasks call.1).Out))) (layers : List (G ⊕ T)) :
    env.TaskRuns ⟨stores, cs ++ [⟨call, .asking (layers.map fun layer => (layer, env.key call))⟩]⟩
      ⟨(env.lookupTask call now layers stores).1,
        cs ++ [⟨call, env.found call (env.lookupTask call now layers stores).2⟩]⟩ := by
  induction layers generalizing stores with
  | nil => exact Memo.runs_move _ _ _ _ now cs (.asking [])
  | cons layer layers ih =>
    have hmove := Memo.runs_move env.form env.shelves env.ends stores now cs (i := call)
      (.asking ((layer, env.key call) :: layers.map fun layer => (layer, env.key call)))
    have hlook : env.shelves.look stores (layer, env.key call) = (stores layer).lookup (env.key call) := rfl
    have hexpired : ∀ inserted, env.shelves.expired (layer, env.key call) now inserted =
        (env.policy layer).ttl.any fun ttl => decide (ttl < now - inserted) := fun _ => rfl
    simp only [Memo.Stage.move, hlook, hexpired] at hmove
    simp only [lookupTask, tryTaskCacheLookup, ResultCachePolicy.get]
    rw [show taskCacheKey _ _ = env.key call from rfl]
    cases hentry : (stores layer).lookup (env.key call) with
    | none =>
      simp only [hentry] at hmove
      simp only [Option.bind_none, Function.update_eq_self]
      exact hmove.trans ih
    | some entry =>
      simp only [hentry] at hmove
      dsimp only
      split_ifs at hmove ⊢ with hold
      · -- The second lock.
        have hdrop := Memo.runs_move env.form env.shelves env.ends stores now cs (i := call)
          (.dropping (layer, env.key call) (layers.map fun layer => (layer, env.key call)))
        exact hmove.trans (hdrop.trans ih)
      · rw [show env.form.decode call entry.1 = (env.tasks call.1).fromValue entry.1 from rfl] at hmove
        simp only [Option.bind_some, Function.update_eq_self]
        cases hvalue : (env.tasks call.1).fromValue entry.1 with
        | none =>
          simp only [hvalue] at hmove
          exact hmove.trans ih
        | some a =>
          simp only [hvalue] at hmove
          exact hmove

/-- Left alone, a call keeps its result as the expanded macro does. -/
theorem reaches_store (now : ℕ)
    (cs : List (Memo.Call ((G ⊕ T) × String) JunctureError
      (fun call : env.TaskCall => (env.tasks call.1).Out)))
    (result : (env.tasks call.1).Out) (layers : List (G ⊕ T)) :
    env.TaskRuns ⟨stores, cs ++ [⟨call, .keeping result (layers.map fun layer => (layer, env.key call))⟩]⟩
      ⟨env.storeTask call now result layers stores, cs ++ [⟨call, .returned (.ok result)⟩]⟩ := by
  induction layers generalizing stores with
  | nil => exact Memo.runs_move _ _ _ _ now cs (.keeping result [])
  | cons layer layers ih =>
    have hmove := Memo.runs_move env.form env.shelves env.ends stores now cs (i := call)
      (.keeping result ((layer, env.key call) :: layers.map fun layer => (layer, env.key call)))
    rw [Memo.Stage.move, show env.form.encode call result = (env.tasks call.1).toValue result from rfl]
      at hmove
    simp only [storeTask, List.foldl_cons, tryTaskCacheStore] at ih ⊢
    cases hvalue : (env.tasks call.1).toValue result with
    | none =>
      simp only [hvalue, Function.update_eq_self] at hmove ih ⊢
      exact hmove.trans ih
    | some value =>
      simp only [hvalue] at hmove ih ⊢
      exact hmove.trans ih

/-! ### Results of other calls -/

variable (env) in
/-- Calls with one name and one hash, that may look into one cache, understand each other's results as
results that they can come to themselves. -/
def Agreeing : Prop :=
  ∀ call call' : env.TaskCall,
    (env.tasks call.1).taskNamespace call.2 = (env.tasks call'.1).taskNamespace call'.2 →
    TaskHash.hash ((env.tasks call.1).taskNamespace call.2) ((env.tasks call.1).argsValue call.2) =
      TaskHash.hash ((env.tasks call'.1).taskNamespace call'.2) ((env.tasks call'.1).argsValue call'.2) →
    (Nonempty G ∨ call.1 = call'.1 ∧ (env.tasks call.1).cache.isSome = true) →
    ∀ a, .ok a ∈ env.ends call → ∀ value, (env.tasks call.1).toValue a = some value →
      ∀ b, (env.tasks call'.1).fromValue value = some b → .ok b ∈ env.ends call'

omit [Factor F] [DecidableEq G] [DecidableEq T] in
theorem mem_places {scope : Option G} {layer : G ⊕ T} {key : String} :
    (layer, key) ∈ env.form.places call scope ↔ key = env.key call ∧
      ((∃ g ∈ scope, layer = .inl g) ∨ layer = .inr call.1 ∧ (env.tasks call.1).cache.isSome = true) := by
  simp only [form, layers, List.mem_map, List.mem_append, Option.mem_toList, Prod.mk.injEq,
    Option.isSome_iff_exists]
  constructor
  · rintro ⟨layer', ⟨g, hg, rfl⟩ | ⟨policy, hpolicy, rfl⟩, rfl, rfl⟩
    · exact ⟨rfl, .inl ⟨g, hg, rfl⟩⟩
    · exact ⟨rfl, .inr ⟨rfl, policy, hpolicy⟩⟩
  · rintro ⟨rfl, ⟨g, hg, rfl⟩ | ⟨rfl, policy, hpolicy⟩⟩
    · exact ⟨_, .inl ⟨g, hg, rfl⟩, rfl, rfl⟩
    · exact ⟨_, .inr ⟨policy, hpolicy, rfl⟩, rfl, rfl⟩

omit [Factor F] [DecidableEq G] [DecidableEq T] in
theorem uses_iff {layer : G ⊕ T} {key : String} :
    Memo.Uses env.form call (layer, key) ↔ key = env.key call ∧
      ((∃ g, layer = .inl g) ∨ layer = .inr call.1 ∧ (env.tasks call.1).cache.isSome = true) := by
  simp only [Memo.Uses, mem_places]
  constructor
  · rintro ⟨scope, hkey, ⟨g, -, hg⟩ | hown⟩
    · exact ⟨hkey, .inl ⟨g, hg⟩⟩
    · exact ⟨hkey, .inr hown⟩
  · rintro ⟨hkey, ⟨g, hg⟩ | hown⟩
    · exact ⟨some g, hkey, .inl ⟨g, rfl, hg⟩⟩
    · exact ⟨none, hkey, .inr hown⟩

omit [DecidableEq G] [DecidableEq T] in
theorem coherent_iff : Memo.Coherent env.form env.ends ↔ env.Agreeing := by
  constructor
  · intro h call call' hname hhash hshared a ha value hvalue b hb
    have hkey : env.key call = env.key call' := taskCacheKey_inj.2 ⟨hname, hhash⟩
    obtain ⟨⟨g⟩⟩ | ⟨htask, hcache⟩ := hshared
    · exact h call call' (.inl g, env.key call) (uses_iff.2 ⟨rfl, .inl ⟨g, rfl⟩⟩)
        (uses_iff.2 ⟨hkey, .inl ⟨g, rfl⟩⟩) a ha value hvalue b hb
    · exact h call call' (.inr call.1, env.key call) (uses_iff.2 ⟨rfl, .inr ⟨rfl, hcache⟩⟩)
        (uses_iff.2 ⟨hkey, .inr ⟨congrArg _ htask, htask ▸ hcache⟩⟩) a ha value hvalue b hb
  · rintro h call call' ⟨layer, key⟩ hcall hcall' a ha value hvalue b hb
    obtain ⟨rfl, hlayer⟩ := uses_iff.1 hcall
    obtain ⟨hkey, hlayer'⟩ := uses_iff.1 hcall'
    obtain ⟨hname, hhash⟩ := taskCacheKey_inj.1 hkey
    refine h call call' hname hhash ?_ a ha value hvalue b hb
    obtain ⟨g, -⟩ | ⟨rfl, hcache⟩ := hlayer
    · exact .inl ⟨g⟩
    · obtain ⟨g, -⟩ | ⟨htask, -⟩ := hlayer'
      · exact .inl ⟨g⟩
      · exact .inr ⟨Sum.inr.inj htask, hcache⟩

omit [Factor F] in
theorem apart : Memo.Apart env.form env.shelves := by
  rintro call scope ⟨layer, key⟩ hx ⟨layer', key'⟩ hy hne stores now value
  have hlayer : layer ≠ layer' := fun hlayer =>
    hne (Prod.ext hlayer ((mem_places.1 hx).1.trans (mem_places.1 hy).1.symm))
  exact congrArg (fun results => AList.lookup key results) (Function.update_of_ne hlayer _ _)

variable (env) in
/-- **Cached results.**  In every order of steps, each call of a task returns what its own body can come to
for its arguments, if and only if calls with one name and one hash agree. -/
theorem returns_own_iff :
    (∀ w, env.TaskRuns ⟨fun _ => ∅, []⟩ w → w.Faithful env.ends) ↔ env.Agreeing := by
  rw [← coherent_iff]
  exact Memo.faithful_iff env.form env.shelves env.ends apart

/-! ### A cache that keeps everything -/

section Kept

variable {policy : ResultCachePolicy} (hcache : (env.tasks call.1).cache = some policy)
include hcache

omit [Factor F] [DecidableEq G] [DecidableEq T] in
theorem mem_places_own (scope : Option G) :
    (Sum.inr call.1, env.key call) ∈ env.form.places call scope :=
  mem_places.2 ⟨rfl, .inr ⟨rfl, by rw [hcache]; rfl⟩⟩

omit [Factor F] in
theorem lossless (httl : policy.ttl = none) (hmax : policy.maxEntries = none) :
    env.shelves.Lossless (.inr call.1, env.key call) := by
  have hpolicy : env.policy (.inr call.1) = policy := by rw [TaskEnv.policy, hcache, Option.getD_some]
  refine ⟨fun now inserted => ?_, ?_, ?_⟩
  · show (env.policy (.inr call.1)).ttl.any _ = false
    rw [hpolicy, httl]
    rfl
  · rintro stores now value ⟨layer, key⟩ hne
    by_cases hlayer : Sum.inr call.1 = layer
    · subst hlayer
      have hkey : env.key call ≠ key := fun hkey => hne (by rw [hkey])
      simp [shelves, ResultCachePolicy.put, hpolicy, hmax, AList.lookup_insert_ne hkey]
    · exact congrArg (fun results => AList.lookup _ results) (Function.update_of_ne hlayer _ _)
  · rintro stores ⟨layer, key⟩ hne
    by_cases hlayer : Sum.inr call.1 = layer
    · subst hlayer
      have hkey : env.key call ≠ key := fun hkey => hne (by rw [hkey])
      simp [shelves, AList.lookup_erase_ne hkey]
    · exact congrArg (fun results => AList.lookup _ results) (Function.update_of_ne hlayer _ _)

omit hcache [Factor F] [DecidableEq G] [DecidableEq T] in
theorem steady (hto : ∀ a, ((env.tasks call.1).toValue a).isSome = true)
    (hfrom : ∀ a value, (env.tasks call.1).toValue a = some value →
      ((env.tasks call.1).fromValue value).isSome = true) :
    env.form.Steady call (.inr call.1, env.key call) := by
  refine ⟨hto, ?_⟩
  rintro ⟨t, args⟩ huses a value hvalue
  obtain ⟨-, ⟨g, hg⟩ | ⟨htask, -⟩⟩ := uses_iff.1 huses
  · cases hg
  · cases htask
    exact hfrom a value hvalue

/-- **Once.**  When a task whose cache keeps everything has kept a result, it is run no more for the same
arguments, whoever calls it, in whatever scope. -/
theorem runs_once (httl : policy.ttl = none) (hmax : policy.maxEntries = none)
    (hto : ∀ a, ((env.tasks call.1).toValue a).isSome = true)
    (hfrom : ∀ a value, (env.tasks call.1).toValue a = some value →
      ((env.tasks call.1).fromValue value).isSome = true)
    {w w' : Memo.World (G ⊕ T → ResultStore) ((G ⊕ T) × String) JunctureError
      fun call : env.TaskCall => (env.tasks call.1).Out}
    (h : env.TaskRuns ⟨fun _ => ∅, []⟩ w)
    (hkept : ∃ c ∈ w.calls, c.question = call ∧ ∃ a, c.stage = .keeping a []) (h' : env.TaskRuns w w')
    {n : ℕ} (hn : w.calls.length ≤ n) {c : Memo.Call ((G ⊕ T) × String) JunctureError
      fun call : env.TaskCall => (env.tasks call.1).Out}
    (hc : w'.calls[n]? = some c) (hcall : c.question = call) : c.stage ≠ .running := by
  have hwithin : ∀ e : Memo.Event ((G ⊕ T) × String) (Option G) Json JunctureError
      (fun call : env.TaskCall => (env.tasks call.1).Out), e.Allowed env.form env.ends →
      e.Within env.form call (.inr call.1, env.key call) := by
    intro e he
    cases e with
    | ask j scope => exact fun hj => hj ▸ mem_places_own hcache scope
    | move n now => trivial
    | finish n body scope => exact mem_places_own hcache scope
    | other x v now =>
      rintro rfl
      exact he call ⟨none, mem_places_own hcache none⟩
  obtain ⟨k, hk, hkcall, hkkept⟩ := hkept
  have hlate := Memo.late_of_settled (lossless hcache httl hmax) (steady hto hfrom) (h.mono hwithin) hk hkcall
    hkkept (h'.mono hwithin) hn hc hcall
  intro hrunning
  rw [hrunning] at hlate
  exact hlate

end Kept

end Stores

end Calls

/-! ### A task called twice -/

/-- Every hash is zero. -/
instance zeroHash : TaskHash := ⟨fun _ _ => 0⟩

/-- One task, without arguments, that returns null and keeps it. -/
def nullTask : TaskEnv ℕ Unit Unit where
  graphs _ := { generateKey := fun _ _ => "" }
  tasks _ := {
    Args := Unit
    Out := Json
    Err := JunctureError
    taskNamespace := fun _ => "null"
    argsValue := fun _ => .null
    toValue := some
    fromValue := some
    into := id
    cache := some { generateKey := fun _ _ => "" }
    body := fun _ => {fun _ => { result := .ok .null }} }
  debug _ := ""

/-- The first call, as far as it has kept its result. -/
def firstCall : List (Memo.Event ((Unit ⊕ Unit) × String) (Option Unit) Json JunctureError
    fun call : nullTask.TaskCall => (nullTask.tasks call.1).Out) :=
  [.ask ⟨(), ()⟩ none, .move 0 0, .move 0 0, .finish 0 (fun _ => some (.ok .null)) none, .move 0 0]

/-- The caches and the calls after that. -/
def firstKept : Memo.World (Unit ⊕ Unit → ResultStore) ((Unit ⊕ Unit) × String) JunctureError
    fun call : nullTask.TaskCall => (nullTask.tasks call.1).Out :=
  firstCall.foldl (Memo.World.step nullTask.form nullTask.shelves) ⟨fun _ => ∅, []⟩

theorem taskRuns_firstKept : nullTask.TaskRuns ⟨fun _ => ∅, []⟩ firstKept := by
  refine ⟨firstCall, fun e he => ?_, rfl⟩
  simp only [firstCall, List.mem_cons, List.not_mem_nil, or_false] at he
  obtain rfl | rfl | rfl | rfl | rfl := he <;> try trivial
  rintro call r ⟨⟩
  exact ⟨_, rfl, fun _ => 1, rfl⟩

/-- The task is called again. -/
theorem runs_once_nullTask :
    (Memo.Stage.asking [(.inr (), nullTask.key ⟨(), ()⟩)] : Memo.Stage ((Unit ⊕ Unit) × String) JunctureError
      Json) ≠ .running := by
  have hagain := Memo.runs_step nullTask.form nullTask.shelves nullTask.ends firstKept
    (e := .ask ⟨(), ()⟩ none) trivial
  exact runs_once rfl rfl rfl (fun _ => rfl) (fun _ _ _ => rfl) taskRuns_firstKept
    ⟨_, List.mem_singleton_self _, rfl, .null, rfl⟩ hagain (n := 1) le_rfl rfl rfl

end TaskEnv

end Juncture
