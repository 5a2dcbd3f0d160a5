import Juncture.Lib.Machine
import Mathlib.Data.List.Basic

/-!
# Two ways into one channel

A sender works through a list of items.  Some it puts into the output channel itself; the others it
puts into the channel of a relay, which takes them one after the other, drops some and puts what it
makes of the rest into the output channel.  Both channels are bounded: who finds one full waits.  The
sender, the relay and the receiver take turns in any order.

* `Relay.lefts_got`, `Relay.rights_got` : what comes through the relay arrives once and in order, and
  so does what is sent directly, whatever the order of turns.
* `Relay.reaches_complete` : the sender can always get rid of everything.
* `Relay.inOrder_iff` : the items that are sent directly at the end arrive after everything that comes
  through the relay, in every order of turns, if and only if the relay cannot fall so far behind.
-/

namespace Relay

open Machine

variable {ε ι κ : Type*}

/-- What the sender does next. -/
inductive Send (ε κ : Type*) where
  | relay (e : ε)
  | direct (k : κ)

/-- The sender, the relay and the receiver.  In the output channel, `inl` is what the relay has made of
an item and `inr` what the sender has sent itself. -/
structure State (ε ι κ : Type*) where
  /-- What the sender has yet to send. -/
  script : List (Send ε κ)
  /-- The channel of the relay. -/
  queue : List ε := []
  /-- What the relay is about to put into the output channel. -/
  hand : Option ι := none
  /-- The output channel. -/
  out : List (ι ⊕ κ) := []
  /-- What the receiver has got. -/
  got : List (ι ⊕ κ) := []

/-- Who takes a turn. -/
inductive Party where
  | sender | relay | receiver

/-- The items that go through the relay. -/
def relays (script : List (Send ε κ)) : List ε :=
  script.filterMap fun a =>
    match a with
    | .relay e => some e
    | .direct _ => none

/-- The items that are sent directly. -/
def directs (script : List (Send ε κ)) : List κ :=
  script.filterMap fun a =>
    match a with
    | .relay _ => none
    | .direct k => some k

/-- The items that came through the relay. -/
def lefts (xs : List (ι ⊕ κ)) : List ι := xs.filterMap Sum.getLeft?

/-- The items that were sent directly. -/
def rights (xs : List (ι ⊕ κ)) : List κ := xs.filterMap Sum.getRight?

section Lists

variable {s s' : List (Send ε κ)} {e : ε} {k : κ} {xs ys : List (ι ⊕ κ)} {i : ι}

@[simp] theorem relays_nil : relays ([] : List (Send ε κ)) = [] := rfl

@[simp] theorem relays_relay : relays (.relay e :: s) = e :: relays s := rfl

@[simp] theorem relays_direct : relays (.direct k :: s) = relays s := rfl

@[simp] theorem relays_append : relays (s ++ s') = relays s ++ relays s' := List.filterMap_append

theorem mem_relays : e ∈ relays s ↔ .relay e ∈ s := by
  unfold relays
  rw [List.mem_filterMap]
  constructor
  · rintro ⟨e' | k, ha, he⟩
    · cases he
      exact ha
    · cases he
  · exact fun h => ⟨_, h, rfl⟩

@[simp] theorem relays_map_direct (ks : List κ) :
    relays (ks.map (.direct : κ → Send ε κ)) = [] := by
  induction ks with
  | nil => rfl
  | cons k ks ih => exact ih

theorem mem_directs : k ∈ directs s ↔ .direct k ∈ s := by
  unfold directs
  rw [List.mem_filterMap]
  constructor
  · rintro ⟨e | k', ha, hk⟩
    · cases hk
    · cases hk
      exact ha
  · exact fun h => ⟨_, h, rfl⟩

@[simp] theorem directs_nil : directs ([] : List (Send ε κ)) = [] := rfl

@[simp] theorem directs_relay : directs (.relay e :: s) = directs s := rfl

@[simp] theorem directs_direct : directs (.direct k :: s) = k :: directs s := rfl

@[simp] theorem lefts_nil : lefts ([] : List (ι ⊕ κ)) = [] := rfl

@[simp] theorem lefts_append : lefts (xs ++ ys) = lefts xs ++ lefts ys := List.filterMap_append

@[simp] theorem lefts_inl : lefts ([.inl i] : List (ι ⊕ κ)) = [i] := rfl

@[simp] theorem lefts_inr : lefts ([.inr k] : List (ι ⊕ κ)) = [] := rfl

@[simp] theorem lefts_map_inr (ks : List κ) : lefts (ks.map (.inr : κ → ι ⊕ κ)) = [] := by
  induction ks with
  | nil => rfl
  | cons k ks ih => exact ih

@[simp] theorem rights_nil : rights ([] : List (ι ⊕ κ)) = [] := rfl

@[simp] theorem rights_append : rights (xs ++ ys) = rights xs ++ rights ys :=
  List.filterMap_append

@[simp] theorem rights_inl : rights ([.inl i] : List (ι ⊕ κ)) = [] := rfl

@[simp] theorem rights_inr : rights ([.inr k] : List (ι ⊕ κ)) = [k] := rfl

theorem mem_lefts : i ∈ lefts xs ↔ .inl i ∈ xs := by
  simp [lefts, Sum.getLeft?_eq_some_iff]

theorem mem_rights : k ∈ rights xs ↔ .inr k ∈ xs := by
  simp [rights, Sum.getRight?_eq_some_iff]

end Lists

variable (forward : ε → Option ι) (c d : ℕ)

/-- One turn, with `c` places in the channel of the relay and `d` in the output channel.  Who cannot
do anything waits. -/
def step (s : State ε ι κ) : Party → State ε ι κ
  | .sender =>
    match s.script with
    | [] => s
    | .relay e :: script =>
      if s.queue.length < c then { s with script, queue := s.queue ++ [e] } else s
    | .direct k :: script =>
      if s.out.length < d then { s with script, out := s.out ++ [.inr k] } else s
  | .relay =>
    match s.hand, s.queue with
    | some i, _ =>
      if s.out.length < d then { s with hand := none, out := s.out ++ [.inl i] } else s
    | none, [] => s
    | none, e :: queue => { s with hand := forward e, queue }
  | .receiver =>
    match s.out with
    | [] => s
    | x :: out => { s with out, got := s.got ++ [x] }

/-- Some order of turns leads from `s` to `t`. -/
def Runs (s t : State ε ι κ) : Prop := Reaches (step forward c d) (fun _ => True) s t

/-- The sender has sent everything, and the receiver has got it. -/
structure State.Complete (s : State ε ι κ) : Prop where
  /-- The sender is done. -/
  script : s.script = []
  /-- The channel of the relay is empty. -/
  queue : s.queue = []
  /-- The relay is done. -/
  hand : s.hand = none
  /-- The output channel is empty. -/
  out : s.out = []

/-! ### What arrives -/

variable {forward c d} {s t u : State ε ι κ} {script body : List (Send ε κ)} {ending : List κ}

/-- Nothing is lost, made up or reordered on either way. -/
structure Conserved (forward : ε → Option ι) (script : List (Send ε κ)) (s : State ε ι κ) :
    Prop where
  /-- Through the relay. -/
  lefts : lefts (s.got ++ s.out) ++ s.hand.toList ++ s.queue.filterMap forward ++
    (relays s.script).filterMap forward = (relays script).filterMap forward
  /-- Directly. -/
  rights : rights (s.got ++ s.out) ++ directs s.script = directs script

theorem Conserved.step (h : Conserved forward script s) (p : Party) :
    Conserved forward script (step forward c d s p) := by
  obtain ⟨hl, hr⟩ := h
  obtain ⟨rest, queue, hand, out, got⟩ := s
  dsimp only at hl hr
  cases p with
  | sender =>
    rcases rest with _ | ⟨e | k, rest⟩
    · exact ⟨hl, hr⟩
    -- What is to be relayed joins the queue, the rest goes past it.
    · unfold Relay.step
      dsimp only
      split_ifs
      · refine ⟨?_, hr⟩
        rw [← hl]
        cases hf : forward e <;> simp [hf]
      · exact ⟨hl, hr⟩
    · unfold Relay.step
      dsimp only
      split_ifs
      · exact ⟨by rw [← hl]; simp, by rw [← hr]; simp⟩
      · exact ⟨hl, hr⟩
  | relay =>
    rcases hand with _ | i
    · rcases queue with _ | ⟨e, queue⟩
      · exact ⟨hl, hr⟩
      · refine ⟨?_, hr⟩
        rw [← hl]
        cases hf : forward e <;> simp [Relay.step, hf]
    -- What the relay holds goes into the channel if there is room.
    · unfold Relay.step
      dsimp only
      split_ifs
      · exact ⟨by rw [← hl]; simp, by rw [← hr]; simp⟩
      · exact ⟨hl, hr⟩
  | receiver =>
    rcases out with _ | ⟨x, out⟩
    · exact ⟨hl, hr⟩
    · exact ⟨by rw [← hl]; simp [Relay.step], by rw [← hr]; simp [Relay.step]⟩

theorem Runs.conserved (h : Runs forward c d { script } u) : Conserved forward script u :=
  h.invariant (fun _ p _ hs => hs.step p) ⟨rfl, rfl⟩

/-- **What comes through the relay** arrives once and in order. -/
theorem lefts_got (h : Runs forward c d { script } u) (hu : u.Complete) :
    lefts u.got = (relays script).filterMap forward := by
  have hl := h.conserved.lefts
  rw [hu.script, hu.queue, hu.hand, hu.out] at hl
  simpa using hl

/-- **What is sent directly** arrives once and in order. -/
theorem rights_got (h : Runs forward c d { script } u) (hu : u.Complete) :
    rights u.got = directs script := by
  have hr := h.conserved.rights
  rw [hu.script, hu.out] at hr
  simpa using hr

/-- What has come through the relay has been sent that way. -/
theorem Conserved.of_inl_mem {i : ι} (h : Conserved forward script s) (hi : .inl i ∈ s.got) :
    ∃ e, .relay e ∈ script ∧ forward e = some i := by
  have hall : i ∈ (relays script).filterMap forward := by
    rw [← h.lefts, lefts_append]
    simp [mem_lefts.2 hi]
  obtain ⟨e, he, hei⟩ := List.mem_filterMap.1 hall
  exact ⟨e, mem_relays.1 he, hei⟩

/-- What has come directly has been sent directly. -/
theorem Conserved.of_inr_mem {k : κ} (h : Conserved forward script s) (hk : .inr k ∈ s.got) :
    .direct k ∈ script := by
  have hall : k ∈ directs script := by
    rw [← h.rights, rights_append]
    simp [mem_rights.2 hk]
  exact mem_directs.1 hall

/-! ### Orders of turns -/

section Turns

variable {rest : List (Send ε κ)} {queue : List ε} {got : List (ι ⊕ κ)} {e : ε} {k : κ} {i : ι}

theorem Runs.trans (h : Runs forward c d s t) (h' : Runs forward c d t u) :
    Runs forward c d s u := Reaches.trans h h'

theorem Runs.turn (p : Party) (h : step forward c d s p = t) : Runs forward c d s t :=
  h ▸ Reaches.single trivial

/-- The sender sends something itself, and the receiver gets it. -/
theorem runs_direct (hd : 0 < d) {hand : Option ι} :
    Runs forward c d { script := .direct k :: rest, queue, hand, got }
      { script := rest, queue, hand, got := got ++ [.inr k] } :=
  (Runs.turn .sender (t := { script := rest, queue, hand, out := [.inr k], got }) (by
    simp [step, hd])).trans (.turn .receiver rfl)

/-- The sender puts something into the channel of the relay. -/
theorem runs_push (hq : queue.length < c) {hand : Option ι} :
    Runs forward c d { script := .relay e :: rest, queue, hand, got }
      { script := rest, queue := queue ++ [e], hand, got } :=
  .turn .sender (by simp [step, hq])

/-- The relay puts what it has into the output channel, and the receiver gets it. -/
theorem runs_forward (hd : 0 < d) :
    Runs forward c d { script := rest, queue, hand := some i, got }
      { script := rest, queue, got := got ++ [.inl i] } :=
  (Runs.turn .relay (t := { script := rest, queue, out := [.inl i], got }) (by
    simp [step, hd])).trans (.turn .receiver rfl)

/-- The relay works through its channel. -/
theorem runs_drain (rest : List (Send ε κ)) (hd : 0 < d) :
    ∀ (queue : List ε) (got : List (ι ⊕ κ)),
    Runs forward c d { script := rest, queue, got }
      { script := rest, got := got ++ (queue.filterMap forward).map .inl } := by
  intro queue
  induction queue with
  | nil =>
    intro got
    rw [List.filterMap_nil, List.map_nil, List.append_nil]
    exact Reaches.refl _
  | cons e queue ih =>
    intro got
    have htake : Runs forward c d { script := rest, queue := e :: queue, got }
        { script := rest, queue, hand := forward e, got } := .turn .relay rfl
    refine htake.trans ?_
    cases hf : forward e with
    | none =>
      rw [List.filterMap_cons_none hf]
      exact ih got
    | some i =>
      rw [List.filterMap_cons_some hf, List.map_cons]
      refine (runs_forward hd).trans ?_
      have hrest := ih (got ++ [.inl i])
      rwa [List.append_assoc] at hrest

/-- What the receiver gets for one item. -/
def delivered (forward : ε → Option ι) : Send ε κ → List (ι ⊕ κ)
  | .relay e => ((forward e).toList).map .inl
  | .direct k => [.inr k]

/-- Everything is sent and received at once. -/
theorem runs_at_once (rest : List (Send ε κ)) (hc : 0 < c) (hd : 0 < d) :
    ∀ (front : List (Send ε κ)) (got : List (ι ⊕ κ)), Runs forward c d { script := front ++ rest, got }
      { script := rest, got := got ++ front.flatMap (delivered forward) } := by
  intro front
  induction front with
  | nil =>
    intro got
    rw [List.flatMap_nil, List.append_nil, List.nil_append]
    exact Reaches.refl _
  | cons a front ih =>
    intro got
    rw [List.flatMap_cons, ← List.append_assoc]
    refine Runs.trans ?_ (ih _)
    cases a with
    | direct k => exact runs_direct hd
    | relay e =>
      have hdrain : Runs forward c d { script := front ++ rest, queue := [e], got } _ :=
        runs_drain (front ++ rest) hd [e] got
      refine (runs_push (by simpa using hc)).trans ?_
      cases hf : forward e <;> simpa [delivered, hf] using hdrain

/-- **The sender can always get rid of everything.** -/
theorem reaches_complete (forward : ε → Option ι) (hc : 0 < c) (hd : 0 < d)
    (script : List (Send ε κ)) : ∃ u : State ε ι κ, Runs forward c d { script } u ∧ u.Complete := by
  have h : Runs forward c d { script := script ++ [] } _ := runs_at_once [] hc hd script []
  rw [List.append_nil] at h
  exact ⟨_, h, rfl, rfl, rfl, rfl⟩

/-- What is sent can be received, if the relay makes something of it. -/
theorem exists_received (forward : ε → Option ι) (hc : 0 < c) (hd : 0 < d)
    (script : List (Send ε κ)) : ∃ u : State ε ι κ, Runs forward c d { script } u ∧
      (∀ e i, .relay e ∈ script → forward e = some i → .inl i ∈ u.got) ∧
      ∀ k, .direct k ∈ script → .inr k ∈ u.got := by
  obtain ⟨u, hu, hcomplete⟩ := reaches_complete forward hc hd script
  refine ⟨u, hu, fun e i he hi => ?_, fun k hk => ?_⟩
  · rw [← mem_lefts, lefts_got hu hcomplete]
    exact List.mem_filterMap.2 ⟨e, mem_relays.2 he, hi⟩
  · rw [← mem_rights, rights_got hu hcomplete]
    exact mem_directs.2 hk

/-- While the relay holds on to something, everything else is sent, if there is room for it. -/
theorem runs_ahead (rest : List (Send ε κ)) (i : ι) (hd : 0 < d) : ∀ (front : List (Send ε κ)) (queue : List ε)
    (got : List (ι ⊕ κ)), queue.length + (relays front).length ≤ c →
      Runs forward c d { script := front ++ rest, queue, hand := some i, got }
        { script := rest, queue := queue ++ relays front, hand := some i,
          got := got ++ (directs front).map .inr } := by
  intro front
  induction front with
  | nil =>
    intro queue got _
    rw [List.nil_append, relays_nil, directs_nil, List.append_nil, List.map_nil, List.append_nil]
    exact Reaches.refl _
  | cons a front ih =>
    intro queue got hroom
    cases a with
    | direct k =>
      rw [relays_direct] at hroom
      refine (runs_direct hd).trans ?_
      have hrest := ih queue (got ++ [.inr k]) hroom
      rwa [List.append_assoc] at hrest
    | relay e =>
      rw [relays_relay, List.length_cons] at hroom
      refine (runs_push (by omega)).trans ?_
      simpa using ih (queue ++ [e]) got (by simp; omega)

end Turns

/-! ### What comes last -/

/-- The items that are sent directly at the end arrive after everything that comes through the relay,
which arrives once and in order. -/
def InOrder (forward : ε → Option ι) (body : List (Send ε κ)) (ending : List κ)
    (got : List (ι ⊕ κ)) : Prop :=
  ∃ before, got = before ++ ending.map .inr ∧
    lefts before = (relays body).filterMap forward

/-- Only what goes through the relay counts. -/
theorem inOrder_congr {body' : List (Send ε κ)} {got : List (ι ⊕ κ)}
    (h : relays body = relays body') :
    InOrder forward body ending got ↔ InOrder forward body' ending got := by
  unfold InOrder
  rw [h]

/-- What the relay makes something of is followed by more items than its channel holds. -/
def Followed (forward : ε → Option ι) (c : ℕ) (body : List (Send ε κ)) : Prop :=
  ∀ pre e post, relays body = pre ++ e :: post → (forward e).isSome = true → c < post.length

theorem followed_congr {body' : List (Send ε κ)} (h : relays body = relays body') :
    Followed forward c body ↔ Followed forward c body' := by
  unfold Followed
  rw [h]

/-- Something near the end is not followed by enough. -/
theorem not_followed {j : ℕ} (hj : j < (relays body).length)
    (hpass : (forward (relays body)[j]).isSome = true) (hroom : (relays body).length ≤ c + j + 1) :
    ¬ Followed forward c body := by
  intro h
  have hlt := h ((relays body).take j) (relays body)[j] ((relays body).drop (j + 1))
    (by rw [List.getElem_cons_drop, List.take_append_drop]) hpass
  rw [List.length_drop] at hlt
  omega

/-- The relay keeps up: what it has not dealt with is in its channel or in its hand, and when the
sender has begun with the items at the end, this is nothing it makes anything of. -/
structure KeepsUp (forward : ε → Option ι) (c : ℕ) (body : List (Send ε κ)) (ending : List κ)
    (s : State ε ι κ) : Prop where
  /-- What the relay has taken from its channel. -/
  taken : ∃ past, relays body = past ++ s.queue ++ relays s.script ∧
    ∀ i, s.hand = some i → ∃ past' e, past = past' ++ [e] ∧ forward e = some i
  /-- The channel holds no more than it can. -/
  room : s.queue.length ≤ c
  /-- How far the sender is. -/
  phase : (∃ rest, s.script = rest ++ ending.map .direct) ∨
    ∃ before sent rest, ending = sent ++ rest ∧ s.script = rest.map .direct ∧ s.hand = none ∧
      (∀ e ∈ s.queue, forward e = none) ∧ s.got ++ s.out = before ++ sent.map .inr

/-- When the sender is done with everything else, the relay has nothing to forward. -/
theorem KeepsUp.idle (hfol : Followed forward c body) (h : KeepsUp forward c body ending s)
    (hscript : relays s.script = []) : s.hand = none ∧ ∀ e ∈ s.queue, forward e = none := by
  obtain ⟨⟨past, hpast, hhand⟩, hroom, -⟩ := h
  rw [hscript, List.append_nil] at hpast
  constructor
  · cases hh : s.hand with
    | none => rfl
    | some i =>
      obtain ⟨past', e, rfl, he⟩ := hhand i hh
      have hlt := hfol past' e s.queue (by rw [hpast]; simp) (by rw [he]; rfl)
      omega
  · intro e he
    by_contra hne
    obtain ⟨front, back, hq⟩ := List.append_of_mem he
    have hlt := hfol (past ++ front) e back (by rw [hpast, hq]; simp)
      (Option.isSome_iff_ne_none.2 hne)
    rw [hq, List.length_append, List.length_cons] at hroom
    omega

theorem KeepsUp.step (hfol : Followed forward c body) (h : KeepsUp forward c body ending s)
    (p : Party) : KeepsUp forward c body ending (step forward c d s p) := by
  have hidle := h.idle hfol
  obtain ⟨⟨past, hpast, hhand⟩, hroom, hphase⟩ := h
  obtain ⟨script, queue, hand, out, got⟩ := s
  dsimp only at hpast hhand hroom hphase hidle
  cases p with
  | sender =>
    rcases script with _ | ⟨e | k, script⟩
    · exact ⟨⟨past, hpast, hhand⟩, hroom, hphase⟩
    · unfold Relay.step
      dsimp only
      split_ifs with hq
      · refine ⟨⟨past, by simpa using hpast, hhand⟩, by simp; omega, ?_⟩
        obtain ⟨rest, hrest⟩ | ⟨before, sent, rest, -, hrest, -⟩ := hphase
        · cases rest with
          | nil => cases ending <;> cases hrest
          | cons a rest =>
            cases hrest
            exact .inl ⟨rest, rfl⟩
        · cases rest <;> cases hrest
      · exact ⟨⟨past, hpast, hhand⟩, hroom, hphase⟩
    · unfold Relay.step
      dsimp only
      split_ifs with ho
      · refine ⟨⟨past, hpast, hhand⟩, hroom, ?_⟩
        obtain ⟨rest, hrest⟩ | ⟨before, sent, rest, rfl, hrest, hnone, hqueue, hgot⟩ := hphase
        · cases rest with
          | cons a rest =>
            cases hrest
            exact .inl ⟨rest, rfl⟩
          | nil =>
            -- The first of the items at the end.
            cases ending with
            | nil => cases hrest
            | cons k' ending =>
              cases hrest
              obtain ⟨hnone, hqueue⟩ := hidle (by simp)
              exact .inr ⟨got ++ out, [k], ending, rfl, rfl, hnone, hqueue, by simp⟩
        · cases rest with
          | nil => cases hrest
          | cons k' rest =>
            cases hrest
            exact .inr ⟨before, sent ++ [k], rest, by simp, rfl, hnone, hqueue, by
              rw [← List.append_assoc, hgot]
              simp⟩
      · exact ⟨⟨past, hpast, hhand⟩, hroom, hphase⟩
  | relay =>
    rcases hand with _ | i
    · rcases queue with _ | ⟨e, queue⟩
      · exact ⟨⟨past, hpast, hhand⟩, hroom, hphase⟩
      · refine ⟨⟨past ++ [e], by simpa [Relay.step] using hpast, fun i hi => ⟨past, e, rfl, hi⟩⟩,
          by simp [Relay.step] at hroom ⊢; omega, ?_⟩
        obtain hrest | ⟨before, sent, rest, hending, hrest, -, hqueue, hgot⟩ := hphase
        · exact .inl hrest
        · exact .inr ⟨before, sent, rest, hending, hrest, hqueue e List.mem_cons_self,
            fun e' he' => hqueue e' (List.mem_cons_of_mem e he'), hgot⟩
    · unfold Relay.step
      dsimp only
      split_ifs with ho
      · refine ⟨⟨past, hpast, fun i hi => by cases hi⟩, hroom, ?_⟩
        obtain hrest | ⟨before, sent, rest, -, -, hnone, -⟩ := hphase
        · exact .inl hrest
        · cases hnone
      · exact ⟨⟨past, hpast, hhand⟩, hroom, hphase⟩
  | receiver =>
    rcases out with _ | ⟨x, out⟩
    · exact ⟨⟨past, hpast, hhand⟩, hroom, hphase⟩
    · refine ⟨⟨past, hpast, hhand⟩, hroom, ?_⟩
      obtain hrest | ⟨before, sent, rest, hending, hrest, hnone, hqueue, hgot⟩ := hphase
      · exact .inl hrest
      · exact .inr ⟨before, sent, rest, hending, hrest, hnone, hqueue, by
          simpa [Relay.step] using hgot⟩

/-- A relay that cannot fall behind delivers in order. -/
theorem inOrder_of_followed (hending : ending ≠ []) (hfol : Followed forward c body)
    (h : Runs forward c d { script := body ++ ending.map .direct } u) (hu : u.Complete) :
    InOrder forward body ending u.got := by
  have hkeeps : KeepsUp forward c body ending u := by
    refine h.invariant (fun _ p _ hs => hs.step hfol p) ⟨⟨[], ?_, ?_⟩, ?_, .inl ⟨body, rfl⟩⟩
    · simp
    · intro i hi
      cases hi
    · exact Nat.zero_le c
  obtain ⟨-, -, ⟨rest, hrest⟩ | ⟨before, sent, rest, rfl, hrest, -, -, hgot⟩⟩ := hkeeps
  · rw [hu.script] at hrest
    simp [hending] at hrest
  · rw [hu.script] at hrest
    obtain rfl : rest = [] := by simpa using hrest.symm
    rw [hu.out, List.append_nil] at hgot
    refine ⟨before, by simpa using hgot, ?_⟩
    have hl := lefts_got h hu
    rw [hgot] at hl
    simpa using hl

/-- An item that goes through the relay, in what is sent. -/
theorem exists_relay {pre post : List ε} {e : ε} : ∀ {body : List (Send ε κ)},
    relays body = pre ++ e :: post → ∃ front back, body = front ++ .relay e :: back ∧
      relays front = pre ∧ relays back = post := by
  intro body
  induction body generalizing pre with
  | nil =>
    intro h
    simp at h
  | cons a body ih =>
    intro h
    cases a with
    | direct k =>
      obtain ⟨front, back, rfl, hpre, hpost⟩ := ih h
      exact ⟨.direct k :: front, back, rfl, hpre, hpost⟩
    | relay e' =>
      rw [relays_relay] at h
      cases pre with
      | nil =>
        obtain ⟨rfl, rfl⟩ := List.cons.inj h
        exact ⟨[], body, rfl, rfl, rfl⟩
      | cons e'' pre =>
        obtain ⟨rfl, hbody⟩ := List.cons.inj h
        obtain ⟨front, back, rfl, rfl, hpost⟩ := ih hbody
        exact ⟨.relay e' :: front, back, rfl, rfl, hpost⟩

/-- A relay that can fall behind may deliver something last. -/
theorem exists_overtaken (ending : List κ) (hc : 0 < c) (hd : 0 < d) {pre post : List ε} {e : ε} {i : ι}
    (hbody : relays body = pre ++ e :: post) (he : forward e = some i) (hpost : post.length ≤ c) :
    ∃ u : State ε ι κ, Runs forward c d { script := body ++ ending.map .direct } u ∧ u.Complete ∧
      ∃ (front : List (ι ⊕ κ)) (is : List ι), u.got = front ++ (i :: is).map .inl := by
  obtain ⟨front, back, rfl, -, rfl⟩ := exists_relay hbody
  -- Everything before the item is sent and received at once.
  have hstart : Runs forward c d
      { script := front ++ .relay e :: (back ++ ending.map .direct) }
      { script := .relay e :: (back ++ ending.map .direct),
        got := [] ++ front.flatMap (delivered forward) } := runs_at_once _ hc hd front []
  -- The relay takes the item and waits, until the sender is done.
  have htake : Runs forward c d
      { script := .relay e :: (back ++ ending.map .direct),
        got := [] ++ front.flatMap (delivered forward) }
      { script := back ++ ending.map .direct, hand := some i,
        got := [] ++ front.flatMap (delivered forward) } :=
    (runs_push (by simpa using hc)).trans (.turn .relay (by simp [step, he]))
  have hahead : Runs forward c d
      { script := back ++ ending.map .direct ++ [], hand := some i,
        got := [] ++ front.flatMap (delivered forward) } _ :=
    runs_ahead [] i hd (back ++ ending.map .direct) [] _ (by simpa using hpost)
  rw [List.append_nil] at hahead
  have hall := hstart.trans (htake.trans (hahead.trans ((runs_forward hd).trans
    (runs_drain [] hd _ _))))
  refine ⟨_, by simpa using hall, ⟨rfl, rfl, rfl, rfl⟩,
    front.flatMap (delivered forward) ++
      (directs (back ++ ending.map (Send.direct : κ → Send ε κ))).map .inr,
    (relays back).filterMap forward, ?_⟩
  simp

/-- **When the end comes last**, whatever the order of turns. -/
theorem inOrder_iff (hc : 0 < c) (hd : 0 < d) (hending : ending ≠ []) :
    (∀ u : State ε ι κ, Runs forward c d { script := body ++ ending.map .direct } u → u.Complete →
      InOrder forward body ending u.got) ↔ Followed forward c body := by
  refine ⟨fun h pre e post hbody he => ?_, fun hfol u hu hcomplete =>
    inOrder_of_followed hending hfol hu hcomplete⟩
  by_contra hpost
  obtain ⟨i, hi⟩ := Option.isSome_iff_exists.1 he
  obtain ⟨u, hu, hcomplete, front, is, hgot⟩ :=
    exists_overtaken ending hc hd hbody hi (by omega)
  obtain ⟨before, hbefore, -⟩ := h u hu hcomplete
  -- The last thing that arrives has come through the relay, and has been sent directly.
  have hlast := congrArg List.getLast? (hgot.symm.trans hbefore)
  rw [List.getLast?_append_of_ne_nil _ (by simp), List.getLast?_append_of_ne_nil _ (by simpa),
    List.getLast?_map, List.getLast?_map] at hlast
  cases h1 : (i :: is).getLast? <;> cases h2 : ending.getLast? <;> simp_all

end Relay
