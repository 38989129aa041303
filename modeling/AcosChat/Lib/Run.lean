import Mathlib.Data.List.Basic

/-!
# Runs

A system steps from state to state by actions. One step may be impossible, it does a list
of observable things, and it may be the last. A condition on states and actions restricts
the runs, so that what holds of every run that meets it is shown by one step lemma.
-/
namespace Run

variable {σ α ω : Type}

/-- What a step does, and the state after it unless it is the last. -/
abbrev Step (σ α ω : Type) := σ → α → Option (List ω × Option σ)

/-- The traces and states of the runs whose steps all meet a condition. -/
inductive Ran (step : Step σ α ω) (cond : σ → α → Prop) (start : σ) : List ω → σ → Prop
  | start : Ran step cond start [] start
  | step {trace : List ω} {s s' : σ} {action : α} {did : List ω} (before : Ran step cond start trace s)
      (met : cond s action) (taken : step s action = some (did, some s')) :
      Ran step cond start (trace ++ did) s'

variable {step : Step σ α ω} {cond : σ → α → Prop} {start : σ}

/-- What holds at the start and is kept by every step holds after every run. -/
theorem Ran.invariant {Inv : List ω → σ → Prop} (initial : Inv [] start)
    (kept : ∀ trace s action did s', Inv trace s → cond s action →
      step s action = some (did, some s') → Inv (trace ++ did) s')
    {trace : List ω} {s : σ} (ran : Ran step cond start trace s) : Inv trace s := by
  induction ran with
  | start => exact initial
  | step _ met taken ih => exact kept _ _ _ _ _ ih met taken

/-- The run along a list of actions. -/
def replay (step : Step σ α ω) (s : σ) : List α → Option (List ω × σ)
  | [] => some ([], s)
  | action :: actions =>
    match step s action with
    | some (did, some s') => (replay step s' actions).map fun (later, last) => (did ++ later, last)
    | _ => none

/-- The steps along a list of actions meet the condition, as far as they can be taken. -/
def Meets (step : Step σ α ω) (cond : σ → α → Prop) : σ → List α → Prop
  | _, [] => True
  | s, action :: actions => cond s action ∧
    match step s action with
    | some (_, some s') => Meets step cond s' actions
    | _ => True

instance decidableMeets [∀ s action, Decidable (cond s action)] :
    (s : σ) → (actions : List α) → Decidable (Meets step cond s actions)
  | _, [] => .isTrue trivial
  | s, action :: actions =>
    have : Decidable (match step s action with
        | some (_, some s') => Meets step cond s' actions
        | _ => True) :=
      match step s action with
      | some (_, some s') => decidableMeets s' actions
      | some (_, none) | none => .isTrue trivial
    inferInstanceAs (Decidable (_ ∧ _))

theorem meets_of_forall (all : ∀ s action, cond s action) (s : σ) (actions : List α) :
    Meets step cond s actions := by
  induction actions generalizing s with
  | nil => trivial
  | cons action actions ih =>
    refine ⟨all s action, ?_⟩
    split
    next s' _ => exact ih s'
    next => trivial

theorem Ran.append_replay {trace : List ω} {s : σ} (ran : Ran step cond start trace s)
    {actions : List α} (meets : Meets step cond s actions) {later : List ω} {last : σ}
    (replayed : replay step s actions = some (later, last)) :
    Ran step cond start (trace ++ later) last := by
  induction actions generalizing trace s later with
  | nil =>
    cases replayed
    rwa [List.append_nil]
  | cons action actions ih =>
    obtain ⟨met, rest⟩ := meets
    unfold replay at replayed
    split at replayed
    next did s' taken =>
      obtain ⟨⟨later', last'⟩, replayed, same⟩ := Option.map_eq_some_iff.mp replayed
      cases same
      rw [taken] at rest
      rw [← List.append_assoc]
      exact ih (ran.step met taken) rest replayed
    next => cases replayed

/-- A replayed list of actions that meet the condition is a run. -/
theorem ran_of_replay {actions : List α} (meets : Meets step cond start actions) {trace : List ω}
    {last : σ} (replayed : replay step start actions = some (trace, last)) :
    Ran step cond start trace last := by
  simpa using Ran.start.append_replay meets replayed

/-! ### Where a run can lead -/

/-- Some actions lead from one state to the other. -/
def Reaches (step : Step σ α ω) (s s' : σ) : Prop := ∃ actions trace, replay step s actions = some (trace, s')

theorem Reaches.refl (s : σ) : Reaches step s s := ⟨[], [], rfl⟩

theorem Reaches.head {s s' s'' : σ} {action : α} {did : List ω} (taken : step s action = some (did, some s'))
    (reaches : Reaches step s' s'') : Reaches step s s'' := by
  obtain ⟨actions, trace, replayed⟩ := reaches
  exact ⟨action :: actions, did ++ trace, by simp [replay, taken, replayed]⟩

/-- Where some step decreases a measure until the goal is met, the goal can be reached. -/
theorem reaches_of_measure {Inv Goal : σ → Prop} (measure : σ → Nat)
    (kept : ∀ s action did s', Inv s → step s action = some (did, some s') → Inv s')
    (progress : ∀ s, Inv s → ¬Goal s →
      ∃ action did s', step s action = some (did, some s') ∧ measure s' < measure s)
    {s : σ} (inv : Inv s) : ∃ s', Reaches step s s' ∧ Goal s' := by
  induction bound : measure s using Nat.strongRecOn generalizing s with
  | _ n ih =>
    by_cases met : Goal s
    · exact ⟨s, .refl s, met⟩
    · obtain ⟨action, did, s', taken, less⟩ := progress s inv met
      obtain ⟨last, reaches, goal⟩ := ih (measure s') (bound ▸ less) (kept s action did s' inv taken) rfl
      exact ⟨last, .head taken reaches, goal⟩

/-! ### What comes before -/

/-- Everything that is observed needs something of what was observed before it. -/
def Follows (need : List ω → ω → Prop) (trace : List ω) : Prop :=
  ∀ before sight after, trace = before ++ sight :: after → need before sight

variable {need : List ω → ω → Prop}

theorem follows_nil : Follows need [] := by
  intro before sight after same
  simp at same

theorem Follows.of_append {trace later : List ω} (follows : Follows need (trace ++ later)) :
    Follows need trace := by
  rintro before sight after rfl
  exact follows before sight (after ++ later) (by simp)

theorem follows_append_singleton (trace : List ω) (sight : ω) :
    Follows need (trace ++ [sight]) ↔ Follows need trace ∧ need trace sight := by
  constructor
  · intro follows
    refine ⟨?_, follows trace sight [] rfl⟩
    rintro before sight' after rfl
    exact follows before sight' (after ++ [sight]) (by simp)
  · rintro ⟨follows, last⟩ before sight' after same
    rcases List.eq_nil_or_concat after with rfl | ⟨front, back, rfl⟩
    · obtain ⟨rfl, ends⟩ := List.append_inj' same rfl
      cases ends
      exact last
    · rw [List.concat_eq_append, ← List.cons_append, ← List.append_assoc] at same
      obtain ⟨rfl, _⟩ := List.append_inj' same rfl
      exact follows before sight' front rfl

/-- What the trace has is enough, whatever else comes after it. -/
theorem Follows.append_of_before {trace did : List ω} (follows : Follows need trace)
    (met : ∀ sight ∈ did, ∀ later, need (trace ++ later) sight) : Follows need (trace ++ did) := by
  induction did generalizing trace with
  | nil => rwa [List.append_nil]
  | cons sight did ih =>
    have now := met sight List.mem_cons_self []
    rw [List.append_nil] at now
    have first := (follows_append_singleton trace sight).mpr ⟨follows, now⟩
    have rest : Follows need (trace ++ [sight] ++ did) := by
      apply ih first
      intro sight' member later
      rw [List.append_assoc]
      exact met sight' (List.mem_cons_of_mem _ member) _
    rwa [List.append_assoc, List.singleton_append] at rest

theorem Follows.mono {need' : List ω → ω → Prop} {trace : List ω} (follows : Follows need trace)
    (weaker : ∀ before sight, need before sight → need' before sight) : Follows need' trace :=
  fun before sight after same => weaker before sight (follows before sight after same)

/-- What needs nothing may come at any time. -/
theorem Follows.append {trace did : List ω} (follows : Follows need trace)
    (free : ∀ sight ∈ did, ∀ before, need before sight) : Follows need (trace ++ did) :=
  follows.append_of_before fun sight member _ => free sight member _

/-! ### Two runs -/

/-- A map of states, actions and sightings that takes steps to steps takes runs to runs. -/
theorem replay_map {σ' α' ω' : Type} {step' : Step σ' α' ω'} (state : σ → σ') (act : α → α')
    (see : ω → ω')
    (steps : ∀ s action did rest, step s action = some (did, rest) →
      step' (state s) (act action) = some (did.map see, rest.map state))
    {s last : σ} {actions : List α} {trace : List ω} (replayed : replay step s actions = some (trace, last)) :
    replay step' (state s) (actions.map act) = some (trace.map see, state last) := by
  induction actions generalizing s trace with
  | nil =>
    cases replayed
    rfl
  | cons action actions ih =>
    unfold replay at replayed
    split at replayed
    next did s' taken =>
      obtain ⟨⟨later, last'⟩, rest, same⟩ := Option.map_eq_some_iff.mp replayed
      cases same
      rw [List.map_cons, replay, steps s action did (some s') taken]
      simp only [Option.map_some, ih rest, List.map_append]
    next => cases replayed

/-- Two runs that such a map makes the same have the same trace after it. -/
theorem map_eq_of_replay {σ' α' ω' : Type} {step' : Step σ' α' ω'} (state : σ → σ') (act : α → α')
    (see : ω → ω')
    (steps : ∀ s action did rest, step s action = some (did, rest) →
      step' (state s) (act action) = some (did.map see, rest.map state))
    {s t s' t' : σ} {actions actions' : List α} {trace trace' : List ω} (starts : state s = state t)
    (acts : actions.map act = actions'.map act) (first : replay step s actions = some (trace, s'))
    (second : replay step t actions' = some (trace', t')) : trace.map see = trace'.map see := by
  have one := replay_map state act see steps first
  rw [starts, acts, replay_map state act see steps second] at one
  exact (congrArg Prod.fst (Option.some.inj one)).symm

/-! ### One of many -/

/-- A party in its place among the others, and the parties with another one there. -/
theorem split_of_getElem? {parties : List α} {i : Nat} {party : α} (there : parties[i]? = some party)
    (party' : α) :
    ∃ before after, parties = before ++ party :: after ∧
      parties.set i party' = before ++ party' :: after := by
  obtain ⟨inside, same⟩ := List.getElem?_eq_some_iff.mp there
  obtain ⟨before, after, split, _, set⟩ := @List.exists_of_set _ i party' parties inside
  rw [same] at split
  exact ⟨before, after, split, set⟩

end Run
