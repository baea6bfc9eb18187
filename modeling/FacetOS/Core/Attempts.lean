import Mathlib

/-!
# Attempts

An attempt changes a state and may fail on the way; the state it has reached then
stays.  A successful run is a run of each of its parts in turn, and what every part
does to the state, whether it succeeds or fails, a sequence of parts does as well.
-/

namespace FacetOS.Attempts

variable {State Outer Failure Other α β : Type}

def Attempt (State Failure α : Type) : Type := State → Except Failure α × State

instance : Monad (Attempt State Failure) where
  pure value := fun state => (.ok value, state)
  bind first second := fun before =>
    match first before with
    | (.ok middle, state) => second middle state
    | (.error failure, state) => (.error failure, state)

/-! ## Building attempts -/

def ofExcept (result : Except Failure α) : Attempt State Failure α :=
  fun state => (result, state)

def ofOption (failure : Failure) (value : Option α) : Attempt State Failure α :=
  fun state => (value.elim (.error failure) .ok, state)

/-- Ask something of the state. -/
def query (answer : State → Except Failure α) : Attempt State Failure α :=
  fun state => (answer state, state)

/-- Report another failure. -/
def orFail (failure : Failure) (attempt : Attempt State Other α) : Attempt State Failure α :=
  fun state => ((attempt state).1.mapError (fun _ => failure), (attempt state).2)

/-- Report the failure in other terms. -/
def mapFailure (report : Other → Failure) (attempt : Attempt State Other α) :
    Attempt State Failure α :=
  fun state => ((attempt state).1.mapError report, (attempt state).2)

def modify (change : State → State) : Attempt State Failure Unit :=
  fun state => (.ok (), change state)

/-- Work on a part of the state. -/
def zoom (part : Outer → State) (replace : State → Outer → Outer)
    (attempt : Attempt State Failure α) : Attempt Outer Failure α :=
  fun state => ((attempt (part state)).1, replace (attempt (part state)).2 state)

variable {before after : State} {failure : Failure}

/-! ## Successful runs -/

variable {value : α} {first : Attempt State Failure α} {second : α → Attempt State Failure β}
  {attempt : Attempt State Other α} {report : Other → Failure}

theorem pure_eq_ok {result : α} :
    (pure value : Attempt State Failure α) before = (.ok result, after)
      ↔ value = result ∧ before = after := by
  constructor
  · intro hrun
    obtain ⟨hvalue, hstate⟩ := Prod.mk.inj hrun
    exact ⟨Except.ok.inj hvalue, hstate⟩
  · rintro ⟨rfl, rfl⟩
    rfl

theorem bind_eq (before : State) :
    (first >>= second) before
      = match first before with
        | (.ok middle, state) => second middle state
        | (.error failure, state) => (.error failure, state) := rfl

theorem bind_eq_ok {value : β} :
    (first >>= second) before = (.ok value, after)
      ↔ ∃ middle state, first before = (.ok middle, state)
        ∧ second middle state = (.ok value, after) := by
  rw [bind_eq]
  rcases first before with ⟨_ | _, state⟩ <;> simp

/-- A successful part goes on with the rest. -/
theorem ok_then {middle : α} {state : State} {result : Except Failure β × State}
    (hfirst : first before = (.ok middle, state)) (hsecond : second middle state = result) :
    (first >>= second) before = result := by
  rw [bind_eq, hfirst]
  exact hsecond

theorem ofExcept_eq_ok {result : Except Failure α} :
    (ofExcept result : Attempt State Failure α) before = (.ok value, after)
      ↔ result = .ok value ∧ before = after :=
  Prod.mk_inj

theorem ofOption_eq_ok {result : Option α} :
    (ofOption failure result : Attempt State Failure α) before = (.ok value, after)
      ↔ result = some value ∧ before = after := by
  cases result <;> simp [ofOption]

theorem query_eq_ok {answer : State → Except Failure α} :
    query answer before = (.ok value, after) ↔ answer before = .ok value ∧ before = after :=
  Prod.mk_inj

theorem orFail_eq_ok :
    orFail failure attempt before = (.ok value, after) ↔ attempt before = (.ok value, after) := by
  unfold orFail
  rcases attempt before with ⟨_ | _, state⟩ <;> simp [Except.mapError]

theorem mapFailure_eq_ok :
    mapFailure report attempt before = (.ok value, after)
      ↔ attempt before = (.ok value, after) := by
  unfold mapFailure
  rcases attempt before with ⟨_ | _, state⟩ <;> simp [Except.mapError]

theorem zoom_eq_ok {part : Outer → State} {replace : State → Outer → Outer}
    {attempt : Attempt State Failure α} {before after : Outer} :
    zoom part replace attempt before = (.ok value, after)
      ↔ ∃ state, attempt (part before) = (.ok value, state) ∧ replace state before = after := by
  unfold zoom
  cases attempt (part before)
  simp

/-! ## Failing runs -/

theorem ofOption_eq_error {other : Failure} {value : Option α} :
    (ofOption failure value : Attempt State Failure α) before = (.error other, after)
      ↔ value = none ∧ failure = other ∧ before = after := by
  cases value <;> simp [ofOption]

theorem mapFailure_eq_error :
    mapFailure report attempt before = (.error failure, after)
      ↔ ∃ inner, attempt before = (.error inner, after) ∧ report inner = failure := by
  unfold mapFailure
  rcases attempt before with ⟨_ | _, state⟩ <;> simp [Except.mapError, and_comm]

/-! ## What a run does to the state -/

/-- Every run, also one that fails, relates the state before to the state after. -/
def Moves (relation : State → State → Prop) (attempt : Attempt State Failure α) : Prop :=
  ∀ before, relation before (attempt before).2

theorem Moves.of_eq {relation : State → State → Prop} {attempt : Attempt State Failure α}
    (hmoves : Moves relation attempt) {result : Except Failure α}
    (hrun : attempt before = (result, after)) : relation before after := by
  have hrelated := hmoves before
  rwa [hrun] at hrelated

section Rules

variable {relation : State → State → Prop}

section Looking

variable [Std.Refl relation]

@[simp]
theorem moves_pure (value : α) : Moves relation (pure value : Attempt State Failure α) :=
  fun before => Std.Refl.refl before

@[simp]
theorem moves_ofExcept (result : Except Failure α) :
    Moves relation (ofExcept result : Attempt State Failure α) :=
  fun before => Std.Refl.refl before

@[simp]
theorem moves_ofOption (failure : Failure) (value : Option α) :
    Moves relation (ofOption failure value : Attempt State Failure α) :=
  fun before => Std.Refl.refl before

@[simp]
theorem moves_query (answer : State → Except Failure α) : Moves relation (query answer) :=
  fun before => Std.Refl.refl before

end Looking

@[simp]
theorem moves_orFail {failure : Failure} :
    Moves relation (orFail failure attempt) ↔ Moves relation attempt := .rfl

@[simp]
theorem moves_mapFailure :
    Moves relation (mapFailure report attempt) ↔ Moves relation attempt := .rfl

theorem Moves.bind [IsTrans State relation]
    (hfirst : Moves relation first) (hsecond : ∀ middle, Moves relation (second middle)) :
    Moves relation (first >>= second) := by
  intro before
  rw [bind_eq]
  rcases hrun : first before with ⟨failure | middle, state⟩
  · exact hfirst.of_eq hrun
  · exact IsTrans.trans _ _ _ (hfirst.of_eq hrun) (hsecond middle state)

theorem Moves.zoom {outer : Outer → Outer → Prop} {part : Outer → State}
    {replace : State → Outer → Outer} {attempt : Attempt State Failure α}
    (hmoves : Moves relation attempt)
    (hreplace : ∀ state before, relation (part before) state →
      outer before (replace state before)) :
    Moves outer (zoom part replace attempt) :=
  fun before => hreplace _ before (hmoves (part before))

end Rules

/-- A part that only looks at the state either ends the attempt where it began or hands its
answer on. -/
theorem after_bind {holds : State → Prop} (hlooks : Moves Eq first) (hbefore : holds before)
    (hsecond : ∀ middle, first before = (.ok middle, before) → holds (second middle before).2) :
    holds ((first >>= second) before).2 := by
  rw [bind_eq]
  rcases hrun : first before with ⟨failure | middle, state⟩
  all_goals obtain rfl := hlooks.of_eq hrun
  · exact hbefore
  · exact hsecond middle hrun

variable {motive : Except Failure β × State → Prop}

/-- A sequence ends where its first part fails, or goes on from where that part leads. -/
theorem bind_cases
    (herror : ∀ failure state, first before = (.error failure, state) → motive (.error failure,
      state))
    (hok : ∀ middle state, first before = (.ok middle, state) → motive (second middle state)) :
    motive ((first >>= second) before) := by
  rw [bind_eq]
  rcases hrun : first before with ⟨failure | middle, state⟩
  · exact herror failure state hrun
  · exact hok middle state hrun

/-- The same for a part that only looks at the state. -/
theorem look_cases (hlooks : Moves Eq first)
    (herror : ∀ failure, first before = (.error failure, before) → motive (.error failure, before))
    (hok : ∀ middle, first before = (.ok middle, before) → motive (second middle before)) :
    motive ((first >>= second) before) := by
  refine bind_cases (fun failure state hrun => ?_) (fun middle state hrun => ?_)
  · obtain rfl := hlooks.of_eq hrun
    exact herror failure hrun
  · obtain rfl := hlooks.of_eq hrun
    exact hok middle hrun

end FacetOS.Attempts
