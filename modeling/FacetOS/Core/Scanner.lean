import Mathlib

/-!
# Scanners

A scanner consumes a state and either fails or returns a value and the state
behind it.  Facts about a scanner are facts about each of its successful runs,
and they compose along the sequence of its parts.
-/

namespace FacetOS.Scanner

variable {State Failure α β : Type}

/-- Every successful run relates the state before, the value and the state
after. -/
def Yields (scanner : StateT State (Except Failure) α) (relation : State → α → State → Prop) :
    Prop :=
  ∀ ⦃before value after⦄, scanner before = .ok (value, after) → relation before value after

variable {scanner : StateT State (Except Failure) α}

theorem Yields.mono {strong weak : State → α → State → Prop} (hscanner : Yields scanner strong)
    (himplies : ∀ before value after, strong before value after → weak before value after) :
    Yields scanner weak :=
  fun _ _ _ hrun => himplies _ _ _ (hscanner hrun)

variable {relation : State → α → State → Prop}

theorem yields_pure {value : α} (hvalue : ∀ state, relation state value state) :
    Yields (pure value : StateT State (Except Failure) α) relation := by
  intro before result after hrun
  obtain ⟨rfl, rfl⟩ := Prod.mk.inj (Except.ok.inj hrun)
  exact hvalue _

theorem yields_throw (failure : Failure) (relation : State → α → State → Prop) :
    Yields (throw failure : StateT State (Except Failure) α) relation := by
  intro before value after hrun
  cases hrun

variable {second : α → StateT State (Except Failure) β} {property : α → Prop}
  {first : StateT State (Except Failure) α}

theorem bind_eq_ok {before after : State} {value : β} :
    (first >>= second) before = .ok (value, after)
      ↔ ∃ middle state, first before = .ok (middle, state)
        ∧ second middle state = .ok (value, after) := by
  change (first before >>= fun result => second result.1 result.2) = .ok (value, after) ↔ _
  cases first before with
  | error failure => simp [bind, Except.bind]
  | ok result =>
    obtain ⟨middle, state⟩ := result
    simp [bind, Except.bind]

theorem Yields.ite {condition : Prop} [Decidable condition]
    {left right : StateT State (Except Failure) α}
    (hleft : condition → Yields left relation) (hright : ¬condition → Yields right relation) :
    Yields (if condition then left else right) relation := by
  by_cases hcondition : condition
  · rw [if_pos hcondition]
    exact hleft hcondition
  · rw [if_neg hcondition]
    exact hright hcondition

/-! ## Returned values -/

/-- Every successful run returns a value with this property. -/
def Returns (scanner : StateT State (Except Failure) α) (property : α → Prop) : Prop :=
  Yields scanner (fun _ value _ => property value)

theorem returns_pure {value : α} (hvalue : property value) :
    Returns (pure value : StateT State (Except Failure) α) property :=
  yields_pure (fun _ => hvalue)

theorem returns_true (scanner : StateT State (Except Failure) α) :
    Returns scanner (fun _ => True) :=
  fun _ _ _ _ => trivial

/-- The rule for sequences: what the first part returns is known in the second. -/
theorem Returns.bind {left : α → Prop} {property : β → Prop} (hfirst : Returns first left)
    (hsecond : ∀ middle, left middle → Returns (second middle) property) :
    Returns (first >>= second) property := by
  intro before value after hrun
  obtain ⟨middle, state, hleft, hright⟩ := bind_eq_ok.mp hrun
  exact hsecond middle (hfirst hleft) hright

theorem returns_bind {property : β → Prop} (hsecond : ∀ middle, Returns (second middle) property) :
    Returns (first >>= second) property := by
  intro before value after hrun
  obtain ⟨middle, state, -, hright⟩ := bind_eq_ok.mp hrun
  exact hsecond middle hright

theorem Returns.ite {condition : Prop} [Decidable condition]
    {left right : StateT State (Except Failure) α}
    (hleft : condition → Returns left property) (hright : ¬condition → Returns right property) :
    Returns (if condition then left else right) property :=
  Yields.ite hleft hright

theorem Returns.map {f : α → β} {image : β → Prop} (hscanner : Returns scanner property)
    (himage : ∀ value, property value → image (f value)) : Returns (f <$> scanner) image := by
  rw [← bind_pure_comp]
  exact hscanner.bind (fun value hvalue => returns_pure (himage value hvalue))

theorem returns_lift {result : Except Failure α}
    (hresult : ∀ value, result = .ok value → property value) :
    Returns (liftM result : StateT State (Except Failure) α) property := by
  intro before value after hrun
  cases result with
  | error failure => cases hrun
  | ok value =>
    obtain ⟨rfl, -⟩ := Prod.mk.inj (Except.ok.inj hrun)
    exact hresult _ rfl

/-! ## Consumption -/

section Consumption

variable {size : State → ℕ} {count : ℕ}
  {second : α → StateT State (Except Failure) β}

/-- Every successful run takes at least `count` from the input that is left. -/
class Consumes (size : State → ℕ) (count : ℕ) (scanner : StateT State (Except Failure) α) :
    Prop where
  yields : Yields scanner (fun before _ after => size after + count ≤ size before)

instance consumes_pure (value : α) :
    Consumes size 0 (pure value : StateT State (Except Failure) α) :=
  ⟨yields_pure (fun _ => le_refl _)⟩

instance consumes_throw (failure : Failure) :
    Consumes size count (throw failure : StateT State (Except Failure) α) :=
  ⟨yields_throw _ _⟩

instance consumes_get : Consumes size 0 (get : StateT State (Except Failure) State) :=
  ⟨fun _ _ _ hrun => (Prod.mk.inj (Except.ok.inj hrun)).2 ▸ le_refl _⟩

theorem consumes_modify {update : State → State}
    (hupdate : ∀ state, size (update state) ≤ size state) :
    Consumes size 0 (modify update : StateT State (Except Failure) PUnit) :=
  ⟨fun before _ _ hrun => (Prod.mk.inj (Except.ok.inj hrun)).2 ▸ hupdate before⟩

/-- A computation that does not see the state leaves it. -/
instance consumes_lift (result : Except Failure α) :
    Consumes size 0 (liftM result : StateT State (Except Failure) α) := by
  refine ⟨fun before value after hrun => ?_⟩
  cases result with
  | error failure => cases hrun
  | ok value => exact (Prod.mk.inj (Except.ok.inj hrun)).2 ▸ le_refl _

theorem Consumes.weaken (hfirst : Consumes size count first) : Consumes size 0 first :=
  ⟨hfirst.yields.mono (fun _ _ _ hsize => by omega)⟩

/-- A sequence takes as much as its second part does. -/
theorem Consumes.bind_second [hfirst : Consumes size 0 first]
    (hsecond : ∀ middle, Consumes size count (second middle)) :
    Consumes size count (first >>= second) := by
  refine ⟨fun before value after hrun => ?_⟩
  obtain ⟨middle, state, hleft, hright⟩ := bind_eq_ok.mp hrun
  have hbegin := hfirst.yields hleft
  have hend := (hsecond middle).yields hright
  omega

/-- A sequence takes as much as its first part does. -/
instance Consumes.bind_first [hfirst : Consumes size count first]
    [hsecond : ∀ middle, Consumes size 0 (second middle)] :
    Consumes size count (first >>= second) := by
  refine ⟨fun before value after hrun => ?_⟩
  obtain ⟨middle, state, hleft, hright⟩ := bind_eq_ok.mp hrun
  have hbegin := hfirst.yields hleft
  have hend := (hsecond middle).yields hright
  omega

instance Consumes.map [hfirst : Consumes size count first] (f : α → β) :
    Consumes size count (f <$> first) := by
  rw [← bind_pure_comp]
  infer_instance

instance Consumes.ite {condition : Prop} [Decidable condition]
    {left right : StateT State (Except Failure) α} [hleft : Consumes size count left]
    [hright : Consumes size count right] :
    Consumes size count (if condition then left else right) :=
  ⟨Yields.ite (fun _ => hleft.yields) (fun _ => hright.yields)⟩

end Consumption

end FacetOS.Scanner
