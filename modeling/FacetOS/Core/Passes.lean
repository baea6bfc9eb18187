import Mathlib

/-!
# Checking passes over a table

A pass goes over the rows of a table once, looks at each row and at the rows it
has finished, and either fails or puts an updated row in its place.  What every
single step guarantees then holds of each row of the result and the rows before
it.
-/

namespace FacetOS.Passes

variable {Failure α β γ : Type}

theorem bind_eq_ok {first : Except Failure α} {second : α → Except Failure β} {value : β} :
    (first >>= second) = .ok value ↔ ∃ middle, first = .ok middle ∧ second middle = .ok value := by
  cases first <;> simp [bind, Except.bind]

theorem map_eq_ok {first : Except Failure α} {f : α → β} {value : β} :
    first.map f = .ok value ↔ ∃ middle, first = .ok middle ∧ f middle = value := by
  cases first <;> simp [Except.map]

variable {condition : Prop} {failure : Failure} {update : List β → α → Except Failure β}
  {done result : List β} {rows : List α}

theorem ite_error_eq_ok [Decidable condition] {rest : Except Failure α} {value : α} :
    (if condition then .error failure else rest) = .ok value ↔ ¬condition ∧ rest = .ok value := by
  by_cases hcondition : condition <;> simp [hcondition]

/-- Fail if the condition holds. -/
def reject (condition : Prop) [Decidable condition] (failure : Failure) : Except Failure Unit :=
  if condition then .error failure else .ok ()

theorem reject_eq_ok [Decidable condition] {nothing : Unit} :
    reject condition failure = .ok nothing ↔ ¬condition := by
  by_cases hcondition : condition <;> simp [reject, hcondition]

theorem reject_eq_error [Decidable condition] {other : Failure} :
    reject condition failure = .error other ↔ condition ∧ failure = other := by
  by_cases hcondition : condition <;> simp [reject, hcondition]

/-- Fail if the value is missing. -/
def required (value : Option α) (failure : Failure) : Except Failure α :=
  match value with
  | some value => .ok value
  | none => .error failure

theorem required_eq_ok {value : Option α} {result : α} :
    required value failure = .ok result ↔ value = some result := by
  cases value <;> simp [required]

/-- The loop: `done` holds the finished rows. -/
def mapEach (update : List β → α → Except Failure β) : List β → List α → Except Failure (List β)
  | done, [] => .ok done
  | done, row :: rows => do
      let updated ← update done row
      mapEach update (done ++ [updated]) rows

theorem mapEach_cons {row : α} (hpass : mapEach update done (row :: rows) = .ok result) :
    ∃ updated, update done row = .ok updated
      ∧ mapEach update (done ++ [updated]) rows = .ok result :=
  bind_eq_ok.mp hpass

section

variable (hpass : mapEach update done rows = .ok result)
include hpass

theorem mapEach_isPrefix : done <+: result := by
  induction rows generalizing done with
  | nil => exact Except.ok.inj hpass ▸ List.prefix_refl _
  | cons row rows ih =>
    obtain ⟨updated, -, hrest⟩ := mapEach_cons hpass
    exact (List.prefix_append done [updated]).trans (ih hrest)

/-- Every row of the result comes from a step that saw the rows before it. -/
theorem mapEach_row {before after : List β} {row : β} (hsplit : result = before ++ row :: after)
    (hlength : done.length ≤ before.length) :
    ∃ original ∈ rows, update before original = .ok row := by
  induction rows generalizing done with
  | nil =>
    have hdone : done = before ++ row :: after := (Except.ok.inj hpass).trans hsplit
    rw [hdone, List.length_append, List.length_cons] at hlength
    omega
  | cons first rows ih =>
    obtain ⟨updated, hfirst, hrest⟩ := mapEach_cons hpass
    by_cases hlonger : (done ++ [updated]).length ≤ before.length
    · obtain ⟨original, hmem, hrow⟩ := ih hrest hlonger
      exact ⟨original, List.mem_cons_of_mem _ hmem, hrow⟩
    have hequal : done.length = before.length := by
      rw [List.length_append, List.length_singleton] at hlonger
      omega
    obtain ⟨tail, htail⟩ := mapEach_isPrefix hrest
    rw [hsplit, List.append_assoc, List.singleton_append] at htail
    obtain ⟨rfl, hrow⟩ := List.append_inj htail hequal
    obtain ⟨rfl, -⟩ := List.cons.inj hrow
    exact ⟨first, List.mem_cons_self, hfirst⟩

/-- A step that fixes some view of the row lets the pass fix the table's. -/
theorem map_mapEach {view : β → γ} {source : α → γ}
    (hview : ∀ done row updated, update done row = .ok updated → view updated = source row) :
    result.map view = done.map view ++ rows.map source := by
  induction rows generalizing done with
  | nil => simp [← Except.ok.inj hpass]
  | cons row rows ih =>
    obtain ⟨updated, hrow, hrest⟩ := mapEach_cons hpass
    rw [ih hrest]
    simp [hview done row updated hrow]

end

/-- A pass that only checks leaves the table alone. -/
theorem mapEach_eq {update : List α → α → Except Failure α} {result : List α}
    (hpass : mapEach update [] rows = .ok result)
    (hcheck : ∀ done row updated, update done row = .ok updated → updated = row) :
    result = rows := by
  have hmap : result.map id = List.map id [] ++ rows.map id := map_mapEach hpass hcheck
  simpa using hmap

/-- A row of a pass over a whole table comes from one of its steps. -/
theorem mapEach_mem (hpass : mapEach update [] rows = .ok result) {row : β} (hrow : row ∈ result) :
    ∃ before original, original ∈ rows ∧ update before original = .ok row := by
  obtain ⟨before, after, hsplit⟩ := List.append_of_mem hrow
  obtain ⟨original, hmem, hstep⟩ := mapEach_row hpass hsplit (Nat.zero_le _)
  exact ⟨before, original, hmem, hstep⟩

/-- Rows none of whose items is one of a row before them have distinct items. -/
theorem nodup_flatMap_of_fresh {items : β → List γ} {rows : List β}
    (hfresh : ∀ before row after, rows = before ++ row :: after →
      (items row).Nodup ∧ ∀ item ∈ before.flatMap items, item ∉ items row) :
    (rows.flatMap items).Nodup := by
  induction rows using List.reverseRecOn with
  | nil => simp
  | append_singleton rows last ih =>
    have hrows : ∀ before row after, rows = before ++ row :: after →
        (items row).Nodup ∧ ∀ item ∈ before.flatMap items, item ∉ items row := by
      intro before row after hsplit
      exact hfresh before row (after ++ [last]) (by simp [hsplit])
    obtain ⟨hlast, hdisjoint⟩ := hfresh rows last [] rfl
    rw [List.flatMap_append, List.flatMap_singleton, List.nodup_append]
    refine ⟨ih hrows, hlast, ?_⟩
    intro left hleft right hright heq
    exact hdisjoint left hleft (heq ▸ hright)

/-- Rows whose key differs from that of every row before them have distinct keys. -/
theorem nodup_map_of_fresh {key : β → γ} {rows : List β}
    (hfresh : ∀ before row after, rows = before ++ row :: after →
      ∀ other ∈ before, key other ≠ key row) : (rows.map key).Nodup := by
  rw [List.map_eq_flatMap]
  refine nodup_flatMap_of_fresh fun before row after hsplit => ⟨List.nodup_singleton _, ?_⟩
  intro item hitem hrow
  rw [← List.map_eq_flatMap] at hitem
  obtain ⟨other, hother, rfl⟩ := List.mem_map.mp hitem
  exact hfresh before row after hsplit other hother (List.mem_singleton.mp hrow)

/-- A pass whose steps refuse a key that is taken leaves distinct keys. -/
theorem mapEach_nodup (hpass : mapEach update [] rows = .ok result) {key : β → γ}
    (hfresh : ∀ done row updated, update done row = .ok updated →
      ∀ other ∈ done, key other ≠ key updated) : (result.map key).Nodup := by
  refine nodup_map_of_fresh (fun before row after hsplit => ?_)
  obtain ⟨original, -, hstep⟩ := mapEach_row hpass hsplit (Nat.zero_le _)
  exact hfresh before original row hstep

theorem forM_ok {check : α → Except Failure Unit}
    (hpass : rows.forM check = .ok ()) : ∀ row ∈ rows, check row = .ok () := by
  induction rows with
  | nil => simp
  | cons row rows ih =>
    obtain ⟨checked, hrow, hrest⟩ := bind_eq_ok.mp hpass
    exact List.forall_mem_cons.mpr ⟨hrow, ih hrest⟩

/-- What every step of a fold keeps, the fold keeps. -/
theorem foldlM_keeps {step : β → α → Except Failure β} {property : β → Prop} {start result : β}
    (hstep : ∀ row ∈ rows, ∀ before after, property before → step before row = .ok after →
      property after)
    (hstart : property start) (hfold : rows.foldlM step start = .ok result) : property result := by
  induction rows generalizing start with
  | nil =>
    rw [← Except.ok.inj hfold]
    exact hstart
  | cons row rows ih =>
    rw [List.foldlM_cons] at hfold
    obtain ⟨middle, hrow, hrest⟩ := bind_eq_ok.mp hfold
    exact ih (fun other hother => hstep other (List.mem_cons_of_mem _ hother))
      (hstep row List.mem_cons_self start middle hstart hrow) hrest

theorem foldlM_step {step : β → α → Except Failure β} {start result : β} {rows : List α}
    (hpass : rows.foldlM step start = .ok result) {row : α} (hrow : row ∈ rows) :
    ∃ before after, step before row = .ok after := by
  induction rows generalizing start with
  | nil => cases hrow
  | cons first rest ih =>
    rw [List.foldlM_cons, bind_eq_ok] at hpass
    obtain ⟨middle, hfirst, hrest⟩ := hpass
    rcases List.mem_cons.mp hrow with rfl | hlater
    · exact ⟨start, middle, hfirst⟩
    · exact ih hrest hlater

theorem mapM_mem {update : α → Except Failure β}
    (hpass : rows.mapM update = .ok result) :
    ∀ value ∈ result, ∃ row ∈ rows, update row = .ok value := by
  induction rows generalizing result with
  | nil =>
    obtain rfl := Except.ok.inj hpass
    simp
  | cons row rows ih =>
    rw [List.mapM_cons] at hpass
    obtain ⟨first, hfirst, hrest⟩ := bind_eq_ok.mp hpass
    obtain ⟨others, hothers, hresult⟩ := bind_eq_ok.mp hrest
    obtain rfl := Except.ok.inj hresult
    intro value hvalue
    cases List.mem_cons.mp hvalue with
    | inl hhead => exact ⟨row, List.mem_cons_self, hhead ▸ hfirst⟩
    | inr htail =>
      obtain ⟨other, hother, hupdate⟩ := ih hothers value htail
      exact ⟨other, List.mem_cons_of_mem _ hother, hupdate⟩

end FacetOS.Passes
