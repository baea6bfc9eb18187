import Mathlib

/-!
# Component paths

A path is a string whose components are separated by one character.  Code that
normalises a path keeps the components seen so far in a growing buffer: an
ordinary component is appended after a separator, and a parent component cuts
the buffer back to the previous separator.  The abstract state of such a loop
is the stack of components, and every buffer operation below is shown to be the
corresponding stack operation on the rendered string.
-/

namespace FacetOS.Paths

variable {α : Type*} [DecidableEq α]

/-! ## Splitting and rendering -/

variable (separator : α)

/-- The maximal runs of characters other than the separator, in order. -/
def components (input : List α) : List (List α) :=
  (input.splitOn separator).filter (fun part => !part.isEmpty)

/-- A buffer that starts with `lead` and holds the components of `stack`. -/
def rendered (lead : List α) (stack : List (List α)) : List α :=
  lead ++ [separator].intercalate stack

/-- A component as a separator-delimited scan finds it. -/
def Component (part : List α) : Prop :=
  part ≠ [] ∧ separator ∉ part

@[simp]
theorem components_nil : components separator [] = [] := by
  simp [components]

@[simp]
theorem components_separator_cons (rest : List α) :
    components separator (separator :: rest) = components separator rest := by
  simp [components, List.splitOn_cons_eq_if_modifyHead]

/-- A separator cuts a path into two parts that are split independently. -/
theorem components_append_separator (left right : List α) :
    components separator (left ++ separator :: right)
      = components separator left ++ components separator right := by
  simp [components, List.splitOn_append_cons_self]

variable {separator c dot : α} {part input : List α} {stack parts : List (List α)}

theorem components_of_component
    (hpart : Component separator part) : components separator part = [part] := by
  have hsplit : part.splitOn separator = [part] := List.splitOn_eq_singleton hpart.2
  simp [components, hsplit, hpart.1]

/-- Leading separators do not matter. -/
theorem components_dropWhile (separator : α) (input : List α) :
    components separator (input.dropWhile (fun c => c = separator)) =
      components separator input := by
  induction input with
  | nil => rfl
  | cons first rest ih =>
    by_cases hfirst : first = separator
    · rw [List.dropWhile_cons_of_pos (by simpa using hfirst), ih, hfirst,
        components_separator_cons]
    · rw [List.dropWhile_cons_of_neg (by simpa using hfirst)]

/-- A scan up to the next separator finds the first component. -/
theorem components_takeWhile (hfound : input.takeWhile (fun c => c ≠ separator) ≠ []) :
    components separator input = input.takeWhile (fun c => c ≠ separator) ::
      components separator (input.dropWhile (fun c => c ≠ separator)) := by
  have hpart : Component separator (input.takeWhile (fun c => c ≠ separator)) := by
    refine ⟨hfound, fun hmem => ?_⟩
    simpa using List.mem_takeWhile_imp hmem
  have hsplit := (List.takeWhile_append_dropWhile (p := fun c => c ≠ separator) (l := input)).symm
  cases hrest : input.dropWhile (fun c => c ≠ separator) with
  | nil =>
    rw [hrest, List.append_nil] at hsplit
    conv_lhs => rw [hsplit]
    rw [components_of_component hpart, components_nil]
  | cons first rest =>
    have hfirst : first = separator := by
      have hhead := List.head?_dropWhile_not (fun c => decide (c ≠ separator)) input
      rw [hrest] at hhead
      simpa using hhead
    rw [hrest, hfirst] at hsplit
    conv_lhs => rw [hsplit]
    rw [components_append_separator, components_of_component hpart, hfirst,
      components_separator_cons, List.singleton_append]

theorem not_mem_of_mem_splitOn (hpart : part ∈ input.splitOn separator) : separator ∉ part := by
  induction input generalizing part with
  | nil =>
    simp only [List.splitOn_nil, List.mem_singleton] at hpart
    simp [hpart]
  | cons head tail ih =>
    rw [List.splitOn_cons_eq_if_modifyHead] at hpart
    split at hpart
    · cases List.mem_cons.mp hpart with
      | inl hempty => simp [hempty]
      | inr htail => exact ih htail
    · rename_i hhead
      obtain ⟨first, rest, hsplit⟩ :=
        List.exists_cons_of_ne_nil (List.splitOn_ne_nil separator tail)
      rw [hsplit, List.modifyHead_cons] at hpart
      cases List.mem_cons.mp hpart with
      | inl hfirst =>
        have hmem : first ∈ tail.splitOn separator := by simp [hsplit]
        have hne : separator ≠ head := fun heq => hhead (by simp [heq])
        simp [hfirst, hne, ih hmem]
      | inr hrest => exact ih (by simp [hsplit, hrest])

theorem component_of_mem_components
    (hpart : part ∈ components separator input) : Component separator part := by
  simp only [components, List.mem_filter, Bool.not_eq_eq_eq_not, Bool.not_true,
    List.isEmpty_eq_false_iff] at hpart
  exact ⟨hpart.2, not_mem_of_mem_splitOn hpart.1⟩

/-- Rendering loses nothing: the components of a rendered stack are the stack. -/
theorem components_intercalate (hstack : ∀ part ∈ stack, Component separator part) :
    components separator ([separator].intercalate stack) = stack := by
  by_cases hempty : stack = []
  · simp [hempty]
  · have hsplit := List.splitOn_intercalate separator
      (fun part hpart => (hstack part hpart).2) hempty
    rw [components, hsplit, List.filter_eq_self]
    intro part hpart
    simpa using (hstack part hpart).1

omit [DecidableEq α] in
theorem mem_intercalate
    (hmem : c ∈ [separator].intercalate stack) : c = separator ∨ ∃ part ∈ stack, c ∈ part := by
  induction stack with
  | nil => simp at hmem
  | cons first rest ih =>
    cases rest with
    | nil =>
      rw [List.intercalate_singleton] at hmem
      exact .inr ⟨first, List.mem_cons_self, hmem⟩
    | cons second rest =>
      rw [List.intercalate_cons_cons, List.mem_append, List.mem_append,
        List.mem_singleton] at hmem
      rcases hmem with (hfirst | hseparator) | hlater
      · exact .inr ⟨first, List.mem_cons_self, hfirst⟩
      · exact .inl hseparator
      · cases ih hlater with
        | inl hseparator => exact .inl hseparator
        | inr hpart =>
          obtain ⟨part, hpart, hc⟩ := hpart
          exact .inr ⟨part, List.mem_cons_of_mem _ hpart, hc⟩

omit [DecidableEq α] in
theorem mem_intercalate_of_mem
    (hpart : part ∈ stack) (hc : c ∈ part) : c ∈ [separator].intercalate stack := by
  obtain ⟨before, after, rfl⟩ := List.append_of_mem hpart
  induction before with
  | nil =>
    cases after with
    | nil => simpa using hc
    | cons second rest => simp [List.intercalate_cons_cons, hc]
  | cons first before ih =>
    rw [List.cons_append, List.intercalate_cons_of_ne_nil (by simp)]
    exact List.mem_append_right _ (ih (by simp))

theorem mem_of_mem_components
    (hpart : part ∈ components separator input) (hc : c ∈ part) : c ∈ input := by
  have hsplit : c ∈ [separator].intercalate (input.splitOn separator) :=
    mem_intercalate_of_mem (List.mem_of_mem_filter hpart) hc
  rwa [List.intercalate_splitOn] at hsplit

omit [DecidableEq α] in
theorem intercalate_concat (separator : α) (stack : List (List α)) (part : List α) :
    [separator].intercalate (stack ++ [part])
      = [separator].intercalate stack ++ (if stack = [] then [] else [separator]) ++ part := by
  induction stack with
  | nil => simp
  | cons first rest ih =>
    cases rest with
    | nil => simp [List.intercalate_cons_cons]
    | cons second rest =>
      rw [List.cons_append, List.cons_append, List.intercalate_cons_cons,
        ← List.cons_append, ih, List.intercalate_cons_cons]
      simp

omit [DecidableEq α] in
theorem rendered_concat (separator : α) (lead : List α) (stack : List (List α)) (part : List α) :
    rendered separator lead (stack ++ [part])
      = rendered separator lead stack ++ (if stack = [] then [] else [separator]) ++ part := by
  simp [rendered, intercalate_concat]

omit [DecidableEq α] in
theorem length_rendered_eq_lead_iff {lead : List α} (hstack : ∀ part ∈ stack, part ≠ []) :
    (rendered separator lead stack).length = lead.length ↔ stack = [] := by
  constructor
  · intro hlength
    by_contra hne
    obtain ⟨first, rest, rfl⟩ := List.exists_cons_of_ne_nil hne
    have hfirst : first ≠ [] := hstack first (by simp)
    have hpositive : 0 < first.length := List.length_pos_iff.mpr hfirst
    cases rest with
    | nil =>
      simp only [rendered, List.intercalate_singleton, List.length_append] at hlength
      omega
    | cons second rest =>
      simp only [rendered, List.intercalate_cons_cons, List.length_append] at hlength
      omega
  · rintro rfl
    simp [rendered]

/-! ## Buffer operations -/

/-- Cut a buffer back to the separator before its last component, without ever
going below the first `floor` characters. -/
def retreat (separator : α) (floor : ℕ) (buffer : List α) : List α :=
  let kept := buffer.take floor ++ (buffer.drop floor).rdropWhile (fun c => c ≠ separator)
  if floor < kept.length then kept.dropLast else kept

/-- Append a component, after a separator unless the buffer holds only its
first `floor` characters. -/
def advance (separator : α) (floor : ℕ) (buffer part : List α) : List α :=
  (if buffer.length = floor then buffer else buffer ++ [separator]) ++ part

theorem length_retreat_le (separator : α) (floor : ℕ) (buffer : List α) :
    (retreat separator floor buffer).length ≤ buffer.length := by
  have hdrop : ((buffer.drop floor).rdropWhile (fun c => c ≠ separator)).length
      ≤ (buffer.drop floor).length := (List.rdropWhile_prefix _ _).length_le
  rw [List.length_drop] at hdrop
  unfold retreat
  dsimp only
  split <;> simp only [List.length_dropLast, List.length_append, List.length_take] <;> omega

omit [DecidableEq α] in
theorem length_advance (separator : α) (floor : ℕ) (buffer part : List α) :
    (advance separator floor buffer part).length
      = buffer.length + (if buffer.length = floor then 0 else 1) + part.length := by
  unfold advance
  split_ifs
  · rw [List.length_append, Nat.add_zero]
  · rw [List.length_append, List.length_append, List.length_singleton]

theorem rdropWhile_append_component (hpart : separator ∉ part) (left : List α) :
    (left ++ part).rdropWhile (fun c => c ≠ separator)
      = left.rdropWhile (fun c => c ≠ separator) := by
  induction part using List.reverseRecOn with
  | nil => simp
  | append_singleton start last ih =>
    simp only [List.mem_append, List.mem_singleton, not_or] at hpart
    rw [← List.append_assoc, List.rdropWhile_concat_pos]
    · exact ih hpart.1
    · simpa using Ne.symm hpart.2

/-- On a rendered stack, cutting back removes the last component. -/
theorem retreat_rendered (lead : List α) (hstack : ∀ part ∈ stack, Component separator part) :
    retreat separator lead.length (rendered separator lead stack)
      = rendered separator lead stack.dropLast := by
  induction stack using List.reverseRecOn with
  | nil => simp [retreat, rendered]
  | append_singleton start last ih =>
    have hlast : Component separator last := hstack last (by simp)
    have hdrop : ([separator].intercalate (start ++ [last])).rdropWhile (fun c => c ≠ separator)
        = [separator].intercalate start ++ (if start = [] then [] else [separator]) := by
      rw [intercalate_concat, rdropWhile_append_component hlast.2]
      by_cases hempty : start = []
      · simp [hempty]
      · rw [if_neg hempty, List.rdropWhile_concat_neg]
        simp
    simp only [retreat, rendered, List.take_left', List.drop_left', hdrop,
      List.dropLast_concat]
    by_cases hempty : start = [] <;> simp [hempty]

omit [DecidableEq α] in
/-- On a rendered stack, appending pushes the component. -/
theorem advance_rendered (lead : List α) (hstack : ∀ part ∈ stack, part ≠ []) (part : List α) :
    advance separator lead.length (rendered separator lead stack) part
      = rendered separator lead (stack ++ [part]) := by
  rw [rendered_concat, advance]
  by_cases hempty : stack = []
  · simp [hempty, rendered]
  · have hlength : (rendered separator lead stack).length ≠ lead.length :=
      fun heq => hempty ((length_rendered_eq_lead_iff hstack).mp heq)
    simp [hempty, hlength]

/-! ## Walking

One dot stays where it is, two dots go to the parent and the root is its own
parent; every other component goes one level down. -/

/-- Where one component leads from a directory given by its component stack. -/
def enter (dot : α) (stack : List (List α)) (part : List α) : List (List α) :=
  if part = [dot] then stack
  else if part = [dot, dot] then stack.dropLast
  else stack ++ [part]

def walk (dot : α) (stack parts : List (List α)) : List (List α) :=
  parts.foldl (enter dot) stack

/-- A component that names an entry rather than a direction. -/
def Name (separator dot : α) (part : List α) : Prop :=
  Component separator part ∧ part ≠ [dot] ∧ part ≠ [dot, dot]

@[simp]
theorem walk_nil (dot : α) (stack : List (List α)) : walk dot stack [] = stack := rfl

theorem walk_cons (dot : α) (stack : List (List α)) (part : List α) (parts : List (List α)) :
    walk dot stack (part :: parts) = walk dot (enter dot stack part) parts := rfl

theorem walk_append (dot : α) (stack left right : List (List α)) :
    walk dot stack (left ++ right) = walk dot (walk dot stack left) right :=
  List.foldl_append

/-- Walking along names pushes them one after the other. -/
theorem walk_names (stack : List (List α)) (hparts : ∀ part ∈ parts, Name separator dot part) :
    walk dot stack parts = stack ++ parts := by
  induction parts generalizing stack with
  | nil => simp
  | cons part parts ih =>
    have hpart := hparts part (by simp)
    rw [walk_cons, ih _ (fun other hother => hparts other (by simp [hother]))]
    simp [enter, hpart.2.1, hpart.2.2]

theorem enter_names
    (hstack : ∀ name ∈ stack, Name separator dot name) (hpart : Component separator part) :
    ∀ name ∈ enter dot stack part, Name separator dot name := by
  intro name hname
  unfold enter at hname
  split at hname
  · exact hstack name hname
  rename_i hdot
  split at hname
  · exact hstack name (List.mem_of_mem_dropLast hname)
  · rename_i hparent
    cases List.mem_append.mp hname with
    | inl hold => exact hstack name hold
    | inr hnew =>
      rw [List.mem_singleton.mp hnew]
      exact ⟨hpart, hdot, hparent⟩

/-- Whatever is walked, only names are left on the stack. -/
theorem names_walk (hstack : ∀ name ∈ stack, Name separator dot name)
    (hparts : ∀ part ∈ parts, Component separator part) :
    ∀ name ∈ walk dot stack parts, Name separator dot name := by
  induction parts generalizing stack with
  | nil => exact hstack
  | cons part parts ih =>
    rw [walk_cons]
    exact ih (enter_names hstack (hparts part (by simp)))
      (fun other hother => hparts other (by simp [hother]))

theorem mem_walk {name : List α}
    (hname : name ∈ walk dot stack parts) : name ∈ stack ∨ name ∈ parts := by
  induction parts generalizing stack with
  | nil => exact .inl hname
  | cons part parts ih =>
    rw [walk_cons] at hname
    cases ih hname with
    | inr hlater => exact .inr (List.mem_cons_of_mem _ hlater)
    | inl hentered =>
      unfold enter at hentered
      split at hentered
      · exact .inl hentered
      · split at hentered
        · exact .inl (List.mem_of_mem_dropLast hentered)
        · cases List.mem_append.mp hentered with
          | inl hold => exact .inl hold
          | inr hnew => exact .inr (List.mem_singleton.mp hnew ▸ List.mem_cons_self)

/-! ## Normalising loops -/

/-- The body of a normalising loop on a buffer whose first `floor` characters
are never cut. -/
def normalizeStep (separator dot : α) (floor : ℕ) (buffer part : List α) : List α :=
  if part = [dot] then buffer
  else if part = [dot, dot] then retreat separator floor buffer
  else advance separator floor buffer part

/-- One round of the loop is one step of the walk. -/
theorem normalizeStep_rendered (lead : List α)
    (hstack : ∀ part ∈ stack, Component separator part) (part : List α) :
    normalizeStep separator dot lead.length (rendered separator lead stack) part
      = rendered separator lead (enter dot stack part) := by
  unfold normalizeStep enter
  split
  · rfl
  · split
    · exact retreat_rendered lead hstack
    · exact advance_rendered lead (fun other hother => (hstack other hother).1) part

/-- The whole loop computes the rendered walk. -/
theorem foldl_normalizeStep_rendered (lead : List α)
    (hstack : ∀ name ∈ stack, Name separator dot name)
    (hparts : ∀ part ∈ parts, Component separator part) :
    parts.foldl (normalizeStep separator dot lead.length) (rendered separator lead stack)
      = rendered separator lead (walk dot stack parts) := by
  induction parts generalizing stack with
  | nil => rfl
  | cons part parts ih =>
    rw [List.foldl_cons, walk_cons,
      normalizeStep_rendered lead (fun other hother => (hstack other hother).1)]
    exact ih (enter_names hstack (hparts part (by simp)))
      (fun other hother => hparts other (by simp [hother]))

end FacetOS.Paths
