import Mathlib

/-!
# Live handles

A table of handles records what every live handle stands for and which handles
have been released.  Handles are numbered in the order of their creation, and a
number is never used again, so a released handle stays dead.

Some calls acquire a handle for each of several sources and, when one of them
cannot be had, give back those they already have.
-/

namespace FacetOS

/-- The live handles with what they stand for, and the log of releases. -/
structure HandleTable (Entry : Type*) where
  next : ℕ
  entry : ℕ → Option Entry
  released : List ℕ
  fresh : ∀ id, next ≤ id → entry id = none
  released_lt : ∀ id ∈ released, id < next
  unreleased : ∀ id, entry id ≠ none → id ∉ released

namespace HandleTable

variable {Entry Source : Type*}
variable {id : ℕ} {table before : HandleTable Entry} {ids done : List ℕ}

/-- No handle was ever made. -/
def empty : HandleTable Entry where
  next := 0
  entry := fun _ => none
  released := []
  fresh := fun _ _ => rfl
  released_lt := List.forall_mem_nil _
  unreleased := fun _ hne => absurd rfl hne

def Live (table : HandleTable Entry) (id : ℕ) : Prop :=
  (table.entry id).isSome = true

instance (table : HandleTable Entry) (id : ℕ) : Decidable (table.Live id) :=
  inferInstanceAs (Decidable (_ = _))

theorem lt_next_of_live (hlive : table.Live id) :
    id < table.next := by
  by_contra hlt
  rw [Live, table.fresh id (not_lt.mp hlt)] at hlive
  contradiction

variable (table)

/-- A new handle; its number is the next one. -/
def create (value : Entry) : HandleTable Entry where
  next := table.next + 1
  entry := Function.update table.entry table.next (some value)
  released := table.released
  fresh := by
    intro id hid
    rw [Function.update_of_ne (by omega)]
    exact table.fresh id (by omega)
  released_lt := fun id hid => (table.released_lt id hid).trans (Nat.lt_succ_self _)
  unreleased := by
    intro id hne hreleased
    have hlt := table.released_lt id hreleased
    rw [Function.update_of_ne (by omega)] at hne
    exact table.unreleased id hne hreleased

/-- The end of a handle.  Every release of a handle that was made is logged, a
second one as well. -/
def release (id : ℕ) : HandleTable Entry :=
  if hid : id < table.next then
    { next := table.next
      entry := Function.update table.entry id none
      released := id :: table.released
      fresh := by
        intro other hother
        rw [Function.update_of_ne (by omega)]
        exact table.fresh other hother
      released_lt := List.forall_mem_cons.mpr ⟨hid, table.released_lt⟩
      unreleased := by
        intro other hne
        have hother : other ≠ id := fun heq => hne (heq ▸ Function.update_self _ _ _)
        rw [Function.update_of_ne hother] at hne
        exact List.not_mem_cons_of_ne_of_not_mem hother (table.unreleased other hne) }
  else table

def releaseAll (ids : List ℕ) : HandleTable Entry :=
  ids.foldl release table

/-- How often a handle was released. -/
def releases (id : ℕ) : ℕ :=
  table.released.count id

/-! ## One operation -/

@[simp]
theorem next_create (value : Entry) : (table.create value).next = table.next + 1 := rfl

@[simp]
theorem entry_create_self (value : Entry) : (table.create value).entry table.next = some value :=
  Function.update_self _ _ _

theorem entry_create_of_ne (value : Entry) (hid : id ≠ table.next) :
    (table.create value).entry id = table.entry id :=
  Function.update_of_ne hid _ _

@[simp]
theorem next_release (id : ℕ) : (table.release id).next = table.next := by
  unfold release
  split <;> rfl

theorem entry_release_of_ne {other : ℕ} (hne : other ≠ id) :
    (table.release id).entry other = table.entry other := by
  unfold release
  split
  · exact Function.update_of_ne hne _ _
  · rfl

@[simp]
theorem entry_release_self (id : ℕ) : (table.release id).entry id = none := by
  unfold release
  split
  · exact Function.update_self _ _ _
  · rename_i hid
    exact table.fresh id (not_lt.mp hid)

theorem releases_release_of_ne {other : ℕ} (hne : other ≠ id) :
    (table.release id).releases other = table.releases other := by
  unfold release
  split
  · exact List.count_cons_of_ne (Ne.symm hne)
  · rfl

variable {table}

/-- A live handle has not been released before. -/
theorem releases_of_live (hlive : table.Live id) :
    table.releases id = 0 := by
  apply List.count_eq_zero_of_not_mem
  apply table.unreleased
  intro hnone
  rw [Live, hnone] at hlive
  contradiction

theorem releases_release_of_lt (hid : id < table.next) :
    (table.release id).releases id = table.releases id + 1 := by
  unfold release
  rw [dif_pos hid]
  exact List.count_cons_self

theorem releases_release_self (hlive : table.Live id) :
    (table.release id).releases id = 1 := by
  rw [releases_release_of_lt (lt_next_of_live hlive), releases_of_live hlive]

/-! ## Releasing several handles -/

variable (table)

@[simp]
theorem next_releaseAll (ids : List ℕ) : (table.releaseAll ids).next = table.next := by
  induction ids generalizing table with
  | nil => rfl
  | cons id ids ih => exact (ih (table.release id)).trans (next_release table id)

theorem entry_releaseAll_of_not_mem (hid : id ∉ ids) :
    (table.releaseAll ids).entry id = table.entry id := by
  induction ids generalizing table with
  | nil => rfl
  | cons first rest ih =>
    simp only [List.mem_cons, not_or] at hid
    exact (ih (table.release first) hid.2).trans (entry_release_of_ne table hid.1)

theorem releases_releaseAll_of_not_mem (hid : id ∉ ids) :
    (table.releaseAll ids).releases id = table.releases id := by
  induction ids generalizing table with
  | nil => rfl
  | cons first rest ih =>
    simp only [List.mem_cons, not_or] at hid
    exact (ih (table.release first) hid.2).trans (releases_release_of_ne table hid.1)

theorem entry_releaseAll_of_mem (hid : id ∈ ids) : (table.releaseAll ids).entry id = none := by
  induction ids generalizing table with
  | nil => exact absurd hid List.not_mem_nil
  | cons first rest ih =>
    by_cases hrest : id ∈ rest
    · exact ih (table.release first) hrest
    · obtain rfl : id = first := (List.mem_cons.mp hid).resolve_right hrest
      exact (entry_releaseAll_of_not_mem _ hrest).trans (entry_release_self table id)

variable {table}

/-- Distinct live handles are each released once. -/
theorem releases_releaseAll_of_mem (hnodup : ids.Nodup) (hlive : ∀ id ∈ ids, table.Live id)
    (hid : id ∈ ids) :
    (table.releaseAll ids).releases id = 1 := by
  induction ids generalizing table with
  | nil => exact absurd hid List.not_mem_nil
  | cons first rest ih =>
    obtain ⟨hfirst, hrest⟩ := List.nodup_cons.mp hnodup
    cases List.mem_cons.mp hid with
    | inl heq =>
      subst heq
      exact (releases_releaseAll_of_not_mem _ hfirst).trans
        (releases_release_self (hlive id List.mem_cons_self))
    | inr hmem =>
      refine ih hrest ?_ hmem
      intro other hother
      have hne : other ≠ first := fun heq => hfirst (heq ▸ hother)
      rw [Live, entry_release_of_ne table hne]
      exact hlive other (List.mem_cons_of_mem _ hother)

/-! ## Acquiring several handles -/

/-- A handle for every source in turn.  When the entry for one cannot be had, the
handles in `done`, which were acquired before, are released. -/
def acquireAll (acquire : ℕ → Source → HandleTable Entry → Option Entry) :
    List ℕ → List Source → HandleTable Entry → Option (List ℕ) × HandleTable Entry
  | done, [], table => (some done, table)
  | done, source :: rest, table =>
    match acquire done.length source table with
    | none => (none, table.releaseAll done)
    | some value => acquireAll acquire (done ++ [table.next]) rest (table.create value)

/-- What acquisition does to a table: handles that existed before are untouched,
and of the new ones exactly those it returns live on, the others having been
released once. -/
structure Acquired (before after : HandleTable Entry) (handles : List ℕ) : Prop where
  next_le : before.next ≤ after.next
  entry_old : ∀ id < before.next, after.entry id = before.entry id
  releases_old : ∀ id < before.next, after.releases id = before.releases id
  handles_new : ∀ id ∈ handles, before.next ≤ id
  live_new : ∀ id, before.next ≤ id → (after.Live id ↔ id ∈ handles)
  released_new : ∀ id, before.next ≤ id → id < after.next → id ∉ handles →
    after.releases id = 1

theorem Acquired.of_releaseAll (hacquired : Acquired before table done) (hnodup : done.Nodup) :
    Acquired before (table.releaseAll done) [] := by
  have hold : ∀ id < before.next, id ∉ done := by
    intro id hid hmem
    have hle := hacquired.handles_new id hmem
    omega
  refine ⟨?_, ?_, ?_, List.forall_mem_nil _, ?_, ?_⟩
  · rw [next_releaseAll]
    exact hacquired.next_le
  · intro id hid
    rw [entry_releaseAll_of_not_mem _ (hold id hid)]
    exact hacquired.entry_old id hid
  · intro id hid
    rw [releases_releaseAll_of_not_mem _ (hold id hid)]
    exact hacquired.releases_old id hid
  · intro id hid
    simp only [List.not_mem_nil, iff_false]
    by_cases hmem : id ∈ done
    · rw [Live, entry_releaseAll_of_mem _ hmem]
      simp
    · rw [Live, entry_releaseAll_of_not_mem _ hmem]
      exact fun hlive => hmem ((hacquired.live_new id hid).mp hlive)
  · intro id hid hlt _
    by_cases hmem : id ∈ done
    · apply releases_releaseAll_of_mem hnodup _ hmem
      intro other hother
      exact (hacquired.live_new other (hacquired.handles_new other hother)).mpr hother
    · rw [releases_releaseAll_of_not_mem _ hmem]
      rw [next_releaseAll] at hlt
      exact hacquired.released_new id hid hlt hmem

theorem Acquired.create (hacquired : Acquired before table done) (value : Entry) :
    Acquired before (table.create value) (done ++ [table.next]) := by
  have hnext := hacquired.next_le
  refine ⟨?_, ?_, ?_, ?_, ?_, ?_⟩
  · rw [next_create]
    omega
  · intro id hid
    rw [entry_create_of_ne _ _ (by omega)]
    exact hacquired.entry_old id hid
  · exact hacquired.releases_old
  · exact List.forall_mem_append.mpr
      ⟨hacquired.handles_new, List.forall_mem_singleton.mpr hnext⟩
  · intro id hid
    rw [List.mem_append, List.mem_singleton]
    by_cases heq : id = table.next
    · simp [heq, Live]
    · have hsame : (table.create value).Live id ↔ table.Live id := by
        rw [Live, Live, entry_create_of_ne _ _ heq]
      rw [hsame, hacquired.live_new id hid]
      simp [heq]
  · intro id hid hlt hmem
    rw [List.mem_append, List.mem_singleton, not_or] at hmem
    rw [next_create] at hlt
    exact hacquired.released_new id hid (by omega) hmem.1

theorem Acquired.refl (table : HandleTable Entry) : Acquired table table [] := by
  refine ⟨le_rfl, fun _ _ => rfl, fun _ _ => rfl, List.forall_mem_nil _, ?_, ?_⟩
  · intro id hid
    simp [Live, table.fresh id hid]
  · intro id hid hlt
    omega

/-- Whether acquisition succeeds or not, the handles it returns are the only new
live ones. -/
theorem acquired_acquireAll (acquire : ℕ → Source → HandleTable Entry → Option Entry)
    (sources : List Source) (hacquired : Acquired before table done) (hnodup : done.Nodup) :
    Acquired before (acquireAll acquire done sources table).2
      ((acquireAll acquire done sources table).1.getD []) := by
  induction sources generalizing done table with
  | nil => exact hacquired
  | cons source rest ih =>
    unfold acquireAll
    cases acquire done.length source table with
    | none => exact hacquired.of_releaseAll hnodup
    | some value =>
      apply ih (hacquired.create value)
      rw [List.nodup_append_comm]
      refine List.nodup_cons.mpr ⟨?_, hnodup⟩
      intro hmem
      have hlive := (hacquired.live_new _ (hacquired.handles_new _ hmem)).mpr hmem
      exact lt_irrefl _ (lt_next_of_live hlive)

end HandleTable

end FacetOS
