import Mathlib

/-!
# Register files

A bank of registers that is filled by a list of writes.  What a reader finds in
a register is the last value written to it, or whatever stood there before.
-/

namespace FacetOS.Registers

variable {Value : Type*}

/-- The register file after a list of writes, performed from left to right over
the values `stale` that stood in the registers before. -/
def applyWrites (writes : List (ℕ × Value)) (stale : ℕ → Value) : ℕ → Value :=
  writes.foldl (fun file write => Function.update file write.1 write.2) stale

/-- Writes of consecutive values, starting at register `base`. -/
def blockWrites : ℕ → List Value → List (ℕ × Value)
  | _, [] => []
  | base, value :: values => (base, value) :: blockWrites (base + 1) values

theorem applyWrites_append (first second : List (ℕ × Value)) (stale : ℕ → Value) :
    applyWrites (first ++ second) stale =
      applyWrites second (applyWrites first stale) := by
  simp [applyWrites, List.foldl_append]

/-- A register that no write mentions keeps its value. -/
theorem applyWrites_of_forall_ne {writes : List (ℕ × Value)} {index : ℕ}
    (hne : ∀ write ∈ writes, write.1 ≠ index) (stale : ℕ → Value) :
    applyWrites writes stale index = stale index := by
  induction writes generalizing stale with
  | nil => rfl
  | cons write writes ih =>
    have hhead : write.1 ≠ index := hne write List.mem_cons_self
    have htail := ih (fun other hother => hne other (List.mem_cons_of_mem _ hother))
      (Function.update stale write.1 write.2)
    change applyWrites writes (Function.update stale write.1 write.2) index = _
    rw [htail, Function.update_of_ne hhead.symm]

/-- What one register shows depends on nothing but its own earlier value. -/
theorem applyWrites_congr {left right : ℕ → Value} {index : ℕ}
    (heq : left index = right index) (writes : List (ℕ × Value)) :
    applyWrites writes left index = applyWrites writes right index := by
  induction writes generalizing left right with
  | nil => exact heq
  | cons write writes ih =>
    apply ih
    by_cases hindex : index = write.1
    · subst hindex
      simp
    · simp [Function.update_of_ne hindex, heq]

/-- Writes to disjoint sets of registers may be made in either order. -/
theorem applyWrites_comm (first second : List (ℕ × Value))
    (hdisjoint : ∀ left ∈ first, ∀ right ∈ second, left.1 ≠ right.1)
    (stale : ℕ → Value) :
    applyWrites (first ++ second) stale = applyWrites (second ++ first) stale := by
  funext index
  rw [applyWrites_append, applyWrites_append]
  by_cases hsecond : ∃ write ∈ second, write.1 = index
  · obtain ⟨write, hwrite, rfl⟩ := hsecond
    have hfirst : ∀ other ∈ first, other.1 ≠ write.1 := fun other hother =>
      hdisjoint other hother write hwrite
    rw [applyWrites_of_forall_ne hfirst (applyWrites second stale)]
    exact applyWrites_congr (applyWrites_of_forall_ne hfirst stale) second
  · have hne : ∀ write ∈ second, write.1 ≠ index := fun write hwrite heq =>
      hsecond ⟨write, hwrite, heq⟩
    rw [applyWrites_of_forall_ne hne (applyWrites first stale)]
    exact (applyWrites_congr (applyWrites_of_forall_ne hne stale) first).symm

variable {values : List Value}

/-- The registers a block writes are exactly its own interval. -/
theorem mem_blockWrites_bounds {base : ℕ} {write : ℕ × Value}
    (hmem : write ∈ blockWrites base values) :
    base ≤ write.1 ∧ write.1 < base + values.length := by
  induction values generalizing base with
  | nil => cases hmem
  | cons value values ih =>
    rcases List.mem_cons.mp hmem with rfl | htail
    · simp
    · have hbounds := ih htail
      simp only [List.length_cons]
      omega

theorem applyWrites_block_outside {base index : ℕ}
    (houtside : index < base ∨ base + values.length ≤ index) (stale : ℕ → Value) :
    applyWrites (blockWrites base values) stale index = stale index := by
  apply applyWrites_of_forall_ne
  intro write hwrite
  have hbounds := mem_blockWrites_bounds hwrite
  omega

/-- Inside its interval a block shows its values in order. -/
theorem applyWrites_block_inside (base : ℕ) {index : ℕ}
    {value : Value} (hvalue : values[index]? = some value) (stale : ℕ → Value) :
    applyWrites (blockWrites base values) stale (base + index) = value := by
  induction values generalizing base index stale with
  | nil => simp at hvalue
  | cons head values ih =>
    change applyWrites (blockWrites (base + 1) values)
      (Function.update stale base head) (base + index) = value
    cases index with
    | zero =>
      rw [applyWrites_block_outside (by omega)]
      simpa using hvalue
    | succ index =>
      rw [← Nat.add_assoc, Nat.add_right_comm]
      exact ih (base + 1) (by simpa using hvalue) _

end FacetOS.Registers
