import Mathlib

/-!
# Programs that read registers

A program is either done or reads one register and goes on with the value it finds
there.  Run over a register file it has a result and a list of the registers it has
read, and nothing but these registers can influence either.
-/

namespace FacetOS.Reading

/-- A program that reads registers one after the other. -/
inductive Program (Value α : Type) where
  | done (result : α)
  | read (index : ℕ) (next : Value → Program Value α)

variable {Value α β : Type}

namespace Program

/-- The result over a register file. -/
def run (registers : ℕ → Value) : Program Value α → α
  | .done result => result
  | .read index next => run registers (next (registers index))

/-- The registers that the program reads, in this order. -/
def reads (registers : ℕ → Value) : Program Value α → List ℕ
  | .done _ => []
  | .read index next => index :: reads registers (next (registers index))

def bind (program : Program Value α) (next : α → Program Value β) : Program Value β :=
  match program with
  | .done result => next result
  | .read index later => .read index fun value => bind (later value) next

instance : Monad (Program Value) where
  pure := .done
  bind := bind

variable (registers : ℕ → Value)

@[simp]
theorem run_pure (result : α) : run registers (pure result : Program Value α) = result := rfl

@[simp]
theorem reads_pure (result : α) : reads registers (pure result : Program Value α) = [] := rfl

@[simp]
theorem run_bind (program : Program Value α) (next : α → Program Value β) :
    run registers (program >>= next) = run registers (next (run registers program)) := by
  change run registers (bind program next) = _
  induction program with
  | done result => rfl
  | read index later ih => exact ih (registers index)

@[simp]
theorem reads_bind (program : Program Value α) (next : α → Program Value β) :
    reads registers (program >>= next) =
      reads registers program ++ reads registers (next (run registers program)) := by
  change reads registers (bind program next) = _
  induction program with
  | done result => rfl
  | read index later ih => exact congrArg (index :: ·) (ih (registers index))

@[simp]
theorem run_ite (condition : Prop) [Decidable condition] (first second : Program Value α) :
    run registers (if condition then first else second) =
      if condition then run registers first else run registers second :=
  apply_ite _ _ _ _

@[simp]
theorem reads_ite (condition : Prop) [Decidable condition] (first second : Program Value α) :
    reads registers (if condition then first else second) =
      if condition then reads registers first else reads registers second :=
  apply_ite _ _ _ _

end Program

/-! ## Reading registers -/

/-- Read one register. -/
def getRegister (index : ℕ) : Program Value Value := .read index .done

/-- Read `count` registers from `base` on. -/
def getRegisters (base : ℕ) : ℕ → Program Value (List Value)
  | 0 => pure []
  | count + 1 => do
      let value ← getRegister base
      let values ← getRegisters (base + 1) count
      return value :: values

variable (registers : ℕ → Value)

@[simp]
theorem run_getRegister (index : ℕ) : (getRegister index).run registers = registers index := rfl

@[simp]
theorem reads_getRegister (index : ℕ) : (getRegister index).reads registers = [index] := rfl

/-- Go on with the value of a register.  As a rewrite rule for tests on this value the
two lemmas keep the decision procedure of the test as it is written. -/
theorem run_getRegister_bind (index : ℕ) (next : Value → Program Value α) :
    (getRegister index >>= next).run registers = (next (registers index)).run registers := rfl

theorem reads_getRegister_bind (index : ℕ) (next : Value → Program Value α) :
    (getRegister index >>= next).reads registers =
      index :: (next (registers index)).reads registers := rfl

@[simp]
theorem run_getRegisters (base count : ℕ) :
    (getRegisters base count).run registers =
      (List.range' base count).map registers := by
  induction count generalizing base with
  | zero => rfl
  | succ count ih => simp [getRegisters, ih, List.range'_succ]

@[simp]
theorem reads_getRegisters (base count : ℕ) :
    (getRegisters base count).reads registers = List.range' base count := by
  induction count generalizing base with
  | zero => rfl
  | succ count ih => simp [getRegisters, ih, List.range'_succ]

end FacetOS.Reading
