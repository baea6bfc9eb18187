import FacetOS.Config.Parser

/-!
# The parser makes progress

Every round of the parser's loop takes at least one byte, so a loop that may run
once more than the text is long never runs out of rounds.  That a part takes
nothing back follows from its own parts, and is left to instances.
-/

namespace FacetOS.Config

open Scanner

/-! ## The cursor -/

theorem rest_step (cursor : Cursor) : cursor.step.rest = cursor.rest.tail := by
  unfold Cursor.step
  split
  · rename_i hrest
    rw [hrest]
    rfl
  · rename_i first rest hrest
    rw [hrest]
    split <;> rfl

theorem size_step (cursor : Cursor) : cursor.step.size = cursor.size - 1 := by
  rw [Cursor.size, rest_step, List.length_tail]
  rfl

theorem size_iterate_step (count : ℕ) (cursor : Cursor) :
    (Cursor.step^[count] cursor).size = cursor.size - count := by
  induction count generalizing cursor with
  | zero => simp
  | succ count ih =>
    rw [Function.iterate_succ_apply, ih, size_step]
    omega

/-- A guard that lets a run pass was not needed, and changes nothing. -/
theorem refuse_yields (condition : Prop) [Decidable condition]
    (category : FacetConfigDiagnosticCategory) (context message : String) :
    Yields (refuse condition (fail category context message))
      (fun before _ after => ¬condition ∧ after = before) :=
  Yields.ite (fun _ _ _ _ hrun => nomatch hrun)
    (fun hcondition => yields_pure (fun _ => ⟨hcondition, rfl⟩))

/-- A byte that is taken is gone. -/
theorem take_yields : Yields take (fun before value after =>
    after.size + (if value = none then 0 else 1) ≤ before.size) := by
  intro before value after hrun
  obtain ⟨rfl, rfl⟩ := Prod.mk.inj (Except.ok.inj hrun)
  rw [size_step]
  unfold Cursor.size
  cases before.rest <;> simp

section Parts

variable {α : Type} {count : ℕ} {category : FacetConfigDiagnosticCategory}

instance {line column : ℕ} {context : List UInt8} {message : String} :
    Consumes Cursor.size count (failAt category line column context message : Lexer α) :=
  consumes_throw _

instance {context message : String} :
    Consumes Cursor.size count (fail category context message : Lexer α) :=
  .bind_second (fun _ => inferInstance)

instance {condition : Prop} [Decidable condition] {failure : Lexer Unit}
    [Consumes Cursor.size 0 failure] : Consumes Cursor.size 0 (refuse condition failure) :=
  .ite

instance : Consumes Cursor.size 0 current := .bind_first

instance : Consumes Cursor.size 0 take :=
  ⟨take_yields.mono (fun _ _ _ hsize => by omega)⟩

instance : Consumes Cursor.size 0 (skipBytes count) :=
  consumes_modify (fun cursor => by
    rw [size_iterate_step]
    omega)

instance : Consumes Cursor.size 0 countEntry := consumes_modify (fun _ => le_refl _)

instance {line column : ℕ} {context : List UInt8} :
    Consumes Cursor.size 0 (consumeEntry line column context) := .bind_first

instance {allowNewline : Bool} : Consumes Cursor.size 0 (skipSpaceAndComments allowNewline) :=
  .bind_first

/-! ## Strings and keys -/

instance {digits scalar : ℕ} : Consumes Cursor.size 0 (hexScalar digits scalar) := by
  induction digits generalizing scalar with
  | zero => exact consumes_pure _
  | succ digits ih =>
    refine .bind_second (fun c => ?_)
    split <;> infer_instance

instance : Consumes Cursor.size 0 parseEscape := by
  refine .bind_second (fun c => ?_)
  split
  · infer_instance
  · have hsimple : ∀ c, Consumes Cursor.size 0 (match simpleEscape c with
        | none => fail .syntaxError "string" "invalid string escape"
        | some scalar => pure scalar : Lexer ℕ) := by
      intro c
      split <;> infer_instance
    infer_instance

instance {buffer : List UInt8} {scalar : ℕ} : Consumes Cursor.size 0 (appendUtf8 buffer scalar) :=
  .bind_first

instance {buffer : List UInt8} {raw : UInt8} :
    Consumes Cursor.size 0 (appendRawByte buffer raw) := .bind_first

instance {quote c : UInt8} {buffer : List UInt8} :
    Consumes Cursor.size 0 (quotedCharacter quote c buffer) := .bind_first

instance {quote : UInt8} {fuel : ℕ} {buffer : List UInt8} :
    Consumes Cursor.size 0 (quotedLoop quote fuel buffer) := by
  induction fuel generalizing buffer with
  | zero => exact consumes_pure _
  | succ fuel ih =>
    refine .bind_second (fun c => ?_)
    split <;> infer_instance

/-- The closing quote, at least, is taken. -/
theorem consumes_parseQuotedString (quote : UInt8) :
    Consumes Cursor.size 1 (parseQuotedString quote) := by
  refine .bind_second (fun _ => .bind_second (fun cursor => .bind_second (fun buffer => ⟨?_⟩)))
  intro before value after hrun
  obtain ⟨close, state, htake, hrun⟩ := bind_eq_ok.mp hrun
  obtain ⟨nothing, last, hrefuse, hpure⟩ := bind_eq_ok.mp hrun
  obtain ⟨hclose, rfl⟩ := refuse_yields _ _ _ _ hrefuse
  obtain ⟨-, rfl⟩ := Prod.mk.inj (Except.ok.inj hpure)
  have hsize := take_yields htake
  rwa [not_not.mp hclose, if_neg (by simp)] at hsize

theorem consumes_parseBareKey : Consumes Cursor.size 1 parseBareKey := by
  refine ⟨fun before value after hrun => ?_⟩
  obtain ⟨cursor, state, hget, hrun⟩ := bind_eq_ok.mp hrun
  obtain ⟨rfl, rfl⟩ := Prod.mk.inj (Except.ok.inj hget)
  obtain ⟨nothing, skipped, hskip, hrun⟩ := bind_eq_ok.mp hrun
  obtain ⟨-, rfl⟩ := Prod.mk.inj (Except.ok.inj hskip)
  obtain ⟨nothing, state, hempty, hrun⟩ := bind_eq_ok.mp hrun
  obtain ⟨hne, rfl⟩ := refuse_yields _ _ _ _ hempty
  obtain ⟨nothing, state, hlong, hpure⟩ := bind_eq_ok.mp hrun
  obtain ⟨-, rfl⟩ := refuse_yields _ _ _ _ hlong
  obtain ⟨-, rfl⟩ := Prod.mk.inj (Except.ok.inj hpure)
  have hkey := (List.takeWhile_prefix bareKeyCharacter (l := before.rest)).length_le
  have hpositive := List.length_pos_iff.mpr hne
  rw [size_iterate_step]
  unfold Cursor.size
  omega

instance consumes_parseKey : Consumes Cursor.size 1 parseKey := by
  have hquoted := consumes_parseQuotedString
  have hbare := consumes_parseBareKey
  exact .bind_second (fun _ => inferInstance)

instance {quote : UInt8} : Consumes Cursor.size 0 (parseQuotedString quote) :=
  (consumes_parseQuotedString quote).weaken

instance : Consumes Cursor.size 0 parseKey := consumes_parseKey.weaken

/-! ## Values -/

instance {limit fuel magnitude : ℕ} :
    Consumes Cursor.size 0 (digitLoop limit fuel magnitude) := by
  induction fuel generalizing magnitude with
  | zero => exact consumes_pure _
  | succ fuel ih =>
    refine .bind_second (fun c => ?_)
    split <;> infer_instance

instance : Consumes Cursor.size 0 parseSign := .bind_first

instance : Consumes Cursor.size 0 parseInteger := .bind_first

section Nested

variable {item : Lexer Value} [Consumes Cursor.size 0 item]

instance {room : ℕ} {items : List Value} :
    Consumes Cursor.size 0 (arrayLoop item room items) := by
  induction room generalizing items with
  | zero => exact .bind_first
  | succ room ih =>
    iterate 3 refine .bind_second (fun _ => ?_)
    infer_instance

instance : Consumes Cursor.size 0 (parseArray item) := .bind_first

instance : Consumes Cursor.size 0 (parseTableEntry item) := by
  iterate 3 refine .bind_second (fun _ => ?_)
  infer_instance

instance {room : ℕ} {entries : List (TableKey × Value)} :
    Consumes Cursor.size 0 (tableLoop item room entries) := by
  induction room generalizing entries with
  | zero => exact .bind_first
  | succ room ih => exact .bind_first

instance : Consumes Cursor.size 0 (parseInlineTable item) := .bind_first

end Nested

instance {levels : ℕ} : Consumes Cursor.size 0 (parseValue levels) := by
  induction levels with
  | zero => exact inferInstanceAs (Consumes Cursor.size 0 (fail _ _ _))
  | succ levels ih => exact .bind_first

/-! ## Lines -/

instance : Consumes Cursor.size 1 headerName := by
  iterate 5 refine .bind_second (fun _ => ?_)
  exact .bind_first

instance {records : List α} [Inhabited α] : Consumes Cursor.size 0 (growArray records) :=
  .bind_first

instance {parser : Parser} {array : Bool} {name : TableKey} :
    Consumes Cursor.size 0 (openTable parser array name) := .ite

instance {parser : Parser} : Consumes Cursor.size 1 (parseHeader parser) := .bind_first

instance {parser : Parser} : Consumes Cursor.size 1 (parseAssignment parser) := by
  refine .bind_second (fun start => ?_)
  apply +allowSynthFailures Consumes.bind_first
  intro key
  iterate 3 refine .bind_second (fun _ => ?_)
  infer_instance

instance : Consumes Cursor.size 0 finishLine := .bind_first

instance {parser : Parser} : Consumes Cursor.size 1 (parseItem parser) :=
  .bind_second (fun _ => inferInstance)

instance consumes_parseLine {parser : Parser} : Consumes Cursor.size 1 (parseLine parser) :=
  .bind_first

end Parts

end FacetOS.Config
