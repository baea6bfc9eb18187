import Mathlib

/-!
# UTF-8 text as bytes

A text is a list of code points, surrogates among them, which UTF-8 cannot
express.  On texts without surrogates the encoding is injective, and a byte
below 128 only ever stands for the character with that code.  Code that splits
the encoded bytes at an ASCII separator therefore sees the encodings of the
parts of the text.
-/

namespace FacetOS

/-- A Unicode scalar value, or a surrogate that stands on its own. -/
inductive CodePoint
  | scalar (character : Char)
  | surrogate (offset : Fin 0x800)
  deriving DecidableEq

/-- The number of a code point. -/
def CodePoint.value : CodePoint → ℕ
  | scalar character => character.toNat
  | surrogate offset => 0xd800 + offset

def CodePoint.isScalar : CodePoint → Bool
  | scalar _ => true
  | surrogate _ => false

/-- A surrogate has no bytes of its own. -/
def CodePoint.utf8 : CodePoint → List UInt8
  | scalar character => String.utf8EncodeChar character
  | surrogate _ => []

/-- The code points of a string. -/
def codePoints (text : String) : List CodePoint :=
  text.toList.map .scalar

/-- The UTF-8 bytes of a text, surrogates left out. -/
def utf8 (text : List CodePoint) : List UInt8 :=
  text.flatMap CodePoint.utf8

/-- The text has an encoding: there are no surrogates in it. -/
def Encodes (text : List CodePoint) : Prop :=
  ∀ point ∈ text, point.isScalar = true

instance (text : List CodePoint) : Decidable (Encodes text) :=
  inferInstanceAs (Decidable (∀ point ∈ text, point.isScalar = true))

theorem utf8_append (left right : List CodePoint) :
    utf8 (left ++ right) = utf8 left ++ utf8 right :=
  List.flatMap_append

theorem Encodes.exists_characters {text : List CodePoint} (htext : Encodes text) :
    ∃ characters : List Char, characters.map .scalar = text := by
  have hrange : text ∈ Set.range (List.map CodePoint.scalar) := by
    rw [Set.range_list_map]
    intro point hpoint
    cases point with
    | scalar character => exact ⟨character, rfl⟩
    | surrogate offset => exact absurd (htext _ hpoint) (by simp [CodePoint.isScalar])
  exact hrange

/-- Texts that have encodings are told apart by them. -/
theorem utf8_inj {left right : List CodePoint} (hleft : Encodes left) (hright : Encodes right)
    (heq : utf8 left = utf8 right) : left = right := by
  obtain ⟨left, rfl⟩ := hleft.exists_characters
  obtain ⟨right, rfl⟩ := hright.exists_characters
  rw [utf8, utf8, List.flatMap_map, List.flatMap_map] at heq
  have hencoded : left.utf8Encode = right.utf8Encode := congrArg List.toByteArray heq
  have hdecoded := congrArg ByteArray.utf8Decode? hencoded
  rw [List.utf8Decode?_utf8Encode, List.utf8Decode?_utf8Encode, Option.some.injEq] at hdecoded
  rw [show left = right by simpa using congrArg Array.toList hdecoded]

/-- A byte below 128 is the whole encoding of its character. -/
theorem utf8EncodeChar_of_mem_lt {byte : UInt8} {character : Char}
    (hmem : byte ∈ String.utf8EncodeChar character) (hbyte : byte.toNat < 128) :
    character.toNat = byte.toNat := by
  have hlead : ∀ value base : ℕ, 128 ≤ base → value + base < 256 →
      byte ≠ UInt8.ofNat (value + base) := by
    intro value base hbase hbound heq
    have htoNat : byte.toNat = value + base := by
      rw [heq, UInt8.toNat_ofNat', Nat.mod_eq_of_lt (by omega)]
    omega
  unfold String.utf8EncodeChar at hmem
  dsimp only at hmem
  split at hmem
  · rename_i hsmall
    rw [List.mem_singleton] at hmem
    rw [hmem, UInt8.toNat_ofNat', Nat.mod_eq_of_lt (by omega)]
    rfl
  · split at hmem
    · simp only [List.mem_cons, List.not_mem_nil, or_false] at hmem
      rcases hmem with hmem | hmem <;> exact absurd hmem (hlead _ _ (by omega) (by omega))
    · split at hmem
      · simp only [List.mem_cons, List.not_mem_nil, or_false] at hmem
        rcases hmem with hmem | hmem | hmem <;>
          exact absurd hmem (hlead _ _ (by omega) (by omega))
      · simp only [List.mem_cons, List.not_mem_nil, or_false] at hmem
        rcases hmem with hmem | hmem | hmem | hmem <;>
          exact absurd hmem (hlead _ _ (by omega) (by omega))

/-- An ASCII character that a text lacks does not occur as a byte either. -/
theorem not_mem_utf8 {byte : UInt8} {character : Char} (hbyte : byte.toNat < 128)
    (hcode : character.toNat = byte.toNat) {text : List CodePoint}
    (htext : .scalar character ∉ text) : byte ∉ utf8 text := by
  intro hmem
  obtain ⟨point, hpoint, hencoded⟩ := List.mem_flatMap.mp hmem
  cases point with
  | scalar found =>
    have heq : found = character := by
      have hcodes := (utf8EncodeChar_of_mem_lt hencoded hbyte).trans hcode.symm
      exact Char.ext (UInt32.toNat_inj.mp hcodes)
    exact htext (heq ▸ hpoint)
  | surrogate offset => exact List.not_mem_nil hencoded

theorem utf8_intercalate (separator : CodePoint) (parts : List (List CodePoint)) :
    utf8 ([separator].intercalate parts) = (utf8 [separator]).intercalate (parts.map utf8) := by
  induction parts with
  | nil => rfl
  | cons first rest ih =>
    cases rest with
    | nil => simp
    | cons second rest =>
      rw [List.map_cons, List.map_cons, List.intercalate_cons_cons,
        List.intercalate_cons_cons, utf8_append, utf8_append, ih, List.map_cons]

end FacetOS
