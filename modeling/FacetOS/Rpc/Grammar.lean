import FacetOS.Rpc.Rebuilding

/-!
# The grammar of payloads

What the payload bytes of a type description look like, stated apart from the
decoder: scalars have the width of their kind, a string is a length and its bytes,
an array a count and its elements, a struct its fields in order.  A word is kept
with its structure, because a `bool` may be spelled by any byte.

A word is recognised from its start: no two words of one description stand at the
start of the same bytes.
-/

namespace FacetOS.Rpc

open LittleEndian ByteMemory

/-- A word of the payload format with its structure. -/
inductive Word
  | scalar (bytes : List UInt8)
  | bool (byte : UInt8)
  | string (bytes : List UInt8)
  | array (elements : List Word)
  | struct (fields : List Word)

mutual

def Word.bytes : Word → List UInt8
  | .scalar bytes => bytes
  | .bool byte => [byte]
  | .string bytes => leBytes 4 bytes.length ++ bytes
  | .array elements => leBytes 4 elements.length ++ bytesAll elements
  | .struct fields => bytesAll fields

def bytesAll : List Word → List UInt8
  | [] => []
  | word :: words => word.bytes ++ bytesAll words

end

/-- The number of payload bytes of the kinds with a fixed width. -/
def scalarWidth : FacetType → Option ℕ
  | .u8 | .i8 => some 1
  | .u16 | .i16 => some 2
  | .u32 | .i32 => some 4
  | .u64 | .i64 => some 8
  | .uuid => some 16
  | _ => none

/-- Words of the kinds without parts. -/
def FlatWord (kind : FacetType) : Word → Prop
  | .scalar bytes => scalarWidth kind = some bytes.length
  | .bool _ => kind = .bool
  | .string bytes => kind = .string ∧ bytes.length < 2 ^ 32
  | .array _ | .struct _ => False

/-- Words of an array; `fits` limits the count in terms of the element size. -/
def ArrayWord (fits : ℕ → ℕ → Prop) (elementSize : ℕ) (element : Word → Prop)
    (word : Word) : Prop :=
  ∃ elements, word = .array elements ∧ elements.length < 2 ^ 32 ∧
    fits elements.length elementSize ∧ ∀ part ∈ elements, element part

mutual

/-- Words of a type description.  Without metadata the elements of an array are
`FACET_TYPE_BYTES`, which has no words. -/
def Spells (fits : ℕ → ℕ → Prop) (kind : FacetType) : FacetTypeMeta → Word → Prop
  | .null =>
    match kind with
    | .array => ArrayWord fits 0 fun _ => False
    | .struct => fun _ => False
    | _ => FlatWord kind
  | .mk metaKind underlying size elementType elementKind fields =>
    match codecKind kind (.mk metaKind underlying size elementType elementKind fields) with
    | .array =>
      ArrayWord fits (codecTypeSize (elementKindOf elementType elementKind) elementType)
        (Spells fits (elementKindOf elementType elementKind) elementType)
    | .struct => fun word => ∃ words, word = .struct words ∧ SpellsFields fits fields words
    | flat => FlatWord flat

def SpellsFields (fits : ℕ → ℕ → Prop) : FacetStructFields → List Word → Prop
  | .nil => fun words => words = []
  | .cons typeKind type _ rest => fun words =>
    ∃ word tail, words = word :: tail ∧ Spells fits typeKind type word ∧
      SpellsFields fits rest tail

end

/-- The grammar without limits on arrays. -/
def anyCount (_ _ : ℕ) : Prop := True

/-- The codec knows no array of elements without size, other than the empty one,
and none that `size_t` cannot measure. -/
def Storable (count elementSize : ℕ) : Prop :=
  (elementSize = 0 → count = 0) ∧ count * elementSize ≤ sizeMax

/-- What the encoder asks of an array: it has no elements without size. -/
def Counted (count elementSize : ℕ) : Prop :=
  elementSize = 0 → count = 0

/-! ## The forms of a description -/

/-- The codec treats the description as one of the kinds without parts. -/
def Flat (kind : FacetType) (metadata : FacetTypeMeta) : Prop :=
  codecKind kind metadata ≠ .array ∧ codecKind kind metadata ≠ .struct

section Induction

variable {value : FacetType → FacetTypeMeta → Prop} {layout : FacetStructFields → Prop}
  (hflat : ∀ {kind metadata}, Flat kind metadata → value kind metadata)
  (hbare : value .array .null) (hnone : value .struct .null)
  (harray : ∀ {kind metaKind underlying size elementType elementKind fields},
    codecKind kind (.mk metaKind underlying size elementType elementKind fields) = .array →
      value (elementKindOf elementType elementKind) elementType →
      value kind (.mk metaKind underlying size elementType elementKind fields))
  (hstruct : ∀ {kind metaKind underlying size elementType elementKind fields},
    codecKind kind (.mk metaKind underlying size elementType elementKind fields) = .struct →
      layout fields → value kind (.mk metaKind underlying size elementType elementKind fields))
  (hnil : layout .nil)
  (hcons : ∀ {typeKind type offset rest}, value typeKind type → layout rest →
    layout (.cons typeKind type offset rest))

include hflat hbare hnone harray hstruct hnil hcons

/-- Induction over descriptions, in the cases that the codec distinguishes. -/
theorem description_induction :
    (∀ kind metadata, value kind metadata) ∧ ∀ fields, layout fields := by
  have hnull (kind : FacetType) : value kind .null := by
    by_cases hlist : kind = .array
    · exact hlist ▸ hbare
    · by_cases hparts : kind = .struct
      · exact hparts ▸ hnone
      · exact hflat ⟨hlist, hparts⟩
  have hmk (metaKind underlying : FacetType) (size : ℕ) (elementType : FacetTypeMeta)
      (elementKind : FacetType) (fields : FacetStructFields)
      (helement : ∀ kind, value kind elementType) (hfields : layout fields) (kind : FacetType) :
      value kind (.mk metaKind underlying size elementType elementKind fields) := by
    by_cases hlist : codecKind kind (.mk metaKind underlying size elementType elementKind fields)
        = .array
    · exact harray hlist (helement _)
    · by_cases hparts : codecKind kind
          (.mk metaKind underlying size elementType elementKind fields) = .struct
      · exact hstruct hparts hfields
      · exact hflat ⟨hlist, hparts⟩
  have hfield (typeKind : FacetType) (type : FacetTypeMeta) (offset : ℕ) (rest : FacetStructFields)
      (htype : ∀ kind, value kind type) (hrest : layout rest) :
      layout (.cons typeKind type offset rest) := hcons (htype typeKind) hrest
  exact ⟨fun kind metadata => @FacetTypeMeta.rec (fun metadata => ∀ kind, value kind metadata)
      layout hnull hmk hnil hfield metadata kind,
    @FacetStructFields.rec (fun metadata => ∀ kind, value kind metadata) layout hnull hmk hnil
      hfield⟩

end Induction

section Forms

variable {fits : ℕ → ℕ → Prop} {allocator : Allocator} {payload : List UInt8}
  {kind : FacetType} {metadata : FacetTypeMeta}

theorem spells_flat (hflat : Flat kind metadata) :
    Spells fits kind metadata = FlatWord (codecKind kind metadata) := by
  obtain ⟨harray, hstruct⟩ := hflat
  cases metadata <;> unfold Spells <;> split <;> first | rfl | contradiction

theorem decodeValue_flat (hflat : Flat kind metadata) :
    decodeValue allocator payload kind metadata =
      decodeFlat allocator payload (codecKind kind metadata)
        (codecTypeSize (codecKind kind metadata) metadata) := by
  obtain ⟨harray, hstruct⟩ := hflat
  funext output state
  cases metadata <;> unfold decodeValue <;> split <;> first | rfl | contradiction

theorem spells_mono {more : ℕ → ℕ → Prop}
    (hmore : ∀ count size, fits count size → more count size) :
    (∀ kind metadata word, Spells fits kind metadata word → Spells more kind metadata word) ∧
      ∀ fields words, SpellsFields fits fields words → SpellsFields more fields words := by
  have hlist {size : ℕ} {language other : Word → Prop} {word : Word}
      (helement : ∀ part, language part → other part)
      (hword : ArrayWord fits size language word) : ArrayWord more size other word := by
    obtain ⟨elements, rfl, hcount, hfits, hall⟩ := hword
    exact ⟨elements, rfl, hcount, hmore _ _ hfits, fun part hpart => helement part
      (hall part hpart)⟩
  refine description_induction (fun hflat word hword => ?_) (fun word => hlist fun _ => id)
    (fun word => id) (fun harray helement word hword => ?_) (fun hstruct hfields word hword => ?_)
    (fun _ => id) (fun hfirst hrest words hwords => ?_)
  · rw [spells_flat hflat] at hword ⊢
    exact hword
  · rw [Spells, harray] at hword ⊢
    exact hlist helement hword
  · rw [Spells, hstruct] at hword ⊢
    obtain ⟨words, rfl, hwords⟩ := hword
    exact ⟨words, rfl, hfields words hwords⟩
  · obtain ⟨word, tail, rfl, hword, htail⟩ := hwords
    exact ⟨word, tail, rfl, hfirst word hword, hrest tail htail⟩

end Forms

/-! ## Words are recognised from their start -/

/-- At most one tree of the language stands at the start of any bytes. -/
def Unambiguous {Tree : Type} (bytes : Tree → List UInt8) (language : Tree → Prop) : Prop :=
  ∀ left right restLeft restRight, language left → language right →
    bytes left ++ restLeft = bytes right ++ restRight → left = right

/-- Nonempty sequences of a first word and further ones. -/
def Sequence (language : Word → Prop) (languages : List Word → Prop) (words : List Word) :
    Prop :=
  ∃ word tail, words = word :: tail ∧ language word ∧ languages tail

variable {language : Word → Prop} {offset count : ℕ}

section Unambiguity

variable {fits : ℕ → ℕ → Prop}

theorem unambiguous_flatWord (kind : FacetType) : Unambiguous Word.bytes (FlatWord kind) := by
  intro left right restLeft restRight hleft hright hequal
  cases left <;> cases right
  case scalar.scalar bytes other =>
    have hlength : bytes.length = other.length := Option.some.inj (hleft.symm.trans hright)
    exact congrArg Word.scalar (List.append_inj_left hequal hlength)
  case bool.bool => exact congrArg Word.bool (List.cons.inj hequal).1
  case string.string bytes other =>
    obtain ⟨⟨-, hbytes⟩, -, hother⟩ := And.intro hleft hright
    simp only [Word.bytes, List.append_assoc] at hequal
    have hvalues := congrArg leValue (List.append_inj_left hequal (by simp))
    rw [leValue_leBytes_of_lt (by omega), leValue_leBytes_of_lt (by omega)] at hvalues
    exact congrArg Word.string
      (List.append_inj_left (List.append_inj_right hequal (by simp)) hvalues)
  all_goals simp_all [FlatWord, scalarWidth]

theorem unambiguous_sequence {languages : List Word → Prop}
    (hfirst : Unambiguous Word.bytes language) (hrest : Unambiguous bytesAll languages) :
    Unambiguous bytesAll (Sequence language languages) := by
  rintro _ _ restLeft restRight ⟨left, leftTail, rfl, hleft, hleftTail⟩
    ⟨right, rightTail, rfl, hright, hrightTail⟩ hequal
  simp only [bytesAll, List.append_assoc] at hequal
  have hword := hfirst left right _ _ hleft hright hequal
  subst hword
  rw [hrest leftTail rightTail _ _ hleftTail hrightTail (List.append_cancel_left hequal)]

/-- As many words as announced, all of one language. -/
def Repeated (language : Word → Prop) (count : ℕ) (words : List Word) : Prop :=
  words.length = count ∧ ∀ word ∈ words, language word

theorem repeated_zero {words : List Word} :
    Repeated language 0 words ↔ words = [] := by
  simp +contextual [Repeated]

theorem repeated_succ {words : List Word} :
    Repeated language (count + 1) words ↔ Sequence language (Repeated language count) words := by
  cases words <;> simp [Repeated, Sequence, and_left_comm]

theorem unambiguous_repeated (hlanguage : Unambiguous Word.bytes language) (count : ℕ) :
    Unambiguous bytesAll (Repeated language count) := by
  induction count with
  | zero =>
    intro left right restLeft restRight hleft hright _
    rw [repeated_zero.mp hleft, repeated_zero.mp hright]
  | succ count ih =>
    intro left right restLeft restRight hleft hright hequal
    exact unambiguous_sequence hlanguage ih left right restLeft restRight
      (repeated_succ.mp hleft) (repeated_succ.mp hright) hequal

theorem unambiguous_arrayWord {elementSize : ℕ} {element : Word → Prop}
    (helement : Unambiguous Word.bytes element) :
    Unambiguous Word.bytes (ArrayWord fits elementSize element) := by
  rintro _ _ restLeft restRight ⟨left, rfl, hleft, -, hleftAll⟩ ⟨right, rfl, hright, -, hrightAll⟩
    hequal
  simp only [Word.bytes, List.append_assoc] at hequal
  have hheader := congrArg leValue (List.append_inj_left hequal (by simp))
  rw [leValue_leBytes_of_lt (by omega), leValue_leBytes_of_lt (by omega)] at hheader
  have hparts := List.append_inj_right hequal (by simp)
  exact congrArg Word.array (unambiguous_repeated helement right.length left right _ _
    ⟨hheader, hleftAll⟩ ⟨rfl, hrightAll⟩ hparts)

theorem unambiguous_spells (fits : ℕ → ℕ → Prop) :
    (∀ kind metadata, Unambiguous Word.bytes (Spells fits kind metadata)) ∧
      ∀ fields, Unambiguous bytesAll (SpellsFields fits fields) := by
  refine description_induction (fun hflat => ?_) ?_ ?_ (fun harray helement => ?_)
    (fun hstruct hfields => ?_) ?_ (fun hfirst hrest => ?_)
  · rw [spells_flat hflat]
    exact unambiguous_flatWord _
  · exact unambiguous_arrayWord fun _ _ _ _ hleft => hleft.elim
  · exact fun _ _ _ _ hleft => hleft.elim
  · rw [Spells, harray]
    exact unambiguous_arrayWord helement
  · rw [Spells, hstruct]
    rintro _ _ restLeft restRight ⟨left, rfl, hleft⟩ ⟨right, rfl, hright⟩ hequal
    exact congrArg Word.struct (hfields left right _ _ hleft hright hequal)
  · intro left right restLeft restRight hleft hright _
    rw [hleft, hright]
  · exact unambiguous_sequence hfirst hrest

end Unambiguity

/-! ## Words in a payload -/

variable {payload : List UInt8}

theorem carries_iff {bytes : List UInt8} :
    Carries payload offset bytes ↔
      offset ≤ payload.length ∧ bytes <+: payload.drop offset := by
  constructor
  · rintro ⟨before, after, rfl, rfl⟩
    refine ⟨by simp, after, by simp⟩
  · rintro ⟨hoffset, after, hafter⟩
    refine ⟨payload.take offset, after, ?_, by simp [hoffset]⟩
    rw [List.append_assoc, hafter, List.take_append_drop]

theorem Carries.unique {Tree : Type} {bytes : Tree → List UInt8} {language : Tree → Prop}
    (hlanguage : Unambiguous bytes language) {left right : Tree}
    (hleft : language left) (hright : language right)
    (hcarriesLeft : Carries payload offset (bytes left))
    (hcarriesRight : Carries payload offset (bytes right)) : left = right := by
  obtain ⟨-, restLeft, hrestLeft⟩ := carries_iff.mp hcarriesLeft
  obtain ⟨-, restRight, hrestRight⟩ := carries_iff.mp hcarriesRight
  exact hlanguage left right restLeft restRight hleft hright (hrestLeft.trans hrestRight.symm)

theorem Carries.append {first second : List UInt8} (hfirst : Carries payload offset first)
    (hsecond : Carries payload (offset + first.length) second) :
    Carries payload offset (first ++ second) := by
  obtain ⟨hoffset, after, hafter⟩ := carries_iff.mp hfirst
  obtain ⟨-, last, hlast⟩ := carries_iff.mp hsecond
  refine carries_iff.mpr ⟨hoffset, last, ?_⟩
  rw [← List.drop_drop, ← hafter, List.drop_left] at hlast
  rw [List.append_assoc, hlast, hafter]

theorem carries_take {size : ℕ} (hle : offset + size ≤ payload.length) :
    Carries payload offset ((payload.drop offset).take size) ∧
      ((payload.drop offset).take size).length = size := by
  refine ⟨carries_iff.mpr ⟨by omega, List.take_prefix _ _⟩, ?_⟩
  rw [List.length_take, List.length_drop]
  omega

/-- A read delivers the bytes at the offset, or there are too few. -/
theorem codecRead_cases (payload : List UInt8) (offset size : ℕ) :
    (∃ bytes, codecRead payload offset size = .ok bytes ∧ Carries payload offset bytes ∧
      bytes.length = size) ∨
    (codecRead payload offset size = .error .protocolError ∧ payload.length < offset + size) := by
  by_cases hshort : offset > payload.length ∨ size > payload.length - offset
  · right
    exact ⟨if_pos hshort, by omega⟩
  · left
    exact ⟨_, if_neg hshort, carries_take (by omega)⟩

/-- The header of a string or an array is read, or there are too few bytes. -/
theorem codecRead_header (payload : List UInt8) (offset : ℕ) :
    (∃ header, codecRead payload offset 4 = .ok header ∧ leValue header < 2 ^ 32 ∧
      Carries payload offset (leBytes 4 (leValue header))) ∨
    (codecRead payload offset 4 = .error .protocolError ∧ payload.length < offset + 4) := by
  refine (codecRead_cases payload offset 4).imp_left ?_
  rintro ⟨header, hread, hcarries, hlength⟩
  have hlt := leValue_lt header
  have hbytes := leBytes_leValue header
  rw [hlength] at hlt hbytes
  exact ⟨header, hread, by omega, hbytes.symm ▸ hcarries⟩

theorem Carries.header_le
    (hheader : Carries payload offset (leBytes 4 count)) : offset + 4 ≤ payload.length :=
  length_leBytes 4 count ▸ hheader.le

/-- The header of a string or an array determines its count. -/
theorem Carries.count_eq {rest : List UInt8} {other : ℕ}
    (hheader : Carries payload offset (leBytes 4 count)) (hcount : count < 2 ^ 32)
    (hother : other < 2 ^ 32) (hcarries : Carries payload offset (leBytes 4 other ++ rest)) :
    other = count ∧ Carries payload (offset + 4) rest := by
  constructor
  · obtain ⟨-, after, hafter⟩ := carries_iff.mp hheader
    obtain ⟨-, last, hlast⟩ := carries_iff.mp hcarries
    rw [List.append_assoc] at hlast
    have hvalues := congrArg leValue (List.append_inj_left (hlast.trans hafter.symm) (by simp))
    rwa [leValue_leBytes_of_lt (by omega), leValue_leBytes_of_lt (by omega)] at hvalues
  · have hrest := hcarries.right
    rwa [length_leBytes] at hrest

theorem flatWord_scalar {kind : FacetType} {width : ℕ} (hwidth : scalarWidth kind = some width)
    (word : Word) : FlatWord kind word ↔ ∃ bytes, bytes.length = width ∧ word = .scalar bytes := by
  have hbool : kind ≠ .bool := by
    rintro rfl
    cases hwidth
  have hstring : kind ≠ .string := by
    rintro rfl
    cases hwidth
  cases word <;> simp [FlatWord, hwidth, hbool, hstring, eq_comm]

theorem flatWord_bool (word : Word) : FlatWord .bool word ↔ ∃ byte, word = .bool byte := by
  cases word <;> simp [FlatWord, scalarWidth]

theorem flatWord_string (word : Word) :
    FlatWord .string word ↔ ∃ bytes, bytes.length < 2 ^ 32 ∧ word = .string bytes := by
  cases word <;> simp [FlatWord, scalarWidth]

theorem not_flatWord {kind : FacetType} (hwidth : scalarWidth kind = none) (hbool : kind ≠ .bool)
    (hstring : kind ≠ .string) (word : Word) : ¬ FlatWord kind word := by
  cases word <;> simp [FlatWord, hwidth, hbool, hstring]

/-- An array is not storable exactly where the codec refuses its count. -/
theorem storable_iff {elementSize : ℕ} :
    Storable count elementSize ↔ ¬ (elementSize = 0 ∧ count ≠ 0) ∧
      ¬ (count ≠ 0 ∧ count > sizeMax / elementSize) := by
  rcases Nat.eq_zero_or_pos elementSize with rfl | hpositive
  · simp [Storable]
  · rw [Storable, ← Nat.le_div_iff_mul_le hpositive]
    by_cases hcount : count = 0
    · simp [hcount]
    · simp [hcount, hpositive.ne']

end FacetOS.Rpc
