import FacetOS.Rpc.Common

/-!
# Interface types and the metadata emitted for them

An IDL type is resolved against its interface: names have become the enums,
structs and arrays they stand for.  The generator describes such a type to the
codec by a kind and, for enums, arrays and structs, a `FacetTypeMeta`.

The C compiler fixes the size of a struct and the offsets of its fields; both are
part of the type here.
-/

namespace FacetOS.Rpc

inductive FacetType
  | u8 | u16 | u32 | u64
  | i8 | i16 | i32 | i64
  | bool
  | uuid
  | handle
  | string
  | bytes
  | localPtr
  | enum
  | struct
  | array
  deriving DecidableEq, Repr

mutual

/-- The part of `FacetTypeMeta` that the codec reads; `null` is the null pointer. -/
inductive FacetTypeMeta
  | null
  | mk (kind underlyingKind : FacetType) (size : ℕ) (elementType : FacetTypeMeta)
      (elementKind : FacetType) (structFields : FacetStructFields)

/-- The array `struct_fields`: kind, metadata and offset of every field. -/
inductive FacetStructFields
  | nil
  | cons (typeKind : FacetType) (type : FacetTypeMeta) (offset : ℕ)
      (rest : FacetStructFields)

end

/-- The integer types of the IDL. -/
inductive IntKind
  | u8 | u16 | u32 | u64
  | i8 | i16 | i32 | i64
  deriving DecidableEq, Repr

def IntKind.facetType : IntKind → FacetType
  | .u8 => .u8
  | .u16 => .u16
  | .u32 => .u32
  | .u64 => .u64
  | .i8 => .i8
  | .i16 => .i16
  | .i32 => .i32
  | .i64 => .i64

/-- Size of the C integer type. -/
def IntKind.width : IntKind → ℕ
  | .u8 | .i8 => 1
  | .u16 | .i16 => 2
  | .u32 | .i32 => 4
  | .u64 | .i64 => 8

mutual

/-- An IDL type.  An enum names its underlying type and whether its declaration
stands in another interface file. -/
inductive IdlType
  | int (kind : IntKind)
  | bool
  | uuid
  | handle
  | string
  | localPtr
  | enum (underlying : IntKind) (imported : Bool)
  | array (element : IdlType)
  | struct (size : ℕ) (fields : IdlFields)

/-- Struct fields with the offsets that the C compiler gave them. -/
inductive IdlFields
  | nil
  | cons (offset : ℕ) (type : IdlType) (rest : IdlFields)

end

/-- `sizeof` of the generated C type.  Enums are plain C enums, whatever their
underlying type. -/
def IdlType.cSize : IdlType → ℕ
  | .int kind => kind.width
  | .bool => 1
  | .uuid => 16
  | .handle => 8
  | .string => 16
  | .localPtr => 8
  | .enum _ _ => 4
  | .array _ => 16
  | .struct size _ => size

/-! ## Emitted metadata -/

/-- `type_kind_for`.  Only the types of the interface itself are known to be enums;
every other name counts as a struct. -/
def IdlType.kindFor : IdlType → FacetType
  | .int kind => kind.facetType
  | .bool => .bool
  | .uuid => .uuid
  | .handle => .handle
  | .string => .string
  | .localPtr => .localPtr
  | .enum _ imported => if imported then .struct else .enum
  | .array _ => .array
  | .struct _ _ => .struct

mutual

/-- The metadata that `type_meta_symbol` refers to and `emit_type_metadata` emits. -/
def IdlType.typeMeta : IdlType → FacetTypeMeta
  | .enum underlying _ => .mk .enum underlying.facetType 4 .null .u8 .nil
  | .array element =>
    .mk .array .u8 element.cSize element.typeMeta element.kindFor .nil
  | .struct size fields => .mk .struct .u8 size .null .u8 fields.fieldsMeta
  | .int _ | .bool | .uuid | .handle | .string | .localPtr => .null

def IdlFields.fieldsMeta : IdlFields → FacetStructFields
  | .nil => .nil
  | .cons offset type rest => .cons type.kindFor type.typeMeta offset rest.fieldsMeta

end

end FacetOS.Rpc
