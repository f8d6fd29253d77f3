namespace OpStubs

/-- Element types of the engine's tensors, in the order of their codes. -/
inductive ElementType where
  | float | double | int32 | uint8 | int16 | int8 | string | complex64 | int64 | bool | qint8
  | quint8 | qint32 | bfloat16 | qint16 | quint16 | uint16 | complex128 | half | resource
  | variant | uint32 | uint64
  deriving DecidableEq, Repr

namespace ElementType

def all : List ElementType :=
  [.float, .double, .int32, .uint8, .int16, .int8, .string, .complex64, .int64, .bool, .qint8,
   .quint8, .qint32, .bfloat16, .qint16, .quint16, .uint16, .complex128, .half, .resource,
   .variant, .uint32, .uint64]

def code : ElementType → Nat
  | .float => 1
  | .double => 2
  | .int32 => 3
  | .uint8 => 4
  | .int16 => 5
  | .int8 => 6
  | .string => 7
  | .complex64 => 8
  | .int64 => 9
  | .bool => 10
  | .qint8 => 11
  | .quint8 => 12
  | .qint32 => 13
  | .bfloat16 => 14
  | .qint16 => 15
  | .quint16 => 16
  | .uint16 => 17
  | .complex128 => 18
  | .half => 19
  | .resource => 20
  | .variant => 21
  | .uint32 => 22
  | .uint64 => 23

def name : ElementType → String
  | .float => "FLOAT"
  | .double => "DOUBLE"
  | .int32 => "INT32"
  | .uint8 => "UINT8"
  | .int16 => "INT16"
  | .int8 => "INT8"
  | .string => "STRING"
  | .complex64 => "COMPLEX64"
  | .int64 => "INT64"
  | .bool => "BOOL"
  | .qint8 => "QINT8"
  | .quint8 => "QUINT8"
  | .qint32 => "QINT32"
  | .bfloat16 => "BFLOAT16"
  | .qint16 => "QINT16"
  | .quint16 => "QUINT16"
  | .uint16 => "UINT16"
  | .complex128 => "COMPLEX128"
  | .half => "HALF"
  | .resource => "RESOURCE"
  | .variant => "VARIANT"
  | .uint32 => "UINT32"
  | .uint64 => "UINT64"

def ofCode? (n : Int) : Option ElementType := all.find? fun t => (t.code : Int) == n

def ofName? (s : String) : Option ElementType := all.find? fun t => t.name == s

/-- `s` without `tail` at its end, or `s` itself if it does not end so. -/
def dropTail (tail s : List Char) : List Char := (tail.isSuffixOf? s).getD s

/-- The type that a registry identifier names: `DT_` and the name, to which `_REF` may be added
once. `COMPLEX` is the old name of `COMPLEX64`. -/
def ofIdentifier? (s : String) : Option ElementType := do
  let rest ← "DT_".toList.isPrefixOf? s.toList
  let bare := dropTail "_REF".toList rest
  if bare = "COMPLEX".toList then some .complex64 else ofName? (String.ofList bare)

theorem ofIdentifier?_name (t : ElementType) :
    ofIdentifier? ("DT_" ++ t.name) = some t ∧
      ofIdentifier? ("DT_" ++ t.name ++ "_REF") = some t := by
  cases t <;> decide

end ElementType

end OpStubs
