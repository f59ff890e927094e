import GxbCore.Lib.Wire

/-!
# The serializer of contract data

`abi_serializer` reads a description of types from an ABI and converts between
variants and bytes.  A type is named by a string: a built-in type, a typedef or
a struct, where `[]` at the end makes an array and `?` an optional.

The built-in types with their own packing, the size of arrays, and the
conversion of a variant to plain bytes are `Primitives`.  The time limit is left
out.
-/

namespace GxbCore.Abi

abbrev TypeName := List Char

abbrev FieldName := List Char

def maxRecursionDepth : Nat :=
  32

/-- The size of the buffer for what is packed. -/
def maximumSize : Nat :=
  1024 * 1024

/-- `configure_built_in_types` -/
def builtInTypes : List TypeName :=
  ["bool", "int8", "uint8", "int16", "uint16", "int32", "uint32", "int64",
    "uint64", "float32", "float64", "time_point", "time_point_sec", "name",
    "bytes", "string", "block_id_type", "checksum160", "checksum256",
    "checksum512", "public_key", "signature", "symbol", "symbol_code",
    "contract_asset"].map String.toList

def isBuiltinType (type : TypeName) : Bool :=
  builtInTypes.contains type

def isArray (type : TypeName) : Bool :=
  ['[', ']'].isSuffixOf type

def isOptional (type : TypeName) : Bool :=
  ['?'].isSuffixOf type

def fundamentalType (type : TypeName) : TypeName :=
  if isArray type then type.take (type.length - 2)
  else if isOptional type then type.take (type.length - 1)
  else type

structure TypeDef where
  newTypeName : TypeName
  type : TypeName
  deriving DecidableEq, Repr

structure FieldDef where
  name : FieldName
  type : TypeName
  deriving DecidableEq, Repr

/-- `struct_def`; a struct without a base has an empty name there. -/
structure StructDef where
  name : TypeName
  base : TypeName
  fields : List FieldDef
  deriving DecidableEq, Repr

/-- `abi_def`: actions and tables have a name and a type, messages a code. -/
structure AbiDef where
  types : List TypeDef
  structs : List StructDef
  actions : List (Nat × TypeName)
  tables : List (Nat × TypeName)
  errorMessages : List (Nat × String)
  deriving DecidableEq, Repr

/-- What fails. -/
inductive AbiFault where
  | invalidType (type : TypeName)
  | typeAlreadyExists (newTypeName : TypeName)
  | duplicates
  | circularType (type : TypeName)
  | circularStruct (type : TypeName)
  | unknownStruct (type : TypeName)
  | recursiveDefinition
  | endOfStream
  | invalidPackedArray
  | unableToUnpack (type : TypeName)
  | missing (field : FieldName)
  | badCast
  | tooLarge
  deriving DecidableEq, Repr

/-- `abi_serializer`, its maps -/
structure AbiSerializer where
  typedefs : List (TypeName × TypeName)
  structs : List (TypeName × StructDef)
  actions : List (Nat × TypeName)
  tables : List (Nat × TypeName)
  errorMessages : List (Nat × String)
  deriving DecidableEq, Repr

namespace AbiSerializer

/-- The loop of `resolve_type`, which goes on as often as there are typedefs. -/
def followTypedefs (s : AbiSerializer) : Nat → TypeName → Option TypeName
  | 0, _ => none
  | count + 1, type =>
      match s.typedefs.lookup type with
      | none => some type
      | some next => s.followTypedefs count next

def resolveType (s : AbiSerializer) (type : TypeName) : TypeName :=
  match s.typedefs.lookup type with
  | none => type
  | some next => (s.followTypedefs s.typedefs.length next).getD type

def getStruct (s : AbiSerializer) (type : TypeName) :
    Except AbiFault StructDef :=
  orThrow (s.structs.lookup (s.resolveType type)) (.unknownStruct type)

/-- `_is_type`; the number is how deep it can still go. -/
def isType (s : AbiSerializer) : Nat → TypeName → Bool
  | 0, _ => false
  | left + 1, rtype =>
      let type := fundamentalType rtype
      if isBuiltinType type then true
      else
        match s.typedefs.lookup type with
        | some next => s.isType left next
        | none => (s.structs.lookup type).isSome

def addTypedef (s : AbiSerializer) (td : TypeDef) :
    Except AbiFault AbiSerializer := do
  require (s.isType maxRecursionDepth td.type = true) (.invalidType td.type)
  require (s.isType maxRecursionDepth td.newTypeName = false)
    (.typeAlreadyExists td.newTypeName)
  return { s with typedefs := setEntry td.newTypeName td.type s.typedefs }

/-- The search for a typedef that comes back to itself.  What is seen grows with
every step, and is made of types that there are. -/
def checkTypedef (s : AbiSerializer) (first : TypeName) :
    Nat → TypeName → List TypeName → Except AbiFault Unit
  | 0, _, _ => .error (.circularType first)
  | count + 1, type, typesSeen =>
      match s.typedefs.lookup type with
      | none => .ok ()
      | some next =>
          if next ∈ typesSeen then .error (.circularType first)
          else s.checkTypedef first count next (typesSeen ++ [next])

/-- The search for a struct that inherits from itself. -/
def checkBases (s : AbiSerializer) (name : TypeName) :
    Nat → StructDef → List TypeName → Except AbiFault Unit
  | 0, _, _ => .error (.circularStruct name)
  | count + 1, current, typesSeen =>
      if current.base = [] then .ok ()
      else do
        let base ← s.getStruct current.base
        if base.name ∈ typesSeen then .error (.circularStruct name)
        else s.checkBases name count base (typesSeen ++ [base.name])

def validate (s : AbiSerializer) : Except AbiFault Unit := do
  s.typedefs.forM fun t =>
    s.checkTypedef t.1 (s.typedefs.length + 1) t.2 [t.1, t.2]
  s.typedefs.forM fun t =>
    require (s.isType maxRecursionDepth t.2 = true) (.invalidType t.2)
  s.structs.forM fun st => do
    s.checkBases st.2.name (s.structs.length + 1) st.2 [st.2.name]
    st.2.fields.forM fun field =>
      require (s.isType maxRecursionDepth field.type = true)
        (.invalidType field.type)
  (s.actions ++ s.tables).forM fun a =>
    require (s.isType maxRecursionDepth a.2 = true) (.invalidType a.2)

/-- The entries as a map: a later one takes the place of an earlier one. -/
def toMap {κ ν : Type} [BEq κ] (entries : List (κ × ν)) :
    List (κ × ν) :=
  entries.foldl (fun map entry => setEntry entry.1 entry.2 map) []

def setAbi (abi : AbiDef) : Except AbiFault AbiSerializer := do
  let start : AbiSerializer := {
    typedefs := []
    structs := toMap (abi.structs.map fun st => (st.name, st))
    actions := toMap abi.actions
    tables := toMap abi.tables
    errorMessages := toMap abi.errorMessages }
  let s ← abi.types.foldlM addTypedef start
  require
    (s.typedefs.length = abi.types.length ∧
      s.structs.length = abi.structs.length ∧
      s.actions.length = abi.actions.length ∧
      s.tables.length = abi.tables.length ∧
      s.errorMessages.length = abi.errorMessages.length)
    .duplicates
  s.validate
  return s

end AbiSerializer

/-- `fc::variant`.  Numbers, texts and the like are of a type of their own. -/
inductive Variant (S : Type) where
  | null
  | scalar (value : S)
  | array (values : List (Variant S))
  | object (entries : List (FieldName × Variant S))

def Variant.isNull {S : Type} : Variant S → Bool
  | .null => true
  | _ => false

/-- What the built-in types and the stream do.  A built-in type is packed alone,
as an array or as an optional. -/
structure Primitives (S : Type) where
  unpack :
    TypeName → Bool → Bool → Bytes → Except AbiFault (Variant S × Bytes)
  pack : TypeName → Bool → Bool → Variant S → Except AbiFault Bytes
  /-- of a `fc::unsigned_int` -/
  unpackSize : Bytes → Except AbiFault (Nat × Bytes)
  packSize : Nat → Bytes
  /-- `var.as<bytes>` -/
  asBytes : Variant S → Except AbiFault Bytes

namespace AbiSerializer

variable {S : Type}

/-- The loop over the fields of a struct. -/
def readFields
    (read : TypeName → Bytes → Except AbiFault (Variant S × Bytes)) :
    List FieldDef → List (FieldName × Variant S) → Bytes →
      Except AbiFault (List (FieldName × Variant S) × Bytes)
  | [], obj, stream => .ok (obj, stream)
  | field :: later, obj, stream => do
      let (value, stream) ← read field.type stream
      readFields read later (setEntry field.name value obj) stream

def readElement
    (read : Bytes → Except AbiFault (Variant S × Bytes)) (stream : Bytes) :
    Except AbiFault (Variant S × Bytes) := do
  let (value, stream) ← read stream
  if value.isNull then .error .invalidPackedArray
  else return (value, stream)

mutual

/-- `_binary_to_variant` of a type; the number is how deep it can still go. -/
def readVariant (s : AbiSerializer) (p : Primitives S) :
    Nat → TypeName → Bytes → Except AbiFault (Variant S × Bytes)
  | 0, _, _ => .error .recursiveDefinition
  | left + 1, type, stream =>
      let rtype := s.resolveType type
      let ftype := fundamentalType rtype
      if isBuiltinType ftype then
        p.unpack ftype (isArray rtype) (isOptional rtype) stream
      else if isArray rtype then do
        let (size, stream) ← p.unpackSize stream
        let (values, stream) ←
          unpackTimes (readElement (readVariant s p left ftype)) size stream
        return (.array values, stream)
      else if isOptional rtype then
        match stream with
        | [] => .error .endOfStream
        | flag :: stream =>
            if flag = 0 then .ok (.null, stream)
            else readVariant s p left ftype stream
      else do
        let (obj, stream) ← readStruct s p left rtype [] stream
        if obj.isEmpty then .error (.unableToUnpack type)
        else return (.object obj, stream)

/-- `_binary_to_variant` of a struct, into an object -/
def readStruct (s : AbiSerializer) (p : Primitives S) :
    Nat → TypeName → List (FieldName × Variant S) → Bytes →
      Except AbiFault (List (FieldName × Variant S) × Bytes)
  | 0, _, _, _ => .error .recursiveDefinition
  | left + 1, type, obj, stream => do
      let st ← s.getStruct type
      (if st.base = [] then .ok (obj, stream)
        else readStruct s p left (s.resolveType st.base) obj stream) >>=
      fun start =>
        readFields
          (fun type => readVariant s p left (s.resolveType type))
          st.fields start.1 start.2

end

/-- `binary_to_variant`, with what is left of the bytes -/
def binaryToVariant (s : AbiSerializer) (p : Primitives S) (type : TypeName)
    (binary : Bytes) : Except AbiFault (Variant S × Bytes) :=
  s.readVariant p (maxRecursionDepth - 2) type binary

def writeField (write : TypeName → Variant S → Except AbiFault Bytes)
    (entries : List (FieldName × Variant S)) (field : FieldDef) :
    Except AbiFault Bytes :=
  match entries.lookup field.name with
  | some value => write field.type value
  | none => do
      let _ ← write field.type .null
      .error (.missing field.name)

/-- `_variant_to_binary`; the number is how deep it can still go. -/
def writeVariant (s : AbiSerializer) (p : Primitives S) :
    Nat → TypeName → Variant S → Except AbiFault Bytes
  | 0, _, _ => .error .recursiveDefinition
  | left + 1, type, var =>
      let rtype := s.resolveType type
      let ftype := fundamentalType rtype
      if isBuiltinType ftype then
        p.pack ftype (isArray rtype) (isOptional rtype) var
      else if isArray rtype then
        match var with
        | .array values => do
            let body ← packAll (writeVariant s p left ftype) values
            return p.packSize values.length ++ body
        | _ => .error .badCast
      else do
        let st ← s.getStruct rtype
        match var with
        | .object entries =>
            (if st.base = [] then .ok []
              else writeVariant s p left (s.resolveType st.base) var) >>=
            fun inherited => do
              let own ←
                packAll (writeField (writeVariant s p left) entries) st.fields
              return inherited ++ own
        | .array values =>
            if st.base = [] then
              if values.isEmpty then .ok []
              else
                packAll
                  (fun item =>
                    writeVariant s p left item.1.type
                      (values.getD item.2 .null))
                  st.fields.zipIdx
            else .error .badCast
        -- anything else is not written at all
        | _ => .ok []

def variantToBinary (s : AbiSerializer) (p : Primitives S) (type : TypeName)
    (var : Variant S) : Except AbiFault Bytes :=
  if s.isType (maxRecursionDepth - 1) type then do
    let temp ← s.writeVariant p (maxRecursionDepth - 2) type var
    require (temp.length ≤ maximumSize) .tooLarge
    return temp
  else
    p.asBytes var

end AbiSerializer

end GxbCore.Abi
