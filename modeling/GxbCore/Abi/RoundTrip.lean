import Mathlib.Algebra.Group.Nat.Defs
import GxbCore.Abi.Serializer

/-!
# Bytes and variants

`variant_to_binary` and `binary_to_variant` are two recursions over the types of
an ABI.  They meet at the layout of a struct: its fields, those of its bases
first.  The first packs the values that an object has for these fields, one after
the other, and the second reads them back in the same order.

Where they differ, bytes do not come back: the first does not know optionals of
types that are not built in, and writes nothing for a struct that is neither an
object nor an array; the second goes deeper for every struct, and has no empty
objects and no null in an array.
-/

namespace GxbCore.Abi

/-- What the built-in types give back, and the sizes of arrays. -/
structure Primitives.Lawful {S : Type} (p : Primitives S)
    (canonical : TypeName → Bool → Bool → Variant S → Variant S) : Prop where
  comesBack :
    ∀ {type : TypeName} {array optional : Bool} {value : Variant S}
      {bytes : Bytes}, isBuiltinType type = true →
      p.pack type array optional value = .ok bytes →
        ∀ rest, p.unpack type array optional (bytes ++ rest) =
          .ok (canonical type array optional value, rest)
  accepted :
    ∀ {type : TypeName} {array optional : Bool} {value : Variant S}
      {stream rest : Bytes}, isBuiltinType type = true →
      p.unpack type array optional stream = .ok (value, rest) →
        ∃ bytes, p.pack type array optional value = .ok bytes
  size :
    ∀ (size : Nat) (rest : Bytes),
      p.unpackSize (p.packSize size ++ rest) = .ok (size % 2 ^ 32, rest)

namespace AbiSerializer

variable {S : Type} {s : AbiSerializer} {p : Primitives S}

theorem followTypedefs_end {count : Nat} {type last : TypeName}
    (followed : s.followTypedefs count type = some last) :
    s.typedefs.lookup last = none := by
  induction count generalizing type with
  | zero => cases followed
  | succ count ih =>
      rw [followTypedefs] at followed
      split at followed
      · next none =>
          cases followed
          exact none
      · exact ih followed

theorem resolveType_resolveType (type : TypeName) :
    s.resolveType (s.resolveType type) = s.resolveType type := by
  cases found : s.typedefs.lookup type with
  | none =>
      have same : s.resolveType type = type := by
        rw [resolveType, found]
      rw [same, same]
  | some next =>
      cases followed : s.followTypedefs s.typedefs.length next with
      | none =>
          have same : s.resolveType type = type := by
            rw [resolveType, found]
            simp only [followed]
            rfl
          rw [same, same]
      | some last =>
          have same : s.resolveType type = last := by
            rw [resolveType, found]
            simp only [followed]
            rfl
          rw [same, resolveType, followTypedefs_end followed]

theorem getStruct_resolveType {type : TypeName} {st : StructDef} :
    s.getStruct (s.resolveType type) = .ok st ↔ s.getStruct type = .ok st := by
  rw [getStruct, getStruct, orThrow_eq_ok, orThrow_eq_ok,
    resolveType_resolveType]

/-- The type is a built-in one, or an array or an optional of it. -/
def Builtin (s : AbiSerializer) (type : TypeName) : Prop :=
  isBuiltinType (fundamentalType (s.resolveType type)) = true

structure ArrayType (s : AbiSerializer) (type : TypeName) : Prop where
  notBuiltin : ¬ s.Builtin type
  isArray : isArray (s.resolveType type) = true

/-- The type is none of these. -/
structure StructType (s : AbiSerializer) (type : TypeName) : Prop where
  notBuiltin : ¬ s.Builtin type
  notArray : ¬ isArray (s.resolveType type) = true

def elementType (s : AbiSerializer) (type : TypeName) : TypeName :=
  fundamentalType (s.resolveType type)

section Branches

variable {left : Nat} {type : TypeName} {stream rest bytes : Bytes}
  {value : Variant S}

theorem readVariant_builtin (isBuiltin : s.Builtin type) :
    s.readVariant p (left + 1) type stream =
      p.unpack (s.elementType type) (isArray (s.resolveType type))
        (isOptional (s.resolveType type)) stream := by
  rw [Builtin] at isBuiltin
  simp only [readVariant, isBuiltin, if_true]
  rfl

theorem writeVariant_builtin (isBuiltin : s.Builtin type) :
    s.writeVariant p (left + 1) type value =
      p.pack (s.elementType type) (isArray (s.resolveType type))
        (isOptional (s.resolveType type)) value := by
  rw [Builtin] at isBuiltin
  simp only [writeVariant, isBuiltin, if_true]
  rfl

theorem readVariant_array (array : s.ArrayType type) :
    s.readVariant p (left + 1) type stream = .ok (value, rest) ↔
      ∃ size middle values,
        p.unpackSize stream = .ok (size, middle) ∧
        unpackTimes (readElement (s.readVariant p left (s.elementType type)))
            size middle = .ok (values, rest) ∧
        value = .array values := by
  have notBuiltin := array.notBuiltin
  rw [Builtin] at notBuiltin
  simp only [readVariant, notBuiltin, array.isArray, if_true, if_false, Bool.false_eq_true,
    bind_eq_ok]
  constructor
  · rintro ⟨⟨size, middle⟩, isSize, ⟨values, last⟩, each, returned⟩
    cases returned
    exact ⟨size, middle, values, isSize, each, rfl⟩
  · rintro ⟨size, middle, values, isSize, each, rfl⟩
    exact ⟨(size, middle), isSize, (values, rest), each, rfl⟩

theorem writeVariant_array (array : s.ArrayType type) :
    s.writeVariant p (left + 1) type value = .ok bytes ↔
      ∃ values body,
        value = .array values ∧
        packAll (s.writeVariant p left (s.elementType type)) values =
          .ok body ∧
        bytes = p.packSize values.length ++ body := by
  have notBuiltin := array.notBuiltin
  rw [Builtin] at notBuiltin
  simp only [writeVariant, notBuiltin, array.isArray, if_true, if_false,
    Bool.false_eq_true]
  cases value with
  | array values =>
      simp only [bind_eq_ok]
      constructor
      · rintro ⟨body, packed, returned⟩
        cases returned
        exact ⟨values, body, rfl, packed, rfl⟩
      · rintro ⟨others, body, same, packed, rfl⟩
        cases same
        exact ⟨body, packed, rfl⟩
  | null | scalar | object =>
      constructor
      · intro written
        cases written
      · rintro ⟨_, _, same, _⟩
        cases same

theorem readVariant_struct (struct : s.StructType type)
    (notOptional : ¬ isOptional (s.resolveType type) = true) :
    s.readVariant p (left + 1) type stream = .ok (value, rest) ↔
      ∃ obj,
        s.readStruct p left (s.resolveType type) [] stream =
          .ok (obj, rest) ∧
        obj ≠ [] ∧ value = .object obj := by
  have notBuiltin := struct.notBuiltin
  rw [Builtin] at notBuiltin
  simp only [readVariant, notBuiltin, struct.notArray, notOptional, if_false,
    Bool.false_eq_true,
    bind_eq_ok]
  constructor
  · rintro ⟨⟨obj, last⟩, isRead, returned⟩
    cases obj with
    | nil => cases returned
    | cons entry others =>
        cases returned
        exact ⟨entry :: others, isRead, List.cons_ne_nil _ _, rfl⟩
  · rintro ⟨obj, isRead, notEmpty, rfl⟩
    refine ⟨(obj, rest), isRead, ?_⟩
    cases obj with
    | nil => exact absurd rfl notEmpty
    | cons entry others => rfl

theorem readStruct_eq_ok {obj : List (FieldName × Variant S)}
    {final : List (FieldName × Variant S) × Bytes} :
    s.readStruct p (left + 1) type obj stream = .ok final ↔
      ∃ st start,
        s.getStruct type = .ok st ∧
        (if st.base = [] then .ok (obj, stream)
          else s.readStruct p left (s.resolveType st.base) obj stream) =
          .ok start ∧
        readFields
            (fun type => s.readVariant p left (s.resolveType type))
            st.fields start.1 start.2 = .ok final := by
  simp only [readStruct, bind_eq_ok]
  constructor
  · rintro ⟨st, isStruct, start, based, fields⟩
    exact ⟨st, start, isStruct, based, fields⟩
  · rintro ⟨st, start, isStruct, based, fields⟩
    exact ⟨st, isStruct, start, based, fields⟩

variable {entries : List (FieldName × Variant S)}

theorem writeVariant_object (struct : s.StructType type) :
    s.writeVariant p (left + 1) type (.object entries) = .ok bytes ↔
      ∃ st inherited own,
        s.getStruct type = .ok st ∧
        (if st.base = [] then .ok []
          else s.writeVariant p left (s.resolveType st.base)
            (.object entries)) = .ok inherited ∧
        packAll (writeField (s.writeVariant p left) entries) st.fields =
          .ok own ∧
        bytes = inherited ++ own := by
  have notBuiltin := struct.notBuiltin
  rw [Builtin] at notBuiltin
  simp only [writeVariant, notBuiltin, struct.notArray, if_false,
    Bool.false_eq_true, bind_eq_ok,
    getStruct_resolveType]
  constructor
  · rintro ⟨st, isStruct, inherited, based, own, packed, returned⟩
    cases returned
    exact ⟨st, inherited, own, isStruct, based, packed, rfl⟩
  · rintro ⟨st, inherited, own, isStruct, based, packed, rfl⟩
    exact ⟨st, isStruct, inherited, based, own, packed, rfl⟩

theorem writeField_eq_ok {write : TypeName → Variant S → Except AbiFault Bytes}
    {field : FieldDef} :
    writeField write entries field = .ok bytes ↔
      ∃ value, entries.lookup field.name = some value ∧
        write field.type value = .ok bytes := by
  unfold writeField
  cases entries.lookup field.name with
  | none =>
      simp only [bind_eq_ok]
      constructor
      · rintro ⟨_, _, missing⟩
        cases missing
      · rintro ⟨_, none, _⟩
        cases none
  | some value =>
      constructor
      · intro written
        exact ⟨value, rfl, written⟩
      · rintro ⟨_, same, written⟩
        cases same
        exact written

end Branches

/-- The fields of a struct in the order in which they are written, those of its
bases first.  A base that is named like a built-in type or an array is written
as such a one, and read as a struct. -/
inductive Layout (s : AbiSerializer) : TypeName → List FieldDef → Prop
  | root {type : TypeName} {st : StructDef}
      (found : s.getStruct type = .ok st) (noBase : st.base = []) :
      Layout s type st.fields
  | derived {type : TypeName} {st : StructDef} {inherited : List FieldDef}
      (found : s.getStruct type = .ok st) (hasBase : st.base ≠ [])
      (struct : s.StructType st.base)
      (bases : Layout s (s.resolveType st.base) inherited) :
      Layout s type (inherited ++ st.fields)

def HasField (s : AbiSerializer) (type : TypeName) (name : FieldName) : Prop :=
  ∃ fields, Layout s type fields ∧ name ∈ fields.map (·.name)

/-- Both conversions take the type for the same: for a built-in one, an array,
or a struct with at least one field and no two of the same name. -/
inductive Readable (s : AbiSerializer) (type : TypeName) : Prop
  | builtin (is : s.Builtin type)
  | array (is : s.ArrayType type)
  | struct (is : s.StructType type)
      (notOptional : ¬ isOptional (s.resolveType type) = true)
      {fields : List FieldDef} (layout : Layout s (s.resolveType type) fields)
      (notEmpty : fields ≠ []) (distinct : (fields.map (·.name)).Nodup)

inductive MadeOf (s : AbiSerializer) (type : TypeName) : TypeName → Prop
  | self : MadeOf s type type
  | element {other : TypeName} (of : MadeOf s type other)
      (array : s.ArrayType other) : MadeOf s type (s.elementType other)
  | field {other : TypeName} (of : MadeOf s type other)
      (struct : s.StructType other) {fields : List FieldDef}
      (layout : Layout s (s.resolveType other) fields) {field : FieldDef}
      (member : field ∈ fields) : MadeOf s type field.type

/-- Every type that values are made of is taken for the same. -/
def Regular (s : AbiSerializer) (type : TypeName) : Prop :=
  ∀ other, MadeOf s type other → s.Readable other

section Regular

variable {type other : TypeName}

theorem MadeOf.trans {last : TypeName} (first : MadeOf s type other)
    (second : MadeOf s other last) : MadeOf s type last := by
  induction second with
  | self => exact first
  | element _ array ih => exact ih.element array
  | field _ struct layout member ih =>
      exact ih.field struct layout member

theorem Regular.of (regular : s.Regular type) (of : MadeOf s type other) :
    s.Regular other :=
  fun _ more => regular _ (of.trans more)

theorem Regular.element (regular : s.Regular type) (array : s.ArrayType type) :
    s.Regular (s.elementType type) :=
  regular.of (MadeOf.self.element array)

theorem Regular.field (regular : s.Regular type) (struct : s.StructType type)
    {fields : List FieldDef} (layout : Layout s (s.resolveType type) fields)
    {field : FieldDef} (member : field ∈ fields) : s.Regular field.type :=
  regular.of (MadeOf.self.field struct layout member)

theorem StructType.resolved (struct : s.StructType type) :
    s.StructType (s.resolveType type) := by
  refine ⟨?_, ?_⟩
  · rw [Builtin, resolveType_resolveType]
    exact struct.notBuiltin
  · rw [resolveType_resolveType]
    exact struct.notArray

theorem Layout.unique {fields others : List FieldDef}
    (left : Layout s type fields) (right : Layout s type others) :
    others = fields := by
  induction left generalizing others with
  | root found noBase =>
      cases right with
      | root again _ =>
          cases found.symm.trans again
          rfl
      | derived again hasBase =>
          cases found.symm.trans again
          exact absurd noBase hasBase
  | derived found hasBase _ _ ih =>
      cases right with
      | root again noBase =>
          cases found.symm.trans again
          exact absurd noBase hasBase
      | derived again _ _ bases =>
          cases found.symm.trans again
          rw [ih bases]

/-- A regular type that is neither built in nor an array. -/
theorem Regular.readable (regular : s.Regular type) : s.Readable type :=
  regular type .self

end Regular

/-- What a built-in type gives back for a value. -/
def canonicalOf (s : AbiSerializer)
    (canonical : TypeName → Bool → Bool → Variant S → Variant S)
    (type : TypeName) (value : Variant S) : Variant S :=
  canonical (s.elementType type) (isArray (s.resolveType type))
    (isOptional (s.resolveType type)) value

/-- The values are the same, up to what the built-in types give back and the
order of the fields of an object. -/
inductive SameValue (s : AbiSerializer)
    (canonical : TypeName → Bool → Bool → Variant S → Variant S) :
    TypeName → Variant S → Variant S → Prop
  | builtin {type : TypeName} {value : Variant S} (is : s.Builtin type) :
      SameValue s canonical type value (s.canonicalOf canonical type value)
  | array {type : TypeName} {values others : List (Variant S)}
      (is : s.ArrayType type) (length : values.length = others.length)
      (each :
        ∀ pair ∈ values.zip others,
          SameValue s canonical (s.elementType type) pair.1 pair.2) :
      SameValue s canonical type (.array values) (.array others)
  | object {type : TypeName} {entries others : List (FieldName × Variant S)}
      (is : s.StructType type)
      (names :
        ∀ name, (entries.lookup name).isSome = (others.lookup name).isSome)
      (values :
        ∀ fields, Layout s (s.resolveType type) fields →
          ∀ field ∈ fields, ∀ value other,
            entries.lookup field.name = some value →
            others.lookup field.name = some other →
              SameValue s canonical field.type value other) :
      SameValue s canonical type (.object entries) (.object others)

mutual

/-- The value comes back when it can be read so deep: arrays have a size of 32
bits and no element that is read as null, and a struct is an object without any
other entries. -/
def Fits (s : AbiSerializer)
    (canonical : TypeName → Bool → Bool → Variant S → Variant S) :
    Nat → TypeName → Variant S → Prop
  | 0, _, _ => False
  | left + 1, type, value =>
      s.Builtin type ∨
      (s.ArrayType type ∧
        ∃ values, value = .array values ∧ values.length < 2 ^ 32 ∧
          ∀ element ∈ values,
            Fits s canonical left (s.elementType type) element ∧
              ¬ (s.Builtin (s.elementType type) ∧
                s.canonicalOf canonical (s.elementType type) element =
                  .null)) ∨
      (s.StructType type ∧
        ∃ entries, value = .object entries ∧
          FitsStruct s canonical left (s.resolveType type) entries ∧
          ∀ name, (entries.lookup name).isSome = true →
            s.HasField (s.resolveType type) name)

/-- The fields of the struct and of its bases come back. -/
def FitsStruct (s : AbiSerializer)
    (canonical : TypeName → Bool → Bool → Variant S → Variant S) :
    Nat → TypeName → List (FieldName × Variant S) → Prop
  | 0, _, _ => False
  | left + 1, type, entries =>
      ∃ st, s.getStruct type = .ok st ∧
        (st.base ≠ [] →
          FitsStruct s canonical left (s.resolveType st.base) entries) ∧
        ∀ field ∈ st.fields, ∀ value,
          entries.lookup field.name = some value →
            Fits s canonical left field.type value

end

section Fields

variable {read : TypeName → Bytes → Except AbiFault (Variant S × Bytes)}
  {fields : List FieldDef} {obj final : List (FieldName × Variant S)}
  {stream rest : Bytes}

theorem readFields_kept {name : FieldName}
    (isRead : readFields read fields obj stream = .ok (final, rest))
    (other : name ∉ fields.map (·.name)) :
    final.lookup name = obj.lookup name := by
  induction fields generalizing obj stream with
  | nil =>
      cases isRead
      rfl
  | cons field later ih =>
      obtain ⟨⟨value, middle⟩, _, isRead⟩ := bind_eq_ok.mp isRead
      rw [List.map_cons, List.mem_cons, not_or] at other
      rw [ih isRead other.2,
        lookup_setEntry_of_ne other.1]

theorem readFields_each
    (isRead : readFields read fields obj stream = .ok (final, rest))
    (distinct : (fields.map (·.name)).Nodup) :
    ∀ field ∈ fields, ∃ value before after,
      final.lookup field.name = some value ∧
      read field.type before = .ok (value, after) := by
  induction fields generalizing obj stream with
  | nil =>
      intro field member
      cases member
  | cons first later ih =>
      obtain ⟨⟨value, middle⟩, isFirst, isRead⟩ := bind_eq_ok.mp isRead
      rw [List.map_cons, List.nodup_cons] at distinct
      intro field member
      rcases List.mem_cons.mp member with rfl | inLater
      · refine ⟨value, stream, middle, ?_, isFirst⟩
        rw [readFields_kept isRead distinct.1, lookup_setEntry_self]
      · exact ih isRead distinct.2 field inLater

/-- Fields that come back from their bytes, one after the other. -/
theorem readFields_flatten {parts : List Bytes}
    {holds : FieldDef → Variant S → Prop}
    (each :
      List.Forall₂
        (fun field part => ∃ value, holds field value ∧
          ∀ rest, read field.type (part ++ rest) = .ok (value, rest))
        fields parts)
    (distinct : (fields.map (·.name)).Nodup)
    (obj : List (FieldName × Variant S)) :
    ∃ final,
      (∀ rest, readFields read fields obj (parts.flatten ++ rest) =
        .ok (final, rest)) ∧
      ∀ field ∈ fields, ∃ value,
        final.lookup field.name = some value ∧ holds field value := by
  induction each generalizing obj with
  | nil =>
      refine ⟨obj, fun _ => rfl, ?_⟩
      intro field member
      cases member
  | @cons first part later parts comesBack _ ih =>
      obtain ⟨value, isHeld, isRead⟩ := comesBack
      rw [List.map_cons, List.nodup_cons] at distinct
      obtain ⟨final, others, found⟩ :=
        ih distinct.2 (setEntry first.name value obj)
      refine ⟨final, ?_, ?_⟩
      · intro rest
        refine bind_eq_ok.mpr ⟨(value, parts.flatten ++ rest), ?_, others rest⟩
        rw [List.flatten_cons, List.append_assoc]
        exact isRead _
      · intro field member
        rcases List.mem_cons.mp member with rfl | inLater
        · refine ⟨value, ?_, isHeld⟩
          rw [readFields_kept (others []) distinct.1, lookup_setEntry_self]
        · exact found field inLater

end Fields

section ComesBack

variable {canonical : TypeName → Bool → Bool → Variant S → Variant S}
  {left : Nat} {type : TypeName} {fields : List FieldDef}

theorem writeVariant_resolveType (left : Nat) (type : TypeName)
    (value : Variant S) :
    s.writeVariant p left (s.resolveType type) value =
      s.writeVariant p left type value := by
  cases left with
  | zero => simp only [writeVariant]
  | succ left => simp only [writeVariant, resolveType_resolveType]

theorem readVariant_resolveType {stream : Bytes} {read : Variant S × Bytes} :
    s.readVariant p left (s.resolveType type) stream = .ok read ↔
      s.readVariant p left type stream = .ok read := by
  cases left with
  | zero => simp only [readVariant, reduceCtorEq]
  | succ left =>
      simp only [readVariant, resolveType_resolveType]
      split
      · rfl
      · split
        · rfl
        · split
          · rfl
          · -- only the exception names the type
            simp only [bind_eq_ok]
            refine exists_congr fun middle => and_congr_right fun _ => ?_
            split
            · simp only [reduceCtorEq]
            · rfl

/-- Whatever is written for a value that fits comes back. -/
def ComesBack (s : AbiSerializer) (p : Primitives S)
    (canonical : TypeName → Bool → Bool → Variant S → Variant S)
    (left : Nat) : Prop :=
  ∀ {type : TypeName} {value : Variant S} {bytes : Bytes} {depth : Nat},
    s.Regular type → s.Fits canonical left type value →
    s.writeVariant p depth type value = .ok bytes →
      ∃ other, s.SameValue canonical type value other ∧
        ∀ rest, s.readVariant p left type (bytes ++ rest) = .ok (other, rest)

variable {entries : List (FieldName × Variant S)}

theorem ownFields_comeBack {depth : Nat} {own : Bytes}
    (comesBack : ComesBack s p canonical left)
    (regular : ∀ field ∈ fields, s.Regular field.type)
    (distinct : (fields.map (·.name)).Nodup)
    (fits :
      ∀ field ∈ fields, ∀ value, entries.lookup field.name = some value →
        s.Fits canonical left field.type value)
    (packed :
      packAll (writeField (s.writeVariant p depth) entries) fields = .ok own)
    (obj : List (FieldName × Variant S)) :
    ∃ final,
      (∀ rest,
        readFields (fun type => s.readVariant p left (s.resolveType type))
          fields obj (own ++ rest) = .ok (final, rest)) ∧
      ∀ field ∈ fields, ∃ other,
        final.lookup field.name = some other ∧
        ∃ value, entries.lookup field.name = some value ∧
          s.SameValue canonical field.type value other := by
  obtain ⟨parts, each, rfl⟩ := packAll_eq_ok.mp packed
  refine readFields_flatten (List.forall₂_iff_zip.mpr ⟨each.length_eq, ?_⟩)
    distinct obj
  intro field part member
  have isField : field ∈ fields := (List.of_mem_zip member).1
  obtain ⟨value, found, written⟩ :=
    writeField_eq_ok.mp (List.forall₂_zip each member)
  obtain ⟨other, same, isRead⟩ :=
    comesBack (regular field isField) (fits field isField value found) written
  exact ⟨other, ⟨value, found, same⟩,
    fun rest => readVariant_resolveType.mpr (isRead rest)⟩

theorem Layout.comesBack (layout : Layout s type fields) {depth : Nat}
    {bytes : Bytes} (comesBack : ∀ less < left, ComesBack s p canonical less)
    (struct : s.StructType type)
    (regular : ∀ field ∈ fields, s.Regular field.type)
    (distinct : (fields.map (·.name)).Nodup)
    (fits : s.FitsStruct canonical left type entries)
    (written : s.writeVariant p depth type (.object entries) = .ok bytes)
    (obj : List (FieldName × Variant S)) :
    ∃ final,
      (∀ rest, s.readStruct p left type obj (bytes ++ rest) =
        .ok (final, rest)) ∧
      ∀ field ∈ fields, ∃ other,
        final.lookup field.name = some other ∧
        ∃ value, entries.lookup field.name = some value ∧
          s.SameValue canonical field.type value other := by
  induction layout generalizing left depth bytes obj with
  | @root type st found noBase =>
      cases left with
      | zero => exact absurd fits (by rw [FitsStruct]; exact id)
      | succ left =>
          cases depth with
          | zero => simp only [writeVariant, reduceCtorEq] at written
          | succ depth =>
              obtain ⟨other, again, _, fitsFields⟩ := fits
              cases found.symm.trans again
              obtain ⟨other, inherited, own, again, based, packed, rfl⟩ :=
                (writeVariant_object struct).mp written
              cases found.symm.trans again
              rw [if_pos noBase] at based
              cases based
              obtain ⟨final, isRead, values⟩ :=
                ownFields_comeBack (comesBack left (Nat.lt_succ_self left))
                  regular distinct fitsFields packed obj
              refine ⟨final, fun rest => ?_, values⟩
              exact readStruct_eq_ok.mpr
                ⟨st, (obj, own ++ rest), found, if_pos noBase, isRead rest⟩
  | @derived type st inheritedFields found hasBase baseStruct bases ih =>
      cases left with
      | zero => exact absurd fits (by rw [FitsStruct]; exact id)
      | succ left =>
          cases depth with
          | zero => simp only [writeVariant, reduceCtorEq] at written
          | succ depth =>
              obtain ⟨other, again, fitsBase, fitsFields⟩ := fits
              cases found.symm.trans again
              obtain ⟨other, inherited, own, again, based, packed, rfl⟩ :=
                (writeVariant_object struct).mp written
              cases found.symm.trans again
              rw [if_neg hasBase] at based
              rw [List.map_append, List.nodup_append] at distinct
              obtain ⟨middle, isBase, baseValues⟩ :=
                ih
                  (fun less below =>
                    comesBack less (Nat.lt_succ_of_lt below))
                  baseStruct.resolved
                  (fun field member =>
                    regular field (List.mem_append_left _ member))
                  distinct.1 (fitsBase hasBase) based obj
              obtain ⟨final, isRead, values⟩ :=
                ownFields_comeBack (comesBack left (Nat.lt_succ_self left))
                  (fun field member =>
                    regular field (List.mem_append_right _ member))
                  distinct.2.1 fitsFields packed middle
              refine ⟨final, fun rest => ?_, ?_⟩
              · refine readStruct_eq_ok.mpr
                  ⟨st, (middle, own ++ rest), found, ?_, isRead rest⟩
                rw [if_neg hasBase, List.append_assoc]
                exact isBase (own ++ rest)
              · intro field member
                rcases List.mem_append.mp member with inBase | isOwn
                · obtain ⟨other, isOther, same⟩ := baseValues field inBase
                  refine ⟨other, ?_, same⟩
                  rw [readFields_kept (isRead []), isOther]
                  intro isName
                  exact distinct.2.2 field.name
                    (List.mem_map_of_mem inBase) field.name isName rfl
                · exact values field isOwn

theorem Layout.kept (layout : Layout s type fields)
    {obj final : List (FieldName × Variant S)} {stream rest : Bytes}
    {name : FieldName} (other : name ∉ fields.map (·.name))
    (isRead : s.readStruct p left type obj stream = .ok (final, rest)) :
    final.lookup name = obj.lookup name := by
  induction layout generalizing left obj stream final rest with
  | @root type st found noBase =>
      cases left with
      | zero => simp only [readStruct, reduceCtorEq] at isRead
      | succ left =>
          obtain ⟨st, start, again, based, own⟩ := readStruct_eq_ok.mp isRead
          cases found.symm.trans again
          rw [if_pos noBase] at based
          cases based
          exact readFields_kept own other
  | @derived type st inheritedFields found hasBase baseStruct bases ih =>
      cases left with
      | zero => simp only [readStruct, reduceCtorEq] at isRead
      | succ left =>
          obtain ⟨st, start, again, based, own⟩ := readStruct_eq_ok.mp isRead
          cases found.symm.trans again
          rw [if_neg hasBase] at based
          rw [List.map_append, List.mem_append, not_or] at other
          rw [readFields_kept own other.2]
          exact ih other.1 based

theorem SameValue.isNull_eq_false {value other : Variant S}
    (same : s.SameValue canonical type value other)
    (notNull :
      ¬ (s.Builtin type ∧ s.canonicalOf canonical type value = .null)) :
    other.isNull = false := by
  cases same with
  | builtin is =>
      cases isNull : s.canonicalOf canonical type value with
      | null => exact absurd ⟨is, isNull⟩ notNull
      | scalar | array | object => rfl
  | array => rfl
  | object => rfl

theorem readElement_eq_ok {read : Bytes → Except AbiFault (Variant S × Bytes)}
    {stream rest : Bytes} {value : Variant S} :
    readElement read stream = .ok (value, rest) ↔
      read stream = .ok (value, rest) ∧ value.isNull = false := by
  rw [readElement, bind_eq_ok]
  constructor
  · rintro ⟨⟨found, last⟩, isRead, returned⟩
    cases isNull : found.isNull with
    | true =>
        simp only [isNull, if_true, reduceCtorEq] at returned
    | false =>
        simp only [isNull, Bool.false_eq_true, if_false] at returned
        cases returned
        exact ⟨isRead, isNull⟩
  · rintro ⟨isRead, notNull⟩
    refine ⟨(value, rest), isRead, ?_⟩
    simp only [notNull, Bool.false_eq_true, if_false]
    rfl

theorem elements_comeBack {values : List (Variant S)} {parts : List Bytes}
    {depth : Nat} (comesBack : ComesBack s p canonical left)
    (regular : s.Regular type)
    (each :
      List.Forall₂
        (fun element part => s.writeVariant p depth type element = .ok part)
        values parts)
    (fits :
      ∀ element ∈ values,
        s.Fits canonical left type element ∧
          ¬ (s.Builtin type ∧ s.canonicalOf canonical type element = .null)) :
    ∃ others,
      List.Forall₂
        (fun part other => ∀ rest,
          readElement (s.readVariant p left type) (part ++ rest) =
            .ok (other, rest))
        parts others ∧
      List.Forall₂ (s.SameValue canonical type) values others := by
  induction each with
  | nil => exact ⟨[], .nil, .nil⟩
  | @cons element part later parts written _ ih =>
      obtain ⟨fitsFirst, notNull⟩ := fits element List.mem_cons_self
      obtain ⟨other, same, isRead⟩ := comesBack regular fitsFirst written
      obtain ⟨others, areRead, areSame⟩ :=
        ih
          (fun next member => fits next (List.mem_cons_of_mem element member))
      refine ⟨other :: others, .cons ?_ areRead, .cons same areSame⟩
      intro rest
      exact readElement_eq_ok.mpr
        ⟨isRead rest, same.isNull_eq_false notNull⟩

/-- What is written for a value that fits comes back, at every depth. -/
theorem comesBack_all (lawful : p.Lawful canonical) (left : Nat) :
    ComesBack s p canonical left := by
  induction left using Nat.strongRecOn with
  | _ left ih =>
    intro type value bytes depth regular fits written
    cases left with
    | zero => exact absurd fits (by rw [Fits]; exact id)
    | succ left =>
      cases depth with
      | zero => simp only [writeVariant, reduceCtorEq] at written
      | succ depth =>
        cases regular.readable with
        | builtin is =>
            rw [writeVariant_builtin is] at written
            refine ⟨_, .builtin is, fun rest => ?_⟩
            rw [readVariant_builtin is]
            exact lawful.comesBack is written rest
        | array is =>
            obtain ⟨values, body, rfl, packed, rfl⟩ :=
              (writeVariant_array is).mp written
            obtain ⟨parts, each, rfl⟩ := packAll_eq_ok.mp packed
            rcases fits with builtin | ⟨_, others, same, small, fits⟩ |
                ⟨struct, _⟩
            · exact absurd builtin is.notBuiltin
            · cases same
              obtain ⟨others, areRead, areSame⟩ :=
                elements_comeBack (ih left (by omega))
                  (regular.element is) each fits
              refine ⟨.array others, .array is areSame.length_eq ?_, ?_⟩
              · intro pair member
                exact List.forall₂_zip areSame member
              · intro rest
                refine (readVariant_array is).mpr
                  ⟨values.length, parts.flatten ++ rest, others, ?_, ?_, rfl⟩
                · rw [List.append_assoc, lawful.size,
                    Nat.mod_eq_of_lt small]
                · rw [each.length_eq]
                  exact unpackTimes_flatten areRead rest
            · exact absurd is.isArray struct.notArray
        | @struct is notOptional fields layout notEmpty distinct =>
            rcases fits with builtin | ⟨array, _⟩ |
                ⟨_, entries, rfl, fits, onlyFields⟩
            · exact absurd builtin is.notBuiltin
            · exact absurd array.isArray is.notArray
            · rw [← writeVariant_resolveType] at written
              obtain ⟨final, isRead, values⟩ :=
                layout.comesBack
                  (fun less below => ih less (by omega))
                  is.resolved
                  (fun field member => regular.field is layout member)
                  distinct fits written []
              refine ⟨.object final, .object is ?_ ?_, fun rest => ?_⟩
              · intro name
                by_cases isField : name ∈ fields.map (·.name)
                · obtain ⟨field, member, rfl⟩ := List.mem_map.mp isField
                  obtain ⟨other, found, value, wasFound, _⟩ :=
                    values field member
                  rw [found, wasFound]
                  rfl
                · have noOther :
                      ¬ (entries.lookup name).isSome = true := by
                    intro isSome
                    obtain ⟨others, again, isOther⟩ := onlyFields name isSome
                    rw [layout.unique again] at isOther
                    exact isField isOther
                  rw [layout.kept isField (isRead [])]
                  exact Bool.eq_false_iff.mpr noOther
              · intro others again field member value other wasFound found
                rw [layout.unique again] at member
                obtain ⟨value', found', other', wasFound', same⟩ :=
                  values field member
                cases found.symm.trans found'
                cases wasFound.symm.trans wasFound'
                exact same
              · refine (readVariant_struct is notOptional).mpr
                  ⟨final, isRead rest, ?_, rfl⟩
                rintro rfl
                obtain ⟨field, member⟩ := List.exists_mem_of_ne_nil _ notEmpty
                obtain ⟨_, found, _⟩ := values field member
                cases found

end ComesBack

section FitsBack

variable {canonical : TypeName → Bool → Bool → Variant S → Variant S}
  {left : Nat} {type : TypeName} {fields : List FieldDef}

def FitsBack (s : AbiSerializer) (p : Primitives S)
    (canonical : TypeName → Bool → Bool → Variant S → Variant S)
    (left : Nat) : Prop :=
  ∀ {type : TypeName} {value other : Variant S} {bytes rest last : Bytes}
    {depth : Nat},
    s.Regular type → s.writeVariant p depth type value = .ok bytes →
    s.readVariant p left type (bytes ++ rest) = .ok (other, last) →
    s.SameValue canonical type value other →
      s.Fits canonical left type value

variable {depth : Nat} {entries obj final : List (FieldName × Variant S)}

theorem ComesBack.leaves {value other : Variant S} {bytes rest last : Bytes}
    (comesBack : ComesBack s p canonical left) (regular : s.Regular type)
    (fits : s.Fits canonical left type value)
    (written : s.writeVariant p depth type value = .ok bytes)
    (isRead : s.readVariant p left type (bytes ++ rest) = .ok (other, last)) :
    last = rest := by
  obtain ⟨again, _, always⟩ := comesBack regular fits written
  cases (always rest).symm.trans isRead
  rfl

theorem ownFields_fit
    {own rest last : Bytes} (comesBack : ComesBack s p canonical left)
    (fitsBack : FitsBack s p canonical left)
    (regular : ∀ field ∈ fields, s.Regular field.type)
    (distinct : (fields.map (·.name)).Nodup)
    (packed :
      packAll (writeField (s.writeVariant p depth) entries) fields = .ok own)
    (isRead :
      readFields (fun type => s.readVariant p left (s.resolveType type))
        fields obj (own ++ rest) = .ok (final, last))
    (same :
      ∀ field ∈ fields, ∀ value other,
        entries.lookup field.name = some value →
        final.lookup field.name = some other →
          s.SameValue canonical field.type value other) :
    (∀ field ∈ fields, ∀ value, entries.lookup field.name = some value →
      s.Fits canonical left field.type value) ∧ last = rest := by
  obtain ⟨parts, each, rfl⟩ := packAll_eq_ok.mp packed
  clear packed
  induction each generalizing obj with
  | nil =>
      cases isRead
      refine ⟨?_, rfl⟩
      intro field member
      cases member
  | @cons first part later parts written _ ih =>
      obtain ⟨⟨other, middle⟩, isFirst, isLater⟩ := bind_eq_ok.mp isRead
      rw [List.map_cons, List.nodup_cons] at distinct
      obtain ⟨value, found, written⟩ := writeField_eq_ok.mp written
      have read := readVariant_resolveType.mp isFirst
      rw [List.flatten_cons, List.append_assoc] at read
      have isOther : final.lookup first.name = some other := by
        rw [readFields_kept isLater distinct.1, lookup_setEntry_self]
      have regularFirst := regular first List.mem_cons_self
      have fitsFirst :=
        fitsBack regularFirst written read
          (same first List.mem_cons_self value other found isOther)
      have follows := comesBack.leaves regularFirst fitsFirst written read
      subst follows
      obtain ⟨fits, ends⟩ :=
        ih
          (fun field member =>
            regular field (List.mem_cons_of_mem first member))
          distinct.2
          (fun field member =>
            same field (List.mem_cons_of_mem first member))
          isLater
      refine ⟨?_, ends⟩
      intro field member value' found'
      rcases List.mem_cons.mp member with rfl | inLater
      · cases found.symm.trans found'
        exact fitsFirst
      · exact fits field inLater value' found'

theorem Layout.fitsBack (layout : Layout s type fields)
    {bytes rest last : Bytes}
    (comesBack : ∀ less < left, ComesBack s p canonical less)
    (fitsBack : ∀ less < left, FitsBack s p canonical less)
    (struct : s.StructType type)
    (regular : ∀ field ∈ fields, s.Regular field.type)
    (distinct : (fields.map (·.name)).Nodup)
    (written : s.writeVariant p depth type (.object entries) = .ok bytes)
    (isRead : s.readStruct p left type obj (bytes ++ rest) = .ok (final, last))
    (same :
      ∀ field ∈ fields, ∀ value other,
        entries.lookup field.name = some value →
        final.lookup field.name = some other →
          s.SameValue canonical field.type value other) :
    s.FitsStruct canonical left type entries ∧ last = rest := by
  induction layout generalizing left depth bytes rest obj final last with
  | @root type st found noBase =>
      cases left with
      | zero => simp only [readStruct, reduceCtorEq] at isRead
      | succ left =>
          cases depth with
          | zero => simp only [writeVariant, reduceCtorEq] at written
          | succ depth =>
              obtain ⟨other, inherited, own, again, based, packed, rfl⟩ :=
                (writeVariant_object struct).mp written
              cases found.symm.trans again
              rw [if_pos noBase] at based
              cases based
              obtain ⟨st, start, again, based, fieldsRead⟩ :=
                readStruct_eq_ok.mp isRead
              cases found.symm.trans again
              rw [if_pos noBase] at based
              cases based
              have below := Nat.lt_succ_self left
              obtain ⟨fits, ends⟩ :=
                ownFields_fit (comesBack left below) (fitsBack left below)
                  regular distinct packed fieldsRead same
              exact ⟨⟨st, found, fun hasBase => absurd noBase hasBase, fits⟩,
                ends⟩
  | @derived type st inheritedFields found hasBase baseStruct bases ih =>
      cases left with
      | zero => simp only [readStruct, reduceCtorEq] at isRead
      | succ left =>
          cases depth with
          | zero => simp only [writeVariant, reduceCtorEq] at written
          | succ depth =>
              obtain ⟨other, inherited, own, again, based, packed, rfl⟩ :=
                (writeVariant_object struct).mp written
              cases found.symm.trans again
              rw [if_neg hasBase] at based
              obtain ⟨st, start, again, baseRead, fieldsRead⟩ :=
                readStruct_eq_ok.mp isRead
              cases found.symm.trans again
              rw [if_neg hasBase, List.append_assoc] at baseRead
              rw [List.map_append, List.nodup_append] at distinct
              have below := Nat.lt_succ_self left
              obtain ⟨middle, stream⟩ := start
              obtain ⟨fitsBase, baseEnds⟩ :=
                ih
                  (fun less under => comesBack less (Nat.lt_succ_of_lt under))
                  (fun less under => fitsBack less (Nat.lt_succ_of_lt under))
                  baseStruct.resolved
                  (fun field member =>
                    regular field (List.mem_append_left _ member))
                  distinct.1 based baseRead
                  (by
                    intro field member value other wasFound found
                    refine same field (List.mem_append_left _ member) value
                      other wasFound ?_
                    rw [readFields_kept fieldsRead, found]
                    intro isName
                    exact distinct.2.2 field.name
                      (List.mem_map_of_mem member) field.name isName rfl)
              subst baseEnds
              obtain ⟨fits, ends⟩ :=
                ownFields_fit (comesBack left below) (fitsBack left below)
                  (fun field member =>
                    regular field (List.mem_append_right _ member))
                  distinct.2.1 packed fieldsRead
                  (fun field member =>
                    same field (List.mem_append_right _ member))
              exact ⟨⟨st, found, fun _ => fitsBase, fits⟩, ends⟩

theorem elements_fit {values others : List (Variant S)} {parts : List Bytes}
    {rest last : Bytes} (comesBack : ComesBack s p canonical left)
    (fitsBack : FitsBack s p canonical left) (regular : s.Regular type)
    (each :
      List.Forall₂
        (fun element part => s.writeVariant p depth type element = .ok part)
        values parts)
    (isRead :
      unpackTimes (readElement (s.readVariant p left type)) values.length
        (parts.flatten ++ rest) = .ok (others, last))
    (same : List.Forall₂ (s.SameValue canonical type) values others) :
    ∀ element ∈ values,
      s.Fits canonical left type element ∧
        ¬ (s.Builtin type ∧ s.canonicalOf canonical type element = .null) := by
  induction each generalizing others with
  | nil =>
      intro element member
      cases member
  | @cons first part later parts written _ ih =>
      obtain ⟨⟨other, middle⟩, isFirst, isRead⟩ := bind_eq_ok.mp isRead
      obtain ⟨⟨others, final⟩, isLater, isRead⟩ := bind_eq_ok.mp isRead
      cases isRead
      cases same with
      | cons sameFirst sameLater =>
          obtain ⟨read, notNull⟩ := readElement_eq_ok.mp isFirst
          rw [List.flatten_cons, List.append_assoc] at read
          have fits := fitsBack regular written read sameFirst
          have follows := comesBack.leaves regular fits written read
          subst follows
          intro element member
          rcases List.mem_cons.mp member with rfl | inLater
          · refine ⟨fits, ?_⟩
            rintro ⟨is, isNull⟩
            cases sameFirst with
            | builtin =>
                rw [isNull] at notNull
                cases notNull
            | array array => exact array.notBuiltin is
            | object struct => exact struct.notBuiltin is
          · exact ih isLater sameLater element inLater

theorem fitsBack_all (lawful : p.Lawful canonical) (left : Nat) :
    FitsBack s p canonical left := by
  induction left using Nat.strongRecOn with
  | _ left ih =>
    intro type value other bytes rest last depth regular written isRead same
    cases left with
    | zero => simp only [readVariant, reduceCtorEq] at isRead
    | succ left =>
      cases depth with
      | zero => simp only [writeVariant, reduceCtorEq] at written
      | succ depth =>
        cases same with
        | builtin is => exact .inl is
        | @array _ values others is length each =>
            obtain ⟨_, body, same, packed, rfl⟩ :=
              (writeVariant_array is).mp written
            cases same
            obtain ⟨parts, areWritten, rfl⟩ := packAll_eq_ok.mp packed
            obtain ⟨size, middle, _, isSize, areRead, same⟩ :=
              (readVariant_array is).mp isRead
            cases same
            rw [List.append_assoc, lawful.size] at isSize
            cases isSize
            have small : values.length % 2 ^ 32 = values.length :=
              (unpackTimes_length areRead).symm.trans length.symm
            rw [small] at areRead
            refine .inr (.inl ⟨is, values, rfl, by omega, ?_⟩)
            exact elements_fit (comesBack_all lawful left)
              (ih left (Nat.lt_succ_self left))
              (regular.element is) areWritten areRead
              (List.forall₂_iff_zip.mpr
                ⟨length, fun member => each _ member⟩)
        | @object _ entries others is names values =>
            cases regular.readable with
            | builtin builtin => exact absurd builtin is.notBuiltin
            | array array => exact absurd array.isArray is.notArray
            | @struct _ notOptional fields layout notEmpty distinct =>
                obtain ⟨_, structRead, _, same⟩ :=
                  (readVariant_struct is notOptional).mp isRead
                cases same
                rw [← writeVariant_resolveType] at written
                obtain ⟨fits, _⟩ :=
                  layout.fitsBack
                    (fun less _ => comesBack_all lawful less)
                    (fun less below => ih less (by omega))
                    is.resolved
                    (fun field member => regular.field is layout member)
                    distinct written structRead (values fields layout)
                refine .inr (.inr ⟨is, entries, rfl, fits, ?_⟩)
                intro name isSome
                refine ⟨fields, layout, ?_⟩
                by_contra notField
                rw [names, layout.kept notField structRead] at isSome
                cases isSome

end FitsBack

section Accepted

variable {canonical : TypeName → Bool → Bool → Variant S → Variant S}
  {left : Nat} {type : TypeName} {fields : List FieldDef}

/-- What can be written so deep is written the same one level deeper. -/
theorem writeVariant_succ {value : Variant S} {bytes : Bytes}
    (written : s.writeVariant p left type value = .ok bytes) :
    s.writeVariant p (left + 1) type value = .ok bytes := by
  induction left generalizing type value bytes with
  | zero => simp only [writeVariant, reduceCtorEq] at written
  | succ left ih =>
      by_cases is : s.Builtin type
      · rw [writeVariant_builtin is] at written ⊢
        exact written
      · by_cases array : isArray (s.resolveType type) = true
        · obtain ⟨values, body, rfl, packed, rfl⟩ :=
            (writeVariant_array ⟨is, array⟩).mp written
          refine (writeVariant_array ⟨is, array⟩).mpr
            ⟨values, body, rfl, ?_, rfl⟩
          exact packAll_congr (fun _ _ _ => ih) packed
        · cases value with
          | null | scalar =>
              rw [Builtin] at is
              simp only [writeVariant, is, array, if_false,
                Bool.false_eq_true] at written ⊢
              exact written
          | array values =>
              rw [Builtin] at is
              simp only [writeVariant, is, array, if_false,
                Bool.false_eq_true, bind_eq_ok] at written ⊢
              obtain ⟨st, found, written⟩ := written
              refine ⟨st, found, ?_⟩
              split at written
              · next noBase =>
                  rw [if_pos noBase]
                  split at written
                  · next none =>
                      rw [if_pos none]
                      exact written
                  · next some =>
                      rw [if_neg some]
                      exact packAll_congr (fun _ _ _ => ih)
                        written
              · cases written
          | object entries =>
              obtain ⟨st, inherited, own, found, based, packed, rfl⟩ :=
                (writeVariant_object ⟨is, array⟩).mp written
              refine (writeVariant_object ⟨is, array⟩).mpr
                ⟨st, inherited, own, found, ?_, ?_, rfl⟩
              · split at based
                · next noBase =>
                    rw [if_pos noBase]
                    exact based
                · next hasBase =>
                    rw [if_neg hasBase]
                    exact ih based
              · refine packAll_congr ?_ packed
                intro field _ part fieldWritten
                obtain ⟨value, isValue, fieldWritten⟩ :=
                  writeField_eq_ok.mp fieldWritten
                exact writeField_eq_ok.mpr
                  ⟨value, isValue, ih fieldWritten⟩

/-- What was read can be written. -/
def Accepts (s : AbiSerializer) (p : Primitives S) (left : Nat) : Prop :=
  ∀ {type : TypeName} {value : Variant S} {stream rest : Bytes},
    s.Regular type → s.readVariant p left type stream = .ok (value, rest) →
      ∃ bytes, s.writeVariant p left type value = .ok bytes

variable {obj final entries : List (FieldName × Variant S)}

theorem ownFields_accepted {stream rest : Bytes} (accepts : Accepts s p left)
    (regular : ∀ field ∈ fields, s.Regular field.type)
    (distinct : (fields.map (·.name)).Nodup)
    (isRead :
      readFields (fun type => s.readVariant p left (s.resolveType type))
        fields obj stream = .ok (final, rest))
    (same :
      ∀ field ∈ fields,
        entries.lookup field.name = final.lookup field.name) :
    ∃ own,
      packAll (writeField (s.writeVariant p left) entries) fields =
        .ok own := by
  apply packAll_returns
  intro field member
  obtain ⟨value, before, after, found, read⟩ :=
    readFields_each isRead distinct field member
  obtain ⟨part, written⟩ :=
    accepts (regular field member) (readVariant_resolveType.mp read)
  exact ⟨part, writeField_eq_ok.mpr
    ⟨value, (same field member).trans found, written⟩⟩

/-- The fields of a struct can be written, those of its bases first. -/
theorem Layout.accepted (layout : Layout s type fields) {stream rest : Bytes}
    (accepts : ∀ less < left, Accepts s p less) (struct : s.StructType type)
    (regular : ∀ field ∈ fields, s.Regular field.type)
    (distinct : (fields.map (·.name)).Nodup)
    (isRead : s.readStruct p left type obj stream = .ok (final, rest))
    (same :
      ∀ field ∈ fields,
        entries.lookup field.name = final.lookup field.name) :
    ∃ bytes, s.writeVariant p left type (.object entries) = .ok bytes := by
  induction layout generalizing left obj stream final rest with
  | @root type st found noBase =>
      cases left with
      | zero => simp only [readStruct, reduceCtorEq] at isRead
      | succ left =>
          obtain ⟨st, start, again, _, fieldsRead⟩ :=
            readStruct_eq_ok.mp isRead
          cases found.symm.trans again
          obtain ⟨own, packed⟩ :=
            ownFields_accepted (accepts left (Nat.lt_succ_self left)) regular
              distinct fieldsRead same
          exact ⟨_, (writeVariant_object struct).mpr
            ⟨st, [], own, found, if_pos noBase, packed, rfl⟩⟩
  | @derived type st inheritedFields found hasBase baseStruct bases ih =>
      cases left with
      | zero => simp only [readStruct, reduceCtorEq] at isRead
      | succ left =>
          obtain ⟨st, start, again, baseRead, fieldsRead⟩ :=
            readStruct_eq_ok.mp isRead
          cases found.symm.trans again
          rw [if_neg hasBase] at baseRead
          rw [List.map_append, List.nodup_append] at distinct
          obtain ⟨own, packed⟩ :=
            ownFields_accepted (accepts left (Nat.lt_succ_self left))
              (fun field member =>
                regular field (List.mem_append_right _ member))
              distinct.2.1 fieldsRead
              (fun field member =>
                same field (List.mem_append_right _ member))
          obtain ⟨inherited, written⟩ :=
            ih
              (fun less under => accepts less (Nat.lt_succ_of_lt under))
              baseStruct.resolved
              (fun field member =>
                regular field (List.mem_append_left _ member))
              distinct.1 baseRead
              (by
                intro field member
                rw [same field (List.mem_append_left _ member),
                  readFields_kept fieldsRead]
                intro isName
                exact distinct.2.2 field.name
                  (List.mem_map_of_mem member) field.name isName rfl)
          exact ⟨_, (writeVariant_object struct).mpr
            ⟨st, inherited, own, found,
              (if_neg hasBase).trans written, packed, rfl⟩⟩

theorem accepts_all (lawful : p.Lawful canonical) (left : Nat) :
    Accepts s p left := by
  induction left using Nat.strongRecOn with
  | _ left ih =>
    intro type value stream rest regular isRead
    cases left with
    | zero => simp only [readVariant, reduceCtorEq] at isRead
    | succ left =>
      cases regular.readable with
      | builtin is =>
          rw [readVariant_builtin is] at isRead
          rw [writeVariant_builtin is]
          exact lawful.accepted is isRead
      | array is =>
          obtain ⟨size, middle, values, _, areRead, rfl⟩ :=
            (readVariant_array is).mp isRead
          have each :
              ∀ element ∈ values, ∃ part,
                s.writeVariant p left (s.elementType type) element =
                  .ok part := by
            intro element member
            obtain ⟨before, after, read⟩ :=
              unpackTimes_each areRead element member
            exact ih left (Nat.lt_succ_self left)
              (regular.element is) (readElement_eq_ok.mp read).1
          obtain ⟨body, packed⟩ := packAll_returns each
          exact ⟨_, (writeVariant_array is).mpr
            ⟨values, body, rfl, packed, rfl⟩⟩
      | @struct is notOptional fields layout notEmpty distinct =>
          obtain ⟨obj, structRead, _, rfl⟩ :=
            (readVariant_struct is notOptional).mp isRead
          obtain ⟨bytes, written⟩ :=
            layout.accepted
              (fun less below => ih less (by omega))
              is.resolved
              (fun field member => regular.field is layout member)
              distinct structRead (fun _ _ => rfl)
          rw [writeVariant_resolveType] at written
          exact ⟨bytes, writeVariant_succ written⟩

end Accepted

section Sample

/-- A number below `2 ^ 35`, seven bits a byte, the last one without a mark. -/
def packNumber : Nat → Nat → Bytes
  | 0, _ => []
  | more + 1, number =>
      if number < 128 then [UInt8.ofNat number]
      else UInt8.ofNat (number % 128 + 128) :: packNumber more (number / 128)

def unpackNumber : Nat → Bytes → Except AbiFault (Nat × Bytes)
  | 0, _ => .error .endOfStream
  | _, [] => .error .endOfStream
  | more + 1, byte :: stream =>
      if byte.toNat < 128 then .ok (byte.toNat, stream)
      else do
        let (number, stream) ← unpackNumber more stream
        return (byte.toNat - 128 + 128 * number, stream)

theorem unpackNumber_packNumber {bytes number : Nat}
    (small : number < 128 ^ bytes) (some : 0 < bytes) (rest : Bytes) :
    unpackNumber bytes (packNumber bytes number ++ rest) =
      .ok (number, rest) := by
  induction bytes generalizing number with
  | zero => cases some
  | succ more ih =>
      rw [packNumber]
      by_cases last : number < 128
      · have isByte : (UInt8.ofNat number).toNat = number := by
          rw [UInt8.toNat_ofNat']
          omega
        rw [if_pos last, List.singleton_append, unpackNumber, isByte,
          if_pos last]
      · have isByte :
            (UInt8.ofNat (number % 128 + 128)).toNat = number % 128 + 128 := by
          rw [UInt8.toNat_ofNat']
          omega
        have quotient : number / 128 < 128 ^ more := by
          rw [Nat.div_lt_iff_lt_mul (by decide), ← Nat.pow_succ]
          exact small
        have again : 0 < more := by
          cases more with
          | zero => exact absurd quotient (by simp; omega)
          | succ more => exact Nat.succ_pos more
        rw [if_neg last, List.cons_append, unpackNumber, isByte,
          if_neg (by omega), ih quotient again]
        show Except.ok (number % 128 + 128 - 128 + 128 * (number / 128), rest) =
          Except.ok (number, rest)
        rw [Nat.add_sub_cancel, Nat.mod_add_div]

/-- Built-in types of one byte, alone. -/
def bytePrimitives : Primitives Nat where
  unpack _ array optional stream :=
    match array, optional, stream with
    | false, false, byte :: stream => .ok (.scalar byte.toNat, stream)
    | _, _, _ => .error .endOfStream
  pack _ array optional value :=
    match array, optional, value with
    | false, false, .scalar number =>
        if number < 256 then .ok [UInt8.ofNat number] else .error .badCast
    | _, _, _ => .error .badCast
  unpackSize := unpackNumber 5
  packSize size := packNumber 5 (size % 2 ^ 32)
  asBytes _ := .error .badCast

theorem bytePrimitives_lawful :
    bytePrimitives.Lawful fun _ _ _ value => value where
  comesBack := by
    intro type array optional value bytes _ packed rest
    cases array with
    | true => cases packed
    | false =>
      cases optional with
      | true => cases packed
      | false =>
        cases value with
        | null | array | object => cases packed
        | scalar number =>
            simp only [bytePrimitives] at packed ⊢
            split at packed
            · next small =>
                cases packed
                have isByte : (UInt8.ofNat number).toNat = number := by
                  rw [UInt8.toNat_ofNat']
                  omega
                simp only [List.singleton_append, isByte]
            · cases packed
  accepted := by
    intro type array optional value stream rest _ unpacked
    cases array with
    | true => cases unpacked
    | false =>
      cases optional with
      | true => cases unpacked
      | false =>
        cases stream with
        | nil => cases unpacked
        | cons byte stream =>
            cases unpacked
            exact ⟨_, if_pos byte.toNat_lt⟩
  size size rest := by
    refine unpackNumber_packNumber ?_ (by decide) rest
    have small := Nat.mod_lt size (by decide : 0 < 2 ^ 32)
    exact Nat.lt_of_lt_of_le small (by decide)

/-- `point`, with the field `x` of type `uint8` -/
def pointAbi : AbiDef where
  types := []
  structs :=
    [⟨"point".toList, [], [⟨"x".toList, "uint8".toList⟩]⟩]
  actions := []
  tables := []
  errorMessages := []

def pointSerializer : AbiSerializer where
  typedefs := []
  structs :=
    [("point".toList, ⟨"point".toList, [], [⟨"x".toList, "uint8".toList⟩]⟩)]
  actions := []
  tables := []
  errorMessages := []

theorem point_struct : pointSerializer.StructType "point".toList :=
  ⟨by rw [Builtin]; decide, by decide⟩

theorem point_layout :
    Layout pointSerializer (pointSerializer.resolveType "point".toList)
      [⟨"x".toList, "uint8".toList⟩] :=
  @Layout.root pointSerializer _
    ⟨"point".toList, [], [⟨"x".toList, "uint8".toList⟩]⟩ rfl rfl

theorem point_regular : pointSerializer.Regular "point".toList := by
  intro other of
  have either : other = "point".toList ∨ other = "uint8".toList := by
    induction of with
    | self => exact .inl rfl
    | element _ array ih =>
        rcases ih with rfl | rfl
        · exact absurd array.isArray (by decide)
        · exact absurd array.isArray (by decide)
    | field _ struct layout member ih =>
        rcases ih with rfl | rfl
        · rw [point_layout.unique layout, List.mem_singleton] at member
          exact .inr (congrArg FieldDef.type member)
        · exact absurd (show pointSerializer.Builtin "uint8".toList by
            rw [Builtin]; decide) struct.notBuiltin
  rcases either with rfl | rfl
  · exact .struct point_struct (by decide) point_layout (List.cons_ne_nil _ _)
      (by decide)
  · exact .builtin (by rw [Builtin]; decide)

end Sample

end AbiSerializer

end GxbCore.Abi
