import GxbCore.Abi.Validation

/-!
# The types that the decoder comes to

The decoder resolves typedefs, takes suffixes off names and goes down into bases
and fields, each in turn.  With an ABI that was validated it finds every struct
that it looks for, down to the built-in types or to the limit of its recursion,
with one exception.  The name of a struct can itself end in a suffix.  The
validation takes one suffix off a name and finds the struct; the decoder goes on
and takes off the suffix of the struct as well.
-/

namespace GxbCore.Abi

/-- The name is that of an array or of an optional. -/
def hasSuffix (type : TypeName) : Bool :=
  isArray type || isOptional type

namespace AbiSerializer

mutual

/-- The recursion of the decoder from a type, with so many levels left, ends in
built-in types or at the limit. -/
inductive VariantEnds (s : AbiSerializer) : Nat → TypeName → Prop
  | limit (type : TypeName) : VariantEnds s 0 type
  | builtin {left : Nat} {type : TypeName} (is : s.Builtin type) :
      VariantEnds s (left + 1) type
  | element {left : Nat} {type : TypeName}
      (suffix : hasSuffix (s.resolveType type) = true)
      (ends : VariantEnds s left (s.elementType type)) :
      VariantEnds s (left + 1) type
  | object {left : Nat} {type : TypeName}
      (plain : hasSuffix (s.resolveType type) = false)
      (ends : StructEnds s left (s.resolveType type)) :
      VariantEnds s (left + 1) type

/-- The same of a struct, which goes on with its base and its fields; without
either there is nothing to go on with. -/
inductive StructEnds (s : AbiSerializer) : Nat → TypeName → Prop
  | limit (type : TypeName) : StructEnds s 0 type
  | found {left : Nat} {type : TypeName} {st : StructDef}
      (isStruct : s.getStruct type = .ok st)
      (base : st.base ≠ [] → StructEnds s left (s.resolveType st.base))
      (fields :
        ∀ field ∈ st.fields, VariantEnds s left (s.resolveType field.type)) :
      StructEnds s (left + 1) type

end

/-- Taking suffixes off a name, as the decoder does with so many levels left,
leads to a name that nothing is known by. -/
def dangles (s : AbiSerializer) : Nat → TypeName → Bool
  | 0, _ => false
  | 1, _ => false
  | left + 2, name =>
      if (s.nextTypedef name).isSome ∨
          isBuiltinType (fundamentalType name) = true then
        false
      else if hasSuffix name then
        s.dangles (left + 1) (fundamentalType name)
      else
        (s.structs.lookup name).isNone

/-- What is an array or an optional of a struct that is referred to leads to
something that is known, when more suffixes are taken off its name. -/
def SuffixesLead (s : AbiSerializer) : Prop :=
  ∀ type ∈ s.referenced, s.nextTypedef type = none → hasSuffix type = true →
    (s.structs.lookup (fundamentalType type)).isSome = true →
      s.dangles (maxRecursionDepth - 3) (fundamentalType type) = false

/-- The exception is another one than that of an unknown struct. -/
def NotUnknown (fault : AbiFault) : Prop :=
  ∀ type, fault ≠ .unknownStruct type

/-- The functions of the built-in types and of the stream know nothing of
structs, and a size of one can be read. -/
structure Plain {S : Type} (p : Primitives S) : Prop where
  unpack :
    ∀ type array optional stream,
      FailsOnly NotUnknown (p.unpack type array optional stream)
  unpackSize : ∀ stream, FailsOnly NotUnknown (p.unpackSize stream)
  one : ∃ bytes, ∀ rest, p.unpackSize (bytes ++ rest) = .ok (1, rest)

/-- An ABI in which names lead where they should: chains do not come back,
`resolve_type` returns their ends, and what the ABI refers to is decoded down to
the built-in types or to the limit, without a struct that is not there. -/
structure Resolves {S : Type} (s : AbiSerializer) (p : Primitives S) :
    Prop where
  typedefs :
    ∀ type, ¬ Relation.TransGen (Chains.Leads s.nextTypedef) type type
  bases : ∀ name, ¬ Relation.TransGen (Chains.Leads s.nextBase) name name
  resolved :
    ∀ type,
      Relation.ReflTransGen (Chains.Leads s.nextTypedef) type
          (s.resolveType type) ∧
        s.nextTypedef (s.resolveType type) = none
  known :
    ∀ type ∈ s.referenced, ∀ stream unknown,
      s.binaryToVariant p type stream ≠ .error (.unknownStruct unknown)
  ends :
    ∀ type ∈ s.referenced, s.VariantEnds (maxRecursionDepth - 2) type

section Reading

variable {S : Type} {s : AbiSerializer} {p : Primitives S}
  {expected : AbiFault → Prop}

theorem failsOnly_readElement
    {read : Bytes → Except AbiFault (Variant S × Bytes)}
    (isExpected : expected .invalidPackedArray)
    (each : ∀ stream, FailsOnly expected (read stream)) (stream : Bytes) :
    FailsOnly expected (readElement read stream) := by
  rw [readElement]
  apply failsOnly_bind (each stream)
  intro value _
  dsimp only
  split
  · exact failsOnly_error isExpected
  · exact failsOnly_ok _

theorem failsOnly_readFields
    {read : TypeName → Bytes → Except AbiFault (Variant S × Bytes)}
    {fields : List FieldDef}
    (each :
      ∀ field ∈ fields, ∀ stream, FailsOnly expected (read field.type stream))
    (obj : List (FieldName × Variant S)) (stream : Bytes) :
    FailsOnly expected (readFields read fields obj stream) := by
  induction fields generalizing obj stream with
  | nil => exact failsOnly_ok _
  | cons field later ih =>
      rw [readFields]
      apply failsOnly_bind (each field List.mem_cons_self stream)
      intro value _
      exact ih
        (fun other member => each other (List.mem_cons_of_mem field member)) _ _

section Branches

variable {left : Nat} {type : TypeName} {stream : Bytes}

theorem readVariant_arrayOf (notBuiltin : ¬ s.Builtin type)
    (array : isArray (s.resolveType type) = true) :
    s.readVariant p (left + 1) type stream =
      (do
        let (size, stream) ← p.unpackSize stream
        let (values, stream) ←
          unpackTimes (readElement (s.readVariant p left (s.elementType type)))
            size stream
        return (.array values, stream)) := by
  rw [readVariant.eq_def]
  exact (if_neg notBuiltin).trans (if_pos array)

theorem readVariant_optionalOf {flag : UInt8} (notBuiltin : ¬ s.Builtin type)
    (notArray : ¬ isArray (s.resolveType type) = true)
    (optional : isOptional (s.resolveType type) = true) :
    s.readVariant p (left + 1) type (flag :: stream) =
      if flag = 0 then .ok (.null, stream)
      else s.readVariant p left (s.elementType type) stream := by
  rw [readVariant.eq_def]
  exact (if_neg notBuiltin).trans ((if_neg notArray).trans (if_pos optional))

theorem readVariant_optionalOf_nil (notBuiltin : ¬ s.Builtin type)
    (notArray : ¬ isArray (s.resolveType type) = true)
    (optional : isOptional (s.resolveType type) = true) :
    s.readVariant p (left + 1) type [] = .error .endOfStream := by
  rw [readVariant.eq_def]
  exact (if_neg notBuiltin).trans ((if_neg notArray).trans (if_pos optional))

theorem readVariant_object (notBuiltin : ¬ s.Builtin type)
    (bare : hasSuffix (s.resolveType type) = false) :
    s.readVariant p (left + 1) type stream =
      (do
        let (obj, stream) ←
          s.readStruct p left (s.resolveType type) [] stream
        if obj.isEmpty then .error (.unableToUnpack type)
        else return (.object obj, stream)) := by
  obtain ⟨notArray, notOptional⟩ := Bool.or_eq_false_iff.mp bare
  rw [readVariant.eq_def]
  exact (if_neg notBuiltin).trans
    ((if_neg (Bool.not_eq_true _ ▸ notArray)).trans
      (if_neg (Bool.not_eq_true _ ▸ notOptional)))

end Branches

/-- When the recursion ends, no struct is looked for that is not there. -/
theorem failsOnly_of_ends (plain : Plain p) (left : Nat) :
    (∀ type stream, s.VariantEnds left type →
      FailsOnly NotUnknown (s.readVariant p left type stream)) ∧
    ∀ type obj stream, s.StructEnds left type →
      FailsOnly NotUnknown (s.readStruct p left type obj stream) := by
  induction left with
  | zero =>
      constructor
      · intro type stream _
        rw [readVariant.eq_def]
        exact failsOnly_error (by simp [NotUnknown])
      · intro type obj stream _
        rw [readStruct]
        exact failsOnly_error (by simp [NotUnknown])
  | succ left ih =>
      obtain ⟨variants, structs⟩ := ih
      constructor
      · intro type stream ends
        by_cases builtin : s.Builtin type
        · rw [readVariant_builtin builtin]
          exact plain.unpack _ _ _ _
        · cases ends with
          | builtin is => exact absurd is builtin
          | element suffix ends =>
              by_cases array : isArray (s.resolveType type) = true
              · rw [readVariant_arrayOf builtin array]
                apply failsOnly_bind (plain.unpackSize stream)
                intro size _
                refine failsOnly_bind
                  (failsOnly_unpackTimes (failsOnly_readElement
                    (by simp [NotUnknown])
                    fun stream => variants _ stream ends) _ _) ?_
                intro values _
                exact failsOnly_ok _
              · have optional : isOptional (s.resolveType type) = true := by
                  simpa [hasSuffix, array] using suffix
                cases stream with
                | nil =>
                    rw [readVariant_optionalOf_nil builtin array optional]
                    exact failsOnly_error (by simp [NotUnknown])
                | cons flag stream =>
                    rw [readVariant_optionalOf builtin array optional]
                    split
                    · exact failsOnly_ok _
                    · exact variants _ stream ends
          | object bare ends =>
              rw [readVariant_object builtin bare]
              apply failsOnly_bind (structs _ _ _ ends)
              intro obj _
              dsimp only
              split
              · exact failsOnly_error (by simp [NotUnknown])
              · exact failsOnly_ok _
      · intro type obj stream ends
        cases ends with
        | @found _ _ st isStruct base fields =>
            rw [readStruct, isStruct]
            show FailsOnly NotUnknown ((if st.base = [] then _ else _) >>= _)
            refine failsOnly_bind ?_ ?_
            · split
              · exact failsOnly_ok _
              · next hasBase => exact structs _ _ _ (base hasBase)
            · intro start _
              apply failsOnly_readFields
              intro field member stream
              exact variants _ stream (fields field member)

theorem readVariant_of_dangles (plain : Plain p) {left : Nat} {name : TypeName}
    (lost : s.dangles left name = true) :
    ∃ stream unknown,
      s.readVariant p left name stream = .error (.unknownStruct unknown) := by
  induction left generalizing name with
  | zero => cases lost
  | succ left ih =>
      cases left with
      | zero => cases lost
      | succ left =>
          rw [dangles] at lost
          split at lost
          · cases lost
          · next unnamed =>
              obtain ⟨noTypedef, notBuiltin⟩ := not_or.mp unnamed
              rw [Option.not_isSome_iff_eq_none] at noTypedef
              have same := resolveType_of_none noTypedef
              have isOther : ¬ s.Builtin name := by
                rw [Builtin, same]
                exact notBuiltin
              have element : s.elementType name = fundamentalType name := by
                rw [elementType, same]
              split at lost
              · next suffix =>
                  obtain ⟨stream, unknown, fails⟩ := ih lost
                  rw [← element] at fails
                  by_cases array : isArray name = true
                  · obtain ⟨bytes, one⟩ := plain.one
                    refine ⟨bytes ++ stream, unknown, ?_⟩
                    rw [readVariant_arrayOf isOther (same.symm ▸ array), one]
                    simp [unpackTimes, readElement, fails, bind, Except.bind]
                  · have optional : isOptional name = true := by
                      simpa [hasSuffix, array] using suffix
                    refine ⟨1 :: stream, unknown, ?_⟩
                    rw [readVariant_optionalOf isOther (same.symm ▸ array)
                      (same.symm ▸ optional), fails]
                    rfl
              · next suffix =>
                  have bare : hasSuffix (s.resolveType name) = false := by
                    rw [same]
                    exact Bool.not_eq_true _ ▸ suffix
                  refine ⟨[], name, ?_⟩
                  rw [Option.isNone_iff_eq_none] at lost
                  rw [readVariant_object isOther bare, same, readStruct,
                    getStruct, same, lost]
                  rfl

end Reading

section Accepted

variable {S : Type} {s : AbiSerializer} {p : Primitives S} {type : TypeName}

theorem fundamentalType_bare (bare : hasSuffix type = false) :
    fundamentalType type = type := by
  obtain ⟨notArray, notOptional⟩ := Bool.or_eq_false_iff.mp bare
  rw [fundamentalType, notArray, notOptional]
  rfl

theorem builtin_bare (builtin : isBuiltinType type = true) :
    hasSuffix type = false := by
  have all : ∀ type ∈ builtInTypes, hasSuffix type = false := by decide
  exact all type (List.contains_iff_mem.mp builtin)

theorem typedef_referenced {type next : TypeName}
    (leads : s.nextTypedef type = some next) : next ∈ s.referenced := by
  refine List.mem_append_left _ (List.mem_append_left _ ?_)
  exact List.mem_map.mpr ⟨(type, next), mem_of_lookup leads, rfl⟩

theorem field_referenced {st : StructDef} (isStruct : s.getStruct type = .ok st)
    {field : FieldDef} (member : field ∈ st.fields) :
    field.type ∈ s.referenced := by
  rw [getStruct, orThrow_eq_ok] at isStruct
  refine List.mem_append_left _ (List.mem_append_right _ ?_)
  exact List.mem_flatMap.mpr ⟨_, mem_of_lookup isStruct,
    List.mem_map.mpr ⟨field, member, rfl⟩⟩

/-- What ends a chain of typedefs is the type itself, or is referred to. -/
theorem Validated.resolved_referenced (valid : s.Validated) (type : TypeName) :
    s.resolveType type = type ∨ s.resolveType type ∈ s.referenced := by
  obtain ⟨reaches, _⟩ := resolveType_end valid.typedefs type
  rcases Relation.ReflTransGen.cases_tail reaches with same | ⟨_, _, leads⟩
  · exact .inl same
  · exact .inr (typedef_referenced leads)

theorem dangles_less {left more : Nat} {name : TypeName}
    (found : s.dangles more name = false) (atMost : left ≤ more) :
    s.dangles left name = false := by
  induction left generalizing more name with
  | zero => rfl
  | succ left ih =>
      cases left with
      | zero => rfl
      | succ left =>
          obtain ⟨rest, rfl⟩ := Nat.exists_eq_add_of_le atMost
          have isMore : left + 1 + 1 + rest = (left + rest) + 2 := by omega
          rw [isMore, dangles] at found
          rw [dangles]
          split at found
          · next known => rw [if_pos known]
          · next unknown =>
              rw [if_neg unknown]
              split at found
              · next suffix =>
                  rw [if_pos suffix]
                  exact ih found (by omega)
              · next bare =>
                  rw [if_neg bare]
                  exact found

/-- What was found to be a type leads, one suffix aside, to something known. -/
theorem dangles_of_isType {depth left : Nat}
    (isType : s.isType depth type = true)
    (struct :
      s.nextTypedef type = none → hasSuffix type = true →
        (s.structs.lookup (fundamentalType type)).isSome = true →
          s.dangles left (fundamentalType type) = false) :
    s.dangles (left + 1) type = false := by
  cases left with
  | zero => rfl
  | succ left =>
      rw [dangles]
      split
      · rfl
      · next unnamed =>
          obtain ⟨noTypedef, notBuiltin⟩ := not_or.mp unnamed
          rw [Option.not_isSome_iff_eq_none] at noTypedef
          cases depth with
          | zero => cases isType
          | succ depth =>
              simp only [AbiSerializer.isType, notBuiltin] at isType
              split
              · next suffix =>
                  cases named : s.typedefs.lookup (fundamentalType type) with
                  | some next =>
                      cases left with
                      | zero => rfl
                      | succ left =>
                          rw [dangles, nextTypedef, named]
                          rfl
                  | none =>
                      rw [named] at isType
                      exact struct noTypedef suffix isType
              · next bare =>
                  have same :=
                    fundamentalType_bare (Bool.not_eq_true _ ▸ bare)
                  rw [nextTypedef] at noTypedef
                  rw [same, noTypedef] at isType
                  simpa using isType

/-- No type that is referred to leads to something unknown. -/
theorem Validated.referenced_dangles (valid : s.Validated)
    (lead : s.SuffixesLead) (member : type ∈ s.referenced) :
    s.dangles (maxRecursionDepth - 2) type = false :=
  dangles_of_isType (valid.types type member) (lead type member)

/-- What leads to something known is decoded down to the built-in types or the
limit. -/
theorem Validated.ends (valid : s.Validated) (lead : s.SuffixesLead)
    {left : Nat} (atMost : left ≤ maxRecursionDepth - 2) :
    (∀ type, s.dangles left type = false → s.VariantEnds left type) ∧
      ∀ type st, s.getStruct type = .ok st → s.StructEnds left type := by
  induction left with
  | zero => exact ⟨fun type _ => .limit type, fun type _ _ => .limit type⟩
  | succ left ih =>
      obtain ⟨variants, structs⟩ := ih (by omega)
      have referred : ∀ type ∈ s.referenced, ∀ levels, levels ≤ left + 1 →
          s.dangles levels type = false := by
        intro type member levels within
        exact dangles_less (valid.referenced_dangles lead member) (by omega)
      constructor
      · intro type found
        have resolvedFound :
            s.dangles (left + 1) (s.resolveType type) = false := by
          rcases valid.resolved_referenced type with same | member
          · rw [same]
            exact found
          · exact referred _ member _ (Nat.le_refl _)
        by_cases builtin : s.Builtin type
        · exact .builtin builtin
        · obtain ⟨_, last⟩ := resolveType_end valid.typedefs type
          have unnamed : ¬ ((s.nextTypedef (s.resolveType type)).isSome = true ∨
              isBuiltinType (fundamentalType (s.resolveType type)) = true) := by
            rw [last]
            exact fun either => either.elim (by simp) builtin
          cases suffix : hasSuffix (s.resolveType type) with
          | true =>
              refine .element suffix (variants _ ?_)
              cases left with
              | zero => rfl
              | succ left =>
                  rw [dangles, if_neg unnamed, if_pos suffix] at resolvedFound
                  exact resolvedFound
          | false =>
              refine .object suffix ?_
              cases left with
              | zero => exact .limit _
              | succ left =>
                  rw [dangles, if_neg unnamed, suffix] at resolvedFound
                  obtain ⟨st, found⟩ := Option.isSome_iff_exists.mp
                    (Option.isNone_eq_false_iff.mp resolvedFound)
                  refine structs _ st ?_
                  rw [getStruct_resolveType, getStruct, found]
                  rfl
      · intro type st isStruct
        refine .found isStruct ?_ ?_
        · intro hasBase
          have inherits := isStruct
          rw [getStruct, orThrow_eq_ok] at inherits
          obtain ⟨base, isBase⟩ := valid.inherits _ st inherits hasBase
          exact structs _ base (getStruct_resolveType.mpr isBase)
        · intro field member
          apply variants
          rcases valid.resolved_referenced field.type with same | isReferred
          · rw [same]
            exact referred _ (field_referenced isStruct member) _
              (Nat.le_succ left)
          · exact referred _ isReferred _ (Nat.le_succ left)

/-- Where no struct is named like an array or an optional, all is well. -/
theorem suffixesLead_of_bare
    (bare : ∀ entry ∈ s.structs, hasSuffix entry.1 = false) :
    s.SuffixesLead := by
  intro type _ _ _ isStruct
  obtain ⟨st, found⟩ := Option.isSome_iff_exists.mp isStruct
  have isBare := bare _ (mem_of_lookup found)
  rw [show maxRecursionDepth - 3 = 27 + 2 from rfl, dangles]
  split
  · rfl
  · rw [if_neg (by simp [isBare]), found]
    rfl

/-- In an accepted ABI chains do not come back, `resolve_type` returns their
ends, and the decoder finds every struct it looks for, exactly when no array or
optional of a struct is referred to whose own name leads, its suffixes taken
off, to something that is not there. -/
theorem abi_resolves_iff {abi : AbiDef} (plain : Plain p)
    (accepted : setAbi abi = .ok s) : s.Resolves p ↔ s.SuffixesLead := by
  have valid := setAbi_validated accepted
  constructor
  · intro resolves type member noTypedef suffix isStruct
    by_contra lost
    rw [Bool.not_eq_false] at lost
    have notBuiltin : ¬ isBuiltinType (fundamentalType type) = true := by
      intro builtin
      have same := fundamentalType_bare (builtin_bare builtin)
      rw [show maxRecursionDepth - 3 = 27 + 2 from rfl, dangles, same,
        if_pos (.inr builtin)] at lost
      cases lost
    have typeLost : s.dangles (maxRecursionDepth - 2) type = true := by
      rw [show maxRecursionDepth - 2 = 28 + 2 from rfl, dangles, noTypedef,
        if_neg (by simpa using notBuiltin), if_pos suffix]
      exact lost
    obtain ⟨stream, unknown, fails⟩ := readVariant_of_dangles plain typeLost
    exact resolves.known type member stream unknown fails
  · intro lead
    have ends := fun type member =>
      (valid.ends lead (Nat.le_refl _)).1 type
        (valid.referenced_dangles lead member)
    exact {
      typedefs := fun type => Chains.not_back (valid.typedefs type)
      bases := fun name => Chains.not_back (valid.bases name)
      resolved := resolveType_end valid.typedefs
      known := fun type member stream unknown fails =>
        ((failsOnly_of_ends plain _).1 type stream (ends type member)).thrown
          _ fails unknown rfl
      ends := ends }

end Accepted

section Sample

/-- A struct `s[]` without fields, and an action with an array of it. -/
def arrayStructAbi : AbiDef where
  types := []
  structs := [⟨"s[]".toList, [], []⟩]
  actions := [(1, "s[][]".toList)]
  tables := []
  errorMessages := []

theorem bytePrimitives_plain : Plain bytePrimitives where
  unpack := by
    intro type array optional stream
    have isEnd : NotUnknown .endOfStream := by simp [NotUnknown]
    cases array with
    | true => exact failsOnly_error isEnd
    | false =>
        cases optional with
        | true => exact failsOnly_error isEnd
        | false =>
            cases stream with
            | nil => exact failsOnly_error isEnd
            | cons byte stream => exact failsOnly_ok _
  unpackSize := by
    intro stream
    have isEnd : NotUnknown .endOfStream := by simp [NotUnknown]
    show FailsOnly NotUnknown (unpackNumber 5 stream)
    generalize 5 = more
    induction more generalizing stream with
    | zero => exact failsOnly_error isEnd
    | succ more ih =>
        cases stream with
        | nil => exact failsOnly_error isEnd
        | cons byte stream =>
            rw [unpackNumber]
            split
            · exact failsOnly_ok _
            · apply failsOnly_bind (ih stream)
              intro number _
              exact failsOnly_ok _
  one := ⟨[1], fun _ => rfl⟩

theorem abi_resolves_iff_point :
    pointSerializer.Resolves bytePrimitives :=
  (@abi_resolves_iff _ _ _ pointAbi bytePrimitives_plain (by decide)).mpr
    (suffixesLead_of_bare (by decide))

/-- The ABI is accepted, and an element of an element of its array is looked for
as the struct `s`. -/
theorem array_named_struct_not_found :
    ∃ s, setAbi arrayStructAbi = .ok s ∧
      "s[][]".toList ∈ s.referenced ∧
      s.binaryToVariant bytePrimitives "s[][]".toList [1, 1] =
        .error (.unknownStruct "s".toList) ∧
      ¬ s.Resolves bytePrimitives := by
  have fails :
      AbiSerializer.binaryToVariant
          ⟨[], [("s[]".toList, ⟨"s[]".toList, [], []⟩)],
            [(1, "s[][]".toList)], [], []⟩
          bytePrimitives "s[][]".toList [1, 1] =
        .error (.unknownStruct "s".toList) := by
    rfl
  refine ⟨_, rfl, ?_, fails, ?_⟩
  · decide
  · intro resolves
    exact resolves.known _ (by decide) _ _ fails

end Sample

end AbiSerializer

end GxbCore.Abi
