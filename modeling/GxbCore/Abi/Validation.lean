import GxbCore.Abi.RoundTrip
import GxbCore.Lib.Chains

/-!
# The validation of an ABI

`set_abi` loads typedefs and structs into maps, and `validate` searches their
chains for circles and looks for every type that the ABI refers to, where one
suffix is taken off the name.  What it accepts is stated here without its
loops; and `resolve_type`, which goes as many steps as there are typedefs, then
comes to the end of every chain.
-/

namespace GxbCore.Abi

namespace AbiSerializer

def nextTypedef (s : AbiSerializer) (type : TypeName) : Option TypeName :=
  s.typedefs.lookup type

/-- The struct that a struct inherits from, by their names. -/
def nextBase (s : AbiSerializer) (name : TypeName) : Option TypeName :=
  match s.structs.lookup name with
  | none => none
  | some st =>
      if st.base = [] then none
      else
        match s.getStruct st.base with
        | .ok base => some base.name
        | .error _ => none

/-- The types that the typedefs, fields, actions and tables refer to. -/
def referenced (s : AbiSerializer) : List TypeName :=
  s.typedefs.map (·.2) ++
    s.structs.flatMap (fun st => st.2.fields.map (·.type)) ++
      (s.actions ++ s.tables).map (·.2)

/-- What the validation has made sure of. -/
structure Validated (s : AbiSerializer) : Prop where
  typedefs : ∀ type, Chains.Ends s.nextTypedef type
  bases : ∀ name, Chains.Ends s.nextBase name
  inherits :
    ∀ name st, s.structs.lookup name = some st → st.base ≠ [] →
      ∃ base, s.getStruct st.base = .ok base
  types : ∀ type ∈ s.referenced, s.isType maxRecursionDepth type = true

section Validate

variable {s : AbiSerializer}

theorem checkTypedef_ends {first type : TypeName} {count : Nat}
    {typesSeen : List TypeName}
    (checked : s.checkTypedef first count type typesSeen = .ok ()) :
    Chains.Ends s.nextTypedef type := by
  induction count generalizing type typesSeen with
  | zero => cases checked
  | succ count ih =>
      rw [checkTypedef] at checked
      split at checked
      · next last => exact Chains.ends_of_last last
      · next next leads =>
          split at checked
          · cases checked
          · exact Chains.ends_of_leads leads (ih checked)

def StructsNamed (s : AbiSerializer) : Prop :=
  ∀ entry ∈ s.structs, entry.1 = entry.2.name

theorem StructsNamed.getStruct_own (named : s.StructsNamed) {type : TypeName}
    {st : StructDef} (found : s.getStruct type = .ok st) :
    s.structs.lookup st.name = some st := by
  rw [getStruct, orThrow_eq_ok] at found
  have own := named _ (mem_of_lookup found)
  rw [← own]
  exact found

/-- A struct whose bases were checked inherits from structs that are there, and
not from itself. -/
theorem checkBases_ends (named : s.StructsNamed) {name : TypeName}
    {count : Nat} {current : StructDef} {typesSeen : List TypeName}
    (own : s.structs.lookup current.name = some current)
    (checked : s.checkBases name count current typesSeen = .ok ()) :
    Chains.Ends s.nextBase current.name ∧
      (current.base ≠ [] → ∃ base, s.getStruct current.base = .ok base) := by
  induction count generalizing current typesSeen with
  | zero => cases checked
  | succ count ih =>
      rw [checkBases] at checked
      by_cases noBase : current.base = []
      · refine ⟨Chains.ends_of_last ?_, fun has => absurd noBase has⟩
        rw [nextBase, own]
        simp only [noBase, if_true]
      · rw [if_neg noBase] at checked
        obtain ⟨base, found, checked⟩ := bind_eq_ok.mp checked
        split at checked
        · cases checked
        · have ends :=
            (ih (named.getStruct_own found) checked).1
          refine ⟨Chains.ends_of_leads ?_ ends, fun _ => ⟨base, found⟩⟩
          rw [nextBase, own]
          simp only [noBase, if_false, found]

theorem validate_validated (named : s.StructsNamed)
    (valid : s.validate = .ok ()) : s.Validated := by
  simp only [validate, bind_eq_ok, forM_eq_ok, require_eq_ok] at valid
  obtain ⟨_, typedefs, _, typedefTypes, _, structs, others⟩ := valid
  have checkedStruct :
      ∀ name st, s.structs.lookup name = some st →
        Chains.Ends s.nextBase name ∧
          (st.base ≠ [] → ∃ base, s.getStruct st.base = .ok base) := by
    intro name st found
    have member := mem_of_lookup found
    have own : name = st.name := named _ member
    obtain ⟨_, checked, _⟩ := structs _ member
    rw [own] at found ⊢
    exact checkBases_ends named found checked
  refine ⟨?_, ?_, fun name st found => (checkedStruct name st found).2, ?_⟩
  · intro type
    cases found : s.typedefs.lookup type with
    | none => exact Chains.ends_of_last found
    | some next =>
        have checked := typedefs _ (mem_of_lookup found)
        exact Chains.ends_of_leads found (checkTypedef_ends checked)
  · intro name
    cases found : s.structs.lookup name with
    | none =>
        apply Chains.ends_of_last
        rw [nextBase, found]
    | some st => exact (checkedStruct name st found).1
  · intro type member
    simp only [referenced, List.mem_append, List.mem_map, List.mem_flatMap]
      at member
    rcases member with (⟨entry, isEntry, rfl⟩ |
      ⟨entry, isEntry, field, isField, rfl⟩) | ⟨entry, isEntry, rfl⟩
    · exact typedefTypes entry isEntry
    · obtain ⟨_, _, fields⟩ := structs entry isEntry
      exact fields field isField
    · exact others entry (List.mem_append.mpr isEntry)

theorem mem_toMap {κ ν : Type} [BEq κ] {entries : List (κ × ν)}
    {entry : κ × ν} (member : entry ∈ toMap entries) : entry ∈ entries := by
  have either :
      ∀ map : List (κ × ν),
        entry ∈ entries.foldl
            (fun map entry => setEntry entry.1 entry.2 map) map →
          entry ∈ map ∨ entry ∈ entries := by
    clear member
    induction entries with
    | nil => exact fun map isEntry => .inl isEntry
    | cons first rest ih =>
        intro map isEntry
        rcases ih _ isEntry with inMap | later
        · rcases mem_setEntry inMap with isFirst | older
          · exact .inr (isFirst ▸ List.mem_cons_self)
          · exact .inl older
        · exact .inr (List.mem_cons_of_mem first later)
  rcases either [] member with none | isEntry
  · cases none
  · exact isEntry

/-- The maps of typedefs and structs have every name once, and every struct
under its own. -/
structure Mapped (s : AbiSerializer) : Prop where
  named : s.StructsNamed
  typedefs : (s.typedefs.map (·.1)).Nodup
  structs : (s.structs.map (·.1)).Nodup

theorem nodup_toMap {κ ν : Type} [BEq κ] [LawfulBEq κ]
    (entries : List (κ × ν)) : ((toMap entries).map (·.1)).Nodup := by
  have keeps :
      ∀ map : List (κ × ν), (map.map (·.1)).Nodup →
        ((entries.foldl (fun map entry => setEntry entry.1 entry.2 map)
          map).map (·.1)).Nodup := by
    induction entries with
    | nil => exact fun map distinct => distinct
    | cons first rest ih =>
        exact fun map distinct =>
          ih _ (nodup_setEntry distinct)
  exact keeps [] .nil

/-- What `set_abi` has loaded when it validates. -/
theorem setAbi_mapped {abi : AbiDef} (accepted : setAbi abi = .ok s) :
    s.Mapped ∧ s.validate = .ok () := by
  simp only [setAbi, bind_eq_ok] at accepted
  obtain ⟨_, loads, _, _, _, valid, returns⟩ := accepted
  cases returns
  refine ⟨?_, valid⟩
  refine @foldlM_keeps _ _ _ _ Mapped _ _ _ ?_ ?_ loads
  · intro td _ before after mapped added
    simp only [addTypedef, bind_eq_ok] at added
    obtain ⟨_, _, _, _, added⟩ := added
    cases added
    exact ⟨mapped.named, nodup_setEntry mapped.typedefs, mapped.structs⟩
  · refine ⟨?_, .nil, nodup_toMap _⟩
    intro entry member
    obtain ⟨st, _, rfl⟩ := List.mem_map.mp (mem_toMap member)
    rfl

theorem setAbi_validated {abi : AbiDef} (accepted : setAbi abi = .ok s) :
    s.Validated := by
  obtain ⟨mapped, valid⟩ := setAbi_mapped accepted
  exact validate_validated mapped.named valid

end Validate

section Resolving

variable {s : AbiSerializer}

theorem followTypedefs_eq (count : Nat) (type : TypeName) :
    s.followTypedefs count type = Chains.follow s.nextTypedef count type := by
  induction count generalizing type with
  | zero => rfl
  | succ count ih =>
      rw [followTypedefs, Chains.follow]
      cases leads : s.nextTypedef type with
      | none =>
          rw [nextTypedef] at leads
          rw [leads]
      | some next =>
          rw [nextTypedef] at leads
          rw [leads]
          exact ih next

theorem nextTypedef_finite {type : TypeName}
    (isSome : (s.nextTypedef type).isSome = true) :
    type ∈ s.typedefs.map (·.1) := by
  obtain ⟨next, found⟩ := Option.isSome_iff_exists.mp isSome
  exact List.mem_map.mpr ⟨(type, next), mem_of_lookup found, rfl⟩

theorem resolveType_of_none {type : TypeName}
    (last : s.nextTypedef type = none) : s.resolveType type = type := by
  rw [nextTypedef] at last
  rw [resolveType, last]

/-- As many steps as there are typedefs lead to the end of every chain. -/
theorem resolveType_end (ends : ∀ type, Chains.Ends s.nextTypedef type)
    (type : TypeName) :
    Relation.ReflTransGen (Chains.Leads s.nextTypedef) type
        (s.resolveType type) ∧
      s.nextTypedef (s.resolveType type) = none := by
  cases leads : s.nextTypedef type with
  | none =>
      rw [resolveType_of_none leads]
      exact ⟨.refl, leads⟩
  | some next =>
      obtain ⟨last, followed⟩ :=
        @Chains.follow_returns _ _ (s.typedefs.length + 1) _
          (fun type => Chains.not_back (ends type))
          (fun _ => nextTypedef_finite)
          (by rw [List.length_map]; exact Nat.lt_succ_self _) type
      have reached := Chains.follow_reaches followed
      rw [Chains.follow, leads] at followed
      have resolved : s.resolveType type = last := by
        rw [nextTypedef] at leads
        rw [resolveType, leads]
        simp only [followTypedefs_eq, followed]
        rfl
      rw [resolved]
      exact reached

end Resolving

section Searches

variable {s : AbiSerializer}

theorem nextBase_finite {name : TypeName}
    (isSome : (s.nextBase name).isSome = true) :
    name ∈ s.structs.map (·.1) := by
  cases found : s.structs.lookup name with
  | none =>
      rw [nextBase, found] at isSome
      cases isSome
  | some st => exact List.mem_map.mpr ⟨(name, st), mem_of_lookup found, rfl⟩

/-- The search goes on to the end of a chain that does not come back: it is not
the number of rounds that stops it. -/
theorem checkTypedef_returns {first type last : TypeName} {count : Nat}
    {typesSeen : List TypeName}
    (noReturn :
      ∀ type, ¬ Relation.TransGen (Chains.Leads s.nextTypedef) type type)
    (isNew :
      ∀ later, Relation.TransGen (Chains.Leads s.nextTypedef) type later →
        later ∉ typesSeen)
    (followed : Chains.follow s.nextTypedef count type = some last) :
    s.checkTypedef first count type typesSeen = .ok () := by
  induction count generalizing type typesSeen with
  | zero => cases followed
  | succ count ih =>
      rw [Chains.follow] at followed
      cases leads : s.nextTypedef type with
      | none =>
          rw [nextTypedef] at leads
          rw [checkTypedef, leads]
      | some next =>
          rw [leads] at followed
          have unseen := isNew next (.single leads)
          have later :=
            @ih next (typesSeen ++ [next])
              (fun other reached member => by
                rcases List.mem_append.mp member with seen | isNext
                · exact isNew other (.head leads reached) seen
                · rw [List.mem_singleton.mp isNext] at reached
                  exact noReturn next reached)
              followed
          rw [nextTypedef] at leads
          rw [checkTypedef, leads]
          simp only [unseen, if_false]
          exact later

theorem checkBases_returns (named : s.StructsNamed) {name last : TypeName}
    {count : Nat} {current : StructDef} {typesSeen : List TypeName}
    (own : s.structs.lookup current.name = some current)
    (inherits :
      ∀ name st, s.structs.lookup name = some st → st.base ≠ [] →
        ∃ base, s.getStruct st.base = .ok base)
    (noReturn : ∀ name, ¬ Relation.TransGen (Chains.Leads s.nextBase) name name)
    (isNew :
      ∀ later, Relation.TransGen (Chains.Leads s.nextBase) current.name later →
        later ∉ typesSeen)
    (followed : Chains.follow s.nextBase count current.name = some last) :
    s.checkBases name count current typesSeen = .ok () := by
  induction count generalizing current typesSeen with
  | zero => cases followed
  | succ count ih =>
      rw [checkBases]
      by_cases noBase : current.base = []
      · rw [if_pos noBase]
      · obtain ⟨base, found⟩ := inherits _ current own noBase
        have leads : s.nextBase current.name = some base.name := by
          rw [nextBase, own]
          simp only [noBase, if_false, found]
        rw [Chains.follow, leads] at followed
        have unseen := isNew base.name (.single leads)
        rw [if_neg noBase, found]
        show (if base.name ∈ typesSeen then _ else _) = _
        rw [if_neg unseen]
        refine ih (named.getStruct_own found) ?_ followed
        intro other reached member
        rcases List.mem_append.mp member with seen | isBase
        · exact isNew other (.head leads reached) seen
        · rw [List.mem_singleton.mp isBase] at reached
          exact noReturn base.name reached

/-- `validate` accepts exactly the ABIs whose chains of typedefs and bases end
and whose types are known: it is never the number of rounds that stops a
search. -/
theorem validate_iff (mapped : s.Mapped) :
    s.validate = .ok () ↔ s.Validated := by
  constructor
  · exact validate_validated mapped.named
  · intro valid
    have noReturn := fun type => Chains.not_back (valid.typedefs type)
    have noReturnBase := fun name => Chains.not_back (valid.bases name)
    have types : ∀ type, type ∈ s.referenced →
        require (s.isType maxRecursionDepth type = true)
          (AbiFault.invalidType type) = .ok () :=
      fun type member => require_eq_ok.mpr (valid.types type member)
    simp only [referenced, List.mem_append, List.mem_map, List.mem_flatMap]
      at types
    simp only [validate, bind_eq_ok, forM_eq_ok]
    refine ⟨(), ?_, (), ?_, (), ?_, ?_⟩
    · intro entry member
      have leads := lookup_of_nodup mapped.typedefs member
      obtain ⟨last, followed⟩ :=
        @Chains.follow_returns _ _ (s.typedefs.length + 1) _ noReturn
          (fun _ => nextTypedef_finite)
          (by rw [List.length_map]; exact Nat.lt_succ_self _) entry.2
      refine checkTypedef_returns noReturn ?_ followed
      intro later reached seen
      rcases List.mem_cons.mp seen with isFirst | isNext
      · rw [isFirst] at reached
        exact noReturn entry.1 (.head leads reached)
      · rw [List.mem_singleton.mp isNext] at reached
        exact noReturn entry.2 reached
    · intro entry member
      exact types _ (.inl (.inl ⟨entry, member, rfl⟩))
    · intro entry member
      refine ⟨(), ?_, ?_⟩
      · have own := lookup_of_nodup mapped.structs member
        rw [mapped.named entry member] at own
        obtain ⟨last, followed⟩ :=
          @Chains.follow_returns _ _ (s.structs.length + 1) _ noReturnBase
            (fun _ => nextBase_finite)
            (by rw [List.length_map]; exact Nat.lt_succ_self _) entry.2.name
        refine checkBases_returns mapped.named own valid.inherits noReturnBase
          ?_ followed
        intro later reached seen
        rw [List.mem_singleton.mp seen] at reached
        exact noReturnBase _ reached
      · intro field isField
        exact types _ (.inl (.inr ⟨entry, member, field, isField, rfl⟩))
    · intro entry member
      exact types _ (.inr ⟨entry, List.mem_append.mp member, rfl⟩)

theorem validate_iff_point :
    setAbi pointAbi = .ok pointSerializer ∧ pointSerializer.Validated := by
  have loads : setAbi pointAbi = .ok pointSerializer := by decide
  obtain ⟨mapped, valid⟩ := setAbi_mapped loads
  exact ⟨loads, (validate_iff mapped).mp valid⟩

end Searches

end AbiSerializer

end GxbCore.Abi
