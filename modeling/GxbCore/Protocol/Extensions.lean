import GxbCore.Lib.Codec

/-!
# Extensions

An extension is a struct of optional members.  Its encoding is the number of
the members that are there, and for each of them its index and its value.  The
reader looks one index ahead while it goes through the members.
-/

namespace GxbCore.Protocol.Extension

/-- A member of the struct: the type behind its `optional`, with its codec. -/
structure Member where
  Value : Type
  codec : Codec Value

def Values : List Member → Type
  | [] => Unit
  | member :: members => Option member.Value × Values members

/-- The struct without its members. -/
def noValues : (members : List Member) → Values members
  | [] => ()
  | _ :: members => (none, noValues members)

/-- `graphene_extension_pack_count_visitor`, from the `count` on. -/
def countValid :
    (members : List Member) → Values members → UInt32 → UInt32
  | [], _, count => count
  | _ :: members, (value, values), count =>
      countValid members values (count + if value.isSome then 1 else 0)

section Visitors

variable (integers : Codec UInt32) (maxDepth : Nat)

/-- What `graphene_extension_pack_read_visitor` writes for a member. -/
def packMember (member : Member) (which : UInt32) :
    Option member.Value → Except String Bytes
  | some value => do
      let index ← integers.pack maxDepth which
      let body ← member.codec.pack maxDepth value
      return index ++ body
  | none => return []

/-- `graphene_extension_pack_read_visitor`, from the member `which` on. -/
def packMembers :
    (members : List Member) → (which : UInt32) → Values members →
      Except String Bytes
  | [], _, _ => return []
  | member :: members, which, (value, values) => do
      let first ← packMember integers maxDepth member which value
      let later ← packMembers members (which + 1) values
      return first ++ later

/-- The state of `graphene_extension_unpack_visitor`, without its `which`. -/
structure Reader where
  nextWhich : UInt32
  countLeft : UInt32
  stream : Bytes

def maybeReadNextWhich (reader : Reader) : Except String Reader :=
  if reader.countLeft > 0 then do
    let (w, stream) ← integers.unpack maxDepth reader.stream
    return { reader with nextWhich := w, stream := stream }
  else
    return reader

/-- What `graphene_extension_unpack_visitor` does for a member. -/
def unpackMember (member : Member) (which : UInt32) (reader : Reader) :
    Except String (Option member.Value × Reader) :=
  if reader.countLeft > 0 ∧ which = reader.nextWhich then do
    let (temp, stream) ← member.codec.unpack maxDepth reader.stream
    let reader ← maybeReadNextWhich integers maxDepth
      { reader with stream := stream, countLeft := reader.countLeft - 1 }
    return (some temp, reader)
  else
    return (none, reader)

/-- The visit of the members, from the member `which` on. -/
def unpackMembers :
    (members : List Member) → (which : UInt32) → Reader →
      Except String (Values members × Reader)
  | [], _, reader => return ((), reader)
  | member :: members, which, reader => do
      let (value, reader) ←
        unpackMember integers maxDepth member which reader
      let (values, reader) ← unpackMembers members (which + 1) reader
      return ((value, values), reader)

end Visitors

/-- A reflected struct; its members are numbered with 32 bits. -/
structure Struct where
  members : List Member
  few : members.length < 2 ^ 32

section Codec

variable (integers : Codec UInt32) (struct : Struct)

/-- `raw::pack` -/
def pack (maxDepth : Nat) (value : Values struct.members) :
    Except String Bytes := do
  require (0 < maxDepth) "_max_depth > 0"
  let maxDepth := maxDepth - 1
  let count ←
    integers.pack maxDepth (countValid struct.members value 0)
  require (0 < maxDepth) "_max_depth > 0"
  let members ←
    packMembers integers (maxDepth - 1) struct.members 0 value
  return count ++ members

/-- `raw::unpack` -/
def unpack (maxDepth : Nat) (stream : Bytes) :
    Except String (Values struct.members × Bytes) := do
  require (0 < maxDepth) "_max_depth > 0"
  let maxDepth := maxDepth - 1
  require (0 < maxDepth) "_max_depth > 0"
  let (countLeft, stream) ← integers.unpack (maxDepth - 1) stream
  let reader ← maybeReadNextWhich integers (maxDepth - 1)
    { nextWhich := 0, countLeft := countLeft, stream := stream }
  let (value, reader) ←
    unpackMembers integers (maxDepth - 1) struct.members 0 reader
  require (reader.countLeft = 0) "vtor.count_left == 0"
  return (value, reader.stream)

end Codec

section Encodings

variable (integers : Codec UInt32) (depth : Nat)

/-- The members from `which` on as a stream has them, with what their indices
are read from. -/
inductive Fields :
    (members : List Member) → (which : Nat) → Values members →
      List (Nat × Bytes) → Bytes → Prop
  | done {which : Nat} : Fields [] which () [] []
  | absent {member : Member} {members : List Member} {which : Nat}
      {values : Values members} {indices : List (Nat × Bytes)} {bytes : Bytes}
      (later : Fields members (which + 1) values indices bytes) :
      Fields (member :: members) which (none, values) indices bytes
  | valid {member : Member} {members : List Member} {which : Nat}
      {value : member.Value} {values : Values members}
      {indices : List (Nat × Bytes)} {index body bytes : Bytes}
      (isIndex : integers.Reads depth (UInt32.ofNat which) index)
      (isBody : member.codec.Reads depth value body)
      (later : Fields members (which + 1) values indices bytes) :
      Fields (member :: members) which (some value, values)
        ((which, index) :: indices) (index ++ (body ++ bytes))

/-- The count, and the members with their indices. -/
structure IsEncoding (struct : Struct) (value : Values struct.members)
    (count : Bytes) (indices : List (Nat × Bytes)) (fields : Bytes) :
    Prop where
  isCount : integers.Reads depth (UInt32.ofNat indices.length) count
  areFields : Fields integers depth struct.members 0 value indices fields

end Encodings

section Fields

variable {integers : Codec UInt32} {depth which : Nat}
  {members : List Member} {values : Values members}
  {indices others : List (Nat × Bytes)} {bytes : Bytes}

theorem Fields.increasing
    (fields : Fields integers depth members which values indices bytes) :
    (indices.map Prod.fst).Pairwise (· < ·) ∧
      ∀ entry ∈ indices,
        which ≤ entry.1 ∧ entry.1 < which + members.length := by
  induction fields with
  | done => simp
  | absent later ih =>
      obtain ⟨sorted, bounds⟩ := ih
      refine ⟨sorted, fun entry member => ?_⟩
      have bound := bounds entry member
      rw [List.length_cons]
      omega
  | valid isIndex isBody later ih =>
      obtain ⟨sorted, bounds⟩ := ih
      refine ⟨List.pairwise_cons.mpr ⟨fun n isLater => ?_, sorted⟩,
        fun entry member => ?_⟩
      · obtain ⟨entry, member, rfl⟩ := List.mem_map.mp isLater
        exact (bounds entry member).1
      · rw [List.length_cons]
        rcases List.mem_cons.mp member with rfl | inLater
        · dsimp only
          omega
        · have bound := bounds entry inLater
          omega

theorem Fields.length_le
    (fields : Fields integers depth members which values indices bytes) :
    indices.length ≤ members.length := by
  induction fields with
  | done => simp
  | absent later ih =>
      rw [List.length_cons]
      omega
  | valid isIndex isBody later ih =>
      rw [List.length_cons, List.length_cons]
      omega

theorem Fields.countValid_eq
    (fields : Fields integers depth members which values indices bytes)
    (count : UInt32) :
    countValid members values count =
      count + UInt32.ofNat indices.length := by
  induction fields generalizing count with
  | done => simp [countValid]
  | absent later ih =>
      simp [countValid, ih]
  | valid isIndex isBody later ih =>
      rw [countValid, ih, List.length_cons]
      simp only [Option.isSome_some, if_true, UInt32.ofNat_add]
      rw [UInt32.add_assoc, UInt32.add_comm 1]
      rfl

theorem Fields.head {first : Nat × Bytes}
    (fields :
      Fields integers depth members which values (first :: indices) bytes) :
    ∃ later, bytes = first.2 ++ later ∧
      integers.Reads depth (UInt32.ofNat first.1) first.2 := by
  generalize same : first :: indices = all at fields
  induction fields with
  | done => cases same
  | absent later ih => exact ih same
  | valid isIndex isBody later =>
      cases same
      exact ⟨_, rfl, isIndex⟩

theorem Fields.unique {rest left : Bytes} {otherBytes : Bytes}
    (fields : Fields integers depth members which values indices bytes)
    (otherFields : Fields integers depth members which values others otherBytes)
    (sameStream : bytes ++ rest = otherBytes ++ left) :
    indices = others ∧ rest = left := by
  induction fields generalizing others otherBytes with
  | done =>
      cases otherFields
      exact ⟨rfl, sameStream⟩
  | absent later ih =>
      cases otherFields with
      | absent otherLater => exact ih otherLater sameStream
  | valid isIndex isBody later ih =>
      cases otherFields with
      | valid otherIndex otherBody otherLater =>
          simp only [List.append_assoc] at sameStream
          obtain ⟨_, sameIndex, behindIndex⟩ :=
            isIndex.unique otherIndex sameStream
          obtain ⟨_, _, behindBody⟩ := isBody.unique otherBody behindIndex
          obtain ⟨sameIndices, sameRest⟩ :=
            ih otherLater behindBody
          exact ⟨by rw [sameIndex, sameIndices], sameRest⟩

end Fields

section Reading

variable {integers : Codec UInt32} {depth which : Nat}
  {members : List Member} {values : Values members}
  {indices : List (Nat × Bytes)} {bytes rest : Bytes}

/-- The stream as it was before the look at the next index. -/
def LookedAhead (integers : Codec UInt32) (depth : Nat) (reader : Reader)
    (stream : Bytes) : Prop :=
  (reader.countLeft = 0 ∧ stream = reader.stream) ∨
    (reader.countLeft ≠ 0 ∧
      ∃ index, integers.Reads depth reader.nextWhich index ∧
        stream = index ++ reader.stream)

theorem maybeReadNextWhich_spec {reader next : Reader}
    (lawful : integers.Lawful)
    (looked : maybeReadNextWhich integers depth reader = .ok next) :
    LookedAhead integers depth next reader.stream ∧
      next.countLeft = reader.countLeft := by
  rw [maybeReadNextWhich] at looked
  split at looked
  · next more =>
      obtain ⟨⟨w, stream⟩, read, looked⟩ := bind_eq_ok.mp looked
      cases looked
      obtain ⟨index, isFront, isIndex⟩ := lawful.front read
      exact ⟨.inr ⟨UInt32.pos_iff_ne_zero.mp more, index, isIndex, isFront⟩,
        rfl⟩
  · next none =>
      cases looked
      exact ⟨.inl ⟨UInt32.le_zero_iff.mp (UInt32.not_lt.mp none), rfl⟩, rfl⟩

theorem ofNat_succ (which : Nat) :
    UInt32.ofNat which + 1 = UInt32.ofNat (which + 1) :=
  (UInt32.ofNat_add which 1).symm

theorem toNat_sub_one_add {count : UInt32} (notNone : count ≠ 0) :
    (count - 1).toNat + 1 = count.toNat := by
  have more : 0 < count.toNat :=
    UInt32.lt_iff_toNat_lt.mp (UInt32.pos_iff_ne_zero.mpr notNone)
  have positive : (1 : UInt32).toNat ≤ count.toNat := more
  rw [UInt32.toNat_sub_of_le _ _ (UInt32.le_iff_toNat_le.mpr positive)]
  exact Nat.sub_add_cancel positive

theorem unpackMember_spec {member : Member} {value : Option member.Value}
    {reader next : Reader} {stream : Bytes}
    (lawful : integers.Lawful) (memberLawful : member.codec.Lawful)
    (looked : LookedAhead integers depth reader stream)
    (read :
      unpackMember integers depth member (UInt32.ofNat which) reader =
        .ok (value, next)) :
    (value = none ∧ next = reader) ∨
      ∃ temp index body left,
        value = some temp ∧
          integers.Reads depth (UInt32.ofNat which) index ∧
          member.codec.Reads depth temp body ∧
          stream = index ++ (body ++ left) ∧
          LookedAhead integers depth next left ∧
          reader.countLeft.toNat = next.countLeft.toNat + 1 := by
  rw [unpackMember] at read
  split at read
  · next isNext =>
      obtain ⟨more, same⟩ := isNext
      obtain ⟨⟨temp, left⟩, isTemp, read⟩ := bind_eq_ok.mp read
      obtain ⟨last, isLast, read⟩ := bind_eq_ok.mp read
      cases read
      obtain ⟨body, isFront, isBody⟩ := memberLawful.front isTemp
      obtain ⟨lookedAgain, counted⟩ := maybeReadNextWhich_spec lawful isLast
      rcases looked with ⟨none, _⟩ | ⟨some, index, isIndex, rfl⟩
      · exact absurd none (UInt32.pos_iff_ne_zero.mp more)
      · refine .inr ⟨temp, index, body, left, rfl, same ▸ isIndex, isBody,
          by rw [isFront], lookedAgain, ?_⟩
        rw [counted]
        exact (toNat_sub_one_add (UInt32.pos_iff_ne_zero.mp more)).symm
  · cases read
    exact .inl ⟨rfl, rfl⟩

theorem unpackMembers_sound {reader final : Reader} {stream : Bytes}
    (lawful : integers.Lawful)
    (membersLawful : ∀ member ∈ members, member.codec.Lawful)
    (looked : LookedAhead integers depth reader stream)
    (read :
      unpackMembers integers depth members (UInt32.ofNat which) reader =
        .ok (values, final))
    (ended : final.countLeft = 0) :
    ∃ indices bytes,
      Fields integers depth members which values indices bytes ∧
        stream = bytes ++ final.stream ∧
        indices.length = reader.countLeft.toNat := by
  induction members generalizing which reader stream with
  | nil =>
      cases read
      rcases looked with ⟨none, rfl⟩ | ⟨some, _⟩
      · exact ⟨[], [], .done, rfl, by rw [none]; rfl⟩
      · exact absurd ended some
  | cons member members ih =>
      obtain ⟨⟨value, next⟩, isMember, read⟩ := bind_eq_ok.mp read
      obtain ⟨⟨later, last⟩, areLater, read⟩ := bind_eq_ok.mp read
      cases read
      rw [ofNat_succ] at areLater
      have laterLawful : ∀ other ∈ members, other.codec.Lawful :=
        fun other isOther =>
          membersLawful other (List.mem_cons_of_mem member isOther)
      rcases unpackMember_spec lawful
          (membersLawful member List.mem_cons_self) looked isMember with
        ⟨rfl, rfl⟩ | ⟨temp, index, body, left, rfl, isIndex, isBody, rfl,
          lookedAgain, counted⟩
      · obtain ⟨indices, bytes, fields, isFront, number⟩ :=
          ih laterLawful looked areLater
        exact ⟨indices, bytes, .absent fields, isFront, number⟩
      · obtain ⟨indices, bytes, fields, rfl, number⟩ :=
          ih laterLawful lookedAgain areLater
        refine ⟨_, _, .valid isIndex isBody fields, ?_, ?_⟩
        · simp only [List.append_assoc]
        · rw [List.length_cons, number, counted]

variable {reader : Reader}

theorem maybeReadNextWhich_none (none : reader.countLeft = 0) :
    maybeReadNextWhich integers depth reader = .ok reader := by
  rw [maybeReadNextWhich, none]
  rfl

theorem maybeReadNextWhich_reads {w : UInt32} {index left : Bytes}
    (some : reader.countLeft ≠ 0) (isIndex : integers.Reads depth w index)
    (isFront : reader.stream = index ++ left) :
    maybeReadNextWhich integers depth reader =
      .ok { reader with nextWhich := w, stream := left } := by
  rw [maybeReadNextWhich, if_pos (UInt32.pos_iff_ne_zero.mpr some), isFront,
    isIndex left]
  rfl

theorem maybeReadNextWhich_fields
    (fields : Fields integers depth members which values indices bytes)
    (number : indices.length = reader.countLeft.toNat)
    (isFront : reader.stream = bytes ++ rest) :
    ∃ next, maybeReadNextWhich integers depth reader = .ok next ∧
      (next.countLeft = 0 ∨
        ∃ first ∈ indices, next.nextWhich = UInt32.ofNat first.1) := by
  cases indices with
  | nil =>
      have none : reader.countLeft = 0 :=
        UInt32.toNat_inj.mp number.symm
      exact ⟨reader, maybeReadNextWhich_none none, .inl none⟩
  | cons first others =>
      obtain ⟨later, isBytes, isIndex⟩ := fields.head
      have some : reader.countLeft ≠ 0 := by
        intro none
        rw [none] at number
        cases number
      rw [isBytes, List.append_assoc] at isFront
      exact ⟨_, maybeReadNextWhich_reads some isIndex isFront,
        .inr ⟨first, List.mem_cons_self, rfl⟩⟩

theorem unpackMembers_complete {reader : Reader}
    (fields : Fields integers depth members which values indices bytes)
    (room : which + members.length ≤ 2 ^ 32)
    (number : indices.length = reader.countLeft.toNat)
    (isFront : reader.stream = bytes ++ rest) :
    ∃ next final,
      maybeReadNextWhich integers depth reader = .ok next ∧
        unpackMembers integers depth members (UInt32.ofNat which) next =
          .ok (values, final) ∧
        final.countLeft = 0 ∧ final.stream = rest := by
  induction fields generalizing reader with
  | done =>
      have none : reader.countLeft = 0 :=
        UInt32.toNat_inj.mp number.symm
      exact ⟨reader, reader, maybeReadNextWhich_none none, rfl, none, isFront⟩
  | @absent member members which values indices bytes later ih =>
      rw [List.length_cons] at room
      obtain ⟨next, final, looked, read, ended, left⟩ :=
        ih (by omega) number isFront
      refine ⟨next, final, looked, ?_, ended, left⟩
      have passes :
          ¬ (next.countLeft > 0 ∧ UInt32.ofNat which = next.nextWhich) := by
        rintro ⟨more, same⟩
        obtain ⟨other, lookedToo, found⟩ :=
          maybeReadNextWhich_fields later number isFront
        obtain rfl : other = next := by
          rw [looked] at lookedToo
          cases lookedToo
          rfl
        rcases found with none | ⟨first, isFirst, isNext⟩
        · exact UInt32.pos_iff_ne_zero.mp more none
        · have bound := later.increasing.2 first isFirst
          rw [isNext, ← UInt32.toNat_inj, UInt32.toNat_ofNat',
            UInt32.toNat_ofNat', Nat.mod_eq_of_lt (by omega),
            Nat.mod_eq_of_lt (by omega)] at same
          omega
      rw [unpackMembers, unpackMember, if_neg passes, ofNat_succ]
      exact bind_eq_ok.mpr ⟨_, rfl, bind_eq_ok.mpr ⟨_, read, rfl⟩⟩
  | @valid member members which value values indices index body bytes isIndex
      isBody later ih =>
      rw [List.length_cons] at room number
      have some : reader.countLeft ≠ 0 := by
        intro none
        rw [none] at number
        cases number
      have fewer : indices.length = (reader.countLeft - 1).toNat := by
        have step := toNat_sub_one_add some
        omega
      obtain ⟨next, final, looked, read, ended, left⟩ :=
        @ih
          { nextWhich := UInt32.ofNat which,
            countLeft := reader.countLeft - 1, stream := bytes ++ rest }
          (by omega) fewer rfl
      rw [List.append_assoc, List.append_assoc] at isFront
      refine ⟨_, final, maybeReadNextWhich_reads some isIndex isFront, ?_,
        ended, left⟩
      rw [unpackMembers, unpackMember,
        if_pos ⟨UInt32.pos_iff_ne_zero.mpr some, rfl⟩, ofNat_succ]
      refine bind_eq_ok.mpr ⟨(_, next), ?_, bind_eq_ok.mpr ⟨_, read, rfl⟩⟩
      exact bind_eq_ok.mpr ⟨_, isBody (bytes ++ rest),
        bind_eq_ok.mpr ⟨_, looked, rfl⟩⟩

end Reading

section Writing

variable {integers : Codec UInt32} {depth which : Nat}
  {members : List Member} {values : Values members}
  {indices : List (Nat × Bytes)} {bytes again : Bytes}

/-- The indices are as they are packed. -/
def AreWritten (integers : Codec UInt32) (depth : Nat)
    (indices : List (Nat × Bytes)) : Prop :=
  ∀ entry ∈ indices,
    integers.pack depth (UInt32.ofNat entry.1) = .ok entry.2

theorem packMembers_fields (lawful : integers.Lawful)
    (membersLawful : ∀ member ∈ members, member.codec.Lawful)
    (packed :
      packMembers integers depth members (UInt32.ofNat which) values =
        .ok bytes) :
    ∃ indices, Fields integers depth members which values indices bytes ∧
      AreWritten integers depth indices := by
  induction members generalizing which bytes with
  | nil =>
      cases packed
      exact ⟨[], .done, fun entry member => by cases member⟩
  | cons member members ih =>
      obtain ⟨value, values⟩ := values
      obtain ⟨first, isFirst, packed⟩ := bind_eq_ok.mp packed
      obtain ⟨later, isLater, packed⟩ := bind_eq_ok.mp packed
      cases packed
      rw [ofNat_succ] at isLater
      obtain ⟨indices, fields, written⟩ :=
        ih
          (fun other isOther =>
            membersLawful other (List.mem_cons_of_mem member isOther)) isLater
      cases value with
      | none =>
          cases isFirst
          exact ⟨indices, .absent fields, written⟩
      | some value =>
          obtain ⟨index, isIndex, isFirst⟩ := bind_eq_ok.mp isFirst
          obtain ⟨body, isBody, isFirst⟩ := bind_eq_ok.mp isFirst
          cases isFirst
          have bodyReads :=
            (membersLawful member List.mem_cons_self).comesBack isBody
          rw [List.append_assoc]
          refine ⟨_, .valid (lawful.comesBack isIndex) bodyReads fields, ?_⟩
          intro entry isEntry
          rcases List.mem_cons.mp isEntry with rfl | inLater
          · exact isIndex
          · exact written entry inLater

/-- Members are packed to the bytes that they were read from, with the indices
as they are written. -/
theorem packMembers_returns (flat : integers.Flat) (deep : 0 < depth)
    (canonical : ∀ member ∈ members, member.codec.Canonical)
    (fields : Fields integers depth members which values indices bytes) :
    ∃ again,
      packMembers integers depth members (UInt32.ofNat which) values =
          .ok again ∧
        (AreWritten integers depth indices → again = bytes) := by
  induction fields with
  | done => exact ⟨[], rfl, fun _ => rfl⟩
  | @absent member members which values indices bytes later ih =>
      obtain ⟨again, packed, same⟩ :=
        ih fun other isOther =>
          canonical other (List.mem_cons_of_mem member isOther)
      rw [← ofNat_succ] at packed
      refine ⟨again, ?_, same⟩
      exact bind_eq_ok.mpr ⟨[], rfl, bind_eq_ok.mpr ⟨again, packed, rfl⟩⟩
  | @valid member members which value values indices index body bytes isIndex
      isBody later ih =>
      obtain ⟨again, packed, same⟩ :=
        ih fun other isOther =>
          canonical other (List.mem_cons_of_mem member isOther)
      rw [← ofNat_succ] at packed
      obtain ⟨written, isWritten⟩ := flat.packs (UInt32.ofNat which) deep
      have bodyPacked :=
        (canonical member List.mem_cons_self).pack_of_reads isBody
      refine ⟨written ++ body ++ again, ?_, fun areWritten => ?_⟩
      · have first :
            packMember integers depth member (UInt32.ofNat which)
              (some value) = .ok (written ++ body) :=
          bind_eq_ok.mpr ⟨written, isWritten,
            bind_eq_ok.mpr ⟨body, bodyPacked, rfl⟩⟩
        exact bind_eq_ok.mpr ⟨written ++ body, first,
          bind_eq_ok.mpr ⟨again, packed, rfl⟩⟩
      · have indexWritten := areWritten (which, index) List.mem_cons_self
        rw [isWritten] at indexWritten
        cases indexWritten
        rw [same fun entry isEntry =>
          areWritten entry (List.mem_cons_of_mem _ isEntry), List.append_assoc]

/-- Each value that is there can be packed. -/
def Packable (depth : Nat) : (members : List Member) → Values members → Prop
  | [], _ => True
  | member :: members, (value, values) =>
      (∀ valid, value = some valid →
          ∃ body, member.codec.pack depth valid = .ok body) ∧
        Packable depth members values

theorem packMembers_of_packable (flat : integers.Flat) (deep : 0 < depth)
    (packable : Packable depth members values) (which : UInt32) :
    ∃ bytes, packMembers integers depth members which values = .ok bytes := by
  induction members generalizing which with
  | nil => exact ⟨[], rfl⟩
  | cons member members ih =>
      obtain ⟨value, values⟩ := values
      obtain ⟨valuePacks, othersPack⟩ := packable
      obtain ⟨later, isLater⟩ := ih othersPack (which + 1)
      cases value with
      | none =>
          exact ⟨[] ++ later, bind_eq_ok.mpr ⟨[], rfl,
            bind_eq_ok.mpr ⟨later, isLater, rfl⟩⟩⟩
      | some value =>
          obtain ⟨index, isIndex⟩ := flat.packs which deep
          obtain ⟨body, isBody⟩ := valuePacks value rfl
          have first :
              packMember integers depth member which (some value) =
                .ok (index ++ body) :=
            bind_eq_ok.mpr ⟨index, isIndex,
              bind_eq_ok.mpr ⟨body, isBody, rfl⟩⟩
          exact ⟨index ++ body ++ later, bind_eq_ok.mpr ⟨_, first,
            bind_eq_ok.mpr ⟨later, isLater, rfl⟩⟩⟩

end Writing

section Struct

variable {integers : Codec UInt32} {struct : Struct} {maxDepth : Nat}
  {value : Values struct.members} {stream rest bytes count fields : Bytes}
  {indices : List (Nat × Bytes)}

theorem toNat_ofNat_length
    (areFields :
      Fields integers maxDepth struct.members 0 value indices fields) :
    (UInt32.ofNat indices.length).toNat = indices.length := by
  have few := struct.few
  have fewer := areFields.length_le
  rw [UInt32.toNat_ofNat', Nat.mod_eq_of_lt (by omega)]

theorem unpack_eq_ok (lawful : integers.Lawful)
    (membersLawful : ∀ member ∈ struct.members, member.codec.Lawful)
    (deep : 2 < maxDepth) :
    unpack integers struct maxDepth stream = .ok (value, rest) ↔
      ∃ count indices fields,
        IsEncoding integers (maxDepth - 2) struct value count indices fields ∧
          stream = count ++ fields ++ rest := by
  have depths : maxDepth - 1 - 1 = maxDepth - 2 := by omega
  have first : 0 < maxDepth := by omega
  have second : 0 < maxDepth - 1 := by omega
  constructor
  · intro read
    obtain ⟨_, _, read⟩ := bind_eq_ok.mp read
    obtain ⟨_, _, read⟩ := bind_eq_ok.mp read
    obtain ⟨⟨countLeft, left⟩, isCount, read⟩ := bind_eq_ok.mp read
    obtain ⟨reader, looked, read⟩ := bind_eq_ok.mp read
    obtain ⟨⟨values, final⟩, areMembers, read⟩ := bind_eq_ok.mp read
    obtain ⟨_, ended, read⟩ := bind_eq_ok.mp read
    cases read
    rw [depths] at isCount looked areMembers
    obtain ⟨count, rfl, countReads⟩ := lawful.front isCount
    obtain ⟨lookedAhead, counted⟩ := maybeReadNextWhich_spec lawful looked
    obtain ⟨indices, fields, areFields, isLeft, number⟩ :=
      @unpackMembers_sound integers (maxDepth - 2) 0 struct.members value
        reader final left lawful membersLawful lookedAhead areMembers
        (require_eq_ok.mp ended)
    refine ⟨count, indices, fields, ⟨?_, areFields⟩, ?_⟩
    · rw [number, counted, UInt32.ofNat_toNat]
      exact countReads
    · have isLeft : left = fields ++ final.stream := isLeft
      rw [isLeft, List.append_assoc]
  · rintro ⟨count, indices, fields, isEncoding, rfl⟩
    have number := toNat_ofNat_length isEncoding.areFields
    obtain ⟨next, final, looked, read, ended, isRest⟩ :=
      @unpackMembers_complete integers (maxDepth - 2) 0 struct.members value
        indices fields rest
        { nextWhich := 0, countLeft := UInt32.ofNat indices.length,
          stream := fields ++ rest }
        isEncoding.areFields
        (by have few := struct.few; omega) number.symm rfl
    rw [← depths] at looked read
    have isCount := isEncoding.isCount (fields ++ rest)
    rw [← depths, ← List.append_assoc] at isCount
    refine bind_eq_ok.mpr ⟨⟨⟩, require_eq_ok.mpr first,
      bind_eq_ok.mpr ⟨⟨⟩, require_eq_ok.mpr second,
        bind_eq_ok.mpr ⟨_, isCount, bind_eq_ok.mpr ⟨next, looked,
          bind_eq_ok.mpr ⟨(value, final), read,
            bind_eq_ok.mpr ⟨⟨⟩, require_eq_ok.mpr ended, ?_⟩⟩⟩⟩⟩⟩
    rw [← isRest]
    rfl

/-- What is packed is an encoding with a written count and written indices. -/
theorem pack_isEncoding (flat : integers.Flat)
    (membersLawful : ∀ member ∈ struct.members, member.codec.Lawful)
    (deep : 2 < maxDepth)
    (packed : pack integers struct maxDepth value = .ok bytes) :
    ∃ count indices fields,
      IsEncoding integers (maxDepth - 2) struct value count indices fields ∧
        bytes = count ++ fields ∧
        integers.pack (maxDepth - 2) (UInt32.ofNat indices.length) =
          .ok count ∧
        AreWritten integers (maxDepth - 2) indices := by
  have depths : maxDepth - 1 - 1 = maxDepth - 2 := by omega
  obtain ⟨_, _, packed⟩ := bind_eq_ok.mp packed
  obtain ⟨count, isCount, packed⟩ := bind_eq_ok.mp packed
  obtain ⟨_, _, packed⟩ := bind_eq_ok.mp packed
  obtain ⟨fields, areMembers, packed⟩ := bind_eq_ok.mp packed
  cases packed
  rw [depths] at areMembers
  obtain ⟨indices, areFields, written⟩ :=
    @packMembers_fields integers (maxDepth - 2) 0 struct.members value fields
      flat.toLawful membersLawful areMembers
  have number : countValid struct.members value 0 =
      UInt32.ofNat indices.length := by
    rw [areFields.countValid_eq, UInt32.zero_add]
  rw [number, flat.sameBytes _ (show 0 < maxDepth - 1 by omega)
    (show 0 < maxDepth - 2 by omega)] at isCount
  exact ⟨count, indices, fields, ⟨flat.comesBack isCount, areFields⟩, rfl,
    isCount, written⟩

/-- An encoding is packed again, to the same bytes when its count and its
indices are as they are packed. -/
theorem pack_of_isEncoding (flat : integers.Flat)
    (membersLawful : ∀ member ∈ struct.members, member.codec.Lawful)
    (canonical : ∀ member ∈ struct.members, member.codec.Canonical)
    (deep : 2 < maxDepth)
    (isEncoding :
      IsEncoding integers (maxDepth - 2) struct value count indices fields) :
    ∃ again, pack integers struct maxDepth value = .ok again ∧
      (again = count ++ fields ↔
        integers.pack (maxDepth - 2) (UInt32.ofNat indices.length) =
            .ok count ∧
          AreWritten integers (maxDepth - 2) indices) := by
  have depths : maxDepth - 1 - 1 = maxDepth - 2 := by omega
  have deepInner : 0 < maxDepth - 2 := by omega
  obtain ⟨again, packed, same⟩ :=
    packMembers_returns flat deepInner canonical isEncoding.areFields
  obtain ⟨written, isWritten⟩ :=
    flat.packs (UInt32.ofNat indices.length) deepInner
  have number : countValid struct.members value 0 =
      UInt32.ofNat indices.length := by
    rw [isEncoding.areFields.countValid_eq, UInt32.zero_add]
  have whole :
      pack integers struct maxDepth value = .ok (written ++ again) := by
    have outer := flat.sameBytes (UInt32.ofNat indices.length)
      (show 0 < maxDepth - 1 by omega) deepInner
    rw [isWritten, ← number] at outer
    rw [← depths] at packed
    exact bind_eq_ok.mpr ⟨⟨⟩, require_eq_ok.mpr (by omega),
      bind_eq_ok.mpr ⟨written, outer,
        bind_eq_ok.mpr ⟨⟨⟩, require_eq_ok.mpr (by omega),
          bind_eq_ok.mpr ⟨again, packed, rfl⟩⟩⟩⟩
  refine ⟨written ++ again, whole, fun sameBytes => ?_, ?_⟩
  · obtain ⟨count', indices', fields', isEncoding', isWhole, countWritten,
      areWritten⟩ := pack_isEncoding flat membersLawful deep whole
    rw [sameBytes] at isWhole
    obtain ⟨_, sameCount, sameFields⟩ :=
      isEncoding.isCount.unique isEncoding'.isCount isWhole
    obtain ⟨sameIndices, _⟩ :=
      isEncoding.areFields.unique isEncoding'.areFields
        (congrArg (· ++ []) sameFields)
    rw [sameCount, sameIndices]
    exact ⟨countWritten, areWritten⟩
  · rintro ⟨countWritten, areWritten⟩
    rw [isWritten] at countWritten
    cases countWritten
    rw [same areWritten]

theorem pack_returns (flat : integers.Flat) (deep : 2 < maxDepth)
    (packable : Packable (maxDepth - 2) struct.members value) :
    ∃ bytes, pack integers struct maxDepth value = .ok bytes := by
  have depths : maxDepth - 1 - 1 = maxDepth - 2 := by omega
  obtain ⟨count, isCount⟩ :=
    flat.packs (countValid struct.members value 0)
      (show 0 < maxDepth - 1 by omega)
  obtain ⟨fields, areFields⟩ :=
    packMembers_of_packable flat (by omega) packable 0
  rw [← depths] at areFields
  exact ⟨count ++ fields, bind_eq_ok.mpr ⟨⟨⟩, require_eq_ok.mpr (by omega),
    bind_eq_ok.mpr ⟨count, isCount,
      bind_eq_ok.mpr ⟨⟨⟩, require_eq_ok.mpr (by omega),
        bind_eq_ok.mpr ⟨fields, areFields, rfl⟩⟩⟩⟩⟩

/-- A struct comes back from its bytes; what is read is an encoding with
increasing and known indices, which are as many as the count says; and it is
packed to the same bytes exactly when the count and the indices are as they are
packed. -/
theorem extension_codec (integers : Codec UInt32) (struct : Struct)
    (maxDepth : Nat) (flat : integers.Flat)
    (membersLawful : ∀ member ∈ struct.members, member.codec.Lawful)
    (deep : 2 < maxDepth) :
    (∀ value,
      (Packable (maxDepth - 2) struct.members value →
        ∃ bytes, pack integers struct maxDepth value = .ok bytes) ∧
      ∀ bytes, pack integers struct maxDepth value = .ok bytes →
        ∀ rest, unpack integers struct maxDepth (bytes ++ rest) =
          .ok (value, rest)) ∧
    (∀ value stream rest,
      unpack integers struct maxDepth stream = .ok (value, rest) ↔
        ∃ count indices fields,
          IsEncoding integers (maxDepth - 2) struct value count indices
              fields ∧
            stream = count ++ fields ++ rest) ∧
    ∀ value count indices fields,
      IsEncoding integers (maxDepth - 2) struct value count indices fields →
        (indices.map Prod.fst).Pairwise (· < ·) ∧
        (∀ entry ∈ indices, entry.1 < struct.members.length) ∧
        ((∀ member ∈ struct.members, member.codec.Canonical) →
          ∃ again, pack integers struct maxDepth value = .ok again ∧
            (again = count ++ fields ↔
              integers.pack (maxDepth - 2) (UInt32.ofNat indices.length) =
                  .ok count ∧
                AreWritten integers (maxDepth - 2) indices)) := by
  refine ⟨fun value => ⟨pack_returns flat deep, ?_⟩, ?_, ?_⟩
  · intro bytes packed rest
    obtain ⟨count, indices, fields, isEncoding, rfl, _⟩ :=
      pack_isEncoding flat membersLawful deep packed
    exact (unpack_eq_ok flat.toLawful membersLawful deep).mpr
      ⟨count, indices, fields, isEncoding, rfl⟩
  · exact fun value stream rest =>
      unpack_eq_ok flat.toLawful membersLawful deep
  · intro value count indices fields isEncoding
    obtain ⟨increasing, bounds⟩ := isEncoding.areFields.increasing
    refine ⟨increasing, fun entry isEntry => ?_, fun canonical =>
      pack_of_isEncoding flat membersLawful canonical deep isEncoding⟩
    have bound := (bounds entry isEntry).2
    omega

def byteCodec : Codec UInt8 where
  pack _ value := .ok [value]
  unpack _ stream :=
    match stream with
    | [] => .error "out of range"
    | value :: rest => .ok (value, rest)

theorem canonical_byteCodec : byteCodec.Canonical where
  packsAgain := by
    intro depth value stream rest unpacked
    cases stream with
    | nil => cases unpacked
    | cons byte stream =>
        cases unpacked
        exact ⟨[value], rfl, rfl⟩

theorem lawful_byteCodec : byteCodec.Lawful where
  comesBack := by
    intro depth value part packed rest
    cases packed
    rfl
  front := by
    intro depth value stream rest unpacked
    cases stream with
    | nil => cases unpacked
    | cons byte stream =>
        cases unpacked
        exact ⟨[value], rfl, fun later => rfl⟩

def oneByte : Struct where
  members := [⟨UInt8, byteCodec⟩]
  few := by decide

theorem members_oneByte :
    ∀ member ∈ oneByte.members,
      member.codec.Lawful ∧ member.codec.Canonical := by
  intro member isMember
  cases List.mem_singleton.mp isMember
  exact ⟨lawful_byteCodec, canonical_byteCodec⟩

theorem extension_codec_one_byte :
    (∃ bytes,
      pack UnsignedInt.codec oneByte 3 (some (5 : UInt8), ()) = .ok bytes) ∧
      unpack UnsignedInt.codec oneByte 3 [1, 0, 5, 7] =
        .ok ((some (5 : UInt8), ()), [7]) := by
  have codec :=
    extension_codec UnsignedInt.codec oneByte 3 UnsignedInt.flat_codec
      (fun member isMember => (members_oneByte member isMember).1) (by decide)
  have roundTrip := codec.1 (some (5 : UInt8), ())
  exact ⟨⟨[1, 0, 5], rfl⟩, roundTrip.2 [1, 0, 5] rfl [7]⟩

/-- A count of two groups is read, and packed in one. -/
theorem extension_codec_two_groups :
    (∀ member ∈ oneByte.members,
      member.codec.Lawful ∧ member.codec.Canonical) ∧
      unpack UnsignedInt.codec oneByte 3 [0x81, 0x00, 0x00, 0x05] =
        .ok ((some (5 : UInt8), ()), []) ∧
      pack UnsignedInt.codec oneByte 3 (some (5 : UInt8), ()) =
        .ok [0x01, 0x00, 0x05] :=
  ⟨members_oneByte, rfl, rfl⟩

end Struct

end GxbCore.Protocol.Extension
