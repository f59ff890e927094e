import Mathlib.Algebra.Group.Nat.Defs
import GxbCore.Lib.Wire

/-!
# Codecs of single values

A codec packs a value to bytes and unpacks one from the front of a stream, both
up to a depth of nesting.  What a part of a stream is read as does not depend on
the bytes behind it.
-/

namespace GxbCore

/-- `pack` and `unpack` of a type; an exception is its text. -/
structure Codec (α : Type) where
  pack : Nat → α → Except String Bytes
  unpack : Nat → Bytes → Except String (α × Bytes)

namespace Codec

variable {α : Type} {codec : Codec α} {depth : Nat} {value other : α}
  {part first second rest later : Bytes}

def Reads (codec : Codec α) (depth : Nat) (value : α) (part : Bytes) : Prop :=
  ∀ rest, codec.unpack depth (part ++ rest) = .ok (value, rest)

/-- What is packed comes back, and what is unpacked is the front of the
stream. -/
structure Lawful (codec : Codec α) : Prop where
  comesBack :
    ∀ {depth : Nat} {value : α} {part : Bytes},
      codec.pack depth value = .ok part → codec.Reads depth value part
  front :
    ∀ {depth : Nat} {value : α} {stream rest : Bytes},
      codec.unpack depth stream = .ok (value, rest) →
        ∃ part, stream = part ++ rest ∧ codec.Reads depth value part

/-- What is unpacked is what is packed. -/
structure Canonical (codec : Codec α) : Prop where
  packsAgain :
    ∀ {depth : Nat} {value : α} {stream rest : Bytes},
      codec.unpack depth stream = .ok (value, rest) →
        ∃ part, codec.pack depth value = .ok part ∧ stream = part ++ rest

/-- A codec without nesting: each value is packed, in the same way at each
depth that is left. -/
structure Flat (codec : Codec α) : Prop extends codec.Lawful where
  packs :
    ∀ {depth : Nat} (value : α), 0 < depth →
      ∃ part, codec.pack depth value = .ok part
  sameBytes :
    ∀ {depth deeper : Nat} (value : α), 0 < depth → 0 < deeper →
      codec.pack depth value = codec.pack deeper value

/-- The front of a stream is read in one way. -/
theorem Reads.unique (reads : codec.Reads depth value first)
    (readsOther : codec.Reads depth other second)
    (sameStream : first ++ rest = second ++ later) :
    value = other ∧ first = second ∧ rest = later := by
  have read := reads rest
  rw [sameStream, readsOther later] at read
  cases read
  exact ⟨rfl, List.append_cancel_right sameStream, rfl⟩

/-- A canonical codec packs what it reads. -/
theorem Canonical.pack_of_reads (canonical : codec.Canonical)
    (reads : codec.Reads depth value part) :
    codec.pack depth value = .ok part := by
  obtain ⟨again, packed, same⟩ := canonical.packsAgain (reads [])
  rw [packed, List.append_cancel_right same]

end Codec

namespace UnsignedInt

/-- The groups of seven bits, the low ones first; the high bit says that
another group follows. -/
def packGroups : Nat → Nat → Bytes
  | 0, _ => []
  | groups + 1, n =>
      if n < 128 then [UInt8.ofNat n]
      else UInt8.ofNat (n % 128 + 128) :: packGroups groups (n / 128)

/-- At most so many groups. -/
def unpackGroups : Nat → Bytes → Option (Nat × Bytes)
  | 0, _ => none
  | _ + 1, [] => none
  | groups + 1, byte :: stream =>
      if byte.toNat < 128 then some (byte.toNat, stream)
      else
        (unpackGroups groups stream).map fun (high, stream) =>
          (byte.toNat % 128 + 128 * high, stream)

/-- `unsigned_int`: five groups hold 32 bits, and higher bits are dropped. -/
def codec : Codec UInt32 where
  pack _ value := .ok (packGroups 5 value.toNat)
  unpack _ stream := do
    let (n, stream) ← orThrow (unpackGroups 5 stream) "out of range"
    return (UInt32.ofNat n, stream)

variable {groups n : Nat} {stream rest : Bytes}

/-- The groups of a number that they hold are read back. -/
theorem unpackGroups_packGroups (small : n < 128 ^ (groups + 1))
    (rest : Bytes) :
    unpackGroups (groups + 1) (packGroups (groups + 1) n ++ rest) =
      some (n, rest) := by
  induction groups generalizing n with
  | zero =>
      have isLast : n < 128 := by simpa using small
      have byte : (UInt8.ofNat n).toNat = n := by
        rw [UInt8.toNat_ofNat']
        omega
      simp [packGroups, unpackGroups, isLast, byte]
  | succ groups ih =>
      by_cases isLast : n < 128
      · have byte : (UInt8.ofNat n).toNat = n := by
          rw [UInt8.toNat_ofNat']
          omega
        rw [packGroups, if_pos isLast, List.singleton_append, unpackGroups,
          byte, if_pos isLast]
      · have byte : (UInt8.ofNat (n % 128 + 128)).toNat = n % 128 + 128 := by
          rw [UInt8.toNat_ofNat']
          omega
        have high : n / 128 < 128 ^ (groups + 1) := by
          rw [Nat.pow_succ] at small
          exact Nat.div_lt_of_lt_mul (by omega)
        rw [packGroups, if_neg isLast, List.cons_append, unpackGroups, byte,
          if_neg (by omega), ih high, Option.map_some]
        simp only [Option.some.injEq, Prod.mk.injEq, and_true]
        omega

/-- What is read are the bytes of the groups. -/
theorem unpackGroups_front
    (unpacked : unpackGroups groups stream = some (n, rest)) :
    ∃ part, stream = part ++ rest ∧
      ∀ later, unpackGroups groups (part ++ later) = some (n, later) := by
  induction groups generalizing stream n with
  | zero => cases unpacked
  | succ groups ih =>
      cases stream with
      | nil => cases unpacked
      | cons byte stream =>
          rw [unpackGroups] at unpacked
          by_cases isLast : byte.toNat < 128
          · rw [if_pos isLast] at unpacked
            cases unpacked
            exact ⟨[byte], rfl, fun later => by
              rw [List.singleton_append, unpackGroups, if_pos isLast]⟩
          · rw [if_neg isLast] at unpacked
            obtain ⟨⟨high, left⟩, isHigh, same⟩ :=
              Option.map_eq_some_iff.mp unpacked
            cases same
            obtain ⟨part, rfl, again⟩ := ih isHigh
            refine ⟨byte :: part, rfl, fun later => ?_⟩
            rw [List.cons_append, unpackGroups, if_neg isLast, again later]
            rfl

theorem unpack_eq_ok {depth : Nat} {value : UInt32} :
    codec.unpack depth stream = .ok (value, rest) ↔
      ∃ n, unpackGroups 5 stream = some (n, rest) ∧
        value = UInt32.ofNat n := by
  simp only [codec, bind_eq_ok, orThrow_eq_ok, pure, Except.pure,
    Except.ok.injEq, Prod.mk.injEq]
  constructor
  · rintro ⟨⟨n, left⟩, unpacked, rfl, rfl⟩
    exact ⟨n, unpacked, rfl⟩
  · rintro ⟨n, unpacked, rfl⟩
    exact ⟨(n, rest), unpacked, rfl, rfl⟩

theorem flat_codec : codec.Flat where
  comesBack := by
    intro depth value part packed rest
    cases packed
    have small : value.toNat < 128 ^ (4 + 1) :=
      Nat.lt_trans value.toNat_lt (by decide)
    exact unpack_eq_ok.mpr ⟨value.toNat,
      unpackGroups_packGroups small rest, UInt32.ofNat_toNat.symm⟩
  front := by
    intro depth value stream rest unpacked
    obtain ⟨n, read, rfl⟩ := unpack_eq_ok.mp unpacked
    obtain ⟨part, isFront, again⟩ := unpackGroups_front read
    exact ⟨part, isFront,
      fun later => unpack_eq_ok.mpr ⟨n, again later, rfl⟩⟩
  packs _ _ := ⟨_, rfl⟩
  sameBytes _ _ _ := rfl

end UnsignedInt

end GxbCore
