import Mathlib.Data.Nat.Pairing
import GxbCore.Lib.PairTree

/-!
# The Merkle root of a block

`calculate_merkle_root` reduces one vector of digests in place, level by level.
The indices of its loops have 32 bits, and the number of transactions has 64:
a loop that never ends has no result, whatever the fuel.
-/

namespace GxbCore.Protocol

open PairTree

/-- The digests of transactions, and the hash functions. -/
structure MerkleHash (T D C : Type) where
  merkleDigest : T → D
  /-- `digest_type()` -/
  blankDigest : D
  /-- `digest_type::hash` of a pair -/
  hashPair : D → D → D
  /-- `checksum_type::hash` -/
  hashRoot : D → C
  /-- `checksum_type()` -/
  blankChecksum : C

namespace MerkleHash

variable {T D C : Type} (hash : MerkleHash T D C)

/-- The loop that fills `ids`, from `i` on. -/
def fillIds (transactions : List T) :
    Nat → UInt32 → List D → Option (List D)
  | 0, _, _ => none
  | fuel + 1, i, ids =>
      if i.toNat < transactions.length then do
        let transaction ← transactions[i.toNat]?
        fillIds transactions fuel (i + 1)
          (ids.set i.toNat (hash.merkleDigest transaction))
      else
        some ids

/-- The loop that hashes ids in pairs, from `i` on: the number of hashes, and
the vector. -/
def hashPairs (iMax : UInt32) :
    Nat → UInt32 → UInt32 → List D → Option (UInt32 × List D)
  | 0, _, _, _ => none
  | fuel + 1, i, k, ids =>
      if i < iMax then do
        let left ← ids[i.toNat]?
        let right ← ids[(i + 1).toNat]?
        hashPairs iMax fuel (i + 2) (k + 1)
          (ids.set k.toNat (hash.hashPair left right))
      else
        some (k, ids)

/-- The loop over the levels. -/
def reduceIds : Nat → Nat → List D → Option (List D)
  | 0, _, _ => none
  | fuel + 1, currentNumberOfHashes, ids =>
      if 1 < currentNumberOfHashes then do
        let odd := currentNumberOfHashes % 2
        let iMax := UInt32.ofNat (currentNumberOfHashes - odd)
        let (k, ids) ← hash.hashPairs iMax fuel 0 0 ids
        if odd = 1 then do
          let last ← ids[iMax.toNat]?
          reduceIds fuel (k + 1).toNat (ids.set k.toNat last)
        else
          reduceIds fuel k.toNat ids
      else
        some ids

/-- `signed_block::calculate_merkle_root`, when it ends with the fuel. -/
def calculateMerkleRoot (fuel : Nat) (transactions : List T) : Option C :=
  if transactions.length = 0 then
    some hash.blankChecksum
  else do
    let ids := List.replicate transactions.length hash.blankDigest
    let ids ← hash.fillIds transactions fuel 0 ids
    let ids ← hash.reduceIds fuel transactions.length ids
    let first ← ids[0]?
    return hash.hashRoot first

/-- The root of the tree over the digests. -/
def merkleRoot (transactions : List T) : C :=
  match root hash.hashPair (transactions.map hash.merkleDigest) with
  | none => hash.blankChecksum
  | some last => hash.hashRoot last

end MerkleHash

section Loops

variable {T D C : Type} {hash : MerkleHash T D C}

theorem toNat_succ {i : UInt32} (small : i.toNat + 1 < 2 ^ 32) :
    (i + 1).toNat = i.toNat + 1 := by
  rw [UInt32.toNat_add]
  exact Nat.mod_eq_of_lt small

theorem toNat_add_two {i : UInt32} (small : i.toNat + 2 < 2 ^ 32) :
    (i + 2).toNat = i.toNat + 2 := by
  rw [UInt32.toNat_add]
  exact Nat.mod_eq_of_lt small

theorem set_append_length (first rest : List D) (old new : D) :
    (first ++ old :: rest).set first.length new = first ++ new :: rest := by
  rw [List.set_append_right _ _ (Nat.le_refl _), Nat.sub_self, List.set_cons_zero]

variable {transactions : List T}

/-- An index of 32 bits never gets to the end of that many transactions. -/
theorem fillIds_endless (long : 2 ^ 32 ≤ transactions.length) (fuel : Nat)
    (i : UInt32) (ids : List D) :
    hash.fillIds transactions fuel i ids = none := by
  induction fuel generalizing i ids with
  | zero => rfl
  | succ fuel ih =>
      have inside : i.toNat < transactions.length :=
        Nat.lt_of_lt_of_le i.toNat_lt long
      rw [MerkleHash.fillIds, if_pos inside, List.getElem?_eq_getElem inside]
      exact ih _ _

theorem fillIds_fills (before rest : List T) (blanks : List D) (fuel : Nat)
    (i : UInt32) (place : i.toNat = before.length)
    (sameLength : blanks.length = rest.length)
    (short : before.length + rest.length < 2 ^ 32)
    (enough : rest.length < fuel) :
    hash.fillIds (before ++ rest) fuel i
        (before.map hash.merkleDigest ++ blanks) =
      some ((before ++ rest).map hash.merkleDigest) := by
  induction rest generalizing before blanks fuel i with
  | nil =>
      obtain ⟨fuel, rfl⟩ := Nat.exists_eq_add_of_lt enough
      rw [List.length_nil, List.length_eq_zero_iff] at sameLength
      simp [MerkleHash.fillIds, place, sameLength]
  | cons transaction rest ih =>
      match fuel, blanks, sameLength with
      | fuel + 1, blank :: blanks, sameLength =>
          rw [List.length_cons] at short enough
          have inside : i.toNat < (before ++ transaction :: rest).length := by
            simp [place]
          have next : (i + 1).toNat = (before ++ [transaction]).length := by
            rw [toNat_succ (by omega), place, List.length_append,
              List.length_singleton]
          have written :
              (before.map hash.merkleDigest ++ blank :: blanks).set i.toNat
                  (hash.merkleDigest transaction) =
                (before ++ [transaction]).map hash.merkleDigest ++ blanks := by
            have filled :=
              set_append_length (before.map hash.merkleDigest) blanks blank
                (hash.merkleDigest transaction)
            rw [List.length_map, ← place] at filled
            simp [filled]
          have goes :=
            ih (before ++ [transaction]) blanks fuel (i + 1)
              next
              (by simpa using sameLength)
              (by
                rw [List.length_append, List.length_singleton]
                omega)
              (by omega)
          rw [MerkleHash.fillIds, if_pos inside]
          simp only [place, List.getElem?_append_right (Nat.le_refl _),
            Nat.sub_self, List.getElem?_cons_zero, Option.bind_eq_bind,
            Option.bind_some]
          rw [List.append_assoc, List.singleton_append] at goes
          rw [← place, written, goes]

/-- One round reads the pair at `i` and writes its hash at `k`. -/
theorem hashPairs_round (out between rest later : List D) {left right : D}
    (fuel : Nat) (i k : UInt32) {iMax : UInt32}
    (placeOut : k.toNat = out.length)
    (place : i.toNat = out.length + between.length)
    (inside : i.toNat + 2 ≤ iMax.toNat) :
    ∃ between',
      between'.length = between.length + 1 ∧
        hash.hashPairs iMax (fuel + 1) i k
            (out ++ (between ++ (left :: right :: rest ++ later))) =
          hash.hashPairs iMax fuel (i + 2) (k + 1)
            ((out ++ [hash.hashPair left right]) ++
              (between' ++ (rest ++ later))) := by
  have small := iMax.toNat_lt
  have second : (i + 1).toNat = i.toNat + 1 := toNat_succ (by omega)
  have readLeft :
      (out ++ (between ++ (left :: right :: rest ++ later)))[i.toNat]? =
        some left := by
    rw [← List.append_assoc, List.getElem?_append_right
      (by rw [List.length_append]; omega)]
    simp [place]
  have readRight :
      (out ++ (between ++ (left :: right :: rest ++ later)))[
          (i + 1).toNat]? = some right := by
    rw [second, ← List.append_assoc, List.getElem?_append_right
      (by rw [List.length_append]; omega)]
    simp [place]
  -- the place `k` is the first of those between, or `i` itself
  obtain ⟨old, between', split, more⟩ :
      ∃ old between', between ++ [left, right] = old :: between' ∧
        between'.length = between.length + 1 := by
    cases between with
    | nil => exact ⟨left, [right], rfl, rfl⟩
    | cons old tail => exact ⟨old, tail ++ [left, right], rfl, by simp⟩
  have whole :
      out ++ (between ++ (left :: right :: rest ++ later)) =
        out ++ old :: (between' ++ (rest ++ later)) := by
    have same := congrArg (out ++ · ++ (rest ++ later)) split
    simpa using same
  refine ⟨between', more, ?_⟩
  rw [MerkleHash.hashPairs, if_pos (UInt32.lt_iff_toNat_lt.mpr (by omega))]
  simp only [readLeft, readRight, Option.bind_eq_bind, Option.bind_some]
  rw [whole, placeOut, set_append_length]
  simp

/-- The pairs between `i` and `iMax` are hashed to the place `k`; what is behind
them stays. -/
theorem hashPairs_hashes (out between pairs later : List D) (fuel : Nat)
    (i k : UInt32) {iMax : UInt32} (even : pairs.length % 2 = 0)
    (placeOut : k.toNat = out.length)
    (place : i.toNat = out.length + between.length)
    (last : iMax.toNat = i.toNat + pairs.length)
    (enough : pairs.length < fuel) :
    ∃ k' between',
      hash.hashPairs iMax fuel i k (out ++ (between ++ (pairs ++ later))) =
          some (k', (out ++ pairUp hash.hashPair pairs) ++
            (between' ++ later)) ∧
        k'.toNat = (out ++ pairUp hash.hashPair pairs).length ∧
        k'.toNat + between'.length = iMax.toNat := by
  have small := iMax.toNat_lt
  induction pairs using pairUp.induct generalizing out between fuel i k with
  | case1 left right rest ih =>
      simp only [List.length_cons] at even last enough
      obtain ⟨fuel, rfl⟩ := Nat.exists_eq_add_of_lt (Nat.zero_lt_of_lt enough)
      rw [Nat.zero_add] at enough ⊢
      obtain ⟨between', more, round⟩ :=
        @hashPairs_round T D C hash out between rest later left right fuel i k
          iMax placeOut place (by omega)
      obtain ⟨k', between'', goes, isPlace, rests⟩ :=
        ih (out ++ [hash.hashPair left right]) between'
          fuel (i + 2) (k + 1) (by omega)
          (by
            rw [toNat_succ (by omega), placeOut, List.length_append,
              List.length_singleton])
          (by
            rw [toNat_add_two (by omega), place, List.length_append,
              List.length_singleton, more]
            omega)
          (by
            rw [toNat_add_two (by omega)]
            omega)
          (by omega)
      refine ⟨k', between'', ?_, ?_, rests⟩
      · rw [round, goes]
        simp
      · rw [isPlace]
        simp
  | case2 alone => simp at even
  | case3 =>
      obtain ⟨fuel, rfl⟩ := Nat.exists_eq_add_of_lt enough
      have outside : ¬ i < iMax := by
        rw [UInt32.lt_iff_toNat_lt, last]
        simp
      refine ⟨k, between, ?_, ?_, ?_⟩
      · rw [MerkleHash.hashPairs, if_neg outside]
        simp
      · simpa using placeOut
      · rw [last, place, placeOut]
        simp

/-- One level is hashed to the front of the vector, and the loop goes on with
the level above it. -/
theorem reduceIds_level (level stale : List D) (fuel : Nat)
    (many : 1 < level.length) (short : level.length < 2 ^ 32)
    (enough : level.length < fuel) :
    ∃ stale',
      hash.reduceIds (fuel + 1) level.length (level ++ stale) =
        hash.reduceIds fuel (pairUp hash.hashPair level).length
          (pairUp hash.hashPair level ++ stale') := by
  obtain ⟨pairs, alone, isLevel, even, isAlone⟩ :
      ∃ pairs alone, level = pairs ++ alone ∧ pairs.length % 2 = 0 ∧
        alone.length = level.length % 2 := by
    refine ⟨level.take (level.length - level.length % 2),
      level.drop (level.length - level.length % 2),
      (List.take_append_drop _ _).symm, ?_, ?_⟩
    · rw [List.length_take]
      omega
    · rw [List.length_drop]
      omega
  have lengths : level.length = pairs.length + alone.length := by
    rw [isLevel, List.length_append]
  have isMax :
      (UInt32.ofNat (level.length - level.length % 2)).toNat =
        pairs.length := by
    rw [UInt32.toNat_ofNat', Nat.mod_eq_of_lt (by omega)]
    omega
  obtain ⟨k, between, goes, isPlace, rests⟩ :=
    @hashPairs_hashes T D C hash [] [] pairs (alone ++ stale) fuel 0 0
      (UInt32.ofNat (level.length - level.length % 2)) even rfl rfl
      (by rw [isMax]; simp) (by omega)
  have whole : level ++ stale = [] ++ ([] ++ (pairs ++ (alone ++ stale))) := by
    rw [isLevel]
    simp
  have few : alone.length < 2 := isAlone ▸ Nat.mod_lt _ (by decide)
  rw [MerkleHash.reduceIds, if_pos many, whole]
  simp only [goes, Option.bind_eq_bind, Option.bind_some]
  simp only [List.nil_append] at isPlace ⊢
  have joined :
      pairUp hash.hashPair level =
        pairUp hash.hashPair pairs ++ pairUp hash.hashPair alone := by
    rw [isLevel, pairUp_append _ even]
  rw [joined]
  match alone, isAlone, few with
  | [], isAlone, _ =>
      have isEven : ¬ level.length % 2 = 1 := by
        rw [← isAlone]
        simp
      refine ⟨between ++ stale, ?_⟩
      rw [if_neg isEven, isPlace]
      simp
  | [last], isAlone, _ =>
      have isOdd : level.length % 2 = 1 := isAlone.symm
      have small : k.toNat ≤ pairs.length := by omega
      have readLast :
          (pairUp hash.hashPair pairs ++ (between ++ ([last] ++ stale)))[
              (UInt32.ofNat (level.length - level.length % 2)).toNat]? =
            some last := by
        rw [← rests, isPlace, ← List.append_assoc,
          List.getElem?_append_right (by rw [List.length_append])]
        simp
      obtain ⟨old, stale', split⟩ :
          ∃ old stale', between ++ ([last] ++ stale) = old :: stale' := by
        cases between with
        | nil => exact ⟨last, stale, rfl⟩
        | cons old tail => exact ⟨old, tail ++ ([last] ++ stale), rfl⟩
      refine ⟨stale', ?_⟩
      rw [if_pos isOdd, readLast, Option.bind_some,
        toNat_succ (by omega), split, isPlace, set_append_length]
      simp

theorem reduceIds_reduces (level stale : List D) (fuel : Nat)
    (nonempty : 0 < level.length) (short : level.length < 2 ^ 32)
    (enough : 2 * level.length ≤ fuel) :
    ∃ ids last,
      hash.reduceIds fuel level.length (level ++ stale) = some ids ∧
        ids[0]? = some last ∧ root hash.hashPair level = some last := by
  induction level using root.induct hash.hashPair generalizing stale fuel with
  | case1 => simp at nonempty
  | case2 last =>
      cases fuel with
      | zero => simp at enough
      | succ fuel =>
          refine ⟨last :: stale, last, ?_, rfl, root_single _ last⟩
          rw [MerkleHash.reduceIds, if_neg (by simp)]
          rfl
  | case3 left right rest ih =>
      have many : 1 < (left :: right :: rest).length := by simp
      have shorter := length_pairUp hash.hashPair (left :: right :: rest)
      cases fuel with
      | zero => simp at enough
      | succ fuel =>
          obtain ⟨stale', goes⟩ :=
            @reduceIds_level T D C hash _ stale fuel many short (by omega)
          rw [goes, ← root_pairUp many]
          exact ih stale' fuel (by omega) (by omega)
            (by omega)

/-- What a computation ends with, it ends with when its parts end with the
same. -/
theorem bind_eq_some_mono {α β : Type} {first more : Option α}
    {next nextMore : α → Option β} {result : β}
    (ended : first.bind next = some result)
    (starts : ∀ value, first = some value → more = some value)
    (goes : ∀ value, next value = some result → nextMore value = some result) :
    more.bind nextMore = some result := by
  obtain ⟨value, isFirst, rest⟩ := Option.bind_eq_some_iff.mp ended
  exact Option.bind_eq_some_iff.mpr ⟨value, starts _ isFirst, goes _ rest⟩

/-- More fuel changes nothing about a loop that has ended. -/
theorem fillIds_more {fuel : Nat} {i : UInt32} {ids filled : List D}
    (ended : hash.fillIds transactions fuel i ids = some filled) :
    hash.fillIds transactions (fuel + 1) i ids = some filled := by
  induction fuel generalizing i ids with
  | zero => cases ended
  | succ fuel ih =>
      rw [MerkleHash.fillIds] at ended ⊢
      split
      · next inside =>
          rw [if_pos inside] at ended
          exact bind_eq_some_mono ended (fun _ found => found)
            (fun _ rest => ih rest)
      · next outside =>
          rw [if_neg outside] at ended
          exact ended

theorem hashPairs_more {iMax i k : UInt32} {fuel : Nat} {ids : List D}
    {level : UInt32 × List D}
    (ended : hash.hashPairs iMax fuel i k ids = some level) :
    hash.hashPairs iMax (fuel + 1) i k ids = some level := by
  induction fuel generalizing i k ids with
  | zero => cases ended
  | succ fuel ih =>
      rw [MerkleHash.hashPairs] at ended ⊢
      split
      · next inside =>
          rw [if_pos inside] at ended
          refine bind_eq_some_mono ended (fun _ isLeft => isLeft) ?_
          intro left rest
          exact bind_eq_some_mono rest (fun _ isRight => isRight)
            (fun _ rest => ih rest)
      · next outside =>
          rw [if_neg outside] at ended
          exact ended

theorem reduceIds_more {count fuel : Nat} {ids reduced : List D}
    (ended : hash.reduceIds fuel count ids = some reduced) :
    hash.reduceIds (fuel + 1) count ids = some reduced := by
  induction fuel generalizing count ids with
  | zero => cases ended
  | succ fuel ih =>
      rw [MerkleHash.reduceIds] at ended ⊢
      split
      · next many =>
          rw [if_pos many] at ended
          refine bind_eq_some_mono ended (fun _ => hashPairs_more) ?_
          rintro ⟨k, level⟩ rest
          dsimp only at rest ⊢
          split
          · next odd =>
              rw [if_pos odd] at rest
              exact bind_eq_some_mono rest (fun _ isLast => isLast)
                (fun _ rest => ih rest)
          · next even =>
              rw [if_neg even] at rest
              exact ih rest
      · next few =>
          rw [if_neg few] at ended
          exact ended

theorem calculateMerkleRoot_more {root : C} {fuel : Nat}
    (ended : hash.calculateMerkleRoot fuel transactions = some root)
    (more : Nat) :
    hash.calculateMerkleRoot (fuel + more) transactions = some root := by
  induction more with
  | zero => exact ended
  | succ more ih =>
      unfold MerkleHash.calculateMerkleRoot at ih ⊢
      split
      · next empty =>
          rw [if_pos empty] at ih
          exact ih
      · next nonempty =>
          rw [if_neg nonempty] at ih
          refine bind_eq_some_mono ih
            (fun _ => fillIds_more) ?_
          intro ids rest
          exact bind_eq_some_mono rest (fun _ => reduceIds_more)
            (fun _ first => first)

end Loops

section Root

variable {T D C : Type}

/-- The calculation ends with this root. -/
def HasRoot (hash : MerkleHash T D C) (transactions : List T) (root : C) :
    Prop :=
  ∃ fuel, hash.calculateMerkleRoot fuel transactions = some root

variable {hash : MerkleHash T D C} {transactions : List T}

/-- Fewer than `2 ^ 32` transactions have the root of their tree. -/
theorem calculateMerkleRoot_short (short : transactions.length < 2 ^ 32)
    {fuel : Nat} (enough : 2 * transactions.length < fuel) :
    hash.calculateMerkleRoot fuel transactions =
      some (hash.merkleRoot transactions) := by
  by_cases empty : transactions.length = 0
  · rw [MerkleHash.calculateMerkleRoot, if_pos empty,
      List.length_eq_zero_iff.mp empty]
    simp [MerkleHash.merkleRoot]
  · have filled :=
      @fillIds_fills T D C hash [] transactions
        (List.replicate transactions.length hash.blankDigest) fuel 0 rfl
        List.length_replicate (by simpa using short) (by omega)
    have digests :
        (transactions.map hash.merkleDigest).length = transactions.length :=
      List.length_map _
    obtain ⟨ids, last, reduced, first, isRoot⟩ :=
      @reduceIds_reduces T D C hash (transactions.map hash.merkleDigest) [] fuel
        (by omega) (by omega) (by omega)
    rw [List.append_nil, digests] at reduced
    simp only [List.map_nil, List.nil_append] at filled
    rw [MerkleHash.calculateMerkleRoot, if_neg empty]
    simp only [filled, reduced, first, Option.bind_eq_bind, Option.bind_some,
      MerkleHash.merkleRoot, isRoot]
    rfl

/-- More transactions have none: the loop over them does not end. -/
theorem calculateMerkleRoot_long (long : 2 ^ 32 ≤ transactions.length)
    (fuel : Nat) : hash.calculateMerkleRoot fuel transactions = none := by
  rw [MerkleHash.calculateMerkleRoot, if_neg (by omega)]
  simp only [fillIds_endless long, Option.bind_eq_bind, Option.bind_none]

/-- A root that is calculated is that of the tree, over fewer than `2 ^ 32`
transactions. -/
theorem HasRoot.short {root : C} (hasRoot : HasRoot hash transactions root) :
    transactions.length < 2 ^ 32 ∧ root = hash.merkleRoot transactions := by
  obtain ⟨fuel, returns⟩ := hasRoot
  by_cases short : transactions.length < 2 ^ 32
  · refine ⟨short, ?_⟩
    have later :=
      calculateMerkleRoot_more returns (2 * transactions.length + 1)
    rw [calculateMerkleRoot_short short (by omega)] at later
    exact (Option.some.inj later).symm
  · rw [calculateMerkleRoot_long (Nat.le_of_not_lt short) fuel] at returns
    cases returns

theorem merkleRoot_injective (injective : JoinInjective hash.hashPair)
    (rootInjective : Function.Injective hash.hashRoot)
    {transactions others : List T}
    (sameLength : transactions.length = others.length)
    (same : hash.merkleRoot transactions = hash.merkleRoot others) :
    transactions.map hash.merkleDigest = others.map hash.merkleDigest := by
  have lengths :
      (transactions.map hash.merkleDigest).length =
        (others.map hash.merkleDigest).length := by
    simpa using sameLength
  by_cases empty : transactions.length = 0
  · have noOthers : others.length = 0 := sameLength ▸ empty
    rw [List.length_eq_zero_iff.mp empty, List.length_eq_zero_iff.mp noOthers]
  · obtain ⟨last, isLast⟩ :=
      @root_of_length D hash.hashPair (transactions.map hash.merkleDigest)
        (by simp; omega)
    obtain ⟨other, isOther⟩ :=
      @root_of_length D hash.hashPair (others.map hash.merkleDigest)
        (by simp; omega)
    simp only [MerkleHash.merkleRoot, isLast, isOther] at same
    apply root_injective injective lengths
    rw [isLast, isOther, rootInjective same]

/-- The root is calculated, as that of the tree, exactly for fewer than `2 ^ 32`
transactions; with hashes that do not collide, lists of one length that have
the same root have the same digests. -/
theorem merkle_root_of_tree (hash : MerkleHash T D C) :
    (∀ transactions : List T,
      HasRoot hash transactions (hash.merkleRoot transactions) ↔
        transactions.length < 2 ^ 32) ∧
    (JoinInjective hash.hashPair → Function.Injective hash.hashRoot →
      ∀ (transactions others : List T) (root : C),
        transactions.length = others.length →
        HasRoot hash transactions root → HasRoot hash others root →
        transactions.map hash.merkleDigest = others.map hash.merkleDigest) := by
  constructor
  · intro transactions
    constructor
    · exact fun hasRoot => hasRoot.short.1
    · intro short
      exact ⟨_, calculateMerkleRoot_short short (Nat.lt_succ_self _)⟩
  · intro injective rootInjective transactions others root sameLength hasRoot
      otherRoot
    apply merkleRoot_injective injective rootInjective sameLength
    rw [← hasRoot.short.2, ← otherRoot.short.2]

def pairing : MerkleHash Nat Nat Nat where
  merkleDigest := id
  blankDigest := 0
  hashPair := Nat.pair
  hashRoot := id
  blankChecksum := 0

theorem pairing_injective : JoinInjective pairing.hashPair := by
  intro left right other another same
  exact Nat.pair_eq_pair.mp same

/-- Only one list of three transactions has the root of 1, 0, 2. -/
theorem merkle_root_of_tree_three :
    ∀ transactions : List Nat, transactions.length = 3 →
      HasRoot pairing transactions (Nat.pair (Nat.pair 1 0) 2) →
      transactions = [1, 0, 2] := by
  intro transactions three hasRoot
  have listed : HasRoot pairing [1, 0, 2] (Nat.pair (Nat.pair 1 0) 2) :=
    ⟨7, by decide⟩
  have digests :=
    (merkle_root_of_tree pairing).2 pairing_injective Function.injective_id
      transactions [1, 0, 2] _ three hasRoot listed
  simpa [pairing] using digests

/-- The loop over `2 ^ 32` transactions never ends. -/
theorem merkle_root_endless :
    ¬ HasRoot pairing (List.replicate (2 ^ 32) 0)
      (pairing.merkleRoot (List.replicate (2 ^ 32) 0)) := by
  rintro ⟨fuel, returns⟩
  rw [calculateMerkleRoot_long (by rw [List.length_replicate]) fuel] at returns
  cases returns

end Root

end GxbCore.Protocol
