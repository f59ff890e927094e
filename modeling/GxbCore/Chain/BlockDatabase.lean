import Mathlib.Algebra.Group.Nat.Defs
import Mathlib.Data.Set.Insert
import GxbCore.Chain.Blocks
import GxbCore.Lib.Fallible

/-!
# The files of the block database

`block_database` is made of two files: `index` has one entry for each block
number, with the position and the size of the packed block in the file `blocks`.
A block is removed by setting the size in its entry to zero, and looking for the
last block cuts the entries off behind it that are not of a block.

As long as blocks are stored under their own ids the readers agree with the
block log, but for one: `fetch_block_id` does not look at the size, and so finds
removed blocks.

Positions and sizes of files are natural numbers, and the index file is a list
of entries: it is read and written by whole entries.
-/

namespace GxbCore.Chain

/-- `fc::raw::pack` and `fc::raw::unpack` for blocks. -/
structure BlockFormat (B : Type) where
  pack : Block B → List UInt8
  unpack : List UInt8 → Option (Block B)

/-- What is packed can be unpacked, and there is no block in no bytes. -/
structure BlockFormat.Lawful {B : Type} (format : BlockFormat B) : Prop where
  unpack_pack : ∀ block, format.unpack (format.pack block) = some block
  unpack_nil : format.unpack [] = none

structure IndexEntry where
  blockPos : Nat
  blockSize : Nat
  blockId : BlockId
  deriving DecidableEq, Repr

/-- The bytes of a hole in the file are zero. -/
def IndexEntry.hole : IndexEntry :=
  ⟨0, 0, .zero⟩

/-- The two files. -/
structure BlockDatabase where
  index : List IndexEntry
  blocks : List UInt8
  deriving DecidableEq, Repr

/-- `seekp` and `write`: behind the end of the file a hole is left. -/
def writeEntry (place : Nat) (entry : IndexEntry) (index : List IndexEntry) :
    List IndexEntry :=
  if place < index.length then index.set place entry
  else
    index ++ List.replicate (place - index.length) .hole ++ [entry]

/-- `seekg` and `read` -/
def readBytes (file : List UInt8) (pos size : Nat) : List UInt8 :=
  (file.drop pos).take size

namespace BlockDatabase

variable {B : Type}

def empty : BlockDatabase :=
  ⟨[], []⟩

def store (format : BlockFormat B) (db : BlockDatabase) (id : BlockId)
    (b : Block B) : BlockDatabase :=
  let id := if id = .zero then b.id else id
  let vec := format.pack b
  { index :=
      writeEntry id.num ⟨db.blocks.length, vec.length % 2 ^ 32, id⟩ db.index
    blocks := db.blocks ++ vec }

def remove (db : BlockDatabase) (id : BlockId) :
    Except String BlockDatabase :=
  match db.index[id.num]? with
  | none => .error "Block ${id} not contained in block database"
  | some e =>
      if e.blockId = id then
        .ok { db with index := db.index.set id.num { e with blockSize := 0 } }
      else
        .ok db

def contains (db : BlockDatabase) (id : BlockId) : Bool :=
  if id = .zero then false
  else
    match db.index[id.num]? with
    | none => false
    | some e => e.blockId = id ∧ 0 < e.blockSize

def fetchBlockId (db : BlockDatabase) (blockNum : Nat) :
    Except String BlockId :=
  match db.index[blockNum]? with
  | none =>
      .error "Block number ${block_num} not contained in block database"
  | some e =>
      if e.blockId = .zero then
        .error "Empty block_id in block_database (maybe corrupt on disk?)"
      else
        .ok e.blockId

/-- The block of an entry; nothing when it cannot be unpacked or has another
id. -/
def unpackEntry (format : BlockFormat B) (db : BlockDatabase)
    (e : IndexEntry) : Option (Block B) :=
  match format.unpack (readBytes db.blocks e.blockPos e.blockSize) with
  | none => none
  | some result => if result.id = e.blockId then some result else none

def fetchOptional (format : BlockFormat B) (db : BlockDatabase)
    (id : BlockId) : Option (Block B) :=
  match db.index[id.num]? with
  | none => none
  | some e => if e.blockId ≠ id then none else db.unpackEntry format e

def fetchByNumber (format : BlockFormat B) (db : BlockDatabase)
    (blockNum : Nat) : Option (Block B) :=
  match db.index[blockNum]? with
  | none => none
  | some e => db.unpackEntry format e

def isEntry (format : BlockFormat B) (db : BlockDatabase) (e : IndexEntry) :
    Bool :=
  0 < e.blockSize ∧ e.blockPos + e.blockSize ≤ db.blocks.length ∧
    (readBytes db.blocks e.blockPos e.blockSize).length = e.blockSize ∧
    (db.unpackEntry format e).isSome

/-- The loop of `last_index_entry`: the entry, and the length to which the index
file is cut. -/
def scanBack (format : BlockFormat B) (db : BlockDatabase) :
    Nat → Option IndexEntry × Nat
  | 0 => (none, 0)
  | pos + 1 =>
      match db.index[pos]? with
      | none => scanBack format db pos
      | some e =>
          if db.isEntry format e then (some e, pos + 1)
          else scanBack format db pos

/-- `last_index_entry`, with what it leaves of the files. -/
def lastIndexEntry (format : BlockFormat B) (db : BlockDatabase) :
    Option IndexEntry × BlockDatabase :=
  let found := db.scanBack format db.index.length
  (found.1, { db with index := db.index.take found.2 })

/-- `last`: the fetch is made after the cut. -/
def last (format : BlockFormat B) (db : BlockDatabase) :
    Option (Block B) × BlockDatabase :=
  let entry := db.lastIndexEntry format
  match entry.1 with
  | none => (none, entry.2)
  | some e => (entry.2.fetchByNumber format e.blockId.num, entry.2)

def lastId (format : BlockFormat B) (db : BlockDatabase) :
    Option BlockId × BlockDatabase :=
  let entry := db.lastIndexEntry format
  (entry.1.map (·.blockId), entry.2)

end BlockDatabase

/-- `remove` on the block log: the entry of the number goes if it has the id. -/
def BlockLog.remove {B : Type} (log : BlockLog B) (id : BlockId) :
    BlockLog B :=
  fun num =>
    match log num with
    | none => none
    | some entry => if entry.1 = id ∧ num = id.num then none else some entry

section Files

theorem writeEntry_get (place : Nat) (entry : IndexEntry)
    (index : List IndexEntry) (num : Nat) :
    (writeEntry place entry index)[num]? =
      if num = place then some entry
      else if num < index.length then index[num]?
      else if num < place then some .hole
      else none := by
  unfold writeEntry
  by_cases inside : place < index.length
  · rw [if_pos inside]
    by_cases here : num = place
    · rw [if_pos here, here, List.getElem?_set_self inside]
    · rw [if_neg here, List.getElem?_set_ne (Ne.symm here)]
      by_cases before : num < index.length
      · rw [if_pos before]
      · rw [if_neg before, if_neg (by omega)]
        exact List.getElem?_eq_none (Nat.le_of_not_lt before)
  · rw [if_neg inside]
    by_cases before : num < index.length
    · rw [if_neg (by omega), if_pos before, List.append_assoc,
        List.getElem?_append_left before]
    · rw [if_neg before, List.append_assoc,
        List.getElem?_append_right (Nat.le_of_not_lt before)]
      by_cases here : num = place
      · rw [if_pos here, here, List.getElem?_append_right (by simp)]
        simp
      · rw [if_neg here]
        by_cases hole : num < place
        · rw [if_pos hole, List.getElem?_append_left (by simp; omega),
            List.getElem?_replicate, if_pos (by omega)]
        · rw [if_neg hole]
          refine List.getElem?_eq_none ?_
          simp only [List.length_append, List.length_replicate,
            List.length_singleton]
          omega

theorem readBytes_append {file : List UInt8} {pos size : Nat}
    (inside : pos + size ≤ file.length) (more : List UInt8) :
    readBytes (file ++ more) pos size = readBytes file pos size := by
  unfold readBytes
  rw [List.drop_append_of_le_length (by omega),
    List.take_append_of_le_length (by rw [List.length_drop]; omega)]

theorem readBytes_end (file written : List UInt8) :
    readBytes (file ++ written) file.length written.length = written := by
  simp [readBytes]

end Files

section Reflects

variable {B : Type} {format : BlockFormat B} {db : BlockDatabase}
  {log : BlockLog B} {stale : Set Nat}

structure EntryOf (format : BlockFormat B) (blocks : List UInt8)
    (e : IndexEntry) (b : Block B) : Prop where
  blockId : e.blockId = b.id
  blockSize : e.blockSize = (format.pack b).length
  inside : e.blockPos + e.blockSize ≤ blocks.length
  bytes : readBytes blocks e.blockPos e.blockSize = format.pack b

/-- What the place of a number in the index file says about the log.  A stale
number is one of a block that was removed, with its entry still there. -/
inductive Says (format : BlockFormat B) (blocks : List UInt8) (num : Nat)
    (isStale : Prop) :
    Option IndexEntry → Option (BlockId × Block B) → Prop
  | outside (fresh : ¬ isStale) :
      Says format blocks num isStale none none
  | removed (e : IndexEntry) (noSize : e.blockSize = 0)
      (staleIff : isStale ↔ e.blockId ≠ .zero) :
      Says format blocks num isStale (some e) none
  | block (e : IndexEntry) (b : Block B) (isNum : b.num = num)
      (entryOf : EntryOf format blocks e b) (fresh : ¬ isStale) :
      Says format blocks num isStale (some e) (some (b.id, b))

/-- The files say what is in the log. -/
def Reflects (format : BlockFormat B) (db : BlockDatabase)
    (log : BlockLog B) (stale : Set Nat) : Prop :=
  ∀ num, Says format db.blocks num (num ∈ stale) db.index[num]? (log num)

variable {num : Nat} {blocks : List UInt8} {e : IndexEntry}
  {content : Option (BlockId × Block B)}

theorem Reflects.fresh (reflects : Reflects format db log stale)
    {entry : BlockId × Block B} (stored : log num = some entry) :
    num ∉ stale := by
  have told := reflects num
  generalize db.index[num]? = place at told
  rw [stored] at told
  cases told with
  | block e b isNum entryOf fresh => exact fresh

theorem Reflects.empty : Reflects format .empty (fun _ => none) ∅ :=
  fun _ => .outside (Set.notMem_empty _)

theorem EntryOf.append {b : Block B}
    (entryOf : EntryOf format blocks e b) (more : List UInt8) :
    EntryOf format (blocks ++ more) e b where
  blockId := entryOf.blockId
  blockSize := entryOf.blockSize
  inside := by
    rw [List.length_append]
    exact Nat.le_trans entryOf.inside (Nat.le_add_right _ _)
  bytes := by
    rw [readBytes_append entryOf.inside]
    exact entryOf.bytes

theorem Says.append {isStale : Prop} {place : Option IndexEntry}
    (told : Says format blocks num isStale place content) (more : List UInt8) :
    Says format (blocks ++ more) num isStale place content := by
  cases told with
  | outside fresh => exact .outside fresh
  | removed e noSize staleIff => exact .removed e noSize staleIff
  | block e b isNum entryOf fresh =>
      exact .block e b isNum (entryOf.append more) fresh

theorem Says.congr {isStale isStaleAfter : Prop} {place : Option IndexEntry}
    (told : Says format blocks num isStale place content)
    (same : isStaleAfter ↔ isStale) :
    Says format blocks num isStaleAfter place content := by
  rw [propext same]
  exact told

/-- The block is stored under its own id, and packs into fewer bytes than 32
bits count. -/
def Own (format : BlockFormat B) (id : BlockId) (b : Block B) : Prop :=
  (id = .zero ∨ id = b.id) ∧ (format.pack b).length < 2 ^ 32

theorem Reflects.store (reflects : Reflects format db log stale)
    {id : BlockId} {b : Block B} (own : Own format id b) :
    Reflects format (db.store format id b) (log.store id b)
      (stale \ {b.num}) := by
  obtain ⟨isOwn, small⟩ := own
  have isId : (if id = .zero then b.id else id) = b.id := by
    rcases isOwn with rfl | rfl
    · rw [if_pos rfl]
    · rw [if_neg b.id_ne_zero]
  intro num
  simp only [BlockDatabase.store, BlockLog.store, isId, Block.id_num]
  rw [writeEntry_get]
  by_cases here : num = b.num
  · rw [if_pos here, if_pos here, Nat.mod_eq_of_lt small]
    refine .block _ b here.symm ⟨rfl, rfl, ?_, ?_⟩ ?_
    · rw [List.length_append]
    · exact readBytes_end db.blocks (format.pack b)
    · rw [here]
      simp
  · rw [if_neg here, if_neg here]
    have before := (reflects num).append (format.pack b)
    have staleIff : num ∈ stale \ {b.num} ↔ num ∈ stale := by
      simp [here]
    refine Says.congr ?_ staleIff
    split
    · exact before
    · next outside =>
        rw [List.getElem?_eq_none (Nat.le_of_not_lt outside)] at before
        generalize log num = content at before ⊢
        cases before with
        | outside fresh =>
            split
            · exact .removed _ rfl (by simp [fresh, IndexEntry.hole])
            · exact .outside fresh

def staleAfter (log : BlockLog B) (stale : Set Nat) (id : BlockId) :
    Set Nat :=
  { num | num ∈ stale ∨ num = id.num ∧ ∃ b, log num = some (id, b) }

theorem Says.removed_of {isStale isStaleAfter : Prop}
    (told : Says format blocks num isStale (some e) content)
    (marked : isStaleAfter ↔ isStale ∨ ∃ b, content = some (e.blockId, b)) :
    Says format blocks num isStaleAfter (some { e with blockSize := 0 })
      none := by
  refine .removed _ rfl ?_
  cases told with
  | removed e noSize staleIff =>
      rw [marked, ← staleIff]
      simp
  | block e b isNum entryOf fresh =>
      rw [marked, entryOf.blockId]
      simp [b.id_ne_zero]

theorem remove_of_ne {id : BlockId} (elsewhere : num ≠ id.num) :
    log.remove id num = log num := by
  unfold BlockLog.remove
  cases log num with
  | none => rfl
  | some entry => simp [elsewhere]

/-- The log has no block under a number whose place has another id. -/
theorem Says.keeps_of_ne {id : BlockId} {isStale : Prop}
    (told : Says format blocks id.num isStale (some e) (log id.num))
    (other : e.blockId ≠ id) :
    log.remove id id.num = log id.num ∧
      ¬ ∃ b, log id.num = some (id, b) := by
  unfold BlockLog.remove
  generalize log id.num = content at told ⊢
  cases told with
  | removed e noSize staleIff => exact ⟨rfl, by simp⟩
  | block e b isNum entryOf fresh =>
      rw [entryOf.blockId] at other
      simp [other]

theorem Reflects.remove (reflects : Reflects format db log stale) {id : BlockId}
    {after : BlockDatabase} (returns : db.remove id = .ok after) :
    Reflects format after (log.remove id) (staleAfter log stale id) := by
  unfold BlockDatabase.remove at returns
  cases place : db.index[id.num]? with
  | none =>
      rw [place] at returns
      cases returns
  | some e =>
      have inside : id.num < db.index.length :=
        (List.getElem?_eq_some_iff.mp place).1
      have here := reflects id.num
      rw [place] at here returns
      simp only at returns
      by_cases same : e.blockId = id
      · rw [if_pos same] at returns
        cases returns
        intro num
        by_cases isNum : num = id.num
        · subst isNum
          have gone : log.remove id id.num = none := by
            unfold BlockLog.remove
            generalize log id.num = content at here ⊢
            cases here with
            | removed e noSize staleIff => rfl
            | block e b isNum entryOf fresh =>
                simp [← same, entryOf.blockId]
          rw [gone, List.getElem?_set_self inside]
          refine here.removed_of ?_
          simp [staleAfter, same]
        · rw [remove_of_ne isNum, List.getElem?_set_ne (Ne.symm isNum)]
          refine (reflects num).congr ?_
          simp [staleAfter, isNum]
      · rw [if_neg same] at returns
        cases returns
        obtain ⟨keeps, notStored⟩ := here.keeps_of_ne same
        intro num
        by_cases isNum : num = id.num
        · subst isNum
          rw [keeps]
          refine (reflects id.num).congr ?_
          simp only [staleAfter, Set.mem_ofPred_eq, true_and, notStored,
            or_false]
        · rw [remove_of_ne isNum]
          refine (reflects num).congr ?_
          simp [staleAfter, isNum]

theorem Reflects.remove_throws (reflects : Reflects format db log stale)
    {id : BlockId} {reason : String} (throws : db.remove id = .error reason) :
    log.remove id = log := by
  have outside : db.index[id.num]? = none := by
    unfold BlockDatabase.remove at throws
    cases place : db.index[id.num]? with
    | none => rfl
    | some e =>
        rw [place] at throws
        simp only at throws
        split at throws
        · cases throws
        · cases throws
  have here := reflects id.num
  rw [outside] at here
  funext num
  by_cases isNum : num = id.num
  · subst isNum
    unfold BlockLog.remove
    generalize log id.num = content at here ⊢
    cases here with
    | outside fresh => rfl
  · exact remove_of_ne isNum

end Reflects

section Last

variable {B : Type} {format : BlockFormat B} {db : BlockDatabase}
  {log : BlockLog B} {stale : Set Nat} {e : IndexEntry}

theorem EntryOf.unpacks {b : Block B}
    (entryOf : EntryOf format db.blocks e b) (lawful : format.Lawful) :
    db.unpackEntry format e = some b := by
  unfold BlockDatabase.unpackEntry
  rw [entryOf.bytes, lawful.unpack_pack]
  simp [entryOf.blockId]

theorem unpackEntry_of_noSize (lawful : format.Lawful)
    (noSize : e.blockSize = 0) : db.unpackEntry format e = none := by
  unfold BlockDatabase.unpackEntry
  rw [noSize, readBytes, List.take_zero, lawful.unpack_nil]

theorem EntryOf.blockSize_pos {blocks : List UInt8} {b : Block B}
    (entryOf : EntryOf format blocks e b) (lawful : format.Lawful) :
    0 < e.blockSize := by
  rw [entryOf.blockSize]
  refine List.length_pos_iff.mpr ?_
  intro noBytes
  have unpacked := lawful.unpack_pack b
  rw [noBytes, lawful.unpack_nil] at unpacked
  cases unpacked

theorem EntryOf.isEntry {b : Block B}
    (entryOf : EntryOf format db.blocks e b) (lawful : format.Lawful) :
    db.isEntry format e = true := by
  unfold BlockDatabase.isEntry
  rw [entryOf.unpacks lawful, entryOf.bytes]
  simp only [Option.isSome_some, and_true, decide_eq_true_eq]
  exact ⟨entryOf.blockSize_pos lawful, entryOf.inside,
    entryOf.blockSize.symm⟩

/-- What the scan from the end of the index file comes to. -/
inductive LastFound (format : BlockFormat B) (db : BlockDatabase)
    (log : BlockLog B) : Option IndexEntry × Nat → Prop
  | nothing (noBlock : ∀ num, log num = none) :
      LastFound format db log (none, 0)
  | block (e : IndexEntry) (b : Block B)
      (place : db.index[b.num]? = some e)
      (entryOf : EntryOf format db.blocks e b)
      (stored : log b.num = some (b.id, b))
      (above : ∀ higher, b.num < higher → log higher = none) :
      LastFound format db log (some e, b.num + 1)

theorem Reflects.scanBack (reflects : Reflects format db log stale)
    (lawful : format.Lawful) (pos : Nat)
    (above : ∀ higher, pos ≤ higher → log higher = none) :
    LastFound format db log (db.scanBack format pos) := by
  induction pos with
  | zero => exact .nothing fun num => above num (Nat.zero_le num)
  | succ pos ih =>
      have here := reflects pos
      -- an entry that is passed over is not of a block
      have aboveHere : log pos = none →
          ∀ higher, pos ≤ higher → log higher = none := by
        intro noBlock higher above'
        rcases Nat.eq_or_lt_of_le above' with rfl | beyond
        · exact noBlock
        · exact above higher beyond
      generalize placed : db.index[pos]? = place at here
      generalize stored : log pos = content at here
      rw [BlockDatabase.scanBack.eq_def]
      simp only [placed]
      cases here with
      | outside fresh => exact ih (aboveHere stored)
      | removed e noSize staleIff =>
          have noEntry : db.isEntry format e = false := by
            simp [BlockDatabase.isEntry, noSize]
          simp only [noEntry, Bool.false_eq_true, if_false]
          exact ih (aboveHere stored)
      | block e b isNum entryOf fresh =>
          subst isNum
          simp only [entryOf.isEntry lawful, if_true]
          exact .block e b placed entryOf stored above

theorem Reflects.lastFound (reflects : Reflects format db log stale)
    (lawful : format.Lawful) :
    LastFound format db log (db.scanBack format db.index.length) := by
  refine reflects.scanBack lawful _ ?_
  intro higher outside
  have told := reflects higher
  rw [List.getElem?_eq_none outside] at told
  generalize log higher = content at told ⊢
  cases told with
  | outside fresh => rfl

/-- The numbers that are still stale after the entries behind the last block are
cut off. -/
def staleBelow (log : BlockLog B) (stale : Set Nat) : Set Nat :=
  { num | num ∈ stale ∧ ∃ higher, num < higher ∧ log higher ≠ none }

theorem Reflects.cut (reflects : Reflects format db log stale)
    (lawful : format.Lawful) :
    Reflects format (db.lastIndexEntry format).2 log
      (staleBelow log stale) := by
  have found := reflects.lastFound lawful
  unfold BlockDatabase.lastIndexEntry
  generalize db.scanBack format db.index.length = result at found
  intro num
  cases found with
  | nothing noBlock =>
      simp only [List.take_zero, List.getElem?_nil, noBlock num]
      refine .outside ?_
      rintro ⟨_, higher, _, stored⟩
      exact stored (noBlock higher)
  | block e b place entryOf stored above =>
      simp only [List.getElem?_take]
      by_cases kept : num < b.num + 1
      · rw [if_pos kept]
        refine (reflects num).congr ?_
        constructor
        · exact fun member => member.1
        · intro member
          have notTop : num ≠ b.num := by
            rintro rfl
            exact reflects.fresh stored member
          refine ⟨member, b.num, by omega, ?_⟩
          rw [stored]
          exact Option.some_ne_none _
      · rw [if_neg kept, above num (by omega)]
        refine .outside ?_
        rintro ⟨_, higher, beyond, there⟩
        exact there (above higher (by omega))

end Last

section Readers

variable {B : Type} {format : BlockFormat B} {db : BlockDatabase}
  {log : BlockLog B} {stale : Set Nat}

/-- The entry of the highest number that has one. -/
def BlockLog.IsLast (log : BlockLog B) : Option (BlockId × Block B) → Prop
  | none => ∀ num, log num = none
  | some (id, b) =>
      log id.num = some (id, b) ∧
        ∀ higher, id.num < higher → log higher = none

theorem Reflects.contains_iff (reflects : Reflects format db log stale)
    (lawful : format.Lawful) (id : BlockId) :
    db.contains id = true ↔ ∃ b, log id.num = some (id, b) := by
  have told := reflects id.num
  unfold BlockDatabase.contains
  generalize db.index[id.num]? = place at told
  generalize log id.num = content at told
  cases told with
  | outside fresh => simp
  | removed e noSize staleIff => simp [noSize]
  | block e b isNum entryOf fresh =>
      have someSize := entryOf.blockSize_pos lawful
      by_cases isZero : id = .zero
      · simp [isZero, b.id_ne_zero]
      · simp [isZero, someSize, entryOf.blockId]

theorem Reflects.fetchOptional_iff (reflects : Reflects format db log stale)
    (lawful : format.Lawful) (id : BlockId) (b : Block B) :
    db.fetchOptional format id = some b ↔
      log id.num = some (id, b) := by
  have told := reflects id.num
  unfold BlockDatabase.fetchOptional
  generalize db.index[id.num]? = place at told
  generalize log id.num = content at told
  cases told with
  | outside fresh => simp
  | removed e noSize staleIff =>
      simp [unpackEntry_of_noSize lawful noSize]
  | block e stored isNum entryOf fresh =>
      simp only [entryOf.unpacks lawful, entryOf.blockId]
      by_cases same : stored.id = id
      · simp [same]
      · simp [same]

theorem Reflects.fetchByNumber_eq (reflects : Reflects format db log stale)
    (lawful : format.Lawful) (num : Nat) :
    db.fetchByNumber format num = (log num).map Prod.snd := by
  have told := reflects num
  unfold BlockDatabase.fetchByNumber
  generalize db.index[num]? = place at told
  generalize log num = content at told
  cases told with
  | outside fresh => rfl
  | removed e noSize staleIff =>
      simp [unpackEntry_of_noSize lawful noSize]
  | block e stored isNum entryOf fresh =>
      simp [entryOf.unpacks lawful]

/-- The id of a number is the one in the log exactly if the number is not
stale. -/
theorem Reflects.fetchBlockId_iff (reflects : Reflects format db log stale)
    (num : Nat) :
    (∀ id, db.fetchBlockId num = .ok id ↔ ∃ b, log num = some (id, b)) ↔
      num ∉ stale := by
  have told := reflects num
  unfold BlockDatabase.fetchBlockId
  generalize db.index[num]? = place at told
  generalize log num = content at told
  cases told with
  | outside fresh => simp [fresh]
  | removed e noSize staleIff =>
      rw [staleIff]
      by_cases isZero : e.blockId = .zero
      · simp [isZero]
      · simp [isZero]
  | block e stored isNum entryOf fresh =>
      simp [fresh, entryOf.blockId, stored.id_ne_zero]

theorem Reflects.last (reflects : Reflects format db log stale)
    (lawful : format.Lawful) :
    ∃ entry, log.IsLast entry ∧
      (db.last format).1 = entry.map Prod.snd ∧
      (db.lastId format).1 = entry.map Prod.fst := by
  have found := reflects.lastFound lawful
  have cut := reflects.cut lawful
  unfold BlockDatabase.last BlockDatabase.lastId
  have isFirst : (db.lastIndexEntry format).1 =
      (db.scanBack format db.index.length).1 := rfl
  simp only [isFirst]
  generalize db.scanBack format db.index.length = result at found
  cases found with
  | nothing noBlock => exact ⟨none, noBlock, rfl, rfl⟩
  | block e b place entryOf stored above =>
      refine ⟨some (b.id, b), ⟨stored, above⟩, ?_, ?_⟩
      · simp only [entryOf.blockId, Block.id_num]
        rw [cut.fetchByNumber_eq lawful, stored]
      · simp [entryOf.blockId]

end Readers

section Runs

variable {B : Type} {format : BlockFormat B} {db : BlockDatabase}
  {log : BlockLog B} {stale : Set Nat}

/-- The files after a sequence of calls, with the map they stand for and the
numbers of the removed blocks whose entries are still there. -/
inductive StoreRun (format : BlockFormat B) :
    BlockDatabase → BlockLog B → Set Nat → Prop
  | start : StoreRun format .empty (fun _ => none) ∅
  | store {db : BlockDatabase} {log : BlockLog B} {stale : Set Nat}
      (before : StoreRun format db log stale) (id : BlockId) (b : Block B)
      (own : Own format id b) :
      StoreRun format (db.store format id b) (log.store id b)
        (stale \ {b.num})
  | remove {db after : BlockDatabase} {log : BlockLog B} {stale : Set Nat}
      (before : StoreRun format db log stale) (id : BlockId)
      (returns : db.remove id = .ok after) :
      StoreRun format after (log.remove id) (staleAfter log stale id)
  | removeThrows {db : BlockDatabase} {log : BlockLog B} {stale : Set Nat}
      (before : StoreRun format db log stale) (id : BlockId)
      (reason : String) (throws : db.remove id = .error reason) :
      StoreRun format db (log.remove id) stale
  | last {db : BlockDatabase} {log : BlockLog B} {stale : Set Nat}
      (before : StoreRun format db log stale) :
      StoreRun format (db.last format).2 log (staleBelow log stale)
  | lastId {db : BlockDatabase} {log : BlockLog B} {stale : Set Nat}
      (before : StoreRun format db log stale) :
      StoreRun format (db.lastId format).2 log (staleBelow log stale)

theorem last_files : (db.last format).2 = (db.lastIndexEntry format).2 := by
  unfold BlockDatabase.last
  simp only
  split
  · rfl
  · rfl

theorem StoreRun.reflects (run : StoreRun format db log stale)
    (lawful : format.Lawful) : Reflects format db log stale := by
  induction run with
  | start => exact .empty
  | store before id b own ih =>
      exact ih.store own
  | remove before id returns ih =>
      exact ih.remove returns
  | removeThrows before id reason throws ih =>
      rw [ih.remove_throws throws]
      exact ih
  | last before ih =>
      rw [last_files]
      exact ih.cut lawful
  | lastId before ih =>
      exact ih.cut lawful

/-- After any calls every reader agrees with the map, and `fetch_block_id` does
so exactly for the numbers that are not of a removed block whose entry is still
there. -/
theorem block_database_refines (lawful : format.Lawful)
    (run : StoreRun format db log stale) :
    (∀ id, db.contains id = true ↔ ∃ b, log id.num = some (id, b)) ∧
    (∀ id b, db.fetchOptional format id = some b ↔
      log id.num = some (id, b)) ∧
    (∀ num, db.fetchByNumber format num = (log num).map Prod.snd) ∧
    (∀ num,
      (∀ id, db.fetchBlockId num = .ok id ↔ ∃ b, log num = some (id, b)) ↔
        num ∉ stale) ∧
    ∃ entry, log.IsLast entry ∧
      (db.last format).1 = entry.map Prod.snd ∧
      (db.lastId format).1 = entry.map Prod.fst := by
  have reflects := run.reflects lawful
  exact ⟨reflects.contains_iff lawful, reflects.fetchOptional_iff lawful,
    reflects.fetchByNumber_eq lawful, reflects.fetchBlockId_iff,
    reflects.last lawful⟩

/-- A format for blocks without contents: each number in unary, with a zero
behind it. -/
def unary : List Nat → List UInt8
  | [] => []
  | number :: rest => List.replicate number 1 ++ 0 :: unary rest

def readUnary (read : Nat) : List UInt8 → List Nat
  | [] => []
  | byte :: rest =>
      if byte = 0 then read :: readUnary 0 rest else readUnary (read + 1) rest

theorem readUnary_replicate (read number : Nat) (rest : List UInt8) :
    readUnary read (List.replicate number 1 ++ 0 :: rest) =
      (read + number) :: readUnary 0 rest := by
  induction number generalizing read with
  | zero => rfl
  | succ number ih =>
      rw [List.replicate_succ, List.cons_append, readUnary,
        if_neg (by decide), ih]
      congr 1
      omega

theorem readUnary_unary (numbers : List Nat) :
    readUnary 0 (unary numbers) = numbers := by
  induction numbers with
  | nil => rfl
  | cons number rest ih =>
      rw [unary, readUnary_replicate, ih, Nat.zero_add]

def unaryFormat : BlockFormat Unit where
  pack block :=
    unary [block.previous.num, block.previous.hash, block.hash, block.witness]
  unpack bytes :=
    match readUnary 0 bytes with
    | [num, hash, own, witness] => some ⟨⟨num, hash⟩, own, witness, ()⟩
    | _ => none

theorem unaryFormat_lawful : unaryFormat.Lawful where
  unpack_pack block := by
    simp only [unaryFormat, readUnary_unary]
  unpack_nil := rfl

/-- The first block of a chain. -/
def storedBlock : Block Unit :=
  ⟨.zero, 7, 3, ()⟩

theorem storedBlock_own : Own unaryFormat storedBlock.id storedBlock :=
  ⟨.inr rfl, by decide⟩

/-- The first block is found under its number. -/
theorem block_database_refines_first :
    (BlockDatabase.empty.store unaryFormat storedBlock.id
      storedBlock).fetchBlockId 1 = .ok storedBlock.id := by
  obtain ⟨_, _, _, fetches, _⟩ :=
    block_database_refines unaryFormat_lawful
      (StoreRun.start.store storedBlock.id storedBlock storedBlock_own)
  refine ((fetches 1).mpr ?_ storedBlock.id).mpr ⟨storedBlock, rfl⟩
  simp

/-- A block is stored and removed, and its id is still fetched. -/
theorem removed_block_id_fetched :
    ∃ (db : BlockDatabase) (log : BlockLog Unit) (stale : Set Nat),
      StoreRun unaryFormat db log stale ∧
      (∀ num, log num = none) ∧
      db.contains storedBlock.id = false ∧
      db.fetchBlockId 1 = .ok storedBlock.id := by
  have stored :=
    StoreRun.start.store storedBlock.id storedBlock storedBlock_own
  refine ⟨_, _, _, stored.remove storedBlock.id rfl, ?_, by decide, by decide⟩
  intro num
  by_cases here : num = 1
  · rw [here]
    rfl
  · have elsewhere : num ≠ storedBlock.id.num := here
    rw [remove_of_ne elsewhere]
    simp only [BlockLog.store, storedBlock.id_ne_zero, if_false, elsewhere]

end Runs

end GxbCore.Chain
