import Mathlib.Data.List.Basic

/-!
# Blocks, their ids and the block log

A block id is a hash whose first word is overwritten by the block's number, and
a block names its predecessor by id; `block_num` is read off that id.

`block_database` is an index file with one entry for each block number and a
file of packed blocks.  `store` writes the entry of the number that the *given
id* carries; both fetches check the id of what they unpacked against the entry.
-/

namespace GxbCore.Chain

/-- `block_id_type`: the number in the first word, and the rest. -/
structure BlockId where
  num : Nat
  hash : Nat
  deriving DecidableEq, Repr

/-- `block_id_type()` -/
def BlockId.zero : BlockId :=
  ⟨0, 0⟩

abbrev WitnessId := Nat

/-- `signed_block`.  `hash` is what the hash function gives for the contents;
`body` is everything that the chain logic below does not look at. -/
structure Block (B : Type) where
  previous : BlockId
  hash : Nat
  witness : WitnessId
  body : B
  deriving DecidableEq, Repr

section Ids

variable {B : Type}

/-- `block_header::block_num` -/
def Block.num (block : Block B) : Nat :=
  block.previous.num + 1

/-- `signed_block_header::id` -/
def Block.id (block : Block B) : BlockId :=
  ⟨block.num, block.hash⟩

@[simp]
theorem Block.id_num (block : Block B) : block.id.num = block.num :=
  rfl

theorem Block.num_pos (block : Block B) : 0 < block.num :=
  Nat.succ_pos _

theorem Block.id_ne_zero (block : Block B) : block.id ≠ .zero := by
  intro same
  have numbers := congrArg BlockId.num same
  simp [Block.num, BlockId.zero] at numbers

/-- No two of these blocks have the same id. -/
def CollisionFree (blocks : Set (Block B)) : Prop :=
  ∀ left ∈ blocks, ∀ right ∈ blocks, left.id = right.id → left = right

def lastId : List (Block B) → BlockId
  | [] => .zero
  | block :: _ => block.id

@[simp]
theorem lastId_cons (block : Block B) (older : List (Block B)) :
    lastId (block :: older) = block.id :=
  rfl

/-- Every block names the one below it. -/
def Linked : List (Block B) → Prop
  | [] => True
  | block :: older => block.previous = lastId older ∧ Linked older

theorem Linked.lastId_num {blocks : List (Block B)} (linked : Linked blocks) :
    (lastId blocks).num = blocks.length := by
  induction blocks with
  | nil => rfl
  | cons block older ih =>
      have below := ih linked.2
      simp only [lastId_cons, Block.id_num, Block.num, linked.1, below,
        List.length_cons]

theorem Linked.of_append {newer older : List (Block B)}
    (linked : Linked (newer ++ older)) : Linked older := by
  induction newer with
  | nil => exact linked
  | cons block newer ih =>
      exact ih linked.2

/-- In a chain the ids of two different positions differ, as their numbers
do. -/
theorem Linked.lastId_append_ne {newer older : List (Block B)}
    (linked : Linked (newer ++ older)) (more : newer ≠ []) :
    lastId (newer ++ older) ≠ lastId older := by
  intro same
  have numbers := congrArg BlockId.num same
  rw [linked.lastId_num, linked.of_append.lastId_num,
    List.length_append] at numbers
  have someNew : 0 < newer.length := List.length_pos_iff.mpr more
  omega

end Ids

section Numbers

variable {B : Type} {blocks : List (Block B)} {block : Block B}

theorem Linked.head_num {older : List (Block B)}
    (linked : Linked (block :: older)) : block.num = older.length + 1 := by
  rw [Block.num, linked.1, linked.2.lastId_num]

theorem Linked.num_le (linked : Linked blocks) (member : block ∈ blocks) :
    block.num ≤ blocks.length := by
  induction blocks with
  | nil => cases member
  | cons last older ih =>
      rcases List.mem_cons.mp member with same | deeper
      · exact Nat.le_of_eq (same ▸ linked.head_num)
      · have below := ih linked.2 deeper
        rw [List.length_cons]
        omega

theorem Linked.exists_num {num : Nat} (linked : Linked blocks)
    (positive : 0 < num) (below : num ≤ blocks.length) :
    ∃ block ∈ blocks, block.num = num := by
  induction blocks with
  | nil => simp at below; omega
  | cons last older ih =>
      have lastNum := linked.head_num
      by_cases top : num = older.length + 1
      · exact ⟨last, List.mem_cons_self, by omega⟩
      · rw [List.length_cons] at below
        obtain ⟨block, member, same⟩ :=
          ih linked.2 (by omega)
        exact ⟨block, List.mem_cons_of_mem last member, same⟩

/-- A block one number above another block of the chain names it. -/
theorem Linked.previous_eq {upper lower : Block B}
    (linked : Linked blocks) (upperMember : upper ∈ blocks)
    (lowerMember : lower ∈ blocks) (next : upper.num = lower.num + 1) :
    upper.previous = lower.id := by
  induction blocks with
  | nil => cases upperMember
  | cons last older ih =>
      have lastNum := linked.head_num
      rcases List.mem_cons.mp lowerMember with lowerLast | lowerOlder
      · have bound := linked.num_le upperMember
        rw [List.length_cons] at bound
        rw [lowerLast] at next
        omega
      · rcases List.mem_cons.mp upperMember with upperLast | upperOlder
        · cases older with
          | nil => cases lowerOlder
          | cons second rest =>
              have secondNum := linked.2.head_num
              rcases List.mem_cons.mp lowerOlder with isSecond | deeper
              · rw [upperLast, isSecond]
                exact linked.1
              · have bound := linked.2.2.num_le deeper
                rw [upperLast, lastNum, List.length_cons] at next
                omega
        · exact ih linked.2 upperOlder lowerOlder

/-- A block of the chain is the one found under its number. -/
theorem Linked.find_num_of_mem (linked : Linked blocks)
    (member : block ∈ blocks) :
    blocks.find? (fun other => decide (other.num = block.num)) =
      some block := by
  induction blocks with
  | nil => cases member
  | cons last older ih =>
      rcases List.mem_cons.mp member with same | deeper
      · rw [same]
        exact List.find?_cons_of_pos (by simp)
      · have bound := linked.2.num_le deeper
        have different : last.num ≠ block.num := by
          rw [linked.head_num]
          omega
        rw [List.find?_cons_of_neg (by simpa using different)]
        exact ih linked.2 deeper

/-- Two chains with the same bottom have the same blocks there. -/
theorem Linked.find_num_append {newer older : List (Block B)} {num : Nat}
    (linked : Linked (newer ++ older)) (low : num ≤ older.length) :
    (newer ++ older).find? (fun block => decide (block.num = num)) =
      older.find? (fun block => decide (block.num = num)) := by
  induction newer with
  | nil => rfl
  | cons block newer ih =>
      have blockNum : block.num = (newer ++ older).length + 1 :=
        Linked.head_num linked
      have different : block.num ≠ num := by
        rw [blockNum, List.length_append]
        omega
      rw [List.cons_append, List.find?_cons_of_neg (by simpa using different)]
      exact ih linked.2

end Numbers

/-- `block_database`: the entry of every number, with the id in the index file
and the block at its position in the file of blocks. -/
abbrev BlockLog (B : Type) :=
  Nat → Option (BlockId × Block B)

namespace BlockLog

variable {B : Type}

def store (log : BlockLog B) (id : BlockId) (block : Block B) :
    BlockLog B :=
  let id := if id = .zero then block.id else id
  fun num => if num = id.num then some (id, block) else log num

def fetchByNumber (log : BlockLog B) (num : Nat) : Option (Block B) :=
  match log num with
  | none => none
  | some entry => if entry.2.id = entry.1 then some entry.2 else none

def fetchOptional (log : BlockLog B) (id : BlockId) :
    Option (Block B) :=
  match log id.num with
  | none => none
  | some entry =>
      if entry.1 ≠ id then none
      else if entry.2.id = entry.1 then some entry.2 else none

theorem store_own (log : BlockLog B) (block : Block B) (num : Nat) :
    log.store block.id block num =
      if num = block.num then some (block.id, block) else log num := by
  simp [store, block.id_ne_zero]

/-- An entry after `store` is the block stored or an old one. -/
theorem store_eq_some {log : BlockLog B} {id : BlockId} {block : Block B}
    {num : Nat} {entry : BlockId × Block B}
    (stored : log.store id block num = some entry) :
    entry.2 = block ∨ log num = some entry := by
  have cases :
      ∀ key : BlockId,
        (if num = key.num then some (key, block) else log num) =
            some entry →
          entry.2 = block ∨ log num = some entry := by
    intro key found
    split at found
    · obtain rfl := Option.some.inj found
      exact Or.inl rfl
    · exact Or.inr found
  exact cases _ stored

end BlockLog

end GxbCore.Chain
