import GxbCore.Chain.Blocks
import GxbCore.Lib.Outcome

/-!
# The fork database

`fork_database` keeps the recent blocks of all branches.  Every item has a weak
pointer to the item of its predecessor: it can be followed only while somebody
still holds that item, and an item that was pruned and pushed again is another
item.  So an item has an address here, `prev` is an address, and following it
(`lock`) searches the items that are held: those of the index, the head, and
those a caller has in local variables.

The cache of unlinked blocks is never filled: `push_block` rethrows before the
line that would.
-/

namespace GxbCore.Chain

/-- The exceptions of the chain logic. -/
inductive ChainFault where
  | noBlockToPop
  | wouldLeaveHeadNull
  | tooOld
  | unlinkable
  | branchNotFound
  | popEmptyChain
  | undoStackEmpty
  | previousMismatch
  | undoHistory
  | evaluation (code : Nat)
  deriving DecidableEq, Repr

structure ForkItem (B : Type) where
  address : Nat
  prev : Option Nat
  block : Block B
  deriving DecidableEq, Repr

/-- `fork_item::num` -/
def ForkItem.num {B : Type} (item : ForkItem B) : Nat :=
  item.block.num

/-- `fork_item::id` -/
def ForkItem.id {B : Type} (item : ForkItem B) : BlockId :=
  item.block.id

/-- `fork_database`; `nextAddress` is where the next item goes. -/
structure ForkDatabase (B : Type) where
  index : List (ForkItem B)
  head : Option (ForkItem B)
  maxSize : Nat
  nextAddress : Nat

namespace ForkDatabase

variable {B : Type}

def empty : ForkDatabase B :=
  ⟨[], none, 1024, 0⟩

def items (fork : ForkDatabase B) : List (ForkItem B) :=
  fork.head.toList ++ fork.index

/-- `prev.lock()`, with the items that local variables hold. -/
def lock (fork : ForkDatabase B) (held : List (ForkItem B))
    (item : ForkItem B) : Option (ForkItem B) :=
  match item.prev with
  | none => none
  | some address =>
      (fork.items ++ held).find? fun other =>
        decide (other.address = address)

/-- `_index.get<block_id>().find` -/
def find (fork : ForkDatabase B) (id : BlockId) : Option (ForkItem B) :=
  fork.index.find? fun item => decide (item.id = id)

/-- Drop the items below a number from the index. -/
def prune (fork : ForkDatabase B) (least : Nat) : ForkDatabase B :=
  { fork with
    index := fork.index.filter fun item => decide (least ≤ item.num) }

def popBlock (held : List (ForkItem B)) (fork : ForkDatabase B) :
    Outcome ChainFault (ForkDatabase B) :=
  match fork.head with
  | none => .throw .noBlockToPop fork
  | some head =>
      match fork.lock held head with
      | none => .throw .wouldLeaveHeadNull fork
      | some prev => .ok { fork with head := some prev }

def startBlock (block : Block B) (fork : ForkDatabase B) :
    ForkDatabase B :=
  let item : ForkItem B := ⟨fork.nextAddress, none, block⟩
  { fork with
    index := item :: fork.index
    head := some item
    nextAddress := fork.nextAddress + 1 }

/-- The end of `_push_block`: the item is inserted unless its id is there
already, and becomes the head when it is higher. -/
def insertItem (item : ForkItem B) (fork : ForkDatabase B) :
    ForkDatabase B :=
  let index :=
    if (fork.find item.id).isSome then fork.index
    else item :: fork.index
  let fork :=
    { fork with
      index := index
      nextAddress := fork.nextAddress + 1 }
  match fork.head with
  | none => { fork with head := some item }
  | some head =>
      if head.num < item.num then
        prune { fork with head := some item }
          (item.num - min fork.maxSize item.num)
      else
        fork

/-- `push_block` and `_push_block`. -/
def pushBlock (block : Block B) (fork : ForkDatabase B) :
    Outcome ChainFault (ForkDatabase B) :=
  match fork.head with
  | none => .ok (fork.insertItem ⟨fork.nextAddress, none, block⟩)
  | some head =>
      if block.num ≤ head.num - fork.maxSize then
        .throw .tooOld fork
      else if block.previous = .zero then
        .ok (fork.insertItem ⟨fork.nextAddress, none, block⟩)
      else
        match fork.find block.previous with
        | none => .throw .unlinkable fork
        | some parent =>
            .ok
              (fork.insertItem
                ⟨fork.nextAddress, some parent.address, block⟩)

def setMaxSize (size : Nat) (fork : ForkDatabase B) : ForkDatabase B :=
  let fork := { fork with maxSize := size }
  match fork.head with
  | none => fork
  | some head => fork.prune (head.num - size)

def setHead (item : Option (ForkItem B)) (fork : ForkDatabase B) :
    ForkDatabase B :=
  { fork with head := item }

/-- `_index.get<block_id>().erase` -/
def erase (id : BlockId) (fork : ForkDatabase B) : ForkDatabase B :=
  { fork with
    index := fork.index.filter fun item => decide (item.id ≠ id) }

def remove (held : List (ForkItem B)) (id : BlockId)
    (fork : ForkDatabase B) : ForkDatabase B :=
  let fork := fork.erase id
  match fork.head with
  | none => fork
  | some head =>
      if head.id = id then
        match fork.popBlock held with
        | .ok popped => popped
        | .throw _ left => { left with head := none }
      else
        fork

/-- The first two loops: go down from `item` to the number `level`, keeping the
items passed.  Numbers fall with every round, so fuel above the number of the
item is enough. -/
def descend (fork : ForkDatabase B) (level : Nat) :
    Nat → ForkItem B → Option (List (ForkItem B) × ForkItem B)
  | 0, _ => none
  | fuel + 1, item =>
      if level < item.num then
        match fork.lock [] item with
        | none => none
        | some parent =>
            match descend fork level fuel parent with
            | none => none
            | some (passed, last) => some (item :: passed, last)
      else
        some ([], item)

/-- The third loop and the last push: go down on both sides until the
predecessors are the same. -/
def meet (fork : ForkDatabase B) :
    Nat → ForkItem B → ForkItem B →
      Option (List (ForkItem B) × List (ForkItem B))
  | 0, _, _ => none
  | fuel + 1, first, second =>
      if first.block.previous ≠ second.block.previous then
        match fork.lock [] first, fork.lock [] second with
        | some firstParent, some secondParent =>
            match meet fork fuel firstParent secondParent with
            | none => none
            | some (firstBranch, secondBranch) =>
                some (first :: firstBranch, second :: secondBranch)
        | _, _ => none
      else
        some ([first], [second])

def fetchBranchFrom (fork : ForkDatabase B) (first second : BlockId) :
    Option (List (ForkItem B) × List (ForkItem B)) :=
  match fork.find first, fork.find second with
  | some firstItem, some secondItem =>
      match fork.descend secondItem.num (firstItem.num + 1)
          firstItem with
      | none => none
      | some (firstPassed, firstLast) =>
          match fork.descend firstLast.num (secondItem.num + 1)
              secondItem with
          | none => none
          | some (secondPassed, secondLast) =>
              match fork.meet (firstLast.num + 1) firstLast
                  secondLast with
              | none => none
              | some (firstBranch, secondBranch) =>
                  some
                    (firstPassed ++ firstBranch,
                      secondPassed ++ secondBranch)
  | _, _ => none

end ForkDatabase

end GxbCore.Chain
