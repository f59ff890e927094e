import Mathlib.Data.List.Induction
import GxbCore.History.HistoryUpdates

/-!
# The history lists along a run

Blocks are applied and popped in any order.  A popped block gives back the
tables as they were, positions of the indices included; so the lists are kept
along a run, as long as no 32-bit counter runs over.
-/

namespace GxbCore.History

variable {Op Result : Type}

section Undo

variable {config : Config} {reader : OperationReader Op Result}
variable {entryStart operationStart : Nat}

/-- The undo session can bring the indices back to where they were: a position
that has moved is written down.  Ids of operations are used up behind the
session's back only after the first. -/
structure Anchored
    (entryStart operationStart : Nat) (isFirst : Bool)
    (tables : Tables Op Result) : Prop where
  enabled : tables.undoEnabled = true
  entries : tables.oldNextEntryId.getD tables.nextEntryId = entryStart
  operations :
    tables.oldNextOperationId.getD tables.nextOperationId = operationStart
  noted : isFirst = false → tables.oldNextOperationId.isSome = true

theorem getD_noteNextId (nextId : Nat) (old : Option Nat) :
    (Tables.noteNextId true nextId old).getD (nextId + 1) =
      old.getD nextId := by
  cases old with
  | none => rfl
  | some position => rfl

theorem isSome_noteNextId (nextId : Nat) (old : Option Nat) :
    (Tables.noteNextId true nextId old).isSome = true := by
  cases old with
  | none => rfl
  | some position => rfl

variable {isFirst : Bool} {tables after : Tables Op Result}

theorem createOperation_anchored {contents : Option (Applied Op Result)}
    {id : Nat} (anchored : Anchored entryStart operationStart isFirst tables)
    (returns : tables.createOperation contents = .ok (id, after)) :
    Anchored entryStart operationStart false after := by
  obtain ⟨_, _, isAfter⟩ := bind_eq_ok.mp returns
  cases isAfter
  constructor
  · exact anchored.enabled
  · exact anchored.entries
  · simp only [anchored.enabled]
    rw [getD_noteNextId]
    exact anchored.operations
  · intro _
    simp only [anchored.enabled]
    exact isSome_noteNextId _ _

theorem Anchored.of_objects (statistics : List AccountStatistics)
    (entries : List AccountTransactionHistory)
    (operations : List (OperationHistory Op Result))
    (anchored : Anchored entryStart operationStart isFirst tables) :
    Anchored entryStart operationStart isFirst
      { tables with
        statistics := statistics
        entries := entries
        operations := operations } :=
  ⟨anchored.enabled, anchored.entries, anchored.operations, anchored.noted⟩

theorem removeOperation_anchored {id : Nat}
    (anchored : Anchored entryStart operationStart isFirst tables)
    (returns : tables.removeOperation id = .ok after) :
    Anchored entryStart operationStart isFirst after := by
  obtain ⟨_, _, isAfter⟩ := bind_eq_ok.mp returns
  cases isAfter
  exact anchored.of_objects _ _ _

theorem dropUnreferenced_anchored {id : Nat}
    (anchored : Anchored entryStart operationStart isFirst tables)
    (returns : dropUnreferenced config id tables = .ok after) :
    Anchored entryStart operationStart isFirst after := by
  rw [dropUnreferenced] at returns
  split at returns
  · exact removeOperation_anchored anchored returns
  · cases returns
    exact anchored

theorem cutOldest_anchored (rest : List AccountTransactionHistory)
    (anchored : Anchored entryStart operationStart isFirst tables) :
    Anchored entryStart operationStart isFirst (cutOldest rest tables) := by
  cases rest with
  | nil => exact anchored
  | cons second others => exact anchored.of_objects _ _ _

theorem pruneEarliest_anchored
    {accountId newest : Nat} {stats : AccountStatistics}
    (anchored : Anchored entryStart operationStart isFirst tables)
    (returns : pruneEarliest config accountId newest stats tables = .ok after) :
    Anchored entryStart operationStart isFirst after := by
  rw [pruneEarliest] at returns
  split at returns
  · split at returns
    · rename_i earliest rest _
      split at returns
      · exact dropUnreferenced_anchored
          (cutOldest_anchored rest (anchored.of_objects _ _ _)) returns
      · cases returns
        exact anchored
    · cases returns
      exact anchored
  · cases returns
    exact anchored

theorem insertEntry_anchored (entry : AccountTransactionHistory)
    (anchored : Anchored entryStart operationStart isFirst tables) :
    Anchored entryStart operationStart isFirst
      (tables.insertEntry entry) := by
  refine ⟨anchored.enabled, ?_, anchored.operations, anchored.noted⟩
  simp only [Tables.insertEntry, anchored.enabled]
  rw [getD_noteNextId]
  exact anchored.entries

theorem addAccountHistory_anchored {operationId accountId : Nat}
    (anchored : Anchored entryStart operationStart isFirst tables)
    (returns :
      addAccountHistory config operationId tables accountId = .ok after) :
    Anchored entryStart operationStart isFirst after := by
  obtain ⟨stats, _, rest⟩ := bind_eq_ok.mp returns
  obtain ⟨⟨entry, made⟩, creates, prunes⟩ := bind_eq_ok.mp rest
  obtain ⟨_, _, isMade⟩ := bind_eq_ok.mp creates
  obtain ⟨rfl, rfl⟩ := Prod.mk.inj (Except.ok.inj isMade)
  exact pruneEarliest_anchored
    ((insertEntry_anchored _ anchored).of_objects _ _ _) prunes

/-- The same between two steps of the callback. -/
def Callback.Anchored
    (entryStart operationStart : Nat) (callback : Callback Op Result) :
    Prop :=
  History.Anchored entryStart operationStart callback.isFirst callback.tables

theorem skipOhoId_anchored {callback after : Callback Op Result}
    (anchored : callback.Anchored entryStart operationStart)
    (returns : callback.skipOhoId = .ok after) :
    after.Anchored entryStart operationStart := by
  rw [Callback.skipOhoId] at returns
  by_cases notes : (callback.isFirst && callback.tables.undoEnabled) = true
  · rw [if_pos notes] at returns
    obtain ⟨⟨id, made⟩, creates, rest⟩ := bind_eq_ok.mp returns
    obtain ⟨removed, removes, isAfter⟩ := bind_eq_ok.mp rest
    cases isAfter
    exact removeOperation_anchored
      (createOperation_anchored anchored creates) removes
  · rw [if_neg notes] at returns
    cases returns
    -- the session has heard of the index before, so its position is known
    have later : callback.isFirst = false := by
      rw [anchored.enabled, Bool.and_true, Bool.not_eq_true] at notes
      exact notes
    have noted := anchored.noted later
    refine ⟨anchored.enabled, anchored.entries, ?_, anchored.noted⟩
    rw [← anchored.operations]
    obtain ⟨position, isNoted⟩ := Option.isSome_iff_exists.mp noted
    simp only [Tables.useNextOperationId, isNoted, Option.getD_some]

theorem link_anchored {callback after : Callback Op Result} {oho : Option Nat}
    {accountId : Nat} (anchored : callback.Anchored entryStart operationStart)
    (returns : callback.link config oho accountId = .ok after) :
    after.Anchored entryStart operationStart := by
  obtain ⟨id, _, rest⟩ := bind_eq_ok.mp returns
  obtain ⟨tables, adds, isAfter⟩ := bind_eq_ok.mp rest
  cases isAfter
  exact addAccountHistory_anchored anchored adds

variable {applied : Applied Op Result} {impacted : List Nat}

theorem createOho_anchored {callback : Callback Op Result}
    {made : Stored Op Result}
    (anchored : callback.Anchored entryStart operationStart)
    (returns : callback.createOho applied = .ok made) :
    made.2.Anchored entryStart operationStart := by
  obtain ⟨⟨id, tables⟩, creates, isMade⟩ := bind_eq_ok.mp returns
  cases isMade
  exact createOperation_anchored anchored creates

theorem createOnce_anchored {stored made : Stored Op Result}
    (anchored : stored.2.Anchored entryStart operationStart)
    (returns : stored.2.createOnce applied stored.1 = .ok made) :
    made.2.Anchored entryStart operationStart := by
  obtain ⟨oho, callback⟩ := stored
  cases oho with
  | none => exact createOho_anchored anchored returns
  | some id =>
      cases returns
      exact anchored

theorem linkImpacted_anchored {stored after : Stored Op Result}
    (anchored : stored.2.Anchored entryStart operationStart)
    (returns : linkImpacted config applied impacted stored = .ok after) :
    after.2.Anchored entryStart operationStart := by
  obtain ⟨made, stores, rest⟩ := bind_eq_ok.mp returns
  obtain ⟨linked, links, isAfter⟩ := bind_eq_ok.mp rest
  cases isAfter
  have anchoredMade : made.2.Anchored entryStart operationStart := by
    rw [storeImpacted] at stores
    split at stores
    · cases stores
      exact anchored
    · exact createOnce_anchored anchored stores
  rw [linkEach] at links
  split at links
  · refine foldlM_keeps ?_ anchoredMade links
    intro accountId _ before linked anchoredBefore adds
    exact link_anchored anchoredBefore adds
  · cases links
    exact anchoredMade

theorem linkTracked_anchored {stored after : Stored Op Result} {accountId : Nat}
    (anchored : stored.2.Anchored entryStart operationStart)
    (returns :
      linkTracked config applied impacted stored accountId = .ok after) :
    after.2.Anchored entryStart operationStart := by
  rw [linkTracked] at returns
  split at returns
  · obtain ⟨made, stores, links⟩ := bind_eq_ok.mp returns
    obtain ⟨linked, adds, isAfter⟩ := bind_eq_ok.mp links
    cases isAfter
    exact link_anchored (createOnce_anchored anchored stores) adds
  · cases returns
    exact anchored

theorem linkAccounts_anchored {stored after : Stored Op Result}
    (anchored : stored.2.Anchored entryStart operationStart)
    (returns : linkAccounts config applied impacted stored = .ok after) :
    after.2.Anchored entryStart operationStart := by
  rw [linkAccounts] at returns
  split at returns
  · exact linkImpacted_anchored anchored returns
  · split at returns
    · refine @foldlM_keeps _ _ _ _
        (fun stored : Stored Op Result =>
          stored.2.Anchored entryStart operationStart)
        _ _ _ ?_ anchored returns
      intro accountId _ before linked anchoredBefore links
      exact linkTracked_anchored anchoredBefore links
    · cases returns
      exact anchored

theorem updateOne_anchored {callback after : Callback Op Result}
    {recorded : Option (Applied Op Result)}
    (anchored : callback.Anchored entryStart operationStart)
    (returns : updateOne config reader callback recorded = .ok after) :
    after.Anchored entryStart operationStart := by
  cases recorded with
  | none => exact skipOhoId_anchored anchored returns
  | some applied =>
      rw [updateOne] at returns
      split at returns
      · exact skipOhoId_anchored anchored returns
      · obtain ⟨stored, creates, rest⟩ := bind_eq_ok.mp returns
        obtain ⟨impacted, _, rest⟩ := bind_eq_ok.mp rest
        obtain ⟨linked, links, skips⟩ := bind_eq_ok.mp rest
        have anchoredStored : stored.2.Anchored entryStart operationStart := by
          rw [Callback.createUnlessPartial] at creates
          split at creates
          · cases creates
            exact anchored
          · exact createOho_anchored anchored creates
        have anchoredLinked := linkAccounts_anchored anchoredStored links
        rw [skipUnlessStored] at skips
        split at skips
        · exact skipOhoId_anchored anchoredLinked skips
        · cases skips
          exact anchoredLinked

/-- A popped block leaves the tables as they were before it was applied. -/
theorem popBlock_applyBlock {block : Block Op Result}
    {node after : Node Op Result} (enabled : node.tables.undoEnabled = true)
    (returns : node.applyBlock config reader block = .ok after) :
    after.popBlock =
      some { node with sessions := node.sessions.take node.maxSize } := by
  obtain ⟨tables, updates, isAfter⟩ := bind_eq_ok.mp returns
  obtain ⟨callback, runs, isTables⟩ := bind_eq_ok.mp updates
  cases isTables
  cases isAfter
  have anchored :
      callback.Anchored node.tables.nextEntryId
        node.tables.nextOperationId := by
    refine foldlM_keeps ?_ ?_ runs
    · intro recorded _ before later anchoredBefore updatesOne
      exact updateOne_anchored anchoredBefore updatesOne
    · simp only [Node.startUndoSession, enabled, if_true,
        Tables.createAccounts]
      exact ⟨rfl, rfl, rfl, by simp⟩
  simp only [Node.popBlock, Node.startUndoSession, enabled, if_true,
    Tables.undo, Tables.save, anchored.entries, anchored.operations,
    anchored.enabled]
  rw [← enabled]

/-- Blocks applied one after another. -/
def Node.applyBlocks (config : Config) (reader : OperationReader Op Result)
    (blocks : List (Block Op Result)) (node : Node Op Result) :
    Except HistoryError (Node Op Result) :=
  blocks.foldlM (fun node block => node.applyBlock config reader block) node

def Node.popBlocks : Nat → Node Op Result → Option (Node Op Result)
  | 0, node => some node
  | count + 1, node => node.popBlock.bind (popBlocks count)

/-- The node with its newest sessions only. -/
def Node.keeping (node : Node Op Result) (count : Nat) : Node Op Result :=
  { node with sessions := node.sessions.take count }

/-- A pop after a block, when fewer sessions are kept. -/
theorem popBlock_keeping {block : Block Op Result} {node after : Node Op Result}
    (enabled : node.tables.undoEnabled = true)
    (returns : node.applyBlock config reader block = .ok after) (count : Nat) :
    (after.keeping (count + 1)).popBlock =
        some (node.keeping (min count node.maxSize)) ∧
      after.tables.undoEnabled = true ∧ after.maxSize = node.maxSize := by
  have pops := popBlock_applyBlock enabled returns
  rw [Node.popBlock] at pops
  cases stack : after.sessions with
  | nil =>
      rw [stack] at pops
      cases pops
  | cons saved older =>
      rw [stack, Option.some.injEq] at pops
      have tables := congrArg Node.tables pops
      have sessions := congrArg Node.sessions pops
      have maxSize := congrArg Node.maxSize pops
      simp only at tables sessions maxSize
      refine ⟨?_, ?_, maxSize⟩
      · rw [Node.popBlock, Node.keeping, stack, List.take_succ_cons]
        simp only [Node.keeping, tables, sessions, maxSize, List.take_take]
      · exact (congrArg Tables.undoEnabled tables).trans enabled

/-- The induction is on the last block: it is popped first. -/
theorem popBlocks_keeping {node : Node Op Result}
    (enabled : node.tables.undoEnabled = true)
    (blocks : List (Block Op Result)) {after : Node Op Result} :
    node.applyBlocks config reader blocks = .ok after →
      (after.tables.undoEnabled = true ∧ after.maxSize = node.maxSize) ∧
      ∀ count, blocks.length ≤ count → blocks.length ≤ node.maxSize + 1 →
        ∃ back,
          (after.keeping count).popBlocks blocks.length = some back ∧
            back.tables = node.tables := by
  induction blocks using List.reverseRecOn generalizing after with
  | nil =>
      intro returns
      cases returns
      exact ⟨⟨enabled, rfl⟩, fun count _ _ => ⟨_, rfl, rfl⟩⟩
  | append_singleton blocks block ih =>
      intro returns
      rw [Node.applyBlocks, List.foldlM_append] at returns
      obtain ⟨middle, applies, last⟩ := bind_eq_ok.mp returns
      obtain ⟨⟨stillEnabled, sameSize⟩, pops⟩ := ih applies
      have popsLast :=
        popBlock_keeping stillEnabled (by simpa using last)
      refine ⟨⟨(popsLast 0).2.1, (popsLast 0).2.2.trans sameSize⟩, ?_⟩
      intro count enough fits
      rw [List.length_append, List.length_singleton] at enough fits ⊢
      obtain ⟨fewer, rfl⟩ : ∃ fewer, count = fewer + 1 := ⟨count - 1, by omega⟩
      obtain ⟨back, popsRest, same⟩ :=
        pops (min fewer middle.maxSize) (by omega) (by omega)
      refine ⟨back, ?_, same⟩
      rw [Node.popBlocks, (popsLast fewer).1]
      exact popsRest

end Undo

/-- What a node does with its history: blocks that are allowed are applied,
blocks are popped, and undo is turned off and on for a replay, which starts
without sessions. -/
inductive HistoryRun
    (config : Config) (reader : OperationReader Op Result)
    (allowed : Node Op Result → Block Op Result → Prop) :
    Node Op Result → Prop
  | genesis (accounts maxSize : Nat) (undoEnabled : Bool) :
      HistoryRun config reader allowed
        (Node.genesis accounts maxSize undoEnabled)
  | applied {node after : Node Op Result} (block : Block Op Result)
      (run : HistoryRun config reader allowed node)
      (isAllowed : allowed node block)
      (returns : node.applyBlock config reader block = .ok after) :
      HistoryRun config reader allowed after
  | popped {node after : Node Op Result}
      (run : HistoryRun config reader allowed node)
      (pops : node.popBlock = some after) :
      HistoryRun config reader allowed after
  | switched {node : Node Op Result} (undoEnabled : Bool)
      (run : HistoryRun config reader allowed node)
      (noSessions : node.sessions = []) :
      HistoryRun config reader allowed
        { node with
          tables := { node.tables with undoEnabled := undoEnabled } }
  | resized {node : Node Op Result} (maxSize : Nat)
      (run : HistoryRun config reader allowed node) :
      HistoryRun config reader allowed { node with maxSize := maxSize }

/-- No operation counter runs over at this block. -/
def HasRoom
    (config : Config) (reader : OperationReader Op Result)
    (node : Node Op Result) (block : Block Op Result) : Prop :=
  Room (node.tables.createAccounts block.created).statistics
    (block.appliedOps.flatMap (recipientsOf config reader))

/-- The entries of an account, from the newest to the oldest. -/
def Tables.historyOf (tables : Tables Op Result) (accountId : Nat) :
    List AccountTransactionHistory :=
  (tables.bySeq accountId).reverse

/-- The list of one account: consecutive sequence numbers down from `totalOps`
to just above `removedOps`, within the limit, and linked from `mostRecentOp`
to an entry that points to the null id. -/
structure ListOk
    (config : Config) (stats : AccountStatistics)
    (history : List AccountTransactionHistory) : Prop where
  consecutive :
    history.map AccountTransactionHistory.sequence =
      (List.range' (stats.removedOps + 1)
        (stats.totalOps - stats.removedOps)).reverse
  limited : history.length ≤ config.maxOpsPerAccount
  linked : LinkedDown stats.mostRecentOp history

/-- The lists of all accounts, with the operations they refer to. -/
structure HistoryOk (config : Config) (tables : Tables Op Result) :
    Prop where
  lists :
    ∀ accountId stats, tables.statistics[accountId]? = some stats →
      ListOk config stats (tables.historyOf accountId)
  distinct : (tables.entries.map AccountTransactionHistory.id).Nodup
  stored : ∀ entry ∈ tables.entries, tables.Stores entry.operationId
  referenced :
    config.partialOperations = true →
      ∀ operation ∈ tables.operations, tables.Refers operation.id

section Runs

variable {config : Config} {reader : OperationReader Op Result}
variable {tables : Tables Op Result} {upcoming : List Nat}

theorem Steady.historyOk (steady : Steady config [] tables) :
    HistoryOk config tables := by
  obtain ⟨kept, within, _⟩ := steady
  refine ⟨?_, kept.distinct, kept.stored, ?_⟩
  · intro accountId stats found
    have account := kept.accounts accountId stats found
    have counted := account.counted
    have length :
        stats.totalOps - stats.removedOps =
          (tables.entriesOf accountId).length := by
      omega
    rw [Tables.historyOf, kept.bySeq_eq found]
    refine ⟨?_, ?_, account.linked⟩
    · rw [List.map_reverse, account.sequences, length]
    · rw [List.length_reverse, account.length]
      exact within stats (List.mem_of_getElem? found)
  · intro keepsPart operation member
    exact kept.referenced keepsPart operation member (by simp)

theorem Steady.of_same {other : Tables Op Result}
    (steady : Steady config upcoming tables)
    (statistics : other.statistics = tables.statistics)
    (entries : other.entries = tables.entries)
    (operations : other.operations = tables.operations) :
    Steady config upcoming other := by
  refine ⟨steady.kept.of_same statistics entries operations, ?_, ?_⟩
  · rw [statistics]
    exact steady.within
  · rw [statistics]
    exact steady.room

theorem Kept.createAccounts (kept : Kept config none tables) (created : Nat) :
    Kept config none (tables.createAccounts created) := by
  refine { kept with accounts := ?_, owned := ?_ }
  · intro accountId stats found
    simp only [Tables.createAccounts] at found
    by_cases old : accountId < tables.statistics.length
    · rw [List.getElem?_append_left old] at found
      exact kept.accounts accountId stats found
    · have isFresh : stats = AccountStatistics.fresh := by
        rw [List.getElem?_append_right (by omega)] at found
        exact List.eq_of_mem_replicate (List.mem_of_getElem? found)
      have none : (tables.createAccounts created).entriesOf accountId = [] := by
        apply List.filter_eq_nil_iff.mpr
        intro entry member isOwner
        have owned := kept.owned entry member
        rw [of_decide_eq_true isOwner] at owned
        exact old owned
      rw [isFresh, none]
      exact AccountKept.fresh
  · intro entry member
    simp only [Tables.createAccounts, List.length_append]
    have owned := kept.owned entry member
    omega

theorem Within.createAccounts
    (within : Within config tables.statistics) (created : Nat) :
    Within config (tables.createAccounts created).statistics := by
  intro stats member
  rcases List.mem_append.mp member with old | fresh
  · exact within stats old
  · rw [List.eq_of_mem_replicate fresh]
    exact Nat.zero_le config.maxOpsPerAccount

/-- The lists are kept now, and were before each block that can be popped. -/
structure NodeKept (config : Config) (node : Node Op Result) : Prop where
  current : Steady config [] node.tables
  below :
    ∀ saved ∈ node.sessions, ∀ tables : Tables Op Result,
      Steady config [] (tables.undo saved)

theorem NodeKept.genesis
    (config : Config) (accounts maxSize : Nat) (undoEnabled : Bool) :
    NodeKept config
      (Node.genesis accounts maxSize undoEnabled : Node Op Result) := by
  have empty :
      Kept config none
        (Node.genesis 0 maxSize undoEnabled : Node Op Result).tables := by
    constructor
    · simp [Node.genesis]
    · simp [Node.genesis]
    · simp [Node.genesis]
    · simp [Node.genesis]
    · simp [Node.genesis]
  constructor
  · constructor
    · exact (empty.createAccounts accounts).of_same
        (by simp [Node.genesis, Tables.createAccounts]) rfl rfl
    · intro stats member
      rw [List.eq_of_mem_replicate member]
      exact Nat.zero_le config.maxOpsPerAccount
    · intro accountId stats found
      rw [List.eq_of_mem_replicate (List.mem_of_getElem? found),
        List.count_nil]
      decide
  · intro saved member
    exact absurd member List.not_mem_nil

theorem NodeKept.apply {node after : Node Op Result} {block : Block Op Result}
    (positive : 0 < config.maxOpsPerAccount) (kept : NodeKept config node)
    (room : HasRoom config reader node block)
    (returns : node.applyBlock config reader block = .ok after) :
    NodeKept config after := by
  obtain ⟨tables, updates, isAfter⟩ := bind_eq_ok.mp returns
  cases isAfter
  have start :
      Steady config (block.appliedOps.flatMap (recipientsOf config reader))
        (node.tables.createAccounts block.created) :=
    ⟨kept.current.kept.createAccounts block.created,
      kept.current.within.createAccounts block.created, room⟩
  by_cases enabled : node.tables.undoEnabled = true
  · simp only [Node.startUndoSession, if_pos enabled] at updates ⊢
    constructor
    · refine updateAccountHistories_steady positive ?_ updates
      exact start.of_same rfl rfl rfl
    · intro saved member later
      rcases List.mem_cons.mp member with rfl | older
      · exact kept.current.of_same rfl rfl rfl
      · exact kept.below saved (List.mem_of_mem_take older) later
  · simp only [Node.startUndoSession, if_neg enabled] at updates ⊢
    exact ⟨updateAccountHistories_steady positive start updates, kept.below⟩

theorem NodeKept.pop {node after : Node Op Result} (kept : NodeKept config node)
    (pops : node.popBlock = some after) : NodeKept config after := by
  rw [Node.popBlock] at pops
  cases stack : node.sessions with
  | nil =>
      rw [stack] at pops
      cases pops
  | cons saved older =>
      rw [stack] at pops
      cases pops
      constructor
      · exact kept.below saved (by rw [stack]; exact List.mem_cons_self) _
      · intro other member
        exact kept.below other
          (by rw [stack]; exact List.mem_cons_of_mem saved member)

theorem HistoryRun.kept {node : Node Op Result}
    (positive : 0 < config.maxOpsPerAccount)
    (run : HistoryRun config reader (HasRoom config reader) node) :
    NodeKept config node := by
  induction run with
  | genesis accounts maxSize undoEnabled =>
      exact NodeKept.genesis config accounts maxSize undoEnabled
  | applied block _ room returns ih =>
      exact ih.apply positive room returns
  | popped _ pops ih =>
      exact ih.pop pops
  | switched undoEnabled _ _ ih =>
      exact ⟨ih.current.of_same rfl rfl rfl,
        ih.below⟩
  | resized maxSize _ ih =>
      exact ⟨ih.current, ih.below⟩

/-- Along every run of applied and popped blocks in which no 32-bit operation
counter runs over, the history list of every account is as it should be. -/
theorem account_histories_kept
    {node : Node Op Result}
    (positive : 0 < config.maxOpsPerAccount)
    (run : HistoryRun config reader (HasRoom config reader) node) :
    HistoryOk config node.tables :=
  (run.kept positive).current.historyOk

end Runs

section Overflow

/-- All accounts are tracked, with one entry each; unreferenced operations are
dropped. -/
def shortHistory : Config :=
  { trackedAccounts := [], partialOperations := true, maxOpsPerAccount := 1 }

/-- Operations that concern the account with id zero alone. -/
def ownReader : OperationReader Unit Unit :=
  { requiredAccounts := fun _ => [0]
    otherAuthorities := fun _ => []
    impactedAccounts := fun _ => []
    isAccountCreate := fun _ => false
    objectResult := fun _ => none }

def ownOperation : Applied Unit Unit :=
  { op := (), result := (), blockNum := 1, trxInBlock := 0, opInTrx := 0
    virtualOp := 0 }

def ownBlock : Block Unit Unit :=
  { created := 0, appliedOps := [some ownOperation] }

/-- The only entry of the account after `count + 1` blocks. -/
def ownEntry (count : Nat) : AccountTransactionHistory :=
  { id := count, account := 0, operationId := count, sequence := count + 1
    next := nullEntryId }

/-- The tables after `count + 1` blocks. -/
def ownTables (count : Nat) : Tables Unit Unit :=
  { statistics :=
      [{ mostRecentOp := count, totalOps := count + 1
         removedOps := count }]
    entries := [ownEntry count]
    operations := [{ id := count, contents := some ownOperation }]
    nextEntryId := count + 1
    nextOperationId := count + 1
    oldNextEntryId := none
    oldNextOperationId := none
    undoEnabled := false }

def ownNode (count : Nat) : Node Unit Unit :=
  { tables := ownTables count, sessions := [], maxSize := 0 }

theorem ownNode_first :
    (Node.genesis 1 0 false).applyBlock shortHistory ownReader ownBlock =
      .ok (ownNode 0) :=
  rfl

def nextEntry (count : Nat) : AccountTransactionHistory :=
  { id := count + 1, account := 0, operationId := count + 1
    sequence := (count + 2) % counterRange, next := count }

/-- The tables of the next block before the list is pruned. -/
def grownTables (count : Nat) : Tables Unit Unit :=
  { statistics :=
      [{ mostRecentOp := count + 1, totalOps := (count + 2) % counterRange
         removedOps := count }]
    entries := [ownEntry count, nextEntry count]
    operations :=
      [{ id := count, contents := some ownOperation },
        { id := count + 1, contents := some ownOperation }]
    nextEntryId := count + 2
    nextOperationId := count + 2
    oldNextEntryId := none
    oldNextOperationId := none
    undoEnabled := false }

def storedTables (count : Nat) : Tables Unit Unit :=
  { ownTables count with
    operations :=
      [{ id := count, contents := some ownOperation },
        { id := count + 1, contents := some ownOperation }]
    nextOperationId := count + 2 }

/-- A further block makes an entry, and then the list is pruned. -/
theorem ownNode_applyBlock (count : Nat) :
    (ownNode count).applyBlock shortHistory ownReader ownBlock =
      (do
        let pruned ←
          pruneEarliest shortHistory 0 (count + 1)
            { mostRecentOp := count + 1
              totalOps := (count + 2) % counterRange
              removedOps := count } (grownTables count)
        return { tables := pruned, sessions := [], maxSize := 0 }) := by
  have other : (count + 2) % counterRange ≠ count + 1 := by
    simp only [counterRange] at *
    omega
  have creates :
      (ownTables count).createOperation (some ownOperation) =
        .ok (count + 1, storedTables count) := by
    simp [Tables.createOperation, ownTables, storedTables, require,
      Tables.noteNextId, bind, Except.bind, pure, Except.pure]
  have adds :
      addAccountHistory shortHistory (count + 1) (storedTables count) 0 =
        pruneEarliest shortHistory 0 (count + 1)
          { mostRecentOp := count + 1
            totalOps := (count + 2) % counterRange
            removedOps := count } (grownTables count) := by
    simp [addAccountHistory, Tables.statisticsOf, storedTables, orThrow,
      Tables.createEntry, require, Tables.clashes, Tables.insertEntry,
      Tables.setStatistics, Tables.noteNextId, grownTables, nextEntry,
      ownTables, ownEntry, other.symm, bind, Except.bind, pure,
      Except.pure]
  have same : (ownTables count).createAccounts 0 = ownTables count := by
    simp [Tables.createAccounts, ownTables]
  have off : (ownTables count).undoEnabled = false := rfl
  have impacted : ownReader.impacted ownOperation = .ok [0] := rfl
  have all : shortHistory.trackedAccounts = [] := rfl
  have keepsPart : shortHistory.partialOperations = true := rfl
  have one : shortHistory.maxOpsPerAccount = 1 := rfl
  rw [← adds]
  cases added : addAccountHistory shortHistory (count + 1)
      (storedTables count) 0 with
  | error thrown =>
      simp [Node.applyBlock, Node.startUndoSession, ownNode, ownBlock, off,
        updateAccountHistories, updateOne, all, keepsPart, one,
        Callback.createUnlessPartial, impacted, linkAccounts, linkImpacted,
        storeImpacted, Callback.createOnce, Callback.createOho, same, creates,
        linkEach, Callback.link, orThrow, added, bind, Except.bind, pure,
        Except.pure]
  | ok pruned =>
      simp [Node.applyBlock, Node.startUndoSession, ownNode, ownBlock, off,
        updateAccountHistories, updateOne, all, keepsPart, one,
        Callback.createUnlessPartial, impacted, linkAccounts, linkImpacted,
        storeImpacted, Callback.createOnce, Callback.createOho, same, creates,
        linkEach, Callback.link, orThrow, skipUnlessStored, added, bind,
        Except.bind, pure, Except.pure]

/-- Below the range of the counters the older entry goes. -/
theorem ownNode_next {count : Nat} (inside : count + 2 < counterRange) :
    (ownNode count).applyBlock shortHistory ownReader ownBlock =
      .ok (ownNode (count + 1)) := by
  have small : (count + 2) % counterRange = count + 2 :=
    Nat.mod_eq_of_lt inside
  have two : counterSub (count + 2) count = 2 :=
    counterSub_add (by decide)
  have oneLess : (count + 1) % counterRange = count + 1 :=
    Nat.mod_eq_of_lt (by omega)
  have order :
      (grownTables count).bySeq 0 = [ownEntry count, nextEntry count] := by
    simp [Tables.bySeq, Tables.entriesOf, grownTables, ownEntry, nextEntry,
      small]
  have overlong :
      shortHistory.maxOpsPerAccount < counterSub (count + 2) count := by
    rw [two]
    decide
  have older : (ownEntry count).id ≠ count + 1 := by
    simp [ownEntry]
  have dropped :
      dropUnreferenced shortHistory (ownEntry count).operationId
          (cutOldest [nextEntry count]
            (((grownTables count).removeEntry
              (ownEntry count).id).setStatistics 0
              { mostRecentOp := count + 1
                totalOps := count + 2
                removedOps := count + 1 })) =
        .ok (ownTables (count + 1)) := by
    simp [dropUnreferenced, cutOldest, Tables.removeEntry,
      Tables.setStatistics, Tables.cutNext, Tables.isReferenced,
      Tables.removeOperation, AccountTransactionHistory.cut, grownTables,
      ownTables, ownEntry, nextEntry, nullEntryId, shortHistory, require,
      small, bind, Except.bind, pure, Except.pure]
  rw [ownNode_applyBlock, pruneEarliest, small, if_pos overlong, order]
  simp only [if_pos older, oneLess]
  rw [dropped]
  rfl

/-- When the counter runs over, the new entry is the earliest in the index;
it is not removed, and the older one is never looked at. -/
theorem ownNode_over {count : Nat} (runsOver : count + 2 = counterRange) :
    (ownNode count).applyBlock shortHistory ownReader ownBlock =
      .ok
        { tables := grownTables count
          sessions := []
          maxSize := 0 } := by
  have zero : (count + 2) % counterRange = 0 := by
    rw [runsOver, Nat.mod_self]
  have two : counterSub 0 count = 2 := by
    have split : 0 + counterRange - count = 2 := by omega
    rw [counterSub, split]
    rfl
  have order :
      (grownTables count).bySeq 0 = [nextEntry count, ownEntry count] := by
    simp [Tables.bySeq, Tables.entriesOf, grownTables, ownEntry, nextEntry,
      zero]
  have overlong : shortHistory.maxOpsPerAccount < counterSub 0 count := by
    rw [two]
    decide
  have newest : ¬ (nextEntry count).id ≠ count + 1 := by
    simp [nextEntry]
  rw [ownNode_applyBlock, pruneEarliest, zero, if_pos overlong, order]
  simp only [if_neg newest]
  rfl

theorem ownNode_run {count : Nat} (inside : count + 2 ≤ counterRange) :
    HistoryRun shortHistory ownReader (fun _ _ => True) (ownNode count) := by
  induction count with
  | zero =>
      exact .applied ownBlock (.genesis 1 0 false) trivial ownNode_first
  | succ count ih =>
      exact .applied ownBlock (ih (by omega)) trivial
        (ownNode_next (by omega))

/-- After `2 ^ 32` operations an account has two entries where one is allowed.
-/
theorem account_history_runs_over :
    ∃ node : Node Unit Unit,
      HistoryRun shortHistory ownReader (fun _ _ => True) node ∧
      ¬ HistoryOk shortHistory node.tables := by
  refine ⟨_, .applied ownBlock
    (@ownNode_run (counterRange - 2) (by decide)) trivial
    (ownNode_over (by decide)), ?_⟩
  intro ok
  have list := ok.lists 0 _ rfl
  have limited := list.limited
  rw [Tables.historyOf, Tables.bySeq, List.length_reverse,
    List.length_insertionSort] at limited
  exact absurd limited (by decide)

theorem hasRoom_first :
    HasRoom shortHistory ownReader (Node.genesis 1 0 false) ownBlock := by
  intro accountId stats found
  have isFresh : stats = AccountStatistics.fresh := by
    rcases List.mem_append.mp (List.mem_of_getElem? found) with old | new
    · exact List.eq_of_mem_replicate old
    · exact List.eq_of_mem_replicate new
  have once : List.count accountId [0] ≤ 1 := List.count_le_length
  rw [isFresh]
  calc AccountStatistics.fresh.totalOps + List.count accountId [0]
      ≤ 0 + 1 := Nat.add_le_add_left once 0
    _ < counterRange := by decide

/-- A run of one block. -/
theorem account_histories_kept_own :
    HistoryRun shortHistory ownReader (HasRoom shortHistory ownReader)
        (ownNode 0) ∧
      HistoryOk shortHistory (ownNode 0).tables :=
  ⟨.applied ownBlock (.genesis 1 0 false) hasRoom_first ownNode_first,
    account_histories_kept (by decide)
      (.applied ownBlock (.genesis 1 0 false) hasRoom_first ownNode_first)⟩

end Overflow

end GxbCore.History
