import GxbCore.History.HistoryLists

/-!
# The callback keeps the history lists

One account is touched at a time: an entry is put on top of its list, and when
the list is then too long its earliest entry goes, together with the operation
if nothing else refers to it.  While the accounts of an operation are visited
the operation may have no entry yet; `loose` names it.
-/

namespace GxbCore.History

variable {Op Result : Type}

def Tables.Stores (tables : Tables Op Result) (operationId : Nat) : Prop :=
  ∃ operation ∈ tables.operations, operation.id = operationId

def Tables.Refers (tables : Tables Op Result) (operationId : Nat) : Prop :=
  ∃ entry ∈ tables.entries, entry.operationId = operationId

/-- The lists of all accounts and the store of operations agree; only the
operation `loose` may have no entry. -/
structure Kept
    (config : Config) (loose : Option Nat) (tables : Tables Op Result) :
    Prop where
  accounts :
    ∀ accountId stats, tables.statistics[accountId]? = some stats →
      AccountKept stats (tables.entriesOf accountId)
  owned : ∀ entry ∈ tables.entries, entry.account < tables.statistics.length
  distinct : (tables.entries.map AccountTransactionHistory.id).Nodup
  stored : ∀ entry ∈ tables.entries, tables.Stores entry.operationId
  referenced :
    config.partialOperations = true →
      ∀ operation ∈ tables.operations, some operation.id ≠ loose →
        tables.Refers operation.id

/-- No account has more entries than it may. -/
def Within (config : Config) (statistics : List AccountStatistics) : Prop :=
  ∀ stats ∈ statistics,
    counterSub stats.totalOps stats.removedOps ≤ config.maxOpsPerAccount

def Room (statistics : List AccountStatistics) (upcoming : List Nat) : Prop :=
  ∀ accountId stats, statistics[accountId]? = some stats →
    stats.totalOps + upcoming.count accountId < counterRange

section Entries

variable {config : Config} {loose : Option Nat}
variable {tables : Tables Op Result}
variable {accountId : Nat} {stats : AccountStatistics}

theorem Kept.of_same {other : Tables Op Result}
    (kept : Kept config loose tables)
    (statistics : other.statistics = tables.statistics)
    (entries : other.entries = tables.entries)
    (operations : other.operations = tables.operations) :
    Kept config loose other := by
  obtain ⟨accounts, owned, distinct, stored, referenced⟩ := kept
  constructor
  · simpa only [Tables.entriesOf, statistics, entries] using accounts
  · simpa only [statistics, entries] using owned
  · simpa only [entries] using distinct
  · simpa only [Tables.Stores, entries, operations] using stored
  · simpa only [Tables.Refers, entries, operations] using referenced

theorem Kept.tighten (kept : Kept config loose tables)
    (refers :
      ∀ operationId, loose = some operationId →
        tables.Refers operationId) : Kept config none tables := by
  refine { kept with referenced := ?_ }
  intro keepsPart operation member _
  by_cases isLoose : loose = some operation.id
  · exact refers operation.id isLoose
  · exact kept.referenced keepsPart operation member fun same =>
      isLoose same.symm

theorem entriesOf_append (entries : List AccountTransactionHistory)
    (entry : AccountTransactionHistory) (other : Nat) :
    (entries ++ [entry]).filter (fun row => row.account = other) =
      if entry.account = other then
        entries.filter (fun row => row.account = other) ++ [entry]
      else
        entries.filter (fun row => row.account = other) := by
  by_cases same : entry.account = other
  · simp [same]
  · simp [same]

variable {entry : AccountTransactionHistory}
  {entries : List AccountTransactionHistory} {after : Tables Op Result}
  {operationId : Nat} {upcoming : List Nat}

/-- The tables once the new entry is made and the statistics point to it. -/
theorem Kept.grow {linked : Tables Op Result} (kept : Kept config loose tables)
    (found : tables.statistics[accountId]? = some stats)
    (room : stats.totalOps + 1 < counterRange)
    (owner : entry.account = accountId)
    (numbered : entry.sequence = stats.totalOps + 1)
    (pointing : entry.next = stats.mostRecentOp)
    (fresh : ∀ other ∈ tables.entries, other.id ≠ entry.id)
    (stores : tables.Stores entry.operationId)
    (looseIs :
      ∀ operationId, loose = some operationId →
        operationId = entry.operationId)
    (statistics :
      linked.statistics =
        tables.statistics.set accountId
          { stats with mostRecentOp := entry.id, totalOps := entry.sequence })
    (entries : linked.entries = tables.entries ++ [entry])
    (operations : linked.operations = tables.operations) :
    Kept config none linked := by
  have inside : accountId < tables.statistics.length :=
    (List.getElem?_eq_some_iff.mp found).1
  have loosely : Kept config loose linked := by
    constructor
    · intro other otherStats otherFound
      simp only [Tables.entriesOf, entries, entriesOf_append]
      rw [statistics, List.getElem?_set] at otherFound
      by_cases same : accountId = other
      · subst same
        simp only [if_true, inside, Option.some.injEq] at otherFound
        rw [if_pos owner, ← otherFound]
        exact (kept.accounts accountId stats found).grow room numbered pointing
      · rw [if_neg same] at otherFound
        rw [if_neg (by rwa [owner])]
        exact kept.accounts other otherStats otherFound
    · intro other member
      rw [statistics, List.length_set]
      rw [entries, List.mem_append, List.mem_singleton] at member
      rcases member with older | rfl
      · exact kept.owned other older
      · rwa [owner]
    · rw [entries, List.map_append, List.map_cons, List.map_nil,
        List.nodup_append]
      refine ⟨kept.distinct, List.nodup_singleton _, ?_⟩
      intro id member otherId otherMember
      obtain ⟨other, otherIn, rfl⟩ := List.mem_map.mp member
      rw [List.mem_singleton] at otherMember
      rw [otherMember]
      exact fresh other otherIn
    · intro other member
      rw [Tables.Stores, operations]
      rw [entries, List.mem_append, List.mem_singleton] at member
      rcases member with older | rfl
      · exact kept.stored other older
      · exact stores
    · intro keepsPart operation member notLoose
      rw [operations] at member
      obtain ⟨other, otherIn, refers⟩ :=
        kept.referenced keepsPart operation member notLoose
      refine ⟨other, ?_, refers⟩
      rw [entries]
      exact List.mem_append_left [entry] otherIn
  apply loosely.tighten
  intro operationId isLoose
  refine ⟨entry, ?_, (looseIs operationId isLoose).symm⟩
  rw [entries]
  exact List.mem_append_right tables.entries (List.mem_singleton_self entry)

theorem entriesOf_pruned
    (entries : List AccountTransactionHistory) (removed cut other : Nat) :
    ((entries.filter fun row => row.id ≠ removed).map
          (AccountTransactionHistory.cut cut)).filter
        (fun row => row.account = other) =
      ((entries.filter fun row => row.account = other).filter
          fun row => row.id ≠ removed).map
        (AccountTransactionHistory.cut cut) := by
  rw [List.filter_map, List.filter_filter, List.filter_filter]
  congr 1
  apply List.filter_congr
  intro row _
  simp [Bool.and_comm]

/-- Entries that are neither removed nor cut stay as they are. -/
theorem pruned_of_ne {removed cut : Nat}
    (notRemoved : ∀ entry ∈ entries, entry.id ≠ removed)
    (notCut : ∀ entry ∈ entries, entry.id ≠ cut) :
    (entries.filter fun row => row.id ≠ removed).map
        (AccountTransactionHistory.cut cut) = entries := by
  have all : (entries.filter fun row => row.id ≠ removed) = entries := by
    apply List.filter_eq_self.mpr
    intro entry member
    exact decide_eq_true (notRemoved entry member)
  rw [all]
  conv => rhs; rw [← List.map_id entries]
  apply List.map_congr_left
  intro entry member
  exact AccountTransactionHistory.cut_of_ne (notCut entry member)

theorem Kept.eq_of_id {entry other : AccountTransactionHistory}
    (kept : Kept config loose tables) (member : entry ∈ tables.entries)
    (otherMember : other ∈ tables.entries) (same : entry.id = other.id) :
    entry = other :=
  List.inj_on_of_nodup_map kept.distinct member otherMember same

/-- The tables once the earliest entry of an account is removed and the next
one is cut; the operation of the removed entry may have lost its last
reference. -/
theorem Kept.prune {earliest second : AccountTransactionHistory}
    {rest : List AccountTransactionHistory} {pruned : Tables Op Result}
    (kept : Kept config none tables)
    (found : tables.statistics[accountId]? = some stats)
    (list : tables.entriesOf accountId = earliest :: second :: rest)
    (statistics :
      pruned.statistics =
        tables.statistics.set accountId
          { stats with removedOps := (stats.removedOps + 1) % counterRange })
    (entries :
      pruned.entries =
        (tables.entries.filter fun row => row.id ≠ earliest.id).map
          (AccountTransactionHistory.cut second.id))
    (operations : pruned.operations = tables.operations) :
    Kept config (some earliest.operationId) pruned := by
  have inside : accountId < tables.statistics.length :=
    (List.getElem?_eq_some_iff.mp found).1
  have mine : ∀ entry ∈ earliest :: second :: rest,
      entry ∈ tables.entries ∧ entry.account = accountId := by
    intro entry member
    rw [← list, Tables.entriesOf, List.mem_filter] at member
    exact ⟨member.1, of_decide_eq_true member.2⟩
  have distinct :
      ((earliest :: second :: rest).map
        AccountTransactionHistory.id).Nodup := by
    rw [← list]
    exact kept.distinct.sublist (List.filter_sublist.map _)
  have earliestIn := mine earliest (by simp)
  have secondIn := mine second (by simp)
  constructor
  · intro other otherStats otherFound
    simp only [Tables.entriesOf, entries, entriesOf_pruned]
    rw [statistics, List.getElem?_set] at otherFound
    by_cases same : accountId = other
    · subst same
      simp only [if_true, inside, Option.some.injEq] at otherFound
      have shape :
          (tables.entries.filter fun row => row.account = accountId) =
            earliest :: second :: rest := list
      have whole := (kept.accounts accountId stats found)
      rw [list] at whole
      simp only [List.map_cons, List.nodup_cons, List.mem_cons,
        List.mem_map, not_or, not_exists, not_and] at distinct
      have below : ∀ row ∈ rest, row.id ≠ earliest.id ∧ row.id ≠ second.id := by
        intro row member
        exact ⟨distinct.1.2 row member, distinct.2.1 row member⟩
      rw [shape, ← otherFound, List.filter_cons_of_neg (by simp),
        List.filter_cons_of_pos (by simpa using fun same => distinct.1.1 same.symm),
        List.map_cons, AccountTransactionHistory.cut_self,
        pruned_of_ne (fun row member => (below row member).1)
          (fun row member => (below row member).2)]
      exact whole.prune
    · rw [if_neg same] at otherFound
      have elsewhere : ∀ row ∈ tables.entries.filter
          (fun row => row.account = other),
          ∀ entry ∈ tables.entries, entry.account = accountId →
            row.id ≠ entry.id := by
        intro row member entry entryIn owner sameId
        rw [List.mem_filter] at member
        have isRow := kept.eq_of_id member.1 entryIn sameId
        apply same
        rw [← owner, ← isRow]
        exact of_decide_eq_true member.2
      rw [pruned_of_ne
        (fun row member =>
          elsewhere row member earliest earliestIn.1 earliestIn.2)
        (fun row member =>
          elsewhere row member second secondIn.1 secondIn.2)]
      exact kept.accounts other otherStats otherFound
  · intro entry member
    rw [statistics, List.length_set]
    rw [entries, List.mem_map] at member
    obtain ⟨before, beforeIn, rfl⟩ := member
    rw [AccountTransactionHistory.cut_account]
    exact kept.owned before (List.mem_filter.mp beforeIn).1
  · rw [entries, List.map_map]
    have sameIds :
        AccountTransactionHistory.id ∘
            AccountTransactionHistory.cut second.id =
          AccountTransactionHistory.id :=
      funext fun row => AccountTransactionHistory.cut_id second.id row
    rw [sameIds]
    exact kept.distinct.sublist (List.filter_sublist.map _)
  · intro entry member
    rw [Tables.Stores, operations]
    rw [entries, List.mem_map] at member
    obtain ⟨before, beforeIn, rfl⟩ := member
    rw [AccountTransactionHistory.cut_operationId]
    exact kept.stored before (List.mem_filter.mp beforeIn).1
  · intro keepsPart operation member notLoose
    rw [operations] at member
    obtain ⟨entry, entryIn, refers⟩ :=
      kept.referenced keepsPart operation member (by simp)
    have remains : entry.id ≠ earliest.id := by
      intro same
      apply notLoose
      rw [← refers, kept.eq_of_id entryIn earliestIn.1 same]
    have still : entry ∈ tables.entries.filter
        (fun row => row.id ≠ earliest.id) :=
      List.mem_filter.mpr ⟨entryIn, decide_eq_true remains⟩
    rw [Tables.Refers, entries]
    refine ⟨_, List.mem_map_of_mem still, ?_⟩
    rwa [AccountTransactionHistory.cut_operationId]

/-- An operation without a reference goes, and then none is loose. -/
theorem dropUnreferenced_keeps (kept : Kept config (some operationId) tables)
    (returns : dropUnreferenced config operationId tables = .ok after) :
    Kept config none after ∧
      after.statistics = tables.statistics ∧
      after.entries = tables.entries := by
  rw [dropUnreferenced] at returns
  by_cases drops :
      (config.partialOperations && !tables.isReferenced operationId) = true
  · rw [if_pos drops, Tables.removeOperation] at returns
    obtain ⟨_, _, removed⟩ := bind_eq_ok.mp returns
    cases removed
    have unreferenced : ¬ tables.Refers operationId := by
      rintro ⟨entry, member, refers⟩
      simp only [Tables.isReferenced, Bool.and_eq_true, Bool.not_eq_true',
        List.any_eq_false, decide_eq_true_eq] at drops
      exact drops.2 entry member refers
    refine ⟨{ kept with stored := ?_, referenced := ?_ }, rfl, rfl⟩
    · intro entry member
      obtain ⟨operation, operationIn, isIt⟩ := kept.stored entry member
      have other : operation.id ≠ operationId := by
        intro same
        exact unreferenced ⟨entry, member, by rw [← isIt, same]⟩
      exact ⟨operation,
        List.mem_filter.mpr ⟨operationIn, decide_eq_true other⟩, isIt⟩
    · intro keepsPart operation member _
      have stays := List.mem_filter.mp member
      have other : operation.id ≠ operationId := of_decide_eq_true stays.2
      exact kept.referenced keepsPart operation stays.1
        fun same => other (Option.some.inj same)
  · rw [if_neg drops] at returns
    cases returns
    refine ⟨{ kept with referenced := ?_ }, rfl, rfl⟩
    intro keepsPart operation member _
    by_cases same : operation.id = operationId
    · rw [keepsPart, Bool.true_and, Bool.not_eq_true', Bool.not_eq_false,
        Tables.isReferenced, List.any_eq_true] at drops
      obtain ⟨entry, entryIn, refers⟩ := drops
      rw [same]
      exact ⟨entry, entryIn, of_decide_eq_true refers⟩
    · exact kept.referenced keepsPart operation member
        fun isIt => same (Option.some.inj isIt)

/-- A list that is too long has at least two entries. -/
theorem two_of_overlong (positive : 0 < config.maxOpsPerAccount)
    (overlong : config.maxOpsPerAccount < entries.length) :
    ∃ earliest second rest, entries = earliest :: second :: rest := by
  cases entries with
  | nil => simp at overlong
  | cons earliest later =>
      cases later with
      | nil =>
          simp only [List.length_cons, List.length_nil] at overlong
          omega
      | cons second rest => exact ⟨earliest, second, rest, rfl⟩

theorem Kept.bySeq_eq (kept : Kept config loose tables)
    (found : tables.statistics[accountId]? = some stats) :
    tables.bySeq accountId = tables.entriesOf accountId :=
  (kept.accounts accountId stats found).sorted

/-- What the second half of `add_account_history` does: the newest entry stays,
and the account is within its limit when it was over by one at most. -/
theorem pruneEarliest_keeps (kept : Kept config none tables)
    (found : tables.statistics[accountId]? = some stats)
    (positive : 0 < config.maxOpsPerAccount)
    (atMost :
      counterSub stats.totalOps stats.removedOps ≤
        config.maxOpsPerAccount + 1)
    (newest : entry ∈ tables.entries) (isNewest : stats.mostRecentOp = entry.id)
    (returns :
      pruneEarliest config accountId entry.id stats tables = .ok after) :
    Kept config none after ∧
      after.Refers entry.operationId ∧
      ∃ trimmed : AccountStatistics,
        after.statistics = tables.statistics.set accountId trimmed ∧
        trimmed.totalOps = stats.totalOps ∧
        counterSub trimmed.totalOps trimmed.removedOps ≤
          config.maxOpsPerAccount := by
  have account := kept.accounts accountId stats found
  rw [pruneEarliest] at returns
  by_cases overlong :
      config.maxOpsPerAccount < counterSub stats.totalOps stats.removedOps
  · rw [if_pos overlong, kept.bySeq_eq found] at returns
    rw [← account.length] at overlong atMost
    obtain ⟨earliest, second, rest, list⟩ := two_of_overlong positive overlong
    have distinct :
        ((earliest :: second :: rest).map
          AccountTransactionHistory.id).Nodup := by
      rw [← list]
      exact kept.distinct.sublist (List.filter_sublist.map _)
    rw [list] at account returns
    have notNewest : earliest.id ≠ entry.id := by
      rw [← isNewest]
      exact account.newest_ne distinct
    simp only [if_pos notNewest, cutOldest] at returns
    have pruned :
        Kept config (some earliest.operationId)
          (((tables.removeEntry earliest.id).setStatistics accountId
            { stats with
              removedOps :=
                (stats.removedOps + 1) % counterRange }).cutNext
            second.id) :=
      kept.prune found list rfl rfl rfl
    obtain ⟨keptAfter, statistics, entries⟩ :=
      dropUnreferenced_keeps pruned returns
    refine ⟨keptAfter, ?_, _, statistics, rfl, ?_⟩
    · refine ⟨entry.cut second.id, ?_,
        AccountTransactionHistory.cut_operationId second.id entry⟩
      rw [entries]
      apply List.mem_map_of_mem
      apply List.mem_filter.mpr
      exact ⟨newest, decide_eq_true notNewest.symm⟩
    · rw [← account.prune.length]
      rw [list] at atMost
      simp only [List.length_cons] at atMost ⊢
      omega
  · rw [if_neg overlong] at returns
    cases returns
    have same : tables.statistics.set accountId stats = tables.statistics := by
      obtain ⟨inside, isIt⟩ := List.getElem?_eq_some_iff.mp found
      rw [← isIt]
      exact List.set_getElem_self inside
    exact ⟨kept, ⟨entry, newest, rfl⟩, stats, same.symm, rfl,
      Nat.le_of_not_lt overlong⟩

/-- What adding an entry for an account does to the tables. -/
structure Linked
    (config : Config) (operationId accountId : Nat)
    (before after : Tables Op Result) : Prop where
  kept : Kept config none after
  refers : after.Refers operationId
  counted :
    ∃ stats grown : AccountStatistics,
      before.statistics[accountId]? = some stats ∧
      after.statistics = before.statistics.set accountId grown ∧
      grown.totalOps = stats.totalOps + 1 ∧
      counterSub grown.totalOps grown.removedOps ≤ config.maxOpsPerAccount

theorem Room.next (room : Room tables.statistics (accountId :: upcoming))
    (found : tables.statistics[accountId]? = some stats) :
    stats.totalOps + 1 < counterRange := by
  have enough := room accountId stats found
  rw [List.count_cons_self] at enough
  omega

theorem addAccountHistory_keeps (kept : Kept config loose tables)
    (within : Within config tables.statistics)
    (room : Room tables.statistics (accountId :: upcoming))
    (positive : 0 < config.maxOpsPerAccount)
    (stores : tables.Stores operationId)
    (looseIs : ∀ other, loose = some other → other = operationId)
    (returns :
      addAccountHistory config operationId tables accountId = .ok after) :
    Linked config operationId accountId tables after := by
  obtain ⟨stats, read, rest⟩ := bind_eq_ok.mp returns
  have found : tables.statistics[accountId]? = some stats :=
    orThrow_eq_ok.mp read
  obtain ⟨⟨entry, made⟩, creates, prunes⟩ := bind_eq_ok.mp rest
  obtain ⟨_, unique, created⟩ := bind_eq_ok.mp creates
  rw [require_eq_ok] at unique
  obtain ⟨isEntry, rfl⟩ := Prod.mk.inj (Except.ok.inj created)
  have fresh : ∀ other ∈ tables.entries, other.id ≠ entry.id := by
    intro other member same
    rw [isEntry, Tables.clashes, List.any_eq_false] at unique
    apply unique other member
    rw [same]
    simp
  have small := room.next found
  have numbered : entry.sequence = stats.totalOps + 1 := by
    rw [← isEntry]
    exact Nat.mod_eq_of_lt small
  have owner : entry.account = accountId := by rw [← isEntry]
  have pointing : entry.next = stats.mostRecentOp := by rw [← isEntry]
  have linking : entry.operationId = operationId := by rw [← isEntry]
  rw [isEntry] at prunes
  have grown :
      Kept config none ((tables.insertEntry entry).setStatistics accountId
        { stats with
          mostRecentOp := entry.id, totalOps := entry.sequence }) := by
    refine kept.grow found small owner numbered pointing fresh ?_ ?_ rfl rfl rfl
    · rwa [linking]
    · rwa [linking]
  have inside : accountId < tables.statistics.length :=
    (List.getElem?_eq_some_iff.mp found).1
  have foundGrown :
      ((tables.insertEntry entry).setStatistics accountId
        { stats with
          mostRecentOp := entry.id,
          totalOps := entry.sequence }).statistics[accountId]? =
        some { stats with
          mostRecentOp := entry.id, totalOps := entry.sequence } :=
    List.getElem?_set_self inside
  have atMost :
      counterSub entry.sequence stats.removedOps ≤
        config.maxOpsPerAccount + 1 := by
    have account := kept.accounts accountId stats found
    have before := within stats (List.mem_of_getElem? found)
    have later := (account.grow small numbered pointing).length
    rw [List.length_append, account.length] at later
    simp only [List.length_cons, List.length_nil] at later
    omega
  have newest :
      entry ∈ ((tables.insertEntry entry).setStatistics accountId
        { stats with
          mostRecentOp := entry.id, totalOps := entry.sequence }).entries :=
    List.mem_append_right tables.entries (List.mem_singleton_self entry)
  obtain ⟨keptAfter, refers, trimmed, statistics, total, limit⟩ :=
    pruneEarliest_keeps grown foundGrown positive atMost newest rfl prunes
  constructor
  · exact keptAfter
  · rwa [linking] at refers
  · refine ⟨stats, trimmed, found, ?_, ?_, limit⟩
    · rw [statistics]
      exact List.set_set _
    · rw [total]
      exact numbered

theorem Linked.within
    (linked : Linked config operationId accountId tables after)
    (within : Within config tables.statistics) :
    Within config after.statistics := by
  obtain ⟨_, grown, _, statistics, _, limit⟩ := linked.counted
  rw [statistics]
  intro other member
  rcases List.mem_or_eq_of_mem_set member with before | rfl
  · exact within other before
  · exact limit

theorem Linked.room (linked : Linked config operationId accountId tables after)
    (room : Room tables.statistics (accountId :: upcoming)) :
    Room after.statistics upcoming := by
  obtain ⟨stats, grown, found, statistics, total, _⟩ := linked.counted
  intro other otherStats otherFound
  rw [statistics, List.getElem?_set] at otherFound
  by_cases same : accountId = other
  · subst same
    have inside : accountId < tables.statistics.length :=
      (List.getElem?_eq_some_iff.mp found).1
    simp only [if_true, inside, Option.some.injEq] at otherFound
    have enough := room accountId stats found
    rw [List.count_cons_self] at enough
    rw [← otherFound, total]
    omega
  · rw [if_neg same] at otherFound
    have enough := room other otherStats otherFound
    rwa [List.count_cons_of_ne same] at enough

end Entries

section Operations

variable {config : Config} {tables : Tables Op Result}
variable {upcoming : List Nat}

theorem Kept.loosen (kept : Kept config none tables) (loose : Option Nat) :
    Kept config loose tables := by
  refine { kept with referenced := ?_ }
  intro keepsPart operation member _
  exact kept.referenced keepsPart operation member (by simp)

theorem Kept.of_whole {loose : Option Nat} (kept : Kept config loose tables)
    (whole : config.partialOperations = false) : Kept config none tables := by
  refine { kept with referenced := ?_ }
  intro keepsPart
  rw [whole] at keepsPart
  exact absurd keepsPart Bool.false_ne_true

theorem createOperation_keeps {contents : Option (Applied Op Result)} {id : Nat}
    {made : Tables Op Result} (kept : Kept config none tables)
    (returns : tables.createOperation contents = .ok (id, made)) :
    Kept config (some id) made ∧ made.Stores id ∧
      made.statistics = tables.statistics := by
  obtain ⟨_, _, created⟩ := bind_eq_ok.mp returns
  cases created
  refine ⟨{ kept with stored := ?_, referenced := ?_ }, ?_, rfl⟩
  · intro entry member
    obtain ⟨operation, operationIn, isIt⟩ := kept.stored entry member
    exact ⟨operation, List.mem_append_left _ operationIn, isIt⟩
  · intro keepsPart operation member notLoose
    rcases List.mem_append.mp member with before | isNew
    · exact kept.referenced keepsPart operation before (by simp)
    · rw [List.mem_singleton] at isNew
      exact absurd (by rw [isNew]) notLoose
  · exact ⟨_, List.mem_append_right _ (List.mem_singleton_self _), rfl⟩

/-- The callback between two accounts: the lists are kept, the limits are
respected and the counters have room for what is still to come. -/
structure Held
    (config : Config) (upcoming : List Nat) (stored : Stored Op Result) :
    Prop where
  kept : Kept config none stored.2.tables
  within : Within config stored.2.tables.statistics
  room : Room stored.2.tables.statistics upcoming
  stores : ∀ id, stored.1 = some id → stored.2.tables.Stores id

/-- The same when the operation has been stored and may have no entry yet. -/
structure Ready
    (config : Config) (upcoming : List Nat) (stored : Stored Op Result)
    (id : Nat) : Prop where
  isStored : stored.1 = some id
  kept : Kept config (some id) stored.2.tables
  within : Within config stored.2.tables.statistics
  room : Room stored.2.tables.statistics upcoming
  stores : stored.2.tables.Stores id

theorem Held.ready {callback : Callback Op Result} {id : Nat}
    (held : Held config upcoming (some id, callback)) :
    Ready config upcoming (some id, callback) id :=
  { isStored := rfl
    kept := held.kept.loosen (some id)
    within := held.within
    room := held.room
    stores := held.stores id rfl }

variable {applied : Applied Op Result} {callback after : Callback Op Result}
  {reader : OperationReader Op Result}
  {appliedOps : List (Option (Applied Op Result))}

theorem createOho_ready {callback : Callback Op Result}
    {made : Stored Op Result} (kept : Kept config none callback.tables)
    (within : Within config callback.tables.statistics)
    (room : Room callback.tables.statistics upcoming)
    (returns : callback.createOho applied = .ok made) :
    ∃ id, Ready config upcoming made id := by
  obtain ⟨⟨id, tables⟩, creates, isMade⟩ := bind_eq_ok.mp returns
  cases isMade
  obtain ⟨keptMade, stores, statistics⟩ := createOperation_keeps kept creates
  refine ⟨id, rfl, keptMade, ?_, ?_, stores⟩
  · rwa [statistics]
  · rwa [statistics]

theorem createOnce_ready {stored made : Stored Op Result}
    (held : Held config upcoming stored)
    (returns : stored.2.createOnce applied stored.1 = .ok made) :
    ∃ id, Ready config upcoming made id := by
  obtain ⟨oho, callback⟩ := stored
  cases oho with
  | none => exact createOho_ready held.kept held.within held.room returns
  | some id =>
      cases returns
      exact ⟨id, held.ready⟩

theorem link_held {stored : Stored Op Result} {id accountId : Nat}
    {linked : Callback Op Result} (positive : 0 < config.maxOpsPerAccount)
    (ready : Ready config (accountId :: upcoming) stored id)
    (returns : stored.2.link config stored.1 accountId = .ok linked) :
    Held config upcoming (stored.1, linked) := by
  obtain ⟨operationId, read, rest⟩ := bind_eq_ok.mp returns
  have isId : operationId = id := by
    rw [orThrow_eq_ok, ready.isStored] at read
    exact (Option.some.inj read).symm
  subst isId
  obtain ⟨tables, adds, isLinked⟩ := bind_eq_ok.mp rest
  cases isLinked
  have linked := addAccountHistory_keeps ready.kept ready.within ready.room
    positive ready.stores (fun other isOther => (Option.some.inj isOther).symm)
    adds
  refine ⟨linked.kept, linked.within ready.within, linked.room ready.room, ?_⟩
  intro other isOther
  rw [ready.isStored, Option.some.injEq] at isOther
  subst isOther
  obtain ⟨entry, member, refers⟩ := linked.refers
  rw [← refers]
  exact linked.kept.stored entry member

/-- The loop over the accounts an operation concerns. -/
theorem foldlM_link_held {accounts : List Nat} {id : Nat}
    (positive : 0 < config.maxOpsPerAccount)
    (held : Held config (accounts ++ upcoming) (some id, callback))
    (returns :
      accounts.foldlM (Callback.link config (some id)) callback =
        .ok after) : Held config upcoming (some id, after) := by
  induction accounts generalizing callback with
  | nil =>
      cases returns
      exact held
  | cons accountId rest ih =>
      rw [List.foldlM_cons] at returns
      obtain ⟨middle, first, later⟩ := bind_eq_ok.mp returns
      apply ih _ later
      exact link_held positive held.ready first

theorem linkImpacted_held {impacted : List Nat}
    {stored after : Stored Op Result} (positive : 0 < config.maxOpsPerAccount)
    (held : Held config (impacted ++ upcoming) stored)
    (returns : linkImpacted config applied impacted stored = .ok after) :
    Held config upcoming after := by
  obtain ⟨made, stores, rest⟩ := bind_eq_ok.mp returns
  obtain ⟨linked, links, isAfter⟩ := bind_eq_ok.mp rest
  cases isAfter
  rw [linkEach, if_pos positive] at links
  cases impacted with
  | nil =>
      cases stores
      cases links
      exact held
  | cons accountId others =>
      obtain ⟨id, ready⟩ := createOnce_ready held stores
      rw [List.foldlM_cons] at links
      obtain ⟨middle, first, later⟩ := bind_eq_ok.mp links
      have heldMiddle := link_held positive ready first
      rw [ready.isStored] at heldMiddle later ⊢
      exact foldlM_link_held positive heldMiddle later

theorem foldlM_linkTracked_held {impacted tracked : List Nat}
    {stored after : Stored Op Result} (positive : 0 < config.maxOpsPerAccount)
    (held : Held config (tracked.filter (· ∈ impacted) ++ upcoming) stored)
    (returns :
      tracked.foldlM (linkTracked config applied impacted) stored =
        .ok after) : Held config upcoming after := by
  induction tracked generalizing stored with
  | nil =>
      cases returns
      exact held
  | cons accountId rest ih =>
      rw [List.foldlM_cons] at returns
      obtain ⟨middle, first, later⟩ := bind_eq_ok.mp returns
      apply ih _ later
      rw [linkTracked] at first
      by_cases concerned : accountId ∈ impacted
      · rw [if_pos concerned] at first
        rw [List.filter_cons_of_pos (by simpa using concerned)] at held
        obtain ⟨made, stores, links⟩ := bind_eq_ok.mp first
        obtain ⟨linked, adds, isMiddle⟩ := bind_eq_ok.mp links
        cases isMiddle
        obtain ⟨id, ready⟩ := createOnce_ready held stores
        exact link_held positive ready adds
      · rw [if_neg concerned] at first
        rw [List.filter_cons_of_neg (by simpa using concerned)] at held
        cases first
        exact held

/-- The accounts whose lists get an entry for an operation. -/
def Config.recipients (config : Config) (impacted : List Nat) : List Nat :=
  if config.trackedAccounts = [] then
    impacted
  else
    config.trackedAccounts.filter (· ∈ impacted)

theorem linkAccounts_held {impacted : List Nat}
    {stored after : Stored Op Result} (positive : 0 < config.maxOpsPerAccount)
    (held : Held config (config.recipients impacted ++ upcoming) stored)
    (returns : linkAccounts config applied impacted stored = .ok after) :
    Held config upcoming after := by
  rw [linkAccounts] at returns
  rw [Config.recipients] at held
  by_cases all : config.trackedAccounts = []
  · rw [if_pos all] at returns held
    exact linkImpacted_held positive held returns
  · rw [if_neg all] at returns held
    rw [if_pos positive] at returns
    exact foldlM_linkTracked_held positive held returns

theorem skipOhoId_same (returns : callback.skipOhoId = .ok after) :
    after.tables.statistics = callback.tables.statistics ∧
      after.tables.entries = callback.tables.entries ∧
      after.tables.operations = callback.tables.operations := by
  rw [Callback.skipOhoId] at returns
  by_cases notes : (callback.isFirst && callback.tables.undoEnabled) = true
  · rw [if_pos notes] at returns
    obtain ⟨⟨id, made⟩, creates, rest⟩ := bind_eq_ok.mp returns
    obtain ⟨removed, removes, isAfter⟩ := bind_eq_ok.mp rest
    obtain ⟨_, unique, isMade⟩ := bind_eq_ok.mp creates
    obtain ⟨_, _, isRemoved⟩ := bind_eq_ok.mp removes
    rw [require_eq_ok] at unique
    cases isMade
    cases isRemoved
    cases isAfter
    refine ⟨rfl, rfl, ?_⟩
    have others : (callback.tables.operations.filter fun operation =>
        operation.id ≠ callback.tables.nextOperationId) =
          callback.tables.operations := by
      apply List.filter_eq_self.mpr
      intro operation member
      exact decide_eq_true (unique operation member)
    simp only [List.filter_append, others]
    simp
  · rw [if_neg notes] at returns
    cases returns
    exact ⟨rfl, rfl, rfl⟩

/-- The callback between two operations. -/
structure Steady
    (config : Config) (upcoming : List Nat) (tables : Tables Op Result) :
    Prop where
  kept : Kept config none tables
  within : Within config tables.statistics
  room : Room tables.statistics upcoming

theorem skipOhoId_steady (steady : Steady config upcoming callback.tables)
    (returns : callback.skipOhoId = .ok after) :
    Steady config upcoming after.tables := by
  obtain ⟨statistics, entries, operations⟩ := skipOhoId_same returns
  constructor
  · exact steady.kept.of_same statistics entries operations
  · rw [statistics]
    exact steady.within
  · rw [statistics]
    exact steady.room

theorem createUnlessPartial_held {callback : Callback Op Result}
    {stored : Stored Op Result}
    (steady : Steady config upcoming callback.tables)
    (returns : callback.createUnlessPartial config applied = .ok stored) :
    Held config upcoming stored := by
  rw [Callback.createUnlessPartial] at returns
  by_cases keepsPart : config.partialOperations = true
  · rw [if_pos keepsPart] at returns
    cases returns
    exact ⟨steady.kept, steady.within, steady.room, by simp⟩
  · rw [if_neg keepsPart] at returns
    obtain ⟨id, ready⟩ :=
      createOho_ready steady.kept steady.within steady.room returns
    refine ⟨ready.kept.of_whole (by simpa using keepsPart), ready.within,
      ready.room, ?_⟩
    intro other isOther
    rw [ready.isStored, Option.some.injEq] at isOther
    rw [← isOther]
    exact ready.stores

/-- The accounts that get an entry for an operation of the block. -/
def recipientsOf
    (config : Config) (reader : OperationReader Op Result)
    (recorded : Option (Applied Op Result)) : List Nat :=
  match recorded with
  | none => []
  | some applied =>
      match reader.impacted applied with
      | .ok impacted => config.recipients impacted
      | .error _ => []

theorem updateOne_steady {recorded : Option (Applied Op Result)}
    (positive : 0 < config.maxOpsPerAccount)
    (steady :
      Steady config (recipientsOf config reader recorded ++ upcoming)
        callback.tables)
    (returns : updateOne config reader callback recorded = .ok after) :
    Steady config upcoming after.tables := by
  cases recorded with
  | none => exact skipOhoId_steady steady returns
  | some applied =>
      rw [updateOne, if_neg (by omega)] at returns
      obtain ⟨stored, creates, rest⟩ := bind_eq_ok.mp returns
      obtain ⟨impacted, reads, rest⟩ := bind_eq_ok.mp rest
      obtain ⟨linked, links, skips⟩ := bind_eq_ok.mp rest
      rw [recipientsOf, reads] at steady
      have held :=
        linkAccounts_held positive (createUnlessPartial_held steady creates)
          links
      have steadyLinked : Steady config upcoming linked.2.tables :=
        ⟨held.kept, held.within, held.room⟩
      rw [skipUnlessStored] at skips
      by_cases unstored :
          (config.partialOperations && linked.1.isNone) = true
      · rw [if_pos unstored] at skips
        exact skipOhoId_steady steadyLinked skips
      · rw [if_neg unstored] at skips
        cases skips
        exact steadyLinked

theorem foldlM_updateOne_steady (positive : 0 < config.maxOpsPerAccount)
    (steady :
      Steady config
        (appliedOps.flatMap (recipientsOf config reader)) callback.tables)
    (returns :
      appliedOps.foldlM (updateOne config reader) callback = .ok after) :
    Steady config [] after.tables := by
  induction appliedOps generalizing callback with
  | nil =>
      cases returns
      exact steady
  | cons recorded rest ih =>
      rw [List.foldlM_cons] at returns
      obtain ⟨middle, first, later⟩ := bind_eq_ok.mp returns
      rw [List.flatMap_cons] at steady
      exact ih (updateOne_steady positive steady first) later

theorem updateAccountHistories_steady {after : Tables Op Result}
    (positive : 0 < config.maxOpsPerAccount)
    (steady :
      Steady config
        (appliedOps.flatMap (recipientsOf config reader)) tables)
    (returns :
      updateAccountHistories config reader appliedOps tables = .ok after) :
    Steady config [] after := by
  obtain ⟨callback, runs, isAfter⟩ := bind_eq_ok.mp returns
  cases isAfter
  have steadyStart :
      Steady config (appliedOps.flatMap (recipientsOf config reader))
        ({ tables := tables, isFirst := true } :
          Callback Op Result).tables := steady
  exact foldlM_updateOne_steady positive steadyStart runs

end Operations

end GxbCore.History
