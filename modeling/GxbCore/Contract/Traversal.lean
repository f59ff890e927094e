import Mathlib.Data.List.Nodup
import GxbCore.Contract.Iterators

/-!
# Walks over the rows of a table

From a lower bound the next rows, from the end of a table the previous ones:
a walk visits the rows of the table in order and stops at its end.
-/

namespace GxbCore.Contract

section Walk

variable {ρ : Type} [TableRow ρ]

/-- The rows an iterator visits, step after step, until it is negative. -/
inductive Visits (rows : List ρ)
    (step : IteratorCache → Int → Except Fault (Answer ρ)) :
    IteratorCache → Int → List ρ → Int → Prop where
  | done {cache : IteratorCache} {iterator : Int}
      (negative : iterator < 0) :
      Visits rows step cache iterator [] iterator
  | row {cache : IteratorCache} {iterator last : Int} {pointer : Nat}
      {obj : ρ} {answer : Answer ρ} {visited : List ρ}
      (gets : cache.get iterator = .ok pointer)
      (reads : deref rows pointer = .ok obj)
      (steps : step cache iterator = .ok answer)
      (rest :
        Visits rows step answer.cache answer.iterator visited last) :
      Visits rows step cache iterator (obj :: visited) last

/-- A step from a row goes to the row that comes next in its table, or, behind
the last one, to the iterator that `stop` names. -/
structure StepsThrough (tables : List TableIdObject) (rows : List ρ)
    (comesBefore : ρ → ρ → Prop)
    (stop : IteratorCache → Nat → Option Int)
    (step : IteratorCache → Int → Except Fault (Answer ρ)) : Prop where
  trans :
    ∀ {first second third}, comesBefore first second →
      comesBefore second third → comesBefore first third
  irrefl : ∀ row, ¬comesBefore row row
  stopStays :
    ∀ cache pointer table, stop (cache.add pointer).2 table = stop cache table
  steps :
    ∀ {cache iterator obj},
      cache.Live (tableIn tables) (rowIn rows) →
        cache.get iterator = .ok (TableRow.id obj) → obj ∈ rows →
          (∃ row ∈ rows,
            TableRow.tId row = TableRow.tId obj ∧
              comesBefore obj row ∧
                (∀ other ∈ rows,
                  TableRow.tId other = TableRow.tId obj →
                    comesBefore obj other →
                      other = row ∨ comesBefore row other) ∧
                  step cache iterator = .ok (answerRow cache row)) ∨
          ∃ answer,
            step cache iterator = .ok answer ∧ answer.iterator < 0 ∧
              stop cache (TableRow.tId obj) = some answer.iterator ∧
                ∀ other ∈ rows,
                  TableRow.tId other = TableRow.tId obj →
                    ¬comesBefore obj other

variable {tables : List TableIdObject} {rows : List ρ}
variable {comesBefore : ρ → ρ → Prop}
variable {stop : IteratorCache → Nat → Option Int}
variable {step : IteratorCache → Int → Except Fault (Answer ρ)}

open Classical in
/-- How many rows of the table are still to come. -/
noncomputable def remaining (rows : List ρ)
    (comesBefore : ρ → ρ → Prop) (obj : ρ) : Nat :=
  rows.countP fun other =>
    decide
      (TableRow.tId other = TableRow.tId obj ∧ comesBefore obj other)

theorem remaining_lt (through : StepsThrough tables rows comesBefore stop step)
    {obj row : ρ} (member : row ∈ rows)
    (sameTable : TableRow.tId row = TableRow.tId obj)
    (later : comesBefore obj row) :
    remaining rows comesBefore row < remaining rows comesBefore obj := by
  unfold remaining
  apply countP_lt_countP _ member
  · simpa using ⟨sameTable, later⟩
  · simpa using through.irrefl row
  · intro other _ isLater
    simp only [decide_eq_true_eq] at isLater ⊢
    exact
      ⟨isLater.1.trans sameTable, through.trans later isLater.2⟩

theorem visits_from (through : StepsThrough tables rows comesBefore stop step)
    {next : Nat} (formed : RowsFormed rows next) {cache : IteratorCache}
    {iterator : Int} {obj : ρ} (live : cache.Live (tableIn tables) (rowIn rows))
    (gets : cache.get iterator = .ok (TableRow.id obj)) (member : obj ∈ rows) :
    ∃ visited last,
      stop cache (TableRow.tId obj) = some last ∧
        Visits rows step cache iterator (obj :: visited) last ∧
          (obj :: visited).Pairwise comesBefore ∧
            ∀ row, row ∈ visited ↔
              row ∈ rows ∧ TableRow.tId row = TableRow.tId obj ∧
                comesBefore obj row := by
  -- the rows still to come get fewer with every step
  generalize left : remaining rows comesBefore obj = count
  induction count using Nat.strongRecOn generalizing cache iterator obj with
  | ind count ih =>
      have reads : deref rows (TableRow.id obj) = .ok obj :=
        orThrow_eq_ok.mpr (formed.find member)
      have cached :=
        (tableCache_of_get formed.ids live gets reads).2
      rcases through.steps live gets member with
        ⟨row, rowMember, sameTable, later, nextRow, steps⟩ |
          ⟨answer, steps, negative, stops, none⟩
      · have rowLive := answerRow_live live rowMember (sameTable ▸ cached)
        have rowGets :
            (answerRow cache row).cache.get (answerRow cache row).iterator =
              .ok (TableRow.id row) :=
          IteratorCache.get_add live ⟨row, rowMember, rfl, rfl⟩
            (sameTable ▸ cached)
        have fewer := remaining_lt through rowMember sameTable later
        obtain ⟨visited, last, stops, visits, ascending, exactly⟩ :=
          ih _ (left ▸ fewer) rowLive rowGets rowMember rfl
        have exactlyRow :
            ∀ other, other ∈ row :: visited ↔
              other ∈ rows ∧
                TableRow.tId other = TableRow.tId obj ∧
                  comesBefore obj other := by
          intro other
          rw [List.mem_cons, exactly other, sameTable]
          constructor
          · rintro (rfl | ⟨otherMember, otherTable, behind⟩)
            · exact ⟨rowMember, sameTable, later⟩
            · exact ⟨otherMember, otherTable, through.trans later behind⟩
          · rintro ⟨otherMember, otherTable, behind⟩
            rcases nextRow other otherMember otherTable behind with
              same | behindRow
            · exact .inl same
            · exact .inr ⟨otherMember, otherTable, behindRow⟩
        refine ⟨row :: visited, last, ?_, ?_, ?_, exactlyRow⟩
        · rw [sameTable] at stops
          exact
            (through.stopStays cache (TableRow.id row) _).symm.trans stops
        · exact .row gets reads steps visits
        · refine List.pairwise_cons.mpr ⟨?_, ascending⟩
          intro other isLater
          exact ((exactlyRow other).mp isLater).2.2
      · refine ⟨[], answer.iterator, stops, ?_, ?_, ?_⟩
        · exact .row gets reads steps (.done negative)
        · exact List.pairwise_singleton _ _
        · intro row
          simp only [List.not_mem_nil, false_iff]
          rintro ⟨rowMember, sameTable, later⟩
          exact none row rowMember sameTable later

end Walk

section Orders

variable {ρ κ : Type} [TableRow ρ] [LinearOrder κ]
variable {tables : List TableIdObject} {rows : List ρ} {key : ρ → κ}

def TellsApart (key : ρ → κ) : Prop :=
  ∀ first second, key first = key second →
    TableRow.primaryKey first = TableRow.primaryKey second

variable {first second : ρ} {cache : IteratorCache}

theorem compositeKey_lt (sameTable : TableRow.tId first = TableRow.tId second) :
    compositeKey key first < compositeKey key second ↔
      key first < key second := by
  unfold compositeKey
  rw [Prod.Lex.toLex_lt_toLex]
  simp [sameTable]

theorem compositeKey_le (sameTable : TableRow.tId first = TableRow.tId second) :
    compositeKey key first ≤ compositeKey key second ↔
      key first ≤ key second := by
  rw [← not_lt, ← not_lt, compositeKey_lt sameTable.symm]

theorem tId_le_of_compositeKey_le
    (ordered : compositeKey key first ≤ compositeKey key second) :
    TableRow.tId first ≤ TableRow.tId second := by
  unfold compositeKey at ordered
  rcases (Prod.Lex.toLex_le_toLex).mp ordered with smaller | ⟨same, _⟩
  · exact le_of_lt smaller
  · exact le_of_eq same

omit [LinearOrder κ] in
theorem eq_of_key_eq {next : Nat} (formed : RowsFormed rows next)
    (apart : TellsApart key) (firstMember : first ∈ rows)
    (secondMember : second ∈ rows)
    (sameTable : TableRow.tId first = TableRow.tId second)
    (sameKey : key first = key second) : first = second := by
  apply List.inj_on_of_nodup_map formed.keys firstMember secondMember
  rw [sameTable, apart first second sameKey]

/-- A row with the least key among some, and any other of them. -/
theorem eq_or_lt_of_le {next : Nat} (formed : RowsFormed rows next)
    (apart : TellsApart key) (firstMember : first ∈ rows)
    (secondMember : second ∈ rows)
    (sameTable : TableRow.tId first = TableRow.tId second)
    (ordered : compositeKey key first ≤ compositeKey key second) :
    second = first ∨ key first < key second := by
  rcases lt_or_eq_of_le ((compositeKey_le sameTable).mp ordered) with
    less | same
  · exact .inr less
  · exact
      .inl
        (eq_of_key_eq formed apart firstMember secondMember sameTable
          same).symm

def rowAfter (key : ρ → κ) (rows : List ρ) (obj : ρ) : Option ρ :=
  inTable (TableRow.tId obj)
    (firstWhere (compositeKey key)
      (fun row => compositeKey key obj < compositeKey key row) rows)

def rowBefore (key : ρ → κ) (rows : List ρ) (obj : ρ) : Option ρ :=
  inTable (TableRow.tId obj)
    (lastWhere (compositeKey key)
      (fun row => compositeKey key row < compositeKey key obj) rows)

theorem get_nonneg {iterator : Int} {pointer : Nat}
    (gets : cache.get iterator = .ok pointer) : 0 ≤ iterator := by
  obtain ⟨index, rfl, _⟩ := IteratorCache.get_eq_ok.mp gets
  omega

theorem next_eq (key : ρ → κ) {iterator tableEnd : Int} {obj : ρ}
    (gets : cache.get iterator = .ok (TableRow.id obj))
    (reads : deref rows (TableRow.id obj) = .ok obj)
    (isEnd : cache.tableCache (TableRow.tId obj) = some tableEnd) :
    next key rows cache iterator =
      match rowAfter key rows obj with
      | none => .ok ⟨tableEnd, none, cache⟩
      | some row => .ok (answerRow cache row) := by
  have nonneg := get_nonneg gets
  rw [next, if_neg (by omega), gets]
  simp only [bind, Except.bind, reads, IteratorCache.getEndIteratorByTableId,
    isEnd, orThrow]
  rfl

theorem previous_eq (key : ρ → κ) (tables : List TableIdObject) {iterator : Int}
    {obj : ρ} (gets : cache.get iterator = .ok (TableRow.id obj))
    (reads : deref rows (TableRow.id obj) = .ok obj) :
    previous key tables rows cache iterator =
      .ok (answerBack cache (rowBefore key rows obj)) := by
  have nonneg := get_nonneg gets
  rw [previous, if_neg (by omega), gets]
  simp only [bind, Except.bind, reads]
  rfl

/-- No row of the table comes after, when the next row lies in another. -/
theorem rowAfter_none {obj : ρ} (none : rowAfter key rows obj = none)
    {other : ρ} (member : other ∈ rows)
    (sameTable : TableRow.tId other = TableRow.tId obj) :
    ¬key obj < key other := by
  intro later
  have laterComposite := (compositeKey_lt sameTable.symm).mpr later
  cases following :
      firstWhere (compositeKey key)
        (fun row => compositeKey key obj < compositeKey key row) rows with
  | none =>
      have notLater := not_meets_of_firstWhere_none following member
      simp [laterComposite] at notLater
  | some first =>
      have isLater := of_decide_eq_true (mem_of_firstWhere following).2
      have ordered :=
        firstWhere_le following member (decide_eq_true laterComposite)
      have above := tId_le_of_compositeKey_le (le_of_lt isLater)
      have under := tId_le_of_compositeKey_le ordered
      have isIn : TableRow.tId first = TableRow.tId obj := by omega
      simp [rowAfter, following, inTable, isIn] at none

theorem rowBefore_none {obj : ρ} (none : rowBefore key rows obj = none)
    {other : ρ} (member : other ∈ rows)
    (sameTable : TableRow.tId other = TableRow.tId obj) :
    ¬key other < key obj := by
  intro earlier
  have earlierComposite := (compositeKey_lt sameTable).mpr earlier
  cases preceding :
      lastWhere (compositeKey key)
        (fun row => compositeKey key row < compositeKey key obj) rows with
  | none =>
      have notEarlier := not_meets_of_lastWhere_none preceding member
      simp [earlierComposite] at notEarlier
  | some last =>
      have isEarlier := of_decide_eq_true (mem_of_lastWhere preceding).2
      have ordered :=
        le_lastWhere preceding member (decide_eq_true earlierComposite)
      have under := tId_le_of_compositeKey_le (le_of_lt isEarlier)
      have above := tId_le_of_compositeKey_le ordered
      have isIn : TableRow.tId last = TableRow.tId obj := by omega
      simp [rowBefore, preceding, inTable, isIn] at none

theorem next_stepsThrough {nextId : Nat} (formed : RowsFormed rows nextId)
    (apart : TellsApart key) :
    StepsThrough tables rows (fun first second => key first < key second)
      (fun cache table => cache.tableCache table) (next key rows) where
  trans := lt_trans
  irrefl := fun row => lt_irrefl (key row)
  stopStays := fun cache pointer table => by
    rw [IteratorCache.add_tableCache]
  steps := by
    intro cache iterator obj live gets member
    have reads : deref rows (TableRow.id obj) = .ok obj :=
      orThrow_eq_ok.mpr (formed.find member)
    have cached := (tableCache_of_get formed.ids live gets reads).2
    obtain ⟨tableEnd, isEnd⟩ := Option.isSome_iff_exists.mp cached
    have answers := next_eq key gets reads isEnd
    cases following : rowAfter key rows obj with
    | some row =>
        left
        rw [following] at answers
        obtain ⟨first, sameTable⟩ := mem_of_inTable following
        obtain ⟨rowMember, isLater⟩ := mem_of_firstWhere first
        have later :=
          (compositeKey_lt sameTable.symm).mp (of_decide_eq_true isLater)
        refine ⟨row, rowMember, sameTable, later, ?_, answers⟩
        intro other otherMember otherTable behind
        apply
          eq_or_lt_of_le formed apart rowMember otherMember
            (sameTable.trans otherTable.symm)
        apply firstWhere_le first otherMember
        exact
          decide_eq_true ((compositeKey_lt otherTable.symm).mpr behind)
    | none =>
        right
        rw [following] at answers
        have negative : tableEnd < -1 :=
          (IteratorCache.findTableByEndIterator_eq_ok live isEnd).1
        refine ⟨_, answers, ?_, isEnd, ?_⟩
        · exact lt_trans negative (by decide)
        · intro other otherMember sameTable
          exact rowAfter_none following otherMember sameTable

theorem previous_stepsThrough {nextId : Nat} (formed : RowsFormed rows nextId)
    (apart : TellsApart key) :
    StepsThrough tables rows (fun first second => key second < key first)
      (fun _ _ => some (-1)) (previous key tables rows) where
  trans := fun first second => lt_trans second first
  irrefl := fun row => lt_irrefl (key row)
  stopStays := fun _ _ _ => rfl
  steps := by
    intro cache iterator obj live gets member
    have reads : deref rows (TableRow.id obj) = .ok obj :=
      orThrow_eq_ok.mpr (formed.find member)
    have answers := previous_eq key tables gets reads
    cases preceding : rowBefore key rows obj with
    | some row =>
        left
        rw [preceding] at answers
        obtain ⟨last, sameTable⟩ := mem_of_inTable preceding
        obtain ⟨rowMember, isEarlier⟩ := mem_of_lastWhere last
        have earlier :=
          (compositeKey_lt sameTable).mp (of_decide_eq_true isEarlier)
        refine ⟨row, rowMember, sameTable, earlier, ?_, answers⟩
        intro other otherMember otherTable before
        have ordered :=
          le_lastWhere last otherMember
            (decide_eq_true ((compositeKey_lt otherTable).mpr before))
        rcases
            eq_or_lt_of_le formed apart otherMember rowMember
              (otherTable.trans sameTable.symm) ordered with
          same | less
        · exact .inl same.symm
        · exact .inr less
    | none =>
        right
        rw [preceding] at answers
        refine ⟨_, answers, by simp [answerBack], rfl, ?_⟩
        intro other otherMember sameTable
        exact rowBefore_none preceding otherMember sameTable

end Orders

section Starts

variable {ρ κ : Type} [TableRow ρ] [LinearOrder κ]
variable {tables : List TableIdObject} {rows : List ρ} {key : ρ → κ}

/-- A bound of an ordered index: with a row all rows behind it lie behind the
bound, and no row of an earlier table does. -/
structure IsBound (key : ρ → κ) (meets : Nat → ρ → Bool) : Prop where
  upward :
    ∀ {table first second}, meets table first = true →
      compositeKey key first ≤ compositeKey key second →
        meets table second = true
  floor :
    ∀ {table row}, meets table row = true → table ≤ TableRow.tId row

/-- From a bound on, the next rows are the rows of the table behind the bound,
in ascending order, up to the end of the table. -/
theorem lookup_ascending {nextId : Nat} (formed : RowsFormed rows nextId)
    (apart : TellsApart key) {meets : Nat → ρ → Bool}
    (bound : IsBound key meets) {cache : IteratorCache}
    (live : cache.Live (tableIn tables) (rowIn rows)) {code scope table : Name}
    {tab : TableIdObject}
    (found : findTable tables code scope table = some tab) :
    ∃ visited,
      Visits rows (next key rows)
        (lookup tables cache code scope table fun tab =>
          inTable tab
            (firstWhere (compositeKey key) (meets tab) rows)).cache
        (lookup tables cache code scope table fun tab =>
          inTable tab
            (firstWhere (compositeKey key) (meets tab) rows)).iterator
        visited (endOf tables cache code scope table).1 ∧
      visited.Pairwise (fun first second => key first < key second) ∧
        ∀ row, row ∈ visited ↔
          row ∈ rows ∧ TableRow.tId row = tab.id ∧
            meets tab.id row = true := by
  have isThere : tableIn tables tab.id :=
    ⟨tab, mem_of_findTable found, rfl⟩
  have cachedLive := IteratorCache.cacheTable_live live isThere
  have isCached : (cache.cacheTable tab.id).2.tableCache tab.id =
      some (cache.cacheTable tab.id).1 :=
    IteratorCache.cacheTable_cached tab.id
  simp only [lookup, endOf, found]
  cases selected :
      inTable tab.id
        (firstWhere (compositeKey key) (meets tab.id) rows) with
  | none =>
      have negative :=
        (IteratorCache.findTableByEndIterator_eq_ok cachedLive isCached).1
      refine ⟨[], .done (by dsimp only; omega), List.Pairwise.nil, ?_⟩
      intro row
      simp only [List.not_mem_nil, false_iff]
      rintro ⟨member, inTab, rowMeets⟩
      cases first :
          firstWhere (compositeKey key) (meets tab.id) rows with
      | none =>
          have notMeets := not_meets_of_firstWhere_none first member
          simp [rowMeets] at notMeets
      | some least =>
          have ordered := firstWhere_le first member rowMeets
          have under := tId_le_of_compositeKey_le ordered
          have above := bound.floor (mem_of_firstWhere first).2
          have isIn : TableRow.tId least = tab.id := by omega
          simp [first, inTable, isIn] at selected
  | some row =>
      obtain ⟨first, inTab⟩ := mem_of_inTable selected
      obtain ⟨member, rowMeets⟩ := mem_of_firstWhere first
      have rowCached :
          ((cache.cacheTable tab.id).2.tableCache
            (TableRow.tId row)).isSome := by
        rw [inTab, isCached]
        rfl
      have rowLive := answerRow_live cachedLive member rowCached
      have gets :
          (answerRow (cache.cacheTable tab.id).2 row).cache.get
              (answerRow (cache.cacheTable tab.id).2 row).iterator =
            .ok (TableRow.id row) :=
        IteratorCache.get_add cachedLive ⟨row, member, rfl, rfl⟩ rowCached
      obtain ⟨visited, last, stops, visits, ascending, exactly⟩ :=
        visits_from (next_stepsThrough formed apart) formed rowLive gets
          member
      have isEnd : last = (cache.cacheTable tab.id).1 := by
        have stays :
            (answerRow (cache.cacheTable tab.id).2
                row).cache.tableCache =
              (cache.cacheTable tab.id).2.tableCache :=
          IteratorCache.add_tableCache (TableRow.id row)
        rw [stays, inTab, isCached] at stops
        exact (Option.some.inj stops).symm
      rw [isEnd] at visits
      refine ⟨row :: visited, visits, ascending, ?_⟩
      intro other
      rw [List.mem_cons, exactly other, inTab]
      constructor
      · rintro (rfl | ⟨otherMember, otherTable, later⟩)
        · exact ⟨member, inTab, rowMeets⟩
        · refine ⟨otherMember, otherTable, bound.upward rowMeets ?_⟩
          exact
            (compositeKey_le (inTab.trans otherTable.symm)).mpr
              (le_of_lt later)
      · rintro ⟨otherMember, otherTable, otherMeets⟩
        have ordered := firstWhere_le first otherMember otherMeets
        rcases
            eq_or_lt_of_le formed apart member otherMember
              (inTab.trans otherTable.symm) ordered with
          same | later
        · exact .inl same
        · exact .inr ⟨otherMember, otherTable, later⟩

theorem lastOf_none {table : Nat} (none : lastOf key rows table = none)
    {row : ρ} (member : row ∈ rows) (inTab : TableRow.tId row = table) :
    False := by
  cases last :
      lastWhere (compositeKey key)
        (fun row => TableRow.tId row ≤ table) rows with
  | none =>
      have above := not_meets_of_lastWhere_none last member
      simp [inTab] at above
  | some greatest =>
      have ordered :=
        le_lastWhere last member (decide_eq_true (le_of_eq inTab))
      have above := tId_le_of_compositeKey_le ordered
      have under := of_decide_eq_true (mem_of_lastWhere last).2
      have isIn : TableRow.tId greatest = table := by omega
      simp [lastOf, last, inTable, isIn] at none

/-- From the end of a table, the previous rows are all rows of the table, in
descending order, up to `-1`. -/
theorem endOf_descending {nextId : Nat} (formed : RowsFormed rows nextId)
    (apart : TellsApart key) {nextTable : Nat}
    (tablesFormed : TablesFormed tables nextTable) {cache : IteratorCache}
    (live : cache.Live (tableIn tables) (rowIn rows)) {code scope table : Name}
    {tab : TableIdObject}
    (found : findTable tables code scope table = some tab) :
    ∃ answer visited,
      previous key tables rows (endOf tables cache code scope table).2
          (endOf tables cache code scope table).1 = .ok answer ∧
        Visits rows (previous key tables rows) answer.cache answer.iterator
          visited (-1) ∧
        visited.Pairwise (fun first second => key second < key first) ∧
          ∀ row, row ∈ visited ↔
            row ∈ rows ∧ TableRow.tId row = tab.id := by
  have isThere : tableIn tables tab.id :=
    ⟨tab, mem_of_findTable found, rfl⟩
  have cachedLive := IteratorCache.cacheTable_live live isThere
  have isCached : (cache.cacheTable tab.id).2.tableCache tab.id =
      some (cache.cacheTable tab.id).1 :=
    IteratorCache.cacheTable_cached tab.id
  obtain ⟨negative, finds⟩ :=
    IteratorCache.findTableByEndIterator_eq_ok cachedLive isCached
  have isTab : derefTable tables tab.id = .ok tab :=
    orThrow_eq_ok.mpr (tablesFormed.find (mem_of_findTable found))
  have answers :
      previous key tables rows (cache.cacheTable tab.id).2
          (cache.cacheTable tab.id).1 =
        .ok
          (answerBack (cache.cacheTable tab.id).2
            (lastOf key rows tab.id)) := by
    rw [previous, if_pos negative, finds]
    simp only [bind, Except.bind, orThrow, isTab]
  simp only [endOf, found]
  cases isLast : lastOf key rows tab.id with
  | none =>
      rw [isLast] at answers
      refine
        ⟨_, [], answers, .done (by simp [answerBack]),
          List.Pairwise.nil, ?_⟩
      intro row
      simp only [List.not_mem_nil, false_iff]
      rintro ⟨member, inTab⟩
      exact lastOf_none isLast member inTab
  | some row =>
      rw [isLast] at answers
      obtain ⟨last, inTab⟩ := mem_of_inTable isLast
      have member := (mem_of_lastWhere last).1
      have rowCached :
          ((cache.cacheTable tab.id).2.tableCache
            (TableRow.tId row)).isSome := by
        rw [inTab, isCached]
        rfl
      have rowLive := answerRow_live cachedLive member rowCached
      have gets :
          (answerRow (cache.cacheTable tab.id).2 row).cache.get
              (answerRow (cache.cacheTable tab.id).2 row).iterator =
            .ok (TableRow.id row) :=
        IteratorCache.get_add cachedLive ⟨row, member, rfl, rfl⟩ rowCached
      obtain ⟨visited, stopAt, stops, visits, descending, exactly⟩ :=
        visits_from (previous_stepsThrough formed apart) formed rowLive gets
          member
      cases stops
      refine ⟨_, row :: visited, answers, visits, descending, ?_⟩
      intro other
      rw [List.mem_cons, exactly other, inTab]
      constructor
      · rintro (rfl | ⟨otherMember, otherTable, _⟩)
        · exact ⟨member, inTab⟩
        · exact ⟨otherMember, otherTable⟩
      · rintro ⟨otherMember, otherTable⟩
        have ordered :=
          le_lastWhere last otherMember
            (decide_eq_true (le_of_eq otherTable))
        rcases
            eq_or_lt_of_le formed apart otherMember member
              (otherTable.trans inTab.symm) ordered with
          same | earlier
        · exact .inl same.symm
        · exact .inr ⟨otherMember, otherTable, earlier⟩

end Starts

section Sound

variable {ρ κ : Type} [TableRow ρ] [LinearOrder κ]

/-- What an iterator cache promises: an accepted handle stands for a row that
exists, a row has one handle, and the cached tables and end iterators stand for
tables that exist. -/
structure CacheSound (tables : List TableIdObject) (rows : List ρ)
    (cache : IteratorCache) : Prop where
  accepted :
    ∀ iterator pointer, cache.get iterator = .ok pointer →
      ∃ row ∈ rows, TableRow.id row = pointer
  oneHandle :
    ∀ first second pointer, cache.get first = .ok pointer →
      cache.get second = .ok pointer → first = second
  cachedTables :
    ∀ table, (cache.tableCache table).isSome → tableIn tables table
  endIterators : ∀ table ∈ cache.endIteratorToTable, tableIn tables table

theorem cacheSound_of_live {tables : List TableIdObject} {rows : List ρ}
    {cache : IteratorCache} (live : cache.Live (tableIn tables) (rowIn rows)) :
    CacheSound tables rows cache where
  accepted := by
    intro iterator pointer gets
    obtain ⟨table, ⟨row, member, isPointer, _⟩, _⟩ := live.row gets
    exact ⟨row, member, isPointer⟩
  oneHandle := by
    intro first second pointer getsFirst getsSecond
    have handleFirst := live.get_iff.mp getsFirst
    have handleSecond := live.get_iff.mp getsSecond
    exact Option.some.inj (handleFirst.symm.trans handleSecond)
  cachedTables := fun table cached => live.table cached
  endIterators := live.exist

/-- From an answer on, steps visit the wanted rows in ascending order and stop
at the end iterator. -/
def Ascends (key : ρ → κ) (rows : List ρ)
    (step : IteratorCache → Int → Except Fault (Answer ρ))
    (start : Answer ρ) (last : Int) (wanted : ρ → Prop) : Prop :=
  ∃ visited,
    Visits rows step start.cache start.iterator visited last ∧
      visited.Pairwise (fun first second => key first < key second) ∧
        ∀ row, row ∈ visited ↔ row ∈ rows ∧ wanted row

/-- From an end iterator, steps back visit the wanted rows in descending order
and stop at `-1`. -/
def Descends (key : ρ → κ) (rows : List ρ)
    (step : IteratorCache → Int → Except Fault (Answer ρ))
    (start : Int × IteratorCache) (wanted : ρ → Prop) : Prop :=
  ∃ answer visited,
    step start.2 start.1 = .ok answer ∧
      Visits rows step answer.cache answer.iterator visited (-1) ∧
        visited.Pairwise (fun first second => key second < key first) ∧
          ∀ row, row ∈ visited ↔ row ∈ rows ∧ wanted row

end Sound

namespace ApplyContext

variable {forks : HardForks} {context after : ApplyContext}

def nextKeyValue (context : ApplyContext) (cache : IteratorCache)
    (iterator : Int) : Except Fault (Answer KeyValueObject) :=
  (context.setKeyvalCache cache).dbNextI64 iterator

def previousKeyValue (context : ApplyContext) (cache : IteratorCache)
    (iterator : Int) : Except Fault (Answer KeyValueObject) :=
  (context.setKeyvalCache cache).dbPreviousI64 iterator

/-- The steps over the index rows of a context. -/
def nextSecondary (context : ApplyContext) (cache : IteratorCache)
    (iterator : Int) : Except Fault (Answer Index64Object) :=
  (context.setItrCache cache).idx64NextSecondary iterator

def previousSecondary (context : ApplyContext) (cache : IteratorCache)
    (iterator : Int) : Except Fault (Answer Index64Object) :=
  (context.setItrCache cache).idx64PreviousSecondary iterator

def nextPrimary (context : ApplyContext) (cache : IteratorCache)
    (iterator : Int) : Except Fault (Answer Index64Object) :=
  (context.setItrCache cache).idx64NextPrimary iterator

def previousPrimary (context : ApplyContext) (cache : IteratorCache)
    (iterator : Int) : Except Fault (Answer Index64Object) :=
  (context.setItrCache cache).idx64PreviousPrimary iterator

/-- The contexts one execution goes through, by calls that are allowed. -/
inductive Executes (forks : HardForks)
    (allowed : ApplyContext → Call → Prop) (start : ApplyContext) :
    ApplyContext → Prop where
  | start : Executes forks allowed start start
  | call {context after : ApplyContext} {call : Call}
      (executes : Executes forks allowed start context)
      (isAllowed : allowed context call)
      (returns : context.perform forks call = .ok after) :
      Executes forks allowed start after

structure WalksRight (context : ApplyContext) (code scope table : Name)
    (tab : TableIdObject) : Prop where
  keyValuesUp :
    ∀ id,
      Ascends KeyValueObject.key context.store.keyValues
        context.nextKeyValue (context.dbLowerboundI64 code scope table id)
        (context.dbEndI64 code scope table).1
        (fun row => row.tId = tab.id ∧ id ≤ row.primaryKey)
  keyValuesDown :
    Descends KeyValueObject.key context.store.keyValues
      context.previousKeyValue (context.dbEndI64 code scope table)
      (fun row => row.tId = tab.id)
  secondaryUp :
    ∀ secondary,
      Ascends Index64Object.bySecondary context.store.index64s
        context.nextSecondary
        (context.idx64LowerboundSecondary code scope table secondary)
        (context.idx64EndSecondary code scope table).1
        (fun row => row.tId = tab.id ∧ secondary ≤ row.secondaryKey)
  secondaryDown :
    Descends Index64Object.bySecondary context.store.index64s
      context.previousSecondary (context.idx64EndSecondary code scope table)
      (fun row => row.tId = tab.id)
  primaryUp :
    ∀ primary,
      Ascends Index64Object.byPrimary context.store.index64s
        context.nextPrimary
        (context.idx64LowerboundPrimary code scope table primary)
        (context.idx64EndSecondary code scope table).1
        (fun row => row.tId = tab.id ∧ primary ≤ row.primaryKey)
  primaryDown :
    Descends Index64Object.byPrimary context.store.index64s
      context.previousPrimary (context.idx64EndSecondary code scope table)
      (fun row => row.tId = tab.id)

/-- The iterators of a context are right: both caches are sound, the handle of
a removed row is rejected from then on, and the walks visit what they should. -/
structure IteratorsRight (forks : HardForks)
    (allowed : ApplyContext → Call → Prop) (context : ApplyContext) :
    Prop where
  keyval :
    CacheSound context.store.tables context.store.keyValues
      context.keyvalCache
  itr :
    CacheSound context.store.tables context.store.index64s context.itrCache
  keyvalRejected :
    ∀ iterator after later,
      context.perform forks (.dbRemoveI64 iterator) = .ok after →
        Executes forks allowed after later →
          ∀ pointer, later.keyvalCache.get iterator ≠ .ok pointer
  itrRejected :
    ∀ iterator after later,
      context.perform forks (.idx64Remove iterator) = .ok after →
        Executes forks allowed after later →
          ∀ pointer, later.itrCache.get iterator ≠ .ok pointer
  walks :
    ∀ code scope table tab,
      findTable context.store.tables code scope table = some tab →
        WalksRight context code scope table tab

theorem keyValue_tellsApart : TellsApart KeyValueObject.key :=
  fun _ _ same => UInt64.toNat_inj.mp same

theorem byPrimary_tellsApart : TellsApart Index64Object.byPrimary :=
  fun _ _ same => UInt64.toNat_inj.mp same

theorem bySecondary_tellsApart : TellsApart Index64Object.bySecondary :=
  fun _ _ same => UInt64.toNat_inj.mp (Prod.mk.inj (toLex.injective same)).2

/-- A bound that names the whole key. -/
def behindKey {ρ κ : Type} [TableRow ρ] [LinearOrder κ] (key : ρ → κ)
    (least : κ) (table : Nat) (row : ρ) : Bool :=
  decide (toLex (table, least) ≤ compositeKey key row)

/-- A bound that names the secondary key only. -/
def behindSecondary (secondary : UInt64) (table : Nat)
    (row : Index64Object) : Bool :=
  decide (toLex (table, secondary.toNat) ≤ secondaryBound row)

theorem behindKey_isBound
    {ρ κ : Type} [TableRow ρ] [LinearOrder κ] (key : ρ → κ) (least : κ) :
    IsBound key (behindKey key least) where
  upward := by
    intro table first second firstMeets ordered
    exact
      decide_eq_true (le_trans (of_decide_eq_true firstMeets) ordered)
  floor := by
    intro table row rowMeets
    rcases (Prod.Lex.toLex_le_toLex).mp (of_decide_eq_true rowMeets) with
      smaller | ⟨same, _⟩
    · exact le_of_lt smaller
    · exact le_of_eq same

theorem behindKey_iff {ρ κ : Type} [TableRow ρ] [LinearOrder κ] (key : ρ → κ)
    (least : κ) (row : ρ) :
    behindKey key least (TableRow.tId row) row = true ↔
      least ≤ key row := by
  rw [behindKey, decide_eq_true_iff, compositeKey,
    Prod.Lex.toLex_le_toLex]
  simp

theorem behindSecondary_isBound (secondary : UInt64) :
    IsBound Index64Object.bySecondary (behindSecondary secondary) where
  upward := by
    intro table first second firstMeets ordered
    have atFirst := of_decide_eq_true firstMeets
    apply decide_eq_true
    refine le_trans atFirst ?_
    unfold compositeKey Index64Object.bySecondary at ordered
    unfold secondaryBound
    rw [Prod.Lex.toLex_le_toLex] at ordered ⊢
    rcases ordered with smaller | ⟨same, inTable⟩
    · exact .inl smaller
    · refine .inr ⟨same, ?_⟩
      rcases (Prod.Lex.toLex_le_toLex).mp inTable with less | ⟨equal, _⟩
      · exact le_of_lt less
      · exact le_of_eq equal
  floor := by
    intro table row rowMeets
    rcases (Prod.Lex.toLex_le_toLex).mp (of_decide_eq_true rowMeets) with
      smaller | ⟨same, _⟩
    · exact le_of_lt smaller
    · exact le_of_eq same

theorem behindSecondary_iff (secondary : UInt64) (row : Index64Object) :
    behindSecondary secondary (TableRow.tId row) row = true ↔
      secondary ≤ row.secondaryKey := by
  rw [behindSecondary, decide_eq_true_iff, secondaryBound,
    Prod.Lex.toLex_le_toLex, UInt64.le_iff_toNat_le]
  simp

theorem ascends_of_lookup {ρ κ : Type} [TableRow ρ] [LinearOrder κ]
    {key : ρ → κ} {rows : List ρ}
    {step : IteratorCache → Int → Except Fault (Answer ρ)} {start : Answer ρ}
    {last : Int} {table : Nat} (meets : Nat → ρ → Bool) {wanted : ρ → Prop}
    (walks :
      ∃ visited,
        Visits rows step start.cache start.iterator visited last ∧
          visited.Pairwise (fun first second => key first < key second) ∧
            ∀ row, row ∈ visited ↔
              row ∈ rows ∧ TableRow.tId row = table ∧
                meets table row = true)
    (means : ∀ row, meets (TableRow.tId row) row = true ↔ wanted row) :
    Ascends key rows step start last
      (fun row => TableRow.tId row = table ∧ wanted row) := by
  obtain ⟨visited, visits, ascending, exactly⟩ := walks
  refine ⟨visited, visits, ascending, ?_⟩
  intro row
  rw [exactly row]
  constructor
  · rintro ⟨member, inTable, rowMeets⟩
    rw [← inTable, means] at rowMeets
    exact ⟨member, inTable, rowMeets⟩
  · rintro ⟨member, inTable, isWanted⟩
    rw [← means, inTable] at isWanted
    exact ⟨member, inTable, isWanted⟩

theorem walksRight_of_live (formed : context.store.Formed)
    (live : CachesLive context) {code scope table : Name} {tab : TableIdObject}
    (found : findTable context.store.tables code scope table = some tab) :
    WalksRight context code scope table tab where
  keyValuesUp := by
    intro id
    apply
      ascends_of_lookup (behindKey KeyValueObject.key id.toNat)
        (lookup_ascending formed.keyValues keyValue_tellsApart
          (behindKey_isBound _ _) live.keyval found)
    intro row
    rw [behindKey_iff, UInt64.le_iff_toNat_le]
    rfl
  keyValuesDown :=
    endOf_descending formed.keyValues keyValue_tellsApart formed.tables
      live.keyval found
  secondaryUp := by
    intro secondary
    exact
      ascends_of_lookup (behindSecondary secondary)
        (lookup_ascending formed.index64s bySecondary_tellsApart
          (behindSecondary_isBound secondary) live.itr found)
        (behindSecondary_iff secondary)
  secondaryDown :=
    endOf_descending formed.index64s bySecondary_tellsApart formed.tables
      live.itr found
  primaryUp := by
    intro primary
    apply
      ascends_of_lookup (behindKey Index64Object.byPrimary primary.toNat)
        (lookup_ascending formed.index64s byPrimary_tellsApart
          (behindKey_isBound _ _) live.itr found)
    intro row
    rw [behindKey_iff, UInt64.le_iff_toNat_le]
    rfl
  primaryDown :=
    endOf_descending formed.index64s byPrimary_tellsApart formed.tables
      live.itr found

theorem executes_keepsForgotten {allowed : ApplyContext → Call → Prop}
    {later : ApplyContext} (executes : Executes forks allowed context later) :
    KeepsForgotten context later := by
  induction executes with
  | start => exact ⟨.refl _, .refl _⟩
  | call _ _ returns ih =>
      have step := perform_forgotten returns
      exact
        ⟨ih.keyval.trans step.keyval,
          ih.itr.trans step.itr⟩

/-- A handle behind which a cache has forgotten its row gets nothing. -/
theorem get_ne_of_forgotten
    {cache : IteratorCache} {iterator : Int} (nonneg : 0 ≤ iterator)
    (forgotten : cache.iteratorToObject[iterator.toNat]? = some none)
    (pointer : Nat) : cache.get iterator ≠ .ok pointer := by
  intro gets
  obtain ⟨index, rfl, at_index⟩ := IteratorCache.get_eq_ok.mp gets
  rw [Int.toNat_natCast, at_index] at forgotten
  cases forgotten

/-- What an execution keeps whose calls leave the tables there. -/
theorem executes_live {store : Store} (formed : store.Formed)
    {sender receiver trxOrigin : Name} {ramStatistics : Name → Int}
    (executes :
      Executes forks (LeavesTables forks)
        (start store sender receiver trxOrigin ramStatistics) context) :
    context.store.Formed ∧ CachesLive context := by
  induction executes with
  | start =>
      exact
        ⟨formed, IteratorCache.empty_live, IteratorCache.empty_live⟩
  | call _ leaves returns ih =>
      exact
        ⟨perform_formed ih.1 returns,
          perform_live ih.1 ih.2 leaves
            returns⟩

/-- As long as no call takes the last row of a table, the iterators of every
context of an execution are right. -/
theorem iterators_right
    {store : Store} (formed : store.Formed)
    {sender receiver trxOrigin : Name} {ramStatistics : Name → Int}
    (executes :
      Executes forks (LeavesTables forks)
        (start store sender receiver trxOrigin ramStatistics) context) :
    IteratorsRight forks (LeavesTables forks) context := by
  obtain ⟨nowFormed, live⟩ := executes_live formed executes
  refine
    ⟨cacheSound_of_live live.keyval, cacheSound_of_live live.itr, ?_, ?_,
      fun code scope table tab found =>
        walksRight_of_live nowFormed live found⟩
  · intro iterator after later removes goesOn
    obtain ⟨_, _, _, forgets, rfl⟩ := dbRemoveI64_eq_ok removes
    obtain ⟨_, forgotten, nonneg⟩ := remove_forgotten forgets
    have stays := (executes_keepsForgotten goesOn).keyval
    exact get_ne_of_forgotten nonneg (stays _ forgotten)
  · intro iterator after later removes goesOn
    obtain ⟨_, _, _, forgets, rfl⟩ := idx64Remove_eq_ok removes
    obtain ⟨_, forgotten, nonneg⟩ := remove_forgotten forgets
    have stays := (executes_keepsForgotten goesOn).itr
    exact get_ne_of_forgotten nonneg (stays _ forgotten)

theorem iterators_right_index64 :
    ∃ context,
      (first 1600000000).perform .mainnet (.idx64Store 1 2 0 1 9) =
          .ok context ∧
        IteratorsRight .mainnet (LeavesTables .mainnet) context := by
  have returns :
      ∃ context,
        (first 1600000000).perform .mainnet (.idx64Store 1 2 0 1 9) =
          .ok context :=
    ⟨_, rfl⟩
  obtain ⟨context, returns⟩ := returns
  have leaves :
      LeavesTables .mainnet (first 1600000000)
        (.idx64Store 1 2 0 1 9) :=
    fun _ takes => takes
  exact
    ⟨context, returns,
      iterators_right (Store.formed_empty _)
        (.call .start leaves returns)⟩

/-- The end iterator of a table that went with its last row is still accepted,
and points to nothing. -/
theorem end_iterator_dangles :
    ∃ context,
      Executes .mainnet (fun _ _ => True) (first 1600000000) context ∧
        context.idx64PreviousSecondary (-2) = .error .dangling ∧
          ¬IteratorsRight .mainnet (fun _ _ => True) context := by
  have removes :
      ∃ stored removed,
        (first 1600000000).perform .mainnet (.idx64Store 1 2 0 1 9) =
            .ok stored ∧
          stored.perform .mainnet (.idx64Remove 0) = .ok removed ∧
            removed.idx64PreviousSecondary (-2) = .error .dangling ∧
              removed.itrCache.endIteratorToTable = [0] ∧
                removed.store.tables = [] :=
    ⟨_, _, rfl, rfl, rfl, rfl, rfl⟩
  obtain ⟨stored, removed, stores, removes, dangles, ends, tables⟩ := removes
  refine
    ⟨removed, .call (.call .start trivial stores) trivial removes, dangles,
      ?_⟩
  intro right
  obtain ⟨tab, member, _⟩ :=
    right.itr.endIterators 0 (by rw [ends]; exact List.mem_cons_self)
  rw [tables] at member
  cases member

end ApplyContext

end GxbCore.Contract
