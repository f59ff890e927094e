import GxbCore.DataMarket.DataTransactions
import Mathlib.Data.List.Nodup
import Mathlib.Logic.Relation

/-!
# Payments happen once

The status of a datasource is meant to move from `init` to `uploaded` and on to
`payed`, or from `init` to `error`.  The upload is the only operation that does
not look at the status that it replaces: after a payment it opens the datasource
for a second one.  In the runs in which no upload does that, every datasource of
a data transaction is paid at most once.
-/

namespace GxbCore.DataMarket

open Ledger

/-- A payment: the data transaction and the datasource. -/
abbrev Payment := Nat × AccountId

/-- The operations on data transactions. -/
inductive Operation where
  | create (o : DataTransactionCreateOperation)
  | update (o : DataTransactionUpdateOperation)
  | upload (o : DatasourceUploadOperation)
  | validateError (o : DatasourceValidateErrorOperation)
  | pay (o : PayDataTransactionOperation)
  deriving DecidableEq, Repr

namespace Operation

def doEvaluate (m : Market) : Operation → Except Fault Unit
  | create o => createEvaluate m o
  | update o => updateEvaluate m o
  | upload o => uploadEvaluate m o
  | validateError o => validateErrorEvaluate m o
  | pay o => payEvaluate m o

def doApply (readJson : SchemaReader) (m : Market) :
    Operation → Except Fault Market
  | create o => createApply readJson m o
  | update o => updateApply m o
  | upload o => uploadApply readJson m o
  | validateError o => validateErrorApply m o
  | pay o => payApply m o

/-- What the operation pays: a payment without a data transaction moves
nothing. -/
def paid (m : Market) : Operation → List Payment
  | pay o =>
      match m.findTransaction o.requestId with
      | none => []
      | some dto => [(dto.id, o.target)]
  | _ => []

end Operation

def SameTransactions (before after : Market) : Prop :=
  after.dataTransactions = before.dataTransactions ∧
    after.nextDataTransactionId = before.nextDataTransactionId

/-- A run from a database, with the payments it made.  Between the two halves of
an operation its fee is paid, and other code changes other objects at any
time. -/
inductive Run (readJson : SchemaReader) (permits : Market → Operation → Prop)
    (start : Market) : List Payment → Market → Prop
  | start : Run readJson permits start [] start
  | operation {payments : List Payment} {m feePaid after : Market}
      {o : Operation} (run : Run readJson permits start payments m)
      (meets : permits m o) (evaluates : o.doEvaluate m = .ok ())
      (same : SameTransactions m feePaid)
      (applies : o.doApply readJson feePaid = .ok after) :
      Run readJson permits start (payments ++ o.paid feePaid) after
  | expire {payments : List Payment} {m : Market} {lifetime : Nat}
      (run : Run readJson permits start payments m) :
      Run readJson permits start payments (checkDataTransaction lifetime m)
  | elsewhere {payments : List Payment} {m after : Market}
      (run : Run readJson permits start payments m)
      (same : SameTransactions m after) :
      Run readJson permits start payments after

/-- Uploads go to datasources that have not been paid and had no error. -/
def UploadsOpen (m : Market) : Operation → Prop
  | .upload o =>
      ∀ dto, m.findTransaction o.requestId = some dto →
        ∀ statusObj ∈ dto.datasourcesStatus,
          statusObj.datasource = o.datasource →
            statusObj.status = .init ∨ statusObj.status = .uploaded
  | _ => True

inductive DatasourceStatus.Move : DatasourceStatus → DatasourceStatus → Prop
  | upload : Move init uploaded
  | pay : Move uploaded payed
  | fail : Move init error

/-- A data transaction's status moves once, from `init`. -/
def StatusMoved (before after : UInt8) : Prop :=
  after = before ∨
    before = dataTransactionStatusInit ∧
      (after = dataTransactionStatusConfirmed ∨
        after = dataTransactionStatusUserRejected)

def EntryMoved (before after : DatasourceEntry) : Prop :=
  after.datasource = before.datasource ∧
    Relation.ReflTransGen DatasourceStatus.Move before.status after.status

def TransactionMoved (before after : DataTransaction) : Prop :=
  StatusMoved before.status after.status ∧
    List.Forall₂ EntryMoved before.datasourcesStatus after.datasourcesStatus

theorem StatusMoved.trans {first second third : UInt8}
    (before : StatusMoved first second) (after : StatusMoved second third) :
    StatusMoved first third := by
  rcases before with rfl | ⟨isInit, moved⟩
  · exact after
  · rcases after with rfl | ⟨again, _⟩
    · exact .inr ⟨isInit, moved⟩
    · subst again
      rcases moved with impossible | impossible
      · exact absurd impossible (by decide)
      · exact absurd impossible (by decide)

theorem EntryMoved.refl (entry : DatasourceEntry) : EntryMoved entry entry :=
  ⟨rfl, .refl⟩

theorem EntryMoved.trans {first second third : DatasourceEntry}
    (before : EntryMoved first second) (after : EntryMoved second third) :
    EntryMoved first third :=
  ⟨after.1.trans before.1, before.2.trans after.2⟩

theorem entriesMoved_refl (entries : List DatasourceEntry) :
    List.Forall₂ EntryMoved entries entries := by
  induction entries with
  | nil => exact .nil
  | cons entry rest ih =>
      exact .cons (EntryMoved.refl entry) ih

theorem entriesMoved_trans {first second third : List DatasourceEntry}
    (before : List.Forall₂ EntryMoved first second)
    (after : List.Forall₂ EntryMoved second third) :
    List.Forall₂ EntryMoved first third := by
  induction before generalizing third with
  | nil =>
      cases after
      exact .nil
  | cons moved _ ih =>
      cases after with
      | cons movedAgain rest =>
          exact .cons (moved.trans movedAgain) (ih rest)

theorem TransactionMoved.refl (dto : DataTransaction) :
    TransactionMoved dto dto :=
  ⟨.inl rfl, entriesMoved_refl dto.datasourcesStatus⟩

theorem TransactionMoved.trans {first second third : DataTransaction}
    (before : TransactionMoved first second)
    (after : TransactionMoved second third) : TransactionMoved first third :=
  ⟨before.1.trans after.1, entriesMoved_trans before.2 after.2⟩

/-- The frame of some steps: the data transactions that are older than the steps
are still there, moved forward, or they are gone for good. -/
def Moved (before after : Market) : Prop :=
  before.nextDataTransactionId ≤ after.nextDataTransactionId ∧
  ∀ dto ∈ after.dataTransactions,
    dto.id < before.nextDataTransactionId →
    ∃ old ∈ before.dataTransactions, old.id = dto.id ∧
      TransactionMoved old dto

variable {before after : Market}

theorem Moved.of_same (same : SameTransactions before after) :
    Moved before after := by
  refine ⟨Nat.le_of_eq same.2.symm, ?_⟩
  intro dto member _
  rw [same.1] at member
  exact ⟨dto, member, rfl, TransactionMoved.refl dto⟩

theorem Moved.trans {first second third : Market}
    (before : Moved first second) (after : Moved second third) :
    Moved first third := by
  refine ⟨Nat.le_trans before.1 after.1, ?_⟩
  intro dto member older
  obtain ⟨middle, middleMember, sameId, movedAgain⟩ :=
    after.2 dto member (Nat.lt_of_lt_of_le older before.1)
  obtain ⟨old, oldMember, oldId, moved⟩ :=
    before.2 middle middleMember (sameId ▸ older)
  exact ⟨old, oldMember, oldId.trans sameId, moved.trans movedAgain⟩

/-- The entries of one datasource have one status. -/
def SameStatus (dto : DataTransaction) : Prop :=
  ∀ entry ∈ dto.datasourcesStatus, ∀ other ∈ dto.datasourcesStatus,
    entry.datasource = other.datasource → entry.status = other.status

/-- Well-formedness: the ids are distinct and used up, and a datasource that is
listed twice has one status. -/
structure WellFormed (m : Market) : Prop where
  distinct : (m.dataTransactions.map (·.id)).Nodup
  used : ∀ dto ∈ m.dataTransactions, dto.id < m.nextDataTransactionId
  alike : ∀ dto ∈ m.dataTransactions, SameStatus dto

theorem WellFormed.of_same
    (same : SameTransactions before after) (ok : WellFormed before) :
    WellFormed after := by
  refine ⟨?_, ?_, ?_⟩
  · rw [same.1]
    exact ok.distinct
  · rw [same.1, same.2]
    exact ok.used
  · rw [same.1]
    exact ok.alike

def Open (m : Market) (payment : Payment) : Prop :=
  ∃ dto ∈ m.dataTransactions, dto.id = payment.1 ∧
    ∃ entry ∈ dto.datasourcesStatus,
      entry.datasource = payment.2 ∧ entry.status = .uploaded

/-- The payment is done: its datasource is paid wherever it is still listed. -/
def Done (m : Market) (payment : Payment) : Prop :=
  payment.1 < m.nextDataTransactionId ∧
  ∀ dto ∈ m.dataTransactions, dto.id = payment.1 →
    ∀ entry ∈ dto.datasourcesStatus,
      entry.datasource = payment.2 → entry.status = .payed

structure StepOk (before : Market) (payments : List Payment)
    (after : Market) : Prop where
  moved : Moved before after
  wellFormed : WellFormed after
  single : payments.Nodup
  opened : ∀ payment ∈ payments, Open before payment
  done : ∀ payment ∈ payments, Done after payment

theorem StepOk.unpaid (moved : Moved before after ∧ WellFormed after) :
    StepOk before [] after where
  moved := moved.1
  wellFormed := moved.2
  single := List.nodup_nil
  opened _ member := absurd member List.not_mem_nil
  done _ member := absurd member List.not_mem_nil

theorem StepOk.of_same
    (same : SameTransactions before after) (ok : WellFormed before) :
    StepOk before [] after :=
  StepOk.unpaid ⟨Moved.of_same same, ok.of_same same⟩

theorem payed_stays {status : DatasourceStatus}
    (moves : Relation.ReflTransGen DatasourceStatus.Move .payed status) :
    status = .payed := by
  induction moves with
  | refl => rfl
  | tail _ move ih =>
      subst ih
      cases move

theorem entry_before {before after : List DatasourceEntry}
    (moved : List.Forall₂ EntryMoved before after) {entry : DatasourceEntry}
    (member : entry ∈ after) : ∃ old ∈ before, EntryMoved old entry := by
  induction moved with
  | nil => exact absurd member List.not_mem_nil
  | @cons old new _ _ first _ ih =>
      rcases List.mem_cons.mp member with rfl | later
      · exact ⟨old, List.mem_cons_self, first⟩
      · obtain ⟨found, foundMember, foundMoved⟩ := ih later
        exact ⟨found, List.mem_cons_of_mem _ foundMember, foundMoved⟩

theorem Done.moved {payment : Payment}
    (done : Done before payment) (moved : Moved before after) :
    Done after payment := by
  refine ⟨Nat.lt_of_lt_of_le done.1 moved.1, ?_⟩
  intro dto member isPaid entry entryMember isDatasource
  obtain ⟨old, oldMember, sameId, _, entries⟩ :=
    moved.2 dto member (isPaid ▸ done.1)
  obtain ⟨oldEntry, oldEntryMember, sameDatasource, moves⟩ :=
    entry_before entries entryMember
  have wasPayed : oldEntry.status = .payed :=
    done.2 old oldMember (sameId.trans isPaid) oldEntry oldEntryMember
      (sameDatasource.symm.trans isDatasource)
  rw [wasPayed] at moves
  exact payed_stays moves

theorem Open.not_done {m : Market} {payment : Payment}
    (opened : Open m payment) : ¬ Done m payment := by
  rintro ⟨_, done⟩
  obtain ⟨dto, member, isPaid, entry, entryMember, isDatasource, uploaded⟩ :=
    opened
  have payed := done dto member isPaid entry entryMember isDatasource
  rw [uploaded] at payed
  cases payed

section Marks

variable {dto : DataTransaction} {datasource : AccountId}
  {status : DatasourceStatus}

theorem mem_setDatasourceStatus {entry : DatasourceEntry}
    (member :
      entry ∈
        (dto.setDatasourceStatus datasource status).datasourcesStatus) :
    (entry.datasource = datasource ∧ entry.status = status) ∨
      (entry.datasource ≠ datasource ∧ entry ∈ dto.datasourcesStatus) := by
  obtain ⟨old, oldMember, isEntry⟩ := List.mem_map.mp member
  by_cases isDatasource : old.datasource = datasource
  · rw [if_pos isDatasource] at isEntry
    subst isEntry
    exact .inl ⟨isDatasource, rfl⟩
  · rw [if_neg isDatasource] at isEntry
    subst isEntry
    exact .inr ⟨isDatasource, oldMember⟩

theorem SameStatus.set (same : SameStatus dto) :
    SameStatus (dto.setDatasourceStatus datasource status) := by
  intro entry member other otherMember isSame
  rcases mem_setDatasourceStatus member with
    ⟨isDatasource, isStatus⟩ | ⟨isOther, oldMember⟩
  · rcases mem_setDatasourceStatus otherMember with
      ⟨_, otherStatus⟩ | ⟨differs, _⟩
    · rw [isStatus, otherStatus]
    · exact absurd (isSame.symm.trans isDatasource) differs
  · rcases mem_setDatasourceStatus otherMember with
      ⟨isDatasource, _⟩ | ⟨_, otherOld⟩
    · exact absurd (isSame.trans isDatasource) isOther
    · exact same entry oldMember other otherOld isSame

/-- Setting a status that every entry of the datasource may move to. -/
theorem transactionMoved_set
    (moves :
      ∀ entry ∈ dto.datasourcesStatus, entry.datasource = datasource →
        Relation.ReflTransGen DatasourceStatus.Move entry.status status) :
    TransactionMoved dto (dto.setDatasourceStatus datasource status) := by
  refine ⟨.inl rfl, ?_⟩
  unfold DataTransaction.setDatasourceStatus
  generalize dto.datasourcesStatus = entries at moves
  induction entries with
  | nil => exact .nil
  | cons entry rest ih =>
      refine .cons ?_ (ih fun other member =>
        moves other (List.mem_cons_of_mem entry member))
      by_cases isDatasource : entry.datasource = datasource
      · simp only [if_pos isDatasource]
        exact ⟨rfl, moves entry List.mem_cons_self isDatasource⟩
      · simp only [if_neg isDatasource]
        exact EntryMoved.refl entry

end Marks

structure Changes (before : Market) (dto : DataTransaction)
    (change : DataTransaction → DataTransaction) (after : Market) :
    Prop where
  transactions :
    after.dataTransactions =
      before.dataTransactions.map fun other =>
        if other.id = dto.id then change other else other
  next : after.nextDataTransactionId = before.nextDataTransactionId

theorem WellFormed.eq_of_id {m : Market} (ok : WellFormed m)
    {dto other : DataTransaction} (member : dto ∈ m.dataTransactions)
    (otherMember : other ∈ m.dataTransactions) (sameId : other.id = dto.id) :
    other = dto :=
  List.inj_on_of_nodup_map ok.distinct otherMember member sameId

section Change

variable {before after : Market} {dto : DataTransaction}
  {change : DataTransaction → DataTransaction}

theorem Changes.mem (changes : Changes before dto change after)
    (ok : WellFormed before) (member : dto ∈ before.dataTransactions)
    {other : DataTransaction} (otherMember : other ∈ after.dataTransactions) :
    other = change dto ∨
      (other ∈ before.dataTransactions ∧ other.id ≠ dto.id) := by
  rw [changes.transactions] at otherMember
  obtain ⟨old, oldMember, isOther⟩ := List.mem_map.mp otherMember
  by_cases isChanged : old.id = dto.id
  · rw [if_pos isChanged, ok.eq_of_id member oldMember isChanged] at isOther
    exact .inl isOther.symm
  · rw [if_neg isChanged] at isOther
    subst isOther
    exact .inr ⟨oldMember, isChanged⟩

theorem Changes.stepOk (changes : Changes before dto change after)
    (ok : WellFormed before) (member : dto ∈ before.dataTransactions)
    (keepsId : ∀ other, (change other).id = other.id)
    (alike : SameStatus (change dto))
    (moved : TransactionMoved dto (change dto)) :
    Moved before after ∧ WellFormed after := by
  constructor
  · refine ⟨Nat.le_of_eq changes.next.symm, ?_⟩
    intro other otherMember _
    rcases changes.mem ok member otherMember with rfl | ⟨old, _⟩
    · exact ⟨dto, member, (keepsId dto).symm, moved⟩
    · exact ⟨other, old, rfl, TransactionMoved.refl other⟩
  · have sameIds :
        after.dataTransactions.map (·.id) =
          before.dataTransactions.map (·.id) := by
      rw [changes.transactions, List.map_map]
      apply List.map_congr_left
      intro other _
      simp only [Function.comp_apply]
      split
      · exact keepsId other
      · rfl
    refine ⟨?_, ?_, ?_⟩
    · rw [sameIds]
      exact ok.distinct
    · intro other otherMember
      rw [changes.next]
      rcases changes.mem ok member otherMember with rfl | ⟨old, _⟩
      · rw [keepsId]
        exact ok.used dto member
      · exact ok.used other old
    · intro other otherMember
      rcases changes.mem ok member otherMember with rfl | ⟨old, _⟩
      · exact alike
      · exact ok.alike other old

end Change

section Operations

variable {readJson : SchemaReader} {m feePaid after : Market}
  {dto : DataTransaction} {o : PayDataTransactionOperation}

theorem findTransaction_mem {requestId : String}
    (found : m.findTransaction requestId = some dto) :
    dto ∈ m.dataTransactions :=
  List.mem_of_find?_eq_some found

theorem SameTransactions.findTransaction
    (same : SameTransactions m feePaid) (requestId : String) :
    feePaid.findTransaction requestId = m.findTransaction requestId := by
  unfold Market.findTransaction
  rw [same.1]

theorem createApply_eq_ok {o : DataTransactionCreateOperation}
    (applies : createApply readJson m o = .ok after) :
    ∃ dto,
      after.dataTransactions = m.dataTransactions ++ [dto] ∧
      after.nextDataTransactionId = m.nextDataTransactionId + 1 ∧
      dto.id = m.nextDataTransactionId ∧
      ∀ entry ∈ dto.datasourcesStatus, entry.status = .init := by
  unfold createApply at applies
  obtain ⟨status, _, applies⟩ := bind_eq_ok.mp applies
  obtain ⟨entries, lists, applies⟩ := bind_eq_ok.mp applies
  obtain rfl := Except.ok.inj applies
  refine ⟨_, rfl, rfl, rfl, ?_⟩
  intro entry member
  simp only at member
  unfold datasourcesOf at lists
  cases isLeague : o.leagueId with
  | some leagueId =>
      rw [isLeague] at lists
      obtain ⟨league, _, lists⟩ := bind_eq_ok.mp lists
      obtain rfl := Except.ok.inj lists
      obtain ⟨account, _, isEntry⟩ := List.mem_map.mp member
      rw [← isEntry]
  | none =>
      rw [isLeague] at lists
      obtain ⟨product, _, lists⟩ := bind_eq_ok.mp lists
      obtain rfl := Except.ok.inj lists
      rw [List.mem_singleton.mp member]

theorem create_stepOk {o : DataTransactionCreateOperation}
    (ok : WellFormed m) (applies : createApply readJson m o = .ok after) :
    StepOk m [] after := by
  obtain ⟨dto, transactions, next, isNew, areInit⟩ :=
    createApply_eq_ok applies
  have cases_mem :
      ∀ other ∈ after.dataTransactions,
        other ∈ m.dataTransactions ∨ other = dto := by
    intro other member
    rw [transactions] at member
    rcases List.mem_append.mp member with old | new
    · exact .inl old
    · exact .inr (List.mem_singleton.mp new)
  apply StepOk.unpaid
  refine ⟨⟨by omega, ?_⟩, ?_, ?_, ?_⟩
  · intro other member older
    rcases cases_mem other member with old | rfl
    · exact ⟨other, old, rfl, TransactionMoved.refl other⟩
    · omega
  · rw [transactions, List.map_append, List.nodup_append]
    refine ⟨ok.distinct, List.nodup_singleton _, ?_⟩
    intro id idMember other otherMember
    obtain ⟨old, oldMember, rfl⟩ := List.mem_map.mp idMember
    have isLast : other = dto.id := List.mem_singleton.mp otherMember
    have := ok.used old oldMember
    omega
  · intro other member
    rw [next]
    rcases cases_mem other member with old | rfl
    · exact Nat.lt_succ_of_lt (ok.used other old)
    · omega
  · intro other member
    rcases cases_mem other member with old | rfl
    · exact ok.alike other old
    · intro entry entryMember another anotherMember _
      rw [areInit entry entryMember, areInit another anotherMember]

theorem update_stepOk {o : DataTransactionUpdateOperation}
    (ok : WellFormed m) (same : SameTransactions m feePaid)
    (evaluates : updateEvaluate m o = .ok ())
    (applies : updateApply feePaid o = .ok after) : StepOk m [] after := by
  unfold updateEvaluate at evaluates
  obtain ⟨_, _, evaluates⟩ := bind_eq_ok.mp evaluates
  obtain ⟨_, _, evaluates⟩ := bind_eq_ok.mp evaluates
  obtain ⟨dto, found, evaluates⟩ := bind_eq_ok.mp evaluates
  obtain ⟨_, isInit, evaluates⟩ := bind_eq_ok.mp evaluates
  rw [orThrow_eq_ok] at found
  rw [fcAssert_eq_ok] at isInit evaluates
  unfold updateApply at applies
  rw [same.findTransaction, found] at applies
  obtain rfl := Except.ok.inj applies
  have member := findTransaction_mem found
  have changes :
      Changes m dto
        (fun obj =>
          { obj with
            status := o.newStatus
            memo := o.newMemo.getD obj.memo })
        (feePaid.modifyTransaction dto.id fun obj =>
          { obj with
            status := o.newStatus
            memo := o.newMemo.getD obj.memo }) :=
    ⟨by rw [← same.1]; rfl, same.2⟩
  apply StepOk.unpaid
  apply changes.stepOk ok member (fun _ => rfl) (ok.alike dto member)
  refine ⟨.inr ⟨isInit.symm, ?_⟩, entriesMoved_refl _⟩
  rcases evaluates with confirmed | rejected
  · exact .inl confirmed.symm
  · exact .inr rejected.symm

theorem Changes.set_stepOk {datasource : AccountId} {status : DatasourceStatus}
    (ok : WellFormed m) (member : dto ∈ m.dataTransactions)
    (changes : Changes m dto (·.setDatasourceStatus datasource status) after)
    (moves :
      ∀ entry ∈ dto.datasourcesStatus, entry.datasource = datasource →
        Relation.ReflTransGen DatasourceStatus.Move entry.status status) :
    Moved m after ∧ WellFormed after :=
  changes.stepOk ok member (fun _ => rfl) (ok.alike dto member).set
    (transactionMoved_set moves)

theorem recordCopyright_same {o : DatasourceUploadOperation}
    {copyrightHash : String} :
    SameTransactions m (recordCopyright m o dto copyrightHash) := by
  unfold recordCopyright
  split
  · split
    · exact ⟨rfl, rfl⟩
    · exact ⟨rfl, rfl⟩
  · exact ⟨rfl, rfl⟩

theorem uploadApply_changes {o : DatasourceUploadOperation}
    (found : m.findTransaction o.requestId = some dto)
    (applies : uploadApply readJson m o = .ok after) :
    Changes m dto (·.setDatasourceStatus o.datasource .uploaded) after := by
  unfold uploadApply at applies
  rw [found] at applies
  obtain ⟨verify, _, applies⟩ := bind_eq_ok.mp applies
  cases hash : o.copyrightHash with
  | none =>
      rw [hash] at applies
      obtain rfl := Except.ok.inj applies
      exact ⟨rfl, rfl⟩
  | some copyrightHash =>
      rw [hash] at applies
      obtain rfl := Except.ok.inj applies
      cases verify with
      | true => exact ⟨recordCopyright_same.1, recordCopyright_same.2⟩
      | false => exact ⟨rfl, rfl⟩

theorem Changes.of_same {change : DataTransaction → DataTransaction}
    (same : SameTransactions m feePaid)
    (changes : Changes feePaid dto change after) : Changes m dto change after :=
  ⟨by rw [← same.1]; exact changes.transactions,
    changes.next.trans same.2⟩

theorem upload_stepOk {o : DatasourceUploadOperation} (ok : WellFormed m)
    (same : SameTransactions m feePaid) (opens : UploadsOpen m (.upload o))
    (evaluates : uploadEvaluate m o = .ok ())
    (applies : uploadApply readJson feePaid o = .ok after) :
    StepOk m [] after := by
  unfold uploadEvaluate at evaluates
  obtain ⟨_, _, evaluates⟩ := bind_eq_ok.mp evaluates
  obtain ⟨_, _, evaluates⟩ := bind_eq_ok.mp evaluates
  obtain ⟨dto, found, _⟩ := bind_eq_ok.mp evaluates
  rw [orThrow_eq_ok] at found
  have changes :=
    (uploadApply_changes ((same.findTransaction _).trans found)
      applies).of_same same
  apply StepOk.unpaid
  apply changes.set_stepOk ok (findTransaction_mem found)
  intro entry member isDatasource
  rcases opens dto found entry member isDatasource with isInit | isUploaded
  · rw [isInit]
    exact .single .upload
  · rw [isUploaded]

theorem validateError_stepOk {o : DatasourceValidateErrorOperation}
    (ok : WellFormed m) (same : SameTransactions m feePaid)
    (evaluates : validateErrorEvaluate m o = .ok ())
    (applies : validateErrorApply feePaid o = .ok after) :
    StepOk m [] after := by
  unfold validateErrorEvaluate at evaluates
  obtain ⟨_, _, evaluates⟩ := bind_eq_ok.mp evaluates
  obtain ⟨_, _, evaluates⟩ := bind_eq_ok.mp evaluates
  obtain ⟨dto, found, evaluates⟩ := bind_eq_ok.mp evaluates
  obtain ⟨_, _, evaluates⟩ := bind_eq_ok.mp evaluates
  rw [orThrow_eq_ok] at found
  rw [fcAssert_eq_ok] at evaluates
  unfold validateErrorApply at applies
  rw [same.findTransaction, found] at applies
  obtain rfl := Except.ok.inj applies
  have changes :
      Changes feePaid dto (·.setDatasourceStatus o.datasource .error)
        (feePaid.modifyTransaction dto.id
          (·.setDatasourceStatus o.datasource .error)) :=
    ⟨rfl, rfl⟩
  apply StepOk.unpaid
  apply (changes.of_same same).set_stepOk ok (findTransaction_mem found)
  intro entry member isDatasource
  rw [evaluates entry member isDatasource]
  exact .single .fail

theorem updateLeaguePocs_same {leagueId : LeagueId} {productId : ObjectId}
    (returns : updateLeaguePocs m leagueId productId o = .ok after) :
    SameTransactions m after := by
  unfold updateLeaguePocs at returns
  obtain ⟨leagueObj, _, returns⟩ := bind_eq_ok.mp returns
  obtain ⟨weight, _, returns⟩ := bind_eq_ok.mp returns
  obtain rfl := Except.ok.inj returns
  exact ⟨rfl, rfl⟩

theorem payApply_changes (found : m.findTransaction o.requestId = some dto)
    (applies : payApply m o = .ok after) :
    Changes m dto (·.setDatasourceStatus o.target .payed) after := by
  unfold payApply at applies
  rw [found] at applies
  obtain ⟨db, _, applies⟩ := bind_eq_ok.mp applies
  cases isLeague : dto.leagueId with
  | none =>
      rw [isLeague] at applies
      obtain rfl := Except.ok.inj applies
      exact ⟨rfl, rfl⟩
  | some leagueId =>
      rw [isLeague] at applies
      have same := updateLeaguePocs_same applies
      exact ⟨same.1, same.2⟩

theorem pay_stepOk (ok : WellFormed m) (same : SameTransactions m feePaid)
    (evaluates : payEvaluate m o = .ok ())
    (applies : payApply feePaid o = .ok after) :
    StepOk m ((Operation.pay o).paid feePaid) after := by
  have sameFound := same.findTransaction o.requestId
  cases found : m.findTransaction o.requestId with
  | none =>
      rw [found] at sameFound
      have nothing : (Operation.pay o).paid feePaid = [] := by
        simp only [Operation.paid, sameFound]
      unfold payApply at applies
      rw [sameFound] at applies
      obtain rfl := Except.ok.inj applies
      rw [nothing]
      exact StepOk.of_same same ok
  | some dto =>
      rw [found] at sameFound
      have one : (Operation.pay o).paid feePaid = [(dto.id, o.target)] := by
        simp only [Operation.paid, sameFound]
      unfold payEvaluate at evaluates
      rw [found] at evaluates
      obtain ⟨_, _, evaluates⟩ := bind_eq_ok.mp evaluates
      obtain ⟨_, uploaded, _⟩ := bind_eq_ok.mp evaluates
      obtain ⟨opened, openedMember, isTarget, isUploaded⟩ :=
        fcAssert_eq_ok.mp uploaded
      have member := findTransaction_mem found
      have changes := (payApply_changes sameFound applies).of_same same
      have moved :=
        changes.set_stepOk ok member (by
          intro entry entryMember isDatasource
          have isSame :=
            ok.alike dto member entry entryMember opened openedMember
              (isDatasource.trans isTarget.symm)
          rw [isSame, isUploaded]
          exact .single .pay)
      rw [one]
      refine
        { moved := moved.1
          wellFormed := moved.2
          single := List.nodup_singleton _
          opened := ?_
          done := ?_ }
      · intro payment paid
        rw [List.mem_singleton.mp paid]
        exact ⟨dto, member, rfl, opened, openedMember, isTarget, isUploaded⟩
      · intro payment paid
        rw [List.mem_singleton.mp paid]
        refine ⟨?_, ?_⟩
        · rw [changes.next]
          exact ok.used dto member
        · intro other otherMember sameId entry entryMember isDatasource
          rcases changes.mem ok member otherMember with rfl | ⟨_, differs⟩
          · rcases mem_setDatasourceStatus entryMember with
              ⟨_, isPayed⟩ | ⟨isOther, _⟩
            · exact isPayed
            · exact absurd isDatasource isOther
          · exact absurd sameId differs

/-- Every operation keeps the order of the statuses, given that an upload finds
its datasource open. -/
theorem operation_stepOk {o : Operation} (ok : WellFormed m)
    (same : SameTransactions m feePaid) (opens : UploadsOpen m o)
    (evaluates : o.doEvaluate m = .ok ())
    (applies : o.doApply readJson feePaid = .ok after) :
    StepOk m (o.paid feePaid) after := by
  cases o with
  | create o =>
      have step := create_stepOk (ok.of_same same) applies
      exact StepOk.unpaid
        ⟨(Moved.of_same same).trans step.moved, step.wellFormed⟩
  | update o => exact update_stepOk ok same evaluates applies
  | upload o => exact upload_stepOk ok same opens evaluates applies
  | validateError o => exact validateError_stepOk ok same evaluates applies
  | pay o => exact pay_stepOk ok same evaluates applies

theorem expire_stepOk {lifetime : Nat} (ok : WellFormed m) :
    StepOk m [] (checkDataTransaction lifetime m) := by
  unfold checkDataTransaction
  split
  · apply StepOk.unpaid
    refine ⟨⟨Nat.le_refl _, ?_⟩, ?_, ?_, ?_⟩
    · intro dto member _
      exact ⟨dto, List.mem_of_mem_filter member, rfl,
        TransactionMoved.refl dto⟩
    · exact ok.distinct.sublist (List.filter_sublist.map _)
    · intro dto member
      exact ok.used dto (List.mem_of_mem_filter member)
    · intro dto member
      exact ok.alike dto (List.mem_of_mem_filter member)
  · exact StepOk.of_same ⟨rfl, rfl⟩ ok

end Operations

section Runs

variable {readJson : SchemaReader} {start m after : Market}
  {payments later : List Payment}

structure RunOk (start : Market) (payments : List Payment) (m : Market) :
    Prop where
  moved : Moved start m
  wellFormed : WellFormed m
  once : payments.Nodup
  done : ∀ payment ∈ payments, Done m payment

theorem RunOk.step {paid : List Payment} (ok : RunOk start payments m)
    (step : StepOk m paid after) : RunOk start (payments ++ paid) after where
  moved := ok.moved.trans step.moved
  wellFormed := step.wellFormed
  once := by
    rw [List.nodup_append]
    refine ⟨ok.once, step.single, ?_⟩
    rintro payment member other otherMember rfl
    exact (step.opened payment otherMember).not_done (ok.done payment member)
  done := by
    intro payment member
    rcases List.mem_append.mp member with before | now
    · exact (ok.done payment before).moved step.moved
    · exact step.done payment now

theorem RunOk.unpaid (ok : RunOk start payments m) (step : StepOk m [] after) :
    RunOk start payments after := by
  have next := ok.step step
  rw [List.append_nil] at next
  exact next

theorem Run.ok (run : Run readJson UploadsOpen start payments m)
    (wellFormed : WellFormed start) : RunOk start payments m := by
  induction run with
  | start =>
      exact ⟨Moved.of_same ⟨rfl, rfl⟩, wellFormed, List.nodup_nil,
        fun _ member => absurd member List.not_mem_nil⟩
  | operation _ meets evaluates same applies ih =>
      exact ih.step
        (operation_stepOk ih.wellFormed same meets evaluates
          applies)
  | expire _ ih =>
      exact ih.unpaid
        (expire_stepOk ih.wellFormed)
  | elsewhere _ same ih =>
      exact ih.unpaid
        (StepOk.of_same same ih.wellFormed)

theorem Run.append {permits : Market → Operation → Prop}
    (run : Run readJson permits start payments m)
    (continues : Run readJson permits m later after) :
    Run readJson permits start (payments ++ later) after := by
  induction continues with
  | start =>
      rw [List.append_nil]
      exact run
  | operation _ meets evaluates same applies ih =>
      rw [← List.append_assoc]
      exact .operation ih meets evaluates same applies
  | expire _ ih => exact .expire ih
  | elsewhere _ same ih =>
      exact .elsewhere ih same

/-- No datasource is paid twice, and statuses only move forward, from any moment
of a run to any later one. -/
theorem data_transactions_paid_once
    (genesis : start.dataTransactions = [])
    (run : Run readJson UploadsOpen start payments m)
    (continues : Run readJson UploadsOpen m later after) :
    (payments ++ later).Nodup ∧
    ∀ dto ∈ m.dataTransactions, ∀ dto' ∈ after.dataTransactions,
      dto'.id = dto.id → TransactionMoved dto dto' := by
  have wellFormed : WellFormed start := by
    refine ⟨?_, ?_, ?_⟩
    · rw [genesis]
      exact List.nodup_nil
    · rw [genesis]
      intro dto member
      exact absurd member List.not_mem_nil
    · rw [genesis]
      intro dto member
      exact absurd member List.not_mem_nil
  have ok := run.ok wellFormed
  refine ⟨((run.append continues).ok wellFormed).once, ?_⟩
  intro dto member dto' member' sameId
  obtain ⟨old, oldMember, oldId, moved⟩ :=
    (continues.ok ok.wellFormed).moved.2 dto' member'
      (sameId ▸ ok.wellFormed.used dto member)
  rw [ok.wellFormed.eq_of_id member oldMember (oldId.trans sameId)] at moved
  exact moved

section Sample

def plainMarket : Market where
  ledger :=
    { plainDatabase with
      accounts := [plainAccount 0, plainAccount 1, plainAccount 2]
      balances := [⟨0, 0, 1000⟩] }
  accounts :=
    [⟨"merchant", 0xffffffff, 0, 0⟩, ⟨"datasource", 0, 0xffffffff, 0⟩,
      ⟨"operator", 0, 0, 0xffffffff⟩]
  leagues := []
  leagueDataProducts := []
  freeDataProducts := [⟨1, 100, []⟩]
  otherObjects := []
  commissionPercent := ⟨1000, 1000, "operator", 100⟩
  dataTransactions := []
  nextDataTransactionId := 0
  pocs := []
  copyrights := []
  secondHandData := []

/-- The schemas of the sample are empty, so that nothing is read. -/
def noSchema : SchemaReader :=
  fun _ _ => .ok ""

def requested : Operation :=
  .create ⟨"request", .freeDataProduct 0, "", "", 0, 0, none⟩

def uploads : Operation :=
  .upload ⟨"request", 2, 1, none⟩

def pays : Operation :=
  .pay ⟨⟨0, 1⟩, 0, 1, ⟨100, 0⟩, "request"⟩

/-- The database after the request, with the status of the datasource and the
balances. -/
def askedMarket (status : DatasourceStatus)
    (balances : List AccountBalance) : Market :=
  { plainMarket with
    ledger := { plainMarket.ledger with balances := balances }
    dataTransactions :=
      [{ id := 0
         requestId := "request"
         productId := .freeDataProduct 0
         version := ""
         params := ""
         status := dataTransactionStatusConfirmed
         createDateTime := 0
         requester := 0
         leagueId := none
         memo := ""
         datasourcesStatus := [⟨1, status⟩] }]
    nextDataTransactionId := 1 }

theorem Run.next {permits : Market → Operation → Prop} {o : Operation}
    (run : Run readJson permits start payments m) (meets : permits m o)
    (evaluates : o.doEvaluate m = .ok ())
    (applies : o.doApply readJson m = .ok after) :
    Run readJson permits start (payments ++ o.paid m) after :=
  .operation run meets evaluates ⟨rfl, rfl⟩ applies

theorem asked_run {permits : Market → Operation → Prop}
    (meets : permits plainMarket requested) :
    Run noSchema permits plainMarket [] (askedMarket .init [⟨0, 0, 1000⟩]) :=
  Run.next .start meets (by decide) (by decide)

/-- A datasource uploads and is paid. -/
theorem data_transactions_paid_once_sample :
    plainMarket.dataTransactions = [] ∧
    Run noSchema UploadsOpen plainMarket [(0, 1)]
      (askedMarket .payed [⟨0, 0, 900⟩, ⟨1, 0, 90⟩, ⟨2, 0, 10⟩]) ∧
    [((0, 1) : Payment)].Nodup := by
  have asked : Run noSchema UploadsOpen plainMarket [] _ :=
    asked_run trivial
  have uploaded :
      Run noSchema UploadsOpen (askedMarket .init [⟨0, 0, 1000⟩]) []
        (askedMarket .uploaded [⟨0, 0, 1000⟩]) := by
    apply Run.next (o := uploads) .start _ (by decide) (by decide)
    intro dto found entry member _
    obtain rfl := Option.some.inj found
    rw [List.mem_singleton.mp member]
    exact .inl rfl
  have paid :
      Run noSchema UploadsOpen (askedMarket .init [⟨0, 0, 1000⟩]) [(0, 1)]
        (askedMarket .payed [⟨0, 0, 900⟩, ⟨1, 0, 90⟩, ⟨2, 0, 10⟩]) :=
    Run.next (o := pays) uploaded trivial (by decide) (by decide +kernel)
  exact ⟨rfl, asked.append paid,
    (data_transactions_paid_once rfl asked paid).1⟩

/-- An upload after the payment opens the datasource again: the merchant pays it
twice for one data transaction, and in between its status moves back. -/
theorem datasource_paid_twice :
    Run noSchema (fun _ _ => True) plainMarket [(0, 1), (0, 1)]
      (askedMarket .payed [⟨0, 0, 800⟩, ⟨1, 0, 180⟩, ⟨2, 0, 20⟩]) ∧
    ¬ [((0, 1) : Payment), (0, 1)].Nodup ∧
    ¬ TransactionMoved
      ((askedMarket .payed []).dataTransactions.getLast (by decide))
      ((askedMarket .uploaded []).dataTransactions.getLast (by decide)) := by
  refine ⟨?_, by decide, ?_⟩
  · have asked := @asked_run (fun _ _ => True) trivial
    have uploaded :
        Run noSchema (fun _ _ => True) plainMarket []
          (askedMarket .uploaded [⟨0, 0, 1000⟩]) :=
      Run.next (o := uploads) asked trivial (by decide) (by decide)
    have paid :
        Run noSchema (fun _ _ => True) plainMarket [(0, 1)]
          (askedMarket .payed [⟨0, 0, 900⟩, ⟨1, 0, 90⟩, ⟨2, 0, 10⟩]) :=
      Run.next (o := pays) uploaded trivial (by decide) (by decide +kernel)
    have again :
        Run noSchema (fun _ _ => True) plainMarket [(0, 1)]
          (askedMarket .uploaded [⟨0, 0, 900⟩, ⟨1, 0, 90⟩, ⟨2, 0, 10⟩]) :=
      Run.next (o := uploads) paid trivial (by decide) (by decide)
    exact Run.next (o := pays) again trivial (by decide)
      (by decide +kernel)
  · rintro ⟨_, entries⟩
    cases entries with
    | cons moved _ => exact absurd (payed_stays moved.2) (by decide)

end Sample

end Runs

end GxbCore.DataMarket
