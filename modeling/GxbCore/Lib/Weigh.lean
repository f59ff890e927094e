import Mathlib.Algebra.Order.BigOperators.Group.List
import Mathlib.Algebra.Order.Ring.Nat
import Mathlib.Data.List.Basic

/-!
# Weighing entries against a threshold

A loop over weighted entries: a check says of each of them whether it counts,
and may change a state; the weights are added up in 32 bits, and the loop stops
as soon as the sum reaches the threshold.

The sum never exceeds the weight of the entries that count, wrapped or not.  It
is that weight as long as no entry takes it from below the threshold to `2 ^ 32`
or more.
-/

namespace GxbCore

variable {α σ : Type}

/-- Where a weighing ended. -/
structure Tally (σ : Type) where
  total : UInt32
  met : Bool
  state : σ

/-- Add up the entries that count, until the threshold is met. -/
def weigh (check : α → σ → Bool × σ) (threshold : UInt32) :
    List (α × UInt16) → UInt32 → σ → Tally σ
  | [], total, state => ⟨total, false, state⟩
  | (item, weight) :: rest, total, state =>
      match check item state with
      | (true, state) =>
          let total := total + weight.toUInt32
          if threshold ≤ total then
            ⟨total, true, state⟩
          else
            weigh check threshold rest total state
      | (false, state) => weigh check threshold rest total state

/-- The weights of the entries with a property. -/
def weights (counts : α → Prop) [DecidablePred counts]
    (entries : List (α × UInt16)) : List Nat :=
  (entries.filter fun entry => decide (counts entry.1)).map
    fun entry => entry.2.toNat

/-- No entry takes a sum from below the threshold to `2 ^ 32` or more. -/
def NoJump (threshold : UInt32) (start : Nat) (values : List Nat) : Prop :=
  ∀ chosen value, List.Sublist (chosen ++ [value]) values →
    start + chosen.sum < threshold.toNat →
    start + chosen.sum + value < 2 ^ 32

section Weights

variable {counts other : α → Prop} [DecidablePred counts]
  [DecidablePred other]

theorem weights_cons_pos {item : α} {weight : UInt16}
    {rest : List (α × UInt16)} (isCounted : counts item) :
    weights counts ((item, weight) :: rest) =
      weight.toNat :: weights counts rest := by
  simp [weights, isCounted]

theorem weights_cons_neg {item : α} {weight : UInt16}
    {rest : List (α × UInt16)} (notCounted : ¬ counts item) :
    weights counts ((item, weight) :: rest) = weights counts rest := by
  simp [weights, notCounted]

theorem weights_sum_mono {entries : List (α × UInt16)}
    (implies : ∀ entry ∈ entries, counts entry.1 → other entry.1) :
    (weights counts entries).sum ≤ (weights other entries).sum := by
  induction entries with
  | nil => exact Nat.le_refl _
  | cons entry rest ih =>
      obtain ⟨item, weight⟩ := entry
      have below :=
        ih
          (fun other member =>
            implies other (List.mem_cons_of_mem _ member))
      by_cases first : counts item
      · have second := implies (item, weight) List.mem_cons_self first
        rw [weights_cons_pos first, weights_cons_pos second,
          List.sum_cons, List.sum_cons]
        omega
      · rw [weights_cons_neg first]
        by_cases second : other item
        · rw [weights_cons_pos second, List.sum_cons]
          omega
        · rw [weights_cons_neg second]
          exact below

/-- Entries that count for one or for another, never for both, weigh no more
than all of them. -/
theorem weights_sum_add_le {entries : List (α × UInt16)}
    (apart : ∀ item, counts item → ¬ other item) :
    (weights counts entries).sum + (weights other entries).sum ≤
      (entries.map (·.2.toNat)).sum := by
  induction entries with
  | nil => exact Nat.le_refl _
  | cons entry rest ih =>
      obtain ⟨item, weight⟩ := entry
      rw [List.map_cons, List.sum_cons]
      show _ ≤ weight.toNat + (rest.map (·.2.toNat)).sum
      by_cases first : counts item
      · rw [weights_cons_pos first, weights_cons_neg (apart item first),
          List.sum_cons]
        omega
      · rw [weights_cons_neg first]
        by_cases second : other item
        · rw [weights_cons_pos second, List.sum_cons]
          omega
        · rw [weights_cons_neg second]
          omega

end Weights

theorem NoJump.of_sum_lt {threshold : UInt32} {start : Nat}
    {values : List Nat} (low : start + values.sum < 2 ^ 32) :
    NoJump threshold start values := by
  intro chosen value inside _
  have bound := inside.sum_le_sum (fun _ _ => Nat.zero_le _)
  rw [List.sum_append, List.sum_singleton] at bound
  omega

theorem NoJump.of_append {threshold : UInt32} {start : Nat}
    {left right : List Nat} (noJump : NoJump threshold start (left ++ right)) :
    NoJump threshold start left ∧
      NoJump threshold (start + left.sum) right := by
  constructor
  · intro chosen value inside
    exact noJump chosen value
      (inside.trans (List.sublist_append_left left right))
  · intro chosen value inside low
    have whole :=
      noJump (left ++ chosen) value
        (by
          rw [List.append_assoc]
          exact (List.append_sublist_append_left left).mpr inside)
        (by rw [List.sum_append]; omega)
    rw [List.sum_append] at whole
    omega

theorem NoJump.tail {threshold : UInt32} {start value : Nat}
    {rest : List Nat} (noJump : NoJump threshold start (value :: rest)) :
    NoJump threshold start rest ∧
      NoJump threshold (start + value) rest := by
  constructor
  · intro chosen last inside
    exact noJump chosen last (inside.trans (List.sublist_cons_self _ _))
  · have split := @NoJump.of_append threshold start [value] rest noJump
    simpa using split.2

theorem toNat_add_weight (total : UInt32) (weight : UInt16) :
    (total + weight.toUInt32).toNat =
      (total.toNat + weight.toNat) % 2 ^ 32 := by
  rw [UInt32.toNat_add, UInt16.toNat_toUInt32]

section Weigh

variable {check : α → σ → Bool × σ} {threshold : UInt32}
  {entries : List (α × UInt16)} {total : UInt32} {state : σ}
  {keeps : σ → Prop} {counts must : α → Prop}

/-- The loop stops early only at the threshold. -/
theorem weigh_met
    (met : (weigh check threshold entries total state).met = true) :
    threshold ≤ (weigh check threshold entries total state).total := by
  fun_induction weigh check threshold entries total state with
  | case1 => cases met
  | case2 item weight rest total state next checked sum isReached =>
      exact isReached
  | case3 item weight rest total state next checked sum notReached ih =>
      exact ih met
  | case4 item weight rest total state next checked ih =>
      exact ih met

/-- A loop that goes to the end stays below the threshold. -/
theorem weigh_not_met (below : total < threshold)
    (notMet : (weigh check threshold entries total state).met = false) :
    (weigh check threshold entries total state).total < threshold := by
  fun_induction weigh check threshold entries total state with
  | case1 => exact below
  | case2 => cases notMet
  | case3 item weight rest total state next checked sum notReached ih =>
      exact ih (UInt32.not_le.mp notReached) notMet
  | case4 item weight rest total state next checked ih =>
      exact ih below notMet

/-- A loop that goes to the end goes on with what follows. -/
theorem weigh_append {later : List (α × UInt16)}
    (notMet : (weigh check threshold entries total state).met = false) :
    weigh check threshold (entries ++ later) total state =
      weigh check threshold later
        (weigh check threshold entries total state).total
        (weigh check threshold entries total state).state := by
  fun_induction weigh check threshold entries total state with
  | case1 => rfl
  | case2 => cases notMet
  | case3 item weight rest total state next checked sum notReached ih =>
      rw [← ih notMet, List.cons_append, weigh, checked]
      exact if_neg notReached
  | case4 item weight rest total state next checked ih =>
      rw [← ih notMet, List.cons_append, weigh, checked]

/-- A loop that stops early does not come to what follows. -/
theorem weigh_append_met {later : List (α × UInt16)}
    (met : (weigh check threshold entries total state).met = true) :
    weigh check threshold (entries ++ later) total state =
      weigh check threshold entries total state := by
  fun_induction weigh check threshold entries total state with
  | case1 => cases met
  | case2 item weight rest total state next checked sum isReached =>
      rw [List.cons_append, weigh, checked]
      exact if_pos isReached
  | case3 item weight rest total state next checked sum notReached ih =>
      rw [← ih met, List.cons_append, weigh, checked]
      exact if_neg notReached
  | case4 item weight rest total state next checked ih =>
      rw [← ih met, List.cons_append, weigh, checked]

theorem weigh_map {β : Type} {view : β → α} {entries : List (β × UInt16)} :
    weigh check threshold (entries.map (Prod.map view id)) total state =
      weigh (fun item => check (view item)) threshold entries total state := by
  induction entries generalizing total state with
  | nil => rfl
  | cons entry rest ih =>
      obtain ⟨item, weight⟩ := entry
      simp only [List.map_cons, Prod.map, id, weigh, ih]

structure Checks (check : α → σ → Bool × σ) (keeps : σ → Prop)
    (counts must : α → Prop) (item : α) : Prop where
  kept : ∀ state, keeps state → keeps (check item state).2
  sound : ∀ state, keeps state → (check item state).1 = true → counts item
  complete :
    ∀ state, keeps state → must item → (check item state).1 = true

/-- A call of the check, with its result. -/
theorem Checks.result {item : α} {counted : Bool} {next : σ}
    (checks : Checks check keeps counts must item) (kept : keeps state)
    (checked : check item state = (counted, next)) :
    keeps next ∧ (counted = true → counts item) ∧
      (must item → counted = true) := by
  have keptNext := checks.kept state kept
  have sound := checks.sound state kept
  have complete := checks.complete state kept
  rw [checked] at keptNext sound complete
  exact ⟨keptNext, sound, complete⟩

theorem weigh_keeps
    (checks : ∀ entry ∈ entries, Checks check keeps counts must entry.1)
    (kept : keeps state) :
    keeps (weigh check threshold entries total state).state := by
  fun_induction weigh check threshold entries total state with
  | case1 => exact kept
  | case2 item weight rest total state next checked sum isReached =>
      exact ((checks _ List.mem_cons_self).result kept checked).1
  | case3 item weight rest total state next checked sum notReached ih =>
      have keptNext := ((checks _ List.mem_cons_self).result kept checked).1
      exact ih (List.forall_mem_cons.mp checks).2 keptNext
  | case4 item weight rest total state next checked ih =>
      have keptNext := ((checks _ List.mem_cons_self).result kept checked).1
      exact ih (List.forall_mem_cons.mp checks).2 keptNext

theorem add_weight_le (total : UInt32) (weight : UInt16) :
    (total + weight.toUInt32).toNat ≤ total.toNat + weight.toNat := by
  rw [toNat_add_weight]
  exact Nat.mod_le _ _

/-- The sum is at most the weight of the entries that may count. -/
theorem weigh_total_le [DecidablePred counts]
    (checks : ∀ entry ∈ entries, Checks check keeps counts must entry.1)
    (kept : keeps state) :
    (weigh check threshold entries total state).total.toNat ≤
      total.toNat + (weights counts entries).sum := by
  fun_induction weigh check threshold entries total state with
  | case1 => exact Nat.le_add_right _ _
  | case2 item weight rest total state next checked sum isReached =>
      obtain ⟨_, sound, _⟩ :=
        (checks _ List.mem_cons_self).result kept checked
      have wrapped := add_weight_le total weight
      rw [weights_cons_pos (sound rfl), List.sum_cons]
      exact Nat.le_trans wrapped (by omega)
  | case3 item weight rest total state next checked sum notReached ih =>
      obtain ⟨keptNext, sound, _⟩ :=
        (checks _ List.mem_cons_self).result kept checked
      have bound :=
        ih (List.forall_mem_cons.mp checks).2 keptNext
      have wrapped : sum.toNat ≤ total.toNat + weight.toNat :=
        add_weight_le total weight
      rw [weights_cons_pos (sound rfl), List.sum_cons]
      omega
  | case4 item weight rest total state next checked ih =>
      obtain ⟨keptNext, _⟩ :=
        (checks _ List.mem_cons_self).result kept checked
      have bound :=
        ih (List.forall_mem_cons.mp checks).2 keptNext
      by_cases counted : counts item
      · rw [weights_cons_pos counted, List.sum_cons]
        omega
      · rw [weights_cons_neg counted]
        exact bound

/-- Where no sum jumps, the entries that must count are all in the sum. -/
theorem weigh_total_ge [DecidablePred counts] [DecidablePred must]
    (checks : ∀ entry ∈ entries, Checks check keeps counts must entry.1)
    (kept : keeps state)
    (noJump : NoJump threshold total.toNat (weights counts entries))
    (below : total.toNat < threshold.toNat)
    (notMet : (weigh check threshold entries total state).met = false) :
    total.toNat + (weights must entries).sum ≤
      (weigh check threshold entries total state).total.toNat := by
  fun_induction weigh check threshold entries total state with
  | case1 => exact Nat.le_refl _
  | case2 => cases notMet
  | case3 item weight rest total state next checked sum notReached ih =>
      obtain ⟨keptNext, sound, _⟩ :=
        (checks _ List.mem_cons_self).result kept checked
      rw [weights_cons_pos (sound rfl)] at noJump
      -- the sum does not wrap here
      have exact : sum.toNat = total.toNat + weight.toNat := by
        have fits := noJump [] weight.toNat (by simp) (by simpa using below)
        rw [toNat_add_weight, Nat.mod_eq_of_lt (by simpa using fits)]
      have stillBelow : sum.toNat < threshold.toNat := by
        rw [← UInt32.lt_iff_toNat_lt]
        exact UInt32.not_le.mp notReached
      have bound :=
        ih (List.forall_mem_cons.mp checks).2 keptNext
          (by rw [exact]; exact noJump.tail.2) stillBelow notMet
      by_cases required : must item
      · rw [weights_cons_pos required, List.sum_cons]
        omega
      · rw [weights_cons_neg required]
        omega
  | case4 item weight rest total state next checked ih =>
      obtain ⟨keptNext, _, complete⟩ :=
        (checks _ List.mem_cons_self).result kept checked
      have notRequired : ¬ must item := fun required => by
        cases complete required
      rw [weights_cons_neg notRequired]
      refine ih (List.forall_mem_cons.mp checks).2 keptNext
        ?_ below notMet
      by_cases counted : counts item
      · rw [weights_cons_pos counted] at noJump
        exact noJump.tail.1
      · rw [weights_cons_neg counted] at noJump
        exact noJump

end Weigh

section Exact

variable {check : α → σ → Bool × σ} {threshold : UInt32}
  {entries : List (α × UInt16)} {total : UInt32} {state : σ}
  {counts other : α → Prop} [DecidablePred counts] [DecidablePred other]

/-- The loop goes on: nothing was counted yet, or not enough. -/
def StillOpen (threshold : UInt32) (values : List Nat) : Prop :=
  values = [] ∨ values.sum < threshold.toNat

theorem StillOpen.of_sublist {few many : List Nat}
    (stillOpen : StillOpen threshold many) (fewer : List.Sublist few many) :
    StillOpen threshold few := by
  rcases stillOpen with none | low
  · left
    exact List.sublist_nil.mp (none ▸ fewer)
  · right
    exact Nat.lt_of_le_of_lt
      (fewer.sum_le_sum fun _ _ => Nat.zero_le _) low

theorem NoJump.of_sublist {few many : List Nat} {start : Nat}
    (noJump : NoJump threshold start many) (fewer : List.Sublist few many) :
    NoJump threshold start few :=
  fun chosen value inside => noJump chosen value (inside.trans fewer)

theorem weights_append (done rest : List (α × UInt16)) :
    weights counts (done ++ rest) =
      weights counts done ++ weights counts rest := by
  simp [weights]

theorem weights_congr {entries : List (α × UInt16)}
    (same : ∀ item, counts item ↔ other item) :
    weights counts entries = weights other entries := by
  simp only [weights, same]

theorem weights_map {β : Type} {view : β → α} {entries : List (β × UInt16)} :
    weights counts (entries.map (Prod.map view id)) =
      weights (fun item => counts (view item)) entries := by
  simp [weights, List.filter_map, Function.comp_def]

theorem weights_sublist (implies : ∀ item, counts item → other item)
    (entries : List (α × UInt16)) :
    List.Sublist (weights counts entries) (weights other entries) := by
  apply List.Sublist.map
  apply List.monotone_filter_right
  intro entry isCounted
  simp only [decide_eq_true_eq] at isCounted ⊢
  exact implies entry.1 isCounted

theorem weights_concat_pos {done : List (α × UInt16)} {item : α}
    {weight : UInt16} (isCounted : counts item) :
    weights counts (done ++ [(item, weight)]) =
      weights counts done ++ [weight.toNat] := by
  rw [weights_append, weights_cons_pos isCounted]
  rfl

theorem weights_concat_neg {done : List (α × UInt16)} {item : α}
    {weight : UInt16} (notCounted : ¬ counts item) :
    weights counts (done ++ [(item, weight)]) = weights counts done := by
  rw [weights_append, weights_cons_neg notCounted]
  simp [weights]

/-- The sum does not wrap where the loop goes on. -/
theorem StillOpen.added {done rest : List (α × UInt16)} {item : α}
    {weight : UInt16} (stillOpen : StillOpen threshold (weights counts done))
    (noJump : NoJump threshold 0 (weights counts entries))
    (split : entries = done ++ (item, weight) :: rest) (isCounted : counts item)
    (exact : total.toNat = (weights counts done).sum) :
    (total + weight.toUInt32).toNat =
      (weights counts (done ++ [(item, weight)])).sum := by
  have inside :
      List.Sublist (weights counts done ++ [weight.toNat])
        (weights counts entries) := by
    rw [List.append_cons] at split
    rw [← weights_concat_pos isCounted, split, weights_append _ rest]
    exact List.sublist_append_left _ _
  have small : (weights counts done).sum + weight.toNat < 2 ^ 32 := by
    rcases stillOpen with none | low
    · have bound := weight.toNat_lt
      rw [none, List.sum_nil]
      omega
    · have fits := noJump _ _ inside (by omega)
      omega
  rw [toNat_add_weight, exact, Nat.mod_eq_of_lt small,
    weights_concat_pos isCounted, List.sum_append, List.sum_singleton]

/-- The rule for a loop whose checks are exact wherever it comes.  It ends at
some place, where what holds from entry to entry still holds; it ends before the
last entry only when the threshold is reached. -/
theorem weigh_rule {inv : List (α × UInt16) → σ → Prop}
    (round :
      ∀ done entry rest, entries = done ++ entry :: rest →
        StillOpen threshold (weights counts done) →
        ∀ state, inv done state →
          inv (done ++ [entry]) (check entry.1 state).2 ∧
            ((check entry.1 state).1 = true ↔ counts entry.1))
    (noJump : NoJump threshold 0 (weights counts entries))
    (start : inv [] state) :
    ∃ done rest, entries = done ++ rest ∧
      inv done (weigh check threshold entries 0 state).state ∧
      (StillOpen threshold (weights counts done) → rest = []) ∧
      (((weigh check threshold entries 0 state).met = true ∨
          threshold ≤ (weigh check threshold entries 0 state).total) ↔
        threshold.toNat ≤ (weights counts entries).sum) := by
  suffices general :
      ∀ (later done : List (α × UInt16)) (total : UInt32) (state : σ),
        entries = done ++ later →
        total.toNat = (weights counts done).sum →
        StillOpen threshold (weights counts done) →
        inv done state →
        ∃ done rest, entries = done ++ rest ∧
          inv done (weigh check threshold later total state).state ∧
          (StillOpen threshold (weights counts done) → rest = []) ∧
          (((weigh check threshold later total state).met = true ∨
              threshold ≤ (weigh check threshold later total state).total) ↔
            threshold.toNat ≤ (weights counts entries).sum) from
    general entries [] 0 state rfl rfl (.inl rfl) start
  intro later done total state split exact stillOpen holds
  fun_induction weigh check threshold later total state generalizing done with
  | case1 total state =>
      refine ⟨done, [], split, holds, fun _ => rfl, ?_⟩
      simp only [Bool.false_eq_true, false_or]
      rw [UInt32.le_iff_toNat_le, exact, split, List.append_nil]
  | case2 item weight rest total state next checked sum isReached =>
      obtain ⟨holdsNext, isExact⟩ :=
        round done (item, weight) rest split stillOpen state holds
      rw [checked] at holdsNext isExact
      have added :=
        stillOpen.added noJump split (isExact.mp rfl) exact
      rw [List.append_cons] at split
      have reached :
          threshold.toNat ≤
            (weights counts (done ++ [(item, weight)])).sum :=
        added ▸ UInt32.le_iff_toNat_le.mp isReached
      refine ⟨_, rest, split, holdsNext, ?_, ?_⟩
      · rintro (none | low)
        · rw [weights_concat_pos (isExact.mp rfl)] at none
          exact absurd none (by simp)
        · omega
      · rw [split, weights_append _ rest, List.sum_append]
        simp only [true_or, true_iff]
        omega
  | case3 item weight rest total state next checked sum notReached ih =>
      obtain ⟨holdsNext, isExact⟩ :=
        round done (item, weight) rest split stillOpen state holds
      rw [checked] at holdsNext isExact
      have added : sum.toNat = _ :=
        stillOpen.added noJump split (isExact.mp rfl) exact
      rw [UInt32.le_iff_toNat_le, added] at notReached
      exact ih _ (List.append_cons _ _ _ ▸ split) added
        (.inr (Nat.lt_of_not_le notReached)) holdsNext
  | case4 item weight rest total state next checked ih =>
      obtain ⟨holdsNext, isExact⟩ :=
        round done (item, weight) rest split stillOpen state holds
      rw [checked] at holdsNext isExact
      have same :=
        @weights_concat_neg α counts _ done item weight (by simpa using isExact)
      rw [← same] at exact stillOpen
      exact ih _ (List.append_cons _ _ _ ▸ split) exact
        stillOpen holdsNext

/-- What a loop whose checks are exact has come to. -/
theorem reached_done {done rest past later : List (α × UInt16)}
    {entry : α × UInt16} (ends : entries = done ++ rest)
    (ended : StillOpen threshold (weights counts done) → rest = [])
    (split : entries = past ++ entry :: later)
    (reached : StillOpen threshold (weights counts past)) :
    ∃ between, done = past ++ entry :: between := by
  have same : done ++ rest = past ++ entry :: later := ends.symm.trans split
  rcases List.append_eq_append_iff.mp same with
    ⟨more, pastIs, restIs⟩ | ⟨more, doneIs, laterIs⟩
  · -- the loop did not end before the entry
    have fewer : List.Sublist (weights counts done) (weights counts past) := by
      rw [pastIs, weights_append]
      exact List.sublist_append_left _ _
    rw [ended (reached.of_sublist fewer)] at restIs
    cases more with
    | nil => cases restIs
    | cons first others => cases restIs
  · cases more with
    | nil =>
        rw [List.nil_append] at laterIs
        have fewer :
            List.Sublist (weights counts done) (weights counts past) := by
          rw [doneIs, List.append_nil]
        rw [ended (reached.of_sublist fewer)] at laterIs
        cases laterIs
    | cons first others =>
        rw [List.cons_append] at laterIs
        injection laterIs with isEntry _
        exact ⟨others, by rw [doneIs, isEntry]⟩

/-- If what counts where the loop goes on counts in another sense too, then the
entries that count in this sense reach the threshold as well. -/
theorem reaches_of_open {done : List (α × UInt16)}
    (transfers :
      ∀ past entry later, entries = past ++ entry :: later →
        StillOpen threshold (weights counts (done ++ past)) →
        counts entry.1 → other entry.1)
    (sofar : (weights counts done).sum ≤ (weights other done).sum)
    (reaches : threshold.toNat ≤ (weights counts (done ++ entries)).sum) :
    threshold.toNat ≤ (weights other (done ++ entries)).sum := by
  induction entries generalizing done with
  | nil =>
      rw [List.append_nil] at reaches ⊢
      exact Nat.le_trans reaches sofar
  | cons entry rest ih =>
      by_cases stillOpen : StillOpen threshold (weights counts done)
      · have atEntry := transfers [] entry rest rfl
          (by rwa [List.append_nil])
        rw [List.append_cons] at reaches ⊢
        refine ih ?_ ?_ reaches
        · intro past later others split
          rw [List.append_assoc, List.singleton_append]
          exact transfers (entry :: past) later others
            (by rw [split, List.cons_append])
        · obtain ⟨item, weight⟩ := entry
          rw [weights_append, weights_append, List.sum_append,
            List.sum_append]
          have entries :=
            @weights_sum_mono α counts other _ _ [(item, weight)]
              (by simpa using atEntry)
          omega
      · -- the threshold was reached before
        have reached : threshold.toNat ≤ (weights counts done).sum :=
          Nat.le_of_not_lt fun low => stillOpen (.inr low)
        rw [weights_append, List.sum_append]
        omega

end Exact

section Partial

/-- Add up the entries that count, where a check may fail to return. -/
def weighSome (check : α → σ → Option (Bool × σ)) (threshold : UInt32) :
    List (α × UInt16) → UInt32 → σ → Option (Tally σ)
  | [], total, state => some ⟨total, false, state⟩
  | (item, weight) :: rest, total, state =>
      match check item state with
      | none => none
      | some (true, state) =>
          let total := total + weight.toUInt32
          if threshold ≤ total then
            some ⟨total, true, state⟩
          else
            weighSome check threshold rest total state
      | some (false, state) => weighSome check threshold rest total state

variable {check : α → σ → Option (Bool × σ)} {threshold : UInt32}
  {entries : List (α × UInt16)} {total : UInt32} {state : σ}
  {keeps : σ → Prop} {counts : α → Prop}

/-- Where every check returns, so does the loop. -/
theorem weighSome_returns
    (returns :
      ∀ entry ∈ entries, ∀ state, keeps state →
        ∃ counted next, check entry.1 state = some (counted, next) ∧
          keeps next)
    (kept : keeps state) :
    ∃ tally, weighSome check threshold entries total state = some tally ∧
      keeps tally.state := by
  induction entries generalizing total state with
  | nil => exact ⟨_, rfl, kept⟩
  | cons entry rest ih =>
      obtain ⟨item, weight⟩ := entry
      have later := fun state kept total =>
        @ih total state
          (fun entry member =>
            returns entry (List.mem_cons_of_mem _ member)) kept
      obtain ⟨counted, next, checked, keptNext⟩ :=
        returns (item, weight) List.mem_cons_self state kept
      cases counted with
      | false =>
          simp only [weighSome, checked]
          exact later next keptNext total
      | true =>
          simp only [weighSome, checked]
          split
          · exact ⟨_, rfl, keptNext⟩
          · exact later next keptNext _

/-- An entry whose check does not return is come to, unless the others meet the
threshold before. -/
theorem weighSome_eq_none [DecidablePred counts]
    (checks :
      ∀ entry ∈ entries, ∀ state counted next, keeps state →
        check entry.1 state = some (counted, next) →
        keeps next ∧ (counted = true → counts entry.1))
    (fails :
      ∃ entry ∈ entries, ∀ state, keeps state → check entry.1 state = none)
    (kept : keeps state)
    (low : total.toNat + (weights counts entries).sum < threshold.toNat) :
    weighSome check threshold entries total state = none := by
  induction entries generalizing total state with
  | nil =>
      obtain ⟨_, member, _⟩ := fails
      exact absurd member List.not_mem_nil
  | cons entry rest ih =>
      obtain ⟨item, weight⟩ := entry
      have first := checks (item, weight) List.mem_cons_self state
      rw [weighSome]
      split
      · rfl
      · next next checked =>
          obtain ⟨keptNext, isCounted⟩ := first _ _ kept checked
          rw [weights_cons_pos (isCounted rfl), List.sum_cons] at low
          have small := threshold.toNat_lt
          have added :
              (total + weight.toUInt32).toNat = total.toNat + weight.toNat := by
            rw [toNat_add_weight, Nat.mod_eq_of_lt (by omega)]
          have notReached : ¬ threshold ≤ total + weight.toUInt32 := by
            rw [UInt32.le_iff_toNat_le]
            omega
          simp only [if_neg notReached]
          apply ih _ _ keptNext (by omega)
          · intro entry member
            exact checks entry (List.mem_cons_of_mem _ member)
          · obtain ⟨entry, member, fail⟩ := fails
            rcases List.mem_cons.mp member with rfl | inRest
            · rw [fail state kept] at checked
              cases checked
            · exact ⟨entry, inRest, fail⟩
      · next next checked =>
          obtain ⟨keptNext, _⟩ := first _ _ kept checked
          have fewer :
              (weights counts rest).sum ≤
                (weights counts ((item, weight) :: rest)).sum := by
            by_cases counted : counts item
            · rw [weights_cons_pos counted, List.sum_cons]
              omega
            · rw [weights_cons_neg counted]
          apply ih _ _ keptNext (by omega)
          · intro entry member
            exact checks entry (List.mem_cons_of_mem _ member)
          · obtain ⟨entry, member, fail⟩ := fails
            rcases List.mem_cons.mp member with rfl | inRest
            · rw [fail state kept] at checked
              cases checked
            · exact ⟨entry, inRest, fail⟩

end Partial

end GxbCore
