import GxbCore.Protocol.Accounts

/-!
# The grammar of account names

`is_valid_name` scans a name label by label with two indices.  A string is the
list of its chars, and the char behind the last one is the zero char.
-/

namespace GxbCore.Protocol.AccountName

def findFirstOf (name : List Char) (c : Char) (start : Nat) : Option Nat :=
  ((name.drop start).findIdx? (· == c)).map (start + ·)

/-- `name[i]` -/
def charAt (name : List Char) (i : Nat) : Char :=
  name.getD i (Char.ofNat 0)

/-- `<let-dig>` -/
def isLetDig (c : Char) : Bool :=
  isLetter c || isDigit c

/-- `<let-dig-hyp>` -/
def isLetDigHyp (c : Char) : Bool :=
  isLetDig c || c == '-'

/-- What a round of the loop asks of the label between `start` and `stop`. -/
def checkLabel (name : List Char) (start stop : Nat) : Bool :=
  decide (GRAPHENE_MIN_ACCOUNT_NAME_LENGTH ≤ stop - start) &&
    isLetter (charAt name start) && isLetDig (charAt name (stop - 1)) &&
    (List.range' (start + 1) (stop - 1 - (start + 1))).all fun i =>
      isLetDigHyp (charAt name i)

theorem findFirstOf_eq_some {name : List Char} {c : Char} {start i : Nat}
    (found : findFirstOf name c start = some i) :
    start ≤ i ∧ i < name.length := by
  obtain ⟨idx, isIdx, place⟩ := Option.map_eq_some_iff.mp found
  obtain ⟨inside, _⟩ := List.findIdx?_eq_some_iff_getElem.mp isIdx
  rw [List.length_drop] at inside
  omega

/-- The loop of `is_valid_name`. -/
def scan (name : List Char) (start : Nat) : Bool :=
  match found : findFirstOf name '.' start with
  | none => checkLabel name start name.length
  | some stop => checkLabel name start stop && scan name (stop + 1)
termination_by name.length - start
decreasing_by
  obtain ⟨_, _⟩ := findFirstOf_eq_some found
  omega

def isValidName (name : List Char) : Bool :=
  decide (GRAPHENE_MIN_ACCOUNT_NAME_LENGTH ≤ name.length) &&
    decide (name.length ≤ GRAPHENE_MAX_ACCOUNT_NAME_LENGTH) && scan name 0

/-- A label starts with a letter, ends with a letter or digit and contains only
letters, digits and hyphens. -/
structure IsLabel (label : List Char) : Prop where
  length : GRAPHENE_MIN_ACCOUNT_NAME_LENGTH ≤ label.length
  first : ∃ c, label.head? = some c ∧ isLetter c
  last : ∃ c, label.getLast? = some c ∧ (isLetter c ∨ isDigit c)
  every : ∀ c ∈ label, isLetter c ∨ isDigit c ∨ c = '-'

/-- A sequence of labels with dots between them. -/
inductive IsDomain : List Char → Prop
  | label {label : List Char} (isLabel : IsLabel label) : IsDomain label
  | dot {label rest : List Char} (isLabel : IsLabel label)
      (isDomain : IsDomain rest) : IsDomain (label ++ '.' :: rest)

section Labels

variable {label before after rest : List Char}

theorem isLetDigHyp_iff {c : Char} :
    isLetDigHyp c = true ↔ isLetter c ∨ isDigit c ∨ c = '-' := by
  simp [isLetDigHyp, isLetDig, or_assoc]

theorem dot_not_letDigHyp : isLetDigHyp '.' = false := by
  decide

theorem IsLabel.no_dot (isLabel : IsLabel label) : '.' ∉ label := by
  intro member
  have allowed := isLetDigHyp_iff.mpr (isLabel.every '.' member)
  rw [dot_not_letDigHyp] at allowed
  cases allowed

theorem charAt_of_append (before after : List Char) {i : Nat}
    (inside : i < label.length) :
    charAt (before ++ label ++ after) (before.length + i) = label[i] := by
  rw [charAt, List.getD_eq_getElem?_getD, List.append_assoc,
    List.getElem?_append_right (Nat.le_add_right _ _), Nat.add_sub_cancel_left,
    List.getElem?_append_left inside, List.getElem?_eq_getElem inside,
    Option.getD_some]

theorem checkLabel_iff (before after : List Char) :
    checkLabel (before ++ label ++ after) before.length
        (before.length + label.length) = true ↔ IsLabel label := by
  have readAt :
      ∀ i (inside : i < label.length),
        charAt (before ++ label ++ after) (before.length + i) = label[i] :=
    fun i inside => charAt_of_append before after inside
  simp only [checkLabel, Bool.and_eq_true, decide_eq_true_eq,
    List.all_eq_true, List.mem_range'_1, Nat.add_sub_cancel_left]
  constructor
  · rintro ⟨⟨⟨long, first⟩, last⟩, middle⟩
    have nonempty : 0 < label.length :=
      Nat.lt_of_lt_of_le (by decide) long
    have firstAt := readAt 0 nonempty
    have lastAt := readAt (label.length - 1) (by omega)
    rw [Nat.add_zero] at firstAt
    rw [firstAt] at first
    rw [show before.length + label.length - 1 =
      before.length + (label.length - 1) by omega, lastAt] at last
    refine ⟨long, ⟨label[0], ?_, first⟩, ⟨label[label.length - 1], ?_, ?_⟩, ?_⟩
    · rw [List.head?_eq_getElem?, List.getElem?_eq_getElem nonempty]
    · rw [List.getLast?_eq_getElem?, List.getElem?_eq_getElem]
    · simpa [isLetDig] using last
    · intro c member
      rw [← isLetDigHyp_iff]
      obtain ⟨i, inside, rfl⟩ := List.getElem_of_mem member
      by_cases isFirst : i = 0
      · subst isFirst
        simp [isLetDigHyp, isLetDig, first]
      · by_cases isLast : i = label.length - 1
        · subst isLast
          simp [isLetDigHyp, last]
        · rw [← readAt i inside]
          exact middle _ (by omega)
  · rintro ⟨long, ⟨first, isFirst, letter⟩, ⟨last, isLast, letDig⟩, every⟩
    have nonempty : 0 < label.length :=
      Nat.lt_of_lt_of_le (by decide) long
    have firstAt := readAt 0 nonempty
    have lastAt := readAt (label.length - 1) (by omega)
    rw [List.head?_eq_getElem?, List.getElem?_eq_getElem nonempty] at isFirst
    rw [List.getLast?_eq_getElem?, List.getElem?_eq_getElem (by omega)]
      at isLast
    refine ⟨⟨⟨long, ?_⟩, ?_⟩, ?_⟩
    · rw [← Nat.add_zero before.length, firstAt, Option.some.inj isFirst]
      exact letter
    · rw [show before.length + label.length - 1 =
        before.length + (label.length - 1) by omega, lastAt,
        Option.some.inj isLast]
      simpa [isLetDig] using letDig
    · rintro i ⟨low, high⟩
      obtain ⟨offset, rfl⟩ : ∃ offset, i = before.length + offset :=
        ⟨i - before.length, by omega⟩
      rw [readAt offset (by omega), isLetDigHyp_iff]
      exact every _ (List.getElem_mem _)

theorem findFirstOf_none (noDot : '.' ∉ rest) :
    findFirstOf (before ++ rest) '.' before.length = none := by
  rw [findFirstOf, List.drop_left, Option.map_eq_none_iff,
    List.findIdx?_eq_none_iff]
  intro c member
  rw [beq_eq_false_iff_ne]
  rintro rfl
  exact noDot member

theorem findFirstOf_dot (noDot : '.' ∉ label) :
    findFirstOf (before ++ (label ++ '.' :: rest)) '.' before.length =
      some (before.length + label.length) := by
  rw [findFirstOf, List.drop_left, Option.map_eq_some_iff]
  refine ⟨label.length, ?_, rfl⟩
  rw [List.findIdx?_append]
  have none : label.findIdx? (· == '.') = none := by
    rw [List.findIdx?_eq_none_iff]
    intro c member
    rw [beq_eq_false_iff_ne]
    rintro rfl
    exact noDot member
  simp [none, List.findIdx?_cons]

theorem split_at_dot (text : List Char) :
    '.' ∉ text ∨
      ∃ label rest, text = label ++ '.' :: rest ∧ '.' ∉ label := by
  by_cases member : '.' ∈ text
  · obtain ⟨label, rest, same, noDot⟩ := List.eq_append_cons_of_mem member
    exact .inr ⟨label, rest, same, noDot⟩
  · exact .inl member

theorem split_unique {other later : List Char} (noDot : '.' ∉ label)
    (otherNoDot : '.' ∉ other)
    (same : label ++ '.' :: rest = other ++ '.' :: later) :
    label = other ∧ rest = later := by
  induction label generalizing other with
  | nil =>
      cases other with
      | nil => exact ⟨rfl, by simpa using same⟩
      | cons c other =>
          simp only [List.nil_append, List.cons_append, List.cons.injEq] at same
          simp [← same.1] at otherNoDot
  | cons c label ih =>
      cases other with
      | nil =>
          simp only [List.nil_append, List.cons_append, List.cons.injEq] at same
          simp [same.1] at noDot
      | cons d other =>
          simp only [List.cons_append, List.cons.injEq] at same
          obtain ⟨rfl, same⟩ := same
          obtain ⟨sameLabel, sameRest⟩ :=
            ih (List.not_mem_of_not_mem_cons noDot)
              (List.not_mem_of_not_mem_cons otherNoDot) same
          exact ⟨by rw [sameLabel], sameRest⟩

theorem isDomain_of_noDot {text : List Char} (noDot : '.' ∉ text) :
    IsDomain text ↔ IsLabel text := by
  constructor
  · intro isDomain
    cases isDomain with
    | label isLabel => exact isLabel
    | dot isLabel isDomain => simp at noDot
  · exact .label

theorem isDomain_dot (noDot : '.' ∉ label) :
    IsDomain (label ++ '.' :: rest) ↔ IsLabel label ∧ IsDomain rest := by
  constructor
  · intro isDomain
    generalize whole : label ++ '.' :: rest = text at isDomain
    cases isDomain with
    | label isLabel =>
        rw [← whole] at isLabel
        exact absurd (by simp) isLabel.no_dot
    | dot isLabel isDomain =>
        obtain ⟨rfl, rfl⟩ := split_unique noDot isLabel.no_dot whole
        exact ⟨isLabel, isDomain⟩
  · rintro ⟨isLabel, isDomain⟩
    exact .dot isLabel isDomain

/-- From the start of a label on, the scan accepts the domains. -/
theorem scan_iff (before rest : List Char) :
    scan (before ++ rest) before.length = true ↔ IsDomain rest := by
  generalize size : rest.length = n
  induction n using Nat.strong_induction_on generalizing before rest with
  | _ n ih =>
      rw [scan]
      rcases split_at_dot rest with noDot | ⟨label, later, rfl, noDot⟩
      · rw [findFirstOf_none noDot, isDomain_of_noDot noDot]
        have whole := @checkLabel_iff rest before []
        simpa using whole
      · rw [findFirstOf_dot noDot, isDomain_dot noDot]
        have isLabel := @checkLabel_iff label before ('.' :: later)
        have goes :=
          ih later.length (by simp at size; omega)
            (before ++ label ++ ['.']) later rfl
        simp only [List.append_assoc, List.singleton_append,
          List.length_append, List.length_singleton] at isLabel goes
        simp only [Bool.and_eq_true, isLabel, ← goes, Nat.add_assoc]

end Labels

/-- A name is valid exactly when its length is in range and it is a sequence of
labels with dots between them. -/
theorem account_name_grammar (name : List Char) :
    isValidName name = true ↔
      GRAPHENE_MIN_ACCOUNT_NAME_LENGTH ≤ name.length ∧
        name.length ≤ GRAPHENE_MAX_ACCOUNT_NAME_LENGTH ∧ IsDomain name := by
  have scans := scan_iff [] name
  simp only [List.nil_append, List.length_nil] at scans
  simp [isValidName, scans, and_assoc]

theorem isValidLabel_iff (label : List Char) :
    isValidLabel label = true ↔ IsLabel label := by
  match label with
  | [] =>
      constructor
      · intro accepted
        cases accepted
      · intro isLabel
        exact absurd isLabel.length (by decide)
  | [only] =>
      constructor
      · intro letter
        have isOnly : isLetter only = true := letter
        refine ⟨Nat.le_refl 1, ⟨only, rfl, isOnly⟩, ⟨only, rfl, .inl isOnly⟩,
          ?_⟩
        intro c member
        rw [List.mem_singleton.mp member]
        exact .inl isOnly
      · rintro ⟨_, ⟨c, isFirst, letter⟩, _, _⟩
        cases isFirst
        exact letter
  | first :: second :: rest =>
      have lastOne :
          (first :: second :: rest).getLast? = (second :: rest).getLast? :=
        List.getLast?_cons_cons
      obtain ⟨last, isLast⟩ :
          ∃ last, (second :: rest).getLast? = some last :=
        Option.isSome_iff_exists.mp (by simp)
      have parts : second :: rest = (second :: rest).dropLast ++ [last] :=
        (List.dropLast_append_getLast? last isLast).symm
      have members :
          ∀ c, c ∈ second :: rest ↔
            c ∈ (second :: rest).dropLast ∨ c = last := by
        intro c
        rw [← List.mem_singleton, ← List.mem_append, ← parts]
      simp only [isValidLabel, Bool.and_eq_true, List.all_eq_true,
        Bool.or_eq_true, beq_iff_eq, isLast, Option.any_some, or_assoc]
      constructor
      · rintro ⟨⟨letter, middle⟩, letDig⟩
        refine ⟨Nat.le_add_left 1 _, ⟨first, rfl, letter⟩,
          ⟨last, lastOne.trans isLast, letDig⟩, ?_⟩
        intro c member
        rcases List.mem_cons.mp member with rfl | member
        · exact .inl letter
        · rcases (members c).mp member with inner | rfl
          · exact middle c inner
          · exact letDig.imp_right .inl
      · rintro ⟨_, ⟨c, isFirst, letter⟩, ⟨d, isEnd, letDig⟩, every⟩
        cases isFirst
        rw [lastOne, isLast] at isEnd
        cases isEnd
        refine ⟨⟨letter, ?_⟩, letDig⟩
        intro c inner
        exact every c (List.mem_cons_of_mem _ ((members c).mpr (.inl inner)))

theorem isDomain_iff_parts (text : List Char) :
    (text.splitOn '.').all isValidLabel = true ↔ IsDomain text := by
  generalize size : text.length = n
  induction n using Nat.strong_induction_on generalizing text with
  | _ n ih =>
      rcases split_at_dot text with noDot | ⟨label, rest, rfl, noDot⟩
      · rw [List.splitOn_eq_singleton noDot, isDomain_of_noDot noDot,
          List.all_cons, List.all_nil, Bool.and_true, isValidLabel_iff]
      · rw [List.splitOn_append_cons_self, List.splitOn_eq_singleton noDot,
          isDomain_dot noDot, List.singleton_append, List.all_cons,
          Bool.and_eq_true, isValidLabel_iff,
          ih rest.length (by simp at size; omega) rest rfl]

/-- The scan accepts what the check of the parts between dots accepts. -/
theorem isValidName_eq (name : List Char) :
    isValidName name = Protocol.isValidName name := by
  have scans := scan_iff [] name
  rw [List.nil_append, List.length_nil, ← isDomain_iff_parts] at scans
  rw [isValidName, Protocol.isValidName, Bool.eq_iff_iff.mpr scans]

end GxbCore.Protocol.AccountName
