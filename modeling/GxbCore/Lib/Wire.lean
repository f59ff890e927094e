import Mathlib.Data.List.Forall2
import GxbCore.Lib.Fallible

/-!
# Packing and unpacking sequences

A sequence is packed by packing its items one after the other, and unpacked by
unpacking as often as there are items, each time from what the last one has left
of the stream.  When every item comes back from its own bytes, whatever follows
them, so does the sequence.
-/

namespace GxbCore

universe u

variable {ε α β : Type}

abbrev Bytes := List UInt8

/-- Pack one item after the other. -/
def packAll (pack : α → Except ε Bytes) : List α → Except ε Bytes
  | [] => .ok []
  | item :: rest => do
      let first ← pack item
      let later ← packAll pack rest
      return first ++ later

/-- Unpack so many items. -/
def unpackTimes (unpack : Bytes → Except ε (β × Bytes)) :
    Nat → Bytes → Except ε (List β × Bytes)
  | 0, stream => .ok ([], stream)
  | count + 1, stream => do
      let (first, stream) ← unpack stream
      let (later, stream) ← unpackTimes unpack count stream
      return (first :: later, stream)

section Pack

variable {pack other : α → Except ε Bytes} {items : List α} {bytes : Bytes}

/-- A sequence is packed exactly when each of its items is. -/
theorem packAll_eq_ok :
    packAll pack items = .ok bytes ↔
      ∃ parts, List.Forall₂ (fun item part => pack item = .ok part) items
          parts ∧ bytes = parts.flatten := by
  induction items generalizing bytes with
  | nil =>
      constructor
      · intro packed
        cases packed
        exact ⟨[], .nil, rfl⟩
      · rintro ⟨parts, none, rfl⟩
        cases none
        rfl
  | cons item rest ih =>
      constructor
      · intro packed
        obtain ⟨first, isFirst, packed⟩ := bind_eq_ok.mp packed
        obtain ⟨later, isLater, packed⟩ := bind_eq_ok.mp packed
        cases packed
        obtain ⟨parts, each, rfl⟩ := ih.mp isLater
        exact ⟨first :: parts, .cons isFirst each, rfl⟩
      · rintro ⟨parts, each, rfl⟩
        cases each with
        | @cons _ first _ parts isFirst each =>
            exact bind_eq_ok.mpr ⟨first, isFirst,
              bind_eq_ok.mpr
                ⟨parts.flatten, ih.mpr ⟨parts, each, rfl⟩,
                  rfl⟩⟩

/-- A sequence whose items can be packed can be packed. -/
theorem packAll_returns (each : ∀ item ∈ items, ∃ part, pack item = .ok part) :
    ∃ bytes, packAll pack items = .ok bytes := by
  induction items with
  | nil => exact ⟨[], rfl⟩
  | cons item rest ih =>
      obtain ⟨first, isFirst⟩ := each item List.mem_cons_self
      obtain ⟨later, isLater⟩ :=
        ih
          (fun next member => each next (List.mem_cons_of_mem item member))
      exact ⟨first ++ later, bind_eq_ok.mpr ⟨first, isFirst,
        bind_eq_ok.mpr ⟨later, isLater, rfl⟩⟩⟩

/-- Another packer that packs the items to the same bytes. -/
theorem packAll_congr
    (same : ∀ item ∈ items, ∀ part, pack item = .ok part →
      other item = .ok part)
    (packed : packAll pack items = .ok bytes) :
    packAll other items = .ok bytes := by
  obtain ⟨parts, each, rfl⟩ := packAll_eq_ok.mp packed
  refine packAll_eq_ok.mpr ⟨parts, ?_, rfl⟩
  clear packed
  induction each with
  | nil => exact .nil
  | @cons item part rest parts isPart _ ih =>
      exact .cons (same item List.mem_cons_self part isPart)
        (ih
          (fun next member => same next (List.mem_cons_of_mem item member)))

end Pack

section Unpack

variable {unpack : Bytes → Except ε (β × Bytes)} {parts : List Bytes}
  {values : List β}

/-- Items that come back from their bytes come back from the sequence. -/
theorem unpackTimes_flatten
    (each :
      List.Forall₂
        (fun part value => ∀ rest, unpack (part ++ rest) = .ok (value, rest))
        parts values)
    (rest : Bytes) :
    unpackTimes unpack parts.length (parts.flatten ++ rest) =
      .ok (values, rest) := by
  induction each with
  | nil => rfl
  | @cons part value parts values comesBack _ ih =>
      refine bind_eq_ok.mpr ⟨(value, parts.flatten ++ rest), ?_,
        bind_eq_ok.mpr ⟨(values, rest), ih, rfl⟩⟩
      rw [List.flatten_cons, List.append_assoc]
      exact comesBack _

theorem unpackTimes_length {count : Nat} {stream rest : Bytes}
    (unpacked : unpackTimes unpack count stream = .ok (values, rest)) :
    values.length = count := by
  induction count generalizing stream values with
  | zero =>
      cases unpacked
      rfl
  | succ count ih =>
      obtain ⟨⟨first, middle⟩, _, unpacked⟩ := bind_eq_ok.mp unpacked
      obtain ⟨⟨later, last⟩, isLater, unpacked⟩ := bind_eq_ok.mp unpacked
      cases unpacked
      exact congrArg Nat.succ (ih isLater)

/-- Every item of the sequence was unpacked from somewhere. -/
theorem unpackTimes_each {count : Nat} {stream rest : Bytes}
    (unpacked : unpackTimes unpack count stream = .ok (values, rest)) :
    ∀ value ∈ values, ∃ before after,
      unpack before = .ok (value, after) := by
  induction count generalizing stream values with
  | zero =>
      cases unpacked
      intro value member
      cases member
  | succ count ih =>
      obtain ⟨⟨first, middle⟩, isFirst, unpacked⟩ := bind_eq_ok.mp unpacked
      obtain ⟨⟨later, last⟩, isLater, unpacked⟩ := bind_eq_ok.mp unpacked
      cases unpacked
      intro value member
      rcases List.mem_cons.mp member with rfl | inLater
      · exact ⟨stream, middle, isFirst⟩
      · exact ih isLater value inLater

/-- A sequence is unpacked with the failures of its items. -/
theorem failsOnly_unpackTimes {expected : ε → Prop}
    (each : ∀ stream, FailsOnly expected (unpack stream)) (count : Nat)
    (stream : Bytes) :
    FailsOnly expected (unpackTimes unpack count stream) := by
  induction count generalizing stream with
  | zero => exact failsOnly_ok _
  | succ count ih =>
      rw [unpackTimes]
      apply failsOnly_bind (each stream)
      intro first _
      apply failsOnly_bind (ih first.2)
      intro later _
      exact failsOnly_ok _

end Unpack

section Entries

variable {κ ν : Type} [BEq κ]

def setEntry (name : κ) (value : ν) : List (κ × ν) → List (κ × ν)
  | [] => [(name, value)]
  | entry :: rest =>
      if entry.1 == name then (name, value) :: rest
      else entry :: setEntry name value rest

variable [LawfulBEq κ]

theorem lookup_setEntry_self (name : κ) (value : ν) (entries : List (κ × ν)) :
    (setEntry name value entries).lookup name = some value := by
  induction entries with
  | nil => simp [setEntry]
  | cons entry rest ih =>
      rw [setEntry]
      split
      · simp
      · next differs =>
          have other : (name == entry.1) = false :=
            beq_false_of_ne fun same => differs (beq_iff_eq.mpr same.symm)
          rw [List.lookup_cons, other]
          exact ih

theorem lookup_setEntry_of_ne {name other : κ} (differs : other ≠ name)
    (value : ν) (entries : List (κ × ν)) :
    (setEntry name value entries).lookup other = entries.lookup other := by
  induction entries with
  | nil =>
      rw [setEntry, List.lookup_cons, beq_false_of_ne differs]
  | cons entry rest ih =>
      rw [setEntry]
      split
      · next same =>
          have isName : other ≠ entry.1 := by
            rw [beq_iff_eq.mp same]
            exact differs
          rw [List.lookup_cons, List.lookup_cons, beq_false_of_ne differs,
            beq_false_of_ne isName]
      · rw [List.lookup_cons, List.lookup_cons, ih]

variable {entries : List (κ × ν)}

theorem mem_of_lookup {key : κ} {value : ν}
    (found : entries.lookup key = some value) : (key, value) ∈ entries := by
  obtain ⟨before, after, rfl, _⟩ := List.lookup_eq_some_iff.mp found
  exact List.mem_append_right before List.mem_cons_self

omit [LawfulBEq κ] in
theorem mem_setEntry {key : κ} {value : ν} {entry : κ × ν}
    (member : entry ∈ setEntry key value entries) :
    entry = (key, value) ∨ entry ∈ entries := by
  induction entries with
  | nil => exact .inl (List.mem_singleton.mp member)
  | cons first rest ih =>
      rw [setEntry] at member
      split at member
      · rcases List.mem_cons.mp member with isNew | later
        · exact .inl isNew
        · exact .inr (List.mem_cons_of_mem first later)
      · rcases List.mem_cons.mp member with isFirst | later
        · exact .inr (isFirst ▸ List.mem_cons_self)
        · rcases ih later with isNew | older
          · exact .inl isNew
          · exact .inr (List.mem_cons_of_mem first older)

theorem map_fst_setEntry (key : κ) (value : ν) (entries : List (κ × ν)) :
    (setEntry key value entries).map (·.1) = entries.map (·.1) ∨
      key ∉ entries.map (·.1) ∧
        (setEntry key value entries).map (·.1) =
          entries.map (·.1) ++ [key] := by
  induction entries with
  | nil => exact .inr ⟨List.not_mem_nil, rfl⟩
  | cons first rest ih =>
      rw [setEntry]
      split
      · next same =>
          left
          rw [List.map_cons, List.map_cons, beq_iff_eq.mp same]
      · next differs =>
          have other : key ≠ first.1 :=
            fun same => differs (beq_iff_eq.mpr same.symm)
          rcases ih with same | ⟨isNew, longer⟩
          · left
            rw [List.map_cons, List.map_cons, same]
          · right
            rw [List.map_cons, List.map_cons, longer]
            exact ⟨by simp [other, isNew], rfl⟩

theorem nodup_setEntry {key : κ} {value : ν}
    (distinct : (entries.map (·.1)).Nodup) :
    ((setEntry key value entries).map (·.1)).Nodup := by
  rcases map_fst_setEntry key value entries with same | ⟨isNew, longer⟩
  · rw [same]
    exact distinct
  · rw [longer]
    refine List.nodup_append.mpr ⟨distinct, by simp, ?_⟩
    intro left isLeft right isRight same
    rw [same, List.mem_singleton.mp isRight] at isLeft
    exact isNew isLeft

theorem lookup_of_nodup (distinct : (entries.map (·.1)).Nodup) {entry : κ × ν}
    (member : entry ∈ entries) : entries.lookup entry.1 = some entry.2 := by
  induction entries with
  | nil => cases member
  | cons first rest ih =>
      obtain ⟨isNew, distinct⟩ := List.nodup_cons.mp distinct
      rcases List.mem_cons.mp member with rfl | later
      · rw [List.lookup_cons, beq_self_eq_true]
      · have other : entry.1 ≠ first.1 := by
          intro same
          exact isNew (List.mem_map.mpr ⟨entry, later, same⟩)
        rw [List.lookup_cons, beq_false_of_ne other]
        exact ih distinct later

end Entries

end GxbCore
