import Tabletop.Settings.Given

/-!
# Numbered values

A document is refused if the number of a wrapped value stands anywhere below its top level: in a
table, in a table inside that, or in one that is an item of an array (`Toml.Value.HasKey`). The test
runs through values, entries, items and elements by turns; what it finds is a path down to the key,
and if it finds nothing there is no such path (`Given.isPlainValue_iff`).
-/

namespace Tabletop

/-- The key stands in a table inside a value, or in the value itself. -/
inductive Toml.Value.HasKey (key : String) : Toml.Value → Prop
  | here {origin : Origin} {entries : Entries} {value : Value} : (key, value) ∈ entries →
      HasKey key (.table origin entries)
  | entry {origin : Origin} {entries : Entries} {name : String} {value : Value} :
      (name, value) ∈ entries → HasKey key value → HasKey key (.table origin entries)
  | item {items : List Value} {value : Value} : value ∈ items → HasKey key value →
      HasKey key (.array items)
  | element {elements : List Entries} {entries : Entries} : entries ∈ elements →
      HasKey key (.table .header entries) → HasKey key (.tables elements)

namespace Given

open Toml (Origin Value Entries)

variable {key : String}

/-- What stands in front of a list does not matter to what is found behind it. -/
theorem hasKey_cons_entry {origin : Origin} {entry : String × Value} {entries : Entries}
    (h : (Value.table origin entries).HasKey key) :
    (Value.table origin (entry :: entries)).HasKey key := by
  cases h with
  | here hentry => exact .here (.tail _ hentry)
  | entry hentry hkey => exact .entry (.tail _ hentry) hkey

/-- The same for the items of an array. -/
theorem hasKey_cons_item {item : Value} {items : List Value}
    (h : (Value.array items).HasKey key) : (Value.array (item :: items)).HasKey key := by
  cases h with
  | item hitem hkey => exact .item (.tail _ hitem) hkey

/-- The same for the tables of an array. -/
theorem hasKey_cons_element {element : Entries} {elements : List Entries}
    (h : (Value.tables elements).HasKey key) : (Value.tables (element :: elements)).HasKey key := by
  cases h with
  | element helement hkey => exact .element (.tail _ helement) hkey

mutual

/-- A value that is not plain has a number somewhere. -/
theorem hasKey_of_isPlainValue : ∀ {value : Value}, isPlainValue value = false →
    value.HasKey numberKey
  | .table origin _, h => hasKey_of_areUnnumbered origin h
  | .array _, h => hasKey_of_arePlainItems h
  | .tables _, h => hasKey_of_arePlainTables h

/-- If entries are not unnumbered, a number is among them or inside one of them. -/
theorem hasKey_of_areUnnumbered (origin : Origin) : ∀ {entries : List (String × Value)},
    areUnnumbered entries = false → (Value.table origin entries).HasKey numberKey
  | (name, value) :: entries, h => by
    rw [areUnnumbered, Bool.and_eq_false_iff, Bool.and_eq_false_iff] at h
    rcases h with (hname | hvalue) | hmore
    · have hname : name = numberKey := by simpa using hname
      subst hname
      exact .here (.head _)
    · exact .entry (.head _) (hasKey_of_isPlainValue hvalue)
    · exact hasKey_cons_entry (hasKey_of_areUnnumbered origin hmore)

/-- If items are not plain, a number is inside one of them. -/
theorem hasKey_of_arePlainItems : ∀ {items : List Value}, arePlainItems items = false →
    (Value.array items).HasKey numberKey
  | item :: items, h => by
    rw [arePlainItems, Bool.and_eq_false_iff] at h
    rcases h with hitem | hmore
    · exact .item (.head _) (hasKey_of_isPlainValue hitem)
    · exact hasKey_cons_item (hasKey_of_arePlainItems hmore)

/-- If tables are not plain, a number is inside one of them. -/
theorem hasKey_of_arePlainTables : ∀ {tables : List (List (String × Value))},
    arePlainTables tables = false → (Value.tables tables).HasKey numberKey
  | table :: tables, h => by
    rw [arePlainTables, Bool.and_eq_false_iff] at h
    rcases h with htable | hmore
    · exact .element (.head _) (hasKey_of_areUnnumbered .header htable)
    · exact hasKey_cons_element (hasKey_of_arePlainTables hmore)

end

/-- Entries are unnumbered exactly if none of them is a number and all are plain. -/
theorem areUnnumbered_iff {entries : Entries} : areUnnumbered entries = true ↔
    ∀ entry ∈ entries, entry.1 ≠ numberKey ∧ isPlainValue entry.2 = true := by
  induction entries with
  | nil => simp [areUnnumbered]
  | cons entry entries ih =>
    rw [areUnnumbered, Bool.and_eq_true, Bool.and_eq_true, decide_eq_true_eq, ih,
      List.forall_mem_cons]

/-- Items are plain exactly if each is. -/
theorem arePlainItems_iff {items : List Value} :
    arePlainItems items = true ↔ ∀ item ∈ items, isPlainValue item = true := by
  induction items with
  | nil => simp [arePlainItems]
  | cons item items ih => rw [arePlainItems, Bool.and_eq_true, ih, List.forall_mem_cons]

/-- Tables are plain exactly if each is unnumbered. -/
theorem arePlainTables_iff {tables : List Entries} :
    arePlainTables tables = true ↔ ∀ table ∈ tables, areUnnumbered table = true := by
  induction tables with
  | nil => simp [arePlainTables]
  | cons table tables ih => rw [arePlainTables, Bool.and_eq_true, ih, List.forall_mem_cons]

/-- A value is plain exactly if no table has the key of a number. -/
theorem isPlainValue_iff {value : Value} :
    isPlainValue value = true ↔ ¬ value.HasKey numberKey := by
  constructor
  · intro hplain hkey
    induction hkey with
    | here hentry =>
      rw [isPlainValue, areUnnumbered_iff] at hplain
      exact (hplain _ hentry).1 rfl
    | entry hentry _ ih =>
      rw [isPlainValue, areUnnumbered_iff] at hplain
      exact ih (hplain _ hentry).2
    | item hitem _ ih =>
      rw [isPlainValue, arePlainItems_iff] at hplain
      exact ih (hplain _ hitem)
    | element helement _ ih =>
      rw [isPlainValue, arePlainTables_iff] at hplain
      exact ih (hplain _ helement)
  · intro hkey
    cases hplain : isPlainValue value with
    | true => rfl
    | false => exact absurd (hasKey_of_isPlainValue hplain) hkey

end Given

end Tabletop
