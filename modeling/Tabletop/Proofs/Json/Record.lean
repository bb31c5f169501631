import Tabletop.Interchange
import Tabletop.Proofs.Json.Written

/-!
# Stored forms that are read back

A stored form is lawful (`Lawful`) if reading undoes writing for the values within their widths, and
gives no others. Numbers, texts and truth values have lawful forms, and so have the lists of what has
one. A record is taken apart into the members that it was written with (`record?_record`), each of
which is read by its own form. From a lawful form follows the round trip through the text of a value
(`Lawful.roundTrips`), whichever way the text is written.
-/

namespace Tabletop

namespace Json

/-! ## Members of records -/

/-- A member is found with those of its name. -/
theorem named_cons (name key : String) (value : Json) (members : List (Option String × Json)) :
    named name ((some key, value) :: members) =
      if key = name then value :: named name members else named name members := by
  unfold named
  rw [List.filterMap_cons]
  simp only [Option.some.injEq]
  split <;> simp_all

/-- Nothing is found under a name that no member has. -/
theorem named_of_notMem {name : String} {members : List (String × Json)}
    (h : name ∉ members.map Prod.fst) :
    named name (members.map fun (name, value) => (some name, value)) = [] := by
  induction members with
  | nil => rfl
  | cons first members ih =>
    rw [List.map_cons, List.mem_cons, not_or] at h
    rw [List.map_cons, named_cons, if_neg (Ne.symm h.1), ih h.2]

/-- If no name is repeated, each name leads to its member. -/
theorem named_of_nodup {members : List (String × Json)} (hnodup : (members.map Prod.fst).Nodup)
    {member : String × Json} (hmember : member ∈ members) :
    named member.1 (members.map fun (name, value) => (some name, value)) = [member.2] := by
  induction members with
  | nil => cases hmember
  | cons first members ih =>
    rw [List.map_cons, List.nodup_cons] at hnodup
    rw [List.map_cons, named_cons]
    cases hmember with
    | head => rw [if_pos rfl, named_of_notMem hnodup.1]
    | tail _ hmember =>
      have hne : first.1 ≠ member.1 := fun heq => hnodup.1 (heq ▸ List.mem_map_of_mem hmember)
      rw [if_neg hne, ih hnodup.2 hmember]

/-- A record is taken apart into the members that it was written with. -/
theorem record?_record {names : List String} {members : List (String × Json)}
    (hnodup : names.Nodup) (hnames : members.map Prod.fst = names) (least : Nat) :
    record? names least (record members) = some (members.map fun member => some member.2) := by
  subst hnames
  have hmembers : ∀ part ⊆ members, (part.map Prod.fst).mapM
      (member? (members.map fun (name, value) => (some name, value))) =
        some (part.map fun member => some member.2) := by
    intro part hsub
    induction part with
    | nil => rfl
    | cons member rest ih =>
      rw [List.cons_subset] at hsub
      rw [List.map_cons, List.mapM_cons, ih hsub.2, member?, named_of_nodup hnodup hsub.1]
      rfl
  have hkeys : ((members.map fun (name, value) => (some name, value)).all
      fun member => member.1.isSome) = true := by
    simp
  exact (if_pos hkeys).trans (hmembers members (List.Subset.refl members))

/-- A record is exact if all its members are. -/
theorem exact_record {members : List (String × Json)}
    (h : ∀ member ∈ members, member.2.Exact) : (record members).Exact := by
  refine .object fun member hmember => ?_
  obtain ⟨other, hother, rfl⟩ := List.mem_map.1 hmember
  exact h other hother

/-- A record is not taken for an absent member. -/
theorem record_ne_null (members : List (String × Json)) : record members ≠ null := nofun

/-! ## Lawful forms -/

/-- Reading one part and then the others gives a value if both do. -/
theorem bind_eq_some_iff {α β : Type} {part : Option α} {others : α → Option β} {b : β} :
    (part >>= others) = some b ↔ ∃ a, part = some a ∧ others a = some b :=
  Option.bind_eq_some_iff

/-- What is stored of the values within their widths is read back as these values, and no others are
read. -/
structure Lawful {α : Type} (Fits : α → Prop) (toJson : α → Json) (ofJson? : Json → Option α) :
    Prop where
  /-- What is stored holds no number that is kept as it is spelled. -/
  exact_toJson : ∀ a, (toJson a).Exact
  /-- What is stored does not stand for an absent value. -/
  ne_null : ∀ a, toJson a ≠ null
  /-- A value within its widths is read back. -/
  ofJson?_toJson : ∀ {a}, Fits a → ofJson? (toJson a) = some a
  /-- A value that is read is within its widths. -/
  fits : ∀ {j a}, ofJson? j = some a → Fits a

/-- Natural numbers up to a bound are read back. -/
theorem lawful_nat (greatest : Nat) : Lawful (· ≤ greatest) nat (nat? greatest) where
  exact_toJson _ := .atom trivial
  ne_null := nofun
  ofJson?_toJson h := if_pos h
  fits {j a} h := by
    unfold nat? at h
    split at h
    · split at h
      · next hle => cases h; exact hle
      · cases h
    · cases h

/-- Faces are read back. -/
theorem lawful_face : Lawful (· ≤ maxFace) nat face? := lawful_nat maxFace

/-- Counts are read back. -/
theorem lawful_count : Lawful (· ≤ maxCount) nat count? := lawful_nat maxCount

/-- Amounts are read back. -/
theorem lawful_amount : Lawful Amount.InRange int amount? where
  exact_toJson _ := .atom trivial
  ne_null := nofun
  ofJson?_toJson h := if_pos h
  fits {j a} h := by
    unfold amount? int? at h
    split at h
    · split at h
      · next hrange => cases h; exact hrange
      · cases h
    · cases h

/-- Truth values are read back. -/
theorem lawful_bool : Lawful (fun _ => True) bool bool? where
  exact_toJson _ := .atom trivial
  ne_null := nofun
  ofJson?_toJson _ := rfl
  fits _ := trivial

/-- Texts are read back. -/
theorem lawful_text : Lawful (fun _ => True) text text? where
  exact_toJson _ := .atom trivial
  ne_null := nofun
  ofJson?_toJson _ := rfl
  fits _ := trivial

section
variable {α : Type} {Fits : α → Prop} {toJson : α → Json} {ofJson? : Json → Option α}

/-- Lists of what has a lawful form have one. -/
theorem Lawful.list (h : Lawful Fits toJson ofJson?) :
    Lawful (∀ a ∈ ·, Fits a) (fun as => array (as.map toJson)) (list? ofJson?) where
  exact_toJson as := by
    refine .array fun item hitem => ?_
    obtain ⟨a, -, rfl⟩ := List.mem_map.1 hitem
    exact h.exact_toJson a
  ne_null := nofun
  ofJson?_toJson {as} hfits := by
    unfold list?
    dsimp only
    induction as with
    | nil => rfl
    | cons a as ih =>
      rw [List.forall_mem_cons] at hfits
      rw [List.map_cons, List.mapM_cons, h.ofJson?_toJson hfits.1, ih hfits.2]
      rfl
  fits {j as} hread := by
    unfold list? at hread
    split at hread
    · next items =>
      induction items generalizing as with
      | nil =>
        cases hread
        nofun
      | cons item items ih =>
        rw [List.mapM_cons] at hread
        simp only [↓bind_eq_some_iff] at hread
        obtain ⟨a, ha, rest, hrest, hread⟩ := hread
        cases hread
        exact List.forall_mem_cons.2 ⟨h.fits ha, ih hrest⟩
    · cases hread

/-- What may be absent is written exactly if what is there is. -/
theorem Lawful.exact_ofOption (h : Lawful Fits toJson ofJson?) (o : Option α) :
    (ofOption toJson o).Exact := by
  cases o with
  | none => exact .atom trivial
  | some a => exact h.exact_toJson a

/-- A member that may be absent is read back, absent or not. -/
theorem Lawful.optional?_ofOption (h : Lawful Fits toJson ofJson?) {o : Option α}
    (hfits : ∀ a ∈ o, Fits a) : optional? ofJson? (some (ofOption toJson o)) = some o := by
  cases o with
  | none => rfl
  | some a =>
    unfold optional? ofOption
    split
    · next hnull => cases hnull
    · next hnull => exact absurd (Option.some.inj hnull) (h.ne_null a)
    · next hvalue =>
      rw [← Option.some.inj hvalue, h.ofJson?_toJson (hfits a rfl)]
      rfl

/-- What is read of a member that may be absent is within its widths. -/
theorem Lawful.fits_of_optional? (h : Lawful Fits toJson ofJson?) {member : Option Json}
    {o : Option α} (hread : optional? ofJson? member = some o) : ∀ a ∈ o, Fits a := by
  unfold optional? at hread
  split at hread
  · cases hread
    nofun
  · cases hread
    nofun
  · obtain ⟨a, ha, rfl⟩ := Option.map_eq_some_iff.1 hread
    rintro _ ⟨⟩
    exact h.fits ha

/-! ## Texts of values -/

/-- The text of a value and the value are one and the same, as far as reading goes. -/
structure RoundTrips (Fits : α → Prop) (toJson : α → Json) (ofJson? : Json → Option α) : Prop where
  /-- A value is read back from its text without blanks. -/
  compact : ∀ a, Fits a → (read? (toJson a).compact).bind ofJson? = some a
  /-- It is read back from its text over several lines, with a line break behind it or without. -/
  pretty : ∀ a, Fits a → (read? (toJson a).pretty).bind ofJson? = some a ∧
    (read? ((toJson a).pretty ++ "\n")).bind ofJson? = some a
  /-- Whatever text is read, the value is within its widths. -/
  fits : ∀ text a, (read? text).bind ofJson? = some a → Fits a
  /-- Whatever text is read, writing the value and reading that text gives the value again. -/
  again : ∀ text a, (read? text).bind ofJson? = some a →
    (read? (toJson a).compact).bind ofJson? = some a

/-- What has a lawful form is read back from its text, and again from the text of what is read. -/
theorem Lawful.roundTrips (h : Lawful Fits toJson ofJson?) : RoundTrips Fits toJson ofJson? where
  compact a hfits := by
    rw [(h.exact_toJson a).read?_compact]
    exact h.ofJson?_toJson hfits
  pretty a hfits := by
    obtain ⟨hpretty, hline⟩ := (h.exact_toJson a).read?_pretty
    rw [hpretty, hline]
    exact ⟨h.ofJson?_toJson hfits, h.ofJson?_toJson hfits⟩
  fits text a hread := by
    obtain ⟨j, -, hj⟩ := Option.bind_eq_some_iff.1 hread
    exact h.fits hj
  again text a hread := by
    obtain ⟨j, -, hj⟩ := Option.bind_eq_some_iff.1 hread
    rw [(h.exact_toJson a).read?_compact]
    exact h.ofJson?_toJson (h.fits hj)

end

end Json

end Tabletop
