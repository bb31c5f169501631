import Tabletop.CommandLine.Answer
import Tabletop.Proofs.Json.Record
import Tabletop.Proofs.Widths

/-!
# What is stored is read back

Every type of the interchange has a lawful form, so every value within its widths is read back from
its text, whether it makes sense or not: modifiers that no suffix expresses, rolls that nobody
checked, outcomes that no roll comes to, and texts with any characters (`interchange_roundTrips`).
-/

namespace Tabletop

open Json (bind_eq_some_iff Lawful RoundTrips lawful_face lawful_count lawful_amount lawful_bool
  lawful_text record?_record exact_record record_ne_null)

/-- A kind of die is read back if its sides are within their width. -/
theorem Dice.lawful : Lawful Dice.Fits Dice.toJson Dice.ofJson? where
  exact_toJson d := by
    cases d with
    | standard sides =>
      exact exact_record (List.forall_mem_singleton.2 (lawful_face.exact_toJson sides))
    | fudge => exact .atom trivial
  ne_null d := by cases d <;> nofun
  ofJson?_toJson {d} h := by
    cases d with
    | standard sides =>
      show (face? (.nat sides)).map standard = some (standard sides)
      rw [lawful_face.ofJson?_toJson h]
      rfl
    | fudge => rfl
  fits {j d} h := by
    unfold ofJson? at h
    split at h
    · obtain ⟨sides, hsides, rfl⟩ := Option.map_eq_some_iff.1 h
      exact lawful_face.fits hsides
    · cases h; trivial
    · cases h; trivial
    · cases h

/-- A threshold is read back if its bound is within its width. -/
theorem Threshold.lawful : Lawful Threshold.Fits Threshold.toJson Threshold.ofJson? where
  exact_toJson rule := by
    cases rule <;> exact exact_record (List.forall_mem_singleton.2 (lawful_face.exact_toJson _))
  ne_null rule := by cases rule <;> nofun
  ofJson?_toJson {rule} h := by
    have hface (f : Nat → Threshold) {n : Nat} (hn : n ≤ maxFace) :
        (face? (.nat n)).map f = some (f n) := by
      rw [lawful_face.ofJson?_toJson hn]
      rfl
    cases rule with
    | atMost | atLeast | below | above => exact hface _ h
  fits {j rule} h := by
    unfold ofJson? at h
    split at h
    case h_5 => cases h
    all_goals
      obtain ⟨n, hn, rfl⟩ := Option.map_eq_some_iff.1 h
      exact lawful_face.fits hn

/-- No member of modifiers has the name of another. -/
theorem Modifiers.nodup_names : names.Nodup := by decide

/-- Modifiers are read back if their counts and bounds are within their widths. -/
theorem Modifiers.lawful : Lawful Modifiers.Fits Modifiers.toJson Modifiers.ofJson? where
  exact_toJson m := by
    refine exact_record ?_
    simp only [List.forall_mem_cons]
    exact ⟨lawful_bool.exact_toJson _, lawful_count.exact_ofOption _, lawful_count.exact_ofOption _,
      lawful_count.exact_ofOption _, lawful_count.exact_ofOption _,
      Threshold.lawful.exact_ofOption _, lawful_bool.exact_toJson _,
      Threshold.lawful.exact_ofOption _, List.forall_mem_nil _⟩
  ne_null _ := record_ne_null _
  ofJson?_toJson {m} h := by
    refine bind_eq_some_iff.2 ⟨_, record?_record nodup_names rfl _, ?_⟩
    simp only [List.map_cons, List.map_nil, ↓bind_eq_some_iff]
    exact ⟨_, rfl, _, rfl, _, lawful_count.optional?_ofOption h.keepHigh,
      _, lawful_count.optional?_ofOption h.keepLow, _, lawful_count.optional?_ofOption h.dropHigh,
      _, lawful_count.optional?_ofOption h.dropLow,
      _, Threshold.lawful.optional?_ofOption h.reroll, _, rfl, _, rfl,
      _, Threshold.lawful.optional?_ofOption h.success, rfl⟩
  fits {j m} h := by
    unfold ofJson? at h
    obtain ⟨members, -, h⟩ := bind_eq_some_iff.1 h
    split at h
    · simp only [↓bind_eq_some_iff] at h
      obtain ⟨_, -, _, -, _, hkeepHigh, _, hkeepLow, _, hdropHigh, _, hdropLow, _, hreroll,
        _, -, _, -, _, hsuccess, h⟩ := h
      cases h
      exact ⟨lawful_count.fits_of_optional? hkeepHigh, lawful_count.fits_of_optional? hkeepLow,
        lawful_count.fits_of_optional? hdropHigh, lawful_count.fits_of_optional? hdropLow,
        Threshold.lawful.fits_of_optional? hreroll, Threshold.lawful.fits_of_optional? hsuccess⟩
    · cases h

/-- No member of a notation has the name of another. -/
theorem Notation.nodup_names : names.Nodup := by decide

/-- A notation is read back if its numbers are within their widths. -/
theorem Notation.lawful : Lawful Notation.Fits Notation.toJson Notation.ofJson? where
  exact_toJson n := by
    refine exact_record ?_
    simp only [List.forall_mem_cons]
    exact ⟨lawful_text.exact_toJson _, lawful_count.exact_toJson _, Dice.lawful.exact_toJson _,
      lawful_amount.exact_toJson _, Modifiers.lawful.exact_toJson _, List.forall_mem_nil _⟩
  ne_null _ := record_ne_null _
  ofJson?_toJson {n} h := by
    refine bind_eq_some_iff.2 ⟨_, record?_record nodup_names rfl _, ?_⟩
    simp only [List.map_cons, List.map_nil, ↓bind_eq_some_iff]
    exact ⟨_, rfl, _, rfl, _, rfl, _, lawful_count.ofJson?_toJson h.count,
      _, rfl, _, Dice.lawful.ofJson?_toJson h.dice, _, rfl, _, lawful_amount.ofJson?_toJson h.flat,
      _, rfl, _, Modifiers.lawful.ofJson?_toJson h.modifiers, rfl⟩
  fits {j n} h := by
    unfold ofJson? at h
    obtain ⟨members, -, h⟩ := bind_eq_some_iff.1 h
    split at h
    · simp only [↓bind_eq_some_iff] at h
      obtain ⟨_, -, _, -, _, -, _, hcount, _, -, _, hdice, _, -, _, hflat,
        _, -, _, hmodifiers, h⟩ := h
      cases h
      exact ⟨lawful_count.fits hcount, Dice.lawful.fits hdice, lawful_amount.fits hflat,
        Modifiers.lawful.fits hmodifiers⟩
    · cases h

/-- No member of a roll has the name of another. -/
theorem Roll.nodup_names : names.Nodup := by decide

/-- A roll is read back if its numbers are within their widths. -/
theorem Roll.lawful : Lawful Roll.Fits Roll.toJson Roll.ofJson? where
  exact_toJson r := by
    refine exact_record ?_
    simp only [List.forall_mem_cons]
    exact ⟨lawful_text.exact_toJson _, lawful_face.exact_toJson _, Dice.lawful.exact_toJson _,
      lawful_amount.exact_toJson _, Modifiers.lawful.exact_toJson _, List.forall_mem_nil _⟩
  ne_null _ := record_ne_null _
  ofJson?_toJson {r} h := by
    refine bind_eq_some_iff.2 ⟨_, record?_record nodup_names rfl _, ?_⟩
    simp only [List.map_cons, List.map_nil, ↓bind_eq_some_iff]
    exact ⟨_, rfl, _, rfl, _, rfl, _, lawful_face.ofJson?_toJson h.count,
      _, rfl, _, Dice.lawful.ofJson?_toJson h.dice, _, rfl, _, lawful_amount.ofJson?_toJson h.flat,
      _, rfl, _, Modifiers.lawful.ofJson?_toJson h.modifiers, rfl⟩
  fits {j r} h := by
    unfold ofJson? at h
    obtain ⟨members, -, h⟩ := bind_eq_some_iff.1 h
    split at h
    · simp only [↓bind_eq_some_iff] at h
      obtain ⟨_, -, _, -, _, -, _, hcount, _, -, _, hdice, _, -, _, hflat,
        _, -, _, hmodifiers, h⟩ := h
      cases h
      exact ⟨lawful_face.fits hcount, Dice.lawful.fits hdice, lawful_amount.fits hflat,
        Modifiers.lawful.fits hmodifiers⟩
    · cases h

/-- No member of an outcome has the name of another. -/
theorem Outcome.nodup_names : names.Nodup := by decide

/-- An outcome is read back if its numbers are within their widths. -/
theorem Outcome.lawful : Lawful Outcome.Fits Outcome.toJson Outcome.ofJson? where
  exact_toJson o := by
    refine exact_record ?_
    simp only [List.forall_mem_cons]
    exact ⟨lawful_amount.list.exact_toJson _, lawful_amount.exact_toJson _,
      lawful_amount.exact_toJson _, lawful_amount.exact_toJson _, lawful_text.exact_toJson _,
      lawful_bool.exact_toJson _, lawful_amount.exact_ofOption _, lawful_count.exact_toJson _,
      List.forall_mem_nil _⟩
  ne_null _ := record_ne_null _
  ofJson?_toJson {o} h := by
    refine bind_eq_some_iff.2 ⟨_, record?_record nodup_names rfl _, ?_⟩
    simp only [List.map_cons, List.map_nil, ↓bind_eq_some_iff]
    exact ⟨_, rfl, _, lawful_amount.list.ofJson?_toJson h.rolls,
      _, rfl, _, lawful_amount.ofJson?_toJson h.total,
      _, rfl, _, lawful_amount.ofJson?_toJson h.flat,
      _, rfl, _, lawful_amount.ofJson?_toJson h.modifiedTotal, _, rfl, _, rfl, _, rfl, _, rfl,
      _, lawful_amount.optional?_ofOption h.successCount,
      _, rfl, _, lawful_count.ofJson?_toJson h.diceRolled, rfl⟩
  fits {j o} h := by
    unfold ofJson? at h
    obtain ⟨members, -, h⟩ := bind_eq_some_iff.1 h
    split at h
    · simp only [↓bind_eq_some_iff] at h
      obtain ⟨_, -, _, hrolls, _, -, _, htotal, _, -, _, hflat, _, -, _, hmodified,
        _, -, _, -, _, -, _, -, _, hcount, _, -, _, hrolled, h⟩ := h
      cases h
      exact ⟨lawful_amount.list.fits hrolls, lawful_amount.fits htotal, lawful_amount.fits hflat,
        lawful_amount.fits hmodified, lawful_amount.fits_of_optional? hcount,
        lawful_count.fits hrolled⟩
    · cases h

/-- No setting has the name of another. -/
theorem Settings.nodup_names : names.Nodup := by decide

/-- A setting that is absent keeps its usual value, which is within its width. -/
theorem Settings.fits_of_defaulted? {greatest usual n : Nat} {member : Option Json}
    (husual : usual ≤ greatest) (h : Json.defaulted? (Json.nat? greatest) usual member = some n) :
    n ≤ greatest := by
  cases member with
  | none => cases h; exact husual
  | some value => exact (Json.lawful_nat greatest).fits h

/-- Settings are read back if they are within their widths. -/
theorem Settings.lawful : Lawful Settings.Fits Settings.toJson Settings.ofJson? where
  exact_toJson s := by
    refine exact_record ?_
    simp only [List.forall_mem_cons]
    exact ⟨lawful_face.exact_toJson _, lawful_count.exact_toJson _, List.forall_mem_nil _⟩
  ne_null _ := record_ne_null _
  ofJson?_toJson {s} h := by
    refine bind_eq_some_iff.2 ⟨_, record?_record nodup_names rfl _, ?_⟩
    simp only [List.map_cons, List.map_nil, ↓bind_eq_some_iff]
    exact ⟨_, lawful_face.ofJson?_toJson h.maxDice, _,
      lawful_count.ofJson?_toJson h.showIndividual, rfl⟩
  fits {j s} h := by
    unfold ofJson? at h
    obtain ⟨members, -, h⟩ := bind_eq_some_iff.1 h
    split at h
    · simp only [↓bind_eq_some_iff] at h
      obtain ⟨_, hmaxDice, _, hshow, h⟩ := h
      cases h
      exact ⟨fits_of_defaulted? (by decide) hmaxDice, fits_of_defaulted? (by decide) hshow⟩
    · cases h

/-- Every value of the interchange, with whatever numbers within their widths and whatever texts, is
read back from its text; what the program prints of an outcome is such a text. And whatever text is
read as a value, the text of this value is read as the same value again. -/
theorem interchange_roundTrips :
    RoundTrips Dice.Fits Dice.toJson Dice.ofJson? ∧
    RoundTrips Threshold.Fits Threshold.toJson Threshold.ofJson? ∧
    RoundTrips Modifiers.Fits Modifiers.toJson Modifiers.ofJson? ∧
    RoundTrips Notation.Fits Notation.toJson Notation.ofJson? ∧
    RoundTrips Roll.Fits Roll.toJson Roll.ofJson? ∧
    RoundTrips Outcome.Fits Outcome.toJson Outcome.ofJson? ∧
    RoundTrips Settings.Fits Settings.toJson Settings.ofJson? ∧
    ∀ (o : Outcome) (settings : Settings), o.Fits →
      (Json.read? (CommandLine.Answer.rolled o settings true).stdout).bind Outcome.ofJson? =
        some o :=
  ⟨Dice.lawful.roundTrips, Threshold.lawful.roundTrips, Modifiers.lawful.roundTrips,
    Notation.lawful.roundTrips, Roll.lawful.roundTrips, Outcome.lawful.roundTrips,
    Settings.lawful.roundTrips, fun o _ h => (Outcome.lawful.roundTrips.pretty o h).2⟩

/-- Numbers at both ends of their widths, and a text with a quote, a slash, characters that JSON does
not allow and one outside the basic plane; and a roll that nobody checked. -/
theorem interchange_roundTrips_extremes :
    let o : Outcome := ⟨[Amount.least, 0, Amount.greatest], Amount.least, Amount.greatest, -1,
      "\"\\/\x00\x1f\n\u2028😀", true, some Amount.least, maxCount⟩
    let r : Roll := ⟨"", 0, .standard 0, Amount.least, ⟨true, some maxCount, some 0, none, none,
      some (.above maxFace), true, some (.atMost 0)⟩⟩
    o.Fits ∧ (Json.read? (CommandLine.Answer.rolled o {} true).stdout).bind Outcome.ofJson? = some o ∧
      r.Fits ∧ (Json.read? r.toJson.compact).bind Roll.ofJson? = some r := by
  intro o r
  have ho : o.Fits := ⟨by decide, by decide, by decide, by decide, by decide, by decide⟩
  have hr : r.Fits := by decide
  obtain ⟨-, -, -, -, hroll, -, -, hprinted⟩ := interchange_roundTrips
  exact ⟨ho, hprinted o {} ho, hr, hroll.compact r hr⟩

end Tabletop
