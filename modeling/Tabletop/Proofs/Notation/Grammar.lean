import Tabletop.Notation
import Tabletop.Proofs.Text.Digits

/-!
# The grammar of notations

`Layout.Spells` is the grammar: how the parts of a notation follow each other, each number being as
long as it can be. A text has at most one layout, and `Layout.ofChars?` finds it
(`Layout.ofChars?_eq_some_iff`). Of the texts with a layout those are notations whose sides and
flat amount are within their widths (`Layout.Admissible`): `Notation.parseWith_eq_ok_iff`.
-/

namespace Tabletop

open Text (Numeral NoDigit decimal)

namespace Layout

/-- The sign of a flat amount. -/
def signChar (minus : Bool) : Char := if minus then '-' else '+'

/-- The text begins with a sign and a digit. -/
def SignedDigit (cs : List Char) : Prop :=
  ∃ minus digit rest, digit.isDigit = true ∧ cs = signChar minus :: digit :: rest

/-- The characters of a flat amount. -/
def flatChars : Option (Bool × List Char) → List Char
  | none => []
  | some (minus, ds) => signChar minus :: ds

/-- The layout is a way to read the text: a run of digits, `d`, the sides, a flat amount and the
rest. The digits of the sides and of the flat amount end where no digit follows, and a text that
goes on with a sign and a digit after the sides has a flat amount. -/
structure Spells (l : Layout) (cs : List Char) : Prop where
  text : cs = l.count ++ 'd' :: (l.sides.getD ['f'] ++ (flatChars l.flat ++ l.suffix))
  count : Numeral l.count
  sides : ∀ ds ∈ l.sides, Numeral ds ∧ NoDigit (flatChars l.flat ++ l.suffix)
  flat : ∀ f ∈ l.flat, Numeral f.2 ∧ NoDigit l.suffix
  noFlat : l.flat = none → ¬ SignedDigit l.suffix

/-- The sides and the flat amount are within their widths. -/
structure Admissible (l : Layout) : Prop where
  sides : ∀ ds ∈ l.sides, decimal ds ≤ maxFace
  flat : ∀ f ∈ l.flat, (decimal f.2 : Int) ≤ Amount.greatest

/-- The die that a layout names. -/
def die (l : Layout) : Dice := l.sides.elim .fudge fun ds => .standard (decimal ds)

/-- The flat amount that a layout names. -/
def amount (l : Layout) : Int :=
  l.flat.elim 0 fun (minus, ds) => if minus then -(decimal ds : Int) else decimal ds

/-! ## A text has one layout -/

variable {cs rest : List Char}

/-- A sign is taken for a flat amount exactly if a digit follows. -/
theorem signedDigit_cons {minus : Bool} : SignedDigit (signChar minus :: cs) ↔ ¬ NoDigit cs := by
  constructor
  · rintro ⟨_, digit, rest, hd, he⟩
    obtain ⟨-, rfl⟩ := List.cons.inj he
    simp [hd]
  · intro hn
    cases cs with
    | nil => exact absurd Text.noDigit_nil hn
    | cons digit rest => exact ⟨minus, digit, rest, by simpa using hn, rfl⟩

/-- Sides are digits that no digit follows, or the mark of Fudge dice. -/
theorem sides?_eq_some_iff {sides : Option (List Char)} :
    sides? cs = some (sides, rest) ↔
      cs = sides.getD ['f'] ++ rest ∧ ∀ ds ∈ sides, Numeral ds ∧ NoDigit rest := by
  unfold sides?
  split
  · next tail =>
    constructor
    · rintro ⟨⟩
      exact ⟨rfl, nofun⟩
    · rintro ⟨htext, hds⟩
      cases sides with
      | none => cases htext; rfl
      | some ds => exact absurd (htext ▸ by simp) ((hds ds rfl).1.not_noDigit rest)
  · next hf =>
    rw [Option.map_eq_some_iff]
    constructor
    · rintro ⟨⟨ds, tail⟩, hd, ⟨⟩⟩
      obtain ⟨rfl, hds, hrest⟩ := Text.digits?_eq_some_iff.1 hd
      exact ⟨rfl, fun _ h => Option.some.inj h ▸ ⟨hds, hrest⟩⟩
    · rintro ⟨rfl, hds⟩
      cases sides with
      | none => exact absurd rfl (hf rest)
      | some ds =>
        obtain ⟨hnum, hrest⟩ := hds ds rfl
        exact ⟨(ds, rest), Text.digits?_append hnum hrest, rfl⟩

/-- A sign begins a flat amount if digits follow. -/
theorem flat?_sign (minus : Bool) (cs : List Char) :
    flat? (signChar minus :: cs) = match Text.digits? cs with
      | some (ds, rest) => (some (minus, ds), rest)
      | none => (none, signChar minus :: cs) := by
  cases minus <;> rfl

/-- Without a sign there is no flat amount. -/
theorem flat?_of_unsigned (h : ∀ minus rest, cs ≠ signChar minus :: rest) :
    flat? cs = (none, cs) := by
  unfold flat?
  split
  · exact absurd rfl (h false _)
  · exact absurd rfl (h true _)
  · rfl

/-- A flat amount takes all its digits, and there is none only where no sign and digit stand. -/
theorem flat?_eq_iff {flat : Option (Bool × List Char)} :
    flat? cs = (flat, rest) ↔ cs = flatChars flat ++ rest ∧
      (∀ f ∈ flat, Numeral f.2 ∧ NoDigit rest) ∧ (flat = none → ¬ SignedDigit rest) := by
  constructor
  · intro h
    by_cases hs : ∃ minus tail, cs = signChar minus :: tail
    · obtain ⟨minus, tail, rfl⟩ := hs
      rw [flat?_sign] at h
      split at h
      · next ds after hd =>
        cases h
        obtain ⟨rfl, hds, hrest⟩ := Text.digits?_eq_some_iff.1 hd
        exact ⟨rfl, fun _ hf => Option.some.inj hf ▸ ⟨hds, hrest⟩, nofun⟩
      · next hd =>
        cases h
        refine ⟨rfl, nofun, fun _ hsd => ?_⟩
        exact signedDigit_cons.1 hsd (Text.digits?_eq_none_iff.1 hd)
    · rw [flat?_of_unsigned fun minus tail he => hs ⟨minus, tail, he⟩] at h
      cases h
      refine ⟨rfl, nofun, ?_⟩
      rintro - ⟨minus, digit, tail, -, he⟩
      exact hs ⟨minus, digit :: tail, he⟩
  · rintro ⟨rfl, hflat, hnone⟩
    cases flat with
    | some f =>
      obtain ⟨minus, ds⟩ := f
      obtain ⟨hds, hrest⟩ := hflat _ rfl
      rw [flatChars, List.cons_append, flat?_sign, Text.digits?_append hds hrest]
    | none =>
      by_cases hs : ∃ minus tail, rest = signChar minus :: tail
      · obtain ⟨minus, tail, rfl⟩ := hs
        have hd : NoDigit tail := Classical.not_not.1 (mt signedDigit_cons.2 (hnone rfl))
        rw [flatChars, List.nil_append, flat?_sign, Text.digits?_eq_none_iff.2 hd]
      · exact flat?_of_unsigned fun minus tail he => hs ⟨minus, tail, he⟩

/-- The parts of a text are found exactly if they are a way to read it. -/
theorem ofChars?_eq_some_iff {l : Layout} : ofChars? cs = some l ↔ l.Spells cs := by
  constructor
  · intro h
    unfold ofChars? at h
    split at h
    · next count tail hcount =>
      obtain ⟨⟨sides, rest⟩, hsides, rfl⟩ := Option.map_eq_some_iff.1 h
      obtain ⟨rfl, hc, -⟩ := Text.digits?_eq_some_iff.1 hcount
      obtain ⟨rfl, hs⟩ := sides?_eq_some_iff.1 hsides
      cases hflat : flat? rest with
      | mk flat suffix =>
        obtain ⟨rfl, hf, hn⟩ := flat?_eq_iff.1 hflat
        dsimp only
        rw [hflat]
        exact ⟨rfl, hc, hs, hf, hn⟩
    · cases h
  · rintro ⟨rfl, hc, hs, hf, hn⟩
    have hflat := flat?_eq_iff.2 ⟨rfl, hf, hn⟩
    have hsides := sides?_eq_some_iff.2 ⟨rfl, hs⟩
    unfold ofChars?
    rw [Text.digits?_append hc (by simp)]
    simp only [hsides, Option.map_some, hflat]

/-- A text has at most one layout. -/
theorem Spells.unique {l l' : Layout} (h : l.Spells cs) (h' : l'.Spells cs) : l = l' :=
  Option.some.inj ((ofChars?_eq_some_iff.2 h).symm.trans (ofChars?_eq_some_iff.2 h'))

/-! ## What a layout stands for -/

/-- The die of a layout is accepted exactly if its sides are within the width of a face. -/
theorem dice?_eq_some_iff {l : Layout} {d : Dice} :
    l.dice? = some d ↔ (∀ ds ∈ l.sides, decimal ds ≤ maxFace) ∧ d = l.die := by
  unfold dice? die
  cases l.sides with
  | none => simp [eq_comm (a := d)]
  | some ds => simp [eq_comm (a := d)]

/-- The sides that a layout names are within their width. -/
theorem Admissible.sides_le {l : Layout} (h : l.Admissible) {sides : Nat}
    (hdie : l.die = .standard sides) : sides ≤ maxFace := by
  unfold die at hdie
  cases hs : l.sides with
  | none => rw [hs] at hdie; cases hdie
  | some ds =>
    rw [hs] at hdie
    cases hdie
    exact h.sides ds hs

/-- The flat amount of a layout is accepted exactly if its digits are within the width of an amount.
-/
theorem amount?_eq_some_iff {l : Layout} {n : Int} :
    l.amount? = some n ↔
      (∀ f ∈ l.flat, (decimal f.2 : Int) ≤ Amount.greatest) ∧ n = l.amount := by
  unfold amount? amount
  cases l.flat with
  | none => simp [eq_comm (a := n)]
  | some f => simp [eq_comm (a := n)]

/-- The notation that a layout stands for. -/
def value (reading : Reading) (text : String) (l : Layout) : Notation :=
  ⟨text, reading.count (decimal l.count), l.die, l.amount, .ofSuffix reading l.suffix⟩

/-- A layout stands for a notation exactly if its sides and its flat amount are within their
widths. -/
theorem ofLayout?_eq_some_iff {reading : Reading} {text : String} {l : Layout} {n : Notation} :
    Notation.ofLayout? reading text l = some n ↔ l.Admissible ∧ n = l.value reading text := by
  unfold Notation.ofLayout?
  split
  · next d flat hd hf =>
    obtain ⟨hsides, rfl⟩ := dice?_eq_some_iff.1 hd
    obtain ⟨hflat, rfl⟩ := amount?_eq_some_iff.1 hf
    rw [Option.some.injEq, eq_comm]
    exact ⟨fun h => ⟨⟨hsides, hflat⟩, h⟩, fun h => h.2⟩
  · next hno =>
    refine ⟨nofun, fun ⟨⟨hsides, hflat⟩, _⟩ => ?_⟩
    exact absurd (amount?_eq_some_iff.2 ⟨hflat, rfl⟩)
      (hno _ _ (dice?_eq_some_iff.2 ⟨hsides, rfl⟩))

end Layout

namespace Notation

/-- A text is read as the notation that its layout stands for, if it has one whose sides and flat
amount are within their widths. -/
theorem parseWith_eq_ok_iff {reading : Reading} {input : String} {n : Notation} :
    parseWith reading input = .ok n ↔
      ∃ l : Layout, l.Spells (Text.lower (Text.trim input.toList)) ∧ l.Admissible ∧
        n = l.value reading (String.ofList (Text.trim input.toList)) := by
  have hbind : (layout? (Text.trim input.toList)).bind
      (ofLayout? reading (String.ofList (Text.trim input.toList))) = some n ↔
      ∃ l : Layout, l.Spells (Text.lower (Text.trim input.toList)) ∧ l.Admissible ∧
        n = l.value reading (String.ofList (Text.trim input.toList)) := by
    simp only [Option.bind_eq_some_iff, layout?, Layout.ofChars?_eq_some_iff,
      Layout.ofLayout?_eq_some_iff]
  rw [← hbind]
  unfold parseWith
  dsimp only
  split
  · next hn => rw [hn, Except.ok.injEq, Option.some.injEq]
  · next hn => rw [hn]; exact ⟨nofun, nofun⟩

/-- A text that is not read is refused under its own name. -/
theorem parseWith_eq_error_iff {reading : Reading} {input : String} {e : RollError} :
    parseWith reading input = .error e ↔
      e = .invalidNotation (String.ofList (Text.trim input.toList)) ∧
        ¬ ∃ n, parseWith reading input = .ok n := by
  unfold parseWith
  dsimp only
  split
  · simp
  · simp [eq_comm]

/-- What a notation has can be seen without looking at the rest of it. -/
theorem eq_of_parse {α : Type} {input : String} {n : Notation} (f : Notation → α) {a : α}
    (hn : parse input = .ok n) (ha : (parse input).toOption.map f = some a) : f n = a := by
  rw [hn] at ha
  exact Option.some.inj ha

/-- A text is a notation exactly if, trimmed and in lowercase, it has a layout whose sides and flat
amount are within their widths; this layout is the only one, and its parts are the parts of the
notation. Every other text is refused under its own name, a text with too many sides or too large
an amount too: its digits are never read as part of the suffix. -/
theorem parse_iff_spells (input : String) :
    let text := String.ofList (Text.trim input.toList)
    let lowered := Text.lower (Text.trim input.toList)
    (∀ n : Notation, parse input = .ok n ↔ ∃ l : Layout, l.Spells lowered ∧ l.Admissible ∧
      n = ⟨text, min maxCount (decimal l.count), l.die, l.amount,
        Modifiers.parse (String.ofList l.suffix)⟩) ∧
    (∀ e : RollError, parse input = .error e ↔
      e = .invalidNotation text ∧ ¬ ∃ l : Layout, l.Spells lowered ∧ l.Admissible) ∧
    (∀ l l' : Layout, l.Spells lowered → l'.Spells lowered → l = l') ∧
    ∀ l : Layout, l.Spells lowered → ¬ l.Admissible →
      parse input = .error (.invalidNotation text) := by
  intro text lowered
  have hvalue (l : Layout) : l.value .saturating text =
      ⟨text, min maxCount (decimal l.count), l.die, l.amount,
        Modifiers.parse (String.ofList l.suffix)⟩ := by
    rw [Layout.value, Modifiers.parse, String.toList_ofList]
    rfl
  have hok (n : Notation) : parse input = .ok n ↔ ∃ l : Layout, l.Spells lowered ∧ l.Admissible ∧
      n = l.value .saturating text := parseWith_eq_ok_iff
  have herror (e : RollError) : parse input = .error e ↔
      e = .invalidNotation text ∧ ¬ ∃ l : Layout, l.Spells lowered ∧ l.Admissible := by
    refine parseWith_eq_error_iff.trans (and_congr_right fun _ => not_congr ?_)
    constructor
    · rintro ⟨n, hn⟩
      obtain ⟨l, hl, ha, -⟩ := (hok n).1 hn
      exact ⟨l, hl, ha⟩
    · rintro ⟨l, hl, ha⟩
      exact ⟨_, (hok _).2 ⟨l, hl, ha, rfl⟩⟩
  refine ⟨fun n => ?_, herror, fun l l' => Layout.Spells.unique, fun l hl hna => ?_⟩
  · simpa only [hvalue] using hok n
  · refine (herror _).2 ⟨rfl, ?_⟩
    rintro ⟨l', hl', ha⟩
    exact hna (hl'.unique hl ▸ ha)

end Notation

end Tabletop
