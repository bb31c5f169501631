import Tabletop.Proofs.Evaluation.Canonical

/-!
# What is refused, and with which error

The numbers of a notation can be wrong in several ways at once. `Fault` says of the numbers as they
are written, of whatever length, which error they call for. Reading them and building the roll come
to this error and to no other (`Roll.ofText_eq_error_iff`), although a count is cut to its width in
between, and an evaluation that ends in an error has not touched its source
(`evaluate_refuses_exactly`).
-/

namespace Tabletop

open Text (decimal)

/-! ## Dice that cannot be rolled -/

/-- Why dice cannot be rolled, the ceiling being checked first and the sides last. -/
inductive Unrollable (count : Nat) (dice : Dice) (maxDice : Nat) : RollError → Prop
  | tooMany : maxDice < count → Unrollable count dice maxDice (.tooManyDice maxDice)
  | tooFew : count ≤ maxDice → count = 0 → Unrollable count dice maxDice .tooFewDice
  | sides {n : Nat} : 0 < count → count ≤ maxDice → dice = .standard n → n < 2 →
      Unrollable count dice maxDice (.invalidSides n)

/-- A draft is refused with the error that its numbers call for. -/
theorem Draft.build_eq_error_iff {d : Draft} {e : RollError} :
    d.build = .error e ↔ Unrollable d.count d.dice d.maxDice e := by
  constructor
  · intro h
    unfold build at h
    dsimp only at h
    split at h
    · next hmax => cases h; exact .tooMany hmax
    · next hmax =>
      split at h
      · next hzero => cases h; exact .tooFew (Nat.not_lt.1 hmax) hzero
      · next hzero =>
        split at h
        · next sides hdice =>
          split at h
          · next hsides =>
            cases h
            exact .sides (Nat.pos_of_ne_zero hzero) (Nat.not_lt.1 hmax) hdice hsides
          · cases h
        · cases h
  · intro h
    unfold build
    cases h with
    | tooMany hmax => rw [if_pos hmax]
    | tooFew hmax hzero => rw [if_neg (Nat.not_lt.2 hmax), if_pos hzero]
    | sides hpos hmax hdice hsides =>
      rw [if_neg (Nat.not_lt.2 hmax), if_neg (Nat.ne_of_gt hpos), hdice]
      exact if_pos hsides

/-- A notation is refused exactly if its dice cannot be rolled, and with the reason for it. -/
theorem Roll.ofNotation_eq_error_iff {n : Notation} {maxDice : Nat} {e : RollError} :
    Roll.ofNotation n maxDice = .error e ↔ Unrollable n.count n.dice maxDice e := by
  rw [← Draft.build_eq_error_iff (d := ⟨n.dice, n.count, n.flat, n.modifiers, maxDice⟩)]
  unfold ofNotation
  cases Draft.build ⟨n.dice, n.count, n.flat, n.modifiers, maxDice⟩ <;> simp [Except.map]

/-! ## Texts that are refused -/

/-- The layout is that of a text without the blanks around it and in lowercase. -/
def Layout.Of (input : String) (l : Layout) : Prop :=
  l.Spells (Text.lower (Text.trim input.toList))

/-- The roll that is read from a text and checked. -/
def Roll.ofText (reading : Reading) (input : String) (maxDice : Nat) : Except RollError Roll :=
  (Notation.parseWith reading input).bind (Roll.ofNotation · maxDice)

/-- A text that cannot be read: it has no layout, or a number of it is out of its width. -/
inductive Unreadable (input : String) : Prop
  | grammar : (¬ ∃ l : Layout, l.Of input) → Unreadable input
  | sides {l : Layout} {ds : List Char} : l.Of input → l.sides = some ds → maxFace < decimal ds →
      Unreadable input
  | flat {l : Layout} {minus : Bool} {ds : List Char} : l.Of input → l.flat = some (minus, ds) →
      Amount.greatest < decimal ds → Unreadable input

/-- What is wrong with a text that is refused, by its numbers as they are written: it cannot be
read, or else its dice cannot be rolled. -/
inductive Fault (input : String) (maxDice : Nat) : RollError → Prop
  | text : Unreadable input →
      Fault input maxDice (.invalidNotation (String.ofList (Text.trim input.toList)))
  | dice {l : Layout} {e : RollError} : l.Of input → l.Admissible →
      Unrollable (decimal l.count) l.die maxDice e → Fault input maxDice e

section
variable {reading : Reading} {input : String} {maxDice : Nat} {e : RollError} {l : Layout}

/-- A reading leaves the counts up to a ceiling as they are, and larger ones above it. -/
def Reading.CountsTo (reading : Reading) (maxDice : Nat) : Prop :=
  ∀ n, min (maxDice + 1) (reading.count n) = min (maxDice + 1) n

/-- A count that stops at the greatest one counts up to every ceiling within the width of a face. -/
theorem Reading.saturating_countsTo (h : maxDice ≤ maxFace) : saturating.CountsTo maxDice := by
  have hwidths : maxFace < maxCount := by decide
  intro n
  dsimp only [saturating]
  omega

/-- An exact count counts up to every ceiling. -/
theorem Reading.exact_countsTo : exact.CountsTo maxDice := fun _ => rfl

/-- How a count is read beyond the ceiling does not matter to what is refused. -/
theorem Reading.CountsTo.unrollable_iff (h : reading.CountsTo maxDice) {n : Nat} {dice : Dice} :
    Unrollable (reading.count n) dice maxDice e ↔ Unrollable n dice maxDice e := by
  have hn := h n
  have hle : reading.count n ≤ maxDice ↔ n ≤ maxDice := by omega
  have hzero : reading.count n = 0 ↔ n = 0 := by omega
  constructor
  · intro hwrong
    cases hwrong with
    | tooMany hmax => exact .tooMany (by omega)
    | tooFew hmax h0 => exact .tooFew (hle.1 hmax) (hzero.1 h0)
    | sides hpos hmax hdice hsides => exact .sides (by omega) (hle.1 hmax) hdice hsides
  · intro hwrong
    cases hwrong with
    | tooMany hmax => exact .tooMany (by omega)
    | tooFew hmax h0 => exact .tooFew (hle.2 hmax) (hzero.2 h0)
    | sides hpos hmax hdice hsides => exact .sides (by omega) (hle.2 hmax) hdice hsides

/-- A text can be read exactly if it has a layout whose numbers are within their widths. -/
theorem not_unreadable_iff : ¬ Unreadable input ↔ ∃ l : Layout, l.Of input ∧ l.Admissible := by
  constructor
  · intro hread
    obtain ⟨l, hl⟩ : ∃ l : Layout, l.Of input := Classical.not_not.1 (mt .grammar hread)
    refine ⟨l, hl, fun ds hs => ?_, fun f hf => ?_⟩
    · exact Nat.not_lt.1 fun hlarge => hread (.sides hl hs hlarge)
    · exact Int.not_lt.1 fun hlarge => hread (.flat hl hf hlarge)
  · rintro ⟨l, hl, hadm⟩ hno
    -- The text has no other layout.
    cases hno with
    | grammar hno => exact hno ⟨l, hl⟩
    | sides hl' hs hlarge =>
      cases hl'.unique hl
      exact Nat.not_le.2 hlarge (hadm.sides _ hs)
    | flat hl' hf hlarge =>
      cases hl'.unique hl
      exact Int.not_le.2 hlarge (hadm.flat _ hf)

/-- A text with a layout whose sides and flat amount are within their widths is read as what this
layout stands for. -/
theorem Roll.ofText_of_admissible (hl : l.Of input) (hadm : l.Admissible) :
    ofText reading input maxDice =
      ofNotation (l.value reading (String.ofList (Text.trim input.toList))) maxDice := by
  unfold ofText
  rw [Notation.parseWith_eq_ok_iff.2 ⟨l, hl, hadm, rfl⟩]
  rfl

/-- What is accepted was read and then checked. -/
theorem Roll.exists_notation_of_ofText {r : Roll} (h : ofText reading input maxDice = .ok r) :
    ∃ n, Notation.parseWith reading input = .ok n ∧ ofNotation n maxDice = .ok r := by
  unfold ofText at h
  cases hn : Notation.parseWith reading input with
  | error e => rw [hn] at h; cases h
  | ok n =>
    rw [hn] at h
    exact ⟨n, rfl, h⟩

/-- A text that cannot be read is refused under its own name. -/
theorem Roll.ofText_of_unreadable (hno : Unreadable input) :
    ofText reading input maxDice =
      .error (.invalidNotation (String.ofList (Text.trim input.toList))) := by
  unfold ofText
  rw [Notation.parseWith_eq_error_iff.2 ⟨rfl, ?_⟩]
  · rfl
  · rintro ⟨n, hn⟩
    obtain ⟨l, hl, hadm, -⟩ := Notation.parseWith_eq_ok_iff.1 hn
    exact not_unreadable_iff.2 ⟨l, hl, hadm⟩ hno

/-- A text is refused exactly with the error that its numbers call for, however large counts are
read. -/
theorem Roll.ofText_eq_error_iff (h : reading.CountsTo maxDice) :
    ofText reading input maxDice = .error e ↔ Fault input maxDice e := by
  by_cases hno : Unreadable input
  · rw [ofText_of_unreadable hno, Except.error.injEq]
    constructor
    · rintro rfl
      exact .text hno
    · intro hfault
      cases hfault with
      | text => rfl
      | dice hl hadm _ => exact absurd hno (not_unreadable_iff.2 ⟨_, hl, hadm⟩)
  · obtain ⟨l, hl, hadm⟩ := not_unreadable_iff.1 hno
    rw [ofText_of_admissible hl hadm, ofNotation_eq_error_iff]
    refine h.unrollable_iff.trans ⟨.dice hl hadm, fun hfault => ?_⟩
    cases hfault with
    | text hno' => exact absurd hno' hno
    | dice hl' _ hwrong =>
      cases hl'.unique hl
      exact hwrong

/-- Every other text is accepted, and the roll takes over its numbers as they are written. -/
theorem Roll.exists_ofText (h : reading.CountsTo maxDice) (hok : ∀ e, ¬ Fault input maxDice e) :
    ∃ l : Layout, l.Of input ∧ l.Admissible ∧ ofText reading input maxDice =
      .ok ⟨String.ofList (Text.trim input.toList), decimal l.count, l.die, l.amount,
        .ofSuffix reading l.suffix⟩ := by
  obtain ⟨l, hl, hadm⟩ := not_unreadable_iff.1 fun hno => hok _ (.text hno)
  refine ⟨l, hl, hadm, ?_⟩
  cases hr : ofText reading input maxDice with
  | error e => exact absurd ((ofText_eq_error_iff h).1 hr) (hok e)
  | ok r =>
    rw [ofText_of_admissible hl hadm, ofNotation_eq_ok_iff] at hr
    obtain ⟨⟨-, hmax, -⟩, rfl⟩ := hr
    have hcount : reading.count (decimal l.count) = decimal l.count := by
      have hn := h (decimal l.count)
      dsimp only [Layout.value] at hmax
      omega
    rw [Layout.value, hcount]

end

/-! ## Evaluations -/

section
variable {σ : Type} [DieSource σ] {reading : Reading} {input : String} {settings : Settings}

/-- A text that is refused leaves its source alone. -/
theorem run_evaluateWith_of_error {e : RollError}
    (h : Roll.ofText reading input settings.maxDice = .error e) (s : σ) :
    ∃ es : List Event, (evaluateWith reading input settings).run s =
      ⟨some (.error e), s, es.map .event⟩ := by
  unfold evaluateWith
  unfold Roll.ofText at h
  cases hn : Notation.parseWith reading input with
  | error e' =>
    rw [hn] at h
    cases h
    exact ⟨[], rfl⟩
  | ok n =>
    rw [hn] at h
    have hr : Roll.ofNotation n settings.maxDice = .error e := h
    refine ⟨n.events, ?_⟩
    simp [hr, Roller.run_bind, Roller.run_reports, Roller.run_pure, Run.after]

/-- A text that is accepted is rolled, and what is done beyond the roll takes no draw. -/
theorem run_evaluateWith_of_ofText {r : Roll}
    (h : Roll.ofText reading input settings.maxDice = .ok r) (s : σ) :
    ∃ before behind : List Event, (evaluateWith reading input settings).run s =
      ⟨(r.roll.run s).outcome.map .ok, (r.roll.run s).rest,
        before.map .event ++ ((r.roll.run s).log ++ behind.map .event)⟩ := by
  obtain ⟨n, hn, hr⟩ := Roll.exists_notation_of_ofText h
  exact ⟨_, _, run_evaluateWith_of_ok hn hr s⟩

end

/-- Whatever the text and the source, and whatever ceiling of 32 bits is set: an evaluation ends in
an error exactly if the numbers of the text, as they are written, call for this error, and then
nothing was drawn and the source is left as it was. Every other text is rolled, as so many dice as
are written. -/
theorem evaluate_refuses_exactly {settings : Settings} (hmax : settings.maxDice ≤ maxFace)
    (input : String) {σ : Type} [DieSource σ] (s : σ) :
    let run := (evaluate input settings).run s
    (∀ e, run.outcome = some (.error e) ↔ Fault input settings.maxDice e) ∧
    (∀ e, run.outcome = some (.error e) → run.rest = s ∧ asked run.log = []) ∧
    ((∀ e, ¬ Fault input settings.maxDice e) → ∃ l : Layout, l.Of input ∧ l.Admissible ∧
      let r : Roll := ⟨String.ofList (Text.trim input.toList), decimal l.count, l.die, l.amount,
        Modifiers.parse (String.ofList l.suffix)⟩
      run.outcome = (r.roll.run s).outcome.map .ok ∧ run.rest = (r.roll.run s).rest ∧
        asked run.log = asked (r.roll.run s).log ∧ drawn run.log = drawn (r.roll.run s).log) := by
  intro run
  have hcounts := Reading.saturating_countsTo hmax
  cases hr : Roll.ofText .saturating input settings.maxDice with
  | error e =>
    have hfault := (Roll.ofText_eq_error_iff hcounts).1 hr
    obtain ⟨es, hrun⟩ := run_evaluateWith_of_error hr s
    have hrun : run = _ := hrun
    rw [hrun]
    refine ⟨fun e' => ?_, fun _ _ => ⟨rfl, asked_events es⟩, fun hno => absurd hfault (hno e)⟩
    rw [← Roll.ofText_eq_error_iff hcounts, hr, Option.some.injEq, Except.error.injEq,
      Except.error.injEq]
  | ok r =>
    have hno (e : RollError) : ¬ Fault input settings.maxDice e := fun he => by
      rw [(Roll.ofText_eq_error_iff hcounts).2 he] at hr
      cases hr
    obtain ⟨before, behind, hrun⟩ := run_evaluateWith_of_ofText hr s
    have hrun : run = _ := hrun
    have hok (e : RollError) : run.outcome ≠ some (.error e) := by
      rw [hrun]
      cases (r.roll.run s).outcome <;> nofun
    refine ⟨fun e => iff_of_false (hok e) (hno e), fun e he => absurd he (hok e), fun _ => ?_⟩
    obtain ⟨l, hl, hadm, hr'⟩ := Roll.exists_ofText hcounts hno
    cases hr.symm.trans hr'
    refine ⟨l, hl, hadm, ?_⟩
    rw [hrun, Modifiers.parse, String.toList_ofList]
    simp only [asked_append, asked_events, drawn_append, drawn_events, List.append_nil,
      List.nil_append, and_self]

/-- A count that 64 bits cannot hold, of a die that has one side only: under the largest ceiling
that there is, the count is what is refused. -/
theorem evaluate_refuses_exactly_widest :
    let input := " 99999999999999999999999999d1 "
    let settings : Settings := ⟨maxFace, 10⟩
    Fault input maxFace (.tooManyDice maxFace) ∧ ∀ (σ : Type) [DieSource σ] (s : σ),
      ((evaluate input settings).run s).outcome = some (.error (.tooManyDice maxFace)) ∧
        ((evaluate input settings).run s).rest = s ∧
          asked ((evaluate input settings).run s).log = [] := by
  intro input settings
  let l : Layout := ⟨"99999999999999999999999999".toList, some ['1'], none, []⟩
  have hl : l.Of input := Layout.ofChars?_eq_some_iff.1 (by decide +kernel)
  have hadm : l.Admissible := ⟨by decide +kernel, nofun⟩
  have hfault : Fault input maxFace (.tooManyDice maxFace) :=
    .dice hl hadm (.tooMany (by decide +kernel))
  refine ⟨hfault, fun σ _ s => ?_⟩
  obtain ⟨hiff, hleft, -⟩ := evaluate_refuses_exactly (Nat.le_refl settings.maxDice) input s
  have herror := (hiff _).2 hfault
  exact ⟨herror, hleft _ herror⟩

end Tabletop
