import Tabletop.Proofs.Evaluation.Refusal
import Tabletop.Proofs.Roll.Possible
import Tabletop.Proofs.Text.Lowercase

/-!
# Fudge dice do not look at their suffix

The suffix of a notation is cut off where it is typed and read as modifiers, which go into the roll,
but Fudge dice have no use for them. Whatever stands behind the flat amount, as long as it cannot be
taken for more of it, the layout in front stays as it is (`exists_of_fudgeText`): neither trimming
nor lowercasing makes a digit or a sign of something else. From there on the two rolls have the same
range, and the two evaluations ask for the same draws and come to the same outcome
(`evaluate_fudge_ignores_suffix`).
-/

namespace Tabletop

open Text (Numeral NoDigit decimal BeforeLetters)

/-! ## The layout in front of a suffix -/

namespace Layout

variable {count pre suffix : List Char} {flat : Option (Bool × List Char)}

/-- The suffix cannot be taken for more of a flat amount: behind one it does not go on with a digit,
and where there is none it does not begin like one. -/
structure EndsBefore (flat : Option (Bool × List Char)) (suffix : List Char) : Prop where
  /-- No digit goes on with the flat amount. -/
  digit : flat ≠ none → NoDigit suffix
  /-- No sign and digit make one. -/
  sign : flat = none → ¬ SignedDigit suffix

/-- The end of a text is not taken for more of a layout. -/
theorem endsBefore_nil : EndsBefore flat [] where
  digit _ := Text.noDigit_nil
  sign _ := by rintro ⟨minus, digit, rest, -, h⟩; cases h

/-- A suffix may be cut off at its end. -/
theorem EndsBefore.of_prefix (h : EndsBefore flat suffix) (hpre : pre <+: suffix) :
    EndsBefore flat pre := by
  obtain ⟨rest, rfl⟩ := hpre
  refine ⟨fun hf c hc => ?_, fun hf => ?_⟩
  · exact h.digit hf c (List.mem_head?_append_of_mem_head? hc)
  · rintro ⟨minus, digit, tail, hd, rfl⟩
    exact h.sign hf ⟨minus, digit, tail ++ rest, hd, rfl⟩

/-- A digit comes before all letters. -/
theorem beforeLetters_of_isDigit {c : Char} (h : c.isDigit = true) : BeforeLetters c := by
  have := Text.toNat_of_isDigit h
  unfold BeforeLetters
  omega

/-- A sign comes before all letters. -/
theorem beforeLetters_signChar (minus : Bool) : BeforeLetters (signChar minus) := by
  unfold BeforeLetters
  cases minus <;> decide

/-- Lowercasing a suffix makes neither a digit nor a sign at its head. -/
theorem EndsBefore.lowerFrom (h : EndsBefore flat suffix) (before : List Char) :
    EndsBefore flat (Text.lowerFrom before suffix) := by
  refine ⟨fun hf c hc => ?_, fun hf => ?_⟩
  · obtain ⟨rest, hrest⟩ := List.head?_eq_some_iff.1 hc
    refine Bool.eq_false_iff.2 fun hd => ?_
    obtain ⟨tail, rfl, -⟩ := Text.eq_cons_of_lowerFrom hrest (beforeLetters_of_isDigit hd)
    rw [Text.noDigit_cons.1 (h.digit hf)] at hd
    cases hd
  · rintro ⟨minus, digit, rest, hd, hlower⟩
    obtain ⟨tail, rfl, hrest⟩ := Text.eq_cons_of_lowerFrom hlower (beforeLetters_signChar minus)
    obtain ⟨tail, rfl, -⟩ := Text.eq_cons_of_lowerFrom hrest.symm (beforeLetters_of_isDigit hd)
    exact h.sign hf ⟨minus, digit, tail, hd, rfl⟩

/-- The text of Fudge dice with a flat amount and a suffix, as it is typed. -/
def fudgeText (count : List Char) (flat : Option (Bool × List Char)) (suffix : List Char) :
    String :=
  String.ofList (count ++ 'd' :: 'F' :: flatChars flat ++ suffix)

/-- A flat amount as typed is made of plain characters. -/
theorem plain_flatChars (hflat : ∀ f ∈ flat, Numeral f.2) : ∀ c ∈ flatChars flat, Text.Plain c := by
  cases flat with
  | none => nofun
  | some f =>
    obtain ⟨minus, ds⟩ := f
    rw [flatChars, List.forall_mem_cons]
    refine ⟨?_, (hflat _ rfl).plain⟩
    cases minus <;> decide

/-- The parts in front of a suffix are found as they are typed, whatever the suffix. -/
theorem exists_of_fudgeText (hcount : Numeral count) (hflat : ∀ f ∈ flat, Numeral f.2)
    (hsuffix : EndsBefore flat suffix) :
    ∃ lowered, (⟨count, none, flat, lowered⟩ : Layout).Of (fudgeText count flat suffix) := by
  have hfront : ∀ c ∈ count ++ 'd' :: 'F' :: flatChars flat,
      c.toNat < 128 ∧ Text.isBlank c = false := by
    simp only [List.forall_mem_append, List.forall_mem_cons]
    exact ⟨fun c hc => ⟨(hcount.plain c hc).ascii, (hcount.plain c hc).notBlank⟩, by decide,
      by decide, fun c hc => ⟨(plain_flatChars hflat c hc).ascii,
        (plain_flatChars hflat c hc).notBlank⟩⟩
  let before := (count ++ 'd' :: 'F' :: flatChars flat).reverse ++ []
  let lowered := Text.lowerFrom before (suffix.rdropWhile Text.isBlank)
  have hends : EndsBefore flat lowered :=
    (hsuffix.of_prefix (List.rdropWhile_prefix _ _)).lowerFrom before
  refine ⟨lowered, ?_, hcount, nofun, fun f hf => ⟨hflat f hf, hends.digit ?_⟩, hends.sign⟩
  · rw [fudgeText, String.toList_ofList, Text.trim_append (by simp) fun c hc => (hfront c hc).2,
      Text.lower, Text.lowerFrom_append_of_ascii fun c hc => (hfront c hc).1, List.map_append,
      List.map_cons, List.map_cons, Text.map_toLower_of_plain hcount.plain,
      Text.map_toLower_of_plain (plain_flatChars hflat)]
    simp [lowered, before]
  · rintro rfl
    cases hf

end Layout

/-! ## The rolls -/

namespace Roll

/-- The range of Fudge dice, whatever their modifiers. -/
theorem possible?_of_fudge {r : Roll} (hdice : r.dice = .fudge) :
    r.possible? = some (Amount.clamp (-(r.count : Int) + r.flat),
      Amount.clamp (r.count + r.flat)) := by
  unfold possible? bareTotals?
  rw [hdice]
  rfl

/-- Fudge dice are drawn one after the other, and nothing else is done, whatever their modifiers. -/
theorem run_roll_of_fudge {r : Roll} (hdice : r.dice = .fudge) {σ : Type} [DieSource σ] (s : σ) :
    let dice := (Roller.times r.count (Roller.draw 3)).run s
    r.roll.run s = ⟨dice.outcome.map fun faces => Outcome.fudge r.text (faces.map fudgeWorth) r.flat,
      dice.rest, dice.log⟩ := by
  intro dice
  unfold roll rollFudge
  rw [hdice]
  dsimp only
  rw [Roller.bind_assoc, Roller.run_bind]
  cases hrun : (Roller.times r.count (Roller.draw 3)).run s with
  | mk outcome t log =>
    have hdice : dice = ⟨outcome, t, log⟩ := hrun
    rw [hdice]
    cases outcome with
    | none => rfl
    | some faces =>
      dsimp only
      rw [Roller.pure_bind, Roller.run_pure]
      simp only [Run.after, List.append_nil, Option.map_some]
      rfl

section
variable {count suffix : List Char} {flat : Option (Bool × List Char)} {maxDice : Nat}

/-- Fudge dice as typed have a layout that can be rolled, whatever the suffix is lowercased to. -/
theorem of_fudgeText (hcount : Numeral count)
    (hflat : ∀ f ∈ flat, Numeral f.2 ∧ (decimal f.2 : Int) ≤ Amount.greatest)
    (hsuffix : Layout.EndsBefore flat suffix) : ∃ lowered,
      (⟨count, none, flat, lowered⟩ : Layout).Of (Layout.fudgeText count flat suffix) ∧
        (⟨count, none, flat, lowered⟩ : Layout).Admissible := by
  obtain ⟨lowered, hl⟩ := Layout.exists_of_fudgeText hcount (fun f hf => (hflat f hf).1) hsuffix
  exact ⟨lowered, hl, nofun, fun f hf => (hflat f hf).2⟩

/-- What is typed of Fudge dice in front of a suffix is what is rolled. -/
theorem exists_ofText_fudgeText (hmax : maxDice ≤ maxFace) (hcount : Numeral count)
    (hpos : 0 < decimal count) (hle : decimal count ≤ maxDice)
    (hflat : ∀ f ∈ flat, Numeral f.2 ∧ (decimal f.2 : Int) ≤ Amount.greatest)
    (hsuffix : Layout.EndsBefore flat suffix) :
    ∃ modifiers, ofText .saturating (Layout.fudgeText count flat suffix) maxDice =
      .ok ⟨String.ofList (Text.trim (Layout.fudgeText count flat suffix).toList), decimal count,
        .fudge, (⟨count, none, flat, []⟩ : Layout).amount, modifiers⟩ := by
  obtain ⟨lowered, hl, hadm⟩ := of_fudgeText hcount hflat hsuffix
  refine ⟨.ofSuffix .saturating lowered, ?_⟩
  have hread : Reading.saturating.count (decimal count) = decimal count :=
    Nat.min_eq_right (Nat.le_trans (Nat.le_trans hle hmax) (by decide))
  rw [ofText_of_admissible hl hadm, ofNotation_eq_ok_iff, Layout.value, hread]
  exact ⟨⟨hpos, hle, by rintro _ ⟨⟩⟩, rfl⟩

/-- No Fudge dice at all are refused, with whatever suffix. -/
theorem ofText_fudgeText_of_zero (hmax : maxDice ≤ maxFace) (hcount : Numeral count)
    (hzero : decimal count = 0)
    (hflat : ∀ f ∈ flat, Numeral f.2 ∧ (decimal f.2 : Int) ≤ Amount.greatest)
    (hsuffix : Layout.EndsBefore flat suffix) :
    ofText .saturating (Layout.fudgeText count flat suffix) maxDice = .error .tooFewDice := by
  obtain ⟨lowered, hl, hadm⟩ := of_fudgeText hcount hflat hsuffix
  refine (ofText_eq_error_iff (Reading.saturating_countsTo hmax)).2 (.dice hl hadm (.tooFew ?_ hzero))
  rw [hzero]
  exact Nat.zero_le maxDice

end

end Roll

/-! ## The evaluations -/

/-- What an outcome says of as many Fudge dice as were rolled, and of nothing else. -/
structure Outcome.OfFudge (o : Outcome) (text : String) (count : Nat) (flat : Int)
    (log : List Entry) : Prop where
  /-- A die with three sides was asked for, once for each of the dice. -/
  asked : asked log = List.replicate count 3
  /-- All dice count, as they came, with a face of 2 for nothing. -/
  rolls : o.rolls = (drawn log).map fudgeWorth
  /-- All dice are counted. -/
  rolled : o.diceRolled = count
  /-- The total is the sum of the dice, going around at the ends of its width. -/
  total : o.total = Amount.wrap o.rolls.sum
  /-- It is their sum if they show faces that a die with three sides has. -/
  sum : (∀ face ∈ drawn log, face ≤ 3) → o.total = o.rolls.sum
  /-- It is their sum on a source of any other faces too, if there are not too many dice. -/
  sumOfWide : (∀ face ∈ drawn log, face ≤ maxFace) → count ≤ 2 ^ 31 → o.total = o.rolls.sum
  /-- The flat amount of the text is added to the total. -/
  modifiedTotal : o.modifiedTotal = Amount.clamp (o.total + flat)
  /-- It is reported. -/
  flat : o.flat = flat
  /-- The dice are not scored by successes. -/
  successCount : o.successCount = none
  /-- The dice are Fudge dice. -/
  isFudge : o.isFudge = true
  /-- They are reported under the text. -/
  text : o.text = text

/-- An evaluation rolls so many Fudge dice and does nothing else. -/
structure Run.OfFudge {σ : Type} [DieSource σ] (run : Run σ (Except RollError Outcome)) (s : σ)
    (text : String) (count : Nat) (flat : Int) : Prop where
  /-- Nothing but a die with three sides is asked for, and not more often than there are dice. -/
  asked : ∃ k ≤ count, asked run.log = List.replicate k 3
  /-- It comes to an end exactly if the source has a face for each of the dice. -/
  ends : run.outcome.isSome = ((Roller.times count (Roller.draw 3)).run s).outcome.isSome
  /-- Then it gives an outcome. -/
  outcome : ∀ answer, run.outcome = some answer →
    ∃ o, answer = .ok o ∧ o.OfFudge text count flat run.log

section
variable {σ : Type} [DieSource σ] {input text : String} {settings : Settings} {count : Nat}
  {flat : Int} {modifiers : Modifiers}

/-- What is evaluated of Fudge dice, apart from its reports. -/
theorem run_evaluate_of_fudge
    (h : Roll.ofText .saturating input settings.maxDice = .ok ⟨text, count, .fudge, flat, modifiers⟩)
    (s : σ) : let dice := (Roller.times count (Roller.draw 3)).run s
    ∃ before behind : List Event, (evaluate input settings).run s =
      ⟨dice.outcome.map fun faces => .ok (Outcome.fudge text (faces.map fudgeWorth) flat),
        dice.rest, before.map .event ++ (dice.log ++ behind.map .event)⟩ := by
  obtain ⟨before, behind, hrun⟩ := run_evaluateWith_of_ofText h s
  refine ⟨before, behind, ?_⟩
  unfold evaluate
  rw [hrun, Roll.run_roll_of_fudge rfl, Option.map_map]
  rfl

/-- The faces that come of Fudge dice make their outcome, whatever is reported before and behind. -/
theorem ofFudge_of_run {t : σ} {faces : List Nat} {log : List Entry} (hcount : count ≤ maxFace)
    {s : σ} (h : (Roller.times count (Roller.draw 3)).run s = ⟨some faces, t, log⟩)
    (before behind : List Event) :
    (Outcome.fudge text (faces.map fudgeWorth) flat).OfFudge text count flat
      (before.map .event ++ (log ++ behind.map .event)) := by
  obtain ⟨hasked, hdrawn⟩ := Roller.asked_of_run_times_draw h
  obtain ⟨hlen, -⟩ := Roller.series_of_run_times (P := fun _ _ => True) (fun _ => trivial) h
  have hdrawn' : drawn (before.map .event ++ (log ++ behind.map .event)) = faces := by
    rw [drawn_append, drawn_append, drawn_events, drawn_events, hdrawn]
    simp
  have hwidth : faces.length ≤ maxFace := hlen ▸ hcount
  exact {
    asked := by
      rw [asked_append, asked_append, asked_events, asked_events, hasked]
      simp
    rolls := by rw [hdrawn']; rfl
    rolled := (List.length_map _).trans hlen
    total := rfl
    sum := fun hfaces => by
      rw [hdrawn'] at hfaces
      refine (Outcome.exact_fudge hfaces hwidth ?_ text flat).total
      unfold maxFace UInt32.size at hwidth
      unfold Amount.greatest
      omega
    sumOfWide := fun hfaces hfew => by
      rw [hdrawn'] at hfaces
      refine (Outcome.exact_fudge hfaces hwidth ?_ text flat).total
      unfold maxFace UInt32.size Amount.greatest
      omega
    modifiedTotal := rfl
    flat := rfl
    successCount := rfl
    isFudge := rfl
    text := rfl }

/-- The evaluation of a text that asks for Fudge dice rolls these and does nothing else. -/
theorem Run.ofFudge (hcount : count ≤ maxFace)
    (h : Roll.ofText .saturating input settings.maxDice = .ok ⟨text, count, .fudge, flat, modifiers⟩)
    (s : σ) : Run.OfFudge ((evaluate input settings).run s) s text count flat := by
  obtain ⟨before, behind, hrun⟩ := run_evaluate_of_fudge h s
  rw [hrun]
  refine ⟨?_, Option.isSome_map .., fun answer hanswer => ?_⟩
  · obtain ⟨k, hk, hasked⟩ := Roller.exists_asked_times_draw 3 count s
    refine ⟨k, hk, ?_⟩
    rw [asked_append, asked_append, asked_events, asked_events, hasked]
    simp
  · obtain ⟨faces, hfaces, rfl⟩ := Option.map_eq_some_iff.1 hanswer
    exact ⟨_, rfl, ofFudge_of_run hcount (Run.eq_of_outcome hfaces) before behind⟩

/-- Two texts of the same Fudge dice are evaluated alike, whatever their modifiers. -/
theorem evaluate_fudge_alike {again text' : String} {modifiers' : Modifiers}
    (h : Roll.ofText .saturating input settings.maxDice = .ok ⟨text, count, .fudge, flat, modifiers⟩)
    (h' : Roll.ofText .saturating again settings.maxDice =
      .ok ⟨text', count, .fudge, flat, modifiers'⟩) (s : σ) :
    Run.Alike text' ((evaluate again settings).run s) ((evaluate input settings).run s) := by
  obtain ⟨before, behind, hrun⟩ := run_evaluate_of_fudge h s
  obtain ⟨before', behind', hrun'⟩ := run_evaluate_of_fudge h' s
  rw [hrun, hrun']
  refine ⟨?_, ?_, rfl, ?_⟩
  · simp only [asked_append, asked_events]
  · simp only [drawn_append, drawn_events]
  · cases ((Roller.times count (Roller.draw 3)).run s).outcome with
    | none => exact .inl ⟨rfl, rfl⟩
    | some faces => exact .inr ⟨_, rfl, rfl⟩

end

/-- Fudge dice are typed with a flat amount, or without, and with whatever suffix cannot be taken
for more of it. With the suffix and without it, on every source, there is the same roll of three
sides for each of the dice and the same outcome but for its text; both rolls have the same range, and
where there are no dice both are refused before anything is rolled. -/
theorem evaluate_fudge_ignores_suffix {settings : Settings} {count suffix : List Char}
    {flat : Option (Bool × List Char)} (hmax : settings.maxDice ≤ maxFace) (hcount : Numeral count)
    (hle : decimal count ≤ settings.maxDice)
    (hflat : ∀ f ∈ flat, Numeral f.2 ∧ (decimal f.2 : Int) ≤ Amount.greatest)
    (hsuffix : Layout.EndsBefore flat suffix) :
    let typed := Layout.fudgeText count flat
    let trimmed (text : String) := String.ofList (Text.trim text.toList)
    let amount := (⟨count, none, flat, []⟩ : Layout).amount
    (decimal count = 0 → ∀ behind ∈ [suffix, []], ∀ (σ : Type) [DieSource σ] (s : σ),
      ∃ es : List Event, (evaluate (typed behind) settings).run s =
        ⟨some (.error .tooFewDice), s, es.map .event⟩) ∧
    (0 < decimal count →
      (∃ r r', Roll.ofText .saturating (typed suffix) settings.maxDice = .ok r ∧
        Roll.ofText .saturating (typed []) settings.maxDice = .ok r' ∧
        r.possible? = r'.possible? ∧ r'.possible? = some
          (Amount.clamp (-(decimal count : Int) + amount), Amount.clamp (decimal count + amount))) ∧
      ∀ (σ : Type) [DieSource σ] (s : σ),
        Run.Alike (trimmed (typed suffix)) ((evaluate (typed suffix) settings).run s)
          ((evaluate (typed []) settings).run s) ∧
        ∀ behind ∈ [suffix, []], Run.OfFudge ((evaluate (typed behind) settings).run s) s
          (trimmed (typed behind)) (decimal count) amount) := by
  dsimp only
  have hends : ∀ behind ∈ [suffix, []], Layout.EndsBefore flat behind := by
    rintro behind (_ | ⟨_, _ | ⟨_, ⟨⟩⟩⟩)
    · exact hsuffix
    · exact Layout.endsBefore_nil
  have hwidth : decimal count ≤ maxFace := Nat.le_trans hle hmax
  refine ⟨fun hzero behind hb σ _ s => ?_, fun hpos => ?_⟩
  · unfold evaluate
    exact run_evaluateWith_of_error
      (Roll.ofText_fudgeText_of_zero hmax hcount hzero hflat (hends behind hb)) s
  · have hrolls (behind : List Char) (hb : behind ∈ [suffix, []]) :=
      Roll.exists_ofText_fudgeText hmax hcount hpos hle hflat (hends behind hb)
    obtain ⟨m, hfull⟩ := hrolls suffix (.head _)
    obtain ⟨m', hbare⟩ := hrolls [] (.tail _ (.head _))
    refine ⟨⟨_, _, hfull, hbare, ?_, Roll.possible?_of_fudge rfl⟩, fun σ _ s => ?_⟩
    · rw [Roll.possible?_of_fudge rfl, Roll.possible?_of_fudge rfl]
    refine ⟨evaluate_fudge_alike hbare hfull s, fun behind hb => ?_⟩
    obtain ⟨m'', hroll⟩ := hrolls behind hb
    exact Run.ofFudge hwidth hroll s

/-- Every kind of modifier, blanks, a letter outside ASCII and a sign without a digit. -/
theorem evaluate_fudge_ignores_suffix_crowded :
    let full := "04dF-2É!r<2 kh1dl1>0+ "
    let text := "04dF-2É!r<2 kh1dl1>0+"
    let bare := "04dF-2"
    (∃ r r', Roll.ofText .saturating full ({} : Settings).maxDice = .ok r ∧
      Roll.ofText .saturating bare ({} : Settings).maxDice = .ok r' ∧
      r.possible? = r'.possible? ∧ r'.possible? = some (-6, 2)) ∧
    ∀ (σ : Type) [DieSource σ] (s : σ),
      Run.Alike text ((evaluate full {}).run s) ((evaluate bare {}).run s) ∧
        Run.OfFudge ((evaluate full {}).run s) s text 4 (-2) := by
  intro full text bare
  let suffix := "É!r<2 kh1dl1>0+ ".toList
  have hends : Layout.EndsBefore (some (true, ['2'])) suffix :=
    ⟨fun _ => Text.noDigit_cons.2 (by decide), nofun⟩
  have hflat : ∀ f ∈ some (true, ['2']), Numeral f.2 ∧ (decimal f.2 : Int) ≤ Amount.greatest := by
    rintro f ⟨⟩
    exact ⟨⟨nofun, List.all_eq_true.1 rfl⟩, by decide⟩
  have hmax : ({} : Settings).maxDice ≤ maxFace := by decide
  obtain ⟨-, hrolled⟩ := evaluate_fudge_ignores_suffix hmax
    (⟨nofun, List.all_eq_true.1 rfl⟩ : Numeral ['0', '4']) (by decide) hflat hends
  have hfull : Layout.fudgeText ['0', '4'] (some (true, ['2'])) suffix = full := by decide +kernel
  have hbare : Layout.fudgeText ['0', '4'] (some (true, ['2'])) [] = bare := by decide +kernel
  have htext : String.ofList (Text.trim full.toList) = text := by decide +kernel
  have hamount : (⟨['0', '4'], none, some (true, ['2']), []⟩ : Layout).amount = -2 := by decide
  have hcount : decimal ['0', '4'] = 4 := by decide
  simp only [hfull, hbare, htext, hamount, hcount] at hrolled
  obtain ⟨⟨r, r', hr, hr', hsame, hrange⟩, hruns⟩ := hrolled (by decide)
  refine ⟨⟨r, r', hr, hr', hsame, hrange.trans (by decide)⟩, fun σ _ s => ?_⟩
  obtain ⟨halike, hof⟩ := hruns σ s
  have hof := hof suffix (.head _)
  rw [hfull, htext] at hof
  exact ⟨halike, hof⟩

end Tabletop
