import Tabletop.CommandLine.Answer
import Tabletop.Proofs.Evaluation.Widths
import Tabletop.Proofs.Interchange
import Tabletop.Proofs.Source.Words

/-!
# The command line is a faithful front end

What the program answers to arguments with a seed is what evaluating their notation comes to on the
dice of this seed (`answer_faithful`). Why a notation is refused can be told from the exit code and
the two outputs, since no two errors have the same message (`RollError.message_inj`) and only a
refusal leaves a message behind the log (`Answer.eq_refused_iff`). Nothing that happens while a
notation is read and rolled matters enough for the usual log (`Logging.written_usual`), so usually
the log has one line if the notation is refused, and is empty otherwise. What is printed as JSON is
read back as the outcome that the narration is about, since all its numbers are within their widths.
-/

namespace Tabletop

/-! ## Messages -/

/-- A text begins as its first part does. -/
theorem head?_append {a : String} {c : Char} (h : a.toList.head? = some c) (b : String) :
    (a ++ b).toList.head? = some c := by
  rw [String.toList_append, List.head?_append, h]
  rfl

namespace RollError

/-- The character with which a message begins. -/
def initial : RollError → Char
  | invalidNotation _ => 'I'
  | tooManyDice _ => 'T'
  | tooFewDice => 'Y'
  | invalidSides _ => 'A'

/-- Which error it is shows in the first character of its message. -/
theorem head?_message (e : RollError) : e.message.toList.head? = some e.initial := by
  cases e with
  | invalidNotation text =>
    have hopening : "I couldn't read `".toList.head? = some 'I' := by decide +kernel
    exact head?_append (head?_append (head?_append hopening text) _) _
  | tooManyDice max =>
    have hopening : "That's too many dice! You can roll at most ".toList.head? = some 'T' := by
      decide +kernel
    exact head?_append (head?_append hopening _) _
  | tooFewDice => decide +kernel
  | invalidSides sides =>
    have hopening : "A die needs at least 2 sides, got ".toList.head? = some 'A' := by
      decide +kernel
    exact head?_append (head?_append hopening _) _

/-- An error is known by its message. -/
theorem message_inj {e e' : RollError} (h : e.message = e'.message) : e = e' := by
  have hinitial : e.initial = e'.initial := by
    rw [← Option.some_inj, ← head?_message, ← head?_message, h]
  have hnumber {n n' : Nat} (hn : toString n = toString n') : n = n' := by
    rw [← Text.decimal_toString n, hn, Text.decimal_toString]
  cases e <;> cases e' <;> try (cases hinitial; done)
  case invalidNotation.invalidNotation text text' =>
    have hquoted := (String.append_left_inj _).1 ((String.append_left_inj _).1 h)
    rw [(String.append_right_inj _).1 hquoted]
  case tooManyDice.tooManyDice max max' =>
    have hcounted := (String.append_left_inj _).1 h
    rw [hnumber ((String.append_right_inj _).1 hcounted)]
  case tooFewDice.tooFewDice => rfl
  case invalidSides.invalidSides sides sides' =>
    have hcounted := (String.append_left_inj _).1 h
    rw [hnumber ((String.append_right_inj _).1 hcounted)]

end RollError

namespace CommandLine

/-! ## The log -/

namespace Logging

variable {l : Logging} {env : List (String × String)} {reports : List Report}

/-- No event matters enough for the usual log. -/
theorem usual_report (e : Event) : usual e.report = false := by
  cases e <;> rfl

/-- Of reports that do not matter enough the usual log writes nothing, and the line of one that
follows is its first. -/
theorem written_usual (hwants : l.wants? env = none) (h : ∀ r ∈ reports, usual r = false) :
    l.written env reports = "" ∧
      ∀ r, usual r = true → l.written env (reports ++ [r]) = l.line 0 r := by
  have hnone : reports.filter usual = [] := by
    rw [List.filter_eq_nil_iff]
    intro r hr
    simp [h r hr]
  unfold written wanted
  rw [hwants, Option.getD_none, hnone]
  refine ⟨rfl, ?_⟩
  intro r hr
  rw [List.filter_append, hnone, List.filter_cons_of_pos hr]
  simp [String.join]

end Logging

/-- Only a refusal is told by an error code and the message of an error behind the log, if the
settings are right. -/
theorem Answer.eq_refused_iff {a : Answer} {e : RollError} (h : ∀ e' text, a ≠ .unsettled e' text) :
    a.exitCode = some 1 ∧ a.stdout = "" ∧ a.message = e.message ++ "\n" ↔ a = .refused e := by
  constructor
  · rintro ⟨hcode, -, hmessage⟩
    cases a with
    | help | version | rolled | misused | exhausted => cases hcode
    | unsettled e' text => exact absurd rfl (h e' text)
    | refused e' => rw [RollError.message_inj ((String.append_left_inj _).1 hmessage)]
  · rintro rfl
    exact ⟨rfl, rfl, rfl⟩

/-- What stands behind the log on standard error is the message of the answer. -/
theorem Reply.stderr_eq_iff {a : Reply} {w : Surroundings} {s : String} :
    a.stderr w = a.logged w ++ s ↔ a.answer.message = s :=
  String.append_right_inj _

/-! ## What a request comes to -/

section
variable {r : Request} {w : Surroundings} {seed : UInt64} {settings : Settings}

/-- Wrong settings end a request before anything is rolled or reported. -/
theorem Request.reply_of_error {e : SettingsError} (h : r.settings w = .error e) :
    r.reply w = ⟨.unsettled e (w.wording.unsettled e), []⟩ := by
  unfold Request.reply
  rw [h]

/-- With settings and a seed, the reply is what the evaluation on the dice of the seed leads to. -/
theorem Request.reply_of_ok (hseed : r.seed = some seed) (hsettings : r.settings w = .ok settings) :
    r.reply w =
      r.conclude w settings ((evaluate r.text settings).run (Seeded.ofSeed seed)) := by
  unfold Request.reply Request.roll
  rw [hsettings, hseed]
  rfl

/-- What is reported of settings and of a run does not matter enough for the usual log. -/
theorem Request.usual_reported {log : List Entry} :
    ∀ report ∈ reported settings log, Logging.usual report = false := by
  unfold reported
  rw [List.forall_mem_cons, List.forall_mem_map]
  exact ⟨rfl, fun e _ => Logging.usual_report e⟩

/-- The outcome of an evaluation on the dice of a seed is within its widths, if there are not more
dice than the greatest amount. -/
theorem fits_of_seeded {input : String} {o : Outcome}
    (h : ((evaluate input settings).run (Seeded.ofSeed seed)).outcome = some (.ok o))
    (hrolled : (o.diceRolled : Int) ≤ Amount.greatest) : o.Fits := by
  have hrun := Run.eq_of_outcome h
  refine Outcome.fits_of_evaluate hrun ?_ hrolled
  obtain ⟨n, r, l, -, hr, hroll, hlog⟩ := exists_of_evaluateWith hrun
  have hsides : ∀ sides, r.dice = .standard sides → 1 ≤ sides := by
    obtain ⟨⟨-, -, hleast⟩, rfl⟩ := Roll.ofNotation_eq_ok_iff.1 hr
    exact fun sides hdice => Nat.le_of_succ_le (hleast sides hdice)
  have hfair := Roll.fair_of_run hsides (Seeded.ofSeed seed)
  rw [hroll] at hfair
  rw [hlog, List.forall_mem_append, List.forall_mem_append, List.forall_mem_map]
  exact ⟨fun _ _ => trivial, hfair, List.forall_mem_singleton.2 trivial⟩

end

end CommandLine

/-- What is told is the outcome of the evaluation. -/
theorem outcome_evaluateAloud {σ : Type} [DieSource σ] (input : String) (settings : Settings)
    (s : σ) : ((evaluateAloud input settings).run s).outcome =
      ((evaluate input settings).run s).outcome.map
        (Except.map fun o => (o, narrate o settings.showIndividual)) :=
  Roller.outcome_bind_pure

namespace CommandLine

/-- Whatever arguments with a seed are accepted, and whatever files and variables there are: wrong
settings end the program with an error code and no output. With settings that load, it refuses the
notation exactly if evaluating it on the dice of the seed comes to an error, and tells which behind
its log; and it succeeds exactly if the evaluation gives an outcome; what is left is an evaluation
that uses up all words of the seed. On success it prints the words in which the outcome is told, or
as JSON the outcome itself, which is read back from it. (The number of dice is the length of a list
in memory, where no list is longer than the greatest amount.)

Logged are the settings, what happens in the evaluation, and a refusal, in this order. If the
environment does not say what is wanted of this, it is the refusal and nothing else. -/
theorem answer_faithful {args : List String} {r : Request} {seed : UInt64}
    (hargs : request args = .ok r) (hseed : r.seed = some seed) (w : Surroundings) :
    let a := reply args w
    (∀ e, r.settings w = .error e → a.answer.exitCode = some 1 ∧ a.answer.stdout = "") ∧
    ∀ settings, r.settings w = .ok settings →
      let judged := (evaluate r.text settings).run (Seeded.ofSeed seed)
      let told := ((evaluateAloud r.text settings).run (Seeded.ofSeed seed)).outcome
      (∀ e, a.answer.exitCode = some 1 ∧ a.answer.stdout = "" ∧
        a.stderr w = a.logged w ++ (e.message ++ "\n") ↔ judged.outcome = some (.error e)) ∧
      (a.answer.exitCode = some 0 ↔ ∃ o words, told = some (.ok (o, words))) ∧
      (∀ e, judged.outcome = some (.error e) →
        let refusal := e.report w.logging.quote r.text
        a.reports = Request.reported settings judged.log ++ [refusal] ∧
          (w.logging.wants? w.env = none → a.logged w = w.logging.line 0 refusal)) ∧
      ∀ o words, told = some (.ok (o, words)) → judged.outcome = some (.ok o) ∧
        a.stderr w = a.logged w ∧ a.reports = Request.reported settings judged.log ∧
        (w.logging.wants? w.env = none → a.logged w = "") ∧
        (r.json = false → a.answer.stdout = words ++ "\n") ∧
        (r.json = true → a.answer.stdout = o.toJson.pretty ++ "\n" ∧
          Json.read? a.answer.stdout = some o.toJson ∧
          ((o.diceRolled : Int) ≤ Amount.greatest → Outcome.ofJson? o.toJson = some o)) := by
  have hreply : reply args w = r.reply w := by
    rw [reply, hargs]
  rw [hreply]
  refine ⟨fun e he => ?_, fun settings hsettings => ?_⟩
  · rw [Request.reply_of_error he]
    exact ⟨rfl, rfl⟩
  dsimp only
  rw [Request.reply_of_ok hseed hsettings, outcome_evaluateAloud]
  simp only [Reply.stderr_eq_iff]
  unfold Request.conclude
  -- The three ends of an evaluation; in each the reply is known.
  cases hjudged : ((evaluate r.text settings).run (Seeded.ofSeed seed)).outcome with
  | none => simp [Answer.exitCode]
  | some judged =>
    cases judged with
    | error e =>
      have hrefused (e' : RollError) := Answer.eq_refused_iff (a := .refused e) (e := e') nofun
      simp only [hrefused]
      refine ⟨fun e' => by simp, iff_of_false nofun ?_, ?_, ?_⟩
      · rintro ⟨o, words, ⟨⟩⟩
      · rintro _ ⟨⟩
        exact ⟨rfl, fun hwants => (Logging.written_usual hwants Request.usual_reported).2 _ rfl⟩
      · rintro _ _ ⟨⟩
    | ok o =>
      refine ⟨fun _ => iff_of_false nofun nofun, iff_of_true rfl ⟨o, _, rfl⟩, nofun, ?_⟩
      rintro _ _ ⟨⟩
      refine ⟨rfl, String.append_empty, rfl, fun hwants => ?_, fun hjson => ?_, fun hjson => ?_⟩
      · exact (Logging.written_usual hwants Request.usual_reported).1
      · rw [hjson]
        rfl
      · rw [hjson]
        exact ⟨rfl, ((Outcome.lawful.exact_toJson o).read?_pretty).2, fun hrolled =>
          Outcome.lawful.ofJson?_toJson (fits_of_seeded hjudged hrolled)⟩

/-- One die on the seed 7, which does not succeed. The variable keeps its face out of the narration;
the JSON has it. A die with one side is refused, which is the only line of the usual log. -/
theorem answer_faithful_seven :
    let args := ["--json", "1d6+2>3", "-s7"]
    let line (_ : Nat) (r : Report) : String := "2026-01-01T00:00:00.000000Z  INFO rollcall: "
      ++ r.message ++ String.join (r.fields.map fun f => " " ++ f.1 ++ "=" ++ f.2) ++ "\n"
    let w : Surroundings := ⟨fun _ => .missing, [("ROLLCALL_SHOW_INDIVIDUAL", "0")], 0,
      ⟨"", fun _ => "", fun _ => ""⟩, ⟨fun _ => none, line, fun s => "\"" ++ s ++ "\""⟩⟩
    let r : Request := ⟨"1d6+2>3", none, some 7, true⟩
    let words := "Rolled 1d6+2>3: a whole bunch of dice, no success.\n0 + 2 = 2"
    let o : Outcome := ⟨[3], 0, 2, 2, "1d6+2>3", false, some 0, 1⟩
    (request args = .ok r ∧ r.seed = some 7 ∧ r.settings w = .ok ⟨100, 0⟩ ∧
      ((evaluateAloud r.text ⟨100, 0⟩).run (Seeded.ofSeed 7)).outcome = some (.ok (o, words)) ∧
      (reply args w).answer.exitCode = some 0 ∧ (reply args w).stderr w = "" ∧
      Json.read? (reply args w).answer.stdout = some o.toJson ∧
      Outcome.ofJson? o.toJson = some o) ∧
    ((reply ["2d1", "-s7"] w).answer.exitCode = some 1 ∧
      (reply ["2d1", "-s7"] w).stderr w =
        "2026-01-01T00:00:00.000000Z  INFO rollcall: rejected notation notation=2d1 "
          ++ "error=InvalidSides(1)\nA die needs at least 2 sides, got 1.\n") := by
  intro args line w r words o
  have hargs : request args = .ok r := by decide +kernel
  have hsettings : r.settings w = .ok ⟨100, 0⟩ := by decide +kernel
  have htold : ((evaluateAloud r.text ⟨100, 0⟩).run (Seeded.ofSeed 7)).outcome =
      some (.ok (o, words)) := by decide +kernel
  have hrefused : ((evaluate "2d1" ⟨100, 0⟩).run (Seeded.ofSeed 7)).outcome =
      some (.error (.invalidSides 1)) := by decide +kernel
  obtain ⟨-, hcode, -, hprinted⟩ := (answer_faithful hargs rfl w).2 ⟨100, 0⟩ hsettings
  obtain ⟨-, hstderr, -, hlog, -, hjson⟩ := hprinted o words htold
  have hargs' : request ["2d1", "-s7"] = .ok ⟨"2d1", none, some 7, false⟩ := by decide +kernel
  obtain ⟨hiff, -, hlogged, -⟩ := (answer_faithful hargs' rfl w).2 ⟨100, 0⟩ (by decide +kernel)
  obtain ⟨hcode', -, hstderr'⟩ := (hiff _).2 hrefused
  refine ⟨⟨hargs, rfl, hsettings, htold, hcode.2 ⟨o, words, htold⟩, hstderr.trans (hlog rfl),
    (hjson rfl).2.1, (hjson rfl).2.2 (by decide)⟩, hcode', ?_⟩
  rw [hstderr', (hlogged _ hrefused).2 rfl]
  decide +kernel

end CommandLine

end Tabletop
