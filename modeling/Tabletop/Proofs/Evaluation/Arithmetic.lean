import Tabletop.Proofs.Evaluation.Outcome
import Tabletop.Proofs.Notation.Written

/-!
# The arithmetic of a narration

The last line of a narration adds the flat amount to the total. The sum is kept within the width of
an amount, so the line is a true equation exactly as long as the sum does not leave this width
(`evaluateAloud_arithmetic`); a flat amount near its end takes it out (`evaluateAloud_overflow`).
-/

namespace Tabletop

/-- An amount is its own nearest amount, and nothing else is. -/
theorem Amount.clamp_eq_self_iff {n : Int} : clamp n = n ↔ InRange n := by
  unfold clamp InRange
  have hle : least ≤ greatest := by decide
  omega

/-! ## Lines of arithmetic -/

/-- A line of arithmetic: a number, a number added to it or taken from it, and what this is said to
come to. -/
structure Equation where
  /-- The number on the left. -/
  left : Int
  /-- Whether the second number is taken away. -/
  minus : Bool
  /-- The second number. -/
  right : Nat
  /-- What this is said to come to. -/
  result : Int
  deriving DecidableEq, Repr

namespace Equation

/-- The line as it is written. -/
def render (e : Equation) : String :=
  toString e.left ++ (if e.minus then " - " else " + ") ++ toString e.right ++ " = "
    ++ toString e.result

/-- What the line says is true. -/
def Holds (e : Equation) : Prop :=
  (if e.minus then e.left - e.right else e.left + e.right) = e.result

instance (e : Equation) : Decidable e.Holds := by
  unfold Holds
  infer_instance

/-- The arithmetic of an outcome: its total, its flat amount by sign and size, and the two
together. -/
def ofOutcome (o : Outcome) : Equation := ⟨o.total, o.flat < 0, o.flat.natAbs, o.modifiedTotal⟩

/-- The equation of an outcome reads as the narration has it. -/
theorem render_ofOutcome (o : Outcome) : (ofOutcome o).render = Narration.arithmetic o := by
  unfold render ofOutcome Narration.arithmetic
  simp only [decide_eq_true_eq]

/-- The sign and the size of an amount give the amount back, so nothing but the total matters to
whether the arithmetic is true. -/
theorem holds_ofOutcome_iff (o : Outcome) :
    (ofOutcome o).Holds ↔ o.modifiedTotal = o.total + o.flat := by
  unfold Holds ofOutcome
  dsimp only
  by_cases hneg : o.flat < 0
  · rw [if_pos (decide_eq_true hneg)]
    omega
  · rw [if_neg (by simpa using hneg)]
    omega

/-- What is printed for a number is plain, its sign too. -/
theorem plain_toString (n : Int) : ∀ c ∈ (toString n).toList, Text.Plain c := by
  by_cases hneg : n < 0
  · rw [toString_of_neg hneg, String.toList_append]
    exact List.forall_mem_cons.2 ⟨by decide, Text.plain_toString _⟩
  · rw [toString_of_nonneg (Int.not_lt.1 hneg)]
    exact Text.plain_toString _

/-- The line has no line break in it. -/
theorem newline_notMem_render (e : Equation) : '\n' ∉ e.render.toList := by
  have hplain {cs : List Char} (h : ∀ c ∈ cs, Text.Plain c) : '\n' ∉ cs := fun hmem =>
    absurd (h _ hmem) (by decide)
  have hsign : '\n' ∉ (if e.minus then " - " else " + ").toList := by
    cases e.minus <;> decide
  have hequals : '\n' ∉ " = ".toList := by decide
  unfold render
  simp only [String.toList_append, List.mem_append, not_or]
  exact ⟨⟨⟨⟨hplain (plain_toString _), hsign⟩, hplain (Text.plain_toString _)⟩, hequals⟩,
    hplain (plain_toString _)⟩

end Equation

/-! ## Narrations -/

/-- What is told of an evaluation is the narration of its outcome. -/
theorem exists_of_evaluateAloud {σ : Type} [DieSource σ] {s t : σ} {log : List Entry}
    {input words : String} {settings : Settings} {o : Outcome}
    (h : (evaluateAloud input settings).run s = ⟨some (.ok (o, words)), t, log⟩) :
    (evaluate input settings).run s = ⟨some (.ok o), t, log⟩ ∧
      words = narrate o settings.showIndividual := by
  obtain ⟨answer, u, l, _, heval, hpure, rfl⟩ := Roller.run_bind_eq_some_iff.1 h
  obtain ⟨hanswer, rfl, rfl⟩ := Roller.run_pure_eq_some_iff.1 hpure
  cases answer with
  | error e => cases hanswer
  | ok o' =>
    cases hanswer
    rw [List.append_nil]
    exact ⟨heval, rfl⟩

/-- Whatever is narrated, the total with the flat amount is their sum exactly if the sum is within
the width of an amount, and otherwise the nearest amount. A narration with a flat amount ends in the
line that adds the two, and this line is true exactly in the first case. -/
theorem evaluateAloud_arithmetic {σ : Type} [DieSource σ] {s t : σ} {log : List Entry}
    {input words : String} {settings : Settings} {o : Outcome}
    (hrun : (evaluateAloud input settings).run s = ⟨some (.ok (o, words)), t, log⟩) :
    o.modifiedTotal = Amount.clamp (o.total + o.flat) ∧
    (o.modifiedTotal = o.total + o.flat ↔ Amount.InRange (o.total + o.flat)) ∧
    (o.flat ≠ 0 → ∃ front, words = front ++ "\n" ++ (Equation.ofOutcome o).render ∧
      '\n' ∉ (Equation.ofOutcome o).render.toList ∧
      ((Equation.ofOutcome o).Holds ↔ Amount.InRange (o.total + o.flat))) := by
  obtain ⟨heval, rfl⟩ := exists_of_evaluateAloud hrun
  obtain ⟨n, r, l, -, -, hroll, -⟩ := exists_of_evaluateWith heval
  obtain ⟨hflat, htotal⟩ := Roll.modifiedTotal_of_run hroll
  rw [← hflat] at htotal
  have hexact : o.modifiedTotal = o.total + o.flat ↔ Amount.InRange (o.total + o.flat) := by
    rw [htotal, Amount.clamp_eq_self_iff]
  refine ⟨htotal, hexact, fun hne => ⟨Narration.headline o settings.showIndividual, ?_,
    Equation.newline_notMem_render _, (Equation.holds_ofOutcome_iff o).trans hexact⟩⟩
  rw [narrate, if_neg hne, Equation.render_ofOutcome, String.append_assoc]

/-- A die with a flat amount that is taken from it. -/
theorem evaluateAloud_arithmetic_minus :
    ∃ o words t log, (evaluateAloud "1d6-9" {}).run (⟨[3]⟩ : Script) =
      ⟨some (.ok (o, words)), t, log⟩ ∧ o.modifiedTotal = o.total + o.flat ∧
        ∃ front, words = front ++ "\n" ++ "3 - 9 = -6" := by
  obtain ⟨⟨o, words⟩, hrun⟩ : ∃ told, (evaluateAloud "1d6-9" {}).run (⟨[3]⟩ : Script) =
      ⟨some (.ok told), _, _⟩ := Run.exists_ok (by decide +kernel)
  have htold : ((evaluateAloud "1d6-9" {}).run (⟨[3]⟩ : Script)).outcome =
      some (.ok (⟨[3], 3, -9, -6, "1d6-9", false, none, 1⟩,
        "Rolled 1d6-9: 3.\n3 - 9 = -6")) := by decide +kernel
  rw [hrun] at htold
  cases htold
  obtain ⟨-, hexact, hline⟩ := evaluateAloud_arithmetic hrun
  obtain ⟨front, hwords, -⟩ := hline (by decide)
  exact ⟨_, _, _, _, hrun, hexact.2 (by decide), front, hwords⟩

/-- A flat amount that is the greatest amount itself: a single die is said to add nothing to it. -/
theorem evaluateAloud_overflow :
    ((evaluateAloud "1d6+9223372036854775807" {}).run (⟨[5]⟩ : Script)).outcome =
      some (.ok (⟨[5], 5, 9223372036854775807, 9223372036854775807, "1d6+9223372036854775807",
        false, none, 1⟩,
        "Rolled 1d6+9223372036854775807: 5.\n5 + 9223372036854775807 = 9223372036854775807")) ∧
    ¬ (Equation.mk 5 false 9223372036854775807 9223372036854775807).Holds := by
  decide +kernel

end Tabletop
