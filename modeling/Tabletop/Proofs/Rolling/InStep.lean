import Tabletop.Proofs.Modifiers.Saturation
import Tabletop.Proofs.Rolling.Settled

/-!
# Computations that go in step

Two computations go in step from a source if they take the same draws and come to the same value, at
least where every face that the first one draws is a face of its die (`Roller.InStep`). What they
report may differ. Each operation of computations keeps them in step, and so does each loop of
rolling: dice with fewer sides than the largest face go in step whether or not the numbers of their
thresholds are saturated (`rollOne_inStep`, `explode_inStep`).
-/

namespace Tabletop

/-- The draws of a log, and the attempts at one, in order. -/
def draws (log : List Entry) : List Entry := log.filter fun e => e.event?.isNone

/-- The draws of a log are those of its parts. -/
theorem draws_append (l₁ l₂ : List Entry) : draws (l₁ ++ l₂) = draws l₁ ++ draws l₂ :=
  List.filter_append ..

/-- Events draw nothing. -/
theorem draws_events (es : List Event) : draws (es.map .event) = [] := by
  induction es with
  | nil => rfl
  | cons e es ih => exact ih

/-- The runs differ in their reports at most. -/
structure Run.Same {σ α : Type} (run run' : Run σ α) : Prop where
  /-- They give the same value, if any. -/
  outcome : run.outcome = run'.outcome
  /-- They leave the same of the source. -/
  rest : run.rest = run'.rest
  /-- They take the same draws. -/
  draws : draws run.log = draws run'.log

/-- Sameness goes both ways. -/
theorem Run.Same.symm {σ α : Type} {run run' : Run σ α} (h : run.Same run') : run'.Same run :=
  ⟨h.outcome.symm, h.rest.symm, h.draws.symm⟩

/-- Sameness is passed on. -/
theorem Run.Same.trans {σ α : Type} {run run' run'' : Run σ α} (h : run.Same run')
    (h' : run'.Same run'') : run.Same run'' :=
  ⟨h.outcome.trans h'.outcome, h.rest.trans h'.rest, h.draws.trans h'.draws⟩

namespace Roller

section
variable {σ α β : Type} {s : σ} {r r' : Roller σ α} {f f' : α → Roller σ β}

/-- Runs that differ in their reports only go on as runs that differ in their reports only. -/
theorem same_bind (h : (r.run s).Same (r'.run s))
    (hf : ∀ {a t log}, r.run s = ⟨some a, t, log⟩ → ((f a).run t).Same ((f' a).run t)) :
    ((r >>= f).run s).Same ((r' >>= f').run s) := by
  rw [run_bind, run_bind]
  cases hrun : r.run s with
  | mk outcome t log =>
    cases hrun' : r'.run s with
    | mk outcome' t' log' =>
      rw [hrun, hrun'] at h
      obtain ⟨rfl, rfl, hdraws⟩ := h
      cases outcome with
      | none => exact ⟨rfl, rfl, hdraws⟩
      | some a =>
        obtain ⟨houtcome, hrest, hdraws'⟩ := hf hrun
        exact ⟨houtcome, hrest, by simp only [Run.after, draws_append, hdraws, hdraws']⟩

/-- A report makes no other difference. -/
theorem same_report_bind (e : Event) : ((report e >>= fun _ => r).run s).Same (r.run s) :=
  ⟨by rw [run_bind]; rfl, by rw [run_bind]; rfl, by rw [run_bind]; rfl⟩

end

/-- From this source, the computations take the same draws and come to the same value, if the faces
that the first one draws are faces of its dice. -/
def InStep {σ α : Type} (s : σ) (r r' : Roller σ α) : Prop :=
  (∀ e ∈ (r.run s).log, e.Fair) → (r.run s).Same (r'.run s)

section
variable {σ α β : Type} {s : σ} {r r' : Roller σ α} {f f' : α → Roller σ β}

/-- Every computation is in step with itself. -/
theorem InStep.refl : InStep s r r := fun _ => ⟨rfl, rfl, rfl⟩

/-- It does not matter what is reported. -/
theorem report_inStep (e e' : Event) : InStep s (report e) (report e') := fun _ => ⟨rfl, rfl, rfl⟩

/-- Computations in step are followed by computations in step, if these are so after every fair
beginning. -/
theorem InStep.bind (h : InStep s r r')
    (hf : ∀ {a t log}, r.run s = ⟨some a, t, log⟩ → (∀ e ∈ log, e.Fair) → InStep t (f a) (f' a)) :
    InStep s (r >>= f) (r' >>= f') := by
  intro hfair
  refine same_bind (h fun e he => hfair e ((log_prefix_bind r f).subset he)) fun hrun => ?_
  rw [run_bind, hrun] at hfair
  obtain ⟨hfair₁, hfair₂⟩ := List.forall_mem_append.1 hfair
  exact hf hrun hfair₁ hfair₂

/-- What goes in step goes in step so many times over. -/
theorem InStep.times (h : ∀ s, InStep s r r') (n : Nat) (s : σ) :
    InStep s (times n r) (times n r') := by
  induction n generalizing s with
  | zero => exact .refl
  | succ n ih =>
    rw [times_succ, times_succ]
    exact (h s).bind fun _ _ => (ih _).bind fun _ _ => .refl

end

end Roller

/-! ## Dice under saturated thresholds -/

section
variable {σ : Type} [DieSource σ] {sides : Nat} {m : Modifiers}

open Roller (InStep report_inStep)

/-- The loop of rerolls is in step as long as the dice have fewer than the largest number of sides.
-/
theorem settle_inStep (hsides : sides < maxFace) (rule : Threshold) (once : Bool) {face : Nat}
    (hface : face < maxFace) (s : σ) :
    InStep s (settle (rule.mapBound (min maxFace)) once sides face)
      (settle rule once sides face) := by
  -- Each turn takes a face from the source, so the induction is on what the source has left.
  induction hn : DieSource.budget s using Nat.strongRecOn generalizing face s with
  | _ n ih =>
    subst hn
    rw [settle_eq, settle_eq rule, Threshold.holds_mapBound hface]
    split
    · refine (report_inStep _ _).bind fun hreport _ => InStep.refl.bind fun hdraw hfair => ?_
      obtain ⟨rfl, -⟩ := Roller.run_report_eq_some_iff.1 hreport
      obtain ⟨htook, rfl⟩ := Roller.run_draw_eq_some_iff.1 hdraw
      have hnext := (List.forall_mem_singleton.1 hfair).2
      split
      · exact .refl
      · exact ih _ (DieSource.budget_lt htook) (Nat.lt_of_le_of_lt hnext hsides) _ rfl
    · exact .refl

/-- Rolling one die is in step, with its guard. -/
theorem rollOne_inStep (hsides : sides < maxFace) (s : σ) :
    InStep s (rollOne sides (m.under .saturating)) (rollOne sides m) := by
  refine InStep.refl.bind fun hdraw hfair => ?_
  obtain ⟨-, rfl⟩ := Roller.run_draw_eq_some_iff.1 hdraw
  have hface := Nat.lt_of_le_of_lt (List.forall_mem_singleton.1 hfair).2 hsides
  have hreroll : (m.under .saturating).reroll =
      m.reroll.map (Threshold.mapBound (min maxFace)) := rfl
  rw [hreroll]
  cases m.reroll with
  | none => exact .refl
  | some rule =>
    simp only [Option.map_some, Threshold.coversFaces_mapBound hsides (by decide)]
    split
    · exact (report_inStep _ _).bind fun _ _ => .refl
    · exact settle_inStep hsides rule m.rerollOnce hface _

/-- The loop of an explosion is in step. -/
theorem passes_inStep (hsides : sides < maxFace) (pass pending : Nat) (s : σ) :
    InStep s (passes sides (m.under .saturating) pass pending) (passes sides m pass pending) := by
  induction hn : DieSource.budget s using Nat.strongRecOn generalizing pass pending s with
  | _ n ih =>
    subst hn
    rw [passes_eq, passes_eq sides m]
    split
    · next hpending =>
      refine (report_inStep _ _).bind fun hreport _ =>
        (InStep.times (rollOne_inStep hsides) pending _).bind fun hfaces _ => ?_
      obtain ⟨rfl, -⟩ := Roller.run_report_eq_some_iff.1 hreport
      exact (ih _ (budget_lt_of_pass hpending hfaces) _ _ _ rfl).bind fun _ _ => .refl
    · exact .refl

/-- An explosion is in step, with its guard. -/
theorem explode_inStep (hsides : sides < maxFace) (faces : List Nat) (s : σ) :
    InStep s (explode faces sides (m.under .saturating)) (explode faces sides m) := by
  unfold explode
  rw [Modifiers.forcesMaxFace_under hsides]
  split
  · exact .refl
  · split
    · exact (report_inStep _ _).bind fun _ _ => .refl
    · exact passes_inStep hsides _ _ s

end

end Tabletop
