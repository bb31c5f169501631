import Tabletop.Proofs.Source.Runs
import Tabletop.Roll

/-!
# Rolling on two sources

Two runs, maybe on sources of different kinds, match if they give the same value and log the same
(`Run.Matches`). What they leave of their sources is then related, and what they log is of a kind.
If draws match, so does everything that is made of draws: each operation of computations leads from
matching runs to matching runs, and so do each loop of rolling (`rollOne_match`, `explode_match`)
and a whole roll (`Roll.roll_match`).
-/

namespace Tabletop

/-- The runs give the same value and log the same, which is of the kind `E`. What they leave of
their sources is related by `R`. -/
structure Run.Matches {σ τ α : Type} (R : σ → τ → Prop) (E : Entry → Prop) (run : Run σ α)
    (run' : Run τ α) : Prop where
  /-- They give the same value, if any. -/
  outcome : run.outcome = run'.outcome
  /-- They leave sources that are related. -/
  rest : R run.rest run'.rest
  /-- They log the same. -/
  log : run.log = run'.log
  /-- What they log is of the kind. -/
  kind : ∀ e ∈ run.log, E e

namespace Roller

variable {σ τ α β : Type} {R : σ → τ → Prop} {E : Entry → Prop}

/-- Wherever the sources are related, the computations match. -/
def Match (R : σ → τ → Prop) (E : Entry → Prop) (r : Roller σ α) (r' : Roller τ α) : Prop :=
  ∀ s t, R s t → (r.run s).Matches R E (r'.run t)

section
variable {s : σ} {t : τ} {r : Roller σ α} {r' : Roller τ α} {f : α → Roller σ β}
  {f' : α → Roller τ β}

/-- Runs that match are followed by runs that match. -/
theorem matches_bind (h : (r.run s).Matches R E (r'.run t))
    (hf : ∀ {a u v log}, r.run s = ⟨some a, u, log⟩ → R u v →
      ((f a).run u).Matches R E ((f' a).run v)) :
    ((r >>= f).run s).Matches R E ((r' >>= f').run t) := by
  rw [run_bind, run_bind]
  cases hrun : r.run s with
  | mk outcome u log =>
    cases hrun' : r'.run t with
    | mk outcome' v log' =>
      rw [hrun, hrun'] at h
      obtain ⟨rfl, hrest, rfl, hkind⟩ := h
      cases outcome with
      | none => exact ⟨rfl, hrest, rfl, hkind⟩
      | some a =>
        obtain ⟨houtcome, hrest', hlog, hkind'⟩ := hf hrun hrest
        exact ⟨houtcome, hrest', congrArg (log ++ ·) hlog, List.forall_mem_append.2 ⟨hkind, hkind'⟩⟩

/-- A value matches itself. -/
theorem pure_match (a : α) : Match R E (pure a) (pure a) :=
  fun _ _ h => ⟨rfl, h, rfl, List.forall_mem_nil E⟩

/-- A report matches itself if the logs may have it. -/
theorem report_match {e : Event} (he : E (.event e)) : Match R E (report e) (report e) :=
  fun _ _ h => ⟨rfl, h, rfl, List.forall_mem_singleton.2 he⟩

/-- Matching computations are followed by matching computations. -/
theorem Match.bind (h : Match R E r r') (hf : ∀ a, Match R E (f a) (f' a)) :
    Match R E (r >>= f) (r' >>= f') :=
  fun s t hst => matches_bind (h s t hst) fun _ huv => hf _ _ _ huv

/-- What matches does so many times over. -/
theorem Match.times (h : Match R E r r') (n : Nat) : Match R E (times n r) (times n r') := by
  induction n with
  | zero => exact pure_match []
  | succ n ih =>
    rw [times_succ, times_succ]
    exact h.bind fun a => ih.bind fun as => pure_match (a :: as)

end

end Roller

/-! ## Loops of rolling -/

section
variable {σ τ : Type} [DieSource σ] [DieSource τ] {R : σ → τ → Prop} {E : Entry → Prop}
  {sides : Nat} {m : Modifiers}

open Roller (Match pure_match report_match matches_bind)

variable (hE : ∀ e, E (.event e)) (hdraw : Match R E (Roller.draw sides) (Roller.draw sides))
include hE hdraw

/-- The loop of rerolls matches itself on related sources. -/
theorem settle_match (rule : Threshold) (once : Bool) (face : Nat) :
    Match R E (settle rule once sides face) (settle rule once sides face) := by
  intro s t hst
  -- Each turn takes a face from the source, so the induction is on what the first one has left.
  induction hn : DieSource.budget s using Nat.strongRecOn generalizing face s t with
  | _ n ih =>
    subst hn
    rw [settle_eq, settle_eq (σ := τ)]
    split
    · refine matches_bind (report_match (hE _) s t hst) fun hreport huv => ?_
      obtain ⟨rfl, -⟩ := Roller.run_report_eq_some_iff.1 hreport
      refine matches_bind (hdraw _ _ huv) fun htook hxy => ?_
      split
      · exact pure_match _ _ _ hxy
      · exact ih _ (DieSource.budget_lt (Roller.run_draw_eq_some_iff.1 htook).1) _ _ _ hxy rfl
    · exact pure_match face s t hst

/-- Rolling one die matches itself on related sources. -/
theorem rollOne_match : Match R E (rollOne sides m) (rollOne sides m) := by
  refine hdraw.bind fun face => ?_
  cases m.reroll with
  | none => exact pure_match face
  | some rule =>
    dsimp only
    split
    · exact (report_match (hE _)).bind fun _ => pure_match face
    · exact settle_match hE hdraw rule m.rerollOnce face

/-- The loop of an explosion matches itself on related sources. -/
theorem passes_match (pass pending : Nat) :
    Match R E (passes sides m pass pending) (passes sides m pass pending) := by
  intro s t hst
  induction hn : DieSource.budget s using Nat.strongRecOn generalizing pass pending s t with
  | _ n ih =>
    subst hn
    rw [passes_eq, passes_eq (σ := τ)]
    split
    · next hpending =>
      refine matches_bind (report_match (hE _) s t hst) fun hreport huv => ?_
      obtain ⟨rfl, -⟩ := Roller.run_report_eq_some_iff.1 hreport
      refine matches_bind ((rollOne_match hE hdraw).times pending _ _ huv) fun hfaces hxy => ?_
      exact matches_bind (ih _ (budget_lt_of_pass hpending hfaces) _ _ _ _ hxy rfl) fun _ hlast =>
        pure_match _ _ _ hlast
    · exact pure_match [] s t hst

/-- An explosion matches itself on related sources. -/
theorem explode_match (faces : List Nat) :
    Match R E (explode faces sides m) (explode faces sides m) := by
  unfold explode
  split
  · exact pure_match []
  · split
    · exact (report_match (hE _)).bind fun _ => pure_match []
    · exact passes_match hE hdraw 1 _

end

/-! ## Rolls -/

namespace Roll

/-- What is left of a roll once its base dice have come. -/
def finish {σ : Type} [DieSource σ] (r : Roll) (sides : Nat) (base : List Nat) :
    Roller σ Outcome :=
  if r.modifiers.explode then do
    let extra ← Tabletop.explode base sides r.modifiers
    Roller.report (.exploded extra.length)
    pure (r.score (base ++ extra))
  else pure (r.score base)

/-- A roll of standard dice is its base dice and then what is left of it. -/
theorem roll_eq_finish {σ : Type} [DieSource σ] {r : Roll} {sides : Nat}
    (hdice : r.dice = .standard sides) :
    r.roll (σ := σ) = Roller.times r.count (rollOne sides r.modifiers) >>= r.finish sides := by
  have hroll : r.roll (σ := σ) = r.settleAll sides >>= fun settled => pure (r.score settled) := by
    unfold roll
    rw [hdice]
  rw [hroll, settleAll, Roller.bind_assoc]
  congr 1
  funext base
  unfold finish
  split
  · simp only [Roller.bind_assoc, Roller.pure_bind]
  · rw [Roller.pure_bind]

section
variable {σ τ : Type} [DieSource σ] [DieSource τ] {R : σ → τ → Prop} {E : Entry → Prop} {r : Roll}

open Roller (Match pure_match report_match)

/-- What follows the base dice matches itself on related sources. -/
theorem finish_match {sides : Nat} (hE : ∀ e, E (.event e))
    (hdraw : Match R E (Roller.draw sides) (Roller.draw sides)) (base : List Nat) :
    Match R E (r.finish sides base) (r.finish sides base) := by
  unfold finish
  split
  · exact (explode_match hE hdraw base).bind fun _ => (report_match (hE _)).bind fun _ =>
      pure_match _
  · exact pure_match _

/-- A whole roll matches itself on related sources. -/
theorem roll_match (hE : ∀ e, E (.event e))
    (hdraw : ∀ sides, 1 ≤ sides → Match R E (Roller.draw sides) (Roller.draw sides))
    (hdice : ∀ sides, r.dice = .standard sides → 1 ≤ sides) : Match R E r.roll r.roll := by
  cases h : r.dice with
  | standard sides =>
    have hdraw := hdraw sides (hdice sides h)
    rw [roll_eq_finish h, roll_eq_finish h]
    exact ((rollOne_match hE hdraw).times r.count).bind (finish_match hE hdraw)
  | fudge =>
    unfold roll
    rw [h]
    exact (((hdraw 3 (by decide)).times r.count).bind fun _ => pure_match _).bind fun _ =>
      pure_match _

end

end Roll

end Tabletop
