import Tabletop.Source.Basic

/-!
# Runs that give a value

A run that gives a value gives one at each of its steps. These lemmas take such a run apart: into
the runs of a computation and of what follows it, with the log cut in two (`run_bind_eq_some_iff`),
and into the single times of a repetition (`series_of_run_times`). The views of a log (`asked`,
`drawn`, `events`) are cut in two with it.
-/

namespace Tabletop

/-- A run is known by its outcome, what is left of the source, and its log. -/
theorem Run.eq_of_outcome {σ α : Type} {run : Run σ α} {a : α} (h : run.outcome = some a) :
    run = ⟨some a, run.rest, run.log⟩ := by
  rw [← h]

/-- The same for a run that may come to an error. -/
theorem Run.eq_of_toOption {σ ε α : Type} {run : Run σ (Except ε α)} {a : α}
    (h : run.outcome.bind Except.toOption = some a) : run = ⟨some (.ok a), run.rest, run.log⟩ := by
  obtain ⟨answer, hanswer, ha⟩ := Option.bind_eq_some_iff.1 h
  cases answer with
  | error => cases ha
  | ok b =>
    cases ha
    exact eq_of_outcome hanswer

/-- Whether a run gives an outcome can be seen without looking at it. -/
theorem Run.exists_ok {σ ε α : Type} {run : Run σ (Except ε α)}
    (h : (run.outcome.bind Except.toOption).isSome = true) :
    ∃ a, run = ⟨some (.ok a), run.rest, run.log⟩ := by
  obtain ⟨a, ha⟩ := Option.isSome_iff_exists.1 h
  exact ⟨a, eq_of_toOption ha⟩

/-! ## One after the other, regrouped -/

namespace Roller

variable {σ α β γ : Type}

/-- A value is handed on without a draw. -/
protected theorem pure_bind (a : α) (f : α → Roller σ β) : pure a >>= f = f a := by
  ext1
  funext s
  rw [run_bind]
  rfl

/-- A computation that is followed by nothing else. -/
protected theorem bind_pure (r : Roller σ α) : (r >>= fun a => pure a) = r := by
  ext1
  funext s
  rw [run_bind]
  cases r.run s with
  | mk outcome t log => cases outcome <;> simp [Run.after]

/-- It does not matter how computations that follow each other are grouped. -/
protected theorem bind_assoc (r : Roller σ α) (f : α → Roller σ β) (g : β → Roller σ γ) :
    r >>= f >>= g = r >>= fun a => f a >>= g := by
  ext1
  funext s
  simp only [run_bind]
  cases (r.run s).outcome with
  | none => rfl
  | some a =>
    dsimp only [Run.after]
    cases ((f a).run (r.run s).rest).outcome with
    | none => rfl
    | some b => simp

end Roller

/-! ## Draws in a log -/

/-- What is asked in a log is what is asked in its parts. -/
theorem asked_append (l₁ l₂ : List Entry) : asked (l₁ ++ l₂) = asked l₁ ++ asked l₂ :=
  List.filterMap_append

/-- The faces drawn in a log are those of its parts. -/
theorem drawn_append (l₁ l₂ : List Entry) : drawn (l₁ ++ l₂) = drawn l₁ ++ drawn l₂ :=
  List.filterMap_append

/-- Events take no draw. -/
theorem asked_events (es : List Event) : asked (es.map .event) = [] := by
  induction es with
  | nil => rfl
  | cons e es ih => exact ih

/-- Events draw no face. -/
theorem drawn_events (es : List Event) : drawn (es.map .event) = [] := by
  induction es with
  | nil => rfl
  | cons e es ih => exact ih

/-- The events of a log are those of its parts. -/
theorem events_append (l₁ l₂ : List Entry) : events (l₁ ++ l₂) = events l₁ ++ events l₂ :=
  List.filterMap_append

/-- Events have themselves for events. -/
theorem events_events (es : List Event) : events (es.map .event) = es := by
  induction es with
  | nil => rfl
  | cons e es ih => exact congrArg (e :: ·) ih

/-! ## Taking runs apart -/

namespace Roller

/-- Values that came one after the other, each related by `P` to its part of the log. -/
inductive Series {α : Type} (P : α → List Entry → Prop) : List α → List Entry → Prop
  | nil : Series P [] []
  | cons {a : α} {as : List α} {l₁ l₂ : List Entry} : P a l₁ → Series P as l₂ →
      Series P (a :: as) (l₁ ++ l₂)

variable {σ α β : Type} {s t : σ} {log : List Entry}

/-- One computation after the other gives a value exactly if both do, with one log behind the other.
-/
theorem run_bind_eq_some_iff {r : Roller σ α} {f : α → Roller σ β} {b : β} :
    (r >>= f).run s = ⟨some b, t, log⟩ ↔
      ∃ a u l₁ l₂, r.run s = ⟨some a, u, l₁⟩ ∧ (f a).run u = ⟨some b, t, l₂⟩ ∧
        log = l₁ ++ l₂ := by
  rw [run_bind]
  constructor
  · intro h
    cases hr : r.run s with
    | mk outcome u l₁ =>
      rw [hr] at h
      cases outcome with
      | none => cases h
      | some a =>
        dsimp only at h
        cases hf : (f a).run u with
        | mk outcome' t' l₂ =>
          rw [hf] at h
          cases h
          exact ⟨a, u, l₁, l₂, rfl, hf, rfl⟩
  · rintro ⟨a, u, l₁, l₂, hr, hf, rfl⟩
    rw [hr]
    dsimp only
    rw [hf]
    rfl

/-- If two computations give values, so do both one after the other. -/
theorem run_bind_of_some {r : Roller σ α} {f : α → Roller σ β} {a : α} {b : β} {u : σ}
    {l₁ l₂ : List Entry} (hr : r.run s = ⟨some a, u, l₁⟩) (hf : (f a).run u = ⟨some b, t, l₂⟩) :
    (r >>= f).run s = ⟨some b, t, l₁ ++ l₂⟩ :=
  run_bind_eq_some_iff.2 ⟨a, u, l₁, l₂, hr, hf, rfl⟩

/-- Once the first computation has given its value, the second decides the outcome. -/
theorem outcome_bind_of_some {r : Roller σ α} {f : α → Roller σ β} {a : α} {u : σ}
    (hr : r.run s = ⟨some a, u, log⟩) : ((r >>= f).run s).outcome = ((f a).run u).outcome := by
  rw [run_bind, hr]
  rfl

/-- If the source goes dry in the first computation, nothing comes of both. -/
theorem outcome_bind_of_none {r : Roller σ α} {f : α → Roller σ β}
    (hr : (r.run s).outcome = none) : ((r >>= f).run s).outcome = none := by
  rw [run_bind, hr]

/-- What is made of a value in the end does not matter to whether there is one. -/
theorem outcome_bind_pure {r : Roller σ α} {f : α → β} :
    ((r >>= fun a => pure (f a)).run s).outcome = (r.run s).outcome.map f := by
  rw [run_bind]
  cases (r.run s).outcome <;> rfl

/-- What a computation logs stands in front of what is logged after it. -/
theorem log_prefix_bind (r : Roller σ α) (f : α → Roller σ β) :
    (r.run s).log <+: ((r >>= f).run s).log := by
  rw [run_bind]
  cases (r.run s).outcome with
  | none => exact List.prefix_rfl
  | some a => exact List.prefix_append ..

/-- A value leaves source and log as they are. -/
theorem run_pure_eq_some_iff {a b : α} :
    (pure a : Roller σ α).run s = ⟨some b, t, log⟩ ↔ b = a ∧ t = s ∧ log = [] := by
  rw [run_pure, Run.mk.injEq, Option.some.injEq, eq_comm (a := a), eq_comm (a := s),
    eq_comm (a := [])]

/-- A report leaves the source as it is and adds itself to the log. -/
theorem run_report_eq_some_iff {e : Event} {x : Unit} :
    (report e : Roller σ Unit).run s = ⟨some x, t, log⟩ ↔ t = s ∧ log = [.event e] := by
  rw [run_report, Run.mk.injEq, eq_comm (a := s), eq_comm (a := [Entry.event e])]
  simp

/-- Reports leave the source as it is and add themselves to the log. -/
theorem run_reports_eq_some_iff {es : List Event} {x : Unit} :
    (reports es : Roller σ Unit).run s = ⟨some x, t, log⟩ ↔ t = s ∧ log = es.map .event := by
  unfold reports
  rw [Run.mk.injEq, eq_comm (a := s), eq_comm (a := es.map Entry.event)]
  simp

/-- A draw gives what the source gives and adds it to the log. -/
theorem run_draw_eq_some_iff [DieSource σ] {sides face : Nat} :
    (draw sides).run s = ⟨some face, t, log⟩ ↔
      DieSource.draw sides s = (some face, t) ∧ log = [.drew sides face] := by
  constructor
  · intro h
    cases hd : DieSource.draw sides s with
    | mk face? u =>
      cases face? with
      | none => rw [run_draw_of_none hd] at h; cases h
      | some face' => rw [run_draw_of_some hd] at h; cases h; exact ⟨rfl, rfl⟩
  · rintro ⟨hd, rfl⟩
    exact run_draw_of_some hd

/-- What each part of the log says of its value holds of all values. -/
theorem Series.forall_mem {P : α → List Entry → Prop} {Q : α → Prop} {E : Entry → Prop}
    {as : List α} (h : Series P as log) (hlog : ∀ e ∈ log, E e)
    (hQ : ∀ {a log}, P a log → (∀ e ∈ log, E e) → Q a) : ∀ a ∈ as, Q a := by
  induction h with
  | nil => nofun
  | cons ha _ ih =>
    rw [List.forall_mem_append] at hlog
    rw [List.forall_mem_cons]
    exact ⟨hQ ha hlog.1, ih hlog.2⟩

/-- A computation done many times over gives so many values, one after the other. -/
theorem series_of_run_times {r : Roller σ α} {P : α → List Entry → Prop}
    (hr : ∀ {s a t log}, r.run s = ⟨some a, t, log⟩ → P a log) {n : Nat} {as : List α}
    (h : (times n r).run s = ⟨some as, t, log⟩) : as.length = n ∧ Series P as log := by
  induction n generalizing s as log with
  | zero =>
    obtain ⟨rfl, rfl, rfl⟩ := run_pure_eq_some_iff.1 h
    exact ⟨rfl, .nil⟩
  | succ n ih =>
    rw [times_succ] at h
    obtain ⟨a, u, l₁, l₂, ha, hmore, rfl⟩ := run_bind_eq_some_iff.1 h
    obtain ⟨as, v, l₃, l₄, has, hpure, rfl⟩ := run_bind_eq_some_iff.1 hmore
    obtain ⟨rfl, rfl, rfl⟩ := run_pure_eq_some_iff.1 hpure
    obtain ⟨hlen, hseries⟩ := ih has
    rw [List.append_nil, List.length_cons, hlen]
    exact ⟨rfl, .cons (hr ha) hseries⟩

/-! ## Draws of one die -/

section
variable [DieSource σ] {sides n : Nat} {faces : List Nat}

/-- One die drawn many times over is asked for so many times, and gives the faces that come of
it. -/
theorem asked_of_run_times_draw (h : (times n (draw sides)).run s = ⟨some faces, t, log⟩) :
    asked log = List.replicate n sides ∧ drawn log = faces := by
  obtain ⟨rfl, hseries⟩ := series_of_run_times (fun hdraw => (run_draw_eq_some_iff.1 hdraw).2) h
  clear h
  induction hseries with
  | nil => exact ⟨rfl, rfl⟩
  | @cons face faces l₁ l₂ hface _ ih =>
    rw [hface]
    exact ⟨congrArg (sides :: ·) ih.1, congrArg (face :: ·) ih.2⟩

/-- Where the source runs dry on the way it has not been asked more often. -/
theorem exists_asked_times_draw (sides n : Nat) (s : σ) :
    ∃ k ≤ n, asked ((times n (draw sides)).run s).log = List.replicate k sides := by
  induction n generalizing s with
  | zero => exact ⟨0, Nat.le_refl 0, rfl⟩
  | succ n ih =>
    rw [times_succ, run_bind]
    cases hd : DieSource.draw sides s with
    | mk face? u =>
      cases face? with
      | none => exact ⟨1, by omega, by rw [run_draw_of_none hd]; rfl⟩
      | some face =>
        obtain ⟨k, hk, hasked⟩ := ih u
        refine ⟨k + 1, by omega, ?_⟩
        rw [run_draw_of_some hd]
        dsimp only [Run.after]
        rw [run_bind, List.replicate_succ, ← hasked]
        cases ((times n (draw sides)).run u).outcome with
        | none => rfl
        | some faces =>
          dsimp only [Run.after]
          rw [run_pure, List.append_nil]
          rfl

end

end Roller

end Tabletop
