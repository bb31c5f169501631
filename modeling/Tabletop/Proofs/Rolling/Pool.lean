import Tabletop.Proofs.Rolling.Owed

/-!
# Explosions of two pools

Dice that explode together roll the same as if one part of them exploded first and then the other,
on what the first left of the source (`explode_append`). This cannot be seen in the passes, which
roll the dice that come of both parts side by side: a die that the pool owes to the one part may be
owed to the other if they take turns. But an explosion comes to as many chains as there are highest
faces (`explode_same_chains`), and chains that are rolled one after the other can be parted anywhere
(`chains_append`).
-/

namespace Tabletop

open Roller (same_bind)

/-! ## What a run gives -/

section
variable {σ α β : Type} {s t : σ} {took : List Entry}

/-- The run comes to a value, leaves so much of the source and takes these draws. -/
def Run.Gives (run : Run σ α) (value : α) (rest : σ) (took : List Entry) : Prop :=
  ∃ log, run = ⟨some value, rest, log⟩ ∧ draws log = took

/-- A run gives a value if it ends with it, on the source that is left, after these draws. -/
theorem Run.gives_iff {run : Run σ α} {value : α} : run.Gives value t took ↔
    run.outcome = some value ∧ run.rest = t ∧ draws run.log = took := by
  constructor
  · rintro ⟨log, rfl, rfl⟩
    exact ⟨rfl, rfl, rfl⟩
  · rintro ⟨houtcome, rfl, rfl⟩
    exact ⟨run.log, Run.eq_of_outcome houtcome, rfl⟩

instance [DecidableEq σ] [DecidableEq α] (run : Run σ α) (value : α) (rest : σ)
    (took : List Entry) : Decidable (run.Gives value rest took) :=
  decidable_of_iff _ Run.gives_iff.symm

/-- Runs that differ in their reports only give the same. -/
theorem Run.Same.gives_iff {run run' : Run σ α} (h : run.Same run') {value : α} :
    run.Gives value t took ↔ run'.Gives value t took := by
  rw [Run.gives_iff, Run.gives_iff, h.outcome, h.rest, h.draws]

/-- Of two computations one after the other, the second goes on with what the first leaves. -/
theorem Roller.gives_bind_iff {r : Roller σ α} {f : α → Roller σ β} {b : β} :
    ((r >>= f).run s).Gives b t took ↔ ∃ a u took₁ took₂,
      (r.run s).Gives a u took₁ ∧ ((f a).run u).Gives b t took₂ ∧ took = took₁ ++ took₂ := by
  constructor
  · rintro ⟨_, hrun, rfl⟩
    obtain ⟨a, u, l₁, l₂, hr, hf, rfl⟩ := run_bind_eq_some_iff.1 hrun
    exact ⟨a, u, _, _, ⟨l₁, hr, rfl⟩, ⟨l₂, hf, rfl⟩, draws_append l₁ l₂⟩
  · rintro ⟨a, u, _, _, ⟨l₁, hr, rfl⟩, ⟨l₂, hf, rfl⟩, rfl⟩
    exact ⟨_, run_bind_of_some hr hf, draws_append l₁ l₂⟩

/-- What is made of a value afterwards takes no draws. -/
theorem Roller.gives_bind_pure_iff {r : Roller σ α} {f : α → β} {b : β} :
    ((r >>= fun a => pure (f a)).run s).Gives b t took ↔
      ∃ a, (r.run s).Gives a t took ∧ b = f a := by
  rw [gives_bind_iff]
  constructor
  · rintro ⟨a, u, _, _, ha, ⟨l, hpure, rfl⟩, rfl⟩
    obtain ⟨rfl, rfl, rfl⟩ := run_pure_eq_some_iff.1 hpure
    exact ⟨a, by simpa [draws] using ha, rfl⟩
  · rintro ⟨a, ha, rfl⟩
    exact ⟨a, t, took, [], ha, ⟨[], rfl, rfl⟩, (List.append_nil took).symm⟩

end

/-! ## Chains and explosions in two parts -/

section
variable {σ : Type} [DieSource σ] {sides : Nat} {m : Modifiers}

/-- Chains in a row can be parted: so many first, then the others. -/
theorem chains_append (n k : Nat) : chains (σ := σ) sides m (n + k) =
    chains sides m n >>= fun faces => chains sides m k >>= fun more => pure (faces ++ more) := by
  induction n with
  | zero =>
    simp only [Nat.zero_add, chains_zero, Roller.pure_bind, List.nil_append, Roller.bind_pure]
  | succ n ih =>
    rw [Nat.add_right_comm, chains_succ_eq_chain_bind, chains_succ_eq_chain_bind, ih]
    simp only [Roller.bind_assoc, Roller.pure_bind, List.append_assoc]

/-- An explosion that is not refused comes to a chain for each highest face. -/
theorem explode_same_chains (hsides : 2 ≤ sides) (h : m.forcesMaxFace sides = false)
    (faces : List Nat) (s : σ) :
    ((explode faces sides m).run s).Same ((chains sides m (faces.count sides)).run s) := by
  rw [explode_eq_passes hsides h]
  exact passes_same_chains 1 _ s

/-- Dice explode together as the first of them do and then the others. -/
theorem explode_append_same (faces₁ faces₂ : List Nat) (s : σ) :
    ((explode (faces₁ ++ faces₂) sides m).run s).Same
      ((explode faces₁ sides m >>= fun extra₁ =>
        explode faces₂ sides m >>= fun extra₂ => pure (extra₁ ++ extra₂)).run s) := by
  by_cases hsides : sides < 2
  · have hflat (faces : List Nat) : explode (σ := σ) faces sides m = pure [] := if_pos hsides
    simp only [hflat, Roller.pure_bind]
    exact ⟨rfl, rfl, rfl⟩
  cases hforce : m.forcesMaxFace sides with
  | true =>
    -- Each refusal is reported, and is nothing but a report.
    have hrefuse (faces : List Nat) : explode (σ := σ) faces sides m =
        Roller.report (.explosionRefused sides) >>= fun _ => pure [] := by
      unfold explode
      rw [if_neg hsides, hforce]
      rfl
    simp only [hrefuse, Roller.bind_assoc, Roller.pure_bind]
    exact ⟨rfl, rfl, rfl⟩
  | false =>
    have hsides : 2 ≤ sides := Nat.le_of_not_lt hsides
    refine (explode_same_chains hsides hforce (faces₁ ++ faces₂) s).trans (Run.Same.symm ?_)
    rw [List.count_append, chains_append]
    exact same_bind (explode_same_chains hsides hforce faces₁ s) fun _ =>
      same_bind (explode_same_chains hsides hforce faces₂ _) fun _ => ⟨rfl, rfl, rfl⟩

/-- Whatever two pools of dice explode on whatever source: together they come to a value exactly if
the first pool does so, and then the second on what the first leaves. Their extra dice are those of
the first pool followed by those of the second, they take the same draws and leave the same of the
source. And of a pool it matters only how many of its dice show their highest face. -/
theorem explode_append (faces₁ faces₂ : List Nat) (s : σ) :
    (∀ extra t took, ((explode (faces₁ ++ faces₂) sides m).run s).Gives extra t took ↔
      ∃ extra₁ extra₂ u took₁ took₂, ((explode faces₁ sides m).run s).Gives extra₁ u took₁ ∧
        ((explode faces₂ sides m).run u).Gives extra₂ t took₂ ∧
        extra = extra₁ ++ extra₂ ∧ took = took₁ ++ took₂) ∧
    ∀ faces : List Nat, faces.count sides = faces₁.count sides →
      explode (σ := σ) faces sides m = explode faces₁ sides m := by
  refine ⟨fun extra t took => ?_, fun faces hcount => ?_⟩
  · rw [(explode_append_same faces₁ faces₂ s).gives_iff, Roller.gives_bind_iff]
    simp only [Roller.gives_bind_pure_iff]
    constructor
    · rintro ⟨extra₁, u, took₁, took₂, h₁, ⟨extra₂, h₂, rfl⟩, rfl⟩
      exact ⟨extra₁, extra₂, u, took₁, took₂, h₁, h₂, rfl, rfl⟩
    · rintro ⟨extra₁, extra₂, u, took₁, took₂, h₁, h₂, rfl, rfl⟩
      exact ⟨extra₁, u, took₁, took₂, h₁, ⟨extra₂, h₂, rfl⟩, rfl⟩
  · unfold explode
    rw [hcount]

/-- Two pools with a 6 each, where a 1 is rolled again. Together they roll 6 and 2 in a first pass
and 5 in a second. One after the other, the first pool rolls 6 and 2, and the second rolls 5. -/
theorem explode_append_two :
    let m : Modifiers := { reroll := some (.atMost 1) }
    let s : Script := ⟨[6, 1, 2, 5, 4]⟩
    [3, 6].count 6 = [6].count 6 ∧ explode (σ := Script) [3, 6] 6 m = explode [6] 6 m ∧
      ((explode ([6] ++ [3, 6]) 6 m).run s).Gives [6, 2, 5] ⟨[4]⟩
        [.drew 6 6, .drew 6 1, .drew 6 2, .drew 6 5] := by
  intro m s
  have hcount : [3, 6].count 6 = [6].count 6 := by decide
  obtain ⟨hpools, hhighest⟩ := explode_append (m := m) [6] [3, 6] s
  refine ⟨hcount, hhighest [3, 6] hcount, (hpools _ _ _).2 ?_⟩
  exact ⟨[6, 2], [5], ⟨[5, 4]⟩, [.drew 6 6, .drew 6 1, .drew 6 2], [.drew 6 5],
    by decide +kernel, by decide +kernel, rfl, rfl⟩

end

end Tabletop
