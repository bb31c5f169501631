import Mathlib.Order.Bounds.Defs
import Tabletop.Proofs.Rolling.InStep
import Tabletop.Source.Script

/-!
# Dice that an explosion owes

An explosion owes one die for every highest face. It pays in passes, all dice that are owed at a
time together. It might as well pay one die after the other, each to the end of its chain: roll a
die and, as long as it shows its highest face, one more (`chain`, `chains`). A pass takes its dice
out of the chains in another order, but no die knows to which chain it belongs, so both ways take
the same draws and end on the same faces (`passes_same_chains`). And both stop at the first time at
which all that is owed has been rolled (`Paid`): `explode_owed`.
-/

namespace Tabletop

open Roller (times same_bind same_report_bind)

variable {σ : Type} [DieSource σ] {sides : Nat} {m : Modifiers}

/-! ## Chains -/

/-- Rolling a die takes something from the budget of the source. -/
theorem budget_lt_of_rollOne {s t : σ} {face : Nat} {log : List Entry}
    (h : (rollOne sides m).run s = ⟨some face, t, log⟩) :
    DieSource.budget t < DieSource.budget s := by
  have hspends := spends_rollOne (σ := σ) sides m s face (by rw [h])
  rw [h] at hspends
  exact hspends

/-- Rolls a die and, as long as it shows its highest face, one more. -/
def chainFrom (sides : Nat) (m : Modifiers) (s : σ) : Run σ (List Nat) :=
  match _ : (rollOne sides m).run s with
  | ⟨none, t, log⟩ => ⟨none, t, log⟩
  | ⟨some face, t, log⟩ =>
    if face = sides then
      let later := chainFrom sides m t
      { later with outcome := later.outcome.map (face :: ·) }.after log
    else ⟨some [face], t, log⟩
termination_by DieSource.budget s
decreasing_by exact budget_lt_of_rollOne (by assumption)

/-- Rolls a die and, as long as it shows its highest face, one more. -/
def chain (sides : Nat) (m : Modifiers) : Roller σ (List Nat) := ⟨chainFrom sides m⟩

/-- Rolls so many chains, one to its end after the other. -/
def chains (sides : Nat) (m : Modifiers) (n : Nat) : Roller σ (List Nat) := do
  let faces ← times n (chain sides m)
  pure faces.flatten

/-- A chain is a die, and if it ends on its highest face, another chain. -/
theorem chain_eq : chain (σ := σ) sides m = rollOne sides m >>= fun face =>
    if face = sides then chain sides m >>= fun more => pure (face :: more) else pure [face] := by
  ext1
  funext s
  change chainFrom sides m s = _
  unfold chainFrom
  rw [Roller.run_bind]
  split
  · next hrun => rw [hrun]
  · next face t log hrun =>
    rw [hrun]
    dsimp only
    split
    · have hlater : (chain sides m).run t = chainFrom sides m t := rfl
      rw [Roller.run_bind, hlater]
      cases (chainFrom sides m t).outcome <;> simp [Run.after]
    · simp [Run.after]

/-- No chains are nothing. -/
theorem chains_zero : chains (σ := σ) sides m 0 = pure [] := Roller.pure_bind ..

/-- One chain, then the others. -/
theorem chains_succ_eq_chain_bind (n : Nat) : chains (σ := σ) sides m (n + 1) =
    chain sides m >>= fun faces => chains sides m n >>= fun more => pure (faces ++ more) := by
  unfold chains
  rw [Roller.times_succ]
  simp only [Roller.bind_assoc, Roller.pure_bind, List.flatten_cons]

/-- One die of the chains that are owed, then the others: if it shows its highest face, its chain is
still owed. -/
theorem chains_succ (n : Nat) : chains (σ := σ) sides m (n + 1) =
    rollOne sides m >>= fun face =>
      chains sides m (n + if face = sides then 1 else 0) >>= fun more => pure (face :: more) := by
  rw [chains_succ_eq_chain_bind, chain_eq, Roller.bind_assoc]
  congr 1
  funext face
  split
  · rw [chains_succ_eq_chain_bind]
    simp only [Roller.bind_assoc, Roller.pure_bind, List.cons_append]
  · rw [Roller.pure_bind]
    rfl

/-- So many dice of the chains that are owed, then the others. -/
theorem chains_add (n k : Nat) : chains (σ := σ) sides m (n + k) =
    times n (rollOne sides m) >>= fun faces =>
      chains sides m (k + faces.count sides) >>= fun more => pure (faces ++ more) := by
  induction n generalizing k with
  | zero =>
    simp only [Roller.times_zero, Roller.pure_bind, Nat.zero_add, List.count_nil, Nat.add_zero,
      List.nil_append, Roller.bind_pure]
  | succ n ih =>
    rw [Nat.add_right_comm, chains_succ, Roller.times_succ]
    simp only [Roller.bind_assoc, Roller.pure_bind, Nat.add_assoc, ih]
    congr 1
    funext face
    congr 1
    funext faces
    simp only [List.count_cons, beq_iff_eq, Nat.add_comm (faces.count sides), List.cons_append]

/-- The passes of an explosion roll the chains that are owed. -/
theorem passes_same_chains (pass pending : Nat) (s : σ) :
    ((passes sides m pass pending).run s).Same ((chains sides m pending).run s) := by
  -- Each pass takes faces from the source, so the induction is on what the source has left.
  induction hn : DieSource.budget s using Nat.strongRecOn generalizing pass pending s with
  | _ n ih =>
    subst hn
    rw [passes_eq]
    split
    · next hpending =>
      rw [show chains (σ := σ) sides m pending = _ from chains_add pending 0]
      refine same_report_bind _ |>.trans (same_bind ⟨rfl, rfl, rfl⟩ fun hfaces => ?_)
      rw [Nat.zero_add]
      exact same_bind (ih _ (budget_lt_of_pass hpending hfaces) _ _ _ rfl) fun _ => ⟨rfl, rfl, rfl⟩
    · next hpending =>
      rw [Nat.eq_zero_of_not_pos hpending, chains_zero]
      exact ⟨rfl, rfl, rfl⟩

/-! ## When all that is owed has been rolled -/

/-- On this source, `k` dice one after the other are as many as are owed: those that were owed in
the beginning, and one more for every highest face among the `k`. -/
def Paid (sides : Nat) (m : Modifiers) (owed : Nat) (s : σ) (k : Nat) : Prop :=
  ∃ faces t log, (times k (rollOne sides m)).run s = ⟨some faces, t, log⟩ ∧
    k = owed + faces.count sides

/-- Where no die is owed, no die has to be rolled. -/
theorem paid_zero (s : σ) : Paid sides m 0 s 0 := ⟨[], s, [], rfl, rfl⟩

/-- Where dice are owed, the first of them is rolled; if it shows its highest face, one die is owed
in its place. -/
theorem paid_succ_iff {owed k : Nat} {s : σ} :
    Paid sides m (owed + 1) s (k + 1) ↔ ∃ face u l, (rollOne sides m).run s = ⟨some face, u, l⟩ ∧
      Paid sides m (owed + if face = sides then 1 else 0) u k := by
  have hcount (face : Nat) (faces : List Nat) : k + 1 = owed + 1 + (face :: faces).count sides ↔
      k = (owed + if face = sides then 1 else 0) + faces.count sides := by
    simp only [List.count_cons, beq_iff_eq]
    omega
  unfold Paid
  rw [Roller.times_succ]
  constructor
  · rintro ⟨_, t, _, hrun, hk⟩
    obtain ⟨face, u, l, _, hface, hmore, rfl⟩ := Roller.run_bind_eq_some_iff.1 hrun
    obtain ⟨faces, _, log, _, hfaces, hpure, rfl⟩ := Roller.run_bind_eq_some_iff.1 hmore
    obtain ⟨rfl, rfl, rfl⟩ := Roller.run_pure_eq_some_iff.1 hpure
    exact ⟨face, u, l, hface, faces, _, log, hfaces, (hcount face faces).1 hk⟩
  · rintro ⟨face, u, l, hface, faces, t, log, hfaces, hk⟩
    exact ⟨face :: faces, t, _, Roller.run_bind_of_some hface (Roller.run_bind_of_some hfaces rfl),
      (hcount face faces).2 hk⟩

/-- If all that is owed has been rolled at some time, the chains have come to an end by then, and
at a time at which this is so. -/
theorem Paid.exists_run_chains {owed k : Nat} {s : σ} (h : Paid sides m owed s k) :
    ∃ j ≤ k, Paid sides m owed s j ∧
      (chains sides m owed).run s = (times j (rollOne sides m)).run s := by
  induction k generalizing owed s with
  | zero =>
    obtain ⟨faces, t, log, hrun, hk⟩ := h
    obtain rfl : owed = 0 := by omega
    exact ⟨0, Nat.le_refl 0, paid_zero s, rfl⟩
  | succ k ih =>
    cases owed with
    | zero => exact ⟨0, Nat.zero_le _, paid_zero s, rfl⟩
    | succ owed =>
      obtain ⟨face, u, l, hface, hlater⟩ := paid_succ_iff.1 h
      obtain ⟨j, hj, hpaid, hrun⟩ := ih hlater
      refine ⟨j + 1, Nat.succ_le_succ hj, paid_succ_iff.2 ⟨face, u, l, hface, hpaid⟩, ?_⟩
      rw [chains_succ, Roller.times_succ, Roller.run_bind, Roller.run_bind, hface]
      dsimp only
      rw [Roller.run_bind, Roller.run_bind, hrun]

/-- When chains come to an end, all that is owed has been rolled. -/
theorem paid_of_run_chains {owed : Nat} {s t : σ} {faces : List Nat} {log : List Entry}
    (h : (chains sides m owed).run s = ⟨some faces, t, log⟩) :
    Paid sides m owed s faces.length := by
  induction faces generalizing owed s log with
  | nil =>
    cases owed with
    | zero => exact paid_zero s
    | succ owed =>
      rw [chains_succ] at h
      obtain ⟨_, _, _, _, -, hmore, -⟩ := Roller.run_bind_eq_some_iff.1 h
      obtain ⟨_, _, _, _, -, hpure, -⟩ := Roller.run_bind_eq_some_iff.1 hmore
      cases (Roller.run_pure_eq_some_iff.1 hpure).1
  | cons face faces ih =>
    cases owed with
    | zero => cases (Roller.run_pure_eq_some_iff.1 h).1
    | succ owed =>
      rw [chains_succ] at h
      obtain ⟨_, u, l, _, hface, hmore, -⟩ := Roller.run_bind_eq_some_iff.1 h
      obtain ⟨_, _, _, _, hfaces, hpure, -⟩ := Roller.run_bind_eq_some_iff.1 hmore
      obtain ⟨⟨⟩, rfl, -⟩ := Roller.run_pure_eq_some_iff.1 hpure
      exact paid_succ_iff.2 ⟨face, u, l, hface, ih hfaces⟩

/-- Chains come to an end exactly if there is a time at which all that is owed has been rolled. -/
theorem isSome_run_chains_iff {owed : Nat} {s : σ} :
    ((chains sides m owed).run s).outcome.isSome = true ↔ ∃ k, Paid sides m owed s k := by
  constructor
  · intro h
    obtain ⟨faces, hfaces⟩ := Option.isSome_iff_exists.1 h
    exact ⟨faces.length, paid_of_run_chains (Run.eq_of_outcome hfaces)⟩
  · rintro ⟨k, hk⟩
    obtain ⟨j, -, ⟨faces, t, log, hfaces, -⟩, hrun⟩ := hk.exists_run_chains
    rw [hrun, hfaces]
    rfl

/-- The chains are as many dice, one after the other, as it takes until all that is owed has been
rolled for the first time. -/
theorem run_chains_of_isLeast {owed k : Nat} {s : σ}
    (h : IsLeast {k | Paid sides m owed s k} k) :
    (chains sides m owed).run s = (times k (rollOne sides m)).run s := by
  obtain ⟨j, hj, hpaid, hrun⟩ := Paid.exists_run_chains h.1
  rw [hrun, Nat.le_antisymm hj (h.2 hpaid)]

/-! ## Explosions -/

/-- An explosion that is not refused goes through its passes. -/
theorem explode_eq_passes (hsides : 2 ≤ sides) (h : m.forcesMaxFace sides = false)
    (faces : List Nat) : explode (σ := σ) faces sides m = passes sides m 1 (faces.count sides) := by
  unfold explode
  rw [if_neg (Nat.not_lt.2 hsides), h]
  rfl

/-- Whatever dice explode on whatever source, if the explosion is not refused: it comes to an end
exactly if there is a time at which all dice that are owed have been rolled, one after the other,
the highest faces among them counting as well. It ends on the dice up to the first such time, in
their order, and takes no further draw. So its passes come to the same, draw by draw, as rolling
each chain to its end before the next is begun. -/
theorem explode_owed (hsides : 2 ≤ sides) (h : m.forcesMaxFace sides = false) (faces : List Nat)
    (s : σ) :
    let run := (explode faces sides m).run s
    let owed := faces.count sides
    (run.outcome.isSome = true ↔ ∃ k, Paid sides m owed s k) ∧
    (∀ k, IsLeast {k | Paid sides m owed s k} k →
      run.Same ((times k (rollOne sides m)).run s)) ∧
    run.Same ((chains sides m owed).run s) := by
  intro run owed
  have hsame : run.Same ((chains sides m owed).run s) := by
    have hexplode : explode faces sides m = passes (σ := σ) sides m 1 owed :=
      explode_eq_passes hsides h faces
    rw [show run = (passes sides m 1 owed).run s from congrArg (Roller.run · s) hexplode]
    exact passes_same_chains 1 owed s
  refine ⟨?_, fun k hk => ?_, hsame⟩
  · rw [hsame.outcome]
    exact isSome_run_chains_iff
  · rw [← run_chains_of_isLeast hk]
    exact hsame

/-- Two dice on their highest face, where a 1 is rolled again: three more dice, since one of the
first two shows a highest face, and no draw after them. -/
theorem explode_owed_three :
    let m : Modifiers := { reroll := some (.atMost 1) }
    let s : Script := ⟨[6, 1, 2, 5, 4]⟩
    2 ≤ 6 ∧ m.forcesMaxFace 6 = false ∧ IsLeast {k | Paid 6 m 2 s k} 3 ∧
      ((explode [6, 3, 6] 6 m).run s).outcome = some [6, 2, 5] ∧
      ((explode [6, 3, 6] 6 m).run s).rest = ⟨[4]⟩ := by
  intro m s
  have hsides : 2 ≤ 6 := by decide
  have hfree : m.forcesMaxFace 6 = false := by decide
  have hthree : ((times 3 (rollOne 6 m)).run s).outcome = some [6, 2, 5] := by decide +kernel
  have htwo : ((times 2 (rollOne 6 m)).run s).outcome = some [6, 2] := by decide +kernel
  have hleast : IsLeast {k | Paid 6 m 2 s k} 3 := by
    refine ⟨⟨[6, 2, 5], _, _, Run.eq_of_outcome hthree, rfl⟩, ?_⟩
    rintro k ⟨faces, t, log, hrun, hk⟩
    refine Nat.le_of_not_lt fun hlt => ?_
    obtain rfl : k = 2 := by omega
    rw [hrun] at htwo
    cases htwo
    cases hk
  obtain ⟨-, hfirst, -⟩ := explode_owed hsides hfree [6, 3, 6] s
  have hsame := hfirst 3 hleast
  exact ⟨hsides, hfree, hleast, hsame.outcome.trans hthree, hsame.rest.trans (by decide +kernel)⟩

end Tabletop
