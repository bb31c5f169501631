import Tabletop.Modifiers.Selection

/-!
# What keeping and dropping leaves

The dice that count are some of the dice rolled, in ascending order, and as many as `keptCount`
says.
-/

namespace Tabletop.Modifiers

variable {m : Modifiers} {sorted faces : List Nat} {n? : Option Nat}

/-- A step leaves some of the dice, in their order. -/
theorem step_sublist {act : Nat → List Nat → List Nat} (h : ∀ n l, (act n l).Sublist l) :
    (step act n? sorted).Sublist sorted := by
  cases n? with
  | none => exact List.Sublist.refl sorted
  | some n => exact h n sorted

/-- Dropping the highest dice leaves the others in their order. -/
theorem dropHighest_sublist (n : Nat) (l : List Nat) : (dropHighest n l).Sublist l :=
  List.take_sublist _ l

/-- Keeping the highest dice leaves them in their order. -/
theorem keepHighest_sublist (n : Nat) (l : List Nat) : (keepHighest n l).Sublist l :=
  List.drop_sublist _ l

/-- The selection leaves dice out and moves none. -/
theorem trim_sublist : (m.trim sorted).Sublist sorted :=
  (step_sublist keepHighest_sublist).trans <| (step_sublist List.take_sublist).trans <|
    (step_sublist dropHighest_sublist).trans (step_sublist List.drop_sublist)

/-- Dropping the lowest dice leaves so many fewer. -/
theorem length_step_drop : (step List.drop n? sorted).length = sorted.length - n?.getD 0 := by
  cases n? <;> simp [step]

/-- Dropping the highest dice leaves so many fewer. -/
theorem length_step_dropHighest :
    (step dropHighest n? sorted).length = sorted.length - n?.getD 0 := by
  cases n? <;> simp [step, dropHighest]

/-- Keeping the lowest dice leaves so many at most. -/
theorem length_step_take :
    (step List.take n? sorted).length = min sorted.length (n?.getD sorted.length) := by
  cases n? <;> simp [step, Nat.min_comm]

/-- Keeping the highest dice leaves so many at most. -/
theorem length_step_keepHighest :
    (step keepHighest n? sorted).length = min sorted.length (n?.getD sorted.length) := by
  cases n? with
  | none => simp [step]
  | some n =>
    simp only [step, keepHighest, List.length_drop, Option.getD_some]
    omega

/-- `keptCount` counts what the selection leaves. -/
theorem length_trim : (m.trim sorted).length = m.keptCount sorted.length := by
  unfold trim keptCount
  rw [length_step_keepHighest, length_step_take, length_step_dropHighest, length_step_drop]
  cases m.keepHigh with
  | none =>
    simp only [Option.getD_none]
    omega
  | some n => rfl

/-- As many dice are selected as the counts say beforehand. -/
theorem length_select : (m.select faces).length = m.keptCount faces.length := by
  rw [select, length_trim, List.length_mergeSort]

/-- Dice are sorted in ascending order. -/
theorem pairwise_mergeSort (faces : List Nat) :
    (faces.mergeSort fun a b => a ≤ b).Pairwise (· ≤ ·) := by
  have hsorted : (faces.mergeSort fun a b => a ≤ b).Pairwise fun a b => decide (a ≤ b) = true :=
    List.pairwise_mergeSort (fun a b c => by simpa using Nat.le_trans)
      (fun a b => by simpa using Nat.le_total a b) faces
  exact hsorted.imp of_decide_eq_true

/-- The dice that count are in ascending order. -/
theorem pairwise_select : (m.select faces).Pairwise (· ≤ ·) :=
  (pairwise_mergeSort faces).sublist trim_sublist

/-- The dice that count are some of the dice rolled; the others are dropped. -/
theorem exists_perm_select_append : ∃ dropped, faces.Perm (m.select faces ++ dropped) := by
  obtain ⟨dropped, hperm⟩ := List.Sublist.exists_perm_append
    (trim_sublist : (m.trim (faces.mergeSort fun a b => a ≤ b)).Sublist _)
  exact ⟨dropped, (List.mergeSort_perm faces _).symm.trans hperm⟩

/-- Only dice that were rolled are selected. -/
theorem mem_of_mem_select {face : Nat} (h : face ∈ m.select faces) : face ∈ faces :=
  (List.mergeSort_perm faces _).mem_iff.1 (trim_sublist.subset h)

/-- No more dice are kept than are rolled. -/
theorem keptCount_le {count : Nat} : m.keptCount count ≤ count := by
  unfold keptCount
  dsimp only
  omega

/-- Of dice that are all alike, it does not matter which ones count. -/
theorem select_replicate (n face : Nat) :
    m.select (List.replicate n face) = List.replicate (m.keptCount n) face := by
  refine List.eq_replicate_iff.2 ⟨?_, fun x hx => ?_⟩
  · rw [length_select, List.length_replicate]
  · exact List.eq_of_mem_replicate (mem_of_mem_select hx)

end Tabletop.Modifiers
