import Tabletop.Proofs.Modifiers.Selection
import Tabletop.Reading

/-!
# The slice of the dice that counts

Keeping and dropping act on the dice in ascending order one after the other, and each count is held
against what the earlier ones left. All together they cut one slice out of the dice in ascending
order (`select_slice`): the four numbers below say where it begins and ends, and they depend on how
many dice there are and on nothing else. `extract i j` is the part of a list from position `i` up to
position `j`, and each step of the selection moves one of its ends.
-/

namespace Tabletop.Modifiers

variable {m : Modifiers} {l sorted faces : List Nat} {n? : Option Nat} {i j k n : Nat}

/-! ## Where the slice lies -/

/-- How many of `n` dice are dropped as the lowest. -/
def lowDropped (m : Modifiers) (n : Nat) : Nat := min (m.dropLow.getD 0) n

/-- How many of `n` dice are dropped as the highest, of those that are left. -/
def highDropped (m : Modifiers) (n : Nat) : Nat := min (m.dropHigh.getD 0) (n - m.lowDropped n)

/-- How many of `n` dice are kept as the lowest, of those that are left: all if this is not asked
for. -/
def lowKept (m : Modifiers) (n : Nat) : Nat :=
  let left := n - m.lowDropped n - m.highDropped n
  min (m.keepLow.getD left) left

/-- How many of `n` dice are kept as the highest, of those that are left: all if this is not asked
for. -/
def highKept (m : Modifiers) (n : Nat) : Nat := min (m.keepHigh.getD (m.lowKept n)) (m.lowKept n)

/-! ## What a step does to a slice -/

/-- A slice is as long as its ends are apart. -/
theorem length_slice (hj : j ≤ l.length) : (l.extract i j).length = j - i := by
  rw [List.length_take, List.length_drop]
  omega

/-- Dropping from a slice moves its lower end. -/
theorem drop_slice : (l.extract i j).drop k = l.extract (i + k) j := by
  simp only [List.extract_eq_take_drop, List.drop_take, List.drop_drop, Nat.sub_sub]

/-- Taking from a slice moves its upper end. -/
theorem take_slice (hk : k ≤ j - i) : (l.extract i j).take k = l.extract i (i + k) := by
  simp only [List.extract_eq_take_drop, List.take_take, Nat.min_eq_left hk, Nat.add_sub_cancel_left]

/-- Dropping the lowest dice moves the lower end up, at most to the upper one. -/
theorem step_drop_slice (hj : j ≤ l.length) : step List.drop n? (l.extract i j) =
    l.extract (i + min (n?.getD 0) (j - i)) j := by
  cases n? with
  | none => simp [step]
  | some n =>
    rw [step, List.drop_eq_drop_min, length_slice hj, drop_slice]
    rfl

/-- Dropping the highest dice moves the upper end down, at most to the lower one. -/
theorem step_dropHighest_slice (hi : i ≤ j) (hj : j ≤ l.length) :
    step dropHighest n? (l.extract i j) = l.extract i (j - min (n?.getD 0) (j - i)) := by
  cases n? with
  | none => simp [step]
  | some n =>
    rw [step, dropHighest, length_slice hj, take_slice (Nat.sub_le ..), Option.getD_some]
    congr 1
    omega

/-- Keeping the lowest dice moves the upper end down. -/
theorem step_take_slice (hi : i ≤ j) (hj : j ≤ l.length) : step List.take n? (l.extract i j) =
    l.extract i (i + min (n?.getD (j - i)) (j - i)) := by
  cases n? with
  | none =>
    rw [step, Option.getD_none, Nat.min_self, Nat.add_sub_cancel' hi]
  | some n =>
    rw [step, List.take_eq_take_min, length_slice hj, take_slice (Nat.min_le_right ..)]
    rfl

/-- Keeping the highest dice moves the lower end up. -/
theorem step_keepHighest_slice (hi : i ≤ j) (hj : j ≤ l.length) :
    step keepHighest n? (l.extract i j) = l.extract (j - min (n?.getD (j - i)) (j - i)) j := by
  cases n? with
  | none =>
    rw [step, Option.getD_none, Nat.min_self, Nat.sub_sub_self hi]
  | some n =>
    rw [step, keepHighest, length_slice hj, drop_slice, Option.getD_some]
    congr 1
    omega

/-! ## What all steps do -/

section
variable (m n)

/-- No more low dice are dropped than there are. -/
theorem lowDropped_le : m.lowDropped n ≤ n := Nat.min_le_right ..

/-- No more high dice are dropped than are left. -/
theorem highDropped_le : m.highDropped n ≤ n - m.lowDropped n := Nat.min_le_right ..

/-- No more low dice are kept than are left. -/
theorem lowKept_le : m.lowKept n ≤ n - m.lowDropped n - m.highDropped n := Nat.min_le_right ..

/-- No more high dice are kept than are left. -/
theorem highKept_le : m.highKept n ≤ m.lowKept n := Nat.min_le_right ..

end

/-- What the keep and drop counts leave is a slice of the dice. -/
theorem trim_eq_slice (hlen : sorted.length = n) : m.trim sorted = sorted.extract
    (m.lowDropped n + m.lowKept n - m.highKept n) (m.lowDropped n + m.lowKept n) := by
  have hd := m.lowDropped_le n
  have hh := m.highDropped_le n
  have ha := m.lowKept_le n
  have hlow : step List.drop m.dropLow sorted = sorted.extract (m.lowDropped n) n := by
    calc step List.drop m.dropLow sorted
      _ = step List.drop m.dropLow (sorted.extract 0 n) := by simp [← hlen]
      _ = sorted.extract (0 + m.lowDropped n) n := step_drop_slice (Nat.le_of_eq hlen.symm)
      _ = sorted.extract (m.lowDropped n) n := by rw [Nat.zero_add]
  have hhigh : step dropHighest m.dropHigh (sorted.extract (m.lowDropped n) n) =
      sorted.extract (m.lowDropped n) (n - m.highDropped n) :=
    step_dropHighest_slice hd (Nat.le_of_eq hlen.symm)
  have hkeep : step List.take m.keepLow (sorted.extract (m.lowDropped n) (n - m.highDropped n)) =
      sorted.extract (m.lowDropped n) (m.lowDropped n + m.lowKept n) := by
    rw [step_take_slice (by omega) (by omega), Nat.sub_right_comm]
    rfl
  have hlast : step keepHighest m.keepHigh
      (sorted.extract (m.lowDropped n) (m.lowDropped n + m.lowKept n)) =
        sorted.extract (m.lowDropped n + m.lowKept n - m.highKept n)
          (m.lowDropped n + m.lowKept n) := by
    rw [step_keepHighest_slice (by omega) (by omega), Nat.add_sub_cancel_left]
    rfl
  rw [trim, hlow, hhigh, hkeep, hlast]

/-- It does not matter how the dice are put in ascending order: there is one such order only. -/
theorem select_eq_trim (hperm : sorted.Perm faces) (hsorted : sorted.Pairwise (· ≤ ·)) :
    m.select faces = m.trim sorted := by
  have hunique : (faces.mergeSort fun a b => a ≤ b) = sorted :=
    ((List.mergeSort_perm faces _).trans hperm.symm).eq_of_pairwise
      (fun _ _ _ _ => Nat.le_antisymm) (pairwise_mergeSort faces) hsorted
  rw [select, hunique]

/-- The order in which the dice came does not matter to which of them count. -/
theorem select_perm {faces' : List Nat} (hperm : faces'.Perm faces) :
    m.select faces' = m.select faces :=
  select_eq_trim ((List.mergeSort_perm faces _).trans hperm.symm) (pairwise_mergeSort faces)

/-- The dice that count are a slice of the dice in ascending order. -/
theorem select_eq_slice (hperm : sorted.Perm faces) (hsorted : sorted.Pairwise (· ≤ ·)) :
    m.select faces = sorted.extract
      (m.lowDropped faces.length + m.lowKept faces.length - m.highKept faces.length)
      (m.lowDropped faces.length + m.lowKept faces.length) := by
  rw [select_eq_trim hperm hsorted]
  exact trim_eq_slice hperm.length_eq

/-- Whatever dice come and whatever counts are set, the dice that count are a slice of the ascending
order: past the dice dropped as the lowest, the last of those that are then kept as the lowest, as
many as are kept as the highest. They are as many as `keptCount` says, and they are the same for any
other order of the dice. -/
theorem select_slice (m : Modifiers) (faces : List Nat) :
    let d := m.lowDropped faces.length
    let a := m.lowKept faces.length
    let b := m.highKept faces.length
    (∀ sorted : List Nat, sorted.Perm faces → sorted.Pairwise (· ≤ ·) →
      m.select faces = sorted.extract (d + a - b) (d + a)) ∧
    ((m.select faces).length = b ∧ m.keptCount faces.length = b) ∧
    ∀ faces' : List Nat, faces'.Perm faces → m.select faces' = m.select faces := by
  intro d a b
  have hd : d ≤ faces.length := m.lowDropped_le _
  have ha : a ≤ faces.length - d - m.highDropped faces.length := m.lowKept_le _
  have hb : b ≤ a := m.highKept_le _
  have hlen : (m.select faces).length = b := by
    rw [select_eq_slice (List.mergeSort_perm faces _) (pairwise_mergeSort faces),
      length_slice (by rw [List.length_mergeSort]; omega)]
    omega
  exact ⟨fun _ => select_eq_slice, ⟨hlen, length_select.symm.trans hlen⟩, fun _ => select_perm⟩

/-- Of six dice two of which are alike, one dropped at either end, and of the four that are left the
lowest three, of which the greatest count there is keeps all. -/
theorem select_slice_twins :
    let m : Modifiers :=
      { dropLow := some 1, dropHigh := some 1, keepLow := some 3, keepHigh := some maxCount }
    [1, 2, 3, 3, 5, 6].Perm [3, 6, 1, 5, 3, 2] ∧ [1, 2, 3, 3, 5, 6].Pairwise (· ≤ ·) ∧
      m.select [3, 6, 1, 5, 3, 2] = [2, 3, 3] ∧ m.keptCount 6 = 3 ∧
      m.select [1, 2, 3, 3, 5, 6] = m.select [3, 6, 1, 5, 3, 2] := by
  intro m
  have hperm : [1, 2, 3, 3, 5, 6].Perm [3, 6, 1, 5, 3, 2] := by decide
  have hsorted : [1, 2, 3, 3, 5, 6].Pairwise (· ≤ ·) := by decide
  obtain ⟨hslice, ⟨-, hkept⟩, horder⟩ := select_slice m [3, 6, 1, 5, 3, 2]
  exact ⟨hperm, hsorted, hslice _ hperm hsorted, hkept, horder _ hperm⟩

end Tabletop.Modifiers
