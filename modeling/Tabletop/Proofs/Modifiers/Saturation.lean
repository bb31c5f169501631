import Tabletop.Modifiers.Faces
import Tabletop.Proofs.Modifiers.Selection
import Tabletop.Reading

/-!
# Modifiers whose numbers are saturated

`Modifiers.under` are modifiers whose numbers are read once more. If they are saturated, this shows
only in the numbers themselves. A threshold cut to the largest face compares as before with every
smaller face (`Threshold.holds_mapBound`), so a die whose sides are fewer than that does not notice.
A count cut to the largest count acts as before on dice that are no more than that
(`Modifiers.select_under`).
-/

namespace Tabletop

/-- The comparison with another number. -/
def Threshold.mapBound (f : Nat → Nat) : Threshold → Threshold
  | atMost n => atMost (f n)
  | atLeast n => atLeast (f n)
  | below n => below (f n)
  | above n => above (f n)

/-- The modifiers with their numbers read once more. -/
def Modifiers.under (reading : Reading) (m : Modifiers) : Modifiers :=
  { m with
    keepHigh := m.keepHigh.map reading.count
    keepLow := m.keepLow.map reading.count
    dropHigh := m.dropHigh.map reading.count
    dropLow := m.dropLow.map reading.count
    reroll := m.reroll.map (Threshold.mapBound reading.face)
    success := m.success.map (Threshold.mapBound reading.face) }

/-! ## Thresholds -/

namespace Threshold

variable {rule : Threshold} {sides face limit : Nat}

/-- A face below the limit does not show whether the number was cut to the limit. The limit itself
would: it is below a larger number, and not below the number cut to it. -/
theorem holds_mapBound (h : face < limit) :
    (rule.mapBound (min limit)).holds face = rule.holds face := by
  cases rule <;> simp only [mapBound, holds, decide_eq_decide] <;> omega

/-- A bound that is cut off above the sides of a die covers the same faces. -/
theorem coversFaces_mapBound (h : sides < limit) (hlimit : 1 < limit) :
    (rule.mapBound (min limit)).coversFaces sides = rule.coversFaces sides := by
  rw [coversFaces, holds_mapBound hlimit, holds_mapBound h]
  rfl

end Threshold

namespace Modifiers

variable {m : Modifiers} {sides k : Nat} {faces sorted : List Nat} {n? : Option Nat}

/-- A die below the largest is forced on its highest face by the same rules. -/
theorem forcesMaxFace_under (h : sides < maxFace) :
    (m.under .saturating).forcesMaxFace sides = m.forcesMaxFace sides := by
  have hrepeating : (m.under .saturating).repeating? =
      m.repeating?.map (Threshold.mapBound (min maxFace)) := by
    unfold repeating? under
    cases m.rerollOnce <;> rfl
  unfold forcesMaxFace
  rw [hrepeating]
  cases m.repeating? with
  | none => rfl
  | some rule =>
    dsimp only [Option.map_some]
    rw [Threshold.holds_mapBound h, Threshold.holds_mapBound (by omega)]

/-! ## Counts -/

/-- A count cut to a limit acts as before on dice that are no more than the limit, if every count
larger than the number of the dice acts like this number. -/
theorem step_map_min {act : Nat → List Nat → List Nat}
    (hact : ∀ n l, act n l = act (min n l.length) l) (h : sorted.length ≤ k) :
    step act (n?.map (min k)) sorted = step act n? sorted := by
  cases n? with
  | none => rfl
  | some n =>
    have hmin : min (min k n) sorted.length = min n sorted.length := by omega
    calc act (min k n) sorted
      _ = act (min (min k n) sorted.length) sorted := hact _ _
      _ = act (min n sorted.length) sorted := by rw [hmin]
      _ = act n sorted := (hact _ _).symm

/-- A step leaves no more dice than there were. -/
theorem length_step_le {act : Nat → List Nat → List Nat} (h : ∀ n l, (act n l).Sublist l)
    (n? : Option Nat) (hlen : sorted.length ≤ k) : (step act n? sorted).length ≤ k :=
  Nat.le_trans (step_sublist h).length_le hlen

/-- No more dice can be dropped than there are. -/
theorem dropHighest_eq_min (n : Nat) (l : List Nat) :
    dropHighest n l = dropHighest (min n l.length) l := by
  unfold dropHighest
  congr 1
  omega

/-- No more dice can be kept than there are. -/
theorem keepHighest_eq_min (n : Nat) (l : List Nat) :
    keepHighest n l = keepHighest (min n l.length) l := by
  unfold keepHighest
  congr 1
  omega

/-- Of so many dice that their number can be counted, the same count if the counts to keep and to
drop are saturated. -/
theorem select_under (h : faces.length ≤ maxCount) :
    (m.under .saturating).select faces = m.select faces := by
  have hsorted : (faces.mergeSort fun a b => a ≤ b).length ≤ maxCount := by
    rwa [List.length_mergeSort]
  have hlow := length_step_le List.drop_sublist m.dropLow hsorted
  have hhigh := length_step_le dropHighest_sublist m.dropHigh hlow
  have hkeep := length_step_le List.take_sublist m.keepLow hhigh
  unfold select trim under Reading.saturating
  dsimp only
  rw [step_map_min (fun _ _ => List.drop_eq_drop_min) hsorted,
    step_map_min dropHighest_eq_min hlow, step_map_min (fun _ _ => List.take_eq_take_min) hhigh,
    step_map_min keepHighest_eq_min hkeep]

end Modifiers

end Tabletop
