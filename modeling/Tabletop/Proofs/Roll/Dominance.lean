import Mathlib.Data.List.Sort
import Tabletop.Proofs.Modifiers.Slice
import Tabletop.Proofs.Roll.Score

/-!
# Better dice never score worse

One pool of dice is better than another if it has as many dice and each of them shows at least as
much as its counterpart. A better die may overtake others in the ascending order, so different dice
may count in the two pools; but at each position of the ascending order the better pool still shows
at least as much (`forall₂_mergeSort`). Which positions count is the same for both pools, so this
goes on to the dice that count, and from there to their sum and to the number of successes
(`select_mono`).
-/

namespace Tabletop

open List (Forall₂)

/-! ## Ascending order -/

section
variable {α : Type} [LinearOrder α] {a b : α} {l l' v w : List α}

/-- What is least is put in front. -/
theorem orderedInsert_of_pairwise (h : (a :: l).Pairwise (· ≤ ·)) :
    l.orderedInsert (· ≤ ·) a = a :: l := by
  cases l with
  | nil => rfl
  | cons c l => exact List.orderedInsert_cons_of_le _ _ ((List.pairwise_cons.1 h).1 c (.head _))

/-- Of two lists in ascending order the one that shows at least as much at each position still does
so if each takes in one more, and the better list the better one. -/
theorem forall₂_orderedInsert (hab : a ≤ b) (h : Forall₂ (· ≤ ·) l l')
    (hl : l.Pairwise (· ≤ ·)) (hl' : l'.Pairwise (· ≤ ·)) :
    Forall₂ (· ≤ ·) (l.orderedInsert (· ≤ ·) a) (l'.orderedInsert (· ≤ ·) b) := by
  induction h generalizing a b with
  | nil => exact .cons hab .nil
  | @cons c d l l' hcd h ih =>
    have ih {a b : α} (hab : a ≤ b) := ih hab hl.of_cons hl'.of_cons
    by_cases hac : a ≤ c <;> by_cases hbd : b ≤ d
    · rw [List.orderedInsert_cons_of_le _ _ hac, List.orderedInsert_cons_of_le _ _ hbd]
      exact .cons hab (.cons hcd h)
    · -- The better one goes past `d`, and what it meets there stands against `c`.
      rw [List.orderedInsert_cons_of_le _ _ hac, List.orderedInsert_of_not_le _ _ hbd,
        ← orderedInsert_of_pairwise hl]
      exact .cons (hac.trans hcd) (ih (hcd.trans (le_of_not_ge hbd)))
    · -- The lesser one goes past `c`, and what it meets there stands against `d`.
      rw [List.orderedInsert_of_not_le _ _ hac, List.orderedInsert_cons_of_le _ _ hbd,
        ← orderedInsert_of_pairwise hl']
      exact .cons ((le_of_not_ge hac).trans hab) (ih (hab.trans hbd))
    · rw [List.orderedInsert_of_not_le _ _ hac, List.orderedInsert_of_not_le _ _ hbd]
      exact .cons hcd (ih hab)

/-- Each position of the ascending order shows at least as much in the better list. -/
theorem forall₂_mergeSort (h : Forall₂ (· ≤ ·) v w) :
    Forall₂ (· ≤ ·) (v.mergeSort fun a b => a ≤ b) (w.mergeSort fun a b => a ≤ b) := by
  rw [List.mergeSort_eq_insertionSort (· ≤ ·), List.mergeSort_eq_insertionSort (· ≤ ·)]
  induction h with
  | nil => exact .nil
  | cons hab _ ih =>
    exact forall₂_orderedInsert hab ih (List.pairwise_insertionSort _ _)
      (List.pairwise_insertionSort _ _)

end

/-! ## Dice that count, and what they come to -/

/-- Rules that high faces match go on to match higher ones. -/
theorem Threshold.holds_of_le {rule : Threshold} {n a b : Nat}
    (hrule : rule ∈ [atLeast n, above n]) (hab : a ≤ b) (ha : rule.holds a = true) :
    rule.holds b = true := by
  rw [List.mem_pair] at hrule
  rcases hrule with rfl | rfl <;> simp only [holds, decide_eq_true_eq] at ha ⊢ <;> omega

/-- Rules that low faces match go on to match lower ones. -/
theorem Threshold.holds_of_ge {rule : Threshold} {n a b : Nat}
    (hrule : rule ∈ [atMost n, below n]) (hab : b ≤ a) (ha : rule.holds a = true) :
    rule.holds b = true := by
  rw [List.mem_pair] at hrule
  rcases hrule with rfl | rfl <;> simp only [holds, decide_eq_true_eq] at ha ⊢ <;> omega

section
variable {v w : List Nat} {m : Modifiers}

/-- The positions that count are the same in two pools of as many dice. -/
theorem forall₂_select (h : Forall₂ (· ≤ ·) v w) :
    Forall₂ (· ≤ ·) (m.select v) (m.select w) := by
  rw [Modifiers.select_eq_slice (List.mergeSort_perm v _) (Modifiers.pairwise_mergeSort v),
    Modifiers.select_eq_slice (List.mergeSort_perm w _) (Modifiers.pairwise_mergeSort w),
    h.length_eq]
  exact List.forall₂_take _ (List.forall₂_drop _ (forall₂_mergeSort h))

/-- A property that the counterpart of each member with it has as well holds of no fewer
counterparts. -/
theorem countP_le_countP_of_forall₂ {R : Nat → Nat → Prop} {p : Nat → Bool}
    (hp : ∀ a b, R a b → p a = true → p b = true) (h : Forall₂ R v w) :
    v.countP p ≤ w.countP p := by
  induction h with
  | nil => exact Nat.le_refl _
  | @cons a b v w hab _ ih =>
    rw [List.countP_cons, List.countP_cons]
    refine Nat.add_le_add ih ?_
    split
    · next hpa => rw [if_pos (hp a b hab hpa)]
    · exact Nat.zero_le _

/-- What bounds the members of the better list bounds those of the other. -/
theorem forall_mem_le_of_forall₂ {k : Nat} (h : Forall₂ (· ≤ ·) v w) (hw : ∀ b ∈ w, b ≤ k) :
    ∀ a ∈ v, a ≤ k := by
  induction h with
  | nil => nofun
  | cons hab _ ih =>
    rw [List.forall_mem_cons] at hw ⊢
    exact ⟨Nat.le_trans hab hw.1, ih hw.2⟩

/-- Better dice have no lower sum, as long as sums do not go around. -/
theorem total_sum_le (h : Forall₂ (· ≤ ·) v w) (hfaces : ∀ face ∈ w, face ≤ maxFace)
    (hlen : w.length ≤ 2 ^ 31) (text : String) (flat : Int) :
    (Outcome.sum text v flat).total ≤ (Outcome.sum text w flat).total := by
  have hfaces' : ∀ face ∈ v, face ≤ maxFace := forall_mem_le_of_forall₂ h hfaces
  rw [Outcome.total_sum hfaces hlen, Outcome.total_sum hfaces' (h.length_eq ▸ hlen)]
  refine List.Forall₂.sum_le_sum (List.forall₂_map_left_iff.2 (List.forall₂_map_right_iff.2 ?_))
  exact h.imp fun _ _ => Int.ofNat_le.2

end

/-- Better dice never score worse. If each die of one pool shows at most what its counterpart in
another shows, then, whatever the keep and drop counts, as many dice count in both pools, and at
each position those of the one show at most what those of the other show. So the sum of the dice
that count, if they are no more than `2 ^ 31`, is at most that of the other pool; and successes are
at most as many if high faces succeed, and at least as many if low faces do. -/
theorem select_mono (m : Modifiers) {v w : List Nat} (h : Forall₂ (· ≤ ·) v w) (text : String)
    (flat : Int) :
    ((m.select v).length = (m.select w).length ∧ Forall₂ (· ≤ ·) (m.select v) (m.select w)) ∧
    ((∀ face ∈ w, face ≤ maxFace) → (m.select w).length ≤ 2 ^ 31 →
      (Outcome.sum text (m.select v) flat).total ≤ (Outcome.sum text (m.select w) flat).total) ∧
    ∀ n,
      (∀ rule ∈ [Threshold.atLeast n, .above n],
        (Outcome.successes text (m.select v) rule flat).total ≤
          (Outcome.successes text (m.select w) rule flat).total) ∧
      ∀ rule ∈ [Threshold.atMost n, .below n],
        (Outcome.successes text (m.select w) rule flat).total ≤
          (Outcome.successes text (m.select v) rule flat).total := by
  have hselect : Forall₂ (· ≤ ·) (m.select v) (m.select w) := forall₂_select h
  refine ⟨⟨hselect.length_eq, hselect⟩, fun hfaces hlen => ?_, fun n => ⟨fun rule hrule => ?_,
    fun rule hrule => ?_⟩⟩
  · exact total_sum_le hselect (fun face hface => hfaces face (Modifiers.mem_of_mem_select hface))
      hlen text flat
  · have hholds (a b : Nat) (hab : a ≤ b) := Threshold.holds_of_le hrule hab
    exact Int.ofNat_le.2 (countP_le_countP_of_forall₂ hholds hselect)
  · have hholds (a b : Nat) (hab : b ≤ a) := Threshold.holds_of_ge hrule hab
    exact Int.ofNat_le.2 (countP_le_countP_of_forall₂ hholds hselect.flip)

/-- A 2 that becomes a 6 overtakes a 3 and a 5. It then counts as the highest die, the 5 as the lower
of two and the 3 no more, and each position shows at least as much as before. -/
theorem select_mono_overtaking :
    let m : Modifiers := { keepHigh := some 2 }
    Forall₂ (· ≤ ·) [2, 5, 3] [6, 5, 3] ∧ m.select [2, 5, 3] = [3, 5] ∧
      m.select [6, 5, 3] = [5, 6] ∧
      (Outcome.sum "" (m.select [2, 5, 3]) 0).total ≤
        (Outcome.sum "" (m.select [6, 5, 3]) 0).total ∧
      (Outcome.successes "" (m.select [2, 5, 3]) (.above 4) 0).total ≤
        (Outcome.successes "" (m.select [6, 5, 3]) (.above 4) 0).total ∧
      (Outcome.successes "" (m.select [6, 5, 3]) (.below 4) 0).total ≤
        (Outcome.successes "" (m.select [2, 5, 3]) (.below 4) 0).total := by
  intro m
  have hbetter : Forall₂ (· ≤ ·) [2, 5, 3] [6, 5, 3] := by simp
  obtain ⟨-, hsum, hsuccesses⟩ := select_mono m hbetter "" 0
  have hfaces : ∀ face ∈ [6, 5, 3], face ≤ maxFace := by decide
  have hv : m.select [2, 5, 3] = [3, 5] :=
    Modifiers.select_eq_trim (show [2, 3, 5].Perm [2, 5, 3] by decide) (by decide)
  have hw : m.select [6, 5, 3] = [5, 6] :=
    Modifiers.select_eq_trim (show [3, 5, 6].Perm [6, 5, 3] by decide) (by decide)
  exact ⟨hbetter, hv, hw, hsum hfaces (by rw [hw]; decide),
    (hsuccesses 4).1 _ (by simp), (hsuccesses 4).2 _ (by simp)⟩

end Tabletop
