import Tabletop.Narration
import Tabletop.Proofs.Notation.Written
import Tabletop.Proofs.Roll.Possible

/-!
# What the words of a narration leave open

The parts of a narration follow each other without marks between them. Read from the left they can
be told apart all the same, and each is known by its words: a list of faces, although the sentence
that it stands in has commas of its own (`list_append_inj`), the signs of Fudge dice
(`signs_append_inj`), a total (`total_append_inj`), and a count of successes, if it is not larger
than the number of dice (`tally_append_inj`).
-/

namespace Tabletop.Narration

open Text (Numeral NoDigit)

/-! ## Lists of faces -/

/-- What can follow a list: a full stop, or a comma and a word that is no number. -/
inductive Ends : List Char → Prop
  | stop {rest : List Char} : Ends ('.' :: rest)
  | comma {c : Char} {rest : List Char} : c.isDigit = false → Ends (',' :: ' ' :: c :: rest)

/-- What follows the first number of a list. -/
def after : List Nat → List Char
  | [] => []
  | [last] => " and ".toList ++ (toString last).toList
  | next :: rest => ',' :: ' ' :: ((toString next).toList ++ after rest)

/-- A list begins with its first face. -/
theorem toList_list_cons (face : Nat) (rest : List Nat) :
    (list ((face :: rest).map Int.ofNat)).toList = (toString face).toList ++ after rest := by
  induction rest generalizing face with
  | nil => exact (List.append_nil _).symm
  | cons next rest ih =>
    cases rest with
    | nil => simp only [List.map, list, after, String.toList_append, List.append_assoc]; rfl
    | cons last rest =>
      have hlist : (list ((face :: next :: last :: rest).map Int.ofNat)).toList =
          (toString face).toList ++
            (", ".toList ++ (list ((next :: last :: rest).map Int.ofNat)).toList) := by
        simp only [List.map_cons, list, String.toList_append, List.append_assoc]
        rfl
      have hafter : after (next :: last :: rest) =
          ", ".toList ++ ((toString next).toList ++ after (last :: rest)) := rfl
      rw [hlist, ih next, hafter]

section
variable {v v' : List Char} {face face' : Nat} {rest rest' faces faces' : List Nat} {limit : Nat}

/-- What may stand behind a list is no digit, so the last face ends where it seems to. -/
theorem Ends.noDigit (h : Ends v) : NoDigit v := by
  cases h with
  | stop => exact Text.noDigit_cons.2 (by decide)
  | comma _ => exact Text.noDigit_cons.2 (by decide)

/-- The rest of a list does not begin with a digit. -/
theorem noDigit_after (hv : Ends v) : NoDigit (after rest ++ v) := by
  cases rest with
  | nil => exact hv.noDigit
  | cons next rest =>
    cases rest with
    | nil => exact Text.noDigit_cons.2 (by decide)
    | cons => exact Text.noDigit_cons.2 (by decide)

/-- What ends a list does not look like another number of it. -/
theorem Ends.ne_after_cons (hv : Ends v) : v ≠ after (face :: rest) ++ v' := by
  rintro rfl
  cases rest with
  | nil => cases hv
  | cons next rest =>
    obtain ⟨c, cs, hc, heq⟩ := (Text.numeral_toString face).exists_cons
    rw [after, heq] at hv
    · cases hv with
      | comma hno =>
        rw [hc] at hno
        cases hno
    · nofun

/-- The numbers of a list and its end are known by their words. -/
theorem after_append_inj : ∀ {rest rest' : List Nat} {v v' : List Char}, Ends v → Ends v' →
    after rest ++ v = after rest' ++ v' → rest = rest' ∧ v = v'
  | [], [], _, _, _, _, h => ⟨rfl, h⟩
  | [], _ :: _, _, _, hv, _, h => absurd h hv.ne_after_cons
  | _ :: _, [], _, _, _, hv', h => absurd h.symm hv'.ne_after_cons
  | [last], [last'], _, _, hv, hv', h => by
    simp only [after, List.append_assoc, List.append_cancel_left_eq] at h
    obtain ⟨rfl, rfl⟩ := Text.toString_append_inj hv.noDigit hv'.noDigit h
    exact ⟨rfl, rfl⟩
  | [_], _ :: _ :: _, _, _, _, _, h => by simp [after] at h
  | _ :: _ :: _, [_], _, _, _, _, h => by simp [after] at h
  | next :: second :: rest, next' :: second' :: rest', _, _, hv, hv', h => by
    simp only [after, List.cons_append, List.append_assoc, List.cons.injEq, true_and] at h
    obtain ⟨rfl, hmore⟩ := Text.toString_append_inj (noDigit_after hv) (noDigit_after hv') h
    obtain ⟨hrest, rfl⟩ := after_append_inj hv hv' hmore
    exact ⟨congrArg (next :: ·) hrest, rfl⟩

/-- Words that do not begin with a digit are no list, unless it is empty. -/
theorem ne_list_cons {words : List Char} (h : NoDigit words) :
    words ≠ (list ((face :: rest).map Int.ofNat)).toList ++ v := by
  rw [toList_list_cons, List.append_assoc]
  rintro rfl
  exact (Text.numeral_toString face).not_noDigit _ h

/-- A list and its end are known by their words. -/
theorem list_append_inj (hv : Ends v) (hv' : Ends v')
    (h : (list (faces.map Int.ofNat)).toList ++ v = (list (faces'.map Int.ofNat)).toList ++ v') :
    faces = faces' ∧ v = v' := by
  have hno (v : List Char) : NoDigit ("no dice".toList ++ v) := Text.noDigit_cons.2 (by decide)
  match faces, faces' with
  | [], [] => exact ⟨rfl, List.append_cancel_left h⟩
  | [], face' :: rest' => exact absurd h (ne_list_cons (hno v))
  | face :: rest, [] => exact absurd h.symm (ne_list_cons (hno v'))
  | face :: rest, face' :: rest' =>
    rw [toList_list_cons, toList_list_cons, List.append_assoc, List.append_assoc] at h
    obtain ⟨rfl, hmore⟩ := Text.toString_append_inj (noDigit_after hv) (noDigit_after hv') h
    obtain ⟨rfl, rfl⟩ := after_append_inj hv hv' hmore
    exact ⟨rfl, rfl⟩

/-- No list of faces reads like the summary. -/
theorem list_ne_summary (faces : List Nat) (v v' : List Char) :
    (list (faces.map Int.ofNat)).toList ++ v ≠ summary.toList ++ v' := by
  cases faces with
  | nil => exact fun h => absurd (List.cons.inj h).1 (by decide)
  | cons face rest => exact (ne_list_cons (Text.noDigit_cons.2 (by decide))).symm

/-- Whether dice are listed and which they are is known by the words. -/
theorem dice_append_inj (hv : Ends v) (hv' : Ends v')
    (h : (dice limit (faces.map Int.ofNat)).toList ++ v =
      (dice limit (faces'.map Int.ofNat)).toList ++ v') :
    (limit < faces.length ↔ limit < faces'.length) ∧ (¬ limit < faces.length → faces = faces') ∧
      v = v' := by
  unfold dice at h
  rw [List.length_map, List.length_map] at h
  by_cases hmany : limit < faces.length <;> by_cases hmany' : limit < faces'.length
  · rw [if_pos hmany, if_pos hmany'] at h
    exact ⟨iff_of_true hmany hmany', fun hfew => absurd hmany hfew, List.append_cancel_left h⟩
  · rw [if_pos hmany, if_neg hmany'] at h
    exact absurd h.symm (list_ne_summary _ _ _)
  · rw [if_neg hmany, if_pos hmany'] at h
    exact absurd h (list_ne_summary _ _ _)
  · rw [if_neg hmany, if_neg hmany'] at h
    obtain ⟨rfl, rfl⟩ := list_append_inj hv hv' h
    exact ⟨Iff.rfl, fun _ => rfl, rfl⟩

end

/-! ## Fudge dice -/

/-- A sign stands for one face. -/
theorem sign_append_inj {face face' : Nat} (h : 1 ≤ face ∧ face ≤ 3) (h' : 1 ≤ face' ∧ face' ≤ 3)
    {v v' : List Char}
    (heq : (sign (fudgeWorth face)).toList ++ v = (sign (fudgeWorth face')).toList ++ v') :
    face = face' ∧ v = v' := by
  obtain rfl | rfl | rfl : face = 1 ∨ face = 2 ∨ face = 3 := by omega
  all_goals
    obtain rfl | rfl | rfl : face' = 1 ∨ face' = 2 ∨ face' = 3 := by omega
    all_goals simp_all [sign, fudgeWorth]

/-- As many Fudge dice are known by their signs. -/
theorem signs_append_inj : ∀ {faces faces' : List Nat} {v v' : List Char},
    faces.length = faces'.length → (∀ face ∈ faces, 1 ≤ face ∧ face ≤ 3) →
    (∀ face ∈ faces', 1 ≤ face ∧ face ≤ 3) →
    (", ".intercalate ((faces.map fudgeWorth).map sign)).toList ++ v =
      (", ".intercalate ((faces'.map fudgeWorth).map sign)).toList ++ v' → faces = faces'
  | [], [], _, _, _, _, _, _ => rfl
  | [face], [face'], _, _, _, hf, hf', h => by
    simp only [List.map, String.intercalate_singleton] at h
    obtain ⟨rfl, -⟩ := sign_append_inj (hf _ (.head _)) (hf' _ (.head _)) h
    rfl
  | face :: next :: rest, face' :: next' :: rest', _, _, hlen, hf, hf', h => by
    simp only [List.map_cons, String.intercalate_cons_cons, String.toList_append,
      List.append_assoc] at h
    obtain ⟨rfl, hmore⟩ := sign_append_inj (hf _ (.head _)) (hf' _ (.head _)) h
    have hrest : next :: rest = next' :: rest' := signs_append_inj (Nat.succ.inj hlen)
      (fun x hx => hf x (.tail _ hx)) (fun x hx => hf' x (.tail _ hx))
      (List.append_cancel_left hmore)
    rw [hrest]

/-! ## Totals and tallies -/

/-- A number is known by its words, a negative one too, if no other digit follows. -/
theorem total_append_inj {n n' : Int} {v v' : List Char} (hv : NoDigit v) (hv' : NoDigit v')
    (h : (toString n).toList ++ v = (toString n').toList ++ v') : n = n' := by
  have hminus (m : Nat) (v v' : List Char) :
      "-".toList ++ v ≠ (toString m).toList ++ v' := fun heq =>
    (Text.numeral_toString m).not_noDigit v' (heq ▸ Text.noDigit_cons.2 (by decide))
  by_cases hneg : n < 0 <;> by_cases hneg' : n' < 0
  · rw [toString_of_neg hneg, toString_of_neg hneg', String.toList_append, String.toList_append,
      List.append_assoc, List.append_assoc, List.append_cancel_left_eq] at h
    have := (Text.toString_append_inj hv hv' h).1
    omega
  · rw [toString_of_neg hneg, toString_of_nonneg (Int.not_lt.1 hneg'), String.toList_append,
      List.append_assoc] at h
    exact absurd h (hminus _ _ _)
  · rw [toString_of_nonneg (Int.not_lt.1 hneg), toString_of_neg hneg', String.toList_append,
      List.append_assoc] at h
    exact absurd h.symm (hminus _ _ _)
  · rw [toString_of_nonneg (Int.not_lt.1 hneg), toString_of_nonneg (Int.not_lt.1 hneg')] at h
    have := (Text.toString_append_inj hv hv' h).1
    omega

/-- What is said of so many successes among so many dice. -/
def tally (rolled : Nat) (count : Int) : String :=
  if rolled = 1 then if count = 1 then ", a success!" else ", no success."
  else ", for " ++ toString count ++ (if count = 1 then " success." else " successes.")

/-- A count of successes is known by what is said of it, since a single die has one at most. -/
theorem tally_append_inj {rolled rolled' count count' : Nat} {v v' : List Char}
    (hcount : count ≤ rolled) (hcount' : count' ≤ rolled')
    (h : (tally rolled count).toList ++ v = (tally rolled' count').toList ++ v') :
    count = count' := by
  have hsingle (count : Nat) (words : String) (v v' : List Char) :
      (if (count : Int) = 1 then ", a success!" else ", no success.").toList ++ v ≠
        (", for " ++ words).toList ++ v' := by
    split <;> simp
  unfold tally at h
  simp only [String.append_assoc] at h
  by_cases hone : rolled = 1 <;> by_cases hone' : rolled' = 1
  · rw [if_pos hone, if_pos hone'] at h
    split at h <;> split at h <;> first | omega | exact absurd h (by simp)
  · rw [if_pos hone, if_neg hone'] at h
    exact absurd h (hsingle _ _ _ _)
  · rw [if_neg hone, if_pos hone'] at h
    exact absurd h.symm (hsingle _ _ _ _)
  · rw [if_neg hone, if_neg hone'] at h
    simp only [String.toList_append, List.append_assoc, List.append_cancel_left_eq] at h
    refine (Text.toString_append_inj ?_ ?_ h).1
    · split <;> exact Text.noDigit_cons.2 (by decide)
    · split <;> exact Text.noDigit_cons.2 (by decide)

end Tabletop.Narration
