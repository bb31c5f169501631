import Tabletop.Proofs.Modifiers.Faces
import Tabletop.Proofs.Rolling.Settled
import Tabletop.Proofs.Source.Steady

/-!
# Rolling comes to an end

A die whose rerolls keep a face ends on it once the source shows nothing else, and it takes that
face twice at most (`rollOne_ends`): once to start and once, where it rerolls only once, for the
reroll. If that face is not the highest, the passes of an explosion run out too: a die of a later
pass is owed to a highest face of an earlier one, and so to one of the faces that came first
(`exists_run_passes`), and so does the explosion (`exists_run_explode`).
-/

namespace Tabletop

open Roller (Ends price run_bind_of_some)

variable {sides face : Nat} {m : Modifiers}

/-- A draw that shows nothing but a face of the die is fair. -/
theorem Entry.Shows.fair (hface : 1 ≤ face ∧ face ≤ sides) :
    ∀ {e : Entry}, e.Shows sides (· = face) → e.Fair
  | .drew .., ⟨rfl, rfl⟩ => hface
  | .event _, _ => trivial

/-! ## One die -/

section
variable {σ : Type} [DieSource σ] {rule : Threshold} {once : Bool} {x : Nat}

/-- A face that the rule does not match stays. -/
theorem settle_of_not_holds (h : rule.holds x = false) :
    settle (σ := σ) rule once sides x = pure x := by
  rw [settle_eq, h]
  rfl

/-- A face that the rule matches is reported and drawn again. -/
theorem run_settle_of_holds (h : rule.holds x = true) {s u t : σ} {next last : Nat}
    {log : List Entry} (hdraw : DieSource.draw sides s = (some next, u))
    (hlater : (if once = true then pure next else settle rule once sides next).run u =
      ⟨some last, t, log⟩) :
    (settle rule once sides x).run s =
      ⟨some last, t, .event (.rerolling x rule) :: .drew sides next :: log⟩ := by
  rw [settle_eq, if_pos h]
  exact run_bind_of_some (Roller.run_report ..)
    (run_bind_of_some (Roller.run_draw_of_some hdraw) hlater)

end

/-- No face costs more than one. -/
theorem price_le (face x : Nat) : price face x ≤ 1 := by
  unfold price
  split <;> omega

/-- A die that stays on the face it shows has paid for it. -/
theorem pure_ends (x : Nat) :
    Ends sides face 1 (fun last => price face last - price face x) (pure x) := by
  have hpaid : Ends sides face 0 (fun last => price face last - price face x) (pure x) :=
    Roller.ends_pure (Nat.sub_self _)
  exact hpaid.of_le (Nat.zero_le 1)

/-- A rule that spares the steady face, or is followed once only, ends when that face comes. The
die has paid for the face that it shows at first. -/
theorem settle_ends {rule : Threshold} {once : Bool} (h : rule.holds face = false ∨ once = true)
    (x : Nat) :
    Ends sides face 1 (fun last => price face last - price face x) (settle rule once sides x) := by
  intro first k hk
  cases hx : rule.holds x with
  | false =>
    rw [settle_of_not_holds hx]
    exact pure_ends x first k hk
  | true =>
    -- A face that comes first may be rerolled as well, so the induction is on these faces.
    induction first generalizing x with
    | nil =>
      obtain ⟨k, rfl⟩ := Nat.exists_eq_add_of_lt hk
      have hlater : (if once = true then pure face else settle rule once sides face).run
          (Script.steady [] face k) = ⟨some face, Script.steady [] face k, []⟩ := by
        split
        · rfl
        · next honce =>
          rw [settle_of_not_holds (h.resolve_right honce)]
          rfl
      refine ⟨face, [], k, _, run_settle_of_holds hx (u := .steady [] face k) ?_ hlater,
        List.suffix_rfl, ?_, by omega, ?_⟩
      · rw [Nat.zero_add]
        rfl
      · simp [price]
      · simp [Entry.Shows]
    | cons y first ih =>
      have hlater : (if once = true then pure y else settle rule once sides y).EndsOn sides face 1
          (fun last => price face last - price face y) first k := by
        split
        · exact pure_ends y first k hk
        · cases hy : rule.holds y with
          | false =>
            rw [settle_of_not_holds hy]
            exact pure_ends y first k hk
          | true => exact ih y hy
      obtain ⟨a, left, k', log, hrun, hleft, hp, hk', hlog⟩ := hlater
      refine ⟨a, left, k', _, run_settle_of_holds hx (u := .steady first face k) rfl hrun,
        hleft.trans (List.suffix_cons y first), ?_, hk', ?_⟩
      · have := price_le face a
        dsimp only at hp ⊢
        rw [List.length_cons]
        omega
      · rw [List.forall_mem_cons, List.forall_mem_cons]
        refine ⟨trivial, ⟨rfl, .inr (.head first)⟩, fun e he => (hlog e he).mono fun z hz => ?_⟩
        exact hz.imp_right (.tail y)

/-- A die whose rerolls keep the steady face ends when it has come twice. A face other than this one
on which it ends is one of those that came first. -/
theorem rollOne_ends (hkeeps : m.Keeps sides face) :
    Ends sides face 2 (price face) (rollOne sides m) := by
  refine (Roller.ends_draw sides face).bind (n := 1) fun x => ?_
  split
  · exact pure_ends x
  · next rule hrule =>
    cases hc : rule.coversFaces sides with
    | true =>
      rw [if_pos rfl]
      refine ((Roller.ends_report _).bind fun _ => Roller.ends_pure ?_).of_le (Nat.zero_le 1)
      rw [Nat.sub_zero, Nat.sub_self]
    | false =>
      rw [if_neg (by decide)]
      refine settle_ends ?_ x
      cases honce : m.rerollOnce with
      | true => exact .inr rfl
      | false => exact .inl (hkeeps rule (Modifiers.repeating?_eq_some_iff.2 ⟨honce, hrule⟩) hc)

/-! ## Explosions -/

/-- The highest face is one of those that are not the steady one. -/
theorem count_highest_le (hface : face ≠ sides) (faces : List Nat) :
    faces.count sides ≤ faces.countP (· ≠ face) := by
  refine List.countP_mono_left fun x _ hx => ?_
  cases beq_iff_eq.1 hx
  exact decide_eq_true hface.symm

/-- Dice that keep a face other than the highest come to the end of an explosion, from any pass on
and with any number of dice pending. -/
theorem exists_run_passes (hkeeps : m.Keeps sides face) (hface : face ≠ sides) (first : List Nat)
    (pass : Nat) {pending k : Nat} (hk : 2 * (pending + first.length) ≤ k) :
    ∃ extra t log,
      (passes sides m pass pending).run (Script.steady first face k) = ⟨some extra, t, log⟩ := by
  -- The faces that come first and the dice that are pending become fewer together.
  induction hn : pending + first.length using Nat.strongRecOn generalizing first pass pending k with
  | _ n ih =>
    rw [passes_eq]
    by_cases hp : 0 < pending
    · rw [if_pos hp]
      obtain ⟨faces, left, k', log, hrun, -, hprice, hk', -⟩ :=
        (rollOne_ends hkeeps).times pending first k (by omega)
      have hcount := count_highest_le hface faces
      dsimp only at hprice
      obtain ⟨more, t, log', hmore⟩ := ih (faces.count sides + left.length) (by omega) left
        (pass + 1) (k := k') (by omega) rfl
      exact ⟨faces ++ more, t, _,
        run_bind_of_some rfl (run_bind_of_some hrun (run_bind_of_some hmore rfl))⟩
    · rw [if_neg hp]
      exact ⟨[], _, _, rfl⟩

/-- An explosion comes to its end if its dice keep a face, and unless it is refused, one that is
not the highest. -/
theorem exists_run_explode (hkeeps : m.Keeps sides face)
    (hface : 2 ≤ sides → m.forcesMaxFace sides = false → face ≠ sides) (faces first : List Nat)
    {k : Nat} (hk : 2 * (faces.count sides + first.length) ≤ k) :
    ∃ extra t log,
      (explode faces sides m).run (Script.steady first face k) = ⟨some extra, t, log⟩ := by
  unfold explode
  split
  · exact ⟨[], _, _, rfl⟩
  · next hsides =>
    cases hforce : m.forcesMaxFace sides with
    | true => exact ⟨[], _, _, rfl⟩
    | false => exact exists_run_passes hkeeps (hface (Nat.le_of_not_lt hsides) hforce) first 1 hk

end Tabletop
