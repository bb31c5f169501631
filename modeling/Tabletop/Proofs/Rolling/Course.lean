import Tabletop.Proofs.Source.Runs
import Tabletop.Roll

/-!
# The course of a roll

What happens while dice are rolled, as relations between the faces that come of it and the log:
for the rerolls of a die (`Settles`), a die (`Rolls`) and the passes of an explosion (`Passes`).
Each has one rule for each way a turn can go, and no word on sources. Whatever a source is, a run
that gives a value went such a course.
-/

namespace Tabletop

open Roller (Series)

/-- A die that shows a face is rolled again by a rule until it ends on a face. -/
inductive Settles (rule : Threshold) (once : Bool) (sides : Nat) : Nat → Nat → List Entry → Prop
  | kept {face : Nat} : rule.holds face = false → Settles rule once sides face face []
  | once {face next : Nat} : rule.holds face = true → once = true →
      Settles rule once sides face next [.event (.rerolling face rule), .drew sides next]
  | again {face next last : Nat} {log : List Entry} : rule.holds face = true → once = false →
      Settles rule once sides next last log →
      Settles rule once sides face last
        (.event (.rerolling face rule) :: .drew sides next :: log)

/-- A die is rolled and ends on a face. -/
inductive Rolls (sides : Nat) (m : Modifiers) : Nat → List Entry → Prop
  | free {face : Nat} : m.reroll = none → Rolls sides m face [.drew sides face]
  | covered {face : Nat} {rule : Threshold} : m.reroll = some rule →
      rule.coversFaces sides = true →
      Rolls sides m face [.drew sides face, .event (.rerollCovers sides rule)]
  | ruled {first last : Nat} {rule : Threshold} {log : List Entry} : m.reroll = some rule →
      rule.coversFaces sides = false → Settles rule m.rerollOnce sides first last log →
      Rolls sides m last (.drew sides first :: log)

/-- The passes of an explosion from number `pass` on, with so many dice pending. -/
inductive Passes (sides : Nat) (m : Modifiers) : Nat → Nat → List Nat → List Entry → Prop
  | done {pass : Nat} : Passes sides m pass 0 [] []
  | pass {pass pending : Nat} {faces more : List Nat} {l₁ l₂ : List Entry} : 0 < pending →
      faces.length = pending → Series (Rolls sides m) faces l₁ →
      Passes sides m (pass + 1) (faces.count sides) more l₂ →
      Passes sides m pass pending (faces ++ more) (.event (.exploding pass pending) :: (l₁ ++ l₂))

/-- An explosion of dice adds more dice to them. -/
inductive Explodes (faces : List Nat) (sides : Nat) (m : Modifiers) : List Nat → List Entry → Prop
  | flat : sides < 2 → Explodes faces sides m [] []
  | refused : 2 ≤ sides → m.forcesMaxFace sides = true →
      Explodes faces sides m [] [.event (.explosionRefused sides)]
  | passes {extra : List Nat} {log : List Entry} : 2 ≤ sides → m.forcesMaxFace sides = false →
      Passes sides m 1 (faces.count sides) extra log → Explodes faces sides m extra log

/-- The dice of a roll end on faces: the base dice, then those of the explosion if there is one. -/
inductive SettlesAll (r : Roll) (sides : Nat) : List Nat → List Entry → Prop
  | plain {base : List Nat} {log : List Entry} : r.modifiers.explode = false →
      base.length = r.count → Series (Rolls sides r.modifiers) base log →
      SettlesAll r sides base log
  | exploded {base extra : List Nat} {l₁ l₂ : List Entry} : r.modifiers.explode = true →
      base.length = r.count → Series (Rolls sides r.modifiers) base l₁ →
      Explodes base sides r.modifiers extra l₂ →
      SettlesAll r sides (base ++ extra) (l₁ ++ l₂ ++ [.event (.exploded extra.length)])

/-! ## Runs go these courses -/

variable {σ : Type} [DieSource σ] {s t : σ} {log : List Entry} {sides : Nat} {m : Modifiers}

/-- What the loop of rerolls does is a course of rerolls. -/
theorem settles_of_run {rule : Threshold} {once : Bool} {face last : Nat}
    (h : (settle rule once sides face).run s = ⟨some last, t, log⟩) :
    Settles rule once sides face last log := by
  -- Nothing but the source bounds the rerolls, so the induction is on its budget.
  induction hn : DieSource.budget s using Nat.strongRecOn generalizing face s log with
  | _ n ih =>
    subst hn
    rw [settle_eq] at h
    cases hface : rule.holds face with
    | false =>
      rw [hface, if_neg (by decide)] at h
      obtain ⟨rfl, -, rfl⟩ := Roller.run_pure_eq_some_iff.1 h
      exact .kept hface
    | true =>
      rw [hface, if_pos rfl] at h
      obtain ⟨_, _, _, _, hreport, hredraw, rfl⟩ := Roller.run_bind_eq_some_iff.1 h
      obtain ⟨rfl, rfl⟩ := Roller.run_report_eq_some_iff.1 hreport
      obtain ⟨next, u, _, _, hdraw, hlater, rfl⟩ := Roller.run_bind_eq_some_iff.1 hredraw
      obtain ⟨hface', rfl⟩ := Roller.run_draw_eq_some_iff.1 hdraw
      cases once with
      | true =>
        obtain ⟨rfl, -, rfl⟩ := Roller.run_pure_eq_some_iff.1 hlater
        exact .once hface rfl
      | false => exact .again hface rfl (ih _ (DieSource.budget_lt hface') hlater rfl)

/-- What rolling one die does is a course of one die. -/
theorem rolls_of_run {face : Nat} (h : (rollOne sides m).run s = ⟨some face, t, log⟩) :
    Rolls sides m face log := by
  obtain ⟨first, u, _, l₂, hdraw, hruled, rfl⟩ := Roller.run_bind_eq_some_iff.1 h
  obtain ⟨-, rfl⟩ := Roller.run_draw_eq_some_iff.1 hdraw
  cases hm : m.reroll with
  | none =>
    rw [hm] at hruled
    obtain ⟨rfl, -, rfl⟩ := Roller.run_pure_eq_some_iff.1 hruled
    exact .free hm
  | some rule =>
    rw [hm] at hruled
    dsimp only at hruled
    cases hc : rule.coversFaces sides with
    | true =>
      rw [hc, if_pos rfl] at hruled
      obtain ⟨_, _, _, _, hreport, hpure, rfl⟩ := Roller.run_bind_eq_some_iff.1 hruled
      obtain ⟨-, rfl⟩ := Roller.run_report_eq_some_iff.1 hreport
      obtain ⟨rfl, -, rfl⟩ := Roller.run_pure_eq_some_iff.1 hpure
      exact .covered hm hc
    | false =>
      rw [hc, if_neg (by decide)] at hruled
      exact .ruled hm hc (settles_of_run hruled)

/-- What the loop of an explosion does is a course of passes. -/
theorem passes_of_run {pass pending : Nat} {extra : List Nat}
    (h : (passes sides m pass pending).run s = ⟨some extra, t, log⟩) :
    Passes sides m pass pending extra log := by
  induction hn : DieSource.budget s using Nat.strongRecOn generalizing pass pending extra s log with
  | _ n ih =>
    subst hn
    rw [passes_eq] at h
    split at h
    · next hp =>
      obtain ⟨_, _, _, _, hreport, hpass, rfl⟩ := Roller.run_bind_eq_some_iff.1 h
      obtain ⟨rfl, rfl⟩ := Roller.run_report_eq_some_iff.1 hreport
      obtain ⟨faces, u, l₁, _, hfaces, hlater, rfl⟩ := Roller.run_bind_eq_some_iff.1 hpass
      obtain ⟨more, v, l₂, _, hmore, hpure, rfl⟩ := Roller.run_bind_eq_some_iff.1 hlater
      obtain ⟨rfl, rfl, rfl⟩ := Roller.run_pure_eq_some_iff.1 hpure
      obtain ⟨hlen, hseries⟩ := Roller.series_of_run_times rolls_of_run hfaces
      rw [List.append_nil, List.singleton_append]
      exact .pass hp hlen hseries (ih _ (budget_lt_of_pass hp hfaces) hmore rfl)
    · next hp =>
      obtain ⟨rfl, -, rfl⟩ := Roller.run_pure_eq_some_iff.1 h
      cases Nat.eq_zero_of_not_pos hp
      exact .done

/-- What an explosion does is a course of one. -/
theorem explodes_of_run {faces extra : List Nat}
    (h : (explode faces sides m).run s = ⟨some extra, t, log⟩) :
    Explodes faces sides m extra log := by
  unfold explode at h
  split at h
  · next hsides =>
    obtain ⟨rfl, -, rfl⟩ := Roller.run_pure_eq_some_iff.1 h
    exact .flat hsides
  · next hsides =>
    cases hforce : m.forcesMaxFace sides with
    | true =>
      rw [hforce, if_pos rfl] at h
      obtain ⟨_, _, _, _, hreport, hpure, rfl⟩ := Roller.run_bind_eq_some_iff.1 h
      obtain ⟨-, rfl⟩ := Roller.run_report_eq_some_iff.1 hreport
      obtain ⟨rfl, -, rfl⟩ := Roller.run_pure_eq_some_iff.1 hpure
      exact .refused (Nat.le_of_not_lt hsides) hforce
    | false =>
      rw [hforce, if_neg (by decide)] at h
      exact .passes (Nat.le_of_not_lt hsides) hforce (passes_of_run h)

/-- What rolling all dice does is a course of all of them. -/
theorem settlesAll_of_run {r : Roll} {settled : List Nat}
    (h : (r.settleAll sides).run s = ⟨some settled, t, log⟩) : SettlesAll r sides settled log := by
  obtain ⟨base, u, l₁, _, hbase, hlater, rfl⟩ := Roller.run_bind_eq_some_iff.1 h
  obtain ⟨hlen, hseries⟩ := Roller.series_of_run_times rolls_of_run hbase
  cases he : r.modifiers.explode with
  | false =>
    rw [he, if_neg (by decide)] at hlater
    obtain ⟨rfl, -, rfl⟩ := Roller.run_pure_eq_some_iff.1 hlater
    rw [List.append_nil]
    exact .plain he hlen hseries
  | true =>
    rw [he, if_pos rfl] at hlater
    obtain ⟨extra, _, l₂, _, hextra, hend, rfl⟩ := Roller.run_bind_eq_some_iff.1 hlater
    obtain ⟨_, _, _, _, hreport, hpure, rfl⟩ := Roller.run_bind_eq_some_iff.1 hend
    obtain ⟨-, rfl⟩ := Roller.run_report_eq_some_iff.1 hreport
    obtain ⟨rfl, -, rfl⟩ := Roller.run_pure_eq_some_iff.1 hpure
    rw [List.append_nil, ← List.append_assoc]
    exact .exploded he hlen hseries (explodes_of_run hextra)

end Tabletop
