import Tabletop.Proofs.Modifiers.Faces
import Tabletop.Proofs.Rolling.Course

/-!
# The faces on which dice end

The log of a run shows on which faces dice ended: a face that was drawn stays unless the next entry
rolls its die again (`settledFaces`). Along every course of a roll these are the faces that come of
it. Where the source is fair, they lie in the range of the modifiers (`Rolls.faceRange`), and an
explosion adds as many dice as there are highest faces in all (`SettlesAll.length_eq`).
-/

namespace Tabletop

open Roller (Series)

/-- The next thing in the log is that a die is rolled again. -/
def rerolls : List Entry → Bool
  | .event (.rerolling _ _) :: _ => true
  | _ => false

/-- The faces on which dice ended, in order: those that were drawn and not rolled again. -/
def settledFaces : List Entry → List Nat
  | [] => []
  | .drew _ face :: log => if rerolls log then settledFaces log else face :: settledFaces log
  | .starved _ :: log | .event _ :: log => settledFaces log

/-- The face of a draw is one that the die has. -/
def Entry.Fair : Entry → Prop
  | .drew sides face => 1 ≤ face ∧ face ≤ sides
  | .starved _ | .event _ => True

instance : DecidablePred Entry.Fair
  | .drew sides face => inferInstanceAs (Decidable (1 ≤ face ∧ face ≤ sides))
  | .starved _ | .event _ => .isTrue trivial

/-! ## The log and the faces -/

section
variable {sides pass pending : Nat} {m : Modifiers} {rule : Threshold} {once : Bool}
  {first last face : Nat} {faces extra : List Nat} {log l₁ l₂ : List Entry}

/-- A log keeps how it begins if nothing behind it begins with a reroll. -/
theorem rerolls_append (h : rerolls l₂ = false) : rerolls (l₁ ++ l₂) = rerolls l₁ := by
  cases l₁ with
  | nil => exact h
  | cons e l₁ => cases e with
    | event e => cases e <;> rfl
    | drew | starved => rfl

/-- A log that does not begin with a reroll tells of dice of its own. -/
theorem settledFaces_append (h : rerolls l₂ = false) :
    settledFaces (l₁ ++ l₂) = settledFaces l₁ ++ settledFaces l₂ := by
  induction l₁ with
  | nil => rfl
  | cons e l₁ ih =>
    cases e with
    | drew sides face =>
      simp only [List.cons_append, settledFaces, rerolls_append h, ih]
      split <;> rfl
    | starved | event => exact ih

/-- Events other than rerolls do not tell of faces. -/
theorem settledFaces_events (es : List Event) : settledFaces (es.map .event ++ log) =
    settledFaces log := by
  induction es with
  | nil => rfl
  | cons e es ih => exact ih

/-- A die ends on one face, however often it is rolled again. -/
theorem Settles.settledFaces_eq (h : Settles rule once sides first last log) :
    settledFaces (.drew sides first :: log) = [last] := by
  induction h with
  | kept | once => rfl
  | again _ _ _ ih => exact ih

/-- The log of one die does not begin with a reroll. -/
theorem Rolls.rerolls_eq (h : Rolls sides m face log) : rerolls log = false := by
  cases h <;> rfl

/-- The log of one die tells on which face it ends. -/
theorem Rolls.settledFaces_eq (h : Rolls sides m face log) : settledFaces log = [face] := by
  cases h with
  | free | covered => rfl
  | ruled _ _ hs => exact hs.settledFaces_eq

/-- Nor does the log of one die after the other. -/
theorem rerolls_of_series (h : Series (Rolls sides m) faces log) : rerolls log = false := by
  induction h with
  | nil => rfl
  | cons hface _ ih => rw [rerolls_append ih, hface.rerolls_eq]

/-- The log of one die after the other tells on which faces they end. -/
theorem settledFaces_of_series (h : Series (Rolls sides m) faces log) :
    settledFaces log = faces := by
  induction h with
  | nil => rfl
  | cons hface hfaces ih =>
    rw [settledFaces_append (rerolls_of_series hfaces), hface.settledFaces_eq, ih]
    rfl

/-- Nor does the log of passes. -/
theorem Passes.rerolls_eq (h : Passes sides m pass pending extra log) : rerolls log = false := by
  cases h <;> rfl

/-- The log of the passes of an explosion tells on which faces their dice end. -/
theorem Passes.settledFaces_eq (h : Passes sides m pass pending extra log) :
    settledFaces log = extra := by
  induction h with
  | done => rfl
  | pass _ _ hfaces hmore ih =>
    rw [settledFaces, settledFaces_append hmore.rerolls_eq, settledFaces_of_series hfaces, ih]

/-- Nor does the log of an explosion. -/
theorem Explodes.rerolls_eq (h : Explodes faces sides m extra log) : rerolls log = false := by
  cases h with
  | flat | refused => rfl
  | passes _ _ hp => exact hp.rerolls_eq

/-- The log of an explosion tells on which faces its dice end. -/
theorem Explodes.settledFaces_eq (h : Explodes faces sides m extra log) :
    settledFaces log = extra := by
  cases h with
  | flat | refused => rfl
  | passes _ _ hp => exact hp.settledFaces_eq

/-- The log of a roll shows the faces on which its dice end. -/
theorem SettlesAll.settledFaces_eq {r : Roll} {settled : List Nat}
    (h : SettlesAll r sides settled log) : settledFaces log = settled := by
  cases h with
  | plain _ _ hbase => exact settledFaces_of_series hbase
  | exploded _ _ hbase hextra =>
    rw [settledFaces_append rfl, settledFaces_append hextra.rerolls_eq,
      settledFaces_of_series hbase, hextra.settledFaces_eq]
    exact List.append_nil _

/-! ## The range of faces -/

/-- A die that a rule rolls again and again ends on a face that the rule does not match. -/
theorem Settles.fair (h : Settles rule once sides first last log)
    (hfirst : 1 ≤ first ∧ first ≤ sides) (hlog : ∀ e ∈ log, e.Fair) :
    (1 ≤ last ∧ last ≤ sides) ∧ (once = false → rule.holds last = false) := by
  induction h with
  | kept hface => exact ⟨hfirst, fun _ => hface⟩
  | @once face next _ honce =>
    refine ⟨hlog (.drew sides next) (by simp), fun h => ?_⟩
    rw [honce] at h
    cases h
  | @again face next last log _ _ _ ih =>
    exact ih (hlog (.drew sides next) (by simp)) fun e he => hlog e (by simp [he])

/-- A die rolled on a fair source ends on a face that may stay. -/
theorem Rolls.mayStay (h : Rolls sides m face log) (hlog : ∀ e ∈ log, e.Fair) :
    m.MayStay sides face := by
  cases h with
  | free hm =>
    refine ⟨hlog (.drew sides face) (.head _), fun rule hrule => ?_⟩
    rw [Modifiers.repeating?_eq_some_iff, hm] at hrule
    cases hrule.2
  | covered hm hc =>
    refine ⟨hlog (.drew sides face) (.head _), fun rule hrule hc' => ?_⟩
    rw [Modifiers.repeating?_eq_some_iff, hm] at hrule
    cases hrule.2
    rw [hc] at hc'
    cases hc'
  | @ruled first _ _ _ hm _ hs =>
    obtain ⟨hface, hstop⟩ := hs.fair (hlog (.drew sides first) (.head _)) fun e he =>
      hlog e (.tail _ he)
    refine ⟨hface, fun rule hrule _ => ?_⟩
    obtain ⟨honce, hrule⟩ := Modifiers.repeating?_eq_some_iff.1 hrule
    rw [hm] at hrule
    cases hrule
    exact hstop honce

/-- With fair draws one die after the other ends on a face that may stay. -/
theorem mayStay_of_series (h : Series (Rolls sides m) faces log) (hlog : ∀ e ∈ log, e.Fair) :
    ∀ face ∈ faces, m.MayStay sides face :=
  h.forall_mem (Q := m.MayStay sides) hlog Rolls.mayStay

/-- With fair draws the dice of every pass end on faces that may stay. -/
theorem Passes.mayStay (h : Passes sides m pass pending extra log) (hlog : ∀ e ∈ log, e.Fair) :
    ∀ face ∈ extra, m.MayStay sides face := by
  induction h with
  | done => nofun
  | pass _ _ hfaces _ ih =>
    rw [List.forall_mem_cons, List.forall_mem_append] at hlog
    rw [List.forall_mem_append]
    exact ⟨mayStay_of_series hfaces hlog.2.1, ih hlog.2.2⟩

/-- With fair draws the dice of an explosion end on faces that may stay. -/
theorem Explodes.mayStay (h : Explodes faces sides m extra log) (hlog : ∀ e ∈ log, e.Fair) :
    ∀ face ∈ extra, m.MayStay sides face := by
  cases h with
  | flat | refused => nofun
  | passes _ _ hp => exact hp.mayStay hlog

/-- All dice rolled on a fair source end on faces that may stay. -/
theorem SettlesAll.mayStay {r : Roll} {settled : List Nat} (h : SettlesAll r sides settled log)
    (hlog : ∀ e ∈ log, e.Fair) : ∀ face ∈ settled, r.modifiers.MayStay sides face := by
  cases h with
  | plain _ _ hbase => exact mayStay_of_series hbase hlog
  | exploded _ _ hbase hextra =>
    rw [List.forall_mem_append, List.forall_mem_append] at hlog
    rw [List.forall_mem_append]
    exact ⟨mayStay_of_series hbase hlog.1.1, hextra.mayStay hlog.1.2⟩

/-! ## The number of dice -/

/-- An explosion rolls the dice that are pending and one more for every highest face among its own
dice: those of one pass are pending in the next, and the last pass shows none. -/
theorem Passes.length_eq (h : Passes sides m pass pending extra log) :
    extra.length = pending + extra.count sides := by
  induction h with
  | done => rfl
  | pass _ hlen _ _ ih =>
    rw [List.length_append, List.count_append, hlen, ih]

/-- An explosion that is not refused has as many dice as highest faces come up in all, its own
included. -/
theorem Explodes.length_eq (h : Explodes faces sides m extra log) (hsides : 2 ≤ sides) :
    extra.length = if m.forcesMaxFace sides then 0 else (faces ++ extra).count sides := by
  cases h with
  | flat hflat => omega
  | refused _ hforce => rw [hforce]; rfl
  | passes _ hforce hp =>
    rw [hforce, hp.length_eq, List.count_append]
    rfl

/-- An explosion that is not refused adds a die for every highest face on which any die ends, those
of the explosion included. -/
theorem SettlesAll.length_eq {r : Roll} {settled : List Nat} (h : SettlesAll r sides settled log)
    (hsides : 2 ≤ sides) :
    settled.length = if r.modifiers.explode = true ∧ r.modifiers.forcesMaxFace sides = false then
      r.count + settled.count sides else r.count := by
  cases h with
  | plain he hlen _ => simp [he, hlen]
  | exploded he hlen _ hextra =>
    rw [List.length_append, hlen, hextra.length_eq hsides, he]
    cases r.modifiers.forcesMaxFace sides <;> simp

end

end Tabletop
