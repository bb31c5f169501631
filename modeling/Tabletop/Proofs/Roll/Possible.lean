import Mathlib.Order.Bounds.Image
import Tabletop.Proofs.Roll.Score
import Tabletop.Proofs.Rolling.Steady
import Tabletop.Proofs.Widths
import Tabletop.Roll.Possible

/-!
# Possible totals are the ends of the range

`Roll.possible?` computes two numbers from the range of faces and the number of dice kept, and the
roll itself computes a total from the faces that come. They agree: the two numbers are the least and
the greatest modified total to which the roll can come (`Roll.possible?_ends`). A total adds up what
the dice that count are worth, their faces or their successes (`Roll.total_score`); what a face is
worth lies between what the ends of the range are worth (`worth_between`); and both ends are
reached, by dice that all end on one face.
-/

namespace Tabletop

/-! ## What a die is worth -/

/-- What a die that counts adds to the total: its face, or if successes are counted, 1 for one. -/
def worth (success : Option Threshold) (face : Nat) : Int :=
  match success with
  | none => face
  | some rule => if rule.holds face then 1 else 0

/-- What a Fudge die adds to the total, which is rolled as a die with three sides. -/
def fudgeWorth (face : Nat) : Int := face - 2

/-- All comparisons are monotone, so a face between two others is worth something between. -/
theorem worth_between (success : Option Threshold) {lo hi face : Nat} (hlo : lo ≤ face)
    (hhi : face ≤ hi) :
    min (worth success lo) (worth success hi) ≤ worth success face ∧
      worth success face ≤ max (worth success lo) (worth success hi) := by
  cases success with
  | none =>
    simp only [worth]
    omega
  | some rule =>
    cases rule <;> simp only [worth, Threshold.holds, decide_eq_true_eq] <;> split_ifs <;> omega

/-- With a success rule the worths of dice add up to the number of successes. -/
theorem sum_worth_of_success (rule : Threshold) (faces : List Nat) :
    (faces.map (worth (some rule))).sum = faces.countP rule.holds := by
  induction faces with
  | nil => rfl
  | cons face faces ih =>
    rw [List.map_cons, List.sum_cons, ih, List.countP_cons, worth]
    split <;> simp [*, Int.add_comm]

/-- So many dice that count, on faces within their width, add up to an amount. -/
theorem inRange_mul {kept hi : Nat} (h : kept * hi ≤ 2 ^ 31 * maxFace) :
    Amount.InRange (kept * hi) := by
  unfold maxFace UInt32.size at h
  unfold Amount.InRange Amount.least Amount.greatest
  omega

/-- The totals that are possible are so many times the least and the greatest worth. -/
theorem totals_eq (success : Option Threshold) {kept lo hi : Nat} (hle : lo ≤ hi)
    (hrange : Amount.InRange (kept * hi)) :
    Roll.totals success kept lo hi =
      (kept * min (worth success lo) (worth success hi),
        kept * max (worth success lo) (worth success hi)) := by
  cases success with
  | none =>
    have hmul : kept * lo ≤ kept * hi := Nat.mul_le_mul_left kept hle
    have hlo : Amount.InRange (kept * lo) := by
      unfold Amount.InRange Amount.least at *
      omega
    simp only [Roll.totals, worth, Amount.clamp_of_inRange hlo, Amount.clamp_of_inRange hrange]
    rw [min_eq_left (Int.ofNat_le.2 hle), max_eq_right (Int.ofNat_le.2 hle)]
  | some rule =>
    cases hlo : rule.holds lo <;> cases hhi : rule.holds hi <;> simp [Roll.totals, worth, hlo, hhi]

/-- Fudge dice with faces up to some bound, of which there are not too many for it. -/
theorem Outcome.exact_fudge {faces : List Nat} {hi : Nat} (hfaces : ∀ face ∈ faces, face ≤ hi)
    (hlen : faces.length ≤ maxFace) (hhi : (faces.length * hi : Int) ≤ Amount.greatest)
    (text : String) (flat : Int) :
    (Outcome.fudge text (faces.map fudgeWorth) flat).Exact := by
  refine exact_of_within rfl (inRange_sum_take (a := -2) (b := hi) ?_ ?_ ?_ ?_ hhi)
  · intro face hface
    have := hfaces face hface
    unfold fudgeWorth
    omega
  · decide
  · exact Int.natCast_nonneg hi
  · unfold maxFace UInt32.size at hlen
    unfold Amount.least
    omega

/-- The amounts nearest to two integers lie as they do. -/
theorem Amount.clamp_le_clamp {a b : Int} (hab : a ≤ b) : clamp a ≤ clamp b := by
  unfold clamp
  omega

namespace Roll

variable {r : Roll} {sides face : Nat} {o : Outcome} {settled : List Nat}

/-! ## Outcomes and their totals -/

/-- An outcome to which the roll can come: it does so on some source, with fair draws. -/
def CanCome (r : Roll) (o : Outcome) : Prop :=
  ∃ (σ : Type) (_ : DieSource σ) (s t : σ) (log : List Entry),
    r.roll.run s = ⟨some o, t, log⟩ ∧ ∀ e ∈ log, e.Fair

/-- The total of a score adds up what the dice that count are worth. -/
theorem total_score (hfaces : ∀ face ∈ settled, face ≤ maxFace)
    (hlen : (r.score settled).rolls.length ≤ 2 ^ 31) :
    (r.score settled).total =
      ((r.modifiers.select settled).map (worth r.modifiers.success)).sum := by
  cases h : r.modifiers.success with
  | none =>
    rw [total_score_of_sum h hfaces hlen, rolls_score]
    rfl
  | some rule =>
    rw [(total_score_of_success h).1, rolls_score, List.countP_map, sum_worth_of_success]
    rfl

/-- The total of Fudge dice on faces of their own adds up what they are worth. -/
theorem total_fudge {faces : List Nat} (hfaces : ∀ face ∈ faces, 1 ≤ face ∧ face ≤ 3)
    (hlen : faces.length ≤ maxFace) (text : String) (flat : Int) :
    (Outcome.fudge text (faces.map fudgeWorth) flat).total = (faces.map fudgeWorth).sum := by
  refine (Outcome.exact_fudge (fun face hface => (hfaces face hface).2) hlen ?_ text flat).total
  unfold maxFace UInt32.size at hlen
  unfold Amount.greatest
  omega

/-- The outcome of a roll that does not explode is the score of as many dice as it asks for, on
faces that may stay. -/
theorem CanCome.exists_score (h : r.CanCome o) (hdice : r.dice = .standard sides)
    (hexplode : r.modifiers.explode = false) : ∃ settled, settled.length = r.count ∧
      (∀ face ∈ settled, r.modifiers.MayStay sides face) ∧ o = r.score settled := by
  obtain ⟨σ, _, s, t, log, hrun, hfair⟩ := h
  obtain ⟨settled, hsettles, rfl⟩ := exists_of_roll_standard hdice hrun
  refine ⟨settled, ?_, hsettles.mayStay hfair, rfl⟩
  cases hsettles with
  | plain _ hlen _ => exact hlen
  | exploded he =>
    rw [hexplode] at he
    cases he

/-- All dice can end on a face that may stay. -/
theorem canCome_replicate (hdice : r.dice = .standard sides)
    (hexplode : r.modifiers.explode = false) (hstay : r.modifiers.MayStay sides face) :
    r.CanCome (r.score (List.replicate r.count face)) := by
  obtain ⟨t, log, hrun, hlog⟩ := (rollOne_ends hstay.2).exists_run_times r.count
  have hsettle : (r.settleAll sides).run (Script.steady [] face (r.count * 2)) =
      ⟨some (List.replicate r.count face), t, log ++ []⟩ := by
    refine Roller.run_bind_of_some hrun ?_
    rw [hexplode]
    rfl
  refine ⟨Script, inferInstance, .steady [] face (r.count * 2), t, log ++ [] ++ [], ?_, ?_⟩
  · unfold roll
    rw [hdice]
    exact Roller.run_bind_of_some hsettle rfl
  · rw [List.append_nil, List.append_nil]
    exact fun e he => (hlog e he).fair hstay.1

/-- The outcome of Fudge dice has what the faces of three-sided dice are worth. -/
theorem CanCome.exists_fudge (h : r.CanCome o) (hdice : r.dice = .fudge) :
    ∃ faces : List Nat, faces.length = r.count ∧ (∀ face ∈ faces, 1 ≤ face ∧ face ≤ 3) ∧
      o = Outcome.fudge r.text (faces.map fudgeWorth) r.flat := by
  obtain ⟨σ, _, s, t, log, hrun, hfair⟩ := h
  unfold roll at hrun
  rw [hdice] at hrun
  obtain ⟨rolls, u, l, _, hrolls, hpure, rfl⟩ := Roller.run_bind_eq_some_iff.1 hrun
  obtain ⟨rfl, rfl, rfl⟩ := Roller.run_pure_eq_some_iff.1 hpure
  obtain ⟨faces, v, l, _, hfaces, hpure, rfl⟩ := Roller.run_bind_eq_some_iff.1 hrolls
  obtain ⟨rfl, rfl, rfl⟩ := Roller.run_pure_eq_some_iff.1 hpure
  obtain ⟨hlen, hseries⟩ := Roller.series_of_run_times
    (fun hdraw => (Roller.run_draw_eq_some_iff.1 hdraw).2) hfaces
  rw [List.append_nil, List.append_nil] at hfair
  refine ⟨faces, hlen, hseries.forall_mem (Q := fun face => 1 ≤ face ∧ face ≤ 3) hfair ?_, rfl⟩
  rintro face _ rfl hface
  exact hface (.drew 3 face) (.head _)

/-- All Fudge dice can show the same face. -/
theorem canCome_fudge (hdice : r.dice = .fudge) (hface : 1 ≤ face ∧ face ≤ 3) :
    r.CanCome (Outcome.fudge r.text ((List.replicate r.count face).map fudgeWorth) r.flat) := by
  obtain ⟨t, log, hrun, hlog⟩ := (Roller.ends_draw 3 face).exists_run_times r.count
  refine ⟨Script, inferInstance, .steady [] face (r.count * 1), t, log ++ [] ++ [], ?_, ?_⟩
  · unfold roll
    rw [hdice]
    exact Roller.run_bind_of_some (Roller.run_bind_of_some hrun rfl) rfl
  · rw [List.append_nil, List.append_nil]
    exact fun e he => (hlog e he).fair hface

/-- The modified total of an outcome that can come is its total with the flat amount. -/
theorem CanCome.modifiedTotal_eq (h : r.CanCome o) :
    o.modifiedTotal = Amount.clamp (o.total + r.flat) := by
  obtain ⟨σ, _, s, t, log, hrun, -⟩ := h
  exact (modifiedTotal_of_run hrun).2

/-! ## The ends of the totals -/

/-- Totals that add up what so many faces are worth have their ends where all faces are an end of
the range, if what a face is worth lies between what these two are worth. -/
theorem ends_of_sums {S : Set Outcome} {n : Nat} (f : Nat → Int) (lo hi : Nat)
    (hsum : ∀ o ∈ S, ∃ faces : List Nat, faces.length = n ∧
      (∀ face ∈ faces, lo ≤ face ∧ face ≤ hi) ∧ o.total = (faces.map f).sum)
    (hf : ∀ {face}, lo ≤ face → face ≤ hi → min (f lo) (f hi) ≤ f face ∧ f face ≤ max (f lo) (f hi))
    (hend : ∀ face, face = lo ∨ face = hi → ∃ o ∈ S, o.total = n * f face) :
    IsLeast (Outcome.total '' S) (n * min (f lo) (f hi)) ∧
      IsGreatest (Outcome.total '' S) (n * max (f lo) (f hi)) := by
  have hbetween : ∀ o ∈ S, n * min (f lo) (f hi) ≤ o.total ∧ o.total ≤ n * max (f lo) (f hi) := by
    intro o ho
    obtain ⟨faces, rfl, hfaces, htotal⟩ := hsum o ho
    rw [htotal]
    exact sum_map_between fun face hface => hf (hfaces face hface).1 (hfaces face hface).2
  have hreached {c : Int} (hc : c = f lo ∨ c = f hi) : n * c ∈ Outcome.total '' S := by
    rcases hc with rfl | rfl
    · exact hend lo (.inl rfl)
    · exact hend hi (.inr rfl)
  refine ⟨⟨hreached (min_choice ..), ?_⟩, hreached (max_choice ..), ?_⟩
  · rintro _ ⟨o, ho, rfl⟩
    exact (hbetween o ho).1
  · rintro _ ⟨o, ho, rfl⟩
    exact (hbetween o ho).2

/-- The totals of Fudge dice reach from all -1 to all +1. -/
theorem ends_fudge (hdice : r.dice = .fudge) (hcount : r.count ≤ 2 ^ 31) :
    IsLeast (Outcome.total '' {o | r.CanCome o}) (-(r.count : Int)) ∧
      IsGreatest (Outcome.total '' {o | r.CanCome o}) r.count := by
  have hends : IsLeast (Outcome.total '' {o | r.CanCome o}) (r.count * (-1)) ∧
      IsGreatest (Outcome.total '' {o | r.CanCome o}) (r.count * 1) := by
    have hcount : r.count ≤ maxFace := Nat.le_trans hcount (by decide)
    refine ends_of_sums fudgeWorth 1 3 (fun o ho => ?_) (fun hlo hhi => ?_) fun face hface => ?_
    · obtain ⟨faces, hlen, hfaces, rfl⟩ := CanCome.exists_fudge ho hdice
      exact ⟨faces, hlen, hfaces, total_fudge hfaces (hlen ▸ hcount) r.text r.flat⟩
    · simp only [fudgeWorth]
      omega
    · have hface : 1 ≤ face ∧ face ≤ 3 := by omega
      refine ⟨_, canCome_fudge hdice hface, ?_⟩
      rw [total_fudge (fun x hx => List.eq_of_mem_replicate hx ▸ hface) (by simpa using hcount)]
      simp
  simpa using hends

/-- Dice that do not explode have totals from so many times the least to so many times the greatest
worth of the two ends of their range. -/
theorem ends_standard (hdice : r.dice = .standard sides) (hsides : 1 ≤ sides ∧ sides ≤ maxFace)
    (hexplode : r.modifiers.explode = false) (hcount : r.count ≤ 2 ^ 31) {lo hi : Nat}
    (hrange : r.modifiers.faceRange sides = (lo, hi)) :
    IsLeast (Outcome.total '' {o | r.CanCome o}) (r.modifiers.keptCount r.count *
      min (worth r.modifiers.success lo) (worth r.modifiers.success hi)) ∧
    IsGreatest (Outcome.total '' {o | r.CanCome o}) (r.modifiers.keptCount r.count *
      max (worth r.modifiers.success lo) (worth r.modifiers.success hi)) := by
  have htotal {settled : List Nat} (hlen : settled.length = r.count)
      (hstay : ∀ face ∈ settled, r.modifiers.MayStay sides face) : (r.score settled).total =
        ((r.modifiers.select settled).map (worth r.modifiers.success)).sum := by
    refine total_score (fun face hface => Nat.le_trans (hstay face hface).1.2 hsides.2) ?_
    rw [length_rolls_score, hlen]
    exact Nat.le_trans Modifiers.keptCount_le hcount
  have hmem {face : Nat} : lo ≤ face ∧ face ≤ hi ↔ r.modifiers.MayStay sides face := by
    rw [← Modifiers.mem_faceRange_iff hsides.1, hrange]
  have hboth := Modifiers.mayStay_faceRange (m := r.modifiers) hsides.1
  rw [hrange] at hboth
  -- Whatever order the dice come in, those that count are on faces of the range; and if all dice
  -- end on one face, it does not matter which ones count.
  refine ends_of_sums (worth r.modifiers.success) lo hi (fun o ho => ?_) (worth_between _)
    fun face hface => ?_
  · obtain ⟨settled, hlen, hstay, rfl⟩ := CanCome.exists_score ho hdice hexplode
    refine ⟨r.modifiers.select settled, ?_, fun face hface => ?_, htotal hlen hstay⟩
    · rw [Modifiers.length_select, hlen]
    · exact hmem.2 (hstay face (Modifiers.mem_of_mem_select hface))
  · have hstay : r.modifiers.MayStay sides face := by
      rcases hface with rfl | rfl
      · exact hboth.1
      · exact hboth.2
    refine ⟨_, canCome_replicate hdice hexplode hstay, ?_⟩
    rw [htotal List.length_replicate fun x hx => List.eq_of_mem_replicate hx ▸ hstay]
    rw [Modifiers.select_replicate, List.map_replicate, List.sum_replicate, nsmul_eq_mul]

/-- The possible totals are the ends of the totals to which the roll can come. -/
theorem exists_bareTotals (hsides : ∀ sides, r.dice = .standard sides → 1 ≤ sides)
    (hfits : r.dice.Fits) (hcount : r.count ≤ 2 ^ 31)
    (hplain : r.dice = .fudge ∨ r.modifiers.explode = false) :
    ∃ lo hi, r.bareTotals? = some (lo, hi) ∧
      IsLeast (Outcome.total '' {o | r.CanCome o}) lo ∧
      IsGreatest (Outcome.total '' {o | r.CanCome o}) hi := by
  unfold bareTotals?
  cases hdice : r.dice with
  | fudge => exact ⟨_, _, rfl, ends_fudge hdice hcount⟩
  | standard sides =>
    have hexplode : r.modifiers.explode = false := hplain.resolve_left (by rw [hdice]; nofun)
    have hsides : 1 ≤ sides ∧ sides ≤ maxFace := by
      rw [hdice] at hfits
      exact ⟨hsides sides hdice, hfits⟩
    have ⟨hlo, hhi⟩ := Modifiers.mayStay_faceRange (m := r.modifiers) hsides.1
    have hle := ((Modifiers.mem_faceRange_iff hsides.1).2 hlo).2
    have hmost : r.modifiers.keptCount r.count * (r.modifiers.faceRange sides).2 ≤
        2 ^ 31 * maxFace :=
      Nat.mul_le_mul (Nat.le_trans Modifiers.keptCount_le hcount) (Nat.le_trans hhi.1.2 hsides.2)
    have htotals := totals_eq r.modifiers.success hle (inRange_mul hmost)
    dsimp only
    rw [if_neg (Bool.eq_false_iff.1 hexplode)]
    exact ⟨_, _, congrArg some htotals, ends_standard hdice hsides hexplode hcount rfl⟩

/-- Whatever a draft becomes, if it is Fudge dice or does not explode, the possible totals are the
least and the greatest modified total to which the roll can come. -/
theorem possible?_ends {d : Draft} {r : Roll} (hbuild : d.build = .ok r) (hfits : r.dice.Fits)
    (hcount : r.count ≤ 2 ^ 31) (hplain : r.dice = .fudge ∨ r.modifiers.explode = false) :
    ∃ lo hi, r.possible? = some (lo, hi) ∧
      IsLeast (Outcome.modifiedTotal '' {o | r.CanCome o}) lo ∧
      IsGreatest (Outcome.modifiedTotal '' {o | r.CanCome o}) hi := by
  have hsides : ∀ sides, r.dice = .standard sides → 1 ≤ sides := by
    obtain ⟨⟨-, -, hsides⟩, rfl⟩ := Draft.build_eq_ok_iff.1 hbuild
    exact fun sides hdice => Nat.le_of_succ_le (hsides sides hdice)
  obtain ⟨lo, hi, hbare, hleast, hgreatest⟩ := exists_bareTotals hsides hfits hcount hplain
  -- Adding the flat amount keeps the order, at the ends of the width too.
  have hmono : Monotone fun n => Amount.clamp (n + r.flat) :=
    fun _ _ h => Amount.clamp_le_clamp (Int.add_le_add_right h r.flat)
  have himage : Outcome.modifiedTotal '' {o | r.CanCome o} =
      (fun n => Amount.clamp (n + r.flat)) '' (Outcome.total '' {o | r.CanCome o}) := by
    rw [Set.image_image]
    exact Set.image_congr fun o ho => CanCome.modifiedTotal_eq ho
  rw [himage]
  refine ⟨_, _, ?_, hmono.map_isLeast hleast, hmono.map_isGreatest hgreatest⟩
  rw [possible?, hbare]
  rfl

/-- Four dice with six sides, of which the lowest does not count and which are rolled again up to
2, and a flat amount of 2. -/
theorem possible?_ends_dropLow :
    let d : Draft :=
      { dice := .standard 6
        count := 4
        flat := 2
        modifiers := { dropLow := some 1, reroll := some (.atMost 2) } }
    ∃ r, d.build = .ok r ∧ r.possible? = some (11, 20) ∧
      IsLeast (Outcome.modifiedTotal '' {o | r.CanCome o}) 11 ∧
      IsGreatest (Outcome.modifiedTotal '' {o | r.CanCome o}) 20 := by
  intro d
  let r : Roll := ⟨"4d6+2dl1r<2", 4, .standard 6, 2, d.modifiers⟩
  have hbuild : d.build = .ok r := by decide +kernel
  have hpossible : r.possible? = some (11, 20) := by decide
  obtain ⟨lo, hi, hends, hleast, hgreatest⟩ :=
    possible?_ends hbuild (by decide) (by decide) (.inr rfl)
  cases hpossible.symm.trans hends
  exact ⟨r, hbuild, hpossible, hleast, hgreatest⟩

end Roll

end Tabletop
