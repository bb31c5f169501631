import Tabletop.Proofs.Evaluation.Outcome
import Tabletop.Proofs.Rolling.Ledger

/-!
# Every draw is accounted for

The outcome of standard dice, the draws and the events of its evaluation are three views of one run.
`evaluate_ledger` says how they agree (`Outcome.Ledger`): no face that was drawn is lost, and none
counts for two dice.
-/

namespace Tabletop

/-- How the log of an evaluation accounts for its dice, which end on `settled`: `base` is what the
base dice did and `rounds` what the dice of the explosion did, pass by pass. -/
structure Outcome.Ledger (o : Outcome) (n : Notation) (sides : Nat) (settled : List Nat)
    (base : List Throw) (rounds : List (List Throw)) (log : List Entry) : Prop where
  /-- The base dice are as many as the notation asks for. -/
  counted : base.length = n.count
  /-- Every draw is for a die with so many sides. -/
  asking : ∀ a ∈ asked log, a = sides
  /-- What is drawn is what dice end on and what is rolled again. -/
  perm : (drawn log).Perm (settled ++ (rerolled log).map Prod.fst)
  /-- So there are as many draws as there are dice and rerolls. -/
  draws : (asked log).length = o.diceRolled + (rerolled log).length
  /-- The dice end on the faces that are scored. -/
  ending : (base ++ rounds.flatten).map Throw.last = settled
  /-- The faces drawn are those that one die after the other shows. -/
  showing : drawn log = (base ++ rounds.flatten).flatMap Throw.faces
  /-- The rerolls are those of one die after the other. -/
  rerolling : (rerolled log).map Prod.fst = (base ++ rounds.flatten).flatMap Throw.again
  /-- A face that is rolled again matches the reroll rule. -/
  matching : ∀ x ∈ rerolled log, n.modifiers.reroll = some x.2 ∧ x.2.holds x.1 = true
  /-- A die is rolled again at most once if the modifiers say so. -/
  once : n.modifiers.rerollOnce = true → ∀ t ∈ base ++ rounds.flatten, t.again.length ≤ 1
  /-- No die is rolled again if the rule covers all faces. -/
  covered : ∀ rule, n.modifiers.reroll = some rule → rule.coversFaces sides = true →
    rerolled log = []
  /-- The passes of the explosion are numbered from 1 on. -/
  numbered : (announced log).map Prod.fst = List.range' 1 rounds.length
  /-- A pass rolls as many dice as it announces. -/
  rolled : (announced log).map Prod.snd = rounds.map List.length
  /-- A pass announces as many dice as the dice before it, at first the base dice, have highest
  faces. -/
  owed : (announced log).map Prod.snd = ((base :: rounds).map (highest sides)).dropLast
  /-- The base dice and the dice of the passes are all dice. -/
  total : n.count + ((announced log).map Prod.snd).sum = o.diceRolled

/-- Reading a notation reports what was passed over and what was read, and nothing else. -/
theorem Notation.filterMap_events {β : Type} (n : Notation) (f : Event → Option β)
    (hskipped : ∀ c i, f (.skipped c i) = none) (hparsed : ∀ n, f (.parsed n) = none) :
    n.events.filterMap f = [] := by
  unfold events
  rw [List.filterMap_append, List.filterMap_map]
  simp [hskipped, hparsed]

/-- What the log of a roll tells of its dice stands in the ledger of its outcome. -/
theorem Outcome.ledger_of_tells {n : Notation} {r : Roll} {sides : Nat} {base : List Throw}
    {rounds : List (List Throw)} {log : List Entry} (hcount : base.length = n.count)
    (htells : Tells sides n.modifiers (base ++ rounds.flatten) log)
    (hann : Announces sides 1 (highest sides base) rounds log) :
    (r.score ((base ++ rounds.flatten).map Throw.last)).Ledger n sides
      ((base ++ rounds.flatten).map Throw.last) base rounds log where
  counted := hcount
  asking := by
    rw [htells.asking]
    simp
  perm := htells.perm
  draws := by
    have hlen := htells.perm.length_eq
    rw [List.length_append, List.length_map Prod.fst] at hlen
    rw [htells.asking, List.length_map, hlen]
    rfl
  ending := rfl
  showing := htells.showing
  rerolling := htells.rerolling
  matching x hx := ⟨(htells.matching x hx).1, (htells.matching x hx).2.2⟩
  once := htells.once
  covered rule hrule hc := by
    refine List.eq_nil_iff_forall_not_mem.2 fun x hx => ?_
    obtain ⟨hrule', hc', -⟩ := htells.matching x hx
    cases hrule.symm.trans hrule'
    rw [hc] at hc'
    cases hc'
  numbered := hann.numbered
  rolled := hann.rolled
  owed := hann.owed
  total := by
    rw [hann.rolled, ← hcount, ← List.length_flatten, ← List.length_append]
    exact (List.length_map Throw.last).symm

/-- Whatever is evaluated on whatever source, if the dice are standard dice, the log of the run
accounts for every one of them: the faces on which they end, of which the outcome is the score, and
the faces from which they are rolled again are together all faces that were drawn. -/
theorem evaluate_ledger {σ : Type} [DieSource σ] {s t : σ} {log : List Entry} {input : String}
    {settings : Settings} {o : Outcome}
    (hrun : (evaluate input settings).run s = ⟨some (.ok o), t, log⟩) :
    ∃ n r, Notation.parse input = .ok n ∧ Roll.ofNotation n settings.maxDice = .ok r ∧
      ∀ sides, n.dice = .standard sides → ∃ settled base rounds,
        (∃ l, (r.settleAll sides).run s = ⟨some settled, t, l⟩) ∧ o = r.score settled ∧
          o.Ledger n sides settled base rounds log := by
  obtain ⟨n, r, l, hn, hr, hroll, rfl⟩ := exists_of_evaluateWith hrun
  refine ⟨n, r, hn, hr, fun sides hdice => ?_⟩
  obtain ⟨-, hparts⟩ := Roll.ofNotation_eq_ok_iff.1 hr
  have hrdice : r.dice = .standard sides := by rw [hparts, ← hdice]
  obtain ⟨settled, hsettle, rfl⟩ := Roll.exists_run_settleAll hrdice hroll
  obtain ⟨base, rounds, hcount, rfl, htells, hann⟩ := (settlesAll_of_run hsettle).exists_throws
  refine ⟨_, base, rounds, ⟨l, hsettle⟩, rfl, ?_⟩
  subst hparts
  -- The reports before and after the roll neither draw nor announce anything.
  refine Outcome.ledger_of_tells hcount ?_ ?_
  · exact (tells_events n.events (n.filterMap_events _ (fun _ _ => rfl) fun _ => rfl)).append
      (htells.behind [_] rfl)
  · exact hann.within
      (announced_events n.events (n.filterMap_events _ (fun _ _ => rfl) fun _ => rfl)) rfl

/-- Three dice with rerolls and an explosion of two dice, of which one shows its highest face again,
and of a last one: eight draws, of which two are rerolled. -/
theorem evaluate_ledger_two_passes :
    ∃ o t log, (evaluate "3d6+2!r<2kh3" {}).run (⟨[6, 1, 5, 2, 6, 6, 3, 4]⟩ : Script) =
      ⟨some (.ok o), t, log⟩ ∧ ∃ n r, Notation.parse "3d6+2!r<2kh3" = .ok n ∧
        Roll.ofNotation n ({} : Settings).maxDice = .ok r ∧ n.dice = .standard 6 ∧
        ∃ settled base rounds, o = r.score settled ∧ o.Ledger n 6 settled base rounds log ∧
          (drawn log).length = 8 ∧ announced log = [(1, 2), (2, 1)] ∧
          base.length = 3 ∧ rounds.map List.length = [2, 1] := by
  let typed := (evaluate "3d6+2!r<2kh3" {}).run (⟨[6, 1, 5, 2, 6, 6, 3, 4]⟩ : Script)
  obtain ⟨o, hrun⟩ : ∃ o, typed = ⟨some (.ok o), typed.rest, typed.log⟩ :=
    Run.exists_ok (by decide +kernel)
  obtain ⟨n, r, hn, hr, hledger⟩ := evaluate_ledger hrun
  have hdice : n.dice = .standard 6 := Notation.eq_of_parse Notation.dice hn (by decide +kernel)
  obtain ⟨settled, base, rounds, -, ho, hledger⟩ := hledger 6 hdice
  have hcount : n.count = 3 := Notation.eq_of_parse Notation.count hn (by decide +kernel)
  have hannounced : announced typed.log = [(1, 2), (2, 1)] := by decide +kernel
  exact ⟨o, _, _, hrun, n, r, hn, hr, hdice, settled, base, rounds, ho, hledger,
    by decide +kernel, hannounced, hledger.counted.trans hcount,
    hledger.rolled.symm.trans (congrArg (List.map Prod.snd) hannounced)⟩

end Tabletop
