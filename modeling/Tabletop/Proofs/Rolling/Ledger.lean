import Tabletop.Proofs.Rolling.Course

/-!
# The ledger of a roll

Every face that is drawn belongs to a die, which either ends on it or is rolled again. A `Throw` is
what one die did, and a log tells of throws (`Tells`) if its draws and its rerolls are theirs, none
left out and none told twice. Along every course of a roll the log tells of its base dice and then,
round by round, of the dice of the explosion; each round is announced with its number and with as
many dice as the round before it has highest faces (`SettlesAll.exists_throws`).
-/

namespace Tabletop

open Roller (Series)

/-! ## Rerolls and rounds in a log -/

/-- The face that is rolled again and the rule that asks for it, if the event is a reroll. -/
def Event.rerolling? : Event → Option (Nat × Threshold)
  | .rerolling face rule => some (face, rule)
  | _ => none

/-- The number of a pass and of its dice, if the event announces one. -/
def Event.exploding? : Event → Option (Nat × Nat)
  | .exploding pass pending => some (pass, pending)
  | _ => none

/-- The faces that are rolled again, each with the rule that asks for it, in order. -/
def rerolled (log : List Entry) : List (Nat × Threshold) := (events log).filterMap Event.rerolling?

/-- The passes that are announced, each with its number and the number of its dice, in order. -/
def announced (log : List Entry) : List (Nat × Nat) := (events log).filterMap Event.exploding?

/-- The rerolls of a log are those of its parts. -/
theorem rerolled_append (l₁ l₂ : List Entry) :
    rerolled (l₁ ++ l₂) = rerolled l₁ ++ rerolled l₂ := by
  unfold rerolled
  rw [events_append, List.filterMap_append]

/-- The announcements of a log are those of its parts. -/
theorem announced_append (l₁ l₂ : List Entry) :
    announced (l₁ ++ l₂) = announced l₁ ++ announced l₂ := by
  unfold announced
  rw [events_append, List.filterMap_append]

/-- Events without announcements announce nothing. -/
theorem announced_events (es : List Event) (h : es.filterMap Event.exploding? = []) :
    announced (es.map .event) = [] := by
  rw [announced, events_events, h]

/-! ## Throws -/

/-- What one die did: the faces from which it was rolled again, in order, and the face on which it
ended. -/
structure Throw where
  /-- The faces from which it was rolled again. -/
  again : List Nat
  /-- The face on which it ended. -/
  last : Nat
  deriving DecidableEq, Repr

/-- The faces that a die showed, in order. -/
def Throw.faces (t : Throw) : List Nat := t.again ++ [t.last]

/-- How many dice ended on their highest face. -/
def highest (sides : Nat) (throws : List Throw) : Nat := (throws.map Throw.last).count sides

/-- The draws and the rerolls of a log are those of throws. -/
structure Tells (sides : Nat) (m : Modifiers) (throws : List Throw) (log : List Entry) : Prop where
  /-- Every draw is for a die with so many sides, and it gives a face. -/
  asking : asked log = (drawn log).map fun _ => sides
  /-- The faces drawn are those that the dice showed. -/
  showing : drawn log = throws.flatMap Throw.faces
  /-- The rerolls are those of the dice. -/
  rerolling : (rerolled log).map Prod.fst = throws.flatMap Throw.again
  /-- A die is rolled again by the reroll rule, which leaves some face but not this one. -/
  matching : ∀ x ∈ rerolled log,
    m.reroll = some x.2 ∧ x.2.coversFaces sides = false ∧ x.2.holds x.1 = true
  /-- A die is rolled again at most once if the modifiers say so. -/
  once : m.rerollOnce = true → ∀ t ∈ throws, t.again.length ≤ 1

section
variable {sides pass pending : Nat} {m : Modifiers} {rule : Threshold} {once : Bool}
  {first last face : Nat} {faces extra : List Nat} {throws throws₁ throws₂ : List Throw}
  {log l₁ l₂ : List Entry}

/-- One log after the other tells of the throws of both. -/
theorem Tells.append (h₁ : Tells sides m throws₁ l₁) (h₂ : Tells sides m throws₂ l₂) :
    Tells sides m (throws₁ ++ throws₂) (l₁ ++ l₂) where
  asking := by rw [asked_append, drawn_append, List.map_append, h₁.asking, h₂.asking]
  showing := by rw [drawn_append, List.flatMap_append, h₁.showing, h₂.showing]
  rerolling := by
    rw [rerolled_append, List.map_append, List.flatMap_append, h₁.rerolling, h₂.rerolling]
  matching := by
    rw [rerolled_append, List.forall_mem_append]
    exact ⟨h₁.matching, h₂.matching⟩
  once honce := by
    rw [List.forall_mem_append]
    exact ⟨h₁.once honce, h₂.once honce⟩

/-- Events other than rerolls tell of no throw. -/
theorem tells_events (es : List Event) (h : es.filterMap Event.rerolling? = []) :
    Tells sides m [] (es.map .event) where
  asking := by rw [asked_events, drawn_events]; rfl
  showing := drawn_events es
  rerolling := by rw [rerolled, events_events, h]; rfl
  matching := by rw [rerolled, events_events, h]; nofun
  once := nofun

/-- Reports behind a log tell of no other throw. -/
theorem Tells.behind (h : Tells sides m throws log) (es : List Event)
    (hes : es.filterMap Event.rerolling? = []) : Tells sides m throws (log ++ es.map .event) := by
  have hall := h.append (tells_events es hes)
  rwa [List.append_nil] at hall

open scoped List in
/-- What is drawn is what dice end on and what is rolled again, no face lost and none twice. -/
theorem Tells.perm (h : Tells sides m throws log) :
    drawn log ~ throws.map Throw.last ++ (rerolled log).map Prod.fst := by
  rw [h.showing, h.rerolling]
  clear h
  induction throws with
  | nil => exact .nil
  | cons t throws ih =>
    rw [List.flatMap_cons, List.flatMap_cons, List.map_cons]
    calc t.faces ++ throws.flatMap Throw.faces
      _ ~ (t.last :: t.again) ++ (throws.map Throw.last ++ throws.flatMap Throw.again) :=
        List.perm_append_singleton t.last t.again |>.append ih
      _ ~ (t.last :: throws.map Throw.last) ++ (t.again ++ throws.flatMap Throw.again) :=
        (List.perm_append_comm_assoc ..).cons t.last

/-! ## One die -/

/-- A die that is rolled again by a rule shows the face that it had, the faces of its rerolls, and
the face on which it ends. -/
theorem Settles.exists_throw (h : Settles rule once sides first last log) : ∃ t : Throw,
    t.last = last ∧ first :: drawn log = t.faces ∧ rerolled log = t.again.map (·, rule) ∧
      asked log = (drawn log).map (fun _ => sides) ∧ (∀ x ∈ t.again, rule.holds x = true) ∧
        (once = true → t.again.length ≤ 1) ∧ announced log = [] := by
  induction h with
  | @kept face _ => exact ⟨⟨[], face⟩, rfl, rfl, rfl, rfl, nofun, fun _ => Nat.zero_le 1, rfl⟩
  | @once face next hface _ =>
    refine ⟨⟨[face], next⟩, rfl, rfl, rfl, rfl, fun x hx => ?_, fun _ => Nat.le_refl 1, rfl⟩
    rw [List.mem_singleton.1 hx]
    exact hface
  | @again face next last log hface honce _ ih =>
    obtain ⟨t, hlast, hdrawn, hrerolled, hasked, hholds, -, hannounced⟩ := ih
    refine ⟨⟨face :: t.again, t.last⟩, hlast, congrArg (face :: ·) hdrawn,
      congrArg ((face, rule) :: ·) hrerolled, congrArg (sides :: ·) hasked,
      List.forall_mem_cons.2 ⟨hface, hholds⟩, fun h => ?_, hannounced⟩
    rw [honce] at h
    cases h

/-- A course of one die tells of one throw that ends on its face. -/
theorem Rolls.exists_throw (h : Rolls sides m face log) :
    ∃ t : Throw, t.last = face ∧ Tells sides m [t] log ∧ announced log = [] := by
  cases h with
  | free | covered =>
    exact ⟨⟨[], face⟩, rfl, ⟨rfl, rfl, rfl, nofun, fun _ => by simp⟩, rfl⟩
  | @ruled first _ rule log hrule hc hs =>
    obtain ⟨t, hlast, hdrawn, hrerolled, hasked, hholds, honce, hannounced⟩ := hs.exists_throw
    refine ⟨t, hlast, ?_, hannounced⟩
    have hrerolled' : rerolled (.drew sides first :: log) = t.again.map (·, rule) := hrerolled
    exact {
      asking := congrArg (sides :: ·) hasked
      showing := hdrawn.trans (List.append_nil _).symm
      rerolling := by simp [hrerolled', Function.comp_def]
      matching := fun x hx => by
        rw [hrerolled'] at hx
        obtain ⟨face, hface, rfl⟩ := List.mem_map.1 hx
        exact ⟨hrule, hc, hholds face hface⟩
      once := fun h t' ht' => List.mem_singleton.1 ht' ▸ honce h }

/-! ## All dice -/

/-- One die after the other tells of one throw after the other. -/
theorem exists_throws_of_series (h : Series (Rolls sides m) faces log) :
    ∃ throws : List Throw, throws.map Throw.last = faces ∧ Tells sides m throws log ∧
      announced log = [] := by
  induction h with
  | nil => exact ⟨[], rfl, ⟨rfl, rfl, rfl, nofun, nofun⟩, rfl⟩
  | cons hface _ ih =>
    obtain ⟨t, rfl, ht, hann⟩ := hface.exists_throw
    obtain ⟨throws, rfl, hthrows, hann'⟩ := ih
    exact ⟨t :: throws, rfl, ht.append hthrows, by rw [announced_append, hann, hann']; rfl⟩

/-- What the announcements of an explosion say of its rounds: they are numbered, each has as many
dice as it was announced with, and these are the highest faces of the round before it. -/
structure Announces (sides pass pending : Nat) (rounds : List (List Throw)) (log : List Entry) :
    Prop where
  /-- The rounds are numbered. -/
  numbered : (announced log).map Prod.fst = List.range' pass rounds.length
  /-- So many dice are announced as are rolled. -/
  rolled : (announced log).map Prod.snd = rounds.map List.length
  /-- So many dice are announced as the round before has highest faces. -/
  owed : (announced log).map Prod.snd = (pending :: rounds.map (highest sides)).dropLast

/-- What stands before a log and behind it does not matter if it announces nothing. -/
theorem Announces.within {rounds : List (List Throw)}
    (h : Announces sides pass pending rounds log) (hbefore : announced l₁ = [])
    (hbehind : announced l₂ = []) : Announces sides pass pending rounds (l₁ ++ (log ++ l₂)) := by
  have heq : announced (l₁ ++ (log ++ l₂)) = announced log := by
    rw [announced_append, announced_append, hbefore, hbehind, List.nil_append, List.append_nil]
  obtain ⟨hnumbered, hrolled, howed⟩ := h
  rw [← heq] at hnumbered hrolled howed
  exact ⟨hnumbered, hrolled, howed⟩

/-- The course of an explosion tells of its rounds, each of them announced. -/
theorem Passes.exists_rounds (h : Passes sides m pass pending extra log) :
    ∃ rounds : List (List Throw), rounds.flatten.map Throw.last = extra ∧
      Tells sides m rounds.flatten log ∧ Announces sides pass pending rounds log := by
  induction h with
  | done => exact ⟨[], rfl, ⟨rfl, rfl, rfl, nofun, nofun⟩, ⟨rfl, rfl, rfl⟩⟩
  | @pass pass pending faces more l₁ l₂ _ hlen hfaces _ ih =>
    obtain ⟨round, rfl, hround, hann⟩ := exists_throws_of_series hfaces
    obtain ⟨rounds, rfl, hrounds, hann'⟩ := ih
    have hsplit : announced (.event (.exploding pass pending) :: (l₁ ++ l₂)) =
        (pass, pending) :: announced l₂ := by
      have hnone : announced (l₁ ++ l₂) = announced l₂ := by
        rw [announced_append, hann, List.nil_append]
      exact congrArg ((pass, pending) :: ·) hnone
    rw [List.length_map] at hlen
    refine ⟨round :: rounds, by simp, ?_, ?_, ?_, ?_⟩
    · exact (tells_events [.exploding pass pending] rfl).append (hround.append hrounds)
    · rw [hsplit, List.map_cons, hann'.numbered]
      rfl
    · rw [hsplit, List.map_cons, List.map_cons, hann'.rolled, hlen]
    · rw [hsplit, List.map_cons, hann'.owed]
      rfl

/-- The log of a roll tells of as many base dice as it asks for and of the rounds of its
explosion. -/
theorem SettlesAll.exists_throws {r : Roll} {settled : List Nat}
    (h : SettlesAll r sides settled log) :
    ∃ (base : List Throw) (rounds : List (List Throw)), base.length = r.count ∧
      (base ++ rounds.flatten).map Throw.last = settled ∧
      Tells sides r.modifiers (base ++ rounds.flatten) log ∧
      Announces sides 1 (highest sides base) rounds log := by
  cases h with
  | plain _ hlen hbase =>
    obtain ⟨base, rfl, htells, hann⟩ := exists_throws_of_series hbase
    rw [List.length_map] at hlen
    refine ⟨base, [], hlen, by simp, by simpa using htells, ?_⟩
    exact ⟨by rw [hann]; rfl, by rw [hann]; rfl, by rw [hann]; rfl⟩
  | @exploded base extra l₁ l₂ _ hlen hbase hextra =>
    obtain ⟨base, rfl, htells, hann⟩ := exists_throws_of_series hbase
    have hrounds : ∃ rounds : List (List Throw), rounds.flatten.map Throw.last = extra ∧
        Tells sides r.modifiers rounds.flatten l₂ ∧
          Announces sides 1 (highest sides base) rounds l₂ := by
      cases hextra with
      | flat => exact ⟨[], rfl, ⟨rfl, rfl, rfl, nofun, nofun⟩, ⟨rfl, rfl, rfl⟩⟩
      | refused => exact ⟨[], rfl, ⟨rfl, rfl, rfl, nofun, nofun⟩, ⟨rfl, rfl, rfl⟩⟩
      | passes _ _ hp => exact hp.exists_rounds
    obtain ⟨rounds, rfl, hrounds, hann'⟩ := hrounds
    rw [List.length_map] at hlen
    refine ⟨base, rounds, hlen, List.map_append,
      (htells.append hrounds).behind [.exploded _] rfl, ?_⟩
    rw [List.append_assoc]
    exact hann'.within hann rfl

end

end Tabletop
