import Tabletop.Proofs.Text.Digits
import Tabletop.Suffix.Token

/-!
# The spelling of a modifier

`Modifier.Spelling` says which texts spell which modifier, one rule per form, and nothing about how
a suffix is read. `Modifier.read?_eq_some_iff` says that reading agrees with it: a modifier is read
at the head of a text exactly if a spelling of it stands there and, where the spelling ends in a
number, that number is as long as it can be.
-/

namespace Tabletop.Suffix

open Text (Numeral NoDigit decimal)

/-- The letter for a side of the dice; without a letter the usual side is meant. -/
inductive SideMark (usual : Extreme) : List Char → Extreme → Prop
  | none : SideMark usual [] usual
  | lowest : SideMark usual ['l'] .lowest
  | highest : SideMark usual ['h'] .highest

/-- The sign of a comparison. -/
inductive Sign (less more : Nat → Threshold) : Char → (Nat → Threshold) → Prop
  | less : Sign less more '<' less
  | more : Sign less more '>' more

/-- The texts that spell a modifier. Rerolls are inclusive and successes strict. -/
inductive Modifier.Spelling (reading : Reading) : List Char → Modifier → Prop
  | explode : Spelling reading ['!'] .explode
  | drop {mark ds : List Char} {side : Extreme} : SideMark .lowest mark side → Numeral ds →
      Spelling reading ('d' :: (mark ++ ds)) (.drop side (reading.count (decimal ds)))
  | keep {mark ds : List Char} {side : Extreme} : SideMark .highest mark side → Numeral ds →
      Spelling reading ('k' :: (mark ++ ds)) (.keep side (reading.count (decimal ds)))
  | reroll {sign : Char} {ds : List Char} {rule : Nat → Threshold} :
      Sign .atMost .atLeast sign rule → Numeral ds →
      Spelling reading ('r' :: sign :: ds) (.reroll false (rule (reading.face (decimal ds))))
  | rerollOnce {sign : Char} {ds : List Char} {rule : Nat → Threshold} :
      Sign .atMost .atLeast sign rule → Numeral ds →
      Spelling reading ('r' :: 'o' :: sign :: ds) (.reroll true (rule (reading.face (decimal ds))))
  | success {sign : Char} {ds : List Char} {rule : Nat → Threshold} :
      Sign .below .above sign rule → Numeral ds →
      Spelling reading (sign :: ds) (.success (rule (reading.face (decimal ds))))

/-! ## Numbers, comparisons and counts -/

section
variable {reading : Reading} {cs ds rest : List Char}

/-- Digits are read as a number up to where no digit follows. -/
theorem number?_append (hds : Numeral ds) (hrest : NoDigit rest) :
    number? (ds ++ rest) = some ⟨decimal ds, ds.length, rest⟩ := by
  unfold number?
  rw [Text.digits?_append hds hrest]
  rfl

/-- A number is read off digits that no digit follows. -/
theorem exists_of_number? {h : Head Nat} (hn : number? cs = some h) :
    ∃ ds, Numeral ds ∧ NoDigit h.rest ∧ cs = ds ++ h.rest ∧
      h = ⟨decimal ds, ds.length, h.rest⟩ := by
  obtain ⟨⟨ds, rest⟩, hd, rfl⟩ := Option.map_eq_some_iff.1 hn
  obtain ⟨hcs, hds, hrest⟩ := Text.digits?_eq_some_iff.1 hd
  exact ⟨ds, hds, hrest, hcs, rfl⟩

/-- A sign and digits are read as a comparison. -/
theorem Sign.comparison?_append {less more rule : Nat → Threshold} {sign : Char}
    (hs : Sign less more sign rule) (hds : Numeral ds) (hrest : NoDigit rest) :
    comparison? reading less more (sign :: (ds ++ rest)) =
      some ⟨rule (reading.face (decimal ds)), ds.length + 1, rest⟩ := by
  cases hs with
  | less => rw [comparison?, number?_append hds hrest]; rfl
  | more => rw [comparison?, number?_append hds hrest]; rfl

/-- A comparison is read off a sign and digits. -/
theorem exists_of_comparison? {less more : Nat → Threshold} {h : Head Threshold}
    (hc : comparison? reading less more cs = some h) :
    ∃ sign rule ds, Sign less more sign rule ∧ Numeral ds ∧ NoDigit h.rest ∧
      cs = sign :: (ds ++ h.rest) ∧
      h = ⟨rule (reading.face (decimal ds)), ds.length + 1, h.rest⟩ := by
  unfold comparison? at hc
  split at hc
  · obtain ⟨h, hn, rfl⟩ := Option.map_eq_some_iff.1 hc
    obtain ⟨ds, hds, hrest, rfl, he⟩ := exists_of_number? hn
    rw [he]
    exact ⟨'<', less, ds, .less, hds, hrest, rfl, rfl⟩
  · obtain ⟨h, hn, rfl⟩ := Option.map_eq_some_iff.1 hc
    obtain ⟨ds, hds, hrest, rfl, he⟩ := exists_of_number? hn
    rw [he]
    exact ⟨'>', more, ds, .more, hds, hrest, rfl, rfl⟩
  · cases hc

/-- Without a letter for the side the count begins with a digit, which is no such letter. -/
theorem SideMark.sided?_append {usual side : Extreme} {mark : List Char}
    (hs : SideMark usual mark side) (hds : Numeral ds) (hrest : NoDigit rest) :
    sided? reading usual (mark ++ ds ++ rest) =
      some ⟨(side, reading.count (decimal ds)), (mark ++ ds).length, rest⟩ := by
  cases hs with
  | none =>
    rw [List.nil_append, sided?, number?_append hds hrest]
    · rfl
    · rintro cs hcs
      exact hds.not_noDigit rest (by simp [hcs])
    · rintro cs hcs
      exact hds.not_noDigit rest (by simp [hcs])
  | lowest => rw [List.append_assoc, List.singleton_append, sided?, number?_append hds hrest]; rfl
  | highest => rw [List.append_assoc, List.singleton_append, sided?, number?_append hds hrest]; rfl

/-- A keep or drop count is read off the mark of a side and digits. -/
theorem exists_of_sided? {usual : Extreme} {h : Head (Extreme × Nat)}
    (hs : sided? reading usual cs = some h) :
    ∃ mark side ds, SideMark usual mark side ∧ Numeral ds ∧ NoDigit h.rest ∧
      cs = mark ++ ds ++ h.rest ∧
      h = ⟨(side, reading.count (decimal ds)), (mark ++ ds).length, h.rest⟩ := by
  unfold sided? at hs
  split at hs
  · obtain ⟨h, hn, rfl⟩ := Option.map_eq_some_iff.1 hs
    obtain ⟨ds, hds, hrest, rfl, he⟩ := exists_of_number? hn
    rw [he]
    exact ⟨['l'], .lowest, ds, .lowest, hds, hrest, rfl, rfl⟩
  · obtain ⟨h, hn, rfl⟩ := Option.map_eq_some_iff.1 hs
    obtain ⟨ds, hds, hrest, rfl, he⟩ := exists_of_number? hn
    rw [he]
    exact ⟨['h'], .highest, ds, .highest, hds, hrest, rfl, rfl⟩
  · obtain ⟨h, hn, rfl⟩ := Option.map_eq_some_iff.1 hs
    obtain ⟨ds, hds, hrest, rfl, he⟩ := exists_of_number? hn
    rw [he]
    exact ⟨[], usual, ds, .none, hds, hrest, rfl, rfl⟩

end

/-! ## Modifiers -/

namespace Modifier

variable {reading : Reading} {cs body rest : List Char} {m : Modifier}

/-- A spelling begins with something other than a digit. -/
theorem Spelling.noDigit_append (h : Spelling reading body m) (rest : List Char) :
    NoDigit (body ++ rest) := by
  cases h with
  | explode | drop | keep | reroll | rerollOnce => simp
  | success hs => cases hs <;> simp

/-- A spelling takes up a character at least. -/
theorem Spelling.ne_nil (h : Spelling reading body m) : body ≠ [] := by
  cases h <;> simp

/-- A modifier is read where it is spelled, if no digit follows. -/
theorem Spelling.read?_append (h : Spelling reading body m) (hrest : NoDigit rest) :
    read? reading (body ++ rest) = some ⟨m, body.length, rest⟩ := by
  cases h with
  | explode => rfl
  | drop hs hds =>
    rw [List.cons_append, read?, hs.sided?_append hds hrest]
    rfl
  | keep hs hds =>
    rw [List.cons_append, read?, hs.sided?_append hds hrest]
    rfl
  | rerollOnce hs hds =>
    simp only [List.cons_append, read?, hs.comparison?_append hds hrest]
    rfl
  | @reroll sign ds rule hs hds =>
    have ho : ∀ cs, sign :: (ds ++ rest) = 'o' :: cs → False := by
      cases hs <;> simp
    rw [List.cons_append, List.cons_append, read?, hs.comparison?_append hds hrest]
    · rfl
    · exact ho
  | success hs hds =>
    cases hs with
    | less => rw [List.cons_append, read?, Sign.less.comparison?_append hds hrest] <;> simp [Head.map]
    | more => rw [List.cons_append, read?, Sign.more.comparison?_append hds hrest] <;> simp [Head.map]

/-- What is read is spelled there; only an explosion may have a digit after it. -/
theorem exists_of_read? {h : Head Modifier} (hm : read? reading cs = some h) :
    ∃ body, Spelling reading body h.value ∧ (h.value = .explode ∨ NoDigit h.rest) ∧
      cs = body ++ h.rest ∧ h.width = body.length := by
  unfold read? at hm
  split at hm
  · cases hm
    exact ⟨['!'], .explode, .inl rfl, rfl, rfl⟩
  · obtain ⟨h, hs, rfl⟩ := Option.map_eq_some_iff.1 hm
    obtain ⟨mark, side, ds, hmark, hds, hrest, rfl, he⟩ := exists_of_sided? hs
    rw [he]
    exact ⟨_, .drop hmark hds, .inr hrest, rfl, rfl⟩
  · obtain ⟨h, hs, rfl⟩ := Option.map_eq_some_iff.1 hm
    obtain ⟨mark, side, ds, hmark, hds, hrest, rfl, he⟩ := exists_of_sided? hs
    rw [he]
    exact ⟨_, .keep hmark hds, .inr hrest, rfl, rfl⟩
  · obtain ⟨h, hc, rfl⟩ := Option.map_eq_some_iff.1 hm
    obtain ⟨sign, rule, ds, hsign, hds, hrest, rfl, he⟩ := exists_of_comparison? hc
    rw [he]
    exact ⟨_, .rerollOnce hsign hds, .inr hrest, rfl, rfl⟩
  · obtain ⟨h, hc, rfl⟩ := Option.map_eq_some_iff.1 hm
    obtain ⟨sign, rule, ds, hsign, hds, hrest, rfl, he⟩ := exists_of_comparison? hc
    rw [he]
    exact ⟨_, .reroll hsign hds, .inr hrest, rfl, rfl⟩
  · obtain ⟨h, hc, rfl⟩ := Option.map_eq_some_iff.1 hm
    obtain ⟨sign, rule, ds, hsign, hds, hrest, rfl, he⟩ := exists_of_comparison? hc
    rw [he]
    exact ⟨_, .success hsign hds, .inr hrest, rfl, rfl⟩

/-- A modifier is read exactly where a spelling of it stands, with all the digits that follow. -/
theorem read?_eq_some_iff {width : Nat} :
    read? reading cs = some ⟨m, width, rest⟩ ↔
      ∃ body, Spelling reading body m ∧ (m = .explode ∨ NoDigit rest) ∧ cs = body ++ rest ∧
        width = body.length := by
  constructor
  · intro h
    exact exists_of_read? h
  · rintro ⟨body, hb, rfl | hrest, rfl, rfl⟩
    · cases hb
      rfl
    · exact hb.read?_append hrest

/-- A spelling can be made longer until no digit follows. Its number may be another one then, but it
spells a modifier still. -/
theorem Spelling.exists_maximal (h : Spelling reading body m) (rest : List Char) :
    ∃ m' more after, Spelling reading (body ++ more) m' ∧ (m' = .explode ∨ NoDigit after) ∧
      rest = more ++ after := by
  cases h with
  | explode => exact ⟨.explode, [], rest, .explode, .inl rfl, rfl⟩
  | drop hs hds =>
    obtain ⟨more, after, hnum, hafter, rfl⟩ := hds.exists_maximal rest
    exact ⟨_, more, after, by simpa using Spelling.drop hs hnum, .inr hafter, rfl⟩
  | keep hs hds =>
    obtain ⟨more, after, hnum, hafter, rfl⟩ := hds.exists_maximal rest
    exact ⟨_, more, after, by simpa using Spelling.keep hs hnum, .inr hafter, rfl⟩
  | reroll hs hds =>
    obtain ⟨more, after, hnum, hafter, rfl⟩ := hds.exists_maximal rest
    exact ⟨_, more, after, .reroll hs hnum, .inr hafter, rfl⟩
  | rerollOnce hs hds =>
    obtain ⟨more, after, hnum, hafter, rfl⟩ := hds.exists_maximal rest
    exact ⟨_, more, after, .rerollOnce hs hnum, .inr hafter, rfl⟩
  | success hs hds =>
    obtain ⟨more, after, hnum, hafter, rfl⟩ := hds.exists_maximal rest
    exact ⟨_, more, after, .success hs hnum, .inr hafter, rfl⟩

/-- Something is read exactly where a text begins with a spelling. -/
theorem exists_read?_iff :
    (∃ h, read? reading cs = some h) ↔ ∃ m body, Spelling reading body m ∧ body <+: cs := by
  constructor
  · rintro ⟨h, hread⟩
    obtain ⟨body, hbody, -, rfl, -⟩ := exists_of_read? hread
    exact ⟨h.value, body, hbody, List.prefix_append _ _⟩
  · rintro ⟨m, body, hbody, rest, rfl⟩
    obtain ⟨m', more, after, hspell, hafter, rfl⟩ := hbody.exists_maximal rest
    refine ⟨⟨m', (body ++ more).length, after⟩, read?_eq_some_iff.2 ⟨body ++ more, hspell, hafter, ?_⟩⟩
    exact ⟨(List.append_assoc _ _ _).symm, rfl⟩

end Modifier

end Tabletop.Suffix
