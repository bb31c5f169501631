import Tabletop.Reading
import Tabletop.Text.Decimal
import Tabletop.Threshold

/-!
# Tokens of a modifier suffix

A suffix such as `dl1!` is a row of modifiers. `Modifier.read?` reads the modifier at the head of a
suffix; where none begins, `Token.next` passes over a single character, so reading a suffix never
fails. Each reader says how many characters it took and what follows them (`Head`); that these are
the characters at the head of the text, and at least one, is `Head.Of`. The text is expected in
lowercase.
-/

namespace Tabletop.Suffix

/-- An end of a row of dice. -/
inductive Extreme where
  /-- The dice with the lowest faces. -/
  | lowest
  /-- The dice with the highest faces. -/
  | highest
  deriving DecidableEq, Repr

/-- One modifier of a suffix. -/
inductive Modifier where
  /-- `!` -/
  | explode
  /-- `k` with `l` or `h` and a count. -/
  | keep (side : Extreme) (count : Nat)
  /-- `d` with `l` or `h` and a count. -/
  | drop (side : Extreme) (count : Nat)
  /-- `r` or `ro` with a comparison. -/
  | reroll (once : Bool) (rule : Threshold)
  /-- A comparison by itself. -/
  | success (rule : Threshold)
  deriving DecidableEq, Repr

/-! ## What stands at the head of a text -/

/-- What a reader finds at the head of a text. -/
structure Head (α : Type) where
  /-- What it means. -/
  value : α
  /-- How many characters it takes up. -/
  width : Nat
  /-- What follows. -/
  rest : List Char
  deriving DecidableEq, Repr

namespace Head

variable {α β : Type}

/-- The head with another meaning. -/
def map (f : α → β) (h : Head α) : Head β := ⟨f h.value, h.width, h.rest⟩

/-- The head with so many characters more in front. -/
def behind (n : Nat) (h : Head α) : Head α := { h with width := h.width + n }

/-- The text begins with what the head takes up, and that is something. -/
structure Of (h : Head α) (cs : List Char) : Prop where
  /-- It takes up a character at least. -/
  pos : 0 < h.width
  /-- It takes up no more than there is. -/
  le : h.width ≤ cs.length
  /-- The rest is what follows. -/
  drop : cs.drop h.width = h.rest

/-- What is made of a value does not change what it was read off. -/
theorem Of.map {h : Head α} {cs : List Char} (hof : h.Of cs) (f : α → β) : (h.map f).Of cs :=
  ⟨hof.pos, hof.le, hof.drop⟩

/-- What stands behind taken characters stands behind them in the whole. -/
theorem Of.behind {h : Head α} {cs : List Char} (hof : h.Of cs) (taken : List Char) :
    (h.behind taken.length).Of (taken ++ cs) where
  pos := Nat.lt_of_lt_of_le hof.pos (Nat.le_add_right ..)
  le := by
    have := hof.le
    simp only [Head.behind, List.length_append]
    omega
  drop := by simp only [Head.behind, ← hof.drop, Nat.add_comm h.width, List.drop_append]; simp

/-- The rest is shorter than the text. -/
theorem Of.length_rest_lt {h : Head α} {cs : List Char} (hof : h.Of cs) :
    h.rest.length < cs.length := by
  have := hof.pos
  have := hof.le
  simp only [← hof.drop, List.length_drop]
  omega

end Head

/-- The number at the head of a text. -/
def number? (cs : List Char) : Option (Head Nat) :=
  (Text.digits? cs).map fun (ds, rest) => ⟨Text.decimal ds, ds.length, rest⟩

/-- The comparison at the head of a text. -/
def comparison? (reading : Reading) (less more : Nat → Threshold) :
    List Char → Option (Head Threshold)
  | '<' :: cs => (number? cs).map fun h => (h.map fun n => less (reading.face n)).behind 1
  | '>' :: cs => (number? cs).map fun h => (h.map fun n => more (reading.face n)).behind 1
  | _ => none

/-- The count at the head of a text, with the side it is about. -/
def sided? (reading : Reading) (usual : Extreme) : List Char → Option (Head (Extreme × Nat))
  | 'l' :: cs => (number? cs).map fun h => (h.map fun n => (.lowest, reading.count n)).behind 1
  | 'h' :: cs => (number? cs).map fun h => (h.map fun n => (.highest, reading.count n)).behind 1
  | cs => (number? cs).map fun h => h.map fun n => (usual, reading.count n)

/-- The modifier at the head of a text. A count without a side keeps the highest dice and drops the
lowest. Rerolls are inclusive and successes strict. -/
def Modifier.read? (reading : Reading) : List Char → Option (Head Modifier)
  | '!' :: cs => some ⟨.explode, 1, cs⟩
  | 'd' :: cs =>
    (sided? reading .lowest cs).map fun h => (h.map fun (side, n) => .drop side n).behind 1
  | 'k' :: cs =>
    (sided? reading .highest cs).map fun h => (h.map fun (side, n) => .keep side n).behind 1
  | 'r' :: 'o' :: cs =>
    (comparison? reading .atMost .atLeast cs).map fun h => (h.map (.reroll true)).behind 2
  | 'r' :: cs =>
    (comparison? reading .atMost .atLeast cs).map fun h => (h.map (.reroll false)).behind 1
  | cs => (comparison? reading .below .above cs).map fun h => h.map .success

/-- What a suffix is made of. -/
inductive Token where
  /-- A complete modifier. -/
  | modifier (m : Modifier)
  /-- A character at which no modifier begins. -/
  | skipped (c : Char)
  deriving DecidableEq, Repr

/-- The token at the head of a text that begins with `c`. -/
def Token.next (reading : Reading) (c : Char) (cs : List Char) : Head Token :=
  match Modifier.read? reading (c :: cs) with
  | some h => h.map .modifier
  | none => ⟨.skipped c, 1, cs⟩

/-! ## Heads are heads of their texts -/

/-- A number is read off the front. -/
theorem number?_of {cs : List Char} {h : Head Nat} (hn : number? cs = some h) : h.Of cs := by
  obtain ⟨⟨ds, rest⟩, hd, rfl⟩ := Option.map_eq_some_iff.1 hn
  obtain ⟨rfl, hne⟩ := Text.eq_append_of_digits? hd
  exact ⟨List.length_pos_iff.2 hne, by simp, by simp⟩

/-- A comparison is read off the front. -/
theorem comparison?_of {reading : Reading} {less more : Nat → Threshold} {cs : List Char}
    {h : Head Threshold} (hc : comparison? reading less more cs = some h) : h.Of cs := by
  unfold comparison? at hc
  split at hc
  · obtain ⟨h, hn, rfl⟩ := Option.map_eq_some_iff.1 hc
    exact ((number?_of hn).map _).behind ['<']
  · obtain ⟨h, hn, rfl⟩ := Option.map_eq_some_iff.1 hc
    exact ((number?_of hn).map _).behind ['>']
  · cases hc

/-- A keep or drop count is read off the front. -/
theorem sided?_of {reading : Reading} {usual : Extreme} {cs : List Char}
    {h : Head (Extreme × Nat)} (hs : sided? reading usual cs = some h) : h.Of cs := by
  unfold sided? at hs
  split at hs
  · obtain ⟨h, hn, rfl⟩ := Option.map_eq_some_iff.1 hs
    exact ((number?_of hn).map _).behind ['l']
  · obtain ⟨h, hn, rfl⟩ := Option.map_eq_some_iff.1 hs
    exact ((number?_of hn).map _).behind ['h']
  · obtain ⟨h, hn, rfl⟩ := Option.map_eq_some_iff.1 hs
    exact (number?_of hn).map _

/-- A modifier is read off the front. -/
theorem Modifier.read?_of {reading : Reading} {cs : List Char} {h : Head Modifier}
    (hm : Modifier.read? reading cs = some h) : h.Of cs := by
  unfold Modifier.read? at hm
  split at hm
  · cases hm
    exact ⟨Nat.one_pos, by simp, rfl⟩
  · obtain ⟨h, hs, rfl⟩ := Option.map_eq_some_iff.1 hm
    exact ((sided?_of hs).map _).behind ['d']
  · obtain ⟨h, hs, rfl⟩ := Option.map_eq_some_iff.1 hm
    exact ((sided?_of hs).map _).behind ['k']
  · obtain ⟨h, hc, rfl⟩ := Option.map_eq_some_iff.1 hm
    exact ((comparison?_of hc).map _).behind ['r', 'o']
  · obtain ⟨h, hc, rfl⟩ := Option.map_eq_some_iff.1 hm
    exact ((comparison?_of hc).map _).behind ['r']
  · obtain ⟨h, hc, rfl⟩ := Option.map_eq_some_iff.1 hm
    exact (comparison?_of hc).map _

/-- A token is what the text begins with. -/
theorem Token.next_of (reading : Reading) (c : Char) (cs : List Char) :
    (Token.next reading c cs).Of (c :: cs) := by
  unfold Token.next
  split
  · next h => exact (Modifier.read?_of h).map _
  · exact ⟨Nat.one_pos, by simp, rfl⟩

end Tabletop.Suffix
