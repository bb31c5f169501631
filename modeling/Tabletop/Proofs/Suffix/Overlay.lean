import Tabletop.Proofs.Suffix.Spelling
import Tabletop.Proofs.Text.Plain
import Tabletop.Proofs.Text.Sigma
import Tabletop.Suffix.Scan

/-!
# Suffixes side by side

A suffix that is put together from two reads as the second laid over the first (`Modifiers.atop`),
whatever incomplete token the first ends with, if the second does not begin with a character that a
modifier can go on with (`Suffix.GoesOn`). A scan finds the same modifiers in the whole as in its
parts (`found_append`), since a modifier that began in the first part could reach the second only
over such a character; and what a suffix asks for depends on nothing but the modifiers found.
-/

namespace Tabletop

namespace Suffix

open Text (Numeral NoDigit medial)

/-! ## The modifiers found in a text -/

/-- The modifier that a token is, if it is one. -/
def Token.modifier? : Token → Option Modifier
  | .modifier m => some m
  | .skipped _ => none

/-- The modifiers that a scan of a text finds. -/
def found (reading : Reading) (cs : List Char) : List Modifier :=
  (scan reading cs).filterMap (·.token.modifier?)

section
variable {reading : Reading} {c : Char} {cs body rest : List Char} {m : Modifier}

/-- The places of the pieces do not matter. -/
theorem found_eq_scanFrom (reading : Reading) (start : Nat) (cs : List Char) :
    found reading cs = (scanFrom reading start cs).filterMap (·.token.modifier?) := by
  have hplace : ∀ i j, (scanFrom reading i cs).filterMap (·.token.modifier?) =
      (scanFrom reading j cs).filterMap (·.token.modifier?) := by
    intro i
    induction i, cs using scanFrom.induct reading with
    | case1 i => simp [scanFrom]
    | case2 i c cs head ih =>
      intro j
      rw [scanFrom, scanFrom, List.filterMap_cons, List.filterMap_cons, ih]
  exact hplace 0 start

/-- Nothing is found in nothing. -/
@[simp] theorem found_nil : found reading [] = [] := by simp [found, scan, scanFrom]

/-- A modifier at the front is found, and then those behind it. -/
theorem found_of_read? {h : Head Modifier} (hread : Modifier.read? reading cs = some h) :
    found reading cs = h.value :: found reading h.rest := by
  cases cs with
  | nil => simp [Modifier.read?, comparison?] at hread
  | cons c cs =>
    have hnext : Token.next reading c cs = h.map .modifier := by rw [Token.next, hread]
    rw [found, scan, scanFrom, hnext, found_eq_scanFrom reading (0 + h.width)]
    rfl

/-- Without one at the front the next character is tried. -/
theorem found_of_read?_eq_none (hread : Modifier.read? reading (c :: cs) = none) :
    found reading (c :: cs) = found reading cs := by
  have hnext : Token.next reading c cs = ⟨.skipped c, 1, cs⟩ := by rw [Token.next, hread]
  rw [found, scan, scanFrom, hnext, found_eq_scanFrom reading (0 + 1)]
  rfl

/-- Texts are changed without a modifier being found or lost, if reading looks past the change: it
leads from what reading leaves of a text to what reading leaves of the changed text. -/
theorem found_change (change : List Char → List Char)
    (hcons : ∀ c cs, ∃ d, change (c :: cs) = d :: change cs)
    (hread : ∀ c cs m width rest,
      Modifier.read? reading (change (c :: cs)) = some ⟨m, width, rest⟩ ↔
        ∃ rest', rest = change rest' ∧ Modifier.read? reading (c :: cs) = some ⟨m, width, rest'⟩) :
    found reading (change cs) = found reading cs ++ found reading (change []) := by
  induction hn : cs.length using Nat.strongRecOn generalizing cs with
  | _ n ih =>
    subst hn
    cases cs with
    | nil => rw [found_nil, List.nil_append]
    | cons c cs =>
      cases hpart : Modifier.read? reading (c :: cs) with
      | some h =>
        have hwhole := (hread c cs h.value h.width (change h.rest)).2 ⟨h.rest, rfl, hpart⟩
        rw [found_of_read? hpart, found_of_read? hwhole, List.cons_append,
          ih _ (Modifier.read?_of hpart).length_rest_lt rfl]
      | none =>
        have hwhole : Modifier.read? reading (change (c :: cs)) = none := by
          refine Option.eq_none_iff_forall_ne_some.2 fun h hsome => ?_
          obtain ⟨rest', -, hsome'⟩ := (hread c cs h.value h.width h.rest).1 hsome
          rw [hpart] at hsome'
          cases hsome'
        obtain ⟨d, hd⟩ := hcons c cs
        rw [hd] at hwhole
        rw [found_of_read?_eq_none hpart, hd, found_of_read?_eq_none hwhole,
          ih _ (Nat.lt_succ_self _) rfl]

/-! ## Seams -/

/-- A character that a modifier can go on with after its first one. -/
def GoesOn (c : Char) : Prop := c ∈ ['l', 'h', 'o', '<', '>'] ∨ c.isDigit = true

/-- All characters of a modifier but the first may be inside one. -/
theorem Modifier.Spelling.goesOn (h : Modifier.Spelling reading body m) :
    ∀ c ∈ body.tail, GoesOn c := by
  have hdigits : ∀ {ds : List Char}, Numeral ds → ∀ c ∈ ds, GoesOn c :=
    fun hds c hc => .inr (hds.digits c hc)
  cases h with
  | explode => nofun
  | drop hmark hds | keep hmark hds =>
    intro c hc
    rcases List.mem_append.1 hc with hc | hc
    · cases hmark <;> simp_all [GoesOn]
    · exact hdigits hds c hc
  | reroll hsign hds =>
    rw [List.tail_cons, List.forall_mem_cons]
    exact ⟨by cases hsign <;> simp [GoesOn], hdigits hds⟩
  | rerollOnce hsign hds =>
    rw [List.tail_cons, List.forall_mem_cons, List.forall_mem_cons]
    exact ⟨by simp [GoesOn], by cases hsign <;> simp [GoesOn], hdigits hds⟩
  | success hsign hds => exact hdigits hds

/-- Reading looks over a seam only if the text behind it begins with a character to go on with. -/
theorem read?_append_eq_some_iff {as bs : List Char} {width : Nat} (has : as ≠ [])
    (hbs : ∀ c ∈ bs.head?, ¬ GoesOn c) :
    Modifier.read? reading (as ++ bs) = some ⟨m, width, rest⟩ ↔
      ∃ rest', rest = rest' ++ bs ∧ Modifier.read? reading as = some ⟨m, width, rest'⟩ := by
  have hnoDigit : ∀ {cs : List Char}, NoDigit (cs ++ bs) ↔ NoDigit cs := by
    intro cs
    cases cs with
    | nil => exact iff_of_true (fun c hc => eq_false_of_ne_true fun h => hbs c hc (.inr h)) (by simp)
    | cons c cs => simp
  simp only [Modifier.read?_eq_some_iff]
  constructor
  · rintro ⟨body, hbody, hrest, heq, rfl⟩
    obtain ⟨taken, rfl, rfl⟩ | ⟨rest', rfl, rfl⟩ := List.append_eq_append_iff.1 heq
    · -- What the spelling takes from behind the seam are characters after its first.
      cases taken with
      | nil => exact ⟨[], rfl, _, by simpa using hbody, by simp, by simp⟩
      | cons c taken =>
        have hc := hbody.goesOn c (by simp [List.tail_append_of_ne_nil has])
        exact absurd hc (hbs c rfl)
    · exact ⟨rest', rfl, body, hbody, hrest.imp_right hnoDigit.1, rfl, rfl⟩
  · rintro ⟨rest', rfl, body, hbody, hrest, rfl, rfl⟩
    exact ⟨body, hbody, hrest.imp_right hnoDigit.2, List.append_assoc _ _ _, rfl⟩

/-- In a text put together from two, the modifiers of both are found. -/
theorem found_append {as bs : List Char} (hbs : ∀ c ∈ bs.head?, ¬ GoesOn c) :
    found reading (as ++ bs) = found reading as ++ found reading bs :=
  found_change (· ++ bs) (fun c _ => ⟨c, rfl⟩)
    fun c cs _ _ _ => read?_append_eq_some_iff (List.cons_ne_nil c cs) hbs

/-! ## Sigmas -/

/-- What may be inside a modifier is ASCII. -/
theorem GoesOn.ascii {c : Char} (h : GoesOn c) : c.toNat < 128 := by
  rcases h with h | h
  · have hall : ['l', 'h', 'o', '<', '>'].all (·.toNat < 128) = true := rfl
    exact of_decide_eq_true (List.all_eq_true.1 hall c h)
  · exact (Text.plain_of_isDigit h).ascii

/-- The form of a sigma does not matter to what may be inside a modifier. -/
theorem GoesOn.of_medial {c : Char} (h : GoesOn (medial c)) : GoesOn c := by
  by_cases hc : c = 'ς'
  · rw [hc] at h
    exact absurd h.ascii (by decide)
  · rwa [medial, if_neg hc] at h

/-- A modifier is spelled in ASCII. -/
theorem Modifier.Spelling.ascii (h : Modifier.Spelling reading body m) :
    ∀ c ∈ body, c.toNat < 128 := by
  have htail := fun c hc => (h.goesOn c hc).ascii
  cases h with
  | explode | drop | keep | reroll | rerollOnce => exact List.forall_mem_cons.2 ⟨by decide, htail⟩
  | success hsign => exact List.forall_mem_cons.2 ⟨by cases hsign <;> decide, htail⟩

/-- The form of a sigma does not make a digit. -/
theorem noDigit_map_medial : NoDigit (cs.map medial) ↔ NoDigit cs := by
  cases cs <;> simp

/-- The form of a sigma matters to no modifier. -/
theorem read?_medial_eq_some_iff {width : Nat} :
    Modifier.read? reading (cs.map medial) = some ⟨m, width, rest⟩ ↔
      ∃ rest', rest = rest'.map medial ∧ Modifier.read? reading cs = some ⟨m, width, rest'⟩ := by
  simp only [Modifier.read?_eq_some_iff]
  constructor
  · rintro ⟨body, hbody, hrest, heq, rfl⟩
    obtain ⟨body', rest', rfl, hsame, rfl⟩ := List.map_eq_append_iff.1 heq
    rw [Text.eq_of_map_medial hsame hbody.ascii]
    exact ⟨rest', rfl, body, hbody, hrest.imp_right noDigit_map_medial.1, rfl, rfl⟩
  · rintro ⟨rest', rfl, body, hbody, hrest, rfl, rfl⟩
    refine ⟨body, hbody, hrest.imp_right noDigit_map_medial.2, ?_, rfl⟩
    rw [List.map_append, Text.map_medial_of_ascii hbody.ascii]

/-- The form of a sigma does not matter to what is found. -/
theorem found_medial (cs : List Char) : found reading (cs.map medial) = found reading cs := by
  rw [found_change (List.map medial) (fun c _ => ⟨medial c, rfl⟩) fun _ _ _ _ _ =>
    read?_medial_eq_some_iff, List.map_nil, found_nil, List.append_nil]

end

end Suffix

namespace Modifiers

open Suffix (Modifier Token found)

/-! ## One suffix over another -/

/-- The modifiers `upper` laid over `lower`: what they do not set is left as it is below. Whether
rerolls are made once goes with the reroll rule. -/
def atop (upper lower : Modifiers) : Modifiers where
  explode := upper.explode || lower.explode
  keepHigh := upper.keepHigh.or lower.keepHigh
  keepLow := upper.keepLow.or lower.keepLow
  dropHigh := upper.dropHigh.or lower.dropHigh
  dropLow := upper.dropLow.or lower.dropLow
  reroll := upper.reroll.or lower.reroll
  rerollOnce := if upper.reroll.isSome then upper.rerollOnce else lower.rerollOnce
  success := upper.success.or lower.success

variable (upper lower : Modifiers)

/-- No modifiers on top of others leave these as they are. -/
@[simp] theorem default_atop : atop {} lower = lower := by simp [atop]

/-- Tokens set what lies above. -/
theorem set_atop (t : Token) : (upper.atop lower).set t = (upper.set t).atop lower := by
  rcases t with (_ | ⟨_ | _, n⟩ | ⟨_ | _, n⟩ | ⟨once, rule⟩ | rule) | c <;> rfl

/-- Tokens change the upper modifiers only. -/
theorem foldl_set_atop (tokens : List Token) :
    tokens.foldl set (upper.atop lower) = (tokens.foldl set upper).atop lower := by
  induction tokens generalizing upper with
  | nil => rfl
  | cons t tokens ih => rw [List.foldl_cons, List.foldl_cons, set_atop, ih]

/-- Later tokens are on top of earlier ones. -/
theorem ofTokens_append (before after : List Token) :
    ofTokens (before ++ after) = (ofTokens after).atop (ofTokens before) := by
  unfold ofTokens
  rw [List.foldl_append, ← foldl_set_atop, default_atop]

/-- What is passed over sets nothing. -/
theorem foldl_set_modifier? (m : Modifiers) (tokens : List Token) :
    ((tokens.filterMap Token.modifier?).map .modifier).foldl set m = tokens.foldl set m := by
  induction tokens generalizing m with
  | nil => rfl
  | cons t tokens ih =>
    cases t with
    | modifier md => exact ih (m.set (.modifier md))
    | skipped c => exact ih m

/-- A suffix asks for what the modifiers found in it ask for. -/
theorem ofSuffix_eq_found (reading : Reading) (cs : List Char) :
    ofSuffix reading cs = ofTokens ((found reading (Text.lower cs)).map .modifier) := by
  rw [ofSuffix, ofTokens, ← foldl_set_modifier?, List.filterMap_map]
  rfl

/-- A suffix that is put together from two reads as the second laid over the first, if in lowercase
the second does not begin with a character that a modifier can go on with. How the first ends does
not matter. -/
theorem parse_append (first second : String)
    (h : ∀ c ∈ (Text.lower second.toList).head?,
      c ∉ ['l', 'h', 'o', '<', '>'] ∧ c.isDigit = false) :
    parse (first ++ second) = (parse second).atop (parse first) := by
  have hseam : ∀ c ∈ ((Text.lower second.toList).map Text.medial).head?, ¬ Suffix.GoesOn c := by
    intro c hc hgoesOn
    rw [List.head?_map] at hc
    obtain ⟨d, hd, rfl⟩ := Option.map_eq_some_iff.1 hc
    obtain ⟨hletter, hdigit⟩ := h d hd
    rcases hgoesOn.of_medial with hmem | hisDigit
    · exact hletter hmem
    · simp [hdigit] at hisDigit
  have hfound : found .saturating (Text.lower (first ++ second).toList) =
      found .saturating (Text.lower first.toList) ++
        found .saturating (Text.lower second.toList) := by
    rw [String.toList_append, ← Suffix.found_medial, Text.medial_lower_append,
      Suffix.found_append hseam, Suffix.found_medial, Suffix.found_medial]
  simp only [parse, ofSuffix_eq_found]
  rw [hfound, List.map_append, ofTokens_append]

/-- A reroll rule without its number is followed by a Kelvin sign, which is a `k` in lowercase. -/
theorem parse_append_kelvin :
    (∀ c ∈ (Text.lower "\u212a1>3".toList).head?,
      c ∉ ['l', 'h', 'o', '<', '>'] ∧ c.isDigit = false) ∧
    parse ("ro<2!kΣRO<" ++ "\u212a1>3") =
      { explode := true, keepHigh := some 1, reroll := some (.atMost 2), rerollOnce := true,
        success := some (.above 3) } := by
  have h : ∀ c ∈ (Text.lower "\u212a1>3".toList).head?,
      c ∉ ['l', 'h', 'o', '<', '>'] ∧ c.isDigit = false := by
    have hhead : (Text.lower "\u212a1>3".toList).head? = some 'k' := by decide +kernel
    rw [hhead]
    rintro _ ⟨⟩
    decide
  exact ⟨h, (parse_append _ _ h).trans (by decide +kernel)⟩

end Modifiers

end Tabletop
