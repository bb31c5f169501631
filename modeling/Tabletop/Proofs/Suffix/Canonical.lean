import Tabletop.Proofs.Suffix.Scan
import Tabletop.Proofs.Text.Plain
import Tabletop.Proofs.Widths

/-!
# Canonical modifiers are the ones a suffix can express

The modifiers that can be read from a suffix (`Expressible`) are the canonical ones with numbers
within their widths. They are read back from their written form: it is a row of spelled modifiers
(`Modifiers.settings`), which a scan cuts where they meet, and each sets its own field.
`parse_render_iff_canonical` is the round trip together with its converse.
-/

namespace Tabletop

namespace Suffix

open Text (Plain)

/-! ## Single modifiers -/

/-- A modifier that a suffix can express. -/
def Modifier.Expressible : Modifier → Prop
  | .explode => True
  | .keep _ n | .drop _ n => n ≤ maxCount
  | .reroll _ rule => (rule = .atMost rule.bound ∨ rule = .atLeast rule.bound) ∧
    rule.bound ≤ maxFace
  | .success rule => (rule = .below rule.bound ∨ rule = .above rule.bound) ∧
    rule.bound ≤ maxFace

/-- The written form of a side of the dice. -/
def Extreme.written : Extreme → List Char
  | .lowest => ['l']
  | .highest => ['h']

/-- The written form of a modifier, with the side of the dice spelled out. -/
def Modifier.written : Modifier → List Char
  | .explode => ['!']
  | .drop side n => 'd' :: (side.written ++ (toString n).toList)
  | .keep side n => 'k' :: (side.written ++ (toString n).toList)
  | .reroll false rule => 'r' :: rule.render.toList
  | .reroll true rule => 'r' :: 'o' :: rule.render.toList
  | .success rule => rule.render.toList

/-- The side of a keep or drop count is written so that it is read back. -/
theorem Extreme.sideMark_written (usual : Extreme) : ∀ side : Extreme,
    SideMark usual side.written side
  | .lowest => .lowest
  | .highest => .highest

/-- A number within its width is read as it is written. -/
theorem count_written {n : Nat} (h : n ≤ maxCount) :
    Reading.saturating.count (Text.decimal (toString n).toList) = n := by
  rw [Text.decimal_toString]
  exact Nat.min_eq_right h

/-- A bound within its width is read as it is written. -/
theorem face_written {n : Nat} (h : n ≤ maxFace) :
    Reading.saturating.face (Text.decimal (toString n).toList) = n := by
  rw [Text.decimal_toString]
  exact Nat.min_eq_right h

/-- The written form of a comparison spells it. -/
theorem exists_sign {less more : Nat → Threshold} {rule : Threshold}
    (hless : ∀ n, (less n).render = "<" ++ toString n)
    (hmore : ∀ n, (more n).render = ">" ++ toString n)
    (h : rule = less rule.bound ∨ rule = more rule.bound) :
    ∃ sign make, Sign less more sign make ∧ rule = make rule.bound ∧
      rule.render.toList = sign :: (toString rule.bound).toList := by
  rcases h with h | h
  · have hr : rule.render = "<" ++ toString rule.bound := by rw [← hless, ← h]
    exact ⟨'<', less, .less, h, by rw [hr, String.toList_append]; rfl⟩
  · have hr : rule.render = ">" ++ toString rule.bound := by rw [← hmore, ← h]
    exact ⟨'>', more, .more, h, by rw [hr, String.toList_append]; rfl⟩

/-- The written form of an expressible modifier spells it. -/
theorem Modifier.Expressible.spelling_written {m : Modifier} (h : m.Expressible) :
    m.Spelling .saturating m.written := by
  cases m with
  | explode => exact .explode
  | drop side n =>
    have hs : Spelling .saturating _ _ :=
      .drop (Extreme.sideMark_written .lowest side) (Text.numeral_toString n)
    rwa [count_written h] at hs
  | keep side n =>
    have hs : Spelling .saturating _ _ :=
      .keep (Extreme.sideMark_written .highest side) (Text.numeral_toString n)
    rwa [count_written h] at hs
  | reroll once rule =>
    obtain ⟨sign, more, hsign, hrule, hwritten⟩ :=
      exists_sign (fun _ => rfl) (fun _ => rfl) h.1
    have hface := face_written h.2
    cases once with
    | false =>
      have hs : Spelling .saturating _ _ := .reroll hsign (Text.numeral_toString rule.bound)
      rwa [hface, ← hrule, ← hwritten] at hs
    | true =>
      have hs : Spelling .saturating _ _ := .rerollOnce hsign (Text.numeral_toString rule.bound)
      rwa [hface, ← hrule, ← hwritten] at hs
  | success rule =>
    obtain ⟨sign, more, hsign, hrule, hwritten⟩ :=
      exists_sign (fun _ => rfl) (fun _ => rfl) h.1
    have hs : Spelling .saturating _ _ := .success hsign (Text.numeral_toString rule.bound)
    rwa [face_written h.2, ← hrule, ← hwritten] at hs

/-- What is spelled is expressible: a number too large stands for the largest of its width. -/
theorem Modifier.Spelling.expressible {body : List Char} {m : Modifier}
    (h : m.Spelling .saturating body) : m.Expressible := by
  cases h with
  | explode => trivial
  | drop | keep => exact Nat.min_le_left ..
  | reroll hs | rerollOnce hs =>
    cases hs with
    | less => exact ⟨.inl rfl, Nat.min_le_left ..⟩
    | more => exact ⟨.inr rfl, Nat.min_le_left ..⟩
  | success hs =>
    cases hs with
    | less => exact ⟨.inl rfl, Nat.min_le_left ..⟩
    | more => exact ⟨.inr rfl, Nat.min_le_left ..⟩

/-- The written form of a comparison is its sign and its number. -/
theorem toList_render_threshold (rule : Threshold) :
    ∃ sign, (sign = '<' ∨ sign = '>') ∧
      rule.render.toList = sign :: (toString rule.bound).toList := by
  cases rule with
  | atMost n | below n => exact ⟨'<', .inl rfl, String.toList_append⟩
  | atLeast n | above n => exact ⟨'>', .inr rfl, String.toList_append⟩

/-- A written threshold is made of plain characters. -/
theorem plain_render_threshold (rule : Threshold) : ∀ c ∈ rule.render.toList, Plain c := by
  obtain ⟨sign, hsign, hrule⟩ := toList_render_threshold rule
  rw [hrule, List.forall_mem_cons]
  refine ⟨?_, Text.plain_toString _⟩
  rcases hsign with rfl | rfl <;> decide

/-- What is written for a modifier has plain characters only. -/
theorem Modifier.plain_written (m : Modifier) : ∀ c ∈ m.written, Plain c := by
  have side (side : Extreme) : ∀ c ∈ side.written, Plain c := by
    cases side <;> simp [Extreme.written] <;> decide
  cases m with
  | explode => simp [written]; decide
  | drop s n | keep s n =>
    rw [written, List.forall_mem_cons, List.forall_mem_append]
    exact ⟨by decide, side s, Text.plain_toString n⟩
  | success rule => exact plain_render_threshold rule
  | reroll once rule =>
    have hrule := plain_render_threshold rule
    cases once with
    | false =>
      rw [written, List.forall_mem_cons]
      exact ⟨by decide, hrule⟩
    | true =>
      rw [written, List.forall_mem_cons, List.forall_mem_cons]
      exact ⟨by decide, by decide, hrule⟩

/-- What is written for a modifier begins with a mark, not with a digit or a sign. -/
theorem Modifier.exists_head_written (m : Modifier) :
    ∃ c cs, m.written = c :: cs ∧ c ∈ ['!', 'd', 'k', 'r', '<', '>'] := by
  cases m with
  | explode => exact ⟨_, _, rfl, by decide⟩
  | drop | keep => exact ⟨_, _, rfl, by decide⟩
  | reroll once rule => cases once <;> exact ⟨_, _, rfl, by decide⟩
  | success rule =>
    obtain ⟨sign, hsign, hrule⟩ := toList_render_threshold rule
    exact ⟨sign, _, hrule, by rcases hsign with rfl | rfl <;> decide⟩

end Suffix

namespace Modifiers

open Suffix (Modifier Token)

/-! ## Reading sets expressible modifiers -/

/-- Modifiers that a suffix can express. -/
structure Expressible (m : Modifiers) : Prop where
  canonical : m.Canonical
  fits : m.Fits

/-- No modifiers at all can be written. -/
theorem expressible_default : Expressible {} where
  canonical := ⟨nofun, nofun, nofun⟩
  fits := ⟨nofun, nofun, nofun, nofun, nofun, nofun⟩

/-- Setting one more expressible modifier keeps the modifiers expressible. A reroll sets its rule
and whether it is followed once together, so the one never stands without the other. -/
theorem Expressible.set {m : Modifiers} (h : m.Expressible) {t : Token}
    (ht : ∀ md, t = .modifier md → md.Expressible) : (m.set t).Expressible := by
  obtain ⟨hc, hf⟩ := h
  cases t with
  | skipped c => exact ⟨hc, hf⟩
  | modifier md =>
    have hmd := ht md rfl
    cases md with
    | explode => exact ⟨⟨hc.reroll, hc.success, hc.once⟩, ⟨hf.1, hf.2, hf.3, hf.4, hf.5, hf.6⟩⟩
    | keep side n =>
      have hn : ∀ k ∈ some n, k ≤ maxCount := fun k hk => Option.some.inj hk ▸ hmd
      cases side with
      | lowest => exact ⟨⟨hc.reroll, hc.success, hc.once⟩, { hf with keepLow := hn }⟩
      | highest => exact ⟨⟨hc.reroll, hc.success, hc.once⟩, { hf with keepHigh := hn }⟩
    | drop side n =>
      have hn : ∀ k ∈ some n, k ≤ maxCount := fun k hk => Option.some.inj hk ▸ hmd
      cases side with
      | lowest => exact ⟨⟨hc.reroll, hc.success, hc.once⟩, { hf with dropLow := hn }⟩
      | highest => exact ⟨⟨hc.reroll, hc.success, hc.once⟩, { hf with dropHigh := hn }⟩
    | reroll once rule =>
      refine ⟨⟨fun t ht => Option.some.inj ht ▸ hmd.1, hc.success, fun _ => rfl⟩, ?_⟩
      exact { hf with reroll := fun t ht => Option.some.inj ht ▸ hmd.2 }
    | success rule =>
      refine ⟨⟨hc.reroll, fun t ht => Option.some.inj ht ▸ hmd.1, hc.once⟩, ?_⟩
      exact { hf with success := fun t ht => Option.some.inj ht ▸ hmd.2 }

/-- Modifiers that are set by expressible tokens can be written. -/
theorem Expressible.foldl_set {tokens : List Token} {m : Modifiers} (h : m.Expressible)
    (ht : ∀ md, .modifier md ∈ tokens → md.Expressible) :
    (tokens.foldl Modifiers.set m).Expressible := by
  induction tokens generalizing m with
  | nil => exact h
  | cons t tokens ih =>
    refine ih (h.set fun md hmd => ht md ?_) fun md hmd => ht md (.tail _ hmd)
    rw [← hmd]
    exact .head _

/-- Whatever a suffix is, the modifiers read from it are expressible. -/
theorem expressible_parse (text : String) : (parse text).Expressible := by
  refine expressible_default.foldl_set fun md hmd => ?_
  obtain ⟨body, hbody⟩ := Suffix.exists_spelling_of_mem_scanFrom hmd
  exact hbody.expressible

/-! ## The written form is read back -/

/-- The settings of modifiers in the order in which they are written. -/
def settings (m : Modifiers) : List Modifier :=
  (if m.explode then [.explode] else [])
    ++ (m.dropLow.map (Modifier.drop .lowest)).toList
    ++ (m.dropHigh.map (Modifier.drop .highest)).toList
    ++ (m.keepLow.map (Modifier.keep .lowest)).toList
    ++ (m.keepHigh.map (Modifier.keep .highest)).toList
    ++ (m.reroll.map (Modifier.reroll m.rerollOnce)).toList
    ++ (m.success.map Modifier.success).toList

/-- The written form of modifiers is that of their settings, one after the other. -/
theorem toList_render (m : Modifiers) : m.render.toList = m.settings.flatMap Modifier.written := by
  have count (mark : String) (make : Nat → Modifier) (n? : Option Nat)
      (h : ∀ n, (make n).written = mark.toList ++ (toString n).toList) :
      (renderCount mark n?).toList = (n?.map make).toList.flatMap Modifier.written := by
    cases n? <;> simp [renderCount, h]
  have reroll (once : Bool) (rule? : Option Threshold) :
      (renderReroll once rule?).toList =
        (rule?.map (Modifier.reroll once)).toList.flatMap Modifier.written := by
    cases rule? with
    | none => rfl
    | some rule => cases once <;> simp [renderReroll, Modifier.written]
  unfold render settings
  simp only [String.toList_append, List.flatMap_append]
  rw [count "dl" (.drop .lowest) m.dropLow fun _ => rfl,
    count "dh" (.drop .highest) m.dropHigh fun _ => rfl,
    count "kl" (.keep .lowest) m.keepLow fun _ => rfl,
    count "kh" (.keep .highest) m.keepHigh fun _ => rfl, reroll]
  congr 1
  · cases m.explode <;> rfl
  · cases m.success <;> simp [Modifier.written]

/-- The written form of any modifiers has plain characters only. -/
theorem plain_render (m : Modifiers) : ∀ c ∈ m.render.toList, Text.Plain c := by
  rw [toList_render]
  intro c hc
  obtain ⟨md, -, hc⟩ := List.mem_flatMap.1 hc
  exact md.plain_written c hc

/-- The written form of any modifiers, if there is one, begins with the mark of a modifier. -/
theorem head_render (m : Modifiers) :
    ∀ c ∈ m.render.toList.head?, c ∈ ['!', 'd', 'k', 'r', '<', '>'] := by
  rw [toList_render]
  cases m.settings with
  | nil => nofun
  | cons md rest =>
    obtain ⟨c, cs, hmd, hc⟩ := md.exists_head_written
    rw [List.flatMap_cons, hmd]
    exact fun _ h => Option.some.inj h ▸ hc

/-- The settings of expressible modifiers are expressible. -/
theorem Expressible.settings {m : Modifiers} (h : m.Expressible) :
    ∀ md ∈ m.settings, md.Expressible := by
  obtain ⟨hc, hf⟩ := h
  intro md hmd
  simp only [Modifiers.settings, List.mem_append, Option.mem_toList, Option.map_eq_some_iff] at hmd
  rcases hmd with
    (((((hmd | ⟨n, hn, rfl⟩) | ⟨n, hn, rfl⟩) | ⟨n, hn, rfl⟩) | ⟨n, hn, rfl⟩) | ⟨rule, hr, rfl⟩) |
    ⟨rule, hr, rfl⟩
  · split at hmd
    · cases List.mem_singleton.1 hmd
      trivial
    · cases hmd
  · exact hf.dropLow n hn
  · exact hf.dropHigh n hn
  · exact hf.keepLow n hn
  · exact hf.keepHigh n hn
  · exact ⟨hc.reroll rule hr, hf.reroll rule hr⟩
  · exact ⟨hc.success rule hr, hf.success rule hr⟩

/-- The settings of modifiers set these modifiers, if rerolling once comes with a rule. -/
theorem ofTokens_settings {m : Modifiers} (h : m.rerollOnce = true → m.reroll.isSome = true) :
    ofTokens (m.settings.map .modifier) = m := by
  have dropLow (n? : Option Nat) (m : Modifiers) :
      ((n?.map (Modifier.drop .lowest)).toList.map Token.modifier).foldl Modifiers.set m =
        { m with dropLow := n?.or m.dropLow } := by cases n? <;> rfl
  have dropHigh (n? : Option Nat) (m : Modifiers) :
      ((n?.map (Modifier.drop .highest)).toList.map Token.modifier).foldl Modifiers.set m =
        { m with dropHigh := n?.or m.dropHigh } := by cases n? <;> rfl
  have keepLow (n? : Option Nat) (m : Modifiers) :
      ((n?.map (Modifier.keep .lowest)).toList.map Token.modifier).foldl Modifiers.set m =
        { m with keepLow := n?.or m.keepLow } := by cases n? <;> rfl
  have keepHigh (n? : Option Nat) (m : Modifiers) :
      ((n?.map (Modifier.keep .highest)).toList.map Token.modifier).foldl Modifiers.set m =
        { m with keepHigh := n?.or m.keepHigh } := by cases n? <;> rfl
  have success (rule? : Option Threshold) (m : Modifiers) :
      ((rule?.map Modifier.success).toList.map Token.modifier).foldl Modifiers.set m =
        { m with success := rule?.or m.success } := by cases rule? <;> rfl
  have reroll (once : Bool) (rule? : Option Threshold) (m : Modifiers) :
      ((rule?.map (Modifier.reroll once)).toList.map Token.modifier).foldl Modifiers.set m =
        { m with
          reroll := rule?.or m.reroll
          rerollOnce := if rule?.isSome then once else m.rerollOnce } := by cases rule? <;> rfl
  have explode (b : Bool) :
      ((if b then [Modifier.explode] else []).map Token.modifier).foldl Modifiers.set {} =
        { explode := b } := by cases b <;> rfl
  unfold ofTokens settings
  simp only [List.map_append, List.foldl_append]
  rw [explode, dropLow, dropHigh, keepLow, keepHigh, reroll, success]
  obtain ⟨_, _, _, _, _, reroll?, once, _⟩ := m
  cases reroll? with
  | none => cases once with
    | false => simp
    | true => exact absurd (h rfl) (by simp)
  | some rule => simp

/-- Expressible modifiers are read back from their written form. -/
theorem Expressible.parse_render {m : Modifiers} (h : m.Expressible) : parse m.render = m := by
  have hspell : ∀ md ∈ m.settings, md.Spelling .saturating md.written :=
    fun md hmd => (h.settings md hmd).spelling_written
  unfold parse ofSuffix Suffix.scan
  rw [Text.lower_of_plain m.plain_render, toList_render, Suffix.tokens_scanFrom_flatMap hspell]
  exact ofTokens_settings h.canonical.once

/-- Modifiers within their widths are read back from their written form exactly if they are
canonical. What is read from any text is canonical and within its widths, so these modifiers are all
that can be read, and writing what was read is a normal form of suffixes. -/
theorem parse_render_iff_canonical :
    (∀ m : Modifiers, m.Fits → (parse m.render = m ↔ m.Canonical)) ∧
    (∀ text : String, (parse text).Canonical ∧ (parse text).Fits) ∧
    (∀ m : Modifiers, (∃ text : String, parse text = m) ↔ m.Canonical ∧ m.Fits) ∧
    ∀ text : String, (parse (parse text).render).render = (parse text).render := by
  have hread (text : String) : (parse text).Canonical ∧ (parse text).Fits :=
    ⟨(expressible_parse text).canonical, (expressible_parse text).fits⟩
  refine ⟨fun m hf => ⟨fun h => ?_, fun hc => ?_⟩, hread, fun m => ⟨?_, fun ⟨hc, hf⟩ => ?_⟩,
    fun text => ?_⟩
  · rw [← h]
    exact (hread m.render).1
  · exact Expressible.parse_render ⟨hc, hf⟩
  · rintro ⟨text, rfl⟩
    exact hread text
  · exact ⟨m.render, Expressible.parse_render ⟨hc, hf⟩⟩
  · rw [(expressible_parse text).parse_render]

/-- Every setting at once, with the widest numbers; a strict reroll is the one thing that is not
read back. -/
theorem parse_render_iff_canonical_widest :
    let widest : Modifiers := ⟨true, some maxCount, some maxCount, some maxCount, some maxCount,
      some (.atMost maxFace), true, some (.above maxFace)⟩
    let strict : Modifiers := { widest with reroll := some (.below maxFace) }
    widest.Fits ∧ parse widest.render = widest ∧ strict.Fits ∧ parse strict.render ≠ strict := by
  intro widest strict
  have hwidest : widest.Fits := by decide
  have hstrict : strict.Fits := by decide
  refine ⟨hwidest, (parse_render_iff_canonical.1 widest hwidest).2 (by decide), hstrict, fun h => ?_⟩
  exact absurd ((parse_render_iff_canonical.1 strict hstrict).1 h) (by decide)

end Modifiers

end Tabletop
