import Tabletop.Json.Basic
import Tabletop.Text.Decimal
import Tabletop.Text.Hexadecimal

/-!
# Tokens of a JSON text

A JSON text is cut into brackets, marks and the values that hold no other. A string is read in two
steps: its characters and escapes as they stand (`pieces?`), then the escapes that are halves of a
surrogate pair put together (`join?`). A half by itself is no error here: the string then has no
text.
-/

namespace Tabletop.Json

/-- A token of a JSON text. -/
inductive Token where
  /-- `[` -/
  | arrayOpen
  /-- `]` -/
  | arrayClose
  /-- An opening brace. -/
  | objectOpen
  /-- A closing brace. -/
  | objectClose
  /-- `,` -/
  | comma
  /-- `:` -/
  | colon
  /-- A value that holds no other. -/
  | atom (value : Json)
  deriving Repr, Inhabited

/-- A part of a string. -/
inductive Piece where
  /-- A character. -/
  | char (c : Char)
  /-- Half of a surrogate pair. -/
  | half (unit : Nat)
  deriving DecidableEq, Repr

/-- The value of four hexadecimal digits. -/
def hexUnit? (a b c d : Char) : Option Nat := do
  let a ← Text.hexDigit? a
  let b ← Text.hexDigit? b
  let c ← Text.hexDigit? c
  let d ← Text.hexDigit? d
  return ((a * 16 + b) * 16 + c) * 16 + d

/-- The part of a string that a 16-bit unit stands for. -/
def Piece.ofUnit (unit : Nat) : Piece :=
  if 0xD800 ≤ unit && unit < 0xE000 then .half unit else .char (Char.ofNat unit)

/-- The character that a one-letter escape stands for. -/
def escaped? : Char → Option Char
  | '"' => some '"'
  | '\\' => some '\\'
  | '/' => some '/'
  | 'b' => some '\u0008'
  | 'f' => some '\u000c'
  | 'n' => some '\n'
  | 'r' => some '\r'
  | 't' => some '\t'
  | _ => none

/-- The parts of a string up to its closing quote, and what follows that. -/
def pieces? : List Char → Option (List Piece × List Char)
  | [] => none
  | '"' :: rest => some ([], rest)
  | '\\' :: 'u' :: a :: b :: c :: d :: rest => do
    let unit ← hexUnit? a b c d
    let (pieces, after) ← pieces? rest
    return (.ofUnit unit :: pieces, after)
  | '\\' :: letter :: rest => do
    let c ← escaped? letter
    let (pieces, after) ← pieces? rest
    return (.char c :: pieces, after)
  | c :: rest =>
    if c = '\\' || c.toNat < 0x20 then none
    else do
      let (pieces, after) ← pieces? rest
      return (.char c :: pieces, after)

/-- The text of a string, if each half of a surrogate pair has its other half. -/
def join? : List Piece → Option (List Char)
  | [] => some []
  | .char c :: rest => (join? rest).map (c :: ·)
  | .half high :: .half low :: rest =>
    if high < 0xDC00 && 0xDC00 ≤ low then
      (join? rest).map (Char.ofNat (0x10000 + (high - 0xD800) * 0x400 + (low - 0xDC00)) :: ·)
    else none
  | .half _ :: _ => none

/-- A string whose opening quote has been read, and what follows it. -/
def string? (cs : List Char) : Option (Token × List Char) :=
  (pieces? cs).map fun (pieces, rest) => (.atom (.string ((join? pieces).map String.ofList)), rest)

/-- The digits of the whole part of a number, which has no zero in front, and what follows. -/
def whole? (cs : List Char) : Option (List Char × List Char) :=
  match Text.digits? cs with
  | some ('0' :: _ :: _, _) => none
  | found => found

/-- The fraction at the head of a text, empty if there is none, and what follows. -/
def fraction? : List Char → Option (List Char × List Char)
  | '.' :: rest => (Text.digits? rest).map fun (ds, after) => ('.' :: ds, after)
  | cs => some ([], cs)

/-- The exponent at the head of a text, empty if there is none, and what follows. -/
def exponent? : List Char → Option (List Char × List Char)
  | [] => some ([], [])
  | c :: rest =>
    if c = 'e' || c = 'E' then
      (Text.digits? (Text.sign rest).2).map fun (ds, after) =>
        (c :: ((Text.sign rest).1 ++ ds), after)
    else some ([], c :: rest)

/-- The number with the given parts. -/
def numberOf (minus whole fraction exponent : List Char) : Json :=
  if fraction.isEmpty && exponent.isEmpty && !(!minus.isEmpty && Text.decimal whole == 0) then
    .int (if minus.isEmpty then Text.decimal whole else -(Text.decimal whole : Int))
  else .number (String.ofList (minus ++ whole ++ fraction ++ exponent))

/-- A number after its sign, and what follows it. -/
def unsigned? (minus : List Char) (cs : List Char) : Option (Token × List Char) := do
  let (whole, rest) ← whole? cs
  let (fraction, rest) ← fraction? rest
  let (exponent, rest) ← exponent? rest
  return (.atom (numberOf minus whole fraction exponent), rest)

/-- The token at the head of a text, and what follows it. -/
def token? : List Char → Option (Token × List Char)
  | '[' :: rest => some (.arrayOpen, rest)
  | ']' :: rest => some (.arrayClose, rest)
  | '\x7b' :: rest => some (.objectOpen, rest)
  | '\x7d' :: rest => some (.objectClose, rest)
  | ',' :: rest => some (.comma, rest)
  | ':' :: rest => some (.colon, rest)
  | '"' :: rest => string? rest
  | 'n' :: 'u' :: 'l' :: 'l' :: rest => some (.atom .null, rest)
  | 't' :: 'r' :: 'u' :: 'e' :: rest => some (.atom (.bool true), rest)
  | 'f' :: 'a' :: 'l' :: 's' :: 'e' :: rest => some (.atom (.bool false), rest)
  | '-' :: rest => unsigned? ['-'] rest
  | cs => unsigned? [] cs

/-- Whether a character may stand between tokens. -/
def isBlank (c : Char) : Bool := c = ' ' || c = '\n' || c = '\r' || c = '\t'

/-! ## Tokens take up characters -/

/-- The pieces of a string end with a quote, so they take a character at least. -/
theorem length_lt_of_pieces? {cs : List Char} : ∀ {ps : List Piece} {rest : List Char},
    pieces? cs = some (ps, rest) → rest.length < cs.length := by
  fun_induction pieces? cs with
  | case1 => simp
  | case2 r => intro ps rest h; cases h; simp
  | case3 a b c d r ih =>
    intro ps rest h
    simp only [Option.bind_eq_bind, Option.bind_eq_some_iff] at h
    obtain ⟨unit, -, ⟨qs, after⟩, hq, h⟩ := h
    cases h
    have := ih hq
    simp only [List.length_cons]; omega
  | case4 letter r _ ih =>
    intro ps rest h
    simp only [Option.bind_eq_bind, Option.bind_eq_some_iff] at h
    obtain ⟨c, -, ⟨qs, after⟩, hq, h⟩ := h
    cases h
    have := ih hq
    simp only [List.length_cons]; omega
  | case5 => simp
  | case6 c r _ _ _ _ ih =>
    intro ps rest h
    simp only [Option.bind_eq_bind, Option.bind_eq_some_iff] at h
    obtain ⟨⟨qs, after⟩, hq, h⟩ := h
    cases h
    have := ih hq
    simp only [List.length_cons]; omega

/-- A whole number has a digit. -/
theorem length_lt_of_whole? {cs ds rest : List Char} (h : whole? cs = some (ds, rest)) :
    rest.length < cs.length := by
  unfold whole? at h
  split at h
  · simp at h
  · exact Text.length_lt_of_digits? h

/-- A fraction may be absent. -/
theorem length_le_of_fraction? {cs ds rest : List Char} (h : fraction? cs = some (ds, rest)) :
    rest.length ≤ cs.length := by
  unfold fraction? at h
  split at h
  · obtain ⟨⟨es, after⟩, he, heq⟩ := Option.map_eq_some_iff.1 h
    obtain ⟨-, rfl⟩ := Prod.mk.inj heq
    have := Text.length_lt_of_digits? he
    simp only [List.length_cons]; omega
  · cases h; simp

/-- An exponent may be absent. -/
theorem length_le_of_exponent? {cs ds rest : List Char} (h : exponent? cs = some (ds, rest)) :
    rest.length ≤ cs.length := by
  unfold exponent? at h
  split at h
  · cases h; simp
  · next c r =>
    split at h
    · obtain ⟨⟨es, after⟩, he, heq⟩ := Option.map_eq_some_iff.1 h
      obtain ⟨-, rfl⟩ := Prod.mk.inj heq
      have := Text.length_lt_of_digits? he
      have := Text.length_sign_le r
      simp only [List.length_cons]; omega
    · cases h; simp

/-- A number without its sign has a digit. -/
theorem length_lt_of_unsigned? {minus cs rest : List Char} {t : Token}
    (h : unsigned? minus cs = some (t, rest)) : rest.length < cs.length := by
  unfold unsigned? at h
  simp only [Option.bind_eq_bind, Option.bind_eq_some_iff] at h
  obtain ⟨⟨_, r₁⟩, h₁, ⟨_, r₂⟩, h₂, ⟨_, r₃⟩, h₃, heq⟩ := h
  cases heq
  have hw : r₁.length < cs.length := length_lt_of_whole? h₁
  have hf : r₂.length ≤ r₁.length := length_le_of_fraction? h₂
  have he : r₃.length ≤ r₂.length := length_le_of_exponent? h₃
  exact Nat.lt_of_le_of_lt (Nat.le_trans he hf) hw

/-- Every token takes a character, which is why the reader comes to an end. -/
theorem length_lt_of_token? {cs rest : List Char} {t : Token}
    (h : token? cs = some (t, rest)) : rest.length < cs.length := by
  unfold token? at h
  split at h
  case h_7 =>
    obtain ⟨⟨ps, r⟩, hp, heq⟩ := Option.map_eq_some_iff.1 h
    obtain ⟨-, rfl⟩ := Prod.mk.inj heq
    have := length_lt_of_pieces? hp
    simp only [List.length_cons]; omega
  case h_11 =>
    have := length_lt_of_unsigned? h
    simp only [List.length_cons]; omega
  case h_12 => exact length_lt_of_unsigned? h
  all_goals
    cases h
    simp only [List.length_cons]; omega

/-- The tokens of a text, if it is made of tokens and blanks. -/
def tokens? : List Char → Option (List Token)
  | [] => some []
  | c :: rest =>
    if isBlank c then tokens? rest
    else match _ : token? (c :: rest) with
      | none => none
      | some (t, after) => (tokens? after).map (t :: ·)
termination_by cs => cs.length
decreasing_by
  · simp
  · exact length_lt_of_token? (by assumption)

end Tabletop.Json
