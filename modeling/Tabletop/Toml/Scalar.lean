import Tabletop.Amount
import Tabletop.Text.Decimal
import Tabletop.Text.Hexadecimal
import Tabletop.Toml.Basic

/-!
# Values of a TOML document that hold no other

Strings in their four forms, truth values, integers, floats, dates and times. Every reader takes a
value from the head of a text and gives what follows it; a reader that cannot go on leaves the rest
to whoever reads next, where it is refused.
-/

namespace Tabletop.Toml

/-- What a reader finds at the head of a text, and what follows it. -/
abbrev Found (α : Type) : Type := Option (α × List Char)

/-! ## Strings -/

/-- Whether a character may stand in a comment or a string of one line. -/
def isPlain (c : Char) : Bool := c = '\t' || (0x20 ≤ c.toNat && c.toNat ≠ 0x7F)

/-- Whether a character is a blank within a line. -/
def isSpace (c : Char) : Bool := c = ' ' || c = '\t'

/-- The character whose number is spelled in hexadecimal digits. -/
def scalar? (digits : List Char) : Option Char := do
  let n ← digits.foldlM (fun n c => (Text.hexDigit? c).map (n * 16 + ·)) 0
  if n < 0xD800 || (0xE000 ≤ n && n < 0x110000) then some (Char.ofNat n) else none

/-- The character that a one-letter escape stands for. -/
def escaped? : Char → Option Char
  | 'b' => some '\u0008'
  | 't' => some '\t'
  | 'n' => some '\n'
  | 'f' => some '\u000c'
  | 'r' => some '\r'
  | '"' => some '"'
  | '\\' => some '\\'
  | _ => none

/-- A character in front of what has been read. -/
def prepend (c : Option Char) (found : Found (List Char)) : Found (List Char) :=
  match c, found with
  | some c, some (cs, rest) => some (c :: cs, rest)
  | _, _ => none

/-- The text of a string in double quotes, up to the closing one. -/
def basic? : List Char → Found (List Char)
  | [] => none
  | '"' :: rest => some ([], rest)
  | '\\' :: 'u' :: a :: b :: c :: d :: rest => prepend (scalar? [a, b, c, d]) (basic? rest)
  | '\\' :: 'U' :: a :: b :: c :: d :: e :: f :: g :: h :: rest =>
    prepend (scalar? [a, b, c, d, e, f, g, h]) (basic? rest)
  | '\\' :: letter :: rest => prepend (escaped? letter) (basic? rest)
  | c :: rest => if isPlain c && c ≠ '\\' then prepend (some c) (basic? rest) else none

/-- The text of a string in single quotes, up to the closing one. -/
def literal? : List Char → Found (List Char)
  | [] => none
  | '\x27' :: rest => some ([], rest)
  | c :: rest => if isPlain c then prepend (some c) (literal? rest) else none

/-- What a line break inside a string of several lines is part of. -/
inductive Flow where
  /-- The text. -/
  | text
  /-- The blanks between a backslash and the end of its line. -/
  | lineEnd
  /-- The blanks and line breaks that follow such a line. -/
  | gap
  deriving DecidableEq, Repr

/-- The text of a string in three double quotes, up to the closing ones. One or two quotes before
those belong to the text. -/
def basicLines? : Flow → List Char → Found (List Char)
  | _, [] => none
  | .lineEnd, '\n' :: rest => basicLines? .gap rest
  | .lineEnd, '\r' :: '\n' :: rest => basicLines? .gap rest
  | .lineEnd, c :: rest => if isSpace c then basicLines? .lineEnd rest else none
  | .gap, '\r' :: '\n' :: rest => basicLines? .gap rest
  | .gap, '\n' :: rest => basicLines? .gap rest
  | .gap, ' ' :: rest => basicLines? .gap rest
  | .gap, '\t' :: rest => basicLines? .gap rest
  | _, '"' :: '"' :: '"' :: '"' :: '"' :: rest => some (['"', '"'], rest)
  | _, '"' :: '"' :: '"' :: '"' :: rest => some (['"'], rest)
  | _, '"' :: '"' :: '"' :: rest => some ([], rest)
  | _, '\r' :: '\n' :: rest => prepend (some '\n') (basicLines? .text rest)
  | _, '\n' :: rest => prepend (some '\n') (basicLines? .text rest)
  | _, '\\' :: 'u' :: a :: b :: c :: d :: rest =>
    prepend (scalar? [a, b, c, d]) (basicLines? .text rest)
  | _, '\\' :: 'U' :: a :: b :: c :: d :: e :: f :: g :: h :: rest =>
    prepend (scalar? [a, b, c, d, e, f, g, h]) (basicLines? .text rest)
  | _, '\\' :: '\n' :: rest => basicLines? .gap rest
  | _, '\\' :: '\r' :: '\n' :: rest => basicLines? .gap rest
  | _, '\\' :: ' ' :: rest => basicLines? .lineEnd rest
  | _, '\\' :: '\t' :: rest => basicLines? .lineEnd rest
  | _, '\\' :: letter :: rest => prepend (escaped? letter) (basicLines? .text rest)
  | _, c :: rest =>
    if isPlain c && c ≠ '\\' then prepend (some c) (basicLines? .text rest) else none

/-- The text of a string in three single quotes, up to the closing ones. One or two quotes before
those belong to the text. -/
def literalLines? : List Char → Found (List Char)
  | [] => none
  | '\x27' :: '\x27' :: '\x27' :: '\x27' :: '\x27' :: rest => some (['\x27', '\x27'], rest)
  | '\x27' :: '\x27' :: '\x27' :: '\x27' :: rest => some (['\x27'], rest)
  | '\x27' :: '\x27' :: '\x27' :: rest => some ([], rest)
  | '\r' :: '\n' :: rest => prepend (some '\n') (literalLines? rest)
  | '\n' :: rest => prepend (some '\n') (literalLines? rest)
  | c :: rest => if isPlain c then prepend (some c) (literalLines? rest) else none

/-- The text without a line break at its head. -/
def afterBreak : List Char → List Char
  | '\r' :: '\n' :: rest => rest
  | '\n' :: rest => rest
  | cs => cs

/-- A string in any of its forms. -/
def string? : List Char → Found String
  | '"' :: '"' :: '"' :: rest =>
    (basicLines? .text (afterBreak rest)).map fun (cs, rest) => (String.ofList cs, rest)
  | '"' :: rest => (basic? rest).map fun (cs, rest) => (String.ofList cs, rest)
  | '\x27' :: '\x27' :: '\x27' :: rest =>
    (literalLines? (afterBreak rest)).map fun (cs, rest) => (String.ofList cs, rest)
  | '\x27' :: rest => (literal? rest).map fun (cs, rest) => (String.ofList cs, rest)
  | _ => none

/-! ## Numbers -/

/-- Further digits, each after an underscore or none. The underscores are left out. -/
def moreDigits (isDigit : Char → Bool) : List Char → List Char × List Char
  | [] => ([], [])
  | '_' :: d :: rest =>
    if isDigit d then
      let (ds, after) := moreDigits isDigit rest
      (d :: ds, after)
    else ([], '_' :: d :: rest)
  | d :: rest =>
    if isDigit d then
      let (ds, after) := moreDigits isDigit rest
      (d :: ds, after)
    else ([], d :: rest)

/-- Digits with single underscores between them. -/
def grouped? (isDigit : Char → Bool) : List Char → Found (List Char)
  | [] => none
  | d :: rest =>
    if isDigit d then
      let (ds, after) := moreDigits isDigit rest
      some (d :: ds, after)
    else none

/-- The digits of a whole number, which has no zero in front. -/
def whole? : List Char → Found (List Char)
  | '0' :: rest => some (['0'], rest)
  | cs => grouped? Char.isDigit cs

/-- The integer that digits of a base spell, if it is within the width. -/
def integer? (base : Nat) (minus : Bool) (digits : List Char) : Option Value := do
  let n ← digits.foldlM (fun n c => (Text.hexDigit? c).map (n * base + ·)) 0
  let n : Int := if minus then -(n : Int) else n
  if Amount.least ≤ n ∧ n ≤ Amount.greatest then some (.integer n) else none

/-- An integer in a base other than ten. -/
def based? (base : Nat) (isDigit : Char → Bool) (cs : List Char) :
    Option (Value × List Char) := do
  let (ds, rest) ← grouped? isDigit cs
  let n ← integer? base false ds
  return (n, rest)

/-- Whether a decimal `mantissa * 10 ^ exponent` lies beyond the greatest double: at or above the
middle between that and the next power of two. -/
def overflows (mantissa : Nat) (exponent : Int) : Bool :=
  let limit := Nat.pow 2 1024 - Nat.pow 2 970
  let magnitude := (Nat.toDigits 10 mantissa).length + exponent
  if mantissa = 0 || magnitude < 300 then false
  else if 320 < magnitude then true
  else if 0 ≤ exponent then limit ≤ mantissa * Nat.pow 10 exponent.toNat
  else limit * Nat.pow 10 (-exponent).toNat ≤ mantissa

/-- The fraction of a float, empty if there is none. -/
def fraction? : List Char → Found (List Char)
  | '.' :: rest => grouped? Char.isDigit rest
  | cs => some ([], cs)

/-- The exponent of a float: its sign, empty if there is none, and its digits. -/
def exponent? : List Char → Found (List Char × List Char)
  | [] => some (([], []), [])
  | c :: rest =>
    if c = 'e' || c = 'E' then
      (grouped? Char.isDigit (Text.sign rest).2).map fun (ds, after) =>
        (((Text.sign rest).1, ds), after)
    else some (([], []), c :: rest)

/-- A number in base ten. A positive float must not be too large for a double. -/
def decimal? (cs : List Char) : Option (Value × List Char) := do
  let (sign, afterSign) := Text.sign cs
  let (whole, afterWhole) ← whole? afterSign
  let (fraction, afterFraction) ← fraction? afterWhole
  let ((expSign, exponent), rest) ← exponent? afterFraction
  if fraction.isEmpty && exponent.isEmpty then
    let n ← integer? 10 (sign = ['-']) whole
    return (n, rest)
  else
    let shift : Int := if expSign = ['-'] then -(Text.decimal exponent : Int)
      else Text.decimal exponent
    if sign ≠ ['-'] && overflows (Text.decimal (whole ++ fraction)) (shift - fraction.length) then
      none
    else
      let literal := cs.take (cs.length - rest.length)
      return (.float (String.ofList literal), rest)

/-- A float that is no number, or not finite. -/
def special? (cs : List Char) : Found Value :=
  match Text.sign cs with
  | (sign, 'i' :: 'n' :: 'f' :: rest) =>
    some (.float (String.ofList (sign ++ ['i', 'n', 'f'])), rest)
  | (sign, 'n' :: 'a' :: 'n' :: rest) =>
    some (.float (String.ofList (sign ++ ['n', 'a', 'n'])), rest)
  | _ => none

/-- Whether a character is a digit of base two. -/
def isBinary (c : Char) : Bool := c = '0' || c = '1'

/-- Whether a character is a digit of base eight. -/
def isOctal (c : Char) : Bool := '0' ≤ c && c ≤ '7'

/-- Whether a character is a digit of base sixteen. -/
def isHex (c : Char) : Bool := (Text.hexDigit? c).isSome

/-- A number. -/
def number? : List Char → Found Value
  | '0' :: 'x' :: rest => based? 16 isHex rest
  | '0' :: 'o' :: rest => based? 8 isOctal rest
  | '0' :: 'b' :: rest => based? 2 isBinary rest
  | cs => (special? cs).or (decimal? cs)

/-! ## Dates and times -/

/-- Two digits that spell a number within bounds. -/
def twoDigits? (least greatest : Nat) : List Char → Found Nat
  | a :: b :: rest =>
    if a.isDigit && b.isDigit && least ≤ Text.decimal [a, b] && Text.decimal [a, b] ≤ greatest then
      some (Text.decimal [a, b], rest)
    else none
  | _ => none

/-- What follows a character, if it comes next. -/
def after? (c : Char) : List Char → Option (List Char)
  | [] => none
  | d :: rest => if d = c then some rest else none

/-- The number of days of a month. -/
def days (year month : Nat) : Nat :=
  if month = 2 then
    if year % 4 = 0 ∧ (year % 100 ≠ 0 ∨ year % 400 = 0) then 29 else 28
  else if month = 4 ∨ month = 6 ∨ month = 9 ∨ month = 11 then 30
  else 31

/-- What follows a date. -/
def date? : List Char → Option (List Char)
  | a :: b :: c :: d :: rest => do
    guard ([a, b, c, d].all Char.isDigit)
    let year := Text.decimal [a, b, c, d]
    let rest ← after? '-' rest
    let (month, rest) ← twoDigits? 1 12 rest
    let rest ← after? '-' rest
    let (_, rest) ← twoDigits? 1 (days year month) rest
    return rest
  | _ => none

/-- What follows the fraction of a second, if there is one. -/
def afterFraction : List Char → List Char
  | '.' :: rest => match Text.digits? rest with
    | some (_, after) => after
    | none => '.' :: rest
  | cs => cs

/-- What follows a time of day. A minute may have a leap second. -/
def time? (cs : List Char) : Option (List Char) := do
  let (_, rest) ← twoDigits? 0 23 cs
  let rest ← after? ':' rest
  let (_, rest) ← twoDigits? 0 59 rest
  let rest ← after? ':' rest
  let (_, rest) ← twoDigits? 0 60 rest
  return afterFraction rest

/-- What follows the distance from universal time. -/
def offset? : List Char → Option (List Char)
  | 'Z' :: rest | 'z' :: rest => some rest
  | c :: rest =>
    if c = '+' || c = '-' then do
      let (_, rest) ← twoDigits? 0 23 rest
      let rest ← after? ':' rest
      let (_, rest) ← twoDigits? 0 59 rest
      return rest
    else none
  | [] => none

/-- What follows the time of a date, if there is one. -/
def afterTime : List Char → List Char
  | [] => []
  | c :: rest =>
    if c = 'T' || c = 't' || c = ' ' then
      match time? rest with
      | some after => (offset? after).getD after
      | none => c :: rest
    else c :: rest

/-- A date, a time, or both. -/
def moment? (cs : List Char) : Option (Value × List Char) := do
  let rest ← match date? cs with
    | some rest => some (afterTime rest)
    | none => time? cs
  return (.moment (String.ofList (cs.take (cs.length - rest.length))), rest)

/-- A value that holds no other. -/
def atom? : List Char → Found Value
  | 't' :: 'r' :: 'u' :: 'e' :: rest => some (.boolean true, rest)
  | 'f' :: 'a' :: 'l' :: 's' :: 'e' :: rest => some (.boolean false, rest)
  | cs => match string? cs with
    | some (s, rest) => some (.string s, rest)
    | none => (moment? cs).or (number? cs)

end Tabletop.Toml
