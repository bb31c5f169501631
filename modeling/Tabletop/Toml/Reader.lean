import Tabletop.Toml.Scalar
import Tabletop.Toml.Table

/-!
# Reading a TOML document

A document is read line by line (`lines?`) and its lines are then put together (`ofLines?`). Values
hold one another up to a depth of `nestingLimit`. The readers that call themselves count down the
steps they may still take, of which a text needs at most two for each character.
-/

namespace Tabletop.Toml

/-- Values that hold others, and dotted keys, stay below this depth. -/
def nestingLimit : Nat := 80

/-- The text without the blanks at its head. -/
def skipSpaces (cs : List Char) : List Char := cs.dropWhile isSpace

/-- What follows the end of a line. -/
def lineBreak? : List Char → Option (List Char)
  | '\n' :: rest => some rest
  | '\r' :: '\n' :: rest => some rest
  | _ => none

/-- The text without a comment at its head. -/
def skipComment : List Char → List Char
  | '#' :: rest => rest.dropWhile isPlain
  | cs => cs

/-- What follows the rest of a line that holds nothing more. The text may end instead. -/
def lineEnd? (cs : List Char) : Option (List Char) :=
  match skipComment (skipSpaces cs) with
  | [] => some []
  | cs => lineBreak? cs

/-- The text without blanks, comments and line breaks at its head, where a comment may have begun
already. A comment needs the end of its line. -/
def skipLines? : Bool → List Char → Option (List Char)
  | false, [] => some []
  | true, [] => none
  | _, '\n' :: rest => skipLines? false rest
  | _, '\r' :: '\n' :: rest => skipLines? false rest
  | false, '#' :: rest => skipLines? true rest
  | false, '\r' :: _ => none
  | false, c :: rest => if isSpace c then skipLines? false rest else some (c :: rest)
  | true, c :: rest => if isPlain c then skipLines? true rest else none

/-! ## Keys -/

/-- Whether a character may stand in a key without quotes. -/
def isBare (c : Char) : Bool := c.isAlphanum || c = '-' || c = '_'

/-- A key without dots. -/
def simpleKey? : List Char → Found String
  | '"' :: rest => (basic? rest).map fun (cs, rest) => (String.ofList cs, rest)
  | '\x27' :: rest => (literal? rest).map fun (cs, rest) => (String.ofList cs, rest)
  | cs => match cs.takeWhile isBare with
    | [] => none
    | key => some (String.ofList key, cs.dropWhile isBare)

/-- At most so many keys, with dots between them and blanks around each. -/
def keys? : Nat → List Char → Found (List String)
  | 0, _ => none
  | n + 1, cs =>
    match simpleKey? (skipSpaces cs) with
    | none => none
    | some (key, rest) =>
      match skipSpaces rest with
      | '.' :: rest => (keys? n rest).map fun (keys, rest) => (key :: keys, rest)
      | rest => some ([key], rest)

/-- A dotted key. -/
def path? (cs : List Char) : Found Path :=
  match keys? (nestingLimit - 1) cs with
  | none => none
  | some (keys, rest) => (Path.ofList? keys).map fun p => (p, rest)

/-- A dotted key and the sign behind it. -/
def pathEquals? (cs : List Char) : Found Path :=
  match path? cs with
  | some (path, '=' :: rest) => some (path, skipSpaces rest)
  | _ => none

/-! ## Values -/

mutual

/-- A value, inside so many others. -/
def value? (fuel depth : Nat) (cs : List Char) : Found Value :=
  match fuel with
  | 0 => none
  | fuel + 1 =>
    match cs with
    | '[' :: rest =>
      if depth + 1 < nestingLimit then
        (items? fuel (depth + 1) rest).map fun (items, rest) => (.array items, rest)
      else none
    | '\x7b' :: rest =>
      if depth + 1 < nestingLimit then
        match skipSpaces rest with
        | '\x7d' :: rest => some (.table .inline [], rest)
        | rest => match pairs? fuel (depth + 1) rest with
          | some (pairs, rest) => (inlineTable? pairs).map fun v => (v, rest)
          | none => none
      else none
    | cs => atom? cs

/-- The items of an array, up to its end. -/
def items? (fuel depth : Nat) (cs : List Char) : Found (List Value) :=
  match fuel with
  | 0 => none
  | fuel + 1 =>
    match skipLines? false cs with
    | none => none
    | some (']' :: rest) => some ([], rest)
    | some cs =>
      match value? fuel depth cs with
      | none => none
      | some (v, rest) =>
        match skipLines? false rest with
        | some (',' :: rest) => (items? fuel depth rest).map fun (vs, rest) => (v :: vs, rest)
        | some (']' :: rest) => some ([v], rest)
        | _ => none

/-- The pairs of a table in braces, up to its end. -/
def pairs? (fuel depth : Nat) (cs : List Char) : Found (List (Path × Value)) :=
  match fuel with
  | 0 => none
  | fuel + 1 =>
    match pathEquals? cs with
    | none => none
    | some (path, rest) =>
      match value? fuel depth rest with
      | none => none
      | some (v, rest) =>
        match skipSpaces rest with
        | ',' :: rest => (pairs? fuel depth rest).map fun (ps, rest) => ((path, v) :: ps, rest)
        | '\x7d' :: rest => some ([(path, v)], rest)
        | _ => none

end

/-! ## Lines -/

/-- A header whose opening brackets have been read, up to the end of its line. -/
def header? (close : List Char) (line : Path → Line) (cs : List Char) : Found Line :=
  match path? cs with
  | none => none
  | some (path, rest) =>
    if close.isPrefixOf rest then
      (lineEnd? (rest.drop close.length)).map fun rest => (line path, rest)
    else none

/-- A pair, up to the end of its line. -/
def pair? (fuel : Nat) (cs : List Char) : Found Line :=
  match pathEquals? cs with
  | none => none
  | some (path, rest) =>
    match value? fuel 0 rest with
    | none => none
    | some (v, rest) => (lineEnd? rest).map fun rest => (.pair path v, rest)

/-- The lines of a text, of which there may be so many. Each of their values may take `fuel`
steps. -/
def lines? (fuel : Nat) : Nat → List Char → Option (List Line)
  | 0, _ => some []
  | n + 1, cs =>
    let more : Found Line → Option (List Line)
      | none => none
      | some (line, rest) => (lines? fuel n rest).map (line :: ·)
    match skipSpaces cs with
    | [] => some []
    | '#' :: rest => (lineEnd? ('#' :: rest)).bind (lines? fuel n)
    | '\n' :: rest => lines? fuel n rest
    | '\r' :: rest => (lineBreak? ('\r' :: rest)).bind (lines? fuel n)
    | '[' :: '[' :: rest => more (header? [']', ']'] .element rest)
    | '[' :: rest => more (header? [']'] .table rest)
    | cs => more (pair? fuel cs)

/-- The text without a byte order mark at its head. -/
def skipMark : List Char → List Char
  | '\ufeff' :: rest => rest
  | cs => cs

/-- The entries of the document that a text spells. -/
def read? (text : String) : Option Entries :=
  let cs := skipMark text.toList
  (lines? (2 * cs.length + 1) (cs.length + 1) cs).bind ofLines?

end Tabletop.Toml
