import Tabletop.Json.Token
import Tabletop.Proofs.Notation.Written

/-!
# Written atoms are read back

Every value that holds no other is written as one token: strings with their escapes undone
(`token?_quote`), integers with all their digits (`token?_int`). A number ends only where something
stands that cannot go on with it (`Stops`); all that is written behind a value does. So text that
lays out tokens one after the other, with blanks anywhere between them (`Laid`), has these tokens and
no others (`Laid.tokens?_eq`).
-/

namespace Tabletop.Json

open Text (Numeral NoDigit decimal)

/-! ## Strings -/

/-- The two digits of a control character spell its code. -/
theorem hexUnit?_hexByte : ∀ n < 0x20,
    hexUnit? '0' '0' (Nat.digitChar (n / 16)) (Nat.digitChar (n % 16)) = some n := by
  decide

/-- A unit that is a control character stands for this character. -/
theorem ofUnit_toNat {c : Char} (h : c.toNat < 0x20) : Piece.ofUnit c.toNat = .char c := by
  have hlow : ¬ 0xD800 ≤ c.toNat := by omega
  simp [Piece.ofUnit, hlow, Char.ofNat_toNat]

section
variable {c letter : Char} {cs : List Char}

/-- The escape of a character by a letter is read as this character. -/
theorem pieces?_letter (hletter : letter ≠ 'u') (hc : escaped? letter = some c) :
    pieces? ('\\' :: letter :: cs) =
      (pieces? cs).map fun (pieces, after) => (.char c :: pieces, after) := by
  rw [pieces?, hc]
  · cases pieces? cs <;> rfl
  · rintro _ _ _ _ _ rfl
    exact absurd rfl hletter

/-- The escape of a control character by its number is read as this character. -/
theorem pieces?_hexByte (hc : c.toNat < 0x20) :
    pieces? (['\\', 'u', '0', '0'] ++ hexByte c.toNat ++ cs) =
      (pieces? cs).map fun (pieces, after) => (.char c :: pieces, after) := by
  simp only [hexByte, List.cons_append, List.nil_append]
  rw [pieces?, hexUnit?_hexByte _ hc]
  simp only [Option.bind_eq_bind, Option.bind_some, ofUnit_toNat hc]
  cases pieces? cs <;> rfl

/-- A character that needs no escape is read as itself. -/
theorem pieces?_cons (hquote : c ≠ '"') (hslash : c ≠ '\\') (hc : ¬ c.toNat < 0x20) :
    pieces? (c :: cs) = (pieces? cs).map fun (pieces, after) => (.char c :: pieces, after) := by
  rw [pieces?]
  · rw [if_neg (by simp [hslash, hc])]
    cases pieces? cs <;> rfl
  · exact hquote
  · exact fun _ _ _ _ _ h => absurd h hslash
  · exact fun _ _ h => absurd h hslash

/-- What is written for a character is read as this character. -/
theorem pieces?_escape (c : Char) (cs : List Char) : pieces? (escape c ++ cs) =
    (pieces? cs).map fun (pieces, after) => (.char c :: pieces, after) := by
  unfold escape
  split_ifs with h₁ h₂ h₃ h₄ h₅ h₆ h₇ h₈
  · subst h₁; exact pieces?_letter (by decide) rfl
  · subst h₂; exact pieces?_letter (by decide) rfl
  · subst h₃; exact pieces?_letter (by decide) rfl
  · subst h₄; exact pieces?_letter (by decide) rfl
  · subst h₅; exact pieces?_letter (by decide) rfl
  · subst h₆; exact pieces?_letter (by decide) rfl
  · subst h₇; exact pieces?_letter (by decide) rfl
  · exact pieces?_hexByte h₈
  · exact pieces?_cons h₁ h₂ h₈

end

/-- The pieces of an escaped text are its characters, up to the closing quote. -/
theorem pieces?_flatMap_escape (cs rest : List Char) :
    pieces? (cs.flatMap escape ++ '"' :: rest) = some (cs.map .char, rest) := by
  induction cs with
  | nil => rfl
  | cons c cs ih => rw [List.flatMap_cons, List.append_assoc, pieces?_escape, ih]; rfl

/-- Pieces that are characters make up their text. -/
theorem join?_map_char (cs : List Char) : join? (cs.map .char) = some cs := by
  induction cs with
  | nil => rfl
  | cons c cs ih => rw [List.map_cons, join?, ih]; rfl

/-- A string is read back from what is written for it, whatever its characters; and a string without
text as one. -/
theorem token?_quote (s : Option String) (rest : List Char) :
    token? ((quote s).toList ++ rest) = some (.atom (.string s), rest) := by
  cases s with
  | none => rfl
  | some s =>
    have hquote : (quote (some s)).toList ++ rest =
        '"' :: (s.toList.flatMap escape ++ '"' :: rest) := by
      simp [quote]
    have hread : token? ('"' :: (s.toList.flatMap escape ++ '"' :: rest)) =
        string? (s.toList.flatMap escape ++ '"' :: rest) := rfl
    rw [hquote, hread, string?, pieces?_flatMap_escape, Option.map_some]
    dsimp only
    rw [join?_map_char, Option.map_some, String.ofList_toList]

/-! ## Integers -/

/-- The digits of a number have no zero in front. -/
theorem exists_toDigits_cons {n : Nat} (hn : 0 < n) :
    ∃ d ds, Nat.toDigits 10 n = d :: ds ∧ d ≠ '0' := by
  induction n using Nat.strongRecOn with
  | _ n ih =>
    by_cases hten : n < 10
    · refine ⟨_, _, Nat.toDigits_of_lt_base hten, ?_⟩
      have hdigits : ∀ n < 10, 0 < n → n.digitChar ≠ '0' := by decide
      exact hdigits n hten hn
    · obtain ⟨d, ds, hds, hd⟩ := ih (n / 10) (by omega) (by omega)
      exact ⟨d, _, by rw [Nat.toDigits_of_base_le (by decide) (by omega), hds]; rfl, hd⟩

/-- A printed number is read as digits with no zero in front. -/
theorem whole?_append {n : Nat} {rest : List Char} (hrest : NoDigit rest) :
    whole? ((toString n).toList ++ rest) = some ((toString n).toList, rest) := by
  unfold whole?
  rw [Text.digits?_append (Text.numeral_toString n) hrest]
  split
  · next d ds rest' heq =>
    obtain ⟨hdigits, rfl⟩ := Prod.mk.inj (Option.some.inj heq)
    rw [Nat.toString_eq_repr, Nat.toList_repr] at hdigits
    obtain rfl | hn := Nat.eq_zero_or_pos n
    · cases hdigits
    · obtain ⟨c, cs, hcs, hc⟩ := exists_toDigits_cons hn
      rw [hcs] at hdigits
      exact absurd (List.cons.inj hdigits).1 hc
  · rfl

/-- The text does not go on with a number in front of it. -/
def Stops (cs : List Char) : Prop :=
  ∀ c ∈ cs.head?, c.isDigit = false ∧ c ≠ '.' ∧ c ≠ 'e' ∧ c ≠ 'E'

/-- A number stops at the end. -/
theorem stops_nil : Stops [] := nofun

/-- Where a number stops there is no digit. -/
theorem Stops.noDigit {cs : List Char} (h : Stops cs) : NoDigit cs := fun c hc => (h c hc).1

/-- Where a number stops no fraction begins. -/
theorem Stops.fraction? {cs : List Char} (h : Stops cs) : fraction? cs = some ([], cs) := by
  unfold Json.fraction?
  split
  · exact absurd rfl (h '.' rfl).2.1
  · rfl

/-- Where a number stops no exponent begins. -/
theorem Stops.exponent? {cs : List Char} (h : Stops cs) : exponent? cs = some ([], cs) := by
  unfold Json.exponent?
  split
  · rfl
  · next c rest =>
    obtain ⟨-, -, he, hE⟩ := h c rfl
    rw [if_neg (by simp [he, hE])]

/-- The digits of a number are read up to where it stops. -/
theorem unsigned?_append {n : Nat} {rest : List Char} (hrest : Stops rest) (minus : List Char) :
    unsigned? minus ((toString n).toList ++ rest) =
      some (.atom (numberOf minus (toString n).toList [] []), rest) := by
  unfold unsigned?
  simp only [whole?_append hrest.noDigit, Option.bind_eq_bind, Option.bind_some, hrest.fraction?,
    hrest.exponent?]
  rfl

/-- What begins with a digit is a number. -/
theorem token?_of_isDigit {c : Char} {cs : List Char} (h : c.isDigit = true) :
    token? (c :: cs) = unsigned? [] (c :: cs) := by
  have hne (d : Char) (hd : d.isDigit = false) (rest rest' : List Char) :
      c :: rest ≠ d :: rest' := by
    rintro heq
    rw [← (List.cons.inj heq).1, h] at hd
    cases hd
  rw [token?]
  all_goals exact fun rest => hne _ (by decide) _ _

/-- Digits without sign, fraction and exponent are an integer. -/
theorem numberOf_digits (n : Nat) : numberOf [] (toString n).toList [] [] = .int n := by
  rw [numberOf, Text.decimal_toString]
  rfl

/-- With a minus in front they are its negative; only a zero with a minus is no integer. -/
theorem numberOf_minus {n : Nat} (h : n ≠ 0) :
    numberOf ['-'] (toString n).toList [] [] = .int (-n) := by
  rw [numberOf, Text.decimal_toString, if_pos (by simp [h])]
  rfl

/-- An integer is read back from its digits and its sign. -/
theorem token?_int (n : Int) {rest : List Char} (hrest : Stops rest) :
    token? ((toString n).toList ++ rest) = some (.atom (.int n), rest) := by
  by_cases hneg : n < 0
  · rw [toString_of_neg hneg, String.toList_append, List.append_assoc]
    have hminus : token? ("-".toList ++ ((toString n.natAbs).toList ++ rest)) =
        unsigned? ['-'] ((toString n.natAbs).toList ++ rest) := rfl
    rw [hminus, unsigned?_append hrest, numberOf_minus (Int.natAbs_ne_zero.2 (Int.ne_of_lt hneg)),
      Int.ofNat_natAbs_of_nonpos (Int.le_of_lt hneg), Int.neg_neg]
  · rw [toString_of_nonneg (Int.not_lt.1 hneg)]
    obtain ⟨c, cs, hc, heq⟩ := (Text.numeral_toString n.natAbs).exists_cons
    have hread := unsigned?_append (n := n.natAbs) hrest []
    rw [heq, List.cons_append] at hread ⊢
    rw [token?_of_isDigit hc, hread, ← heq, numberOf_digits,
      Int.natAbs_of_nonneg (Int.not_lt.1 hneg)]

/-! ## Atoms -/

/-- A value that holds no other, and no number that is kept as it is spelled. -/
def Atomic : Json → Prop
  | null | bool _ | int _ | string _ => True
  | number _ | array _ | object _ => False

/-- What is written for an atom is read as this atom. -/
theorem token?_atom {v : Json} (hv : v.Atomic) {rest : List Char} (hrest : Stops rest) :
    token? (v.atom.toList ++ rest) = some (.atom v, rest) := by
  cases v with
  | null => rfl
  | bool b => cases b <;> rfl
  | int n => exact token?_int n hrest
  | string s => exact token?_quote s rest
  | number | array | object => cases hv

/-- A digit is not blank. -/
theorem isBlank_of_isDigit {c : Char} (h : c.isDigit = true) : isBlank c = false := by
  obtain ⟨hlo, -⟩ := Text.toNat_of_isDigit h
  refine Bool.eq_false_iff.2 fun hblank => ?_
  simp only [isBlank, Bool.or_eq_true, decide_eq_true_eq] at hblank
  rcases hblank with ((rfl | rfl) | rfl) | rfl <;> revert hlo <;> decide

/-- What is written for an atom begins with no blank. -/
theorem exists_atom_cons {v : Json} (hv : v.Atomic) :
    ∃ c cs, v.atom.toList = c :: cs ∧ isBlank c = false := by
  cases v with
  | null => exact ⟨'n', _, rfl, by decide⟩
  | bool b => cases b <;> exact ⟨_, _, rfl, by decide⟩
  | int n =>
    by_cases hneg : n < 0
    · exact ⟨'-', (toString n.natAbs).toList,
        by rw [atom, toString_of_neg hneg, String.toList_append]; rfl, by decide⟩
    · obtain ⟨c, cs, hc, heq⟩ := (Text.numeral_toString n.natAbs).exists_cons
      exact ⟨c, cs, by rw [atom, toString_of_nonneg (Int.not_lt.1 hneg), heq],
        isBlank_of_isDigit hc⟩
  | string s =>
    cases s with
    | none => exact ⟨'"', _, rfl, by decide⟩
    | some s => exact ⟨'"', _, by rw [atom, quote, String.toList_ofList], by decide⟩
  | number | array | object => cases hv

/-! ## Texts of tokens -/

/-- The character of a mark. -/
def Token.mark? : Token → Option Char
  | arrayOpen => some '['
  | arrayClose => some ']'
  | objectOpen => some '\x7b'
  | objectClose => some '\x7d'
  | comma => some ','
  | colon => some ':'
  | atom _ => none

/-- The text lays out the tokens one after the other, with blanks anywhere between them. Behind an
atom stands nothing that could go on with a number. -/
inductive Laid : List Token → List Char → Prop
  | nil : Laid [] []
  | blank {c : Char} {ts : List Token} {cs : List Char} : isBlank c = true → Laid ts cs →
      Laid ts (c :: cs)
  | mark {t : Token} {c : Char} {ts : List Token} {cs : List Char} : t.mark? = some c →
      Laid ts cs → Laid (t :: ts) (c :: cs)
  | atom {v : Json} {ts : List Token} {cs : List Char} : v.Atomic → Stops cs → Laid ts cs →
      Laid (.atom v :: ts) (v.atom.toList ++ cs)

/-- What is not blank begins with its first token. -/
theorem tokens?_of_token? {c : Char} {rest after : List Char} {t : Token}
    (hc : isBlank c = false) (ht : token? (c :: rest) = some (t, after)) :
    tokens? (c :: rest) = (tokens? after).map (t :: ·) := by
  rw [tokens?, hc]
  simp only [Bool.false_eq_true, if_false]
  split
  · next hnone => rw [ht] at hnone; cases hnone
  · next hsome =>
    rw [ht] at hsome
    cases hsome
    rfl

/-- A text that lays out tokens has these tokens. -/
theorem Laid.tokens?_eq {ts : List Token} {cs : List Char} (h : Laid ts cs) :
    tokens? cs = some ts := by
  induction h with
  | nil => rw [tokens?]
  | blank hc _ ih => rw [tokens?, if_pos hc, ih]
  | @mark t c ts cs ht _ ih =>
    have hread : isBlank c = false ∧ token? (c :: cs) = some (t, cs) := by
      cases t <;> cases ht <;> exact ⟨by decide, rfl⟩
    rw [tokens?_of_token? hread.1 hread.2, ih]
    rfl
  | @atom v ts cs hv hstops _ ih =>
    have hread := token?_atom hv hstops
    obtain ⟨c, rest, heq, hc⟩ := exists_atom_cons hv
    rw [heq, List.cons_append] at hread ⊢
    rw [tokens?_of_token? hc hread, ih]
    rfl

/-- Blanks in front of tokens do not matter. -/
theorem Laid.blanks {blanks cs : List Char} {ts : List Token}
    (hblanks : ∀ c ∈ blanks, isBlank c = true) (h : Laid ts cs) : Laid ts (blanks ++ cs) := by
  induction blanks with
  | nil => exact h
  | cons c blanks ih =>
    exact .blank (hblanks c (.head _)) (ih fun d hd => hblanks d (.tail _ hd))

/-- A number that stops at a text stops at blanks in front of it. -/
theorem Stops.blanks {blanks cs : List Char} (hblanks : ∀ c ∈ blanks, isBlank c = true)
    (h : Stops cs) : Stops (blanks ++ cs) := by
  cases blanks with
  | nil => exact h
  | cons b blanks =>
    have hb := hblanks b (.head _)
    simp only [isBlank, Bool.or_eq_true, decide_eq_true_eq] at hb
    rintro c hc
    cases hc
    rcases hb with ((rfl | rfl) | rfl) | rfl <;> decide

/-- A mark that is not the sign of a number stops one. -/
theorem stops_of_mark? {t : Token} {c : Char} (ht : t.mark? = some c) (cs : List Char) :
    Stops (c :: cs) := by
  rintro d hd
  cases hd
  cases t <;> cases ht <;> decide

end Tabletop.Json
