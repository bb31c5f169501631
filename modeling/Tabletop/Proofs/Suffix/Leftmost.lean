import Tabletop.Event
import Tabletop.Proofs.Suffix.Scan

/-!
# A scan reads from the left

What a scan of a suffix comes to, said without the scan. Its pieces lie side by side and leave
nothing out (`Tiles`), and each is what its place in the text asks for (`Piece.Reads`): the modifier
that is spelled there, with all the digits that follow, and a single character where none is
spelled. Only one row of pieces is like this (`eq_scanFrom_of_tiles`). What a suffix asks for is
then what the last piece of each kind says (`Modifiers.LastOf`), and what is reported are the
characters by themselves. `scan_leftmost` puts this together.
-/

namespace Tabletop

namespace Suffix

open Text (NoDigit)

/-! ## Pieces in a text -/

/-- The pieces lie side by side from index `i` up to index `k`, and none of them is empty. -/
def Tiles : Nat → List Piece → Nat → Prop
  | i, [], k => i = k
  | i, p :: ps, k => p.start = i ∧ 0 < p.length ∧ Tiles (i + p.length) ps k

/-- The piece is what its place in the text asks for. -/
structure Piece.Reads (reading : Reading) (cs : List Char) (p : Piece) : Prop where
  /-- It is a modifier exactly if a modifier is spelled there. -/
  modifier_iff : (∃ m, p.token = .modifier m) ↔
    ∃ m body, Modifier.Spelling reading body m ∧ body <+: cs.drop p.start
  /-- A modifier takes up its spelling, with all the digits that follow. -/
  modifier : ∀ m, p.token = .modifier m → ∃ body rest, Modifier.Spelling reading body m ∧
    cs.drop p.start = body ++ rest ∧ p.length = body.length ∧ (m = .explode ∨ NoDigit rest)
  /-- Anything else is the one character that stands there. -/
  skipped : ∀ c, p.token = .skipped c → p.length = 1 ∧ cs[p.start]? = some c

section
variable {reading : Reading} {c : Char} {cs tail : List Char} {p : Piece} {ps : List Piece}
  {i k : Nat}

/-- Tiles end behind where they start. -/
theorem Tiles.le (h : Tiles i ps k) : i ≤ k := by
  induction ps generalizing i with
  | nil => exact Nat.le_of_eq h
  | cons p ps ih =>
    obtain ⟨-, -, hps⟩ := h
    exact Nat.le_trans (Nat.le_add_right _ _) (ih hps)

/-- There are no more pieces than characters. -/
theorem Tiles.length_le (h : Tiles i ps k) : ps.length ≤ k - i := by
  induction ps generalizing i with
  | nil => exact Nat.zero_le _
  | cons p ps ih =>
    obtain ⟨-, hpos, hps⟩ := h
    have hle := hps.le
    have hlen := ih hps
    rw [List.length_cons]
    omega

/-- Each piece begins where the one before it ends, or later. -/
theorem Tiles.start_lt (h : Tiles i ps k) : ps.Pairwise fun p q => p.start < q.start := by
  have hfrom : ∀ {ps i}, Tiles i ps k → ∀ p ∈ ps, i ≤ p.start := by
    intro ps
    induction ps with
    | nil => nofun
    | cons p ps ih =>
      rintro i ⟨rfl, hpos, hps⟩ q hq
      rcases List.mem_cons.1 hq with rfl | hq
      · exact Nat.le_refl _
      · exact Nat.le_trans (Nat.le_add_right _ _) (ih hps q hq)
  induction ps generalizing i with
  | nil => exact .nil
  | cons p ps ih =>
    obtain ⟨rfl, hpos, hps⟩ := h
    refine .cons (fun q hq => ?_) (ih hps)
    have := hfrom hps q hq
    omega

/-! ## The pieces of a scan -/

/-- A scan takes every character of a suffix for exactly one piece. -/
theorem tiles_scanFrom (reading : Reading) (i : Nat) (cs : List Char) :
    Tiles i (scanFrom reading i cs) (i + cs.length) := by
  induction i, cs using scanFrom.induct reading with
  | case1 i => simp [scanFrom, Tiles]
  | case2 i c tail head ih =>
    have hof : head.Of (c :: tail) := Token.next_of reading c tail
    have hend : i + head.width + head.rest.length = i + (c :: tail).length := by
      have := hof.le
      rw [← hof.drop, List.length_drop]
      omega
    rw [hend] at ih
    rw [scanFrom]
    exact ⟨rfl, hof.pos, ih⟩

/-- What is read at a place is what this place asks for. -/
theorem reads_next (hcs : cs.drop i = c :: tail) :
    Piece.Reads reading cs
      ⟨i, (Token.next reading c tail).width, (Token.next reading c tail).value⟩ := by
  have hspelled : (∃ h, Modifier.read? reading (c :: tail) = some h) ↔
      ∃ m body, Modifier.Spelling reading body m ∧ body <+: cs.drop i := by
    rw [hcs]
    exact Modifier.exists_read?_iff
  unfold Token.next
  split
  · next h hread =>
    refine ⟨iff_of_true ⟨h.value, rfl⟩ (hspelled.1 ⟨h, hread⟩), ?_, nofun⟩
    rintro m hm
    cases hm
    obtain ⟨body, hbody, hrest, htext, hwidth⟩ := Modifier.exists_of_read? hread
    exact ⟨body, h.rest, hbody, hcs.trans htext, hwidth, hrest⟩
  · next hread =>
    refine ⟨iff_of_false nofun fun hspell => ?_, nofun, ?_⟩
    · obtain ⟨h, hsome⟩ := hspelled.2 hspell
      rw [hread] at hsome
      cases hsome
    · rintro _ ⟨⟩
      refine ⟨rfl, ?_⟩
      have hhead := congrArg List.head? hcs
      rwa [List.head?_drop] at hhead

/-- What a place asks for is what is read there. -/
theorem Piece.Reads.next_eq (h : p.Reads reading cs) (hcs : cs.drop p.start = c :: tail) :
    Token.next reading c tail = ⟨p.token, p.length, cs.drop (p.start + p.length)⟩ := by
  have hdrop : cs.drop (p.start + p.length) = (c :: tail).drop p.length := by
    rw [← hcs, List.drop_drop]
  unfold Token.next
  cases htoken : p.token with
  | modifier m =>
    obtain ⟨body, rest, hbody, htext, hlen, hrest⟩ := h.modifier m htoken
    rw [hcs] at htext
    rw [Modifier.read?_eq_some_iff.2 ⟨body, hbody, hrest, htext, hlen⟩, hdrop, htext, hlen,
      List.drop_left]
    rfl
  | skipped d =>
    obtain ⟨hlen, hd⟩ := h.skipped d htoken
    have hnone : Modifier.read? reading (c :: tail) = none := by
      cases hread : Modifier.read? reading (c :: tail) with
      | none => rfl
      | some head =>
        obtain ⟨m, hm⟩ := h.modifier_iff.2 (hcs ▸ Modifier.exists_read?_iff.1 ⟨head, hread⟩)
        rw [htoken] at hm
        cases hm
    have hc : some d = some c := by
      rw [← hd, ← List.head?_drop, hcs]
      rfl
    rw [hnone, hdrop, hlen, Option.some.inj hc]
    rfl

/-- Every piece of a scan reads what stands at its place. -/
theorem reads_of_mem_scanFrom (hcs : cs.drop i = tail) :
    ∀ p ∈ scanFrom reading i tail, p.Reads reading cs := by
  induction i, tail using scanFrom.induct reading with
  | case1 i => simp [scanFrom]
  | case2 i c tail head ih =>
    have hof : head.Of (c :: tail) := Token.next_of reading c tail
    rw [scanFrom, List.forall_mem_cons]
    refine ⟨reads_next hcs, ih ?_⟩
    rw [← List.drop_drop, hcs, hof.drop]

/-- Pieces that lie side by side to the end of a text, each of them what its place asks for, are the
pieces of a scan. -/
theorem eq_scanFrom_of_tiles (h : Tiles i ps cs.length) (hreads : ∀ p ∈ ps, p.Reads reading cs) :
    ps = scanFrom reading i (cs.drop i) := by
  induction ps generalizing i with
  | nil =>
    cases h
    simp [scanFrom]
  | cons p ps ih =>
    obtain ⟨rfl, hpos, hps⟩ := h
    rw [List.forall_mem_cons] at hreads
    have hlt : p.start < cs.length := by
      have := hps.le
      omega
    have hnext := hreads.1.next_eq (List.drop_eq_getElem_cons hlt)
    rw [List.drop_eq_getElem_cons hlt, scanFrom, hnext, ← ih hps hreads.2]

end

/-! ## Characters by themselves -/

/-- The characters that are passed over are those of the skipping pieces. -/
theorem mem_skips_iff {ps : List Piece} {c : Char} {i : Nat} :
    (c, i) ∈ skips ps ↔ ∃ p ∈ ps, p.token = .skipped c ∧ p.start = i := by
  unfold skips
  rw [List.mem_filterMap]
  refine exists_congr fun p => and_congr_right fun _ => ?_
  cases p.token <;> simp

/-- Characters are passed over from left to right. -/
theorem Tiles.skips_lt {ps : List Piece} {i k : Nat} (h : Tiles i ps k) :
    (skips ps).Pairwise fun a b => a.2 < b.2 := by
  refine List.Pairwise.filterMap _ (fun p q hpq a ha b hb => ?_) h.start_lt
  split at ha <;> cases ha
  split at hb <;> cases hb
  exact hpq

/-! ## The last of each kind -/

/-- The count of a token that keeps dice at this side. -/
def Token.keep? (side : Extreme) : Token → Option Nat
  | .modifier (.keep side' n) => if side' = side then some n else none
  | _ => none

/-- The count of a token that drops dice at this side. -/
def Token.drop? (side : Extreme) : Token → Option Nat
  | .modifier (.drop side' n) => if side' = side then some n else none
  | _ => none

/-- The rule of a token that rerolls, and whether it is followed once only. -/
def Token.reroll? : Token → Option (Bool × Threshold)
  | .modifier (.reroll once rule) => some (once, rule)
  | _ => none

/-- The rule of a token that counts successes. -/
def Token.success? : Token → Option Threshold
  | .modifier (.success rule) => some rule
  | _ => none

/-- The last that tokens say of something. -/
def last? {α : Type} (part : Token → Option α) (tokens : List Token) : Option α :=
  (tokens.filterMap part).getLast?

/-- The last token that has a part of modifiers decides it. -/
theorem last?_concat {α : Type} (part : Token → Option α) (tokens : List Token) (t : Token) :
    last? part (tokens ++ [t]) = (part t).or (last? part tokens) := by
  unfold last?
  rw [List.filterMap_append]
  cases hpart : part t with
  | none => simp [hpart]
  | some a => simp [hpart]

end Suffix

namespace Modifiers

open Suffix (Extreme Token last?)

/-- The modifiers are what the last token of each kind says. Whether rerolls are made once goes with
the last reroll rule. -/
structure LastOf (m : Modifiers) (tokens : List Token) : Prop where
  explode : m.explode = true ↔ .modifier .explode ∈ tokens
  keepHigh : m.keepHigh = last? (Token.keep? .highest) tokens
  keepLow : m.keepLow = last? (Token.keep? .lowest) tokens
  dropHigh : m.dropHigh = last? (Token.drop? .highest) tokens
  dropLow : m.dropLow = last? (Token.drop? .lowest) tokens
  reroll : m.reroll.map (fun rule => (m.rerollOnce, rule)) = last? Token.reroll? tokens
  once : m.reroll = none → m.rerollOnce = false
  success : m.success = last? Token.success? tokens

/-- Without tokens there are no modifiers. -/
theorem lastOf_default : LastOf {} [] where
  explode := by simp
  keepHigh := rfl
  keepLow := rfl
  dropHigh := rfl
  dropLow := rfl
  reroll := rfl
  once _ := rfl
  success := rfl

/-- One more token takes the place of the last of its kind, and leaves the other kinds as they
are. -/
theorem LastOf.set {m : Modifiers} {tokens : List Token} (h : m.LastOf tokens) (t : Token) :
    (m.set t).LastOf (tokens ++ [t]) := by
  obtain ⟨hexplode, hkeepHigh, hkeepLow, hdropHigh, hdropLow, hreroll, honce, hsuccess⟩ := h
  rcases t with (_ | ⟨_ | _, n⟩ | ⟨_ | _, n⟩ | ⟨once, rule⟩ | rule) | c
  all_goals
    constructor
    case once => first | exact honce | nofun
    all_goals simp [Modifiers.set, Suffix.last?_concat, Token.keep?, Token.drop?, Token.reroll?,
      Token.success?, *]

/-- Setting one token after the other keeps the last of each. -/
theorem LastOf.foldl_set {m : Modifiers} {before : List Token} (h : m.LastOf before)
    (after : List Token) : (after.foldl Modifiers.set m).LastOf (before ++ after) := by
  induction after generalizing m before with
  | nil => rwa [List.append_nil]
  | cons t after ih =>
    rw [List.append_cons]
    exact ih (h.set t)

/-- Modifiers have what the last tokens say. -/
theorem lastOf_ofTokens (tokens : List Token) : (ofTokens tokens).LastOf tokens :=
  lastOf_default.foldl_set tokens

/-! ## The whole of it -/

open Suffix in
/-- A suffix is scanned from the left. The pieces of the lowercased text lie side by side from its
beginning to its end, no more of them than there are characters; each is what its place asks for,
and no other row of pieces is like this. The modifiers are what the last token of each kind says,
and what is reported are the characters passed over, from left to right. -/
theorem scan_leftmost (text : String) :
    let cs := Text.lower text.toList
    let pieces := scan .saturating cs
    (Tiles 0 pieces cs.length ∧ pieces.length ≤ cs.length ∧
      ∀ p ∈ pieces, p.Reads .saturating cs) ∧
    (∀ ps, Tiles 0 ps cs.length → (∀ p ∈ ps, p.Reads .saturating cs) → ps = pieces) ∧
    (parse text).LastOf (pieces.map (·.token)) ∧
    events text = (skips pieces).map (fun (c, i) => .skipped c i) ∧
    (skips pieces).Pairwise (fun a b => a.2 < b.2) ∧
    ∀ c i, (c, i) ∈ skips pieces ↔ ∃ p ∈ pieces, p.token = .skipped c ∧ p.start = i := by
  intro cs pieces
  have htiles : Tiles 0 pieces cs.length := by
    have h := tiles_scanFrom .saturating 0 cs
    rwa [Nat.zero_add] at h
  exact ⟨⟨htiles, htiles.length_le, reads_of_mem_scanFrom rfl⟩,
    fun ps hps hreads => eq_scanFrom_of_tiles hps hreads, lastOf_ofTokens _, rfl, htiles.skips_lt,
    fun c i => mem_skips_iff⟩

end Modifiers

end Tabletop
