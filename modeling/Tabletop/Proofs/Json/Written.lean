import Tabletop.Json.Reader
import Tabletop.Proofs.Json.Tokens

/-!
# Written values are read back

Both ways to write a value lay out the same tokens (`Json.tokens`) and differ in their blanks:
`Json.spread` is the text with the blanks left open, of which `Json.compact` and `Json.pretty` are
two cases. The machine that reads the tokens of a value in front of others comes to this value with
the others left (`Exact.read`), so every value is read back from its text in either way
(`Exact.read?_compact`, `Exact.read?_pretty`), unless it holds a number that is kept as it is spelled.
-/

namespace Tabletop.Json

/-- The value holds no number that is kept as it is spelled. -/
inductive Exact : Json → Prop
  | atom {v : Json} : v.Atomic → Exact v
  | array {items : List Json} : (∀ item ∈ items, Exact item) → Exact (.array items)
  | object {members : List (Option String × Json)} : (∀ member ∈ members, Exact member.2) →
      Exact (.object members)

/-! ## The tokens of a value -/

mutual

/-- The tokens of a value. -/
def tokens : Json → List Token
  | array [] => [.arrayOpen, .arrayClose]
  | array (item :: items) => .arrayOpen :: (tokens item ++ (itemTokens items ++ [.arrayClose]))
  | object [] => [.objectOpen, .objectClose]
  | object ((key, value) :: members) =>
    .objectOpen :: .atom (.string key) :: .colon ::
      (tokens value ++ (memberTokens members ++ [.objectClose]))
  | leaf => [.atom leaf]

/-- The tokens of the items after the first. -/
def itemTokens : List Json → List Token
  | [] => []
  | item :: items => .comma :: (tokens item ++ itemTokens items)

/-- The tokens of the members after the first. -/
def memberTokens : List (Option String × Json) → List Token
  | [] => []
  | (key, value) :: members =>
    .comma :: .atom (.string key) :: .colon :: (tokens value ++ memberTokens members)

end

/-- A value without parts is one token. -/
theorem tokens_of_atomic {v : Json} (hv : v.Atomic) : v.tokens = [.atom v] := by
  cases v with
  | null | bool | int | string => rfl
  | number | array | object => cases hv

/-! ## Both ways to write a value -/

mutual

/-- The text of a value with a gap wherever a line may end, which depends on the level, and some space
behind each colon. -/
def spread (gap : Nat → List Char) (space : List Char) (level : Nat) : Json → List Char
  | array [] => ['[', ']']
  | array (item :: items) =>
    '[' :: (gap (level + 1) ++ (spread gap space (level + 1) item ++
      (spreadItems gap space (level + 1) items ++ (gap level ++ [']']))))
  | object [] => ['\x7b', '\x7d']
  | object ((key, value) :: members) =>
    '\x7b' :: (gap (level + 1) ++ ((quote key).toList ++ (':' :: (space ++
      (spread gap space (level + 1) value ++ (spreadMembers gap space (level + 1) members ++
        (gap level ++ ['\x7d'])))))))
  | leaf => leaf.atom.toList

/-- The items after the first. -/
def spreadItems (gap : Nat → List Char) (space : List Char) (level : Nat) :
    List Json → List Char
  | [] => []
  | item :: items =>
    ',' :: (gap level ++ (spread gap space level item ++ spreadItems gap space level items))

/-- The members after the first. -/
def spreadMembers (gap : Nat → List Char) (space : List Char) (level : Nat) :
    List (Option String × Json) → List Char
  | [] => []
  | (key, value) :: members =>
    ',' :: (gap level ++ ((quote key).toList ++ (':' :: (space ++
      (spread gap space level value ++ spreadMembers gap space level members)))))

end

mutual

/-- The compact form is a spread without gaps and spaces. -/
theorem toList_compact (level : Nat) : ∀ j : Json, j.compact.toList = spread (fun _ => []) [] level j
  | null | bool _ | int _ | number _ | string _ => rfl
  | array [] | object [] => rfl
  | array (item :: items) => by
    simp [compact, spread, toList_compact (level + 1) item, toList_compactItems (level + 1) items]
  | object ((key, value) :: members) => by
    simp [compact, spread, toList_compact (level + 1) value,
      toList_compactMembers (level + 1) members]

/-- The items of an array, in the same way. -/
theorem toList_compactItems (level : Nat) : ∀ items : List Json,
    (compactItems items).toList = spreadItems (fun _ => []) [] level items
  | [] => rfl
  | item :: items => by
    simp [compactItems, spreadItems, toList_compact level item, toList_compactItems level items]

/-- The members of an object, in the same way. -/
theorem toList_compactMembers (level : Nat) : ∀ members : List (Option String × Json),
    (compactMembers members).toList = spreadMembers (fun _ => []) [] level members
  | [] => rfl
  | (key, value) :: members => by
    simp [compactMembers, spreadMembers, toList_compact level value,
      toList_compactMembers level members]

end

mutual

/-- The pretty form is a spread with line breaks for gaps and a space behind a colon. -/
theorem toList_prettyAt (level : Nat) : ∀ j : Json,
    (prettyAt level j).toList = spread (fun level => (newline level).toList) [' '] level j
  | null | bool _ | int _ | number _ | string _ => rfl
  | array [] | object [] => by simp [prettyAt, spread]
  | array (item :: items) => by
    simp [prettyAt, spread, toList_prettyAt (level + 1) item, toList_prettyItems (level + 1) items]
  | object ((key, value) :: members) => by
    simp [prettyAt, spread, toList_prettyAt (level + 1) value,
      toList_prettyMembers (level + 1) members]

/-- The items of an array, in the same way. -/
theorem toList_prettyItems (level : Nat) : ∀ items : List Json, (prettyItems level items).toList =
    spreadItems (fun level => (newline level).toList) [' '] level items
  | [] => rfl
  | item :: items => by
    simp [prettyItems, spreadItems, toList_prettyAt level item, toList_prettyItems level items]

/-- The members of an object, in the same way. -/
theorem toList_prettyMembers (level : Nat) : ∀ members : List (Option String × Json),
    (prettyMembers level members).toList =
      spreadMembers (fun level => (newline level).toList) [' '] level members
  | [] => rfl
  | (key, value) :: members => by
    simp [prettyMembers, spreadMembers, toList_prettyAt level value,
      toList_prettyMembers level members]

end

/-! ## The text lays out the tokens -/

/-- What is written for the value lays out its tokens, in front of whatever is laid out. -/
def LaysOut (gap : Nat → List Char) (space : List Char) (j : Json) : Prop :=
  ∀ (level : Nat) {ts : List Token} {cs : List Char}, Stops cs → Laid ts cs →
    Laid (j.tokens ++ ts) (spread gap space level j ++ cs)

section
variable {gap : Nat → List Char} {space : List Char}
  (hgap : ∀ level, ∀ c ∈ gap level, isBlank c = true) (hspace : ∀ c ∈ space, isBlank c = true)
  {ts : List Token} {cs : List Char}
include hgap

/-- If all items are laid out, so are the later items of an array. -/
theorem LaysOut.items {items : List Json} (ih : ∀ item ∈ items, LaysOut gap space item)
    (level : Nat) (hstops : Stops cs) (h : Laid ts cs) :
    Stops (spreadItems gap space level items ++ cs) ∧
      Laid (itemTokens items ++ ts) (spreadItems gap space level items ++ cs) := by
  induction items with
  | nil => exact ⟨hstops, h⟩
  | cons item items hitems =>
    obtain ⟨hstops, h⟩ := hitems fun item hitem => ih item (.tail _ hitem)
    have hitem := ih item (.head _) level hstops h
    refine ⟨stops_of_mark? (t := .comma) rfl _, ?_⟩
    simp only [itemTokens, spreadItems, List.cons_append, List.append_assoc]
    exact .mark rfl (.blanks (hgap level) hitem)

include hspace

/-- A key and the colon behind it are laid out in front of what is laid out. -/
theorem Laid.key (key : Option String) (level : Nat) (h : Laid ts cs) :
    Laid (.atom (.string key) :: .colon :: ts)
      (gap level ++ ((quote key).toList ++ (':' :: (space ++ cs)))) :=
  .blanks (hgap level) (.atom (v := .string key) trivial (stops_of_mark? (t := .colon) rfl _)
    (.mark rfl (.blanks hspace h)))

/-- If all members are laid out, so are the later members of an object. -/
theorem LaysOut.members {members : List (Option String × Json)}
    (ih : ∀ member ∈ members, LaysOut gap space member.2) (level : Nat) (hstops : Stops cs)
    (h : Laid ts cs) : Stops (spreadMembers gap space level members ++ cs) ∧
      Laid (memberTokens members ++ ts) (spreadMembers gap space level members ++ cs) := by
  induction members with
  | nil => exact ⟨hstops, h⟩
  | cons member members hmembers =>
    obtain ⟨key, value⟩ := member
    obtain ⟨hstops, h⟩ := hmembers fun member hmember => ih member (.tail _ hmember)
    have hvalue := ih (key, value) (.head _) level hstops h
    refine ⟨stops_of_mark? (t := .comma) rfl _, ?_⟩
    simp only [memberTokens, spreadMembers, List.cons_append, List.append_assoc]
    exact .mark rfl (.key hgap hspace key level hvalue)

/-- Values are laid out by what is written for them. -/
theorem Exact.laysOut {j : Json} (h : j.Exact) : LaysOut gap space j := by
  induction h with
  | @atom v hv =>
    intro level ts cs hstops hcs
    rw [tokens_of_atomic hv]
    cases v with
    | null | bool | int | string => exact .atom hv hstops hcs
    | number | array | object => cases hv
  | @array items _ ih =>
    intro level ts cs hstops hcs
    have hend : Laid (.arrayClose :: ts) (gap level ++ ']' :: cs) :=
      .blanks (hgap level) (.mark rfl hcs)
    have hstop : Stops (gap level ++ ']' :: cs) :=
      .blanks (hgap level) (stops_of_mark? (t := .arrayClose) rfl _)
    cases items with
    | nil => exact .mark rfl (.mark rfl hcs)
    | cons item items =>
      obtain ⟨hstops, hitems⟩ := LaysOut.items hgap (fun item hitem => ih item (.tail _ hitem))
        (level + 1) hstop hend
      have hitem := ih item (.head _) (level + 1) hstops hitems
      simp only [tokens, spread, List.cons_append, List.append_assoc, List.nil_append]
      exact .mark rfl (.blanks (hgap _) hitem)
  | @object members _ ih =>
    intro level ts cs hstops hcs
    have hend : Laid (.objectClose :: ts) (gap level ++ '\x7d' :: cs) :=
      .blanks (hgap level) (.mark rfl hcs)
    have hstop : Stops (gap level ++ '\x7d' :: cs) :=
      .blanks (hgap level) (stops_of_mark? (t := .objectClose) rfl _)
    cases members with
    | nil => exact .mark rfl (.mark rfl hcs)
    | cons member members =>
      obtain ⟨key, value⟩ := member
      obtain ⟨hstops, hmembers⟩ := LaysOut.members hgap hspace
        (fun member hmember => ih member (.tail _ hmember)) (level + 1) hstop hend
      have hvalue := ih (key, value) (.head _) (level + 1) hstops hmembers
      simp only [tokens, spread, List.cons_append, List.append_assoc, List.nil_append]
      exact .mark rfl (.key hgap hspace key _ hvalue)

end

/-! ## The machine reads the tokens -/

/-- The first token of a value opens an array or an object, or is an atom. -/
theorem exists_tokens_cons (j : Json) : ∃ t ts, j.tokens = t :: ts ∧
    (t = .arrayOpen ∨ t = .objectOpen ∨ ∃ v, t = .atom v) := by
  cases j with
  | array items =>
    cases items with
    | nil => exact ⟨_, _, rfl, .inl rfl⟩
    | cons => exact ⟨_, _, by rw [tokens], .inl rfl⟩
  | object members =>
    cases members with
    | nil => exact ⟨_, _, rfl, .inr (.inl rfl)⟩
    | cons => exact ⟨_, _, by rw [tokens], .inr (.inl rfl)⟩
  | null | bool | int | number | string => exact ⟨_, _, rfl, .inr (.inr ⟨_, rfl⟩)⟩

/-- The first item of an array is read like any other. -/
theorem foldlM_firstItem (j : Json) (stack : List Frame) (ts : List Token) :
    (j.tokens ++ ts).foldlM State.step? (.firstItem stack) =
      (j.tokens ++ ts).foldlM State.step? (.value (.array [] :: stack)) := by
  obtain ⟨t, rest, heq, ht⟩ := exists_tokens_cons j
  rw [heq, List.cons_append, List.foldlM_cons, List.foldlM_cons]
  rcases ht with rfl | rfl | ⟨v, rfl⟩ <;> rfl

/-- The machine reads the tokens of the value as this value. -/
def Read (j : Json) : Prop := ∀ (stack : List Frame) (ts : List Token),
  (j.tokens ++ ts).foldlM State.step? (.value stack) = ts.foldlM State.step? (.after j stack)

/-- The reader takes the later items of an array for what they are. -/
theorem Read.items {items : List Json} (ih : ∀ item ∈ items, Read item) (v : Json)
    (before : List Json) (stack : List Frame) (ts : List Token) :
    (itemTokens items ++ .arrayClose :: ts).foldlM State.step? (.after v (.array before :: stack)) =
      ts.foldlM State.step? (.after (.array ((v :: before).reverse ++ items)) stack) := by
  induction items generalizing v before with
  | nil =>
    rw [itemTokens, List.nil_append, List.foldlM_cons, List.append_nil]
    rfl
  | cons item items hitems =>
    have hitem := ih item (.head _)
    have hrest := hitems (fun item hitem => ih item (.tail _ hitem)) item (v :: before)
    rw [itemTokens, List.cons_append, List.append_assoc, List.foldlM_cons]
    calc (item.tokens ++ (itemTokens items ++ .arrayClose :: ts)).foldlM State.step?
          (.value (.array (v :: before) :: stack))
      _ = _ := hitem _ _
      _ = _ := hrest
      _ = _ := by rw [List.reverse_cons, List.append_assoc]; rfl

/-- The reader takes the later members of an object for what they are. -/
theorem Read.members {members : List (Option String × Json)}
    (ih : ∀ member ∈ members, Read member.2) (key : Option String) (v : Json)
    (before : List (Option String × Json)) (stack : List Frame) (ts : List Token) :
    (memberTokens members ++ .objectClose :: ts).foldlM State.step?
        (.after v (.object before key :: stack)) =
      ts.foldlM State.step? (.after (.object (((key, v) :: before).reverse ++ members)) stack) := by
  induction members generalizing key v before with
  | nil =>
    rw [memberTokens, List.nil_append, List.foldlM_cons, List.append_nil]
    rfl
  | cons member members hmembers =>
    obtain ⟨key', value⟩ := member
    have hvalue := ih (key', value) (.head _)
    have hrest := hmembers (fun member hmember => ih member (.tail _ hmember)) key' value
      ((key, v) :: before)
    rw [memberTokens, List.cons_append, List.cons_append, List.cons_append, List.append_assoc,
      List.foldlM_cons]
    calc (value.tokens ++ (memberTokens members ++ .objectClose :: ts)).foldlM State.step?
          (.value (.object ((key, v) :: before) key' :: stack))
      _ = _ := hvalue _ _
      _ = _ := hrest
      _ = _ := by rw [List.reverse_cons, List.append_assoc]; rfl

/-- Values are read from their tokens. -/
theorem Exact.read {j : Json} (h : j.Exact) : Read j := by
  induction h with
  | @atom v hv =>
    intro stack ts
    rw [tokens_of_atomic hv, List.cons_append, List.foldlM_cons]
    rfl
  | @array items _ ih =>
    intro stack ts
    cases items with
    | nil => rfl
    | cons item items =>
      have hitem := ih item (.head _)
      have hitems := Read.items (fun item hitem => ih item (.tail _ hitem)) item [] stack ts
      rw [tokens, List.cons_append, List.append_assoc, List.append_assoc, List.foldlM_cons]
      calc (item.tokens ++ (itemTokens items ++ ([Token.arrayClose] ++ ts))).foldlM State.step?
            (.firstItem stack)
        _ = _ := foldlM_firstItem item stack _
        _ = _ := hitem _ _
        _ = _ := hitems
  | @object members _ ih =>
    intro stack ts
    cases members with
    | nil => rfl
    | cons member members =>
      obtain ⟨key, value⟩ := member
      have hvalue := ih (key, value) (.head _)
      have hmembers := Read.members (fun member hmember => ih member (.tail _ hmember)) key value
        [] stack ts
      rw [tokens, List.cons_append, List.cons_append, List.cons_append, List.append_assoc,
        List.append_assoc, List.foldlM_cons]
      calc (value.tokens ++ (memberTokens members ++ ([Token.objectClose] ++ ts))).foldlM State.step?
            (.value (.object [] key :: stack))
        _ = _ := hvalue _ _
        _ = _ := hmembers

/-! ## Texts of values -/

namespace Exact

variable {j : Json}

/-- The tokens of a value are read back as the value. -/
theorem ofTokens?_tokens (h : j.Exact) : ofTokens? j.tokens = some j := by
  have hread := h.read [] []
  rw [List.append_nil] at hread
  rw [ofTokens?, hread]
  rfl

/-- A value is read back from its text, with whatever blanks in it and behind it. -/
theorem read?_spread (h : j.Exact) {gap : Nat → List Char} {space : List Char}
    (blanks : List Char) (hgap : ∀ level, ∀ c ∈ gap level, isBlank c = true)
    (hspace : ∀ c ∈ space, isBlank c = true)
    (hblanks : ∀ c ∈ blanks, isBlank c = true) {text : String}
    (htext : text.toList = spread gap space 0 j ++ blanks) : read? text = some j := by
  have hrest : Laid [] (blanks ++ []) := .blanks hblanks .nil
  have hlaid := h.laysOut hgap hspace 0 (.blanks hblanks stops_nil) hrest
  rw [List.append_nil, List.append_nil] at hlaid
  rw [read?, htext, hlaid.tokens?_eq]
  exact h.ofTokens?_tokens

/-- A value is read back from its text without blanks. -/
theorem read?_compact (h : j.Exact) : read? j.compact = some j :=
  h.read?_spread [] (fun _ => List.forall_mem_nil _) (List.forall_mem_nil _)
    (List.forall_mem_nil _)
    ((toList_compact 0 j).trans (List.append_nil _).symm)

/-- A line break with its indentation is blank. -/
theorem isBlank_newline (level : Nat) : ∀ c ∈ (newline level).toList, isBlank c = true := by
  have hchars : (newline level).toList = '\n' :: List.replicate (2 * level) ' ' := by
    simp [newline]
  rw [hchars, List.forall_mem_cons]
  exact ⟨by decide, fun c hc => by rw [List.eq_of_mem_replicate hc]; decide⟩

/-- A value is read back from its text over several lines, with a line break behind it or without
one. -/
theorem read?_pretty (h : j.Exact) :
    read? j.pretty = some j ∧ read? (j.pretty ++ "\n") = some j := by
  have hspace : ∀ c ∈ [' '], isBlank c = true := List.all_eq_true.1 rfl
  refine ⟨h.read?_spread [] isBlank_newline hspace (List.forall_mem_nil _) ?_,
    h.read?_spread ['\n'] isBlank_newline hspace (List.all_eq_true.1 rfl) ?_⟩
  · rw [pretty, toList_prettyAt, List.append_nil]
  · rw [pretty, String.toList_append, toList_prettyAt]
    rfl

end Exact

end Tabletop.Json
