import Tabletop.Toml.Reader

/-!
# No key of a document comes twice

Lines change the entries of a document by putting a value under a key, which replaces the value that
the key has (`Entries.put`). Whatever is done to the tables further down, the keys of the document
stay distinct from line to line (`Document.distinct_add?`), and so they are in every document that
is read (`distinct_of_read?`). To look a key up is then the same as to find it among the entries
(`Entries.get?_eq_some_iff`).
-/

namespace Tabletop.Toml

namespace Entries

variable {entries : Entries} {key : String} {value : Value}

/-- No key comes twice. -/
def Distinct (entries : Entries) : Prop := (entries.map Prod.fst).Nodup

/-- No key comes in but the one that is put. -/
theorem mem_keys_put {k : String} (h : k ∈ (entries.put key value).map Prod.fst) :
    k = key ∨ k ∈ entries.map Prod.fst := by
  induction entries with
  | nil => simpa [put] using h
  | cons first rest ih =>
    obtain ⟨first, _⟩ := first
    unfold put at h
    split at h
    · next heq =>
      subst heq
      simpa using h
    · rw [List.map_cons, List.mem_cons] at h ⊢
      rcases h with rfl | h
      · exact .inr (.inl rfl)
      · exact (ih h).imp_right .inr

/-- A key keeps its place if it has one. -/
theorem Distinct.put (h : entries.Distinct) : (entries.put key value).Distinct := by
  induction entries with
  | nil => exact List.pairwise_singleton _ _
  | cons first rest ih =>
    obtain ⟨first, _⟩ := first
    obtain ⟨hfirst, hrest⟩ := List.nodup_cons.1 h
    unfold Entries.put
    split
    · next heq =>
      subst heq
      exact h
    · next hne =>
      refine List.nodup_cons.2 ⟨?_, ih hrest⟩
      intro hmem
      rcases mem_keys_put hmem with heq | hmem
      · exact hne heq
      · exact hfirst hmem

/-- To look a key up is to find it among the entries. -/
theorem get?_eq_some_iff (h : entries.Distinct) :
    entries.get? key = some value ↔ (key, value) ∈ entries := by
  unfold get?
  constructor
  · intro hget
    obtain ⟨l₁, l₂, rfl, -⟩ := List.lookup_eq_some_iff.1 hget
    simp
  · intro hmem
    obtain ⟨l₁, l₂, rfl⟩ := List.append_of_mem hmem
    refine List.lookup_eq_some_iff.2 ⟨l₁, l₂, rfl, ?_⟩
    intro entry hentry
    unfold Distinct at h
    rw [List.map_append, List.nodup_append] at h
    rw [bne_iff_ne]
    exact (h.2.2 _ (List.mem_map_of_mem hentry) key (.head _)).symm

/-- A key is not found exactly if no entry has it. -/
theorem get?_eq_none_iff (h : entries.Distinct) :
    entries.get? key = none ↔ ∀ value, (key, value) ∉ entries := by
  constructor
  · intro hnone value hmem
    rw [(get?_eq_some_iff h).2 hmem] at hnone
    cases hnone
  · intro hnotMem
    cases hget : entries.get? key with
    | none => rfl
    | some value => exact absurd ((get?_eq_some_iff h).1 hget) (hnotMem value)

end Entries

/-- A change keeps keys distinct. -/
def Change.Keeps (change : Change) : Prop :=
  ∀ {origin entries entries'}, change origin entries = some entries' → Entries.Distinct entries →
    Entries.Distinct entries'

variable {made : Origin} {path : List String} {key : String} {value : Value}

/-- What is done at the end of a path does not matter to the keys in front of it. -/
theorem keeps_descend? {change : Change} (h : change.Keeps) :
    (descend? made path change).Keeps := by
  intro origin entries entries' hchange hd
  cases path with
  | nil => exact h hchange hd
  | cons key path =>
    have hput {α : Type} {sub : Option α} {f : α → Value}
        (hsub : (sub.map fun a => entries.put key (f a)) = some entries') : entries'.Distinct := by
      obtain ⟨a, -, rfl⟩ := Option.map_eq_some_iff.1 hsub
      exact hd.put
    unfold descend? at hchange
    split at hchange
    · exact hput hchange
    · cases hchange
    · split at hchange
      · cases hchange
      · exact hput hchange
    · exact hput hchange
    · cases hchange

/-- Adding a pair keeps keys distinct. -/
theorem keeps_addPair : (addPair path key value).Keeps := by
  refine keeps_descend? ?_
  intro origin entries entries' hchange hd
  dsimp only at hchange
  split at hchange
  · cases hchange
  · split at hchange
    · cases hchange
      exact hd.put
    · cases hchange

/-- Opening a table keeps keys distinct. -/
theorem keeps_openTable : (openTable path key).Keeps := by
  refine keeps_descend? ?_
  intro origin entries entries' hchange hd
  dsimp only at hchange
  split at hchange <;> cases hchange <;> exact hd.put

/-- Opening a table of an array keeps keys distinct. -/
theorem keeps_openElement : (openElement path key).Keeps := by
  refine keeps_descend? ?_
  intro origin entries entries' hchange hd
  dsimp only at hchange
  split at hchange <;> cases hchange <;> exact hd.put

/-- A line keeps the keys of a document distinct. -/
theorem Document.distinct_add? {d d' : Document} {line : Line} (h : d.add? line = some d')
    (hd : d.entries.Distinct) : d'.entries.Distinct := by
  cases line with
  | pair path value =>
    obtain ⟨entries, hentries, rfl⟩ := Option.map_eq_some_iff.1 h
    exact keeps_descend? keeps_addPair hentries hd
  | table path =>
    obtain ⟨entries, hentries, rfl⟩ := Option.map_eq_some_iff.1 h
    exact keeps_openTable hentries hd
  | element path =>
    obtain ⟨entries, hentries, rfl⟩ := Option.map_eq_some_iff.1 h
    exact keeps_openElement hentries hd

/-- All lines together keep the keys of a document distinct. -/
theorem Document.distinct_foldlM {lines : List Line} {d d' : Document}
    (h : lines.foldlM Document.add? d = some d') (hd : d.entries.Distinct) :
    d'.entries.Distinct := by
  induction lines generalizing d with
  | nil =>
    cases h
    exact hd
  | cons line lines ih =>
    obtain ⟨next, hnext, hlater⟩ := Option.bind_eq_some_iff.1 h
    exact ih hlater (distinct_add? hnext hd)

/-- No key of a document that is read comes twice. -/
theorem distinct_of_read? {text : String} {entries : Entries} (h : read? text = some entries) :
    entries.Distinct := by
  obtain ⟨lines, -, hlines⟩ := Option.bind_eq_some_iff.1 h
  obtain ⟨d, hd, rfl⟩ := Option.map_eq_some_iff.1 hlines
  exact Document.distinct_foldlM hd List.nodup_nil

end Tabletop.Toml
