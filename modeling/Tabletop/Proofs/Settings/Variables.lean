import Mathlib.Data.List.Induction
import Tabletop.Settings.Layers

/-!
# What variables are about

Which setting a variable of the environment is about is told by its name: the mark in any case, and
then the key of the setting, alone or with more keys behind it (`Layer.NamedFor`,
`Layer.path?_eq_some_iff`). A variable named for the key alone gives what its text spells, any other
gives a table (`Layer.GivenBy`). Of an environment only the last variable about a setting counts
(`Layer.ofEnvironment_eq`).
-/

namespace Tabletop

namespace Layer

variable {name value : String} {s : Setting} {g : Given}

/-! ## Names -/

/-- A text has a part, if only an empty one. -/
theorem parts_ne_nil (cs : List Char) : parts cs ≠ [] := by
  unfold parts
  split
  · nofun
  · nofun
  · split <;> nofun

/-- A character other than a dot goes to the first key. -/
theorem parts_cons {c : Char} (hc : c ≠ '.') (cs : List Char) :
    parts (c :: cs) = (parts cs).modifyHead (c :: ·) := by
  cases hparts : parts cs with
  | nil => exact absurd hparts (parts_ne_nil cs)
  | cons part more =>
    rw [parts, hparts]
    · rfl
    · exact hc

/-- The parts are those between dots. -/
theorem parts_eq_splitOn (cs : List Char) : parts cs = cs.splitOn '.' := by
  induction cs with
  | nil => rfl
  | cons c cs ih =>
    rw [List.splitOn_cons_eq_if_modifyHead, ← ih]
    by_cases hc : c = '.'
    · subst hc
      rfl
    · rw [if_neg (by simpa using hc), parts_cons hc]

/-- No key has a dot. -/
theorem dot_notMem_of_mem_parts {cs : List Char} : ∀ key ∈ parts cs, '.' ∉ key := by
  induction cs with
  | nil => simp [parts]
  | cons c cs ih =>
    by_cases hc : c = '.'
    · subst hc
      exact List.forall_mem_cons.2 ⟨nofun, ih⟩
    · rw [parts_cons hc]
      cases hparts : parts cs with
      | nil => nofun
      | cons part more =>
        rw [hparts, List.forall_mem_cons] at ih
        refine List.forall_mem_cons.2 ⟨?_, ih.2⟩
        simpa [Ne.symm hc] using ih.1

/-- A variable is named for a path of keys. Blanks around it aside, its name begins with the mark in
any case, and what follows is the path, in any case and between blanks: its keys with dots between
them. -/
structure NamedFor (name : String) (path : List (List Char)) : Prop where
  /-- The name consists of the mark and the path. -/
  spelled : ∃ lead body, Text.trim name.toList = lead ++ body ∧ lead.map Char.toLower = mark ∧
    Text.trim (body.map Char.toLower) = ['.'].intercalate path
  /-- There is a key. -/
  nonempty : path ≠ []
  /-- Every key has a character, and none is a dot. -/
  keys : ∀ key ∈ path, key ≠ [] ∧ '.' ∉ key

/-- The path of a name is the one that it is named for. -/
theorem path?_eq_some_iff {path : List (List Char)} :
    path? name = some path ↔ NamedFor name path := by
  have hall (keys : List (List Char)) :
      keys.all (!·.isEmpty) = true ↔ ∀ key ∈ keys, key ≠ [] := by
    simp [List.all_eq_true]
  unfold path?
  dsimp only
  constructor
  · intro h
    split at h
    · next hif =>
      cases h
      rw [Bool.and_eq_true, List.isPrefixOf_iff_prefix, hall] at hif
      obtain ⟨⟨rest, hrest⟩, hkeys⟩ := hif
      obtain ⟨lead, body, htrim, hlead, hbody⟩ := List.map_eq_append_iff.1 hrest.symm
      refine ⟨⟨lead, body, htrim, hlead, ?_⟩, parts_ne_nil _, ?_⟩
      · rw [← hrest, List.drop_left, ← hbody, parts_eq_splitOn, List.intercalate_splitOn]
      · exact fun key hkey => ⟨hkeys key hkey, dot_notMem_of_mem_parts key hkey⟩
    · cases h
  · rintro ⟨⟨lead, body, htrim, hlead, hbody⟩, hne, hkeys⟩
    have hparts : parts (Text.trim (((Text.trim name.toList).map Char.toLower).drop
        mark.length)) = path := by
      rw [htrim, List.map_append, hlead, List.drop_left, hbody, parts_eq_splitOn,
        List.splitOn_intercalate '.' (fun key hkey => (hkeys key hkey).2) hne]
    rw [hparts, if_pos]
    rw [Bool.and_eq_true, List.isPrefixOf_iff_prefix, hall]
    refine ⟨?_, fun key hkey => (hkeys key hkey).1⟩
    rw [htrim, List.map_append, hlead]
    exact List.prefix_append ..

/-! ## Variables -/

/-- A variable is about a setting: its name leads to the key of the setting, or on from there. -/
def About (s : Setting) (v : String × String) : Prop :=
  ∃ more, NamedFor v.1 (s.key.toList :: more)

/-- What a variable gives for a setting: what its text spells, or if its name leads on from the key
of the setting, a table. -/
inductive GivenBy : String × String → Setting → Given → Prop
  | text {name value : String} {s : Setting} : NamedFor name [s.key.toList] →
      GivenBy (name, value) s (.ofText value)
  | table {name value : String} {s : Setting} {next : List Char} {more : List (List Char)} :
      NamedFor name (s.key.toList :: next :: more) → GivenBy (name, value) s .other

/-- What a variable gives for a setting can be told by its name and its text. -/
theorem ofVariable_eq_some_iff : ofVariable name value s = some g ↔ GivenBy (name, value) s g := by
  unfold ofVariable
  constructor
  · intro h
    split at h
    · next key hpath =>
      split at h
      · next hkey =>
        cases h
        exact .text (path?_eq_some_iff.1 (hkey ▸ hpath))
      · cases h
    · next key more hne hpath =>
      split at h
      · next hkey =>
        cases h
        cases more with
        | nil => exact absurd rfl hne
        | cons next more => exact .table (path?_eq_some_iff.1 (hkey ▸ hpath))
      · cases h
    · cases h
    · cases h
  · rintro (hnamed | hnamed)
    · rw [path?_eq_some_iff.2 hnamed]
      exact if_pos rfl
    · rw [path?_eq_some_iff.2 hnamed]
      exact if_pos rfl

/-- A variable gives something for the settings that it is about. -/
theorem isSome_ofVariable_iff : (ofVariable name value s).isSome = true ↔ About s (name, value) := by
  rw [Option.isSome_iff_exists]
  constructor
  · rintro ⟨g, hg⟩
    cases ofVariable_eq_some_iff.1 hg with
    | text hnamed => exact ⟨_, hnamed⟩
    | table hnamed => exact ⟨_, hnamed⟩
  · rintro ⟨_ | ⟨next, more⟩, hnamed⟩
    · exact ⟨_, ofVariable_eq_some_iff.2 (.text hnamed)⟩
    · exact ⟨_, ofVariable_eq_some_iff.2 (.table hnamed)⟩

instance (s : Setting) : DecidablePred (About s) := fun _ =>
  decidable_of_iff _ isSome_ofVariable_iff

/-- Of an environment the last variable about a setting gives its value. -/
theorem ofEnvironment_eq (env : List (String × String)) (s : Setting) :
    ofEnvironment env s =
      (env.filter (About s)).getLast?.bind fun v => ofVariable v.1 v.2 s := by
  induction env using List.reverseRecOn with
  | nil => rfl
  | append_singleton env v ih =>
    have hstep : ofEnvironment (env ++ [v]) s = (ofVariable v.1 v.2 s).or (ofEnvironment env s) := by
      unfold ofEnvironment
      rw [List.foldl_append]
      rfl
    rw [hstep, List.filter_append]
    by_cases hv : About s v
    · obtain ⟨g, hg⟩ := Option.isSome_iff_exists.1 (isSome_ofVariable_iff.2 hv)
      simp [hv, hg]
    · have hnone : ofVariable v.1 v.2 s = none := by
        rw [← Option.not_isSome_iff_eq_none, isSome_ofVariable_iff]
        exact hv
      simp [hv, hnone, ih]

end Layer

end Tabletop
