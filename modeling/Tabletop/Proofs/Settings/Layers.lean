import Tabletop.Proofs.Settings.Given
import Tabletop.Proofs.Settings.Variables
import Tabletop.Proofs.Toml.Keys
import Tabletop.Settings.Load

/-!
# The topmost layer decides

What a setting is given is said without the layers in `Settings.Decides`: by the last variable about
it, or else by the file, or else as usual. The layers on top of each other come to the same
(`Settings.stack_eq_some_iff`), where looking a key up in the file is to find it, as no key of a
document comes twice. What is given is looked at only then, one setting after the other
(`Layer.settings_eq_ok_iff`, `Layer.settings_eq_error_iff`). Files and environments that agree about
a setting decide it alike, whatever else is in them (`Settings.Agree.stack_eq`).
-/

namespace Tabletop

variable {s : Setting} {g : Given} {e : SettingsError}

/-- The value of a setting. -/
def Settings.of (settings : Settings) : Setting → Nat
  | .maxDice => settings.maxDice
  | .showIndividual => settings.showIndividual

/-! ## One value -/

/-- A value that a setting cannot have, and why. -/
inductive Setting.Refuses (s : Setting) : Given → SettingsError → Prop
  | other : Refuses s .other (.wrongType s)
  | integer {n : Int} : ¬ (0 ≤ n ∧ n ≤ s.greatest) → Refuses s (.integer n) (.outOfRange s)

namespace Layer

variable {layer : Layer}

/-- Settings as they stand give every setting its value. -/
theorem ofSettings_eq (settings : Settings) (s : Setting) :
    ofSettings settings s = some (.integer (settings.of s)) := by
  cases s <;> rfl

/-- A value is taken exactly if it is an integer in range. -/
theorem value_eq_ok_iff {n : Nat} (hg : layer s = some g) :
    layer.value s = .ok n ↔ g = .integer n ∧ n ≤ s.greatest := by
  unfold value
  rw [hg]
  rcases g with (m | m) | _
  · dsimp only
    split
    · next hm =>
      constructor
      · rintro ⟨⟩
        exact ⟨rfl, hm⟩
      · rintro ⟨⟨⟩, -⟩
        rfl
    · next hm =>
      refine ⟨nofun, ?_⟩
      rintro ⟨⟨⟩, hn⟩
      exact absurd hn hm
  · exact ⟨nofun, nofun⟩
  · exact ⟨nofun, nofun⟩

/-- A value is refused exactly if the setting refuses it, and with the reason for it. -/
theorem value_eq_error_iff (hg : layer s = some g) :
    layer.value s = .error e ↔ s.Refuses g e := by
  unfold value
  rw [hg]
  constructor
  · intro h
    rcases g with (m | m) | _
    · dsimp only at h
      split at h
      · cases h
      · next hm =>
        cases h
        exact .integer fun hrange => hm (Int.ofNat_le.1 hrange.2)
    · cases h
      exact .integer fun hrange => absurd hrange.1 (by omega)
    · cases h
      exact .other
  · rintro (_ | hrange)
    · rfl
    · next n =>
      cases n with
      | ofNat m => exact if_neg fun hm => hrange ⟨Int.natCast_nonneg m, Int.ofNat_le.2 hm⟩
      | negSucc m => rfl

/-! ## All values -/

/-- A layer makes up settings exactly if all its values are taken. -/
theorem settings_eq_ok_iff {settings : Settings} :
    layer.settings = .ok settings ↔ ∀ s, layer.value s = .ok (settings.of s) := by
  unfold Layer.settings
  constructor
  · intro h s
    cases hmax : layer.value .maxDice with
    | error e =>
      rw [hmax] at h
      cases h
    | ok maxDice =>
      rw [hmax] at h
      cases hshow : layer.value .showIndividual with
      | error e =>
        rw [hshow] at h
        cases h
      | ok showIndividual =>
        rw [hshow] at h
        cases h
        cases s with
        | maxDice => exact hmax
        | showIndividual => exact hshow
  · intro h
    rw [h .maxDice, h .showIndividual]
    rfl

/-- The first setting is looked at first. -/
theorem settings_eq_error_iff :
    layer.settings = .error e ↔ layer.value .maxDice = .error e ∨
      (∃ n, layer.value .maxDice = .ok n) ∧ layer.value .showIndividual = .error e := by
  unfold Layer.settings
  cases layer.value .maxDice with
  | error e' =>
    constructor
    · rintro ⟨⟩
      exact .inl rfl
    · rintro (⟨⟨⟩⟩ | ⟨⟨_, ⟨⟩⟩, -⟩)
      rfl
  | ok n =>
    cases layer.value .showIndividual with
    | error e' =>
      constructor
      · rintro ⟨⟩
        exact .inr ⟨⟨n, rfl⟩, rfl⟩
      · rintro (⟨⟨⟩⟩ | ⟨-, ⟨⟩⟩)
        rfl
    | ok m =>
      refine ⟨nofun, ?_⟩
      rintro (⟨⟨⟩⟩ | ⟨-, ⟨⟩⟩)

end Layer

namespace Settings

open Toml (Entries)

variable {file : Option String} {entries entries' : Entries} {env env' : List (String × String)}

/-! ## The topmost layer -/

/-- What a setting is given by the topmost layer that gives it anything. -/
inductive Decides (entries : Entries) (env : List (String × String)) (s : Setting) : Given → Prop
  /-- The last variable about it. -/
  | environment {v : String × String} {g : Given} :
      (env.filter (Layer.About s)).getLast? = some v → Layer.GivenBy v s g →
      Decides entries env s g
  /-- Its value in the file, if no variable is about it. -/
  | document {value : Toml.Value} : env.filter (Layer.About s) = [] → (s.key, value) ∈ entries →
      Decides entries env s (.ofValue value)
  /-- Its usual value, if it is in neither. -/
  | usual : env.filter (Layer.About s) = [] → (∀ value, (s.key, value) ∉ entries) →
      Decides entries env s (.integer (({} : Settings).of s))

/-- The layers on top of each other. -/
def stack (entries : Entries) (env : List (String × String)) : Layer :=
  (Layer.ofEnvironment env).atop ((Layer.ofTable entries).atop (Layer.ofSettings {}))

/-- A variable about a setting is on top of everything else. -/
theorem stack_eq_of_getLast? {v : String × String}
    (h : (env.filter (Layer.About s)).getLast? = some v) (hg : Layer.GivenBy v s g) :
    stack entries env s = some g := by
  unfold stack Layer.atop
  rw [Layer.ofEnvironment_eq, h, Option.bind_some, Layer.ofVariable_eq_some_iff.2 hg,
    Option.some_or]

/-- Without such a variable the file comes before the usual value. -/
theorem stack_eq_of_filter (h : env.filter (Layer.About s) = []) (entries : Entries) :
    stack entries env s =
      ((entries.get? s.key).map Given.ofValue).or (some (.integer (({} : Settings).of s))) := by
  unfold stack Layer.atop Layer.ofTable
  rw [Layer.ofEnvironment_eq, h, Layer.ofSettings_eq]
  rfl

/-- Every setting is given something. -/
theorem exists_decides (hd : entries.Distinct) (env : List (String × String)) (s : Setting) :
    ∃ g, Decides entries env s g ∧ stack entries env s = some g := by
  cases hlast : (env.filter (Layer.About s)).getLast? with
  | some v =>
    have hv := List.mem_of_getLast? hlast
    obtain ⟨g, hg⟩ := Option.isSome_iff_exists.1
      (Layer.isSome_ofVariable_iff.2 (of_decide_eq_true (List.mem_filter.1 hv).2))
    have hgiven := Layer.ofVariable_eq_some_iff.1 hg
    exact ⟨g, .environment hlast hgiven, stack_eq_of_getLast? hlast hgiven⟩
  | none =>
    have hnil := List.getLast?_eq_none_iff.1 hlast
    have hstack := stack_eq_of_filter hnil entries
    cases hget : entries.get? s.key with
    | some value =>
      rw [hget] at hstack
      exact ⟨_, .document hnil ((Entries.get?_eq_some_iff hd).1 hget), hstack⟩
    | none =>
      rw [hget] at hstack
      exact ⟨_, .usual hnil ((Entries.get?_eq_none_iff hd).1 hget), hstack⟩

/-- What the layers on top of each other give is what decides, and nothing else does. -/
theorem stack_eq_some_iff (hd : entries.Distinct) :
    stack entries env s = some g ↔ Decides entries env s g := by
  constructor
  · intro h
    obtain ⟨g', hg', hstack⟩ := exists_decides hd env s
    cases h.symm.trans hstack
    exact hg'
  · rintro (⟨hlast, hg⟩ | ⟨hnil, hmem⟩ | ⟨hnil, hnone⟩)
    · exact stack_eq_of_getLast? hlast hg
    · rw [stack_eq_of_filter hnil, (Entries.get?_eq_some_iff hd).2 hmem]
      rfl
    · rw [stack_eq_of_filter hnil, (Entries.get?_eq_none_iff hd).2 hnone]
      rfl

/-- The value of a setting is taken exactly if what decides is an integer in range. -/
theorem value_stack_eq_ok_iff (hd : entries.Distinct) {n : Nat} :
    (stack entries env).value s = .ok n ↔ Decides entries env s (.integer n) ∧ n ≤ s.greatest := by
  obtain ⟨g, hg, hstack⟩ := exists_decides hd env s
  rw [Layer.value_eq_ok_iff hstack, ← stack_eq_some_iff hd, hstack, Option.some_inj]

/-- The value of a setting is refused exactly if the setting refuses what decides. -/
theorem value_stack_eq_error_iff (hd : entries.Distinct) :
    (stack entries env).value s = .error e ↔ ∃ g, Decides entries env s g ∧ s.Refuses g e := by
  obtain ⟨g, hg, hstack⟩ := exists_decides hd env s
  rw [Layer.value_eq_error_iff hstack]
  constructor
  · exact fun hrefuses => ⟨g, hg, hrefuses⟩
  · rintro ⟨g', hg', hrefuses⟩
    cases hstack.symm.trans ((stack_eq_some_iff hd).2 hg')
    exact hrefuses

/-! ## What does not matter -/

/-- As far as a setting goes, files and environments agree: the same variables are about it, in the
same order, and if there are none the files have the same value for it. -/
structure Agree (entries : Entries) (env : List (String × String)) (entries' : Entries)
    (env' : List (String × String)) (s : Setting) : Prop where
  environment : env.filter (Layer.About s) = env'.filter (Layer.About s)
  document : env.filter (Layer.About s) = [] →
    ∀ value, (s.key, value) ∈ entries ↔ (s.key, value) ∈ entries'

/-- What decides a setting decides it wherever files and environments agree about it. -/
theorem Agree.decides (h : Agree entries env entries' env' s) (hg : Decides entries env s g) :
    Decides entries' env' s g := by
  obtain ⟨henv, hdoc⟩ := h
  cases hg with
  | environment hlast hgiven => exact .environment (henv ▸ hlast) hgiven
  | document hnil hmem => exact .document (henv ▸ hnil) ((hdoc hnil _).1 hmem)
  | usual hnil hnone =>
    exact .usual (henv ▸ hnil) fun value hmem => hnone value ((hdoc hnil value).2 hmem)

/-- The layers on top of each other give the same for what files and environments agree about. -/
theorem Agree.stack_eq (h : Agree entries env entries' env' s) (hd : entries.Distinct)
    (hd' : entries'.Distinct) : stack entries env s = stack entries' env' s := by
  obtain ⟨g, hg, hstack⟩ := exists_decides hd env s
  rw [hstack, (stack_eq_some_iff hd').2 (h.decides hg)]

/-! ## Files -/

/-- What a file holds: the entries of the document that it is, or none if there is no file. -/
inductive Holds : Option String → Entries → Prop
  | missing : Holds none []
  | document {text : String} {entries : Entries} : Toml.read? text = some entries →
      Holds (some text) entries

/-- No table below the top level has the key of a number. -/
def Plain (entries : Entries) : Prop := ∀ entry ∈ entries, ¬ entry.2.HasKey Given.numberKey

/-- No key of a file comes twice. -/
theorem Holds.distinct (h : Holds file entries) : entries.Distinct := by
  cases h with
  | missing => exact List.nodup_nil
  | document hread => exact Toml.distinct_of_read? hread

/-- The test of a document finds out whether it is plain. -/
theorem all_isPlainValue_iff :
    (entries.all fun (_, value) => Given.isPlainValue value) = true ↔ Plain entries := by
  rw [List.all_eq_true]
  exact forall₂_congr fun _ _ => Given.isPlainValue_iff

instance : Decidable (Plain entries) := decidable_of_iff _ all_isPlainValue_iff

/-- What is loaded for what a file holds. -/
theorem Holds.load_eq (h : Holds file entries) :
    load file env = if Plain entries then (stack entries env).settings else .error .malformed := by
  cases h with
  | missing => rfl
  | document hread =>
    unfold load
    dsimp only
    rw [hread]
    exact if_congr all_isPlainValue_iff rfl rfl

/-! ## Loading -/

/-- Each setting is what the topmost of environment, file and usual settings gives that gives it
anything. Settings are loaded exactly if each is given an integer that it can have; otherwise the
error is about the first that is given anything else. For a setting it does not matter what is given
for the other one or for any other key, nor what stands below the layer that decides. This holds of
files in which no table below the top level has the key of a number; all others are refused,
whatever they and the environment give. -/
theorem load_topmost (hfile : Holds file entries) (env : List (String × String)) :
    (Plain entries →
      (∀ s, ∃! g, Decides entries env s g) ∧
      (∀ settings, load file env = .ok settings ↔
        ∀ s, Decides entries env s (.integer (settings.of s)) ∧ settings.of s ≤ s.greatest) ∧
      (∀ e, load file env = .error e ↔
        (∃ g, Decides entries env .maxDice g ∧ Setting.maxDice.Refuses g e) ∨
        (∃ n : Nat, Decides entries env .maxDice (.integer n) ∧ n ≤ Setting.maxDice.greatest) ∧
          ∃ g, Decides entries env .showIndividual g ∧ Setting.showIndividual.Refuses g e) ∧
      (∀ file' entries' env', Holds file' entries' → Plain entries' →
        (∀ s, Agree entries env entries' env' s → ∀ settings settings',
          load file env = .ok settings → load file' env' = .ok settings' →
          settings.of s = settings'.of s) ∧
        ((∀ s, Agree entries env entries' env' s) → load file env = load file' env'))) ∧
    (¬ Plain entries → load file env = .error .malformed) := by
  have hd := hfile.distinct
  refine ⟨fun hplain => ?_, fun hplain => hfile.load_eq.trans (if_neg hplain)⟩
  have hload : load file env = (stack entries env).settings := hfile.load_eq.trans (if_pos hplain)
  refine ⟨?_, ?_, ?_, ?_⟩
  · intro s
    obtain ⟨g, hg, hstack⟩ := exists_decides hd env s
    refine ⟨g, hg, ?_⟩
    intro g' hg'
    cases hstack.symm.trans ((stack_eq_some_iff hd).2 hg')
    rfl
  · intro settings
    rw [hload, Layer.settings_eq_ok_iff]
    exact forall_congr' fun s => value_stack_eq_ok_iff hd
  · intro e
    rw [hload, Layer.settings_eq_error_iff]
    exact or_congr (value_stack_eq_error_iff hd)
      (and_congr (exists_congr fun n => value_stack_eq_ok_iff hd) (value_stack_eq_error_iff hd))
  · intro file' entries' env' hfile' hplain'
    rw [hload, hfile'.load_eq, if_pos hplain']
    constructor
    · intro s hagree settings settings' hok hok'
      have hvalue := Layer.settings_eq_ok_iff.1 hok s
      have hvalue' := Layer.settings_eq_ok_iff.1 hok' s
      have heq : (stack entries env).value s = (stack entries' env').value s := by
        unfold Layer.value
        rw [hagree.stack_eq hd hfile'.distinct]
      rw [hvalue, hvalue'] at heq
      exact Except.ok.inj heq
    · intro hagree
      have heq : stack entries env = stack entries' env' :=
        funext fun s => (hagree s).stack_eq hd hfile'.distinct
      exact congrArg Layer.settings heq

/-- The environment gives one setting and the file the other. What the file has for the first, and
whatever else is in the environment, does not matter, but without the environment the value in the
file is refused. -/
theorem load_topmost_partly :
    let text := "max_dice = \"many\"\nshow_individual = 7"
    let v := ("ROLLCALL_MAX_DICE", " 50 ")
    load (some text) [v] = .ok ⟨50, 7⟩ ∧ load (some text) [] = .error (.wrongType .maxDice) ∧
      load (some text) [("PATH", "/bin"), v] = load (some text) [v] := by
  intro text v
  let entries := (Toml.read? text).get (by decide +kernel)
  have hfile : Holds (some text) entries := .document (Option.some_get _).symm
  have hplain : Plain entries := by decide +kernel
  have hmax : Decides entries [v] .maxDice (.integer 50) :=
    (stack_eq_some_iff hfile.distinct).1 (by decide +kernel)
  have hshow : Decides entries [v] .showIndividual (.integer 7) :=
    (stack_eq_some_iff hfile.distinct).1 (by decide +kernel)
  have hmany : Decides entries [] .maxDice .other :=
    (stack_eq_some_iff hfile.distinct).1 (by decide +kernel)
  refine ⟨?_, ?_, ?_⟩
  · obtain ⟨-, hok, -, -⟩ := (load_topmost hfile [v]).1 hplain
    refine (hok _).2 ?_
    rintro (_ | _)
    · exact ⟨hmax, by decide⟩
    · exact ⟨hshow, by decide⟩
  · obtain ⟨-, -, herror, -⟩ := (load_topmost hfile []).1 hplain
    exact (herror _).2 (.inl ⟨_, hmany, .other⟩)
  · obtain ⟨-, -, -, hagree⟩ := (load_topmost hfile [("PATH", "/bin"), v]).1 hplain
    refine (hagree _ _ _ hfile hplain).2 ?_
    rintro (_ | _)
    · exact ⟨by decide +kernel, fun _ _ => Iff.rfl⟩
    · exact ⟨by decide +kernel, fun _ _ => Iff.rfl⟩

/-- Whether a value is a table. -/
def isTable : Toml.Value → Bool
  | .table _ _ => true
  | _ => false

/-- A table that wraps a value stands for it, so a file gives settings although what it has under
the key of one is a table. And a number refuses a file that has neither setting. -/
theorem load_wrapped_and_numbered :
    let wrapped := "max_dice = \x7b ___figment_value_value = 7 \x7d"
    let numbered := "a.___figment_value_id = 1979-05-27"
    ((Toml.read? wrapped).map (·.map fun entry => (entry.1, isTable entry.2)) =
        some [("max_dice", true)] ∧
      load (some wrapped) [] = .ok ⟨7, 10⟩) ∧
    ((Toml.read? numbered).map (·.map Prod.fst) = some ["a"] ∧
      load (some numbered) [] = .error .malformed) := by
  refine ⟨⟨?_, ?_⟩, ?_, ?_⟩ <;> decide +kernel

end Settings

end Tabletop
