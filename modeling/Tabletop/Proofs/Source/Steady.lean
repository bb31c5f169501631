import Tabletop.Proofs.Source.Runs
import Tabletop.Source.Script

/-!
# Sources that settle on one face

A steady source shows some faces first and then one face over and over (`Script.steady`). A
computation that gives a value on every such source, if only the one face comes often enough,
can be brought to an end from wherever it stands: the faces that come first are those it took so
far, and the others are the continuation. `Roller.Ends` says this with a bound on how often the
face is needed, and with a price: a value that is not what the steady face alone would have given
has used up some of the faces that come first.
-/

namespace Tabletop

/-- Some faces first, and then the same face so many times. -/
def Script.steady (first : List Nat) (face n : Nat) : Script := ⟨first ++ List.replicate n face⟩

/-- A draw is for a die with so many sides, and gives a face with a property. -/
def Entry.Shows (sides : Nat) (P : Nat → Prop) : Entry → Prop
  | .drew asked face => asked = sides ∧ P face
  | .starved _ => False
  | .event _ => True

/-- What an entry shows, it shows with less asked of it. -/
theorem Entry.Shows.mono {sides : Nat} {P Q : Nat → Prop} (h : ∀ face, P face → Q face) :
    ∀ {e : Entry}, e.Shows sides P → e.Shows sides Q
  | .drew .., he => ⟨he.1, h _ he.2⟩
  | .event _, _ => trivial

namespace Roller

variable {α β : Type} {sides face n : Nat}

/-- On the source that shows some faces `first` and then `face` so many times, the computation gives
a value. It takes `face` at most `n` times, draws for dice with `sides` sides only, and uses up as
many of the faces that come first as the price of the value says, or more. -/
def EndsOn (r : Roller Script α) (sides face n : Nat) (price : α → Nat) (first : List Nat)
    (k : Nat) : Prop :=
  ∃ a left k' log, r.run (.steady first face k) = ⟨some a, .steady left face k', log⟩ ∧
    left <:+ first ∧ price a + left.length ≤ first.length ∧ k ≤ k' + n ∧
      ∀ e ∈ log, e.Shows sides fun x => x = face ∨ x ∈ first

/-- The computation gives a value whatever faces come first, if `face` comes `n` times after
them. -/
def Ends (sides face n : Nat) (price : α → Nat) (r : Roller Script α) : Prop :=
  ∀ (first : List Nat) (k : Nat), n ≤ k → r.EndsOn sides face n price first k

/-- What a face costs: nothing if it is the steady one. -/
def price (face x : Nat) : Nat := if x = face then 0 else 1

/-- A value that costs nothing ends at once. -/
theorem ends_pure {price : α → Nat} {a : α} (h : price a = 0) :
    Ends sides face 0 price (pure a) := by
  intro first k _
  exact ⟨a, first, k, [], rfl, List.suffix_rfl, by omega, Nat.le_refl k, List.forall_mem_nil _⟩

/-- A report ends at once. -/
theorem ends_report (e : Event) : Ends sides face 0 (fun _ => 0) (report e) := by
  intro first k _
  refine ⟨(), first, k, _, rfl, List.suffix_rfl, Nat.le_of_eq (Nat.zero_add _), Nat.le_refl k,
    fun e' he' => ?_⟩
  cases List.mem_singleton.1 he'
  trivial

/-- Once its first faces are gone, a steady source shows the same face over and over. -/
theorem run_draw_steady_nil (sides face k : Nat) :
    (draw sides).run (Script.steady [] face (k + 1)) =
      ⟨some face, .steady [] face k, [.drew sides face]⟩ := rfl

/-- Before that it shows its first faces. -/
theorem run_draw_steady_cons (sides face x k : Nat) (first : List Nat) :
    (draw sides).run (Script.steady (x :: first) face k) =
      ⟨some x, .steady first face k, [.drew sides x]⟩ := rfl

/-- A draw ends on the face of the steady source, or it costs one. -/
theorem ends_draw (sides face : Nat) : Ends sides face 1 (price face) (draw sides) := by
  intro first k hk
  cases first with
  | nil =>
    obtain ⟨k, rfl⟩ := Nat.exists_eq_add_of_lt hk
    refine ⟨face, [], _, _, run_draw_steady_nil .., List.suffix_rfl, ?_, by omega, fun e he => ?_⟩
    · simp [price]
    · cases List.mem_singleton.1 he
      exact ⟨rfl, .inl rfl⟩
  | cons x first =>
    refine ⟨x, first, k, _, run_draw_steady_cons .., List.suffix_cons x first, ?_, by omega,
      fun e he => ?_⟩
    · unfold price
      rw [List.length_cons]
      split <;> omega
    · cases List.mem_singleton.1 he
      exact ⟨rfl, .inr (.head first)⟩

/-- What comes second finds the end of the faces that come first, and it pays what is left to be
paid. -/
theorem Ends.bind {r : Roller Script α} {f : α → Roller Script β} {m : Nat} {p : α → Nat}
    {price : β → Nat} (hr : Ends sides face m p r)
    (hf : ∀ a, Ends sides face n (fun b => price b - p a) (f a)) :
    Ends sides face (m + n) price (r >>= f) := by
  intro first k hk
  obtain ⟨a, left, j, l₁, hrun, hleft, hp, hj, hl₁⟩ := hr first k (by omega)
  obtain ⟨b, left', k', l₂, hrun', hleft', hq, hk', hl₂⟩ := hf a left j (by omega)
  refine ⟨b, left', k', l₁ ++ l₂, run_bind_of_some hrun hrun', hleft'.trans hleft, ?_, by omega, ?_⟩
  · dsimp only at hq
    omega
  · rw [List.forall_mem_append]
    refine ⟨hl₁, fun e he => (hl₂ e he).mono fun x hx => ?_⟩
    exact hx.imp_right fun hx => hleft.subset hx

/-- What ends within so many draws ends within more. -/
theorem Ends.of_le {r : Roller Script α} {price : α → Nat} {m : Nat}
    (h : Ends sides face m price r) (hmn : m ≤ n) : Ends sides face n price r := by
  intro first k hk
  obtain ⟨a, left, k', log, hrun, hleft, hp, hk', hlog⟩ := h first k (Nat.le_trans hmn hk)
  exact ⟨a, left, k', log, hrun, hleft, hp, by omega, hlog⟩

/-- The faces that are not the steady one are counted by what they cost. -/
theorem countP_cons_eq_add_price (x : Nat) (faces : List Nat) :
    (x :: faces).countP (· ≠ face) = faces.countP (· ≠ face) + price face x := by
  unfold price
  by_cases hx : x = face <;> simp [hx]

/-- Each face that is not the steady one has its price. -/
theorem Ends.times {r : Roller Script Nat} (hr : Ends sides face n (price face) r) (m : Nat) :
    Ends sides face (m * n) (fun faces => faces.countP (· ≠ face)) (times m r) := by
  induction m with
  | zero =>
    rw [Nat.zero_mul]
    exact ends_pure rfl
  | succ m ih =>
    have hsucc : (m + 1) * n = n + (m * n + 0) := by
      rw [Nat.add_mul]
      omega
    rw [times_succ, hsucc]
    refine hr.bind fun x => ih.bind fun faces => ends_pure ?_
    rw [countP_cons_eq_add_price]
    omega

/-! ## Nothing but one face -/

/-- Only the steady face costs nothing. -/
theorem price_eq_zero_iff {x : Nat} : price face x = 0 ↔ x = face := by
  unfold price
  split <;> simp [*]

/-- A source that shows one face only leaves no price to be paid. -/
theorem Ends.exists_run {r : Roller Script α} {price : α → Nat}
    (h : Ends sides face n price r) : ∃ a t log,
      r.run (Script.steady [] face n) = ⟨some a, t, log⟩ ∧ price a = 0 ∧
        ∀ e ∈ log, e.Shows sides (· = face) := by
  obtain ⟨a, left, k', log, hrun, -, hprice, -, hlog⟩ := h [] n (Nat.le_refl n)
  refine ⟨a, _, log, hrun, Nat.le_zero.1 (Nat.le_trans (Nat.le_add_right ..) hprice), ?_⟩
  exact fun e he => (hlog e he).mono fun x hx => hx.resolve_right List.not_mem_nil

/-- On a source that shows one face only, all values are this face. -/
theorem Ends.exists_run_times {r : Roller Script Nat} (h : Ends sides face n (price face) r)
    (m : Nat) : ∃ t log,
      (Roller.times m r).run (Script.steady [] face (m * n)) =
        ⟨some (List.replicate m face), t, log⟩ ∧
        ∀ e ∈ log, e.Shows sides (· = face) := by
  obtain ⟨faces, t, log, hrun, hprice, hlog⟩ := (h.times m).exists_run
  have hlen := (series_of_run_times (P := fun _ _ => True) (fun _ => trivial) hrun).1
  have hfaces : faces = List.replicate faces.length face :=
    List.eq_replicate_of_mem fun x hx => by simpa using List.countP_eq_zero.1 hprice x hx
  rw [hlen] at hfaces
  exact ⟨t, log, hfaces ▸ hrun, hlog⟩

/-! ## Coming to an end -/

/-- Whatever faces came, some more faces with a property bring the computation to a value. -/
def CanFinish (P : Nat → Prop) (r : Roller Script α) : Prop :=
  ∀ drawn : List Nat, ∃ more : List Nat, (∀ face ∈ more, P face) ∧
    (r.run ⟨drawn ++ more⟩).outcome.isSome = true

/-- A face that brings the computation to a value if it comes often enough is all it takes. -/
theorem canFinish_of_steady {P : Nat → Prop} {r : Roller Script α} (hface : P face)
    (h : ∀ first : List Nat, ∃ k, (r.run (.steady first face k)).outcome.isSome = true) :
    r.CanFinish P := by
  intro drawn
  obtain ⟨k, hrun⟩ := h drawn
  refine ⟨List.replicate k face, fun x hx => ?_, hrun⟩
  rw [List.eq_of_mem_replicate hx]
  exact hface

end Roller

end Tabletop
