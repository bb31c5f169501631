import Tabletop.Event

/-!
# Sources of faces, and runs over them

A `DieSource` answers one question, "which face does a die with so many sides show?", until it is
dry. A `Roller` is a computation that asks a source; running it gives a `Run`: the value, unless the
source went dry, what is left of the source, and one log in which draws and events stand in the
order in which they happened. `draws`, `asked` and `events` are views of that log.

A loop carries the values and the log of its earlier turns with it, latest first, so that its cost
is the length of its log and its depth is constant. `Roller.times_succ` says what the loop of
`Roller.times` comes to without them.

Every source has a budget that each face lowers, so rolling for as long as the faces demand it comes
to an end. `Roller.Spends` says how much of the budget a computation needs.
-/

namespace Tabletop

/-- Something that dice take their faces from. -/
class DieSource (σ : Type) where
  /-- The face of a die with this many sides, none if the source is dry, and the source after it. -/
  draw : Nat → σ → Option Nat × σ
  /-- A bound on the number of faces the source has left. -/
  budget : σ → Nat
  /-- A face lowers the bound. -/
  budget_lt : ∀ {sides : Nat} {s t : σ} {face : Nat}, draw sides s = (some face, t) →
    budget t < budget s

/-- One line of the log of a run. -/
inductive Entry where
  /-- A die with this many sides took this face. -/
  | drew (sides face : Nat)
  /-- The source was dry when a die with this many sides asked. -/
  | starved (sides : Nat)
  /-- Something was reported. -/
  | event (e : Event)
  deriving DecidableEq, Repr

namespace Entry

/-- The sides asked for, if the entry is a draw or an attempt at one. -/
def asked? : Entry → Option Nat
  | drew sides _ | starved sides => some sides
  | event _ => none

/-- The face drawn, if the entry is a draw. -/
def face? : Entry → Option Nat
  | drew _ face => some face
  | starved _ | event _ => none

/-- The event, if the entry is one. -/
def event? : Entry → Option Event
  | event e => some e
  | drew .. | starved _ => none

end Entry

/-- The sides asked for, in order. A draw that failed counts. -/
def asked (log : List Entry) : List Nat := log.filterMap Entry.asked?

/-- The faces drawn, in order. -/
def drawn (log : List Entry) : List Nat := log.filterMap Entry.face?

/-- The events, in order. -/
def events (log : List Entry) : List Event := log.filterMap Entry.event?

/-- What came of a computation that asked a source. -/
structure Run (σ α : Type) where
  /-- The value, none if the source went dry. -/
  outcome : Option α
  /-- The source afterwards. -/
  rest : σ
  /-- What happened, in order. -/
  log : List Entry
  deriving Repr

/-- The run with something that happened before it. -/
def Run.after {σ α : Type} (log : List Entry) (r : Run σ α) : Run σ α :=
  { r with log := log ++ r.log }

/-- A computation that asks a source. -/
@[ext]
structure Roller (σ α : Type) where
  /-- Runs the computation on a source. -/
  run : σ → Run σ α

namespace Roller

variable {σ α β : Type}

/-- A value that takes no draw. -/
protected def pure (a : α) : Roller σ α := ⟨fun s => ⟨some a, s, []⟩⟩

/-- One computation after the other. A dry source ends both. -/
protected def bind (r : Roller σ α) (f : α → Roller σ β) : Roller σ β := ⟨fun s =>
  match r.run s with
  | ⟨none, t, log⟩ => ⟨none, t, log⟩
  | ⟨some a, t, log⟩ => ((f a).run t).after log⟩

instance : Monad (Roller σ) where
  pure := Roller.pure
  bind := Roller.bind

/-- Reports an event. -/
def report (e : Event) : Roller σ Unit := ⟨fun s => ⟨some (), s, [.event e]⟩⟩

/-- Reports events. -/
def reports (es : List Event) : Roller σ Unit := ⟨fun s => ⟨some (), s, es.map .event⟩⟩

/-- Asks for the face of one die. -/
def draw [DieSource σ] (sides : Nat) : Roller σ Nat := ⟨fun s =>
  match DieSource.draw sides s with
  | (none, t) => ⟨none, t, [.starved sides]⟩
  | (some face, t) => ⟨some face, t, [.drew sides face]⟩⟩

/-- The same computation so many times over. Of the times before, `values` are the values and `past`
is the log, both latest first. -/
def timesFrom (r : Roller σ α) : List α → List Entry → Nat → σ → Run σ (List α)
  | values, past, 0, s => ⟨some values.reverse, s, past.reverse⟩
  | values, past, n + 1, s => match r.run s with
    | ⟨none, t, log⟩ => ⟨none, t, past.reverse ++ log⟩
    | ⟨some a, t, log⟩ => timesFrom r (a :: values) (log.reverse ++ past) n t

/-- The same computation so many times over. -/
def times (n : Nat) (r : Roller σ α) : Roller σ (List α) := ⟨timesFrom r [] [] n⟩

/-! ## Running one after the other -/

/-- What happened before a computation stands in front of its log. -/
theorem run_bind (r : Roller σ α) (f : α → Roller σ β) (s : σ) :
    (r >>= f).run s = match (r.run s).outcome with
      | none => ⟨none, (r.run s).rest, (r.run s).log⟩
      | some a => ((f a).run (r.run s).rest).after (r.run s).log := by
  change (Roller.bind r f).run s = _
  unfold Roller.bind
  dsimp only
  split <;> next h => rw [h]

/-- A value takes nothing from the source. -/
@[simp]
theorem run_pure (a : α) (s : σ) : (pure a : Roller σ α).run s = ⟨some a, s, []⟩ := rfl

/-- A report takes nothing from the source. -/
@[simp]
theorem run_report (e : Event) (s : σ) :
    (report e : Roller σ Unit).run s = ⟨some (), s, [.event e]⟩ := rfl

/-- Reports take nothing from the source. -/
@[simp]
theorem run_reports (es : List Event) (s : σ) :
    (reports es : Roller σ Unit).run s = ⟨some (), s, es.map .event⟩ := rfl

/-- A draw from a dry source starves. -/
theorem run_draw_of_none [DieSource σ] {sides : Nat} {s t : σ}
    (h : DieSource.draw sides s = (none, t)) :
    (draw sides).run s = ⟨none, t, [.starved sides]⟩ := by
  unfold draw; dsimp only; rw [h]

/-- A draw takes the face that the source has. -/
theorem run_draw_of_some [DieSource σ] {sides face : Nat} {s t : σ}
    (h : DieSource.draw sides s = (some face, t)) :
    (draw sides).run s = ⟨some face, t, [.drew sides face]⟩ := by
  unfold draw; dsimp only; rw [h]

/-- The values and the log of earlier times stand in front of what is to come. -/
theorem timesFrom_eq (r : Roller σ α) (n : Nat) :
    ∀ (values : List α) (past : List Entry) (s : σ), timesFrom r values past n s =
      ⟨(timesFrom r [] [] n s).outcome.map (values.reverse ++ ·), (timesFrom r [] [] n s).rest,
        past.reverse ++ (timesFrom r [] [] n s).log⟩ := by
  induction n with
  | zero => intro values past s; simp [timesFrom]
  | succ n ih =>
    intro values past s
    unfold timesFrom
    split
    · simp
    · next a t log _ =>
      rw [ih (a :: values), ih [a]]
      simp [Function.comp_def]

/-- Nothing is done zero times. -/
@[simp]
theorem times_zero (r : Roller σ α) : times 0 r = pure [] := rfl

/-- One time, then the others. -/
theorem times_succ (n : Nat) (r : Roller σ α) :
    times (n + 1) r = r >>= fun a => times n r >>= fun as => pure (a :: as) := by
  ext1
  funext s
  rw [run_bind]
  change timesFrom r [] [] (n + 1) s = _
  unfold timesFrom
  split
  · next h => simp [h]
  · next a t log h =>
    have hrun : (times n r).run t = timesFrom r [] [] n t := rfl
    rw [timesFrom_eq, h]
    dsimp only
    rw [run_bind, hrun]
    cases (timesFrom r [] [] n t).outcome <;> simp [Run.after]

/-! ## What a computation spends -/

section Spends

variable [DieSource σ]

/-- Whenever the computation gives a value, it has lowered the budget by `n` at least. -/
def Spends (r : Roller σ α) (n : Nat) : Prop :=
  ∀ s a, (r.run s).outcome = some a → DieSource.budget (r.run s).rest + n ≤ DieSource.budget s

/-- What spends so much spends less. -/
theorem Spends.mono {r : Roller σ α} {m n : Nat} (h : Spends r n) (hmn : m ≤ n) :
    Spends r m := fun s a ha => by
  have := h s a ha; omega

/-- A value need not spend anything. -/
theorem spends_pure (a : α) : Spends (pure a : Roller σ α) 0 := fun _ _ _ => Nat.le_refl _

/-- A report need not spend anything. -/
theorem spends_report (e : Event) : Spends (report e : Roller σ Unit) 0 :=
  fun _ _ _ => Nat.le_refl _

/-- A draw spends one. -/
theorem spends_draw (sides : Nat) : Spends (draw sides : Roller σ Nat) 1 := by
  intro s a h
  unfold draw at h ⊢
  dsimp only at h ⊢
  split at h
  · simp at h
  · next hd =>
    exact DieSource.budget_lt hd

/-- One computation after the other spends what both do. -/
theorem Spends.bind {r : Roller σ α} {f : α → Roller σ β} {m n : Nat} (hr : Spends r m)
    (hf : ∀ a, Spends (f a) n) : Spends (r >>= f) (m + n) := by
  intro s b h
  change ((Roller.bind r f).run s).outcome = some b at h
  change DieSource.budget ((Roller.bind r f).run s).rest + (m + n) ≤ _
  unfold Roller.bind at h ⊢
  dsimp only at h ⊢
  split at h
  · simp at h
  · next a t log hrun =>
    have h₁ := hr s a (by rw [hrun])
    have h₂ := hf a t b h
    simp only [hrun, Run.after] at h₁ h₂ ⊢
    omega

/-- So many times over, so many times as much is spent. -/
theorem Spends.times {r : Roller σ α} {k : Nat} (hr : Spends r k) :
    ∀ n, Spends (times n r) (n * k)
  | 0 => by rw [Nat.zero_mul]; exact spends_pure []
  | n + 1 => by
    rw [times_succ]
    have h := hr.bind fun a => (hr.times n).bind fun as => spends_pure (a :: as)
    exact h.mono (by rw [Nat.add_mul]; omega)

end Spends

end Roller

end Tabletop
