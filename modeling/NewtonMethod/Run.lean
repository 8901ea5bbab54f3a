/-
NewtonMethod/Run.lean

Computations that keep a journal and may stop.

A `Run α β` is the journal of a computation together with its outcome, which is
a value of type `β` or the reason why there is none.  Runs are put one after
the other with `bind`: the second starts with the value of the first, its
journal continues that of the first, and if the first has stopped there is no
second.  With `pure` this is a lawful monad.

A computation stops in one of two ways.  A `SolveError` is an answer of the
solver and is reported to its caller together with the journal.  A `ShapeFault`
is a mistake in the function it was given.
-/
import NewtonMethod.Journal
import NewtonMethod.ShapeFault

namespace NewtonMethod

/-- Why a run has no value. -/
inductive Stop (α : Type) where
  /-- Points or columns of unequal sizes were used together. -/
  | fault (f : ShapeFault)
  /-- The search ended without a root. -/
  | failure (e : SolveError α)
  deriving DecidableEq, Repr

/-- The journal and the outcome of a computation. -/
@[ext] structure Run (α β : Type) where
  /-- What was done, oldest first. -/
  journal : Journal α
  /-- The value, or why there is none. -/
  outcome : Except (Stop α) β

namespace Run

variable {α β γ : Type}

/-- A value, with nothing done. -/
protected def pure (b : β) : Run α β := ⟨[], .ok b⟩

/-- One computation after another. -/
protected def bind (r : Run α β) (k : β → Run α γ) : Run α γ :=
  match r.outcome with
  | .error s => ⟨r.journal, .error s⟩
  | .ok b =>
    let next := k b
    ⟨r.journal ++ next.journal, next.outcome⟩

instance : Monad (Run α) where
  pure := Run.pure
  bind := Run.bind

/-- Writes one line and does nothing else. -/
def note (e : Entry α) : Run α Unit := ⟨[e], .ok ()⟩

/-- Writes an event. -/
def log (e : Event α) : Run α Unit := note (.event e)

/-- Stops with an error of the solver, which an event announces. -/
def fail (announcement : Event α) (e : SolveError α) : Run α β :=
  ⟨[.event announcement], .error (.failure e)⟩

/-- A computation that leaves no trace and may find a fault. -/
def ofExcept : Except ShapeFault β → Run α β
  | .ok b => ⟨[], .ok b⟩
  | .error f => ⟨[], .error (.fault f)⟩

/-- Evaluates a function and records the evaluation. -/
def evaluate {X Y : Type} (record : Entry α) (f : X → Except ShapeFault Y) (x : X) : Run α Y := do
  note record
  ofExcept (f x)

/-! ### Equations -/

@[simp] theorem pure_bind' (b : β) (k : β → Run α γ) : (pure b >>= k) = k b := by
  show Run.bind (Run.pure b) k = k b
  simp [Run.bind, Run.pure]

theorem bind_of_ok {r : Run α β} {b : β} (h : r.outcome = .ok b) (k : β → Run α γ) :
    (r >>= k) = ⟨r.journal ++ (k b).journal, (k b).outcome⟩ := by
  show Run.bind r k = _
  simp [Run.bind, h]

theorem bind_of_error {r : Run α β} {s : Stop α} (h : r.outcome = .error s) (k : β → Run α γ) :
    (r >>= k) = ⟨r.journal, .error s⟩ := by
  show Run.bind r k = _
  simp [Run.bind, h]

instance : LawfulMonad (Run α) := LawfulMonad.mk' (Run α)
  (by
    intro β r
    show Run.bind r (Run.pure ∘ id) = r
    rcases r with ⟨j, (s | b)⟩ <;> simp [Run.bind, Run.pure])
  (by
    intro β γ b k
    exact pure_bind' b k)
  (by
    intro β γ δ r k l
    show Run.bind (Run.bind r k) l = Run.bind r fun b => Run.bind (k b) l
    rcases r with ⟨j, (s | b)⟩
    · simp [Run.bind]
    · simp only [Run.bind]
      rcases h : (k b).outcome with s | c <;> simp)

end Run

end NewtonMethod
