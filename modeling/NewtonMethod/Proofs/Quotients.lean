/-
NewtonMethod/Proofs/Quotients.lean

Difference quotients, in any arithmetic.

A derivative by difference quotients has a column for each coordinate of the point,
and where all the columns have values, it is assembled from these
(`outcome_tabulate`).  A column has a value where the function has values that can be
subtracted (`outcome_forwardColumn`, `outcome_centralColumn`).

There are three routines that make a derivative, and for a function of one number
`g` they all end with a single quotient (`outcome_number`):

    forward, approximate    (g(x + h) - g(x)) / h
    central                 (g(x + h) - g(x + -h)) / (2·h)

A function `F` from columns to columns becomes a function of one number if a single
coordinate of its value is looked at and a single coordinate of its argument is
varied (`along`).  The entry of the derivative in row `i` and column `j` is the same
quotient of that function (`outcome_columns`), and this is so in any arithmetic:
nothing is used but that a coordinate which is replaced by itself stays what it is.
-/
import NewtonMethod.Proofs.Coordinates
import NewtonMethod.Proofs.Outcome

namespace NewtonMethod

open PointSpace Run

namespace Differences

variable {X α J : Type} [PointSpace X α J] {m n : ℕ}

/-- A derivative by differences is assembled from its columns, if all of them have values. -/
theorem outcome_tabulate {x : X} (hx : dimension x = n) (fx : X) {column : ℕ → Run α X}
    {value : Fin n → X} (h : ∀ j : Fin n, (column j).outcome = .ok (value j)) :
    (tabulate x fx column).outcome
      = (ofExcept (assemble fx ((List.finRange n).map value)) : Run α J).outcome := by
  have hcolumns : ((List.finRange n).mapM (column ∘ Fin.val)).outcome
      = .ok ((List.finRange n).map value) :=
    outcome_mapM fun j _ => h j
  -- the coordinates are counted by numbers in the routine and by `Fin n` here
  rw [tabulate, hx, ← List.map_coe_finRange_eq_range, List.mapM_map, outcome_bind, hcolumns]
  rfl

/-- A forward column has a value where the function has one next to the point. -/
theorem outcome_forwardColumn {f : X → Except ShapeFault X} {x fx ahead rise : X} {h : α} {i : ℕ}
    (hahead : (sample f x i h).outcome = .ok ahead) (hrise : difference ahead fx = .ok rise) :
    (forwardColumn f x fx h i).outcome = .ok (divided rise h) :=
  bind_eq_ok_iff.mpr ⟨ahead, hahead, bind_eq_ok_iff.mpr ⟨rise, ofExcept_eq_ok_iff.mpr hrise, rfl⟩⟩

theorem outcome_centralColumn [Arithmetic α] {f : X → Except ShapeFault X}
    {x ahead behind rise : X} {h : α} {i : ℕ} (hahead : (sample f x i h).outcome = .ok ahead)
    (hbehind : (sample f x i (-h)).outcome = .ok behind)
    (hrise : difference ahead behind = .ok rise) :
    (centralColumn f x h i).outcome = .ok (divided rise (Arithmetic.ofNat 2 * h)) :=
  bind_eq_ok_iff.mpr ⟨ahead, hahead, bind_eq_ok_iff.mpr ⟨behind, hbehind,
    bind_eq_ok_iff.mpr ⟨rise, ofExcept_eq_ok_iff.mpr hrise, rfl⟩⟩⟩

/-! ### Functions from columns to columns -/

section Functions

variable {f : Array α → Except ShapeFault (Array α)} (F : Vector α n → Vector α m)

/-- The values of `f` at the columns of length `n` are those of `F`. -/
def Computes (f : Array α → Except ShapeFault (Array α)) (F : Vector α n → Vector α m) : Prop :=
  ∀ v, f v.toArray = .ok (F v).toArray

/-- A function of the columns of one length, as a function of columns. -/
def ofVectors (a : Array α) : Except ShapeFault (Array α) :=
  if h : a.size = n then .ok (F ⟨a, h⟩).toArray else .error (.lengths a.size n)

theorem computes_ofVectors : Computes (ofVectors F) F := by
  intro v
  exact dif_pos v.size_toArray

/-- The `i`-th coordinate of `F` as a function of the `j`-th coordinate of its argument, the others
being those of `x`. -/
def along (x : Vector α n) (i : Fin m) (j : Fin n) (t : α) : α := (F (x.set j t j.isLt)).get i

/-- The coordinate that is replaced by itself gives back the value at the point. -/
theorem along_get (x : Vector α n) (i : Fin m) (j : Fin n) :
    along F x i j (x.get j) = (F x).get i := by
  have hset : x.set j (x.get j) j.isLt = x := Vector.set_getElem_self j.isLt
  rw [along, hset]

end Functions

variable [Arithmetic α]

/-! ### The three routines -/

/-- The routines that make a derivative of difference quotients. -/
inductive Routine where
  | forward
  | central
  | approximate

namespace Routine

/-- The derivative that a routine makes.  The value `fx` at `x` is given to the first two; the last
one evaluates it. -/
def apply (q : Routine) (f : X → Except ShapeFault X) (x fx : X) (h : α) : Run α J :=
  match q with
  | .forward => Differences.forward f x fx h
  | .central => Differences.central f x fx h
  | .approximate => Differences.approximate f x h

/-- The quotient of a function of one number. -/
def quotient (q : Routine) (g : α → α) (x h : α) : α :=
  match q with
  | .forward | .approximate => (g (x + h) - g x) / h
  | .central => (g (x + h) - g (x + -h)) / (Arithmetic.ofNat 2 * h)

/-- For a function of one number each routine makes a single quotient. -/
theorem outcome_number (q : Routine) (g : α → α) (x h : α) :
    (q.apply (fun t => .ok (g t)) x (g x) h).outcome = .ok (q.quotient g x h) := by
  cases q with
  | forward => rfl
  | central => rfl
  | approximate => rfl

end Routine

/-! ### The columns of a derivative -/

/-- The difference of two columns, divided by a number, entry by entry. -/
theorem divided_zipWith {u v : Vector α m} {a : α} {value : Fin m → α}
    (h : ∀ i, (u.get i - v.get i) / a = value i) :
    divided (u.zipWith (· - ·) v).toArray a = (Vector.ofFn value).toArray := by
  -- entry by entry
  have hvalue : (u.zipWith (· - ·) v).map (· / a) = Vector.ofFn value := by
    ext i hi
    rw [Vector.getElem_map, Vector.getElem_zipWith, Vector.getElem_ofFn]
    exact h ⟨i, hi⟩
  exact congrArg Vector.toArray hvalue

theorem outcome_tabulate_column (x : Vector α n) (fx : Vector α m) {column : ℕ → Run α (Array α)}
    {A : Table α m n}
    (h : ∀ j : Fin n, (column j).outcome = .ok (Vector.ofFn fun i => A.entry i j).toArray) :
    (tabulate x.toArray fx.toArray column).outcome = .ok ⟨m, n, A⟩ := by
  rw [outcome_tabulate x.size_toArray fx.toArray h]
  exact ofExcept_eq_ok_iff.mpr (Column.assemble_col fx.size_toArray A)

/-- The table of the quotients of `F`. -/
def Routine.table (q : Routine) (F : Vector α n → Vector α m) (x : Vector α n) (h : α) :
    Table α m n :=
  Table.ofFn fun i j => q.quotient (along F x i j) (x.get j) h

@[simp] theorem Routine.entry_table (q : Routine) (F : Vector α n → Vector α m) (x : Vector α n)
    (h : α) (i : Fin m) (j : Fin n) :
    (q.table F x h).entry i j = q.quotient (along F x i j) (x.get j) h :=
  Table.entry_ofFn _ i j

section Columns

variable {f : Array α → Except ShapeFault (Array α)} {F : Vector α n → Vector α m}
  (hf : Computes f F) (x : Vector α n) (h : α)

include hf

/-- The function next to a point, one of whose coordinates is moved. -/
theorem outcome_sample_column (j : Fin n) :
    (sample f x.toArray j h).outcome = .ok (F (x.set j (x.get j + h) j.isLt)).toArray := by
  -- the coordinate is there, so the point can be moved
  have hmoved : perturbed x.toArray j h = .ok (x.set j (x.get j + h) j.isLt).toArray := by
    show Column.perturbed x.toArray j h = _
    rw [Column.perturbed_toArray, Fixed.perturbed, dif_pos j.isLt]
    rfl
  refine bind_eq_ok_iff.mpr ⟨_, ofExcept_eq_ok_iff.mpr hmoved, ?_⟩
  rw [outcome_evaluate, hf]
  rfl

/-- The entries of a forward column are quotients of functions of one number. -/
theorem outcome_forwardColumn_column (j : Fin n) :
    (forwardColumn f x.toArray (F x).toArray h j).outcome
      = .ok (Vector.ofFn fun i =>
          Routine.forward.quotient (along F x i j) (x.get j) h).toArray := by
  rw [outcome_forwardColumn (outcome_sample_column hf x h j) (Column.difference_toArray _ _)]
  apply congrArg Except.ok
  apply divided_zipWith
  intro i
  rw [Routine.quotient, along_get, along]

/-- The entries of a central column are such quotients too. -/
theorem outcome_centralColumn_column (j : Fin n) :
    (centralColumn f x.toArray h j).outcome
      = .ok (Vector.ofFn fun i =>
          Routine.central.quotient (along F x i j) (x.get j) h).toArray := by
  rw [outcome_centralColumn (outcome_sample_column hf x h j) (outcome_sample_column hf x (-h) j)
    (Column.difference_toArray _ _)]
  apply congrArg Except.ok
  apply divided_zipWith
  intro i
  rw [Routine.quotient, along, along]

/-- Each routine makes the table of these quotients. -/
theorem Routine.outcome_columns (q : Routine) :
    (q.apply f x.toArray (F x).toArray h).outcome = .ok ⟨m, n, q.table F x h⟩ := by
  have hforward : (Differences.forward f x.toArray (F x).toArray h).outcome
      = .ok ⟨m, n, Routine.forward.table F x h⟩ := by
    apply outcome_tabulate_column
    intro j
    simp only [entry_table]
    exact outcome_forwardColumn_column hf x h j
  cases q with
  | forward => exact hforward
  | central =>
    apply outcome_tabulate_column
    intro j
    simp only [entry_table]
    exact outcome_centralColumn_column hf x h j
  | approximate =>
    -- the first routine, once the value is there
    have hvalue : (evaluate .residual f x.toArray : Run α (Array α)).outcome
        = .ok (F x).toArray := by
      rw [outcome_evaluate, hf]
      rfl
    exact bind_eq_ok_iff.mpr ⟨_, hvalue, hforward⟩

end Columns

end Differences

end NewtonMethod
