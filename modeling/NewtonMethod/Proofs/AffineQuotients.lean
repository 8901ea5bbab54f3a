/-
NewtonMethod/Proofs/AffineQuotients.lean

The difference quotients of an affine function, in exact arithmetic.

If a single coordinate of `x` is varied, a coordinate of `A·x + b` is an affine
function of one number, and its slope is an entry of `A` (`along_affine`).  A
quotient of such a function is its slope, wherever it is taken and over whatever
distance, as long as this is not zero (`Routine.quotient_of_affine`).  So the
table of the quotients is `A`.

This settles the lists of any length, where `A` may have any shape.  Lists of a
fixed length need square tables, and for these the columns of the derivative have
been found already, on the way to the Newton update of an affine function
(`Coordinates.IsAffine`).  Main result: `affine_recoversTable`.
-/
import NewtonMethod.Proofs.AffineUpdate

namespace NewtonMethod

open Matrix PointSpace Run

variable {K : Type} {m n : ℕ}

theorem get_set [AddCommGroup K] (x : Vector K n) (j : Fin n) (t : K) :
    (x.set j t j.isLt).get = x.get + Pi.single j (t - x.get j) := by
  funext k
  show (x.set j t j.isLt)[k.val] = x.get k + _
  rw [Vector.getElem_set, Pi.single_apply]
  rcases eq_or_ne k j with rfl | hk
  · rw [if_pos rfl, if_pos rfl, add_sub_cancel]
  · rw [if_neg (Fin.val_ne_of_ne hk.symm), if_neg hk, add_zero]
    rfl

variable [Field K] [LinearOrder K] [ElementaryFunctions K]

/-! ### Affine functions -/

/-- The function `A·x + b`. -/
def Table.affine (A : Table K m n) (b : Vector K m) (x : Vector K n) : Vector K m :=
  (A.times x).zipWith (· + ·) b

theorem Table.affine_ofFn (A : Table K m n) (b : Vector K m) (v : Fin n → K) :
    A.affine b (Vector.ofFn v) = Vector.ofFn (A.toMatrix *ᵥ v + b.get) := by
  rw [Table.affine, Table.times_ofFn]
  ext i hi
  rw [Vector.getElem_zipWith, Vector.getElem_ofFn, Vector.getElem_ofFn]
  rfl

theorem Table.get_affine (A : Table K m n) (b : Vector K m) (x : Vector K n) (i : Fin m) :
    (A.affine b x).get i = (A.toMatrix *ᵥ x.get) i + b.get i := by
  nth_rewrite 1 [← ofFn_get x]
  rw [Table.affine_ofFn, get_ofFn]
  rfl

namespace Differences

/-! ### Quotients -/

/-- Along one coordinate an affine function rises in proportion to an entry of its table. -/
theorem along_affine (A : Table K m n) (b : Vector K m) (x : Vector K n) (i : Fin m) (j : Fin n)
    (t : K) :
    along (A.affine b) x i j t
      = along (A.affine b) x i j (x.get j) + A.entry i j * (t - x.get j) := by
  rw [along_get, along, Table.get_affine, Table.get_affine, get_set, A.mulVec_add_single,
    Pi.add_apply, Pi.smul_apply, smul_eq_mul, Matrix.col_apply, Table.toMatrix_apply]
  ring

variable [IsStrictOrderedRing K]

/-- A quotient of an affine function of one number is its slope. -/
theorem Routine.quotient_of_affine (q : Routine) {g : K → K} {a x h : K}
    (hg : ∀ t, g t = g x + a * (t - x)) (hh : h ≠ 0) : q.quotient g x h = a := by
  have hahead : g (x + h) = g x + a * h := by
    rw [hg, add_sub_cancel_left]
  have hbehind : g (x + -h) = g x - a * h := by
    rw [hg]
    ring
  have htwo : (Arithmetic.ofNat 2 : K) = 2 := Nat.cast_ofNat
  have hforward : (g (x + h) - g x) / h = a := by
    rw [hahead]
    field_simp
    ring
  cases q with
  | forward => exact hforward
  | approximate => exact hforward
  | central =>
    rw [quotient, hahead, hbehind, htwo]
    field_simp
    ring

theorem Routine.table_affine (q : Routine) (A : Table K m n) (b : Vector K m) (x : Vector K n)
    {h : K} (hh : h ≠ 0) : q.table (A.affine b) x h = A := by
  apply Table.ext
  intro i j
  rw [Routine.entry_table]
  exact q.quotient_of_affine (along_affine A b x i j) hh

end Differences

open Differences

/-- A routine for the derivative of `A·x - b` leads to the table `A`. -/
theorem Coordinates.IsAffine.outcome_apply [IsStrictOrderedRing K] {X J : Type} [PointSpace X K J]
    {c : Coordinates X K J n} {f : X → Except ShapeFault X} {A : Table K n n} {b : Fin n → K}
    (hf : c.IsAffine f A b) (q : Routine) (v : Fin n → K) {h : K} (hh : h ≠ 0) :
    (q.apply f (c.point v) (c.point (A.toMatrix *ᵥ v - b)) h).outcome = .ok (c.slope A) := by
  have hforward : (Differences.forward f (c.point v) (c.point (A.toMatrix *ᵥ v - b)) h).outcome
      = .ok (c.slope A) :=
    c.outcome_tabulate fun i => hf.outcome_forwardColumn v hh i
  cases q with
  | forward => exact hforward
  | central => exact c.outcome_tabulate fun i => hf.outcome_centralColumn v hh i
  | approximate =>
    have hvalue : (evaluate .residual f (c.point v) : Run K X).outcome
        = .ok (c.point (A.toMatrix *ᵥ v - b)) := by
      rw [outcome_evaluate, hf]
      rfl
    exact bind_eq_ok_iff.mpr ⟨_, hvalue, hforward⟩

/-- **Difference quotients recover an affine function.**  In exact arithmetic each routine makes the
table `A` of the function `A·x + b`, with its shape, at every point and over every distance other
than zero. -/
theorem affine_recoversTable [IsStrictOrderedRing K] (q : Routine) {h : K} (hh : h ≠ 0) :
    (∀ {m n : ℕ} (A : Table K m n) (b : Vector K m) (x : Vector K n)
      (f : Array K → Except ShapeFault (Array K)), Computes f (A.affine b) →
        (q.apply f x.toArray (A.affine b x).toArray h).outcome = .ok ⟨m, n, A⟩) ∧
    (∀ {n : ℕ} (A : Table K n n) (b x : Vector K n),
      (q.apply (fun x => .ok (A.affine b x)) x (A.affine b x) h).outcome = .ok A) ∧
    (∀ a b x : K, (q.apply (fun x => .ok (a * x + b)) x (a * x + b) h).outcome = .ok a) := by
  refine ⟨fun A b x f hf => ?_, fun A b x => ?_, fun a b x => ?_⟩
  · rw [q.outcome_columns hf, q.table_affine A b x hh]
  · have haffine : Coordinates.fixed.IsAffine (fun x => .ok (A.affine b x)) A (-b.get) := by
      intro v
      rw [sub_neg_eq_add]
      exact congrArg Except.ok (A.affine_ofFn b v)
    have hvalue : A.affine b x = Vector.ofFn (A.toMatrix *ᵥ x.get - -b.get) := by
      rw [sub_neg_eq_add, ← Table.affine_ofFn, ofFn_get]
    -- the laws of a space are about points that are made of their coordinates
    have hpoint : q.apply (fun x => .ok (A.affine b x)) x (A.affine b x) h
        = q.apply (fun x => .ok (A.affine b x)) (Vector.ofFn x.get)
            (Vector.ofFn (A.toMatrix *ᵥ x.get - -b.get)) h := by
      rw [hvalue, ofFn_get]
    rw [hpoint]
    exact haffine.outcome_apply q x.get hh
  · rw [q.outcome_number (fun t => a * t + b)]
    exact congrArg Except.ok (q.quotient_of_affine (fun t => by ring) hh)

/-- A table with three rows and two columns, by central quotients to the left. -/
theorem affine_recoversTable_threeByTwo :
    let A : Table ℚ 3 2 := #v[#v[1, 2], #v[0, -3], #v[5, 1 / 2]]
    let b : Vector ℚ 3 := #v[7, 0, -1]
    (-1 / 3 : ℚ) ≠ 0 ∧ Computes (ofVectors (A.affine b)) (A.affine b)
      ∧ (central (ofVectors (A.affine b)) #[4, 1] #[13, -3, 39 / 2] (-1 / 3)).outcome
        = .ok ⟨3, 2, A⟩ := by
  intro A b
  have hh : (-1 / 3 : ℚ) ≠ 0 := by decide +kernel
  have hvalue : A.affine b #v[4, 1] = #v[13, -3, 39 / 2] := by decide +kernel
  obtain ⟨hcolumn, -, -⟩ := affine_recoversTable .central hh
  have h := hcolumn A b #v[4, 1] _ (computes_ofVectors (A.affine b))
  rw [hvalue] at h
  exact ⟨hh, computes_ofVectors (A.affine b), h⟩

end NewtonMethod
