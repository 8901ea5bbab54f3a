/-
NewtonMethod/Proofs/Budget.lean

Searches that differ in their budget only.

The budget of a search enters it in two places: it bounds the number of turns,
and an exhausted search names it in its error.  `Solver.withBudget n` is the
solver with the budget `n`, and everything up to a single turn is the same for
all of them.  So two things can be said of a search with budget `n`:

* If it ends for another reason than its budget, it is the same search, line by
  line of its journal, under every larger budget (`search_withBudget`).
* If it is exhausted, it has led to its last iterate by `n - 1` updates, and a
  search with `m - 1` turns more ends as the search with budget `m` from that
  iterate does, everything that is counted there being `n - 1` larger
  (`search_of_iterates`, `search_continued`).

`report_resumes` says both of the whole search, in all three spaces.  An error
keeps the coordinates of a point, and in each space these determine the point,
which is all that is used of the space.
-/
import NewtonMethod.Proofs.Failure
import NewtonMethod.Space.Column
import NewtonMethod.Space.Fixed

namespace NewtonMethod

open Run PointSpace

/-! ### What is counted in an outcome -/

section Continued

variable {X α : Type}

/-- The error of a search that goes on from another one after `k` iterations: the iteration it names
and the budget it names are `k` larger. -/
def SolveError.continued (k : Nat) : SolveError α → SolveError α
  | maxIterationsExceeded n r x => maxIterationsExceeded (n + k) r x
  | e => e.shift k

/-- The outcome of a search that goes on from another one after `k` iterations. -/
def continued (k : Nat) : Except (Stop α) (Report X α) → Except (Stop α) (Report X α)
  | .ok found => .ok { found with iterations := found.iterations + k }
  | .error (.fault f) => .error (.fault f)
  | .error (.failure e) => .error (.failure (e.continued k))

end Continued

namespace Solver

variable {X α J : Type}

/-- The same solver with another budget. -/
def withBudget (s : Solver X α J) (n : Nat) : Solver X α J :=
  { s with config := { s.config with maxIterations := n } }

@[simp] theorem withBudget_function (s : Solver X α J) (n : Nat) :
    (s.withBudget n).function = s.function := rfl

@[simp] theorem withBudget_maxIterations (s : Solver X α J) (n : Nat) :
    (s.withBudget n).config.maxIterations = n := rfl

@[simp] theorem withBudget_tolerance (s : Solver X α J) (n : Nat) :
    (s.withBudget n).config.tolerance = s.config.tolerance := rfl

variable [Arithmetic α] [PointSpace X α J] {s : Solver X α J}

@[simp] theorem withBudget_checkStart (s : Solver X α J) (n : Nat) (x : X) :
    (s.withBudget n).checkStart x = s.checkStart x := rfl

@[simp] theorem withBudget_advance (s : Solver X α J) (n i : Nat) (x fx : X) :
    (s.withBudget n).advance i x fx = s.advance i x fx := rfl

@[simp] theorem withBudget_turn (s : Solver X α J) (n i : Nat) (x : X)
    (next : X → α → Run α (Report X α)) : (s.withBudget n).turn i x next = s.turn i x next := rfl

/-- Updates do not depend on the budget. -/
theorem withBudget_updates {n : Nat} {x y : X} : (s.withBudget n).Updates x y ↔ s.Updates x y := by
  rw [updates_iff 0, updates_iff 0]
  rfl

theorem withBudget_rejects {n : Nat} {x : X} : (s.withBudget n).Rejects x ↔ s.Rejects x := Iff.rfl

theorem withBudget_iterates {n k : Nat} {x y : X} :
    (s.withBudget n).Iterates x k y ↔ s.Iterates x k y :=
  ⟨Iterates.imp fun _ _ => withBudget_updates.mp, Iterates.imp fun _ _ => withBudget_updates.mpr⟩

/-- The way that leads up to an iterate does not depend on the budget either. -/
theorem withBudget_rejectsBefore {n k : Nat} {x : X} :
    (s.withBudget n).RejectsBefore x k ↔ s.RejectsBefore x k := by
  simp only [RejectsBefore, withBudget_iterates, withBudget_rejects]

/-! ### A search that its budget does not end -/

/-- What a turn goes on with matters only if its point is rejected. -/
theorem turn_congr {i : Nat} {x : X} {next next' : X → α → Run α (Report X α)}
    (h : ∀ fx, s.function x = .ok fx → isFinite fx = true →
      Arithmetic.le (norm fx) s.config.tolerance = false →
        next fx (norm fx) = next' fx (norm fx)) :
    s.turn i x next = s.turn i x next' := by
  rw [turn, turn]
  rcases htest : (s.test i x).outcome with stop | ⟨fx, r⟩
  · rw [bind_of_error htest, bind_of_error htest]
  · rw [bind_of_ok htest, bind_of_ok htest]
    dsimp only
    rcases hle : Arithmetic.le r s.config.tolerance with - | -
    · -- the test has a value only if the function has a finite one
      have hvalue := outcome_test.symm.trans htest
      rcases hf : s.function x with f | fx'
      · rw [hf] at hvalue
        cases hvalue
      · rw [hf] at hvalue
        dsimp only at hvalue
        rcases hfin : isFinite fx' with - | -
        · rw [hfin] at hvalue
          cases hvalue
        · rw [hfin] at hvalue
          obtain ⟨rfl, rfl⟩ := Prod.mk.inj (Except.ok.inj hvalue)
          rw [if_neg Bool.false_ne_true, if_neg Bool.false_ne_true, h fx' hf hfin hle]
    · rw [if_pos rfl, if_pos rfl]

/-- The search ends for another reason than its budget. -/
def NotExhausted (r : Run α (Report X α)) : Prop :=
  ∀ n residual last, r.outcome ≠ .error (.failure (.maxIterationsExceeded n residual last))

/-- A search that is not exhausted stays the same if there are more turns. -/
theorem search_withBudget {b n i : Nat} {x : X} (h : NotExhausted ((s.withBudget b).search n i x))
    (b' m : Nat) : (s.withBudget b').search (n + m) i x = (s.withBudget b).search n i x := by
  induction n generalizing i x with
  | zero =>
    -- no point is rejected in the last turn, so it does not matter what would come after it
    have hlast : ∀ next, s.turn i x next = (s.withBudget b).search 0 i x := by
      intro next
      rw [search_zero, withBudget_turn]
      refine turn_congr fun fx hf hfin hle => ?_
      have hstop : ((s.withBudget b).search 0 i x).outcome
          = .error (.failure (.maxIterationsExceeded b (norm fx) (coordinates x))) := by
        rw [search_zero, withBudget_turn]
        exact turn_eq_error_iff.mpr (.inr (.inr ⟨fx, hf, hfin, hle, rfl⟩))
      exact absurd hstop (h _ _ _)
    rw [Nat.zero_add]
    rcases m with - | m
    · rw [search_zero, withBudget_turn]
      exact hlast _
    · rw [search_succ, withBudget_turn]
      exact hlast _
  | succ n ih =>
    rw [Nat.succ_add, search_succ, search_succ, withBudget_turn, withBudget_turn]
    refine turn_congr fun fx hf hfin hle => ?_
    rw [withBudget_advance, withBudget_advance]
    -- either the step stops both, or both go on, and the rest is not exhausted as the whole is not
    rcases hadvance : (s.advance i x fx).outcome with stop | y
    · rw [bind_of_error hadvance, bind_of_error hadvance]
    · have hrest : NotExhausted ((s.withBudget b).search n (i + 1) y) := by
        intro c residual last hstop
        refine h c residual last ?_
        rw [search_succ, withBudget_turn]
        exact turn_eq_error_iff.mpr (.inr (.inr ⟨fx, hf, hfin, hle,
          bind_eq_error_iff.mpr (.inr ⟨y, hadvance, hstop⟩)⟩))
      rw [bind_of_ok hadvance, bind_of_ok hadvance, ih hrest]

/-! ### A search that goes on -/

/-- A search whose first iterates are rejected ends as the rest of it does. -/
theorem search_of_iterates {k : Nat} {x y : X} (hy : s.Iterates x k y)
    (hbefore : s.RejectsBefore x k) (m i : Nat) :
    (s.search (k + m) i x).outcome = (s.search m (i + k) y).outcome := by
  induction hy generalizing i with
  | start x => rw [Nat.zero_add, Nat.add_zero]
  | @next x y z k hxy hyz ih =>
    obtain ⟨⟨r, ⟨fx, hf, hfin, rfl⟩, hle⟩, hbefore⟩ := (rejectsBefore_succ_iff hxy).mp hbefore
    rw [Nat.succ_add, search_succ, outcome_turn, hf]
    dsimp only
    rw [if_pos hfin, if_neg (Bool.eq_false_iff.mp hle), bind_of_ok (hxy.advance hf i)]
    dsimp only
    -- the rest of the way is one shorter and starts one later
    rw [ih hbefore, Nat.add_assoc, Nat.add_comm 1 k]

/-- A turn that counts from `i + k` ends as one that counts from `i`, up to that number, if they go
on alike. -/
theorem turn_continued (k i : Nat) (x : X) {next next' : X → α → Run α (Report X α)}
    (h : ∀ fx r, (next' fx r).outcome = continued k (next fx r).outcome) :
    (s.turn (i + k) x next').outcome = continued k (s.turn i x next).outcome := by
  rw [outcome_turn, outcome_turn]
  rcases s.function x with f | fx
  · rfl
  · dsimp only
    by_cases hfin : isFinite fx = true
    · rw [if_pos hfin, if_pos hfin]
      by_cases hle : Arithmetic.le (norm fx) s.config.tolerance = true
      · rw [if_pos hle, if_pos hle]
        rfl
      · rw [if_neg hle, if_neg hle]
        exact h fx (norm fx)
    · rw [if_neg hfin, if_neg hfin]
      rfl

/-- A search that counts from `i + k`, with a budget as much larger, ends as one that counts from
`i`, up to that number. -/
theorem search_continued (s : Solver X α J) (b k n i : Nat) (x : X) :
    ((s.withBudget (b + k)).search n (i + k) x).outcome
      = continued k ((s.withBudget b).search n i x).outcome := by
  induction n generalizing i x with
  | zero =>
    rw [search_zero, search_zero, withBudget_turn, withBudget_turn]
    exact turn_continued k i x fun _ _ => rfl
  | succ n ih =>
    rw [search_succ, search_succ, withBudget_turn, withBudget_turn]
    refine turn_continued k i x fun fx _ => ?_
    rw [withBudget_advance, withBudget_advance, outcome_bind, outcome_bind,
      later_advance s k i x fx]
    rcases hadvance : (s.advance i x fx).outcome with stop | y
    · -- a step does not know the budget: how it stops is `shift`ed as it is `continued`
      cases advance_eq_error_iff.mp hadvance with
      | slopeFault => rfl
      | slopeNotFinite => rfl
      | singular => rfl
      | shape => rfl
      | moveFault => rfl
      | overflow => rfl
    · show ((s.withBudget (b + k)).search n (i + k + 1) y).outcome
        = continued k ((s.withBudget b).search n (i + 1) y).outcome
      rw [Nat.add_right_comm, ih]

/-! ### The whole search -/

/-- With a larger budget, a search from `x` that the budget `n` does not end stays the same, and one
that it ends goes on from its last iterate. -/
structure Resumes (s : Solver X α J) (x : X) (n : Nat) : Prop where
  /-- A search that is not exhausted stays the same. -/
  kept : NotExhausted ((s.withBudget n).report x) →
    ∀ b, n ≤ b → (s.withBudget b).report x = (s.withBudget n).report x
  /-- An exhausted search names a point, and with `m - 1` turns more it ends as the search from that
  point with budget `m`. -/
  resumed : 0 < n → ∀ b r last,
    ((s.withBudget n).report x).outcome = .error (.failure (.maxIterationsExceeded b r last)) →
    ∃ y, (∀ z, coordinates z = last ↔ z = y) ∧ ∀ m, 0 < m →
      ((s.withBudget (n - 1 + m)).report x).outcome
        = continued (n - 1) ((s.withBudget m).report y).outcome

/-- A search that its budget does not end is the same under a larger one. -/
theorem report_withBudget {n : Nat} {x : X} (h : NotExhausted ((s.withBudget n).report x)) {b : Nat}
    (hb : n ≤ b) : (s.withBudget b).report x = (s.withBudget n).report x := by
  rcases hstart : (s.checkStart x).outcome with stop | ⟨⟩
  · rw [report, report, withBudget_checkStart, withBudget_checkStart, bind_of_error hstart,
      bind_of_error hstart]
  · obtain ⟨hvalid, hfin⟩ := checkStart_eq_ok_iff.mp hstart
    have hpure : ∀ c, (s.withBudget c).checkStart x = pure () := fun _ =>
      checkStart_eq_pure hvalid hfin
    rcases n with - | n
    · -- without a budget there is no other way to end
      rw [report_eq_exhausted (hpure 0) rfl] at h
      exact absurd rfl (h _ _ _)
    · obtain ⟨m, rfl⟩ := Nat.exists_eq_add_of_le hb
      rw [report_eq_search (hpure (n + 1)) rfl] at h ⊢
      rw [report_eq_search (hpure _) (Nat.succ_add n m)]
      exact search_withBudget h _ m

/-- An exhausted search has come to the point that its error names, and goes on from there. -/
theorem exists_report_continued {n b : Nat} {x : X} {r : α} {last : Array α}
    (h : ((s.withBudget (n + 1)).report x).outcome
      = .error (.failure (.maxIterationsExceeded b r last))) :
    ∃ y, coordinates y = last ∧ ∀ m,
      ((s.withBudget (n + (m + 1))).report x).outcome
        = continued n ((s.withBudget (m + 1)).report y).outcome := by
  rcases report_eq_error_iff.mp h with hstart | ⟨-, -, hmax, -⟩ | ⟨i, y, htest, hstop⟩
  · rcases checkStart_eq_error_iff.mp hstart with ⟨_, -, hstop⟩ | ⟨-, -, hstop⟩
    · cases hstop
    · cases hstop
  · cases hmax
  · obtain ⟨hvalid, hfin, hy, hyfin, hbefore, -⟩ := htest
    cases hstop with
    | step _ _ _ _ hstops => cases hstops
    | exhausted hr hle hlast =>
      -- the budget allows `n + 1` residuals, so the last one is at the iterate `n`
      obtain rfl : i = n := Nat.succ.inj hlast
      refine ⟨y, rfl, fun m => ?_⟩
      have hx : ∀ c, (s.withBudget c).checkStart x = pure () := fun _ =>
        checkStart_eq_pure hvalid hfin
      have hy' : ∀ c, (s.withBudget c).checkStart y = pure () := fun _ =>
        checkStart_eq_pure hvalid hyfin
      have hiterates : (s.withBudget (i + (m + 1))).Iterates x i y :=
        withBudget_iterates.mpr (withBudget_iterates.mp hy)
      have hrejects : (s.withBudget (i + (m + 1))).RejectsBefore x i :=
        withBudget_rejectsBefore.mpr (withBudget_rejectsBefore.mp hbefore)
      have hfirst : (s.withBudget (i + (m + 1))).report x
          = (s.withBudget (i + (m + 1))).search (i + m) 0 x := report_eq_search (hx _) rfl
      have hrest : (s.withBudget (m + 1)).report y = (s.withBudget (m + 1)).search m 0 y :=
        report_eq_search (hy' _) rfl
      rw [hfirst, hrest]
      calc ((s.withBudget (i + (m + 1))).search (i + m) 0 x).outcome
          = ((s.withBudget (i + (m + 1))).search m (0 + i) y).outcome :=
            search_of_iterates hiterates hrejects m 0
        _ = continued i ((s.withBudget (m + 1)).search m 0 y).outcome := by
            rw [Nat.add_comm i (m + 1), search_continued]

/-- Both parts hold in every space whose points have coordinates of their own. -/
theorem resumes_of_injective (hinj : ∀ y z : X, coordinates y = coordinates z → y = z)
    (s : Solver X α J) (x : X) (n : Nat) : s.Resumes x n where
  kept h _ hb := report_withBudget h hb
  resumed hn b r last h := by
    obtain ⟨n, rfl⟩ := Nat.exists_eq_succ_of_ne_zero hn.ne'
    obtain ⟨y, hlast, hreport⟩ := exists_report_continued h
    refine ⟨y, fun z => ⟨fun hz => hinj z y (hz.trans hlast.symm), ?_⟩, fun m hm => ?_⟩
    · rintro rfl
      exact hlast
    · obtain ⟨m, rfl⟩ := Nat.exists_eq_succ_of_ne_zero hm.ne'
      exact hreport m

/-- **A search can be resumed.**  In each of the three spaces: a search that does not end for want
of a budget is not changed by a larger one, and one that does ends, with a larger budget, as the
search from the point that its error names, whatever that counts being larger by the number of
updates that led there. -/
theorem report_resumes :
    (∀ (s : Solver α α α) (x : α) (n : Nat), s.Resumes x n) ∧
    (∀ (s : Solver (Array α) α (Jacobian α)) (x : Array α) (n : Nat), s.Resumes x n) ∧
    (∀ (k : Nat) (s : Solver (Vector α k) α (Table α k k)) (x : Vector α k) (n : Nat),
      s.Resumes x n) := by
  refine ⟨fun s => resumes_of_injective ?_ s, fun s => resumes_of_injective ?_ s,
    fun k s => resumes_of_injective ?_ s⟩
  · -- a number is the only entry of its coordinates
    intro y z h
    exact congrArg (fun a : Array α => a.toList.headD y) h
  · exact fun _ _ h => h
  · intro y z h
    exact Vector.toArray_inj.mp h

/-- Two residuals do not suffice from 2, and the search goes on from 3/2. -/
theorem report_resumes_rootOfTwo :
    (∃ b r, ((rootOfTwo.withBudget 2).report 2).outcome
        = .error (.failure (.maxIterationsExceeded b r #[3 / 2])))
      ∧ ((rootOfTwo.withBudget 4).report 2).outcome
        = continued 1 ((rootOfTwo.withBudget 3).report (3 / 2)).outcome
      ∧ ((rootOfTwo.withBudget 3).report 2).outcome = .ok ⟨17 / 12, 2, 1 / 144⟩
      ∧ (rootOfTwo.withBudget 9).report 2 = (rootOfTwo.withBudget 3).report 2 := by
  have hexhausted : ((rootOfTwo.withBudget 2).report 2).outcome
      = .error (.failure (.maxIterationsExceeded 2 (1 / 4) #[3 / 2])) := by decide +kernel
  have hfound : ((rootOfTwo.withBudget 3).report 2).outcome = .ok ⟨17 / 12, 2, 1 / 144⟩ := by
    decide +kernel
  obtain ⟨hnumbers, -, -⟩ := report_resumes (α := ℚ)
  obtain ⟨y, hy, hresumed⟩ := (hnumbers rootOfTwo 2 2).resumed (by decide) _ _ _ hexhausted
  -- the coordinates in the error determine the point
  obtain rfl : 3 / 2 = y := (hy (3 / 2)).mp rfl
  have hkept : NotExhausted ((rootOfTwo.withBudget 3).report 2) := by
    intro b r last h
    rw [hfound] at h
    cases h
  exact ⟨⟨_, _, hexhausted⟩, hresumed 3 (by decide), hfound,
    (hnumbers rootOfTwo 2 3).kept hkept 9 (by decide)⟩

end Solver

end NewtonMethod
