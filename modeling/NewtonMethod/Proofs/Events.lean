/-
NewtonMethod/Proofs/Events.lean

What the events of a search tell.

The events of a search come in blocks, one for each point that is tested, and the
block of the `i`-th point `x` tells

    residual    the norm of the residual at x
    clamped     the length of the step from x, if it is longer than the trust radius
    step        the length of the step that is taken, if it is

where the last two are left out if there is no step, because the search ends at `x`
(`TurnEvents`).  After the blocks comes the announcement of an error, or nothing.
Since no event of a block is a warning and every announcement is one, a search that
fails gives one warning, the last of its events, and a search that does not fail
gives none (`Mirrors`).

Main result: `events_mirror`, for a search and for a step of its own.  The events of
a search are read off its course.
-/
import NewtonMethod.Proofs.Course
import NewtonMethod.Proofs.StepLoop

namespace NewtonMethod

open Run PointSpace

variable {X α J β : Type}

/-! ### Events of a journal -/

namespace Journal

@[simp] theorem events_append (j k : Journal α) : events (j ++ k) = j.events ++ k.events :=
  List.filterMap_append

@[simp] theorem events_test (e : Event α) (j : Journal α) :
    events (.residual :: .event e :: j) = e :: j.events := rfl

@[simp] theorem events_map_event (es : List (Event α)) : events (es.map .event) = es := by
  rw [events, List.filterMap_map]
  exact List.filterMap_some

end Journal

/-! ### Levels -/

theorem level_announcement (told : Nat → Option Nat) (e : SolveError α) :
    (e.announcement told).level = .warn := by
  rcases e with _ | _ | ⟨_ | _ | _, _, _⟩ | _ | _ | _ <;> rfl

theorem level_of_mem_announcements {told : Nat → Option Nat} {o : Except (Stop α) β} {e : Event α}
    (h : e ∈ announcements told o) : e.level = .warn := by
  rcases o with (f | err) | b
  · cases h
  · obtain rfl := List.mem_singleton.mp h
    exact level_announcement told err
  · cases h

/-- It is the stop that is announced, whatever the run would have led to. -/
theorem announcements_error {γ : Type} (told : Nat → Option Nat) (stop : Stop α) :
    announcements told (.error stop : Except (Stop α) β)
      = announcements told (.error stop : Except (Stop α) γ) := by
  rcases stop with f | e <;> rfl

/-- The run tells of itself by `es`, and then it announces the error that it ends with. -/
structure Mirrors (told : Nat → Option Nat) (r : Run α β) (es : List (Event α)) : Prop where
  events : r.journal.events = es ++ announcements told r.outcome
  debug : ∀ e ∈ es, e.level = .debug
  warnings : r.journal.events.filter (fun e => e.level = .warn) = announcements told r.outcome

/-- Among events that are no warnings the announcement is the only warning. -/
theorem mirrors_of_events {told : Nat → Option Nat} {r : Run α β} {es : List (Event α)}
    (events : r.journal.events = es ++ announcements told r.outcome)
    (debug : ∀ e ∈ es, e.level = .debug) : Mirrors told r es := by
  refine ⟨events, debug, ?_⟩
  have hnone : es.filter (fun e => e.level = .warn) = [] := by
    refine List.filter_eq_nil_iff.mpr fun e he => ?_
    rw [debug e he]
    decide
  have hall : (announcements told r.outcome).filter (fun e => e.level = .warn)
      = announcements told r.outcome :=
    List.filter_eq_self.mpr fun e he => decide_eq_true (level_of_mem_announcements he)
  rw [events, List.filter_append, hnone, hall, List.nil_append]

namespace Solver

variable [Arithmetic α] [PointSpace X α J] {s : Solver X α J} {i : Nat} {x fx : X}
  {j : Journal α} {o : Except (Stop α) (Report X α)} {es : List (Event α)}

theorem StepEvents.level (h : s.StepEvents i x fx es) : ∀ e ∈ es, e.level = .debug := by
  have hclamp : ∀ delta, ∀ e ∈ s.clampEvents delta, e.level = .debug := by
    intro delta e he
    rw [clampEvents] at he
    rcases hradius : s.config.maxRadius with - | radius
    · rw [hradius] at he
      cases he
    · rw [hradius] at he
      dsimp only at he
      split at he
      next =>
        obtain rfl := List.mem_singleton.mp he
        rfl
      next => cases he
  cases h with
  | unsolved => exact List.forall_mem_nil _
  | stopped => exact hclamp _
  | taken =>
    intro e he
    rcases List.mem_append.mp he with he | he
    · exact hclamp _ e he
    · obtain rfl := List.mem_singleton.mp he
      rfl

/-! ### The events of a step -/

/-- A derivative has no events of its own. -/
theorem events_at (d : Derivative X α J) (f : X → Except ShapeFault X) (x fx : X) :
    (d.at f x fx).journal.events = [] := by
  obtain ⟨lines, hjournal, hsamples, -⟩ := exists_journal_at d f x fx
  rw [hjournal]
  refine List.filterMap_eq_nil_iff.mpr fun line hline => ?_
  rcases List.mem_cons.mp hline with rfl | hline
  · rfl
  · rcases hsamples line hline with rfl | rfl <;> rfl

theorem exists_events_advance (s : Solver X α J) (i : Nat) (x fx : X) :
    ∃ es, s.StepEvents i x fx es
      ∧ (s.advance i x fx).journal.events
          = es ++ announcements some (s.advance i x fx).outcome := by
  obtain ⟨es, hes, hjournal⟩ := exists_journal_advance s i x fx
  refine ⟨es, hes, ?_⟩
  rw [hjournal, Journal.events_append, events_at, Journal.events_map_event, List.nil_append]

/-! ### The events of a search -/

/-- The block of events for `x`, the `i`-th point that a search tests. -/
inductive TurnEvents (s : Solver X α J) (i : Nat) (x : X) : List (Event α) → Prop
  | last {r : α} (residual : s.HasResidual x r)
      (ends : s.Accepts x r ∨ i + 1 = s.config.maxIterations) :
      TurnEvents s i x [.residual i r]
  | stepped {fx : X} {es : List (Event α)} (value : s.function x = .ok fx)
      (value_finite : isFinite fx = true)
      (rejected : Arithmetic.le (norm fx) s.config.tolerance = false)
      (more : i + 1 < s.config.maxIterations) (step : s.StepEvents i x fx es) :
      TurnEvents s i x (.residual i (norm fx) :: es)

theorem TurnEvents.level (h : s.TurnEvents i x es) : ∀ e ∈ es, e.level = .debug := by
  cases h with
  | last => exact List.forall_mem_singleton.mpr rfl
  | stepped _ _ _ _ hstep => exact List.forall_mem_cons.mpr ⟨rfl, hstep.level⟩

/-- The search that is at `x`, its `i`-th point, comes to test `y` after `k` more steps. -/
structure Reaches (s : Solver X α J) (i : Nat) (x : X) (k : Nat) (y : X) : Prop where
  iterate : s.Iterates x k y
  rejected_before : s.RejectsBefore x k
  within_budget : i + k < s.config.maxIterations

/-- From the point where a search ends it comes to no other. -/
theorem Ends.not_reaches_succ {k : Nat} {y : X} (h : s.Ends i x j o) :
    ¬s.Reaches i x (k + 1) y := by
  rintro ⟨hy, hbefore, hk⟩
  obtain _ | ⟨hxy, -⟩ := hy
  have hreject := ((rejectsBefore_succ_iff hxy).mp hbefore).1
  -- it stops there although it could step on, or it accepts what it has to reject
  rcases o with stop | found
  · exact h.stopsAt.not_updates hreject (by omega) hxy
  · cases h with
    | found haccept => exact hreject.not_accepts haccept

/-- The blocks are those of the points that a search comes to from `x`, its `i`-th point. -/
structure TurnBlocks (s : Solver X α J) (i : Nat) (x : X) (blocks : List (List (Event α))) :
    Prop where
  block : ∀ k b, blocks[k]? = some b → ∃ y, s.Reaches i x k y ∧ s.TurnEvents (i + k) y b
  complete : ∀ k y r, s.Reaches i x k y → s.HasResidual y r → k < blocks.length

/-- There is no block for a point without a residual. -/
theorem Ends.turnBlocks_nil (h : s.Ends i x j o) (hnone : ∀ r, ¬s.HasResidual x r) :
    s.TurnBlocks i x [] := by
  constructor
  · intro k b hb
    cases hb
  · intro k y r hy hr
    rcases k with - | k
    · obtain rfl := iterates_zero_iff.mp hy.iterate
      exact absurd hr (hnone r)
    · exact absurd hy h.not_reaches_succ

/-- A point with a residual has one block. -/
theorem Ends.turnBlocks_singleton (h : s.Ends i x j o) (hi : i < s.config.maxIterations)
    (hes : s.TurnEvents i x es) : s.TurnBlocks i x [es] := by
  constructor
  · intro k b hb
    rcases k with - | k
    · obtain rfl := Option.some.inj hb
      exact ⟨x, ⟨.start x, rejectsBefore_zero s x, hi⟩, hes⟩
    · cases hb
  · intro k y r hy _
    rcases k with - | k
    · exact Nat.one_pos
    · exact absurd hy h.not_reaches_succ

/-- A step puts the block of its point before those of the points after it. -/
theorem TurnBlocks.cons {y : X} {blocks : List (List (Event α))}
    (h : s.TurnBlocks (i + 1) y blocks) (hxy : s.Updates x y) (hreject : s.Rejects x)
    (hi : i < s.config.maxIterations) (hes : s.TurnEvents i x es) :
    s.TurnBlocks i x (es :: blocks) := by
  constructor
  · intro k b hb
    rcases k with - | k
    · obtain rfl := Option.some.inj hb
      exact ⟨x, ⟨.start x, rejectsBefore_zero s x, hi⟩, hes⟩
    · -- what is the `k`-th point from `y` on is the next one from `x` on
      obtain ⟨z, ⟨hz, hbefore, hk⟩, hb⟩ := h.block k b hb
      rw [Nat.add_assoc, Nat.add_comm 1 k] at hk hb
      exact ⟨z, ⟨.next hxy hz, (rejectsBefore_succ_iff hxy).mpr ⟨hreject, hbefore⟩, hk⟩, hb⟩
  · intro k z r ⟨hz, hbefore, hk⟩ hr
    rcases k with - | k
    · exact Nat.succ_pos _
    · -- conversely, a later point from `x` on comes after `y`
      have hbefore := ((rejectsBefore_succ_iff hxy).mp hbefore).2
      have hz := (iterates_succ_iff hxy).mp hz
      exact Nat.succ_lt_succ (h.complete k z r ⟨hz, hbefore, by omega⟩ hr)

/-- At the point where a search ends there is at most one block. -/
theorem Ends.exists_blocks (h : s.Ends i x j o) (hi : i < s.config.maxIterations) :
    ∃ blocks, s.TurnBlocks i x blocks ∧ j.events = blocks.flatten ++ announcements some o := by
  cases h with
  | fault hf =>
    refine ⟨[], (Ends.fault hf).turnBlocks_nil ?_, rfl⟩
    rintro r ⟨fx, hf', -, -⟩
    cases hf.symm.trans hf'
  | notFinite hf hbad =>
    refine ⟨[], (Ends.notFinite hf hbad).turnBlocks_nil ?_, rfl⟩
    rintro r ⟨fx, hf', hfin, -⟩
    obtain rfl := Except.ok.inj (hf.symm.trans hf')
    cases hbad.symm.trans hfin
  | found haccept =>
    exact ⟨_, (Ends.found haccept).turnBlocks_singleton hi (.last haccept.1 (.inl haccept)), rfl⟩
  | exhausted hr hreject hlast =>
    have hends := Ends.exhausted hr hreject hlast
    exact ⟨_, hends.turnBlocks_singleton hi (.last hr (.inr hlast)), rfl⟩
  | @stops fx stop hf hfin hreject hmore hstep =>
    obtain ⟨es, hes, hevents⟩ := exists_events_advance s i x fx
    have hends := Ends.stops hf hfin hreject hmore hstep
    refine ⟨_, hends.turnBlocks_singleton hi (.stepped hf hfin hreject hmore hes), ?_⟩
    rw [Journal.events_test, hevents, hstep, announcements_error, List.flatten_singleton,
      List.cons_append]

/-- A search tells of each point that it comes to, one block after the other, and then announces
the error that it ends with.  The induction is on the course of the search. -/
theorem Course.exists_blocks (h : s.Course i x j o) (hi : i < s.config.maxIterations) :
    ∃ blocks, s.TurnBlocks i x blocks ∧ j.events = blocks.flatten ++ announcements some o := by
  induction h with
  | ends last => exact last.exists_blocks hi
  | @steps i x fx y j o hf hfin hreject hmore hstep _ ih =>
    obtain ⟨blocks, hblocks, hrest⟩ := ih hmore
    obtain ⟨es, hes, hevents⟩ := exists_events_advance s i x fx
    have hxy : s.Updates x y := (updates_iff i).mpr ⟨fx, hf, hfin, hstep⟩
    have hturn : s.TurnEvents i x _ := .stepped hf hfin hreject hmore hes
    refine ⟨_, hblocks.cons hxy ⟨norm fx, ⟨fx, hf, hfin, rfl⟩, hreject⟩ hi hturn, ?_⟩
    -- a step that leads on is not announced
    have hevents : (s.advance i x fx).journal.events = es := by
      rw [hevents, hstep]
      exact List.append_nil es
    rw [Journal.events_test, Journal.events_append, hevents, hrest, List.flatten_cons,
      List.cons_append, List.cons_append, List.append_assoc]

/-! ### A step of its own -/

/-- The events `es` of a step of its own: those that it has in a search, if it is computed. -/
structure TellsStep (s : Solver X α J) (x : X) (given : Option X) (es : List (Event α)) :
    Prop where
  mirrors : Mirrors (fun _ => none) (s.step x given) es
  computed : ∀ fx, s.BeginsStep x given fx →
    s.StepEvents 0 x fx es ∧ (s.step x given).outcome = (s.advance 0 x fx).outcome
  otherwise : (∀ fx, ¬s.BeginsStep x given fx) → es = []

/-- No error of a step has an iteration that could be told in different ways. -/
theorem announcements_advance (told told' : Nat → Option Nat) (s : Solver X α J) (i : Nat)
    (x fx : X) :
    announcements told (s.advance i x fx).outcome
      = announcements told' (s.advance i x fx).outcome := by
  rcases h : (s.advance i x fx).outcome with stop | y
  · cases advance_eq_error_iff.mp h <;> rfl
  · rfl

/-- A step that is not computed has no events but the announcement of its error. -/
theorem tellsStep_nil {given : Option X} (hnone : ∀ fx, ¬s.BeginsStep x given fx)
    (hevents : (s.step x given).journal.events
      = announcements (fun _ => none) (s.step x given).outcome) : s.TellsStep x given [] where
  mirrors := mirrors_of_events hevents (List.forall_mem_nil _)
  computed fx h := absurd h (hnone fx)
  otherwise _ := rfl

/-- A step with a given value tells of itself; if the value is not finite, it does so by the
announcement only. -/
theorem exists_tellsStep_some (hvalid : s.config.validate = .ok ()) (hx : isFinite x = true)
    (fx : X) : ∃ es, s.TellsStep x (some fx) es := by
  rcases hfin : isFinite fx with - | -
  · have hcheck : (checkResidual x fx none 0 : Run α Unit)
        = fail (.nonFiniteFunction none) (.nonFiniteValue .function 0 (coordinates x)) :=
      if_neg (Bool.eq_false_iff.mp hfin)
    refine ⟨[], tellsStep_nil (fun fx' h => ?_) ?_⟩
    · have hvalue := h.value_finite
      obtain hfx | ⟨hfx, -⟩ := h.value
      · rw [← Option.some.inj hfx, hfin] at hvalue
        cases hvalue
      · cases hfx
    · rw [step, checkStart_eq_pure hvalid hx, pure_bind']
      dsimp only
      rw [pure_bind', hcheck]
      rfl
  · -- a finite value leads to the same step as in a search
    obtain ⟨es, hes, hevents⟩ := exists_events_advance s 0 x fx
    have hstep := step_eq_advance hvalid hx hfin
    refine ⟨es, ?_, fun fx' h => ?_, fun h => absurd ⟨hvalid, hx, .inl rfl, hfin⟩ (h fx)⟩
    · rw [hstep]
      rw [announcements_advance some fun _ => none] at hevents
      exact mirrors_of_events hevents hes.level
    · obtain hfx | ⟨hfx, -⟩ := h.value
      · obtain rfl := Option.some.inj hfx
        exact ⟨hes, congrArg Run.outcome hstep⟩
      · cases hfx

/-- A step that evaluates the function does so, and then it is the step from the value. -/
theorem step_none (hstart : s.checkStart x = pure ()) (hf : s.function x = .ok fx) :
    s.step x none
      = ⟨.residual :: (s.step x (some fx)).journal, (s.step x (some fx)).outcome⟩ := by
  rw [step, step, hstart, pure_bind', pure_bind']
  dsimp only
  rw [evaluate_of_ok hf, bind_of_ok rfl]
  rfl

/-- It makes no difference to the events whether the value is given. -/
theorem TellsStep.of_some (h : s.TellsStep x (some fx) es) (hstart : s.checkStart x = pure ())
    (hf : s.function x = .ok fx) : s.TellsStep x none es := by
  -- both begin with the same value
  have hbegins : ∀ fx', s.BeginsStep x none fx' ↔ s.BeginsStep x (some fx) fx' := by
    intro fx'
    constructor
    · rintro ⟨hvalid, hx, hfx | ⟨-, hf'⟩, hfin⟩
      · cases hfx
      · obtain rfl := Except.ok.inj (hf.symm.trans hf')
        exact ⟨hvalid, hx, .inl rfl, hfin⟩
    · rintro ⟨hvalid, hx, hfx | ⟨hfx, -⟩, hfin⟩
      · obtain rfl := Option.some.inj hfx
        exact ⟨hvalid, hx, .inr ⟨rfl, hf⟩, hfin⟩
      · cases hfx
  obtain ⟨⟨hevents, hdebug, hwarnings⟩, hcomputed, hotherwise⟩ := h
  refine ⟨?_, fun fx' h => ?_, fun h => hotherwise fun fx' h' => h fx' ((hbegins fx').mpr h')⟩
  · rw [step_none hstart hf]
    exact ⟨hevents, hdebug, hwarnings⟩
  · rw [step_none hstart hf]
    exact hcomputed fx' ((hbegins fx').mp h)

theorem exists_tellsStep (s : Solver X α J) (x : X) (given : Option X) :
    ∃ es, s.TellsStep x given es := by
  rcases checkStart_cases (fun _ => none) s x with ⟨hvalid, hx⟩ | ⟨e, -, hfail, hrefused⟩
  · rcases given with - | fx
    · rcases hf : s.function x with f | fx
      · -- a fault ends the step without an event
        refine ⟨[], tellsStep_nil (fun fx h => ?_) ?_⟩
        · obtain hfx | ⟨-, hf'⟩ := h.value
          · cases hfx
          · cases hf.symm.trans hf'
        · rw [step, checkStart_eq_pure hvalid hx, pure_bind']
          dsimp only
          rw [evaluate_of_error hf]
          rfl
      · obtain ⟨es, hes⟩ := exists_tellsStep_some hvalid hx fx
        exact ⟨es, hes.of_some (checkStart_eq_pure hvalid hx) hf⟩
    · exact exists_tellsStep_some hvalid hx fx
  · refine ⟨[], tellsStep_nil (fun fx h => hrefused ⟨h.valid, h.start_finite⟩) ?_⟩
    rw [step, hfail]
    rfl

/-! ### The whole search -/

/-- The events of a search: one block after the other for the points that it tests and finds to have
a residual. -/
structure TellsSearch (s : Solver X α J) (x : X) (blocks : List (List (Event α))) : Prop where
  mirrors : Mirrors some (s.report x) blocks.flatten
  block : ∀ i b, blocks[i]? = some b → ∃ y, s.Tests x i y ∧ s.TurnEvents i y b
  complete : ∀ i y r, s.Tests x i y → s.HasResidual y r → i < blocks.length

/-- A search that is refused has no blocks, and otherwise they are those of its course. -/
theorem exists_tellsSearch (s : Solver X α J) (x : X) : ∃ blocks, s.TellsSearch x blocks := by
  rcases course_report s x with ⟨e, -, hreport, hnone⟩ | ⟨hvalid, hx, hpos, hcourse⟩
  · refine ⟨[], ?_, fun i b hb => ?_, fun i y r hy => absurd hy (hnone i y)⟩
    · rw [hreport]
      exact mirrors_of_events rfl (List.forall_mem_nil _)
    · cases hb
  · obtain ⟨blocks, ⟨hblock, hcomplete⟩, hevents⟩ := hcourse.exists_blocks hpos
    simp only [Nat.zero_add] at hblock
    -- an event is of the block of some point, so it is not a warning
    have hlevel : ∀ e ∈ blocks.flatten, e.level = .debug := by
      intro e he
      obtain ⟨b, hb, he⟩ := List.mem_flatten.mp he
      obtain ⟨i, hi⟩ := List.mem_iff_getElem?.mp hb
      obtain ⟨y, -, hb⟩ := hblock i b hi
      exact hb.level e he
    refine ⟨blocks, mirrors_of_events hevents hlevel, fun i b hb => ?_, fun i y r hy hr => ?_⟩
    · obtain ⟨y, ⟨hy, hbefore, hi⟩, hb⟩ := hblock i b hb
      rw [Nat.zero_add] at hi
      exact ⟨y, ⟨hvalid, hx, hy, hy.isFinite hx, hbefore, hi⟩, hb⟩
    · refine hcomplete i y r ⟨hy.iterate, hy.rejected_before, ?_⟩ hr
      rw [Nat.zero_add]
      exact hy.within_budget

/-- **The events mirror the run.**  A search tells of each point that it tests: the residual, and if
there is a step from it, that it is clamped and that it is taken.  After that a search that ends
with an error gives one warning, and otherwise none.  A step of its own has the events that it has
in a search. -/
theorem events_mirror (s : Solver X α J) (x : X) :
    (∃ blocks, s.TellsSearch x blocks) ∧ ∀ given, ∃ es, s.TellsStep x given es :=
  ⟨exists_tellsSearch s x, exists_tellsStep s x⟩

/-- Two points, a step between them that is clamped, and the one warning that the budget is used
up. -/
theorem events_mirror_clamped :
    let s : Solver ℚ ℚ ℚ := { rootOfTwo with config := ⟨1 / 10, 2, some (1 / 4), 1, .forward, 0⟩ }
    (s.report 2).journal.events
        = [.residual 0 2, .clamped (1 / 2) (1 / 4), .step 0 (1 / 4), .residual 1 (17 / 16),
            .exhausted 2 (17 / 16)]
      ∧ (s.report 2).journal.events.filter (fun e => e.level = .warn) = [.exhausted 2 (17 / 16)]
      ∧ ∃ blocks, s.TellsSearch 2 blocks
          ∧ blocks.flatten = [.residual 0 2, .clamped (1 / 2) (1 / 4), .step 0 (1 / 4),
              .residual 1 (17 / 16)] := by
  intro s
  have hevents : (s.report 2).journal.events
      = [.residual 0 2, .clamped (1 / 2) (1 / 4), .step 0 (1 / 4), .residual 1 (17 / 16),
          .exhausted 2 (17 / 16)] := by decide +kernel
  have houtcome : (s.report 2).outcome
      = .error (.failure (.maxIterationsExceeded 2 (17 / 16) #[7 / 4])) := by decide +kernel
  obtain ⟨⟨blocks, htells⟩, -⟩ := events_mirror s 2
  obtain ⟨hblocks, -, hwarnings⟩ := htells.mirrors
  rw [houtcome] at hblocks hwarnings
  refine ⟨hevents, hwarnings, blocks, htells, ?_⟩
  rw [hevents] at hblocks
  exact (List.append_cancel_right hblocks).symm

end Solver

end NewtonMethod
