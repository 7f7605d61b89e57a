import Mathlib.Data.List.Range

/-! # Counted loops

`for (i = start; test(i); i += step)` with a 32-bit counter whose value the body
does not change. -/

namespace GamZ.CountedLoop

/-- The values of the counter on entry to the body, one after the other. -/
def counts (test : Nat → Bool) (step : Nat) : Nat → Nat → Option (List Nat)
  | 0, _ => none
  | fuel + 1, i =>
      if test i then (counts test step fuel ((i + step) % 4294967296)).map (i :: ·) else some []

variable {test : Nat → Bool} {step : Nat}

/-- A turn of the loop is one less from the next value of the counter on. -/
private theorem turn_shifted (start step turn : Nat) :
    start + step + step * turn = start + step * (turn + 1) := by
  rw [Nat.mul_add, Nat.mul_one]
  omega

private theorem counter_noWrap {start turn : Nat}
    (small : start + step * (turn + 1) < 4294967296) :
    (start + step) % 4294967296 = start + step := by
  rw [← turn_shifted] at small
  exact Nat.mod_eq_of_lt (by omega)

theorem counts_eq {turns : Nat} : ∀ {start : Nat},
    (∀ turn < turns, test (start + step * turn) = true) →
      test (start + step * turns) = false → start + step * turns < 4294967296 →
      counts test step (turns + 1) start =
        some ((List.range turns).map fun turn => start + step * turn) := by
  induction turns with
  | zero =>
      intro start _ ends _
      rw [Nat.mul_zero, Nat.add_zero] at ends
      simp [counts, ends]
  | succ turns induction =>
      intro start enters ends small
      have first := enters 0 (Nat.zero_lt_succ turns)
      rw [Nat.mul_zero, Nat.add_zero] at first
      have noWrap := counter_noWrap small
      have rest : counts test step (turns + 1) (start + step) =
          some ((List.range turns).map fun turn => start + step + step * turn) := by
        apply induction
        · intro turn before
          rw [turn_shifted]
          exact enters (turn + 1) (by omega)
        · rw [turn_shifted]
          exact ends
        · rw [turn_shifted]
          exact small
      rw [counts, if_pos first, noWrap, rest, Option.map_some, List.range_succ_eq_map,
        List.map_cons, List.map_map, Nat.mul_zero, Nat.add_zero]
      simp only [Function.comp_def, turn_shifted]

theorem counts_lt {limit : Nat} (small : limit < 4294967296) :
    counts (fun i => decide (i < limit)) 1 (limit + 1) 0 = some (List.range limit) := by
  have counted : counts (fun i => decide (i < limit)) 1 (limit + 1) 0 =
      some ((List.range limit).map fun turn => 0 + 1 * turn) := by
    apply counts_eq
    · intro turn before
      simpa using before
    · simp
    · omega
  simpa using counted

theorem counts_of_le {fuel : Nat} : ∀ {more start : Nat} {values : List Nat},
    counts test step fuel start = some values → fuel ≤ more →
      counts test step more start = some values := by
  induction fuel with
  | zero =>
      intro more start values run _
      cases run
  | succ fuel induction =>
      intro more start values run enough
      cases more with
      | zero => omega
      | succ more =>
          rw [counts] at run ⊢
          cases enters : test start with
          | false =>
              rw [enters] at run
              exact run
          | true =>
              rw [enters, if_pos rfl, Option.map_eq_some_iff] at run
              rcases run with ⟨rest, counted, rfl⟩
              rw [if_pos rfl, induction counted (by omega), Option.map_some]

theorem counts_unique {fuel more start : Nat} {values others : List Nat}
    (run : counts test step fuel start = some values)
    (again : counts test step more start = some others) : values = others := by
  have first := counts_of_le run (Nat.le_max_left fuel more)
  have second := counts_of_le again (Nat.le_max_right fuel more)
  exact Option.some.inj (first.symm.trans second)

theorem counts_ends {fuel : Nat} : ∀ {start : Nat} {values : List Nat}, start < 4294967296 →
    counts test step fuel start = some values →
      test ((start + step * values.length) % 4294967296) = false := by
  induction fuel with
  | zero =>
      intro start values _ run
      cases run
  | succ fuel induction =>
      intro start values small run
      rw [counts] at run
      cases enters : test start with
      | false =>
          rw [enters] at run
          cases run
          rw [List.length_nil, Nat.mul_zero, Nat.add_zero, Nat.mod_eq_of_lt small]
          exact enters
      | true =>
          rw [enters, if_pos rfl, Option.map_eq_some_iff] at run
          rcases run with ⟨rest, counted, rfl⟩
          have later := induction (Nat.mod_lt _ (by decide)) counted
          rw [Nat.mod_add_mod] at later
          rw [List.length_cons, Nat.mul_add, Nat.mul_one, Nat.add_comm (step * rest.length),
            ← Nat.add_assoc]
          exact later

theorem counts_lt_unique {limit fuel : Nat} {values : List Nat} (small : limit < 4294967296)
    (run : counts (fun i => decide (i < limit)) 1 fuel 0 = some values) :
    values = List.range limit :=
  counts_unique run (counts_lt small)

/-- As long as the test holds, the counter takes every value. -/
theorem mem_counts {turn : Nat} : ∀ {fuel start : Nat} {values : List Nat},
    counts test step fuel start = some values →
      (∀ earlier ≤ turn, test (start + step * earlier) = true) →
      start + step * turn < 4294967296 → start + step * turn ∈ values := by
  induction turn with
  | zero =>
      intro fuel start values run enters _
      have first := enters 0 (Nat.le_refl 0)
      rw [Nat.mul_zero, Nat.add_zero] at first ⊢
      cases fuel with
      | zero => cases run
      | succ fuel =>
          rw [counts, if_pos first, Option.map_eq_some_iff] at run
          rcases run with ⟨rest, -, rfl⟩
          exact List.mem_cons_self
  | succ turn induction =>
      intro fuel start values run enters small
      have first := enters 0 (Nat.zero_le _)
      rw [Nat.mul_zero, Nat.add_zero] at first
      have noWrap := counter_noWrap small
      cases fuel with
      | zero => cases run
      | succ fuel =>
          rw [counts, if_pos first, noWrap, Option.map_eq_some_iff] at run
          rcases run with ⟨rest, inRest, rfl⟩
          refine List.mem_cons_of_mem _ ?_
          rw [← turn_shifted] at small ⊢
          apply induction inRest _ small
          intro earlier before
          rw [turn_shifted]
          exact enters (earlier + 1) (by omega)

end GamZ.CountedLoop
