import Mathlib.Data.Nat.Find
import Mathlib.Logic.Function.Iterate
import Mathlib.Order.Bounds.Basic
import Variability.Store.Retry

/-!
# How often an operation is attempted

An operation under a retry policy may change the state at every attempt, so it matters how often it
is called. This module compares a run with the bare sequence of calls: the operation called on and
on, each time on the state that the call before has left, with `RetryPolicy.outcome` saying how each
call ends. The run stops at the first call that is not refused for want of an available store. If
the permitted number of calls comes first, it stops there.

The number of calls is read off a log. `RetryPolicy.logged` is the operation that also writes down
how it ends, and its log after a run has the outcomes of exactly the calls that were made.

## Main results

* `RetryPolicy.attempt_of_concluded`: attempts end at the first call that is not refused.
* `RetryPolicy.attempt_of_refused`: attempts that are all refused are all made.
* `RetryPolicy.run_calls`: the calls of a run and its answer, for every policy and operation.
-/

namespace Variability.RetryPolicy

variable {σ α : Type} {operation : Operation} {total left k : Nat}
  {op : σ → Except StoreError α × σ} {s : σ}

/-! ### Calls in a row -/

/-- Whether a call has failed for want of an available store. -/
def isRefused : Except StoreError α → Bool
  | .ok _ => false
  | .error e => e.isTransient

/-- The state after `k` calls in a row. -/
def stateAfter (op : σ → Except StoreError α × σ) (s : σ) (k : Nat) : σ :=
  (fun s => (op s).2)^[k] s

/-- How the call ends that comes after `k` others. -/
def outcome (op : σ → Except StoreError α × σ) (s : σ) (k : Nat) : Except StoreError α :=
  (op (stateAfter op s k)).1

/-- The operation that keeps a log of its outcomes beside the state. -/
def logged (op : σ → Except StoreError α × σ) :
    σ × List (Except StoreError α) → Except StoreError α × σ × List (Except StoreError α)
  | (s, log) => ((op s).1, (op s).2, log ++ [(op s).1])

/-- The first of the calls leaves the others the state after it. -/
theorem stateAfter_succ (op : σ → Except StoreError α × σ) (s : σ) (k : Nat) :
    stateAfter op s (k + 1) = stateAfter op (op s).2 k := rfl

theorem outcome_succ (op : σ → Except StoreError α × σ) (s : σ) (k : Nat) :
    outcome op s (k + 1) = outcome op (op s).2 k := rfl

/-- A refused call has ended in an error. -/
theorem exists_error_of_isRefused {o : Except StoreError α} (ho : isRefused o = true) :
    ∃ e, o = .error e ∧ e.isTransient = true := by
  cases o with
  | ok a => exact absurd ho Bool.false_ne_true
  | error e => exact ⟨e, rfl, ho⟩

/-- The log after `k` calls has the outcomes of these calls, and the state is as without a log. -/
theorem stateAfter_logged (op : σ → Except StoreError α × σ) (s : σ) (k : Nat) :
    stateAfter (logged op) (s, []) k = (stateAfter op s k, (List.range k).map (outcome op s)) := by
  induction k with
  | zero => rfl
  | succ k ih =>
      have hlast : stateAfter op s (k + 1) = (op (stateAfter op s k)).2 :=
        Function.iterate_succ_apply' _ k s
      have hlogged : stateAfter (logged op) (s, []) (k + 1) =
          (logged op (stateAfter (logged op) (s, []) k)).2 :=
        Function.iterate_succ_apply' _ k (s, [])
      rw [hlogged, ih, hlast, List.range_succ, List.map_append]
      rfl

/-- A log changes no outcome. -/
theorem outcome_logged (op : σ → Except StoreError α × σ) (s : σ) (k : Nat) :
    outcome (logged op) (s, []) k = outcome op s k := by
  rw [outcome, stateAfter_logged]
  rfl

/-! ### Attempts -/

/-- A call that is not refused is the last. -/
theorem attempt_of_not_isRefused (h : isRefused (op s).1 = false) :
    attempt operation total op left s = ((op s).1.mapError (.store operation), (op s).2) := by
  rcases hop : op s with ⟨_ | a, s'⟩
  · rename_i e
    rw [hop] at h
    have he : ¬ e.isTransient = true := Bool.eq_false_iff.mp h
    cases left with
    | zero => rw [attempt, hop]; exact if_neg he
    | succ left => rw [attempt, hop]; exact if_neg he
  · cases left with
    | zero => rw [attempt, hop]; rfl
    | succ left => rw [attempt, hop]; rfl

/-- A refused call is followed by the attempts that are left. -/
theorem attempt_succ_of_isRefused (h : isRefused (op s).1 = true) :
    attempt operation total op (left + 1) s = attempt operation total op left (op s).2 := by
  obtain ⟨e, he, htransient⟩ := exists_error_of_isRefused h
  obtain ⟨s', hop⟩ : ∃ s', op s = (.error e, s') := ⟨(op s).2, Prod.ext he rfl⟩
  rw [attempt, hop]
  exact if_pos htransient

/-- **Attempts end at the first call that is not refused**, if there are enough of them. -/
theorem attempt_of_concluded (hk : k ≤ left) (hbefore : ∀ i < k, isRefused (outcome op s i) = true)
    (hend : isRefused (outcome op s k) = false) :
    attempt operation total op left s =
      ((outcome op s k).mapError (.store operation), stateAfter op s (k + 1)) := by
  induction k generalizing s left with
  | zero => exact attempt_of_not_isRefused hend
  | succ k ih =>
      obtain ⟨left, rfl⟩ : ∃ n, left = n + 1 := ⟨left - 1, by omega⟩
      have hfirst : isRefused (op s).1 = true := hbefore 0 (Nat.succ_pos k)
      rw [attempt_succ_of_isRefused hfirst, outcome_succ, stateAfter_succ]
      exact ih (Nat.le_of_succ_le_succ hk) (fun i hi => hbefore (i + 1) (Nat.succ_lt_succ hi)) hend

/-- **Attempts that are all refused are all made**, and the error of the last is reported. -/
theorem attempt_of_refused (h : ∀ i ≤ left, isRefused (outcome op s i) = true) :
    ∃ e, outcome op s left = .error e ∧
      attempt operation total op left s =
        (.error (.exhausted operation total e), stateAfter op s (left + 1)) := by
  induction left generalizing s with
  | zero =>
      obtain ⟨e, he, htransient⟩ := exists_error_of_isRefused (h 0 (Nat.le_refl 0))
      obtain ⟨s', hop⟩ : ∃ s', op s = (.error e, s') := ⟨(op s).2, Prod.ext he rfl⟩
      have hstate : stateAfter op s 1 = s' := congrArg Prod.snd hop
      refine ⟨e, he, ?_⟩
      rw [attempt, hop, hstate]
      exact if_pos htransient
  | succ left ih =>
      have hfirst : isRefused (op s).1 = true := h 0 (Nat.zero_le _)
      rw [attempt_succ_of_isRefused hfirst, outcome_succ, stateAfter_succ]
      exact ih fun i hi => h (i + 1) (Nat.succ_le_succ hi)

/-! ### Runs -/

/-- The run of an operation makes exactly `k` calls and answers `answer`. -/
structure Ends (policy : RetryPolicy) (operation : Operation) (op : σ → Except StoreError α × σ)
    (s : σ) (k : Nat) (answer : Except GraphError α) : Prop where
  /-- The state is that after `k` calls. -/
  answers : policy.run operation op s = (answer, stateAfter op s k)
  /-- The operation that keeps a log ends alike, and its log has the outcomes of `k` calls. -/
  calls : policy.run operation (logged op) (s, []) =
    (answer, stateAfter op s k, (List.range k).map (outcome op s))

/-- A run with a first call that is not refused. -/
theorem ends_of_concluded {policy : RetryPolicy} (hk : k < policy.attempts)
    (hbefore : ∀ i < k, isRefused (outcome op s i) = true)
    (hend : isRefused (outcome op s k) = false) :
    policy.Ends operation op s (k + 1) ((outcome op s k).mapError (.store operation)) where
  answers := attempt_of_concluded (Nat.le_sub_one_of_lt hk) hbefore hend
  calls := by
    simp only [← outcome_logged op s] at hbefore hend
    rw [← outcome_logged, ← stateAfter_logged]
    exact attempt_of_concluded (Nat.le_sub_one_of_lt hk) hbefore hend

/-- A run whose permitted calls are all refused. -/
theorem exists_ends_of_refused {policy : RetryPolicy}
    (h : ∀ k < policy.attempts, isRefused (outcome op s k) = true) :
    ∃ e, outcome op s (policy.attempts - 1) = .error e ∧
      policy.Ends operation op s policy.attempts
        (.error (.exhausted operation policy.attempts e)) := by
  have hpos : 0 < policy.attempts := Nat.le_max_right ..
  have hone : policy.attempts - 1 + 1 = policy.attempts := Nat.sub_add_cancel hpos
  have hrefused : ∀ i ≤ policy.attempts - 1, isRefused (outcome op s i) = true :=
    fun i hi => h i (by omega)
  have hlogged := hrefused
  simp only [← outcome_logged op s] at hlogged
  obtain ⟨e, he, hrun⟩ := attempt_of_refused hrefused
  obtain ⟨e', he', hcalls⟩ := attempt_of_refused hlogged
  obtain rfl : e = e' := by
    rw [outcome_logged, he] at he'
    exact Except.error.inj he'
  rw [hone] at hrun hcalls
  refine ⟨e, he, hrun, ?_⟩
  rw [← stateAfter_logged]
  exact hcalls

/-- **Retry is bounded.** For every policy and every operation on any state, with `N` the number of
permitted attempts: the operation is called up to the first call that is not refused, whose answer
or error is that of the run; or its first `N` calls are refused, then it is called `N` times, and
the run reports `N` attempts and the last error. -/
theorem run_calls (policy : RetryPolicy) (operation : Operation) (op : σ → Except StoreError α × σ)
    (s : σ) :
    ∃ N, N = max 1 policy.maxAttempts.toNat ∧
      ((∃ k, IsLeast {k | k < N ∧ isRefused (outcome op s k) = false} k ∧
          policy.Ends operation op s (k + 1) ((outcome op s k).mapError (.store operation))) ∨
        ((∀ k < N, isRefused (outcome op s k) = true) ∧
          ∃ e, outcome op s (N - 1) = .error e ∧
            policy.Ends operation op s N (.error (.exhausted operation N e)))) := by
  refine ⟨policy.attempts, Nat.max_comm .., ?_⟩
  by_cases h : ∃ k, k < policy.attempts ∧ isRefused (outcome op s k) = false
  · obtain ⟨hlt, hend⟩ := Nat.find_spec h
    have hbefore : ∀ i < Nat.find h, isRefused (outcome op s i) = true := by
      intro i hi
      by_contra hnot
      exact Nat.find_min h hi ⟨Nat.lt_trans hi hlt, Bool.eq_false_iff.mpr hnot⟩
    exact .inl ⟨Nat.find h, ⟨⟨hlt, hend⟩, fun k hk => Nat.find_min' h hk⟩,
      ends_of_concluded hlt hbefore hend⟩
  · have hrefused : ∀ k < policy.attempts, isRefused (outcome op s k) = true := by
      intro k hk
      by_contra hnot
      exact h ⟨k, hk, Bool.eq_false_iff.mpr hnot⟩
    exact .inr ⟨hrefused, exists_ends_of_refused hrefused⟩

end Variability.RetryPolicy
