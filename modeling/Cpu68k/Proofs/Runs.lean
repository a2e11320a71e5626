import Cpu68k.Proofs.Transitions

/-!
# Runs and their slices

A run takes the reset exception where that is still to come and then steps as long as
the machine is in the normal state and steps are left. So the machine that it leaves is
the one after the steps that it has counted, and a run can be cut anywhere: what comes
behind the cut is a run of its own.
-/

namespace Cpu68k

namespace Machine

variable {m : Machine} {keep : Event → Bool} {limit count : Nat} {log : Array Event}

/-- The machine in which a run takes its first step: the reset exception comes first. -/
def ready (m : Machine) : Logged Machine :=
  if m.state = .startup then m.reset else pure m

/-- A machine that has started is ready. -/
theorem ready_of_ne (hstate : m.state ≠ .startup) : m.ready = pure m :=
  if_neg hstate

/-- The start is left behind by the reset exception. -/
theorem ready_state_ne (m : Machine) : m.ready.val.state ≠ .startup := by
  by_cases hstate : m.state = .startup
  · obtain ⟨ssp, pc, state, hval, hreached⟩ := m.reset_val
    rw [ready, if_pos hstate, hval]
    rcases hreached with rfl | rfl <;> exact nofun
  · rw [ready_of_ne hstate]
    exact hstate

/-- A run is a number of steps of the machine that is ready for them. -/
theorem run_eq (m : Machine) (keep : Event → Bool) (limit : Nat) : m.run keep limit =
    let result := runSteps keep limit 0 (m.ready.events.filter keep).toArray m.ready.val
    ⟨(result.1, result.2.2), result.2.1.toList⟩ := rfl

/-! ### Steps one behind the other -/

/-- The first of several steps can be taken apart from the others. -/
theorem after_succ (m : Machine) (n : Nat) : m.after (n + 1) = m.step.val.after n := by
  induction n with
  | zero => rfl
  | succ n ih => exact congrArg (fun m' : Machine => m'.step.val) ih

/-- A machine that does not run takes no step. -/
theorem runSteps_of_not_running (hstate : m.state ≠ .normal) :
    runSteps keep limit count log m = (count, log, m) := by
  cases limit with
  | zero => rfl
  | succ limit =>
    have hrunning : m.state.isRunning = false := beq_eq_false_iff_ne.2 hstate
    rw [runSteps, hrunning, if_neg Bool.false_ne_true]

/-- A running machine takes one step and goes on with one less. -/
theorem runSteps_succ (hstate : m.state = .normal) :
    runSteps keep (limit + 1) count log m =
      runSteps keep limit (count + 1) (log ++ m.step.events.filter keep) m.step.val := by
  have hrunning : m.state.isRunning = true := beq_iff_eq.2 hstate
  rw [runSteps, if_pos hrunning]

/-- The steps of a run can be taken in two parts, the second of which starts with the
count, the log and the machine that the first has left. -/
theorem runSteps_add (a b count : Nat) (log : Array Event) (m : Machine) :
    runSteps keep (a + b) count log m =
      let first := runSteps keep a count log m
      runSteps keep b first.1 first.2.1 first.2.2 := by
  induction a generalizing count log m with
  | zero =>
    rw [Nat.zero_add]
    rfl
  | succ a ih =>
    by_cases hstate : m.state = .normal
    · rw [Nat.add_right_comm, runSteps_succ hstate, runSteps_succ hstate, ih]
    · simp only [runSteps_of_not_running hstate]

/-- The count and the log of the steps that are taken do not depend on those before. -/
theorem runSteps_eq (limit count : Nat) (log : Array Event) (m : Machine) :
    runSteps keep limit count log m =
      let fresh := runSteps keep limit 0 #[] m
      (count + fresh.1, log ++ fresh.2.1, fresh.2.2) := by
  induction limit generalizing count log m with
  | zero => simp [runSteps]
  | succ limit ih =>
    by_cases hstate : m.state = .normal
    · rw [runSteps_succ hstate, runSteps_succ hstate, ih, ih (0 + 1)]
      refine Prod.ext (by simp [Nat.add_assoc]) (Prod.ext ?_ rfl)
      exact Array.toList_inj.1 (by simp)
    · simp [runSteps_of_not_running hstate]

/-- What a run comes to that may take up to `limit` steps: it has taken `k` steps, each
of them in the normal state, and has left that state if it has taken fewer than it may. -/
structure Ran (m : Machine) (limit k : Nat) (m' : Machine) : Prop where
  /-- The count is within the limit. -/
  le : k ≤ limit
  /-- The machine is the one after the steps that were counted. -/
  after : m' = m.after k
  /-- Every step was taken in the normal state. -/
  running : ∀ j < k, (m.after j).state = .normal
  /-- The run has stopped early only where the machine does not go on. -/
  stopped : k < limit → m'.state ≠ .normal

/-- A run that takes no step leaves the machine as it is. -/
theorem Ran.none (hstopped : 0 < limit → m.state ≠ .normal) : m.Ran limit 0 m :=
  ⟨Nat.zero_le limit, rfl, fun j hj => absurd hj (Nat.not_lt_zero j), hstopped⟩

/-- A step in the normal state comes before the others. -/
theorem Ran.cons {k : Nat} {m' : Machine} (hstate : m.state = .normal)
    (h : m.step.val.Ran limit k m') : m.Ran (limit + 1) (k + 1) m' where
  le := Nat.succ_le_succ h.le
  after := h.after.trans (m.after_succ k).symm
  running j hj := by
    cases j with
    | zero => exact hstate
    | succ j =>
      rw [after_succ]
      exact h.running j (Nat.lt_of_succ_lt_succ hj)
  stopped hlt := h.stopped (Nat.lt_of_succ_lt_succ hlt)

/-- What the steps of a run come to. -/
theorem runSteps_ran (keep : Event → Bool) (limit : Nat) (m : Machine) :
    m.Ran limit (runSteps keep limit 0 #[] m).1 (runSteps keep limit 0 #[] m).2.2 := by
  induction limit generalizing m with
  | zero => exact .none nofun
  | succ limit ih =>
    by_cases hstate : m.state = .normal
    · have hcount (k : Nat) : 0 + 1 + k = k + 1 := by omega
      rw [runSteps_succ hstate, runSteps_eq]
      dsimp only
      rw [hcount]
      exact .cons hstate (ih m.step.val)
    · rw [runSteps_of_not_running hstate]
      exact .none fun _ => hstate

/-! ### Runs -/

/-- No number of steps leads back to the start. -/
theorem after_state_ne (hstate : m.state ≠ .startup) (n : Nat) : (m.after n).state ≠ .startup := by
  cases n with
  | zero => exact hstate
  | succ n => exact step_state_ne_startup _

/-- What a run comes to. -/
theorem run_ran (m : Machine) (keep : Event → Bool) (limit : Nat) :
    m.ready.val.Ran limit (m.run keep limit).val.1 (m.run keep limit).val.2 := by
  have hran := runSteps_ran keep limit m.ready.val
  rw [run_eq, runSteps_eq]
  simpa using hran

/-- A run takes all its steps if the machine goes on until then. -/
theorem run_val_of_running {k : Nat} (hstate : m.state ≠ .startup)
    (hrunning : ∀ j < k, (m.after j).state = .normal) (keep : Event → Bool) :
    (m.run keep k).val = (k, m.after k) := by
  have hran := m.run_ran keep k
  rw [ready_of_ne hstate] at hran
  have hcount : (m.run keep k).val.1 = k := by
    refine Nat.le_antisymm hran.le (Nat.le_of_not_lt fun hlt => hran.stopped hlt ?_)
    rw [hran.after]
    exact hrunning _ hlt
  refine Prod.ext hcount ?_
  rw [hran.after, hcount]
  rfl

/-- A run of a machine that has started takes its steps at once. -/
theorem run_of_ne (hstate : m.state ≠ .startup) : m.run keep limit =
    let result := runSteps keep limit 0 #[] m
    ⟨(result.1, result.2.2), result.2.1.toList⟩ := by
  rw [run_eq, ready_of_ne hstate]
  rfl

/-- A run is the run of the machine that is ready for it, behind the reset exception. -/
theorem run_ready (m : Machine) (keep : Event → Bool) (limit : Nat) : m.run keep limit =
    ⟨(m.ready.val.run keep limit).val,
      m.ready.events.filter keep ++ (m.ready.val.run keep limit).events⟩ := by
  rw [run_of_ne m.ready_state_ne, run_eq, runSteps_eq]
  simp

/-- A run may be cut anywhere. -/
theorem run_add (m : Machine) (keep : Event → Bool) (a b : Nat) : m.run keep (a + b) = do
    let (j, m₁) ← m.run keep a
    let (k, m₂) ← m₁.run keep b
    return (j + k, m₂) := by
  have hran := m.run_ran keep a
  have hstate : (m.run keep a).val.2.state ≠ .startup := by
    rw [hran.after]
    exact after_state_ne m.ready_state_ne _
  have hbind {α β : Type} (x : Logged α) (f : α → Logged β) :
      x >>= f = ⟨(f x.val).val, x.events ++ (f x.val).events⟩ := rfl
  simp only [hbind, run_of_ne hstate]
  rw [run_eq, run_eq, runSteps_add, runSteps_eq b]
  simp

/-- Running in slices is the same as running at once: the counts add up, and machine and
log are those of the two runs one behind the other. Each run is that of as many steps as
it counts, all of them taken in the normal state, and where it counts fewer than it may
the machine has left that state. -/
theorem run_slices (m : Machine) (keep : Event → Bool) :
    (∀ a b, m.run keep (a + b) = do
      let (j, m₁) ← m.run keep a
      let (k, m₂) ← m₁.run keep b
      return (j + k, m₂)) ∧
    ∀ limit, m.ready.val.Ran limit (m.run keep limit).val.1 (m.run keep limit).val.2 :=
  ⟨m.run_add keep, m.run_ran keep⟩

end Machine

end Cpu68k
