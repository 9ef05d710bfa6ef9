import HalAPI.Foundation.Runs

/-!
# `DeviceObject::transfer_implementation`

A transfer starts an asynchronous read, writes, and then waits in the loop
`while (aio.is_busy() && is_success())`.  The `fs::Aio` of the read is a local variable, so it
must not go out of scope while the read is in progress.

The function takes its steps one at a time, and the device may complete the read before,
between and after them.  How the read starts and how the write ends are given by
`Outcomes`; `leaves_completed_iff` says for which of them the loop is left only after
the completion, whatever the interleaving.
-/

namespace HalAPI.Transfer

open Foundation

/-! ## States and steps -/

/-- The step the function takes next. -/
inductive Pc where
  | read
  | write
  | isBusy
  | isSuccess
  | wait
  | left
  deriving DecidableEq

/-- The state of a transfer: the next step, the sticky error of the thread, and whether the
asynchronous read is in progress. -/
structure State where
  pc : Pc
  isError : Bool
  isOutstanding : Bool
  deriving DecidableEq

/-- How the two device calls of a transfer end, if they are made. -/
structure Outcomes where
  startsRead : Bool
  writes : Bool

/-- The function takes a step, or the device completes the read. -/
inductive Event where
  | advance
  | complete
  deriving DecidableEq

/-- `DeviceObject::read_implementation`: skipped while an error is set -/
def readImplementation (o : Outcomes) (s : State) : State :=
  if s.isError then s else { s with isError := !o.startsRead, isOutstanding := o.startsRead }

/-- `file.write(..)`: skipped while an error is set -/
def write (o : Outcomes) (s : State) : State :=
  if s.isError then s else { s with isError := !o.writes }

/-- The next step of the function.  `aio.is_busy()` and `is_success()` are two steps. -/
def advance (o : Outcomes) (s : State) : State :=
  match s.pc with
  | .read => { readImplementation o s with pc := .write }
  | .write => { write o s with pc := .isBusy }
  | .isBusy => { s with pc := if s.isOutstanding then .isSuccess else .left }
  | .isSuccess => { s with pc := if s.isError then .left else .wait }
  | .wait => { s with pc := .isBusy }
  | .left => s

/-- The state after an event. -/
def step (o : Outcomes) (s : State) : Event → State
  | .advance => advance o s
  | .complete => { s with isOutstanding := false }

/-- A transfer begins with the error the thread has. -/
def start (isError : Bool) : State where
  pc := .read
  isError := isError
  isOutstanding := false

/-! ## Leaving the loop -/

/-- The loop is not left while the read is in progress. -/
def Completed (s : State) : Prop := s.pc = .left → s.isOutstanding = false

instance (s : State) : Decidable (Completed s) := inferInstanceAs (Decidable (_ → _))

/-- The read is not in progress, and will not be. -/
def NotStarted (o : Outcomes) (s : State) : Prop :=
  s.isOutstanding = false ∧ (s.pc = .read → s.isError = true ∨ o.startsRead = false)

/-- A read that is not started stays so. -/
lemma notStarted_step {o : Outcomes} {s : State} (h : NotStarted o s) (e : Event) :
    NotStarted o (step o s e) := by
  obtain ⟨hout, hread⟩ := h
  cases e with
  | complete => exact ⟨rfl, hread⟩
  | advance =>
    cases hpc : s.pc with
    | read =>
      rcases hread hpc with he | hstart
      · simp [step, advance, hpc, readImplementation, he, hout, NotStarted]
      · cases he : s.isError with
        | true => simp [step, advance, hpc, readImplementation, he, hout, NotStarted]
        | false => simp [step, advance, hpc, readImplementation, he, hstart, NotStarted]
    | write => cases he : s.isError <;> simp [step, advance, hpc, write, he, hout, NotStarted]
    | isBusy => simp [step, advance, hpc, hout, NotStarted]
    | isSuccess => cases he : s.isError <;> simp [step, advance, hpc, he, hout, NotStarted]
    | wait => simp [step, advance, hpc, hout, NotStarted]
    | left => simp [step, advance, hpc, hout, NotStarted]

/-- There is no error, and the loop is not left while the read is in progress. -/
def Succeeding (s : State) : Prop := s.isError = false ∧ Completed s

/-- A transfer whose calls succeed leaves its loop only after the completion. -/
lemma succeeding_step {o : Outcomes} (hread : o.startsRead = true) (hwrite : o.writes = true)
    {s : State} (h : Succeeding s) (e : Event) : Succeeding (step o s e) := by
  obtain ⟨he, hdone⟩ := h
  cases e with
  | complete => exact ⟨he, fun _ => rfl⟩
  | advance =>
    cases hpc : s.pc with
    | read => simp [step, advance, hpc, readImplementation, he, hread, Succeeding, Completed]
    | write => simp [step, advance, hpc, write, he, hwrite, Succeeding, Completed]
    | isBusy =>
      cases hout : s.isOutstanding <;> simp [step, advance, hpc, he, hout, Succeeding, Completed]
    | isSuccess => simp [step, advance, hpc, he, Succeeding, Completed]
    | wait => simp [step, advance, hpc, he, Succeeding, Completed]
    | left =>
      have hout : s.isOutstanding = false := hdone hpc
      simp [step, advance, hpc, he, hout, Succeeding, Completed]

/-- If the read starts and the write fails, the function leaves the loop in its first round. -/
lemma run_of_failing_write {o : Outcomes} (hread : o.startsRead = true)
    (hwrite : o.writes = false) :
    run (step o) (start false) [.advance, .advance, .advance, .advance] = ⟨.left, true, true⟩ := by
  simp [run, step, advance, start, readImplementation, write, hread, hwrite]

/-- When a transfer is safe.  Whatever the interleaving of its steps with the completion, the
function leaves its loop only after the read completed: exactly if the thread had an error
to begin with, the read did not start, or the write succeeded. -/
theorem leaves_completed_iff (o : Outcomes) (isError : Bool) :
    (∀ events, Throughout (step o) Completed (start isError) events) ↔
      isError = true ∨ o.startsRead = false ∨ o.writes = true := by
  constructor
  · intro h
    by_contra hcalls
    obtain ⟨he, hread, hwrite⟩ : isError = false ∧ o.startsRead = true ∧ o.writes = false := by
      simpa using hcalls
    have hend := (h [.advance, .advance, .advance, .advance]).at_end
    rw [he, run_of_failing_write hread hwrite] at hend
    exact absurd (hend rfl) (by decide)
  · intro hcalls events
    by_cases hstart : NotStarted o (start isError)
    · have hstep : ∀ s e, NotStarted o s → NotStarted o (step o s e) :=
        fun _ e h => notStarted_step h e
      exact (throughout_of_step hstep hstart events).mono fun s hs _ => hs.1
    · -- the read is started, so the write must succeed
      obtain ⟨he, hread⟩ : isError = false ∧ o.startsRead = true := by
        simpa [NotStarted, start] using hstart
      have hwrite : o.writes = true := by simpa [he, hread] using hcalls
      have hsucceeding : Succeeding (start isError) := ⟨he, fun _ => rfl⟩
      have hstep : ∀ s e, Succeeding s → Succeeding (step o s e) :=
        fun _ e h => succeeding_step hread hwrite h e
      exact (throughout_of_step hstep hsucceeding events).mono fun s hs => hs.2

/-- If the read starts, the write fails and the read takes longer than both, the function
leaves its loop while the read is in progress. -/
theorem leaves_outstanding_of_failing_write :
    ¬ Throughout (step ⟨true, false⟩) Completed (start false)
      [.advance, .advance, .advance, .advance, .complete] := by
  intro h
  have hleft : Completed (run (step ⟨true, false⟩) (start false)
      [.advance, .advance, .advance, .advance]) := h _ ⟨[.complete], rfl⟩
  exact absurd hleft (by decide)

/-- A completion between `aio.is_busy()` and `is_success()` is in time. -/
example : Throughout (step ⟨true, false⟩) Completed (start false)
    [.advance, .advance, .advance, .complete, .advance] := by
  simp only [throughout_cons, throughout_nil]
  decide

end HalAPI.Transfer
