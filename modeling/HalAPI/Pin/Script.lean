import HalAPI.Api.Chain
import HalAPI.Foundation.LastAssigned
import HalAPI.Pin.PulseScope

/-!
# Nested pulses

Code that works with pins calls `set_input`, `set_output` and `set_value`, and puts blocks into the
lifetime of a `PulseScope`, which may contain scopes again.  Such code is a `Script`, a tree with
a node for every scope.  Its program is the chain of its calls (`program_eq_chain`), with the
deleters of the scopes in the order in which their lifetimes end.

If no call fails and no attribute request asks for a level, every pin with a scope ends inactive,
however the scopes are nested (`pulses_end_inactive`).  If a call fails, the deleters of all scopes
that are open then have no effect: nothing reaches the driver any more (`script_stops_at_failure`).
-/

namespace HalAPI.Pin

open Foundation

variable {σ : Type}

/-! ## Scripts -/

/-- Code on the pins of a port, which are given by their masks.  `pulse` is a block in the lifetime
of a `PulseScope`, and what follows it. -/
inductive Script where
  | done
  | setInput (mask oFlags : BitVec 32) (rest : Script)
  | setOutput (mask oFlags : BitVec 32) (rest : Script)
  | setValue (mask : BitVec 32) (value : Bool) (rest : Script)
  | pulse (mask : BitVec 32) (isActiveHigh : IsActiveHigh) (body rest : Script)

/-- The values of `GpioFlags::Flags` by which an attribute request asks for levels. -/
structure LevelFlags where
  set : BitVec 32
  clear : BitVec 32
  assign : BitVec 32

/-- One of them occurs in the flags of a request. -/
def LevelFlags.OccurIn (asking : LevelFlags) (oFlags : BitVec 32) : Prop :=
  oFlags &&& (asking.set ||| asking.clear ||| asking.assign) ≠ 0

instance (asking : LevelFlags) (oFlags : BitVec 32) : Decidable (asking.OccurIn oFlags) :=
  inferInstanceAs (Decidable (_ ≠ _))

/-- A call of a script, as the driver sees it. -/
inductive PinCall where
  | attributes (oFlags mask : BitVec 32)
  | value (mask : BitVec 32) (level : Bool)
  deriving DecidableEq

/-- The device call of a call. -/
def PinCall.deviceCall (driver : PioDriver σ) : PinCall → DeviceCall σ PioRequest
  | attributes oFlags mask => ⟨.setAttributes oFlags mask, driver.onSetAttributes oFlags mask⟩
  | value mask level => ⟨.ofValue mask level, driver.onValue mask level⟩

/-- The call is not an attribute request that asks for levels. -/
def PinCall.AsksNoLevel (asking : LevelFlags) : PinCall → Prop
  | attributes oFlags _ => ¬ asking.OccurIn oFlags
  | value _ _ => True

instance (asking : LevelFlags) : DecidablePred (PinCall.AsksNoLevel asking)
  | .attributes _ _ => instDecidableNot
  | .value _ _ => instDecidableTrue

namespace Script

variable (flags : GpioFlags)

/-- The program of a script. -/
def program (driver : PioDriver σ) : Script → Program (Thread σ PioRequest) Unit
  | done => pure ()
  | setInput mask oFlags rest => do
    Pin.setInput flags ⟨driver, mask⟩ oFlags
    rest.program driver
  | setOutput mask oFlags rest => do
    Pin.setOutput flags ⟨driver, mask⟩ oFlags
    rest.program driver
  | setValue mask value rest => do
    Pin.setValue ⟨driver, mask⟩ value
    rest.program driver
  | pulse mask isActiveHigh body rest => do
    Pin.pulse ⟨driver, mask⟩ isActiveHigh (body.program driver)
    rest.program driver

/-- The calls of a script.  A scope makes a call at each end of its lifetime. -/
def calls : Script → List PinCall
  | done => []
  | setInput mask oFlags rest => .attributes (oFlags ||| flags.setInput) mask :: rest.calls
  | setOutput mask oFlags rest => .attributes (oFlags ||| flags.setOutput) mask :: rest.calls
  | setValue mask value rest => .value mask value :: rest.calls
  | pulse mask isActiveHigh body rest =>
    .value mask (isActiveHigh = .yes) ::
      (body.calls ++ .value mask (isActiveHigh = .no) :: rest.calls)

/-- The script sets the pin directly. -/
def sets (i : Fin 32) : Script → Bool
  | done => false
  | setInput _ _ rest => rest.sets i
  | setOutput _ _ rest => rest.sets i
  | setValue mask _ rest => mask.getLsbD i || rest.sets i
  | pulse _ _ body rest => body.sets i || rest.sets i

/-- The script has a scope with the pin. -/
def pulses (i : Fin 32) : Script → Bool
  | done => false
  | setInput _ _ rest => rest.pulses i
  | setOutput _ _ rest => rest.pulses i
  | setValue _ _ rest => rest.pulses i
  | pulse mask _ body rest => mask.getLsbD i || body.pulses i || rest.pulses i

/-- All scopes with the pin have the polarity. -/
def PulsesAs (i : Fin 32) (isActiveHigh : IsActiveHigh) : Script → Prop
  | done => True
  | setInput _ _ rest => rest.PulsesAs i isActiveHigh
  | setOutput _ _ rest => rest.PulsesAs i isActiveHigh
  | setValue _ _ rest => rest.PulsesAs i isActiveHigh
  | pulse mask polarity body rest =>
    (mask.getLsbD i = true → polarity = isActiveHigh) ∧ body.PulsesAs i isActiveHigh ∧
      rest.PulsesAs i isActiveHigh

/-- The program of a script is the chain of its calls. -/
lemma program_eq_chain (driver : PioDriver σ) (script : Script) :
    script.program flags driver =
      chain ((script.calls flags).map (PinCall.deviceCall driver)) := by
  induction script with
  | done => rfl
  | setInput mask oFlags rest ih => rw [program, ih, calls, List.map_cons, chain]; rfl
  | setOutput mask oFlags rest ih => rw [program, ih, calls, List.map_cons, chain]; rfl
  | setValue mask value rest ih => rw [program, ih, calls, List.map_cons, chain]; rfl
  | pulse mask isActiveHigh body rest ihBody ihRest =>
    rw [program, ihBody, ihRest, calls, List.map_cons, List.map_append, List.map_cons, chain,
      chain_append]
    simp only [Pin.pulse, Program.bind_assoc, chain]
    rfl

end Script

/-! ## Levels -/

/-- The level that a call gives to a pin. -/
def levelOf : PinCall → (_i : Fin 32) → Option Bool
  | .attributes _ _, _ => none
  | .value mask level, i => if mask.getLsbD i then some level else none

/-- A call gives its level to the pins in its mask. -/
lemma levelOf_of_mem {mask : BitVec 32} {i : Fin 32} (h : mask.getLsbD i = true) (level : Bool) :
    levelOf (.value mask level) i = some level := if_pos h

/-- A call gives no level to the other pins. -/
lemma levelOf_of_not_mem {mask : BitVec 32} {i : Fin 32} (h : mask.getLsbD i = false)
    (level : Bool) : levelOf (.value mask level) i = none := if_neg (by rw [h]; decide)

/-- What a set or clear request does to one pin. -/
lemma getLsbD_of_value (levels mask : BitVec 32) (level : Bool) (i : Fin 32) :
    (if level then levels ||| mask else levels &&& ~~~mask).getLsbD i =
      (levelOf (.value mask level) i).getD (levels.getLsbD i) := by
  have hlevels : (if level then levels ||| mask else levels &&& ~~~mask).getLsbD i =
      if mask.getLsbD i then level else levels.getLsbD i := by
    cases level with
    | true => cases hbit : mask.getLsbD i <;> simp [-BitVec.getLsbD_eq_getElem, hbit]
    | false => cases hbit : mask.getLsbD i <;> simp [-BitVec.getLsbD_eq_getElem, hbit]
  rw [hlevels, levelOf]
  cases mask.getLsbD i with
  | true => rfl
  | false => rfl

/-- A driver that moves levels as set and clear requests ask, and moves none for an attribute
request that asks for no level. -/
structure DrivesAsAsked (asking : LevelFlags) (driver : PioDriver σ) (levels : σ → BitVec 32) :
    Prop extends DrivesLevels driver levels where
  attributes : ∀ oFlags mask d, ¬ asking.OccurIn oFlags →
    levels (driver.onSetAttributes oFlags mask d).2 = levels d

section Levels

variable {asking : LevelFlags} {driver : PioDriver σ} {levels : σ → BitVec 32}

/-- After calls that all succeed, every pin has the level it was given last. -/
lemma levels_run_call (h : DrivesAsAsked asking driver levels) (i : Fin 32) {cs : List PinCall}
    (hcs : ∀ c ∈ cs, c.AsksNoLevel asking) {t : Thread σ PioRequest}
    (hend : (run Thread.call t (cs.map (PinCall.deviceCall driver))).isError = false) :
    (levels (run Thread.call t (cs.map (PinCall.deviceCall driver))).device).getLsbD i =
      (lastAssigned levelOf i cs).getD ((levels t.device).getLsbD i) := by
  induction cs generalizing t with
  | nil => rfl
  | cons c cs ih =>
    obtain ⟨hc, hrest⟩ := List.forall_mem_cons.mp hcs
    rw [List.map_cons] at hend ⊢
    obtain ⟨ht, hmade⟩ := call_of_run_no_error hend
    have hfirst : (levels (t.call (c.deviceCall driver)).device).getLsbD i =
        (levelOf c i).getD ((levels t.device).getLsbD i) := by
      rw [call_of_no_error ht, Thread.afterCall_device]
      cases c with
      | attributes oFlags mask =>
        change (levels (driver.onSetAttributes oFlags mask t.device).2).getLsbD i = _
        rw [h.attributes _ _ _ hc]
        rfl
      | value mask level =>
        change (levels (driver.onValue mask level t.device).2).getLsbD i = _
        rw [h.accept _ _ _ hmade, getLsbD_of_value]
    rw [run_cons] at hend ⊢
    rw [ih hrest hend, hfirst, lastAssigned_cons]
    cases lastAssigned levelOf i cs with
    | none => rfl
    | some level => rfl

end Levels

/-- The last level that the calls of a script give to a pin with scopes is the inactive one:
whatever is nested, the last of them to give it one is a deleter. -/
lemma lastAssigned_calls (flags : GpioFlags) {i : Fin 32} {isActiveHigh : IsActiveHigh}
    {script : Script} (hsets : script.sets i = false)
    (hpolarity : script.PulsesAs i isActiveHigh) :
    lastAssigned levelOf i (script.calls flags) =
      if script.pulses i then some (decide (isActiveHigh = .no)) else none := by
  induction script with
  | done => rfl
  | setInput mask oFlags rest ih =>
    rw [Script.calls, lastAssigned_cons, ih hsets hpolarity]
    exact Option.or_none
  | setOutput mask oFlags rest ih =>
    rw [Script.calls, lastAssigned_cons, ih hsets hpolarity]
    exact Option.or_none
  | setValue mask value rest ih =>
    obtain ⟨hmask, hrest⟩ := Bool.or_eq_false_iff.mp hsets
    rw [Script.calls, lastAssigned_cons, ih hrest hpolarity, levelOf_of_not_mem hmask]
    exact Option.or_none
  | pulse mask polarity body rest ihBody ihRest =>
    obtain ⟨hbody, hrest⟩ := Bool.or_eq_false_iff.mp hsets
    obtain ⟨hmask, hbodyPolarity, hrestPolarity⟩ := hpolarity
    rw [Script.calls, lastAssigned_cons, lastAssigned_append, lastAssigned_cons,
      ihBody hbody hbodyPolarity, ihRest hrest hrestPolarity, Script.pulses]
    -- the scope's own deleter comes after its body and before what follows it
    cases hrestPulses : rest.pulses i with
    | true =>
      rw [Bool.or_true, if_pos rfl]
      rfl
    | false =>
      cases hbit : mask.getLsbD i with
      | true =>
        obtain rfl : polarity = isActiveHigh := hmask hbit
        rw [levelOf_of_mem hbit, levelOf_of_mem hbit]
        rfl
      | false =>
        rw [levelOf_of_not_mem hbit, levelOf_of_not_mem hbit, Bool.false_or, Bool.or_false]
        cases body.pulses i with
        | true => rfl
        | false => rfl

/-! ## Runs of scripts -/

/-- Nested pulses end with their pins inactive.  For every script whose attribute requests ask for
no level, and every driver that moves levels as it is asked: if no call failed, then every pin that
the script does not set directly, and whose scopes all have the same polarity, is inactive if it has
a scope, and as it was if it has none. -/
theorem pulses_end_inactive (flags : GpioFlags) {asking : LevelFlags} {driver : PioDriver σ}
    {levels : σ → BitVec 32} (h : DrivesAsAsked asking driver levels) (script : Script)
    (hcalls : ∀ c ∈ script.calls flags, c.AsksNoLevel asking) (t : Thread σ PioRequest) :
    ∃ t', (script.program flags driver).Yields t () t' ∧ (t'.isError = false →
      ∀ i isActiveHigh, script.sets i = false → script.PulsesAs i isActiveHigh →
        (levels t'.device).getLsbD i =
          if script.pulses i then decide (isActiveHigh = .no) else (levels t.device).getLsbD i) := by
  rw [Script.program_eq_chain]
  refine ⟨_, (yields_chain _ t _).mpr rfl, fun hend i isActiveHigh hsets hpolarity => ?_⟩
  rw [levels_run_call h i hcalls hend, lastAssigned_calls flags hsets hpolarity]
  cases script.pulses i with
  | true => rfl
  | false => rfl

/-- A pulse of pin 3, an output, active high, with two pulses of pin 5, active low, in its scope.
Between them pin 6 becomes an input, pulled up, and pin 0 is set. -/
def nestedPulses : Script :=
  .setOutput 8 0 (.pulse 8 .yes (.pulse 32 .no .done (.setInput 64 4 (.setValue 1 true
    (.pulse 32 .no .done .done)))) .done)

/-- A port that accepts every request moves levels as asked. -/
lemma drivesAsAsked_acceptingDriver (asking : LevelFlags) :
    DrivesAsAsked asking acceptingDriver id where
  toDrivesLevels := drivesLevels_acceptingDriver
  attributes _ _ _ _ := rfl

/-- No call fails, the pins 3 and 5 end inactive, and pin 4 ends as it was. -/
theorem pulses_end_inactive_nested :
    ∃ t', (nestedPulses.program ⟨1, 2, 4, 8⟩ acceptingDriver).Yields (Thread.start 0x10#32) () t' ∧
      t'.isError = false ∧ t'.device.getLsbD 3 = false ∧ t'.device.getLsbD 5 = true ∧
        t'.device.getLsbD 4 = true := by
  obtain ⟨t', hy, hpins⟩ := pulses_end_inactive ⟨1, 2, 4, 8⟩
    (drivesAsAsked_acceptingDriver ⟨0x10000, 0x20000, 0x40000⟩) nestedPulses (by decide)
    (Thread.start 0x10#32)
  have hend : t'.isError = false := by
    obtain ⟨-, rfl⟩ := hy.unique ⟨0, rfl⟩
    rfl
  refine ⟨t', hy, hend, ?_, ?_, ?_⟩
  · exact hpins hend 3 .yes (by decide) (by simp [nestedPulses, Script.PulsesAs])
  · exact hpins hend 5 .no (by decide) (by simp [nestedPulses, Script.PulsesAs])
  · exact hpins hend 4 .yes (by decide) (by simp [nestedPulses, Script.PulsesAs])

/-- A script stops at the first call that fails.  The requests that reach the driver are a prefix of
the calls of the script, all of them accepted but possibly the last: all calls if no error is
set at the end, and otherwise those up to the one that failed.  The deleters of the scopes that
are open then reach the driver no more. -/
theorem script_stops_at_failure (flags : GpioFlags) (driver : PioDriver σ) (script : Script)
    (t : Thread σ PioRequest) (ht : t.isError = false) :
    ∃ t', ∃ answers : List (PioRequest × ℤ), (script.program flags driver).Yields t () t' ∧
      t'.issued = answers.reverse ++ t.issued ∧
      answers.map Prod.fst <+:
        (script.calls flags).map (fun c => (c.deviceCall driver).request) ∧
      (∀ a ∈ answers.dropLast, 0 ≤ a.2) ∧
      (t'.isError = false →
        answers.length = (script.calls flags).length ∧ ∀ a ∈ answers, 0 ≤ a.2) ∧
      (t'.isError = true → ∃ a ∈ answers.getLast?, a.2 < 0) := by
  obtain ⟨accepted, hfirst⟩ :=
    exists_firstAccepted ht ((script.calls flags).map (PinCall.deviceCall driver))
  obtain ⟨answers, hissued, hprefix, hbefore, hall, hlast⟩ := hfirst.exists_answers
  rw [List.map_map] at hprefix
  rw [List.length_map] at hall
  refine ⟨_, answers, ?_, hissued, hprefix, hbefore, hall, hlast⟩
  rw [Script.program_eq_chain]
  exact (yields_chain _ t _).mpr rfl

/-- A pulse in whose scope the port refuses an attribute request. -/
theorem script_stops_at_failure_refused :
    ∃ t', ∃ answers : List (PioRequest × ℤ),
      ((Script.pulse 8 .yes (.setInput 8 0 .done) .done).program ⟨1, 2, 4, 8⟩ levelDriver).Yields
        (Thread.start 0) () t' ∧
      t'.issued = answers.reverse ++ [] ∧
      answers.map Prod.fst <+: [.setMask 8, .setAttributes 1 8, .clrMask 8] ∧
      (t'.isError = true → ∃ a ∈ answers.getLast?, a.2 < 0) := by
  obtain ⟨t', answers, hy, hissued, hprefix, -, -, hlast⟩ := script_stops_at_failure ⟨1, 2, 4, 8⟩
    levelDriver (.pulse 8 .yes (.setInput 8 0 .done) .done) (Thread.start 0) rfl
  exact ⟨t', answers, hy, hissued, hprefix, hlast⟩

end HalAPI.Pin
