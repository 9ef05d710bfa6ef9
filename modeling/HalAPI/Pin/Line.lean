import HalAPI.Foundation.LastAssigned
import HalAPI.Pin.Isolation

/-!
# Pins on lines

What drives a pin from outside is its line: it holds the pin low or high, or floats.  An input that
is pulled up reads high unless its line is low, and one that is pulled down reads low unless its line
is high (`OnLines`), which is what `is_floating` makes use of.

In a run of calls by the pins of a port the lines stay as they are, and whatever the pins were
configured and driven to before, `is_floating` tells its caller what the line of its pin does
(`isFloating_reports_lines`).  The configuration of a pin is the one that was asked for last, where
`is_floating` counts as asking for the flags it restores (`configuration_after_calls`).
-/

namespace HalAPI.Pin

open Foundation

/-! ## Lines -/

section Lines

variable {κ : Type} {flags : GpioFlags} {hw : PinHardware κ} {line : κ → Option Bool}

/-- Configuring and driving a pin leave its line as it is, and an input with a pull-up or pull-down
reads the level of its line, or the pull if the line floats. -/
structure OnLines (flags : GpioFlags) (hw : PinHardware κ) (line : κ → Option Bool) : Prop where
  configure : ∀ oFlags state, line (hw.configure oFlags state) = line state
  drive : ∀ level state, line (hw.drive level state) = line state
  pullup : ∀ i state, hw.sense i (hw.configure (flags.isPullup ||| flags.setInput) state) =
    (line state).getD true
  pulldown : ∀ i state, hw.sense i (hw.configure (flags.isPulldown ||| flags.setInput) state) =
    (line state).getD false

/-- A change to the pins in a mask that leaves the lines as they are. -/
lemma line_onMask {f : κ → κ} (hf : ∀ state, line (f state) = line state) (mask : BitVec 32)
    (port : Port κ) (i : Fin 32) : line (onMask mask f port i) = line (port i) := by
  rw [onMask]
  split
  · exact hf _
  · rfl

/-- Some pin in the mask reads high exactly if one of them does. -/
lemma readsHigh_iff (mask : BitVec 32) (port : Port κ) :
    readsHigh hw mask port = true ↔
      ∃ i : Fin 32, mask.getLsbD i = true ∧ hw.sense i (port i) = true := by
  have hzero := (and_eq_zero_iff (portValue hw port) mask).not
  rw [readsHigh, bne_iff_ne, ne_eq]
  refine hzero.trans ?_
  push Not
  constructor
  · rintro ⟨k, hk, hread, hbit⟩
    rw [portValue, BitVec.getLsbD_ofFnLE, dif_pos hk] at hread
    exact ⟨⟨k, hk⟩, by simpa using hbit, hread⟩
  · rintro ⟨i, hbit, hread⟩
    refine ⟨i, i.isLt, ?_, by simpa using hbit⟩
    rw [portValue, BitVec.getLsbD_ofFnLE, dif_pos i.isLt]
    exact hread

/-- A pin of the port reads high if its line does, when an input is configured that reads its line,
or else the pull. -/
lemma readsHigh_withInput {oFlags : BitVec 32} {pull : Bool}
    (hsense : ∀ i state, hw.sense i (hw.configure (oFlags ||| flags.setInput) state) =
      (line state).getD pull) (i : Fin 32) (port : Port κ) :
    readsHigh hw (1#32 <<< (i : ℕ)) (withInput flags hw (1#32 <<< (i : ℕ)) oFlags port) =
      (line (port i)).getD pull := by
  have hmask : ∀ j : Fin 32, (1#32 <<< (i : ℕ)).getLsbD j = true ↔ j = i := by
    intro j
    rw [getLsbD_one_shiftLeft_of_lt i.isLt, decide_eq_true_eq, Fin.val_inj]
  have hconfigured : withInput flags hw (1#32 <<< (i : ℕ)) oFlags port i =
      hw.configure (oFlags ||| flags.setInput) (port i) := by
    rw [withInput, onMask, if_pos ((hmask i).mpr rfl)]
  rw [Bool.eq_iff_iff, readsHigh_iff, ← hsense i, ← hconfigured]
  constructor
  · rintro ⟨j, hj, hread⟩
    obtain rfl := (hmask j).mp hj
    exact hread
  · exact fun hread => ⟨i, (hmask i).mpr rfl, hread⟩

namespace OnLines

variable (h : OnLines flags hw line)
include h

/-- Configuring an input leaves the lines as they are. -/
lemma line_withInput (mask oFlags : BitVec 32) (port : Port κ) (i : Fin 32) :
    line (withInput flags hw mask oFlags port i) = line (port i) :=
  line_onMask (h.configure _) mask port i

/-- Measuring leaves the lines as they are. -/
lemma line_measured (mask : BitVec 32) (port : Port κ) (i : Fin 32) :
    line ((measured flags hw mask port).2 i) = line (port i) := by
  unfold measured
  split
  · exact (h.line_withInput mask _ _ i).trans (h.line_withInput mask _ _ i)
  · exact h.line_withInput mask _ _ i

/-- Every operation leaves the lines as they are. -/
lemma line_performed (mask : BitVec 32) (operation : Operation) (port : Port κ) (i : Fin 32) :
    line ((performed flags hw mask operation port).2 i) = line (port i) := by
  cases operation with
  | setInput oFlags => exact h.line_withInput mask oFlags port i
  | setOutput oFlags => exact line_onMask (h.configure _) mask port i
  | setValue value => exact line_onMask (h.drive value) mask port i
  | getValue => rfl
  | isFloating oRestoreFlags =>
    exact (h.line_withInput mask _ _ i).trans (h.line_measured mask port i)

/-- The measurements of a pin find out whether its line floats. -/
lemma measured_eq_isNone (i : Fin 32) (port : Port κ) :
    (measured flags hw (1#32 <<< (i : ℕ)) port).1 = (line (port i)).isNone := by
  have hup := readsHigh_withInput h.pullup i port
  have hdown := readsHigh_withInput h.pulldown i
    (withInput flags hw (1#32 <<< (i : ℕ)) flags.isPullup port)
  rw [h.line_withInput] at hdown
  rw [measured, hup, pulledDown, hdown]
  cases line (port i) with
  | none => rfl
  | some level =>
    cases level with
    | false => rfl
    | true => rfl

end OnLines

end Lines

/-! ## `is_floating` in runs -/

section Runs

variable {κ : Type} {pins : Finset (BitVec 8)} {flags : GpioFlags} {hw : PinHardware κ}

/-- A call returns its value to its pin, and a call of `is_floating` by a pin of the port returns
whether the line of the pin floats. -/
def Reports (line : κ → Option Bool) (port : Port κ) (c : Call pins)
    (value : {pin // pin ∈ pins} × Option Bool) : Prop :=
  value.1 = c.pin ∧ ∀ oRestoreFlags, c.operation = .isFloating oRestoreFlags →
    ∀ i : Fin 32, (c.pin : BitVec 8).toNat = i → value.2 = some (line (port i)).isNone

/-- Calls report the lines that the port had before them. -/
lemma OnLines.reports_callValues {line : κ → Option Bool} (h : OnLines flags hw line)
    (undefinedShift : BitVec 8 → BitVec 32) (calls : List (Call pins)) {port₀ port : Port κ}
    (hline : ∀ i, line (port i) = line (port₀ i)) :
    List.Forall₂ (Reports line port₀) calls (callValues flags hw undefinedShift port calls) ∧
      ∀ i, line (run (fun port c => (callStep flags hw undefinedShift port c).2) port calls i) =
        line (port₀ i) := by
  induction calls generalizing port with
  | nil => exact ⟨List.Forall₂.nil, hline⟩
  | cons c calls ih =>
    have hstep : ∀ i, line ((callStep flags hw undefinedShift port c).2 i) = line (port₀ i) :=
      fun i => (h.line_performed _ c.operation port i).trans (hline i)
    obtain ⟨hvalues, hend⟩ := ih hstep
    refine ⟨List.Forall₂.cons ⟨rfl, fun oRestoreFlags hoperation i hi => ?_⟩ hvalues, hend⟩
    have hlt : (c.pin : BitVec 8).toNat < 32 := hi.trans_lt i.isLt
    have hmask : pinmaskOf undefinedShift c.pin = 1#32 <<< (i : ℕ) := by
      rw [pinmaskOf_of_lt _ hlt, hi]
    rw [callStep, hoperation, hmask, performed, h.measured_eq_isNone, hline]

/-- What `is_floating` is for.  In every run of calls by the pins of a port, whatever the pins were
configured and driven to before it, each call of `is_floating` returns `true` exactly if the line
of its pin floats, and the lines are left as they are. -/
theorem isFloating_reports_lines {line : κ → Option Bool} (h : OnLines flags hw line)
    (undefinedShift : BitVec 8 → BitVec 32) (calls : List (Call pins)) (port : Port κ) :
    ∃ values t', (runCalls flags (portDriver hw) undefinedShift calls).Yields (Thread.start port)
        values t' ∧
      List.Forall₂ (Reports line port) calls values ∧
      ∀ i, line (t'.device i) = line (port i) := by
  obtain ⟨t', hy, -, hdevice⟩ :=
    computes_runCalls flags hw undefinedShift calls (Thread.start port) rfl
  obtain ⟨hvalues, hend⟩ := h.reports_callValues undefinedShift calls fun _ => rfl
  refine ⟨_, t', hy, hvalues, fun i => ?_⟩
  rw [hdevice]
  exact hend i

/-! ### A pin and its line -/

/-- The flags a pin is configured with, the level it was given, and its line. -/
structure LinePin where
  oFlags : BitVec 32
  level : Bool
  line : Option Bool

/-- Pins that read their line, or their pull-up or pull-down if the line floats, and as outputs the
level they were given. -/
def lineHardware (flags : GpioFlags) : PinHardware LinePin where
  configure oFlags state := { state with oFlags := oFlags }
  drive level state := { state with level := level }
  sense _ state :=
    if state.oFlags &&& flags.setOutput != 0 then state.level
    else state.line.getD (state.oFlags &&& flags.isPullup != 0)

/-- These pins are on their lines. -/
lemma onLines_lineHardware : OnLines ⟨1, 2, 4, 8⟩ (lineHardware ⟨1, 2, 4, 8⟩) LinePin.line where
  configure _ _ := rfl
  drive _ _ := rfl
  pullup _ _ := by simp [lineHardware]
  pulldown _ _ := by simp [lineHardware]

/-- Pin 3 is an output that is driven before it is asked whether it floats, and pin 4 is asked as
well. -/
def lineCalls : List (Call {3#8, 4#8}) :=
  [⟨⟨3, by decide⟩, .setOutput 0, 0⟩, ⟨⟨3, by decide⟩, .setValue true, 0⟩,
    ⟨⟨3, by decide⟩, .isFloating 16, 0⟩, ⟨⟨4, by decide⟩, .isFloating 16, 0⟩]

/-- The line of pin 3 floats, and pin 4 is held high. -/
theorem isFloating_reports_lines_of_two :
    ∃ v₁ v₂ t', (runCalls ⟨1, 2, 4, 8⟩ (portDriver (lineHardware ⟨1, 2, 4, 8⟩)) (fun _ => 0)
        lineCalls).Yields
          (Thread.start fun i : Fin 32 => ⟨0, false, if i = 4 then some true else none⟩)
          [v₁, v₂, (⟨3, by decide⟩, some true), (⟨4, by decide⟩, some false)] t' := by
  obtain ⟨values, t', hy, hvalues, -⟩ := isFloating_reports_lines onLines_lineHardware (fun _ => 0)
    lineCalls (fun i : Fin 32 => ⟨0, false, if i = 4 then some true else none⟩)
  obtain _ | ⟨-, _ | ⟨-, _ | ⟨⟨hpin₃, hfloats₃⟩, _ | ⟨⟨hpin₄, hfloats₄⟩, _ | _⟩⟩⟩⟩ := hvalues
  have hvalue₃ : _ = (_, some true) := Prod.ext hpin₃ (hfloats₃ 16 rfl 3 rfl)
  have hvalue₄ : _ = (_, some false) := Prod.ext hpin₄ (hfloats₄ 16 rfl 4 rfl)
  rw [hvalue₃, hvalue₄] at hy
  exact ⟨_, _, t', hy⟩

/-! ## The configuration after a run -/

/-- A pin records the flags it is configured with. -/
structure RecordsFlags (hw : PinHardware κ) (config : κ → BitVec 32) : Prop where
  configure : ∀ oFlags state, config (hw.configure oFlags state) = oFlags
  drive : ∀ level state, config (hw.drive level state) = config state

/-- The flags that an operation leaves its pin with, if it configures it. -/
def Operation.flagsLeft (flags : GpioFlags) : Operation → Option (BitVec 32)
  | .setInput oFlags => some (oFlags ||| flags.setInput)
  | .setOutput oFlags => some (oFlags ||| flags.setOutput)
  | .setValue _ => none
  | .getValue => none
  | .isFloating oRestoreFlags => some (oRestoreFlags ||| flags.setInput)

/-- The flags that a call leaves a pin of the port with, if it configures it. -/
def Call.configures (flags : GpioFlags) (undefinedShift : BitVec 8 → BitVec 32) (c : Call pins)
    (i : Fin 32) : Option (BitVec 32) :=
  if (pinmaskOf undefinedShift c.pin).getLsbD i then c.operation.flagsLeft flags else none

/-- Configuring the pins in a mask. -/
lemma config_onMask_configure {config : κ → BitVec 32} (h : RecordsFlags hw config)
    {mask : BitVec 32} {i : Fin 32} (hi : mask.getLsbD i = true) (oFlags : BitVec 32)
    (port : Port κ) : config (onMask mask (hw.configure oFlags) port i) = oFlags := by
  rw [onMask, if_pos hi, h.configure]

/-- A call configures the pins in its mask, and keeps the configuration of the others. -/
lemma assigns_callStep {config : κ → BitVec 32} (h : RecordsFlags hw config)
    (undefinedShift : BitVec 8 → BitVec 32) :
    Assigns (fun port (c : Call pins) => (callStep flags hw undefinedShift port c).2)
      (fun (i : Fin 32) port => config (port i)) (Call.configures flags undefinedShift) := by
  rintro c i port
  change config ((performed flags hw _ c.operation port).2 i) = _
  rw [Call.configures]
  cases hi : (pinmaskOf undefinedShift c.pin).getLsbD i with
  | false => exact congrArg config ((maskLocal_performed flags hw _ c.operation).frame port i hi)
  | true =>
    rw [if_pos rfl]
    cases c.operation with
    | setInput oFlags => exact config_onMask_configure h hi _ port
    | setOutput oFlags => exact config_onMask_configure h hi _ port
    | setValue value =>
      change config (onMask _ (hw.drive value) port i) = config (port i)
      rw [onMask, if_pos hi, h.drive]
    | getValue => rfl
    | isFloating oRestoreFlags => exact config_onMask_configure h hi _ _

/-- In every run of calls by the pins of a port the configuration of each pin is in the end the one
that was asked for last, or as it was: `is_floating` leaves no trace of its measurements but
restores the flags it is given. -/
theorem configuration_after_calls {config : κ → BitVec 32} (h : RecordsFlags hw config)
    (undefinedShift : BitVec 8 → BitVec 32) (calls : List (Call pins)) (port : Port κ) :
    ∃ values t', (runCalls flags (portDriver hw) undefinedShift calls).Yields (Thread.start port)
        values t' ∧
      ∀ i, config (t'.device i) =
        (lastAssigned (Call.configures flags undefinedShift) i calls).getD (config (port i)) := by
  obtain ⟨t', hy, -, hdevice⟩ :=
    computes_runCalls flags hw undefinedShift calls (Thread.start port) rfl
  refine ⟨_, t', hy, fun i => ?_⟩
  rw [hdevice]
  exact (assigns_callStep h undefinedShift).part_run i port calls

/-- The pins on lines record their flags. -/
lemma recordsFlags_lineHardware (flags : GpioFlags) :
    RecordsFlags (lineHardware flags) LinePin.oFlags where
  configure _ _ := rfl
  drive _ _ := rfl

/-- Pin 3 was an output before it was measured, and no call configured pin 5. -/
theorem configuration_after_calls_of_two :
    ∃ values t', (runCalls ⟨1, 2, 4, 8⟩ (portDriver (lineHardware ⟨1, 2, 4, 8⟩)) (fun _ => 0)
        lineCalls).Yields (Thread.start fun _ => ⟨64, false, none⟩) values t' ∧
      (t'.device 3).oFlags = 17 ∧ (t'.device 5).oFlags = 64 := by
  obtain ⟨values, t', hy, hconfig⟩ := configuration_after_calls
    (recordsFlags_lineHardware ⟨1, 2, 4, 8⟩) (fun _ => 0) lineCalls fun _ => ⟨64, false, none⟩
  exact ⟨values, t', hy, (hconfig 3).trans rfl, (hconfig 5).trans rfl⟩

end Runs

end HalAPI.Pin
