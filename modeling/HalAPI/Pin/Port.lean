import HalAPI.Api.Query
import HalAPI.Pin.Isolation
import HalAPI.Pin.Script

/-!
# `Gpio` and `Pin` on one port

A `Gpio` object addresses any pins of a port by a mask, and a `Pin` object the pin of its number.
Both set and clear pins by the same two requests, so the calls of all objects on a port
are one sequence in which every pin gets a level now and then.

If the hardware forgets a level when it is given another (`Overwrites`), only the last one counts
(`port_after_calls`).  In particular a mask can be set pin by pin, in any order
(`setMask_eq_pins`).
-/

namespace HalAPI

open Foundation

variable {σ κ : Type}

/-! ## The code -/

namespace Gpio

/-- `Gpio::set_mask` -/
def setMask (driver : PioDriver σ) (mask : BitVec 32) : Program (Thread σ PioRequest) Unit :=
  systemCall (.setMask mask) (driver.onSetMask mask)

/-- `Gpio::clear_mask` -/
def clearMask (driver : PioDriver σ) (mask : BitVec 32) : Program (Thread σ PioRequest) Unit :=
  systemCall (.clrMask mask) (driver.onClrMask mask)

/-- `Gpio::get_value` -/
def getValue (driver : PioDriver σ) (uninitialized : BitVec 32) :
    Program (Thread σ PioRequest) (BitVec 32) :=
  queryRecord .get driver.onGet uninitialized

end Gpio

namespace Pin

/-- A call that gives pins a level, by a `Gpio` object or by a `Pin` object with the number. -/
inductive PortCall where
  | setMask (mask : BitVec 32)
  | clearMask (mask : BitVec 32)
  | setValue (pin : BitVec 8) (value : Bool)

section Code

variable (driver : PioDriver σ) (undefinedShift : BitVec 8 → BitVec 32)

/-- The program of a call. -/
def PortCall.program : PortCall → Program (Thread σ PioRequest) Unit
  | .setMask mask => Gpio.setMask driver mask
  | .clearMask mask => Gpio.clearMask driver mask
  | .setValue pin value => Pin.setValue ⟨driver, pinmaskOf undefinedShift pin⟩ value

/-- One call after another. -/
def runPortCalls : List PortCall → Program (Thread σ PioRequest) Unit
  | [] => pure ()
  | c :: calls => c.program driver undefinedShift >>= fun _ => runPortCalls calls

/-- What the driver sees of a call. -/
def PortCall.pinCall : PortCall → PinCall
  | .setMask mask => .value mask true
  | .clearMask mask => .value mask false
  | .setValue pin value => .value (pinmaskOf undefinedShift pin) value

/-- Calls are the chain of what the driver sees of them. -/
lemma runPortCalls_eq_chain (calls : List PortCall) :
    runPortCalls driver undefinedShift calls = chain
      ((calls.map (PortCall.pinCall undefinedShift)).map (PinCall.deviceCall driver)) := by
  induction calls with
  | nil => rfl
  | cons c calls ih =>
    rw [runPortCalls, ih]
    cases c with
    | setMask mask => rfl
    | clearMask mask => rfl
    | setValue pin value => rfl

end Code

/-! ## The port after calls -/

/-- A pin that is given a level forgets the level it was given before. -/
def Overwrites (hw : PinHardware κ) : Prop :=
  ∀ level before (state : κ), hw.drive level (hw.drive before state) = hw.drive level state

/-- A pin that is given the levels last, if it is given any. -/
def givenLast (hw : PinHardware κ) (level : Option Bool) (state : κ) : κ :=
  level.elim state (hw.drive · state)

section Ports

variable {hw : PinHardware κ}

/-- After calls that give levels every pin has the level it was given last, and no error is set. -/
lemma run_call_port (h : Overwrites hw) (cs : List PinCall)
    (hcs : ∀ c ∈ cs, ∃ mask level, c = .value mask level) {t : Thread (Port κ) PioRequest}
    (ht : t.isError = false) :
    (run Thread.call t (cs.map (PinCall.deviceCall (portDriver hw)))).isError = false ∧
      ∀ i, (run Thread.call t (cs.map (PinCall.deviceCall (portDriver hw)))).device i =
        givenLast hw (lastAssigned levelOf i cs) (t.device i) := by
  induction cs generalizing t with
  | nil => exact ⟨ht, fun _ => rfl⟩
  | cons c cs ih =>
    obtain ⟨⟨mask, level, rfl⟩, hrest⟩ := List.forall_mem_cons.mp hcs
    have hserved : (portDriver hw).onValue mask level t.device =
        (0, onMask mask (hw.drive level) t.device) := by
      cases level with
      | true => rfl
      | false => rfl
    have hcall : t.call ((PinCall.value mask level).deviceCall (portDriver hw)) =
        t.afterCall (.ofValue mask level) 0 (onMask mask (hw.drive level) t.device) := by
      rw [call_of_no_error ht]
      change t.afterCall _ ((portDriver hw).onValue mask level t.device).1 _ = _
      rw [hserved]
      exact congrArg (t.afterCall _ _) (congrArg Prod.snd hserved)
    obtain ⟨hend, hdevice⟩ := ih (t := t.call _) hrest (by rw [hcall]; rfl)
    rw [List.map_cons, run_cons]
    refine ⟨hend, fun i => ?_⟩
    rw [hdevice i, hcall, Thread.afterCall_device, lastAssigned_cons]
    cases hbit : mask.getLsbD i with
    | true =>
      rw [levelOf_of_mem hbit, onMask, if_pos hbit]
      cases lastAssigned levelOf i cs with
      | none => rfl
      | some last => exact h last level (t.device i)
    | false => rw [levelOf_of_not_mem hbit, Option.or_none, onMask_of_not hbit]

variable (undefinedShift : BitVec 8 → BitVec 32)

/-- After calls of all objects every pin has the level it was given last. -/
lemma yields_runPortCalls (h : Overwrites hw) (calls : List PortCall)
    {t : Thread (Port κ) PioRequest} (ht : t.isError = false) :
    ∃ t', (runPortCalls (portDriver hw) undefinedShift calls).Yields t () t' ∧
      t'.isError = false ∧ ∀ i, t'.device i = givenLast hw
        (lastAssigned levelOf i (calls.map (PortCall.pinCall undefinedShift))) (t.device i) := by
  have hvalues : ∀ c ∈ calls.map (PortCall.pinCall undefinedShift),
      ∃ mask level, c = .value mask level := by
    rintro c hc
    obtain ⟨call, -, rfl⟩ := List.mem_map.mp hc
    cases call with
    | setMask mask => exact ⟨_, _, rfl⟩
    | clearMask mask => exact ⟨_, _, rfl⟩
    | setValue pin value => exact ⟨_, _, rfl⟩
  obtain ⟨hend, hdevice⟩ := run_call_port h _ hvalues ht
  rw [runPortCalls_eq_chain]
  exact ⟨_, (yields_chain _ _ _).mpr rfl, hend, hdevice⟩

end Ports

/-- The last level counts.  After any interleaving of `Gpio::set_mask`, `Gpio::clear_mask` and
`Pin::set_value` calls by any objects of a port, every pin has the level that the last call with the
pin in its mask gave it, or is as it was, and `Gpio::get_value` returns what the pins then
read. -/
theorem port_after_calls {hw : PinHardware κ} (h : Overwrites hw)
    (undefinedShift : BitVec 8 → BitVec 32) (calls : List PortCall) (port : Port κ)
    (uninitialized : BitVec 32) :
    ∃ t' value t'', (runPortCalls (portDriver hw) undefinedShift calls).Yields
        (Thread.start port) () t' ∧
      (Gpio.getValue (portDriver hw) uninitialized).Yields t' value t'' ∧
      (∀ i, t'.device i = givenLast hw
        (lastAssigned levelOf i (calls.map (PortCall.pinCall undefinedShift))) (port i)) ∧
      ∀ i : Fin 32, value.getLsbD i = hw.sense i (t'.device i) := by
  obtain ⟨t', hy, hend, hdevice⟩ :=
    yields_runPortCalls undefinedShift h calls (Thread.start_isError port)
  have hread : (query .get (portDriver hw).onGet).Yields t' (some (portValue hw t'.device))
      (t'.afterCall .get 0 t'.device) :=
    (yields_query hend .get _ _).mpr ⟨rfl, rfl⟩
  refine ⟨t', portValue hw t'.device, _, hy, hread.bind (Program.Yields.pure _ _), hdevice,
    fun i => ?_⟩
  rw [portValue, BitVec.getLsbD_ofFnLE, dif_pos i.isLt]

/-- Pins whose outputs read back forget the levels they had. -/
lemma overwrites_levelHardware : Overwrites levelHardware := fun _ _ _ => rfl

/-- Pin 3 is set, cleared with others, and set again. -/
theorem port_after_calls_level :
    ∃ t' value t'', (runPortCalls (portDriver levelHardware) (fun _ => 0)
        [.setValue 3 true, .setMask 0x30, .clearMask 0x18, .setValue 3 true]).Yields
          (Thread.start fun _ => false) () t' ∧
      (Gpio.getValue (portDriver levelHardware) 7).Yields t' value t'' ∧
      value.getLsbD 3 = true ∧ value.getLsbD 4 = false ∧ value.getLsbD 5 = true := by
  obtain ⟨t', value, t'', hy, hread, hdevice, hvalue⟩ := port_after_calls overwrites_levelHardware
    (fun _ => 0) [.setValue 3 true, .setMask 0x30, .clearMask 0x18, .setValue 3 true]
    (fun _ => false) 7
  refine ⟨t', value, t'', hy, hread, ?_, ?_, ?_⟩
  · exact (hvalue 3).trans (congrArg _ (hdevice 3))
  · exact (hvalue 4).trans (congrArg _ (hdevice 4))
  · exact (hvalue 5).trans (congrArg _ (hdevice 5))

/-! ## Masks and single pins -/

/-- The mask of the pins with the numbers. -/
def maskOfPins (pins : List (BitVec 8)) : BitVec 32 :=
  pins.foldr (fun pin mask => 1#32 <<< pin.toNat ||| mask) 0

/-- The mask has the bits of the numbers. -/
lemma getLsbD_maskOfPins (pins : List (BitVec 8)) (i : Fin 32) :
    (maskOfPins pins).getLsbD i = true ↔ ∃ pin ∈ pins, pin.toNat = i := by
  induction pins with
  | nil => simp [maskOfPins]
  | cons pin pins ih =>
    have hcons : maskOfPins (pin :: pins) = 1#32 <<< pin.toNat ||| maskOfPins pins := rfl
    rw [hcons, BitVec.getLsbD_or, Bool.or_eq_true, ih, getLsbD_one_shiftLeft, List.exists_mem_cons_iff]
    have hlt : (i : ℕ) < 32 := i.isLt
    simp [hlt, eq_comm]

/-- Setting single pins to one level gives it to the pins in their mask, in whatever order. -/
lemma lastAssigned_setValue (undefinedShift : BitVec 8 → BitVec 32) {pins : List (BitVec 8)}
    (hpins : ∀ pin ∈ pins, pin.toNat < 32) (value : Bool) (i : Fin 32) :
    lastAssigned levelOf i ((pins.map (PortCall.setValue · value)).map
      (PortCall.pinCall undefinedShift)) = levelOf (.value (maskOfPins pins) value) i := by
  have hlevel : ∀ pin ∈ pins, levelOf (.value (pinmaskOf undefinedShift pin) value) i =
      if pin.toNat = i then some value else none := by
    intro pin hpin
    rw [pinmaskOf_of_lt _ (hpins pin hpin), levelOf, getLsbD_one_shiftLeft_of_lt (hpins pin hpin)]
    simp [eq_comm]
  cases hbit : (maskOfPins pins).getLsbD i with
  | false =>
    rw [levelOf_of_not_mem hbit, lastAssigned_eq_none_iff]
    have hnone := (getLsbD_maskOfPins pins i).not.mp (by rw [hbit]; decide)
    simp only [List.mem_map]
    rintro _ ⟨_, ⟨pin, hpin, rfl⟩, rfl⟩
    exact (hlevel pin hpin).trans (if_neg fun heq => hnone ⟨pin, hpin, heq⟩)
  | true =>
    rw [levelOf_of_mem hbit]
    obtain ⟨pin, hpin, heq⟩ := (getLsbD_maskOfPins pins i).mp hbit
    cases hlast : lastAssigned levelOf i ((pins.map (PortCall.setValue · value)).map
      (PortCall.pinCall undefinedShift)) with
    | none =>
      have hnone := lastAssigned_eq_none_iff.mp hlast
        (PortCall.pinCall undefinedShift (.setValue pin value)) (by simpa using ⟨pin, hpin, rfl⟩)
      rw [PortCall.pinCall, hlevel pin hpin, if_pos heq] at hnone
      exact absurd hnone (by simp)
    | some level =>
      obtain ⟨c, hc, hassigned⟩ := exists_of_lastAssigned hlast
      simp only [List.mem_map] at hc
      obtain ⟨_, ⟨pin', hpin', rfl⟩, rfl⟩ := hc
      rw [PortCall.pinCall, hlevel pin' hpin'] at hassigned
      by_cases heq' : pin'.toNat = i
      · rw [if_pos heq'] at hassigned
        exact hassigned.symm
      · rw [if_neg heq'] at hassigned
        exact absurd hassigned (by simp)

/-- `Gpio::set_mask` and `Gpio::clear_mask` agree with the plain way.  Setting or clearing a mask
leaves the port as `Pin::set_value` of the pins in the mask does, one pin after the other, in any
order and with any repetitions. -/
theorem setMask_eq_pins {hw : PinHardware κ} (h : Overwrites hw)
    (undefinedShift : BitVec 8 → BitVec 32) (pins : List (BitVec 8))
    (hpins : ∀ pin ∈ pins, pin.toNat < 32) (value : Bool) (port : Port κ) :
    ∃ t t', (runPortCalls (portDriver hw) undefinedShift
        (pins.map (PortCall.setValue · value))).Yields (Thread.start port) () t ∧
      (if value then Gpio.setMask (portDriver hw) (maskOfPins pins)
        else Gpio.clearMask (portDriver hw) (maskOfPins pins)).Yields (Thread.start port) () t' ∧
      t.device = t'.device := by
  obtain ⟨t, hy, -, hdevice⟩ := yields_runPortCalls undefinedShift h
    (pins.map (PortCall.setValue · value)) (Thread.start_isError port)
  have hmask : (if value then Gpio.setMask (portDriver hw) (maskOfPins pins)
      else Gpio.clearMask (portDriver hw) (maskOfPins pins)).Yields (Thread.start port) ()
        ((Thread.start port).afterCall (.ofValue (maskOfPins pins) value) 0
          (onMask (maskOfPins pins) (hw.drive value) port)) := by
    cases value with
    | true => exact (yields_systemCall rfl _ _).mpr rfl
    | false => exact (yields_systemCall rfl _ _).mpr rfl
  refine ⟨t, _, hy, hmask, funext fun i => ?_⟩
  rw [hdevice i, lastAssigned_setValue undefinedShift hpins, Thread.afterCall_device]
  cases hbit : (maskOfPins pins).getLsbD i with
  | true =>
    rw [levelOf_of_mem hbit, onMask, if_pos hbit]
    rfl
  | false =>
    rw [levelOf_of_not_mem hbit, onMask_of_not hbit]
    rfl

/-- Two pins, one of them twice, and their mask. -/
theorem setMask_eq_pins_of_two :
    ∃ t t', (runPortCalls (portDriver levelHardware) (fun _ => 0)
        [.setValue 5 true, .setValue 3 true, .setValue 5 true]).Yields
          (Thread.start fun _ => false) () t ∧
      (Gpio.setMask (portDriver levelHardware) 0x28).Yields (Thread.start fun _ => false) () t' ∧
      t.device = t'.device :=
  setMask_eq_pins overwrites_levelHardware (fun _ => 0) [5, 3, 5] (by decide) true fun _ => false

end Pin

end HalAPI
