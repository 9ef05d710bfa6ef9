import HalAPI.Api.ExecutionContext

/-!
# `Pin`

A pin is a file of a port together with the mask of its bit in the port's registers.  Its
operations are attribute, set, clear and get requests with that mask.

The driver of a port is a parameter, as are the flags of its header.  What a local variable
holds before the driver fills it in is an argument of the function that declares it.
-/

namespace HalAPI

open Foundation

/-! ## Data -/

/-- The values of `GpioFlags::Flags` that the operations of a pin use. -/
structure GpioFlags where
  setInput : BitVec 32
  setOutput : BitVec 32
  isPullup : BitVec 32
  isPulldown : BitVec 32

/-- The requests of a port. -/
inductive PioRequest where
  | setAttributes (oFlags oPinmask : BitVec 32)
  | setMask (mask : BitVec 32)
  | clrMask (mask : BitVec 32)
  | get
  deriving DecidableEq

/-- How the driver of a port answers the requests. -/
structure PioDriver (σ : Type) where
  onSetAttributes : BitVec 32 → BitVec 32 → σ → ℤ × σ
  onSetMask : BitVec 32 → σ → ℤ × σ
  onClrMask : BitVec 32 → σ → ℤ × σ
  onGet : σ → (ℤ × BitVec 32) × σ

/-- The request `value ? I_PIO_SETMASK : I_PIO_CLRMASK`. -/
def PioRequest.ofValue (mask : BitVec 32) (value : Bool) : PioRequest :=
  if value then .setMask mask else .clrMask mask

/-- The driver's answer to that request. -/
def PioDriver.onValue {σ : Type} (driver : PioDriver σ) (mask : BitVec 32) (value : Bool) :
    σ → ℤ × σ :=
  if value then driver.onSetMask mask else driver.onClrMask mask

/-- `Pin`: the driver behind its file and `m_pinmask` -/
structure Pin (σ : Type) where
  driver : PioDriver σ
  pinmask : BitVec 32

/-- `1 << pin` of the constructors.  The language leaves the shift of a 32-bit number by 32 or
more undefined; `undefinedShift` says what it is then. -/
def Pin.pinmaskOf (undefinedShift : BitVec 8 → BitVec 32) (pin : BitVec 8) : BitVec 32 :=
  if pin.toNat < 32 then 1#32 <<< pin.toNat else undefinedShift pin

namespace Pin

/-! ## The code -/

section Code

variable {σ : Type} (flags : GpioFlags) (pin : Pin σ)

/-- `Pin::set_output` -/
def setOutput (oFlags : BitVec 32) : Program (Thread σ PioRequest) Unit :=
  systemCall (.setAttributes (oFlags ||| flags.setOutput) pin.pinmask)
    (pin.driver.onSetAttributes (oFlags ||| flags.setOutput) pin.pinmask)

/-- `Pin::set_input` -/
def setInput (oFlags : BitVec 32) : Program (Thread σ PioRequest) Unit :=
  systemCall (.setAttributes (oFlags ||| flags.setInput) pin.pinmask)
    (pin.driver.onSetAttributes (oFlags ||| flags.setInput) pin.pinmask)

/-- `Pin::set_value` -/
def setValue (value : Bool) : Program (Thread σ PioRequest) Unit :=
  systemCall (.ofValue pin.pinmask value) (pin.driver.onValue pin.pinmask value)

/-- `Pin::get_value`, whose local `value` holds `uninitialized` until the driver fills it in -/
def getValue (uninitialized : BitVec 32) : Program (Thread σ PioRequest) Bool := do
  let value ← query .get pin.driver.onGet
  return value.getD uninitialized &&& pin.pinmask != 0

/-- The second measurement of `is_floating`: the pin is not high when it is pulled down. -/
def followsPulldown (uninitialized : BitVec 32) : Program (Thread σ PioRequest) Bool := do
  setInput flags pin flags.isPulldown
  let isHigh ← getValue pin uninitialized
  return !isHigh

/-- `Pin::is_floating`: the second measurement is made only if the pin is high when it is pulled
up.  Each measurement has a local variable of its own. -/
def isFloating (oRestoreFlags : BitVec 32) (uninitialized : BitVec 32 × BitVec 32) :
    Program (Thread σ PioRequest) Bool := do
  setInput flags pin flags.isPullup
  let isHigh ← getValue pin uninitialized.1
  let result ← (if isHigh then followsPulldown flags pin uninitialized.2 else pure false)
  setInput flags pin oRestoreFlags
  return result

/-! ### `PulseScope` -/

/-- `Pin::IsActiveHigh` -/
inductive IsActiveHigh where
  | no
  | yes
  deriving DecidableEq

/-- `PulseScope::PulseScope` -/
def pulseConstruct (isActiveHigh : IsActiveHigh) : Program (Thread σ PioRequest) Unit :=
  setValue pin (isActiveHigh = .yes)

/-- `PulseScope::deleter` -/
def pulseDelete (isActiveHigh : IsActiveHigh) : Program (Thread σ PioRequest) Unit :=
  setValue pin (isActiveHigh = .no)

/-- The lifetime of a `PulseScope` in which `body` is executed: the resource is constructed
first, and its deleter runs once at the end. -/
def pulse (isActiveHigh : IsActiveHigh) (body : Program (Thread σ PioRequest) Unit) :
    Program (Thread σ PioRequest) Unit := do
  pulseConstruct pin isActiveHigh
  body
  pulseDelete pin isActiveHigh

end Code

/-! ## Masks -/

/-- The mask of a pin of the port has the bit of the pin. -/
lemma pinmaskOf_of_lt (undefinedShift : BitVec 8 → BitVec 32) {pin : BitVec 8}
    (hpin : pin.toNat < 32) : pinmaskOf undefinedShift pin = 1#32 <<< pin.toNat :=
  if_pos hpin

/-- The mask of a number that is none of a pin of the port is undefined. -/
lemma pinmaskOf_of_le (undefinedShift : BitVec 8 → BitVec 32) {pin : BitVec 8}
    (hpin : 32 ≤ pin.toNat) : pinmaskOf undefinedShift pin = undefinedShift pin :=
  if_neg (not_lt.mpr hpin)

end Pin

end HalAPI
