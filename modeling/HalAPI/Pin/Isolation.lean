import HalAPI.Foundation.BitMask
import HalAPI.Foundation.Runs
import HalAPI.Pin.Pin

/-!
# Pins that share a port

The pins of a port share its registers, and each addresses them with the mask its constructor
builds from its number.  The driver applies every request exactly to the pins in the mask.
So an operation acts on what its pin's mask addresses and on nothing else
(`MaskLocal`), and pins with disjoint masks do not see each other in any interleaving of their
calls.

The masks are disjoint for the 32 numbers a port has.  For other numbers the constructors
shift too far, and `pins_isolated_iff` says that nothing is certain then unless the pin is
alone.
-/

namespace HalAPI.Pin

open Foundation

/-! ## A port with an exact driver -/

/-- What the requests do to the configuration and level of a single pin, and what the pin
reads. -/
structure PinHardware (κ : Type) where
  configure : BitVec 32 → κ → κ
  drive : Bool → κ → κ
  sense : Fin 32 → κ → Bool

/-- The configuration and level of every pin of a port. -/
abbrev Port (κ : Type) : Type := Fin 32 → κ

section Hardware

variable {κ : Type} (hw : PinHardware κ) (mask : BitVec 32)

/-- Apply a change to the pins in a mask. -/
def onMask (f : κ → κ) (port : Port κ) : Port κ :=
  fun i => if mask.getLsbD i then f (port i) else port i

/-- The value of the port's register: what each pin reads. -/
def portValue (port : Port κ) : BitVec 32 := BitVec.ofFnLE fun i => hw.sense i (port i)

/-- The driver that accepts every request and applies it exactly to the pins in its mask. -/
def portDriver : PioDriver (Port κ) where
  onSetAttributes oFlags mask port := (0, onMask mask (hw.configure oFlags) port)
  onSetMask mask port := (0, onMask mask (hw.drive true) port)
  onClrMask mask port := (0, onMask mask (hw.drive false) port)
  onGet port := ((0, portValue hw port), port)

/-- Some pin in the mask reads high. -/
def readsHigh (port : Port κ) : Bool := portValue hw port &&& mask != 0

end Hardware

/-! ## Operations -/

/-- The operations of a pin. -/
inductive Operation where
  | setInput (oFlags : BitVec 32)
  | setOutput (oFlags : BitVec 32)
  | setValue (value : Bool)
  | getValue
  | isFloating (oRestoreFlags : BitVec 32)
  deriving DecidableEq

/-- An operation of a pin, with the value it returns to the owner of the pin, if it returns
one. -/
def perform {σ : Type} (flags : GpioFlags) (pin : Pin σ) (uninitialized : BitVec 32 × BitVec 32) :
    Operation → Program (Thread σ PioRequest) (Option Bool)
  | .setInput oFlags => setInput flags pin oFlags >>= fun _ => pure none
  | .setOutput oFlags => setOutput flags pin oFlags >>= fun _ => pure none
  | .setValue value => setValue pin value >>= fun _ => pure none
  | .getValue => getValue pin uninitialized.1 >>= fun value => pure (some value)
  | .isFloating oRestoreFlags =>
    isFloating flags pin oRestoreFlags uninitialized >>= fun value => pure (some value)

section Performed

variable {κ : Type} (flags : GpioFlags) (hw : PinHardware κ) (mask : BitVec 32)

/-- The port after `set_input`. -/
def withInput (oFlags : BitVec 32) (port : Port κ) : Port κ :=
  onMask mask (hw.configure (oFlags ||| flags.setInput)) port

/-- What the second measurement of `is_floating` returns and leaves. -/
def pulledDown (port : Port κ) : Bool × Port κ :=
  (!readsHigh hw mask (withInput flags hw mask flags.isPulldown port),
    withInput flags hw mask flags.isPulldown port)

/-- What the measurements of `is_floating` return and leave. -/
def measured (port : Port κ) : Bool × Port κ :=
  if readsHigh hw mask (withInput flags hw mask flags.isPullup port) then
    pulledDown flags hw mask (withInput flags hw mask flags.isPullup port)
  else (false, withInput flags hw mask flags.isPullup port)

/-- What an operation with a mask returns, and what it does to the port. -/
def performed : Operation → Port κ → Option Bool × Port κ
  | .setInput oFlags, port => (none, withInput flags hw mask oFlags port)
  | .setOutput oFlags, port =>
    (none, onMask mask (hw.configure (oFlags ||| flags.setOutput)) port)
  | .setValue value, port => (none, onMask mask (hw.drive value) port)
  | .getValue, port => (some (readsHigh hw mask port), port)
  | .isFloating oRestoreFlags, port =>
    (some (measured flags hw mask port).1,
      withInput flags hw mask oRestoreFlags (measured flags hw mask port).2)

/-- `set_input` configures the pins in the mask. -/
lemma computes_setInput (oFlags : BitVec 32) :
    Computes (setInput flags ⟨portDriver hw, mask⟩ oFlags) fun port =>
      ((), withInput flags hw mask oFlags port) :=
  Computes.systemCall fun _ => le_rfl

/-- `set_value` drives the pins in the mask. -/
lemma computes_setValue (value : Bool) :
    Computes (setValue ⟨portDriver hw, mask⟩ value) fun port =>
      ((), onMask mask (hw.drive value) port) := by
  cases value with
  | true => exact Computes.systemCall fun _ => le_rfl
  | false => exact Computes.systemCall fun _ => le_rfl

/-- `get_value` reads the pins in the mask. -/
lemma computes_getValue (uninitialized : BitVec 32) :
    Computes (getValue ⟨portDriver hw, mask⟩ uninitialized) fun port =>
      (readsHigh hw mask port, port) :=
  Computes.bind (Computes.query fun _ => le_rfl) fun _ => Computes.pure _

/-- `is_floating` measures the pins in the mask and configures them again. -/
lemma computes_isFloating (oRestoreFlags : BitVec 32) (uninitialized : BitVec 32 × BitVec 32) :
    Computes (isFloating flags ⟨portDriver hw, mask⟩ oRestoreFlags uninitialized) fun port =>
      ((measured flags hw mask port).1,
        withInput flags hw mask oRestoreFlags (measured flags hw mask port).2) := by
  have hsecond : Computes (followsPulldown flags ⟨portDriver hw, mask⟩ uninitialized.2)
      (pulledDown flags hw mask) :=
    Computes.bind (computes_setInput flags hw mask _) fun _ =>
      Computes.bind (computes_getValue hw mask uninitialized.2) fun _ => Computes.pure _
  have hall := Computes.bind (computes_setInput flags hw mask flags.isPullup) fun _ =>
    Computes.bind (computes_getValue hw mask uninitialized.1) fun isHigh =>
      Computes.bind (Computes.ite hsecond (Computes.pure false) isHigh) fun result =>
        Computes.bind (computes_setInput flags hw mask oRestoreFlags) fun _ =>
          Computes.pure result
  exact hall

/-- An operation computes what it performs. -/
lemma computes_perform (uninitialized : BitVec 32 × BitVec 32) (operation : Operation) :
    Computes (perform flags ⟨portDriver hw, mask⟩ uninitialized operation)
      (performed flags hw mask operation) := by
  cases operation with
  | setInput oFlags =>
    exact Computes.bind (computes_setInput flags hw mask oFlags) fun _ => Computes.pure _
  | setOutput oFlags =>
    exact Computes.bind (Computes.systemCall fun _ => le_rfl) fun _ => Computes.pure _
  | setValue value =>
    exact Computes.bind (computes_setValue hw mask value) fun _ => Computes.pure _
  | getValue =>
    exact Computes.bind (computes_getValue hw mask uninitialized.1) fun _ => Computes.pure _
  | isFloating oRestoreFlags =>
    exact Computes.bind (computes_isFloating flags hw mask oRestoreFlags uninitialized)
      fun _ => Computes.pure _

end Performed

/-! ## Locality -/

section Local

variable {κ V : Type} {flags : GpioFlags} {hw : PinHardware κ} {mask : BitVec 32}
  {port port' : Port κ}

/-- Two ports agree on the pins in a mask. -/
def AgreeOn (mask : BitVec 32) (port port' : Port κ) : Prop :=
  ∀ i : Fin 32, mask.getLsbD i = true → port i = port' i

/-- A function acts on the pins in a mask only, and what it does and returns depends on these
only. -/
structure MaskLocal (mask : BitVec 32) (f : Port κ → V × Port κ) : Prop where
  frame : ∀ (port : Port κ) (i : Fin 32), mask.getLsbD i = false → (f port).2 i = port i
  congr : ∀ port port', AgreeOn mask port port' →
    (f port).1 = (f port').1 ∧ AgreeOn mask (f port).2 (f port').2

/-- A change is applied to the pins in the mask only. -/
lemma onMask_of_not {f : κ → κ} {i : Fin 32} (hi : mask.getLsbD i = false) :
    onMask mask f port i = port i := by
  simp only [onMask, hi, Bool.false_eq_true, if_false]

/-- A change keeps two ports in agreement. -/
lemma AgreeOn.onMask (h : AgreeOn mask port port') (f : κ → κ) :
    AgreeOn mask (onMask mask f port) (onMask mask f port') := by
  intro i hi
  simp only [Pin.onMask, hi, if_true, h i hi]

/-- Ports in agreement read the same. -/
lemma AgreeOn.readsHigh_eq (h : AgreeOn mask port port') :
    readsHigh hw mask port = readsHigh hw mask port' := by
  have hvalue : portValue hw port &&& mask = portValue hw port' &&& mask := by
    refine BitVec.eq_of_getLsbD_eq fun k hk => ?_
    cases hbit : mask.getLsbD k with
    | false => simp [hbit]
    | true =>
      have hpin : port ⟨k, hk⟩ = port' ⟨k, hk⟩ := h ⟨k, hk⟩ hbit
      simp [portValue, hk, hpin]
  rw [readsHigh, readsHigh, hvalue]

variable (flags hw) in
/-- Ports in agreement are measured the same. -/
lemma AgreeOn.measured (h : AgreeOn mask port port') :
    (measured flags hw mask port).1 = (measured flags hw mask port').1 ∧
      AgreeOn mask (measured flags hw mask port).2 (measured flags hw mask port').2 := by
  have hup : AgreeOn mask (withInput flags hw mask flags.isPullup port)
      (withInput flags hw mask flags.isPullup port') := h.onMask _
  have hdown := hup.onMask (hw.configure (flags.isPulldown ||| flags.setInput))
  unfold Pin.measured
  rw [hup.readsHigh_eq]
  split
  · exact ⟨congrArg not hdown.readsHigh_eq, hdown⟩
  · exact ⟨rfl, hup⟩

/-- A measurement changes the pins in the mask only. -/
lemma measured_of_not {i : Fin 32} (hi : mask.getLsbD i = false) :
    (measured flags hw mask port).2 i = port i := by
  unfold measured pulledDown withInput
  split
  · exact (onMask_of_not hi).trans (onMask_of_not hi)
  · exact onMask_of_not hi

/-- Every operation is local to its mask. -/
lemma maskLocal_performed (flags : GpioFlags) (hw : PinHardware κ) (mask : BitVec 32)
    (operation : Operation) : MaskLocal mask (performed flags hw mask operation) where
  frame port i hi := by
    cases operation with
    | setInput oFlags => exact onMask_of_not hi
    | setOutput oFlags => exact onMask_of_not hi
    | setValue value => exact onMask_of_not hi
    | getValue => rfl
    | isFloating oRestoreFlags => exact (onMask_of_not hi).trans (measured_of_not hi)
  congr port port' h := by
    cases operation with
    | setInput oFlags => exact ⟨rfl, h.onMask _⟩
    | setOutput oFlags => exact ⟨rfl, h.onMask _⟩
    | setValue value => exact ⟨rfl, h.onMask _⟩
    | getValue => exact ⟨congrArg some h.readsHigh_eq, h⟩
    | isFloating oRestoreFlags =>
      obtain ⟨hvalue, hport⟩ := h.measured flags hw
      exact ⟨congrArg some hvalue, hport.onMask _⟩

end Local

/-! ## Interleaved calls -/

section Calls

variable {pins : Finset (BitVec 8)}

/-- A call of an operation by one of the pins. -/
structure Call (pins : Finset (BitVec 8)) where
  pin : {pin // pin ∈ pins}
  operation : Operation
  uninitialized : BitVec 32 × BitVec 32

/-- The calls one after another, with the value returned to each pin. -/
def runCalls {σ : Type} (flags : GpioFlags) (driver : PioDriver σ)
    (undefinedShift : BitVec 8 → BitVec 32) : List (Call pins) →
      Program (Thread σ PioRequest) (List ({pin // pin ∈ pins} × Option Bool))
  | [] => pure []
  | c :: calls =>
    perform flags ⟨driver, pinmaskOf undefinedShift c.pin⟩ c.uninitialized c.operation >>=
      fun value => runCalls flags driver undefinedShift calls >>= fun values =>
        pure ((c.pin, value) :: values)

/-- The values returned to a pin. -/
def returnedTo (p : {pin // pin ∈ pins}) (values : List ({pin // pin ∈ pins} × Option Bool)) :
    List (Option Bool) :=
  (values.filter (·.1 = p)).map Prod.snd

variable {κ : Type}

/-- The configuration and level that a pin's mask addresses. -/
def view (undefinedShift : BitVec 8 → BitVec 32) (p : {pin // pin ∈ pins}) (port : Port κ) :
    Fin 32 → Option κ :=
  fun i => if (pinmaskOf undefinedShift p).getLsbD i then some (port i) else none

/-- In the interleaving the pin's configuration and level, and the values returned to its
owner, are those of running the pin's own calls alone. -/
def RunsAsAlone (flags : GpioFlags) (hw : PinHardware κ) (undefinedShift : BitVec 8 → BitVec 32)
    (port : Port κ) (calls : List (Call pins)) (p : {pin // pin ∈ pins}) : Prop :=
  ∃ values t values' t',
    (runCalls flags (portDriver hw) undefinedShift calls).Yields (Thread.start port) values t ∧
    (runCalls flags (portDriver hw) undefinedShift (calls.filter (·.pin = p))).Yields
      (Thread.start port) values' t' ∧
    view undefinedShift p t.device = view undefinedShift p t'.device ∧
    returnedTo p values = returnedTo p values'

/-- Every pin runs as if it were alone, whatever the hardware, the state of the port and the
interleaving. -/
def Isolated (flags : GpioFlags) (undefinedShift : BitVec 8 → BitVec 32)
    (pins : Finset (BitVec 8)) : Prop :=
  ∀ (κ : Type) (hw : PinHardware κ) (port : Port κ) (calls : List (Call pins))
    (p : {pin // pin ∈ pins}), RunsAsAlone flags hw undefinedShift port calls p

/-! ### Calls as steps -/

section Steps

variable (flags : GpioFlags) (hw : PinHardware κ) (undefinedShift : BitVec 8 → BitVec 32)

/-- What a call returns, and what it does to the port. -/
def callStep (port : Port κ) (c : Call pins) : Option Bool × Port κ :=
  performed flags hw (pinmaskOf undefinedShift c.pin) c.operation port

/-- The values the calls return. -/
def callValues : Port κ → List (Call pins) → List ({pin // pin ∈ pins} × Option Bool)
  | _, [] => []
  | port, c :: calls =>
    (c.pin, (callStep flags hw undefinedShift port c).1) ::
      callValues (callStep flags hw undefinedShift port c).2 calls

/-- The calls compute their steps. -/
lemma computes_runCalls (calls : List (Call pins)) :
    Computes (runCalls flags (portDriver hw) undefinedShift calls) fun port =>
      (callValues flags hw undefinedShift port calls,
        run (fun port c => (callStep flags hw undefinedShift port c).2) port calls) := by
  induction calls with
  | nil => exact Computes.pure []
  | cons c calls ih =>
    have hfirst := computes_perform flags hw (pinmaskOf undefinedShift c.pin) c.uninitialized
      c.operation
    exact Computes.bind hfirst fun _ => Computes.bind ih fun _ => Computes.pure _

/-- The values returned to a pin are those of its steps. -/
lemma returnedTo_callValues (p : {pin // pin ∈ pins}) (port : Port κ) (calls : List (Call pins)) :
    returnedTo p (callValues flags hw undefinedShift port calls) =
      outputsOf (callStep flags hw undefinedShift) Call.pin p port calls := by
  induction calls generalizing port with
  | nil => rfl
  | cons c calls ih =>
    have hrest := ih (callStep flags hw undefinedShift port c).2
    rw [callValues, outputsOf, ← hrest]
    by_cases hc : c.pin = p
    · simp [returnedTo, hc]
    · simp [returnedTo, hc]

/-- A pin runs as if it were alone exactly if its steps do. -/
lemma runsAsAlone_iff (port : Port κ) (calls : List (Call pins)) (p : {pin // pin ∈ pins}) :
    RunsAsAlone flags hw undefinedShift port calls p ↔
      view undefinedShift p
          (run (fun port c => (callStep flags hw undefinedShift port c).2) port calls) =
        view undefinedShift p (run (fun port c => (callStep flags hw undefinedShift port c).2) port
          (calls.filter (·.pin = p))) ∧
      outputsOf (callStep flags hw undefinedShift) Call.pin p port calls =
        outputsOf (callStep flags hw undefinedShift) Call.pin p port
          (calls.filter (·.pin = p)) := by
  obtain ⟨t, hy, -, hd⟩ := computes_runCalls flags hw undefinedShift calls (Thread.start port) rfl
  obtain ⟨t', hy', -, hd'⟩ := computes_runCalls flags hw undefinedShift
    (calls.filter (·.pin = p)) (Thread.start port) rfl
  rw [← returnedTo_callValues, ← returnedTo_callValues]
  rw [Thread.start_device] at hy hd hy' hd'
  simp only at hd hd'
  rw [← hd, ← hd']
  constructor
  · rintro ⟨values, u, values', u', hu, hu', hview, hvalues⟩
    obtain ⟨rfl, rfl⟩ := hu.unique hy
    obtain ⟨rfl, rfl⟩ := hu'.unique hy'
    exact ⟨hview, hvalues⟩
  · rintro ⟨hview, hvalues⟩
    exact ⟨_, t, _, t', hy, hy', hview, hvalues⟩

end Steps

/-- Two ports look the same to a pin exactly if they agree on its mask. -/
lemma view_eq_iff (undefinedShift : BitVec 8 → BitVec 32) (p : {pin // pin ∈ pins})
    (port port' : Port κ) :
    view undefinedShift p port = view undefinedShift p port' ↔
      AgreeOn (pinmaskOf undefinedShift p) port port' := by
  constructor
  · intro h i hi
    have hview := congrFun h i
    simpa [view, hi] using hview
  · intro h
    funext i
    cases hbit : (pinmaskOf undefinedShift p).getLsbD i with
    | false => simp only [view, hbit, Bool.false_eq_true, if_false]
    | true => simp only [view, hbit, if_true, h i hbit]

/-- With disjoint masks the steps are local to their pins. -/
lemma ownerLocal_callStep (flags : GpioFlags) (hw : PinHardware κ)
    {undefinedShift : BitVec 8 → BitVec 32} {p : {pin // pin ∈ pins}}
    (hdisjoint : ∀ q : {pin // pin ∈ pins}, q ≠ p →
      pinmaskOf undefinedShift p &&& pinmaskOf undefinedShift q = 0) :
    OwnerLocal (callStep flags hw undefinedShift) Call.pin (view undefinedShift) p where
  frame port c hc := by
    rw [view_eq_iff]
    intro i hi
    have hother : (pinmaskOf undefinedShift c.pin).getLsbD i = false :=
      (and_eq_zero_iff _ _).mp (hdisjoint c.pin hc) i i.isLt hi
    exact (maskLocal_performed flags hw _ c.operation).frame port i hother
  view_congr port port' c hc h := by
    rw [view_eq_iff] at h ⊢
    subst hc
    exact ((maskLocal_performed flags hw _ c.operation).congr port port' h).2
  output_congr port port' c hc h := by
    rw [view_eq_iff] at h
    subst hc
    exact ((maskLocal_performed flags hw _ c.operation).congr port port' h).1

/-- Pins whose outputs read back, and which do nothing else. -/
def levelHardware : PinHardware Bool where
  configure _ level := level
  drive value _ := value
  sense _ level := level

/-- A pin that shares a bit with another sees the other's `set_value`. -/
lemma not_runsAsAlone_of_shared (flags : GpioFlags) {undefinedShift : BitVec 8 → BitVec 32}
    {p q : {pin // pin ∈ pins}} (hqp : q ≠ p) {i : Fin 32}
    (hp : (pinmaskOf undefinedShift p).getLsbD i = true)
    (hq : (pinmaskOf undefinedShift q).getLsbD i = true) :
    ¬ RunsAsAlone flags levelHardware undefinedShift (fun _ => false)
      [⟨q, .setValue true, 0⟩] p := by
  rw [runsAsAlone_iff, view_eq_iff]
  rintro ⟨hview, -⟩
  have hbit := hview i hp
  -- the bit is set after the call, and was clear before it
  simp [callStep, performed, levelHardware, onMask, hq, hqp] at hbit

/-- Pins are isolated exactly if their masks are disjoint. -/
theorem isolated_iff_disjoint (flags : GpioFlags) (undefinedShift : BitVec 8 → BitVec 32)
    (pins : Finset (BitVec 8)) :
    Isolated flags undefinedShift pins ↔
      ∀ p q : {pin // pin ∈ pins}, q ≠ p →
        pinmaskOf undefinedShift p &&& pinmaskOf undefinedShift q = 0 := by
  constructor
  · intro h p q hqp
    rw [and_eq_zero_iff]
    intro k hk hp
    by_contra hq
    have hshared : (pinmaskOf undefinedShift q).getLsbD k = true := by simpa using hq
    exact not_runsAsAlone_of_shared flags hqp (i := ⟨k, hk⟩) hp hshared
      (h Bool levelHardware _ _ p)
  · intro hdisjoint κ hw port calls p
    have hlocal := ownerLocal_callStep flags hw (hdisjoint p)
    rw [runsAsAlone_iff]
    exact ⟨view_run_eq_view_run_own hlocal port calls,
      outputsOf_eq_outputsOf_own hlocal port calls⟩

/-- When the pins of a port are isolated.  Whatever the shift of the constructors gives for
numbers it is undefined for, every pin runs as if it were alone in every interleaving: exactly
if all numbers are below 32 or there is one pin at most. -/
theorem pins_isolated_iff (flags : GpioFlags) (pins : Finset (BitVec 8)) :
    (∀ undefinedShift, Isolated flags undefinedShift pins) ↔
      (∀ pin ∈ pins, pin.toNat < 32) ∨ pins.card ≤ 1 := by
  simp only [isolated_iff_disjoint]
  constructor
  · intro h
    by_contra hpins
    obtain ⟨hlarge, hcard⟩ := not_or.mp hpins
    obtain ⟨p, hp, hp32⟩ : ∃ p ∈ pins, 32 ≤ p.toNat := by simpa using hlarge
    obtain ⟨q, hq, hqp⟩ := Finset.exists_mem_ne (not_le.mp hcard) p
    -- let the undefined shift give the mask of the other pin
    obtain ⟨m, hm, hmask⟩ : ∃ m ≠ 0, pinmaskOf (fun _ => m) q = m := by
      rcases lt_or_ge q.toNat 32 with hq32 | hq32
      · exact ⟨1#32 <<< q.toNat, one_shiftLeft_ne_zero hq32, pinmaskOf_of_lt _ hq32⟩
      · exact ⟨1#32, by decide, pinmaskOf_of_le _ hq32⟩
    have hne : (⟨q, hq⟩ : {pin // pin ∈ pins}) ≠ ⟨p, hp⟩ := by simpa using hqp
    have hand := h (fun _ => m) ⟨p, hp⟩ ⟨q, hq⟩ hne
    rw [hmask, pinmaskOf_of_le _ hp32, BitVec.and_self] at hand
    exact hm hand
  · intro hpins undefinedShift p q hqp
    rcases hpins with hsmall | hcard
    · rw [pinmaskOf_of_lt _ (hsmall p p.2), pinmaskOf_of_lt _ (hsmall q q.2)]
      refine one_shiftLeft_and_one_shiftLeft fun h => hqp ?_
      exact Subtype.ext (BitVec.eq_of_toNat_eq h.symm)
    · have hsame : q = p := Subtype.ext (Finset.card_le_one.mp hcard q q.2 p p.2)
      exact absurd hsame hqp

/-- With a shift that counts modulo 32, the pins 0 and 32 share a mask, and each sees what the
other does. -/
theorem pins_not_isolated_of_32 :
    ¬ Isolated ⟨1, 2, 4, 8⟩ (fun pin => 1#32 <<< (pin.toNat % 32)) {0#8, 32#8} := by
  intro h
  exact not_runsAsAlone_of_shared ⟨1, 2, 4, 8⟩ (p := ⟨0, by decide⟩) (q := ⟨32, by decide⟩)
    (i := 0) (by decide) (by decide) (by decide) (h Bool levelHardware _ _ _)

end Calls

end HalAPI.Pin
