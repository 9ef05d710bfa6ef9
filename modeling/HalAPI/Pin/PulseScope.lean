import HalAPI.Pin.Pin

/-!
# `Pin::PulseScope`

A `PulseScope` sets its pin to the active level when it is constructed and to the inactive
level when its lifetime ends.  Both go through `Pin::set_value`, and so does the sticky error:
what the body of the scope leaves in the execution context decides whether the deleter's
request reaches the driver at all.  The body is any program, with calls that fail and with
scopes of its own.
-/

namespace HalAPI.Pin

open Foundation

variable {σ : Type}

/-- A driver that moves the levels of the pins in the mask when it accepts a set or clear
request, and no level when it refuses one.  `levels` reads the levels in a state. -/
structure DrivesLevels (driver : PioDriver σ) (levels : σ → BitVec 32) : Prop where
  accept : ∀ mask value d, 0 ≤ (driver.onValue mask value d).1 →
    levels (driver.onValue mask value d).2 =
      if value then levels d ||| mask else levels d &&& ~~~mask
  refuse : ∀ mask value d, (driver.onValue mask value d).1 < 0 →
    levels (driver.onValue mask value d).2 = levels d

/-- The pins in the mask all have the level. -/
def HasLevel (levels mask : BitVec 32) (level : Bool) : Prop :=
  levels &&& mask = if level then mask else 0

instance (levels mask : BitVec 32) (level : Bool) : Decidable (HasLevel levels mask level) :=
  inferInstanceAs (Decidable (_ = _))

/-- The pin is inactive: low if it is active high, and high if it is active low. -/
def IsInactive (isActiveHigh : IsActiveHigh) (levels mask : BitVec 32) : Prop :=
  HasLevel levels mask (isActiveHigh = .no)

instance (isActiveHigh : IsActiveHigh) (levels mask : BitVec 32) :
    Decidable (IsInactive isActiveHigh levels mask) :=
  inferInstanceAs (Decidable (HasLevel _ _ _))

/-- Setting the bits of a mask gives them the level high, and clearing them the level low. -/
lemma hasLevel_of_value (levels mask : BitVec 32) (value : Bool) :
    HasLevel (if value then levels ||| mask else levels &&& ~~~mask) mask value := by
  unfold HasLevel
  refine BitVec.eq_of_getLsbD_eq fun k hk => ?_
  cases value with
  | true => cases hbit : mask.getLsbD k <;> simp [hbit]
  | false => cases hbit : mask.getLsbD k <;> simp [hbit, hk]

/-- After the deleter the pin is inactive exactly if the deleter's request was made and accepted
or the pin was inactive before it. -/
lemma pulseDelete_isInactive_iff {levels : σ → BitVec 32} (pin : Pin σ)
    (h : DrivesLevels pin.driver levels) (isActiveHigh : IsActiveHigh)
    (t : Thread σ PioRequest) :
    ∃ t', (pulseDelete pin isActiveHigh).Yields t () t' ∧
      (IsInactive isActiveHigh (levels t'.device) pin.pinmask ↔
        (t.isError = false ∧
            0 ≤ (pin.driver.onValue pin.pinmask (isActiveHigh = .no) t.device).1) ∨
          IsInactive isActiveHigh (levels t.device) pin.pinmask) := by
  cases he : t.isError with
  | true => exact ⟨t, (yields_systemCall_of_error he _ _).mpr rfl, by simp⟩
  | false =>
    refine ⟨_, (yields_systemCall he _ _).mpr rfl, ?_⟩
    rw [Thread.afterCall_device]
    rcases le_or_gt 0 (pin.driver.onValue pin.pinmask (isActiveHigh = .no) t.device).1 with
      haccept | hrefuse
    · rw [h.accept _ _ _ haccept]
      have hlevel : IsInactive isActiveHigh _ pin.pinmask :=
        hasLevel_of_value (levels t.device) pin.pinmask (isActiveHigh = .no)
      exact iff_of_true hlevel (Or.inl ⟨rfl, haccept⟩)
    · rw [h.refuse _ _ _ hrefuse]
      simp [not_le.mpr hrefuse]

/-- When a pulse ends with its pin inactive.  Whatever program is executed in the lifetime of the
scope, the pin is inactive afterwards exactly if that program ends without an error and
the driver then accepts the request of the deleter, or if the pin is inactive already when
the program ends. -/
theorem pulse_isInactive_iff {levels : σ → BitVec 32} (pin : Pin σ)
    (h : DrivesLevels pin.driver levels) (isActiveHigh : IsActiveHigh)
    (body : Program (Thread σ PioRequest) Unit) {t t₀ t₁ : Thread σ PioRequest}
    (hconstruct : (pulseConstruct pin isActiveHigh).Yields t () t₀)
    (hbody : body.Yields t₀ () t₁) :
    ∃ t', (pulse pin isActiveHigh body).Yields t () t' ∧
      (IsInactive isActiveHigh (levels t'.device) pin.pinmask ↔
        (t₁.isError = false ∧
            0 ≤ (pin.driver.onValue pin.pinmask (isActiveHigh = .no) t₁.device).1) ∨
          IsInactive isActiveHigh (levels t₁.device) pin.pinmask) := by
  obtain ⟨t', hdelete, hlevel⟩ := pulseDelete_isInactive_iff pin h isActiveHigh t₁
  refine ⟨t', ?_, hlevel⟩
  exact hconstruct.bind (hbody.bind hdelete)

/-! ### Two ports -/

/-- A port that keeps the levels of its pins and refuses every attribute request. -/
def levelDriver : PioDriver (BitVec 32) where
  onSetAttributes _ _ levels := (-1, levels)
  onSetMask mask levels := (0, levels ||| mask)
  onClrMask mask levels := (0, levels &&& ~~~mask)
  onGet levels := ((0, levels), levels)

/-- The port moves the levels as asked. -/
lemma drivesLevels_levelDriver : DrivesLevels levelDriver id where
  accept mask value d _ := by cases value <;> rfl
  refuse mask value d hneg := by
    cases value <;> exact absurd hneg (by simp [levelDriver, PioDriver.onValue])

/-- A port that keeps the levels of its pins and accepts every request. -/
def acceptingDriver : PioDriver (BitVec 32) where
  onSetAttributes _ _ levels := (0, levels)
  onSetMask := levelDriver.onSetMask
  onClrMask := levelDriver.onClrMask
  onGet := levelDriver.onGet

/-- It moves the levels as asked, too. -/
lemma drivesLevels_acceptingDriver : DrivesLevels acceptingDriver id where
  accept := drivesLevels_levelDriver.accept
  refuse := drivesLevels_levelDriver.refuse

/-- Pin 4 becomes an output, pin 5 is pulsed, active low, with pin 6 set in the scope of the pulse,
and pin 4 gets the level that it does not have. -/
def busyBody : Program (Thread (BitVec 32) PioRequest) Unit := do
  setOutput ⟨1, 2, 4, 8⟩ ⟨acceptingDriver, 16#32⟩ 0
  pulse ⟨acceptingDriver, 32#32⟩ .no (setValue ⟨acceptingDriver, 64#32⟩ true)
  let isHigh ← getValue ⟨acceptingDriver, 16#32⟩ 0
  setValue ⟨acceptingDriver, 16#32⟩ !isHigh

/-- A pulse of pin 3 ends with the pin low, though its scope has calls on three other pins and
another pulse. -/
theorem pulse_isInactive_of_nested :
    ∃ t', (pulse ⟨acceptingDriver, 8#32⟩ .yes busyBody).Yields (Thread.start 0) () t' ∧
      IsInactive .yes t'.device 8#32 := by
  have hconstruct : (pulseConstruct ⟨acceptingDriver, 8#32⟩ .yes).Yields (Thread.start 0) ()
      ((Thread.start 0).afterCall (.setMask 8) 0 8) :=
    (yields_systemCall (Thread.start_isError 0) _ _).mpr rfl
  have hbody : busyBody.Yields ((Thread.start 0).afterCall (.setMask 8) 0 8) ()
      ⟨false, 0, 0x78#32, [(.setMask 16, 0), (.get, 0), (.setMask 32, 0), (.setMask 64, 0),
        (.clrMask 32, 0), (.setAttributes 2 16, 0), (.setMask 8, 0)]⟩ := ⟨0, by decide⟩
  obtain ⟨t', hy, hlevel⟩ := pulse_isInactive_iff ⟨acceptingDriver, 8#32⟩
    drivesLevels_acceptingDriver .yes busyBody hconstruct hbody
  exact ⟨t', hy, hlevel.mpr (Or.inl ⟨rfl, by decide⟩)⟩

/-- A pulse of pin 3 in whose scope one call fails ends with the pin still high, though it was
constructed successfully and the port accepts every set and clear request. -/
theorem pulse_isActive_of_failure :
    ∃ t₀ t', (pulseConstruct ⟨levelDriver, 8#32⟩ .yes).Yields (Thread.start 0) () t₀ ∧
      t₀.isError = false ∧
      (pulse ⟨levelDriver, 8#32⟩ .yes (setInput ⟨1, 2, 4, 8⟩ ⟨levelDriver, 8#32⟩ 0)).Yields
        (Thread.start 0) () t' ∧
      ¬ IsInactive .yes t'.device 8#32 := by
  refine ⟨_, ⟨true, -1, 8#32, [(.setAttributes 1 8, -1), (.setMask 8, 0)]⟩,
    (yields_systemCall rfl _ _).mpr rfl, rfl, ⟨0, by decide⟩, by decide⟩

end HalAPI.Pin
