import HalAPI.Pin.Pin

/-!
# `Pin::is_floating`

`is_floating` configures its pin as an input with a pull-up, perhaps then with a pull-down, and at
the end with the flags that its caller wants to have restored.  The restoring request is a
device call like the others, so it is skipped if one of them failed, and the pin keeps the flags
of the measurement that was going on.

`interruption` follows the calls of `is_floating` up to the first that fails, and
`isFloating_restores_iff` says that the pin is restored exactly if none does, or if the flags it is
left with are the restored ones by chance.
-/

namespace HalAPI.Pin

open Foundation

variable {σ : Type}

/-! ## The configuration of a port -/

/-- The pins in the mask are configured with the flags, and the others as they were. -/
def ConfiguredFrom (config : σ → Fin 32 → BitVec 32) (mask oFlags : BitVec 32) (d d' : σ) : Prop :=
  ∀ i, config d' i = if mask.getLsbD i then oFlags else config d i

/-- A driver that configures the pins in the mask when it accepts an attribute request, and no pin
when it refuses one or is asked for the levels. -/
structure ConfiguresPins (driver : PioDriver σ) (config : σ → Fin 32 → BitVec 32) : Prop where
  accept : ∀ oFlags mask d, 0 ≤ (driver.onSetAttributes oFlags mask d).1 →
    ConfiguredFrom config mask oFlags d (driver.onSetAttributes oFlags mask d).2
  refuse : ∀ oFlags mask d, (driver.onSetAttributes oFlags mask d).1 < 0 →
    config (driver.onSetAttributes oFlags mask d).2 = config d
  get : ∀ d, config (driver.onGet d).2 = config d

/-- The later of two configurations of the pins in a mask counts. -/
lemma ConfiguredFrom.trans {config : σ → Fin 32 → BitVec 32} {mask oFlags oFlags' : BitVec 32}
    {d d₁ d₂ : σ} (h₁ : ConfiguredFrom config mask oFlags d d₁)
    (h₂ : ConfiguredFrom config mask oFlags' d₁ d₂) : ConfiguredFrom config mask oFlags' d d₂ := by
  intro i
  rw [h₂ i]
  split
  · rfl
  · rename_i hi
    rw [h₁ i, if_neg hi]

/-- A step that configures no pin keeps what is configured. -/
lemma ConfiguredFrom.of_eq {config : σ → Fin 32 → BitVec 32} {mask oFlags : BitVec 32}
    {d d₁ d₂ : σ} (h : ConfiguredFrom config mask oFlags d d₁) (heq : config d₂ = config d₁) :
    ConfiguredFrom config mask oFlags d d₂ := by
  intro i
  rw [heq, h i]

/-! ## Where the calls fail -/

section Calls

variable (flags : GpioFlags) (pin : Pin σ)

/-- What the driver answers to `set_input`, and the device after it. -/
def inputAnswer (oFlags : BitVec 32) (d : σ) : ℤ × σ :=
  pin.driver.onSetAttributes (oFlags ||| flags.setInput) pin.pinmask d

/-- The flags in force when the restoring request is refused, if it is. -/
def restoreRefused (oRestoreFlags inForce : BitVec 32) (d : σ) : Option (BitVec 32) :=
  if (inputAnswer flags pin oRestoreFlags d).1 < 0 then some inForce else none

/-- The flags in force when one of the calls after the first measurement fails, if one does. -/
def pulldownInterruption (oRestoreFlags : BitVec 32) (d : σ) : Option (BitVec 32) :=
  let pulled := inputAnswer flags pin flags.isPulldown d
  let read := pin.driver.onGet pulled.2
  if pulled.1 < 0 then some (flags.isPullup ||| flags.setInput)
  else if read.1.1 < 0 then some (flags.isPulldown ||| flags.setInput)
  else restoreRefused flags pin oRestoreFlags (flags.isPulldown ||| flags.setInput) read.2

/-- The flags in force when one of the calls after the pull-up fails, if one does. -/
def interruptionFrom (oRestoreFlags : BitVec 32) (d : σ) : Option (BitVec 32) :=
  let read := pin.driver.onGet d
  if read.1.1 < 0 then some (flags.isPullup ||| flags.setInput)
  else if read.1.2 &&& pin.pinmask != 0 then pulldownInterruption flags pin oRestoreFlags read.2
  else restoreRefused flags pin oRestoreFlags (flags.isPullup ||| flags.setInput) read.2

/-- The flags in force when one of the calls of `is_floating` after the first fails, if one does. -/
def interruption (oRestoreFlags : BitVec 32) (d : σ) : Option (BitVec 32) :=
  interruptionFrom flags pin oRestoreFlags (inputAnswer flags pin flags.isPullup d).2

end Calls

/-! ## The calls -/

section Yields

variable {flags : GpioFlags} {pin : Pin σ} {config : σ → Fin 32 → BitVec 32}

/-- The thread after `set_input`. -/
def afterInput (flags : GpioFlags) (pin : Pin σ) (oFlags : BitVec 32) (t : Thread σ PioRequest) :
    Thread σ PioRequest :=
  t.afterCall (.setAttributes (oFlags ||| flags.setInput) pin.pinmask)
    (inputAnswer flags pin oFlags t.device).1 (inputAnswer flags pin oFlags t.device).2

/-- The thread after `get_value`. -/
def afterGet (pin : Pin σ) (t : Thread σ PioRequest) : Thread σ PioRequest :=
  t.afterCall .get (pin.driver.onGet t.device).1.1 (pin.driver.onGet t.device).2

/-- Without an error `set_input` is made. -/
lemma yields_setInput {t : Thread σ PioRequest} (ht : t.isError = false) (oFlags : BitVec 32) :
    (setInput flags pin oFlags).Yields t () (afterInput flags pin oFlags t) :=
  (yields_systemCall ht _ _).mpr rfl

variable (pin) in
/-- Without an error `get_value` is made, and its value is the driver's if it succeeds. -/
lemma yields_getValue {t : Thread σ PioRequest} (ht : t.isError = false)
    (uninitialized : BitVec 32) :
    (getValue pin uninitialized).Yields t
      ((if (pin.driver.onGet t.device).1.1 < 0 then uninitialized
        else (pin.driver.onGet t.device).1.2) &&& pin.pinmask != 0) (afterGet pin t) := by
  refine ((yields_query ht _ _ _).mpr ⟨rfl, rfl⟩).bind ?_
  split <;> simp [afterGet]

variable (flags pin) in
/-- While an error is set `set_input` is skipped. -/
lemma skips_setInput (oFlags : BitVec 32) : Skips (setInput flags pin oFlags) :=
  Skips.systemCall _ _

variable (pin) in
/-- While an error is set `get_value` is skipped. -/
lemma skips_getValue (uninitialized : BitVec 32) : Skips (getValue pin uninitialized) :=
  Skips.bind (Skips.query _ _) fun _ => Skips.pure _

/-- While an error is set the second measurement is skipped. -/
lemma skips_followsPulldown (uninitialized : BitVec 32) :
    Skips (followsPulldown flags pin uninitialized) :=
  Skips.bind (skips_setInput flags pin _) fun _ =>
    Skips.bind (skips_getValue pin uninitialized) fun _ => Skips.pure _

/-- While an error is set what `is_floating` does after its first request is skipped. -/
lemma skips_afterPullup (oRestoreFlags : BitVec 32) (uninitialized : BitVec 32 × BitVec 32) :
    Skips (getValue pin uninitialized.1 >>= fun isHigh =>
      (if isHigh then followsPulldown flags pin uninitialized.2 else pure false) >>= fun result =>
        setInput flags pin oRestoreFlags >>= fun _ => pure result) := by
  refine Skips.bind (skips_getValue pin uninitialized.1) fun isHigh => ?_
  refine Skips.bind (Skips.ite (skips_followsPulldown uninitialized.2) (Skips.pure false) isHigh) ?_
  exact fun result => Skips.bind (skips_setInput flags pin oRestoreFlags) fun _ => Skips.pure result

/-- While an error is set `is_floating` is skipped. -/
lemma skips_isFloating (oRestoreFlags : BitVec 32) (uninitialized : BitVec 32 × BitVec 32) :
    Skips (isFloating flags pin oRestoreFlags uninitialized) :=
  Skips.bind (skips_setInput flags pin _) fun _ => skips_afterPullup oRestoreFlags uninitialized

/-- A request that is made keeps those made before. -/
lemma issued_suffix_afterCall (t : Thread σ PioRequest) (request : PioRequest) (result : ℤ) (d : σ) :
    t.issued <:+ (t.afterCall request result d).issued :=
  List.suffix_cons _ _

variable (h : ConfiguresPins pin.driver config)
include h

variable (flags) in
/-- `set_input` configures the pin if the driver accepts it. -/
lemma configuredFrom_afterInput (oFlags : BitVec 32) {inForce : BitVec 32} {d₀ : σ}
    {t : Thread σ PioRequest} (hconfig : ConfiguredFrom config pin.pinmask inForce d₀ t.device) :
    ConfiguredFrom config pin.pinmask
      (if (inputAnswer flags pin oFlags t.device).1 < 0 then inForce else oFlags ||| flags.setInput)
      d₀ (afterInput flags pin oFlags t).device := by
  split
  · rename_i hrefuse
    exact hconfig.of_eq (h.refuse _ _ _ hrefuse)
  · rename_i haccept
    exact hconfig.trans (h.accept _ _ _ (not_lt.mp haccept))

/-- The restoring request leaves the flags in force if it is skipped or refused. -/
lemma yields_restore (oRestoreFlags : BitVec 32) {inForce : BitVec 32} {d₀ : σ}
    {t : Thread σ PioRequest} (hconfig : ConfiguredFrom config pin.pinmask inForce d₀ t.device) :
    ∃ t', (setInput flags pin oRestoreFlags).Yields t () t' ∧ t.issued <:+ t'.issued ∧
      ConfiguredFrom config pin.pinmask
        ((if t.isError then some inForce
          else restoreRefused flags pin oRestoreFlags inForce t.device).getD
            (oRestoreFlags ||| flags.setInput)) d₀ t'.device := by
  cases he : t.isError with
  | true =>
    obtain ⟨_, hskip⟩ := skips_setInput flags pin oRestoreFlags t he
    exact ⟨t, hskip, List.suffix_rfl, hconfig⟩
  | false =>
    refine ⟨_, yields_setInput he oRestoreFlags, issued_suffix_afterCall _ _ _ _, ?_⟩
    have hafter := configuredFrom_afterInput flags h oRestoreFlags hconfig
    unfold restoreRefused
    rw [if_neg (by simp)]
    split
    · rename_i hrefuse
      rwa [if_pos hrefuse] at hafter
    · rename_i haccept
      rwa [if_neg haccept] at hafter

/-- The second measurement leaves the pin pulled down, or with an error, and pulled up if its
request was refused. -/
lemma yields_followsPulldown (uninitialized : BitVec 32) {d₀ : σ} {t : Thread σ PioRequest}
    (ht : t.isError = false) (hconfig : ConfiguredFrom config pin.pinmask
      (flags.isPullup ||| flags.setInput) d₀ t.device) :
    ∃ result t', (followsPulldown flags pin uninitialized).Yields t result t' ∧
      t.issued <:+ t'.issued ∧ ∃ inForce, ConfiguredFrom config pin.pinmask inForce d₀ t'.device ∧
        ∀ oRestoreFlags, (if t'.isError then some inForce
          else restoreRefused flags pin oRestoreFlags inForce t'.device) =
            pulldownInterruption flags pin oRestoreFlags t.device := by
  have hpulled := configuredFrom_afterInput flags h flags.isPulldown hconfig
  by_cases hrefuse : (inputAnswer flags pin flags.isPulldown t.device).1 < 0
  · have he : (afterInput flags pin flags.isPulldown t).isError = true := decide_eq_true hrefuse
    obtain ⟨isHigh, hskip⟩ := skips_getValue pin uninitialized _ he
    rw [if_pos hrefuse] at hpulled
    refine ⟨!isHigh, afterInput flags pin flags.isPulldown t, ?_, issued_suffix_afterCall _ _ _ _,
      _, hpulled, fun oRestoreFlags => ?_⟩
    · exact (yields_setInput ht _).bind (hskip.bind (Program.Yields.pure _ _))
    · rw [if_pos he, pulldownInterruption, if_pos hrefuse]
  · have he : (afterInput flags pin flags.isPulldown t).isError = false := decide_eq_false hrefuse
    rw [if_neg hrefuse] at hpulled
    obtain ⟨isHigh, hget⟩ : ∃ isHigh, (getValue pin uninitialized).Yields
        (afterInput flags pin flags.isPulldown t) isHigh
        (afterGet pin (afterInput flags pin flags.isPulldown t)) := ⟨_, yields_getValue pin he _⟩
    refine ⟨!isHigh, afterGet pin (afterInput flags pin flags.isPulldown t), ?_,
      (issued_suffix_afterCall _ _ _ _).trans (issued_suffix_afterCall _ _ _ _),
      flags.isPulldown ||| flags.setInput, hpulled.of_eq (h.get _), fun oRestoreFlags => ?_⟩
    · exact (yields_setInput ht _).bind (hget.bind (Program.Yields.pure _ _))
    · rw [pulldownInterruption, if_neg hrefuse, afterGet, Thread.afterCall_isError]
      simp only [decide_eq_true_eq]
      rfl

/-- Once the pin is pulled up, the measurements leave the flags in force that the restoring request
replaces. -/
lemma yields_measurements (uninitialized : BitVec 32 × BitVec 32) {d₀ : σ}
    {t : Thread σ PioRequest} (ht : t.isError = false) (hconfig : ConfiguredFrom config pin.pinmask
      (flags.isPullup ||| flags.setInput) d₀ t.device) :
    ∃ result t', (getValue pin uninitialized.1 >>= fun isHigh =>
        if isHigh then followsPulldown flags pin uninitialized.2 else pure false).Yields t result
          t' ∧
      t.issued <:+ t'.issued ∧ ∃ inForce, ConfiguredFrom config pin.pinmask inForce d₀ t'.device ∧
        ∀ oRestoreFlags, (if t'.isError then some inForce
          else restoreRefused flags pin oRestoreFlags inForce t'.device) =
            interruptionFrom flags pin oRestoreFlags t.device := by
  have hread := hconfig.of_eq (h.get t.device)
  have hget := yields_getValue pin ht uninitialized.1
  by_cases hfail : (pin.driver.onGet t.device).1.1 < 0
  · have he : (afterGet pin t).isError = true := decide_eq_true hfail
    have hskips : ∀ isHigh : Bool,
        Skips (if isHigh then followsPulldown flags pin uninitialized.2 else pure false) :=
      Skips.ite (skips_followsPulldown uninitialized.2) (Skips.pure false)
    obtain ⟨result, hskip⟩ := hskips _ _ he
    refine ⟨result, afterGet pin t, hget.bind hskip,
      issued_suffix_afterCall _ _ _ _, _, hread, fun oRestoreFlags => ?_⟩
    rw [if_pos he, interruptionFrom, if_pos hfail]
  · have he : (afterGet pin t).isError = false := decide_eq_false hfail
    rw [if_neg hfail] at hget
    cases hhigh : (pin.driver.onGet t.device).1.2 &&& pin.pinmask != 0 with
    | true =>
      rw [hhigh] at hget
      obtain ⟨result, t', hy, hissued, inForce, hforce, hinterruption⟩ :=
        yields_followsPulldown h uninitialized.2 he hread
      refine ⟨result, t', hget.bind hy,
        (issued_suffix_afterCall _ _ _ _).trans hissued, inForce, hforce, fun oRestoreFlags => ?_⟩
      rw [hinterruption, interruptionFrom, if_neg hfail, if_pos hhigh]
      rfl
    | false =>
      have hlow : ¬ (pin.driver.onGet t.device).1.2 &&& pin.pinmask != 0 := by
        rw [hhigh]
        simp
      rw [hhigh] at hget
      refine ⟨false, afterGet pin t, hget.bind (Program.Yields.pure _ _),
        issued_suffix_afterCall _ _ _ _, _, hread, fun oRestoreFlags => ?_⟩
      rw [interruptionFrom, if_neg hfail, if_neg hlow, he]
      rfl

/-- After the first request was accepted, `is_floating` leaves the pin with the flags in force when
one of its calls fails, and otherwise with the restored ones. -/
lemma yields_isFloating (oRestoreFlags : BitVec 32) (uninitialized : BitVec 32 × BitVec 32)
    {t : Thread σ PioRequest} (ht : t.isError = false)
    (haccept : 0 ≤ (inputAnswer flags pin flags.isPullup t.device).1) :
    ∃ result t', (isFloating flags pin oRestoreFlags uninitialized).Yields t result t' ∧
      (afterInput flags pin flags.isPullup t).issued <:+ t'.issued ∧
      ConfiguredFrom config pin.pinmask
        ((interruption flags pin oRestoreFlags t.device).getD (oRestoreFlags ||| flags.setInput))
        t.device t'.device := by
  have hpulled : ConfiguredFrom config pin.pinmask (flags.isPullup ||| flags.setInput) t.device
      (afterInput flags pin flags.isPullup t).device := h.accept _ _ _ haccept
  have he : (afterInput flags pin flags.isPullup t).isError = false :=
    decide_eq_false (not_lt.mpr haccept)
  obtain ⟨result, t₂, hy₂, hissued₂, inForce, hforce, hinterruption⟩ :=
    yields_measurements h uninitialized he hpulled
  obtain ⟨t₃, hy₃, hissued₃, hend⟩ := yields_restore h oRestoreFlags hforce
  rw [hinterruption oRestoreFlags] at hend
  obtain ⟨isHigh, s, hget, hmeasured⟩ := (Program.yields_bind _ _ _ _ _).mp hy₂
  refine ⟨result, t₃, ?_, hissued₂.trans hissued₃, hend⟩
  refine (yields_setInput ht _).bind (hget.bind ?_)
  exact hmeasured.bind (hy₃.bind (Program.Yields.pure _ _))

end Yields

/-! ## Restoring the configuration -/

/-- Some attribute request among those made in between was accepted. -/
def Reconfigured (before after : List (PioRequest × ℤ)) : Prop :=
  ∃ made, after = made ++ before ∧
    ∃ oFlags mask result, (.setAttributes oFlags mask, result) ∈ made ∧ 0 ≤ result

/-- If the pin was reconfigured, it has the restored flags in the end, and no other pin of the port
was. -/
def Restored (config : σ → Fin 32 → BitVec 32) (flags : GpioFlags) (pin : Pin σ)
    (oRestoreFlags : BitVec 32) (t t' : Thread σ PioRequest) : Prop :=
  (Reconfigured t.issued t'.issued → ∀ i : Fin 32, pin.pinmask.getLsbD i = true →
      config t'.device i = oRestoreFlags ||| flags.setInput) ∧
    ∀ i : Fin 32, pin.pinmask.getLsbD i = false → config t'.device i = config t.device i

/-- Without a request in between nothing was reconfigured. -/
lemma not_reconfigured_self (issued : List (PioRequest × ℤ)) : ¬ Reconfigured issued issued := by
  rintro ⟨made, heq, oFlags, mask, result, hmem, -⟩
  obtain rfl : made = [] := List.self_eq_append_left.mp heq
  exact absurd hmem List.not_mem_nil

/-- A request that was refused reconfigured nothing. -/
lemma not_reconfigured_refused {issued : List (PioRequest × ℤ)} {request : PioRequest} {result : ℤ}
    (hrefuse : result < 0) : ¬ Reconfigured issued ((request, result) :: issued) := by
  rintro ⟨made, heq, oFlags, mask, result', hmem, haccept⟩
  have hcons : [(request, result)] ++ issued = made ++ issued := heq
  obtain rfl : [(request, result)] = made := List.append_cancel_right hcons
  obtain ⟨-, rfl⟩ := Prod.mk.inj (List.mem_singleton.mp hmem)
  omega

/-- A pin of the port is in the mask unless the mask is empty. -/
lemma exists_mem_of_ne_zero {mask : BitVec 32} (h : mask ≠ 0#32) :
    ∃ i : Fin 32, mask.getLsbD i = true := by
  by_contra hnone
  push Not at hnone
  exact h (BitVec.eq_of_getLsbD_eq fun k hk => by simpa using hnone ⟨k, hk⟩)

/-- The pins in a mask that have one configuration have another exactly if it is the same, or if
there are none. -/
lemma configuredFrom_eq_iff {config : σ → Fin 32 → BitVec 32} {mask inForce oFlags : BitVec 32}
    {d d' : σ} (h : ConfiguredFrom config mask inForce d d') :
    (∀ i : Fin 32, mask.getLsbD i = true → config d' i = oFlags) ↔
      mask = 0#32 ∨ inForce = oFlags := by
  constructor
  · intro hall
    by_contra hne
    push Not at hne
    obtain ⟨i, hi⟩ := exists_mem_of_ne_zero hne.1
    have hconfig := hall i hi
    rw [h i, if_pos hi] at hconfig
    exact hne.2 hconfig
  · rintro (rfl | rfl) i hi
    · exact absurd hi (by simp)
    · rw [h i, if_pos hi]

/-- When `is_floating` restores its pin.  Whatever its line does and whichever of its calls fail: an
error is set on entry or the first request is refused, so that nothing is reconfigured; or none of
the later calls fails; or the flags in force when one does are the restored ones.  (A pin without
a bit in its mask has nothing to restore.) -/
theorem isFloating_restores_iff {config : σ → Fin 32 → BitVec 32} (flags : GpioFlags) (pin : Pin σ)
    (h : ConfiguresPins pin.driver config) (oRestoreFlags : BitVec 32)
    (uninitialized : BitVec 32 × BitVec 32) (t : Thread σ PioRequest) :
    ∃ result t', (isFloating flags pin oRestoreFlags uninitialized).Yields t result t' ∧
      (Restored config flags pin oRestoreFlags t t' ↔
        t.isError = true ∨ (inputAnswer flags pin flags.isPullup t.device).1 < 0 ∨
          pin.pinmask = 0#32 ∨ ∀ inForce ∈ interruption flags pin oRestoreFlags t.device,
            inForce = oRestoreFlags ||| flags.setInput) := by
  cases he : t.isError with
  | true =>
    obtain ⟨result, hskip⟩ := skips_isFloating oRestoreFlags uninitialized t he
    exact ⟨result, t, hskip, iff_of_true
      ⟨fun hmade => absurd hmade (not_reconfigured_self _), fun _ _ => rfl⟩ (Or.inl rfl)⟩
  | false =>
    rcases lt_or_ge (inputAnswer flags pin flags.isPullup t.device).1 0 with hrefuse | haccept
    · have hrefused : (afterInput flags pin flags.isPullup t).isError = true :=
        decide_eq_true hrefuse
      obtain ⟨result, hskip⟩ := skips_afterPullup oRestoreFlags uninitialized _ hrefused
      refine ⟨result, afterInput flags pin flags.isPullup t,
        (yields_setInput he _).bind hskip,
        iff_of_true ⟨fun hmade => absurd hmade (not_reconfigured_refused hrefuse), fun i _ => ?_⟩
          (Or.inr (Or.inl hrefuse))⟩
      exact congrFun (h.refuse _ _ _ hrefuse) i
    · obtain ⟨result, t', hy, ⟨made, hissued⟩, hconfig⟩ :=
        yields_isFloating h oRestoreFlags uninitialized he haccept
      refine ⟨result, t', hy, ?_⟩
      have hmade : Reconfigured t.issued t'.issued := by
        refine ⟨made ++ [_], by rw [← hissued, List.append_assoc]; rfl, _, _, _,
          List.mem_append_right _ (List.mem_singleton.mpr rfl), haccept⟩
      have hframe : ∀ i : Fin 32, pin.pinmask.getLsbD i = false →
          config t'.device i = config t.device i := fun i hi => by
        rw [hconfig i, if_neg (Bool.eq_false_iff.mp hi)]
      have hrestored : Restored config flags pin oRestoreFlags t t' ↔
          ∀ i : Fin 32, pin.pinmask.getLsbD i = true →
            config t'.device i = oRestoreFlags ||| flags.setInput :=
        ⟨fun hend => hend.1 hmade, fun hall => ⟨fun _ => hall, hframe⟩⟩
      rw [hrestored, configuredFrom_eq_iff hconfig]
      cases interruption flags pin oRestoreFlags t.device with
      | none => simp
      | some inForce => simp [not_lt.mpr haccept]

/-! ### A port whose levels may be unreadable -/

/-- A port that accepts every attribute request, and lets its levels be read or not; pin 3 reads
high. -/
def configDriver (readable : Bool) : PioDriver (Fin 32 → BitVec 32) where
  onSetAttributes oFlags mask d := (0, fun i => if mask.getLsbD i then oFlags else d i)
  onSetMask _ d := (0, d)
  onClrMask _ d := (0, d)
  onGet d := ((if readable then 0 else -1, 8), d)

/-- The port configures its pins as asked. -/
lemma configuresPins_configDriver (readable : Bool) : ConfiguresPins (configDriver readable) id where
  accept _ _ _ _ _ := rfl
  refuse _ _ _ hneg := absurd hneg (by simp [configDriver])
  get _ := rfl

/-- Pin 3 of the port. -/
def configPin (readable : Bool) : Pin (Fin 32 → BitVec 32) := ⟨configDriver readable, 8#32⟩

/-- If every call succeeds, pin 3 is restored. -/
theorem isFloating_restores_readable :
    ∃ result t', (isFloating ⟨1, 2, 4, 8⟩ (configPin true) 16 0).Yields (Thread.start fun _ => 0)
        result t' ∧
      Restored id ⟨1, 2, 4, 8⟩ (configPin true) 16 (Thread.start fun _ => 0) t' := by
  obtain ⟨result, t', hy, hrestored⟩ := isFloating_restores_iff ⟨1, 2, 4, 8⟩ (configPin true)
    (configuresPins_configDriver true) 16 0 (Thread.start fun _ => 0)
  have hnone : interruption ⟨1, 2, 4, 8⟩ (configPin true) 16 (fun _ => 0) = none := by decide
  refine ⟨result, t', hy, hrestored.mpr (Or.inr (Or.inr (Or.inr fun inForce hmem => ?_)))⟩
  rw [Thread.start_device, hnone] at hmem
  exact absurd hmem (Option.not_mem_none inForce)

/-- If the levels cannot be read, pin 3 is reconfigured and keeps its pull-up. -/
theorem isFloating_keeps_pullup_unreadable :
    ConfiguresPins (configPin false).driver id ∧
    ∃ result t', (isFloating ⟨1, 2, 4, 8⟩ (configPin false) 16 0).Yields (Thread.start fun _ => 0)
        result t' ∧ t'.device 3 = 5#32 ∧
      ¬ Restored id ⟨1, 2, 4, 8⟩ (configPin false) 16 (Thread.start fun _ => 0) t' := by
  have haccept : 0 ≤ (inputAnswer ⟨1, 2, 4, 8⟩ (configPin false) 4 (fun _ => 0)).1 := by decide
  obtain ⟨result, t', hy, ⟨made, hissued⟩, hconfig⟩ := yields_isFloating
    (configuresPins_configDriver false) 16 0 (Thread.start_isError fun _ => 0) haccept
  have hpin : t'.device 3 = 5#32 := hconfig 3
  refine ⟨configuresPins_configDriver false, result, t', hy, hpin, fun hrestored => ?_⟩
  have hmade : Reconfigured [] t'.issued :=
    ⟨made ++ [_], by rw [← hissued, List.append_assoc]; rfl, _, _, _,
      List.mem_append_right _ (List.mem_singleton.mpr rfl), haccept⟩
  have hrestore : t'.device 3 = 17#32 := hrestored.1 hmade 3 (by decide)
  rw [hpin] at hrestore
  exact absurd hrestore (by decide)

end HalAPI.Pin
