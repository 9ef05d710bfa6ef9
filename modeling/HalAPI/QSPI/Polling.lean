import HalAPI.QSPI.Flash

/-!
# Polling the chip

Every operation of the flash driver waits until the chip is no longer in progress and enables
writing before it alters the chip.  The wait consists of status reads, and `write_enable` of
status reads and write enables, so they keep whatever those keep (`Undisturbed`), and the wait
ends if the chip is calm.
-/

namespace HalAPI.QSPI

open Foundation

variable {σ : Type} {flash : QspiFlash σ} {P : σ → Prop}

/-- Status reads and write enables keep the property of the device. -/
structure Undisturbed (flash : QspiFlash σ) (P : σ → Prop) : Prop where
  status : ∀ d, P d → P (statusAnswer flash d).2
  enable : ∀ d, P d →
    P (flash.bus.onWriteReg flash.constants.writeEnableCommand [] 0 d)

/-- The chip is in progress for finitely many polls only. -/
def Calm (flash : QspiFlash σ) : Prop :=
  ∀ d, ∃ k, (statusAnswer flash ((fun d => (statusAnswer flash d).2)^[k] d)).1 &&&
    flash.constants.writeInProgressMask = 0#8

/-- A status read keeps the property. -/
lemma total_readStatusReg (hstatus : ∀ d, P d → P (statusAnswer flash d).2) :
    Program.Total (fun s => P s.device) (readStatusReg flash) (fun _ s => P s.device) := by
  intro s hs
  have hkeep : P (afterStatus flash s).device := hstatus s.device hs
  exact ⟨_, _, (yields_readStatusReg flash s _ _).mpr ⟨rfl, rfl⟩, hkeep⟩

/-- The attempts to enable writing end, and keep the property. -/
lemma total_enableAttempts (h : Undisturbed flash P) (attempts : ℕ) (status : BitVec 8) :
    Program.Total (fun s => P s.device) (enableAttempts flash attempts status)
      (fun _ s => P s.device) := by
  induction attempts generalizing status with
  | zero => exact Program.Total.pure fun _ hs => hs
  | succ attempts ih =>
    have hattempt : Program.Total (fun s => P s.device)
        (writeReg flash .writeEnable flash.constants.writeEnableCommand [] 0)
        (fun _ s => P s.device) :=
      Program.Total.step fun s hs => h.enable s.device hs
    refine Program.Total.bind hattempt fun _ => ?_
    refine Program.Total.bind (total_readStatusReg h.status) fun status' => ?_
    by_cases hgranted : (status' &&& flash.constants.writeEnabledMask != 0) = true
    · rw [if_pos hgranted]
      exact Program.Total.pure fun _ hs => hs
    · rw [if_neg hgranted]
      exact ih status'

/-- `write_enable` ends, and keeps the property. -/
lemma total_writeEnable (h : Undisturbed flash P) :
    Program.Total (fun s => P s.device) (writeEnable flash) (fun _ s => P s.device) := by
  refine Program.Total.bind (total_readStatusReg h.status) fun status => ?_
  refine Program.Total.bind (total_enableAttempts h 10 status) fun ended => ?_
  have hrecord : Program.Total (fun s : Session σ => P s.device) (recordEnabled ended.2)
      (fun _ s => P s.device) :=
    Program.Total.step fun _ hs => hs
  exact Program.Total.bind hrecord fun _ => Program.Total.pure fun _ hs => hs

/-- The wait for a calm chip ends after a status read that is not in progress, and with what such
a read leads to. -/
lemma total_waitWhileInProgress_of_ends {Q : σ → Prop} (hcalm : Calm flash)
    (hstatus : ∀ d, P d → P (statusAnswer flash d).2)
    (hends : ∀ d, P d → (statusAnswer flash d).1 &&& flash.constants.writeInProgressMask = 0#8 →
      Q (statusAnswer flash d).2) :
    Program.Total (fun s => P s.device) (waitWhileInProgress flash) (fun _ s => Q s.device) := by
  intro s hs
  obtain ⟨k, hk⟩ := hcalm s.device
  -- by the number of polls after which the chip is no longer in progress
  induction k generalizing s with
  | zero =>
    rw [Function.iterate_zero, id] at hk
    refine ⟨(), afterStatus flash s, ?_, hends s.device hs hk⟩
    rw [yields_waitWhileInProgress, if_pos hk]
  | succ k ih =>
    by_cases hidle : (statusAnswer flash s.device).1 &&& flash.constants.writeInProgressMask = 0#8
    · refine ⟨(), afterStatus flash s, ?_, hends s.device hs hidle⟩
      rw [yields_waitWhileInProgress, if_pos hidle]
    · obtain ⟨u, s', hy, hs'⟩ := ih (afterStatus flash s) (hstatus s.device hs) hk
      refine ⟨(), s', ?_, hs'⟩
      rw [yields_waitWhileInProgress, if_neg hidle]
      exact hy

/-- The wait for a calm chip ends, and keeps the property. -/
lemma total_waitWhileInProgress (hcalm : Calm flash)
    (hstatus : ∀ d, P d → P (statusAnswer flash d).2) :
    Program.Total (fun s => P s.device) (waitWhileInProgress flash) (fun _ s => P s.device) :=
  total_waitWhileInProgress_of_ends hcalm hstatus fun d hd _ => hstatus d hd

/-- A bus that answers status reads as a calm chip does is calm. -/
lemma Calm.of_semiconj {τ : Type} {flash' : QspiFlash τ} (h : Calm flash) (f : τ → σ)
    (hnext : Function.Semiconj f (fun d => (statusAnswer flash' d).2)
      (fun d => (statusAnswer flash d).2))
    (hanswer : ∀ d, (statusAnswer flash' d).1 &&& flash'.constants.writeInProgressMask =
      (statusAnswer flash (f d)).1 &&& flash.constants.writeInProgressMask) :
    Calm flash' := by
  intro d
  obtain ⟨k, hk⟩ := h (f d)
  refine ⟨k, ?_⟩
  rw [hanswer, (hnext.iterate_right k).eq d]
  exact hk

/-- A chip that is in progress for a number of status reads that each of them counts down is
calm. -/
lemma calm_of_countdown (remaining : σ → ℕ)
    (hdown : ∀ d, remaining (statusAnswer flash d).2 = remaining d - 1)
    (hzero : ∀ d, remaining d = 0 →
      (statusAnswer flash d).1 &&& flash.constants.writeInProgressMask = 0#8) :
    Calm flash := by
  have hiterate : ∀ n d,
      remaining ((fun d => (statusAnswer flash d).2)^[n] d) = remaining d - n := by
    intro n
    induction n with
    | zero => exact fun _ => rfl
    | succ n ih =>
      intro d
      rw [Function.iterate_succ_apply, ih, hdown, Nat.sub_sub, Nat.add_comm]
  intro d
  refine ⟨remaining d, hzero _ ?_⟩
  rw [hiterate, Nat.sub_self]

end HalAPI.QSPI
