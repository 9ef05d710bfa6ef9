import HalAPI.Foundation.LastAssigned
import HalAPI.QSPI.Polling

/-!
# Configuring the chip

`set_qspi_mode` tells the chip to change its mode until a status shows that it did, and then repeats
the command on four lines (`setQspiMode_ends`).

`set_dummy_cycles_and_strength` reads the status and the configuration register, replaces a field
of the latter, writes both back, and reads the configuration again to see if it has the field.
The chip may ignore the write, as it does while its write enable latch is not set.

In every sequence of calls the returned values can be relied on: each bit of the register has the
value given by the last call that returned 0 and has it in its field, and no other call had an
effect on it (`configuration_after_settings`).  The writable bits of the status register stay as they
are.
-/

namespace HalAPI.QSPI

open Foundation

variable {σ : Type}

/-- A chip with a configuration register and with status bits that can be written.  It reports both,
and keeps both on status reads and write enables; a write of the two registers replaces them or is
ignored. -/
structure ConfigChip (flash : QspiFlash σ) (readConfigCommand writeConfigCommand : BitVec 32)
    (writable : BitVec 8) (config protection : σ → BitVec 8) : Prop where
  reports : ∀ d, (statusAnswer flash d).1 &&& writable = protection d
  keeps : ∀ c p, Undisturbed flash fun d => config d = c ∧ protection d = p
  delivers : ∀ d, (flash.bus.onReadReg readConfigCommand flash.constants.isRegisterWidth8 d).1 =
    some (config d)
  readKeeps : ∀ d,
    config (flash.bus.onReadReg readConfigCommand flash.constants.isRegisterWidth8 d).2 = config d ∧
    protection (flash.bus.onReadReg readConfigCommand flash.constants.isRegisterWidth8 d).2 =
      protection d
  replaces : ∀ status value d,
    (config (flash.bus.onWriteReg writeConfigCommand [status, value]
        flash.constants.isRegisterWidth16 d) = value ∧
      protection (flash.bus.onWriteReg writeConfigCommand [status, value]
        flash.constants.isRegisterWidth16 d) = status &&& writable) ∨
    config (flash.bus.onWriteReg writeConfigCommand [status, value]
        flash.constants.isRegisterWidth16 d) = config d ∧
      protection (flash.bus.onWriteReg writeConfigCommand [status, value]
        flash.constants.isRegisterWidth16 d) = protection d

/-- The arguments of a call: a field of the register and a value inside the field. -/
structure Setting where
  value : BitVec 8
  mask : BitVec 8
  uninitialized : BitVec 8
  within : value &&& mask = value

namespace Setting

/-- The call. -/
def program (flash : QspiFlash σ) (readConfigCommand writeConfigCommand : BitVec 32)
    (setting : Setting) : Program (Session σ) ℤ :=
  setDummyCyclesAndStrength flash setting.value setting.mask readConfigCommand writeConfigCommand
    setting.uninitialized

/-- A register with the field set to the value. -/
def modify (setting : Setting) (c : BitVec 8) : BitVec 8 :=
  c &&& ~~~setting.mask ||| setting.value

/-- What the register may do on a call, and what the call returns: the field is set and the call
returns 0, or the register is as it was and the call returns -1. -/
def Returns (c : BitVec 8) (setting : Setting) (result : ℤ) (c' : BitVec 8) : Prop :=
  result = 0 ∧ c' = setting.modify c ∨ result = -1 ∧ c' = c

/-- The value of a bit that a call gives to it, if it returns 0 and has the bit in its field. -/
def assigns (call : Setting × ℤ) (k : Fin 8) : Option Bool :=
  if call.2 = 0 ∧ call.1.mask.getLsbD k then some (call.1.value.getLsbD k) else none

/-- The value has no bit outside the field. -/
lemma getLsbD_value (setting : Setting) {k : ℕ} (hk : setting.mask.getLsbD k = false) :
    setting.value.getLsbD k = false := by
  rw [← setting.within, BitVec.getLsbD_and, hk, Bool.and_false]

/-- The bits of a register with the field set. -/
lemma getLsbD_modify (setting : Setting) (c : BitVec 8) {k : ℕ} (hk : k < 8) :
    (setting.modify c).getLsbD k =
      if setting.mask.getLsbD k then setting.value.getLsbD k else c.getLsbD k := by
  rw [modify, BitVec.getLsbD_or, BitVec.getLsbD_and, BitVec.getLsbD_not, decide_eq_true hk,
    Bool.true_and]
  cases hmask : setting.mask.getLsbD k with
  | true => simp
  | false => simp [-BitVec.getLsbD_eq_getElem, setting.getLsbD_value hmask]

/-- The field has the value after it was set. -/
lemma modify_and_mask (setting : Setting) (c : BitVec 8) :
    setting.modify c &&& setting.mask = setting.value := by
  refine BitVec.eq_of_getLsbD_eq fun k hk => ?_
  rw [BitVec.getLsbD_and, setting.getLsbD_modify c hk]
  cases hmask : setting.mask.getLsbD k with
  | true => rw [if_pos rfl, Bool.and_true]
  | false => rw [Bool.and_false, setting.getLsbD_value hmask]

/-- A register whose field has the value is as it was after the field is set. -/
lemma modify_of_field (setting : Setting) {c : BitVec 8}
    (h : c &&& setting.mask = setting.value) : setting.modify c = c := by
  refine BitVec.eq_of_getLsbD_eq fun k hk => ?_
  rw [setting.getLsbD_modify c hk, ← h, BitVec.getLsbD_and]
  cases setting.mask.getLsbD k with
  | true => rw [if_pos rfl, Bool.and_true]
  | false => rfl

end Setting

/-! ## One call -/

section Calls

variable {flash : QspiFlash σ} {readConfigCommand writeConfigCommand : BitVec 32}
  {writable : BitVec 8} {config protection : σ → BitVec 8}

namespace ConfigChip

variable (h : ConfigChip flash readConfigCommand writeConfigCommand writable config protection)
include h

/-- A status read returns the writable bits, and keeps both registers. -/
lemma total_readStatusReg (c p : BitVec 8) :
    Program.Total (fun s => config s.device = c ∧ protection s.device = p) (readStatusReg flash)
      (fun status s => status &&& writable = p ∧ config s.device = c ∧ protection s.device = p) := by
  intro s hs
  refine ⟨_, _, (yields_readStatusReg flash s _ _).mpr ⟨rfl, rfl⟩, ?_, ?_⟩
  · exact (h.reports s.device).trans hs.2
  · exact (h.keeps c p).status s.device hs

/-- A read of the configuration register returns it, and keeps both registers. -/
lemma total_readConfig (c p : BitVec 8) :
    Program.Total (fun s => config s.device = c ∧ protection s.device = p)
      (readReg flash readConfigCommand flash.constants.isRegisterWidth8)
      (fun delivered s =>
        delivered = some c ∧ config s.device = c ∧ protection s.device = p) := by
  refine Program.Total.step fun s hs => ⟨?_, ?_, ?_⟩
  · exact (h.delivers s.device).trans (congrArg some hs.1)
  · exact (h.readKeeps s.device).1.trans hs.1
  · exact (h.readKeeps s.device).2.trans hs.2

/-- Once the register was written or not, the check returns 0 exactly if the field is set. -/
lemma total_check (setting : Setting) (modified c p : BitVec 8) :
    Program.Total (fun s => config s.device = c ∧ protection s.device = p)
      (readStatusReg flash >>= fun _ =>
        readReg flash readConfigCommand flash.constants.isRegisterWidth8 >>= fun check =>
          pure (if check.getD modified &&& setting.mask != setting.value then (-1 : ℤ) else 0))
      (fun result s => result = (if c &&& setting.mask = setting.value then 0 else -1) ∧
        config s.device = c ∧ protection s.device = p) := by
  refine Program.Total.bind (h.total_readStatusReg c p) fun _ => ?_
  refine Program.Total.bind ((h.total_readConfig c p).weaken (fun _ hs => hs.2) fun _ _ hs => hs)
    fun check => ?_
  refine Program.Total.pure fun s hs => ⟨?_, hs.2⟩
  rw [hs.1, Option.getD_some]
  by_cases hfield : c &&& setting.mask = setting.value
  · simp [hfield]
  · simp [hfield]

/-- The write replaces the configuration, or changes nothing; the status bits that are written back are
those that were read. -/
lemma total_writeConfig (setting : Setting) (c p : BitVec 8) {status : BitVec 8}
    (hstatus : status &&& writable = p) :
    Program.Total (fun s => config s.device = c ∧ protection s.device = p)
      (writeReg flash .configuration writeConfigCommand [status, setting.modify c]
        flash.constants.isRegisterWidth16)
      (fun _ s => (config s.device = setting.modify c ∨ config s.device = c) ∧
        protection s.device = p) := by
  refine Program.Total.step fun s hs => ?_
  rcases h.replaces status (setting.modify c) s.device with ⟨hconfig, hbits⟩ | ⟨hconfig, hbits⟩
  · exact ⟨Or.inl hconfig, hbits.trans hstatus⟩
  · exact ⟨Or.inr (hconfig.trans hs.1), hbits.trans hs.2⟩

/-- A call that sets a field sets it and returns 0, or changes nothing and returns -1. -/
lemma total_program (setting : Setting) (c p : BitVec 8) :
    Program.Total (fun s => config s.device = c ∧ protection s.device = p)
      (setting.program flash readConfigCommand writeConfigCommand)
      (fun result s => ∃ c', setting.Returns c result c' ∧ config s.device = c' ∧
        protection s.device = p) := by
  refine Program.Total.bind (h.total_readStatusReg c p) fun status => ?_
  rintro s₁ ⟨hstatus, hs₁⟩
  refine Program.Total.bind (h.total_readConfig c p) (fun delivered => ?_) s₁ hs₁
  rintro s₂ ⟨rfl, hs₂⟩
  refine Program.Total.bind (total_writeEnable (h.keeps c p)) (fun _ => ?_) s₂ hs₂
  refine Program.Total.bind (h.total_writeConfig setting c p hstatus) fun _ => ?_
  rintro s₃ ⟨hwritten, hp⟩
  obtain ⟨result, s₄, hy, hresult, hs₄⟩ :=
    h.total_check setting (setting.modify c) (config s₃.device) p s₃ ⟨rfl, hp⟩
  refine ⟨result, s₄, hy, config s₃.device, ?_, hs₄⟩
  rcases hwritten with hmodified | hkept
  · rw [hmodified, if_pos (setting.modify_and_mask c)] at hresult
    exact Or.inl ⟨hresult, hmodified⟩
  · rw [hkept] at hresult ⊢
    by_cases hfield : c &&& setting.mask = setting.value
    · rw [if_pos hfield] at hresult
      exact Or.inl ⟨hresult, (setting.modify_of_field hfield).symm⟩
    · rw [if_neg hfield] at hresult
      exact Or.inr ⟨hresult, rfl⟩

end ConfigChip

/-! ## Many calls -/

/-- A call assigns the bits of its field if it returns 0, and none otherwise. -/
lemma Setting.getLsbD_of_returns {setting : Setting} {c c' : BitVec 8} {result : ℤ}
    (h : setting.Returns c result c') (k : Fin 8) :
    c'.getLsbD k = (assigns (setting, result) k).getD (c.getLsbD k) := by
  rcases h with ⟨rfl, rfl⟩ | ⟨rfl, rfl⟩
  · rw [setting.getLsbD_modify c k.isLt, assigns]
    cases setting.mask.getLsbD k with
    | true => rfl
    | false => rfl
  · rfl

/-- The returned values can be relied on.  In every sequence of `set_dummy_cycles_and_strength` calls
that set fields, on every chip that may ignore any of the writes: each call returns 0 or -1, each
bit of the configuration register is in the end the one given by the last call that returned 0 and
has the bit in its field, or as it was, and the writable bits of the status register are as they
were. -/
theorem configuration_after_settings
    (h : ConfigChip flash readConfigCommand writeConfigCommand writable config protection)
    (settings : List Setting) (s : Session σ) :
    ∃ results s', (Program.inTurn (Setting.program flash readConfigCommand writeConfigCommand)
        settings).Yields s results s' ∧
      results.length = settings.length ∧ (∀ result ∈ results, result = 0 ∨ result = -1) ∧
      (∀ k : Fin 8, (config s'.device).getLsbD k =
        (lastAssigned Setting.assigns k (settings.zip results)).getD
          ((config s.device).getLsbD k)) ∧
      protection s'.device = protection s.device := by
  have hcall : ∀ setting c, True → Program.Total
      (fun s' => config s'.device = c ∧ protection s'.device = protection s.device)
      (Setting.program flash readConfigCommand writeConfigCommand setting)
      (fun result s' => ∃ c', setting.Returns c result c' ∧
        config s'.device = c' ∧ protection s'.device = protection s.device) :=
    fun setting c _ => h.total_program setting c (protection s.device)
  obtain ⟨results, s', hy, c', hanswers, rfl, hp⟩ := Program.Total.inTurn
    (fun c s' => config s'.device = c ∧ protection s'.device = protection s.device) hcall
    (fun _ (_ : _ ∈ settings) => trivial) (config s.device) s ⟨rfl, rfl⟩
  obtain ⟨hlength, hresults⟩ := hanswers.forall_answers (P := fun result => result = 0 ∨ result = -1)
    fun c setting result c' hreturns => hreturns.imp And.left And.left
  refine ⟨results, s', hy, hlength, hresults, fun k => ?_, hp⟩
  exact hanswers.part_eq (fun (k : Fin 8) c => BitVec.getLsbD c k)
    (fun c setting result c' hreturns k => Setting.getLsbD_of_returns hreturns k) k

/-- A chip with a status and a configuration register, which ignores a number of writes. -/
structure RegisterChip where
  status : BitVec 8
  config : BitVec 8
  ignores : ℕ

/-- The bus of such a chip. -/
def registerFlash : QspiFlash RegisterChip where
  bus := {
    onReadReg command _ d := (some (if command = 5 then d.status else d.config), d)
    onWriteReg _ data _ d :=
      match data with
      | [status, value] =>
        if d.ignores = 0 then { d with status := status, config := value }
        else { d with ignores := d.ignores - 1 }
      | _ => d
    onWrite _ data d := (data.length, d) }
  constants := {
    readStatusCommand := 5
    writeEnableCommand := 6
    writeInProgressMask := 1
    writeEnabledMask := 2
    isRegisterWidth8 := 1
    isRegisterWidth16 := 2
    isRegisterWidth32 := 4 }
  pageSize := 256

/-- It is a chip with a configuration register, of whose status bits four can be written. -/
lemma configChip_registerFlash : ConfigChip registerFlash 0x15 0x01 0x3C RegisterChip.config
    (fun d => d.status &&& 0x3C) where
  reports _ := rfl
  keeps _ _ := ⟨fun _ hd => hd, fun _ hd => hd⟩
  delivers _ := rfl
  readKeeps _ := ⟨rfl, rfl⟩
  replaces status value d := by
    by_cases hzero : d.ignores = 0
    · exact Or.inl (by simp [registerFlash, hzero])
    · exact Or.inr (by simp [registerFlash, hzero])

/-- The settings of two fields. -/
def twoFields : List Setting := [⟨0x40, 0xC0, 0, rfl⟩, ⟨3, 3, 0, rfl⟩]

/-- Two fields are set, and the chip ignores the first of the two writes: the first field stays as
it was, the second has its value, and the bit between them is as it was. -/
theorem configuration_after_settings_ignored :
    ∃ s', (Program.inTurn (Setting.program registerFlash 0x15 0x01) twoFields).Yields
        ⟨⟨0x04, 0x80, 1⟩, []⟩ [-1, 0] s' ∧
      s'.device.config.getLsbD 7 = true ∧ s'.device.config.getLsbD 6 = false ∧
      s'.device.config.getLsbD 2 = false ∧ s'.device.config.getLsbD 1 = true ∧
      s'.device.config.getLsbD 0 = true ∧ s'.device.status &&& 0x3C = 0x04 := by
  obtain ⟨results, s', hy, -, -, hbits, hp⟩ := configuration_after_settings
    configChip_registerFlash twoFields ⟨⟨0x04, 0x80, 1⟩, []⟩
  obtain rfl : results = [-1, 0] := (hy.unique ⟨0, rfl⟩).1
  refine ⟨s', hy, ?_, ?_, ?_, ?_, ?_, hp⟩
  · exact (hbits 7).trans (by decide)
  · exact (hbits 6).trans (by decide)
  · exact (hbits 2).trans (by decide)
  · exact (hbits 1).trans (by decide)
  · exact (hbits 0).trans (by decide)

end Calls

/-! ## `set_qspi_mode` -/

section Mode

/-- The flags of the bus for the lines of an instruction. -/
structure LineFlags where
  isInstruction1Line : BitVec 32
  isInstruction4Line : BitVec 32

variable (flash : QspiFlash σ) (lines : LineFlags) (command : BitVec 32) (checkMask : BitVec 8)

/-- The loop of `set_qspi_mode` with `attempts` attempts left: it returns the attempts left after
the one that succeeded. -/
def modeAttempts : ℕ → Program (Session σ) ℕ
  | 0 => pure 0
  | attempts + 1 => do
    writeReg flash .configuration command [] lines.isInstruction1Line
    let data ← readStatusReg flash
    if data &&& checkMask != 0 then
      writeReg flash .configuration command [] lines.isInstruction4Line
      pure (attempts + 1)
    else modeAttempts attempts

/-- `QSPI_FLASH::set_qspi_mode` -/
def setQspiMode : Program (Session σ) ℤ := do
  let left ← modeAttempts flash lines command checkMask 10
  return if left = 0 then -1 else 0

/-- The status after a command on one line, and the chip after both. -/
def modeRound (d : σ) : BitVec 8 × σ :=
  statusAnswer flash (flash.bus.onWriteReg command [] lines.isInstruction1Line d)

/-- The chip after rounds of commands and status reads. -/
def afterRounds (d : σ) (n : ℕ) : σ := (fun d => (modeRound flash lines command d).2)^[n] d

/-- The status in the round number `n` has a bit of the mask. -/
def SwitchedIn (d : σ) (n : ℕ) : Prop :=
  (modeRound flash lines command (afterRounds flash lines command d n)).1 &&& checkMask ≠ 0#8

/-- A command of `set_qspi_mode` is issued. -/
lemma yields_modeCommand (oFlags : BitVec 32) (s : Session σ) :
    ∃ s', (writeReg flash .configuration command [] oFlags).Yields s () s' ∧
      s'.device = flash.bus.onWriteReg command [] oFlags s.device :=
  ⟨_, (Program.yields_step _ _ _ _).mpr ⟨rfl, rfl⟩, rfl⟩

/-- The loop ends in the first round that shows the mode, with a command on four lines, or after all
attempts without one. -/
lemma yields_modeAttempts (attempts : ℕ) (s : Session σ) :
    ∃ left s', (modeAttempts flash lines command checkMask attempts).Yields s left s' ∧
      ((∃ n < attempts, (∀ m < n, ¬ SwitchedIn flash lines command checkMask s.device m) ∧
          SwitchedIn flash lines command checkMask s.device n ∧ left = attempts - n ∧
          s'.device = flash.bus.onWriteReg command [] lines.isInstruction4Line
            (afterRounds flash lines command s.device (n + 1))) ∨
        (∀ m < attempts, ¬ SwitchedIn flash lines command checkMask s.device m) ∧ left = 0 ∧
          s'.device = afterRounds flash lines command s.device attempts) := by
  induction attempts generalizing s with
  | zero => exact ⟨0, s, Program.Yields.pure _ _, Or.inr ⟨by simp, rfl, rfl⟩⟩
  | succ attempts ih =>
    obtain ⟨s₁, hcommand, hdevice₁⟩ :=
      yields_modeCommand flash command lines.isInstruction1Line s
    have hread := (yields_readStatusReg flash s₁ _ _).mpr ⟨rfl, rfl⟩
    have hround : statusAnswer flash s₁.device = modeRound flash lines command s.device := by
      rw [hdevice₁, modeRound]
    have hdevice : (afterStatus flash s₁).device =
        (modeRound flash lines command s.device).2 := congrArg Prod.snd hround
    have hfirst : SwitchedIn flash lines command checkMask s.device 0 ↔
        (statusAnswer flash s₁.device).1 &&& checkMask ≠ 0#8 := by
      rw [hround]
      rfl
    by_cases hswitched : SwitchedIn flash lines command checkMask s.device 0
    · obtain ⟨s₂, hrepeat, hdevice₂⟩ :=
        yields_modeCommand flash command lines.isInstruction4Line (afterStatus flash s₁)
      refine ⟨attempts + 1, s₂, hcommand.bind (hread.bind ?_), Or.inl ⟨0, by omega, by simp,
        hswitched, rfl, ?_⟩⟩
      · rw [if_pos (by simpa using hfirst.mp hswitched)]
        exact hrepeat.bind (Program.Yields.pure _ _)
      · rw [hdevice₂, hdevice]
        rfl
    · obtain ⟨left, s', hy, hends⟩ := ih (afterStatus flash s₁)
      rw [hdevice] at hends
      refine ⟨left, s', hcommand.bind (hread.bind ?_), ?_⟩
      · rw [if_neg (by simpa using hfirst.not.mp hswitched)]
        exact hy
      -- the rounds from here on are the later rounds of the loop
      · rcases hends with ⟨n, hn, hbefore, hshown, hleft, hend⟩ | ⟨hall, hleft, hend⟩
        · refine Or.inl ⟨n + 1, by omega, fun m hm => ?_, hshown, by omega, hend⟩
          cases m with
          | zero => exact hswitched
          | succ m => exact hbefore m (by omega)
        · refine Or.inr ⟨fun m hm => ?_, hleft, hend⟩
          cases m with
          | zero => exact hswitched
          | succ m => exact hall m (by omega)

/-- What `set_qspi_mode` does to any chip.  Let a round be the command on one line and a status read.
If one of ten rounds shows a bit of the mask, the call returns 0, and the chip has seen the rounds
up to the first that does and then the command on four lines, once; otherwise the call returns -1,
and the chip has seen ten rounds and nothing on four lines. -/
theorem setQspiMode_ends (s : Session σ) :
    ∃ result s', (setQspiMode flash lines command checkMask).Yields s result s' ∧
      ((∃ n < 10, (∀ m < n, ¬ SwitchedIn flash lines command checkMask s.device m) ∧
          SwitchedIn flash lines command checkMask s.device n ∧ result = 0 ∧
          s'.device = flash.bus.onWriteReg command [] lines.isInstruction4Line
            (afterRounds flash lines command s.device (n + 1))) ∨
        (∀ m < 10, ¬ SwitchedIn flash lines command checkMask s.device m) ∧ result = -1 ∧
          s'.device = afterRounds flash lines command s.device 10) := by
  obtain ⟨left, s', hy, hends⟩ := yields_modeAttempts flash lines command checkMask 10 s
  refine ⟨_, s', hy.bind (Program.Yields.pure _ _), ?_⟩
  rcases hends with ⟨n, hn, hbefore, hshown, rfl, hend⟩ | ⟨hall, rfl, hend⟩
  · exact Or.inl ⟨n, hn, hbefore, hshown, if_neg (by omega), hend⟩
  · exact Or.inr ⟨hall, rfl, hend⟩

end Mode

end HalAPI.QSPI
