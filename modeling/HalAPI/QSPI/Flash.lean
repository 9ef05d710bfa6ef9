import HalAPI.Foundation.Overlay
import HalAPI.Foundation.Program

/-!
# `QSPI_FLASH`

The flash driver talks to the chip through register accesses and located reads and writes of
the bus.  The commands and masks of the chip are members of the class that its header declares;
they are a parameter here, and so is the bus with whatever answers, of a state of any type.

Next to the state of the bus a session keeps a trace: which kind of command was issued, and
with what status a call of `write_enable()` ended.  Nothing depends on the trace; it is what
results about the order of commands speak of.
-/

namespace HalAPI.QSPI

open Foundation

/-! ## Data -/

/-- The kinds of commands. -/
inductive Role where
  | writeEnable
  | addressMode
  | configuration
  | blockErase
  | pageProgram
  deriving DecidableEq

/-- A command of the kind alters the device. -/
def Role.alters : Role → Bool
  | .writeEnable => false
  | _ => true

/-- What a session records: a command that was issued, and the end of a call of
`write_enable()` with the status it saw last. -/
inductive Event where
  | issued (role : Role)
  | enabled (status : BitVec 8)
  deriving DecidableEq

/-- The bus during a session, with the events so far, newest first. -/
structure Session (σ : Type) where
  device : σ
  trace : List Event

/-- The bus: what it answers to a register access and to a located write, as functions of
its state.  A register read may leave the caller's buffer as it is. -/
structure Bus (σ : Type) where
  onReadReg : BitVec 32 → BitVec 32 → σ → Option (BitVec 8) × σ
  onWriteReg : BitVec 32 → List (BitVec 8) → BitVec 32 → σ → σ
  onWrite : ℤ → List (BitVec 8) → σ → ℤ × σ

/-- The commands and masks of the chip, and the flags of the bus. -/
structure Constants where
  readStatusCommand : BitVec 32
  writeEnableCommand : BitVec 32
  writeInProgressMask : BitVec 8
  writeEnabledMask : BitVec 8
  isRegisterWidth8 : BitVec 32
  isRegisterWidth16 : BitVec 32
  isRegisterWidth32 : BitVec 32

/-- `QSPI_FLASH`: the bus behind its file, the constants and `m_page_size` -/
structure QspiFlash (σ : Type) where
  bus : Bus σ
  constants : Constants
  pageSize : BitVec 16

/-! ## The code -/

section Code

variable {σ : Type} (flash : QspiFlash σ)

/-- `read_reg(command, &data, o_flags)` -/
def readReg (command oFlags : BitVec 32) : Program (Session σ) (Option (BitVec 8)) :=
  Program.step fun s =>
    ((flash.bus.onReadReg command oFlags s.device).1,
      { s with device := (flash.bus.onReadReg command oFlags s.device).2 })

/-- `write_reg(command, data, o_flags)` -/
def writeReg (role : Role) (command : BitVec 32) (data : List (BitVec 8)) (oFlags : BitVec 32) :
    Program (Session σ) Unit :=
  Program.step fun s =>
    ((), { device := flash.bus.onWriteReg command data oFlags s.device
           trace := .issued role :: s.trace })

/-- `write(location, buff, size)`: a page program -/
def write (location : ℤ) (data : List (BitVec 8)) : Program (Session σ) ℤ :=
  Program.step fun s =>
    ((flash.bus.onWrite location data s.device).1,
      { device := (flash.bus.onWrite location data s.device).2
        trace := .issued .pageProgram :: s.trace })

/-- `QSPI_FLASH::read_status_reg` -/
def readStatusReg : Program (Session σ) (BitVec 8) := do
  let data ← readReg flash flash.constants.readStatusCommand flash.constants.isRegisterWidth8
  return data.getD 0

/-- The loop of `write_enable` with `attempts` attempts left: it returns the attempts left after
the one that succeeded, and the last status. -/
def enableAttempts : ℕ → BitVec 8 → Program (Session σ) (ℕ × BitVec 8)
  | 0, status => pure (0, status)
  | attempts + 1, _ => do
    writeReg flash .writeEnable flash.constants.writeEnableCommand [] 0
    let status ← readStatusReg flash
    if status &&& flash.constants.writeEnabledMask != 0 then pure (attempts + 1, status)
    else enableAttempts attempts status

/-- Record the end of a call of `write_enable()`. -/
def recordEnabled (status : BitVec 8) : Program (Session σ) Unit :=
  Program.step fun s => ((), { s with trace := .enabled status :: s.trace })

/-- `QSPI_FLASH::write_enable` -/
def writeEnable : Program (Session σ) ℤ := do
  let status ← readStatusReg flash
  let ended ← enableAttempts flash 10 status
  recordEnabled ended.2
  return if ended.1 = 0 then -1 else 0

/-- The loop `while (status_reg & write_in_progress_mask)` with the read before it. -/
def waitWhileInProgress : Program (Session σ) Unit :=
  Program.iterate (fun _ : Unit => do
    let status ← readStatusReg flash
    if status &&& flash.constants.writeInProgressMask != 0 then pure (.inl ())
    else pure (.inr ())) ()

/-- `QSPI_FLASH::set_to_four_bytes_address` -/
def setToFourBytesAddress (command : BitVec 32) : Program (Session σ) ℤ := do
  let _ ← writeEnable flash
  writeReg flash .addressMode command [] 0
  return 0

/-- `QSPI_FLASH::set_dummy_cycles_and_strength`, whose `status_cnfg[1]` holds `uninitialized`
until the bus fills it in -/
def setDummyCyclesAndStrength (dummyAndStrength dummyAndStrengthMask : BitVec 8)
    (readConfigCommand writeConfigCommand : BitVec 32) (uninitialized : BitVec 8) :
    Program (Session σ) ℤ := do
  let status ← readStatusReg flash
  let config ← readReg flash readConfigCommand flash.constants.isRegisterWidth8
  let _ ← writeEnable flash
  let modified := config.getD uninitialized &&& ~~~dummyAndStrengthMask ||| dummyAndStrength
  writeReg flash .configuration writeConfigCommand [status, modified]
    flash.constants.isRegisterWidth16
  let _ ← readStatusReg flash
  let check ← readReg flash readConfigCommand flash.constants.isRegisterWidth8
  return if check.getD modified &&& dummyAndStrengthMask != dummyAndStrength then -1 else 0

/-- The address bytes of `erase_block`, the most significant first. -/
def addressBytes (address : BitVec 32) : List (BitVec 8) :=
  [(address >>> 24).setWidth 8, (address >>> 16).setWidth 8, (address >>> 8).setWidth 8,
    address.setWidth 8]

/-- `QSPI_FLASH::erase_block` -/
def eraseBlock (blockAddress command : BitVec 32) : Program (Session σ) ℤ := do
  waitWhileInProgress flash
  let enabled ← writeEnable flash
  if enabled = 0 then
    writeReg flash .blockErase command (addressBytes blockAddress)
      flash.constants.isRegisterWidth32
    waitWhileInProgress flash
    return 0
  else
    return -1

/-! ### `write_flash` -/

/-- The bytes from the address to the end of its page. -/
def mergin (address : BitVec 32) : BitVec 16 :=
  (flash.pageSize.setWidth 32 - address % flash.pageSize.setWidth 32).setWidth 16

/-- The address, the buffer and the result that `write_flash` goes on with. -/
structure Cursor where
  address : BitVec 32
  buff : ℕ → BitVec 8
  result : BitVec 16

/-- The cursor after `n` bytes. -/
def Cursor.advance (c : Cursor) (n : BitVec 16) : Cursor where
  address := c.address + n.setWidth 32
  buff i := c.buff (n.toNat + i)
  result := c.result + n

/-- `write((int)address, buff, n)` -/
def writeBytes (c : Cursor) (n : BitVec 16) : Program (Session σ) ℤ :=
  write flash c.address.toInt (firstElements c.buff n.toNat)

/-- The loop `while (page_count--)` of `write_flash`. -/
def writePages : ℕ → Cursor → Program (Session σ) Cursor
  | 0, c => pure c
  | pageCount + 1, c => do
    waitWhileInProgress flash
    let _ ← writeEnable flash
    let _ ← writeBytes flash c flash.pageSize
    writePages pageCount (c.advance flash.pageSize)

/-- The branch of `write_flash` for a range that goes past its first page. -/
def writeAcross (c : Cursor) (first length : BitVec 16) : Program (Session σ) (BitVec 16) := do
  let _ ← writeEnable flash
  let _ ← writeBytes flash c first
  let rest := length - first
  let paged ← writePages flash (rest / flash.pageSize).toNat (c.advance first)
  waitWhileInProgress flash
  let _ ← writeEnable flash
  let _ ← writeBytes flash paged (rest % flash.pageSize)
  return paged.result + rest % flash.pageSize

/-- The branch of `write_flash` for a range inside a page.  The result of a failed write is
overwritten. -/
def writeWithin (c : Cursor) (length : BitVec 16) : Program (Session σ) (BitVec 16) := do
  let _ ← writeEnable flash
  let _ ← writeBytes flash c length
  return length

/-- `QSPI_FLASH::write_flash` -/
def writeFlash (address : BitVec 32) (buff : ℕ → BitVec 8) (length : BitVec 16) :
    Program (Session σ) (BitVec 16) := do
  waitWhileInProgress flash
  if mergin flash address < length then
    writeAcross flash ⟨address, buff, 0⟩ (mergin flash address) length
  else
    writeWithin flash ⟨address, buff, 0⟩ length

end Code

/-! ## Status reads -/

section Status

variable {σ : Type} (flash : QspiFlash σ)

/-- The status the bus answers with, and the bus after the answer. -/
def statusAnswer (d : σ) : BitVec 8 × σ :=
  ((flash.bus.onReadReg flash.constants.readStatusCommand flash.constants.isRegisterWidth8 d).1.getD
      0,
    (flash.bus.onReadReg flash.constants.readStatusCommand flash.constants.isRegisterWidth8 d).2)

/-- The session after a status read. -/
def afterStatus (s : Session σ) : Session σ :=
  { s with device := (statusAnswer flash s.device).2 }

/-- A status read yields the answer of the bus. -/
lemma yields_readStatusReg (s s' : Session σ) (status : BitVec 8) :
    (readStatusReg flash).Yields s status s' ↔
      status = (statusAnswer flash s.device).1 ∧ s' = afterStatus flash s := by
  simp [readStatusReg, readReg, statusAnswer, afterStatus, and_comm]

/-- The wait ends after a status read that is not in progress, and goes on after another. -/
lemma yields_waitWhileInProgress (s s' : Session σ) :
    (waitWhileInProgress flash).Yields s () s' ↔
      if (statusAnswer flash s.device).1 &&& flash.constants.writeInProgressMask = 0#8 then
        s' = afterStatus flash s
      else (waitWhileInProgress flash).Yields (afterStatus flash s) () s' := by
  rw [waitWhileInProgress, Program.yields_iterate]
  simp only [Program.yields_bind, yields_readStatusReg]
  by_cases hidle : (statusAnswer flash s.device).1 &&& flash.constants.writeInProgressMask = 0#8
  · simp [hidle]
  · simp [hidle, Unique.exists_iff]

end Status

end HalAPI.QSPI
