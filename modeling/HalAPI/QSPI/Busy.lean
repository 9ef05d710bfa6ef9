import HalAPI.QSPI.Chunks
import HalAPI.QSPI.Polling

/-!
# No command while the chip is busy

A page program and a block erase keep the chip busy after the command is over, and
`write_flash` returns while its last page program may still be in progress.  So every
operation has to poll before its first command, and between two of its commands.

`watch` puts a flag on the bus that is raised when a command or an array read reaches a busy chip,
and is never lowered.  `accesses_find_chip_idle` says that it is never raised, in any sequence
of operations and from any state of the chip.
-/

namespace HalAPI.QSPI

open Foundation

/-! ## A watched bus -/

/-- The bus with a flag that is raised when a command, a page program or an array read reaches
the chip while it is busy.  A status read may reach it at any time. -/
def watch {σ : Type} (busy : σ → Bool) (flash : ReadingFlash σ) : ReadingFlash (σ × Bool) where
  bus := {
    onReadReg command oFlags d :=
      ((flash.bus.onReadReg command oFlags d.1).1, (flash.bus.onReadReg command oFlags d.1).2, d.2)
    onWriteReg command data oFlags d :=
      (flash.bus.onWriteReg command data oFlags d.1, d.2 || busy d.1)
    onWrite location data d :=
      ((flash.bus.onWrite location data d.1).1, (flash.bus.onWrite location data d.1).2,
        d.2 || busy d.1) }
  constants := flash.constants
  pageSize := flash.pageSize
  onRead location n d :=
    ((flash.onRead location n d.1).1, (flash.onRead location n d.1).2, d.2 || busy d.1)

/-- The chip says in its status when it is busy, becomes busy by page programs and erasures only,
and is busy for finitely many status reads only.  How long, and what it answers to a write
enable, is left open. -/
structure ReportsBusy {σ : Type} (flash : ReadingFlash σ) (busy : σ → Bool) : Prop where
  reported : ∀ d, busy d = true → (statusAnswer flash.toQspiFlash d).1 &&&
    flash.constants.writeInProgressMask ≠ 0#8
  status : ∀ d, busy d = false → busy (statusAnswer flash.toQspiFlash d).2 = false
  enable : ∀ d, busy d = false →
    busy (flash.bus.onWriteReg flash.constants.writeEnableCommand [] 0 d) = false
  read : ∀ location n d, busy d = false → busy (flash.onRead location n d).2 = false
  calm : ∀ d, ∃ k, (statusAnswer flash.toQspiFlash
    ((fun d => (statusAnswer flash.toQspiFlash d).2)^[k] d)).1 &&&
      flash.constants.writeInProgressMask = 0#8

/-- The operations of the driver, with their arguments. -/
inductive Access where
  | eraseBlock (blockAddress command : BitVec 32)
  | readFlash (address : BitVec 32) (buffer : ℕ → BitVec 8) (length : BitVec 16)
  | writeFlash (address : BitVec 32) (buff : ℕ → BitVec 8) (length : BitVec 16)

/-- An operation, whose result is dropped. -/
def Access.program {σ : Type} (flash : ReadingFlash σ) : Access → Program (Session σ) Unit
  | .eraseBlock blockAddress command =>
    QSPI.eraseBlock flash.toQspiFlash blockAddress command >>= fun _ => pure ()
  | .readFlash address buffer length =>
    QSPI.readFlash flash address buffer length >>= fun _ => pure ()
  | .writeFlash address buff length =>
    QSPI.writeFlash flash.toQspiFlash address buff length >>= fun _ => pure ()

/-- One operation after another. -/
def runAccesses {σ : Type} (flash : ReadingFlash σ) : List Access → Program (Session σ) Unit
  | [] => pure ()
  | access :: accesses => access.program flash >>= fun _ => runAccesses flash accesses

/-! ## Operations on a watched bus -/

section Watched

variable {σ : Type} {flash : ReadingFlash σ} {busy : σ → Bool}

/-- The flag is not raised. -/
def Unraised (s : Session (σ × Bool)) : Prop := s.device.2 = false

/-- The flag is not raised, and the chip is not busy. -/
def Idle (busy : σ → Bool) (s : Session (σ × Bool)) : Prop :=
  s.device.2 = false ∧ busy s.device.1 = false

/-- A chip that is not busy leaves the flag down. -/
lemma Idle.unraised {s : Session (σ × Bool)} (h : Idle busy s) : Unraised s := h.1

/-- The flag is still down after a command to a chip that is not busy. -/
lemma Idle.or_eq_false {s : Session (σ × Bool)} (h : Idle busy s) :
    (s.device.2 || busy s.device.1) = false := by
  rw [h.1, h.2]
  rfl

/-- Status reads and write enables leave an idle chip idle, and the flag down. -/
lemma undisturbed_watch (h : ReportsBusy flash busy) :
    Undisturbed (watch busy flash).toQspiFlash (fun d => d.2 = false ∧ busy d.1 = false) where
  status d hd := ⟨hd.1, h.status d.1 hd.2⟩
  enable d hd := by
    refine ⟨?_, h.enable d.1 hd.2⟩
    change (d.2 || busy d.1) = false
    rw [hd.1, hd.2]
    rfl

/-- `write_enable` leaves the chip idle, whatever it returns. -/
lemma total_writeEnable_idle (h : ReportsBusy flash busy) :
    Program.Total (Idle busy) (writeEnable (watch busy flash).toQspiFlash)
      (fun _ => Idle busy) :=
  total_writeEnable (undisturbed_watch h)

/-- The wait ends with the chip idle: a status that is not in progress is the status of an idle
chip. -/
lemma total_waitWhileInProgress_idle (h : ReportsBusy flash busy) :
    Program.Total Unraised (waitWhileInProgress (watch busy flash).toQspiFlash)
      (fun _ => Idle busy) := by
  have hcalm : Calm (watch busy flash).toQspiFlash :=
    Calm.of_semiconj h.calm Prod.fst (fun _ => rfl) fun _ => rfl
  refine total_waitWhileInProgress_of_ends (P := fun d : σ × Bool => d.2 = false)
    (Q := fun d => d.2 = false ∧ busy d.1 = false) hcalm (fun _ hd => hd) fun d hd hanswer => ?_
  have hidle : busy d.1 = false := by
    by_contra hbusy
    exact h.reported d.1 (by simpa using hbusy) hanswer
  exact ⟨hd, h.status d.1 hidle⟩

/-! ### `erase_block` and `write_flash` -/

/-- A page program of an idle chip leaves the flag down. -/
lemma total_writeBytes_unraised (c : Cursor) (n : BitVec 16) :
    Program.Total (Idle busy) (writeBytes (watch busy flash).toQspiFlash c n)
      (fun _ => Unraised) :=
  Program.Total.step fun _ hs => hs.or_eq_false

/-- An erasure of an idle chip leaves the flag down. -/
lemma total_eraseBlock_unraised (h : ReportsBusy flash busy) (blockAddress command : BitVec 32) :
    Program.Total Unraised (eraseBlock (watch busy flash).toQspiFlash blockAddress command)
      (fun _ => Unraised) := by
  refine Program.Total.bind (total_waitWhileInProgress_idle h) fun _ => ?_
  refine Program.Total.bind (total_writeEnable_idle h) fun enabled => ?_
  by_cases hzero : enabled = 0
  · rw [if_pos hzero]
    have herase : Program.Total (Idle busy)
        (writeReg (watch busy flash).toQspiFlash .blockErase command (addressBytes blockAddress)
          flash.constants.isRegisterWidth32) (fun _ => Unraised) :=
      Program.Total.step fun _ hs => hs.or_eq_false
    refine Program.Total.bind herase fun _ => ?_
    refine Program.Total.bind (total_waitWhileInProgress_idle h) fun _ => ?_
    exact Program.Total.pure fun _ hs => hs.unraised
  · rw [if_neg hzero]
    exact Program.Total.pure fun _ hs => hs.unraised

/-- A program that enables writing on an idle chip, programs a page and goes on leaves the flag
down if what it goes on with does. -/
lemma total_enable_write_unraised (h : ReportsBusy flash busy) {β : Type} (c : Cursor)
    (n : BitVec 16) {k : ℤ → Program (Session (σ × Bool)) β}
    (hk : ∀ count, Program.Total Unraised (k count) (fun _ => Unraised)) :
    Program.Total (Idle busy)
      (writeEnable (watch busy flash).toQspiFlash >>= fun _ =>
        writeBytes (watch busy flash).toQspiFlash c n >>= k) (fun _ => Unraised) := by
  refine Program.Total.bind (total_writeEnable_idle h) fun _ => ?_
  exact Program.Total.bind (total_writeBytes_unraised c n) hk

/-- The loop of `write_flash` polls before each of its page programs. -/
lemma total_writeChunks_unraised (h : ReportsBusy flash busy) (ns : List (BitVec 16))
    (c : Cursor) :
    Program.Total Unraised (writeChunks (watch busy flash).toQspiFlash ns c)
      (fun _ => Unraised) := by
  induction ns generalizing c with
  | nil => exact Program.Total.pure fun _ hs => hs
  | cons n ns ih =>
    refine Program.Total.bind (total_waitWhileInProgress_idle h) fun _ => ?_
    exact total_enable_write_unraised h c n fun _ => ih (c.advance n)

/-- `write_flash` leaves the flag down. -/
lemma total_writeFlash_unraised (h : ReportsBusy flash busy) (address : BitVec 32)
    (buff : ℕ → BitVec 8) (length : BitVec 16) :
    Program.Total Unraised (writeFlash (watch busy flash).toQspiFlash address buff length)
      (fun _ => Unraised) := by
  rw [writeFlash_eq]
  refine Program.Total.bind (total_writeChunks_unraised h _ _) fun _ => ?_
  exact Program.Total.pure fun _ hs => hs

/-! ### `read_flash` -/

/-- A read of an idle chip leaves it idle. -/
lemma total_readBytes_idle (h : ReportsBusy flash busy) (c : ReadCursor) (n : BitVec 16) :
    Program.Total (Idle busy) (readBytes (watch busy flash) c n) (fun _ => Idle busy) :=
  Program.Total.step fun s hs => ⟨hs.or_eq_false, h.read _ _ s.device.1 hs.2⟩

/-- The loop of `read_flash` leaves the chip idle. -/
lemma total_readChunks_idle (h : ReportsBusy flash busy) (ns : List (BitVec 16))
    (c : ReadCursor) :
    Program.Total (Idle busy) (readChunks (watch busy flash) ns c) (fun _ => Idle busy) := by
  induction ns generalizing c with
  | nil => exact Program.Total.pure fun _ hs => hs
  | cons n ns ih => exact Program.Total.bind (total_readBytes_idle h c n) fun _ => ih _

/-- `read_flash` polls before its first read, and its reads leave the chip idle. -/
lemma total_readFlash_idle (h : ReportsBusy flash busy) (address : BitVec 32)
    (buffer : ℕ → BitVec 8) (length : BitVec 16) :
    Program.Total Unraised (readFlash (watch busy flash) address buffer length)
      (fun _ => Idle busy) := by
  refine Program.Total.bind (total_waitWhileInProgress_idle h) fun _ => ?_
  by_cases hacross : mergin (watch busy flash).toQspiFlash address < length
  · rw [if_pos hacross, readAcross_eq hacross]
    exact total_readChunks_idle h _ _
  · rw [if_neg hacross]
    exact Program.Total.bind (total_readBytes_idle h _ _) fun _ => Program.Total.pure fun _ hs => hs

/-! ### Sequences of operations -/

/-- Every operation ends with the flag down. -/
lemma total_access_unraised (h : ReportsBusy flash busy) (access : Access) :
    Program.Total Unraised (access.program (watch busy flash)) (fun _ => Unraised) := by
  cases access with
  | eraseBlock blockAddress command =>
    exact Program.Total.bind (total_eraseBlock_unraised h blockAddress command)
      fun _ => Program.Total.pure fun _ hs => hs
  | readFlash address buffer length =>
    exact Program.Total.bind (total_readFlash_idle h address buffer length)
      fun _ => Program.Total.pure fun _ hs => hs.unraised
  | writeFlash address buff length =>
    exact Program.Total.bind (total_writeFlash_unraised h address buff length)
      fun _ => Program.Total.pure fun _ hs => hs

/-- Every sequence of operations ends with the flag down. -/
lemma total_runAccesses_unraised (h : ReportsBusy flash busy) (accesses : List Access) :
    Program.Total Unraised (runAccesses (watch busy flash) accesses) (fun _ => Unraised) := by
  induction accesses with
  | nil => exact Program.Total.pure fun _ hs => hs
  | cons access accesses ih =>
    exact Program.Total.bind (total_access_unraised h access) fun _ => ih

end Watched

/-- No command while the chip is busy.  In every sequence of `erase_block`, `read_flash` and
`write_flash`, from any state of a chip that reports when it is busy, every operation ends, and
no write enable, array read, page program or erase command reached the chip while it was busy. -/
theorem accesses_find_chip_idle {σ : Type} {flash : ReadingFlash σ} {busy : σ → Bool}
    (h : ReportsBusy flash busy) (accesses : List Access) (d : σ) :
    ∃ s, (runAccesses (watch busy flash) accesses).Yields ⟨(d, false), []⟩ () s ∧
      s.device.2 = false := by
  obtain ⟨u, s, hy, hs⟩ := total_runAccesses_unraised h accesses ⟨(d, false), []⟩ rfl
  exact ⟨s, hy, hs⟩

/-- A chip that counts the status reads it will still be busy for: three after a page program, and
five after an erasure.  It grants every write enable, and reads as erased. -/
def countingFlash : ReadingFlash ℕ where
  bus := {
    onReadReg _ _ k := (some (if k = 0 then 2 else 3), k - 1)
    onWriteReg command _ _ k := if command = 6 then k else 5
    onWrite _ data _ := (data.length, 3) }
  constants := {
    readStatusCommand := 5
    writeEnableCommand := 6
    writeInProgressMask := 1
    writeEnabledMask := 2
    isRegisterWidth8 := 1
    isRegisterWidth16 := 2
    isRegisterWidth32 := 4 }
  pageSize := 256
  onRead _ n k := ((n, List.replicate n 0xFF#8), k)

/-- The chip reports when it is busy. -/
lemma reportsBusy_countingFlash : ReportsBusy countingFlash (fun k => k != 0) where
  reported k hk := by
    have hne : k ≠ 0 := by simpa using hk
    simp [statusAnswer, countingFlash, hne]
  status k hk := by
    have hzero : k = 0 := by simpa using hk
    simp [statusAnswer, countingFlash, hzero]
  enable k hk := hk
  read _ _ k hk := hk
  calm := calm_of_countdown (fun k => k) (fun _ => rfl) fun k hk => by
    obtain rfl : k = 0 := hk
    rfl

/-- A page program across a page boundary, an erasure and a read, on a chip that is busy at
first. -/
theorem accesses_find_chip_idle_counting :
    ∃ s, (runAccesses (watch (fun k => k != 0) countingFlash)
        [.writeFlash 250 (fun i => BitVec.ofNat 8 i) 20, .eraseBlock 0 0xD8,
          .readFlash 250 (fun _ => 0) 20]).Yields ⟨(7, false), []⟩ () s ∧ s.device.2 = false :=
  accesses_find_chip_idle reportsBusy_countingFlash _ 7

end HalAPI.QSPI
