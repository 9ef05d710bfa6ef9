import HalAPI.QSPI.Chunks

/-!
# Write enable before every alteration

The chip takes a command that alters it only after `write_enable()` succeeded, which is when the
call saw the write-enabled bit in the status.  `erase_block` looks at what the call returns;
`write_flash`, `set_to_four_bytes_address` and `set_dummy_cycles_and_strength` do not.

The results are about runs of any operations on any bus, whether they end or poll the status
forever.  `obeysEnable_iff` says that such a run issues altering commands only when it
should, and reports every refused enable, exactly if no enable is refused outside
`erase_block`.
-/

namespace HalAPI.QSPI

open Foundation

/-! ## Runs of operations -/

/-- The operations that alter the device, with their arguments. -/
inductive Operation where
  | eraseBlock (blockAddress command : BitVec 32)
  | writeFlash (address : BitVec 32) (buff : ℕ → BitVec 8) (length : BitVec 16)
  | setToFourBytesAddress (command : BitVec 32)
  | setDummyCyclesAndStrength (dummyAndStrength dummyAndStrengthMask : BitVec 8)
      (readConfigCommand writeConfigCommand : BitVec 32) (uninitialized : BitVec 8)

/-- The operation is an `erase_block`. -/
def Operation.isErase : Operation → Bool
  | .eraseBlock _ _ => true
  | _ => false

/-- The operation reports a failure with the value it returns: fewer bytes than asked for, or a
negative value. -/
def Operation.IsFailure : Operation → ℤ → Prop
  | .writeFlash _ _ length, result => result ≠ length.toNat
  | _, result => result < 0

/-- What happened in an operation: its events, newest first, and the value it returned, or
none if it was still running when it was cut. -/
structure Record where
  operation : Operation
  events : List Event
  result : Option ℤ

section Runs

variable {σ : Type} (flash : QspiFlash σ)

/-- The program of an operation. -/
def Operation.program : Operation → Program (Session σ) ℤ
  | .eraseBlock blockAddress command => QSPI.eraseBlock flash blockAddress command
  | .writeFlash address buff length =>
    QSPI.writeFlash flash address buff length >>= fun result => pure (result.toNat : ℤ)
  | .setToFourBytesAddress command => QSPI.setToFourBytesAddress flash command
  | .setDummyCyclesAndStrength dummyAndStrength dummyAndStrengthMask readConfigCommand
      writeConfigCommand uninitialized =>
    QSPI.setDummyCyclesAndStrength flash dummyAndStrength dummyAndStrengthMask readConfigCommand
      writeConfigCommand uninitialized

/-- The record of an operation that ended or was cut. -/
def recordOf (operation : Operation) : Outcome (Session σ) ℤ → Record
  | .done result s => ⟨operation, s.trace, some result⟩
  | .cut s => ⟨operation, s.trace, none⟩

/-- The records of the operations, one after another, up to one that is cut because it uses
up the fuel. -/
def execute (fuel : ℕ) : List Operation → σ → List Record
  | [], _ => []
  | operation :: operations, d =>
    recordOf operation ((operation.program flash).exec fuel ⟨d, []⟩) ::
      match (operation.program flash).exec fuel ⟨d, []⟩ with
      | .done _ s => execute fuel operations s.device
      | .cut _ => []

end Runs

/-! ## The law -/

section Law

variable (mask : BitVec 8)

/-- The most recent `write_enable()` saw the write-enabled bit. -/
def lastGranted : List Event → Bool
  | [] => false
  | .enabled status :: _ => status &&& mask != 0
  | .issued _ :: events => lastGranted events

/-- Every altering command was issued when the most recent `write_enable()` had succeeded. -/
def Ordered : List Event → Prop
  | [] => True
  | .enabled _ :: events => Ordered events
  | .issued role :: events => (role.alters = true → lastGranted mask events = true) ∧ Ordered events

/-- A call of `write_enable()` failed. -/
def Refused (events : List Event) : Prop :=
  ∃ status, .enabled status ∈ events ∧ status &&& mask = 0#8

/-- An altering command was issued. -/
def Alters (events : List Event) : Prop :=
  ∃ role, .issued role ∈ events ∧ role.alters = true

/-- The events of a run, newest first. -/
def history : List Record → List Event
  | [] => []
  | r :: records => history records ++ r.events

/-- A run issues altering commands only when the most recent `write_enable()` succeeded, and
an operation in which a call failed alters nothing and reports the failure. -/
def ObeysEnable (records : List Record) : Prop :=
  Ordered mask (history records) ∧
    ∀ r ∈ records, Refused mask r.events →
      ¬ Alters r.events ∧ ∀ result ∈ r.result, r.operation.IsFailure result

end Law

/-! ### Events of an operation and of a run -/

/-- Every altering command comes after some `write_enable()` among the events. -/
def Led : List Event → Prop
  | [] => True
  | .enabled _ :: events => Led events
  | .issued role :: events => (role.alters = true → ∃ status, .enabled status ∈ events) ∧ Led events

section Events

variable {mask : BitVec 8} {events : List Event}

/-- What happened before the most recent `write_enable()` does not matter. -/
lemma lastGranted_append (h : ∃ status, .enabled status ∈ events) (before : List Event) :
    lastGranted mask (events ++ before) = lastGranted mask events := by
  induction events with
  | nil => exact absurd h (by simp)
  | cons e events ih =>
    cases e with
    | enabled status => rfl
    | issued role =>
      obtain ⟨status, hstatus⟩ := h
      exact ih ⟨status, by simpa using hstatus⟩

/-- Events that are led by their own calls of `write_enable()` are ordered in any run as they are
on their own. -/
lemma Led.ordered_append (h : Led events) (before : List Event) :
    Ordered mask (events ++ before) ↔ Ordered mask events ∧ Ordered mask before := by
  induction events with
  | nil => simp [Ordered]
  | cons e events ih =>
    cases e with
    | enabled status => exact ih h
    | issued role =>
      obtain ⟨hled, hrest⟩ := h
      rw [List.cons_append, Ordered, Ordered, ih hrest, and_assoc]
      refine and_congr_left fun _ => ?_
      exact forall_congr' fun hrole => by rw [lastGranted_append (hled hrole)]

/-- Led events one after the other are led. -/
lemma Led.append (h : Led events) {before : List Event} (hbefore : Led before) :
    Led (events ++ before) := by
  induction events with
  | nil => exact hbefore
  | cons e events ih =>
    cases e with
    | enabled status => exact ih h
    | issued role =>
      obtain ⟨hled, hrest⟩ := h
      refine ⟨fun hrole => ?_, ih hrest⟩
      obtain ⟨status, hstatus⟩ := hled hrole
      exact ⟨status, List.mem_append_left before hstatus⟩

/-- The events of a run are led if those of its operations are. -/
lemma led_history {records : List Record} (h : ∀ r ∈ records, Led r.events) :
    Led (history records) := by
  induction records with
  | nil => trivial
  | cons r records ih =>
    rw [List.forall_mem_cons] at h
    exact (ih h.2).append h.1

/-- A run is ordered exactly if its operations are, each on its own. -/
lemma ordered_history_iff {records : List Record} (h : ∀ r ∈ records, Led r.events) :
    Ordered mask (history records) ↔ ∀ r ∈ records, Ordered mask r.events := by
  induction records with
  | nil => simp [history, Ordered]
  | cons r records ih =>
    rw [List.forall_mem_cons] at h ⊢
    rw [history, (led_history h.2).ordered_append, ih h.2, and_comm]

/-! ### What the operations do -/

/-- The events are led, and ordered exactly if no call of `write_enable()` failed. -/
def Unchecked (mask : BitVec 8) (events : List Event) : Prop :=
  Led events ∧ (Ordered mask events ↔ ¬ Refused mask events)

/-- The events are led and ordered, and nothing is altered if a call of `write_enable()` failed. -/
def Checked (mask : BitVec 8) (events : List Event) : Prop :=
  Led events ∧ Ordered mask events ∧ (Refused mask events → ¬ Alters events)

/-- Before the first event nothing is refused. -/
lemma unchecked_nil : Unchecked mask [] := by
  simp [Unchecked, Led, Ordered, Refused]

/-- The command of an attempt to enable writing alters nothing. -/
lemma Unchecked.attempt (h : Unchecked mask events) :
    Unchecked mask (.issued .writeEnable :: events) := by
  simpa [Unchecked, Led, Ordered, Refused, Role.alters] using h

/-- An altering command right after a call of `write_enable()` is ordered exactly if the call
succeeded. -/
lemma Unchecked.alter (h : Unchecked mask events) {role : Role} (hrole : role.alters = true)
    (status : BitVec 8) : Unchecked mask (.issued role :: .enabled status :: events) := by
  obtain ⟨hled, hordered⟩ := h
  refine ⟨⟨fun _ => ⟨status, by simp⟩, hled⟩, ?_⟩
  by_cases hstatus : status &&& mask = 0#8
  · refine iff_of_false ?_ (not_not.mpr ⟨status, by simp, hstatus⟩)
    rintro ⟨hgranted, -⟩
    exact absurd (hgranted hrole) (by simp [lastGranted, hstatus])
  · have hrefused : Refused mask (.issued role :: .enabled status :: events) ↔
        Refused mask events := by
      simp [Refused, or_and_right, exists_or, hstatus]
    rw [hrefused, ← hordered]
    simp [Ordered, lastGranted, hstatus]

/-- Commands of attempts alone. -/
def Attempts (events : List Event) : Prop := ∀ e ∈ events, e = .issued .writeEnable

/-- One more attempt. -/
lemma Attempts.attempt (h : Attempts events) : Attempts (.issued .writeEnable :: events) := by
  simpa [Attempts] using h

/-- Attempts alone are led. -/
lemma Attempts.led (h : Attempts events) : Led events := by
  induction events with
  | nil => trivial
  | cons e events ih =>
    obtain ⟨rfl, hrest⟩ := List.forall_mem_cons.mp h
    exact ⟨by simp [Role.alters], ih hrest⟩

/-- Attempts alone are in order. -/
lemma Attempts.ordered (h : Attempts events) : Ordered mask events := by
  induction events with
  | nil => trivial
  | cons e events ih =>
    obtain ⟨rfl, hrest⟩ := List.forall_mem_cons.mp h
    exact ⟨by simp [Role.alters], ih hrest⟩

/-- Attempts alone alter nothing. -/
lemma Attempts.not_alters (h : Attempts events) : ¬ Alters events := by
  rintro ⟨role, hmem, hrole⟩
  obtain rfl : role = .writeEnable := by simpa using h _ hmem
  exact absurd hrole (by simp [Role.alters])

/-- Attempts alone are no failed call. -/
lemma Attempts.not_refused (h : Attempts events) : ¬ Refused mask events := by
  rintro ⟨status, hmem, -⟩
  exact absurd (h _ hmem) (by simp)

/-- Attempts alone are checked. -/
lemma Attempts.checked (h : Attempts events) : Checked mask events :=
  ⟨h.led, h.ordered, fun _ => h.not_alters⟩

/-- Attempts and the end of their call are checked. -/
lemma Attempts.enabled (h : Attempts events) (status : BitVec 8) :
    Checked mask (.enabled status :: events) := by
  refine ⟨h.led, h.ordered, fun _ => ?_⟩
  simpa [Alters] using h.not_alters

/-- An altering command after attempts that succeeded is checked. -/
lemma Attempts.alter (h : Attempts events) (role : Role) {status : BitVec 8}
    (hstatus : status &&& mask ≠ 0#8) :
    Checked mask (.issued role :: .enabled status :: events) ∧
      ¬ Refused mask (.issued role :: .enabled status :: events) := by
  have hrefused : ¬ Refused mask (.issued role :: .enabled status :: events) := by
    rintro ⟨status', hmem, hzero⟩
    have hlast : status' = status ∨ .enabled status' ∈ events := by simpa using hmem
    rcases hlast with rfl | hbefore
    · exact hstatus hzero
    · exact h.not_refused ⟨status', hbefore, hzero⟩
  refine ⟨⟨⟨fun _ => ⟨status, by simp⟩, h.led⟩, ⟨fun _ => ?_, h.ordered⟩,
    fun hr => absurd hr hrefused⟩, hrefused⟩
  simpa [lastGranted] using hstatus

end Events

/-! ## The programs -/

section Programs

variable {σ : Type} {flash : QspiFlash σ} {P : List Event → Prop} {R : Session σ → Prop}

/-- A register read is no event. -/
lemma triple_readReg (command oFlags : BitVec 32) :
    Program.Triple (fun s => P s.trace) (readReg flash command oFlags) (fun _ s => P s.trace) R :=
  Program.Triple.step fun _ hs => hs

/-- A status read is no event. -/
lemma triple_readStatusReg :
    Program.Triple (fun s => P s.trace) (readStatusReg flash) (fun _ s => P s.trace) R :=
  Program.Triple.bind (triple_readReg _ _) fun _ => Program.Triple.pure fun _ hs => hs

/-- The wait for the chip is no event. -/
lemma triple_waitWhileInProgress :
    Program.Triple (fun s => P s.trace) (waitWhileInProgress flash) (fun _ s => P s.trace)
      (fun s => P s.trace) := by
  refine Program.Triple.iterate (I := fun (_ : Unit) (s : Session σ) => P s.trace) (fun _ => ?_)
    (fun _ _ hs => hs) ()
  refine Program.Triple.bind triple_readStatusReg fun status => ?_
  split
  · exact Program.Triple.pure fun _ hs => hs
  · exact Program.Triple.pure fun _ hs => hs

/-- The attempts end with no attempt left exactly if the last status does not have the
write-enabled bit. -/
lemma triple_enableAttempts (hP : ∀ events, P events → P (.issued .writeEnable :: events))
    (attempts : ℕ) (status : BitVec 8) :
    Program.Triple
      (fun s => P s.trace ∧ (attempts = 0 → status &&& flash.constants.writeEnabledMask = 0#8))
      (enableAttempts flash attempts status)
      (fun ended s => P s.trace ∧
        (ended.1 = 0 ↔ ended.2 &&& flash.constants.writeEnabledMask = 0#8)) R := by
  induction attempts generalizing status with
  | zero => exact Program.Triple.pure fun s hs => ⟨hs.1, by simpa using hs.2⟩
  | succ attempts ih =>
    have hattempt : Program.Triple
        (fun s => P s.trace ∧
          (attempts + 1 = 0 → status &&& flash.constants.writeEnabledMask = 0#8))
        (writeReg flash .writeEnable flash.constants.writeEnableCommand [] 0)
        (fun _ s => P s.trace) R :=
      Program.Triple.step fun s hs => hP s.trace hs.1
    refine Program.Triple.bind hattempt fun _ => ?_
    refine Program.Triple.bind triple_readStatusReg fun status' => ?_
    by_cases hgranted : (status' &&& flash.constants.writeEnabledMask != 0) = true
    · rw [if_pos hgranted]
      exact Program.Triple.pure fun s hs => ⟨hs, by simpa using hgranted⟩
    · rw [if_neg hgranted]
      have hzero : status' &&& flash.constants.writeEnabledMask = 0#8 := by simpa using hgranted
      exact (ih status').weaken (fun s hs => ⟨hs, fun _ => hzero⟩) (fun _ _ h => h) fun _ h => h

/-- `write_enable()` records the status it saw last, and returns zero exactly if it has the
write-enabled bit. -/
lemma triple_writeEnable (hP : ∀ events, P events → P (.issued .writeEnable :: events)) :
    Program.Triple (fun s => P s.trace) (writeEnable flash)
      (fun result s => ∃ status events, s.trace = .enabled status :: events ∧ P events ∧
        (result = 0 ↔ status &&& flash.constants.writeEnabledMask ≠ 0#8)) R := by
  refine Program.Triple.bind triple_readStatusReg fun status => ?_
  have hattempts : Program.Triple (fun s => P s.trace) (enableAttempts flash 10 status)
      (fun ended s => P s.trace ∧
        (ended.1 = 0 ↔ ended.2 &&& flash.constants.writeEnabledMask = 0#8)) R :=
    (triple_enableAttempts hP 10 status).weaken (fun s hs => ⟨hs, by simp⟩) (fun _ _ h => h)
      fun _ h => h
  refine Program.Triple.bind hattempts fun ended => ?_
  have hrecord : Program.Triple
      (fun s => P s.trace ∧ (ended.1 = 0 ↔ ended.2 &&& flash.constants.writeEnabledMask = 0#8))
      (recordEnabled ended.2)
      (fun _ s => ∃ events, s.trace = .enabled ended.2 :: events ∧ P events ∧
        (ended.1 = 0 ↔ ended.2 &&& flash.constants.writeEnabledMask = 0#8)) R :=
    Program.Triple.step fun s hs => ⟨s.trace, rfl, hs⟩
  refine Program.Triple.bind hrecord fun _ => ?_
  refine Program.Triple.pure ?_
  rintro s ⟨events, htrace, hevents, hended⟩
  have hresult : (if ended.1 = 0 then (-1 : ℤ) else 0) = 0 ↔ ended.1 ≠ 0 := by
    by_cases hzero : ended.1 = 0
    · simp [hzero]
    · simp [hzero]
  exact ⟨ended.2, events, htrace, hevents, hresult.trans hended.not⟩

variable (flash) in
/-- `erase_block` checks its call of `write_enable()` and reports its failure. -/
lemma triple_eraseBlock (blockAddress command : BitVec 32) :
    Program.Triple (fun s => s.trace = []) (eraseBlock flash blockAddress command)
      (fun result s => Checked flash.constants.writeEnabledMask s.trace ∧
        (Refused flash.constants.writeEnabledMask s.trace → result < 0))
      (fun s => Checked flash.constants.writeEnabledMask s.trace) := by
  have hwait : Program.Triple (fun s : Session σ => s.trace = []) (waitWhileInProgress flash)
      (fun _ s => Attempts s.trace) (fun s => Checked flash.constants.writeEnabledMask s.trace) :=
    triple_waitWhileInProgress.weaken (fun s hs => by simp [hs, Attempts]) (fun _ _ h => h)
      fun _ h => h.checked
  refine Program.Triple.bind hwait fun _ => ?_
  refine Program.Triple.bind (triple_writeEnable fun _ h => h.attempt) fun enabled => ?_
  by_cases hzero : enabled = 0
  · rw [if_pos hzero]
    -- no call was refused, and none will be
    have herase : Program.Triple
        (fun s : Session σ => ∃ status events, s.trace = .enabled status :: events ∧
          Attempts events ∧ (enabled = 0 ↔ status &&& flash.constants.writeEnabledMask ≠ 0#8))
        (writeReg flash .blockErase command (addressBytes blockAddress)
          flash.constants.isRegisterWidth32)
        (fun _ s => Checked flash.constants.writeEnabledMask s.trace ∧
          ¬ Refused flash.constants.writeEnabledMask s.trace)
        (fun s => Checked flash.constants.writeEnabledMask s.trace) := by
      refine Program.Triple.step ?_
      rintro s ⟨status, events, htrace, hattempts, henabled⟩
      rw [htrace]
      exact hattempts.alter .blockErase (henabled.mp hzero)
    have hrest : Program.Triple
        (fun s : Session σ => Checked flash.constants.writeEnabledMask s.trace ∧
          ¬ Refused flash.constants.writeEnabledMask s.trace) (waitWhileInProgress flash)
        (fun _ s => Checked flash.constants.writeEnabledMask s.trace ∧
          ¬ Refused flash.constants.writeEnabledMask s.trace)
        (fun s => Checked flash.constants.writeEnabledMask s.trace) :=
      (triple_waitWhileInProgress (P := fun events =>
        Checked flash.constants.writeEnabledMask events ∧
          ¬ Refused flash.constants.writeEnabledMask events)).weaken (fun _ h => h) (fun _ _ h => h)
        fun _ h => h.1
    refine Program.Triple.bind herase fun _ => Program.Triple.bind hrest fun _ => ?_
    exact Program.Triple.pure fun s hs => ⟨hs.1, fun hr => absurd hr hs.2⟩
  · rw [if_neg hzero]
    refine Program.Triple.pure ?_
    rintro s ⟨status, events, htrace, hattempts, -⟩
    rw [htrace]
    have hreported : (-1 : ℤ) < 0 := by norm_num
    exact ⟨hattempts.enabled status, fun _ => hreported⟩

/-- A program that calls `write_enable()` without a check, issues an altering command and goes on
keeps its events unchecked if what it goes on with does. -/
lemma triple_enable_alter {α β : Type} {role : Role} (hrole : role.alters = true)
    {f : Session σ → α × Session σ} (hf : ∀ s, (f s).2.trace = .issued role :: s.trace)
    {k : α → Program (Session σ) β}
    (hk : ∀ a, Program.Triple (fun s => Unchecked flash.constants.writeEnabledMask s.trace) (k a)
      (fun _ s => Unchecked flash.constants.writeEnabledMask s.trace) R) :
    Program.Triple (fun s => Unchecked flash.constants.writeEnabledMask s.trace)
      (writeEnable flash >>= fun _ => Program.step f >>= k)
      (fun _ s => Unchecked flash.constants.writeEnabledMask s.trace) R := by
  refine Program.Triple.bind (triple_writeEnable fun _ h => h.attempt) fun result => ?_
  refine Program.Triple.bind (Program.Triple.step ?_) hk
  rintro s ⟨status, events, htrace, hevents, -⟩
  rw [hf, htrace]
  exact hevents.alter hrole status

/-- `set_to_four_bytes_address` does not check its call of `write_enable()`. -/
lemma triple_setToFourBytesAddress (command : BitVec 32) :
    Program.Triple (fun s => Unchecked flash.constants.writeEnabledMask s.trace)
      (setToFourBytesAddress flash command)
      (fun _ s => Unchecked flash.constants.writeEnabledMask s.trace) R := by
  apply triple_enable_alter rfl (fun _ => rfl)
  exact fun _ => Program.Triple.pure fun _ h => h

/-- `set_dummy_cycles_and_strength` does not check its call of `write_enable()`. -/
lemma triple_setDummyCyclesAndStrength (dummyAndStrength dummyAndStrengthMask : BitVec 8)
    (readConfigCommand writeConfigCommand : BitVec 32) (uninitialized : BitVec 8) :
    Program.Triple (fun s => Unchecked flash.constants.writeEnabledMask s.trace)
      (setDummyCyclesAndStrength flash dummyAndStrength dummyAndStrengthMask readConfigCommand
        writeConfigCommand uninitialized)
      (fun _ s => Unchecked flash.constants.writeEnabledMask s.trace) R := by
  refine Program.Triple.bind triple_readStatusReg fun status => ?_
  refine Program.Triple.bind (triple_readReg _ _) fun config => ?_
  apply triple_enable_alter rfl (fun _ => rfl)
  intro _
  refine Program.Triple.bind triple_readStatusReg fun _ => ?_
  exact Program.Triple.bind (triple_readReg _ _) fun _ => Program.Triple.pure fun _ h => h

/-- The loop of `write_flash` does not check its calls of `write_enable()`. -/
lemma triple_writeChunks (ns : List (BitVec 16)) (c : Cursor) :
    Program.Triple (fun s => Unchecked flash.constants.writeEnabledMask s.trace)
      (writeChunks flash ns c)
      (fun _ s => Unchecked flash.constants.writeEnabledMask s.trace)
      (fun s => Unchecked flash.constants.writeEnabledMask s.trace) := by
  induction ns generalizing c with
  | nil => exact Program.Triple.pure fun _ h => h
  | cons n ns ih =>
    refine Program.Triple.bind triple_waitWhileInProgress fun _ => ?_
    apply triple_enable_alter rfl (fun _ => rfl)
    exact fun _ => ih (c.advance n)

/-- `write_flash` does not check its calls of `write_enable()`. -/
lemma triple_writeFlash (address : BitVec 32) (buff : ℕ → BitVec 8) (length : BitVec 16) :
    Program.Triple (fun s => Unchecked flash.constants.writeEnabledMask s.trace)
      (writeFlash flash address buff length)
      (fun _ s => Unchecked flash.constants.writeEnabledMask s.trace)
      (fun s => Unchecked flash.constants.writeEnabledMask s.trace) := by
  rw [writeFlash_eq]
  exact Program.Triple.bind (triple_writeChunks _ _) fun _ => Program.Triple.pure fun _ h => h

end Programs

/-! ## Records -/

section Records

variable {σ : Type} (flash : QspiFlash σ) (fuel : ℕ)

/-- What is true of the record of any operation: an `erase_block` is checked and reports a failed
call, and the others are unchecked. -/
def MeetsSpec (mask : BitVec 8) (r : Record) : Prop :=
  if r.operation.isErase then
    Checked mask r.events ∧ (Refused mask r.events → ∀ result ∈ r.result, result < 0)
  else Unchecked mask r.events

/-- An operation that keeps its events unchecked meets its specification. -/
lemma meetsSpec_of_unchecked {operation : Operation} (herase : operation.isErase = false)
    (h : Program.Triple (fun s => Unchecked flash.constants.writeEnabledMask s.trace)
      (operation.program flash) (fun _ s => Unchecked flash.constants.writeEnabledMask s.trace)
      (fun s => Unchecked flash.constants.writeEnabledMask s.trace)) (d : σ) :
    MeetsSpec flash.constants.writeEnabledMask
      (recordOf operation ((operation.program flash).exec fuel ⟨d, []⟩)) := by
  have hend := h fuel ⟨d, []⟩ unchecked_nil
  cases hexec : (operation.program flash).exec fuel ⟨d, []⟩ with
  | done result s =>
    rw [hexec] at hend
    simpa [MeetsSpec, recordOf, herase] using hend
  | cut s =>
    rw [hexec] at hend
    simpa [MeetsSpec, recordOf, herase] using hend

/-- Every operation meets its specification. -/
lemma meetsSpec_recordOf (operation : Operation) (d : σ) :
    MeetsSpec flash.constants.writeEnabledMask
      (recordOf operation ((operation.program flash).exec fuel ⟨d, []⟩)) := by
  cases operation with
  | eraseBlock blockAddress command =>
    have hend := triple_eraseBlock flash blockAddress command fuel ⟨d, []⟩ rfl
    change MeetsSpec _ (recordOf _ ((eraseBlock flash blockAddress command).exec fuel ⟨d, []⟩))
    cases hexec : (eraseBlock flash blockAddress command).exec fuel ⟨d, []⟩ with
    | done result s =>
      rw [hexec] at hend
      exact ⟨hend.1, fun hr v hv => by
        obtain rfl : result = v := by simpa [recordOf] using hv
        exact hend.2 hr⟩
    | cut s =>
      rw [hexec] at hend
      exact ⟨hend, fun _ v hv => absurd hv (by simp [recordOf])⟩
  | writeFlash address buff length =>
    refine meetsSpec_of_unchecked flash fuel rfl ?_ d
    exact Program.Triple.bind (triple_writeFlash _ _ _) fun _ => Program.Triple.pure fun _ h => h
  | setToFourBytesAddress command =>
    exact meetsSpec_of_unchecked flash fuel rfl (triple_setToFourBytesAddress _) d
  | setDummyCyclesAndStrength _ _ _ _ _ =>
    exact meetsSpec_of_unchecked flash fuel rfl (triple_setDummyCyclesAndStrength _ _ _ _ _) d

/-- Every record of a run meets its specification. -/
lemma meetsSpec_execute (operations : List Operation) (d : σ) :
    ∀ r ∈ execute flash fuel operations d, MeetsSpec flash.constants.writeEnabledMask r := by
  induction operations generalizing d with
  | nil => simp [execute]
  | cons operation operations ih =>
    rw [execute, List.forall_mem_cons]
    refine ⟨meetsSpec_recordOf flash fuel operation d, ?_⟩
    split
    · exact ih _
    · simp

end Records

/-- A record that meets its specification is led. -/
lemma MeetsSpec.led {mask : BitVec 8} {r : Record} (h : MeetsSpec mask r) : Led r.events := by
  unfold MeetsSpec at h
  split at h
  · exact h.1.1
  · exact h.1

/-- A record obeys the law exactly if no call is refused in it or it is one of an `erase_block`. -/
lemma MeetsSpec.obeys_iff {mask : BitVec 8} {r : Record} (h : MeetsSpec mask r) :
    (Ordered mask r.events ∧ (Refused mask r.events →
        ¬ Alters r.events ∧ ∀ result ∈ r.result, r.operation.IsFailure result)) ↔
      (Refused mask r.events → r.operation.isErase = true) := by
  unfold MeetsSpec at h
  cases herase : r.operation.isErase with
  | true =>
    rw [if_pos herase] at h
    obtain ⟨⟨-, hordered, halters⟩, hresult⟩ := h
    refine iff_of_true ⟨hordered, fun hr => ⟨halters hr, fun v hv => ?_⟩⟩ fun _ => rfl
    have hneg : v < 0 := hresult hr v hv
    cases hop : r.operation with
    | eraseBlock _ _ => exact hneg
    | writeFlash _ _ _ => simp [hop, Operation.isErase] at herase
    | setToFourBytesAddress _ => exact hneg
    | setDummyCyclesAndStrength _ _ _ _ _ => exact hneg
  | false =>
    rw [if_neg (by simp [herase])] at h
    obtain ⟨-, hordered⟩ := h
    constructor
    · rintro ⟨ho, -⟩ hr
      exact absurd hr (hordered.mp ho)
    · intro hr
      have hnone : ¬ Refused mask r.events := fun hrefused => absurd (hr hrefused) (by simp)
      exact ⟨hordered.mpr hnone, fun hrefused => absurd hrefused hnone⟩

/-- When write enable comes before every alteration.  In every run of the operations on any
bus, altering commands are issued only when the most recent `write_enable()` succeeded,
and an operation in which a call failed alters nothing and reports the failure: exactly if
no call fails outside `erase_block`. -/
theorem obeysEnable_iff {σ : Type} (flash : QspiFlash σ) (fuel : ℕ) (operations : List Operation)
    (d : σ) :
    ObeysEnable flash.constants.writeEnabledMask (execute flash fuel operations d) ↔
      ∀ r ∈ execute flash fuel operations d,
        Refused flash.constants.writeEnabledMask r.events → r.operation.isErase = true := by
  have hspec := meetsSpec_execute flash fuel operations d
  rw [ObeysEnable, ordered_history_iff fun r hr => (hspec r hr).led, ← forall₂_and]
  exact forall₂_congr fun r hr => (hspec r hr).obeys_iff

/-! ### A chip that refuses -/

/-- A bus that answers every status read with zero: the chip is never in progress and never
write enabled. -/
def refusingFlash : QspiFlash Unit where
  bus := {
    onReadReg _ _ d := (some 0, d)
    onWriteReg _ _ _ d := d
    onWrite _ data d := (data.length, d) }
  constants := {
    readStatusCommand := 5
    writeEnableCommand := 6
    writeInProgressMask := 1
    writeEnabledMask := 2
    isRegisterWidth8 := 1
    isRegisterWidth16 := 2
    isRegisterWidth32 := 4 }
  pageSize := 256

/-- On this chip `write_flash` issues its page program after ten refused attempts. -/
theorem writeFlash_disobeys_refusal :
    ¬ ObeysEnable 2 (execute refusingFlash 1 [.writeFlash 0 (fun _ => 0) 1] ()) := by
  rintro ⟨hordered, -⟩
  obtain ⟨hgranted, -⟩ := hordered
  exact absurd (hgranted rfl) (by decide)

/-- On the same chip `erase_block` issues nothing. -/
example : (execute refusingFlash 1 [.eraseBlock 0 0xD8] ()).map Record.result = [some (-1)] := by
  decide

end HalAPI.QSPI
