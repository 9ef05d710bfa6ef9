import HalAPI.Api.ExecutionContext

/-!
# `Drive`

A drive is erased through attribute requests.  `Drive::erase_blocks` passes the absolute
address range of the blocks to erase; `Drive::erase_device` either lets the drive erase
itself or walks over its addresses, with one request after another, moving on by the count
each request returns.

The driver behind the file is a parameter: any functions of a state of any type.  The constants
of the driver's header are a parameter as well.  What a local variable holds before the driver
fills it in is an argument of the function that declares it.
-/

namespace HalAPI.Drive

open Foundation

/-! ## Data -/

/-- The flags of `DriveFlags` that erasing uses, with the values the driver's header gives
them. -/
structure Flags where
  eraseBlocks : BitVec 32
  eraseDevice : BitVec 32

/-- `drive_info_t` -/
structure Info where
  oFlags : BitVec 32
  oEvents : BitVec 32
  addressableSize : BitVec 16
  writeBlockSize : BitVec 16
  numWriteBlocks : BitVec 32
  eraseBlockSize : BitVec 32
  eraseBlockTime : BitVec 32
  eraseDeviceTime : BitVec 32
  pageProgramSize : BitVec 32
  bitrate : BitVec 32
  deriving DecidableEq

/-- `Drive::Info::is_valid` -/
def Info.isValid (info : Info) : Bool := info.numWriteBlocks != 0

/-- `Drive::Info::size`: the product of a 32-bit and a 16-bit number is a 32-bit number, which
the return type widens. -/
def Info.size (info : Info) : BitVec 64 :=
  (info.numWriteBlocks * info.writeBlockSize.setWidth 32).setWidth 64

/-- The capacity of a drive in bytes. -/
def Info.capacity (info : Info) : ℕ := info.numWriteBlocks.toNat * info.writeBlockSize.toNat

/-- The drive advertises a flag. -/
def Info.hasFlag (info : Info) (flag : BitVec 32) : Bool := info.oFlags &&& flag != 0

/-- `drive_attr_t` -/
structure Attributes where
  oFlags : BitVec 32 := 0
  start : BitVec 32 := 0
  stop : BitVec 32 := 0
  deriving DecidableEq

/-- The requests of a drive. -/
inductive Request where
  | getInfo
  | setAttributes (attributes : Attributes)
  | isBusy
  deriving DecidableEq

/-- How a driver answers the requests. -/
structure Driver (σ : Type) where
  onGetInfo : σ → (ℤ × Info) × σ
  onSetAttributes : Attributes → σ → ℤ × σ
  onIsBusy : σ → ℤ × σ

/-! ## The code -/

section Code

variable {σ : Type} (driver : Driver σ) (flags : Flags)

/-- `Drive::get_info`, whose local `info` holds `uninitialized` until the driver fills it in -/
def getInfo (uninitialized : Info) : Program (Thread σ Request) Info := do
  let filled ← query .getInfo driver.onGetInfo
  return filled.getD uninitialized

/-- `Drive::set_attributes` -/
def setAttributes (attributes : Attributes) : Program (Thread σ Request) Unit :=
  systemCall (.setAttributes attributes) (driver.onSetAttributes attributes)

/-- `Drive::is_busy` -/
def isBusy : Program (Thread σ Request) Bool := do
  systemCall .isBusy driver.onIsBusy
  return 0 < (← returnValue)

/-- The test `is_busy() && is_success()` -/
def busyTest : Program (Thread σ Request) Bool := do
  if ← isBusy driver then isSuccess else return false

/-- The loop `while (is_busy() && is_success()) chrono::wait(..)` -/
def waitWhileBusy : Program (Thread σ Request) Unit :=
  Program.whileDo (busyTest driver) (return ())

/-- The attributes `erase_device` passes to the driver when it is at an address. -/
def eraseRequest (flags : Flags) (info : Info) (address : BitVec 32) : Attributes where
  oFlags := flags.eraseBlocks
  start := address
  stop := info.writeBlockSize.setWidth 32

/-- One round of the loop of `erase_device`: a request at the address, the wait for the drive,
and the address to go on from. -/
def eraseRound (info : Info) (address : BitVec 32) :
    Program (Thread σ Request) (BitVec 32 ⊕ Unit) := do
  if address.setWidth 64 < info.size then
    setAttributes driver (eraseRequest flags info address)
    let count ← returnValue
    waitWhileBusy driver
    return .inl (address + BitVec.ofInt 32 count)
  else
    return .inr ()

/-- `Drive::erase_device` -/
def eraseDevice (uninitialized : Info) : Program (Thread σ Request) Unit := do
  let info ← getInfo driver uninitialized
  if info.hasFlag flags.eraseDevice then
    setAttributes driver { oFlags := flags.eraseDevice }
  else
    Program.iterate (eraseRound driver flags info) 0

/-- `Drive::erase_blocks` -/
def eraseBlocks (startAddress endAddress : BitVec 32) : Program (Thread σ Request) Unit :=
  setAttributes driver { oFlags := flags.eraseBlocks, start := startAddress, stop := endAddress }

end Code

/-! ## Sizes -/

/-- The size of a drive is its capacity modulo `2 ^ 32`. -/
lemma toNat_size (info : Info) : info.size.toNat = info.capacity % 2 ^ 32 := by
  have hlt : info.writeBlockSize.toNat < 2 ^ 16 := info.writeBlockSize.isLt
  unfold Info.size Info.capacity
  rw [BitVec.toNat_setWidth, BitVec.toNat_mul, BitVec.toNat_setWidth,
    Nat.mod_eq_of_lt (a := info.writeBlockSize.toNat) (by omega)]
  exact Nat.mod_eq_of_lt (by omega)

/-- The size of a drive is its capacity exactly below 4 GiB. -/
lemma toNat_size_eq_capacity_iff (info : Info) :
    info.size.toNat = info.capacity ↔ info.capacity < 2 ^ 32 := by
  rw [toNat_size, Nat.mod_eq_iff_lt (by norm_num)]

/-- An address is compared with the size as a number. -/
lemma setWidth_lt_size_iff (address : BitVec 32) (info : Info) :
    address.setWidth 64 < info.size ↔ address.toNat < info.size.toNat := by
  have hlt : address.toNat < 2 ^ 32 := address.isLt
  rw [BitVec.lt_def, BitVec.toNat_setWidth, Nat.mod_eq_of_lt (by omega)]

/-! ## The requests that reached the drive -/

/-- The attribute requests among the requests that reached the drive, each with the value it
returned. -/
def attributeRequests (issued : List (Request × ℤ)) : List (Attributes × ℤ) :=
  issued.filterMap fun
    | (.setAttributes a, result) => some (a, result)
    | _ => none

/-- The sum of the counts the drive reported as erased. -/
def reportedBytes (issued : List (Request × ℤ)) : ℤ :=
  ((attributeRequests issued).map Prod.snd).sum

section Requests

variable (issued : List (Request × ℤ)) (result : ℤ)

/-- No attribute request has reached the drive at the start. -/
@[simp] lemma attributeRequests_nil : attributeRequests [] = [] := rfl

/-- A query for the drive's record is no attribute request. -/
@[simp] lemma attributeRequests_getInfo :
    attributeRequests ((.getInfo, result) :: issued) = attributeRequests issued := rfl

/-- An attribute request is one. -/
@[simp] lemma attributeRequests_setAttributes (a : Attributes) :
    attributeRequests ((.setAttributes a, result) :: issued) =
      (a, result) :: attributeRequests issued := rfl

/-- An attribute request reports the count it returns. -/
@[simp] lemma reportedBytes_setAttributes (a : Attributes) :
    reportedBytes ((.setAttributes a, result) :: issued) = result + reportedBytes issued := by
  simp [reportedBytes]

end Requests

/-! ## Waiting for the drive -/

section Wait

variable {σ : Type} {driver : Driver σ}

/-- The thread after a poll. -/
def afterPoll (driver : Driver σ) (t : Thread σ Request) : Thread σ Request :=
  t.afterCall .isBusy (driver.onIsBusy t.device).1 (driver.onIsBusy t.device).2

variable (driver) in
/-- A poll without an error says whether the drive is busy; a poll that fails says that it is
not. -/
lemma yields_busyTest {t : Thread σ Request} (ht : t.isError = false) :
    (busyTest driver).Yields t (decide (0 < (driver.onIsBusy t.device).1)) (afterPoll driver t) := by
  have hvalue : 0 < (afterPoll driver t).returnValue ↔ 0 < (driver.onIsBusy t.device).1 := by
    rw [afterPoll, Thread.afterCall_returnValue]
    split <;> omega
  have hpoll : (systemCall .isBusy driver.onIsBusy).Yields t () (afterPoll driver t) :=
    (yields_systemCall ht _ _).mpr rfl
  have hbusy : (isBusy driver).Yields t (decide (0 < (driver.onIsBusy t.device).1))
      (afterPoll driver t) := by
    refine hpoll.bind (((yields_returnValue _).mpr ⟨rfl, rfl⟩).bind ?_)
    simp [hvalue]
  refine hbusy.bind ?_
  by_cases hpos : 0 < (driver.onIsBusy t.device).1
  · simp [hpos, afterPoll, hpos.le]
  · simp [hpos]

/-- A poll without an error that does not find the drive busy ends the wait. -/
lemma yields_waitWhileBusy_of_idle {t : Thread σ Request} (ht : t.isError = false)
    (hidle : (driver.onIsBusy t.device).1 ≤ 0) :
    (waitWhileBusy driver).Yields t () (afterPoll driver t) := by
  have htest : (busyTest driver).Yields t false (afterPoll driver t) := by
    simpa [not_lt.mpr hidle] using yields_busyTest driver ht
  exact htest.whileDo_last _

/-- After a poll that finds the drive busy the wait goes on. -/
lemma yields_waitWhileBusy_of_busy {t t' : Thread σ Request} (ht : t.isError = false)
    (hbusy : 0 < (driver.onIsBusy t.device).1)
    (hrest : (waitWhileBusy driver).Yields (afterPoll driver t) () t') :
    (waitWhileBusy driver).Yields t () t' := by
  have htest : (busyTest driver).Yields t true (afterPoll driver t) := by
    simpa [hbusy] using yields_busyTest driver ht
  exact htest.whileDo_next (Program.Yields.pure _ _) hrest

variable (driver) in
/-- The wait ends without an error, and with whatever every poll preserves, if no poll fails and
the drive is busy for finitely many polls only. -/
lemma yields_waitWhileBusy {I : Thread σ Request → Prop}
    (hpoll : ∀ t, I t → 0 ≤ (driver.onIsBusy t.device).1 ∧ I (afterPoll driver t))
    (k : ℕ) {t : Thread σ Request} (ht : t.isError = false) (hI : I t)
    (hcalm : (driver.onIsBusy ((fun d => (driver.onIsBusy d).2)^[k] t.device)).1 = 0) :
    ∃ t', (waitWhileBusy driver).Yields t () t' ∧ t'.isError = false ∧ I t' := by
  have hok : ∀ t, I t → (afterPoll driver t).isError = false := fun t hI =>
    decide_eq_false (not_lt.mpr (hpoll t hI).1)
  induction k generalizing t with
  | zero =>
    exact ⟨afterPoll driver t, yields_waitWhileBusy_of_idle ht hcalm.le, hok t hI, (hpoll t hI).2⟩
  | succ k ih =>
    obtain ⟨hres, hI'⟩ := hpoll t hI
    rcases hres.eq_or_lt with hidle | hbusy
    · exact ⟨afterPoll driver t, yields_waitWhileBusy_of_idle ht hidle.symm.le, hok t hI, hI'⟩
    · obtain ⟨t', hy, he, hend⟩ := ih (hok t hI) hI' hcalm
      exact ⟨t', yields_waitWhileBusy_of_busy ht hbusy hy, he, hend⟩

/-- What every poll preserves, the wait preserves. -/
lemma triple_waitWhileBusy {I : Thread σ Request → Prop}
    (hpoll : ∀ t, I t → t.isError = false → I (afterPoll driver t)) :
    Program.Triple I (waitWhileBusy driver) (fun _ => I) I := by
  have hcall : Program.Triple I (systemCall .isBusy driver.onIsBusy) (fun _ => I) I :=
    triple_systemCall _ _ (fun t ht _ => ht) hpoll
  have hbusy : Program.Triple I (isBusy driver) (fun _ => I) I := by
    refine Program.Triple.bind hcall fun _ => ?_
    exact Program.Triple.bind (triple_returnValue fun t ht => ht)
      fun _ => Program.Triple.pure fun t ht => ht
  have htest : Program.Triple I (busyTest driver) (fun b t => if b then I t else I t) I := by
    refine Program.Triple.bind hbusy fun busy => ?_
    cases busy with
    | true => exact triple_isSuccess fun t ht => by simpa using ht
    | false => exact Program.Triple.pure fun t ht => by simpa using ht
  exact Program.Triple.whileDo htest (Program.Triple.pure fun _ h => h) fun _ h => h

/-- The wait is inert. -/
lemma inert_waitWhileBusy : Inert (waitWhileBusy driver) := by
  have hbusy : Inert (isBusy driver) :=
    Inert.bind (Inert.systemCall _ _) fun _ => Inert.bind Inert.returnValue fun _ => Inert.pure _
  have htest : Inert (busyTest driver) := by
    refine Inert.bind hbusy fun busy => ?_
    cases busy with
    | true => exact Inert.isSuccess
    | false => exact Inert.pure _
  exact Inert.whileDo htest (Inert.pure _)

end Wait

/-- The loop of `erase_device` is inert. -/
lemma inert_eraseLoop {σ : Type} (driver : Driver σ) (flags : Flags) (info : Info)
    (address : BitVec 32) : Inert (Program.iterate (eraseRound driver flags info) address) := by
  refine Inert.iterate (fun a => ?_) address
  unfold eraseRound
  by_cases hlt : a.setWidth 64 < info.size
  · rw [if_pos hlt]
    refine Inert.bind (Inert.systemCall _ _) fun _ => ?_
    refine Inert.bind Inert.returnValue fun count => ?_
    exact Inert.bind inert_waitWhileBusy fun _ => Inert.pure _
  · rw [if_neg hlt]
    exact Inert.pure _

end HalAPI.Drive
