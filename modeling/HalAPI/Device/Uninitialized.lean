import HalAPI.Device.Info
import HalAPI.Drive.Drive
import HalAPI.I2C.ModifyRegister
import HalAPI.Pin.Floating
import HalAPI.Pin.Port

/-!
# What uninitialised memory does

The queries of the library declare their local variables without an initial value, except
`I2C::get_info` and `Uart::get_info`.  This file compares two runs of a query that differ in
the former content of the memory only, and runs of the operations that branch on what a query
returned or write it back: `I2C::modify_register`, `Drive::erase_device` and `Pin::is_floating`.

A run shows the returned value, the requests that reached the device with their data, and how
often the loops go round.  `queries_oblivious_iff` says for each operation when two runs are the
same.
-/

namespace HalAPI

open Foundation Program

/-! ## `modify_register` -/

namespace I2C

variable {σ : Type}

/-- The thread of a call of `modify_register` before it reads. -/
def beforeRead (file : DeviceFile σ) (options : ModifyRegister) (t : Thread σ FileRequest) :
    Thread σ FileRequest :=
  t.called (.seek options.location) (file.onSeek options.location)

/-- The thread of a call of `modify_register` before it writes. -/
def beforeWrite (file : DeviceFile σ) (options : ModifyRegister) (t : Thread σ FileRequest) :
    Thread σ FileRequest :=
  ((beforeRead file options t).called (.read 1) (answer (file.onRead 1))).called
    (.seek options.location) (file.onSeek options.location)

/-- A write of one byte leaves the same thread for two bytes exactly if it is skipped or the bytes
are the same. -/
lemma called_write_eq_iff (file : DeviceFile σ) (t : Thread σ FileRequest) (x y : BitVec 8) :
    t.called (.write [x]) (file.onWrite [x]) = t.called (.write [y]) (file.onWrite [y]) ↔
      t.isError = true ∨ x = y := by
  cases ht : t.isError with
  | true => simp [Thread.called, ht]
  | false =>
    constructor
    · intro h
      have hissued := congrArg Thread.issued h
      rw [Thread.called_of_no_error _ ht, Thread.called_of_no_error _ ht, Thread.afterCall_issued,
        Thread.afterCall_issued] at hissued
      have hrequest := congrArg Prod.fst (List.cons.inj hissued).1
      exact Or.inr (by simpa using hrequest)
    · rintro (h | rfl)
      · exact absurd h (by simp)
      · rfl

/-- `modify_register` leaves the same thread whatever its variable held exactly if its write is
skipped, a byte was read, or the value it writes does not depend on the old one. -/
lemma oblivious_modifyRegister_iff (undefinedShift : BitVec 8 → BitVec 32) (file : DeviceFile σ)
    (options : ModifyRegister) (t : Thread σ FileRequest) :
    Oblivious (fun uninitialized => modifyRegister undefinedShift file ⟨uninitialized, options⟩) t ↔
      (beforeWrite file options t).isError = true ∨
        (file.onRead 1 (beforeRead file options t).device).1.2 ≠ [] ∨
        (options.value = false ∧ 8 ≤ options.bit.toNat ∧ options.bit.toNat < 32) ∨
        (32 ≤ options.bit.toNat ∧
          ∀ k, k < 8 → (undefinedShift options.bit).getLsbD k = options.value) := by
  have hseek : ∀ (s : Thread σ FileRequest), (file.seek options.location).EndsAtOnce s ()
      (s.called (.seek options.location) (file.onSeek options.location)) := fun s =>
    endsAtOnce_systemCall s _ _
  have hread : (file.read 1).EndsAtOnce (beforeRead file options t)
      (delivered (file.onRead 1) (beforeRead file options t))
      ((beforeRead file options t).called (.read 1) (answer (file.onRead 1))) :=
    endsAtOnce_query _ _ _
  unfold modifyRegister
  refine (oblivious_bind_iff fun _ => hseek t).trans ?_
  refine (oblivious_bind_iff fun _ => hread).trans ?_
  refine (oblivious_bind_iff fun _ => hseek _).trans ?_
  refine (oblivious_iff_of_endsAtOnce fun _ => endsAtOnce_systemCall _ _ _).trans ?_
  simp only [called_write_eq_iff, true_and, forall_or_left]
  refine or_congr_right' fun hmade => ?_
  have hfilled : Filled (file.onRead 1) (beforeRead file options t) := by
    by_contra hnot
    have herror := called_isError_of_not_filled (.read 1) hnot
    refine hmade ?_
    rwa [Thread.called_of_error _ herror]
  rw [delivered, if_pos hfilled]
  cases (file.onRead 1 (beforeRead file options t).device).1.2 with
  | nil => simpa using modifyValue_const_iff undefinedShift options
  | cons byte rest => simp

end I2C

/-! ## `get_value` and `is_floating` -/

namespace Pin

variable {σ : Type} (flags : GpioFlags) (pin : Pin σ)

/-- The thread after `set_input`, which is skipped or made. -/
def setThread (oFlags : BitVec 32) (t : Thread σ PioRequest) : Thread σ PioRequest :=
  t.called (.setAttributes (oFlags ||| flags.setInput) pin.pinmask) (inputAnswer flags pin oFlags)

/-- The thread after `get_value`, which is skipped or made. -/
def getThread (t : Thread σ PioRequest) : Thread σ PioRequest :=
  t.called .get (answer pin.driver.onGet)

/-- What `get_value` returns. -/
def level (t : Thread σ PioRequest) (uninitialized : BitVec 32) : Bool :=
  queried pin.driver.onGet t uninitialized &&& pin.pinmask != 0

/-- The thread of the first measurement of `is_floating`. -/
def pulledUp (t : Thread σ PioRequest) : Thread σ PioRequest := setThread flags pin flags.isPullup t

/-- The thread of the second measurement of `is_floating`, if it is made. -/
def thenPulledDown (t : Thread σ PioRequest) : Thread σ PioRequest :=
  setThread flags pin flags.isPulldown (getThread pin (pulledUp flags pin t))

/-- What `is_floating` does after its first measurement. -/
def afterFirst (oRestoreFlags : BitVec 32) (isHigh : Bool) (uninitialized : BitVec 32) :
    Program (Thread σ PioRequest) Bool := do
  let result ← (if isHigh then followsPulldown flags pin uninitialized else pure false)
  setInput flags pin oRestoreFlags
  return result

/-- The levels that `is_floating` looks at are filled in: the first one, and the second one if the
first is high. -/
def LevelsFilled (t : Thread σ PioRequest) : Prop :=
  Filled pin.driver.onGet (pulledUp flags pin t) ∧
    ((pin.driver.onGet (pulledUp flags pin t).device).1.2 &&& pin.pinmask ≠ 0 →
      Filled pin.driver.onGet (thenPulledDown flags pin t))

section Oblivious

/-- `set_input` ends at once. -/
lemma endsAtOnce_setInput (oFlags : BitVec 32) (t : Thread σ PioRequest) :
    (setInput flags pin oFlags).EndsAtOnce t () (setThread flags pin oFlags t) :=
  endsAtOnce_systemCall t _ _

/-- `get_value` ends at once. -/
lemma endsAtOnce_getValue (uninitialized : BitVec 32) (t : Thread σ PioRequest) :
    (getValue pin uninitialized).EndsAtOnce t (level pin t uninitialized) (getThread pin t) :=
  (endsAtOnce_query t _ _).bind (EndsAtOnce.pure _ _)

/-- The second measurement ends at once. -/
lemma endsAtOnce_followsPulldown (uninitialized : BitVec 32) (t : Thread σ PioRequest) :
    (followsPulldown flags pin uninitialized).EndsAtOnce t
      (!level pin (setThread flags pin flags.isPulldown t) uninitialized)
      (getThread pin (setThread flags pin flags.isPulldown t)) :=
  (endsAtOnce_setInput flags pin _ t).bind
    ((endsAtOnce_getValue pin _ _).bind (EndsAtOnce.pure _ _))

variable {flags pin}

/-- A level that is not filled in is that of the memory. -/
lemma level_of_not_filled {t : Thread σ PioRequest} (h : ¬ Filled pin.driver.onGet t)
    (uninitialized : BitVec 32) :
    level pin t uninitialized = (uninitialized &&& pin.pinmask != 0) := by
  rw [level, queried_of_not_filled h]

/-- The level does not depend on the memory exactly if it is filled in or the pin has no mask. -/
lemma level_const_iff (t : Thread σ PioRequest) :
    (∀ u v, level pin t u = level pin t v) ↔ Filled pin.driver.onGet t ∨ pin.pinmask = 0 := by
  by_cases h : Filled pin.driver.onGet t
  · simp [level, queried_of_filled h, h]
  · simp only [level_of_not_filled h, h, false_or]
    constructor
    · intro hconst
      simpa using hconst pin.pinmask 0
    · intro hmask u v
      simp [hmask]

/-- `get_value` does not depend on its variable exactly if the variable is filled in or the pin has
no mask. -/
lemma oblivious_getValue_iff (t : Thread σ PioRequest) :
    Oblivious (getValue pin) t ↔ Filled pin.driver.onGet t ∨ pin.pinmask = 0 := by
  rw [← level_const_iff, oblivious_iff_of_endsAtOnce fun u => endsAtOnce_getValue pin u t]
  simp

variable (flags pin) in
/-- While an error is set the second measurement shows the level of the memory, if it is made. -/
lemma endsAtOnce_followsPulldown_of_error {t : Thread σ PioRequest} (ht : t.isError = true)
    (isHigh : Bool) (uninitialized : BitVec 32) :
    (if isHigh then followsPulldown flags pin uninitialized else pure false).EndsAtOnce t
      (isHigh && !(uninitialized &&& pin.pinmask != 0)) t := by
  cases isHigh with
  | false => exact EndsAtOnce.pure _ _
  | true =>
    have hset : setThread flags pin flags.isPulldown t = t := Thread.called_of_error _ ht _
    have hget : getThread pin t = t := Thread.called_of_error _ ht _
    have hunfilled : ¬ Filled pin.driver.onGet t := fun h => absurd (h.1.symm.trans ht) (by simp)
    have hends := endsAtOnce_followsPulldown flags pin uninitialized t
    rw [hset, hget, level_of_not_filled hunfilled] at hends
    exact hends

/-- The end of `is_floating` adds nothing to what the measurements depend on. -/
lemma oblivious_restore_iff {ω : Type} (oRestoreFlags : BitVec 32) (result : ω → Bool)
    (t : Thread σ PioRequest) :
    Oblivious (fun u => setInput flags pin oRestoreFlags >>= fun _ => pure (result u)) t ↔
      ∀ u v, result u = result v := by
  rw [oblivious_iff_of_endsAtOnce fun u =>
    (endsAtOnce_setInput flags pin oRestoreFlags t).bind (EndsAtOnce.pure (result u) _)]
  simp

/-- After a first level that is high, `is_floating` depends on its second variable unless that is
filled in or the pin has no mask. -/
lemma oblivious_afterFirst_true_iff (oRestoreFlags : BitVec 32) (t : Thread σ PioRequest) :
    Oblivious (fun u : BitVec 32 × BitVec 32 => afterFirst flags pin oRestoreFlags true u.2) t ↔
      Filled pin.driver.onGet (setThread flags pin flags.isPulldown t) ∨ pin.pinmask = 0 := by
  have hsecond := oblivious_bind_iff (k := fun (_ : BitVec 32 × BitVec 32) (result : Bool) =>
      setInput flags pin oRestoreFlags >>= fun _ => pure result)
    fun u => endsAtOnce_followsPulldown flags pin u.2 t
  rw [← level_const_iff]
  refine hsecond.trans ((oblivious_restore_iff _ _ _).trans ?_)
  simp

/-- While an error is set and the first level is that of the memory, `is_floating` depends on its
variables unless the pin has no mask. -/
lemma oblivious_afterFirst_iff_of_error (oRestoreFlags : BitVec 32) {t : Thread σ PioRequest}
    (ht : t.isError = true) :
    Oblivious (fun u : BitVec 32 × BitVec 32 =>
        afterFirst flags pin oRestoreFlags (u.1 &&& pin.pinmask != 0) u.2) t ↔
      pin.pinmask = 0 := by
  have hmeasured := oblivious_bind_iff (k := fun (_ : BitVec 32 × BitVec 32) (result : Bool) =>
      setInput flags pin oRestoreFlags >>= fun _ => pure result)
    fun u => endsAtOnce_followsPulldown_of_error flags pin ht (u.1 &&& pin.pinmask != 0) u.2
  refine hmeasured.trans ((oblivious_restore_iff _ _ _).trans ?_)
  constructor
  · intro hconst
    simpa using hconst (pin.pinmask, 0) (0, 0)
  · intro hmask u v
    simp [hmask]

/-- `is_floating` does not depend on its variables exactly if those it looks at are filled in or the
pin has no mask. -/
lemma oblivious_isFloating_iff (oRestoreFlags : BitVec 32) (t : Thread σ PioRequest) :
    Oblivious (isFloating flags pin oRestoreFlags) t ↔
      LevelsFilled flags pin t ∨ pin.pinmask = 0 := by
  have hset : Oblivious (isFloating flags pin oRestoreFlags) t ↔
      Oblivious (fun u : BitVec 32 × BitVec 32 => getValue pin u.1 >>= fun isHigh =>
        afterFirst flags pin oRestoreFlags isHigh u.2) (pulledUp flags pin t) :=
    oblivious_bind_iff fun _ => endsAtOnce_setInput flags pin flags.isPullup t
  have hget := oblivious_bind_iff (k := fun (u : BitVec 32 × BitVec 32) (isHigh : Bool) =>
      afterFirst flags pin oRestoreFlags isHigh u.2)
    fun u => endsAtOnce_getValue pin u.1 (pulledUp flags pin t)
  rw [hset, hget]
  by_cases h : Filled pin.driver.onGet (pulledUp flags pin t)
  · -- the first level is the driver's
    simp only [level, queried_of_filled h]
    by_cases hhigh : (pin.driver.onGet (pulledUp flags pin t).device).1.2 &&& pin.pinmask = 0
    · refine iff_of_true ?_ (Or.inl ⟨h, fun hne => absurd hhigh hne⟩)
      rw [bne_eq_false_iff_eq.mpr hhigh]
      exact Oblivious.const (afterFirst flags pin oRestoreFlags false 0) _
    · have hsecond : LevelsFilled flags pin t ↔
          Filled pin.driver.onGet (thenPulledDown flags pin t) :=
        ⟨fun hlevels => hlevels.2 hhigh, fun hfilled => ⟨h, fun _ => hfilled⟩⟩
      rw [hsecond, bne_iff_ne.mpr hhigh]
      exact oblivious_afterFirst_true_iff oRestoreFlags _
  · -- the first level is that of the memory, and an error is set from here on
    have hnot : ¬ LevelsFilled flags pin t := fun hlevels => h hlevels.1
    simp only [level_of_not_filled h, hnot, false_or]
    exact oblivious_afterFirst_iff_of_error oRestoreFlags (called_isError_of_not_filled _ h)

end Oblivious

end Pin

/-! ## `erase_device` -/

namespace Drive

variable {σ : Type} {driver : Driver σ} {flags : Flags}

/-- What `erase_device` decides by its record before it makes a request: whether the drive erases
itself, and whether there is an address to erase. -/
def eraseDecisions (flags : Flags) (info : Info) : Bool × Bool :=
  (info.hasFlag flags.eraseDevice, decide (0 < info.size))

/-- The record of a drive without flags, with a number of write blocks of one byte. -/
def plainInfo (numWriteBlocks : BitVec 32) : Info where
  oFlags := 0
  oEvents := 0
  addressableSize := 1
  writeBlockSize := 1
  numWriteBlocks := numWriteBlocks
  eraseBlockSize := 1
  eraseBlockTime := 0
  eraseDeviceTime := 0
  pageProgramSize := 1
  bitrate := 0

/-- A drive without flags erases itself never. -/
lemma hasFlag_plainInfo (numWriteBlocks flag : BitVec 32) :
    (plainInfo numWriteBlocks).hasFlag flag = false := by
  simp [plainInfo, Info.hasFlag]

variable (driver) in
/-- `get_info` ends at once. -/
lemma endsAtOnce_getInfo (uninitialized : Info) (t : Thread σ Request) :
    (getInfo driver uninitialized).EndsAtOnce t (queried driver.onGetInfo t uninitialized)
      (t.called .getInfo (answer driver.onGetInfo)) :=
  endsAtOnce_queryRecord t _ _ uninitialized

/-- The decisions of `erase_device` do not depend on the memory exactly if the record is filled
in. -/
lemma oblivious_eraseDecisions_iff (t : Thread σ Request) :
    Oblivious (fun uninitialized => getInfo driver uninitialized >>= fun info =>
        pure (eraseDecisions flags info)) t ↔ Filled driver.onGetInfo t := by
  have hne : eraseDecisions flags (plainInfo 0) ≠ eraseDecisions flags (plainInfo 1) := by
    intro h
    have hsize : decide (0 < (plainInfo 0).size) = decide (0 < (plainInfo 1).size) :=
      congrArg Prod.snd h
    exact absurd hsize (by decide)
  exact oblivious_iff_filled hne fun u => (endsAtOnce_getInfo driver u t).bind (EndsAtOnce.pure _ _)

/-- A round of the loop that is not the last goes on. -/
lemma eraseRound_goesOn {info : Info} (hsize : (0 : BitVec 32).setWidth 64 < info.size) :
    Triple (fun _ => True) (eraseRound driver flags info 0) (fun r _ => r.isLeft = true)
      fun _ => True := by
  unfold eraseRound
  rw [if_pos hsize]
  refine (Triple.top _).bind fun _ => (Triple.top _).bind fun _ => (Triple.top _).bind fun _ => ?_
  exact Triple.pure fun _ _ => rfl

/-- `erase_device` does not depend on its variable exactly if the variable is filled in.  Otherwise
a record without an address ends it where one with an address lets its loop go on. -/
lemma oblivious_eraseDevice_iff (t : Thread σ Request) :
    Oblivious (eraseDevice driver flags) t ↔ Filled driver.onGetInfo t := by
  have hinfo := oblivious_bind_iff (k := fun (_ : Info) (info : Info) =>
      if info.hasFlag flags.eraseDevice then
        setAttributes driver { oFlags := flags.eraseDevice }
      else Program.iterate (eraseRound driver flags info) 0)
    fun u => endsAtOnce_getInfo driver u t
  refine Iff.trans hinfo ?_
  by_cases h : Filled driver.onGetInfo t
  · simp only [queried_of_filled h, h, iff_true]
    exact Oblivious.const _ _
  · simp only [queried_of_not_filled h, h, iff_false]
    intro hsame
    have hrun := hsame (plainInfo 0) (plainInfo 1) 1
    simp only [hasFlag_plainInfo, Bool.false_eq_true, if_false] at hrun
    have hlast : (eraseRound driver flags (plainInfo 0) 0).EndsAtOnce
        (t.called .getInfo (answer driver.onGetInfo)) (.inr ())
        (t.called .getInfo (answer driver.onGetInfo)) := by
      rw [eraseRound, if_neg (by decide)]
      exact EndsAtOnce.pure _ _
    rw [exec_iterate_one_of_inr hlast] at hrun
    exact exec_iterate_one_ne_done (eraseRound_goesOn (by decide)) () _ hrun.symm

end Drive

/-! ## The queries -/

section Queries

variable {σ ρ τ : Type}

/-- A query that returns its variable is sound exactly if the variable is filled in, as the
variable may hold a valid record or one that is not. -/
lemma soundQuery_queryRecord_iff (request : ρ) (f : σ → (ℤ × τ) × σ) (t : Thread σ ρ)
    {valid : τ → Bool} (u v : τ) (hu : valid u = true) (hv : valid v = false) :
    SoundQuery (queryRecord request f) valid (Filled f t) t ↔ Filled f t :=
  soundQuery_iff_filled (g := id) hu hv fun w => endsAtOnce_queryRecord t request f w

/-- A query that returns its variable is oblivious exactly if the variable is filled in. -/
lemma oblivious_queryRecord_iff (request : ρ) (f : σ → (ℤ × τ) × σ) (t : Thread σ ρ) (u v : τ)
    (huv : u ≠ v) : Oblivious (queryRecord request f) t ↔ Filled f t :=
  oblivious_iff_filled (g := id) huv fun w => endsAtOnce_queryRecord t request f w

/-- A query that declares its variable with a value that is not valid is sound. -/
lemma soundQuery_of_initial {request : ρ} {f : σ → (ℤ × τ) × σ} {t : Thread σ ρ}
    {valid : τ → Bool} {initial : τ} (hinitial : valid initial = false) :
    SoundQuery (fun _ : τ => queryRecord request f initial) valid (Filled f t) t where
  oblivious := Oblivious.const _ _
  invalid hnot _ a t' hy := by
    obtain ⟨rfl, -⟩ := hy.unique (endsAtOnce_queryRecord t request f initial).yields
    rwa [queried_of_not_filled hnot]

end Queries

namespace FrameStream

variable {σ ι : Type} [DecidableEq ι]

/-- `is_valid` of an object that is the only live one. -/
def isValidAlone (x : ι) (info : Info ι) : Bool :=
  (info.isValid (Function.update Store.empty x (some info))).getD false

/-- An object alone is valid if a channel of its record is. -/
lemma isValidAlone_construct (x : ι) (record : Record) :
    isValidAlone x (Info.construct x record) = (record.rx.isValid || record.tx.isValid) := by
  have hown : SelfContained (Function.update Store.empty x (some (Info.construct x record))) :=
    (selfContained_update_iff (fun _ _ h => absurd h (by simp [Store.empty])) x _).mpr
      fun o ho => by
        obtain rfl : Info.construct x record = o := by simpa using ho
        exact ⟨rfl, rfl⟩
  obtain ⟨-, -, hvalid⟩ := hown.agrees x (Info.construct x record) (Function.update_self _ _ _)
  rw [isValidAlone, hvalid]
  rfl

/-- A stream with a number of frames to receive. -/
def framesOnly (frameCount : BitVec 16) : Record where
  oFlags := 0
  oStatus := 0
  rx := ⟨⟨frameCount, 0, 0, 0⟩, 0, 0⟩
  tx := ⟨⟨0, 0, 0, 0⟩, 0, 0⟩

/-- `get_info` is sound exactly if its record is filled in. -/
lemma soundQuery_getInfo_iff (x : ι) (f : σ → (ℤ × Record) × σ) (t : Thread σ InfoRequest) :
    SoundQuery (getInfo x f) (isValidAlone x) (Filled f t) t ↔ Filled f t := by
  refine soundQuery_iff_filled (g := Info.construct x) (u := framesOnly 1) (v := framesOnly 0)
    ?_ ?_ fun u => (endsAtOnce_queryRecord t _ f u).bind (EndsAtOnce.pure _ _)
  · rw [isValidAlone_construct]
    rfl
  · rw [isValidAlone_construct]
    rfl

end FrameStream

/-- When uninitialised memory has no influence on the queries and on what is built on them.  Of the
`get_info` functions `I2C::get_info` and `Uart::get_info` never show it; the others, and
`Gpio::get_value`, show it exactly if their device call is skipped or fails, and then the record
they return may be valid.  `Pin::get_value` and `Pin::is_floating` need the same of the calls that
they look at, unless the pin has no mask.  `I2C::modify_register` writes what was in memory exactly
if its read succeeds without delivering a byte, its write is made, and the written value depends on
the old one, which it does not if a bit from 8 to 31 is cleared, or the undefined shift from bit 32
on gives a byte without a bit to clear by, or with every bit to set.  `Drive::erase_device` needs
its record. -/
theorem queries_oblivious_iff (σ ι : Type) [DecidableEq ι] :
    (∀ (f : σ → (ℤ × Adc.Info) × σ) t,
      SoundQuery (Adc.getInfo f) Adc.Info.isValid (Filled f t) t ↔ Filled f t) ∧
    (∀ (f : σ → (ℤ × ByteBuffer.Info) × σ) t,
      SoundQuery (ByteBuffer.getInfo f) ByteBuffer.Info.isValid (Filled f t) t ↔ Filled f t) ∧
    (∀ (driver : Drive.Driver σ) t,
      SoundQuery (Drive.getInfo driver) Drive.Info.isValid (Filled driver.onGetInfo t) t ↔
        Filled driver.onGetInfo t) ∧
    (∀ (f : σ → (ℤ × Flash.Info) × σ) t,
      SoundQuery (Flash.getInfo f) Flash.Info.isValid (Filled f t) t ↔ Filled f t) ∧
    (∀ (f : σ → (ℤ × FrameBuffer.Info) × σ) t,
      SoundQuery (FrameBuffer.getInfo f) FrameBuffer.Info.isValid (Filled f t) t ↔ Filled f t) ∧
    (∀ (x : ι) (f : σ → (ℤ × FrameStream.Record) × σ) t,
      SoundQuery (FrameStream.getInfo x f) (FrameStream.isValidAlone x) (Filled f t) t ↔
        Filled f t) ∧
    (∀ (f : σ → (ℤ × I2C.Info) × σ) t, Oblivious (fun _ : I2C.Info => I2C.getInfo f) t) ∧
    (∀ (f : σ → (ℤ × I2S.Info) × σ) t, Oblivious (I2S.getInfo f) t ↔ Filled f t) ∧
    (∀ (f : σ → (ℤ × Spi.Info) × σ) t,
      SoundQuery (Spi.getInfo f) Spi.Info.isValid (Filled f t) t ↔ Filled f t) ∧
    (∀ (f : σ → (ℤ × Timer.Info) × σ) t,
      SoundQuery (Timer.getInfo f) Timer.Info.isValid (Filled f t) t ↔ Filled f t) ∧
    (∀ (f : σ → (ℤ × Uart.Info) × σ) t,
      SoundQuery (fun _ : Uart.Info => Uart.getInfo f) Uart.Info.isValid (Filled f t) t) ∧
    (∀ (f : σ → (ℤ × Usb.Info) × σ) t, Oblivious (Usb.getInfo f) t ↔ Filled f t) ∧
    (∀ (driver : PioDriver σ) t, Oblivious (Gpio.getValue driver) t ↔ Filled driver.onGet t) ∧
    (∀ (pin : Pin σ) t,
      Oblivious (Pin.getValue pin) t ↔ Filled pin.driver.onGet t ∨ pin.pinmask = 0) ∧
    (∀ (undefinedShift : BitVec 8 → BitVec 32) (file : DeviceFile σ)
        (options : I2C.ModifyRegister) t,
      Oblivious (fun uninitialized =>
          I2C.modifyRegister undefinedShift file ⟨uninitialized, options⟩) t ↔
        (I2C.beforeWrite file options t).isError = true ∨
          (file.onRead 1 (I2C.beforeRead file options t).device).1.2 ≠ [] ∨
          (options.value = false ∧ 8 ≤ options.bit.toNat ∧ options.bit.toNat < 32) ∨
          (32 ≤ options.bit.toNat ∧
            ∀ k, k < 8 → (undefinedShift options.bit).getLsbD k = options.value)) ∧
    (∀ (driver : Drive.Driver σ) (flags : Drive.Flags) t,
      (Oblivious (Drive.eraseDevice driver flags) t ↔ Filled driver.onGetInfo t) ∧
        (Oblivious (fun uninitialized => Drive.getInfo driver uninitialized >>= fun info =>
          pure (Drive.eraseDecisions flags info)) t ↔ Filled driver.onGetInfo t)) ∧
    ∀ (flags : GpioFlags) (pin : Pin σ) (oRestoreFlags : BitVec 32) t,
      Oblivious (Pin.isFloating flags pin oRestoreFlags) t ↔
        Pin.LevelsFilled flags pin t ∨ pin.pinmask = 0 := by
  refine ⟨fun f t => ?_, fun f t => ?_, fun driver t => ?_, fun f t => ?_, fun f t => ?_,
    FrameStream.soundQuery_getInfo_iff, fun f t => Oblivious.const _ t, fun f t => ?_,
    fun f t => ?_, fun f t => ?_, fun f t => soundQuery_of_initial rfl, fun f t => ?_,
    fun driver t => ?_, fun pin t => Pin.oblivious_getValue_iff t,
    I2C.oblivious_modifyRegister_iff,
    fun driver flags t => ⟨Drive.oblivious_eraseDevice_iff t, Drive.oblivious_eraseDecisions_iff t⟩,
    fun flags pin oRestoreFlags t => Pin.oblivious_isFloating_iff oRestoreFlags t⟩
  -- for each class two contents of the memory that tell the runs apart
  · exact soundQuery_queryRecord_iff _ f t ⟨1, 0, 0, 0, 0, 0, 0, 0, 0⟩ ⟨0, 0, 0, 0, 0, 0, 0, 0, 0⟩
      rfl rfl
  · exact soundQuery_queryRecord_iff _ f t ⟨1, 0, 0⟩ ⟨0, 0, 0⟩ rfl rfl
  · exact soundQuery_queryRecord_iff _ _ t (Drive.plainInfo 1) (Drive.plainInfo 0) rfl rfl
  · exact soundQuery_queryRecord_iff _ f t ⟨0, 1⟩ ⟨0, 0⟩ rfl rfl
  · exact soundQuery_queryRecord_iff _ f t ⟨0, 1, 0, 0⟩ ⟨0, 0, 0, 0⟩ rfl rfl
  · exact oblivious_queryRecord_iff _ f t ⟨0, 0, 0⟩ ⟨1, 0, 0⟩ (by decide)
  · exact soundQuery_queryRecord_iff _ f t ⟨1, 0⟩ ⟨0, 0⟩ rfl rfl
  · exact soundQuery_queryRecord_iff _ f t ⟨1, 0⟩ ⟨0, 0⟩ rfl rfl
  · exact oblivious_queryRecord_iff _ f t ⟨0, 0⟩ ⟨1, 0⟩ (by decide)
  · exact oblivious_queryRecord_iff _ _ t 0 1 (by decide)

/-! ### Two devices -/

/-- A drive that refuses every request. -/
def Drive.refusingDriver : Drive.Driver Unit where
  onGetInfo d := ((-1, Drive.plainInfo 0), d)
  onSetAttributes _ d := (-1, d)
  onIsBusy d := (-1, d)

/-- A device whose reads succeed and deliver no byte. -/
def I2C.silentFile : DeviceFile Unit where
  onSeek _ d := (0, d)
  onRead _ d := ((0, []), d)
  onWrite data d := (data.length, d)

/-- On a drive that refuses it, `get_info` returns a valid record in one run and one that is not in
the other.  On a device that delivers no byte, setting bit 0 of a register writes 1 in one run and 3
in the other. -/
theorem queries_show_memory :
    (∃ t', (Drive.getInfo Drive.refusingDriver (Drive.plainInfo 1)).Yields (Thread.start ())
          (Drive.plainInfo 1) t' ∧ (Drive.plainInfo 1).isValid = true ∧
        (Drive.getInfo Drive.refusingDriver (Drive.plainInfo 0)).Yields (Thread.start ())
          (Drive.plainInfo 0) t' ∧ (Drive.plainInfo 0).isValid = false) ∧
      ∃ t₁ t₂, (I2C.modifyRegister (fun _ => 0) I2C.silentFile ⟨0, ⟨5, 0, true⟩⟩).Yields
          (Thread.start ()) () t₁ ∧
        (I2C.modifyRegister (fun _ => 0) I2C.silentFile ⟨2, ⟨5, 0, true⟩⟩).Yields
          (Thread.start ()) () t₂ ∧
        t₁.issued.head? = some (.write [1], 1) ∧ t₂.issued.head? = some (.write [3], 1) :=
  ⟨⟨_, ⟨0, rfl⟩, rfl, ⟨0, rfl⟩, rfl⟩, _, _, ⟨0, rfl⟩, ⟨0, rfl⟩, rfl, rfl⟩

end HalAPI
