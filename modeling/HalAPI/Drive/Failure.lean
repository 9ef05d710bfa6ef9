import HalAPI.Drive.EraseDevice

/-!
# Failures in `Drive::erase_device`

A device call that fails does not end the loop of `erase_device`.  While the error is set the
requests of the loop are skipped, and each of its rounds moves the 32-bit address on by the
`-1` of the failed call: the address counts down, and from zero it wraps around to the largest
address, which no size computed in 32 bits exceeds.

`eraseDevice_stops_at_failure` says that the call therefore ends whichever of its device calls is
the first to fail, and whatever record the drive is described by.
-/

namespace HalAPI.Drive

open Foundation

variable {σ : Type} {driver : Driver σ} {flags : Flags} {info : Info} {calls : σ → ℕ} {n : ℕ}

/-! ## A driver with a call that fails -/

/-- A device call that returns `result` and leaves the device in the state `d'` is counted, and
succeeds before the call number `n` and fails as the call number `n`. -/
structure Numbered (calls : σ → ℕ) (n : ℕ) (d : σ) (result : ℤ) (d' : σ) : Prop where
  counted : calls d' = calls d + 1
  succeeds : calls d < n → 0 ≤ result
  fails : calls d = n → result < 0

/-- Among the device calls, which `calls` counts, the call number `n` is the first to fail. -/
structure FailsAt (driver : Driver σ) (calls : σ → ℕ) (n : ℕ) : Prop where
  getInfo : ∀ d, Numbered calls n d (driver.onGetInfo d).1.1 (driver.onGetInfo d).2
  request : ∀ a d, Numbered calls n d (driver.onSetAttributes a d).1 (driver.onSetAttributes a d).2
  poll : ∀ d, Numbered calls n d (driver.onIsBusy d).1 (driver.onIsBusy d).2

/-- No call has failed yet, and every call that was made reached the device. -/
structure Running (calls : σ → ℕ) (n : ℕ) (t : Thread σ Request) : Prop where
  isError : t.isError = false
  reached : t.issued.length = calls t.device
  bound : calls t.device ≤ n
  succeeded : ∀ r ∈ t.issued, 0 ≤ r.2

/-- The call number `n` failed, no request reached the device after it, and its error is still
set. -/
structure Stopped (n : ℕ) (t : Thread σ Request) : Prop where
  isError : t.isError = true
  returnValue : t.returnValue = -1
  last : ∃ failed before, t.issued = failed :: before ∧ failed.2 < 0 ∧ before.length = n ∧
    ∀ r ∈ before, 0 ≤ r.2

/-- No call has failed yet, and at least `k` calls were made; or the call stopped. -/
def Made (calls : σ → ℕ) (n k : ℕ) (t : Thread σ Request) : Prop :=
  (Running calls n t ∧ k ≤ calls t.device) ∨ Stopped n t

/-- A thread before its first call is running. -/
lemma running_start {d : σ} (hd : calls d = 0) : Running calls n (Thread.start d) where
  isError := rfl
  reached := hd.symm
  bound := hd.trans_le (Nat.zero_le n)
  succeeded _ hr := absurd hr (List.not_mem_nil)

/-- After a call that is made there is one more call, or the failure. -/
lemma Running.afterCall {t : Thread σ Request} (ht : Running calls n t) {request : Request}
    {result : ℤ} {d' : σ} (h : Numbered calls n t.device result d') :
    Made calls n (calls t.device + 1) (t.afterCall request result d') := by
  rcases ht.bound.lt_or_eq with hlt | heq
  · have hres : 0 ≤ result := h.succeeds hlt
    refine Or.inl ⟨⟨decide_eq_false (not_lt.mpr hres), ?_, ?_, ?_⟩, h.counted.ge⟩
    · rw [Thread.afterCall_issued, Thread.afterCall_device, List.length_cons, h.counted, ht.reached]
    · rw [Thread.afterCall_device, h.counted]
      exact hlt
    · intro r hr
      rcases List.mem_cons.mp hr with rfl | hbefore
      · exact hres
      · exact ht.succeeded r hbefore
  · have hres : result < 0 := h.fails heq
    refine Or.inr ⟨decide_eq_true hres, if_pos hres, (request, result), t.issued, rfl, hres, ?_,
      ht.succeeded⟩
    rw [ht.reached, heq]

/-! ## The wait -/

/-- A poll that is skipped, or fails, ends the wait. -/
lemma yields_waitWhileBusy_of_stopped {t : Thread σ Request} (ht : Stopped n t) :
    (waitWhileBusy driver).Yields t () t := by
  have hbusy : (isBusy driver).Yields t false t := by
    refine ((yields_systemCall_of_error ht.isError _ _).mpr rfl).bind ?_
    refine ((yields_returnValue _).mpr ⟨rfl, rfl⟩).bind ?_
    simp [ht.returnValue]
  have htest : (busyTest driver).Yields t false t := hbusy.bind (Program.Yields.pure _ _)
  exact htest.whileDo_last _

/-- The wait ends: its polls run out of calls that succeed. -/
lemma total_waitWhileBusy (h : FailsAt driver calls n) (k : ℕ) :
    Program.Total (Made calls n k) (waitWhileBusy driver) (fun _ => Made calls n k) := by
  intro t ht
  induction hm : n - calls t.device using Nat.strongRecOn generalizing t with
  | ind m ih =>
    rcases ht with ⟨hrun, hk⟩ | hstop
    · have hmade : Made calls n (calls t.device + 1) (afterPoll driver t) :=
        hrun.afterCall (h.poll t.device)
      by_cases hpos : 0 < (driver.onIsBusy t.device).1
      · -- the drive is busy, and the wait polls again
        have hok : ¬ Stopped n (afterPoll driver t) := fun hstop =>
          absurd hstop.isError (by simp [afterPoll, hpos.le])
        obtain ⟨hrun', hnext⟩ := hmade.resolve_right hok
        obtain ⟨u, t', hy, ht'⟩ := ih _ (by have := hrun'.bound; omega) (afterPoll driver t)
          (Or.inl ⟨hrun', by omega⟩) rfl
        exact ⟨(), t', yields_waitWhileBusy_of_busy hrun.isError hpos hy, ht'⟩
      · refine ⟨(), afterPoll driver t,
          yields_waitWhileBusy_of_idle hrun.isError (not_lt.mp hpos), ?_⟩
        exact hmade.imp_left fun h => ⟨h.1, by omega⟩
    · exact ⟨(), t, yields_waitWhileBusy_of_stopped hstop, Or.inr hstop⟩

/-! ## The loop -/

/-- The size of a drive fits into 32 bits. -/
lemma size_lt (info : Info) : info.size.toNat < 2 ^ 32 := by
  rw [toNat_size]
  exact Nat.mod_lt _ (by norm_num)

/-- The rounds that the loop makes at most from an address while an error is set: one for every
address down to zero. -/
def countdown (info : Info) (address : BitVec 32) : ℕ :=
  if address.toNat < info.size.toNat then address.toNat + 1 else 0

/-- The value of a failed call moves the address down, or from zero past the size. -/
lemma countdown_lt {address : BitVec 32} (hlt : address.toNat < info.size.toNat) :
    countdown info (address + BitVec.ofInt 32 (-1)) < countdown info address := by
  have hsize := size_lt info
  have hback : (address + BitVec.ofInt 32 (-1)).toNat = (address.toNat + (2 ^ 32 - 1)) % 2 ^ 32 := by
    rw [BitVec.toNat_add]
    rfl
  unfold countdown
  rw [if_pos hlt, hback]
  rcases Nat.eq_zero_or_pos address.toNat with hzero | hpos
  · -- the address wraps around to the largest one
    rw [hzero, if_neg (by omega)]
    exact Nat.succ_pos 0
  · have hdown : (address.toNat + (2 ^ 32 - 1)) % 2 ^ 32 = address.toNat - 1 := by omega
    rw [hdown, if_pos (by omega)]
    omega

/-- The rounds that the loop makes at most: while there is no error every round uses up a call that
succeeds. -/
def roundsLeft (info : Info) (calls : σ → ℕ) (n : ℕ) (address : BitVec 32)
    (t : Thread σ Request) : ℕ :=
  if t.isError then countdown info address else 2 ^ 32 + 1 + (n - calls t.device)

/-- While an error is set no more rounds are left than there are addresses. -/
lemma countdown_le (info : Info) (address : BitVec 32) : countdown info address ≤ 2 ^ 32 := by
  have hlt : address.toNat < 2 ^ 32 := address.isLt
  unfold countdown
  split <;> omega

/-- Without an error the calls that succeed are left. -/
lemma Running.roundsLeft {t : Thread σ Request} (ht : Running calls n t) (info : Info)
    (address : BitVec 32) :
    roundsLeft info calls n address t = 2 ^ 32 + 1 + (n - calls t.device) :=
  if_neg (by simp [ht.isError])

/-- While an error is set the addresses down to zero are left. -/
lemma Stopped.roundsLeft {t : Thread σ Request} (ht : Stopped n t) (info : Info)
    (address : BitVec 32) : roundsLeft info calls n address t = countdown info address :=
  if_pos ht.isError

/-- A round below the size leaves fewer rounds. -/
lemma Made.yields_eraseRound {t : Thread σ Request} (ht : Made calls n 0 t)
    (h : FailsAt driver calls n) {address : BitVec 32} (hlt : address.toNat < info.size.toNat) :
    ∃ address' t', (eraseRound driver flags info address).Yields t (.inl address') t' ∧
      Made calls n 0 t' ∧ roundsLeft info calls n address' t' < roundsLeft info calls n address t := by
  rcases ht with ⟨hrun, -⟩ | hstop
  · have hmade : Made calls n (calls t.device + 1) (afterErase driver flags info address t) :=
      hrun.afterCall (h.request (eraseRequest flags info address) t.device)
    obtain ⟨⟨⟩, t', hwait, ht'⟩ := total_waitWhileBusy h _ _ hmade
    refine ⟨_, t', yields_eraseRound_of_lt hlt ((yields_systemCall hrun.isError _ _).mpr rfl) hwait,
      ht'.imp_left fun h => ⟨h.1, Nat.zero_le _⟩, ?_⟩
    rw [hrun.roundsLeft]
    rcases ht' with ⟨hrun', hmore⟩ | hstop'
    · have hbound := hrun'.bound
      rw [hrun'.roundsLeft]
      omega
    · rw [hstop'.roundsLeft]
      refine (countdown_le info _).trans_lt ?_
      omega
  · refine ⟨_, t, yields_eraseRound_of_lt hlt
      ((yields_systemCall_of_error hstop.isError _ _).mpr rfl)
      (yields_waitWhileBusy_of_stopped hstop), Or.inr hstop, ?_⟩
    rw [hstop.roundsLeft, hstop.roundsLeft, hstop.returnValue]
    exact countdown_lt hlt

/-- The loop ends, from every address. -/
lemma total_eraseLoop (h : FailsAt driver calls n) (info : Info) (address : BitVec 32) :
    Program.Total (Made calls n 0) (Program.iterate (eraseRound driver flags info) address)
      (fun _ => Made calls n 0) := by
  intro t ht
  refine Program.yields_iterate_of_measure (I := fun _ => Made calls n 0)
    (roundsLeft info calls n) (fun address t ht => ?_) ht
  rcases lt_or_ge address.toNat info.size.toNat with hlt | hge
  · obtain ⟨address', t', hy, hnext⟩ := ht.yields_eraseRound h hlt
    exact ⟨.inl address', t', hy, hnext⟩
  · exact ⟨.inr (), t, yields_eraseRound_of_le t hge, ht⟩

/-! ## The call -/

/-- An attribute request is made or skipped. -/
lemma total_setAttributes (h : FailsAt driver calls n) (a : Attributes) :
    Program.Total (Made calls n 0) (setAttributes driver a) (fun _ => Made calls n 0) := by
  rintro t (⟨hrun, -⟩ | hstop)
  · refine ⟨(), _, (yields_systemCall hrun.isError _ _).mpr rfl, ?_⟩
    exact (hrun.afterCall (h.request a t.device)).imp_left fun h => ⟨h.1, Nat.zero_le _⟩
  · exact ⟨(), t, (yields_systemCall_of_error hstop.isError _ _).mpr rfl, Or.inr hstop⟩

/-- The query for the record of the drive is made, whatever record it leaves. -/
lemma total_getInfo (h : FailsAt driver calls n) (uninitialized : Info) :
    Program.Total (Running calls n) (getInfo driver uninitialized) (fun _ => Made calls n 0) := by
  intro t hrun
  refine ⟨_, _, ((yields_query hrun.isError _ _ _).mpr ⟨rfl, rfl⟩).bind
    (Program.Yields.pure _ _), ?_⟩
  exact (hrun.afterCall (h.getInfo t.device)).imp_left fun h => ⟨h.1, Nat.zero_le _⟩

/-- `erase_device` ends whichever of its device calls is the first to fail.  Either its calls were
too few to reach the one that fails, or that one was its last request, and its error is still set
on return. -/
theorem eraseDevice_stops_at_failure (h : FailsAt driver calls n) (flags : Flags)
    (uninitialized : Info) {d : σ} (hd : calls d = 0) :
    ∃ t, (eraseDevice driver flags uninitialized).Yields (Thread.start d) () t ∧
      (Running calls n t ∨ Stopped n t) := by
  have hcall : Program.Total (Running calls n) (eraseDevice driver flags uninitialized)
      (fun _ => Made calls n 0) := by
    refine Program.Total.bind (total_getInfo h uninitialized) fun info => ?_
    by_cases hflag : info.hasFlag flags.eraseDevice = true
    · rw [if_pos hflag]
      exact total_setAttributes h _
    · rw [if_neg hflag]
      exact total_eraseLoop h info 0
  obtain ⟨⟨⟩, t, hy, ht⟩ := hcall (Thread.start d) (running_start hd)
  exact ⟨t, hy, ht.imp_left And.left⟩

/-- The answer of the call number `k` if the call number `n` is the first to fail. -/
def answerBefore (n : ℕ) (success : ℤ) (k : ℕ) : ℤ := if k < n then success else -1

/-- A driver that counts its calls, the call number `n` of which is the first to fail. -/
def failingDriver (info : Info) (n : ℕ) : Driver ℕ where
  onGetInfo k := ((answerBefore n 0 k, info), k + 1)
  onSetAttributes _ k := (answerBefore n 512 k, k + 1)
  onIsBusy k := (answerBefore n 0 k, k + 1)

/-- These answers succeed before the call number `n` and fail from then on. -/
lemma numbered_answerBefore (n : ℕ) {success : ℤ} (hsuccess : 0 ≤ success) (k : ℕ) :
    Numbered id n k (answerBefore n success k) (k + 1) where
  counted := rfl
  succeeds hlt := hsuccess.trans_eq (if_pos hlt).symm
  fails heq := (if_neg heq.not_lt).trans_lt (by norm_num)

/-- This driver fails at this call. -/
lemma failsAt_failingDriver (info : Info) (n : ℕ) : FailsAt (failingDriver info n) id n where
  getInfo k := numbered_answerBefore n le_rfl k
  request _ k := numbered_answerBefore n (by norm_num) k
  poll k := numbered_answerBefore n le_rfl k

/-- A drive of 16 blocks of 512 bytes whose second erase request fails. -/
theorem eraseDevice_stops_at_second_request :
    ∃ t, (eraseDevice (failingDriver (Info.mk 0 0 0 512#16 16#32 0 0 0 0 0) 3) ⟨4#32, 8#32⟩
        (Info.mk 0 0 0 0 0 0 0 0 0 0)).Yields (Thread.start 0) () t ∧
      (Running id 3 t ∨ Stopped 3 t) :=
  eraseDevice_stops_at_failure (failsAt_failingDriver _ 3) _ _ rfl

end HalAPI.Drive
