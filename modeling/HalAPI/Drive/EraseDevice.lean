import HalAPI.Drive.Drive

/-!
# `Drive::erase_device`

Two questions about the loop of `erase_device`, for a drive that does not erase itself.

* Does a successful return mean that as many bytes were reported erased as the drive holds?
  `Drive::Info::size` multiplies in 32 bits, so it is the capacity exactly below 4 GiB
  (`size_counts_reported_bytes_iff`).
* Does the loop erase a drive that takes a request as the absolute address range
  `[start, stop)`?  It passes the size of a block as the end of every range, whatever the start.
  So it gets past the first block of no drive, and it erases the drive exactly if that
  block is the only one (`eraseDevice_erases_iff`).

Both answers rest on an invariant of the loop: `LoopInvariant` names what has to be shown of
one, and `LoopInvariant.triple_eraseDevice` is the rule for the whole call.
-/

namespace HalAPI.Drive

open Foundation

variable {σ : Type} {driver : Driver σ} {flags : Flags} {info : Info}

/-! ## The rules of the loop and of the call -/

/-- What the driver answers to the request of a round, and the device after it. -/
def eraseAnswer (driver : Driver σ) (flags : Flags) (info : Info) (address : BitVec 32) (d : σ) :
    ℤ × σ :=
  driver.onSetAttributes (eraseRequest flags info address) d

/-- The thread after the request of a round. -/
def afterErase (driver : Driver σ) (flags : Flags) (info : Info) (address : BitVec 32)
    (t : Thread σ Request) : Thread σ Request :=
  t.afterCall (.setAttributes (eraseRequest flags info address))
    (eraseAnswer driver flags info address t.device).1
    (eraseAnswer driver flags info address t.device).2

/-- The thread after the query for the record of the drive. -/
def afterGetInfo (driver : Driver σ) (d : σ) : Thread σ Request :=
  (Thread.start d).afterCall .getInfo (driver.onGetInfo d).1.1 (driver.onGetInfo d).2

/-- An assertion about the address of the loop and the thread that every round keeps, and that
gives `Q` when the loop is through.  It says nothing about a thread with an error. -/
structure LoopInvariant (driver : Driver σ) (flags : Flags) (info : Info)
    (I : BitVec 32 → Thread σ Request → Prop) (Q : Thread σ Request → Prop) : Prop where
  error : ∀ address t, t.isError = true → I address t
  request : ∀ address t, I address t → t.isError = false → address.toNat < info.size.toNat →
    0 ≤ (eraseAnswer driver flags info address t.device).1 →
      I (address + BitVec.ofInt 32 (eraseAnswer driver flags info address t.device).1)
        (afterErase driver flags info address t)
  poll : ∀ address t, I address t → t.isError = false → I address (afterPoll driver t)
  exit : ∀ address t, I address t → info.size.toNat ≤ address.toNat → Q t

namespace LoopInvariant

variable {I : BitVec 32 → Thread σ Request → Prop} {Q : Thread σ Request → Prop}

/-- A round keeps an invariant of the loop. -/
lemma triple_eraseRound (h : LoopInvariant driver flags info I Q) (address : BitVec 32) :
    Program.Triple (I address) (eraseRound driver flags info address)
      (fun r t => Sum.elim (I · t) (fun _ => Q t) r) (fun _ => True) := by
  unfold eraseRound
  by_cases hlt : address.setWidth 64 < info.size
  · rw [if_pos hlt]
    rw [setWidth_lt_size_iff] at hlt
    have hrequest : Program.Triple (I address)
        (setAttributes driver (eraseRequest flags info address))
        (fun _ t => I (address + BitVec.ofInt 32 t.returnValue) t) (fun _ => True) := by
      refine triple_systemCall _ _ (fun t _ he => h.error _ t he) fun t ht he => ?_
      by_cases hres : (eraseAnswer driver flags info address t.device).1 < 0
      · exact h.error _ _ (decide_eq_true hres)
      · have hnext := h.request address t ht he hlt (not_lt.mp hres)
        have hvalue : (afterErase driver flags info address t).returnValue =
            (eraseAnswer driver flags info address t.device).1 := if_neg hres
        rw [← hvalue] at hnext
        exact hnext
    have hcount : Program.Triple (fun t => I (address + BitVec.ofInt 32 t.returnValue) t)
        returnValue (fun count t => I (address + BitVec.ofInt 32 count) t) (fun _ => True) :=
      triple_returnValue fun t ht => ht
    have hwait : ∀ count, Program.Triple (I (address + BitVec.ofInt 32 count))
        (waitWhileBusy driver) (fun _ => I (address + BitVec.ofInt 32 count)) (fun _ => True) :=
      fun count => (triple_waitWhileBusy (h.poll _)).weaken (fun _ h => h) (fun _ _ h => h)
        fun _ _ => trivial
    refine Program.Triple.bind hrequest fun _ => ?_
    refine Program.Triple.bind hcount fun count => ?_
    exact Program.Triple.bind (hwait count) fun _ => Program.Triple.pure fun t ht => ht
  · rw [if_neg hlt]
    rw [setWidth_lt_size_iff, not_lt] at hlt
    exact Program.Triple.pure fun t ht => h.exit address t ht hlt

/-- An invariant of the loop that holds once the driver has described the drive gives `Q` at the
end of the call, if `Q` says nothing about a thread with an error. -/
lemma triple_eraseDevice (h : LoopInvariant driver flags info I Q)
    (herror : ∀ t, t.isError = true → Q t) (hflag : info.hasFlag flags.eraseDevice = false)
    {d : σ} (hinfo : (driver.onGetInfo d).1.2 = info)
    (hstart : I 0 (afterGetInfo driver d)) (uninitialized : Info) :
    Program.Triple (fun t => t = Thread.start d) (eraseDevice driver flags uninitialized)
      (fun _ => Q) (fun _ => True) := by
  have hquery : Program.Triple (fun t => t = Thread.start d)
      (query .getInfo driver.onGetInfo)
      (fun filled t => t.isError = false → filled = some info ∧ I 0 t) (fun _ => True) := by
    refine triple_query _ _ ?_ ?_
    · rintro t rfl he
      exact absurd he (by simp)
    · rintro t rfl - hres
      have hok : 0 ≤ (driver.onGetInfo d).1.1 := by simpa using hres
      refine ⟨?_, hstart⟩
      rw [Thread.start_device, if_neg (not_lt.mpr hok), hinfo]
  have hget : Program.Triple (fun t => t = Thread.start d) (getInfo driver uninitialized)
      (fun i t => t.isError = false → i = info ∧ I 0 t) (fun _ => True) := by
    refine Program.Triple.bind hquery fun filled => Program.Triple.pure fun t ht hok => ?_
    obtain ⟨rfl, hI⟩ := ht hok
    exact ⟨rfl, hI⟩
  refine Program.Triple.bind hget fun i => ?_
  by_cases hi : i.hasFlag flags.eraseDevice = true
  · rw [if_pos hi]
    -- the record has the flag, so it is not the drive's, and the query failed
    have hne : i ≠ info := by
      rintro rfl
      simp [hflag] at hi
    exact triple_systemCall _ _ (fun t _ he => herror t he) fun t ht he => absurd (ht he).1 hne
  · rw [if_neg hi]
    rcases eq_or_ne i info with rfl | hne
    · have hloop := Program.Triple.iterate (I := I) (Q := fun _ => Q) h.triple_eraseRound
        (fun _ _ _ => trivial) 0
      refine hloop.weaken (fun t ht => ?_) (fun _ _ hq => hq) fun _ hr => hr
      cases he : t.isError with
      | true => exact h.error 0 t he
      | false => exact (ht he).2
    · -- the query failed, and the error stays
      have hstays := (inert_eraseLoop driver flags i 0).keeps fun _ => True
      refine hstays.weaken (fun t ht => ⟨?_, trivial⟩) (fun _ t ht => herror t ht.1)
        fun _ _ => trivial
      by_contra hok
      exact hne (ht (by simpa using hok)).1

end LoopInvariant

/-! ## Counting the reported bytes -/

/-- The address the loop is at, as long as there is no error, is the sum of the reported counts
modulo `2 ^ 32`. -/
def Counted (address : BitVec 32) (t : Thread σ Request) : Prop :=
  t.isError = false →
    0 ≤ reportedBytes t.issued ∧ address = BitVec.ofInt 32 (reportedBytes t.issued)

/-- The size of the drive is at most the sum of the reported counts. -/
def Covered (info : Info) (t : Thread σ Request) : Prop :=
  t.isError = false → (info.size.toNat : ℤ) ≤ reportedBytes t.issued

/-- When the loop is through, at least the size of the drive was reported erased. -/
lemma covered_of_counted {address : BitVec 32} {t : Thread σ Request} (ht : Counted address t)
    (hexit : info.size.toNat ≤ address.toNat) : Covered info t := by
  intro he
  obtain ⟨hpos, haddr⟩ := ht he
  have hmod : (address.toNat : ℤ) = reportedBytes t.issued % 2 ^ 32 := by
    rw [haddr, BitVec.toNat_ofInt]
    exact Int.toNat_of_nonneg (Int.emod_nonneg _ (by norm_num))
  calc (info.size.toNat : ℤ) ≤ address.toNat := by exact_mod_cast hexit
    _ = reportedBytes t.issued % 2 ^ 32 := hmod
    _ ≤ reportedBytes t.issued := by omega

/-- The count is an invariant of the loop. -/
lemma loopInvariant_counted : LoopInvariant driver flags info Counted (Covered info) where
  error _ _ he hok := absurd hok (by simp [he])
  request address t ht he _ hcount := by
    intro _
    obtain ⟨hpos, haddr⟩ := ht he
    have hsum : reportedBytes (afterErase driver flags info address t).issued =
        (eraseAnswer driver flags info address t.device).1 + reportedBytes t.issued :=
      reportedBytes_setAttributes _ _ _
    rw [hsum]
    refine ⟨add_nonneg hcount hpos, ?_⟩
    rw [haddr, BitVec.ofInt_add, BitVec.add_comm]
  poll _ _ ht he _ := ht he
  exit _ _ ht hexit := covered_of_counted ht hexit

/-- A successful return means that at least the size of the drive was reported erased. -/
lemma size_le_reportedBytes {uninitialized : Info} {d : σ} {t : Thread σ Request}
    (hinfo : (driver.onGetInfo d).1.2 = info) (hflag : info.hasFlag flags.eraseDevice = false)
    (hy : (eraseDevice driver flags uninitialized).Yields (Thread.start d) () t)
    (he : t.isError = false) : (info.size.toNat : ℤ) ≤ reportedBytes t.issued := by
  have herror : ∀ t : Thread σ Request, t.isError = true → Covered info t :=
    fun t he hok => absurd hok (by simp [he])
  have hstart : Counted 0 (afterGetInfo driver d) := fun _ => ⟨le_rfl, rfl⟩
  have hend := loopInvariant_counted.triple_eraseDevice herror hflag hinfo hstart uninitialized
  exact hend.of_yields rfl hy he

/-! ## Rounds that succeed -/

/-- A round below the size goes on from where the value that its request left says. -/
lemma yields_eraseRound_of_lt {address : BitVec 32} {t t₁ t' : Thread σ Request}
    (hlt : address.toNat < info.size.toNat)
    (hrequest : (setAttributes driver (eraseRequest flags info address)).Yields t () t₁)
    (hwait : (waitWhileBusy driver).Yields t₁ () t') :
    (eraseRound driver flags info address).Yields t
      (.inl (address + BitVec.ofInt 32 t₁.returnValue)) t' := by
  rw [eraseRound, if_pos ((setWidth_lt_size_iff address info).mpr hlt)]
  refine hrequest.bind (((yields_returnValue _).mpr ⟨rfl, rfl⟩).bind ?_)
  exact hwait.bind (Program.Yields.pure _ _)

/-- A round whose request succeeds goes on from where the returned count says. -/
lemma yields_eraseRound {address : BitVec 32} {t t' : Thread σ Request} (he : t.isError = false)
    (hlt : address.toNat < info.size.toNat)
    (hres : 0 ≤ (eraseAnswer driver flags info address t.device).1)
    (hwait : (waitWhileBusy driver).Yields (afterErase driver flags info address t) () t') :
    (eraseRound driver flags info address).Yields t (.inl (address +
      BitVec.ofInt 32 (eraseAnswer driver flags info address t.device).1)) t' := by
  have hvalue : (afterErase driver flags info address t).returnValue =
      (eraseAnswer driver flags info address t.device).1 := if_neg (not_lt.mpr hres)
  rw [← hvalue]
  exact yields_eraseRound_of_lt hlt ((yields_systemCall he _ _).mpr rfl) hwait

/-- A round at an address past the end ends the loop. -/
lemma yields_eraseRound_of_le {address : BitVec 32} (t : Thread σ Request)
    (hle : info.size.toNat ≤ address.toNat) :
    (eraseRound driver flags info address).Yields t (.inr ()) t := by
  rw [eraseRound, if_neg (by rw [setWidth_lt_size_iff]; omega)]
  simp

/-- A successful query returns the driver's record. -/
lemma yields_getInfo {d : σ} (hinfo : (driver.onGetInfo d).1.2 = info)
    (hres : 0 ≤ (driver.onGetInfo d).1.1) (uninitialized : Info) :
    (getInfo driver uninitialized).Yields (Thread.start d) info (afterGetInfo driver d) := by
  have hquery : (query Request.getInfo driver.onGetInfo).Yields (Thread.start d) (some info)
      (afterGetInfo driver d) := by
    refine (yields_query (by simp) _ _ _).mpr ⟨?_, rfl⟩
    rw [Thread.start_device, if_neg (not_lt.mpr hres), hinfo]
  exact hquery.bind (Program.Yields.pure _ _)

/-- Once the driver has described a drive that does not erase itself, the call is its loop. -/
lemma yields_eraseDevice {d : σ} (hinfo : (driver.onGetInfo d).1.2 = info)
    (hres : 0 ≤ (driver.onGetInfo d).1.1) (hflag : info.hasFlag flags.eraseDevice = false)
    (uninitialized : Info) {t : Thread σ Request}
    (hloop : (Program.iterate (eraseRound driver flags info) 0).Yields (afterGetInfo driver d) ()
      t) :
    (eraseDevice driver flags uninitialized).Yields (Thread.start d) () t := by
  refine (yields_getInfo hinfo hres uninitialized).bind ?_
  simpa [hflag] using hloop

/-- What the call yields, its loop yields. -/
lemma yields_loop_of_eraseDevice {d : σ} (hinfo : (driver.onGetInfo d).1.2 = info)
    (hres : 0 ≤ (driver.onGetInfo d).1.1) (hflag : info.hasFlag flags.eraseDevice = false)
    {uninitialized : Info} {t : Thread σ Request}
    (hy : (eraseDevice driver flags uninitialized).Yields (Thread.start d) () t) :
    (Program.iterate (eraseRound driver flags info) 0).Yields (afterGetInfo driver d) () t := by
  rw [eraseDevice, Program.yields_bind] at hy
  obtain ⟨i, t₁, hget, hloop⟩ := hy
  obtain ⟨rfl, rfl⟩ := hget.unique (yields_getInfo hinfo hres uninitialized)
  simpa [hflag] using hloop

/-- Moving an address on by a count that does not overflow adds the count. -/
lemma toNat_add_ofInt {address : BitVec 32} {n : ℕ} (h : address.toNat + n < 2 ^ 32) :
    (address + BitVec.ofInt 32 n).toNat = address.toNat + n := by
  rw [BitVec.ofInt_natCast, BitVec.toNat_add, BitVec.toNat_ofNat, Nat.add_mod_mod]
  exact Nat.mod_eq_of_lt h

/-! ### A driver that reports one byte at a time -/

/-- A driver that reports one byte for every request and is never busy. -/
def reportsOne (info : Info) : Driver Unit where
  onGetInfo _ := ((0, info), ())
  onSetAttributes _ _ := (1, ())
  onIsBusy _ := (0, ())

/-- Without an error, every byte up to the address was reported. -/
def ReportedUpTo (info : Info) (address : BitVec 32) (t : Thread Unit Request) : Prop :=
  t.isError = false ∧ reportedBytes t.issued = address.toNat ∧ address.toNat ≤ info.size.toNat

/-- A round with this driver reports the byte at the address. -/
lemma yields_eraseRound_reportsOne {address : BitVec 32} {t : Thread Unit Request}
    (ht : ReportedUpTo info address t) (hlt : address.toNat < info.size.toNat) :
    ∃ address' t', (eraseRound (reportsOne info) flags info address).Yields t (.inl address') t' ∧
      ReportedUpTo info address' t' ∧ address'.toNat = address.toNat + 1 := by
  obtain ⟨he, hcount, -⟩ := ht
  have hsize : info.size.toNat < 2 ^ 32 := by
    rw [toNat_size]
    exact Nat.mod_lt _ (by norm_num)
  have hnext : (address + BitVec.ofInt 32 (1 : ℕ)).toNat = address.toNat + 1 :=
    toNat_add_ofInt (by omega)
  have hone : (eraseAnswer (reportsOne info) flags info address t.device).1 = 1 := rfl
  have hrequest : reportedBytes (afterErase (reportsOne info) flags info address t).issued =
      address.toNat + 1 := by
    rw [afterErase, Thread.afterCall_issued, reportedBytes_setAttributes, hone, hcount, add_comm]
  obtain ⟨t', hwait, he', hcount'⟩ := yields_waitWhileBusy (reportsOne info)
    (I := fun t' => reportedBytes t'.issued = address.toNat + 1)
    (fun t' ht' => ⟨le_rfl, ht'⟩) 0 (t := afterErase (reportsOne info) flags info address t) rfl
    hrequest rfl
  have hround := yields_eraseRound he hlt (by rw [hone]; norm_num) hwait
  refine ⟨address + BitVec.ofInt 32 (1 : ℕ), t', hround, ⟨he', ?_, ?_⟩, hnext⟩
  · rw [hcount', hnext]
    push_cast
    rfl
  · rw [hnext]
    exact hlt

/-- With a driver that reports one byte at a time the call succeeds when exactly the size of the
drive has been reported. -/
lemma yields_eraseDevice_reportsOne (hflag : info.hasFlag flags.eraseDevice = false)
    (uninitialized : Info) :
    ∃ t, (eraseDevice (reportsOne info) flags uninitialized).Yields (Thread.start ()) () t ∧
      t.isError = false ∧ reportedBytes t.issued = info.size.toNat := by
  have hround : ∀ address t, ReportedUpTo info address t →
      ∃ r t', (eraseRound (reportsOne info) flags info address).Yields t r t' ∧
        Sum.elim (fun address' => ReportedUpTo info address' t' ∧
            info.size.toNat - address'.toNat < info.size.toNat - address.toNat)
          (fun _ => t'.isError = false ∧ reportedBytes t'.issued = info.size.toNat) r := by
    intro address t ht
    rcases lt_or_ge address.toNat info.size.toNat with hlt | hge
    · obtain ⟨address', t', hy, ht', hnext⟩ := yields_eraseRound_reportsOne ht hlt
      exact ⟨.inl address', t', hy, ht', by omega⟩
    · obtain ⟨he, hcount, hle⟩ := ht
      refine ⟨.inr (), t, yields_eraseRound_of_le t hge, he, ?_⟩
      rw [hcount, le_antisymm hle hge]
  have hstart : ReportedUpTo info 0 (afterGetInfo (reportsOne info) ()) :=
    ⟨rfl, rfl, Nat.zero_le _⟩
  obtain ⟨⟨⟩, t, hloop, ht⟩ := Program.yields_iterate_of_measure
    (Q := fun _ t => t.isError = false ∧ reportedBytes t.issued = info.size.toNat)
    (fun (address : BitVec 32) _ => info.size.toNat - address.toNat) hround hstart
  exact ⟨t, yields_eraseDevice rfl le_rfl hflag uninitialized hloop, ht⟩

/-! ### Success and the reported bytes -/

/-- Every successful erasure of a drive described by `info` reports at least `bytes` bytes. -/
def SuccessReports (flags : Flags) (info : Info) (bytes : ℕ) : Prop :=
  ∀ (σ : Type) (driver : Driver σ) (d : σ) (uninitialized : Info) (t : Thread σ Request),
    (driver.onGetInfo d).1.2 = info →
    (eraseDevice driver flags uninitialized).Yields (Thread.start d) () t →
    t.isError = false → (bytes : ℤ) ≤ reportedBytes t.issued

/-- Success reports exactly as many bytes as the size of the drive says. -/
lemma successReports_iff (hflag : info.hasFlag flags.eraseDevice = false) (bytes : ℕ) :
    SuccessReports flags info bytes ↔ bytes ≤ info.size.toNat := by
  constructor
  · intro h
    obtain ⟨t, hy, he, hcount⟩ := yields_eraseDevice_reportsOne hflag info
    have hle := h Unit (reportsOne info) () info t rfl hy he
    rw [hcount] at hle
    exact_mod_cast hle
  · intro h σ driver d uninitialized t hinfo hy he
    have hle := size_le_reportedBytes hinfo hflag hy he
    have hcast : (bytes : ℤ) ≤ info.size.toNat := by exact_mod_cast h
    exact hcast.trans hle

/-- When a successful return of `erase_device` can be relied on.  For every geometry,
`Info::size` is the capacity exactly below 4 GiB; for a valid drive that does not erase
itself, a success means that the capacity was reported erased exactly below 4 GiB as well, and
that some byte was reported erased exactly if the capacity is no multiple of 4 GiB. -/
theorem size_counts_reported_bytes_iff (flags : Flags) (info : Info) :
    (info.size.toNat = info.capacity ↔ info.capacity < 2 ^ 32) ∧
    (info.numWriteBlocks ≠ 0 → info.writeBlockSize ≠ 0 →
      info.hasFlag flags.eraseDevice = false →
        (SuccessReports flags info info.capacity ↔ info.capacity < 2 ^ 32) ∧
        (SuccessReports flags info 1 ↔ ¬ 2 ^ 32 ∣ info.capacity)) := by
  refine ⟨toNat_size_eq_capacity_iff info, fun _ _ hflag => ⟨?_, ?_⟩⟩
  · rw [successReports_iff hflag, ← toNat_size_eq_capacity_iff, toNat_size]
    exact ⟨fun h => le_antisymm (Nat.mod_le _ _) h, fun h => h.ge⟩
  · rw [successReports_iff hflag, toNat_size, Nat.dvd_iff_mod_eq_zero]
    exact Nat.one_le_iff_ne_zero

/-- The size is the capacity one block below 4 GiB, and zero at 4 GiB. -/
example : (Info.mk 0 0 0 0x8000#16 0x1FFFF#32 0 0 0 0 0).size.toNat = 0x1FFFF * 0x8000 ∧
    (Info.mk 0 0 0 0x8000#16 0x20000#32 0 0 0 0 0).size.toNat = 0 := by decide

/-- A successful erasure of a drive of 8 blocks of 512 bytes reports 4096 bytes. -/
theorem size_counts_reported_bytes_4KiB :
    (Info.mk 0 0 0 512#16 8#32 0 0 0 0 0).size.toNat = 4096 ∧
      SuccessReports ⟨4#32, 8#32⟩ (Info.mk 0 0 0 512#16 8#32 0 0 0 0 0) 4096 := by
  obtain ⟨hsize, hreports⟩ := size_counts_reported_bytes_iff ⟨4#32, 8#32⟩
    (Info.mk 0 0 0 512#16 8#32 0 0 0 0 0)
  refine ⟨hsize.mpr (by decide), ?_⟩
  exact (hreports (by decide) (by decide) (by decide)).1.mpr (by decide)

/-- A drive of 4 GiB, as 131072 blocks of 32768 bytes, has size 0, and erasing it can succeed
with no byte reported erased. -/
theorem eraseDevice_4GiB_without_request :
    (Info.mk 0 0 0 0x8000#16 0x20000#32 0 0 0 0 0).size.toNat ≠
        (Info.mk 0 0 0 0x8000#16 0x20000#32 0 0 0 0 0).capacity ∧
      ¬ SuccessReports ⟨4#32, 8#32⟩ (Info.mk 0 0 0 0x8000#16 0x20000#32 0 0 0 0 0) 1 := by
  refine ⟨by decide, ?_⟩
  rw [successReports_iff (by decide)]
  decide

/-! ## Erasing address ranges -/

/-- The driver of a drive described by `info` takes an erase request as the absolute address range
`[start, stop)`: it refuses an empty range, and otherwise erases a non-empty prefix of the
range and returns its length.  It answers queries and polls, and is busy for finitely many
polls after a request.  `erased` tells the bytes that are erased in a state. -/
structure ErasesRanges (driver : Driver σ) (flags : Flags) (info : Info) (erased : σ → Set ℕ) :
    Prop where
  getInfo : ∀ d, 0 ≤ (driver.onGetInfo d).1.1 ∧ (driver.onGetInfo d).1.2 = info ∧
    erased (driver.onGetInfo d).2 = erased d
  refuse : ∀ d a, a.oFlags = flags.eraseBlocks → a.stop ≤ a.start →
    (driver.onSetAttributes a d).1 < 0
  erase : ∀ d a, a.oFlags = flags.eraseBlocks → a.start < a.stop →
    ∃ n : ℕ, 0 < n ∧ a.start.toNat + n ≤ a.stop.toNat ∧ (driver.onSetAttributes a d).1 = n ∧
      erased (driver.onSetAttributes a d).2 =
        erased d ∪ Set.Ico a.start.toNat (a.start.toNat + n)
  poll : ∀ d, 0 ≤ (driver.onIsBusy d).1 ∧ erased (driver.onIsBusy d).2 = erased d
  calm : ∀ d, ∃ k, (driver.onIsBusy ((fun d => (driver.onIsBusy d).2)^[k] d)).1 = 0

/-- `erase_device` issues only requests for non-empty ranges inside the drive and returns
successfully with every byte of the drive erased. -/
def ErasesDevice (driver : Driver σ) (flags : Flags) (info : Info) (erased : σ → Set ℕ)
    (uninitialized : Info) (d : σ) : Prop :=
  ∃ t, (eraseDevice driver flags uninitialized).Yields (Thread.start d) () t ∧
    t.isError = false ∧
    (∀ r ∈ attributeRequests t.issued,
      r.1.start < r.1.stop ∧ r.1.stop.toNat ≤ info.capacity) ∧
    ∀ b, b < info.capacity → b ∈ erased t.device

section Ranges

variable {erased : σ → Set ℕ}

/-- `erase_blocks` erases a prefix of a range that is not empty, and returns its length. -/
lemma ErasesRanges.yields_eraseBlocks (h : ErasesRanges driver flags info erased)
    {start stop : BitVec 32} (hrange : start < stop) {t : Thread σ Request}
    (he : t.isError = false) :
    ∃ (n : ℕ) (t' : Thread σ Request), 0 < n ∧ start.toNat + n ≤ stop.toNat ∧
      (eraseBlocks driver flags start stop).Yields t () t' ∧ t'.isError = false ∧
      t'.returnValue = n ∧
      erased t'.device = erased t.device ∪ Set.Ico start.toNat (start.toNat + n) ∧
      attributeRequests t'.issued =
        ({ oFlags := flags.eraseBlocks, start := start, stop := stop }, (n : ℤ)) ::
          attributeRequests t.issued := by
  obtain ⟨n, hn, hnle, hcount, herase⟩ :=
    h.erase t.device { oFlags := flags.eraseBlocks, start := start, stop := stop } rfl hrange
  have hres : ¬ (n : ℤ) < 0 := not_lt.mpr (Int.natCast_nonneg n)
  refine ⟨n, _, hn, hnle, (yields_systemCall he _ _).mpr rfl, ?_, ?_, herase, ?_⟩
  · rw [Thread.afterCall_isError, hcount]
    exact decide_eq_false hres
  · rw [Thread.afterCall_returnValue, hcount, if_neg hres]
  · rw [Thread.afterCall_issued, attributeRequests_setAttributes, hcount]

/-- The end of every range is the size of a block. -/
lemma toNat_eraseRequest_stop (flags : Flags) (info : Info) (address : BitVec 32) :
    (eraseRequest flags info address).stop.toNat = info.writeBlockSize.toNat := by
  have hlt : info.writeBlockSize.toNat < 2 ^ 16 := info.writeBlockSize.isLt
  rw [eraseRequest, BitVec.toNat_setWidth]
  exact Nat.mod_eq_of_lt (by omega)

/-! ### A drive of one block -/

/-- Without an error, every byte below the address is erased, and only non-empty ranges
inside the drive were requested. -/
def ErasedUpTo (info : Info) (erased : σ → Set ℕ) (address : BitVec 32) (t : Thread σ Request) :
    Prop :=
  t.isError = false ∧ address.toNat ≤ info.capacity ∧
    (∀ r ∈ attributeRequests t.issued,
      r.1.start < r.1.stop ∧ r.1.stop.toNat ≤ info.capacity) ∧
    ∀ b, b < address.toNat → b ∈ erased t.device

/-- On a drive of one block every round erases some more of the block. -/
lemma yields_eraseRound_ranges (h : ErasesRanges driver flags info erased)
    (hblock : info.capacity = info.writeBlockSize.toNat) {address : BitVec 32}
    {t : Thread σ Request} (ht : ErasedUpTo info erased address t)
    (hlt : address.toNat < info.size.toNat) :
    ∃ address' t', (eraseRound driver flags info address).Yields t (.inl address') t' ∧
      ErasedUpTo info erased address' t' ∧ address.toNat < address'.toNat := by
  obtain ⟨he, -, hissued, herased⟩ := ht
  have hcap : info.capacity < 2 ^ 16 := hblock ▸ info.writeBlockSize.isLt
  have hsize : info.size.toNat = info.capacity :=
    (toNat_size_eq_capacity_iff info).mpr (by omega)
  have hstop := toNat_eraseRequest_stop flags info address
  have hrange : (eraseRequest flags info address).start <
      (eraseRequest flags info address).stop := by
    rw [BitVec.lt_def, hstop]
    change address.toNat < _
    omega
  -- the request of a round is that of `erase_blocks`
  obtain ⟨n, t₁, hn, hnle, hrequest, hok, hvalue, herase, hadded⟩ := h.yields_eraseBlocks hrange he
  have hnle' : address.toNat + n ≤ info.capacity := by
    rw [hblock, ← hstop]
    exact hnle
  have hnext : (address + BitVec.ofInt 32 n).toNat = address.toNat + n :=
    toNat_add_ofInt (by omega)
  obtain ⟨k, hcalm⟩ := h.calm t₁.device
  -- the wait touches neither the erased bytes nor the requests
  obtain ⟨t', hwait, he', herased', hissued'⟩ := yields_waitWhileBusy driver
    (I := fun t' => erased t'.device = erased t.device ∪ Set.Ico address.toNat (address.toNat + n) ∧
      attributeRequests t'.issued =
        (eraseRequest flags info address, (n : ℤ)) :: attributeRequests t.issued)
    (fun t' ht' => ⟨(h.poll t'.device).1, (h.poll t'.device).2.trans ht'.1, ht'.2⟩) k hok
    ⟨herase, hadded⟩ hcalm
  have hround := yields_eraseRound_of_lt hlt hrequest hwait
  rw [hvalue] at hround
  refine ⟨address + BitVec.ofInt 32 n, t', hround, ⟨he', ?_, ?_, ?_⟩, by omega⟩
  · rw [hnext]
    exact hnle'
  · intro r hr
    rw [hissued', List.mem_cons] at hr
    rcases hr with rfl | hbefore
    · exact ⟨hrange, by rw [hstop, hblock]⟩
    · exact hissued r hbefore
  · intro b hb
    rw [herased']
    rw [hnext] at hb
    rcases lt_or_ge b address.toNat with hbelow | habove
    · exact Or.inl (herased b hbelow)
    · exact Or.inr ⟨habove, hb⟩

/-- A drive of one block is erased. -/
lemma erasesDevice_of_one_block (h : ErasesRanges driver flags info erased)
    (hflag : info.hasFlag flags.eraseDevice = false)
    (hblock : info.capacity = info.writeBlockSize.toNat) (uninitialized : Info) (d : σ) :
    ErasesDevice driver flags info erased uninitialized d := by
  have hcap : info.capacity < 2 ^ 16 := hblock ▸ info.writeBlockSize.isLt
  have hsize : info.size.toNat = info.capacity :=
    (toNat_size_eq_capacity_iff info).mpr (by omega)
  obtain ⟨hres, hinfo, -⟩ := h.getInfo d
  have hround : ∀ address t, ErasedUpTo info erased address t →
      ∃ r t', (eraseRound driver flags info address).Yields t r t' ∧
        Sum.elim (fun address' => ErasedUpTo info erased address' t' ∧
            info.capacity - address'.toNat < info.capacity - address.toNat)
          (fun _ => ∃ address' : BitVec 32, info.capacity ≤ address'.toNat ∧
            ErasedUpTo info erased address' t') r := by
    intro address t ht
    rcases lt_or_ge address.toNat info.size.toNat with hlt | hge
    · obtain ⟨address', t', hy, ht', hnext⟩ := yields_eraseRound_ranges h hblock ht hlt
      exact ⟨.inl address', t', hy, ht', by omega⟩
    · exact ⟨.inr (), t, yields_eraseRound_of_le t hge, address, by omega, ht⟩
  have hstart : ErasedUpTo info erased 0 (afterGetInfo driver d) := by
    simp [ErasedUpTo, afterGetInfo, not_lt.mpr hres]
  obtain ⟨⟨⟩, t, hloop, address, haddr, he, -, hissued, herased⟩ :=
    Program.yields_iterate_of_measure
      (Q := fun _ t => ∃ address : BitVec 32, info.capacity ≤ address.toNat ∧
        ErasedUpTo info erased address t)
      (fun (address : BitVec 32) _ => info.capacity - address.toNat) hround hstart
  exact ⟨t, yields_eraseDevice hinfo hres hflag uninitialized hloop, he, hissued,
    fun b hb => herased b (by omega)⟩

/-! ### A drive of several blocks -/

/-- Without an error, the address the loop is at is at most the size of a block. -/
def InFirstBlock (info : Info) (address : BitVec 32) (t : Thread σ Request) : Prop :=
  t.isError = false → address.toNat ≤ info.writeBlockSize.toNat

/-- On a drive of several blocks the loop stays in the first block, and is through only with an
error. -/
lemma loopInvariant_inFirstBlock (h : ErasesRanges driver flags info erased)
    (hblocks : info.writeBlockSize.toNat < info.size.toNat) :
    LoopInvariant driver flags info (InFirstBlock info) (fun t => t.isError = true) where
  error _ _ he hok := absurd hok (by simp [he])
  request address t _ _ _ hcount := by
    intro _
    have hstop := toNat_eraseRequest_stop flags info address
    have hrange : (eraseRequest flags info address).start <
        (eraseRequest flags info address).stop := by
      by_contra hempty
      have hneg : (eraseAnswer driver flags info address t.device).1 < 0 :=
        h.refuse t.device _ rfl (BitVec.not_lt.mp hempty)
      exact absurd hcount (not_le.mpr hneg)
    obtain ⟨n, -, hnle, hn, -⟩ := h.erase t.device _ rfl hrange
    have hanswer : (eraseAnswer driver flags info address t.device).1 = n := hn
    have hinside : address.toNat + n ≤ info.writeBlockSize.toNat := hstop ▸ hnle
    have hlt : info.writeBlockSize.toNat < 2 ^ 16 := info.writeBlockSize.isLt
    rw [hanswer, toNat_add_ofInt (by omega)]
    exact hinside
  poll _ _ ht he _ := ht he
  exit address t ht hexit := by
    by_contra he
    have hle : address.toNat ≤ info.writeBlockSize.toNat := ht (by simpa using he)
    omega

/-- A drive of several blocks is never erased successfully. -/
lemma isError_of_blocks (h : ErasesRanges driver flags info erased)
    (hflag : info.hasFlag flags.eraseDevice = false)
    (hblocks : info.writeBlockSize.toNat < info.size.toNat) {uninitialized : Info} {d : σ}
    {t : Thread σ Request}
    (hy : (eraseDevice driver flags uninitialized).Yields (Thread.start d) () t) :
    t.isError = true := by
  obtain ⟨-, hinfo, -⟩ := h.getInfo d
  have hstart : InFirstBlock info 0 (afterGetInfo driver d) := fun _ => Nat.zero_le _
  have hend := (loopInvariant_inFirstBlock h hblocks).triple_eraseDevice (fun _ he => he) hflag
    hinfo hstart uninitialized
  exact hend.of_yields rfl hy

end Ranges

/-- When `erase_device` erases a drive that takes absolute address ranges: exactly if the drive
has a single block. -/
theorem eraseDevice_erases_iff {erased : σ → Set ℕ} (h : ErasesRanges driver flags info erased)
    (hflag : info.hasFlag flags.eraseDevice = false) (hblocks : info.numWriteBlocks ≠ 0)
    (hsize : info.writeBlockSize ≠ 0) (hcap : info.capacity < 2 ^ 32) (uninitialized : Info)
    (d : σ) :
    ErasesDevice driver flags info erased uninitialized d ↔ info.numWriteBlocks = 1 := by
  have hpos : 0 < info.writeBlockSize.toNat :=
    Nat.pos_of_ne_zero fun h0 => hsize (BitVec.eq_of_toNat_eq h0)
  have hnum : info.numWriteBlocks.toNat ≠ 0 := fun h0 => hblocks (BitVec.eq_of_toNat_eq h0)
  constructor
  · rintro ⟨t, hy, he, -⟩
    by_contra hone
    have hone' : info.numWriteBlocks.toNat ≠ 1 := fun h1 => hone (BitVec.eq_of_toNat_eq h1)
    have htwo : 2 * info.writeBlockSize.toNat ≤ info.capacity :=
      Nat.mul_le_mul_right _ (by omega)
    have hseveral : info.writeBlockSize.toNat < info.size.toNat := by
      rw [(toNat_size_eq_capacity_iff info).mpr hcap]
      omega
    have herr : t.isError = true := isError_of_blocks h hflag hseveral hy
    rw [he] at herr
    exact absurd herr (by simp)
  · intro hone
    have hblock : info.capacity = info.writeBlockSize.toNat := by simp [Info.capacity, hone]
    exact erasesDevice_of_one_block h hflag hblock uninitialized d

/-! ### A driver that erases whole ranges -/

/-- Erase a range as a whole, and keep it among the ranges erased. -/
def eraseRange (flags : Flags) (a : Attributes) (d : List (ℕ × ℕ)) : ℤ × List (ℕ × ℕ) :=
  if a.oFlags = flags.eraseBlocks ∧ a.start < a.stop then
    (((a.stop.toNat - a.start.toNat : ℕ) : ℤ), (a.start.toNat, a.stop.toNat) :: d)
  else (-1, d)

/-- A driver that erases every range it is asked for as a whole. -/
def rangeDriver (flags : Flags) (info : Info) : Driver (List (ℕ × ℕ)) where
  onGetInfo d := ((0, info), d)
  onSetAttributes := eraseRange flags
  onIsBusy d := (0, d)

/-- The bytes in some of the ranges. -/
def inRanges (d : List (ℕ × ℕ)) : Set ℕ := {b | ∃ r ∈ d, b ∈ Set.Ico r.1 r.2}

/-- This driver erases ranges. -/
lemma erasesRanges_rangeDriver (flags : Flags) (info : Info) :
    ErasesRanges (rangeDriver flags info) flags info inRanges where
  getInfo d := ⟨le_rfl, rfl, rfl⟩
  refuse d a _ hrange := by
    have hempty : eraseRange flags a d = (-1, d) :=
      if_neg fun h => absurd h.2 (BitVec.not_lt.mpr hrange)
    simp [rangeDriver, hempty]
  erase d a hflags hrange := by
    have hlt : a.start.toNat < a.stop.toNat := hrange
    have hnext : a.start.toNat + (a.stop.toNat - a.start.toNat) = a.stop.toNat := by omega
    have hwhole : eraseRange flags a d =
        (((a.stop.toNat - a.start.toNat : ℕ) : ℤ), (a.start.toNat, a.stop.toNat) :: d) :=
      if_pos ⟨hflags, hrange⟩
    refine ⟨a.stop.toNat - a.start.toNat, by omega, by omega, by simp [rangeDriver, hwhole], ?_⟩
    ext b
    simp [rangeDriver, hwhole, hnext, inRanges, or_comm]
  poll d := ⟨le_rfl, rfl⟩
  calm d := ⟨0, rfl⟩

/-- A drive of one block of 512 bytes is erased. -/
theorem eraseDevice_erases_one_block :
    ErasesDevice (rangeDriver ⟨4#32, 8#32⟩ (Info.mk 0 0 0 512#16 1#32 0 0 0 0 0)) ⟨4#32, 8#32⟩
      (Info.mk 0 0 0 512#16 1#32 0 0 0 0 0) inRanges (Info.mk 0 0 0 0 0 0 0 0 0 0) [] :=
  (eraseDevice_erases_iff (erasesRanges_rangeDriver _ _) (by decide) (by decide) (by decide)
    (by decide) _ _).mpr rfl

/-- A drive of two blocks of 512 bytes is not, though its driver erases every range. -/
theorem eraseDevice_fails_two_blocks :
    ErasesRanges (rangeDriver ⟨4#32, 8#32⟩ (Info.mk 0 0 0 512#16 2#32 0 0 0 0 0)) ⟨4#32, 8#32⟩
        (Info.mk 0 0 0 512#16 2#32 0 0 0 0 0) inRanges ∧
      ¬ ErasesDevice (rangeDriver ⟨4#32, 8#32⟩ (Info.mk 0 0 0 512#16 2#32 0 0 0 0 0))
        ⟨4#32, 8#32⟩ (Info.mk 0 0 0 512#16 2#32 0 0 0 0 0) inRanges
        (Info.mk 0 0 0 0 0 0 0 0 0 0) [] := by
  refine ⟨erasesRanges_rangeDriver _ _, ?_⟩
  rintro ⟨t, hy, he, -⟩
  have herr := isError_of_blocks (erasesRanges_rangeDriver _ _) (by decide) (by decide) hy
  rw [he] at herr
  exact absurd herr (by simp)

end HalAPI.Drive
