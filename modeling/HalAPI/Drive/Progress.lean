import HalAPI.Drive.EraseDevice

/-!
# Progress of `Drive::erase_device`

The loop of `erase_device` adds the count that a request returns to a 32-bit address and goes on
while the address is below the size of the drive.  Two things can keep it from getting
ahead: a count of zero, after which the same address is requested again, and a last count that
overshoots the end so far that the address wraps around.

`eraseDevice_advances_iff` says that these are the only two.
-/

namespace HalAPI.Drive

open Foundation

/-! ## A driver with a sequence of responses -/

section Responses

variable {σ : Type} {driver : Driver σ} {flags : Flags} {info : Info} {response : ℕ → ℕ}
  {served : σ → ℕ}

/-- The driver describes the drive by `info`, returns `response i` to the attribute request number
`i`, where `served` counts these requests, and is busy for finitely many polls only. -/
structure Responds (driver : Driver σ) (info : Info) (response : ℕ → ℕ) (served : σ → ℕ) :
    Prop where
  getInfo : ∀ d, 0 ≤ (driver.onGetInfo d).1.1 ∧ (driver.onGetInfo d).1.2 = info ∧
    served (driver.onGetInfo d).2 = served d
  request : ∀ a d, (driver.onSetAttributes a d).1 = response (served d) ∧
    served (driver.onSetAttributes a d).2 = served d + 1
  poll : ∀ d, 0 ≤ (driver.onIsBusy d).1 ∧ served (driver.onIsBusy d).2 = served d
  calm : ∀ d, ∃ k, (driver.onIsBusy ((fun d => (driver.onIsBusy d).2)^[k] d)).1 = 0

/-- The start addresses of the attribute requests, in the order in which they were made. -/
def startAddresses (issued : List (Request × ℤ)) : List (BitVec 32) :=
  ((attributeRequests issued).map fun r => r.1.start).reverse

/-- The call ends, the start addresses of its requests are strictly increasing, and each is below the
size of the drive. -/
def Advances (driver : Driver σ) (flags : Flags) (info uninitialized : Info) (d : σ) : Prop :=
  ∃ t, (eraseDevice driver flags uninitialized).Yields (Thread.start d) () t ∧
    (startAddresses t.issued).Pairwise (· < ·) ∧
    ∀ address ∈ startAddresses t.issued, address.setWidth 64 < info.size

/-- The sum of the first `n` responses. -/
def responseSum (response : ℕ → ℕ) (n : ℕ) : ℕ := ∑ i ∈ Finset.range n, response i

/-- The address of the loop after the first `n` responses. -/
def addressAfter (response : ℕ → ℕ) (n : ℕ) : BitVec 32 := BitVec.ofNat 32 (responseSum response n)

/-- There are no responses before the first. -/
@[simp] lemma responseSum_zero : responseSum response 0 = 0 := rfl

/-- One more response adds to the sum. -/
lemma responseSum_succ (n : ℕ) :
    responseSum response (n + 1) = responseSum response n + response n :=
  Finset.sum_range_succ response n

/-- More responses have a larger sum. -/
lemma responseSum_mono : Monotone (responseSum response) :=
  monotone_nat_of_le_succ fun n => by
    rw [responseSum_succ]
    exact Nat.le_add_right _ _

/-- A response moves the address on. -/
lemma addressAfter_succ (n : ℕ) : addressAfter response (n + 1) =
    addressAfter response n + BitVec.ofInt 32 (response n) := by
  unfold addressAfter
  rw [responseSum_succ, BitVec.ofNat_add, BitVec.ofInt_natCast]

/-- As long as the sum fits into 32 bits, it is the address. -/
lemma toNat_addressAfter {n : ℕ} (h : responseSum response n < 2 ^ 32) :
    (addressAfter response n).toNat = responseSum response n := by
  unfold addressAfter
  rw [BitVec.toNat_ofNat, Nat.mod_eq_of_lt h]

/-! ## The rounds -/

/-- Without an error, the loop is at the address that the responses so far lead to, after requests at
the addresses before it, each below the size. -/
structure AtAddress (info : Info) (response : ℕ → ℕ) (served : σ → ℕ) (address : BitVec 32)
    (t : Thread σ Request) : Prop where
  isError : t.isError = false
  address : address = addressAfter response (served t.device)
  requested : startAddresses t.issued =
    (List.range (served t.device)).map (addressAfter response)
  below : ∀ i < served t.device, (addressAfter response i).toNat < info.size.toNat

/-- A round below the size makes a request and goes on from the next address. -/
lemma AtAddress.yields_eraseRound (h : Responds driver info response served) {address : BitVec 32}
    {t : Thread σ Request} (ht : AtAddress info response served address t)
    (hlt : address.toNat < info.size.toNat) :
    ∃ address' t', (eraseRound driver flags info address).Yields t (.inl address') t' ∧
      AtAddress info response served address' t' ∧ served t'.device = served t.device + 1 := by
  obtain ⟨hanswer, hserved⟩ := h.request (eraseRequest flags info address) t.device
  have hres : 0 ≤ (eraseAnswer driver flags info address t.device).1 := by
    unfold eraseAnswer
    rw [hanswer]
    exact Int.natCast_nonneg _
  have hok : (afterErase driver flags info address t).isError = false :=
    decide_eq_false (not_lt.mpr hres)
  have hadded : startAddresses (afterErase driver flags info address t).issued =
      (List.range (served t.device + 1)).map (addressAfter response) := by
    have hnew : startAddresses (afterErase driver flags info address t).issued =
        startAddresses t.issued ++ [address] := by
      unfold startAddresses afterErase
      rw [Thread.afterCall_issued, attributeRequests_setAttributes, List.map_cons,
        List.reverse_cons]
      rfl
    rw [hnew, ht.requested, List.range_succ, List.map_append, List.map_singleton, ← ht.address]
  obtain ⟨k, hcalm⟩ := h.calm (eraseAnswer driver flags info address t.device).2
  -- the wait makes no attribute request
  obtain ⟨t', hwait, he', hserved', hissued'⟩ := yields_waitWhileBusy driver
    (I := fun t' => served t'.device = served t.device + 1 ∧ startAddresses t'.issued =
      (List.range (served t.device + 1)).map (addressAfter response))
    (fun t' ht' => ⟨(h.poll t'.device).1, (h.poll t'.device).2.trans ht'.1, ht'.2⟩) k hok
    ⟨hserved, hadded⟩ hcalm
  refine ⟨_, t', Drive.yields_eraseRound ht.isError hlt hres hwait, ⟨he', ?_, ?_, ?_⟩, hserved'⟩
  · rw [hserved', addressAfter_succ, ← ht.address]
    exact congrArg _ (congrArg _ hanswer)
  · rw [hserved', hissued']
  · intro i hi
    rw [hserved'] at hi
    rcases Nat.lt_succ_iff_lt_or_eq.mp hi with hbefore | rfl
    · exact ht.below i hbefore
    · rw [← ht.address]
      exact hlt

/-- The loop starts at the first address. -/
lemma atAddress_start (h : Responds driver info response served) {d : σ} (hd : served d = 0) :
    AtAddress info response served 0 (afterGetInfo driver d) := by
  obtain ⟨hres, -, hserved⟩ := h.getInfo d
  have hzero : served (afterGetInfo driver d).device = 0 := hserved.trans hd
  refine ⟨decide_eq_false (not_lt.mpr hres), ?_, ?_, ?_⟩
  · rw [hzero]
    rfl
  · rw [hzero]
    rfl
  · rw [hzero]
    exact fun i hi => absurd hi (Nat.not_lt_zero i)

/-- The responses move the loop from every address below the size to a later one, without an
overflow of the address. -/
def Suffices (info : Info) (response : ℕ → ℕ) : Prop :=
  ∃ m, (∀ i < m, 0 < response i) ∧ info.size.toNat ≤ responseSum response m ∧
    responseSum response m < 2 ^ 32

/-- If the responses suffice, the loop ends, and every request was made at a later address than
the one before. -/
lemma advances_of_suffices (h : Responds driver info response served)
    (hflag : info.hasFlag flags.eraseDevice = false) {d : σ} (hd : served d = 0)
    (hsuffices : Suffices info response) (uninitialized : Info) :
    Advances driver flags info uninitialized d := by
  obtain ⟨m, hpos, hsize, hfits⟩ := hsuffices
  have hsum : ∀ n ≤ m, (addressAfter response n).toNat = responseSum response n :=
    fun n hn => toNat_addressAfter ((responseSum_mono hn).trans_lt hfits)
  have hround : ∀ address t,
      AtAddress info response served address t ∧ served t.device ≤ m →
      ∃ r t', (eraseRound driver flags info address).Yields t r t' ∧
        Sum.elim (fun address' => (AtAddress info response served address' t' ∧
            served t'.device ≤ m) ∧ m - served t'.device < m - served t.device)
          (fun _ => ∃ address', AtAddress info response served address' t' ∧
            served t'.device ≤ m) r := by
    rintro address t ⟨ht, hle⟩
    rcases lt_or_ge address.toNat info.size.toNat with hlt | hge
    · obtain ⟨address', t', hy, ht', hnext⟩ := ht.yields_eraseRound h hlt
      have hne : served t.device ≠ m := by
        intro hm
        rw [ht.address, hsum _ hle, hm] at hlt
        omega
      exact ⟨.inl address', t', hy, ⟨ht', by omega⟩, by omega⟩
    · exact ⟨.inr (), t, yields_eraseRound_of_le t hge, address, ht, hle⟩
  obtain ⟨hres, hinfo, -⟩ := h.getInfo d
  have hstart := atAddress_start h hd
  have hzero : served (afterGetInfo driver d).device ≤ m :=
    ((h.getInfo d).2.2.trans hd).trans_le (Nat.zero_le m)
  obtain ⟨⟨⟩, t, hloop, address, ht, hle⟩ := Program.yields_iterate_of_measure
    (Q := fun _ t => ∃ address', AtAddress info response served address' t ∧ served t.device ≤ m)
    (fun _ t => m - served t.device) hround ⟨hstart, hzero⟩
  refine ⟨t, yields_eraseDevice hinfo hres hflag uninitialized hloop, ?_, ?_⟩
  · rw [ht.requested, List.pairwise_map]
    refine List.pairwise_lt_range.imp_of_mem fun {i j} _ hj hij => ?_
    have hjm : j < m := (List.mem_range.mp hj).trans_le hle
    have hstep : responseSum response i < responseSum response (i + 1) := by
      rw [responseSum_succ]
      exact Nat.lt_add_of_pos_right (hpos i (hij.trans hjm))
    rw [BitVec.lt_def, hsum i (hij.trans hjm).le, hsum j hjm.le]
    exact hstep.trans_le (responseSum_mono hij)
  · intro a ha
    rw [ht.requested] at ha
    obtain ⟨i, hi, rfl⟩ := List.mem_map.mp ha
    exact (setWidth_lt_size_iff _ info).mpr (ht.below i (List.mem_range.mp hi))

/-- A call that ends leaves its loop at an address past the size. -/
lemma atAddress_of_yields (h : Responds driver info response served)
    (hflag : info.hasFlag flags.eraseDevice = false) {d : σ} (hd : served d = 0)
    {uninitialized : Info} {t : Thread σ Request}
    (hy : (eraseDevice driver flags uninitialized).Yields (Thread.start d) () t) :
    ∃ address, AtAddress info response served address t ∧ info.size.toNat ≤ address.toNat := by
  obtain ⟨hres, hinfo, -⟩ := h.getInfo d
  have hround : ∀ address t, AtAddress info response served address t →
      ∃ r t', (eraseRound driver flags info address).Yields t r t' ∧
        Sum.elim (fun address' => AtAddress info response served address' t')
          (fun _ => ∃ address', AtAddress info response served address' t' ∧
            info.size.toNat ≤ address'.toNat) r := by
    intro address t ht
    rcases lt_or_ge address.toNat info.size.toNat with hlt | hge
    · obtain ⟨address', t', hy, ht', -⟩ := ht.yields_eraseRound h hlt
      exact ⟨.inl address', t', hy, ht'⟩
    · exact ⟨.inr (), t, yields_eraseRound_of_le t hge, address, ht, hge⟩
  have hloop := yields_loop_of_eraseDevice hinfo hres hflag hy
  exact Program.Yields.iterate_invariant
    (Q := fun _ t => ∃ address, AtAddress info response served address t ∧
      info.size.toNat ≤ address.toNat) hround (atAddress_start h hd) hloop

/-- If every request is made at a later address than the one before, the responses suffice. -/
lemma suffices_of_advances (h : Responds driver info response served)
    (hresponse : ∀ i, response i < 2 ^ 31) (hflag : info.hasFlag flags.eraseDevice = false) {d : σ}
    (hd : served d = 0) {uninitialized : Info}
    (hadvances : Advances driver flags info uninitialized d) : Suffices info response := by
  obtain ⟨t, hy, hincreasing, -⟩ := hadvances
  obtain ⟨address, ht, hend⟩ := atAddress_of_yields h hflag hd hy
  rw [ht.requested, List.pairwise_map] at hincreasing
  -- up to the last address, every response moves the address on
  have hnext : ∀ i < served t.device,
      (addressAfter response i).toNat < (addressAfter response (i + 1)).toNat := by
    intro i hi
    rcases Nat.lt_or_ge (i + 1) (served t.device) with hlt | hge
    · have hpair := List.pairwise_iff_getElem.mp hincreasing i (i + 1) (by simpa using hi)
        (by simpa using hlt) (Nat.lt_succ_self i)
      simpa [BitVec.lt_def] using hpair
    · have hlast : i + 1 = served t.device := by omega
      rw [hlast, ← ht.address]
      exact (ht.below i hi).trans_le hend
  have hsum : ∀ n ≤ served t.device,
      responseSum response n < 2 ^ 32 ∧ ∀ i < n, 0 < response i := by
    intro n
    induction n with
    | zero => exact fun _ => ⟨by simp, fun i hi => absurd hi (Nat.not_lt_zero i)⟩
    | succ n ih =>
      intro hn
      obtain ⟨hfits, hpos⟩ := ih (by omega)
      have hlt := hnext n (by omega)
      have hsmall := hresponse n
      rw [toNat_addressAfter hfits, addressAfter, BitVec.toNat_ofNat, responseSum_succ] at hlt
      have hnowrap : responseSum response n + response n < 2 ^ 32 := by omega
      rw [Nat.mod_eq_of_lt hnowrap] at hlt
      rw [responseSum_succ]
      refine ⟨hnowrap, fun i hi => ?_⟩
      rcases Nat.lt_succ_iff_lt_or_eq.mp hi with hbefore | rfl
      · exact hpos i hbefore
      · omega
  obtain ⟨hfits, hpos⟩ := hsum _ le_rfl
  refine ⟨served t.device, hpos, ?_, hfits⟩
  rw [← toNat_addressAfter hfits, ← ht.address]
  exact hend

/-- When `erase_device` gets ahead: exactly if the first responses that add up to the size of the
drive are all positive and their sum still fits into the 32 bits of the address. -/
theorem eraseDevice_advances_iff (h : Responds driver info response served)
    (hresponse : ∀ i, response i < 2 ^ 31) (hflag : info.hasFlag flags.eraseDevice = false) {d : σ}
    (hd : served d = 0) (uninitialized : Info) :
    Advances driver flags info uninitialized d ↔ ∃ m, (∀ i < m, 0 < response i) ∧
      info.size.toNat ≤ ∑ i ∈ Finset.range m, response i ∧
      ∑ i ∈ Finset.range m, response i < 2 ^ 32 :=
  ⟨suffices_of_advances h hresponse hflag hd,
    fun hsuffices => advances_of_suffices h hflag hd hsuffices uninitialized⟩

end Responses

/-! ## Drivers that count their requests -/

/-- A driver that returns `response i` to the request number `i` and is never busy. -/
def countingDriver (info : Info) (response : ℕ → ℕ) : Driver ℕ where
  onGetInfo d := ((0, info), d)
  onSetAttributes _ d := (response d, d + 1)
  onIsBusy d := (0, d)

/-- This driver returns these responses. -/
lemma responds_countingDriver (info : Info) (response : ℕ → ℕ) :
    Responds (countingDriver info response) info response id where
  getInfo _ := ⟨le_rfl, rfl, rfl⟩
  request _ _ := ⟨rfl, rfl⟩
  poll _ := ⟨le_rfl, rfl⟩
  calm _ := ⟨0, rfl⟩

/-- A drive of 4 blocks of 512 bytes, erased in requests of 1024 bytes. -/
theorem eraseDevice_advances_2KiB :
    Advances (countingDriver (Info.mk 0 0 0 512#16 4#32 0 0 0 0 0) fun _ => 1024) ⟨4#32, 8#32⟩
      (Info.mk 0 0 0 512#16 4#32 0 0 0 0 0) (Info.mk 0 0 0 0 0 0 0 0 0 0) 0 :=
  (eraseDevice_advances_iff (responds_countingDriver _ _) (by simp) (by decide) rfl _).mpr
    ⟨2, by decide, by decide, by decide⟩

/-- If the driver returns zero to every request, a drive of one block of 512 bytes is requested
at its first address for ever.  And if it returns `2 ^ 30`, the address wraps around on a drive of
512 bytes below 4 GiB. -/
theorem eraseDevice_stuck :
    ¬ Advances (countingDriver (Info.mk 0 0 0 512#16 1#32 0 0 0 0 0) fun _ => 0) ⟨4#32, 8#32⟩
        (Info.mk 0 0 0 512#16 1#32 0 0 0 0 0) (Info.mk 0 0 0 0 0 0 0 0 0 0) 0 ∧
      ¬ Advances (countingDriver (Info.mk 0 0 0 512#16 0x7FFFFF#32 0 0 0 0 0) fun _ => 2 ^ 30)
        ⟨4#32, 8#32⟩ (Info.mk 0 0 0 512#16 0x7FFFFF#32 0 0 0 0 0)
        (Info.mk 0 0 0 0 0 0 0 0 0 0) 0 := by
  have hsmall : (Info.mk 0 0 0 512#16 1#32 0 0 0 0 0).size.toNat = 512 := by decide
  have hlarge : (Info.mk 0 0 0 512#16 0x7FFFFF#32 0 0 0 0 0).size.toNat = 2 ^ 32 - 512 := by decide
  refine ⟨fun hadvances => ?_, fun hadvances => ?_⟩
  · obtain ⟨m, -, hsize, -⟩ := suffices_of_advances (responds_countingDriver _ _) (by simp)
      (by decide) rfl hadvances
    rw [hsmall] at hsize
    simp [responseSum] at hsize
  · obtain ⟨m, -, hsize, hfits⟩ := suffices_of_advances (responds_countingDriver _ _) (by simp)
      (by decide) rfl hadvances
    rw [hlarge] at hsize
    simp only [responseSum, Finset.sum_const, Finset.card_range, smul_eq_mul] at hsize hfits
    omega

end HalAPI.Drive
