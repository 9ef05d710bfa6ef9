import HalAPI.Api.ExecutionContext

/-!
# `I2C::scan`

`scan` asks every address of the bus for a byte.  For each it prepares a transfer with an attribute
request and reads, inside an error scope, and it enters the address in its result if the last
of the two calls returned one byte.

Nothing is assumed about a device that does not answer but that it fails in one of the ways a bus
has: the attribute request fails, the read fails, or the read delivers no byte, and it may fail
in another way every time it is asked.
-/

namespace HalAPI.I2C

open Foundation

/-! ## Data -/

/-- `mcu_pin_t` -/
structure McuPin where
  port : BitVec 8
  pin : BitVec 8
  deriving DecidableEq

/-- `I2C::Attributes` (`i2c_attr_t`), with the values its constructor sets -/
structure Attributes where
  oFlags : BitVec 32 := 0
  freq : BitVec 32 := 100000
  sda : McuPin := ⟨0xFF, 0xFF⟩
  scl : McuPin := ⟨0xFF, 0xFF⟩
  slaveAddr : BitVec 8 := 0
  deriving DecidableEq

/-- The requests of a bus. -/
inductive BusRequest where
  | setAttributes (attributes : Attributes)
  | read (size : ℕ)
  deriving DecidableEq

/-- How the driver of a bus answers the requests. -/
structure BusDriver (σ : Type) where
  onSetAttributes : Attributes → σ → ℤ × σ
  onRead : ℕ → σ → (ℤ × List (BitVec 8)) × σ

/-- `I2C::ScanResult` -/
abbrev ScanResult : Type := Vector (BitVec 8) 128

/-! ## The code -/

section Code

variable {σ : Type} (driver : BusDriver σ) (prepareData : BitVec 32)

/-- The attributes `prepare` passes to the driver. -/
def prepareAttributes (slaveAddr : BitVec 8) (oFlags : BitVec 32) : Attributes where
  oFlags := oFlags
  slaveAddr := slaveAddr

/-- `I2C::prepare` -/
def prepare (slaveAddr : BitVec 8) (oFlags : BitVec 32) : Program (Thread σ BusRequest) Unit :=
  systemCall (.setAttributes (prepareAttributes slaveAddr oFlags))
    (driver.onSetAttributes (prepareAttributes slaveAddr oFlags))

/-- `read(view)` of a view of `size` bytes -/
def read (size : ℕ) : Program (Thread σ BusRequest) (Option (List (BitVec 8))) :=
  query (.read size) (driver.onRead size)

/-- A round of the loop of `scan`: the transfer with an address, in its error scope. -/
def scanAddress (addr : BitVec 8) (result : ScanResult) : Program (Thread σ BusRequest) ScanResult :=
  errorScope do
    prepare driver addr prepareData
    let _ ← read driver 1
    let count ← returnValue
    return if count = 1 then result.setIfInBounds addr.toNat addr else result

/-- The loop `for (u8 addr = 1; addr < 128; addr++)` of `scan` from an address on. -/
def scanRound (s : BitVec 8 × ScanResult) :
    Program (Thread σ BusRequest) ((BitVec 8 × ScanResult) ⊕ ScanResult) := do
  if s.1 < 128 then
    let result ← scanAddress driver prepareData s.1 s.2
    return .inl (s.1 + 1, result)
  else
    return .inr s.2

/-- `I2C::scan` -/
def scan : Program (Thread σ BusRequest) ScanResult :=
  Program.iterate (scanRound driver prepareData) (1, Vector.replicate 128 0)

end Code

/-! ## A bus -/

/-- The devices with an address in `S` answer a prepared read with one byte.  The others fail, in
one of three ways. -/
structure Answers {σ : Type} (driver : BusDriver σ) (prepareData : BitVec 32) (S : Set (Fin 128)) :
    Prop where
  present : ∀ a ∈ S, ∀ d,
    0 ≤ (driver.onSetAttributes (prepareAttributes (BitVec.ofNat 8 a) prepareData) d).1 ∧
      (driver.onRead 1
        (driver.onSetAttributes (prepareAttributes (BitVec.ofNat 8 a) prepareData) d).2).1.1 = 1
  absent : ∀ a ∉ S, ∀ d,
    (driver.onSetAttributes (prepareAttributes (BitVec.ofNat 8 a) prepareData) d).1 < 0 ∨
      (driver.onRead 1
        (driver.onSetAttributes (prepareAttributes (BitVec.ofNat 8 a) prepareData) d).2).1.1 < 0 ∨
      (driver.onRead 1
        (driver.onSetAttributes (prepareAttributes (BitVec.ofNat 8 a) prepareData) d).2).1.1 = 0

/-- Of the addresses below a bound, from 1 on, the array lists those in `S` at their own place; it
is zero everywhere else. -/
def Listed (S : Set (Fin 128)) (bound : ℕ) (result : ScanResult) : Prop :=
  ∀ a : Fin 128, (1 ≤ a.val ∧ a.val < bound ∧ a ∈ S → result[a] = BitVec.ofNat 8 a) ∧
    (¬ (1 ≤ a.val ∧ a.val < bound ∧ a ∈ S) → result[a] = 0)

section Scan

variable {σ : Type} {driver : BusDriver σ} {prepareData : BitVec 32} {S : Set (Fin 128)}

/-- Nothing is listed at the start. -/
lemma listed_one (S : Set (Fin 128)) : Listed S 1 (Vector.replicate 128 0) := by
  intro a
  refine ⟨fun h => absurd h.2.1 (not_lt.mpr h.1), fun _ => ?_⟩
  simp

/-- An address that answers is entered at its place. -/
lemma Listed.enter {result : ScanResult} {a : Fin 128} (h : Listed S a.val result) (hpos : 1 ≤ a.val)
    (ha : a ∈ S) : Listed S (a.val + 1) (result.setIfInBounds a.val (BitVec.ofNat 8 a)) := by
  intro b
  have hentry : (result.setIfInBounds a.val (BitVec.ofNat 8 a))[b] =
      if a.val = b.val then BitVec.ofNat 8 a else result[b] :=
    Vector.getElem_setIfInBounds b.isLt
  rcases eq_or_ne a b with rfl | hne
  · rw [hentry, if_pos rfl]
    exact ⟨fun _ => rfl, fun hnot => absurd ⟨hpos, Nat.lt_succ_self _, ha⟩ hnot⟩
  · have hval : a.val ≠ b.val := fun heq => hne (Fin.ext heq)
    have hbelow : b.val < a.val + 1 ↔ b.val < a.val := by omega
    rw [hentry, if_neg hval, hbelow]
    exact h b

/-- An address that does not answer is passed over. -/
lemma Listed.pass {result : ScanResult} {a : Fin 128} (h : Listed S a.val result) (ha : a ∉ S) :
    Listed S (a.val + 1) result := by
  intro b
  rcases eq_or_ne a b with rfl | hne
  · refine ⟨fun hb => absurd hb.2.2 ha, fun _ => (h a).2 fun hb => ha hb.2.2⟩
  · have hval : a.val ≠ b.val := fun heq => hne (Fin.ext heq)
    have hbelow : b.val < a.val + 1 ↔ b.val < a.val := by omega
    rw [hbelow]
    exact h b

/-! ## The loop -/

/-- What `return_value()` is after the transfer with an address: the count of the read, if both
calls succeed. -/
def transferCount (driver : BusDriver σ) (prepareData : BitVec 32) (addr : BitVec 8) (d : σ) : ℤ :=
  let prepared := driver.onSetAttributes (prepareAttributes addr prepareData) d
  let delivered := driver.onRead 1 prepared.2
  if prepared.1 < 0 then -1 else if delivered.1.1 < 0 then -1 else delivered.1.1

variable (driver prepareData) in
/-- A round without an error on entry looks at the count of its own transfer, and leaves no error. -/
lemma yields_scanAddress {t : Thread σ BusRequest} (ht : t.isError = false) (addr : BitVec 8)
    (result : ScanResult) :
    ∃ t', (scanAddress driver prepareData addr result).Yields t
        (if transferCount driver prepareData addr t.device = 1
          then result.setIfInBounds addr.toNat addr else result) t' ∧ t'.isError = false := by
  set prepared := driver.onSetAttributes (prepareAttributes addr prepareData) t.device with hprepared
  set t₁ := t.afterCall (.setAttributes (prepareAttributes addr prepareData)) prepared.1 prepared.2
    with ht₁
  have hprepare : (prepare driver addr prepareData).Yields t () t₁ :=
    (yields_systemCall ht _ _).mpr rfl
  have hread : ∃ data t₂, (read driver 1).Yields t₁ data t₂ ∧
      t₂.returnValue = transferCount driver prepareData addr t.device := by
    unfold transferCount
    rw [← hprepared]
    by_cases hfail : prepared.1 < 0
    · have he : t₁.isError = true := decide_eq_true hfail
      refine ⟨none, t₁, (yields_query_of_error he _ _ _).mpr ⟨rfl, rfl⟩, ?_⟩
      rw [ht₁, Thread.afterCall_returnValue, if_pos hfail, if_pos hfail]
    · have he : t₁.isError = false := decide_eq_false hfail
      refine ⟨_, _, (yields_query he _ _ _).mpr ⟨rfl, rfl⟩, ?_⟩
      rw [Thread.afterCall_returnValue, if_neg hfail]
      rfl
  obtain ⟨data, t₂, hread, hcount⟩ := hread
  refine ⟨t₂.cleared, (yields_errorScope _ _ _ _).mpr ⟨t₂, ?_, rfl⟩, rfl⟩
  refine hprepare.bind (hread.bind (((yields_returnValue _).mpr ⟨rfl, rfl⟩).bind ?_))
  rw [hcount]
  exact Program.Yields.pure _ _

/-- A device that answers delivers one byte, and no other does. -/
lemma transferCount_eq_one_iff (h : Answers driver prepareData S) (a : Fin 128) (d : σ) :
    transferCount driver prepareData (BitVec.ofNat 8 a) d = 1 ↔ a ∈ S := by
  unfold transferCount
  dsimp only
  constructor
  · intro hcount
    by_contra ha
    rcases h.absent a ha d with hprepare | hread | hread
    · simp [hprepare] at hcount
    · rw [if_pos hread, ite_self] at hcount
      omega
    · rw [hread] at hcount
      split at hcount <;> simp at hcount
  · intro ha
    obtain ⟨hprepare, hread⟩ := h.present a ha d
    simp [not_lt.mpr hprepare, hread]

/-- Without an error, the addresses below the one the loop is at are listed. -/
structure ScannedTo (S : Set (Fin 128)) (s : BitVec 8 × ScanResult) (t : Thread σ BusRequest) :
    Prop where
  isError : t.isError = false
  start : 1 ≤ s.1.toNat
  bound : s.1.toNat ≤ 128
  listed : Listed S s.1.toNat s.2

/-- A round of the loop lists its address if it answers. -/
lemma ScannedTo.yields_scanRound {s : BitVec 8 × ScanResult} {t : Thread σ BusRequest}
    (ht : ScannedTo S s t) (h : Answers driver prepareData S) (hlt : s.1.toNat < 128) :
    ∃ s' t', (scanRound driver prepareData s).Yields t (.inl s') t' ∧ ScannedTo S s' t' ∧
      s'.1.toNat = s.1.toNat + 1 := by
  obtain ⟨t', hy, he⟩ := yields_scanAddress driver prepareData ht.isError s.1 s.2
  have haddr : s.1 = BitVec.ofNat 8 (⟨s.1.toNat, hlt⟩ : Fin 128) := by simp
  have hnext : (s.1 + 1).toNat = s.1.toNat + 1 := by
    rw [BitVec.toNat_add]
    exact Nat.mod_eq_of_lt (by simpa using by omega)
  have hcount := transferCount_eq_one_iff h ⟨s.1.toNat, hlt⟩ t.device
  rw [← haddr] at hcount
  refine ⟨(s.1 + 1, if transferCount driver prepareData s.1 t.device = 1
      then s.2.setIfInBounds s.1.toNat s.1 else s.2), t', ?_, ⟨he, ?_, ?_, ?_⟩, hnext⟩
  · rw [scanRound, if_pos (BitVec.lt_def.mpr hlt)]
    exact hy.bind (Program.Yields.pure _ _)
  · rw [hnext]
    exact Nat.le_add_left 1 _
  · rw [hnext]
    exact hlt
  · rw [hnext]
    dsimp only
    split
    · rename_i hone
      have hentered := ht.listed.enter (a := ⟨s.1.toNat, hlt⟩) ht.start (hcount.mp hone)
      rwa [← haddr] at hentered
    · rename_i hnone
      exact ht.listed.pass (a := ⟨s.1.toNat, hlt⟩) fun ha => hnone (hcount.mpr ha)

/-- `scan` ends without an error and lists exactly the devices that answer, each at its own
address. -/
theorem scan_lists_answering (h : Answers driver prepareData S) {t : Thread σ BusRequest}
    (ht : t.isError = false) :
    ∃ result t', (scan driver prepareData).Yields t result t' ∧ t'.isError = false ∧
      ∀ a : Fin 128, (1 ≤ a.val ∧ a ∈ S → result[a] = BitVec.ofNat 8 a) ∧
        (¬ (1 ≤ a.val ∧ a ∈ S) → result[a] = 0) := by
  have hround : ∀ (s : BitVec 8 × ScanResult) (t : Thread σ BusRequest), ScannedTo S s t →
      ∃ r t', (scanRound driver prepareData s).Yields t r t' ∧
        Sum.elim (fun s' => ScannedTo S s' t' ∧ 128 - s'.1.toNat < 128 - s.1.toNat)
          (fun result => t'.isError = false ∧ Listed S 128 result) r := by
    intro s t ht
    rcases ht.bound.lt_or_eq with hlt | heq
    · obtain ⟨s', t', hy, ht', hnext⟩ := ht.yields_scanRound h hlt
      exact ⟨.inl s', t', hy, ht', by omega⟩
    · refine ⟨.inr s.2, t, ?_, ht.isError, heq ▸ ht.listed⟩
      rw [scanRound, if_neg (by rw [BitVec.lt_def, heq]; decide)]
      simp
  have hstart : ScannedTo S (1, Vector.replicate 128 0) t :=
    ⟨ht, by decide, by decide, listed_one S⟩
  obtain ⟨result, t', hy, he, hlisted⟩ := Program.yields_iterate_of_measure
    (Q := fun result (t' : Thread σ BusRequest) => t'.isError = false ∧ Listed S 128 result)
    (fun (s : BitVec 8 × ScanResult) _ => 128 - s.1.toNat) hround hstart
  refine ⟨result, t', hy, he, fun a => ?_⟩
  have ha := hlisted a
  rwa [show a.val < 128 ↔ True from iff_of_true a.isLt trivial, true_and] at ha

end Scan

/-! ### A bus with two devices -/

/-- The devices of the bus. -/
def isPresent (slaveAddr : BitVec 8) : Bool := slaveAddr = 0x20 ∨ slaveAddr = 0x50

/-- A bus that keeps the address it is prepared for.  An address without a device fails in one of
the three ways, by its remainder modulo 3. -/
def twoDevices : BusDriver (BitVec 8) where
  onSetAttributes a _ :=
    (if isPresent a.slaveAddr then 0 else if a.slaveAddr % 3 = 0 then -1 else 0, a.slaveAddr)
  onRead _ d := ((if isPresent d then 1 else if d % 3 = 1 then -1 else 0, [0x5A]), d)

/-- The bus answers for its two devices. -/
lemma answers_twoDevices (prepareData : BitVec 32) :
    Answers twoDevices prepareData {a | isPresent (BitVec.ofNat 8 a) = true} where
  present a ha d := by
    have hpresent : isPresent (BitVec.ofNat 8 a) = true := by simpa using ha
    simp [twoDevices, prepareAttributes, hpresent]
  absent a ha d := by
    have hnone : isPresent (BitVec.ofNat 8 a) = false := by simpa using ha
    rcases eq_or_ne (BitVec.ofNat 8 a % 3#8) 1#8 with hone | hother
    · simp [twoDevices, prepareAttributes, hnone, hone]
    · simp [twoDevices, prepareAttributes, hnone, hother]

/-- A scan of this bus finds the two devices. -/
theorem scan_lists_twoDevices :
    ∃ result t', (scan twoDevices 64).Yields (Thread.start 0) result t' ∧ t'.isError = false ∧
      ∀ a : Fin 128,
        (1 ≤ a.val ∧ a ∈ {a : Fin 128 | isPresent (BitVec.ofNat 8 a) = true} →
          result[a] = BitVec.ofNat 8 a) ∧
        (¬ (1 ≤ a.val ∧ a ∈ {a : Fin 128 | isPresent (BitVec.ofNat 8 a) = true}) →
          result[a] = 0) :=
  scan_lists_answering (answers_twoDevices 64) (Thread.start_isError 0)

end HalAPI.I2C
