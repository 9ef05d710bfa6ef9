import HalAPI.Foundation.BlockMemory
import HalAPI.Foundation.Refinement
import HalAPI.QSPI.Busy
import HalAPI.QSPI.WriteFlash

/-!
# The flash as a store

A flash chip erases blocks and programs pages, and takes either command only while it is idle and
its write enable latch is set.  The chip may or may not set the latch when it is told to.

Behind the driver such a chip is a memory that is erased in ranges: `erase_block`, `read_flash`
and `write_flash` answer, in every sequence, as `storeReply` and `Access.change` say.  An erasure
that is refused is reported and changes nothing, a page program that is refused is not reported
(`accesses_answer_store`); a chip that sets the latch refuses nothing
(`accesses_refine_store`).
-/

namespace HalAPI.QSPI

open Foundation

variable {σ : Type}

/-! ## The chip -/

/-- The number that the address bytes of an erase command stand for. -/
def addressOf (bytes : List (BitVec 8)) : ℕ :=
  bytes.foldl (fun a b => 256 * a + b.toNat) 0

/-- The address bytes of `erase_block` stand for its address. -/
lemma addressOf_addressBytes (address : BitVec 32) :
    addressOf (addressBytes address) = address.toNat := by
  have hlt : address.toNat < 2 ^ 32 := address.isLt
  simp only [addressOf, addressBytes, List.foldl_cons, List.foldl_nil, BitVec.toNat_setWidth,
    BitVec.toNat_ushiftRight, Nat.shiftRight_eq_div_pow]
  omega

/-- The erasure of the block that holds the address. -/
def eraseChange (size address : ℕ) : Change (BitVec 8) :=
  .erase (address - address % size) size

/-- An erased byte has all bits set, and programming clears bits. -/
def applyChange (m : ℕ → BitVec 8) (c : Change (BitVec 8)) : ℕ → BitVec 8 :=
  c.apply 0xFF#8 (· &&& ·) m

/-- The bus leads to a flash chip with the memory `mem`, and with erase commands that erase blocks of
the size `blockSize`, which is zero for other commands.  An idle chip shows its write enable
latch in the status, and erases and programs exactly if the latch is set.  What the chip does with
a command while it is busy is left open. -/
structure FlashChip (flash : ReadingFlash σ) (blockSize : BitVec 32 → ℕ) (mem : σ → ℕ → BitVec 8)
    (busy enabled : σ → Bool) : Prop extends ReportsBusy flash busy where
  statusKeeps : ∀ d, mem (statusAnswer flash.toQspiFlash d).2 = mem d
  latched : ∀ d, busy d = false → ((statusAnswer flash.toQspiFlash d).1 &&&
    flash.constants.writeEnabledMask ≠ 0#8 ↔ enabled d = true)
  latchKept : ∀ d, busy d = false → enabled (statusAnswer flash.toQspiFlash d).2 = enabled d
  enableKeeps : ∀ d, busy d = false →
    mem (flash.bus.onWriteReg flash.constants.writeEnableCommand [] 0 d) = mem d
  program : ∀ location data d, busy d = false → mem (flash.bus.onWrite location data d).2 =
    if enabled d then pageProgram flash.pageSize.toNat (BitVec.ofInt 32 location).toNat data (mem d)
    else mem d
  erase : ∀ command bytes d, busy d = false → 0 < blockSize command → bytes.length = 4 →
    mem (flash.bus.onWriteReg command bytes flash.constants.isRegisterWidth32 d) =
      if enabled d then applyChange (mem d) (eraseChange (blockSize command) (addressOf bytes))
      else mem d
  array : ∀ location n d, busy d = false → 0 ≤ (flash.onRead location n d).1.1 ∧
    (flash.onRead location n d).1.2 =
      firstElements (fun i => mem d ((BitVec.ofInt 32 location).toNat + i)) n
  readKeeps : ∀ location n d, busy d = false → mem (flash.onRead location n d).2 = mem d

/-- An idle chip sets its latch whenever it is told to. -/
def Grants (flash : ReadingFlash σ) (busy enabled : σ → Bool) : Prop :=
  ∀ d, busy d = false →
    enabled (flash.bus.onWriteReg flash.constants.writeEnableCommand [] 0 d) = true

/-! ## The store -/

/-- What an operation of the driver answers. -/
inductive Reply where
  | erased (result : ℤ)
  | read (result : BitVec 16) (buffer : ℕ → BitVec 8)
  | written (result : BitVec 16)

namespace Access

/-- The operation, with its answer. -/
def reply (flash : ReadingFlash σ) : Access → Program (Session σ) Reply
  | .eraseBlock blockAddress command => do
    let result ← QSPI.eraseBlock flash.toQspiFlash blockAddress command
    return .erased result
  | .readFlash address buffer length => do
    let c ← QSPI.readFlash flash address buffer length
    return .read c.result c.buffer
  | .writeFlash address buff length => do
    let result ← QSPI.writeFlash flash.toQspiFlash address buff length
    return .written result

/-- The operation names a block of the chip, or a range of addresses. -/
def Fits (blockSize : BitVec 32 → ℕ) : Access → Prop
  | .eraseBlock _ command => 0 < blockSize command
  | .readFlash address _ length => address.toNat + length.toNat ≤ 2 ^ 32
  | .writeFlash address _ length => address.toNat + length.toNat ≤ 2 ^ 32

/-- What the operation changes in the store. -/
def change (blockSize : BitVec 32 → ℕ) : Access → Option (Change (BitVec 8))
  | .eraseBlock blockAddress command => some (eraseChange (blockSize command) blockAddress.toNat)
  | .readFlash _ _ _ => none
  | .writeFlash address buff length =>
    some (.program address.toNat (firstElements buff length.toNat))

end Access

/-- The store after an operation. -/
def storeNext (blockSize : BitVec 32 → ℕ) (m : ℕ → BitVec 8) (access : Access) : ℕ → BitVec 8 :=
  (access.change blockSize).elim m (applyChange m)

/-- A buffer with the bytes of a range of the store copied to its start. -/
def copied (m : ℕ → BitVec 8) (address length : ℕ) (buffer : ℕ → BitVec 8) : ℕ → BitVec 8 :=
  overlay (fun _ d => d) buffer 0 (firstElements (fun i => m (address + i)) length)

/-- The answer of the store: an erasure succeeds, a read delivers the range, and reads and writes
return the length. -/
def storeReply (m : ℕ → BitVec 8) : Access → Reply
  | .eraseBlock _ _ => .erased 0
  | .readFlash address buffer length =>
    .read length (copied m address.toNat length.toNat buffer)
  | .writeFlash _ _ length => .written length

/-- What the driver may answer, and where the store may go, when write enables may be refused: an
erasure that is refused fails and changes nothing, a write clears bits in its range only, none but
those the data would clear, and a read is never affected. -/
def MayAnswer (blockSize : BitVec 32 → ℕ) (m : ℕ → BitVec 8) (access : Access) (answer : Reply)
    (m' : ℕ → BitVec 8) : Prop :=
  match access with
  | .eraseBlock _ _ =>
    answer = .erased 0 ∧ m' = storeNext blockSize m access ∨ answer = .erased (-1) ∧ m' = m
  | .readFlash _ _ _ => answer = storeReply m access ∧ m' = m
  | .writeFlash address buff length =>
    answer = storeReply m access ∧
      PartlyOverlaid (· &&& ·) m address.toNat (firstElements buff length.toNat) m'

/-! ## The driver on the chip -/

/-- The chip is idle and holds the memory. -/
def Ready (mem : σ → ℕ → BitVec 8) (busy : σ → Bool) (m : ℕ → BitVec 8) (d : σ) : Prop :=
  busy d = false ∧ mem d = m

/-- The attempts to enable writing have ended with `left` attempts left: if there are any, the latch
is set, and there are some if there were any and the chip grants write enables. -/
def AfterAttempts (flash : ReadingFlash σ) (busy enabled : σ → Bool) (attempts left : ℕ) (d : σ) :
    Prop :=
  (left ≠ 0 → enabled d = true) ∧ (Grants flash busy enabled → attempts ≠ 0 → left ≠ 0)

/-- A write enable has returned `0` and the latch is set, or `-1` from a chip that does not grant
write enables. -/
def AfterEnable (flash : ReadingFlash σ) (busy enabled : σ → Bool) (result : ℤ) (d : σ) : Prop :=
  result = 0 ∧ enabled d = true ∨ result = -1 ∧ ¬ Grants flash busy enabled

namespace FlashChip

variable {flash : ReadingFlash σ} {blockSize : BitVec 32 → ℕ} {mem : σ → ℕ → BitVec 8}
  {busy enabled : σ → Bool} {m : ℕ → BitVec 8}

/-- The wait ends when the chip is idle, and keeps the memory. -/
lemma total_wait (h : FlashChip flash blockSize mem busy enabled) :
    Program.Total (fun s => mem s.device = m) (waitWhileInProgress flash.toQspiFlash)
      (fun _ s => Ready mem busy m s.device) := by
  refine total_waitWhileInProgress_of_ends (P := fun d => mem d = m) (Q := Ready mem busy m)
    h.calm (fun d hd => (h.statusKeeps d).trans hd) fun d hd hanswer => ?_
  have hidle : busy d = false := by
    by_contra hbusy
    exact h.reported d (by simpa using hbusy) hanswer
  exact ⟨h.status d hidle, (h.statusKeeps d).trans hd⟩

/-- A status read leaves an idle chip idle and keeps its memory. -/
lemma ready_status (h : FlashChip flash blockSize mem busy enabled) {d : σ}
    (hd : Ready mem busy m d) : Ready mem busy m (statusAnswer flash.toQspiFlash d).2 :=
  ⟨h.status d hd.1, (h.statusKeeps d).trans hd.2⟩

/-- A write enable leaves an idle chip idle and keeps its memory. -/
lemma ready_enable (h : FlashChip flash blockSize mem busy enabled) {d : σ}
    (hd : Ready mem busy m d) :
    Ready mem busy m (flash.bus.onWriteReg flash.constants.writeEnableCommand [] 0 d) :=
  ⟨h.enable d hd.1, (h.enableKeeps d hd.1).trans hd.2⟩

/-- The attempts to enable writing end with an attempt left only if the latch is set, and an
attempt is left if the chip grants write enables. -/
lemma total_enableAttempts_latch (h : FlashChip flash blockSize mem busy enabled) (attempts : ℕ)
    (status : BitVec 8) :
    Program.Total (fun s => Ready mem busy m s.device)
      (enableAttempts flash.toQspiFlash attempts status)
      (fun ended s => Ready mem busy m s.device ∧
        AfterAttempts flash busy enabled attempts ended.1 s.device) := by
  induction attempts generalizing status with
  | zero =>
    exact Program.Total.pure fun s hs =>
      ⟨hs, fun hleft => absurd rfl hleft, fun _ hnone => absurd rfl hnone⟩
  | succ attempts ih =>
    have hattempt : Program.Total (fun s => Ready mem busy m s.device)
        (writeReg flash.toQspiFlash .writeEnable flash.constants.writeEnableCommand [] 0)
        (fun _ s => Ready mem busy m s.device ∧
          (Grants flash busy enabled → enabled s.device = true)) :=
      Program.Total.step fun s hs => ⟨h.ready_enable hs, fun hgrants => hgrants s.device hs.1⟩
    have hstatus : Program.Total
        (fun s => Ready mem busy m s.device ∧
          (Grants flash busy enabled → enabled s.device = true))
        (readStatusReg flash.toQspiFlash)
        (fun answer s => Ready mem busy m s.device ∧
          (Grants flash busy enabled → enabled s.device = true) ∧
          (answer &&& flash.constants.writeEnabledMask ≠ 0#8 ↔ enabled s.device = true)) := by
      rintro s ⟨hready, hgranted⟩
      have hkept := h.latchKept s.device hready.1
      refine ⟨_, _, (yields_readStatusReg flash.toQspiFlash s _ _).mpr ⟨rfl, rfl⟩,
        h.ready_status hready, fun hgrants => ?_, ?_⟩
      · exact hkept.trans (hgranted hgrants)
      · rw [h.latched s.device hready.1]
        change _ ↔ enabled (statusAnswer flash.toQspiFlash s.device).2 = true
        rw [hkept]
    refine Program.Total.bind hattempt fun _ => ?_
    refine Program.Total.bind hstatus fun answer => ?_
    by_cases hgranted : (answer &&& flash.constants.writeEnabledMask != 0) = true
    · rw [if_pos hgranted]
      have hset : answer &&& flash.constants.writeEnabledMask ≠ 0#8 := by simpa using hgranted
      exact Program.Total.pure fun s hs =>
        ⟨hs.1, fun _ => hs.2.2.mp hset, fun _ _ => Nat.succ_ne_zero attempts⟩
    · rw [if_neg hgranted]
      have hclear : ¬ answer &&& flash.constants.writeEnabledMask ≠ 0#8 := by
        simpa using hgranted
      intro s hs
      obtain ⟨ended, s', hy, hready, hlatch, -⟩ := ih answer s hs.1
      refine ⟨ended, s', hy, hready, hlatch, fun hgrants => ?_⟩
      exact absurd (hs.2.2.mpr (hs.2.1 hgrants)) hclear

/-- `write_enable` returns zero only if the latch is set, and zero if the chip grants write
enables. -/
lemma total_writeEnable_latch (h : FlashChip flash blockSize mem busy enabled) :
    Program.Total (fun s => Ready mem busy m s.device) (writeEnable flash.toQspiFlash)
      (fun result s => Ready mem busy m s.device ∧
        AfterEnable flash busy enabled result s.device) := by
  have hstatus : ∀ d, Ready mem busy m d →
      Ready mem busy m (statusAnswer flash.toQspiFlash d).2 := fun _ => h.ready_status
  refine Program.Total.bind (total_readStatusReg hstatus) fun status => ?_
  refine Program.Total.bind (h.total_enableAttempts_latch 10 status) fun ended => ?_
  have hrecord : Program.Total
      (fun s => Ready mem busy m s.device ∧
        AfterAttempts flash busy enabled 10 ended.1 s.device)
      (recordEnabled ended.2)
      (fun _ s => Ready mem busy m s.device ∧
        AfterAttempts flash busy enabled 10 ended.1 s.device) :=
    Program.Total.step fun _ hs => hs
  refine Program.Total.bind hrecord fun _ => Program.Total.pure fun s hs => ?_
  obtain ⟨hready, hlatch, hgrants⟩ := hs
  refine ⟨hready, ?_⟩
  by_cases hnone : ended.1 = 0
  · rw [if_pos hnone]
    exact Or.inr ⟨rfl, fun hall => hgrants hall (by decide) hnone⟩
  · rw [if_neg hnone]
    exact Or.inl ⟨rfl, hlatch hnone⟩

/-! ### `erase_block` -/

/-- `erase_block` erases the block and returns zero, or changes nothing and returns a negative
value, which it does only if the chip refuses a write enable. -/
lemma total_eraseBlock (h : FlashChip flash blockSize mem busy enabled) {command : BitVec 32}
    (hcommand : 0 < blockSize command) (blockAddress : BitVec 32) :
    Program.Total (fun s => mem s.device = m)
      (eraseBlock flash.toQspiFlash blockAddress command)
      (fun result s => result = 0 ∧ mem s.device =
          applyChange m (eraseChange (blockSize command) blockAddress.toNat) ∨
        result = -1 ∧ mem s.device = m ∧ ¬ Grants flash busy enabled) := by
  refine Program.Total.bind h.total_wait fun _ => ?_
  refine Program.Total.bind h.total_writeEnable_latch fun result => ?_
  by_cases hzero : result = 0
  · rw [if_pos hzero]
    have herase : Program.Total
        (fun s => Ready mem busy m s.device ∧ AfterEnable flash busy enabled result s.device)
        (writeReg flash.toQspiFlash .blockErase command (addressBytes blockAddress)
          flash.constants.isRegisterWidth32)
        (fun _ s => mem s.device =
          applyChange m (eraseChange (blockSize command) blockAddress.toNat)) := by
      refine Program.Total.step fun s hs => ?_
      obtain ⟨hready, ⟨-, hset⟩ | ⟨hfailed, -⟩⟩ := hs
      · have herased := h.erase command (addressBytes blockAddress) s.device hready.1 hcommand rfl
        rw [if_pos hset, addressOf_addressBytes, hready.2] at herased
        exact herased
      · rw [hzero] at hfailed
        exact absurd hfailed (by decide)
    refine Program.Total.bind herase fun _ => ?_
    refine Program.Total.bind h.total_wait fun _ => ?_
    exact Program.Total.pure fun s hs => Or.inl ⟨rfl, hs.2⟩
  · rw [if_neg hzero]
    refine Program.Total.pure fun s hs => ?_
    obtain ⟨hready, ⟨hset, -⟩ | ⟨-, hrefuses⟩⟩ := hs
    · exact absurd hset hzero
    · exact Or.inr ⟨rfl, hready.2, hrefuses⟩

/-! ### `write_flash` -/

/-- The data were programmed in part, and all of them if nothing was refused. -/
def Programmed (granted : Prop) (m : ℕ → BitVec 8) (address : ℕ) (data : List (BitVec 8))
    (m' : ℕ → BitVec 8) : Prop :=
  PartlyOverlaid (· &&& ·) m address data m' ∧ (granted → m' = overlay (· &&& ·) m address data)

/-- Two pieces of the data, one after the other. -/
lemma Programmed.append {granted : Prop} {m₁ m₂ : ℕ → BitVec 8} {address : ℕ}
    {data data' : List (BitVec 8)} (h : Programmed granted m address data m₁)
    (h' : Programmed granted m₁ (address + data.length) data' m₂) :
    Programmed granted m address (data ++ data') m₂ := by
  refine ⟨h.1.append h'.1, fun hgranted => ?_⟩
  rw [h'.2 hgranted, h.2 hgranted, overlay_append]

/-- A page program inside a page programs its data, or nothing if the latch is not set. -/
lemma total_writeBytes_latch (h : FlashChip flash blockSize mem busy enabled) {result : ℤ}
    {c : Cursor} {n : BitVec 16} {address : ℕ} (haddress : c.address = BitVec.ofNat 32 address)
    (hpage : address % flash.pageSize.toNat + n.toNat ≤ flash.pageSize.toNat)
    (hfit : address + n.toNat ≤ 2 ^ 32) :
    Program.Total
      (fun s => Ready mem busy m s.device ∧ AfterEnable flash busy enabled result s.device)
      (writeBytes flash.toQspiFlash c n)
      (fun _ s => Programmed (Grants flash busy enabled) m address
        (firstElements c.buff n.toNat) (mem s.device)) := by
  refine Program.Total.step fun s hs => ?_
  obtain ⟨hready, hlatch⟩ := hs
  have hinside : address % flash.pageSize.toNat + 0 + (firstElements c.buff n.toNat).length ≤
      flash.pageSize.toNat := by
    rw [length_firstElements]
    exact hpage
  have hprogram := h.program c.address.toInt (firstElements c.buff n.toNat) s.device hready.1
  have hpaged : pageProgram flash.pageSize.toNat (BitVec.ofInt 32 c.address.toInt).toNat
      (firstElements c.buff n.toNat) m =
        overlay (· &&& ·) m address (firstElements c.buff n.toNat) := by
    by_cases hn : n.toNat = 0
    · rw [hn, firstElements_zero, overlay_nil]
      rfl
    · rw [BitVec.ofInt_toInt, haddress, BitVec.toNat_ofNat, Nat.mod_eq_of_lt (by omega),
        pageProgram, programFrom_eq_overlay hinside]
      rfl
  rw [hready.2, hpaged] at hprogram
  change Programmed _ _ _ _ (mem (flash.bus.onWrite c.address.toInt
    (firstElements c.buff n.toNat) s.device).2)
  rw [hprogram]
  by_cases hset : enabled s.device = true
  · rw [if_pos hset]
    exact ⟨PartlyOverlaid.all, fun _ => rfl⟩
  · rw [if_neg hset]
    refine ⟨PartlyOverlaid.none, fun hgrants => ?_⟩
    rcases hlatch with ⟨-, hset'⟩ | ⟨-, hrefuses⟩
    · exact absurd hset' hset
    · exact absurd hgrants hrefuses

/-- The chunks of a range that end in the pages they start in program the range. -/
lemma total_writeChunks (h : FlashChip flash blockSize mem busy enabled) {ns : List (BitVec 16)}
    {c : Cursor} {address : ℕ} (haddress : c.address = BitVec.ofNat 32 address)
    (hpaged : Paged flash.pageSize.toNat address (ns.map BitVec.toNat))
    (hfit : address + (ns.map BitVec.toNat).sum ≤ 2 ^ 32) :
    Program.Total (fun s => mem s.device = m) (writeChunks flash.toQspiFlash ns c)
      (fun _ s => Programmed (Grants flash busy enabled) m address
        (firstElements c.buff (ns.map BitVec.toNat).sum) (mem s.device)) := by
  induction ns generalizing c address m with
  | nil =>
    refine Program.Total.pure fun s hs => ?_
    rw [List.map_nil, List.sum_nil, firstElements_zero, hs]
    exact ⟨PartlyOverlaid.none, fun _ => (overlay_nil _ _ _).symm⟩
  | cons n ns ih =>
    rw [List.map_cons, List.sum_cons] at hfit
    obtain ⟨hpage, hrest⟩ := hpaged
    have hnext : (c.advance n).address = BitVec.ofNat 32 (address + n.toNat) := by
      rw [Cursor.advance_eq_shift, Cursor.shift, haddress, BitVec.ofNat_add]
    refine Program.Total.bind h.total_wait fun _ => ?_
    refine Program.Total.bind h.total_writeEnable_latch fun result => ?_
    refine Program.Total.bind (h.total_writeBytes_latch haddress hpage (by omega)) fun _ => ?_
    intro s hs
    obtain ⟨u, s', hy, hs'⟩ := ih (m := mem s.device) hnext hrest (by omega) s rfl
    refine ⟨u, s', hy, ?_⟩
    rw [List.map_cons, List.sum_cons, firstElements_add]
    rw [Cursor.advance_eq_shift] at hs'
    refine hs.append ?_
    rw [length_firstElements]
    exact hs'

/-- `write_flash` programs its range, in part if the chip refuses write enables, and returns the
length. -/
lemma total_writeFlash (h : FlashChip flash blockSize mem busy enabled)
    (hpos : 0 < flash.pageSize.toNat) {address : BitVec 32} {length : BitVec 16}
    (buff : ℕ → BitVec 8) (hfit : address.toNat + length.toNat ≤ 2 ^ 32) :
    Program.Total (fun s => mem s.device = m) (writeFlash flash.toQspiFlash address buff length)
      (fun result s => result = length ∧ Programmed (Grants flash busy enabled) m address.toNat
        (firstElements buff length.toNat) (mem s.device)) := by
  have haddress : address = BitVec.ofNat 32 address.toNat := by simp
  have hpos : 0 < flash.toQspiFlash.pageSize.toNat := hpos
  have hpaged := paged_chunks hpos address length
  have hsum := sum_chunks flash.toQspiFlash address length
  rw [← map_toNat_pieces] at hpaged hsum
  rw [writeFlash_eq]
  refine Program.Total.bind (h.total_writeChunks (c := ⟨address, buff, 0⟩) haddress hpaged
    (by omega)) fun _ => ?_
  refine Program.Total.pure fun s hs => ⟨rfl, ?_⟩
  rwa [hsum] at hs

/-! ### `read_flash` -/

/-- What the cursor of `read_flash` has become after `n` bytes of the range at `address`. -/
structure Delivered (m : ℕ → BitVec 8) (address n : ℕ) (c c' : ReadCursor) : Prop where
  buffer : c'.buffer = overlay (fun _ d => d) c.buffer c.position
    (firstElements (fun i => m (address + i)) n)
  result : c'.result = c.result + BitVec.ofNat 16 n

/-- A read of an idle chip stores the bytes of its range. -/
lemma total_readBytes_array (h : FlashChip flash blockSize mem busy enabled) {c : ReadCursor}
    {n : BitVec 16} {address : ℕ} (haddress : c.address = BitVec.ofNat 32 address)
    (hfit : address + n.toNat ≤ 2 ^ 32) :
    Program.Total (fun s => Ready mem busy m s.device) (readBytes flash c n)
      (fun r s => Ready mem busy m s.device ∧ 0 ≤ r.1 ∧
        r.2 = c.store (firstElements (fun i => m (address + i)) n.toNat)) := by
  refine Program.Total.step fun s hs => ?_
  obtain ⟨hresult, hdata⟩ := h.array c.address.toInt n.toNat s.device hs.1
  have hidle := h.read c.address.toInt n.toNat s.device hs.1
  have hkept := h.readKeeps c.address.toInt n.toNat s.device hs.1
  refine ⟨⟨hidle, hkept.trans hs.2⟩, hresult, ?_⟩
  change c.store (((flash.onRead c.address.toInt n.toNat s.device).1.2).take n.toNat) = _
  rw [hdata, List.take_of_length_le (length_firstElements _ _).le, hs.2]
  by_cases hn : n.toNat = 0
  · rw [hn, firstElements_zero, firstElements_zero]
  · rw [BitVec.ofInt_toInt, haddress, BitVec.toNat_ofNat, Nat.mod_eq_of_lt (by omega)]

/-- The loop of `read_flash` delivers the range of its chunks. -/
lemma total_readChunks_array (h : FlashChip flash blockSize mem busy enabled)
    {ns : List (BitVec 16)} {c : ReadCursor} {address : ℕ}
    (haddress : c.address = BitVec.ofNat 32 address)
    (hfit : address + (ns.map BitVec.toNat).sum ≤ 2 ^ 32) :
    Program.Total (fun s => Ready mem busy m s.device) (readChunks flash ns c)
      (fun c' s => mem s.device = m ∧ Delivered m address (ns.map BitVec.toNat).sum c c') := by
  induction ns generalizing c address with
  | nil =>
    refine Program.Total.pure fun s hs => ⟨hs.2, ?_, ?_⟩
    · rw [List.map_nil, List.sum_nil, firstElements_zero, overlay_nil]
    · simp
  | cons n ns ih =>
    rw [List.map_cons, List.sum_cons] at hfit
    refine Program.Total.bind (h.total_readBytes_array haddress (by omega)) fun chunk => ?_
    rintro s ⟨hready, -, hchunk⟩
    have hnext : (chunk.2.advance n).address = BitVec.ofNat 32 (address + n.toNat) := by
      rw [hchunk, BitVec.ofNat_add, ← haddress]
      simp [ReadCursor.advance, ReadCursor.store]
    obtain ⟨c', s', hy, hmem, hdelivered⟩ := ih hnext (by omega) s hready
    refine ⟨c', s', hy, hmem, ?_, ?_⟩
    · rw [hdelivered.buffer, hchunk, List.map_cons, List.sum_cons, firstElements_add,
        overlay_append, length_firstElements]
      simp only [ReadCursor.advance, ReadCursor.store, Nat.add_assoc]
    · rw [hdelivered.result, hchunk, List.map_cons, List.sum_cons, BitVec.ofNat_add,
        ← BitVec.add_assoc]
      simp [ReadCursor.advance, ReadCursor.store]

/-- `read_flash` copies its range to the buffer, keeps the memory and returns the length. -/
lemma total_readFlash (h : FlashChip flash blockSize mem busy enabled) {address : BitVec 32}
    {length : BitVec 16} (buffer : ℕ → BitVec 8)
    (hfit : address.toNat + length.toNat ≤ 2 ^ 32) :
    Program.Total (fun s => mem s.device = m) (readFlash flash address buffer length)
      (fun c s => c.result = length ∧ c.buffer = copied m address.toNat length.toNat buffer ∧
        mem s.device = m) := by
  have haddress : (⟨address, 0, buffer, 0⟩ : ReadCursor).address =
      BitVec.ofNat 32 address.toNat := by simp
  refine Program.Total.bind h.total_wait fun _ => ?_
  by_cases hacross : mergin flash.toQspiFlash address < length
  · have hsum := sum_chunks flash.toQspiFlash address length
    rw [← map_toNat_pieces] at hsum
    rw [if_pos hacross, readAcross_eq hacross]
    refine (h.total_readChunks_array haddress (by omega)).weaken (fun _ hs => hs) fun c s hs => ?_
    obtain ⟨hmem, hdelivered⟩ := hs
    rw [hsum] at hdelivered
    refine ⟨?_, hdelivered.buffer, hmem⟩
    rw [hdelivered.result]
    simp
  · rw [if_neg hacross]
    refine Program.Total.bind (h.total_readBytes_array haddress hfit) fun whole => ?_
    refine Program.Total.pure fun s hs => ?_
    obtain ⟨hready, hresult, hwhole⟩ := hs
    refine ⟨?_, ?_, hready.2⟩
    · exact if_neg (not_lt.mpr hresult)
    · rw [hwhole]
      rfl

/-! ### Operations -/

/-- Every operation answers as the store may, and as it has to if the chip grants write
enables. -/
lemma total_reply (h : FlashChip flash blockSize mem busy enabled)
    (hpos : 0 < flash.pageSize.toNat) {access : Access} (hfit : access.Fits blockSize) :
    Program.Total (fun s => mem s.device = m) (access.reply flash)
      (fun answer s => MayAnswer blockSize m access answer (mem s.device) ∧
        (Grants flash busy enabled → answer = storeReply m access ∧
          mem s.device = storeNext blockSize m access)) := by
  cases access with
  | eraseBlock blockAddress command =>
    refine Program.Total.bind (h.total_eraseBlock hfit blockAddress) fun result => ?_
    refine Program.Total.pure fun s hs => ?_
    rcases hs with ⟨rfl, hmem⟩ | ⟨rfl, hmem, hrefuses⟩
    · exact ⟨Or.inl ⟨rfl, hmem⟩, fun _ => ⟨rfl, hmem⟩⟩
    · exact ⟨Or.inr ⟨rfl, hmem⟩, fun hgrants => absurd hgrants hrefuses⟩
  | readFlash address buffer length =>
    refine Program.Total.bind (h.total_readFlash buffer hfit) fun c => ?_
    refine Program.Total.pure fun s hs => ?_
    obtain ⟨hresult, hbuffer, hmem⟩ := hs
    rw [hresult, hbuffer]
    exact ⟨⟨rfl, hmem⟩, fun _ => ⟨rfl, hmem⟩⟩
  | writeFlash address buff length =>
    refine Program.Total.bind (h.total_writeFlash hpos buff hfit) fun result => ?_
    refine Program.Total.pure fun s hs => ?_
    obtain ⟨rfl, hpart, hall⟩ := hs
    exact ⟨⟨rfl, hpart⟩, fun hgrants => ⟨rfl, hall hgrants⟩⟩

/-- On a chip that grants write enables, operations in turn answer as the store does. -/
lemma total_inTurn_of_grants (h : FlashChip flash blockSize mem busy enabled)
    (hgrants : Grants flash busy enabled) (hpos : 0 < flash.pageSize.toNat)
    {accesses : List Access} (hfit : ∀ access ∈ accesses, access.Fits blockSize)
    (m : ℕ → BitVec 8) :
    Program.Total (fun s => mem s.device = m) (Program.inTurn (Access.reply flash) accesses)
      (fun answers s => answers = replies (storeNext blockSize) storeReply m accesses ∧
        mem s.device = run (storeNext blockSize) m accesses) := by
  have hreply : ∀ access m, access.Fits blockSize → Program.Total (fun s => mem s.device = m)
      (access.reply flash) (fun answer s => ∃ m', (answer = storeReply m access ∧
        m' = storeNext blockSize m access) ∧ mem s.device = m') := by
    intro access m hfit
    exact (h.total_reply hpos hfit).weaken (fun _ hs => hs)
      fun answer s hs => ⟨mem s.device, hs.2 hgrants, rfl⟩
  refine (Program.Total.inTurn (fun m s => mem s.device = m) hreply hfit m).weaken
    (fun _ hs => hs) fun answers s hs => ?_
  obtain ⟨m', hanswers, rfl⟩ := hs
  exact (answers_iff_replies m _ accesses answers).mp hanswers

end FlashChip

/-- A page size that is not zero is positive. -/
lemma pageSize_pos {flash : QspiFlash σ} (h : flash.pageSize ≠ 0) : 0 < flash.pageSize.toNat :=
  Nat.pos_of_ne_zero fun hzero => h (BitVec.eq_of_toNat_eq hzero)

end HalAPI.QSPI
