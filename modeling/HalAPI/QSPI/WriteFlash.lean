import HalAPI.QSPI.Chunks
import HalAPI.QSPI.Polling

/-!
# `write_flash` programs bytes

The chip programs within a page: it ANDs the data into the memory, and data that run past the end
of the addressed page wrap around to its start.  `write_flash` cuts a range at the
page boundaries, so nothing wraps, and what reaches the memory is the overlay of the range
(`writeFlash_programs_bytes`).
-/

namespace HalAPI.QSPI

open Foundation

/-! ## A chip that programs pages -/

/-- The address of the byte `i` of a page program at `address`, wrapped around in the page. -/
def wrapped (pageSize address i : ℕ) : ℕ :=
  address - address % pageSize + (address % pageSize + i) % pageSize

/-- Program the data from the byte `i` of a page program on. -/
def programFrom (pageSize address : ℕ) : ℕ → List (BitVec 8) → (ℕ → BitVec 8) → ℕ → BitVec 8
  | _, [], mem => mem
  | i, d :: data, mem =>
    programFrom pageSize address (i + 1) data
      (Function.update mem (wrapped pageSize address i) (mem (wrapped pageSize address i) &&& d))

/-- A page program: the data are ANDed into the memory and wrap around in the page. -/
def pageProgram (pageSize address : ℕ) (data : List (BitVec 8)) (mem : ℕ → BitVec 8) :
    ℕ → BitVec 8 :=
  programFrom pageSize address 0 data mem

/-- A page program that stays inside its page overlays its range. -/
lemma programFrom_eq_overlay {pageSize address i : ℕ} {data : List (BitVec 8)}
    (hfit : address % pageSize + i + data.length ≤ pageSize) (mem : ℕ → BitVec 8) :
    programFrom pageSize address i data mem = overlay (· &&& ·) mem (address + i) data := by
  induction data generalizing i mem with
  | nil => rw [programFrom, overlay_nil]
  | cons d data ih =>
    rw [List.length_cons] at hfit
    have hwrapped : wrapped pageSize address i = address + i := by
      have hle : address % pageSize ≤ address := Nat.mod_le _ _
      rw [wrapped, Nat.mod_eq_of_lt (a := address % pageSize + i) (by omega)]
      omega
    rw [programFrom, hwrapped, ih (by omega), overlay_cons, Nat.add_assoc]

/-- The bus leads to a chip with the memory `mem` that accepts every page program, keeps its memory
during status reads and write enables, and is in progress for finitely many polls only. -/
structure ProgramsPages {σ : Type} (flash : QspiFlash σ) (mem : σ → ℕ → BitVec 8) : Prop where
  write : ∀ location data d, 0 ≤ (flash.bus.onWrite location data d).1 ∧
    mem (flash.bus.onWrite location data d).2 =
      pageProgram flash.pageSize.toNat (BitVec.ofInt 32 location).toNat data (mem d)
  status : ∀ d, mem (statusAnswer flash d).2 = mem d
  enable : ∀ d, mem (flash.bus.onWriteReg flash.constants.writeEnableCommand [] 0 d) = mem d
  calm : ∀ d, ∃ k, (statusAnswer flash ((fun d => (statusAnswer flash d).2)^[k] d)).1 &&&
    flash.constants.writeInProgressMask = 0#8

section Programs

variable {σ : Type} {flash : QspiFlash σ} {mem : σ → ℕ → BitVec 8} {m : ℕ → BitVec 8}

/-- Status reads and write enables keep the memory. -/
lemma ProgramsPages.undisturbed (h : ProgramsPages flash mem) :
    Undisturbed flash (fun d => mem d = m) where
  status d hd := (h.status d).trans hd
  enable d hd := (h.enable d).trans hd

/-- A page program that stays inside its page overlays its range. -/
lemma total_writeBytes (h : ProgramsPages flash mem) {c : Cursor} {n : BitVec 16} {address : ℕ}
    (haddress : c.address = BitVec.ofNat 32 address) (hpage : address % flash.pageSize.toNat +
      n.toNat ≤ flash.pageSize.toNat) (hfit : address + n.toNat ≤ 2 ^ 32) :
    Program.Total (fun s => mem s.device = m) (writeBytes flash c n)
      (fun _ s => mem s.device =
        overlay (· &&& ·) m address (firstElements c.buff n.toNat)) := by
  refine Program.Total.step fun s hs => ?_
  rw [(h.write _ _ s.device).2, hs, BitVec.ofInt_toInt, haddress, BitVec.toNat_ofNat]
  by_cases hn : n.toNat = 0
  · rw [hn, firstElements_zero, overlay_nil]
    rfl
  · have hlt : address < 2 ^ 32 := by omega
    have hinside : address % flash.pageSize.toNat + 0 + (firstElements c.buff n.toNat).length ≤
        flash.pageSize.toNat := by
      rw [length_firstElements]
      exact hpage
    rw [Nat.mod_eq_of_lt hlt, pageProgram, programFrom_eq_overlay hinside]
    rfl

/-- A program that enables writing, programs inside a page and goes on overlays the range of the
page program before it goes on. -/
lemma total_enable_write {β : Type} (h : ProgramsPages flash mem) {c : Cursor} {n : BitVec 16}
    {address : ℕ} (haddress : c.address = BitVec.ofNat 32 address)
    (hpage : address % flash.pageSize.toNat + n.toNat ≤ flash.pageSize.toNat)
    (hfit : address + n.toNat ≤ 2 ^ 32) {k : ℤ → Program (Session σ) β}
    {Q : β → Session σ → Prop}
    (hk : ∀ count, Program.Total (fun s => mem s.device =
      overlay (· &&& ·) m address (firstElements c.buff n.toNat)) (k count) Q) :
    Program.Total (fun s => mem s.device = m)
      (writeEnable flash >>= fun _ => writeBytes flash c n >>= k) Q := by
  refine Program.Total.bind (total_writeEnable h.undisturbed) fun _ => ?_
  exact Program.Total.bind (total_writeBytes h haddress hpage hfit) hk

/-! ## The pieces of a range -/

/-- Two pieces of a range overlay the range. -/
lemma overlay_pieces (c : Cursor) (address n k : ℕ) :
    overlay (· &&& ·) (overlay (· &&& ·) m address (firstElements c.buff n)) (address + n)
        (firstElements (c.shift n).buff k) =
      overlay (· &&& ·) m address (firstElements c.buff (n + k)) := by
  rw [firstElements_add, overlay_append, length_firstElements]
  rfl

/-- Chunks of a range that end in the pages they start in overlay the range. -/
lemma total_writeChunks (h : ProgramsPages flash mem) {ns : List (BitVec 16)} {c : Cursor}
    {address : ℕ} (haddress : c.address = BitVec.ofNat 32 address)
    (hpaged : Paged flash.pageSize.toNat address (ns.map BitVec.toNat))
    (hfit : address + (ns.map BitVec.toNat).sum ≤ 2 ^ 32) :
    Program.Total (fun s => mem s.device = m) (writeChunks flash ns c)
      (fun _ s => mem s.device =
        overlay (· &&& ·) m address (firstElements c.buff (ns.map BitVec.toNat).sum)) := by
  induction ns generalizing c address m with
  | nil =>
    refine Program.Total.pure fun s hs => ?_
    rw [List.map_nil, List.sum_nil, firstElements_zero, overlay_nil, hs]
  | cons n ns ih =>
    rw [List.map_cons, List.sum_cons] at hfit
    obtain ⟨hpage, hrest⟩ := hpaged
    have hnext : (c.advance n).address = BitVec.ofNat 32 (address + n.toNat) := by
      rw [Cursor.advance_eq_shift, Cursor.shift, haddress, BitVec.ofNat_add]
    refine Program.Total.bind (total_waitWhileInProgress h.calm h.undisturbed.status) fun _ => ?_
    apply total_enable_write h haddress hpage (by omega)
    intro _
    refine (ih hnext hrest (by omega)).weaken (fun _ hs => hs) fun _ s hs => ?_
    rw [Cursor.advance_eq_shift, overlay_pieces] at hs
    rw [List.map_cons, List.sum_cons]
    exact hs

/-- `write_flash` programs the range. -/
lemma total_writeFlash (h : ProgramsPages flash mem) (hpos : 0 < flash.pageSize.toNat)
    (address : BitVec 32) (buff : ℕ → BitVec 8) (length : BitVec 16)
    (hfit : address.toNat + length.toNat ≤ 2 ^ 32) :
    Program.Total (fun s => mem s.device = m) (writeFlash flash address buff length)
      (fun result s => result = length ∧ mem s.device =
        overlay (· &&& ·) m address.toNat (firstElements buff length.toNat)) := by
  have haddress : address = BitVec.ofNat 32 address.toNat := by simp
  have hpaged := paged_chunks hpos address length
  have hsum := sum_chunks flash address length
  rw [← map_toNat_pieces] at hpaged hsum
  rw [writeFlash_eq]
  refine Program.Total.bind (total_writeChunks (c := ⟨address, buff, 0⟩) h haddress hpaged
    (by omega)) fun _ => ?_
  refine Program.Total.pure fun s hs => ⟨rfl, ?_⟩
  rw [hs, hsum]

end Programs

/-- `write_flash` refines plain byte programming.  On a chip that programs pages it returns the
length it was given, every byte of the range becomes the AND of what it was and what the
buffer holds, and every other byte stays as it was. -/
theorem writeFlash_programs_bytes {σ : Type} {flash : QspiFlash σ} {mem : σ → ℕ → BitVec 8}
    (h : ProgramsPages flash mem) (hpage : flash.pageSize ≠ 0) (address : BitVec 32)
    (buff : ℕ → BitVec 8) (length : BitVec 16)
    (hfit : address.toNat + length.toNat ≤ 2 ^ 32) (s : Session σ) :
    ∃ s', (writeFlash flash address buff length).Yields s length s' ∧
      (∀ i, i < length.toNat → mem s'.device (address.toNat + i) =
        mem s.device (address.toNat + i) &&& buff i) ∧
      ∀ a, a < address.toNat ∨ address.toNat + length.toNat ≤ a →
        mem s'.device a = mem s.device a := by
  have hpos : 0 < flash.pageSize.toNat :=
    Nat.pos_of_ne_zero fun h0 => hpage (BitVec.eq_of_toNat_eq h0)
  obtain ⟨result, s', hy, rfl, hmem⟩ := total_writeFlash h hpos address buff length hfit s rfl
  refine ⟨s', hy, fun i hi => ?_, fun a ha => ?_⟩
  · rw [hmem]
    exact overlay_add _ _ _ (getElem?_firstElements buff _ hi)
  · rw [hmem]
    exact overlay_of_not _ _ _ (by rwa [length_firstElements])

/-! ## A chip -/

/-- A chip with its memory and the number of status reads it will still be in progress. -/
structure Chip where
  memory : ℕ → BitVec 8
  busy : ℕ

/-- A bus that leads to a chip with pages of 256 bytes, which stays in progress for three status
reads after a page program. -/
def chipFlash : QspiFlash Chip where
  bus := {
    onReadReg _ _ chip :=
      (some (if chip.busy = 0 then 2 else 3), { chip with busy := chip.busy - 1 })
    onWriteReg _ _ _ chip := chip
    onWrite location data chip := (data.length,
      { memory := pageProgram 256 (BitVec.ofInt 32 location).toNat data chip.memory, busy := 3 }) }
  constants := {
    readStatusCommand := 5
    writeEnableCommand := 6
    writeInProgressMask := 1
    writeEnabledMask := 2
    isRegisterWidth8 := 1
    isRegisterWidth16 := 2
    isRegisterWidth32 := 4 }
  pageSize := 256

/-- The chip programs pages. -/
lemma programsPages_chipFlash : ProgramsPages chipFlash Chip.memory where
  write location data chip := ⟨by simp [chipFlash], rfl⟩
  status chip := rfl
  enable chip := rfl
  calm := calm_of_countdown Chip.busy (fun _ => rfl) fun chip hchip => by
    simp [statusAnswer, chipFlash, hchip]

/-- Twenty bytes across a page boundary, on an erased chip that is in progress. -/
theorem writeFlash_programs_bytes_across :
    ∃ s', (writeFlash chipFlash 250 (fun i => BitVec.ofNat 8 i) 20).Yields
        ⟨⟨fun _ => 0xFF#8, 5⟩, []⟩ 20 s' ∧
      s'.device.memory 255 = 5 ∧ s'.device.memory 256 = 6 ∧ s'.device.memory 270 = 0xFF#8 := by
  obtain ⟨s', hy, hin, hout⟩ := writeFlash_programs_bytes programsPages_chipFlash (by decide) 250
    (fun i => BitVec.ofNat 8 i) 20 (by decide) ⟨⟨fun _ => 0xFF#8, 5⟩, []⟩
  refine ⟨s', hy, (hin 5 (by decide)).trans ?_, (hin 6 (by decide)).trans ?_,
    hout 270 (Or.inr (by decide))⟩
  · decide
  · decide

end HalAPI.QSPI
