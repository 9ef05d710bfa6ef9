import HalAPI.QSPI.ReadFlash

/-!
# The chunks of a range

`write_flash` and `read_flash` cut a range at the page boundaries: the rest of the first page,
whole pages, and what is left.  Both are one loop over these chunks, in spite of their two
branches (`writeFlash_eq`, `readAcross_eq`), so what holds of a chunk is carried through a
transfer by a single induction over the list of its chunks.

No chunk goes past the end of a page (`paged_chunks`), and together they are as long as the range
(`sum_chunks`).
-/

namespace HalAPI.QSPI

open Foundation

variable {σ : Type}

/-- The chunks that a range is cut into. -/
def chunks (flash : QspiFlash σ) (address : BitVec 32) (length : BitVec 16) : List ℕ :=
  if mergin flash address < length then
    (mergin flash address).toNat ::
      (List.replicate ((length - mergin flash address) / flash.pageSize).toNat
        flash.pageSize.toNat ++ [((length - mergin flash address) % flash.pageSize).toNat])
  else [length.toNat]

/-- The chunks of a range, as the 16-bit counts of the code. -/
def pieces (flash : QspiFlash σ) (address : BitVec 32) (length : BitVec 16) : List (BitVec 16) :=
  if mergin flash address < length then
    mergin flash address ::
      (List.replicate ((length - mergin flash address) / flash.pageSize).toNat flash.pageSize ++
        [(length - mergin flash address) % flash.pageSize])
  else [length]

/-- From the address on, each chunk ends in the page it starts in. -/
def Paged (pageSize : ℕ) : ℕ → List ℕ → Prop
  | _, [] => True
  | address, n :: ns => address % pageSize + n ≤ pageSize ∧ Paged pageSize (address + n) ns

section Counts

variable (flash : QspiFlash σ) (address : BitVec 32) (length : BitVec 16)

/-- The pieces are counted by the chunks. -/
lemma map_toNat_pieces : (pieces flash address length).map BitVec.toNat =
    chunks flash address length := by
  unfold pieces chunks
  split
  · rw [List.map_cons, List.map_append, List.map_replicate, List.map_singleton]
  · rw [List.map_singleton]

/-- A length is cut into whole pages and a remainder. -/
lemma pages_add_remainder (rest : BitVec 16) :
    (rest / flash.pageSize).toNat * flash.pageSize.toNat + (rest % flash.pageSize).toNat =
      rest.toNat := by
  rw [BitVec.toNat_udiv, BitVec.toNat_umod, Nat.mul_comm]
  exact Nat.div_add_mod _ _

/-- What is left of a length after the first page. -/
lemma toNat_rest {first length : BitVec 16} (h : first < length) :
    (length - first).toNat = length.toNat - first.toNat :=
  BitVec.toNat_sub_of_le (BitVec.le_of_lt h)

/-- The chunks are as long as the range. -/
lemma sum_chunks : (chunks flash address length).sum = length.toNat := by
  unfold chunks
  split
  · next hacross =>
    have hpages := pages_add_remainder flash (length - mergin flash address)
    rw [toNat_rest hacross] at hpages
    rw [BitVec.lt_def] at hacross
    rw [List.sum_cons, List.sum_append, List.sum_replicate, List.sum_singleton, smul_eq_mul]
    omega
  · rw [List.sum_singleton]

/-- The first page, the whole pages and the remainder are counted as the length. -/
lemma first_add_pages_add_remainder {first length : BitVec 16} (h : first < length) :
    BitVec.ofNat 16 (first.toNat + ((length - first) / flash.pageSize).toNat *
      flash.pageSize.toNat) + (length - first) % flash.pageSize = length := by
  have hsplit := pages_add_remainder flash (length - first)
  rw [toNat_rest h] at hsplit
  have hlt : length.toNat < 2 ^ 16 := length.isLt
  rw [BitVec.lt_def] at h
  refine BitVec.eq_of_toNat_eq ?_
  rw [BitVec.toNat_add, BitVec.toNat_ofNat]
  omega

end Counts

/-! ## Page boundaries -/

section Boundaries

variable {flash : QspiFlash σ}

/-- The bytes to the end of the page are counted without overflow. -/
lemma toNat_mergin (hpos : 0 < flash.pageSize.toNat) (address : BitVec 32) :
    (mergin flash address).toNat =
      flash.pageSize.toNat - address.toNat % flash.pageSize.toNat := by
  have hlt : flash.pageSize.toNat < 2 ^ 16 := flash.pageSize.isLt
  have hmod : address.toNat % flash.pageSize.toNat < flash.pageSize.toNat := Nat.mod_lt _ hpos
  have hpage : (flash.pageSize.setWidth 32).toNat = flash.pageSize.toNat := by
    rw [BitVec.toNat_setWidth]
    omega
  rw [mergin, BitVec.toNat_setWidth, BitVec.toNat_sub, BitVec.toNat_umod, hpage]
  omega

/-- Whole pages and a rest, from a page boundary on, end in the pages they start in. -/
lemma paged_pages {pageSize a n : ℕ} (hn : n ≤ pageSize) (pageCount : ℕ)
    (haligned : a % pageSize = 0) :
    Paged pageSize a (List.replicate pageCount pageSize ++ [n]) := by
  induction pageCount generalizing a with
  | zero =>
    rw [List.replicate_zero, List.nil_append]
    refine ⟨?_, trivial⟩
    rwa [haligned, Nat.zero_add]
  | succ pageCount ih =>
    rw [List.replicate_succ, List.cons_append]
    refine ⟨?_, ih ?_⟩
    · rw [haligned, Nat.zero_add]
    · rw [Nat.add_mod_right]
      exact haligned

/-- No chunk of a range goes past the end of a page. -/
lemma paged_chunks (hpos : 0 < flash.pageSize.toNat) (address : BitVec 32)
    (length : BitVec 16) :
    Paged flash.pageSize.toNat address.toNat (chunks flash address length) := by
  have hmod : address.toNat % flash.pageSize.toNat < flash.pageSize.toNat := Nat.mod_lt _ hpos
  have hmergin := toNat_mergin hpos address
  unfold chunks
  split
  · have hboundary : (address.toNat + (mergin flash address).toNat) % flash.pageSize.toNat = 0 := by
      rw [← Nat.mod_add_mod, hmergin, Nat.add_sub_of_le hmod.le, Nat.mod_self]
    have hrest : ((length - mergin flash address) % flash.pageSize).toNat ≤
        flash.pageSize.toNat := by
      rw [BitVec.toNat_umod]
      exact (Nat.mod_lt _ hpos).le
    refine ⟨?_, paged_pages hrest _ hboundary⟩
    rw [hmergin, Nat.add_sub_of_le hmod.le]
  · next hwithin =>
    rw [BitVec.lt_def] at hwithin
    refine ⟨?_, trivial⟩
    omega

end Boundaries

/-! ## The loop of `write_flash` -/

/-- The cursor after `n` bytes, for any number of bytes. -/
def Cursor.shift (c : Cursor) (n : ℕ) : Cursor where
  address := c.address + BitVec.ofNat 32 n
  buff i := c.buff (n + i)
  result := c.result + BitVec.ofNat 16 n

/-- Going on by a 16-bit count is going on by its value. -/
lemma Cursor.advance_eq_shift (c : Cursor) (n : BitVec 16) : c.advance n = c.shift n.toNat := by
  simp [Cursor.advance, Cursor.shift]

/-- Going on by nothing stays. -/
lemma Cursor.shift_zero (c : Cursor) : c.shift 0 = c := by
  simp [Cursor.shift]

/-- Going on twice is going on by both counts. -/
lemma Cursor.shift_shift (c : Cursor) (n k : ℕ) : (c.shift n).shift k = c.shift (n + k) := by
  simp [Cursor.shift, BitVec.ofNat_add, BitVec.add_assoc, Nat.add_assoc]

/-- The result is counted on. -/
lemma Cursor.shift_result (c : Cursor) (n : ℕ) :
    (c.shift n).result = c.result + BitVec.ofNat 16 n := rfl

/-- Write chunks: poll, enable writing and write, for each of them. -/
def writeChunks (flash : QspiFlash σ) : List (BitVec 16) → Cursor → Program (Session σ) Unit
  | [], _ => pure ()
  | n :: ns, c => do
    waitWhileInProgress flash
    let _ ← writeEnable flash
    let _ ← writeBytes flash c n
    writeChunks flash ns (c.advance n)

section Write

variable (flash : QspiFlash σ)

/-- More chunks are written where the last one ended. -/
lemma writeChunks_append (ns ms : List (BitVec 16)) (c : Cursor) :
    writeChunks flash (ns ++ ms) c = writeChunks flash ns c >>= fun _ =>
      writeChunks flash ms (c.shift (ns.map BitVec.toNat).sum) := by
  induction ns generalizing c with
  | nil =>
    rw [List.nil_append, List.map_nil, List.sum_nil, Cursor.shift_zero]
    rfl
  | cons n ns ih =>
    rw [List.cons_append, writeChunks, writeChunks, ih, Cursor.advance_eq_shift,
      Cursor.shift_shift, List.map_cons, List.sum_cons]
    simp only [Program.bind_assoc]

/-- The loop `while (page_count--)` of `write_flash` writes chunks of a page. -/
lemma writePages_eq (pageCount : ℕ) (c : Cursor) :
    writePages flash pageCount c =
      writeChunks flash (List.replicate pageCount flash.pageSize) c >>= fun _ =>
        pure (c.shift (pageCount * flash.pageSize.toNat)) := by
  induction pageCount generalizing c with
  | zero =>
    rw [Nat.zero_mul, Cursor.shift_zero]
    rfl
  | succ pageCount ih =>
    rw [writePages, List.replicate_succ, writeChunks, ih, Nat.succ_mul, Nat.add_comm,
      ← Cursor.shift_shift, ← Cursor.advance_eq_shift]
    simp only [Program.bind_assoc]

/-- `write_flash` writes the chunks of the range and returns its length. -/
lemma writeFlash_eq (address : BitVec 32) (buff : ℕ → BitVec 8) (length : BitVec 16) :
    writeFlash flash address buff length =
      writeChunks flash (pieces flash address length) ⟨address, buff, 0⟩ >>= fun _ =>
        pure length := by
  unfold writeFlash pieces
  split
  · next hacross =>
    have hresult : (((⟨address, buff, 0⟩ : Cursor).advance (mergin flash address)).shift
        (((length - mergin flash address) / flash.pageSize).toNat *
          flash.pageSize.toNat)).result + (length - mergin flash address) % flash.pageSize =
        length := by
      rw [Cursor.advance_eq_shift, Cursor.shift_shift, Cursor.shift_result]
      change 0#16 + _ + _ = _
      rw [BitVec.zero_add, first_add_pages_add_remainder flash hacross]
    rw [writeChunks, writeChunks_append, List.map_replicate, List.sum_replicate, smul_eq_mul]
    simp only [writeAcross, writePages_eq, writeChunks, Program.bind_assoc, Program.pure_bind,
      hresult]
  · simp only [writeWithin, writeChunks, Program.bind_assoc, Program.pure_bind]

end Write

/-! ## The loop of `read_flash` -/

/-- Read chunks, one after the other. -/
def readChunks (flash : ReadingFlash σ) :
    List (BitVec 16) → ReadCursor → Program (Session σ) ReadCursor
  | [], c => pure c
  | n :: ns, c => do
    let chunk ← readBytes flash c n
    readChunks flash ns (chunk.2.advance n)

section Read

variable (flash : ReadingFlash σ)

/-- The loop `while (page_count--)` of `read_flash` reads chunks of a page, and then what
follows. -/
lemma readPages_bind (pageCount : ℕ) (ns : List (BitVec 16)) (c : ReadCursor) :
    readPages flash pageCount c >>= readChunks flash ns =
      readChunks flash (List.replicate pageCount flash.pageSize ++ ns) c := by
  induction pageCount generalizing c with
  | zero => rfl
  | succ pageCount ih =>
    rw [readPages, List.replicate_succ, List.cons_append, readChunks, Program.bind_assoc]
    simp only [ih]

variable {flash} in
/-- The branch of `read_flash` for a range that goes past its first page reads the chunks of the
range. -/
lemma readAcross_eq {address : BitVec 32} {length : BitVec 16}
    (hacross : mergin flash.toQspiFlash address < length) (c : ReadCursor) :
    readAcross flash c (mergin flash.toQspiFlash address) length =
      readChunks flash (pieces flash.toQspiFlash address length) c := by
  rw [pieces, if_pos hacross, readChunks]
  simp only [← readPages_bind]
  rfl

end Read

end HalAPI.QSPI
