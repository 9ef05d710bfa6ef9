import HalAPI.QSPI.Flash

/-!
# `read_flash`

The flash driver reads the array of the chip with located reads of the bus.  Like `write_flash`,
`read_flash` cuts a range at the page boundaries: the rest of the first page, whole pages, and
what is left.  It polls the chip once before its first read.

The caller's buffer is a memory that starts at `buff`.  A read stores the bytes it delivers there,
and leaves the buffer as it is if it delivers none.
-/

namespace HalAPI.QSPI

open Foundation

/-- `QSPI_FLASH` with the located reads of its file -/
structure ReadingFlash (σ : Type) extends QspiFlash σ where
  onRead : ℤ → ℕ → σ → (ℤ × List (BitVec 8)) × σ

/-- The address, the position in the buffer, the buffer and the result that `read_flash` goes on
with. -/
structure ReadCursor where
  address : BitVec 32
  position : ℕ
  buffer : ℕ → BitVec 8
  result : BitVec 16

/-- The cursor after `n` bytes. -/
def ReadCursor.advance (c : ReadCursor) (n : BitVec 16) : ReadCursor where
  address := c.address + n.setWidth 32
  position := c.position + n.toNat
  buffer := c.buffer
  result := c.result + n

/-- The cursor when the data have been stored at its position. -/
def ReadCursor.store (c : ReadCursor) (data : List (BitVec 8)) : ReadCursor :=
  { c with buffer := overlay (fun _ d => d) c.buffer c.position data }

section Code

variable {σ : Type} (flash : ReadingFlash σ)

/-- `read((int)address, buff, n)`, which delivers `n` bytes at most -/
def readBytes (c : ReadCursor) (n : BitVec 16) : Program (Session σ) (ℤ × ReadCursor) :=
  Program.step fun s =>
    (((flash.onRead c.address.toInt n.toNat s.device).1.1,
        c.store ((flash.onRead c.address.toInt n.toNat s.device).1.2.take n.toNat)),
      { s with device := (flash.onRead c.address.toInt n.toNat s.device).2 })

/-- The loop `while (page_count--)` of `read_flash`. -/
def readPages : ℕ → ReadCursor → Program (Session σ) ReadCursor
  | 0, c => pure c
  | pageCount + 1, c => do
    let page ← readBytes flash c flash.pageSize
    readPages pageCount (page.2.advance flash.pageSize)

/-- The branch of `read_flash` for a range that goes past its first page.  It does not look at
what its reads return. -/
def readAcross (c : ReadCursor) (first length : BitVec 16) : Program (Session σ) ReadCursor := do
  let head ← readBytes flash c first
  let rest := length - first
  let paged ← readPages flash (rest / flash.pageSize).toNat (head.2.advance first)
  let tail ← readBytes flash paged (rest % flash.pageSize)
  return tail.2.advance (rest % flash.pageSize)

/-- The branch of `read_flash` for a range inside a page. -/
def readWithin (c : ReadCursor) (length : BitVec 16) : Program (Session σ) ReadCursor := do
  let whole ← readBytes flash c length
  return { whole.2 with result := if whole.1 < 0 then 0 else length }

/-- `QSPI_FLASH::read_flash`; its result and the buffer are those of the cursor it ends with. -/
def readFlash (address : BitVec 32) (buffer : ℕ → BitVec 8) (length : BitVec 16) :
    Program (Session σ) ReadCursor := do
  waitWhileInProgress flash.toQspiFlash
  if mergin flash.toQspiFlash address < length then
    readAcross flash ⟨address, 0, buffer, 0⟩ (mergin flash.toQspiFlash address) length
  else
    readWithin flash ⟨address, 0, buffer, 0⟩ length

end Code

end HalAPI.QSPI
