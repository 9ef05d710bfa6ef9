import HalAPI.QSPI.ReadRange

/-!
# What a transfer reports

`read_flash` and `write_flash` return how many bytes they transferred.  Neither looks at what the
calls of a range that goes past its first page return, and `write_flash` overwrites the zero of
a failed single write with the length.

So the value is the number of leading bytes that were moved exactly if no chunk with a byte in
it fails, or for `read_flash` if the range is one chunk (`transfers_reported_iff`).
-/

namespace HalAPI.QSPI

open Foundation

/-- Of a range, the first `n` bytes were moved, and the next was not. -/
def LeadingMoved (log : List Transfer) (address : BitVec 32) (length n : ℕ) : Prop :=
  n ≤ length ∧ (∀ i < n, Moved log (address + BitVec.ofNat 32 i)) ∧
    (n < length → ¬ Moved log (address + BitVec.ofNat 32 n))

section Reported

variable {verdict : ℕ → ℤ} {address : BitVec 32}

variable (verdict address) in
/-- The calls for chunks move the whole range exactly if no chunk with a byte in it is assigned a
failure. -/
lemma leadingMoved_all_iff {ns : List ℕ} {length : ℕ} (hsum : ns.sum = length)
    (hlt : length < 2 ^ 32) :
    LeadingMoved (transfers verdict 0 address ns) address length length ↔
      Unfailed verdict 0 ns := by
  subst hsum
  rw [← forall_lt_moved_iff address hlt]
  constructor
  · exact fun h => h.2.1
  · exact fun h => ⟨le_rfl, h, fun hself => absurd hself (lt_irrefl _)⟩

/-- A single call that is assigned a failure moves nothing. -/
lemma leadingMoved_zero_of_failed (hfailed : verdict 0 < 0) (n : ℕ) :
    LeadingMoved (transfers verdict 0 address [n]) address n 0 := by
  refine ⟨Nat.zero_le n, fun i hi => absurd hi (Nat.not_lt_zero i), fun _ hmoved => ?_⟩
  rw [transfers, transfers, if_pos hfailed, moved_cons] at hmoved
  rcases hmoved with hfirst | hrest
  · exact absurd hfirst (Nat.not_lt_zero _)
  · exact absurd hrest (not_moved_nil _)

end Reported

/-- What the two functions report, for every assignment of failures to their located calls.  The
bytes that the calls of `read_flash` moved are in the buffer, and its value is the number of
leading bytes moved exactly if the range is in one page or no chunk with a byte in it fails.
The value of `write_flash` is that number exactly if no chunk with a byte in it fails. -/
theorem transfers_reported_iff {σ : Type} {flash : ReadingFlash σ}
    {mem : σ → BitVec 32 → BitVec 8} (hreads : ReadsArray flash mem)
    (haccepts : AcceptsWrites flash.toQspiFlash) (verdict : ℕ → ℤ) (address : BitVec 32)
    (buffer : ℕ → BitVec 8) (length : BitVec 16) (d : σ) (trace : List Event) :
    (∃ c s, (readFlash (assign verdict flash) address buffer length).Yields ⟨(d, []), trace⟩ c s ∧
      Received (mem d) address length.toNat s.device.2 buffer c.buffer ∧
      (LeadingMoved s.device.2 address length.toNat c.result.toNat ↔
        length ≤ mergin flash.toQspiFlash address ∨
          Unfailed verdict 0 (chunks flash.toQspiFlash address length))) ∧
    ∃ result s, (writeFlash (assign verdict flash).toQspiFlash address buffer length).Yields
        ⟨(d, []), trace⟩ result s ∧
      (LeadingMoved s.device.2 address length.toNat result.toNat ↔
        Unfailed verdict 0 (chunks flash.toQspiFlash address length)) := by
  have hlength : length.toNat < 2 ^ 16 := length.isLt
  have hall := leadingMoved_all_iff verdict address
    (sum_chunks flash.toQspiFlash address length) (by omega)
  obtain ⟨c, s, hread, hresult, hlog, hreceived⟩ := total_readFlash_assign hreads verdict (mem d)
    address buffer length ⟨(d, []), trace⟩ ⟨rfl, rfl⟩
  obtain ⟨result, s', hwrite, hlength', hlog'⟩ := total_writeFlash_assign hreads.calm haccepts
    verdict address buffer length ⟨(d, []), trace⟩ rfl
  refine ⟨⟨c, s, hread, hreceived, ?_⟩, result, s', hwrite, by rw [hlog', hlength', hall]⟩
  by_cases hwithin : length ≤ mergin flash.toQspiFlash address
  · refine iff_of_true ?_ (Or.inl hwithin)
    have hchunks : chunks flash.toQspiFlash address length = [length.toNat] := by
      rw [chunks, if_neg (BitVec.not_lt.mpr hwithin)]
    by_cases hfailed : verdict 0 < 0
    · rw [hlog, hchunks, hresult, if_pos ⟨hwithin, hfailed⟩]
      exact leadingMoved_zero_of_failed hfailed _
    · rw [hlog, hresult, if_neg fun hboth => hfailed hboth.2, hall, hchunks, unfailed_cons]
      exact ⟨fun _ => not_lt.mp hfailed, fun j n hn => absurd hn (by simp)⟩
  · rw [hlog, hresult, if_neg fun hboth => hwithin hboth.1, hall]
    exact (or_iff_right hwithin).symm

/-- The device takes all data of a write. -/
lemma acceptsWrites_countingArray : AcceptsWrites countingArray.toQspiFlash := fun _ _ _ => rfl

/-- Seven hundred bytes from the middle of a page on, with a failure of the second call. -/
theorem transfers_reported_iff_second_failed :
    (∃ c s, (readFlash (assign (fun k => if k = 1 then -5 else 0) countingArray) 130 (fun _ => 7)
        700).Yields ⟨(2, []), []⟩ c s ∧
      Received (fun a => a.setWidth 8) 130 700 s.device.2 (fun _ => 7) c.buffer ∧
      (LeadingMoved s.device.2 130 700 c.result.toNat ↔
        700#16 ≤ mergin countingArray.toQspiFlash 130 ∨ Unfailed (fun k => if k = 1 then -5 else 0)
          0 (chunks countingArray.toQspiFlash 130 700))) ∧
    ∃ result s, (writeFlash (assign (fun k => if k = 1 then -5 else 0) countingArray).toQspiFlash
        130 (fun _ => 7) 700).Yields ⟨(2, []), []⟩ result s ∧
      (LeadingMoved s.device.2 130 700 result.toNat ↔ Unfailed (fun k => if k = 1 then -5 else 0) 0
        (chunks countingArray.toQspiFlash 130 700)) :=
  transfers_reported_iff readsArray_countingArray acceptsWrites_countingArray
    (fun k => if k = 1 then -5 else 0) 130 (fun _ => 7) 700 2 []

/-- Four bytes inside a page, whose only write fails, are reported as written. -/
theorem writeFlash_reports_failed_write :
    ∃ s, (writeFlash (assign (fun _ => -1) countingArray).toQspiFlash 0 (fun _ => 7) 4).Yields
        ⟨(0, []), []⟩ 4 s ∧ ¬ Moved s.device.2 0 ∧ ¬ LeadingMoved s.device.2 0 4 4 := by
  obtain ⟨result, s, hy, rfl, hlog⟩ := total_writeFlash_assign readsArray_countingArray.calm
    acceptsWrites_countingArray (fun _ => -1) 0 (fun _ => 7) 4 ⟨(0, []), []⟩ rfl
  have hchunks : chunks countingArray.toQspiFlash 0 4 = [4] := by decide
  have hnot : ¬ Moved s.device.2 0 := by
    rw [hlog, hchunks]
    simp [transfers, Moved]
  exact ⟨s, hy, hnot, fun h => hnot (h.2.1 0 (by decide))⟩

end HalAPI.QSPI
