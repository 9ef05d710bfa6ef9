import HalAPI.Foundation.Projection
import HalAPI.QSPI.Transfers
import HalAPI.QSPI.WriteFlash

/-!
# `read_flash` reads a range

`read_flash` cuts a range at the page boundaries, with an address, a buffer position, a length and
a result of its own for every chunk.  What it has done after some chunks is `ReadSoFar`: the calls
are those of the chunks, the cursor is at their end, and the bytes that arrived are in the
buffer.  Each read adds its chunk, whether it is assigned a failure or not.

If no read fails, the chunks amount to one flat read (`readFlash_reads_range`).
-/

namespace HalAPI.QSPI

open Foundation

variable {σ : Type}

/-! ## A chip that is read -/

/-- The bus leads to a chip with the content `mem` that answers every read with the bytes from its
address on, keeps its content during reads and status reads, and is in progress for finitely many
polls only. -/
structure ReadsArray (flash : ReadingFlash σ) (mem : σ → BitVec 32 → BitVec 8) : Prop where
  read : ∀ location n d, (flash.onRead location n d).1 = ((n : ℤ),
    firstElements (fun i => mem d (BitVec.ofInt 32 location + BitVec.ofNat 32 i)) n)
  keeps : ∀ location n d, mem (flash.onRead location n d).2 = mem d
  status : ∀ d, mem (statusAnswer flash.toQspiFlash d).2 = mem d
  calm : Calm flash.toQspiFlash

/-- The buffer `after` holds the bytes of the range that were moved, and is `before` elsewhere. -/
structure Received (content : BitVec 32 → BitVec 8) (address : BitVec 32) (n : ℕ)
    (log : List Transfer) (before after : ℕ → BitVec 8) : Prop where
  arrived : ∀ i < n, Moved log (address + BitVec.ofNat 32 i) →
    after i = content (address + BitVec.ofNat 32 i)
  kept : ∀ i, (i < n → ¬ Moved log (address + BitVec.ofNat 32 i)) → after i = before i

/-- What `read_flash` has done after the chunks `done`. -/
structure ReadSoFar (verdict : ℕ → ℤ) (content : BitVec 32 → BitVec 8) (address : BitVec 32)
    (buffer : ℕ → BitVec 8) (done : List ℕ) (c : ReadCursor) (log : List Transfer) : Prop where
  log_eq : log = transfers verdict 0 address done
  address_eq : c.address = address + BitVec.ofNat 32 done.sum
  position_eq : c.position = done.sum
  result_eq : c.result = BitVec.ofNat 16 done.sum
  received : Received content address done.sum log buffer c.buffer

section Chunks

variable {verdict : ℕ → ℤ} {content : BitVec 32 → BitVec 8} {address : BitVec 32}
  {buffer : ℕ → BitVec 8} {done : List ℕ} {c : ReadCursor} {log : List Transfer} {n : BitVec 16}

variable (c) in
/-- Storing data is an overlay of the buffer. -/
lemma store_buffer (data : List (BitVec 8)) :
    (c.store data).buffer = overlay (fun _ d => d) c.buffer c.position data := rfl

variable (verdict content address buffer) in
/-- Nothing is done before the first chunk. -/
lemma readSoFar_nil : ReadSoFar verdict content address buffer [] ⟨address, 0, buffer, 0⟩ [] where
  log_eq := rfl
  address_eq := by simp
  position_eq := rfl
  result_eq := rfl
  received := ⟨fun i hi => absurd hi (Nat.not_lt_zero i), fun _ _ => rfl⟩

/-- The calls so far moved none of the bytes after the chunks so far. -/
lemma ReadSoFar.not_moved (h : ReadSoFar verdict content address buffer done c log) {i : ℕ}
    (hi : done.sum ≤ i) (hlt : i < 2 ^ 32) : ¬ Moved log (address + BitVec.ofNat 32 i) := by
  intro hmoved
  rw [h.log_eq] at hmoved
  exact absurd (lt_sum_of_moved hlt (by omega) hmoved) (not_lt.mpr hi)

/-- After one more call the cursor is at the end of its chunk. -/
lemma ReadSoFar.advance (h : ReadSoFar verdict content address buffer done c log)
    {data : List (BitVec 8)} {t : Transfer}
    (ht : t = ⟨c.address, n.toNat, if verdict done.length < 0 then 0 else n.toNat⟩)
    (hreceived : Received content address (done.sum + n.toNat) (log ++ [t]) buffer
      (c.store data).buffer) :
    ReadSoFar verdict content address buffer (done ++ [n.toNat]) ((c.store data).advance n)
      (log ++ [t]) where
  log_eq := by rw [transfers_concat, ← h.log_eq, ← h.address_eq, ht]
  address_eq := by
    change c.address + n.setWidth 32 = _
    rw [h.address_eq, List.sum_append, List.sum_singleton, ← address_add]
    simp
  position_eq := by
    change c.position + n.toNat = _
    rw [h.position_eq, List.sum_append, List.sum_singleton]
  result_eq := by
    change c.result + n = _
    rw [h.result_eq, List.sum_append, List.sum_singleton, BitVec.ofNat_add, BitVec.ofNat_toNat,
      BitVec.setWidth_eq]
  received := by
    rw [List.sum_append, List.sum_singleton]
    exact hreceived

/-- A read that fails stores nothing. -/
lemma ReadSoFar.failed (h : ReadSoFar verdict content address buffer done c log)
    (hfit : done.sum + n.toNat ≤ 2 ^ 32) (hfailed : verdict done.length < 0) :
    ReadSoFar verdict content address buffer (done ++ [n.toNat]) ((c.store []).advance n)
      (log ++ [⟨c.address, n.toNat, 0⟩]) := by
  have hbuffer : (c.store []).buffer = c.buffer := by
    rw [store_buffer, overlay_nil]
  have hsame : ∀ a, Moved (log ++ [⟨c.address, n.toNat, 0⟩]) a ↔ Moved log a := by
    intro a
    rw [moved_concat]
    exact or_iff_left (Nat.not_lt_zero _)
  refine h.advance (by rw [if_pos hfailed]) ⟨fun i hi hmoved => ?_, fun i hi => ?_⟩
  · rw [hsame] at hmoved
    rw [hbuffer]
    refine h.received.arrived i ?_ hmoved
    by_contra hlast
    exact h.not_moved (not_lt.mp hlast) (by omega) hmoved
  · rw [hbuffer]
    exact h.received.kept i fun hlt => (hsame _).not.mp (hi (by omega))

/-- A read that succeeds stores its chunk. -/
lemma ReadSoFar.read (h : ReadSoFar verdict content address buffer done c log)
    (hfit : done.sum + n.toNat ≤ 2 ^ 32) (hmade : ¬ verdict done.length < 0) :
    ReadSoFar verdict content address buffer (done ++ [n.toNat])
      ((c.store (firstElements (fun i => content (c.address + BitVec.ofNat 32 i)) n.toNat)).advance n)
      (log ++ [⟨c.address, n.toNat, n.toNat⟩]) := by
  have hcovered : ∀ i < 2 ^ 32, Moved (log ++ [⟨c.address, n.toNat, n.toNat⟩])
      (address + BitVec.ofNat 32 i) ↔ Moved log (address + BitVec.ofNat 32 i) ∨
        done.sum ≤ i ∧ i < done.sum + n.toNat := by
    intro i hi
    rw [moved_concat, h.address_eq, sub_lt_iff hi hfit]
  have houtside : ∀ i, i < done.sum ∨ done.sum + n.toNat ≤ i →
      (c.store (firstElements (fun i => content (c.address + BitVec.ofNat 32 i)) n.toNat)).buffer i =
        c.buffer i := by
    intro i hi
    rw [store_buffer]
    refine overlay_of_not _ _ _ ?_
    rwa [length_firstElements, h.position_eq]
  refine h.advance (by rw [if_neg hmade]) ⟨fun i hi hmoved => ?_, fun i hi => ?_⟩
  · rcases lt_or_ge i done.sum with hbefore | hchunk
    · rw [houtside i (Or.inl hbefore)]
      refine h.received.arrived i hbefore ?_
      exact ((hcovered i (by omega)).mp hmoved).resolve_right fun hlast => by omega
    · obtain ⟨j, rfl⟩ := Nat.exists_eq_add_of_le hchunk
      have hj : j < n.toNat := by omega
      rw [store_buffer, ← h.position_eq, overlay_add _ _ _ (getElem?_firstElements _ _ hj),
        h.address_eq, h.position_eq, address_add]
  · rcases lt_or_ge i (done.sum + n.toNat) with hlt | hafter
    · have hnot := (hcovered i (by omega)).not.mp (hi hlt)
      rw [houtside i (Or.inl (by omega))]
      exact h.received.kept i fun _ hmoved => hnot (Or.inl hmoved)
    · rw [houtside i (Or.inr hafter)]
      exact h.received.kept i fun hlt => by omega

end Chunks

/-! ## The calls of `read_flash` -/

section Programs

variable {flash : ReadingFlash σ} {mem : σ → BitVec 32 → BitVec 8} {verdict : ℕ → ℤ}
  {content : BitVec 32 → BitVec 8} {address : BitVec 32} {buffer : ℕ → BitVec 8} {done : List ℕ}
  {c : ReadCursor}

/-- A read that is assigned a failure. -/
lemma onRead_assign_of_failed {d : σ × List Transfer} (hfailed : verdict d.2.length < 0)
    (a : BitVec 32) (n : ℕ) : (assign verdict flash).onRead a.toInt n d =
      ((verdict d.2.length, []), d.1, d.2 ++ [⟨a, n, 0⟩]) := by
  simp only [assign, if_pos hfailed, BitVec.ofInt_toInt]

/-- A read that is left to the device. -/
lemma onRead_assign_of_made (h : ReadsArray flash mem) {d : σ × List Transfer}
    (hmade : ¬ verdict d.2.length < 0) (a : BitVec 32) (n : ℕ) :
    (assign verdict flash).onRead a.toInt n d =
      (((n : ℤ), firstElements (fun i => mem d.1 (a + BitVec.ofNat 32 i)) n),
        (flash.onRead a.toInt n d.1).2, d.2 ++ [⟨a, n, n⟩]) := by
  simp only [assign, if_neg hmade, h.read, BitVec.ofInt_toInt, List.length_take,
    length_firstElements, Nat.min_self]

/-- A read adds its chunk, and returns a negative value exactly if it is assigned a failure. -/
lemma total_readBytes_assign (h : ReadsArray flash mem) {n : BitVec 16}
    (hfit : done.sum + n.toNat ≤ 2 ^ 32) :
    Program.Total
      (fun s => mem s.device.1 = content ∧
        ReadSoFar verdict content address buffer done c s.device.2)
      (readBytes (assign verdict flash) c n)
      (fun r s => (r.1 < 0 ↔ verdict done.length < 0) ∧ mem s.device.1 = content ∧
        ReadSoFar verdict content address buffer (done ++ [n.toNat]) (r.2.advance n)
          s.device.2) := by
  refine Program.Total.step fun s hs => ?_
  obtain ⟨hmem, hdone⟩ := hs
  have hnumber : s.device.2.length = done.length := by
    rw [hdone.log_eq, length_transfers]
  by_cases hfailed : verdict s.device.2.length < 0
  · rw [onRead_assign_of_failed hfailed, List.take_nil]
    rw [hnumber] at hfailed
    exact ⟨by rw [hnumber], hmem, hdone.failed hfit hfailed⟩
  · rw [onRead_assign_of_made h hfailed, hmem,
      List.take_of_length_le (length_firstElements _ _).le]
    rw [hnumber] at hfailed
    exact ⟨iff_of_false (not_lt.mpr (Int.natCast_nonneg _)) hfailed,
      (h.keeps _ _ _).trans hmem, hdone.read hfit hfailed⟩

/-- The loop adds its chunks. -/
lemma total_readChunks_assign (h : ReadsArray flash mem) {ns : List (BitVec 16)}
    (hfit : done.sum + (ns.map BitVec.toNat).sum ≤ 2 ^ 32) :
    Program.Total
      (fun s => mem s.device.1 = content ∧
        ReadSoFar verdict content address buffer done c s.device.2)
      (readChunks (assign verdict flash) ns c)
      (fun c' s => mem s.device.1 = content ∧ ReadSoFar verdict content address buffer
        (done ++ ns.map BitVec.toNat) c' s.device.2) := by
  induction ns generalizing c done with
  | nil =>
    refine Program.Total.pure fun s hs => ?_
    rwa [List.map_nil, List.append_nil]
  | cons n ns ih =>
    rw [List.map_cons, List.sum_cons] at hfit
    have hnext : (done ++ [n.toNat]).sum + (ns.map BitVec.toNat).sum ≤ 2 ^ 32 := by
      rw [List.sum_append, List.sum_singleton]
      omega
    refine Program.Total.bind (total_readBytes_assign h (n := n) (by omega)) fun chunk => ?_
    refine (ih (c := chunk.2.advance n) hnext).weaken (fun s hs => hs.2) fun c' s hs => ?_
    rwa [List.append_assoc, List.singleton_append] at hs

/-- The branch for a range inside a page makes one call, and its result is zero if the call is
assigned a failure. -/
lemma total_readWithin_assign (h : ReadsArray flash mem) (length : BitVec 16) :
    Program.Total
      (fun s => mem s.device.1 = content ∧
        ReadSoFar verdict content address buffer [] c s.device.2)
      (readWithin (assign verdict flash) c length)
      (fun c' s => c'.result = (if verdict 0 < 0 then 0 else length) ∧
        s.device.2 = transfers verdict 0 address [length.toNat] ∧
        Received content address length.toNat s.device.2 buffer c'.buffer) := by
  have hfit : ([] : List ℕ).sum + length.toNat ≤ 2 ^ 32 := by
    have hlt : length.toNat < 2 ^ 16 := length.isLt
    rw [List.sum_nil]
    omega
  refine Program.Total.bind (total_readBytes_assign h hfit) fun whole => ?_
  refine Program.Total.pure fun s hs => ?_
  obtain ⟨hfailed, -, hdone⟩ := hs
  have hreceived := hdone.received
  rw [List.nil_append, List.sum_singleton] at hreceived
  refine ⟨?_, hdone.log_eq, hreceived⟩
  by_cases hverdict : verdict 0 < 0
  · rw [if_pos (hfailed.mpr hverdict), if_pos hverdict]
  · rw [if_neg (hfailed.not.mpr hverdict), if_neg hverdict]

/-- The calls of `read_flash` are the chunks of the range, the bytes they moved are in the buffer,
and it returns the length of the range unless its only call is assigned a failure. -/
lemma total_readFlash_assign (h : ReadsArray flash mem) (verdict : ℕ → ℤ)
    (content : BitVec 32 → BitVec 8) (address : BitVec 32) (buffer : ℕ → BitVec 8)
    (length : BitVec 16) :
    Program.Total (fun s => mem s.device.1 = content ∧ s.device.2 = [])
      (readFlash (assign verdict flash) address buffer length)
      (fun c s =>
        c.result = (if length ≤ mergin flash.toQspiFlash address ∧ verdict 0 < 0 then 0
          else length) ∧
        s.device.2 = transfers verdict 0 address (chunks flash.toQspiFlash address length) ∧
        Received content address length.toNat s.device.2 buffer c.buffer) := by
  have hstatus : ∀ d : σ × List Transfer, mem d.1 = content ∧ d.2 = [] →
      mem (statusAnswer (assign verdict flash).toQspiFlash d).2.1 = content ∧
        (statusAnswer (assign verdict flash).toQspiFlash d).2.2 = [] :=
    fun d hd => ⟨(h.status d.1).trans hd.1, hd.2⟩
  refine Program.Total.bind
    (total_waitWhileInProgress (calm_assign verdict h.calm) hstatus) fun _ => ?_
  have hstart : ∀ s : Session (σ × List Transfer), mem s.device.1 = content ∧ s.device.2 = [] →
      mem s.device.1 = content ∧
        ReadSoFar verdict content address buffer [] ⟨address, 0, buffer, 0⟩ s.device.2 := by
    rintro s ⟨hmem, hlog⟩
    rw [hlog]
    exact ⟨hmem, readSoFar_nil verdict content address buffer⟩
  by_cases hacross : mergin flash.toQspiFlash address < length
  · have hcut : mergin (assign verdict flash).toQspiFlash address < length := hacross
    have hcounts : (pieces (assign verdict flash).toQspiFlash address length).map BitVec.toNat =
        chunks flash.toQspiFlash address length := map_toNat_pieces flash.toQspiFlash _ _
    have hsum := sum_chunks flash.toQspiFlash address length
    have hfit : ([] : List ℕ).sum +
        ((pieces (assign verdict flash).toQspiFlash address length).map BitVec.toNat).sum ≤
          2 ^ 32 := by
      have hlt : length.toNat < 2 ^ 16 := length.isLt
      rw [hcounts, hsum, List.sum_nil]
      omega
    rw [if_pos hcut, if_neg fun hwithin => absurd hacross (BitVec.not_lt.mpr hwithin.1),
      readAcross_eq hcut]
    refine (total_readChunks_assign h hfit).weaken hstart fun c s hs => ?_
    rw [List.nil_append, hcounts] at hs
    have hresult := hs.2.result_eq
    have hreceived := hs.2.received
    rw [hsum] at hresult hreceived
    rw [BitVec.ofNat_toNat, BitVec.setWidth_eq] at hresult
    exact ⟨hresult, hs.2.log_eq, hreceived⟩
  · have hcut : ¬ mergin (assign verdict flash).toQspiFlash address < length := hacross
    have hwithin : length ≤ mergin flash.toQspiFlash address := BitVec.not_lt.mp hacross
    rw [chunks, if_neg hacross, if_neg hcut]
    refine (total_readWithin_assign h length).weaken hstart fun c s hs => ?_
    simpa only [hwithin, true_and] using hs

/-- A session without the log of its located calls. -/
def withoutLog (s : Session (σ × List Transfer)) : Session σ := ⟨s.device.1, s.trace⟩

/-- Without the log, a status read of the bus with the log is one of the plain bus. -/
lemma projects_readStatusReg (flash : ReadingFlash σ) :
    Program.Projects withoutLog (readStatusReg (assign verdict flash).toQspiFlash)
      (readStatusReg flash.toQspiFlash) := by
  unfold readStatusReg
  refine Program.Projects.bind (Program.Projects.step fun _ => rfl) fun _ => ?_
  exact Program.Projects.pure _ _

/-- Without the log, the wait is the same. -/
lemma projects_waitWhileInProgress (flash : ReadingFlash σ) :
    Program.Projects withoutLog (waitWhileInProgress (assign verdict flash).toQspiFlash)
      (waitWhileInProgress flash.toQspiFlash) := by
  refine Program.Projects.iterate (fun _ => ?_) ()
  refine Program.Projects.bind (projects_readStatusReg flash) fun status => ?_
  exact Program.Projects.ite (Program.Projects.pure _ _) (Program.Projects.pure _ _)

/-- Without the log, a read that is left to the device is the same. -/
lemma projects_readBytes (hmade : ∀ k, ¬ verdict k < 0) (c : ReadCursor) (n : BitVec 16) :
    Program.Projects withoutLog (readBytes (assign verdict flash) c n) (readBytes flash c n) := by
  refine Program.Projects.step fun s => ?_
  simp only [assign, if_neg (hmade _), withoutLog]

/-- Without the log, the loop is the same. -/
lemma projects_readPages (hmade : ∀ k, ¬ verdict k < 0) (pageCount : ℕ) (c : ReadCursor) :
    Program.Projects withoutLog (readPages (assign verdict flash) pageCount c)
      (readPages flash pageCount c) := by
  induction pageCount generalizing c with
  | zero => exact Program.Projects.pure _ _
  | succ pageCount ih =>
    exact Program.Projects.bind (projects_readBytes hmade c flash.pageSize) fun page => ih _

/-- Without the log, `read_flash` is the same if its calls are left to the device. -/
lemma projects_readFlash (hmade : ∀ k, ¬ verdict k < 0) (address : BitVec 32)
    (buffer : ℕ → BitVec 8) (length : BitVec 16) :
    Program.Projects withoutLog (readFlash (assign verdict flash) address buffer length)
      (readFlash flash address buffer length) := by
  refine Program.Projects.bind (projects_waitWhileInProgress flash) fun _ => ?_
  refine Program.Projects.ite ?_ ?_
  · refine Program.Projects.bind (projects_readBytes hmade _ _) fun head => ?_
    refine Program.Projects.bind (projects_readPages hmade _ _) fun paged => ?_
    exact Program.Projects.bind (projects_readBytes hmade _ _) fun _ => Program.Projects.pure _ _
  · exact Program.Projects.bind (projects_readBytes hmade _ _) fun _ => Program.Projects.pure _ _

end Programs

/-! ## Page boundaries -/

/-- The bytes a call was asked to move are in one page. -/
def Transfer.InPage (pageSize : ℕ) (t : Transfer) : Prop :=
  t.address.toNat % pageSize + t.size ≤ pageSize

section Pages

variable {pageSize a n : ℕ}

/-- A call for bytes of one page, in a memory of 32-bit addresses. -/
lemma inPage_ofNat (hpos : 0 < pageSize) (hpage : a % pageSize + n ≤ pageSize)
    (hfit : a + n ≤ 2 ^ 32) (moved : ℕ) :
    Transfer.InPage pageSize ⟨BitVec.ofNat 32 a, n, moved⟩ := by
  change (BitVec.ofNat 32 a).toNat % pageSize + n ≤ pageSize
  rcases Nat.eq_zero_or_pos n with rfl | hn
  · exact (Nat.mod_lt _ hpos).le
  · have hlt : a < 2 ^ 32 := by omega
    rw [BitVec.toNat_ofNat, Nat.mod_eq_of_lt hlt]
    exact hpage

/-- The calls for chunks that end in the pages they start in are in one page each. -/
lemma inPage_transfers (hpos : 0 < pageSize) (verdict : ℕ → ℤ) (k : ℕ) {ns : List ℕ}
    (hpaged : Paged pageSize a ns) (hfit : a + ns.sum ≤ 2 ^ 32) :
    ∀ t ∈ transfers verdict k (BitVec.ofNat 32 a) ns, t.InPage pageSize := by
  induction ns generalizing k a with
  | nil => exact fun t ht => absurd ht (by simp [transfers])
  | cons n ns ih =>
    rw [List.sum_cons] at hfit
    obtain ⟨hpage, hrest⟩ := hpaged
    rw [transfers, List.forall_mem_cons, ← BitVec.ofNat_add]
    exact ⟨inPage_ofNat hpos hpage (by omega) _, ih (k + 1) hrest (by omega)⟩

/-- The calls for the chunks of a range that fits the memory are in one page each. -/
lemma inPage_chunks {flash : QspiFlash σ} (hpos : 0 < flash.pageSize.toNat) (verdict : ℕ → ℤ)
    (address : BitVec 32) (length : BitVec 16) (hfit : address.toNat + length.toNat ≤ 2 ^ 32) :
    ∀ t ∈ transfers verdict 0 address (chunks flash address length),
      t.InPage flash.pageSize.toNat := by
  have haddress : BitVec.ofNat 32 address.toNat = address := by simp
  rw [← sum_chunks flash address length] at hfit
  have hcalls := inPage_transfers hpos verdict 0 (paged_chunks hpos address length) hfit
  rwa [haddress] at hcalls

end Pages

/-- The bus with a log of its located calls, all of which are left to the device. -/
def recordCalls (flash : ReadingFlash σ) : ReadingFlash (σ × List Transfer) :=
  assign (fun _ => 0) flash

/-- `read_flash` refines a flat read.  On a chip that answers every read it returns the length it
was given, the buffer holds the range of the content from its start on and is as it was after
that, and no call of a run with a log of the calls goes past the end of a page. -/
theorem readFlash_reads_range {flash : ReadingFlash σ} {mem : σ → BitVec 32 → BitVec 8}
    (h : ReadsArray flash mem) (hpage : flash.pageSize ≠ 0) (address : BitVec 32)
    (buffer : ℕ → BitVec 8) (length : BitVec 16)
    (hfit : address.toNat + length.toNat ≤ 2 ^ 32) (s : Session σ) :
    ∃ c s' log, (readFlash flash address buffer length).Yields s c s' ∧
      (readFlash (recordCalls flash) address buffer length).Yields ⟨(s.device, []), s.trace⟩ c
        ⟨(s'.device, log), s'.trace⟩ ∧
      c.result = length ∧
      (∀ i < length.toNat, c.buffer i = mem s.device (BitVec.ofNat 32 (address.toNat + i))) ∧
      (∀ i, length.toNat ≤ i → c.buffer i = buffer i) ∧
      ∀ t ∈ log, t.InPage flash.pageSize.toNat := by
  have hpos : 0 < flash.pageSize.toNat :=
    Nat.pos_of_ne_zero fun h0 => hpage (BitVec.eq_of_toNat_eq h0)
  have hmade : ∀ k : ℕ, ¬ (fun _ : ℕ => (0 : ℤ)) k < 0 := fun _ => lt_irrefl 0
  obtain ⟨c, s', hy, hresult, hlog, hreceived⟩ := total_readFlash_assign h (fun _ => 0)
    (mem s.device) address buffer length ⟨(s.device, []), s.trace⟩ ⟨rfl, rfl⟩
  have hmoved : ∀ i < length.toNat, Moved s'.device.2 (address + BitVec.ofNat 32 i) := by
    have hlt : length.toNat < 2 ^ 16 := length.isLt
    rw [hlog, ← sum_chunks flash.toQspiFlash address length]
    refine (forall_lt_moved_iff address ?_).mpr fun _ _ _ _ => le_rfl
    rw [sum_chunks]
    omega
  refine ⟨c, withoutLog s', s'.device.2, (projects_readFlash hmade _ _ _).yields hy, hy, ?_,
    fun i hi => ?_, fun i hi => hreceived.kept i fun hlt => absurd hlt (not_lt.mpr hi), ?_⟩
  · rw [hresult, if_neg fun hboth => lt_irrefl 0 hboth.2]
  · rw [hreceived.arrived i hi (hmoved i hi), BitVec.ofNat_add, BitVec.ofNat_toNat 32 address,
      BitVec.setWidth_eq]
  · rw [hlog]
    exact inPage_chunks hpos _ address length hfit

/-- A chip whose cell at an address holds its low byte, which is in progress for the number of
status reads that is its state. -/
def countingArray : ReadingFlash ℕ where
  bus := {
    onReadReg _ _ k := (some (if k = 0 then 2 else 3), k - 1)
    onWriteReg _ _ _ k := k
    onWrite _ data k := (data.length, k) }
  constants := chipFlash.constants
  pageSize := 256
  onRead location n k :=
    ((n, firstElements (fun i => (BitVec.ofInt 32 location + BitVec.ofNat 32 i).setWidth 8) n), k)

/-- The chip answers every read. -/
lemma readsArray_countingArray : ReadsArray countingArray (fun _ a => a.setWidth 8) where
  read _ _ _ := rfl
  keeps _ _ _ := rfl
  status _ := rfl
  calm := calm_of_countdown (fun k => k) (fun _ => rfl) fun k hk => by
    obtain rfl : k = 0 := hk
    rfl

/-- Seven hundred bytes from the middle of a page on, from a chip that is in progress at first. -/
theorem readFlash_reads_range_counting :
    ∃ c s' log, (readFlash countingArray 130 (fun _ => 7) 700).Yields ⟨2, []⟩ c s' ∧
      (readFlash (recordCalls countingArray) 130 (fun _ => 7) 700).Yields ⟨(2, []), []⟩ c
        ⟨(s'.device, log), s'.trace⟩ ∧
      c.result = 700 ∧ c.buffer 127 = 1 ∧ c.buffer 700 = 7 ∧ ∀ t ∈ log, t.InPage 256 := by
  obtain ⟨c, s', log, hy, hlog, hresult, harrived, hkept, hpages⟩ := readFlash_reads_range
    readsArray_countingArray (by decide) 130 (fun _ => 7) 700 (by decide) ⟨2, []⟩
  exact ⟨c, s', log, hy, hlog, hresult, (harrived 127 (by decide)).trans (by decide),
    hkept 700 (by decide), hpages⟩

end HalAPI.QSPI
