import HalAPI.QSPI.Store

/-!
# Runs of the flash store

Behind the driver, a flash chip answers every sequence of operations as the store does
(`accesses_refine_store`), or as the store may if it refuses write enables
(`accesses_answer_store`).

For a caller this means that what was written to erased bytes is read back, with any other
operations in between that spare them (`readFlash_after_writeFlash`), and that without erasures it
does not matter in which order, or how often, writes are made (`writes_in_any_order`).
-/

namespace HalAPI.QSPI

open Foundation

variable {σ : Type}

/-! ## A chip that is erased -/

/-- A chip with its memory, the number of status reads it will still be busy for, and its
latch. -/
structure EraseChip where
  memory : ℕ → BitVec 8
  busy : ℕ
  latch : Bool

/-- The size of the blocks that a chip erases with the command `0x20`. -/
def sectorSize (command : BitVec 32) : ℕ := if command = 0x20 then 4096 else 0

/-- A bus that leads to a chip with pages of 256 bytes and blocks of 4096, which is busy for five
status reads after an erasure and for three after a page program.  It either grants all write
enables or none. -/
def eraseFlash (grants : Bool) : ReadingFlash EraseChip where
  bus := {
    onReadReg _ _ chip := (some ((if chip.busy = 0 then 0 else 1) ||| if chip.latch then 2 else 0),
      { chip with busy := chip.busy - 1 })
    onWriteReg command bytes _ chip :=
      if command = 6 then { chip with latch := grants }
      else if chip.latch && command = 0x20 then
        { memory := applyChange chip.memory (eraseChange 4096 (addressOf bytes))
          busy := 5
          latch := false }
      else chip
    onWrite location data chip :=
      if chip.latch then
        (data.length, {
          memory := pageProgram 256 (BitVec.ofInt 32 location).toNat data chip.memory
          busy := 3
          latch := false })
      else (-1, chip) }
  constants := chipFlash.constants
  pageSize := 256
  onRead location n chip :=
    ((n, firstElements (fun i => chip.memory ((BitVec.ofInt 32 location).toNat + i)) n), chip)

/-- The status shows the latch and whether the chip is busy. -/
lemma eraseFlash_status (n : ℕ) (latch : Bool) :
    (((if n = 0 then 0#8 else 1#8) ||| if latch then 2#8 else 0#8) &&& 2#8 =
      if latch then 2#8 else 0#8) ∧
    ((if n = 0 then 0#8 else 1#8) ||| if latch then 2#8 else 0#8) &&& 1#8 =
      if n = 0 then 0#8 else 1#8 := by
  cases latch
  · by_cases hn : n = 0
    · simp [hn]
    · simp [hn]
  · by_cases hn : n = 0
    · simp [hn]
    · simp [hn]

/-- The chip is a flash chip. -/
lemma flashChip_eraseFlash (grants : Bool) : FlashChip (eraseFlash grants) sectorSize
    EraseChip.memory (fun chip => chip.busy != 0) EraseChip.latch where
  reported chip hchip := by
    have hbusy : chip.busy ≠ 0 := by simpa using hchip
    change ((if chip.busy = 0 then 0#8 else 1#8) ||| if chip.latch then 2#8 else 0#8) &&& 1#8 ≠ 0
    rw [(eraseFlash_status _ _).2, if_neg hbusy]
    decide
  status chip hchip := by
    have hidle : chip.busy = 0 := by simpa using hchip
    simp [statusAnswer, eraseFlash, hidle]
  enable chip hchip := hchip
  read _ _ chip hchip := hchip
  calm := calm_of_countdown EraseChip.busy (fun _ => rfl) fun chip hidle => by
    change ((if chip.busy = 0 then 0#8 else 1#8) ||| if chip.latch then 2#8 else 0#8) &&& 1#8 = 0
    rw [(eraseFlash_status _ _).2, if_pos hidle]
    rfl
  statusKeeps _ := rfl
  latched chip _ := by
    change ((if chip.busy = 0 then 0#8 else 1#8) ||| if chip.latch then 2#8 else 0#8) &&& 2#8 ≠ 0 ↔ _
    rw [(eraseFlash_status _ _).1]
    cases hlatch : chip.latch
    · simp
    · simp
  latchKept _ _ := rfl
  enableKeeps _ _ := rfl
  program location data chip _ := by
    cases hlatch : chip.latch
    · simp [eraseFlash, hlatch]
    · simp [eraseFlash, hlatch]
  erase command bytes chip _ hcommand _ := by
    have hsector : command = 0x20 := by
      by_contra hother
      rw [sectorSize, if_neg hother] at hcommand
      exact absurd hcommand (lt_irrefl 0)
    subst hsector
    cases hlatch : chip.latch
    · simp [eraseFlash, hlatch]
    · simp [eraseFlash, hlatch, sectorSize]
  array _ _ _ _ := ⟨Int.natCast_nonneg _, rfl⟩
  readKeeps _ _ _ _ := rfl

/-- A chip may grant all write enables. -/
lemma grants_eraseFlash :
    Grants (eraseFlash true) (fun chip => chip.busy != 0) EraseChip.latch :=
  fun _ _ => rfl

/-! ## Runs of operations -/

/-- Behind the driver, a flash chip is a store.  On a chip that grants write enables, from any of
its states, busy or not, every sequence of `erase_block`, `read_flash` and `write_flash` ends, is
answered as the store answers it, and leaves in the chip what is then in the store. -/
theorem accesses_refine_store {flash : ReadingFlash σ} {blockSize : BitVec 32 → ℕ}
    {mem : σ → ℕ → BitVec 8} {busy enabled : σ → Bool}
    (h : FlashChip flash blockSize mem busy enabled) (hgrants : Grants flash busy enabled)
    (hpage : flash.pageSize ≠ 0) (accesses : List Access)
    (hfit : ∀ access ∈ accesses, access.Fits blockSize) (s : Session σ) :
    ∃ s', (Program.inTurn (Access.reply flash) accesses).Yields s
        (replies (storeNext blockSize) storeReply (mem s.device) accesses) s' ∧
      mem s'.device = run (storeNext blockSize) (mem s.device) accesses := by
  obtain ⟨answers, s', hy, rfl, hmem⟩ :=
    h.total_inTurn_of_grants hgrants (pageSize_pos hpage) hfit (mem s.device) s rfl
  exact ⟨s', hy, hmem⟩

/-- Half of the data is in the next page, on a chip that is busy at first and holds zeros. -/
theorem accesses_refine_store_sector :
    ∃ s', (Program.inTurn (Access.reply (eraseFlash true))
        [.eraseBlock 5000 0x20, .writeFlash 4350 (fun i => BitVec.ofNat 8 i) 4,
          .readFlash 4350 (fun _ => 7) 4]).Yields ⟨⟨fun _ => 0, 2, false⟩, []⟩
        (replies (storeNext sectorSize) storeReply (fun _ => 0)
          [.eraseBlock 5000 0x20, .writeFlash 4350 (fun i => BitVec.ofNat 8 i) 4,
            .readFlash 4350 (fun _ => 7) 4]) s' ∧
      s'.device.memory 4353 = 3 ∧ s'.device.memory 4354 = 0xFF#8 ∧
      s'.device.memory 4095 = 0 := by
  obtain ⟨s', hy, hmem⟩ := accesses_refine_store (flashChip_eraseFlash true) grants_eraseFlash
    (by decide) [.eraseBlock 5000 0x20, .writeFlash 4350 (fun i => BitVec.ofNat 8 i) 4,
      .readFlash 4350 (fun _ => 7) 4] (by simp [Access.Fits, sectorSize])
    ⟨⟨fun _ => 0, 2, false⟩, []⟩
  refine ⟨s', hy, ?_, ?_, ?_⟩
  · rw [hmem]
    decide
  · rw [hmem]
    decide
  · rw [hmem]
    decide

/-- On any flash chip, every sequence of operations ends and is answered as the store may answer
it: an erasure that is refused reports it and changes nothing, a write whose page programs are
refused changes no byte but those of its range, and those only to what they should become, and a
read delivers what is in the chip. -/
theorem accesses_answer_store {flash : ReadingFlash σ} {blockSize : BitVec 32 → ℕ}
    {mem : σ → ℕ → BitVec 8} {busy enabled : σ → Bool}
    (h : FlashChip flash blockSize mem busy enabled) (hpage : flash.pageSize ≠ 0)
    (accesses : List Access) (hfit : ∀ access ∈ accesses, access.Fits blockSize)
    (s : Session σ) :
    ∃ answers s', (Program.inTurn (Access.reply flash) accesses).Yields s answers s' ∧
      Answers (MayAnswer blockSize) (mem s.device) accesses answers (mem s'.device) := by
  have hreply : ∀ access m, access.Fits blockSize → Program.Total (fun s => mem s.device = m)
      (access.reply flash) (fun answer s => ∃ m', MayAnswer blockSize m access answer m' ∧
        mem s.device = m') := by
    intro access m hfit
    exact (h.total_reply (pageSize_pos hpage) hfit).weaken (fun _ hs => hs)
      fun answer s hs => ⟨mem s.device, hs.1, rfl⟩
  obtain ⟨answers, s', hy, m', hanswers, rfl⟩ := Program.Total.inTurn
    (fun m s => mem s.device = m) hreply hfit (mem s.device) s rfl
  exact ⟨answers, s', hy, hanswers⟩

/-- An erasure and a write, on a chip that refuses all write enables. -/
theorem accesses_answer_store_refused :
    ∃ answers s', (Program.inTurn (Access.reply (eraseFlash false))
        [.eraseBlock 5000 0x20, .writeFlash 4350 (fun i => BitVec.ofNat 8 i) 4]).Yields
          ⟨⟨fun _ => 0, 2, false⟩, []⟩ answers s' ∧
      Answers (MayAnswer sectorSize) (fun _ => 0)
        [.eraseBlock 5000 0x20, .writeFlash 4350 (fun i => BitVec.ofNat 8 i) 4] answers
        s'.device.memory :=
  accesses_answer_store (flashChip_eraseFlash false) (by decide) _
    (by simp [Access.Fits, sectorSize]) ⟨⟨fun _ => 0, 2, false⟩, []⟩

/-! ## What a caller may rely on -/

namespace Access

variable (blockSize : BitVec 32 → ℕ)

/-- The operation erases the byte. -/
def Erases (access : Access) (a : ℕ) : Prop := ∃ c ∈ access.change blockSize, c.Erases a

/-- The operation neither erases the byte nor programs it. -/
def Spares (access : Access) (a : ℕ) : Prop := ∀ c ∈ access.change blockSize, c.Spares a

end Access

/-- After the operations the byte is erased, and nothing has been programmed into it since. -/
def Blank (blockSize : BitVec 32 → ℕ) (accesses : List Access) (a : ℕ) : Prop :=
  ∃ before access after, accesses = before ++ access :: after ∧ access.Erases blockSize a ∧
    ∀ later ∈ after, later.Spares blockSize a

section Store

variable {blockSize : BitVec 32 → ℕ} {m : ℕ → BitVec 8} {accesses : List Access} {a : ℕ}

/-- The store changes by the changes of the operations. -/
lemma run_storeNext (blockSize : BitVec 32 → ℕ) (m : ℕ → BitVec 8) (accesses : List Access) :
    run (storeNext blockSize) m accesses =
      run applyChange m (accesses.filterMap (Access.change blockSize)) := by
  induction accesses generalizing m with
  | nil => rfl
  | cons access accesses ih =>
    rw [run_cons, ih, storeNext]
    cases hchange : access.change blockSize with
    | none => simp [hchange]
    | some c => simp [hchange]

/-- A byte that every operation spares stays as it is. -/
lemma run_storeNext_of_spares (h : ∀ access ∈ accesses, access.Spares blockSize a) :
    run (storeNext blockSize) m accesses a = m a := by
  rw [run_storeNext]
  refine Change.run_apply_of_spares fun c hc => ?_
  obtain ⟨access, haccess, hchange⟩ := List.mem_filterMap.mp hc
  exact h access haccess c hchange

/-- A run of operations one after the other. -/
lemma run_storeNext_append (blockSize : BitVec 32 → ℕ) (m : ℕ → BitVec 8)
    (before after : List Access) : run (storeNext blockSize) m (before ++ after) =
      run (storeNext blockSize) (run (storeNext blockSize) m before) after :=
  List.foldl_append

/-- A blank byte has all bits set. -/
lemma run_storeNext_of_blank (h : Blank blockSize accesses a) :
    run (storeNext blockSize) m accesses a = 0xFF#8 := by
  obtain ⟨before, access, after, rfl, ⟨c, hc, herases⟩, hafter⟩ := h
  rw [run_storeNext_append, run_cons, run_storeNext_of_spares hafter, storeNext,
    Option.mem_def.mp hc]
  exact Change.apply_of_erases herases

/-- What is written to blank bytes is in the store, and stays there. -/
lemma run_storeNext_of_written {before after : List Access} {address : BitVec 32}
    {buff : ℕ → BitVec 8} {length : BitVec 16} {i : ℕ} (hi : i < length.toNat)
    (hblank : Blank blockSize before (address.toNat + i))
    (hafter : ∀ access ∈ after, access.Spares blockSize (address.toNat + i)) :
    run (storeNext blockSize) m (before ++ .writeFlash address buff length :: after)
      (address.toNat + i) = buff i := by
  rw [run_storeNext_append, run_cons, run_storeNext_of_spares hafter]
  change overlay (· &&& ·) _ _ _ _ = _
  rw [overlay_add _ _ _ (getElem?_firstElements buff _ hi), run_storeNext_of_blank hblank]
  exact BitVec.allOnes_and

end Store

/-- What was written is read back.  If every byte of a range is blank when it is written, and all
operations after the write spare the range, then on a chip that grants write enables
`read_flash` copies to its buffer what the buffer of `write_flash` held, and nothing else. -/
theorem readFlash_after_writeFlash {flash : ReadingFlash σ} {blockSize : BitVec 32 → ℕ}
    {mem : σ → ℕ → BitVec 8} {busy enabled : σ → Bool}
    (h : FlashChip flash blockSize mem busy enabled) (hgrants : Grants flash busy enabled)
    (hpage : flash.pageSize ≠ 0) (before after : List Access) (address : BitVec 32)
    (buff buffer : ℕ → BitVec 8) (length : BitVec 16)
    (hfit : ∀ access ∈ before ++ .writeFlash address buff length :: after,
      access.Fits blockSize)
    (hblank : ∀ i < length.toNat, Blank blockSize before (address.toNat + i))
    (hafter : ∀ access ∈ after, ∀ i < length.toNat,
      access.Spares blockSize (address.toNat + i)) (s : Session σ) :
    ∃ answers s₁ c s₂,
      (Program.inTurn (Access.reply flash)
        (before ++ .writeFlash address buff length :: after)).Yields s answers s₁ ∧
      (readFlash flash address buffer length).Yields s₁ c s₂ ∧ c.result = length ∧
      (∀ i < length.toNat, c.buffer i = buff i) ∧
      ∀ i, length.toNat ≤ i → c.buffer i = buffer i := by
  have hwrite : (Access.writeFlash address buff length).Fits blockSize :=
    hfit _ (List.mem_append_right _ List.mem_cons_self)
  obtain ⟨answers, s₁, hy₁, -, hmem⟩ :=
    h.total_inTurn_of_grants hgrants (pageSize_pos hpage) hfit (mem s.device) s rfl
  obtain ⟨c, s₂, hy₂, hresult, hbuffer, -⟩ := h.total_readFlash buffer hwrite s₁ hmem
  refine ⟨answers, s₁, c, s₂, hy₁, hy₂, hresult, fun i hi => ?_, fun i hi => ?_⟩
  · have hcopied : copied (run (storeNext blockSize) (mem s.device)
        (before ++ .writeFlash address buff length :: after)) address.toNat length.toNat buffer
          (0 + i) = _ :=
      overlay_add _ _ _ (getElem?_firstElements _ _ hi)
    rw [Nat.zero_add, run_storeNext_of_written hi (hblank i hi) fun access haccess =>
      hafter access haccess i hi] at hcopied
    rw [hbuffer, hcopied]
  · rw [hbuffer]
    refine overlay_of_not _ _ _ (Or.inr ?_)
    rw [length_firstElements, Nat.zero_add]
    exact hi

/-- Four bytes across a page boundary, after which the block before theirs is erased and other bytes
of their page are written. -/
theorem readFlash_after_writeFlash_spared :
    ∃ answers s₁ c s₂,
      (Program.inTurn (Access.reply (eraseFlash true)) ([.eraseBlock 5000 0x20] ++
        .writeFlash 4350 (fun i => BitVec.ofNat 8 i) 4 ::
          [.eraseBlock 100 0x20, .writeFlash 4360 (fun _ => 0) 8])).Yields
            ⟨⟨fun _ => 0, 2, false⟩, []⟩ answers s₁ ∧
      (readFlash (eraseFlash true) 4350 (fun _ => 7) 4).Yields s₁ c s₂ ∧ c.result = 4 ∧
      c.buffer 3 = 3 ∧ c.buffer 4 = 7 := by
  have hblank : ∀ i < (4 : BitVec 16).toNat,
      Blank sectorSize [.eraseBlock 5000 0x20] ((4350 : BitVec 32).toNat + i) := by
    intro i hi
    refine ⟨[], .eraseBlock 5000 0x20, [], rfl, ⟨_, rfl, ?_⟩, by simp⟩
    change 4096 ≤ 4350 + i ∧ 4350 + i < 4096 + 4096
    change i < 4 at hi
    omega
  have hafter : ∀ access ∈ [Access.eraseBlock 100 0x20, .writeFlash 4360 (fun _ => 0) 8],
      ∀ i < (4 : BitVec 16).toNat, access.Spares sectorSize ((4350 : BitVec 32).toNat + i) := by
    intro access haccess i hi
    change i < 4 at hi
    rcases List.mem_pair.mp haccess with rfl | rfl
    · rintro c ⟨⟩
      refine ⟨?_, rfl⟩
      change ¬ (0 ≤ 4350 + i ∧ 4350 + i < 0 + 4096)
      omega
    · rintro c ⟨⟩
      refine ⟨id, if_neg ?_⟩
      change ¬ 4360 ≤ 4350 + i
      omega
  obtain ⟨answers, s₁, c, s₂, hy₁, hy₂, hresult, hin, hout⟩ := readFlash_after_writeFlash
    (flashChip_eraseFlash true) grants_eraseFlash (by decide) [.eraseBlock 5000 0x20] _ 4350
    (fun i => BitVec.ofNat 8 i) (fun _ => 7) 4 (by simp [Access.Fits, sectorSize]) hblank hafter
    ⟨⟨fun _ => 0, 2, false⟩, []⟩
  exact ⟨answers, s₁, c, s₂, hy₁, hy₂, hresult, hin 3 (by decide), hout 4 (by decide)⟩

/-- Without erasures only the set of the writes matters.  Two sequences of operations with the same
members, in whatever order and number, none of them an erasure, leave the same bytes in a
chip that grants write enables. -/
theorem writes_in_any_order {flash : ReadingFlash σ} {blockSize : BitVec 32 → ℕ}
    {mem : σ → ℕ → BitVec 8} {busy enabled : σ → Bool}
    (h : FlashChip flash blockSize mem busy enabled) (hgrants : Grants flash busy enabled)
    (hpage : flash.pageSize ≠ 0) (accesses accesses' : List Access)
    (hmem : ∀ access, access ∈ accesses ↔ access ∈ accesses')
    (hfit : ∀ access ∈ accesses, access.Fits blockSize)
    (hkept : ∀ access ∈ accesses, ∀ a, ¬ access.Erases blockSize a) (s : Session σ) :
    ∃ answers answers' s₁ s₂,
      (Program.inTurn (Access.reply flash) accesses).Yields s answers s₁ ∧
      (Program.inTurn (Access.reply flash) accesses').Yields s answers' s₂ ∧
      mem s₁.device = mem s₂.device := by
  have hfit' : ∀ access ∈ accesses', access.Fits blockSize :=
    fun access haccess => hfit access ((hmem access).mpr haccess)
  obtain ⟨answers, s₁, hy₁, -, hmem₁⟩ :=
    h.total_inTurn_of_grants hgrants (pageSize_pos hpage) hfit (mem s.device) s rfl
  obtain ⟨answers', s₂, hy₂, -, hmem₂⟩ :=
    h.total_inTurn_of_grants hgrants (pageSize_pos hpage) hfit' (mem s.device) s rfl
  refine ⟨answers, answers', s₁, s₂, hy₁, hy₂, ?_⟩
  rw [hmem₁, hmem₂, run_storeNext, run_storeNext]
  refine Change.run_apply_congr (fun x d => ?_) (fun c => ?_) fun c hc a herases => ?_
  · rw [BitVec.and_assoc, BitVec.and_self]
  · simp only [List.mem_filterMap, hmem]
  · obtain ⟨access, haccess, hchange⟩ := List.mem_filterMap.mp hc
    exact hkept access haccess a ⟨c, hchange, herases⟩

/-- Two writes that overlap, and the same with the first repeated at the end. -/
theorem writes_in_any_order_repeated :
    ∃ answers answers' s₁ s₂,
      (Program.inTurn (Access.reply (eraseFlash true))
        [.writeFlash 250 (fun i => BitVec.ofNat 8 i) 20,
          .writeFlash 260 (fun _ => 9) 20]).Yields ⟨⟨fun _ => 0xFF#8, 2, false⟩, []⟩ answers s₁ ∧
      (Program.inTurn (Access.reply (eraseFlash true))
        [.writeFlash 260 (fun _ => 9) 20, .writeFlash 250 (fun i => BitVec.ofNat 8 i) 20,
          .writeFlash 260 (fun _ => 9) 20]).Yields
            ⟨⟨fun _ => 0xFF#8, 2, false⟩, []⟩ answers' s₂ ∧
      s₁.device.memory = s₂.device.memory := by
  refine writes_in_any_order (flashChip_eraseFlash true) grants_eraseFlash (by decide)
    [.writeFlash 250 (fun i => BitVec.ofNat 8 i) 20, .writeFlash 260 (fun _ => 9) 20] _
    (fun access => ?_) (by simp [Access.Fits]) ?_ ⟨⟨fun _ => 0xFF#8, 2, false⟩, []⟩
  · simp only [List.mem_cons, List.not_mem_nil, or_false]
    tauto
  · intro access haccess a
    rcases List.mem_pair.mp haccess with rfl | rfl
    · rintro ⟨c, ⟨⟩, herases⟩
      exact herases
    · rintro ⟨c, ⟨⟩, herases⟩
      exact herases

end HalAPI.QSPI
