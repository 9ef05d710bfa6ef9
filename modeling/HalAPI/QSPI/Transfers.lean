import HalAPI.QSPI.Chunks
import HalAPI.QSPI.Polling

/-!
# The located calls of a transfer

`read_flash` and `write_flash` cut a range into chunks and make a located call of the bus for each
of them.  `assign verdict flash` is the bus on which the calls fail as assigned: the call number
`k` moves nothing and returns `verdict k` if that is negative, and is left to the device
otherwise.  It keeps a log of the calls, the oldest first.

The calls of both functions are the chunks of the range, one after the other
(`total_writeFlash_assign`, `total_readFlash_assign`).
-/

namespace HalAPI.QSPI

open Foundation

/-! ## The log -/

/-- A located call: its address, the bytes it was asked to move and the bytes it moved. -/
structure Transfer where
  address : BitVec 32
  size : ℕ
  moved : ℕ
  deriving DecidableEq

/-- The bus on which the located calls fail as assigned, with a log of them. -/
def assign {σ : Type} (verdict : ℕ → ℤ) (flash : ReadingFlash σ) :
    ReadingFlash (σ × List Transfer) where
  bus := {
    onReadReg command oFlags d :=
      ((flash.bus.onReadReg command oFlags d.1).1, (flash.bus.onReadReg command oFlags d.1).2, d.2)
    onWriteReg command data oFlags d := (flash.bus.onWriteReg command data oFlags d.1, d.2)
    onWrite location data d :=
      if verdict d.2.length < 0 then
        (verdict d.2.length, d.1, d.2 ++ [⟨BitVec.ofInt 32 location, data.length, 0⟩])
      else
        ((flash.bus.onWrite location data d.1).1, (flash.bus.onWrite location data d.1).2,
          d.2 ++ [⟨BitVec.ofInt 32 location, data.length,
            (flash.bus.onWrite location data d.1).1.toNat⟩]) }
  constants := flash.constants
  pageSize := flash.pageSize
  onRead location n d :=
    if verdict d.2.length < 0 then
      ((verdict d.2.length, []), d.1, d.2 ++ [⟨BitVec.ofInt 32 location, n, 0⟩])
    else
      ((flash.onRead location n d.1).1, (flash.onRead location n d.1).2,
        d.2 ++ [⟨BitVec.ofInt 32 location, n, ((flash.onRead location n d.1).1.2.take n).length⟩])

/-- The log of calls for chunks one after the other, the first with the number `k`. -/
def transfers (verdict : ℕ → ℤ) : ℕ → BitVec 32 → List ℕ → List Transfer
  | _, _, [] => []
  | k, address, n :: ns =>
    ⟨address, n, if verdict k < 0 then 0 else n⟩ ::
      transfers verdict (k + 1) (address + BitVec.ofNat 32 n) ns

/-- Some call moved the byte at the address. -/
def Moved (log : List Transfer) (a : BitVec 32) : Prop :=
  ∃ t ∈ log, (a - t.address).toNat < t.moved

/-- No chunk with a byte in it is assigned a failure, from the call number `k` on. -/
def Unfailed (verdict : ℕ → ℤ) (k : ℕ) (ns : List ℕ) : Prop :=
  ∀ j n, ns[j]? = some n → n ≠ 0 → 0 ≤ verdict (k + j)

section Log

variable (verdict : ℕ → ℤ)

/-- There is a call for each chunk. -/
@[simp] lemma length_transfers (k : ℕ) (address : BitVec 32) (ns : List ℕ) :
    (transfers verdict k address ns).length = ns.length := by
  induction ns generalizing k address with
  | nil => rfl
  | cons n ns ih => rw [transfers, List.length_cons, ih, List.length_cons]

/-- The calls for more chunks go on where the last chunk ended. -/
lemma transfers_append (k : ℕ) (address : BitVec 32) (ns ms : List ℕ) :
    transfers verdict k address (ns ++ ms) = transfers verdict k address ns ++
      transfers verdict (k + ns.length) (address + BitVec.ofNat 32 ns.sum) ms := by
  induction ns generalizing k address with
  | nil => simp [transfers]
  | cons n ns ih =>
    have hnumber : k + 1 + ns.length = k + (n :: ns).length := by
      rw [List.length_cons]
      omega
    have haddress : address + BitVec.ofNat 32 n + BitVec.ofNat 32 ns.sum =
        address + BitVec.ofNat 32 (n :: ns).sum := by
      rw [List.sum_cons, BitVec.ofNat_add, BitVec.add_assoc]
    rw [List.cons_append, transfers, transfers, ih, hnumber, haddress]
    rfl

/-- The log after one more call. -/
lemma transfers_concat (address : BitVec 32) (ns : List ℕ) (n : ℕ) :
    transfers verdict 0 address (ns ++ [n]) = transfers verdict 0 address ns ++
      [⟨address + BitVec.ofNat 32 ns.sum, n, if verdict ns.length < 0 then 0 else n⟩] := by
  rw [transfers_append, Nat.zero_add]
  rfl

variable {verdict}

/-- No call has moved a byte yet at the start. -/
lemma not_moved_nil (a : BitVec 32) : ¬ Moved [] a := by
  rintro ⟨t, ht, -⟩
  exact absurd ht (by simp)

/-- A byte is moved by the first call or by a later one. -/
lemma moved_cons (t : Transfer) (log : List Transfer) (a : BitVec 32) :
    Moved (t :: log) a ↔ (a - t.address).toNat < t.moved ∨ Moved log a := by
  simp [Moved]

/-- A byte is moved by the last call or by an earlier one. -/
lemma moved_concat (t : Transfer) (log : List Transfer) (a : BitVec 32) :
    Moved (log ++ [t]) a ↔ Moved log a ∨ (a - t.address).toNat < t.moved := by
  simp [Moved, or_and_right, exists_or]

/-- A call covers the offsets from its own on. -/
lemma sub_lt_iff {address : BitVec 32} {i m n : ℕ} (hi : i < 2 ^ 32) (hfit : m + n ≤ 2 ^ 32) :
    (address + BitVec.ofNat 32 i - (address + BitVec.ofNat 32 m)).toNat < n ↔
      m ≤ i ∧ i < m + n := by
  have hcancel : address + BitVec.ofNat 32 i - (address + BitVec.ofNat 32 m) =
      BitVec.ofNat 32 i - BitVec.ofNat 32 m :=
    add_sub_add_left_eq_sub _ _ _
  rw [hcancel, BitVec.toNat_sub, BitVec.toNat_ofNat, BitVec.toNat_ofNat, Nat.mod_eq_of_lt hi]
  omega

variable (verdict) in
/-- A call moves no more bytes than it was asked to. -/
lemma moved_le (k n : ℕ) : (if verdict k < 0 then 0 else n) ≤ n := by
  split
  · exact Nat.zero_le n
  · exact le_rfl

/-- The address after a chunk. -/
lemma address_add (address : BitVec 32) (m n : ℕ) :
    address + BitVec.ofNat 32 m + BitVec.ofNat 32 n = address + BitVec.ofNat 32 (m + n) := by
  rw [BitVec.add_assoc, ← BitVec.ofNat_add]

/-- The calls for chunks move no byte outside the range of the chunks. -/
lemma range_of_moved {address : BitVec 32} {k m i : ℕ} {ns : List ℕ} (hi : i < 2 ^ 32)
    (hfit : m + ns.sum ≤ 2 ^ 32)
    (h : Moved (transfers verdict k (address + BitVec.ofNat 32 m) ns)
      (address + BitVec.ofNat 32 i)) : m ≤ i ∧ i < m + ns.sum := by
  induction ns generalizing k m with
  | nil => exact absurd h (not_moved_nil _)
  | cons n ns ih =>
    rw [List.sum_cons] at hfit ⊢
    rw [transfers, moved_cons, address_add] at h
    rcases h with hfirst | hrest
    · have hchunk := (sub_lt_iff hi (by omega)).mp (hfirst.trans_le (moved_le verdict k n))
      omega
    · have htail := ih (by omega) hrest
      omega

/-- The first chunk is assigned no failure, nor is a later one. -/
lemma unfailed_cons (k n : ℕ) (ns : List ℕ) :
    Unfailed verdict k (n :: ns) ↔ (n ≠ 0 → 0 ≤ verdict k) ∧ Unfailed verdict (k + 1) ns := by
  constructor
  · intro h
    refine ⟨fun hn => h 0 n rfl hn, fun j m hm hne => ?_⟩
    rw [Nat.add_assoc, Nat.add_comm 1 j]
    exact h (j + 1) m hm hne
  · rintro ⟨hfirst, hrest⟩ j m hm hne
    cases j with
    | zero =>
      obtain rfl : n = m := by simpa using hm
      exact hfirst hne
    | succ j =>
      rw [Nat.add_comm j 1, ← Nat.add_assoc]
      exact hrest j m hm hne

/-- The calls for chunks move every byte exactly if no chunk with a byte in it is assigned a
failure. -/
lemma forall_moved_iff (address : BitVec 32) {k m : ℕ} {ns : List ℕ}
    (hfit : m + ns.sum < 2 ^ 32) :
    (∀ i, m ≤ i → i < m + ns.sum → Moved (transfers verdict k (address + BitVec.ofNat 32 m) ns)
      (address + BitVec.ofNat 32 i)) ↔ Unfailed verdict k ns := by
  induction ns generalizing k m with
  | nil =>
    refine iff_of_true (fun i hi hlt => absurd hlt (by simpa using hi)) fun j n hn _ => ?_
    exact absurd hn (by simp)
  | cons n ns ih =>
    rw [List.sum_cons] at hfit ⊢
    have htail := ih (k := k + 1) (m := m + n) (by omega)
    simp only [transfers, moved_cons, address_add]
    rw [unfailed_cons, ← htail]
    constructor
    · intro h
      refine ⟨fun hn => ?_, fun i hi hlt => ?_⟩
      · -- the first byte of the chunk is in no later chunk
        rcases h m le_rfl (by omega) with hfirst | hrest
        · by_contra hfailed
          rw [if_pos (not_le.mp hfailed)] at hfirst
          exact absurd hfirst (Nat.not_lt_zero _)
        · have hrange := range_of_moved (by omega) (by omega) hrest
          omega
      · rcases h i (by omega) (by omega) with hfirst | hrest
        · have hchunk := (sub_lt_iff (by omega) (by omega)).mp
            (hfirst.trans_le (moved_le verdict k n))
          omega
        · exact hrest
    · rintro ⟨hfirst, hrest⟩ i hi hlt
      rcases lt_or_ge i (m + n) with hchunk | hchunk
      · left
        rw [if_neg (not_lt.mpr (hfirst (by omega)))]
        exact (sub_lt_iff (by omega) (by omega)).mpr ⟨hi, hchunk⟩
      · exact Or.inr (hrest i hchunk (by omega))

/-- The calls for chunks from the start of a range move no byte after them. -/
lemma lt_sum_of_moved {address : BitVec 32} {i : ℕ} {ns : List ℕ} (hi : i < 2 ^ 32)
    (hfit : ns.sum ≤ 2 ^ 32)
    (h : Moved (transfers verdict 0 address ns) (address + BitVec.ofNat 32 i)) : i < ns.sum := by
  have hstart : address + BitVec.ofNat 32 0 = address := BitVec.add_zero address
  have hmoved : Moved (transfers verdict 0 (address + BitVec.ofNat 32 0) ns)
      (address + BitVec.ofNat 32 i) := by rwa [hstart]
  have hrange := range_of_moved hi (by omega) hmoved
  omega

/-- The calls for chunks from the start of a range move the range exactly if no chunk with a byte
in it is assigned a failure. -/
lemma forall_lt_moved_iff (address : BitVec 32) {ns : List ℕ} (hfit : ns.sum < 2 ^ 32) :
    (∀ i < ns.sum, Moved (transfers verdict 0 address ns) (address + BitVec.ofNat 32 i)) ↔
      Unfailed verdict 0 ns := by
  have hstart : address + BitVec.ofNat 32 0 = address := BitVec.add_zero address
  have hfrom : 0 + ns.sum < 2 ^ 32 := by omega
  rw [← forall_moved_iff address hfrom, hstart, Nat.zero_add]
  exact ⟨fun h i _ hlt => h i hlt, fun h i hlt => h i (Nat.zero_le i) hlt⟩

end Log

/-! ## The calls of `write_flash` -/

section Write

variable {σ : Type} {flash : ReadingFlash σ} {verdict : ℕ → ℤ}

variable (verdict) in
/-- Status reads and write enables make no located call. -/
lemma undisturbed_assign (log : List Transfer) :
    Undisturbed (assign verdict flash).toQspiFlash (fun d => d.2 = log) where
  status _ hd := hd
  enable _ hd := hd

variable (verdict) in
/-- A calm chip is calm behind the bus with assigned failures. -/
lemma calm_assign (h : Calm flash.toQspiFlash) : Calm (assign verdict flash).toQspiFlash :=
  h.of_semiconj Prod.fst (fun _ => rfl) fun _ => rfl

/-- The device takes all data of a write. -/
def AcceptsWrites (flash : QspiFlash σ) : Prop :=
  ∀ location data d, (flash.bus.onWrite location data d).1 = data.length

variable {c : Cursor} {address : BitVec 32} {done : List ℕ}

/-- A write is the next call. -/
lemma total_writeBytes_assign (haccepts : AcceptsWrites flash.toQspiFlash)
    (haddress : c.address = address + BitVec.ofNat 32 done.sum) (n : BitVec 16) :
    Program.Total (fun s => s.device.2 = transfers verdict 0 address done)
      (writeBytes (assign verdict flash).toQspiFlash c n)
      (fun _ s => s.device.2 = transfers verdict 0 address (done ++ [n.toNat])) := by
  refine Program.Total.step fun s hs => ?_
  have hnumber : s.device.2.length = done.length := by
    rw [hs, length_transfers]
  rw [transfers_concat, ← hs, ← hnumber, ← haddress]
  simp only [assign, BitVec.ofInt_toInt, length_firstElements]
  split
  · rfl
  · rw [haccepts, length_firstElements]
    rfl

/-- A program that enables writing, writes a chunk and goes on has made the call for the chunk
before it goes on. -/
lemma total_enable_write_assign {β : Type} (haccepts : AcceptsWrites flash.toQspiFlash)
    (haddress : c.address = address + BitVec.ofNat 32 done.sum) (n : BitVec 16)
    {k : ℤ → Program (Session (σ × List Transfer)) β}
    {Q : β → Session (σ × List Transfer) → Prop}
    (hk : ∀ count, Program.Total
      (fun s => s.device.2 = transfers verdict 0 address (done ++ [n.toNat])) (k count) Q) :
    Program.Total (fun s => s.device.2 = transfers verdict 0 address done)
      (writeEnable (assign verdict flash).toQspiFlash >>= fun _ =>
        writeBytes (assign verdict flash).toQspiFlash c n >>= k) Q := by
  refine Program.Total.bind (total_writeEnable (undisturbed_assign verdict _)) fun _ => ?_
  exact Program.Total.bind (total_writeBytes_assign haccepts haddress n) hk

/-- The address after one more chunk. -/
lemma address_advance (haddress : c.address = address + BitVec.ofNat 32 done.sum) (n : BitVec 16) :
    (c.advance n).address = address + BitVec.ofNat 32 (done ++ [n.toNat]).sum := by
  rw [Cursor.advance_eq_shift, Cursor.shift, haddress, address_add, List.sum_append,
    List.sum_singleton]

/-- Each chunk is a call. -/
lemma total_writeChunks_assign (hcalm : Calm flash.toQspiFlash)
    (haccepts : AcceptsWrites flash.toQspiFlash) {ns : List (BitVec 16)}
    (haddress : c.address = address + BitVec.ofNat 32 done.sum) :
    Program.Total (fun s => s.device.2 = transfers verdict 0 address done)
      (writeChunks (assign verdict flash).toQspiFlash ns c)
      (fun _ s => s.device.2 = transfers verdict 0 address (done ++ ns.map BitVec.toNat)) := by
  induction ns generalizing c done with
  | nil =>
    refine Program.Total.pure fun s hs => ?_
    rw [List.map_nil, List.append_nil, hs]
  | cons n ns ih =>
    refine Program.Total.bind (total_waitWhileInProgress (calm_assign verdict hcalm)
      (undisturbed_assign verdict _).status) fun _ => ?_
    apply total_enable_write_assign haccepts haddress
    intro _
    refine (ih (address_advance haddress n)).weaken (fun _ hs => hs) fun _ s hs => ?_
    rwa [List.append_assoc, List.singleton_append] at hs

/-- The calls of `write_flash` are the chunks of the range, and it returns the length of the range
whatever is assigned to them. -/
lemma total_writeFlash_assign (hcalm : Calm flash.toQspiFlash)
    (haccepts : AcceptsWrites flash.toQspiFlash) (verdict : ℕ → ℤ) (address : BitVec 32)
    (buff : ℕ → BitVec 8) (length : BitVec 16) :
    Program.Total (fun s => s.device.2 = [])
      (writeFlash (assign verdict flash).toQspiFlash address buff length)
      (fun result s => result = length ∧
        s.device.2 = transfers verdict 0 address (chunks flash.toQspiFlash address length)) := by
  have hstart : (⟨address, buff, 0⟩ : Cursor).address =
      address + BitVec.ofNat 32 ([] : List ℕ).sum := by simp
  have hcut : pieces (assign verdict flash).toQspiFlash address length =
      pieces flash.toQspiFlash address length := rfl
  rw [writeFlash_eq, hcut]
  refine Program.Total.bind (total_writeChunks_assign hcalm haccepts hstart) fun _ => ?_
  refine Program.Total.pure fun s hs => ⟨rfl, ?_⟩
  rwa [List.nil_append, map_toNat_pieces] at hs

end Write

end HalAPI.QSPI
