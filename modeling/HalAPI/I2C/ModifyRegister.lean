import HalAPI.Api.ExecutionContext
import HalAPI.Foundation.BitMask
import HalAPI.Foundation.Runs

/-!
# `I2C::modify_register`

`modify_register` reads the register at a location, sets or clears one of its bits and writes
it back, with a `seek` before the read and another before the write.  This file models it over
an arbitrary device file, and then looks at a sequence of calls on a register file, a map from
locations to bytes whose offset every read and write moves on.

What a sequence of calls is for is said by `requestedBit`: a bit has the value last requested
for it, or its initial value.  The clearing branch of `modify_register` ands the register with
the mask of the bit where it would have to use the complement of the mask.  So a call with the
value `false` does what is requested of it exactly if the register is zero before the call, and
`modifyRegisters_meets_requests_iff` says when a whole sequence of calls does.
-/

namespace HalAPI.I2C

open Foundation

/-! ## The code -/

/-- `I2C::ModifyRegister`, the options of a call -/
structure ModifyRegister where
  location : ℤ := 0
  bit : BitVec 8 := 0
  value : Bool := false
  deriving DecidableEq

/-- The mask `1 << options.bit()`.  The language leaves the shift of a 32-bit number by 32 or more
undefined; `undefinedShift` says what it is then. -/
def bitMask (undefinedShift : BitVec 8 → BitVec 32) (bit : BitVec 8) : BitVec 32 :=
  if bit.toNat < 32 then 1#32 <<< bit.toNat else undefinedShift bit

/-- The new value of a register.  The operands of `|=` and `&=` are promoted to `int`, and the
result is cut back to a byte. -/
def modifyValue (undefinedShift : BitVec 8 → BitVec 32) (value : BitVec 8)
    (options : ModifyRegister) : BitVec 8 :=
  if options.value then
    (value.setWidth 32 ||| bitMask undefinedShift options.bit).setWidth 8
  else
    (value.setWidth 32 &&& bitMask undefinedShift options.bit).setWidth 8

/-- A call of `modify_register`: what the local variable `value` holds before the read, and the
options of the call. -/
structure Call where
  uninitialized : BitVec 8
  options : ModifyRegister
  deriving DecidableEq

/-- `I2C::modify_register` -/
def modifyRegister {σ : Type} (undefinedShift : BitVec 8 → BitVec 32) (file : DeviceFile σ)
    (call : Call) : Program (Thread σ FileRequest) Unit := do
  file.seek call.options.location
  let delivered ← file.read 1
  -- a read that fails, or delivers no byte, leaves the variable as it was
  let value := (delivered.bind List.head?).getD call.uninitialized
  file.seek call.options.location
  file.write [modifyValue undefinedShift value call.options]

/-- One call of `modify_register` after another -/
def modifyRegisters {σ : Type} (undefinedShift : BitVec 8 → BitVec 32) (file : DeviceFile σ) :
    List Call → Program (Thread σ FileRequest) Unit
  | [] => pure ()
  | call :: calls => do
    modifyRegister undefinedShift file call
    modifyRegisters undefinedShift file calls

/-! ## The register file -/

/-- The state of an I2C device: its registers, and the offset of the file. -/
structure RegisterFile where
  registers : ℤ → BitVec 8
  offset : ℤ

/-- A byte written at the offset, which moves on. -/
def RegisterFile.put (f : RegisterFile) (byte : BitVec 8) : RegisterFile where
  registers := Function.update f.registers f.offset byte
  offset := f.offset + 1

/-- The device file of a register file, on which every call succeeds. -/
def registerFile : DeviceFile RegisterFile where
  onSeek location f := (0, { f with offset := location })
  onRead size f :=
    ((size, (List.range size).map fun i => f.registers (f.offset + i)),
      { f with offset := f.offset + size })
  onWrite data f := (data.length, data.foldl RegisterFile.put f)

/-- The registers after a call, which depend on the registers before it only. -/
def modified (undefinedShift : BitVec 8 → BitVec 32) (registers : ℤ → BitVec 8)
    (options : ModifyRegister) : ℤ → BitVec 8 :=
  Function.update registers options.location
    (modifyValue undefinedShift (registers options.location) options)

/-- From the register file `f` the calls succeed and end with the registers `registers`. -/
def ModifiesTo (undefinedShift : BitVec 8 → BitVec 32) (f : RegisterFile) (calls : List Call)
    (registers : ℤ → BitVec 8) : Prop :=
  ∃ t, (modifyRegisters undefinedShift registerFile calls).Yields (Thread.start f) () t ∧
    t.isError = false ∧ t.device.registers = registers

/-- A seek moves the offset of a register file. -/
lemma computes_seek (location : ℤ) :
    Computes (registerFile.seek location) fun f => ((), { f with offset := location }) :=
  Computes.systemCall fun _ => le_rfl

/-- A read of one byte delivers the register at the offset. -/
lemma computes_read :
    Computes (registerFile.read 1) fun f =>
      (some [f.registers f.offset], { f with offset := f.offset + 1 }) := by
  have hcount : ∀ f, 0 ≤ (registerFile.onRead 1 f).1.1 := fun f => by simp [registerFile]
  have hread : Computes (registerFile.read 1) fun f =>
      (some (registerFile.onRead 1 f).1.2, (registerFile.onRead 1 f).2) := Computes.query hcount
  simpa [registerFile] using hread

/-- A write of one byte replaces the register at the offset. -/
lemma computes_write (byte : BitVec 8) :
    Computes (registerFile.write [byte]) fun f => ((), f.put byte) :=
  Computes.systemCall fun _ => by simp [registerFile]

section RegisterFile

variable (undefinedShift : BitVec 8 → BitVec 32)

/-- On a register file a call succeeds and rewrites the register it names. -/
lemma computes_modifyRegister (call : Call) :
    Computes (modifyRegister undefinedShift registerFile call) fun f =>
      ((), ⟨modified undefinedShift f.registers call.options, call.options.location + 1⟩) := by
  have hseek := computes_seek call.options.location
  have hall := Computes.bind hseek fun _ => Computes.bind computes_read fun delivered =>
    Computes.bind hseek fun _ => computes_write
      (modifyValue undefinedShift ((delivered.bind List.head?).getD call.uninitialized)
        call.options)
  exact hall

/-- On a register file a sequence of calls succeeds and rewrites the registers one call after
the other. -/
lemma yields_modifyRegisters {t : Thread RegisterFile FileRequest} (ht : t.isError = false)
    (calls : List Call) :
    ∃ t', (modifyRegisters undefinedShift registerFile calls).Yields t () t' ∧
      t'.isError = false ∧ t'.device.registers =
        run (modified undefinedShift) t.device.registers (calls.map Call.options) := by
  induction calls generalizing t with
  | nil => exact ⟨t, by simp [modifyRegisters], ht, rfl⟩
  | cons call calls ih =>
    obtain ⟨t₁, hy₁, he₁, hd₁⟩ := computes_modifyRegister undefinedShift call t ht
    obtain ⟨t₂, hy₂, he₂, hr₂⟩ := ih he₁
    refine ⟨t₂, hy₁.bind hy₂, he₂, ?_⟩
    rw [hr₂, hd₁, List.map_cons, run_cons]

/-- The registers a sequence of calls ends with. -/
lemma modifiesTo_iff (f : RegisterFile) (calls : List Call) (registers : ℤ → BitVec 8) :
    ModifiesTo undefinedShift f calls registers ↔
      registers = run (modified undefinedShift) f.registers (calls.map Call.options) := by
  obtain ⟨t, hy, he, hr⟩ :=
    yields_modifyRegisters undefinedShift (Thread.start_isError f) calls
  constructor
  · rintro ⟨t', hy', -, rfl⟩
    obtain ⟨-, rfl⟩ := hy'.unique hy
    exact hr
  · rintro rfl
    exact ⟨t, hy, he, hr⟩

end RegisterFile

/-! ## What is requested -/

/-- The value last requested for a bit, if one was. -/
def lastRequest (calls : List ModifyRegister) (location : ℤ) (k : ℕ) : Option Bool :=
  (calls.reverse.find? fun c => c.location = location ∧ c.bit.toNat = k).map ModifyRegister.value

/-- The value a bit is to have after the calls: the value last requested for it, or the value
it had before them. -/
def requestedBit (initial : ℤ → BitVec 8) (calls : List ModifyRegister) (location : ℤ) (k : ℕ) :
    Bool :=
  (lastRequest calls location k).getD ((initial location).getLsbD k)

/-- Every bit of every register is as requested. -/
def IsRequested (initial : ℤ → BitVec 8) (calls : List ModifyRegister)
    (registers : ℤ → BitVec 8) : Prop :=
  ∀ location k, k < 8 → (registers location).getLsbD k = requestedBit initial calls location k

/-- Before the first call the registers are as requested. -/
lemma isRequested_nil (initial : ℤ → BitVec 8) : IsRequested initial [] initial :=
  fun _ _ _ => rfl

/-- A further call decides the bit it names and no other. -/
lemma requestedBit_concat (initial : ℤ → BitVec 8) (calls : List ModifyRegister)
    (c : ModifyRegister) (location : ℤ) (k : ℕ) :
    requestedBit initial (calls ++ [c]) location k =
      if c.location = location ∧ c.bit.toNat = k then c.value
      else requestedBit initial calls location k := by
  unfold requestedBit lastRequest
  rw [List.reverse_append, List.reverse_singleton, List.singleton_append, List.find?_cons]
  by_cases h : c.location = location ∧ c.bit.toNat = k
  · simp [h]
  · simp [h]

/-! ## One call -/

section OneCall

variable (undefinedShift : BitVec 8 → BitVec 32)

/-- The mask of a bit below 32 has that bit only. -/
lemma getLsbD_bitMask {bit : BitVec 8} (hbit : bit.toNat < 32) (k : ℕ) :
    (bitMask undefinedShift bit).getLsbD k = decide (k = bit.toNat) := by
  rw [bitMask, if_pos hbit, getLsbD_one_shiftLeft_of_lt hbit]

/-- The bits of the new value of a register: the setting branch adds those of the mask, and the
clearing branch leaves no others. -/
lemma getLsbD_modifyValue_bitMask (value : BitVec 8) (options : ModifyRegister) {k : ℕ}
    (hk : k < 8) :
    (modifyValue undefinedShift value options).getLsbD k =
      if options.value then value.getLsbD k || (bitMask undefinedShift options.bit).getLsbD k
      else value.getLsbD k && (bitMask undefinedShift options.bit).getLsbD k := by
  have hk32 : k < 32 := by omega
  unfold modifyValue
  split
  · simp only [BitVec.getLsbD_setWidth, BitVec.getLsbD_or, hk, hk32, decide_true, Bool.true_and]
  · simp only [BitVec.getLsbD_setWidth, BitVec.getLsbD_and, hk, hk32, decide_true, Bool.true_and]

/-- The bits of the new value of a register, for a bit that a byte has. -/
lemma getLsbD_modifyValue (value : BitVec 8) {options : ModifyRegister}
    (hbit : options.bit.toNat < 8) {k : ℕ} (hk : k < 8) :
    (modifyValue undefinedShift value options).getLsbD k =
      if options.value then value.getLsbD k || decide (k = options.bit.toNat)
      else value.getLsbD k && decide (k = options.bit.toNat) := by
  have hmask := getLsbD_bitMask undefinedShift (show options.bit.toNat < 32 by omega) k
  rw [getLsbD_modifyValue_bitMask undefinedShift value options hk, hmask]

/-- The new value of a register does not depend on the old one exactly if the mask has all the bits
of a byte, when they are set, or none of them, when the others are cleared. -/
lemma modifyValue_const_iff_bitMask (options : ModifyRegister) :
    (∀ u v, modifyValue undefinedShift u options = modifyValue undefinedShift v options) ↔
      ∀ k, k < 8 → (bitMask undefinedShift options.bit).getLsbD k = options.value := by
  constructor
  · intro h k hk
    have hsame : (modifyValue undefinedShift (BitVec.allOnes 8) options).getLsbD k =
        (modifyValue undefinedShift 0 options).getLsbD k := by rw [h (BitVec.allOnes 8) 0]
    have hones : (BitVec.allOnes 8).getLsbD k = true := by
      rw [BitVec.getLsbD_allOnes]
      exact decide_eq_true hk
    rw [getLsbD_modifyValue_bitMask _ _ _ hk, getLsbD_modifyValue_bitMask _ _ _ hk,
      hones] at hsame
    cases hvalue : options.value with
    | true => simpa [hvalue] using hsame.symm
    | false => simpa [hvalue] using hsame
  · intro h u v
    refine BitVec.eq_of_getLsbD_eq fun k hk => ?_
    rw [getLsbD_modifyValue_bitMask _ _ _ hk, getLsbD_modifyValue_bitMask _ _ _ hk, h k hk]
    cases options.value with
    | true => simp
    | false => simp

/-- The new value of a register does not depend on the old one exactly if a bit from 8 to 31, which
no byte has, is cleared, or the shift is not defined and gives a byte of the one value. -/
lemma modifyValue_const_iff (options : ModifyRegister) :
    (∀ u v, modifyValue undefinedShift u options = modifyValue undefinedShift v options) ↔
      (options.value = false ∧ 8 ≤ options.bit.toNat ∧ options.bit.toNat < 32) ∨
        (32 ≤ options.bit.toNat ∧
          ∀ k, k < 8 → (undefinedShift options.bit).getLsbD k = options.value) := by
  rw [modifyValue_const_iff_bitMask]
  by_cases hbit : options.bit.toNat < 32
  · have hmask := getLsbD_bitMask undefinedShift hbit
    have hdefined : ¬ 32 ≤ options.bit.toNat := not_le.mpr hbit
    simp only [hmask, hbit, hdefined, and_true, false_and, or_false]
    constructor
    · intro h
      -- no bit is both the lowest and the one above it
      have h₀ : decide (0 = options.bit.toNat) = options.value := h 0 (by decide)
      have h₁ : decide (1 = options.bit.toNat) = options.value := h 1 (by decide)
      have hvalue : options.value = false := by
        cases hv : options.value with
        | false => rfl
        | true =>
          rw [hv, decide_eq_true_eq] at h₀ h₁
          omega
      refine ⟨hvalue, not_lt.mp fun hlow => ?_⟩
      simpa [hvalue] using h options.bit.toNat hlow
    · rintro ⟨hvalue, hhigh⟩ k hk
      have hne : k ≠ options.bit.toNat := by omega
      simp [hvalue, hne]
  · have hundefined : 32 ≤ options.bit.toNat := not_lt.mp hbit
    simp [bitMask, hbit, hundefined]

variable {undefinedShift}

/-- A call that sets a bit does what is requested, and a call that clears one does exactly if
the register was requested to be zero before it. -/
lemma isRequested_concat_iff {initial registers : ℤ → BitVec 8} {calls : List ModifyRegister}
    {c : ModifyRegister} (hbit : c.bit.toNat < 8) (h : IsRequested initial calls registers) :
    IsRequested initial (calls ++ [c]) (modified undefinedShift registers c) ↔
      (c.value = false → ∀ k, k < 8 → requestedBit initial calls c.location k = false) := by
  constructor
  · intro h' hc k hk
    have hnew : (modified undefinedShift registers c c.location).getLsbD k =
        requestedBit initial (calls ++ [c]) c.location k := h' c.location k hk
    rw [modified, Function.update_self, getLsbD_modifyValue _ _ hbit hk, requestedBit_concat,
      h c.location k hk] at hnew
    by_cases hkb : c.bit.toNat = k
    · simpa [hc, hkb] using hnew
    · simpa [hc, hkb, Ne.symm hkb] using hnew.symm
  · intro hclear location k hk
    rw [requestedBit_concat, modified]
    rcases eq_or_ne location c.location with rfl | hloc
    · rw [Function.update_self, getLsbD_modifyValue _ _ hbit hk, h c.location k hk]
      cases hc : c.value with
      | true =>
        by_cases hkb : k = c.bit.toNat
        · simp [hkb]
        · simp [hkb, Ne.symm hkb]
      | false => simp [hclear hc k hk]
    · rw [Function.update_of_ne hloc, h location k hk]
      simp [Ne.symm hloc]

/-- Setting a bit of a register and clearing another do not commute. -/
lemma modifyValue_set_clear_ne (value : BitVec 8) {c d : ModifyRegister}
    (hc : c.bit.toNat < 8) (hd : d.bit.toNat < 8) (hne : c.bit.toNat ≠ d.bit.toNat)
    (hcv : c.value = true) (hdv : d.value = false) :
    modifyValue undefinedShift (modifyValue undefinedShift value c) d ≠
      modifyValue undefinedShift (modifyValue undefinedShift value d) c := by
  intro h
  -- the bit that is set tells the two orders apart
  have hbit : (modifyValue undefinedShift (modifyValue undefinedShift value c) d).getLsbD
      c.bit.toNat = (modifyValue undefinedShift (modifyValue undefinedShift value d) c).getLsbD
        c.bit.toNat := by rw [h]
  rw [getLsbD_modifyValue _ _ hd hc, getLsbD_modifyValue _ _ hc hc,
    getLsbD_modifyValue _ _ hc hc, getLsbD_modifyValue _ _ hd hc] at hbit
  simp [hcv, hdv, hne] at hbit

/-- Two calls on different bits of one register commute exactly if both set or both clear
their bit. -/
lemma modifyValue_comm_iff (value : BitVec 8) {c d : ModifyRegister} (hc : c.bit.toNat < 8)
    (hd : d.bit.toNat < 8) (hne : c.bit ≠ d.bit) :
    modifyValue undefinedShift (modifyValue undefinedShift value c) d =
        modifyValue undefinedShift (modifyValue undefinedShift value d) c ↔
      c.value = d.value := by
  have hcd : c.bit.toNat ≠ d.bit.toNat := fun h => hne (BitVec.eq_of_toNat_eq h)
  constructor
  · intro h
    cases hcv : c.value <;> cases hdv : d.value
    · rfl
    · exact absurd h.symm (modifyValue_set_clear_ne value hd hc hcd.symm hdv hcv)
    · exact absurd h (modifyValue_set_clear_ne value hc hd hcd hcv hdv)
    · rfl
  · intro h
    refine BitVec.eq_of_getLsbD_eq fun k hk => ?_
    rw [getLsbD_modifyValue _ _ hd hk, getLsbD_modifyValue _ _ hc hk,
      getLsbD_modifyValue _ _ hc hk, getLsbD_modifyValue _ _ hd hk, h]
    split
    · exact Bool.or_right_comm _ _ _
    · exact Bool.and_right_comm _ _ _

/-- Repeating a call changes nothing. -/
lemma modifyValue_self (value : BitVec 8) (c : ModifyRegister) :
    modifyValue undefinedShift (modifyValue undefinedShift value c) c =
      modifyValue undefinedShift value c := by
  refine BitVec.eq_of_getLsbD_eq fun k hk => ?_
  simp only [getLsbD_modifyValue_bitMask _ _ _ hk]
  split
  · rw [Bool.or_assoc, Bool.or_self]
  · rw [Bool.and_assoc, Bool.and_self]

end OneCall

/-! ## Sequences of calls -/

section Sequences

variable (undefinedShift : BitVec 8 → BitVec 32)

/-- One more call made, next to the registers it led to. -/
def recordCall (s : List Call × (ℤ → BitVec 8)) (c : Call) : List Call × (ℤ → BitVec 8) :=
  (s.1 ++ [c], modified undefinedShift s.2 c.options)

/-- The record of a run is its calls and the registers they end with. -/
lemma run_recordCall (s : List Call × (ℤ → BitVec 8)) (calls : List Call) :
    run (recordCall undefinedShift) s calls =
      (s.1 ++ calls, run (modified undefinedShift) s.2 (calls.map Call.options)) := by
  induction calls generalizing s with
  | nil => simp
  | cons c calls ih => simp [ih, recordCall]

/-- After every call of a sequence the registers are as requested exactly if every call that
clears a bit names a register requested to be zero by then. -/
lemma run_isRequested_iff (initial : ℤ → BitVec 8) {calls : List Call}
    (hbits : ∀ c ∈ calls, c.options.bit.toNat < 8) :
    (∀ pre, pre <+: calls → IsRequested initial (pre.map Call.options)
        (run (modified undefinedShift) initial (pre.map Call.options))) ↔
      ∀ pre c, pre ++ [c] <+: calls → c.options.value = false →
        ∀ k, k < 8 →
          requestedBit initial (pre.map Call.options) c.options.location k = false := by
  have hok : Along (recordCall undefinedShift) (fun _ c => c.options.bit.toNat < 8) ([], initial)
      calls := (along_iff_forall_mem _ _ calls).mpr hbits
  have hstep : ∀ (s : List Call × (ℤ → BitVec 8)) (c : Call), True →
      IsRequested initial (s.1.map Call.options) s.2 → c.options.bit.toNat < 8 →
      (IsRequested initial ((recordCall undefinedShift s c).1.map Call.options)
          (recordCall undefinedShift s c).2 ↔
        (c.options.value = false → ∀ k, k < 8 →
          requestedBit initial (s.1.map Call.options) c.options.location k = false)) := by
    intro s c _ hs hbit
    rw [recordCall, List.map_append]
    exact isRequested_concat_iff hbit hs
  have hexact := throughout_iff_along (s := ([], initial)) (I := fun _ => True)
    (fun _ _ _ _ => trivial) hstep trivial (isRequested_nil initial) hok
  rw [along_iff_prefixes] at hexact
  simpa only [Throughout, run_recordCall, List.nil_append] using hexact

/-- Two calls on different bits commute on a register file, unless they name the same register
and one of them sets its bit while the other clears its own. -/
lemma run_comm_iff (registers : ℤ → BitVec 8) {c d : ModifyRegister} (hc : c.bit.toNat < 8)
    (hd : d.bit.toNat < 8) (hne : (c.location, c.bit) ≠ (d.location, d.bit)) :
    run (modified undefinedShift) registers [c, d] =
        run (modified undefinedShift) registers [d, c] ↔
      (c.location = d.location → c.value = d.value) := by
  simp only [run_cons, run_nil, modified]
  rcases eq_or_ne c.location d.location with hloc | hloc
  · have hbit : c.bit ≠ d.bit := fun h => hne (by rw [hloc, h])
    rw [hloc, Function.update_self, Function.update_self, Function.update_idem,
      Function.update_idem, (Function.update_injective _ _).eq_iff,
      modifyValue_comm_iff _ hc hd hbit]
    simp
  · rw [Function.update_of_ne (Ne.symm hloc), Function.update_of_ne hloc]
    simp [hloc, Function.update_comm hloc]

/-- A call made twice ends with the registers of the call made once. -/
lemma run_repeat (registers : ℤ → BitVec 8) (c : ModifyRegister) :
    run (modified undefinedShift) registers [c, c] =
      run (modified undefinedShift) registers [c] := by
  simp only [run_cons, run_nil, modified, Function.update_self, Function.update_idem]
  rw [modifyValue_self]

end Sequences

/-- When `modify_register` does what it is for.  After every call of a sequence the registers
are as requested exactly if every call with the value `false` names a register that was
requested to be zero by then; calls on different bits commute exactly if they do not set and
clear bits of the same register; and a call repeated changes nothing. -/
theorem modifyRegisters_meets_requests_iff (undefinedShift : BitVec 8 → BitVec 32)
    (f : RegisterFile) (calls : List Call)
    (hbits : ∀ c ∈ calls, c.options.bit.toNat < 8) :
    ((∀ pre, pre <+: calls → ∃ registers, ModifiesTo undefinedShift f pre registers ∧
        IsRequested f.registers (pre.map Call.options) registers) ↔
      ∀ pre c, pre ++ [c] <+: calls → c.options.value = false →
        ∀ k, k < 8 →
          requestedBit f.registers (pre.map Call.options) c.options.location k = false) ∧
    (∀ c ∈ calls, ∀ d ∈ calls,
      (c.options.location, c.options.bit) ≠ (d.options.location, d.options.bit) →
        ((∃ registers, ModifiesTo undefinedShift f [c, d] registers ∧
            ModifiesTo undefinedShift f [d, c] registers) ↔
          (c.options.location = d.options.location → c.options.value = d.options.value))) ∧
    ∀ c ∈ calls, ∃ registers, ModifiesTo undefinedShift f [c] registers ∧
      ModifiesTo undefinedShift f [c, c] registers := by
  simp only [modifiesTo_iff, exists_eq_left]
  refine ⟨?_, ?_, ?_⟩
  · exact run_isRequested_iff undefinedShift f.registers hbits
  · intro c hc d hd hne
    exact run_comm_iff undefinedShift f.registers (hbits c hc) (hbits d hd) hne
  · intro c _
    exact (run_repeat undefinedShift f.registers c.options).symm

/-- A call that sets a bit and a call that clears a bit of a register that is zero do what is
requested of them. -/
theorem modifyRegisters_set_then_clear :
    ∃ registers, ModifiesTo (fun _ => 0) ⟨fun _ => 0#8, 0⟩
        [⟨0xA5#8, ⟨5, 3, true⟩⟩, ⟨0x5A#8, ⟨7, 1, false⟩⟩] registers ∧
      IsRequested (fun _ => 0#8) [⟨5, 3, true⟩, ⟨7, 1, false⟩] registers := by
  have hexact := (modifyRegisters_meets_requests_iff (fun _ => 0) ⟨fun _ => 0#8, 0⟩
    [⟨0xA5#8, ⟨5, 3, true⟩⟩, ⟨0x5A#8, ⟨7, 1, false⟩⟩] (by decide)).1
  refine hexact.mpr (fun pre c hpre hc k hk => ?_) _ List.prefix_rfl
  obtain ⟨rfl, rfl⟩ : pre = [⟨0xA5#8, ⟨5, 3, true⟩⟩] ∧ c = ⟨0x5A#8, ⟨7, 1, false⟩⟩ := by
    match pre, hpre with
    | [], hpre =>
      obtain ⟨rfl, -⟩ := List.cons_prefix_cons.mp hpre
      exact absurd hc (by decide)
    | [_], hpre =>
      obtain ⟨rfl, htail⟩ := List.cons_prefix_cons.mp hpre
      obtain ⟨rfl, -⟩ := List.cons_prefix_cons.mp htail
      exact ⟨rfl, rfl⟩
    | _ :: _ :: _, hpre => exact absurd hpre.length_le (by simp)
  rw [requestedBit, show lastRequest _ _ k = none by simp [lastRequest]]
  simp

/-- Clearing bit 0 of a register that holds `0xFF` keeps that bit and clears the others. -/
theorem modifyRegisters_clear_of_ones :
    ¬ ∃ registers, ModifiesTo (fun _ => 0) ⟨fun _ => 0xFF#8, 0⟩ [⟨0#8, ⟨3, 0, false⟩⟩] registers ∧
      IsRequested (fun _ => 0xFF#8) [⟨3, 0, false⟩] registers := by
  rintro ⟨registers, hend, hreq⟩
  rw [modifiesTo_iff] at hend
  subst hend
  have hbit := hreq 3 1 (by decide)
  exact absurd hbit (by decide)

end HalAPI.I2C
