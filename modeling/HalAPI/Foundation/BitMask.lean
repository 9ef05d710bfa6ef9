import Mathlib

/-!
# Bit masks

Single-bit masks `1 <<< b` in a word of any width, when masks are disjoint, the set of the bits of
a mask, and what a mask loses on its way through a narrower word.
-/

namespace Foundation

variable {w : ℕ}

/-- The mask of bit `b` has exactly bit `b` set, if the word has such a bit. -/
lemma getLsbD_one_shiftLeft (b k : ℕ) :
    (1#w <<< b).getLsbD k = (decide (k < w) && decide (k = b)) := by
  simp only [BitVec.getLsbD_shiftLeft, BitVec.getLsbD_one]
  grind

/-- The mask of a bit inside the word has exactly that bit set. -/
lemma getLsbD_one_shiftLeft_of_lt {b : ℕ} (hb : b < w) (k : ℕ) :
    (1#w <<< b).getLsbD k = decide (k = b) := by
  rw [getLsbD_one_shiftLeft]
  rcases eq_or_ne k b with rfl | hk
  · simp [hb]
  · simp [hk]

/-- The mask of a bit inside the word is not empty. -/
lemma one_shiftLeft_ne_zero {b : ℕ} (hb : b < w) : 1#w <<< b ≠ 0 := by
  intro h
  have hbit : (1#w <<< b).getLsbD b = true := by
    rw [getLsbD_one_shiftLeft_of_lt hb]
    simp
  rw [h] at hbit
  exact absurd hbit (by simp)

/-- Two masks are disjoint exactly if they share no bit. -/
lemma and_eq_zero_iff (x y : BitVec w) :
    x &&& y = 0 ↔ ∀ k, k < w → x.getLsbD k = true → y.getLsbD k = false := by
  constructor
  · intro h k _ hx
    have hbit : (x &&& y).getLsbD k = (0#w).getLsbD k := by rw [h]; rfl
    simpa only [BitVec.getLsbD_and, hx, Bool.true_and, BitVec.getLsbD_zero] using hbit
  · intro h
    refine BitVec.eq_of_getLsbD_eq fun k hk => ?_
    rw [BitVec.getLsbD_and]
    cases hx : x.getLsbD k with
    | false => simp
    | true => simp [h k hk hx]

/-- The masks of two bits are disjoint. -/
lemma one_shiftLeft_and_one_shiftLeft {b c : ℕ} (h : b ≠ c) : 1#w <<< b &&& 1#w <<< c = 0 := by
  rw [and_eq_zero_iff]
  intro k hk hb
  rw [getLsbD_one_shiftLeft] at hb ⊢
  have hkb : k = b := by simpa [hk] using hb
  simp [hkb, h]

/-! ## The bits of a mask -/

/-- The bits that are set in a mask. -/
def bits (x : BitVec w) : Finset (Fin w) := Finset.univ.filter fun k => x.getLsbD k = true

/-- A bit is in the set exactly if it is set. -/
@[simp] lemma mem_bits (x : BitVec w) (k : Fin w) : k ∈ bits x ↔ x.getLsbD k = true := by
  simp [bits]

/-- A mask is determined by its bits. -/
lemma bits_injective : Function.Injective (bits : BitVec w → Finset (Fin w)) := by
  intro x y h
  refine BitVec.eq_of_getLsbD_eq fun k hk => ?_
  have hbit := Finset.ext_iff.mp h ⟨k, hk⟩
  simp only [mem_bits] at hbit
  exact Bool.eq_iff_iff.mpr hbit

/-- A mask that goes through a word of `v` bits keeps its low `v` bits. -/
lemma mem_bits_setWidth (v : ℕ) (x : BitVec w) (k : Fin w) :
    k ∈ bits ((x.setWidth v).setWidth w) ↔ k ∈ bits x ∧ k.val < v := by
  simp [BitVec.getLsbD_setWidth, and_comm]

/-- A mask comes through a narrower word as it was exactly if it fits in there. -/
lemma bits_setWidth_eq_iff {v : ℕ} (hv : v ≤ w) (x : BitVec w) :
    bits ((x.setWidth v).setWidth w) = bits x ↔ x.toNat < 2 ^ v := by
  have hpow : 2 ^ v ≤ 2 ^ w := Nat.pow_le_pow_right (by decide) hv
  have hpos : 0 < 2 ^ v := Nat.two_pow_pos v
  have hsmall : x.toNat % 2 ^ v < 2 ^ w := (Nat.mod_lt _ hpos).trans_le hpow
  rw [bits_injective.eq_iff, BitVec.toNat_eq, BitVec.toNat_setWidth, BitVec.toNat_setWidth,
    Nat.mod_eq_of_lt hsmall]
  constructor
  · intro h
    rw [← h]
    exact Nat.mod_lt _ hpos
  · exact Nat.mod_eq_of_lt

end Foundation
