import HalAPI.I2C.Scan

/-!
# `Pin::from_string`

`from_string` splits a string at the dots, and if there are two pieces it converts each to an
integer and narrows that to a byte.  The printers write a pin as its port and its number in
decimal with a dot in between, and `from_string` reads this back (`fromString_formatPin`).

The conversion is permissive.  A piece without a number counts as zero, what follows a number is
ignored, and a number above 255 is reduced modulo 256, so a string with one dot is taken as a pin
even if it does not denote one (`readsPin_iff`).

The string library is not part of the repository.  What is assumed of `split` and `to_integer` is
in `StringLibrary`.
-/

namespace HalAPI.Pin

open I2C (McuPin)

/-! ## Numbers -/

/-- A string of decimal digits, with at least one. -/
def IsNumber (s : List Char) : Prop := s ≠ [] ∧ ∀ c ∈ s, c.isDigit

/-- The value of a string of decimal digits. -/
def valueOf (digits : List Char) : ℕ := Nat.ofDigitChars 10 digits 0

/-- A number does not go on with this string. -/
def EndsNumber (rest : List Char) : Prop := ∀ c ∈ rest.head?, c.isDigit = false

/-- A leading integer may begin with this character: a digit, a sign, or a blank. -/
def mayBegin (c : Char) : Bool := c.isDigit || c = '-' || c = '+' || c ≤ ' '

/-- What is assumed of `StringView`: `split(".")` yields the pieces between the dots, and
`to_integer` yields the integer at the start of the string, and zero if there is none. -/
structure StringLibrary where
  split : List Char → List (List Char)
  toInteger : List Char → ℤ
  split_eq : ∀ s, split s = s.splitOn '.'
  toInteger_number : ∀ digits rest, IsNumber digits → EndsNumber rest → valueOf digits < 2 ^ 31 →
    toInteger (digits ++ rest) = valueOf digits
  toInteger_none : ∀ s, (∀ c ∈ s.head?, mayBegin c = false) → toInteger s = 0

/-! ## The code -/

/-- The pin that stands for none. -/
def invalidPin : McuPin := ⟨0xFF#8, 0xFF#8⟩

/-- `Pin::from_string` -/
def fromString (library : StringLibrary) (portPin : List Char) : McuPin :=
  match library.split portPin with
  | [port, pin] =>
    { port := BitVec.ofInt 8 (library.toInteger port)
      pin := BitVec.ofInt 8 (library.toInteger pin) }
  | _ => invalidPin

/-- `NumberString().format("%d.%d", pin.port, pin.pin)`, as the printers write a pin. -/
def formatPin (pin : McuPin) : List Char :=
  Nat.toDigits 10 pin.port.toNat ++ '.' :: Nat.toDigits 10 pin.pin.toNat

/-! ## Specification -/

/-- The string is two decimal numbers with a dot in between, and the numbers are those of the
pin. -/
def Denotes (s : List Char) (p : McuPin) : Prop :=
  ∃ port pin, IsNumber port ∧ IsNumber pin ∧ s = port ++ '.' :: pin ∧
    valueOf port = p.port.toNat ∧ valueOf pin = p.pin.toNat

/-- `from_string` is right at a string: it yields the pin that the string denotes, and the invalid
one if the string denotes none. -/
structure ReadsPin (library : StringLibrary) (s : List Char) : Prop where
  of_denotes : ∀ p, Denotes s p → fromString library s = p
  of_not_denotes : (∀ p, ¬ Denotes s p) → fromString library s = invalidPin

/-! ## Splitting -/

/-- There is one piece more than there are dots. -/
lemma length_splitOn (s : List Char) : (s.splitOn '.').length = s.count '.' + 1 := by
  induction s with
  | nil => rfl
  | cons c s ih =>
    rw [List.splitOn_cons_eq_if_modifyHead, List.count_cons]
    by_cases hc : c = '.'
    · simp [hc, ih]
    · simp [hc, ih]

/-- The pieces are two exactly if they are what stands before and after the only dot. -/
lemma splitOn_eq_pair_iff (s port pin : List Char) :
    s.splitOn '.' = [port, pin] ↔ s = port ++ '.' :: pin ∧ '.' ∉ port ∧ '.' ∉ pin := by
  constructor
  · intro hsplit
    have hs : s = port ++ '.' :: pin := by
      have hjoin : ['.'].intercalate (s.splitOn '.') = s := List.intercalate_splitOn '.'
      rw [hsplit] at hjoin
      simpa using hjoin.symm
    have hcount : s.count '.' = 1 := by
      have hlen := length_splitOn s
      rw [hsplit] at hlen
      simpa using hlen.symm
    rw [hs, List.count_append, List.count_cons_self] at hcount
    refine ⟨hs, ?_, ?_⟩
    · exact List.count_eq_zero.mp (by omega)
    · exact List.count_eq_zero.mp (by omega)
  · rintro ⟨rfl, hport, hpin⟩
    rw [List.splitOn_append_cons_self_of_not_mem hport, List.splitOn_eq_singleton hpin]

/-- A string with one dot is split in two. -/
lemma exists_splitOn_of_count {s : List Char} (h : s.count '.' = 1) :
    ∃ port pin, s.splitOn '.' = [port, pin] := by
  have hlen := length_splitOn s
  rw [h] at hlen
  exact List.length_eq_two.mp hlen

/-! ## Reading a pin -/

section Reading

variable (library : StringLibrary)

/-- A string with one dot is converted piece by piece. -/
lemma fromString_of_split {s port pin : List Char} (h : s.splitOn '.' = [port, pin]) :
    fromString library s =
      ⟨BitVec.ofInt 8 (library.toInteger port), BitVec.ofInt 8 (library.toInteger pin)⟩ := by
  simp [fromString, library.split_eq, h]

/-- A string with no dot or several is no pin. -/
lemma fromString_of_count_ne {s : List Char} (h : s.count '.' ≠ 1) :
    fromString library s = invalidPin := by
  have hlen := length_splitOn s
  unfold fromString
  rw [library.split_eq]
  split
  · rename_i port pin hsplit
    rw [hsplit] at hlen
    simp only [List.length_cons, List.length_nil] at hlen
    omega
  · rfl

/-- There is no dot in a number. -/
lemma IsNumber.not_mem {s : List Char} (h : IsNumber s) : '.' ∉ s := by
  intro hmem
  simpa using h.2 '.' hmem

/-- Two numbers with a dot in between, each with something after it that has no dot, are read as
their values modulo 256. -/
lemma fromString_numbers {port pin restPort restPin : List Char} (hport : IsNumber port)
    (hpin : IsNumber pin) (hendPort : EndsNumber restPort) (hendPin : EndsNumber restPin)
    (hdotPort : '.' ∉ restPort) (hdotPin : '.' ∉ restPin) (hportLt : valueOf port < 2 ^ 31)
    (hpinLt : valueOf pin < 2 ^ 31) :
    fromString library (port ++ restPort ++ '.' :: (pin ++ restPin)) =
      ⟨BitVec.ofNat 8 (valueOf port), BitVec.ofNat 8 (valueOf pin)⟩ := by
  have hsplit : (port ++ restPort ++ '.' :: (pin ++ restPin)).splitOn '.' =
      [port ++ restPort, pin ++ restPin] := by
    refine (splitOn_eq_pair_iff _ _ _).mpr ⟨rfl, ?_, ?_⟩
    · simp [hport.not_mem, hdotPort]
    · simp [hpin.not_mem, hdotPin]
  rw [fromString_of_split library hsplit, library.toInteger_number port restPort hport hendPort
    hportLt, library.toInteger_number pin restPin hpin hendPin hpinLt, BitVec.ofInt_natCast,
    BitVec.ofInt_natCast]

/-- Two pieces without a number are read as pin zero of port zero. -/
lemma fromString_no_numbers {port pin : List Char} (hdotPort : '.' ∉ port) (hdotPin : '.' ∉ pin)
    (hport : ∀ c ∈ port.head?, mayBegin c = false) (hpin : ∀ c ∈ pin.head?, mayBegin c = false) :
    fromString library (port ++ '.' :: pin) = ⟨0, 0⟩ := by
  rw [fromString_of_split library ((splitOn_eq_pair_iff _ _ _).mpr ⟨rfl, hdotPort, hdotPin⟩),
    library.toInteger_none port hport, library.toInteger_none pin hpin]
  rfl

/-- A string that denotes a pin is read as that pin. -/
lemma fromString_of_denotes {s : List Char} {p : McuPin} (h : Denotes s p) :
    fromString library s = p := by
  obtain ⟨port, pin, hport, hpin, rfl, hportValue, hpinValue⟩ := h
  have hends : EndsNumber [] := by simp [EndsNumber]
  have hportLt := p.port.isLt
  have hpinLt := p.pin.isLt
  have hread := fromString_numbers library hport hpin hends hends (by simp) (by simp)
    (by omega) (by omega)
  rw [List.append_nil, List.append_nil, hportValue, hpinValue] at hread
  rw [hread, BitVec.ofNat_toNat, BitVec.ofNat_toNat, BitVec.setWidth_eq, BitVec.setWidth_eq]

/-- A number in decimal is a number, and its value is the number. -/
lemma isNumber_toDigits (n : ℕ) : IsNumber (Nat.toDigits 10 n) :=
  ⟨Nat.toDigits_ne_nil, fun _ hc => Nat.isDigit_of_mem_toDigits (by omega) le_rfl hc⟩

/-- What the printers write for a pin denotes the pin. -/
lemma denotes_formatPin (p : McuPin) : Denotes (formatPin p) p :=
  ⟨_, _, isNumber_toDigits _, isNumber_toDigits _, rfl, Nat.ofDigitChars_ten_toDigits,
    Nat.ofDigitChars_ten_toDigits⟩

/-- `from_string` reads back what the printers write. -/
lemma fromString_formatPin (p : McuPin) : fromString library (formatPin p) = p :=
  fromString_of_denotes library (denotes_formatPin p)

/-! ## The exact condition -/

/-- An integer is narrowed to `0xff` exactly if it is 255 modulo 256. -/
lemma ofInt_eq_iff (z : ℤ) : BitVec.ofInt 8 z = 0xFF#8 ↔ z % 256 = 255 := by
  rw [BitVec.toNat_eq, BitVec.toNat_ofInt, BitVec.toNat_ofNat]
  omega

/-- A string with one dot is read as the invalid pin exactly if the integers before and after the
dot are 255 modulo 256. -/
lemma fromString_eq_invalidPin_iff {s port pin : List Char} (h : s.splitOn '.' = [port, pin]) :
    fromString library s = invalidPin ↔
      library.toInteger port % 256 = 255 ∧ library.toInteger pin % 256 = 255 := by
  rw [fromString_of_split library h, invalidPin, McuPin.mk.injEq, ofInt_eq_iff, ofInt_eq_iff]

/-- `from_string` reads back every pin the printers write, and it is right at a string exactly if
the string denotes a pin, or does not have exactly one dot, or the integers that begin before and
after its dot are 255 modulo 256, which is where the invalid pin results from the narrowing. -/
theorem readsPin_iff :
    (∀ p, fromString library (formatPin p) = p) ∧
      ∀ s, ReadsPin library s ↔
        (∃ p, Denotes s p) ∨ s.count '.' ≠ 1 ∨
          ∃ port pin, s.splitOn '.' = [port, pin] ∧
            library.toInteger port % 256 = 255 ∧ library.toInteger pin % 256 = 255 := by
  refine ⟨fromString_formatPin library, fun s => ⟨?_, ?_⟩⟩
  · intro h
    by_cases hdenotes : ∃ p, Denotes s p
    · exact Or.inl hdenotes
    · right
      by_cases hcount : s.count '.' = 1
      · right
        obtain ⟨port, pin, hsplit⟩ := exists_splitOn_of_count hcount
        have hinvalid := h.of_not_denotes (not_exists.mp hdenotes)
        exact ⟨port, pin, hsplit, (fromString_eq_invalidPin_iff library hsplit).mp hinvalid⟩
      · exact Or.inl hcount
  · intro h
    refine ⟨fun p hp => fromString_of_denotes library hp, fun hnone => ?_⟩
    rcases h with ⟨p, hp⟩ | hcount | ⟨port, pin, hsplit, hnarrow⟩
    · exact absurd hp (hnone p)
    · exact fromString_of_count_ne library hcount
    · exact (fromString_eq_invalidPin_iff library hsplit).mpr hnarrow

end Reading

/-! ## A string library -/

/-- The value of the digits a string begins with. -/
def leadingNumber (s : List Char) : ℕ := valueOf (s.takeWhile Char.isDigit)

/-- The integer a string begins with, with a minus sign or without. -/
def leadingInteger (s : List Char) : ℤ :=
  if s.head? = some '-' then -(leadingNumber s.tail : ℤ) else leadingNumber s

/-- The digits at the start are those of the number. -/
lemma leadingNumber_append {digits rest : List Char} (hdigits : ∀ c ∈ digits, c.isDigit)
    (hends : EndsNumber rest) : leadingNumber (digits ++ rest) = valueOf digits := by
  have hrest : rest.takeWhile Char.isDigit = [] := by
    cases rest with
    | nil => rfl
    | cons c rest =>
      have hc : c.isDigit = false := hends c (by simp)
      simp [hc]
  rw [leadingNumber, List.takeWhile_append_of_pos hdigits, hrest, List.append_nil]

/-- A library that splits and converts as described. -/
def decimal : StringLibrary where
  split s := s.splitOn '.'
  toInteger := leadingInteger
  split_eq _ := rfl
  toInteger_number digits rest hnumber hends _ := by
    have hhead : (digits ++ rest).head? ≠ some '-' := by
      intro heq
      cases digits with
      | nil => exact hnumber.1 rfl
      | cons c digits =>
        obtain rfl : c = '-' := by simpa using heq
        exact absurd (hnumber.2 '-' (by simp)) (by decide)
    rw [leadingInteger, if_neg hhead, leadingNumber_append hnumber.2 hends]
  toInteger_none s hnone := by
    cases s with
    | nil => rfl
    | cons c s =>
      have hc : mayBegin c = false := hnone c (by simp)
      simp only [mayBegin, Bool.or_eq_false_iff, decide_eq_false_iff_not] at hc
      obtain ⟨⟨⟨hdigit, hminus⟩, -⟩, -⟩ := hc
      simp [leadingInteger, leadingNumber, hminus, hdigit, valueOf]

/-- What is written for a pin is read as the pin. -/
theorem readsPin_iff_formatPin : ReadsPin decimal (formatPin ⟨2, 11⟩) :=
  ((readsPin_iff decimal).2 _).mpr (Or.inl ⟨_, denotes_formatPin _⟩)

/-- A string of two letters and a dot is taken as pin zero of port zero. -/
theorem not_readsPin_letters : ¬ ReadsPin decimal "a.b".toList := by
  intro h
  have hnone : ∀ p, ¬ Denotes "a.b".toList p := by
    rintro p ⟨port, pin, hport, -, hs, -⟩
    cases port with
    | nil => exact hport.1 rfl
    | cons c port =>
      obtain rfl : 'a' = c := (List.cons.inj hs).1
      exact absurd (hport.2 'a' (by simp)) (by decide)
  have hport : ∀ c ∈ ['a'].head?, mayBegin c = false := by simp [mayBegin]
  have hpin : ∀ c ∈ ['b'].head?, mayBegin c = false := by simp [mayBegin]
  have hzero : fromString decimal "a.b".toList = ⟨0, 0⟩ :=
    fromString_no_numbers decimal (by decide) (by decide) hport hpin
  rw [h.of_not_denotes hnone] at hzero
  exact absurd hzero (by decide)

end HalAPI.Pin
