import HalAPI.Phylib.Util

/-!
# Paths of devices

Two functions of the library build the path of a device from its name and its port.
`PeriphObject::open(flags)` prints the port in decimal, and `phylib_util_open` adds the
single character `'0' + port` in a buffer of twelve bytes.  The port of the second is a `u8`, which
cannot hold `NO_PORT_NUMBER`.

They agree on ports of one digit and names of at most five characters, and the call without a port
never opens the path it is meant to open (`agrees_iff`).
-/

namespace HalAPI.Phylib

open Foundation

/-! ## Names -/

/-- `periph_name` -/
def periphName : List (List Char) :=
  ["resd", "core", "adc", "dac", "uart", "spi", "usb", "can", "enet", "i2c", "i2s", "mem", "rtc",
    "cec", "qei", "pwm", "pio", "tmr", "eint", "wdt", "bod", "dma", "jtag", "reset", "clkout",
    "lcd", "lcd", "lcd", "lcd", "emc", "mci", "ssp", "mcpwm", "nmi", "trace", "sys", "qspi",
    "usart", "sdio", "spdif", "hdmi", "mco", "dfsdm", "i2c", "dcmi"].map String.toList

/-- `CORE_PERIPH_RTC`, the index of `"rtc"` -/
def corePeriphRtc : BitVec 8 := 12#8

/-- An index of `periph_name`, which is the type of a device. -/
abbrev Periph : Type := Fin periphName.length

/-- The name of a device. -/
def nameOf (t : Periph) : List Char := periphName[t]

/-- A name has at least one and at most six characters, and no `\0`. -/
lemma nameOf_spec (t : Periph) :
    0 < (nameOf t).length ∧ (nameOf t).length ≤ 6 ∧ '\x00' ∉ nameOf t := by
  revert t
  decide

/-! ## The code -/

/-- The word that a `PeriphObject` keeps its type and its port in. -/
def periphPort (t : Periph) (port : BitVec 8) : BitVec 16 := BitVec.ofNat 8 t.val ++ port

/-- `snprintf` with a string to print: what is in the buffer -/
def snprintf (size : ℕ) (s : List Char) : List Char := s.take (size - 1)

/-- The path that `PeriphObject::open(flags)` opens, if it does not return `-1` at once.  An index
past the end of `periph_name` does not occur. -/
def devicePath (linkNameMax : ℕ) (m_periphPort : BitVec 16) : Option (List Char) :=
  let periphType := (m_periphPort >>> 8).setWidth 8
  if periphType ≠ corePeriphRtc then
    if m_periphPort ≠ 0 then
      let name := periphName.getD periphType.toNat []
      some (snprintf (linkNameMax - 1)
        ("/dev/".toList ++ name ++ Nat.toDigits 10 (m_periphPort &&& 0xff#16).toNat))
    else none
  else some ("/dev/rtc".toList.take (linkNameMax - 1))

/-! ## What the paths should be -/

/-- What a caller of `phylib_util_open` passes as the port. -/
inductive Argument where
  | port (p : BitVec 8)
  | noPort

/-- The argument as the function receives it. -/
def Argument.toU8 : Argument → BitVec 8
  | .port p => p
  | .noPort => noPortNumber.setWidth 8

/-- `/dev/`, the name, and the port in decimal if there is one. -/
def pathOf (t : Periph) : Argument → List Char
  | .port p => "/dev/".toList ++ nameOf t ++ Nat.toDigits 10 p.toNat
  | .noPort => "/dev/".toList ++ nameOf t

/-- The path of a device with a port. -/
lemma pathOf_port (t : Periph) (p : BitVec 8) :
    pathOf t (.port p) = "/dev/".toList ++ nameOf t ++ Nat.toDigits 10 p.toNat := rfl

/-- What `phylib_util_open` does for a device: whatever its buffer and the memory of the table
hold and whatever `open()` returns. -/
def openings (t : Periph) (arg : Argument) : Set Opening :=
  { opening | ∃ uninitialized total result table, uninitialized.length = 12 ∧
      opening = utilOpen uninitialized (nameOf t) arg.toU8 total result table }

/-- For a device and what is passed as the port, `phylib_util_open` opens the path it should and
writes nothing past the end of its buffer.  With a port that is the path of the other function, and
without a port the first entry of the table is used. -/
structure Agrees (linkNameMax : ℕ) (t : Periph) (arg : Argument) : Prop where
  opened : ∀ opening ∈ openings t arg, ∀ path, opening.opened = some path → path = pathOf t arg
  within : ∀ opening ∈ openings t arg, opening.buffer.length = 12
  same : ∀ p, arg = .port p → devicePath linkNameMax (periphPort t p) = some (pathOf t arg)
  first : arg = .noPort → ∀ opening ∈ openings t arg, opening.slot = 0

/-! ## `PeriphObject::open(flags)` -/

/-- The word as a number. -/
lemma toNat_periphPort (t : Periph) (port : BitVec 8) :
    (periphPort t port).toNat = 256 * t.val + port.toNat := by
  have ht : t.val < 45 := t.isLt
  have happend : (periphPort t port).toNat = (BitVec.ofNat 8 t.val).toNat <<< 8 ||| port.toNat :=
    BitVec.toNat_append _ _
  rw [happend, ← Nat.shiftLeft_add_eq_or_of_lt port.isLt, BitVec.toNat_ofNat, Nat.shiftLeft_eq]
  omega

/-- The high byte of the word is the type. -/
lemma periphPort_type (t : Periph) (port : BitVec 8) :
    (periphPort t port >>> 8).setWidth 8 = BitVec.ofNat 8 t.val := by
  apply BitVec.eq_of_toNat_eq
  have hport := port.isLt
  rw [BitVec.toNat_setWidth, BitVec.toNat_ushiftRight, toNat_periphPort, BitVec.toNat_ofNat,
    Nat.shiftRight_eq_div_pow]
  omega

/-- The low byte of the word is the port. -/
lemma periphPort_port (t : Periph) (port : BitVec 8) :
    (periphPort t port &&& 0xff#16).toNat = port.toNat := by
  have hport := port.isLt
  have hmod : (periphPort t port &&& 0xff#16).toNat = (periphPort t port).toNat % 2 ^ 8 :=
    Nat.and_two_pow_sub_one_eq_mod _ 8
  rw [hmod, toNat_periphPort]
  omega

/-- The word is zero only for the first type and port zero. -/
lemma periphPort_eq_zero_iff (t : Periph) (port : BitVec 8) :
    periphPort t port = 0 ↔ t.val = 0 ∧ port = 0 := by
  rw [BitVec.toNat_eq, toNat_periphPort, BitVec.toNat_eq]
  simp

/-- The path of a device whose port is a byte has at most fourteen characters. -/
lemma length_pathOf_port_le (t : Periph) (p : BitVec 8) : (pathOf t (.port p)).length ≤ 14 := by
  have hdigits : (Nat.toDigits 10 p.toNat).length ≤ 3 := by
    have hp := p.isLt
    exact (Nat.length_toDigits_le_iff (by omega) (by omega)).mpr (by omega)
  have hname := (nameOf_spec t).2.1
  have hdev : "/dev/".toList.length = 5 := rfl
  rw [pathOf_port, List.length_append, List.length_append, hdev]
  omega

/-- The path of the device fits in the buffer of `PeriphObject::open(flags)`. -/
lemma snprintf_pathOf {linkNameMax : ℕ} (hmax : 16 ≤ linkNameMax) (t : Periph) (p : BitVec 8) :
    snprintf (linkNameMax - 1) (pathOf t (.port p)) = pathOf t (.port p) := by
  have hlen := length_pathOf_port_le t p
  exact List.take_of_length_le (by omega)

/-- What `PeriphObject::open(flags)` opens, in terms of the type and the port. -/
lemma devicePath_periphPort (linkNameMax : ℕ) (t : Periph) (p : BitVec 8) :
    devicePath linkNameMax (periphPort t p) =
      if t.val ≠ 12 then
        if t.val ≠ 0 ∨ p ≠ 0 then some (snprintf (linkNameMax - 1) (pathOf t (.port p))) else none
      else some ("/dev/rtc".toList.take (linkNameMax - 1)) := by
  have ht : t.val < 45 := t.isLt
  have hindex : (BitVec.ofNat 8 t.val).toNat = t.val := by
    rw [BitVec.toNat_ofNat]
    omega
  have hrtc : BitVec.ofNat 8 t.val ≠ corePeriphRtc ↔ t.val ≠ 12 := by
    rw [Ne, BitVec.toNat_eq, hindex]
    rfl
  have hword : periphPort t p ≠ 0 ↔ t.val ≠ 0 ∨ p ≠ 0 := by
    rw [Ne, periphPort_eq_zero_iff, not_and_or]
  have hname : periphName.getD (BitVec.ofNat 8 t.val).toNat [] = nameOf t := by
    rw [hindex]
    exact List.getD_eq_getElem _ _ t.isLt
  unfold devicePath
  dsimp only
  rw [periphPort_type, periphPort_port, hname]
  simp only [hrtc, hword]
  rfl

/-- The path of the real time clock is not `/dev/rtc` with a port. -/
lemma take_ne_pathOf {t : Periph} (h : t.val = 12) (size : ℕ) (p : BitVec 8) :
    "/dev/rtc".toList.take size ≠ pathOf t (.port p) := by
  intro heq
  obtain rfl : t = ⟨12, by decide⟩ := Fin.ext h
  have hlen := congrArg List.length heq
  have hdigits : 0 < (Nat.toDigits 10 p.toNat).length := Nat.length_toDigits_pos
  have hdev : ("/dev/".toList ++ nameOf ⟨12, by decide⟩).length = 8 := by decide
  have hrtc : "/dev/rtc".toList.length = 8 := rfl
  rw [pathOf_port, List.length_append, List.length_take, hdev, hrtc] at hlen
  omega

/-- `PeriphObject::open(flags)` opens the path of the device, except for the real time clock, whose
path has no port, and for the word that is zero. -/
lemma devicePath_periphPort_iff {linkNameMax : ℕ} (hmax : 16 ≤ linkNameMax) (t : Periph)
    (p : BitVec 8) :
    devicePath linkNameMax (periphPort t p) = some (pathOf t (.port p)) ↔
      t.val ≠ 12 ∧ (t.val ≠ 0 ∨ p ≠ 0) := by
  rw [devicePath_periphPort, snprintf_pathOf hmax]
  by_cases hrtc : t.val = 12
  · rw [if_neg (not_not_intro hrtc), Option.some.injEq]
    constructor
    · intro heq
      exact absurd heq (take_ne_pathOf hrtc _ p)
    · rintro ⟨hne, -⟩
      exact absurd hrtc hne
  · rw [if_pos hrtc]
    by_cases hword : t.val ≠ 0 ∨ p ≠ 0
    · rw [if_pos hword]
      exact iff_of_true rfl ⟨hrtc, hword⟩
    · rw [if_neg hword]
      exact iff_of_false nofun fun h => hword h.2

/-! ## `phylib_util_open` -/

/-- There is no `\0` in the path without the port. -/
lemma not_mem_path {name : List Char} (h : '\x00' ∉ name) : '\x00' ∉ "/dev/".toList ++ name := by
  rw [List.mem_append]
  exact not_or_intro (by decide) h

/-- The buffer at the end: the prefix, the name, one character for the port, and what was there
before from the end of the string on. -/
lemma buildPath_fst (uninitialized : List Char) {name : List Char} (h : '\x00' ∉ name)
    (port : BitVec 8) :
    (buildPath uninitialized name port).1 =
      "/dev/".toList ++ name ++
        portChar port :: '\x00' :: uninitialized.drop (7 + name.length) := by
  unfold buildPath
  rw [strcpy_eq, strcat_append (by decide)]
  simp only [strlen_append (not_mem_path h), setWidth_ne_noPortNumber, ne_eq, not_false_eq_true,
    if_true]
  rw [overwrite_append rfl, overwrite_append (by simp)]
  simp [List.drop_drop, Nat.add_comm, Nat.add_left_comm]

/-- Nothing is written past the end of the buffer exactly if the name has at most five
characters. -/
lemma length_buildPath_eq_iff {uninitialized name : List Char} (hlen : uninitialized.length = 12)
    (h : '\x00' ∉ name) (port : BitVec 8) :
    (buildPath uninitialized name port).1.length = 12 ↔ name.length ≤ 5 := by
  have hdev : "/dev/".toList.length = 5 := rfl
  rw [buildPath_fst uninitialized h]
  simp only [List.length_append, List.length_cons, List.length_drop, hlen, hdev]
  omega

/-- The string in the buffer at the end is the prefix, the name and one character, or none if the
character is `\0`. -/
lemma stringOf_buildPath (uninitialized : List Char) {name : List Char} (h : '\x00' ∉ name)
    (port : BitVec 8) :
    stringOf (buildPath uninitialized name port).1 =
      "/dev/".toList ++ name ++ stringOf [portChar port] := by
  rw [buildPath_fst uninitialized h, stringOf_append (not_mem_path h)]
  by_cases hchar : portChar port = '\x00'
  · rw [hchar, stringOf_zero_cons, stringOf_zero_cons]
  · simp [stringOf, hchar]

/-- The character is the port in decimal exactly if the port has one digit. -/
lemma stringOf_portChar_eq_iff (p : BitVec 8) :
    stringOf [portChar p] = Nat.toDigits 10 p.toNat ↔ p.toNat < 10 := by
  constructor
  · intro heq
    have hlen : (stringOf [portChar p]).length ≤ 1 := List.takeWhile_prefix _ |>.length_le
    rw [heq] at hlen
    simpa using (Nat.length_toDigits_le_iff (by omega) (by omega)).mp hlen
  · intro hp
    have hdigits : ∀ q < 10, stringOf [Char.ofNat (48 + q)] = [Nat.digitChar q] := by decide
    have hsum : (48#8 + p).toNat = 48 + p.toNat := by
      rw [BitVec.toNat_add, BitVec.toNat_ofNat]
      omega
    rw [portChar, hsum, hdigits p.toNat hp, Nat.toDigits_of_lt_base hp]

/-! ## Agreement -/

/-- What is known of every opening of a device: its buffer, its entry, and its path if there is
one. -/
lemma opening_spec {t : Periph} {arg : Argument} {opening : Opening}
    (h : opening ∈ openings t arg) :
    (opening.buffer.length = 12 ↔ (nameOf t).length ≤ 5) ∧
      opening.slot = arg.toU8.toNat ∧
      ∀ path, opening.opened = some path →
        path = "/dev/".toList ++ nameOf t ++ stringOf [portChar arg.toU8] := by
  obtain ⟨uninitialized, total, result, table, hlen, rfl⟩ := h
  have hname := (nameOf_spec t).2.2
  refine ⟨?_, ?_, ?_⟩
  · rw [utilOpen_buffer]
    exact length_buildPath_eq_iff hlen hname arg.toU8
  · exact utilOpen_slot uninitialized _ arg.toU8 result table
  · intro path hpath
    by_cases hentry : (fillTable total table).fd arg.toU8.toNat = -1
    · rw [(utilOpen_of_eq uninitialized (nameOf t) result hentry).1, Option.some.injEq,
        stringOf_buildPath uninitialized hname] at hpath
      exact hpath.symm
    · rw [(utilOpen_of_ne uninitialized (nameOf t) result hentry).1] at hpath
      cases hpath

/-- A device can be opened: there is an opening that calls `open()`. -/
lemma exists_opened (t : Periph) (arg : Argument) :
    ∃ opening ∈ openings t arg,
      opening.opened = some ("/dev/".toList ++ nameOf t ++ stringOf [portChar arg.toU8]) := by
  let table : Table := { fd := fun _ => 0, init := false }
  have hentry : (fillTable 256 table).fd arg.toU8.toNat = -1 := fillTable_fd rfl arg.toU8.isLt
  refine ⟨_, ⟨List.replicate 12 '\x00', 256, 0, table, List.length_replicate, rfl⟩, ?_⟩
  rw [(utilOpen_of_eq _ (nameOf t) 0 hentry).1, stringOf_buildPath _ (nameOf_spec t).2.2]

/-- A port number is passed as it is, and the path is right exactly if it has one digit. -/
lemma path_eq_pathOf_iff (t : Periph) (p : BitVec 8) :
    "/dev/".toList ++ nameOf t ++ stringOf [portChar p] = pathOf t (.port p) ↔ p.toNat < 10 := by
  rw [pathOf_port, List.append_cancel_left_eq, stringOf_portChar_eq_iff]

/-- Without a port the entry is not the first one. -/
lemma toU8_noPort : Argument.noPort.toU8.toNat = 102 := by decide

/-- The exact condition for `phylib_util_open` to do what it should: it is called with a port of one
digit, for a device whose name has at most five characters, whose path has a port, and whose word is
not zero. -/
theorem agrees_iff {linkNameMax : ℕ} (hmax : 16 ≤ linkNameMax) (t : Periph) (arg : Argument) :
    Agrees linkNameMax t arg ↔
      ∃ p, arg = .port p ∧ p.toNat < 10 ∧ (nameOf t).length ≤ 5 ∧ t.val ≠ 12 ∧
        (t.val ≠ 0 ∨ p ≠ 0) := by
  obtain ⟨opening, hmem, hopened⟩ := exists_opened t arg
  constructor
  · intro h
    cases arg with
    | port p =>
      have hpath := h.opened opening hmem _ hopened
      have hlen := (opening_spec hmem).1.mp (h.within opening hmem)
      have hsame := (devicePath_periphPort_iff hmax t p).mp (h.same p rfl)
      exact ⟨p, rfl, (path_eq_pathOf_iff t p).mp hpath, hlen, hsame⟩
    | noPort =>
      have hslot := h.first rfl opening hmem
      rw [(opening_spec hmem).2.1, toU8_noPort] at hslot
      omega
  · rintro ⟨p, rfl, hp, hlen, hsame⟩
    refine ⟨?_, ?_, ?_, nofun⟩
    · intro other hother path hpath
      rw [(opening_spec hother).2.2 path hpath]
      exact (path_eq_pathOf_iff t p).mpr hp
    · intro other hother
      exact (opening_spec hother).1.mpr hlen
    · intro q hq
      cases hq
      exact (devicePath_periphPort_iff hmax t p).mpr hsame

/-- `uart1` is opened by both functions. -/
theorem agrees_iff_uart : Agrees 24 ⟨4, by decide⟩ (.port 1#8) :=
  (agrees_iff (by decide) ⟨4, by decide⟩ (.port 1#8)).mpr ⟨1#8, rfl, by decide⟩

/-- Port 10 of the `uart` is opened as `/dev/uart:`. -/
theorem not_agrees_uart_ten : ¬ Agrees 24 ⟨4, by decide⟩ (.port 10#8) := by
  intro h
  have hpath := h.opened _
    ⟨List.replicate 12 '\x00', 16, 3, { fd := fun _ => 0, init := false }, rfl, rfl⟩
    "/dev/uart:".toList (by decide)
  revert hpath
  decide

end HalAPI.Phylib
