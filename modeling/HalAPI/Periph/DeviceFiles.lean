import HalAPI.Periph.OpenOnce
import HalAPI.Phylib.DevicePath

/-!
# The files behind the ports

An object opens the device file that is named after its type and the number of its port.  The table
of descriptors knows objects by the word of both, and not by the file.  Some types have one name, and
all ports of the real time clock have one file, so two words may stand for one file
(`devicePath_wordOf_eq_iff`).

`device_files_open_once_iff` says when this matters: no file is ever opened twice at the same time
exactly if no two objects have different words with one file.
-/

namespace HalAPI.Periph

open Foundation Phylib

/-! ## Words and files -/

/-- The type and the port of an object. -/
abbrev DeviceId : Type := Phylib.Periph × BitVec 8

/-- `m_periph_port` of an object with the type and the port. -/
def wordOf (device : DeviceId) : BitVec 16 := periphPort device.1 device.2

/-- Two devices have one file: their types have one name, and they have one port unless they are the
real time clock. -/
def ShareFile (a b : DeviceId) : Prop :=
  nameOf a.1 = nameOf b.1 ∧ (a.1.val = 12 ∨ a.2 = b.2)

/-- No name ends with a digit. -/
lemma isDigit_getLast_nameOf (t : Phylib.Periph) (h : nameOf t ≠ []) :
    ((nameOf t).getLast h).isDigit = false := by
  revert t
  decide

/-- The real time clock has a name of its own. -/
lemma nameOf_eq_rtc_iff (t : Phylib.Periph) : nameOf t = nameOf ⟨12, by decide⟩ ↔ t.val = 12 := by
  revert t
  decide

/-- Characters that are no digit at their end are what is left when the digits after them are
removed. -/
lemma rdropWhile_append_digits {xs ds : List Char} (hds : ∀ c ∈ ds, c.isDigit = true)
    (hxs : ∀ h : xs ≠ [], (xs.getLast h).isDigit = false) :
    (xs ++ ds).rdropWhile Char.isDigit = xs := by
  induction ds using List.reverseRecOn with
  | nil =>
    rw [List.append_nil, List.rdropWhile_eq_self_iff]
    exact fun h => by simp [hxs h]
  | append_singleton ds c ih =>
    rw [← List.append_assoc, List.rdropWhile_concat_pos _ _ _ (hds c (by simp))]
    exact ih fun c' hc' => hds c' (by simp [hc'])

/-- Without its digits a path is the prefix and the name. -/
lemma rdropWhile_pathOf (t : Phylib.Periph) (p : BitVec 8) :
    (pathOf t (.port p)).rdropWhile Char.isDigit = "/dev/".toList ++ nameOf t := by
  have hname := (nameOf_spec t).1
  have hne : nameOf t ≠ [] := List.ne_nil_of_length_pos hname
  refine rdropWhile_append_digits
    (fun c hc => Nat.isDigit_of_mem_toDigits (by decide) (by decide) hc) fun h => ?_
  rw [List.getLast_append_of_ne_nil h hne]
  exact isDigit_getLast_nameOf t hne

/-- A path with a port determines the name and the port. -/
lemma pathOf_port_inj {t t' : Phylib.Periph} {p p' : BitVec 8} :
    pathOf t (.port p) = pathOf t' (.port p') ↔ nameOf t = nameOf t' ∧ p = p' := by
  constructor
  · intro h
    have hnames := congrArg (List.rdropWhile Char.isDigit) h
    rw [rdropWhile_pathOf, rdropWhile_pathOf] at hnames
    have hname : nameOf t = nameOf t' := List.append_cancel_left hnames
    rw [pathOf_port, pathOf_port, hname] at h
    have hports := congrArg (Nat.ofDigitChars 10 · 0) (List.append_cancel_left h)
    simp only [Nat.ofDigitChars_ten_toDigits] at hports
    exact ⟨hname, BitVec.eq_of_toNat_eq hports⟩
  · rintro ⟨hname, rfl⟩
    rw [pathOf_port, pathOf_port, hname]

/-- The path of the real time clock is no path with a port. -/
lemma rtc_ne_pathOf (t : Phylib.Periph) (p : BitVec 8) :
    "/dev/rtc".toList ≠ pathOf t (.port p) := by
  intro h
  have hnames := congrArg (List.rdropWhile Char.isDigit) h
  have hrtc : "/dev/rtc".toList.rdropWhile Char.isDigit = "/dev/rtc".toList := by decide
  rw [rdropWhile_pathOf, hrtc, h, pathOf_port, List.append_right_eq_self] at hnames
  exact Nat.toDigits_ne_nil hnames

variable {linkNameMax : ℕ}

/-- The file of a device whose word is not zero. -/
lemma devicePath_wordOf (hmax : 16 ≤ linkNameMax) {device : DeviceId} (h : wordOf device ≠ 0) :
    devicePath linkNameMax (wordOf device) =
      some (if device.1.val = 12 then "/dev/rtc".toList else pathOf device.1 (.port device.2)) := by
  have htake : "/dev/rtc".toList.take (linkNameMax - 1) = "/dev/rtc".toList := by
    have hlen : "/dev/rtc".toList.length = 8 := rfl
    exact List.take_of_length_le (by omega)
  rw [wordOf, Ne, periphPort_eq_zero_iff, not_and_or] at h
  rw [wordOf, devicePath_periphPort, snprintf_pathOf hmax, htake, if_pos h]
  by_cases hrtc : device.1.val = 12
  · rw [if_neg (not_not_intro hrtc), if_pos hrtc]
  · rw [if_pos hrtc, if_neg hrtc]

/-- Two words that are not zero stand for one file exactly if their devices have one. -/
lemma devicePath_wordOf_eq_iff (hmax : 16 ≤ linkNameMax) {a b : DeviceId} (ha : wordOf a ≠ 0)
    (hb : wordOf b ≠ 0) :
    devicePath linkNameMax (wordOf a) = devicePath linkNameMax (wordOf b) ↔ ShareFile a b := by
  rw [devicePath_wordOf hmax ha, devicePath_wordOf hmax hb, Option.some_inj, ShareFile]
  have hrtc : ∀ t : Phylib.Periph, t.val = 12 → nameOf t = nameOf ⟨12, by decide⟩ :=
    fun t => (nameOf_eq_rtc_iff t).mpr
  by_cases hartc : a.1.val = 12
  · by_cases hbrtc : b.1.val = 12
    · rw [if_pos hartc, if_pos hbrtc, hrtc a.1 hartc, hrtc b.1 hbrtc]
      exact iff_of_true rfl ⟨rfl, Or.inl hartc⟩
    · rw [if_pos hartc, if_neg hbrtc]
      refine iff_of_false (rtc_ne_pathOf _ _) fun h => hbrtc ?_
      exact (nameOf_eq_rtc_iff b.1).mp (h.1.symm.trans (hrtc a.1 hartc))
  · by_cases hbrtc : b.1.val = 12
    · rw [if_neg hartc, if_pos hbrtc]
      refine iff_of_false (rtc_ne_pathOf _ _).symm fun h => hartc ?_
      exact (nameOf_eq_rtc_iff a.1).mp (h.1.trans (hrtc b.1 hbrtc))
    · rw [if_neg hartc, if_neg hbrtc, pathOf_port_inj, or_iff_right hartc]

/-- Different devices have different words. -/
lemma wordOf_injective : Function.Injective wordOf := by
  rintro ⟨t, p⟩ ⟨t', p'⟩ h
  have hwords := congrArg BitVec.toNat h
  rw [wordOf, wordOf, toNat_periphPort, toNat_periphPort] at hwords
  have hp := p.isLt
  have hp' := p'.isLt
  dsimp only at hwords hp hp'
  have ht : t = t' := Fin.ext (by omega)
  have hport : p = p' := BitVec.eq_of_toNat_eq (by omega)
  rw [ht, hport]

/-! ## Runs -/

section Runs

variable {n : ℕ} {Obj : Type}

/-- No file is open twice at the same time. -/
def FilesOpenOnce (linkNameMax : ℕ) (s : State n Obj) : Prop :=
  ∀ d e p q, s.openFor d = some p → s.openFor e = some q →
    devicePath linkNameMax p = devicePath linkNameMax q → d = e

/-- Descriptors are open for ports of objects only. -/
def OpenForObjects (port : Obj → BitVec 16) (s : State n Obj) : Prop :=
  ∀ d p, s.openFor d = some p → ∃ o, p = port o

variable {port : Obj → BitVec 16}

/-- At the start an object finds no entry, so that the system is asked for a descriptor. -/
lemma lookupFileno_start {o : Obj} (hport : port o ≠ 0) :
    lookupFileno port (State.start : State n Obj) o = none := by
  refine List.find?_eq_none.mpr fun i _ hfound => hport ?_
  exact (of_decide_eq_true hfound).symm

variable [DecidableEq Obj] {s : State n Obj}

/-- Every call opens a descriptor for the port of its object, if any. -/
lemma openForObjects_step (h : OpenForObjects port s) (c : Call n Obj) :
    OpenForObjects port (step port s c) := by
  cases c with
  | openDevice o granted ret =>
    cases hfound : lookupFileno port s o with
    | some d =>
      rw [step_openDevice_of_found hfound]
      exact h
    | none =>
      cases granted with
      | some d =>
        rw [step_openDevice_of_granted hfound]
        intro e p he
        rcases eq_or_ne e d with rfl | hne
        · exact ⟨o, by simpa using he.symm⟩
        · exact h e p (by simpa [Function.update_of_ne hne] using he)
      | none =>
        rw [step_openDevice_of_refused hfound]
        exact h
  | close o =>
    cases hheld : (updateFileno s o).fd o with
    | some d =>
      rw [step_close_of_held hheld]
      intro e p he
      rcases eq_or_ne e d with rfl | hne
      · exact absurd he (by simp)
      · exact h e p (by simpa [Function.update_of_ne hne] using he)
    | none =>
      rw [step_close_of_none hheld]
      intro e p he
      rw [updateFileno_openFor] at he
      exact h e p he
  | operate o operation =>
    intro e p he
    rw [step, operate, updateFileno_openFor] at he
    exact h e p he

/-- Two objects with different ports open their files one after the other. -/
lemma run_two_opens {o o' : Obj} (hne : port o ≠ port o') (hport : port o ≠ 0)
    (hport' : port o' ≠ 0) {d e : Fin n} (hde : d ≠ e) :
    Along (step port) (Admitted port) (.start : State n Obj)
        [.openDevice o (some d) 0, .openDevice o' (some e) 0] ∧
      (run (step port) (.start : State n Obj)
        [.openDevice o (some d) 0, .openDevice o' (some e) 0]).openFor =
          Function.update (Function.update (fun _ => none) d (some (port o))) e (some (port o')) := by
  have hfirst := step_openDevice_of_granted (n := n) (lookupFileno_start hport) d 0
  have hfound : lookupFileno port (step port (.start : State n Obj) (.openDevice o (some d) 0)) o' =
      none := by
    rw [hfirst]
    refine List.find?_eq_none.mpr fun i _ => ?_
    rcases eq_or_ne i d with rfl | hi
    · simpa using hne
    · simpa [Function.update_of_ne hi, State.start] using Ne.symm hport'
  refine ⟨⟨fun _ e _ => rfl, fun _ e' he' => ?_, trivial⟩, ?_⟩
  · obtain rfl : e = e' := by simpa using he'
    rw [hfirst]
    exact Function.update_of_ne hde.symm _ _
  · rw [run_cons, run_cons, run_nil, step_openDevice_of_granted hfound, hfirst]
    rfl

/-- The ports of objects with types and ports. -/
def portsOf (device : Obj → DeviceId) (o : Obj) : BitVec 16 := wordOf (device o)

/-- When device files are opened once.  In every state of every run of `open`, `close` and I/O calls
no file is open twice at the same time, exactly if objects with one file have one word: if all of
them have the same type and port. -/
theorem device_files_open_once_iff {linkNameMax : ℕ} (hmax : 16 ≤ linkNameMax) (hn : 2 ≤ n)
    (device : Obj → DeviceId) (hword : ∀ o, portsOf device o ≠ 0) :
    (∀ calls, Along (step (portsOf device)) (Admitted (portsOf device)) (.start : State n Obj)
        calls →
      Throughout (step (portsOf device)) (FilesOpenOnce linkNameMax) .start calls) ↔
      ∀ o o', ShareFile (device o) (device o') → device o = device o' := by
  have hpath : ∀ o o', devicePath linkNameMax (portsOf device o) =
      devicePath linkNameMax (portsOf device o') ↔ ShareFile (device o) (device o') :=
    fun o o' => devicePath_wordOf_eq_iff hmax (hword o) (hword o')
  constructor
  · intro h o o' hshare
    by_contra hne
    have hwords : portsOf device o ≠ portsOf device o' := fun heq => hne (wordOf_injective heq)
    have hde : (⟨0, by omega⟩ : Fin n) ≠ ⟨1, by omega⟩ := by simp
    obtain ⟨hadmitted, hopen⟩ := run_two_opens hwords (hword o) (hword o') hde
    have hend : FilesOpenOnce linkNameMax _ := (h _ hadmitted).at_end
    refine hde (hend _ _ (portsOf device o) (portsOf device o') ?_ ?_ ((hpath o o').mpr hshare))
    · rw [hopen, Function.update_of_ne hde, Function.update_self]
    · rw [hopen, Function.update_self]
  · intro h calls hadmitted
    have hstep : ∀ (s : State n Obj) (c : Call n Obj),
        (Consistent s ∧ NoRepeat s) ∧ OpenForObjects (portsOf device) s →
        Admitted (portsOf device) s c →
        (Consistent (step (portsOf device) s c) ∧ NoRepeat (step (portsOf device) s c)) ∧
          OpenForObjects (portsOf device) (step (portsOf device) s c) :=
      fun _ c hs _ =>
        ⟨⟨consistent_step hword hs.1.1 c, noRepeat_step hs.1.2 c⟩, openForObjects_step hs.2 c⟩
    refine (throughout_of_along hstep
      ⟨⟨consistent_start, noRepeat_start⟩, fun _ _ hnone => by cases hnone⟩ hadmitted).mono ?_
    rintro s ⟨⟨hcons, hrep⟩, hobjects⟩ d e p q hd he hsame
    obtain ⟨o, rfl⟩ := hobjects d p hd
    obtain ⟨o', rfl⟩ := hobjects e q he
    have hports : portsOf device o' = portsOf device o :=
      congrArg wordOf (h o o' ((hpath o o').mp hsame)).symm
    rw [hports] at he
    have htracks : Tracks (portsOf device) s := tracks_of_consistent hcons hrep
    exact htracks.open_injective d e _ hd he

/-- Port 0 of the two types with the name `i2c` has one file, which may be open twice. -/
theorem device_files_open_twice_i2c :
    ¬ ∀ calls, Along (step (portsOf ![(⟨9, by decide⟩, 0#8), (⟨43, by decide⟩, 0#8)]))
        (Admitted (portsOf ![(⟨9, by decide⟩, 0#8), (⟨43, by decide⟩, 0#8)]))
        (.start : State 8 (Fin 2)) calls →
      Throughout (step (portsOf ![(⟨9, by decide⟩, 0#8), (⟨43, by decide⟩, 0#8)]))
        (FilesOpenOnce 24) .start calls := by
  refine (device_files_open_once_iff (by decide) (by decide) _ (by decide)).not.mpr fun h => ?_
  exact absurd (h 0 1 ⟨by decide, Or.inr rfl⟩) (by decide)

end Runs

end HalAPI.Periph
