import HalAPI.Periph.FdMap

/-!
# A port is open once

The objects of a port share one descriptor through the table.  An object may hold a stale copy of
a descriptor, even one that is open for another port by now, so `open` and `close` go by
what the table says and not by what the object holds.

`fdMap_tracks_open` says that the table is right in every state: an entry is not zero exactly if
its descriptor is open, and no port has two entries.  So no port is opened twice at the same
time, no descriptor is closed twice, and one that is open stays in the table until it is
closed.
-/

namespace HalAPI.Periph

open Foundation

variable {n : ℕ} {Obj : Type} {port : Obj → BitVec 16} {s : State n Obj}

/-! ## What the table says -/

/-- The table is right: the entries that are not zero are those of the open descriptors, no port
has two of them, and every object finds the descriptor that is open for its port. -/
structure Tracks (port : Obj → BitVec 16) (s : State n Obj) : Prop where
  entry_ne_zero_iff : ∀ d, s.fdMap d ≠ 0 ↔ (s.openFor d).isSome
  entry_injective : ∀ d e, s.fdMap d ≠ 0 → s.fdMap d = s.fdMap e → d = e
  open_injective : ∀ d e p, s.openFor d = some p → s.openFor e = some p → d = e
  found : ∀ d o, s.openFor d = some (port o) → lookupFileno port s o = some d

/-- No port that is not zero has two entries. -/
def NoRepeat (s : State n Obj) : Prop :=
  ∀ d e, s.fdMap d ≠ 0 → s.fdMap d = s.fdMap e → d = e

/-- At the start every entry is zero. -/
lemma noRepeat_start : NoRepeat (State.start : State n Obj) := fun _ _ h => absurd rfl h

/-- Entering zero, or a port that has no entry, repeats no port. -/
lemma NoRepeat.update (h : NoRepeat s) {p : BitVec 16} (hp : p = 0 ∨ ∀ d, s.fdMap d ≠ p)
    (fd : Obj → Option (Fin n)) (openFor : Fin n → Option (BitVec 16)) (d : Fin n) :
    NoRepeat { fdMap := Function.update s.fdMap d p, fd := fd, openFor := openFor } := by
  intro e e' hne heq
  rcases eq_or_ne e d with rfl | he
  · rcases eq_or_ne e' e with rfl | he'
    · rfl
    · simp only [Function.update_self, Function.update_of_ne he'] at hne heq
      rcases hp with hzero | hnew
      · exact absurd hzero hne
      · exact absurd heq.symm (hnew e')
  · rcases eq_or_ne e' d with rfl | he'
    · simp only [Function.update_self, Function.update_of_ne he] at hne heq
      rcases hp with hzero | hnew
      · exact absurd (heq.trans hzero) hne
      · exact absurd heq (hnew e)
    · simp only [Function.update_of_ne he, Function.update_of_ne he'] at hne heq
      exact h e e' hne heq

/-- In a consistent table without repetitions an object finds the descriptor that is open for its
port. -/
lemma lookupFileno_of_openFor (hcons : Consistent s) (hrep : NoRepeat s) {d : Fin n} {o : Obj}
    (hopen : s.openFor d = some (port o)) : lookupFileno port s o = some d := by
  obtain ⟨hne, hentry⟩ := hcons.entry_of_openFor hopen
  cases hfound : lookupFileno port s o with
  | none => exact absurd hentry (fdMap_ne_of_lookupFileno hfound d)
  | some e =>
    have hsame : s.fdMap d = s.fdMap e := hentry.trans (fdMap_of_lookupFileno hfound).symm
    rw [hrep d e hne hsame]

/-- A consistent table without repetitions is right. -/
lemma tracks_of_consistent (hcons : Consistent s) (hrep : NoRepeat s) : Tracks port s where
  entry_ne_zero_iff d := by
    rw [hcons d]
    by_cases hzero : s.fdMap d = 0
    · simp [hzero]
    · simp
  entry_injective := hrep
  open_injective d e p hd he := by
    obtain ⟨hne, hentry⟩ := hcons.entry_of_openFor hd
    obtain ⟨-, hentry'⟩ := hcons.entry_of_openFor he
    exact hrep d e hne (hentry.trans hentry'.symm)
  found _ _ hopen := lookupFileno_of_openFor hcons hrep hopen

/-- If an object finds no entry, no descriptor is open for its port. -/
lemma openFor_ne_of_lookupFileno (hcons : Consistent s) {o : Obj}
    (hfound : lookupFileno port s o = none) (e : Fin n) : s.openFor e ≠ some (port o) := by
  intro hopen
  obtain ⟨-, hentry⟩ := hcons.entry_of_openFor hopen
  exact fdMap_ne_of_lookupFileno hfound e hentry

/-! ## What a call opens and closes -/

variable [DecidableEq Obj]

/-- The descriptor that a call has the system open. -/
def openedBy (port : Obj → BitVec 16) (s : State n Obj) : Call n Obj → Option (Fin n)
  | .openDevice o granted _ => if lookupFileno port s o = none then granted else none
  | .close _ => none
  | .operate _ _ => none

/-- The descriptor that a call passes to `Device::close`. -/
def closedBy (s : State n Obj) : Call n Obj → Option (Fin n)
  | .openDevice _ _ _ => none
  | .close o => (updateFileno s o).fd o
  | .operate _ _ => none

/-- The object that makes a call. -/
def Call.object : Call n Obj → Obj
  | .openDevice o _ _ => o
  | .close o => o
  | .operate o _ => o

/-- A call closes an open descriptor only, opens one that is not open and for a port that is not
open, and leaves every other open descriptor open and in the table. -/
structure Accounts (port : Obj → BitVec 16) (s : State n Obj) (c : Call n Obj) : Prop where
  closes_open : ∀ d ∈ closedBy s c, (s.openFor d).isSome
  opens_closed : ∀ d ∈ openedBy port s c, s.openFor d = none
  opens_once : ∀ d ∈ openedBy port s c, ∀ e, s.openFor e ≠ some (port c.object)
  keeps_open : ∀ d, (s.openFor d).isSome → closedBy s c ≠ some d →
    (step port s c).openFor d = s.openFor d ∧ (step port s c).fdMap d = s.fdMap d

/-- Every call keeps the ports of the table apart. -/
lemma noRepeat_step (h : NoRepeat s) (c : Call n Obj) : NoRepeat (step port s c) := by
  cases c with
  | openDevice o granted ret =>
    cases hfound : lookupFileno port s o with
    | some d =>
      rw [step_openDevice_of_found hfound]
      exact h
    | none =>
      cases granted with
      | some d =>
        rw [step_openDevice_of_granted hfound]
        exact h.update (Or.inr (fdMap_ne_of_lookupFileno hfound)) _ _ d
      | none =>
        rw [step_openDevice_of_refused hfound]
        exact h
  | close o =>
    cases hheld : (updateFileno s o).fd o with
    | some d =>
      rw [step_close_of_held hheld]
      exact h.update (Or.inl rfl) _ _ d
    | none =>
      rw [step_close_of_none hheld]
      intro d e
      rw [updateFileno_fdMap]
      exact h d e
  | operate o operation =>
    intro d e
    rw [step, operate, updateFileno_fdMap]
    exact h d e

/-- An `open` for which the system grants a descriptor accounts for it. -/
lemma accounts_open (hcons : Consistent s) {o : Obj} (hfound : lookupFileno port s o = none)
    {d : Fin n} (hnew : s.openFor d = none) (ret : ℤ) :
    Accounts port s (.openDevice o (some d) ret) := by
  have hopened : openedBy port s (.openDevice o (some d) ret) = some d := if_pos hfound
  refine ⟨fun e he => absurd he (by simp [closedBy]), fun e he => ?_, fun _ _ => ?_,
    fun e he _ => ?_⟩
  · rw [hopened] at he
    obtain rfl : d = e := by simpa using he
    exact hnew
  · exact openFor_ne_of_lookupFileno hcons hfound
  · have hne : e ≠ d := by
      rintro rfl
      rw [hnew] at he
      exact absurd he (by simp)
    rw [step_openDevice_of_granted hfound]
    exact ⟨Function.update_of_ne hne _ _, Function.update_of_ne hne _ _⟩

/-- A call that opens and closes nothing and leaves both tables as they are accounts for that. -/
lemma accounts_of_same {c : Call n Obj} (hopened : openedBy port s c = none)
    (hclosed : closedBy s c = none) (hopen : (step port s c).openFor = s.openFor)
    (hmap : (step port s c).fdMap = s.fdMap) : Accounts port s c := by
  refine ⟨fun d hd => ?_, fun d hd => ?_, fun d hd => ?_, fun d _ _ => ?_⟩
  · rw [hclosed] at hd
    exact absurd hd (by simp)
  · rw [hopened] at hd
    exact absurd hd (by simp)
  · rw [hopened] at hd
    exact absurd hd (by simp)
  · rw [hopen, hmap]
    exact ⟨rfl, rfl⟩

/-- A `close` accounts for the descriptor it closes. -/
lemma accounts_close (hcons : Consistent s) {o : Obj} {d : Fin n}
    (hheld : (updateFileno s o).fd o = some d) : Accounts port s (.close o) := by
  have hclosed : closedBy s (.close o) = some d := hheld
  refine ⟨fun e he => ?_, fun e he => absurd he (by simp [openedBy]),
    fun e he => absurd he (by simp [openedBy]), fun e _ hne => ?_⟩
  · rw [hclosed] at he
    obtain rfl : d = e := by simpa using he
    obtain ⟨-, hentry⟩ := (updateFileno_fd_iff s o d).mp hheld
    rw [hcons d, if_neg hentry]
    rfl
  · have hed : e ≠ d := by
      rintro rfl
      exact hne hclosed
    rw [step_close_of_held hheld]
    exact ⟨Function.update_of_ne hed _ _, Function.update_of_ne hed _ _⟩

/-- Every call to which the system grants only what is not open accounts for what it opens and
closes. -/
lemma accounts_of_admitted (hcons : Consistent s) {c : Call n Obj} (hc : Admitted port s c) :
    Accounts port s c := by
  cases c with
  | openDevice o granted ret =>
    cases hfound : lookupFileno port s o with
    | some d =>
      have hstep := step_openDevice_of_found hfound granted ret
      exact accounts_of_same (by simp [openedBy, hfound]) rfl (by rw [hstep]; rfl)
        (by rw [hstep]; rfl)
    | none =>
      cases granted with
      | some d => exact accounts_open hcons hfound (hc hfound d rfl) ret
      | none =>
        have hstep := step_openDevice_of_refused hfound ret
        exact accounts_of_same (by simp [openedBy]) rfl (by rw [hstep]; rfl) (by rw [hstep]; rfl)
  | close o =>
    cases hheld : (updateFileno s o).fd o with
    | some d => exact accounts_close hcons hheld
    | none =>
      have hstep : step port s (.close o) = updateFileno s o := step_close_of_none hheld
      exact accounts_of_same rfl hheld (by rw [hstep, updateFileno_openFor])
        (by rw [hstep, updateFileno_fdMap])
  | operate o operation =>
    exact accounts_of_same rfl rfl (updateFileno_openFor s o) (updateFileno_fdMap s o)

/-- The table tracks the open descriptors.  From the all-zero table, whatever the interleaving of
the calls, in every state an entry is not zero exactly if its descriptor is open and no port
has two entries; and every call closes an open descriptor only, opens none for a port that is
open already, and leaves the other open descriptors open and in the table. -/
theorem fdMap_tracks_open (hport : ∀ o, port o ≠ 0) (calls : List (Call n Obj))
    (hadmitted : Along (step port) (Admitted port) .start calls) :
    Throughout (step port) (Tracks port) .start calls ∧
      Along (step port) (Accounts port) .start calls := by
  have hstep : ∀ (s : State n Obj) (c : Call n Obj), Consistent s ∧ NoRepeat s →
      Admitted port s c → Consistent (step port s c) ∧ NoRepeat (step port s c) :=
    fun _ c h _ => ⟨consistent_step hport h.1 c, noRepeat_step h.2 c⟩
  have hstart : Consistent (State.start : State n Obj) ∧ NoRepeat (State.start : State n Obj) :=
    ⟨consistent_start, noRepeat_start⟩
  refine ⟨?_, ?_⟩
  · have hkept := throughout_of_along hstep hstart hadmitted
    exact hkept.mono fun _ h => tracks_of_consistent h.1 h.2
  · exact Along.of_invariant hstep (fun _ _ h hc => accounts_of_admitted h.1 hc) hstart hadmitted

/-- Three objects, of which the second closes through a copy of a descriptor that is open for the
third by then. -/
theorem fdMap_tracks_open_stale :
    Throughout (step ![0x0400#16, 0x0400#16, 0x0501#16])
        (Tracks ![0x0400#16, 0x0400#16, 0x0501#16]) (.start : State 4 (Fin 3))
        [.openDevice 0 (some 2) 0, .openDevice 1 none 0, .close 0, .openDevice 2 (some 2) 0,
          .close 1, .openDevice 0 (some 2) 0] ∧
      Along (step ![0x0400#16, 0x0400#16, 0x0501#16])
        (Accounts ![0x0400#16, 0x0400#16, 0x0501#16]) (.start : State 4 (Fin 3))
        [.openDevice 0 (some 2) 0, .openDevice 1 none 0, .close 0, .openDevice 2 (some 2) 0,
          .close 1, .openDevice 0 (some 2) 0] := by
  refine fdMap_tracks_open (by decide) _ ?_
  simp only [along_cons, along_nil, Admitted]
  decide

end HalAPI.Periph
