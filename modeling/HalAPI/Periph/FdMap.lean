import HalAPI.Foundation.Runs

/-!
# `PeriphObject`

Every peripheral object keeps the descriptor it works with in `m_fd`, and all objects share
the table `m_fd_map`, which holds the port each descriptor was opened for.  An object finds
a descriptor that is open for its port in the table and shares it, and it gives up its own
copy when the table entry is zero.

`Device::open` and `Device::close` are the system's: a descriptor is open for a port or
not at all, and the system may grant one that was closed before.  The number of descriptors
is a parameter, and so are the objects with their ports.
-/

namespace HalAPI.Periph

open Foundation

/-! ## State -/

/-- The shared table, the copy of the descriptor each object holds, and the descriptors that are
open, each with the port it was opened for. -/
structure State (n : ℕ) (Obj : Type) where
  fdMap : Fin n → BitVec 16
  fd : Obj → Option (Fin n)
  openFor : Fin n → Option (BitVec 16)

/-- The table is all zero, and no object holds a descriptor. -/
def State.start {n : ℕ} {Obj : Type} : State n Obj where
  fdMap _ := 0
  fd _ := none
  openFor _ := none

/-- The operations that act on the descriptor of an object. -/
inductive Operation where
  | read
  | write
  | readAio
  | writeAio
  | ioctl
  | seek
  | fileno
  deriving DecidableEq

/-- A call of an object.  If `open` asks the system for a descriptor, it gets `granted`, and
`Device::open` returns `ret`. -/
inductive Call (n : ℕ) (Obj : Type) where
  | openDevice (o : Obj) (granted : Option (Fin n)) (ret : ℤ)
  | close (o : Obj)
  | operate (o : Obj) (operation : Operation)

variable {n : ℕ} {Obj : Type}

/-! ## The code -/

section Code

variable (port : Obj → BitVec 16) (s : State n Obj) (o : Obj)

/-- `PeriphObject::lookup_fileno`: the first entry with the port of the object -/
def lookupFileno : Option (Fin n) :=
  (List.finRange n).find? fun i => s.fdMap i = port o

variable [DecidableEq Obj]

/-- `set_fileno(fd)` -/
def setFileno (fd : Option (Fin n)) : State n Obj :=
  { s with fd := Function.update s.fd o fd }

/-- `PeriphObject::update_fileno` -/
def updateFileno : State n Obj :=
  match s.fd o with
  | some d => if s.fdMap d = 0 then setFileno s o none else s
  | none => s

/-- `Device::open`: the system opens the granted descriptor for the object's port, or there is
none -/
def deviceOpen (granted : Option (Fin n)) : State n Obj :=
  match granted with
  | some d => { setFileno s o (some d) with openFor := Function.update s.openFor d (some (port o)) }
  | none => setFileno s o none

/-- `Device::close` -/
def deviceClose : State n Obj :=
  match s.fd o with
  | some d => { s with openFor := Function.update s.openFor d none }
  | none => s

/-- The end of `PeriphObject::open` after `Device::open`: the descriptor is entered into the
table -/
def enterFileno (ret : ℤ) : ℤ × State n Obj :=
  match s.fd o with
  | some d => (0, { s with fdMap := Function.update s.fdMap d (port o) })
  | none => (ret, s)

/-- `PeriphObject::open` -/
def openDevice (granted : Option (Fin n)) (ret : ℤ) : ℤ × State n Obj :=
  match lookupFileno port s o with
  | none => enterFileno port (deviceOpen port s o granted) o ret
  | some d => (0, setFileno s o (some d))

/-- The end of `PeriphObject::close` after `update_fileno` -/
def closeFileno : State n Obj :=
  match s.fd o with
  | some d => setFileno (deviceClose { s with fdMap := Function.update s.fdMap d 0 } o) o none
  | none => s

/-- `PeriphObject::close` -/
def close : ℤ × State n Obj := (0, closeFileno (updateFileno s o) o)

/-- `PeriphObject::read`, `write`, `ioctl`, `seek` and `fileno`: after `update_fileno` the
operation acts on the descriptor of the object, if it has one -/
def operate (_operation : Operation) : Option (Fin n) × State n Obj :=
  ((updateFileno s o).fd o, updateFileno s o)

/-- The state after a call. -/
def step (s : State n Obj) : Call n Obj → State n Obj
  | .openDevice o granted ret => (openDevice port s o granted ret).2
  | .close o => (close s o).2
  | .operate o operation => (operate s o operation).2

/-- The system grants a descriptor that is not open, whenever it is asked for one. -/
def Admitted (s : State n Obj) : Call n Obj → Prop
  | .openDevice o granted _ =>
    lookupFileno port s o = none → ∀ d ∈ granted, s.openFor d = none
  | .close _ => True
  | .operate _ _ => True

end Code

/-! ## What the functions do -/

section Spec

variable {port : Obj → BitVec 16} {s : State n Obj} {o : Obj}

/-- The entry that is found has the port of the object. -/
lemma fdMap_of_lookupFileno {d : Fin n} (h : lookupFileno port s o = some d) :
    s.fdMap d = port o := by
  simpa using List.find?_some h

/-- If no entry is found, no entry has the port of the object. -/
lemma fdMap_ne_of_lookupFileno (h : lookupFileno port s o = none) (d : Fin n) :
    s.fdMap d ≠ port o := by
  have hnone := List.find?_eq_none.mp h d (List.mem_finRange d)
  simpa using hnone

variable [DecidableEq Obj]

/-- `update_fileno` leaves the table as it is. -/
@[simp] lemma updateFileno_fdMap (s : State n Obj) (o : Obj) :
    (updateFileno s o).fdMap = s.fdMap := by
  unfold updateFileno
  split
  · split <;> rfl
  · rfl

/-- `update_fileno` opens and closes nothing. -/
@[simp] lemma updateFileno_openFor (s : State n Obj) (o : Obj) :
    (updateFileno s o).openFor = s.openFor := by
  unfold updateFileno
  split
  · split <;> rfl
  · rfl

/-- After `update_fileno` an object holds a descriptor exactly if it held it before and the
table entry is not zero. -/
lemma updateFileno_fd_iff (s : State n Obj) (o : Obj) (d : Fin n) :
    (updateFileno s o).fd o = some d ↔ s.fd o = some d ∧ s.fdMap d ≠ 0 := by
  unfold updateFileno
  cases hfd : s.fd o with
  | none => simp [hfd]
  | some e =>
    by_cases hzero : s.fdMap e = 0
    · -- the descriptor was closed, and the object gives up its copy
      simp only [hzero, if_true, setFileno, Function.update_self]
      constructor
      · intro h
        exact absurd h (by simp)
      · rintro ⟨he, hne⟩
        obtain rfl : e = d := by simpa using he
        exact absurd hzero hne
    · simp only [hzero, if_false, hfd, Option.some.injEq]
      constructor
      · rintro rfl
        exact ⟨rfl, hzero⟩
      · exact And.left

/-- `update_fileno` leaves an object the descriptor it holds or none. -/
lemma fd_of_updateFileno {o' : Obj} {d : Fin n} (h : (updateFileno s o).fd o' = some d) :
    s.fd o' = some d := by
  rcases eq_or_ne o' o with rfl | ho
  · exact ((updateFileno_fd_iff s o' d).mp h).1
  · unfold updateFileno at h
    split at h
    · split at h
      · simpa [setFileno, ho] using h
      · exact h
    · exact h

/-! ### The effects of a call -/

/-- `open` shares a descriptor that is open for the port. -/
lemma step_openDevice_of_found {d : Fin n} (h : lookupFileno port s o = some d)
    (granted : Option (Fin n)) (ret : ℤ) :
    step port s (.openDevice o granted ret) = setFileno s o (some d) := by
  simp only [step, openDevice, h]

/-- `open` enters a descriptor that the system grants. -/
lemma step_openDevice_of_granted (h : lookupFileno port s o = none) (d : Fin n) (ret : ℤ) :
    step port s (.openDevice o (some d) ret) =
      { fdMap := Function.update s.fdMap d (port o)
        fd := Function.update s.fd o (some d)
        openFor := Function.update s.openFor d (some (port o)) } := by
  simp only [step, openDevice, h, deviceOpen, enterFileno, setFileno, Function.update_self]

/-- `open` leaves the object without a descriptor if the system grants none. -/
lemma step_openDevice_of_refused (h : lookupFileno port s o = none) (ret : ℤ) :
    step port s (.openDevice o none ret) = setFileno s o none := by
  simp only [step, openDevice, h, deviceOpen, enterFileno, setFileno, Function.update_self]

/-- `close` closes the descriptor that is left after `update_fileno`, and clears its entry. -/
lemma step_close_of_held {d : Fin n} (h : (updateFileno s o).fd o = some d) :
    step port s (.close o) =
      { fdMap := Function.update s.fdMap d 0
        fd := Function.update (updateFileno s o).fd o none
        openFor := Function.update s.openFor d none } := by
  simp only [step, close, closeFileno, h, deviceClose, setFileno, updateFileno_fdMap,
    updateFileno_openFor]

/-- `close` closes nothing if no descriptor is left after `update_fileno`. -/
lemma step_close_of_none (h : (updateFileno s o).fd o = none) :
    step port s (.close o) = updateFileno s o := by
  simp only [step, close, closeFileno, h]

end Spec

/-! ## The table and the open descriptors -/

section Consistent

variable {port : Obj → BitVec 16} {s : State n Obj}

/-- A descriptor is open exactly if its entry is not zero, and it is open for the port in its
entry. -/
def Consistent (s : State n Obj) : Prop :=
  ∀ d, s.openFor d = if s.fdMap d = 0 then none else some (s.fdMap d)

/-- At the start no descriptor is open and every entry is zero. -/
lemma consistent_start : Consistent (State.start : State n Obj) := fun _ => rfl

/-- The entry of a descriptor that is open has the port it is open for. -/
lemma Consistent.entry_of_openFor (h : Consistent s) {d : Fin n} {p : BitVec 16}
    (hopen : s.openFor d = some p) : s.fdMap d ≠ 0 ∧ s.fdMap d = p := by
  rw [h d] at hopen
  by_cases hzero : s.fdMap d = 0
  · rw [if_pos hzero] at hopen
    exact absurd hopen (by simp)
  · rw [if_neg hzero] at hopen
    exact ⟨hzero, Option.some.inj hopen⟩

/-- Entering a port for a descriptor in both tables keeps them consistent. -/
lemma Consistent.update (h : Consistent s) (fd : Obj → Option (Fin n)) (d : Fin n)
    {p : BitVec 16} :
    Consistent { fdMap := Function.update s.fdMap d p
                 fd := fd
                 openFor := Function.update s.openFor d (if p = 0 then none else some p) } := by
  intro e
  rcases eq_or_ne e d with rfl | he
  · simp only [Function.update_self]
  · simp only [Function.update_of_ne he]
    exact h e

variable [DecidableEq Obj]

/-- Every call keeps the table consistent with the open descriptors, for ports that are not
zero. -/
lemma consistent_step (hport : ∀ o, port o ≠ 0) (h : Consistent s) (c : Call n Obj) :
    Consistent (step port s c) := by
  cases c with
  | openDevice o granted ret =>
    cases hfound : lookupFileno port s o with
    | some d =>
      rw [step_openDevice_of_found hfound]
      exact h
    | none =>
      cases granted with
      | some d =>
        rw [step_openDevice_of_granted hfound]
        have hnew := h.update (Function.update s.fd o (some d)) d (p := port o)
        rwa [if_neg (hport o)] at hnew
      | none =>
        rw [step_openDevice_of_refused hfound]
        exact h
  | close o =>
    cases hheld : (updateFileno s o).fd o with
    | some d =>
      rw [step_close_of_held hheld]
      exact h.update (Function.update (updateFileno s o).fd o none) d (p := 0)
    | none =>
      rw [step_close_of_none hheld]
      intro d
      rw [updateFileno_fdMap, updateFileno_openFor]
      exact h d
  | operate o operation =>
    intro d
    rw [step, operate, updateFileno_fdMap, updateFileno_openFor]
    exact h d

end Consistent

end HalAPI.Periph
