import HalAPI.Periph.FdMap

/-!
# Whose descriptor an object acts on

An object notices that its descriptor was closed only as long as the table entry is zero.
Once the system grants the descriptor again, the entry is not zero any more, and every
object that still holds a copy takes it for its own.

`acts_on_own_iff` says when this matters: every object acts on descriptors of its own port only,
throughout a run, exactly if the run never opens a descriptor for one port of which an
object of another port still holds a copy.
-/

namespace HalAPI.Periph

open Foundation

variable {n : ℕ} {Obj : Type} [DecidableEq Obj] {port : Obj → BitVec 16} {s : State n Obj}

/-- Every operation acts on a descriptor that is open for the object's port, or on none. -/
def ActsOnOwn (port : Obj → BitVec 16) (s : State n Obj) : Prop :=
  ∀ o operation d, (operate s o operation).1 = some d → s.openFor d = some (port o)

/-- `close` closes no descriptor that is open for another port. -/
def ClosesOwn (port : Obj → BitVec 16) (s : State n Obj) : Prop :=
  ∀ o d p, s.openFor d = some p → (close s o).2.openFor d ≠ some p → p = port o

/-- The entry of a descriptor an object holds is zero or has the object's port. -/
def HoldsOwn (port : Obj → BitVec 16) (s : State n Obj) : Prop :=
  ∀ o d, s.fd o = some d → s.fdMap d ≠ 0 → s.fdMap d = port o

/-- The call opens no descriptor of which an object of another port holds a copy. -/
def OpensUnheld (port : Obj → BitVec 16) (s : State n Obj) : Call n Obj → Prop
  | .openDevice o granted _ =>
    lookupFileno port s o = none → ∀ d ∈ granted, ∀ o', s.fd o' = some d → port o' = port o
  | .close _ => True
  | .operate _ _ => True

/-! ## One state -/

/-- Objects that hold descriptors of their own port act on these and close these only. -/
lemma acts_and_closes_iff (h : Consistent s) :
    ActsOnOwn port s ∧ ClosesOwn port s ↔ HoldsOwn port s := by
  constructor
  · rintro ⟨hacts, -⟩ o d hfd hne
    have hheld : (updateFileno s o).fd o = some d := (updateFileno_fd_iff s o d).mpr ⟨hfd, hne⟩
    have hopen : s.openFor d = some (port o) := hacts o .read d hheld
    rw [h d, if_neg hne] at hopen
    exact Option.some.inj hopen
  · intro hown
    refine ⟨?_, ?_⟩
    · intro o operation d hd
      obtain ⟨hfd, hne⟩ := (updateFileno_fd_iff s o d).mp hd
      rw [h d, if_neg hne, hown o d hfd hne]
    · intro o d p hopen hclosed
      change (step port s (.close o)).openFor d ≠ some p at hclosed
      cases hheld : (updateFileno s o).fd o with
      | none =>
        rw [step_close_of_none hheld, updateFileno_openFor] at hclosed
        exact absurd hopen hclosed
      | some e =>
        rw [step_close_of_held hheld] at hclosed
        rcases eq_or_ne d e with rfl | hd
        · obtain ⟨hfd, hne⟩ := (updateFileno_fd_iff s o d).mp hheld
          rw [h d, if_neg hne, hown o d hfd hne] at hopen
          exact (Option.some.inj hopen).symm
        · exact absurd hopen (by simpa [hd] using hclosed)

/-! ## One step -/

omit [DecidableEq Obj] in
/-- Objects keep to descriptors of their own port if no entry gets a port and no object a
descriptor that is not of its port. -/
lemma HoldsOwn.of_le {s' : State n Obj} (h : HoldsOwn port s)
    (hmap : ∀ d, s'.fdMap d ≠ 0 → s'.fdMap d = s.fdMap d)
    (hfd : ∀ o d, s'.fd o = some d → s.fd o = some d ∨ s.fdMap d = port o) :
    HoldsOwn port s' := by
  intro o d hd hne
  have hsame : s'.fdMap d = s.fdMap d := hmap d hne
  rcases hfd o d hd with hold | hshared
  · rw [hsame] at hne ⊢
    exact h o d hold hne
  · rw [hsame]
    exact hshared

/-- Objects keep to descriptors of their own port when one gives up or shares a descriptor. -/
lemma HoldsOwn.setFileno (h : HoldsOwn port s) {o : Obj} {fd : Option (Fin n)}
    (hfd : ∀ d ∈ fd, s.fdMap d = port o) : HoldsOwn port (setFileno s o fd) := by
  refine h.of_le (fun _ _ => rfl) fun o' d hd => ?_
  rcases eq_or_ne o' o with rfl | ho
  · exact Or.inr (hfd d (by simpa [Periph.setFileno] using hd))
  · exact Or.inl (by simpa [Periph.setFileno, ho] using hd)

/-- Objects keep to descriptors of their own port in `update_fileno`. -/
lemma HoldsOwn.updateFileno (h : HoldsOwn port s) (o : Obj) :
    HoldsOwn port (updateFileno s o) :=
  h.of_le (fun d _ => by rw [updateFileno_fdMap]) fun _ _ hd => Or.inl (fd_of_updateFileno hd)

/-- Objects keep to descriptors of their own port in `close`. -/
lemma HoldsOwn.close (h : HoldsOwn port s) (o : Obj) :
    HoldsOwn port (step port s (.close o)) := by
  cases hheld : (Periph.updateFileno s o).fd o with
  | none =>
    rw [step_close_of_none hheld]
    exact h.updateFileno o
  | some d =>
    rw [step_close_of_held hheld]
    refine h.of_le (fun e he => ?_) fun o' e he => Or.inl ?_
    · by_cases hed : e = d
      · exact absurd he (by simp [hed])
      · exact Function.update_of_ne hed _ _
    · by_cases ho : o' = o
      · exact absurd he (by simp [ho])
      · have hkept : (Periph.updateFileno s o).fd o' = some e := by simpa [ho] using he
        exact fd_of_updateFileno hkept

/-- A newly entered descriptor is held by objects of its port only exactly if no object of another
port holds a copy of it. -/
lemma holdsOwn_open_iff (hport : ∀ o, port o ≠ 0) (h : HoldsOwn port s)
    {o : Obj} (hfound : lookupFileno port s o = none) (d : Fin n) (ret : ℤ) :
    HoldsOwn port (step port s (.openDevice o (some d) ret)) ↔
      ∀ o', s.fd o' = some d → port o' = port o := by
  rw [step_openDevice_of_granted hfound]
  constructor
  · intro h' o' hfd
    by_cases ho : o' = o
    · rw [ho]
    · have hcopy : Function.update s.fd o (some d) o' = some d := by simpa [ho] using hfd
      have hentry : Function.update s.fdMap d (port o) d ≠ 0 := by simpa using hport o
      have hnew : Function.update s.fdMap d (port o) d = port o' := h' o' d hcopy hentry
      simpa using hnew.symm
  · intro hcopies o' e he hne
    rcases eq_or_ne e d with rfl | hd
    · simp only [Function.update_self]
      by_cases ho : o' = o
      · rw [ho]
      · have hcopy : s.fd o' = some e := by simpa [ho] using he
        exact (hcopies o' hcopy).symm
    · simp only [Function.update_of_ne hd] at hne ⊢
      rcases eq_or_ne o' o with rfl | ho
      · have hgranted : d = e := by simpa using he
        exact absurd hgranted (Ne.symm hd)
      · have hcopy : s.fd o' = some e := by simpa [ho] using he
        exact h o' e hcopy hne

/-- A call keeps the objects to descriptors of their own port exactly if it opens none of which
an object of another port holds a copy. -/
lemma holdsOwn_step_iff (hport : ∀ o, port o ≠ 0) (h : HoldsOwn port s) (c : Call n Obj) :
    HoldsOwn port (step port s c) ↔ OpensUnheld port s c := by
  cases c with
  | openDevice o granted ret =>
    cases hfound : lookupFileno port s o with
    | some d =>
      rw [step_openDevice_of_found hfound]
      refine iff_of_true (h.setFileno ?_) (by simp [OpensUnheld, hfound])
      rintro e ⟨⟩
      exact fdMap_of_lookupFileno hfound
    | none =>
      cases granted with
      | some d =>
        rw [holdsOwn_open_iff hport h hfound]
        simp [OpensUnheld, hfound]
      | none =>
        rw [step_openDevice_of_refused hfound]
        exact iff_of_true (h.setFileno (by simp)) (by simp [OpensUnheld])
  | close o => exact iff_of_true (h.close o) trivial
  | operate o operation => exact iff_of_true (h.updateFileno o) trivial

/-! ## Runs -/

/-- When objects act on descriptors of their own port.  From the all-zero table, whatever the
interleaving of the calls and whatever descriptors the system grants, in every state every
operation acts on a descriptor open for its object's port or on none, and `close` closes
no other port's: exactly if no call opens a descriptor of which an object of another port
still holds a copy. -/
theorem acts_on_own_iff (hport : ∀ o, port o ≠ 0) (calls : List (Call n Obj)) :
    Throughout (step port) (fun s => ActsOnOwn port s ∧ ClosesOwn port s) .start calls ↔
      Along (step port) (OpensUnheld port) .start calls := by
  have hkeep : ∀ (s : State n Obj) (c : Call n Obj), Consistent s → True →
      Consistent (step port s c) :=
    fun _ c hcons _ => consistent_step hport hcons c
  have hstep : ∀ (s : State n Obj) (c : Call n Obj), Consistent s →
      ActsOnOwn port s ∧ ClosesOwn port s → True →
        (ActsOnOwn port (step port s c) ∧ ClosesOwn port (step port s c) ↔
          OpensUnheld port s c) := by
    intro s c hcons hown _
    rw [acts_and_closes_iff (consistent_step hport hcons c)]
    exact holdsOwn_step_iff hport ((acts_and_closes_iff hcons).mp hown) c
  have hstart : ActsOnOwn port (.start : State n Obj) ∧ ClosesOwn port (.start : State n Obj) :=
    (acts_and_closes_iff consistent_start).mpr fun o d hd => absurd hd (by simp [State.start])
  have hadmitted : Along (step port) (fun _ _ => True) .start calls :=
    (along_iff_forall_mem (step port) .start calls).mpr fun _ _ => trivial
  exact throughout_iff_along hkeep hstep consistent_start hstart hadmitted

/-! ### Three objects -/

/-- Two objects of one port and one of another. -/
def threePorts : Fin 3 → BitVec 16 := ![0x0400#16, 0x0400#16, 0x0501#16]

/-- The second object notices that the first closed the descriptor they share, because it
operates before the descriptor is opened for the third. -/
theorem acts_on_own_of_notice :
    Throughout (step threePorts) (fun s => ActsOnOwn threePorts s ∧ ClosesOwn threePorts s)
      (.start : State 4 (Fin 3))
      [.openDevice 0 (some 2) 0, .openDevice 1 none 0, .close 0, .operate 1 .read,
        .openDevice 2 (some 2) 0, .operate 1 .write] := by
  refine (acts_on_own_iff (by decide) _).mpr ?_
  simp only [along_cons, along_nil, OpensUnheld]
  decide

/-- If the second object does not operate before, it reads from descriptor 2, which is open for the
third object. -/
theorem acts_on_foreign_of_reuse :
    Along (step threePorts) (Admitted threePorts) (.start : State 4 (Fin 3))
        [.openDevice 0 (some 2) 0, .openDevice 1 none 0, .close 0, .openDevice 2 (some 2) 0,
          .operate 1 .read] ∧
      (∃ s : State 4 (Fin 3), s = run (step threePorts) .start
          [.openDevice 0 (some 2) 0, .openDevice 1 none 0, .close 0, .openDevice 2 (some 2) 0] ∧
        (operate s 1 .read).1 = some 2 ∧ s.openFor 2 = some (threePorts 2) ∧
        threePorts 2 ≠ threePorts 1) ∧
      ¬ Throughout (step threePorts) (fun s => ActsOnOwn threePorts s ∧ ClosesOwn threePorts s)
        (.start : State 4 (Fin 3))
        [.openDevice 0 (some 2) 0, .openDevice 1 none 0, .close 0, .openDevice 2 (some 2) 0] := by
  refine ⟨?_, ⟨_, rfl, by decide, by decide, by decide⟩, fun h => ?_⟩
  · simp only [along_cons, along_nil, Admitted]
    decide
  · have hread := h.at_end.1 1 .read 2 (by decide)
    exact absurd hread (by decide)

end HalAPI.Periph
