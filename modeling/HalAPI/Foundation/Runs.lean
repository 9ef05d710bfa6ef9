import Mathlib

/-!
# Runs of a step function

A system that takes one labelled step after another is a function
`step : S → L → S`, and a run of it is a list of labels.  This file collects what
can be said about every state a run passes through from what is known about one
step.

`Along step ok s ls` says that every step of the run meets the condition `ok` in the
state it is taken from; `Throughout step I s ls` says that every state of the run, its
first and its last included, satisfies `I`.  `throughout_of_along` is the invariant
rule, and `throughout_iff_along` its exact form, for a condition that is necessary as
well as sufficient for one step to preserve the invariant.

`SetsOrKeeps` is for steps that set parts of the state and leave the others, and
`SetsOrKeeps.run_eq_iff` says when a part of the state at the end of a run depends on the state at
its start.

The last section is about systems shared by several owners.  When every step acts on
the view of its own owner only, `view_run_eq_view_run_own` and
`outputsOf_eq_outputsOf_own` say that what one owner sees of an interleaved run is
what it would see if it ran its own steps alone.
-/

namespace Foundation

variable {S L : Type*}

/-! ## States of a run -/

/-- The state a run ends in. -/
def run (step : S → L → S) (s : S) (ls : List L) : S :=
  ls.foldl step s

/-- Every step of the run meets `ok` in the state it is taken from. -/
def Along (step : S → L → S) (ok : S → L → Prop) : S → List L → Prop
  | _, [] => True
  | s, l :: ls => ok s l ∧ Along step ok (step s l) ls

/-- Every state the run passes through satisfies `I`. -/
def Throughout (step : S → L → S) (I : S → Prop) (s : S) (ls : List L) : Prop :=
  ∀ pre, pre <+: ls → I (run step s pre)

section States

variable {step : S → L → S} {ok ok' : S → L → Prop} {I : S → Prop}

/-- The empty run ends where it starts. -/
@[simp] lemma run_nil (s : S) : run step s [] = s := rfl

/-- A run takes its first step and goes on from there. -/
@[simp] lemma run_cons (s : S) (l : L) (ls : List L) :
    run step s (l :: ls) = run step (step s l) ls := rfl

/-- Every condition holds along the empty run. -/
@[simp] lemma along_nil (s : S) : Along step ok s [] := trivial

/-- A condition holds along a run if it holds of the first step and along the rest. -/
@[simp] lemma along_cons (s : S) (l : L) (ls : List L) :
    Along step ok s (l :: ls) ↔ ok s l ∧ Along step ok (step s l) ls := Iff.rfl

variable (step) in
/-- A condition on the steps alone holds along a run exactly if it holds of every step. -/
lemma along_iff_forall_mem {p : L → Prop} (s : S) (ls : List L) :
    Along step (fun _ l => p l) s ls ↔ ∀ l ∈ ls, p l := by
  induction ls generalizing s with
  | nil => simp
  | cons l ls ih => rw [along_cons, ih, List.forall_mem_cons]

/-- A condition holds along a run exactly if it holds at the end of every proper prefix
of the run, of the step that follows. -/
lemma along_iff_prefixes (s : S) (ls : List L) :
    Along step ok s ls ↔ ∀ pre l, pre ++ [l] <+: ls → ok (run step s pre) l := by
  induction ls generalizing s with
  | nil => simp
  | cons l ls ih =>
    rw [along_cons, ih]
    constructor
    · rintro ⟨hl, hls⟩ pre m hpre
      cases pre with
      | nil =>
        obtain ⟨rfl, -⟩ := List.cons_prefix_cons.mp hpre
        exact hl
      | cons p pre =>
        obtain ⟨rfl, hpre'⟩ := List.cons_prefix_cons.mp hpre
        exact hls pre m hpre'
    · intro h
      refine ⟨h [] l (by simp), fun pre m hpre => ?_⟩
      exact h (l :: pre) m (List.cons_prefix_cons.mpr ⟨rfl, hpre⟩)

/-- A run of one state passes through that state only. -/
@[simp] lemma throughout_nil (s : S) : Throughout step I s [] ↔ I s := by
  simp [Throughout]

/-- A run passes through its first state and the states of the rest. -/
@[simp] lemma throughout_cons (s : S) (l : L) (ls : List L) :
    Throughout step I s (l :: ls) ↔ I s ∧ Throughout step I (step s l) ls := by
  constructor
  · intro h
    refine ⟨h [] (List.nil_prefix), fun pre hpre => ?_⟩
    exact h (l :: pre) (List.cons_prefix_cons.mpr ⟨rfl, hpre⟩)
  · rintro ⟨hs, hls⟩ pre hpre
    cases pre with
    | nil => exact hs
    | cons p pre =>
      obtain ⟨rfl, hpre'⟩ := List.cons_prefix_cons.mp hpre
      exact hls pre hpre'

/-- What holds throughout a run holds at its end. -/
lemma Throughout.at_end {s : S} {ls : List L} (h : Throughout step I s ls) :
    I (run step s ls) :=
  h ls List.prefix_rfl

/-- What follows from an invariant holds throughout a run that keeps it. -/
lemma Throughout.mono {J : S → Prop} {s : S} {ls : List L} (h : Throughout step I s ls)
    (hIJ : ∀ s, I s → J s) : Throughout step J s ls :=
  fun pre hpre => hIJ _ (h pre hpre)

/-- The invariant rule: an invariant that every admitted step preserves holds throughout
every run of admitted steps. -/
theorem throughout_of_along (hstep : ∀ s l, I s → ok s l → I (step s l)) {s : S}
    (hs : I s) {ls : List L} (hls : Along step ok s ls) : Throughout step I s ls := by
  induction ls generalizing s with
  | nil => exact (throughout_nil s).mpr hs
  | cons l ls ih =>
    obtain ⟨hl, hrest⟩ := (along_cons s l ls).mp hls
    exact (throughout_cons s l ls).mpr ⟨hs, ih (hstep s l hs hl) hrest⟩

/-- The invariant rule without a condition: an invariant of every step holds throughout every
run. -/
lemma throughout_of_step (hstep : ∀ s l, I s → I (step s l)) {s : S} (hs : I s) (ls : List L) :
    Throughout step I s ls :=
  throughout_of_along (fun s l h _ => hstep s l h) hs
    ((along_iff_forall_mem step s ls).mpr fun _ _ => trivial)

/-- What an admitted step does in the presence of an invariant, it does in every step of a run
of admitted steps. -/
lemma Along.of_invariant {good : S → L → Prop} (hstep : ∀ s l, I s → ok s l → I (step s l))
    (hgood : ∀ s l, I s → ok s l → good s l) {s : S} (hs : I s) {ls : List L}
    (hls : Along step ok s ls) : Along step good s ls := by
  induction ls generalizing s with
  | nil => trivial
  | cons l ls ih =>
    obtain ⟨hl, hrest⟩ := (along_cons s l ls).mp hls
    exact (along_cons s l ls).mpr ⟨hgood s l hs hl, ih (hstep s l hs hl) hrest⟩

/-- The exact form of the invariant rule, for steps that an environment admits by `ok`:
if in the presence of the invariants `I` and `J` an admitted step always preserves `I`, and
preserves `J` exactly under the condition `good`, then `J` holds throughout a run exactly if
the condition holds along it. -/
theorem throughout_iff_along {J : S → Prop} {good : S → L → Prop}
    (hI : ∀ s l, I s → ok s l → I (step s l))
    (hJ : ∀ s l, I s → J s → ok s l → (J (step s l) ↔ good s l)) {s : S}
    (hIs : I s) (hJs : J s) {ls : List L} (hls : Along step ok s ls) :
    Throughout step J s ls ↔ Along step good s ls := by
  induction ls generalizing s with
  | nil => simpa using hJs
  | cons l ls ih =>
    obtain ⟨hl, hrest⟩ := (along_cons s l ls).mp hls
    have hexact : J (step s l) ↔ good s l := hJ s l hIs hJs hl
    rw [throughout_cons, along_cons]
    constructor
    · rintro ⟨-, htail⟩
      have hJ' : J (step s l) := htail [] List.nil_prefix
      exact ⟨hexact.mp hJ', (ih (hI s l hIs hl) hJ' hrest).mp htail⟩
    · rintro ⟨hgood, htail⟩
      have hJ' : J (step s l) := hexact.mpr hgood
      exact ⟨hJs, (ih (hI s l hIs hl) hJ' hrest).mpr htail⟩

end States

/-! ## Parts of the state -/

section Parts

variable {F : Type*} {V : F → Type*} {step : S → L → S} {part : (f : F) → S → V f}
  {sets : L → F → Prop}

/-- Every step leaves a part of the state as it is, or sets it to a value that does not depend on
the state. -/
structure SetsOrKeeps (step : S → L → S) (part : (f : F) → S → V f) (sets : L → F → Prop) :
    Prop where
  set : ∀ l f, sets l f → ∀ s s', part f (step s l) = part f (step s' l)
  keep : ∀ l f, ¬ sets l f → ∀ s, part f (step s l) = part f s

namespace SetsOrKeeps

/-- A part that is the same in two states is the same after a run from each. -/
lemma run_congr (h : SetsOrKeeps step part sets) {s s' : S} {f : F} (hs : part f s = part f s')
    (ls : List L) : part f (run step s ls) = part f (run step s' ls) := by
  induction ls generalizing s s' with
  | nil => exact hs
  | cons l ls ih =>
    rw [run_cons, run_cons]
    by_cases hset : sets l f
    · exact ih (h.set l f hset s s')
    · exact ih ((h.keep l f hset s).trans (hs.trans (h.keep l f hset s').symm))

/-- A part that no step of a run sets is as it was. -/
lemma run_of_forall_not (h : SetsOrKeeps step part sets) {f : F} {ls : List L}
    (hls : ∀ l ∈ ls, ¬ sets l f) (s : S) : part f (run step s ls) = part f s := by
  induction ls generalizing s with
  | nil => rfl
  | cons l ls ih =>
    obtain ⟨hl, hrest⟩ := List.forall_mem_cons.mp hls
    rw [run_cons, ih hrest, h.keep l f hl]

/-- A part that some step of a run sets does not depend on the state the run starts from. -/
lemma run_of_exists (h : SetsOrKeeps step part sets) {f : F} {ls : List L}
    (hls : ∃ l ∈ ls, sets l f) (s s' : S) :
    part f (run step s ls) = part f (run step s' ls) := by
  induction ls generalizing s s' with
  | nil => simp at hls
  | cons l ls ih =>
    rw [run_cons, run_cons]
    by_cases hset : sets l f
    · exact h.run_congr (h.set l f hset s s') ls
    · refine ih ?_ _ _
      obtain ⟨m, hm, hsets⟩ := hls
      rcases List.mem_cons.mp hm with rfl | hm
      · exact absurd hsets hset
      · exact ⟨m, hm, hsets⟩

/-- A part is the same after a run from two states exactly if a step of the run sets it or it was
the same before. -/
theorem run_eq_iff (h : SetsOrKeeps step part sets) (f : F) (ls : List L) (s s' : S) :
    part f (run step s ls) = part f (run step s' ls) ↔
      (∃ l ∈ ls, sets l f) ∨ part f s = part f s' := by
  by_cases hls : ∃ l ∈ ls, sets l f
  · exact iff_of_true (h.run_of_exists hls s s') (Or.inl hls)
  · have hnot : ∀ l ∈ ls, ¬ sets l f := fun l hl hset => hls ⟨l, hl, hset⟩
    rw [h.run_of_forall_not hnot, h.run_of_forall_not hnot]
    exact (or_iff_right hls).symm

end SetsOrKeeps

end Parts

/-! ## Interleaved owners -/

section Owners

variable {ι K V : Type*} [DecidableEq ι]

/-- The values a run returns to the owner `i`, in order. -/
def outputsOf (step : S → L → V × S) (owner : L → ι) (i : ι) : S → List L → List V
  | _, [] => []
  | s, l :: ls =>
    if owner l = i then (step s l).1 :: outputsOf step owner i (step s l).2 ls
    else outputsOf step owner i (step s l).2 ls

/-- A step is local to its owner: it changes no other owner's view, and what it does to
its own owner's view and returns depends on that view only. -/
structure OwnerLocal (step : S → L → V × S) (owner : L → ι) (view : ι → S → K) (i : ι) :
    Prop where
  frame : ∀ s l, owner l ≠ i → view i (step s l).2 = view i s
  view_congr : ∀ s s' l, owner l = i → view i s = view i s' →
    view i (step s l).2 = view i (step s' l).2
  output_congr : ∀ s s' l, owner l = i → view i s = view i s' → (step s l).1 = (step s' l).1

variable {step : S → L → V × S} {owner : L → ι} {view : ι → S → K} {i : ι}

/-- From states that look the same to an owner, an interleaved run and the run of the owner's
steps alone end in states that look the same to it. -/
lemma OwnerLocal.view_run (h : OwnerLocal step owner view i) {s s' : S} (ls : List L)
    (hs : view i s = view i s') :
    view i (run (fun s l => (step s l).2) s ls) =
      view i (run (fun s l => (step s l).2) s' (ls.filter (owner · = i))) := by
  induction ls generalizing s s' with
  | nil => exact hs
  | cons l ls ih =>
    by_cases hl : owner l = i
    · rw [List.filter_cons_of_pos (by simpa using hl), run_cons, run_cons]
      exact ih (h.view_congr s s' l hl hs)
    · rw [List.filter_cons_of_neg (by simpa using hl), run_cons]
      exact ih ((h.frame s l hl).trans hs)

/-- From states that look the same to an owner, an interleaved run returns to it what the run
of its steps alone returns. -/
lemma OwnerLocal.outputsOf_eq (h : OwnerLocal step owner view i) {s s' : S} (ls : List L)
    (hs : view i s = view i s') :
    outputsOf step owner i s ls = outputsOf step owner i s' (ls.filter (owner · = i)) := by
  induction ls generalizing s s' with
  | nil => rfl
  | cons l ls ih =>
    by_cases hl : owner l = i
    · rw [List.filter_cons_of_pos (by simpa using hl)]
      simp only [outputsOf, hl, if_true]
      rw [h.output_congr s s' l hl hs, ih (h.view_congr s s' l hl hs)]
    · rw [List.filter_cons_of_neg (by simpa using hl)]
      simp only [outputsOf, hl, if_false]
      exact ih ((h.frame s l hl).trans hs)

/-- What an owner sees of the final state of an interleaved run is what it sees after running
its own steps alone. -/
theorem view_run_eq_view_run_own (h : OwnerLocal step owner view i) (s : S) (ls : List L) :
    view i (run (fun s l => (step s l).2) s ls) =
      view i (run (fun s l => (step s l).2) s (ls.filter (owner · = i))) :=
  h.view_run ls rfl

/-- An interleaved run returns to an owner what the run of its own steps alone returns. -/
theorem outputsOf_eq_outputsOf_own (h : OwnerLocal step owner view i) (s : S) (ls : List L) :
    outputsOf step owner i s ls = outputsOf step owner i s (ls.filter (owner · = i)) :=
  h.outputsOf_eq ls rfl

end Owners

end Foundation
