import HalAPI.Foundation.Refinement

/-!
# The last assignment

For steps that assign parts of the state, each to a value of its own, and leave the other parts as
they are.  After a run a part holds what was assigned to it last, or what it held before the run
if nothing was (`Assigns.part_run`).  The same holds of a system that answers its requests, where
what a request assigns may depend on the answer to it (`Answers.part_eq`).
-/

namespace Foundation

variable {S L F : Type*} {V : F → Type*} {step : S → L → S} {part : (f : F) → S → V f}
  {assigned : L → (f : F) → Option (V f)}

/-- A step puts into every part what it assigns to it, and keeps the parts it assigns nothing to. -/
def Assigns (step : S → L → S) (part : (f : F) → S → V f)
    (assigned : L → (f : F) → Option (V f)) : Prop :=
  ∀ l f s, part f (step s l) = (assigned l f).getD (part f s)

/-- What the steps assign to a part last. -/
def lastAssigned (assigned : L → (f : F) → Option (V f)) (f : F) (ls : List L) : Option (V f) :=
  (ls.filterMap (assigned · f)).getLast?

section LastAssigned

variable {f : F} {ls : List L}

/-- No step assigns nothing. -/
@[simp] lemma lastAssigned_nil : lastAssigned assigned f [] = none := rfl

/-- The assignments of the later steps count first. -/
lemma lastAssigned_append (before after : List L) :
    lastAssigned assigned f (before ++ after) =
      (lastAssigned assigned f after).or (lastAssigned assigned f before) := by
  simp only [lastAssigned, List.filterMap_append, List.getLast?_append]

/-- A single step assigns what it assigns. -/
@[simp] lemma lastAssigned_singleton (l : L) : lastAssigned assigned f [l] = assigned l f := by
  cases h : assigned l f with
  | none => simp [lastAssigned, h]
  | some v => simp [lastAssigned, h]

/-- The first step counts last. -/
lemma lastAssigned_cons (l : L) :
    lastAssigned assigned f (l :: ls) = (lastAssigned assigned f ls).or (assigned l f) := by
  rw [← List.singleton_append, lastAssigned_append, lastAssigned_singleton]

/-- Nothing is assigned last exactly if no step assigns anything. -/
lemma lastAssigned_eq_none_iff :
    lastAssigned assigned f ls = none ↔ ∀ l ∈ ls, assigned l f = none := by
  rw [lastAssigned, List.getLast?_eq_none_iff, List.filterMap_eq_nil_iff]

/-- What is assigned last is assigned by some step. -/
lemma exists_of_lastAssigned {v : V f} (h : lastAssigned assigned f ls = some v) :
    ∃ l ∈ ls, assigned l f = some v :=
  List.mem_filterMap.mp (List.mem_of_getLast? h)

/-- Steps that assign nothing may be left out. -/
lemma lastAssigned_filter {p : L → Bool} (h : ∀ l ∈ ls, p l = false → assigned l f = none) :
    lastAssigned assigned f (ls.filter p) = lastAssigned assigned f ls := by
  rw [lastAssigned, lastAssigned, List.filterMap_filter]
  refine congrArg List.getLast? (List.filterMap_congr fun l hl => ?_)
  cases hp : p l with
  | true => rfl
  | false => exact (h l hl hp).symm

/-- After a run a part holds what was assigned to it last, or what it held before. -/
lemma Assigns.part_run (h : Assigns step part assigned) (f : F) (s : S) (ls : List L) :
    part f (run step s ls) = (lastAssigned assigned f ls).getD (part f s) := by
  induction ls generalizing s with
  | nil => rfl
  | cons l ls ih =>
    rw [run_cons, ih, h l f s, lastAssigned_cons]
    cases lastAssigned assigned f ls with
    | none => rfl
    | some v => rfl

end LastAssigned

section Answered

variable {A L O F : Type} {V : F → Type} {R : A → L → O → A → Prop} {m m' : A} {ls : List L}
  {os : List O}

/-- After requests with their answers a part holds what was assigned to it last, or what it held
before. -/
lemma Answers.part_eq (part : (f : F) → A → V f) {assigned : L × O → (f : F) → Option (V f)}
    (hassigns : ∀ m l o m', R m l o m' → ∀ f, part f m' = (assigned (l, o) f).getD (part f m))
    (h : Answers R m ls os m') (f : F) :
    part f m' = (lastAssigned assigned f (ls.zip os)).getD (part f m) := by
  induction ls generalizing m os with
  | nil =>
    cases os with
    | nil =>
      obtain rfl : m' = m := h
      rfl
    | cons o os => exact h.elim
  | cons l ls ih =>
    cases os with
    | nil => exact h.elim
    | cons o os =>
      obtain ⟨m₁, hR, hrest⟩ := h
      rw [ih hrest, hassigns m l o m₁ hR f, List.zip_cons_cons, lastAssigned_cons]
      cases lastAssigned assigned f (ls.zip os) with
      | none => rfl
      | some v => rfl

end Answered

end Foundation
