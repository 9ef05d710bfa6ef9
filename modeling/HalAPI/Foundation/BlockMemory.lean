import HalAPI.Foundation.Overlay
import HalAPI.Foundation.Runs

/-!
# Memories that are erased in ranges

A memory of this kind changes in two ways: erasing a range makes its cells blank, and programming
a range combines its cells with data, by an operation that need not have an inverse.  Both act on
every cell by itself.

A cell that no change of a run erases has been combined with what the run programmed into it
(`run_apply_of_not_erases`), and where combining is commutative and idempotent, only the set of the
programs matters (`run_apply_congr`).

A memory that was programmed in part is between the memory before and the memory after the whole
data (`PartlyOverlaid`).
-/

namespace Foundation

variable {α β : Type}

section Fold

variable {f : α → β → α} [RightCommutative f]

/-- An element that comes again adds nothing. -/
lemma foldl_absorb (hf : ∀ x d, f (f x d) d = f x d) {ds : List β} {d : β} (hd : d ∈ ds) (x : α) :
    ds.foldl f (f x d) = ds.foldl f x := by
  induction ds generalizing x with
  | nil => simp at hd
  | cons e ds ih =>
    rw [List.foldl_cons, List.foldl_cons]
    rcases List.mem_cons.mp hd with rfl | hd
    · rw [hf]
    · have hswap : f (f x d) e = f (f x e) d := RightCommutative.right_comm x d e
      rw [hswap, ih hd]

/-- Elements that all come again add nothing. -/
lemma foldl_absorb_all (hf : ∀ x d, f (f x d) d = f x d) {ds es : List β}
    (hsub : ∀ d ∈ es, d ∈ ds) (x : α) : ds.foldl f (es.foldl f x) = ds.foldl f x := by
  induction es generalizing x with
  | nil => rfl
  | cons e es ih =>
    obtain ⟨he, hrest⟩ := List.forall_mem_cons.mp hsub
    rw [List.foldl_cons, ih hrest, foldl_absorb hf he]

/-- A commutative and idempotent fold depends only on which elements there are. -/
lemma foldl_congr_of_mem (hf : ∀ x d, f (f x d) d = f x d) {ds es : List β}
    (hmem : ∀ d, d ∈ ds ↔ d ∈ es) (x : α) : ds.foldl f x = es.foldl f x := by
  have hswap : es.foldl f (ds.foldl f x) = ds.foldl f (es.foldl f x) := by
    rw [← List.foldl_append, ← List.foldl_append]
    exact List.perm_append_comm.foldl_eq x
  rw [← foldl_absorb_all hf (fun d hd => (hmem d).mpr hd) x, ← hswap,
    foldl_absorb_all hf fun d hd => (hmem d).mp hd]

end Fold

/-- A change of a memory that is erased in ranges. -/
inductive Change (β : Type) where
  | erase (first size : ℕ)
  | program (addr : ℕ) (data : List β)

namespace Change

/-- The change erases the cell. -/
def Erases : Change β → ℕ → Prop
  | erase first size, a => first ≤ a ∧ a < first + size
  | program _ _, _ => False

/-- What the change programs into the cell. -/
def datum : Change β → ℕ → Option β
  | erase _ _, _ => none
  | program addr data, a => if addr ≤ a then data[a - addr]? else none

/-- The change leaves the cell as it is. -/
def Spares (c : Change β) (a : ℕ) : Prop := ¬ c.Erases a ∧ c.datum a = none

section Apply

variable (blank : α) (f : α → β → α)

/-- The memory after a change. -/
def apply (m : ℕ → α) : Change β → ℕ → α
  | erase first size => fun a => if first ≤ a ∧ a < first + size then blank else m a
  | program addr data => overlay f m addr data

variable {blank f} {m : ℕ → α} {c : Change β} {cs : List (Change β)} {a : ℕ}

/-- An erased cell is blank. -/
lemma apply_of_erases (h : c.Erases a) : apply blank f m c a = blank := by
  cases c with
  | erase first size => exact if_pos h
  | program addr data => exact h.elim

/-- A cell that is not erased is combined with what is programmed into it. -/
lemma apply_of_not_erases (h : ¬ c.Erases a) :
    apply blank f m c a = (c.datum a).elim (m a) (f (m a)) := by
  cases c with
  | erase first size => exact if_neg h
  | program addr data =>
    rw [apply, overlay, datum]
    by_cases haddr : addr ≤ a
    · rw [if_pos haddr, if_pos haddr]
    · rw [if_neg haddr, if_neg haddr]
      rfl

/-! ### Runs of changes -/

/-- A cell that no change erases is combined with what is programmed into it, one after the
other. -/
lemma run_apply_of_not_erases (h : ∀ c ∈ cs, ¬ c.Erases a) :
    run (apply blank f) m cs a = (cs.filterMap (datum · a)).foldl f (m a) := by
  induction cs generalizing m with
  | nil => rfl
  | cons c cs ih =>
    obtain ⟨hc, hrest⟩ := List.forall_mem_cons.mp h
    rw [run_cons, ih hrest, apply_of_not_erases hc]
    cases hdatum : c.datum a with
    | none => simp [hdatum]
    | some d => simp [hdatum]

/-- A cell that every change spares stays as it is. -/
lemma run_apply_of_spares (h : ∀ c ∈ cs, c.Spares a) : run (apply blank f) m cs a = m a := by
  have hnone : cs.filterMap (datum · a) = [] :=
    List.filterMap_eq_nil_iff.mpr fun c hc => (h c hc).2
  rw [run_apply_of_not_erases fun c hc => (h c hc).1, hnone, List.foldl_nil]

/-- Where combining is commutative and idempotent, the memory depends only on which programs a run
makes, not on their order or number. -/
lemma run_apply_congr [RightCommutative f] (hf : ∀ x d, f (f x d) d = f x d)
    {cs' : List (Change β)} (hmem : ∀ c, c ∈ cs ↔ c ∈ cs') (h : ∀ c ∈ cs, ∀ a, ¬ c.Erases a) :
    run (apply blank f) m cs = run (apply blank f) m cs' := by
  funext a
  have h' : ∀ c ∈ cs', ¬ c.Erases a := fun c hc => h c ((hmem c).mpr hc) a
  rw [run_apply_of_not_erases fun c hc => h c hc a, run_apply_of_not_erases h']
  refine foldl_congr_of_mem hf (fun d => ?_) (m a)
  simp only [List.mem_filterMap, hmem]

end Apply

end Change

/-! ## Programs in part -/

/-- Every cell is as it was or combined with its element of the data. -/
def PartlyOverlaid (f : α → β → α) (m : ℕ → α) (addr : ℕ) (data : List β) (m' : ℕ → α) : Prop :=
  ∀ a, m' a = m a ∨ m' a = overlay f m addr data a

namespace PartlyOverlaid

variable {f : α → β → α} {m m₁ m₂ : ℕ → α} {addr : ℕ} {data data' : List β}

/-- All of the data are a part of the data. -/
lemma all : PartlyOverlaid f m addr data (overlay f m addr data) := fun _ => Or.inr rfl

/-- Nothing is a part of the data. -/
lemma none : PartlyOverlaid f m addr data m := fun _ => Or.inl rfl

/-- Parts of two pieces of the data are a part of the data. -/
lemma append (h : PartlyOverlaid f m addr data m₁)
    (h' : PartlyOverlaid f m₁ (addr + data.length) data' m₂) :
    PartlyOverlaid f m addr (data ++ data') m₂ := by
  intro a
  rw [overlay_append]
  rcases lt_or_ge a (addr + data.length) with hfirst | hsecond
  · have hkept : m₂ a = m₁ a := (h' a).elim id fun hover => hover.trans
      (overlay_of_not f _ _ (Or.inl hfirst))
    rw [hkept, overlay_of_not f _ _ (Or.inl hfirst)]
    exact h a
  · have hbefore : overlay f m addr data a = m a := overlay_of_not f _ _ (Or.inr hsecond)
    have hkept : m₁ a = m a := (h a).elim id fun hover => hover.trans hbefore
    have hsame : overlay f m₁ (addr + data.length) data' a =
        overlay f (overlay f m addr data) (addr + data.length) data' a := by
      rw [overlay, overlay, hkept, hbefore]
    rw [← hsame, ← hkept]
    exact h' a

end PartlyOverlaid

end Foundation
