import HalAPI.Foundation.Program

/-!
# Programs with a record on the side

A program often runs on a state with an added part that only records what it does.  The program
projects to the one without the record if forgetting the record after an execution is the same as
forgetting it before: `Projects f p q`, where `f` forgets.

The rules follow the structure of the two programs.  From them a result of the recorded run
is a result of the plain one (`Projects.yields`).
-/

namespace Foundation

variable {S T α β γ : Type}

/-- The outcome with its state seen through `f`. -/
def Outcome.mapState (f : S → T) : Outcome S α → Outcome T α
  | done a s => done a (f s)
  | cut s => cut (f s)

namespace Program

/-- Seen through `f`, every execution of `p` is one of `q`. -/
def Projects (f : S → T) (p : Program S α) (q : Program T α) : Prop :=
  ∀ n s, (p.exec n s).mapState f = q.exec n (f s)

namespace Projects

variable {f : S → T} {p : Program S α} {q : Program T α}

variable (f) in
/-- A returned value projects to itself. -/
lemma pure (a : α) : Projects f (Pure.pure a) (Pure.pure a) := fun _ _ => rfl

/-- An atomic step projects to one that does the same to what is seen. -/
lemma step {g : S → α × S} {h : T → α × T} (hgh : ∀ s, h (f s) = ((g s).1, f (g s).2)) :
    Projects f (Program.step g) (Program.step h) := by
  intro n s
  change Outcome.done (g s).1 (f (g s).2) = Outcome.done (h (f s)).1 (h (f s)).2
  rw [hgh s]

/-- Two programs one after the other. -/
lemma bind (hp : Projects f p q) {k : α → Program S β} {l : α → Program T β}
    (hk : ∀ a, Projects f (k a) (l a)) : Projects f (p >>= k) (q >>= l) := by
  intro n s
  change (bindExec p k n s).mapState f = bindExec q l n (f s)
  have hseen := hp n s
  unfold bindExec
  cases hrun : p.exec n s with
  | done a s' =>
    rw [hrun] at hseen
    rw [← hseen]
    exact hk a n s'
  | cut s' =>
    rw [hrun] at hseen
    rw [← hseen]
    rfl

/-- A choice of two programs. -/
lemma ite {c : Prop} [Decidable c] {p' : Program S α} {q' : Program T α} (hp : Projects f p q)
    (hp' : Projects f p' q') : Projects f (if c then p else p') (if c then q else q') := by
  split
  · exact hp
  · exact hp'

/-- A loop projects to the loop of the projected body. -/
lemma iterate {body : β → Program S (β ⊕ γ)} {body' : β → Program T (β ⊕ γ)}
    (hbody : ∀ b, Projects f (body b) (body' b)) (b : β) :
    Projects f (Program.iterate body b) (Program.iterate body' b) := by
  intro n s
  change (iterateExec body n n b s).mapState f = iterateExec body' n n b (f s)
  suffices h : ∀ k b s, (iterateExec body n k b s).mapState f = iterateExec body' n k b (f s) from
    h n b s
  intro k
  induction k with
  | zero => exact fun _ _ => rfl
  | succ k ih =>
    intro b s
    have hseen := hbody b n s
    simp only [iterateExec]
    rw [← hseen]
    cases (body b).exec n s with
    | done r s' =>
      cases r with
      | inl b' => exact ih b' s'
      | inr c => rfl
    | cut s' => rfl

/-- What the recorded program yields, the plain one yields. -/
lemma yields (h : Projects f p q) {s s' : S} {a : α} (hy : p.Yields s a s') :
    q.Yields (f s) a (f s') := by
  obtain ⟨n, hn⟩ := hy
  refine ⟨n, ?_⟩
  rw [← h n s, hn]
  rfl

end Projects

end Program

end Foundation
