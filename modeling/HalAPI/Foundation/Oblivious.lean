import HalAPI.Foundation.Program

/-!
# Programs with a hidden input

A family of programs `p : ω → Program S α` is a program with an input that nobody is to see.  It is
oblivious in a state if two runs from there that differ in the hidden input only are the same:
with any amount of fuel both end, with the same value in the same state, or both are cut in
the same state.  As the fuel bounds the rounds of every loop, the runs also go round their loops
equally often.

A program that reads its hidden input in one place only is taken apart by `oblivious_bind_iff` up
to that place, and the rest is a question about values.
-/

namespace Foundation.Program

variable {ω S α β : Type}

/-- With any amount of fuel the program ends with the value `a` in the state `s'`. -/
def EndsAtOnce (p : Program S α) (s : S) (a : α) (s' : S) : Prop := ∀ n, p.exec n s = .done a s'

namespace EndsAtOnce

/-- A program that ends at once yields its value. -/
lemma yields {p : Program S α} {s s' : S} {a : α} (h : p.EndsAtOnce s a s') : p.Yields s a s' :=
  ⟨0, h 0⟩

/-- A returned value is there at once. -/
lemma pure (a : α) (s : S) : EndsAtOnce (Pure.pure a) s a s := fun _ => rfl

/-- What follows a program that ends at once is executed from where it ended. -/
lemma exec_bind {p : Program S α} {s s' : S} {a : α} (h : p.EndsAtOnce s a s')
    (k : α → Program S β) (n : ℕ) : (p >>= k).exec n s = (k a).exec n s' := by
  change bindExec p k n s = _
  rw [bindExec, h n]

/-- Two programs one after the other. -/
lemma bind {p : Program S α} {k : α → Program S β} {s s' s'' : S} {a : α} {b : β}
    (hp : p.EndsAtOnce s a s') (hk : (k a).EndsAtOnce s' b s'') : (p >>= k).EndsAtOnce s b s'' := by
  intro n
  rw [hp.exec_bind]
  exact hk n

end EndsAtOnce

/-- Two runs of the program that differ in the hidden input only are the same. -/
def Oblivious (p : ω → Program S α) (s : S) : Prop :=
  ∀ u v n, (p u).exec n s = (p v).exec n s

/-- A program without a hidden input is oblivious. -/
lemma Oblivious.const (p : Program S α) (s : S) : Oblivious (fun _ : ω => p) s :=
  fun _ _ _ => rfl

/-- A program that ends at once is oblivious exactly if its value and its last state are always the
same. -/
lemma oblivious_iff_of_endsAtOnce {p : ω → Program S α} {s : S} {a : ω → α} {s' : ω → S}
    (hp : ∀ u, (p u).EndsAtOnce s (a u) (s' u)) :
    Oblivious p s ↔ ∀ u v, a u = a v ∧ s' u = s' v := by
  constructor
  · intro h u v
    have hrun := h u v 0
    rw [hp u 0, hp v 0] at hrun
    simpa using hrun
  · intro h u v n
    obtain ⟨ha, hs⟩ := h u v
    rw [hp u n, hp v n, ha, hs]

/-- A program that starts with one that ends at once, in a state that is always the same, is
oblivious exactly if the rest is. -/
lemma oblivious_bind_iff {p : ω → Program S α} {k : ω → α → Program S β} {s s' : S} {a : ω → α}
    (hp : ∀ u, (p u).EndsAtOnce s (a u) s') :
    Oblivious (fun u => p u >>= k u) s ↔ Oblivious (fun u => k u (a u)) s' := by
  unfold Oblivious
  simp only [(hp _).exec_bind]

/-! ## The first round of a loop -/

section Rounds

variable {γ : Type} {body : β → Program S (β ⊕ γ)} {b : β} {s : S}

/-- A loop whose first round is the last has ended after it. -/
lemma exec_iterate_one_of_inr {c : γ} {s' : S} (h : (body b).EndsAtOnce s (.inr c) s') :
    (iterate body b).exec 1 s = .done c s' := by
  change iterateExec body 1 1 b s = _
  simp only [iterateExec, h 1]

/-- A loop that goes on after its first round has not ended after it. -/
lemma exec_iterate_one_ne_done
    (h : Triple (fun _ => True) (body b) (fun r _ => r.isLeft = true) fun _ => True) (c : γ)
    (s' : S) : (iterate body b).exec 1 s ≠ .done c s' := by
  intro hend
  change iterateExec body 1 1 b s = _ at hend
  have hsat := h 1 s trivial
  cases hb : (body b).exec 1 s with
  | done r s₁ =>
    rw [hb] at hsat
    cases r with
    | inl b' => simp [iterateExec, hb] at hend
    | inr c' => exact absurd hsat (by simp)
  | cut s₁ => simp [iterateExec, hb] at hend

end Rounds

end Foundation.Program
