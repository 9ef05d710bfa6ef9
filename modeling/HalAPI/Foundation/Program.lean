import Mathlib

/-!
# Programs that may run forever

A `Program S α` works on a state of type `S` and returns a value of type `α`.  Its loops are
bounded by a fuel argument: `exec n s` either ends (`Outcome.done`), or is still running when
some loop has used up `n` iterations (`Outcome.cut`), and then says what state it was cut
in.  More fuel never changes the result of an execution that ended, and every program carries
that fact as its field `stable`.

Programs with the same executions are equal, so a program can be brought into another form by
equations (`pure_bind`, `bind_assoc`) before it is reasoned about.

There are two ways to reason about a program.  `p.Yields s a s'` says that with enough fuel
the program ends with the value `a` in the state `s'`; it is functional (`Yields.unique`), and
the lemmas `yields_bind`, `yields_step`, `yields_whileDo` follow the structure of the program,
and so do the rules of `Total P p Q`, that from `P` the program ends with `Q`.
`Triple P p Q R` says that however much fuel there is, an execution from a state satisfying
`P` ends with `Q` or is cut with `R`, so with `R` an execution that never ends can be
spoken about as well.
-/

namespace Foundation

/-- How an execution with bounded fuel ends. -/
inductive Outcome (S α : Type) where
  | done (value : α) (state : S)
  | cut (state : S)
  deriving DecidableEq

namespace Outcome

variable {S α : Type}

/-- The outcome satisfies `Q` if it is an end and `R` if it is a cut. -/
def Sat (Q : α → S → Prop) (R : S → Prop) : Outcome S α → Prop
  | done a s => Q a s
  | cut s => R s

/-- An ended execution is judged by the postcondition. -/
@[simp] lemma sat_done (Q : α → S → Prop) (R : S → Prop) (a : α) (s : S) :
    (done a s).Sat Q R ↔ Q a s := Iff.rfl

/-- A cut execution is judged by the cut condition. -/
@[simp] lemma sat_cut (Q : α → S → Prop) (R : S → Prop) (s : S) :
    (cut s : Outcome S α).Sat Q R ↔ R s := Iff.rfl

end Outcome

/-- A program on states `S` with results `α`, given by its executions with bounded fuel. -/
structure Program (S α : Type) where
  exec : ℕ → S → Outcome S α
  stable : ∀ {n m : ℕ} {s : S} {a : α} {s' : S}, n ≤ m → exec n s = .done a s' →
    exec m s = .done a s'

namespace Program

variable {S α β γ : Type}

/-! ## Constructions -/

/-- The program that returns a value. -/
def ret (a : α) : Program S α where
  exec _ s := .done a s
  stable _ h := h

/-- An atomic step. -/
def step (f : S → α × S) : Program S α where
  exec _ s := .done (f s).1 (f s).2
  stable _ h := h

/-- The executions of `p` followed by `k`. -/
def bindExec (p : Program S α) (k : α → Program S β) (n : ℕ) (s : S) : Outcome S β :=
  match p.exec n s with
  | .done a s' => (k a).exec n s'
  | .cut s' => .cut s'

/-- Two programs one after the other. -/
def seq (p : Program S α) (k : α → Program S β) : Program S β where
  exec := bindExec p k
  stable := by
    intro n m s b s'' hnm h
    unfold bindExec at h ⊢
    cases hp : p.exec n s with
    | done a s' =>
      rw [hp] at h
      rw [p.stable hnm hp]
      exact (k a).stable hnm h
    | cut s' =>
      rw [hp] at h
      exact absurd h (by simp)

instance : Monad (Program S) where
  pure := ret
  bind := seq

/-- Programs with the same executions are equal. -/
lemma eq_of_exec_eq {p q : Program S α} (h : ∀ n s, p.exec n s = q.exec n s) : p = q := by
  cases p
  cases q
  congr
  funext n s
  exact h n s

/-- Executing one program after another is executing the second where the first ends. -/
lemma exec_bind_of_done {p : Program S α} {n : ℕ} {s s' : S} {a : α}
    (h : p.exec n s = .done a s') (k : α → Program S β) :
    (p >>= k).exec n s = (k a).exec n s' := by
  change bindExec p k n s = _
  rw [bindExec, h]

/-- What is cut is cut with whatever would follow. -/
lemma exec_bind_of_cut {p : Program S α} {n : ℕ} {s s' : S} (h : p.exec n s = .cut s')
    (k : α → Program S β) : (p >>= k).exec n s = .cut s' := by
  change bindExec p k n s = _
  rw [bindExec, h]

/-- Nothing is done to return a value. -/
lemma pure_bind (a : α) (k : α → Program S β) : pure a >>= k = k a := rfl

/-- Of three programs one after the other, the last two may be taken together. -/
lemma bind_assoc (p : Program S α) (k : α → Program S β) (l : β → Program S γ) :
    p >>= k >>= l = p >>= fun a => k a >>= l := by
  refine eq_of_exec_eq fun n s => ?_
  cases hp : p.exec n s with
  | done a s' =>
    rw [exec_bind_of_done hp]
    cases hk : (k a).exec n s' with
    | done b s'' =>
      have hpk : (p >>= k).exec n s = .done b s'' := (exec_bind_of_done hp k).trans hk
      rw [exec_bind_of_done hpk, exec_bind_of_done hk]
    | cut s'' =>
      have hpk : (p >>= k).exec n s = .cut s'' := (exec_bind_of_done hp k).trans hk
      rw [exec_bind_of_cut hpk, exec_bind_of_cut hk]
  | cut s' => rw [exec_bind_of_cut hp, exec_bind_of_cut (exec_bind_of_cut hp k)]

/-- At most `k` iterations of a loop body, each of them with fuel `n`.  The body returns the
loop variable to go on with, or the result of the loop. -/
def iterateExec (body : β → Program S (β ⊕ γ)) (n : ℕ) : ℕ → β → S → Outcome S γ
  | 0, _, s => .cut s
  | k + 1, b, s =>
    match (body b).exec n s with
    | .done (.inl b') s' => iterateExec body n k b' s'
    | .done (.inr c) s' => .done c s'
    | .cut s' => .cut s'

/-- More iterations and more fuel do not change the result of a loop that ended. -/
lemma iterateExec_stable (body : β → Program S (β ⊕ γ)) {n m : ℕ} (hnm : n ≤ m) {k l : ℕ}
    (hkl : k ≤ l) {b : β} {s : S} {c : γ} {s' : S} (h : iterateExec body n k b s = .done c s') :
    iterateExec body m l b s = .done c s' := by
  induction k generalizing l b s with
  | zero => exact absurd h (by simp [iterateExec])
  | succ k ih =>
    obtain ⟨l, rfl⟩ : ∃ l', l = l' + 1 := ⟨l - 1, by omega⟩
    cases hb : (body b).exec n s with
    | done r s₁ =>
      have hb' : (body b).exec m s = .done r s₁ := (body b).stable hnm hb
      simp only [iterateExec, hb] at h
      simp only [iterateExec, hb']
      cases r with
      | inl b' => exact ih (Nat.le_of_succ_le_succ hkl) h
      | inr c' => exact h
    | cut s₁ =>
      simp only [iterateExec, hb] at h
      exact absurd h (by simp)

/-- A loop: repeat the body until it returns a result. -/
def iterate (body : β → Program S (β ⊕ γ)) (b : β) : Program S γ where
  exec n s := iterateExec body n n b s
  stable hnm h := iterateExec_stable body hnm hnm h

/-- The loop `while (test) body`. -/
def whileDo (test : Program S Bool) (body : Program S Unit) : Program S Unit :=
  iterate (fun _ : Unit => test >>= fun b =>
    if b then body >>= fun _ => pure (.inl ()) else pure (.inr ())) ()

/-! ## The result of a program -/

/-- With enough fuel, the program ends with the value `a` in the state `s'`. -/
def Yields (p : Program S α) (s : S) (a : α) (s' : S) : Prop :=
  ∃ n, p.exec n s = .done a s'

/-- With enough fuel every execution of a program that ends shows its result. -/
lemma Yields.eventually {p : Program S α} {s s' : S} {a : α} (h : p.Yields s a s') :
    ∃ N, ∀ n, N ≤ n → p.exec n s = .done a s' := by
  obtain ⟨N, hN⟩ := h
  exact ⟨N, fun n hn => p.stable hn hN⟩

/-- A program has at most one result. -/
lemma Yields.unique {p : Program S α} {s s₁ s₂ : S} {a₁ a₂ : α} (h₁ : p.Yields s a₁ s₁)
    (h₂ : p.Yields s a₂ s₂) : a₁ = a₂ ∧ s₁ = s₂ := by
  obtain ⟨N₁, hN₁⟩ := h₁.eventually
  obtain ⟨N₂, hN₂⟩ := h₂.eventually
  have h : Outcome.done a₁ s₁ = Outcome.done a₂ s₂ := by
    rw [← hN₁ (max N₁ N₂) (le_max_left _ _), ← hN₂ (max N₁ N₂) (le_max_right _ _)]
  simpa using h

/-- A returned value is the result. -/
@[simp] lemma yields_pure (a b : α) (s s' : S) :
    (pure a : Program S α).Yields s b s' ↔ b = a ∧ s' = s := by
  constructor
  · rintro ⟨n, h⟩
    obtain ⟨rfl, rfl⟩ : a = b ∧ s = s' := by simpa [pure, ret] using h
    exact ⟨rfl, rfl⟩
  · rintro ⟨rfl, rfl⟩
    exact ⟨0, rfl⟩

/-- The result of an atomic step is what it computes. -/
@[simp] lemma yields_step (f : S → α × S) (a : α) (s s' : S) :
    (step f).Yields s a s' ↔ a = (f s).1 ∧ s' = (f s).2 := by
  constructor
  · rintro ⟨n, h⟩
    obtain ⟨rfl, rfl⟩ : (f s).1 = a ∧ (f s).2 = s' := by simpa [step] using h
    exact ⟨rfl, rfl⟩
  · rintro ⟨rfl, rfl⟩
    exact ⟨0, rfl⟩

/-- Two programs one after the other yield what the second yields from where the first
ends. -/
@[simp] lemma yields_bind (p : Program S α) (k : α → Program S β) (s s'' : S) (b : β) :
    (p >>= k).Yields s b s'' ↔ ∃ a s', p.Yields s a s' ∧ (k a).Yields s' b s'' := by
  constructor
  · rintro ⟨n, h⟩
    change bindExec p k n s = _ at h
    unfold bindExec at h
    cases hp : p.exec n s with
    | done a s' =>
      rw [hp] at h
      exact ⟨a, s', ⟨n, hp⟩, ⟨n, h⟩⟩
    | cut s' =>
      rw [hp] at h
      exact absurd h (by simp)
  · rintro ⟨a, s', hp, hk⟩
    obtain ⟨N₁, hN₁⟩ := hp.eventually
    obtain ⟨N₂, hN₂⟩ := hk.eventually
    refine ⟨max N₁ N₂, ?_⟩
    change bindExec p k (max N₁ N₂) s = _
    rw [bindExec, hN₁ _ (le_max_left _ _)]
    exact hN₂ _ (le_max_right _ _)

/-- The rule for a returned value. -/
lemma Yields.pure (a : α) (s : S) : (Pure.pure a : Program S α).Yields s a s :=
  (yields_pure a a s s).mpr ⟨rfl, rfl⟩

/-- The rule for two programs one after the other. -/
lemma Yields.bind {p : Program S α} {k : α → Program S β} {s s' s'' : S} {a : α} {b : β}
    (hp : p.Yields s a s') (hk : (k a).Yields s' b s'') : (p >>= k).Yields s b s'' :=
  (yields_bind p k s s'' b).mpr ⟨a, s', hp, hk⟩

/-- A loop yields the result its body returns, or what the loop yields from the loop variable
its body returns. -/
lemma yields_iterate (body : β → Program S (β ⊕ γ)) (b : β) (s s'' : S) (c : γ) :
    (iterate body b).Yields s c s'' ↔
      (body b).Yields s (.inr c) s'' ∨
        ∃ b' s', (body b).Yields s (.inl b') s' ∧ (iterate body b').Yields s' c s'' := by
  constructor
  · rintro ⟨n, h⟩
    change iterateExec body n n b s = _ at h
    cases n with
    | zero => exact absurd h (by simp [iterateExec])
    | succ k =>
      cases hb : (body b).exec (k + 1) s with
      | done r s₁ =>
        simp only [iterateExec, hb] at h
        cases r with
        | inl b' =>
          refine Or.inr ⟨b', s₁, ⟨k + 1, hb⟩, k + 1, ?_⟩
          exact iterateExec_stable body le_rfl (Nat.le_succ k) h
        | inr c' =>
          obtain ⟨rfl, rfl⟩ : c' = c ∧ s₁ = s'' := by simpa using h
          exact Or.inl ⟨k + 1, hb⟩
      | cut s₁ =>
        simp only [iterateExec, hb] at h
        exact absurd h (by simp)
  · rintro (h | ⟨b', s', hb, hrest⟩)
    · obtain ⟨N, hN⟩ := h.eventually
      refine ⟨N + 1, ?_⟩
      change iterateExec body (N + 1) (N + 1) b s = _
      simp only [iterateExec, hN (N + 1) (Nat.le_succ N)]
    · obtain ⟨N₁, hN₁⟩ := hb.eventually
      obtain ⟨N₂, hN₂⟩ := hrest
      refine ⟨max N₁ N₂ + 1, ?_⟩
      change iterateExec body (max N₁ N₂ + 1) (max N₁ N₂ + 1) b s = _
      simp only [iterateExec, hN₁ (max N₁ N₂ + 1) (by omega)]
      exact iterateExec_stable body (by omega) (by omega) hN₂

/-- The rule for the last round of a loop. -/
lemma Yields.iterate_last {body : β → Program S (β ⊕ γ)} {b : β} {s s' : S} {c : γ}
    (h : (body b).Yields s (.inr c) s') : (iterate body b).Yields s c s' :=
  (yields_iterate body b s s' c).mpr (Or.inl h)

/-- The rule for a round of a loop that goes on. -/
lemma Yields.iterate_next {body : β → Program S (β ⊕ γ)} {b b' : β} {s s' s'' : S} {c : γ}
    (hbody : (body b).Yields s (.inl b') s') (hrest : (iterate body b').Yields s' c s'') :
    (iterate body b).Yields s c s'' :=
  (yields_iterate body b s s'' c).mpr (Or.inr ⟨b', s', hbody, hrest⟩)

/-- A `while` loop ends when its test fails, and otherwise goes on after its body. -/
lemma yields_whileDo (test : Program S Bool) (body : Program S Unit) (s s'' : S) :
    (whileDo test body).Yields s () s'' ↔
      test.Yields s false s'' ∨
        ∃ s₁ s₂, test.Yields s true s₁ ∧ body.Yields s₁ () s₂ ∧
          (whileDo test body).Yields s₂ () s'' := by
  unfold whileDo
  rw [yields_iterate]
  simp only [yields_bind]
  constructor
  · rintro (⟨b, s₁, ht, hb⟩ | ⟨⟨⟩, s₂, ⟨b, s₁, ht, hb⟩, hrest⟩)
    · cases b with
      | true => simp at hb
      | false =>
        obtain rfl : s'' = s₁ := by simpa using hb
        exact Or.inl ht
    · cases b with
      | true =>
        obtain ⟨⟨⟩, hbody⟩ : ∃ u, body.Yields s₁ u s₂ := by simpa using hb
        exact Or.inr ⟨s₁, s₂, ht, hbody, hrest⟩
      | false => simp at hb
  · rintro (ht | ⟨s₁, s₂, ht, hb, hrest⟩)
    · exact Or.inl ⟨false, s'', ht, by simp⟩
    · exact Or.inr ⟨(), s₂, ⟨true, s₁, ht, by simpa using ⟨(), hb⟩⟩, hrest⟩

/-- The rule for the end of a `while` loop. -/
lemma Yields.whileDo_last {test : Program S Bool} {s s' : S} (htest : test.Yields s false s')
    (body : Program S Unit) : (whileDo test body).Yields s () s' :=
  (yields_whileDo test body s s').mpr (Or.inl htest)

/-- The rule for a round of a `while` loop. -/
lemma Yields.whileDo_next {test : Program S Bool} {body : Program S Unit} {s s₁ s₂ s' : S}
    (htest : test.Yields s true s₁) (hbody : body.Yields s₁ () s₂)
    (hrest : (whileDo test body).Yields s₂ () s') : (whileDo test body).Yields s () s' :=
  (yields_whileDo test body s s').mpr (Or.inr ⟨s₁, s₂, htest, hbody, hrest⟩)

/-- The termination rule for loops: if from every state of the invariant the body ends and
either returns a result as required or goes on within the invariant with a smaller measure,
then the loop ends with a result as required. -/
theorem yields_iterate_of_measure {body : β → Program S (β ⊕ γ)} {I : β → S → Prop}
    {Q : γ → S → Prop} (μ : β → S → ℕ)
    (hbody : ∀ b s, I b s → ∃ r s', (body b).Yields s r s' ∧
      Sum.elim (fun b' => I b' s' ∧ μ b' s' < μ b s) (Q · s') r)
    {b : β} {s : S} (hI : I b s) :
    ∃ c s', (iterate body b).Yields s c s' ∧ Q c s' := by
  induction hm : μ b s using Nat.strongRecOn generalizing b s with
  | ind m ih =>
    obtain ⟨r, s₁, hr, hres⟩ := hbody b s hI
    cases r with
    | inl b' =>
      obtain ⟨c, s', hc, hQ⟩ := ih (μ b' s₁) (hm ▸ hres.2) hres.1 rfl
      exact ⟨c, s', hr.iterate_next hc, hQ⟩
    | inr c => exact ⟨c, s₁, hr.iterate_last, hres⟩

/-- The rule for loops with a known number of rounds: if the body leads along a chain of loop
variables and states and then returns a result, the loop ends with that result. -/
theorem yields_iterate_of_chain {body : β → Program S (β ⊕ γ)} {b : ℕ → β} {s : ℕ → S} {n : ℕ}
    {c : γ} (hnext : ∀ k < n, (body (b k)).Yields (s k) (.inl (b (k + 1))) (s (k + 1)))
    (hend : (body (b n)).Yields (s n) (.inr c) (s (n + 1))) :
    (iterate body (b 0)).Yields (s 0) c (s (n + 1)) := by
  induction n generalizing b s with
  | zero => exact hend.iterate_last
  | succ n ih =>
    have hrest := ih (b := fun k => b (k + 1)) (s := fun k => s (k + 1))
      (fun k hk => hnext (k + 1) (Nat.succ_lt_succ hk)) hend
    exact (hnext 0 (Nat.succ_pos n)).iterate_next hrest

/-- The invariant rule for loops that end: if from every state of the invariant the body ends and
either returns a result as required or goes on within the invariant, then a result of the loop
is as required. -/
theorem Yields.iterate_invariant {body : β → Program S (β ⊕ γ)} {I : β → S → Prop}
    {Q : γ → S → Prop}
    (hbody : ∀ b s, I b s → ∃ r s', (body b).Yields s r s' ∧ Sum.elim (I · s') (Q · s') r)
    {b : β} {s s' : S} {c : γ} (hI : I b s) (hy : (iterate body b).Yields s c s') : Q c s' := by
  obtain ⟨n, hn⟩ := hy
  change iterateExec body n n b s = _ at hn
  suffices h : ∀ k b s, I b s → iterateExec body n k b s = .done c s' → Q c s' from h n b s hI hn
  intro k
  induction k with
  | zero => exact fun b s _ h => absurd h (by simp [iterateExec])
  | succ k ih =>
    intro b s hI h
    obtain ⟨r, s₁, hr, hres⟩ := hbody b s hI
    cases hb : (body b).exec n s with
    | done r' s₂ =>
      obtain ⟨rfl, rfl⟩ := hr.unique ⟨n, hb⟩
      simp only [iterateExec, hb] at h
      cases r with
      | inl b' => exact ih b' s₁ hres h
      | inr c' =>
        obtain ⟨rfl, rfl⟩ : c' = c ∧ s₁ = s' := by simpa using h
        exact hres
    | cut s₂ =>
      simp only [iterateExec, hb] at h
      exact absurd h (by simp)

/-! ## Total correctness -/

/-- From every state satisfying `P` the program ends, and with `Q`. -/
def Total (P : S → Prop) (p : Program S α) (Q : α → S → Prop) : Prop :=
  ∀ s, P s → ∃ a s', p.Yields s a s' ∧ Q a s'

namespace Total

variable {P P' : S → Prop} {Q Q' : α → S → Prop}

/-- The rule of consequence. -/
lemma weaken {p : Program S α} (h : Total P' p Q') (hP : ∀ s, P s → P' s)
    (hQ : ∀ a s, Q' a s → Q a s) : Total P p Q := by
  intro s hs
  obtain ⟨a, s', hy, hq⟩ := h s (hP s hs)
  exact ⟨a, s', hy, hQ a s' hq⟩

/-- A returned value ends. -/
lemma pure {a : α} (h : ∀ s, P s → Q a s) : Total P (Pure.pure a) Q :=
  fun s hs => ⟨a, s, by simp, h s hs⟩

/-- An atomic step ends. -/
lemma step {f : S → α × S} (h : ∀ s, P s → Q (f s).1 (f s).2) : Total P (Program.step f) Q :=
  fun s hs => ⟨_, _, by simp, h s hs⟩

/-- Two programs one after the other. -/
lemma bind {p : Program S α} {k : α → Program S β} {Q' : β → S → Prop} (hp : Total P p Q)
    (hk : ∀ a, Total (Q a) (k a) Q') : Total P (p >>= k) Q' := by
  intro s hs
  obtain ⟨a, s₁, hy₁, hq₁⟩ := hp s hs
  obtain ⟨b, s₂, hy₂, hq₂⟩ := hk a s₁ hq₁
  exact ⟨b, s₂, hy₁.bind hy₂, hq₂⟩

end Total

/-! ## Safety of every execution -/

/-- However much fuel there is, an execution from a state satisfying `P` ends with `Q` or is
cut with `R`. -/
def Triple (P : S → Prop) (p : Program S α) (Q : α → S → Prop) (R : S → Prop) : Prop :=
  ∀ n s, P s → (p.exec n s).Sat Q R

namespace Triple

variable {P P' : S → Prop} {Q Q' : α → S → Prop} {R R' : S → Prop}

/-- What a triple says of a result. -/
lemma of_yields {p : Program S α} (h : Triple P p Q R) {s s' : S} {a : α} (hs : P s)
    (hy : p.Yields s a s') : Q a s' := by
  obtain ⟨n, hn⟩ := hy
  have hsat := h n s hs
  rwa [hn] at hsat

/-- The rule of consequence. -/
lemma weaken {p : Program S α} (h : Triple P' p Q' R') (hP : ∀ s, P s → P' s)
    (hQ : ∀ a s, Q' a s → Q a s) (hR : ∀ s, R' s → R s) : Triple P p Q R := by
  intro n s hs
  have hsat := h n s (hP s hs)
  cases hp : p.exec n s with
  | done a s' =>
    rw [hp] at hsat
    exact hQ a s' hsat
  | cut s' =>
    rw [hp] at hsat
    exact hR s' hsat

/-- Every program meets the weakest conditions. -/
lemma top (p : Program S α) :
    Triple (fun _ => True) p (fun _ _ => True) fun _ => True := by
  intro n s _
  cases p.exec n s with
  | done a s' => trivial
  | cut s' => trivial

/-- A returned value changes nothing. -/
lemma pure {a : α} (h : ∀ s, P s → Q a s) : Triple P (Pure.pure a) Q R :=
  fun _ s hs => h s hs

/-- An atomic step is never cut. -/
lemma step {f : S → α × S} (h : ∀ s, P s → Q (f s).1 (f s).2) : Triple P (Program.step f) Q R :=
  fun _ s hs => h s hs

/-- Two programs one after the other. -/
lemma bind {p : Program S α} {k : α → Program S β} {Q' : β → S → Prop}
    (hp : Triple P p Q R) (hk : ∀ a, Triple (Q a) (k a) Q' R) : Triple P (p >>= k) Q' R := by
  intro n s hs
  have hsat := hp n s hs
  change (bindExec p k n s).Sat Q' R
  unfold bindExec
  cases hrun : p.exec n s with
  | done a s' =>
    rw [hrun] at hsat
    exact hk a n s' hsat
  | cut s' =>
    rw [hrun] at hsat
    exact hsat

/-- The invariant rule for loops. -/
lemma iterate {body : β → Program S (β ⊕ γ)} {I : β → S → Prop} {Q : γ → S → Prop}
    (hbody : ∀ b, Triple (I b) (body b) (fun r s => Sum.elim (I · s) (Q · s) r) R)
    (hcut : ∀ b s, I b s → R s) (b : β) : Triple (I b) (Program.iterate body b) Q R := by
  intro n s hs
  change (iterateExec body n n b s).Sat Q R
  suffices h : ∀ k b s, I b s → (iterateExec body n k b s).Sat Q R from h n b s hs
  intro k
  induction k with
  | zero => exact fun b s hI => hcut b s hI
  | succ k ih =>
    intro b s hI
    have hsat := hbody b n s hI
    cases hrun : (body b).exec n s with
    | done r s' =>
      rw [hrun] at hsat
      simp only [iterateExec, hrun]
      cases r with
      | inl b' => exact ih b' s' hsat
      | inr c => exact hsat
    | cut s' =>
      rw [hrun] at hsat
      simp only [iterateExec, hrun]
      exact hsat

/-- The invariant rule for `while` loops. -/
lemma whileDo {test : Program S Bool} {body : Program S Unit} {I B : S → Prop}
    {Q : Unit → S → Prop}
    (htest : Triple I test (fun b s => if b then B s else Q () s) R)
    (hbody : Triple B body (fun _ s => I s) R) (hcut : ∀ s, I s → R s) :
    Triple I (Program.whileDo test body) Q R := by
  refine iterate (I := fun _ => I) (fun _ => ?_) (fun _ => hcut) ()
  refine bind htest fun b => ?_
  cases b with
  | true => exact bind hbody fun _ => pure fun s hs => hs
  | false => exact pure fun s hs => hs

end Triple

end Program

end Foundation
