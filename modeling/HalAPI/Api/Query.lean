import HalAPI.Api.ExecutionContext
import HalAPI.Foundation.Oblivious

/-!
# Queries into a local variable

Most queries of the library have one form: a local variable is declared, its address is passed to
a device call, and the variable is returned.  The driver fills it in if the call is made and
succeeds.  Otherwise the variable is returned as it was declared, and if it was declared without
an initial value the caller sees whatever the memory held.

The content of that memory is a hidden input, and a query is sound if two runs that differ in
it only are the same and if a variable that was not filled in is not taken for a valid one.
-/

namespace HalAPI

open Foundation Program

variable {σ ρ τ α : Type}

/-- The thread after a device call, which is skipped or made. -/
def Thread.called (t : Thread σ ρ) (request : ρ) (f : σ → ℤ × σ) : Thread σ ρ :=
  if t.isError then t else t.afterCall request (f t.device).1 (f t.device).2

/-- The call is made and succeeds, and the driver fills in the variable. -/
def Filled (f : σ → (ℤ × τ) × σ) (t : Thread σ ρ) : Prop :=
  t.isError = false ∧ 0 ≤ (f t.device).1.1

instance (f : σ → (ℤ × τ) × σ) (t : Thread σ ρ) : Decidable (Filled f t) := instDecidableAnd

/-- What a driver answers to a query, apart from the data. -/
def answer (f : σ → (ℤ × τ) × σ) (d : σ) : ℤ × σ := ((f d).1.1, (f d).2)

/-- A query of the usual form, with the content of its local variable. -/
def queryRecord (request : ρ) (f : σ → (ℤ × τ) × σ) (initial : τ) : Program (Thread σ ρ) τ := do
  let filled ← query request f
  return filled.getD initial

/-- What the driver delivers. -/
def delivered (f : σ → (ℤ × τ) × σ) (t : Thread σ ρ) : Option τ :=
  if Filled f t then some (f t.device).1.2 else none

/-- What the variable holds after the call. -/
def queried (f : σ → (ℤ × τ) × σ) (t : Thread σ ρ) (initial : τ) : τ :=
  (delivered f t).getD initial

/-- A query in a thread is sound: what the memory held has no influence, and a variable that was
not filled in is not valid. -/
structure SoundQuery (query : τ → Program (Thread σ ρ) α) (valid : α → Bool) (filled : Prop)
    (t : Thread σ ρ) : Prop where
  oblivious : Oblivious query t
  invalid : ¬ filled → ∀ u a t', (query u).Yields t a t' → valid a = false

section Calls

variable (t : Thread σ ρ) (request : ρ)

/-- While an error is set no call is made. -/
lemma Thread.called_of_error {t : Thread σ ρ} (ht : t.isError = true) (f : σ → ℤ × σ) :
    t.called request f = t := if_pos ht

/-- Without an error a call is made. -/
lemma Thread.called_of_no_error {t : Thread σ ρ} (ht : t.isError = false) (f : σ → ℤ × σ) :
    t.called request f = t.afterCall request (f t.device).1 (f t.device).2 := by
  rw [Thread.called, if_neg (by simp [ht])]

/-- A variable that is not filled in leaves an error. -/
lemma called_isError_of_not_filled {t : Thread σ ρ} {f : σ → (ℤ × τ) × σ} (h : ¬ Filled f t) :
    (t.called request (answer f)).isError = true := by
  cases ht : t.isError with
  | true => rwa [Thread.called_of_error request ht]
  | false =>
    rw [Thread.called_of_no_error request ht, Thread.afterCall_isError]
    exact decide_eq_true (not_le.mp fun hres => h ⟨ht, hres⟩)

/-- A device call ends at once. -/
lemma endsAtOnce_systemCall (f : σ → ℤ × σ) :
    (systemCall request f).EndsAtOnce t () (t.called request f) := by
  intro n
  cases ht : t.isError with
  | true => simp [systemCall, Program.step, Thread.called, ht]
  | false => simp [systemCall, Program.step, Thread.called, ht]

/-- A query ends at once, with what the driver delivers. -/
lemma endsAtOnce_query (f : σ → (ℤ × τ) × σ) :
    (query request f).EndsAtOnce t (delivered f t) (t.called request (answer f)) := by
  intro n
  cases ht : t.isError with
  | true => simp [query, Program.step, Thread.called, delivered, Filled, ht]
  | false =>
    by_cases hres : (f t.device).1.1 < 0
    · simp [query, Program.step, Thread.called, answer, delivered, Filled, ht, hres]
    · simp [query, Program.step, Thread.called, answer, delivered, Filled, ht, hres, not_lt.mp hres]

/-- A query of the usual form ends at once, with the content of its variable. -/
lemma endsAtOnce_queryRecord (f : σ → (ℤ × τ) × σ) (initial : τ) :
    (queryRecord request f initial).EndsAtOnce t (queried f t initial)
      (t.called request (answer f)) :=
  (endsAtOnce_query t request f).bind (EndsAtOnce.pure _ _)

end Calls

section Sound

/-- A variable that is filled in holds what the driver delivers. -/
lemma queried_of_filled {f : σ → (ℤ × τ) × σ} {t : Thread σ ρ} (h : Filled f t) (initial : τ) :
    queried f t initial = (f t.device).1.2 := by
  rw [queried, delivered, if_pos h, Option.getD_some]

/-- A variable that is not filled in holds what it held. -/
lemma queried_of_not_filled {f : σ → (ℤ × τ) × σ} {t : Thread σ ρ} (h : ¬ Filled f t)
    (initial : τ) : queried f t initial = initial := by
  rw [queried, delivered, if_neg h, Option.getD_none]

variable {t t' : Thread σ ρ} {f : σ → (ℤ × τ) × σ} {p : τ → Program (Thread σ ρ) α} {g : τ → α}

/-- A query whose result is computed from its variable is oblivious exactly if the variable is
filled in or the result does not depend on it. -/
lemma oblivious_iff_filled_or (hp : ∀ u, (p u).EndsAtOnce t (g (queried f t u)) t') :
    Oblivious p t ↔ Filled f t ∨ ∀ u v, g u = g v := by
  rw [oblivious_iff_of_endsAtOnce hp]
  by_cases h : Filled f t
  · simp [queried_of_filled h, h]
  · simp [queried_of_not_filled h, h]

/-- A query that passes on its variable is oblivious exactly if the variable is filled in. -/
lemma oblivious_iff_filled {u v : τ} (huv : g u ≠ g v)
    (hp : ∀ u, (p u).EndsAtOnce t (g (queried f t u)) t') : Oblivious p t ↔ Filled f t := by
  rw [oblivious_iff_filled_or hp]
  exact or_iff_left fun h => huv (h u v)

/-- A query some contents of whose variable are valid, and some are not, is sound exactly if the
variable is filled in. -/
lemma soundQuery_iff_filled {valid : α → Bool} {u v : τ} (hu : valid (g u) = true)
    (hv : valid (g v) = false) (hp : ∀ u, (p u).EndsAtOnce t (g (queried f t u)) t') :
    SoundQuery p valid (Filled f t) t ↔ Filled f t := by
  have huv : g u ≠ g v := by
    intro h
    rw [h, hv] at hu
    exact absurd hu (by simp)
  constructor
  · exact fun h => (oblivious_iff_filled huv hp).mp h.oblivious
  · exact fun h => ⟨(oblivious_iff_filled huv hp).mpr h, fun hnot => absurd h hnot⟩

end Sound

end HalAPI
