import HalAPI.Api.ExecutionContext
import HalAPI.Foundation.Runs

/-!
# Calls in a row

The operations of the library return the object they are called on, so that device calls are
written one after the other.  A chain of calls is one run of the execution context
(`yields_chain`), and since the error is sticky, the requests that reach the device are those of
the chain up to the first that fails (`exists_firstAccepted`).

`FirstAccepted` says of a list of calls which of them were accepted: those before the first that was
refused, as the log of the requests and their answers shows.
-/

namespace HalAPI

open Foundation

variable {σ ρ : Type}

/-- A device call: its request, and what the driver does with it. -/
structure DeviceCall (σ ρ : Type) where
  request : ρ
  serve : σ → ℤ × σ

/-- The thread after a call: unchanged while an error is set. -/
def Thread.call (t : Thread σ ρ) (c : DeviceCall σ ρ) : Thread σ ρ :=
  if t.isError then t else t.afterCall c.request (c.serve t.device).1 (c.serve t.device).2

/-- One call after another. -/
def chain : List (DeviceCall σ ρ) → Program (Thread σ ρ) Unit
  | [] => pure ()
  | c :: cs => systemCall c.request c.serve >>= fun _ => chain cs

/-- Two chains, one after the other. -/
lemma chain_append (cs cs' : List (DeviceCall σ ρ)) :
    chain (cs ++ cs') = chain cs >>= fun _ => chain cs' := by
  induction cs with
  | nil => rfl
  | cons c cs ih =>
    rw [List.cons_append, chain, chain, Program.bind_assoc]
    simp only [ih]

/-- A call is made without an error, and skipped with one. -/
lemma yields_call (c : DeviceCall σ ρ) (t t' : Thread σ ρ) :
    (systemCall c.request c.serve).Yields t () t' ↔ t' = t.call c := by
  unfold Thread.call
  cases he : t.isError with
  | true => exact yields_systemCall_of_error he _ _
  | false => exact yields_systemCall he _ _

/-- A chain is a run of its calls. -/
lemma yields_chain (cs : List (DeviceCall σ ρ)) (t t' : Thread σ ρ) :
    (chain cs).Yields t () t' ↔ t' = run Thread.call t cs := by
  induction cs generalizing t with
  | nil => simp [chain]
  | cons c cs ih =>
    rw [chain, Program.yields_bind, run_cons]
    constructor
    · rintro ⟨u, s, hc, hcs⟩
      rw [(yields_call c t s).mp hc] at hcs
      exact (ih _).mp hcs
    · intro h
      exact ⟨(), t.call c, (yields_call c t _).mpr rfl, (ih _).mpr h⟩

section Runs

variable {t : Thread σ ρ}

/-- While an error is set, no call of a chain is made. -/
lemma run_call_of_error (ht : t.isError = true) (cs : List (DeviceCall σ ρ)) :
    run Thread.call t cs = t := by
  induction cs with
  | nil => rfl
  | cons c cs ih =>
    have hskip : t.call c = t := if_pos ht
    rw [run_cons, hskip, ih]

/-- Without an error a call is made. -/
lemma call_of_no_error (ht : t.isError = false) (c : DeviceCall σ ρ) :
    t.call c = t.afterCall c.request (c.serve t.device).1 (c.serve t.device).2 :=
  if_neg (by simp [ht])

/-- If no error is set after a chain, none was set before, and every call succeeded. -/
lemma call_of_run_no_error {c : DeviceCall σ ρ} {cs : List (DeviceCall σ ρ)}
    (h : (run Thread.call t (c :: cs)).isError = false) :
    t.isError = false ∧ 0 ≤ (c.serve t.device).1 := by
  have ht : t.isError = false := by
    by_contra herror
    rw [run_call_of_error (by simpa using herror)] at h
    exact herror h
  refine ⟨ht, ?_⟩
  by_contra hfailed
  have herror : (t.call c).isError = true := by
    rw [call_of_no_error ht]
    simpa using hfailed
  rw [run_cons, run_call_of_error herror] at h
  exact absurd (h.symm.trans herror) (by decide)

/-- Calls that succeed on every device set no error. -/
lemma run_call_of_serves (ht : t.isError = false) {cs : List (DeviceCall σ ρ)}
    (h : ∀ c ∈ cs, ∀ d, 0 ≤ (c.serve d).1) : (run Thread.call t cs).isError = false := by
  induction cs generalizing t with
  | nil => exact ht
  | cons c cs ih =>
    obtain ⟨hc, hcs⟩ := List.forall_mem_cons.mp h
    refine ih ?_ hcs
    rw [call_of_no_error ht]
    exact decide_eq_false (not_lt.mpr (hc t.device))

end Runs

/-! ## The accepted calls -/

section Accepted

variable {L : Type}

/-- Of the calls, whose requests are given, `accepted` are those that were accepted before the first
refused one.  Every request of theirs was answered without an error, and what reached the device
after them is nothing, if they are all the calls and no error is set, or the next call, which
was refused and set the error. -/
def FirstAccepted (request : L → ρ) (t t' : Thread σ ρ) (calls accepted : List L) : Prop :=
  ∃ answers : List (ρ × ℤ), answers.map Prod.fst = accepted.map request ∧
    (∀ a ∈ answers, 0 ≤ a.2) ∧
    ((t'.isError = false ∧ calls = accepted ∧ t'.issued = answers.reverse ++ t.issued) ∨
      (t'.isError = true ∧ ∃ c rest result, calls = accepted ++ c :: rest ∧ result < 0 ∧
        t'.issued = (request c, result) :: (answers.reverse ++ t.issued)))

variable {request : L → ρ} {t t' : Thread σ ρ} {calls accepted : List L}

/-- Of no calls all are accepted. -/
lemma firstAccepted_nil (request : L → ρ) (ht : t.isError = false) :
    FirstAccepted request t t [] [] :=
  ⟨[], rfl, by simp, Or.inl ⟨ht, rfl, rfl⟩⟩

/-- If the first call is refused, none is accepted. -/
lemma firstAccepted_of_refuse (request : L → ρ) {result : ℤ} (hrefuse : result < 0) (c : L)
    (calls : List L) (d : σ) :
    FirstAccepted request t (t.afterCall (request c) result d) (c :: calls) [] := by
  have herror : (t.afterCall (request c) result d).isError = true := decide_eq_true hrefuse
  exact ⟨[], rfl, by simp, Or.inr ⟨herror, c, calls, result, rfl, hrefuse, rfl⟩⟩

/-- If the first call is accepted, it comes before those accepted of the others. -/
lemma FirstAccepted.cons {result : ℤ} (haccept : 0 ≤ result) {c : L} {d : σ}
    (h : FirstAccepted request (t.afterCall (request c) result d) t' calls accepted) :
    FirstAccepted request t t' (c :: calls) (c :: accepted) := by
  obtain ⟨answers, hrequests, hanswers, hend⟩ := h
  have hissued : answers.reverse ++ (t.afterCall (request c) result d).issued =
      ((request c, result) :: answers).reverse ++ t.issued := by simp
  rw [hissued] at hend
  refine ⟨(request c, result) :: answers, by simp [hrequests],
    List.forall_mem_cons.mpr ⟨haccept, hanswers⟩, ?_⟩
  rcases hend with ⟨he, rfl, hlog⟩ | ⟨he, c', rest, r, rfl, hrefuse, hlog⟩
  · exact Or.inl ⟨he, rfl, hlog⟩
  · exact Or.inr ⟨he, c', rest, r, rfl, hrefuse, hlog⟩

/-- If no error is set in the end, all calls were accepted. -/
lemma FirstAccepted.eq_of_no_error (h : FirstAccepted request t t' calls accepted)
    (ht' : t'.isError = false) : accepted = calls := by
  obtain ⟨answers, -, -, ⟨-, hall, -⟩ | ⟨herror, -⟩⟩ := h
  · exact hall.symm
  · exact absurd (ht'.symm.trans herror) (by decide)

/-- If an error is set in the end, the log has one entry more than calls were accepted. -/
lemma FirstAccepted.eq_take_of_error (h : FirstAccepted request t t' calls accepted)
    (ht' : t'.isError = true) :
    accepted = calls.take (t'.issued.length - t.issued.length - 1) := by
  obtain ⟨answers, hrequests, -, ⟨hnone, -⟩ | ⟨-, c, rest, result, rfl, -, hlog⟩⟩ := h
  · exact absurd (ht'.symm.trans hnone) (by decide)
  · have hlength : answers.length = accepted.length := by
      simpa using congrArg List.length hrequests
    have hcount : t'.issued.length - t.issued.length - 1 = accepted.length := by
      rw [hlog, List.length_cons, List.length_append, List.length_reverse, hlength]
      omega
    rw [hcount, List.take_left]

/-- Of the calls of a chain some are accepted, and after a refused one nothing is made. -/
lemma exists_firstAccepted (ht : t.isError = false) (cs : List (DeviceCall σ ρ)) :
    ∃ accepted, FirstAccepted DeviceCall.request t (run Thread.call t cs) cs accepted := by
  induction cs generalizing t with
  | nil => exact ⟨[], firstAccepted_nil _ ht⟩
  | cons c cs ih =>
    rw [run_cons, call_of_no_error ht]
    rcases le_or_gt 0 (c.serve t.device).1 with hmade | hfailed
    · have hgoes : (t.afterCall c.request (c.serve t.device).1 (c.serve t.device).2).isError =
          false := decide_eq_false (not_lt.mpr hmade)
      obtain ⟨accepted, hfirst⟩ := ih hgoes
      exact ⟨c :: accepted, hfirst.cons hmade⟩
    · have hstops : (t.afterCall c.request (c.serve t.device).1 (c.serve t.device).2).isError =
          true := decide_eq_true hfailed
      rw [run_call_of_error hstops]
      exact ⟨[], firstAccepted_of_refuse _ hfailed c cs _⟩

/-- The requests that reached the device, with their answers: those up to the first that was
refused.  Without an error at the end that is all of them. -/
lemma FirstAccepted.exists_answers (h : FirstAccepted request t t' calls accepted) :
    ∃ answers : List (ρ × ℤ), t'.issued = answers.reverse ++ t.issued ∧
      answers.map Prod.fst <+: calls.map request ∧
      (∀ a ∈ answers.dropLast, 0 ≤ a.2) ∧
      (t'.isError = false → answers.length = calls.length ∧ ∀ a ∈ answers, 0 ≤ a.2) ∧
      (t'.isError = true → ∃ a ∈ answers.getLast?, a.2 < 0) := by
  obtain ⟨answers, hrequests, hanswers, hend⟩ := h
  rcases hend with ⟨hnone, rfl, hlog⟩ | ⟨herror, c, rest, result, rfl, hrefuse, hlog⟩
  · have hlength : answers.length = calls.length := by
      simpa using congrArg List.length hrequests
    refine ⟨answers, hlog, by rw [hrequests], fun a ha => ?_, fun _ => ⟨hlength, hanswers⟩,
      fun herror => ?_⟩
    · exact hanswers a (List.mem_of_mem_dropLast ha)
    · exact absurd (herror.symm.trans hnone) (by decide)
  · -- the refused call is the last of those that were made
    refine ⟨answers ++ [(request c, result)], by simpa using hlog, ⟨rest.map request, ?_⟩, ?_,
      fun hnone => ?_, fun _ => ⟨(request c, result), by simp, hrefuse⟩⟩
    · simp [hrequests]
    · simpa using hanswers
    · exact absurd (hnone.symm.trans herror) (by decide)

end Accepted

end HalAPI
