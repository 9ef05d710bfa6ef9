import HalAPI.Foundation.Program
import HalAPI.Foundation.Runs

/-!
# Programs that answer like an abstract system

An interface offers a program for every request.  `inTurn` serves a list of requests, one after
another, and collects the answers.

An abstract system is a relation `R m l o m'`: in the state `m`, the request `l` may be answered
with `o` and lead to `m'`.  If every program does what the system may do, with a representation
of the abstract state in the states of the programs, then so does every list of requests
(`Program.Total.inTurn`).  A system that leaves no choice is given by what it answers and where
it goes (`answers_iff_replies`).
-/

namespace Foundation

variable {S A L O : Type}

namespace Program

/-- Serve the requests, one after another. -/
def inTurn (p : L → Program S O) : List L → Program S (List O)
  | [] => pure []
  | l :: ls => do
    let o ← p l
    let os ← inTurn p ls
    return o :: os

end Program

/-- The system may answer the requests in this way and end in the last state. -/
def Answers (R : A → L → O → A → Prop) : A → List L → List O → A → Prop
  | m, [], [], m' => m' = m
  | m, l :: ls, o :: os, m' => ∃ m₁, R m l o m₁ ∧ Answers R m₁ ls os m'
  | _, _, _, _ => False

/-- The answers to the requests of a system that leaves no choice. -/
def replies (next : A → L → A) (reply : A → L → O) : A → List L → List O
  | _, [] => []
  | m, l :: ls => reply m l :: replies next reply (next m l) ls

/-- A system that leaves no choice answers as it has to, and ends where its run ends. -/
lemma answers_iff_replies {next : A → L → A} {reply : A → L → O} (m m' : A) (ls : List L)
    (os : List O) :
    Answers (fun m l o m' => o = reply m l ∧ m' = next m l) m ls os m' ↔
      os = replies next reply m ls ∧ m' = run next m ls := by
  induction ls generalizing m os with
  | nil =>
    cases os with
    | nil => simp [Answers, replies]
    | cons o os => simp [Answers, replies]
  | cons l ls ih =>
    cases os with
    | nil => simp [Answers, replies]
    | cons o os => simp [Answers, replies, ih, and_assoc]

/-- Every request is answered, each as the system answers single requests. -/
lemma Answers.forall_answers {R : A → L → O → A → Prop} {P : O → Prop}
    (hstep : ∀ m l o m', R m l o m' → P o) {ls : List L} {os : List O} {m m' : A}
    (h : Answers R m ls os m') : os.length = ls.length ∧ ∀ o ∈ os, P o := by
  induction ls generalizing m os with
  | nil =>
    cases os with
    | nil => simp
    | cons o os => exact h.elim
  | cons l ls ih =>
    cases os with
    | nil => exact h.elim
    | cons o os =>
      obtain ⟨m₁, hR, hrest⟩ := h
      obtain ⟨hlength, hall⟩ := ih hrest
      exact ⟨congrArg (· + 1) hlength, List.forall_mem_cons.mpr ⟨hstep m l o m₁ hR, hall⟩⟩

/-- If every admitted request is served as the system may serve it, so is every list of them. -/
lemma Program.Total.inTurn (Rep : A → S → Prop) {R : A → L → O → A → Prop}
    {p : L → Program S O} {ok : L → Prop}
    (h : ∀ l m, ok l → Total (Rep m) (p l) (fun o s => ∃ m', R m l o m' ∧ Rep m' s))
    {ls : List L} (hls : ∀ l ∈ ls, ok l) (m : A) :
    Total (Rep m) (Program.inTurn p ls) (fun os s => ∃ m', Answers R m ls os m' ∧ Rep m' s) := by
  induction ls generalizing m with
  | nil => exact Total.pure fun s hs => ⟨m, rfl, hs⟩
  | cons l ls ih =>
    obtain ⟨hl, hrest⟩ := List.forall_mem_cons.mp hls
    intro s hs
    obtain ⟨o, s₁, hy₁, m₁, hR, hs₁⟩ := h l m hl s hs
    obtain ⟨os, s₂, hy₂, m₂, hanswers, hs₂⟩ := ih hrest m₁ s₁ hs₁
    exact ⟨o :: os, s₂, hy₁.bind (hy₂.bind (Yields.pure _ _)), m₂, ⟨m₁, hR, hanswers⟩, hs₂⟩

end Foundation
