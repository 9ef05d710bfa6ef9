import HalAPI.Foundation.Program

/-!
# The execution context of a thread

Every device class of the library runs its system calls in the execution context of the
calling thread.  The context keeps the value the last call returned and whether an error
occurred.  The error is sticky: while it is set, a device call is skipped, and the
returned value stays the `-1` of the call that failed.

A `Thread` is that context together with the state of the device behind the file and the
list of the requests that reached the device, each with the value it returned.  The device
itself is a function of its state, so that a device with an arbitrary state type answers as
it likes, and as often as it likes with an error.
-/

namespace HalAPI

open Foundation

/-- A thread's execution context, the device it works with, and the requests that reached
the device, newest first. -/
structure Thread (σ ρ : Type) where
  isError : Bool
  returnValue : ℤ
  device : σ
  issued : List (ρ × ℤ)
  deriving DecidableEq

namespace Thread

variable {σ ρ α : Type}

/-- A thread without an error, before its first request to a device. -/
def start (device : σ) : Thread σ ρ where
  isError := false
  returnValue := 0
  device := device
  issued := []

/-- The context after a system call that returned `result` and left the device in the state
`device`. -/
def afterCall (t : Thread σ ρ) (request : ρ) (result : ℤ) (device : σ) : Thread σ ρ where
  isError := decide (result < 0)
  returnValue := if result < 0 then -1 else result
  device := device
  issued := (request, result) :: t.issued

section AfterCall

variable (t : Thread σ ρ) (request : ρ) (result : ℤ) (device : σ)

/-- A call leaves an error exactly if it returned a negative value. -/
@[simp] lemma afterCall_isError : (t.afterCall request result device).isError =
    decide (result < 0) := rfl

/-- A call leaves the device where it put it. -/
@[simp] lemma afterCall_device : (t.afterCall request result device).device = device := rfl

/-- A call adds its request to those that reached the device. -/
@[simp] lemma afterCall_issued :
    (t.afterCall request result device).issued = (request, result) :: t.issued := rfl

/-- The value of a failed call is `-1`. -/
@[simp] lemma afterCall_returnValue : (t.afterCall request result device).returnValue =
    if result < 0 then -1 else result := rfl

end AfterCall

/-- A thread starts without an error. -/
@[simp] lemma start_isError (device : σ) : (start device : Thread σ ρ).isError = false := rfl

/-- A thread starts with the device as it finds it. -/
@[simp] lemma start_device (device : σ) : (start device : Thread σ ρ).device = device := rfl

/-- No request reached the device before the first. -/
@[simp] lemma start_issued (device : σ) : (start device : Thread σ ρ).issued = [] := rfl

end Thread

variable {σ ρ α : Type}

/-- A device call with data to hand back: skipped while an error is set, and otherwise made.
The data are there only if the call succeeded. -/
def query (request : ρ) (f : σ → (ℤ × α) × σ) : Program (Thread σ ρ) (Option α) :=
  Program.step fun t =>
    if t.isError then (none, t)
    else
      (if (f t.device).1.1 < 0 then none else some (f t.device).1.2,
        t.afterCall request (f t.device).1.1 (f t.device).2)

/-- A device call without data to hand back. -/
def systemCall (request : ρ) (f : σ → ℤ × σ) : Program (Thread σ ρ) Unit :=
  Program.step fun t =>
    if t.isError then ((), t)
    else ((), t.afterCall request (f t.device).1 (f t.device).2)

/-- `return_value()` of the context. -/
def returnValue : Program (Thread σ ρ) ℤ := Program.step fun t => (t.returnValue, t)

/-- `is_success()` of the context. -/
def isSuccess : Program (Thread σ ρ) Bool := Program.step fun t => (!t.isError, t)

section Yields

variable {t t' : Thread σ ρ}

/-- Without an error a call with data is made. -/
lemma yields_query (ht : t.isError = false) (request : ρ) (f : σ → (ℤ × α) × σ)
    (data : Option α) : (query request f).Yields t data t' ↔
      data = (if (f t.device).1.1 < 0 then none else some (f t.device).1.2) ∧
        t' = t.afterCall request (f t.device).1.1 (f t.device).2 := by
  simp [query, ht]

/-- While an error is set a call with data is skipped. -/
lemma yields_query_of_error (ht : t.isError = true) (request : ρ) (f : σ → (ℤ × α) × σ)
    (data : Option α) : (query request f).Yields t data t' ↔ data = none ∧ t' = t := by
  simp [query, ht]

/-- While an error is set a call is skipped. -/
lemma yields_systemCall_of_error (ht : t.isError = true) (request : ρ) (f : σ → ℤ × σ) :
    (systemCall request f).Yields t () t' ↔ t' = t := by
  simp [systemCall, ht]

/-- Without an error a call is made. -/
lemma yields_systemCall (ht : t.isError = false) (request : ρ) (f : σ → ℤ × σ) :
    (systemCall request f).Yields t () t' ↔
      t' = t.afterCall request (f t.device).1 (f t.device).2 := by
  simp [systemCall, ht]

/-- `return_value()` reads the context. -/
@[simp] lemma yields_returnValue (v : ℤ) :
    (returnValue : Program (Thread σ ρ) ℤ).Yields t v t' ↔ v = t.returnValue ∧ t' = t := by
  simp [returnValue]

/-- `is_success()` reads the context. -/
@[simp] lemma yields_isSuccess (b : Bool) :
    (isSuccess : Program (Thread σ ρ) Bool).Yields t b t' ↔ b = !t.isError ∧ t' = t := by
  simp [isSuccess]

end Yields

section Triple

variable {P : Thread σ ρ → Prop} {R : Thread σ ρ → Prop}

/-- A call with data is skipped or made. -/
lemma triple_query {Q : Option α → Thread σ ρ → Prop} (request : ρ) (f : σ → (ℤ × α) × σ)
    (hskip : ∀ t, P t → t.isError = true → Q none t)
    (hmade : ∀ t, P t → t.isError = false →
      Q (if (f t.device).1.1 < 0 then none else some (f t.device).1.2)
        (t.afterCall request (f t.device).1.1 (f t.device).2)) :
    Program.Triple P (query request f) Q R := by
  refine Program.Triple.step fun t ht => ?_
  cases he : t.isError with
  | true => simpa [he] using hskip t ht he
  | false => simpa [he] using hmade t ht he

/-- A call is skipped or made. -/
lemma triple_systemCall {Q : Unit → Thread σ ρ → Prop} (request : ρ) (f : σ → ℤ × σ)
    (hskip : ∀ t, P t → t.isError = true → Q () t)
    (hmade : ∀ t, P t → t.isError = false →
      Q () (t.afterCall request (f t.device).1 (f t.device).2)) :
    Program.Triple P (systemCall request f) Q R := by
  refine Program.Triple.step fun t ht => ?_
  cases he : t.isError with
  | true => simpa [he] using hskip t ht he
  | false => simpa [he] using hmade t ht he

/-- `return_value()` changes nothing. -/
lemma triple_returnValue {Q : ℤ → Thread σ ρ → Prop} (h : ∀ t, P t → Q t.returnValue t) :
    Program.Triple P returnValue Q R :=
  Program.Triple.step h

/-- `is_success()` changes nothing. -/
lemma triple_isSuccess {Q : Bool → Thread σ ρ → Prop} (h : ∀ t, P t → Q (!t.isError) t) :
    Program.Triple P isSuccess Q R :=
  Program.Triple.step h

end Triple

/-! ## Sticky errors

A program made of device calls is inert while an error is set: no request of it reaches a
device, and it leaves the thread as it was. -/

/-- While an error is set the program changes nothing. -/
def Inert (p : Program (Thread σ ρ) α) : Prop :=
  ∀ t, t.isError = true → Program.Triple (· = t) p (fun _ t' => t' = t) (· = t)

namespace Inert

variable {β γ : Type}

/-- A returned value changes nothing. -/
lemma pure (a : α) : Inert (Pure.pure a : Program (Thread σ ρ) α) :=
  fun _ _ => Program.Triple.pure fun _ h => h

/-- A call is skipped. -/
lemma systemCall (request : ρ) (f : σ → ℤ × σ) : Inert (systemCall request f) := by
  intro t ht
  refine triple_systemCall request f (fun _ h _ => h) fun t' h h' => ?_
  rw [h, ht] at h'
  exact absurd h' (by simp)

/-- `return_value()` changes nothing. -/
lemma returnValue : Inert (returnValue : Program (Thread σ ρ) ℤ) :=
  fun _ _ => triple_returnValue fun _ h => h

/-- `is_success()` changes nothing. -/
lemma isSuccess : Inert (isSuccess : Program (Thread σ ρ) Bool) :=
  fun _ _ => triple_isSuccess fun _ h => h

/-- Two inert programs one after the other are inert. -/
lemma bind {p : Program (Thread σ ρ) α} {k : α → Program (Thread σ ρ) β} (hp : Inert p)
    (hk : ∀ a, Inert (k a)) : Inert (p >>= k) :=
  fun t ht => Program.Triple.bind (hp t ht) fun a => hk a t ht

/-- A loop with an inert body is inert. -/
lemma iterate {body : β → Program (Thread σ ρ) (β ⊕ γ)} (hbody : ∀ b, Inert (body b)) (b : β) :
    Inert (Program.iterate body b) := by
  intro t ht
  refine Program.Triple.iterate (I := fun _ => (· = t)) (fun b => ?_) (fun _ _ h => h) b
  refine (hbody b t ht).weaken (fun _ h => h) (fun r _ h => ?_) fun _ h => h
  cases r <;> exact h

/-- A `while` loop with an inert test and an inert body is inert. -/
lemma whileDo {test : Program (Thread σ ρ) Bool} {body : Program (Thread σ ρ) Unit}
    (htest : Inert test) (hbody : Inert body) : Inert (Program.whileDo test body) := by
  refine iterate (fun _ => bind htest fun b => ?_) ()
  cases b with
  | true => exact bind hbody fun _ => pure _
  | false => exact pure _

/-- An inert program keeps the error and whatever is true of the thread. -/
lemma keeps {p : Program (Thread σ ρ) α} (hp : Inert p) (K : Thread σ ρ → Prop) :
    Program.Triple (fun t => t.isError = true ∧ K t) p (fun _ t => t.isError = true ∧ K t)
      (fun t => t.isError = true ∧ K t) := by
  intro n t ht
  refine (hp t ht.1).weaken (P := (· = t)) (fun _ h => h) ?_ ?_ n t rfl
  · rintro a s rfl
    exact ht
  · rintro s rfl
    exact ht

end Inert

/-- While an error is set the program ends, and leaves the thread as it was. -/
def Skips (p : Program (Thread σ ρ) α) : Prop :=
  ∀ t, t.isError = true → ∃ a, p.Yields t a t

namespace Skips

variable {β : Type}

/-- A returned value leaves the thread as it was. -/
lemma pure (a : α) : Skips (Pure.pure a : Program (Thread σ ρ) α) :=
  fun _ _ => ⟨a, by simp⟩

/-- A call is skipped. -/
lemma systemCall (request : ρ) (f : σ → ℤ × σ) : Skips (systemCall request f) :=
  fun _ ht => ⟨(), (yields_systemCall_of_error ht request f).mpr rfl⟩

/-- A call with data is skipped, and hands back none. -/
lemma query (request : ρ) (f : σ → (ℤ × α) × σ) : Skips (query request f) :=
  fun _ ht => ⟨none, (yields_query_of_error ht request f _).mpr ⟨rfl, rfl⟩⟩

/-- Two programs one after the other. -/
lemma bind {p : Program (Thread σ ρ) α} {k : α → Program (Thread σ ρ) β} (hp : Skips p)
    (hk : ∀ a, Skips (k a)) : Skips (p >>= k) := by
  intro t ht
  obtain ⟨a, ha⟩ := hp t ht
  obtain ⟨b, hb⟩ := hk a t ht
  exact ⟨b, ha.bind hb⟩

/-- A choice of two programs. -/
lemma ite {p q : Program (Thread σ ρ) α} (hp : Skips p) (hq : Skips q) (b : Bool) :
    Skips (if b then p else q) := by
  cases b with
  | true => exact hp
  | false => exact hq

end Skips

/-! ## Calls that succeed

A program whose device calls all succeed computes a function of the device. -/

/-- From a thread without an error the program ends without one, and with the value and the
device that `f` computes. -/
def Computes (p : Program (Thread σ ρ) α) (f : σ → α × σ) : Prop :=
  ∀ t, t.isError = false → ∃ t', p.Yields t (f t.device).1 t' ∧ t'.isError = false ∧
    t'.device = (f t.device).2

namespace Computes

variable {β : Type}

/-- A returned value is computed. -/
lemma pure (a : α) : Computes (Pure.pure a : Program (Thread σ ρ) α) fun d => (a, d) :=
  fun t ht => ⟨t, by simp, ht, rfl⟩

/-- A call that always succeeds computes what its driver does. -/
lemma systemCall {request : ρ} {f : σ → ℤ × σ} (hf : ∀ d, 0 ≤ (f d).1) :
    Computes (systemCall request f) fun d => ((), (f d).2) := by
  intro t ht
  refine ⟨_, (yields_systemCall ht request f).mpr rfl, ?_, rfl⟩
  simpa using hf t.device

/-- A call with data that always succeeds hands back the data its driver filled in. -/
lemma query {request : ρ} {f : σ → (ℤ × α) × σ} (hf : ∀ d, 0 ≤ (f d).1.1) :
    Computes (query request f) fun d => (some (f d).1.2, (f d).2) := by
  intro t ht
  have hdata : (if (f t.device).1.1 < 0 then none else some (f t.device).1.2) =
      some (f t.device).1.2 := if_neg (not_lt.mpr (hf t.device))
  refine ⟨_, (yields_query ht request f _).mpr ⟨hdata.symm, rfl⟩, ?_, rfl⟩
  simpa using hf t.device

/-- Two programs one after the other compute one function after the other. -/
lemma bind {p : Program (Thread σ ρ) α} {k : α → Program (Thread σ ρ) β} {f : σ → α × σ}
    {g : α → σ → β × σ} (hp : Computes p f) (hk : ∀ a, Computes (k a) (g a)) :
    Computes (p >>= k) fun d => g (f d).1 (f d).2 := by
  intro t ht
  obtain ⟨t₁, hy₁, he₁, hd₁⟩ := hp t ht
  obtain ⟨t₂, hy₂, he₂, hd₂⟩ := hk (f t.device).1 t₁ he₁
  rw [hd₁] at hy₂ hd₂
  exact ⟨t₂, hy₁.bind hy₂, he₂, hd₂⟩

/-- A choice of two programs computes the choice of two functions. -/
lemma ite {p q : Program (Thread σ ρ) α} {f g : σ → α × σ} (hp : Computes p f)
    (hq : Computes q g) (b : Bool) :
    Computes (if b then p else q) fun d => if b then f d else g d := by
  cases b with
  | true => exact hp
  | false => exact hq

end Computes

/-! ## Error scopes

An `api::ErrorScope` clears the error of the thread when it is destroyed at the end of its
block.  The value of the last call stays. -/

/-- The thread without its error. -/
def Thread.cleared (t : Thread σ ρ) : Thread σ ρ := { t with isError := false }

section Cleared

variable (t : Thread σ ρ)

/-- A cleared thread has no error. -/
@[simp] lemma Thread.cleared_isError : t.cleared.isError = false := rfl

/-- Clearing the error is no matter of the device. -/
@[simp] lemma Thread.cleared_device : t.cleared.device = t.device := rfl

/-- Clearing the error makes no request. -/
@[simp] lemma Thread.cleared_issued : t.cleared.issued = t.issued := rfl

end Cleared

/-- A block with an `api::ErrorScope` of its own. -/
def errorScope (block : Program (Thread σ ρ) α) : Program (Thread σ ρ) α := do
  let a ← block
  Program.step fun t => ((), t.cleared)
  return a

/-- A block with an error scope ends as the block does, without an error. -/
lemma yields_errorScope (block : Program (Thread σ ρ) α) (t t' : Thread σ ρ) (a : α) :
    (errorScope block).Yields t a t' ↔ ∃ s, block.Yields t a s ∧ t' = s.cleared := by
  simp only [errorScope, Program.yields_bind, Program.yields_step, Program.yields_pure]
  constructor
  · rintro ⟨b, s, hb, -, -, ⟨-, rfl⟩, rfl, rfl⟩
    exact ⟨s, hb, rfl⟩
  · rintro ⟨s, hs, rfl⟩
    exact ⟨a, s, hs, (), s.cleared, ⟨trivial, rfl⟩, rfl, rfl⟩

/-! ## Files

`seek`, `read` and `write` of a device file are device calls like any other.  A read hands
back the bytes it delivered, which may be fewer than were asked for. -/

/-- The requests of a file. -/
inductive FileRequest where
  | seek (location : ℤ)
  | read (size : ℕ)
  | write (data : List (BitVec 8))
  deriving DecidableEq

/-- How the device behind a file answers its requests. -/
structure DeviceFile (σ : Type) where
  onSeek : ℤ → σ → ℤ × σ
  onRead : ℕ → σ → (ℤ × List (BitVec 8)) × σ
  onWrite : List (BitVec 8) → σ → ℤ × σ

namespace DeviceFile

/-- `seek(location)` -/
def seek (file : DeviceFile σ) (location : ℤ) : Program (Thread σ FileRequest) Unit :=
  systemCall (.seek location) (file.onSeek location)

/-- `read(view)` of a view of `size` bytes -/
def read (file : DeviceFile σ) (size : ℕ) :
    Program (Thread σ FileRequest) (Option (List (BitVec 8))) :=
  query (.read size) (file.onRead size)

/-- `write(view)` -/
def write (file : DeviceFile σ) (data : List (BitVec 8)) :
    Program (Thread σ FileRequest) Unit :=
  systemCall (.write data) (file.onWrite data)

end DeviceFile

end HalAPI
