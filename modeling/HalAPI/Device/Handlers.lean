import HalAPI.Api.Chain
import HalAPI.Device.Signal
import HalAPI.Foundation.LastAssigned

/-!
# Handlers after many calls

`set_signal_action`, `cancel`, `cancel_read` and `cancel_write` all pass an action record to the
driver, which enters the handler of the record for its events, or removes the handlers if the
record has none (`KeepsHandlers`).  A driver may refuse a record; the error is sticky, and the
calls after it reach nothing.

So an event has the handler that the calls before the first refused one gave it last
(`handlers_after_calls`).  A
cancellation is about the low eight events only, and makes no difference for the others
(`high_handlers_without_cancels`).
-/

namespace HalAPI.DeviceSignal

open Foundation

variable {σ : Type}

/-! ## The code -/

/-- The events of the two cancellations, from the header. -/
structure EventFlags where
  dataReady : BitVec 32
  writeComplete : BitVec 32

section Code

variable (flags : EventFlags) (onSetAction : Action → σ → ℤ × σ)

/-- `DeviceObject::cancel_read_implementation` -/
def cancelRead (channel : BitVec 32) : Program (Thread σ ActionRequest) Unit :=
  cancel onSetAction channel flags.dataReady

/-- `DeviceObject::cancel_write_implementation` -/
def cancelWrite (channel : BitVec 32) : Program (Thread σ ActionRequest) Unit :=
  cancel onSetAction channel flags.writeComplete

/-- A call that enters or removes handlers. -/
inductive HandlerCall where
  | setSignalAction (context : SignalContext) (options : CreateAction)
  | cancel (channel oEvents : BitVec 32)
  | cancelRead (channel : BitVec 32)
  | cancelWrite (channel : BitVec 32)
  deriving DecidableEq

namespace HandlerCall

/-- The program of a call. -/
def program : HandlerCall → Program (Thread σ ActionRequest) Unit
  | setSignalAction context options => DeviceSignal.setSignalAction onSetAction context options
  | cancel channel oEvents => DeviceSignal.cancel onSetAction channel oEvents
  | cancelRead channel => DeviceSignal.cancelRead flags onSetAction channel
  | cancelWrite channel => DeviceSignal.cancelWrite flags onSetAction channel

/-- The action record of a call. -/
def action : HandlerCall → Action
  | setSignalAction context options => createAction context options
  | cancel channel oEvents => cancelAction channel oEvents
  | cancelRead channel => cancelAction channel flags.dataReady
  | cancelWrite channel => cancelAction channel flags.writeComplete

/-- The call enters a handler. -/
def enters : HandlerCall → Bool
  | setSignalAction _ _ => true
  | cancel _ _ => false
  | cancelRead _ => false
  | cancelWrite _ => false

/-- What a call makes the handler of an event on a channel, if it is about it. -/
def assigns (c : HandlerCall) (event : BitVec 8 × Fin 32) : Option (Option SignalContext) :=
  if event ∈ (c.action flags).registrations then some (c.action flags).handler else none

/-- The request of a call. -/
def request (c : HandlerCall) : ActionRequest := .setAction (c.action flags)

/-- The device call of a call. -/
def deviceCall (c : HandlerCall) : DeviceCall σ ActionRequest :=
  ⟨c.request flags, onSetAction (c.action flags)⟩

end HandlerCall

/-- One call after another. -/
def runHandlerCalls : List HandlerCall → Program (Thread σ ActionRequest) Unit
  | [] => pure ()
  | c :: calls => c.program flags onSetAction >>= fun _ => runHandlerCalls calls

/-- Calls are the chain of their device calls. -/
lemma runHandlerCalls_eq_chain (calls : List HandlerCall) :
    runHandlerCalls flags onSetAction calls =
      chain (calls.map (HandlerCall.deviceCall flags onSetAction)) := by
  induction calls with
  | nil => rfl
  | cons c calls ih =>
    rw [runHandlerCalls, ih]
    cases c with
    | setSignalAction context options => rfl
    | cancel channel oEvents => rfl
    | cancelRead channel => rfl
    | cancelWrite channel => rfl

end Code

/-! ## Drivers with handlers -/

/-- A driver that keeps a handler for every event of every channel.  An action that it accepts gives
its handler to its events, or no handler if it has none, and one that it refuses changes no
handler. -/
structure KeepsHandlers (onSetAction : Action → σ → ℤ × σ)
    (handlers : σ → BitVec 8 × Fin 32 → Option SignalContext) : Prop where
  accept : ∀ action d, 0 ≤ (onSetAction action d).1 → ∀ event,
    handlers (onSetAction action d).2 event =
      if event ∈ action.registrations then action.handler else handlers d event
  refuse : ∀ action d, (onSetAction action d).1 < 0 →
    handlers (onSetAction action d).2 = handlers d

section Runs

variable {flags : EventFlags} {onSetAction : Action → σ → ℤ × σ}
  {handlers : σ → BitVec 8 × Fin 32 → Option SignalContext}

/-- A call that is accepted assigns its handler to its events. -/
lemma KeepsHandlers.call_of_accept (h : KeepsHandlers onSetAction handlers) (c : HandlerCall)
    {t : Thread σ ActionRequest} (ht : t.isError = false)
    (haccept : 0 ≤ (onSetAction (c.action flags) t.device).1) (event : BitVec 8 × Fin 32) :
    handlers (t.call (c.deviceCall flags onSetAction)).device event =
      (c.assigns flags event).getD (handlers t.device event) := by
  rw [call_of_no_error ht, Thread.afterCall_device]
  change handlers (onSetAction (c.action flags) t.device).2 event = _
  rw [h.accept _ _ haccept, HandlerCall.assigns]
  split
  · rfl
  · rfl

/-- After a chain of calls the handlers are those that the calls before the first refused one
assigned last. -/
lemma KeepsHandlers.run_call (flags : EventFlags) (h : KeepsHandlers onSetAction handlers)
    (calls : List HandlerCall) {t : Thread σ ActionRequest} (ht : t.isError = false) :
    ∃ accepted, FirstAccepted (HandlerCall.request flags) t
        (run Thread.call t (calls.map (HandlerCall.deviceCall flags onSetAction))) calls accepted ∧
      ∀ event, handlers
          (run Thread.call t (calls.map (HandlerCall.deviceCall flags onSetAction))).device event =
        (lastAssigned (HandlerCall.assigns flags) event accepted).getD (handlers t.device event) := by
  induction calls generalizing t with
  | nil => exact ⟨[], firstAccepted_nil _ ht, fun _ => rfl⟩
  | cons c calls ih =>
    rw [List.map_cons, run_cons]
    rcases le_or_gt 0 (onSetAction (c.action flags) t.device).1 with haccept | hrefuse
    · have hgoes : (t.call (c.deviceCall flags onSetAction)).isError = false := by
        rw [call_of_no_error ht]
        exact decide_eq_false (not_lt.mpr haccept)
      obtain ⟨accepted, hfirst, hlast⟩ := ih hgoes
      refine ⟨c :: accepted, ?_, fun event => ?_⟩
      · rw [call_of_no_error ht] at hfirst ⊢
        exact hfirst.cons haccept
      · rw [hlast event, h.call_of_accept c ht haccept, lastAssigned_cons]
        cases lastAssigned (HandlerCall.assigns flags) event accepted with
        | none => rfl
        | some handler => rfl
    · have hstops : (t.call (c.deviceCall flags onSetAction)).isError = true := by
        rw [call_of_no_error ht]
        exact decide_eq_true hrefuse
      rw [run_call_of_error hstops, call_of_no_error ht]
      refine ⟨[], firstAccepted_of_refuse _ hrefuse c calls _, fun event => ?_⟩
      rw [Thread.afterCall_device]
      exact congrFun (h.refuse _ _ hrefuse) event

/-- The last call counts.  After any calls of `set_signal_action`, `cancel`, `cancel_read` and
`cancel_write` the handler of each event on each channel is the one that the calls gave it last, or
was removed if a cancellation came last, or is as it was if none was about it.  The calls that count
are those before the first refused one, as the log of the driver's answers shows: all of them if no
error is set in the end. -/
theorem handlers_after_calls (flags : EventFlags) (h : KeepsHandlers onSetAction handlers)
    (calls : List HandlerCall) (d : σ) :
    ∃ t' accepted, (runHandlerCalls flags onSetAction calls).Yields (Thread.start d) () t' ∧
      FirstAccepted (HandlerCall.request flags) (Thread.start d) t' calls accepted ∧
      ∀ event, handlers t'.device event =
        (lastAssigned (HandlerCall.assigns flags) event accepted).getD (handlers d event) := by
  obtain ⟨accepted, hfirst, hlast⟩ := h.run_call flags calls (Thread.start_isError d)
  refine ⟨_, accepted, ?_, hfirst, hlast⟩
  rw [runHandlerCalls_eq_chain]
  exact (yields_chain _ _ _).mpr rfl

/-- A driver that accepts every action. -/
def handlerDriver (action : Action) (handlers : BitVec 8 × Fin 32 → Option SignalContext) :
    ℤ × (BitVec 8 × Fin 32 → Option SignalContext) :=
  (0, fun event => if event ∈ action.registrations then action.handler else handlers event)

/-- It keeps handlers. -/
lemma keepsHandlers_handlerDriver : KeepsHandlers handlerDriver id where
  accept _ _ _ _ := rfl
  refuse _ _ hneg := absurd hneg (by simp [handlerDriver])

/-- A driver that refuses the actions of channel 7 and accepts all others. -/
def sevenRefused (action : Action) (handlers : BitVec 8 × Fin 32 → Option SignalContext) :
    ℤ × (BitVec 8 × Fin 32 → Option SignalContext) :=
  if action.channel = 7 then (-1, handlers) else handlerDriver action handlers

/-- It keeps handlers, too. -/
lemma keepsHandlers_sevenRefused : KeepsHandlers sevenRefused id where
  accept action d haccept event := by
    have hother : action.channel ≠ 7 := fun h => absurd haccept (by simp [sevenRefused, h])
    rw [sevenRefused, if_neg hother]
    rfl
  refuse action d hrefuse := by
    have hseven : action.channel = 7 := by
      by_contra hother
      rw [sevenRefused, if_neg hother] at hrefuse
      exact absurd hrefuse (by simp [handlerDriver])
    rw [sevenRefused, if_pos hseven]

/-- Calls on several channels, the third of which is on channel 7. -/
def refusedThird : List HandlerCall :=
  [.setSignalAction someContext { oEvents := 0x101, channel := 3 }, .cancelRead 3, .cancelWrite 7,
    .cancel 3 0xFF, .setSignalAction someContext { oEvents := 2, channel := 3 }]

/-- Two events of channel 3 get a handler, and the handler of the first one is removed.  The third
call is refused, and those after it count no more. -/
theorem handlers_after_calls_refused :
    ∃ t' accepted, (runHandlerCalls ⟨1, 2⟩ sevenRefused refusedThird).Yields
        (Thread.start fun _ => none) () t' ∧
      t'.isError = true ∧ accepted = refusedThird.take 2 ∧
      t'.device (3, 0) = none ∧ t'.device (3, 1) = none ∧ t'.device (3, 8) = some someContext := by
  obtain ⟨t', accepted, hy, hfirst, hlast⟩ := handlers_after_calls ⟨1, 2⟩
    keepsHandlers_sevenRefused refusedThird (fun _ => none)
  have hend : t'.isError = true ∧ t'.issued.length = 3 := by
    obtain ⟨-, rfl⟩ := hy.unique ⟨0, rfl⟩
    exact ⟨rfl, rfl⟩
  obtain rfl : accepted = refusedThird.take 2 := by
    rw [hfirst.eq_take_of_error hend.1, hend.2]
    rfl
  exact ⟨t', _, hy, hend.1, rfl, (hlast (3, 0)).trans (by decide), (hlast (3, 1)).trans (by decide),
    (hlast (3, 8)).trans (by decide)⟩

/-! ## Cancellations and high events -/

/-- A cancellation is about none of the events from the eighth on. -/
lemma assigns_of_high (flags : EventFlags) {c : HandlerCall} (hc : c.enters = false)
    (channel : BitVec 8) {k : Fin 32} (hk : 8 ≤ k.val) : c.assigns flags (channel, k) = none := by
  have hcancel : ∀ number oEvents : BitVec 32,
      (channel, k) ∉ (cancelAction number oEvents).registrations := by
    intro number oEvents hmem
    have hlow := ((mem_registrations_cancelAction _ _ _ _).mp hmem).2.2
    omega
  cases c with
  | setSignalAction context options => exact absurd hc (by simp [HandlerCall.enters])
  | cancel number oEvents => exact if_neg (hcancel _ _)
  | cancelRead number => exact if_neg (hcancel _ _)
  | cancelWrite number => exact if_neg (hcancel _ _)

/-- Calls that a driver accepts assign the handlers they are given last. -/
lemma KeepsHandlers.yields_of_serves (flags : EventFlags) (h : KeepsHandlers onSetAction handlers)
    (hserves : ∀ action d, 0 ≤ (onSetAction action d).1) (calls : List HandlerCall) (d : σ) :
    ∃ t', (runHandlerCalls flags onSetAction calls).Yields (Thread.start d) () t' ∧
      ∀ event, handlers t'.device event =
        (lastAssigned (HandlerCall.assigns flags) event calls).getD (handlers d event) := by
  have hcalls : ∀ c ∈ calls.map (HandlerCall.deviceCall flags onSetAction),
      ∀ d, 0 ≤ (c.serve d).1 :=
    List.forall_mem_map.mpr fun c _ => hserves (c.action flags)
  have hend := run_call_of_serves (Thread.start_isError d) hcalls
  obtain ⟨accepted, hfirst, hlast⟩ := h.run_call flags calls (Thread.start_isError d)
  obtain rfl := hfirst.eq_of_no_error hend
  rw [runHandlerCalls_eq_chain]
  exact ⟨_, (yields_chain _ _ _).mpr rfl, hlast⟩

/-- Cancellations cannot remove the handlers of high events.  If a driver accepts every action, then
after any calls the events from the eighth on have, on every channel, the handlers they would
have without all the cancellations among the calls. -/
theorem high_handlers_without_cancels (flags : EventFlags)
    (h : KeepsHandlers onSetAction handlers)
    (hserves : ∀ action d, 0 ≤ (onSetAction action d).1) (calls : List HandlerCall) (d : σ) :
    ∃ t t', (runHandlerCalls flags onSetAction calls).Yields (Thread.start d) () t ∧
      (runHandlerCalls flags onSetAction (calls.filter HandlerCall.enters)).Yields
        (Thread.start d) () t' ∧
      ∀ channel k, 8 ≤ k.val →
        handlers t.device (channel, k) = handlers t'.device (channel, k) := by
  obtain ⟨t, hy, hlast⟩ := h.yields_of_serves flags hserves calls d
  obtain ⟨t', hy', hlast'⟩ :=
    h.yields_of_serves flags hserves (calls.filter HandlerCall.enters) d
  refine ⟨t, t', hy, hy', fun channel k hk => ?_⟩
  rw [hlast, hlast', lastAssigned_filter]
  exact fun c _ hc => assigns_of_high flags hc channel hk

/-- A cancellation with all its bits set between two registrations. -/
theorem high_handlers_without_cancels_of_all :
    ∃ t t', (runHandlerCalls ⟨1, 2⟩ handlerDriver
        [.setSignalAction someContext { oEvents := 0x101, channel := 3 }, .cancel 3 0xFFFFFFFF,
          .setSignalAction someContext { oEvents := 1, channel := 4 }]).Yields
            (Thread.start fun _ => none) () t ∧
      (runHandlerCalls ⟨1, 2⟩ handlerDriver
        [.setSignalAction someContext { oEvents := 0x101, channel := 3 },
          .setSignalAction someContext { oEvents := 1, channel := 4 }]).Yields
            (Thread.start fun _ => none) () t' ∧
      t.device (3, 8) = t'.device (3, 8) := by
  obtain ⟨t, t', hy, hy', hhigh⟩ := high_handlers_without_cancels ⟨1, 2⟩
    keepsHandlers_handlerDriver (fun _ _ => le_rfl)
    [.setSignalAction someContext { oEvents := 0x101, channel := 3 }, .cancel 3 0xFFFFFFFF,
      .setSignalAction someContext { oEvents := 1, channel := 4 }] (fun _ => none)
  exact ⟨t, t', hy, hy', hhigh 3 8 (by decide)⟩

end Runs

end HalAPI.DeviceSignal
