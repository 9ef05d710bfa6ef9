import HalAPI.Api.ExecutionContext
import HalAPI.Foundation.BitMask

/-!
# Signal actions and `cancel`

`set_signal_action` and `cancel` both pass an action record to the driver of a device, the first
with a callback and the second without one.  They build the record in two places:
`create_action` takes the events as they are, and `cancel_implementation` casts the channel and
the events to a byte each.

A handler table is the set of the events that have a handler, each on its channel.  An action
with a callback enters its events, and one without removes them.
-/

namespace HalAPI.DeviceSignal

open Foundation

/-! ## Data -/

/-- The context of the callback (`devfs_signal_callback_t`) -/
structure SignalContext where
  tid : ℤ
  siSigno : ℤ
  siSigcode : ℤ
  sigValue : BitVec 32
  keep : Bool
  deriving DecidableEq

/-- `mcu_action_t`.  The handler is the context of the callback; a record built without a handler
has the null callback. -/
structure Action where
  channel : BitVec 8
  prio : BitVec 8 := 0
  oEvents : BitVec 32
  handler : Option SignalContext := none
  deriving DecidableEq

/-- `DeviceSignal::CreateAction` -/
structure CreateAction where
  oEvents : BitVec 32 := 0
  channel : BitVec 8 := 0
  priority : BitVec 32 := 0
  deriving DecidableEq

/-- The requests of a device (`I_MCU_SETACTION`) -/
inductive ActionRequest where
  | setAction (action : Action)
  deriving DecidableEq

/-! ## The code -/

section Code

variable {σ : Type} (onSetAction : Action → σ → ℤ × σ)

/-- `DeviceSignal::create_action` -/
def createAction (context : SignalContext) (options : CreateAction) : Action where
  channel := options.channel
  prio := options.priority.setWidth 8
  oEvents := options.oEvents
  handler := some context

/-- `DeviceObject::set_signal_action_implementation` -/
def setSignalAction (context : SignalContext) (options : CreateAction) :
    Program (Thread σ ActionRequest) Unit :=
  systemCall (.setAction (createAction context options))
    (onSetAction (createAction context options))

/-- The action of `cancel_implementation`: `u8(channel)` and `u8(o_events)`. -/
def cancelAction (channel oEvents : BitVec 32) : Action where
  channel := channel.setWidth 8
  oEvents := (oEvents.setWidth 8).setWidth 32

/-- `DeviceObject::cancel_implementation` -/
def cancel (channel oEvents : BitVec 32) : Program (Thread σ ActionRequest) Unit :=
  systemCall (.setAction (cancelAction channel oEvents))
    (onSetAction (cancelAction channel oEvents))

end Code

/-! ## Handler tables -/

/-- The events that have a handler, each with its channel. -/
abbrev HandlerTable : Type := Finset (BitVec 8 × Fin 32)

/-- The events of an action on its channel. -/
def Action.registrations (action : Action) : HandlerTable := {action.channel} ×ˢ bits action.oEvents

/-- A driver that keeps a handler table. -/
def tableDriver (action : Action) (table : HandlerTable) : ℤ × HandlerTable :=
  (0, if action.handler.isSome then table ∪ action.registrations
    else table \ action.registrations)

section Tables

/-- An action is about the bits of its events on its channel. -/
lemma Action.mem_registrations (action : Action) (c : BitVec 8) (k : Fin 32) :
    (c, k) ∈ action.registrations ↔ c = action.channel ∧ k ∈ bits action.oEvents := by
  rw [Action.registrations, Finset.mem_product, Finset.mem_singleton]

/-- `cancel` is about the low eight bits of its events. -/
lemma mem_registrations_cancelAction (channel oEvents : BitVec 32) (c : BitVec 8) (k : Fin 32) :
    (c, k) ∈ (cancelAction channel oEvents).registrations ↔
      c = channel.setWidth 8 ∧ k ∈ bits oEvents ∧ k.val < 8 := by
  rw [Action.mem_registrations]
  exact and_congr_right fun _ => mem_bits_setWidth 8 oEvents k

/-- What is added and then removed in part is gone exactly if all of it was removed. -/
lemma union_sdiff_eq_self_iff {s added removed : HandlerTable} (hsub : removed ⊆ added)
    (hnew : Disjoint s added) : (s ∪ added) \ removed = s ↔ removed = added := by
  constructor
  · intro h
    refine hsub.antisymm fun r hr => ?_
    by_contra hkept
    have hback : r ∈ s := by
      rw [← h]
      exact Finset.mem_sdiff.mpr ⟨Finset.mem_union_right _ hr, hkept⟩
    exact Finset.disjoint_left.mp hnew hback hr
  · rintro rfl
    exact Finset.union_sdiff_cancel_right hnew

variable (context : SignalContext) (options : CreateAction)

/-- The channel of an action comes back from `int` as it was. -/
lemma setWidth_channel : (options.channel.setWidth 32).setWidth 8 = options.channel := by
  rw [BitVec.setWidth_setWidth (by decide), BitVec.setWidth_eq]

/-- `cancel` asks to remove nothing that `set_signal_action` did not enter. -/
lemma registrations_cancelAction_subset :
    (cancelAction (options.channel.setWidth 32) options.oEvents).registrations ⊆
      (createAction context options).registrations := by
  rintro ⟨c, k⟩ hr
  rw [mem_registrations_cancelAction, setWidth_channel] at hr
  exact (Action.mem_registrations _ c k).mpr ⟨hr.1, hr.2.1⟩

/-- `cancel` asks to remove what `set_signal_action` entered exactly if the events fit into a
byte. -/
lemma registrations_cancelAction_eq_iff :
    (cancelAction (options.channel.setWidth 32) options.oEvents).registrations =
      (createAction context options).registrations ↔ options.oEvents.toNat < 256 := by
  have hbits : bits ((options.oEvents.setWidth 8).setWidth 32) = bits options.oEvents ↔
      options.oEvents.toNat < 256 := bits_setWidth_eq_iff (by decide) options.oEvents
  rw [← hbits]
  simp only [Action.registrations, cancelAction, createAction, setWidth_channel]
  constructor
  · intro h
    ext k
    have hk := Finset.ext_iff.mp h (options.channel, k)
    simpa only [Finset.mem_product, Finset.mem_singleton, true_and] using hk
  · intro h
    rw [h]

end Tables

/-! ## What the calls do to a table -/

section Calls

/-- An action reaches the table unless an error is set. -/
lemma yields_setAction (action : Action) (t : Thread HandlerTable ActionRequest) :
    ∃ t', (systemCall (.setAction action) (tableDriver action)).Yields t () t' ∧
      t'.isError = t.isError ∧
      t'.device = if t.isError then t.device else (tableDriver action t.device).2 := by
  cases he : t.isError with
  | true => exact ⟨t, (yields_systemCall_of_error he _ _).mpr rfl, he, by simp⟩
  | false => exact ⟨_, (yields_systemCall he _ _).mpr rfl, by simp [tableDriver], by simp⟩

/-- `set_signal_action` and `cancel` for the same channel and events, one after the other. -/
lemma yields_setSignalAction_cancel (context : SignalContext) (options : CreateAction)
    (t : Thread HandlerTable ActionRequest) :
    ∃ t', (do
        setSignalAction tableDriver context options
        cancel tableDriver (options.channel.setWidth 32) options.oEvents).Yields t () t' ∧
      t'.device = if t.isError then t.device
        else (t.device ∪ (createAction context options).registrations) \
          (cancelAction (options.channel.setWidth 32) options.oEvents).registrations := by
  obtain ⟨s, hset, hse, hsd⟩ := yields_setAction (createAction context options) t
  obtain ⟨t', hcancel, -, htd⟩ :=
    yields_setAction (cancelAction (options.channel.setWidth 32) options.oEvents) s
  refine ⟨t', hset.bind hcancel, ?_⟩
  rw [htd, hse, hsd]
  cases t.isError with
  | true => rfl
  | false => rfl

/-- Every removed registration is on the channel and an event that were passed, exactly if the
channel is that of a device or nothing is registered where it is cast to. -/
lemma removes_passed_iff (channel oEvents : BitVec 32) (table : HandlerTable) :
    (∀ c k, (c, k) ∈ table → (c, k) ∉ table \ (cancelAction channel oEvents).registrations →
        (c.toNat : ℤ) = channel.toInt ∧ k ∈ bits oEvents) ↔
      (0 ≤ channel.toInt ∧ channel.toInt < 256) ∨
        ∀ k ∈ bits oEvents, k.val < 8 → (channel.setWidth 8, k) ∉ table := by
  have hcast : ((channel.setWidth 8).toNat : ℤ) = channel.toInt ↔
      0 ≤ channel.toInt ∧ channel.toInt < 256 := by
    rw [BitVec.toNat_setWidth, BitVec.toInt_eq_toNat_cond]
    have hlt := channel.isLt
    split <;> omega
  rw [← hcast]
  constructor
  · intro h
    by_cases hfree : ∀ k ∈ bits oEvents, k.val < 8 → (channel.setWidth 8, k) ∉ table
    · exact Or.inr hfree
    · push Not at hfree
      obtain ⟨k, hk, hlow, hmem⟩ := hfree
      have hgone : (channel.setWidth 8, k) ∉ table \ (cancelAction channel oEvents).registrations :=
        fun hkept => (Finset.mem_sdiff.mp hkept).2
          ((mem_registrations_cancelAction _ _ _ k).mpr ⟨rfl, hk, hlow⟩)
      exact Or.inl (h _ k hmem hgone).1
  · intro h c k hmem hgone
    have hremoved : (c, k) ∈ (cancelAction channel oEvents).registrations := by
      by_contra hkept
      exact hgone (Finset.mem_sdiff.mpr ⟨hmem, hkept⟩)
    obtain ⟨rfl, hk, hlow⟩ := (mem_registrations_cancelAction _ _ c k).mp hremoved
    rcases h with hchannel | hfree
    · exact ⟨hchannel, hk⟩
    · exact absurd hmem (hfree k hk hlow)

end Calls

/-- When `cancel` undoes `set_signal_action`, and when it leaves the other registrations alone.  A
call made while an error is set is skipped.  Otherwise the pair restores the table exactly if the
events fit into a byte, and `cancel` removes a registration on another channel exactly if the
channel does not fit into a byte and one of the low eight events is registered on the channel it
is cast to. -/
theorem cancel_undoes_iff (t : Thread HandlerTable ActionRequest) :
    (∀ (context : SignalContext) (options : CreateAction),
      (∀ k ∈ bits options.oEvents, (options.channel, k) ∉ t.device) →
      ∃ t', (do
          setSignalAction tableDriver context options
          cancel tableDriver (options.channel.setWidth 32) options.oEvents).Yields t () t' ∧
        (t'.device = t.device ↔ t.isError = true ∨ options.oEvents.toNat < 256)) ∧
    ∀ channel oEvents : BitVec 32,
      ∃ t', (cancel tableDriver channel oEvents).Yields t () t' ∧
        ((∀ c k, (c, k) ∈ t.device → (c, k) ∉ t'.device →
            (c.toNat : ℤ) = channel.toInt ∧ k ∈ bits oEvents) ↔
          t.isError = true ∨ (0 ≤ channel.toInt ∧ channel.toInt < 256) ∨
            ∀ k ∈ bits oEvents, k.val < 8 → (channel.setWidth 8, k) ∉ t.device) := by
  constructor
  · intro context options hfree
    obtain ⟨t', hy, hd⟩ := yields_setSignalAction_cancel context options t
    refine ⟨t', hy, ?_⟩
    have hnew : Disjoint t.device (createAction context options).registrations := by
      refine Finset.disjoint_left.mpr ?_
      rintro ⟨c, k⟩ hmem hr
      obtain ⟨rfl, hk⟩ := (Action.mem_registrations _ c k).mp hr
      exact hfree k hk hmem
    cases he : t.isError with
    | true => simp [hd, he]
    | false =>
      rw [hd, he, if_neg (by simp), union_sdiff_eq_self_iff
        (registrations_cancelAction_subset context options) hnew,
        registrations_cancelAction_eq_iff]
      simp
  · intro channel oEvents
    obtain ⟨t', hy, -, hd⟩ := yields_setAction (cancelAction channel oEvents) t
    refine ⟨t', hy, ?_⟩
    cases he : t.isError with
    | true =>
      rw [hd, he, if_pos rfl]
      exact ⟨fun _ => Or.inl rfl, fun _ c k hmem hgone => absurd hmem hgone⟩
    | false =>
      rw [hd, he, if_neg (by simp)]
      simp only [Bool.false_eq_true, false_or]
      exact removes_passed_iff channel oEvents t.device

/-! ### Some actions -/

/-- The context of a signal that stays registered. -/
def someContext : SignalContext where
  tid := 2
  siSigno := 16
  siSigcode := 0
  sigValue := 0
  keep := true

/-- The lowest event of channel 3 comes and goes, and `cancel` for channel 1 leaves the same event
of channel 3 registered. -/
theorem cancel_undoes_lowest :
    (∃ t', (do
        setSignalAction tableDriver someContext { oEvents := 1, channel := 3 }
        cancel tableDriver 3 1).Yields (Thread.start ∅) () t' ∧ t'.device = ∅) ∧
      ∃ t', (cancel tableDriver 1 1).Yields (Thread.start {(3, 0)}) () t' ∧
        ∀ c k, (c, k) ∈ ({(3, 0)} : HandlerTable) → (c, k) ∉ t'.device →
          (c.toNat : ℤ) = (1 : BitVec 32).toInt ∧ k ∈ bits (1 : BitVec 32) := by
  constructor
  · obtain ⟨t', hy, hiff⟩ := (cancel_undoes_iff (Thread.start ∅)).1 someContext
      { oEvents := 1, channel := 3 } (by simp)
    exact ⟨t', hy, hiff.mpr (Or.inr (by decide))⟩
  · obtain ⟨t', hy, hiff⟩ := (cancel_undoes_iff (Thread.start {(3, 0)})).2 1 1
    exact ⟨t', hy, hiff.mpr (Or.inr (Or.inl (by decide)))⟩

/-- The event with the mask `0x100` stays registered on channel 3, and `cancel` for the channel 256
removes the lowest event of channel 0. -/
theorem cancel_keeps_ninth :
    (∃ t', (do
        setSignalAction tableDriver someContext { oEvents := 0x100, channel := 3 }
        cancel tableDriver 3 0x100).Yields (Thread.start ∅) () t' ∧ t'.device = {(3, 8)}) ∧
      ∃ t', (cancel tableDriver 256 1).Yields (Thread.start {(0, 0)}) () t' ∧ t'.device = ∅ := by
  constructor
  · obtain ⟨t', hy, hd⟩ :=
      yields_setSignalAction_cancel someContext { oEvents := 0x100, channel := 3 } (Thread.start ∅)
    exact ⟨t', hy, hd.trans (by decide)⟩
  · obtain ⟨t', hy, -, hd⟩ := yields_setAction (cancelAction 256 1) (Thread.start {(0, 0)})
    exact ⟨t', hy, hd.trans (by decide)⟩

end HalAPI.DeviceSignal
