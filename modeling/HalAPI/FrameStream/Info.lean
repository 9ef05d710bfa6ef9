import HalAPI.Foundation.Runs

/-!
# `FrameStream::Info`

A `FrameStream::Info` holds the record the driver filled in, and next to it a pointer to
each of the two channels of that record.  The constructors let the pointers point into the
object they construct.  The copy operations are the implicit ones, and they copy the
pointers as they copy the record.

The objects live in a store, under identities that are free again once an object is
destroyed.  `SelfContained` says that every live object refers to its own record, and
`infos_selfContained_iff` that a run keeps it so exactly if it copies no object to
another.
-/

namespace HalAPI.FrameStream

open Foundation

/-! ## Objects -/

/-- `ffifo_info_t` -/
structure FifoRecord where
  frameCount : BitVec 16
  frameSize : BitVec 16
  frameCountReady : BitVec 16
  oFlags : BitVec 32
  deriving DecidableEq

/-- `stream_ffifo_channel_info_t` -/
structure ChannelRecord where
  ffifo : FifoRecord
  accessCount : BitVec 32
  error : BitVec 32
  deriving DecidableEq

/-- `stream_ffifo_info_t` -/
structure Record where
  oFlags : BitVec 32
  oStatus : BitVec 32
  rx : ChannelRecord
  tx : ChannelRecord
  deriving DecidableEq

/-- The members of a record that a `ChannelInfo` can point to. -/
inductive Channel where
  | rx
  | tx
  deriving DecidableEq

/-- The channel of a record. -/
def Record.channel (record : Record) : Channel → ChannelRecord
  | .rx => record.rx
  | .tx => record.tx

/-- `FrameStream::ChannelInfo`: a pointer to a channel of the record of some object -/
structure ChannelInfo (ι : Type) where
  object : ι
  channel : Channel
  deriving DecidableEq

/-- `FrameStream::Info` -/
structure Info (ι : Type) where
  info : Record
  receive : ChannelInfo ι
  transmit : ChannelInfo ι
  deriving DecidableEq

/-- The live objects by their identities. -/
abbrev Store (ι : Type) : Type := ι → Option (Info ι)

variable {ι : Type}

/-- The store without a live object. -/
def Store.empty : Store ι := fun _ => none

/-- `Info::Info(info)` for the object `x` -/
def Info.construct (x : ι) (record : Record) : Info ι where
  info := record
  receive := ⟨x, .rx⟩
  transmit := ⟨x, .tx⟩

/-- The implicit copy, member by member. -/
def Info.copy (o : Info ι) : Info ι where
  info := o.info
  receive := o.receive
  transmit := o.transmit

/-! ### Reading through the pointers -/

/-- The channel a pointer points to, if its object is live. -/
def ChannelInfo.read (c : ChannelInfo ι) (store : Store ι) : Option ChannelRecord :=
  (store c.object).map fun o => o.info.channel c.channel

/-- A channel that is in use. -/
def ChannelRecord.isValid (record : ChannelRecord) : Bool := record.ffifo.frameCount != 0

/-- `ChannelInfo::is_valid` -/
def ChannelInfo.isValid (c : ChannelInfo ι) (store : Store ι) : Option Bool :=
  (c.read store).map ChannelRecord.isValid

/-- `Info::is_valid`, which looks at the second channel if the first is not in use -/
def Info.isValid (o : Info ι) (store : Store ι) : Option Bool := do
  if ← o.receive.isValid store then return true
  o.transmit.isValid store

/-! ## Commands -/

/-- What a program does with objects: it constructs one from a record, constructs one as a
copy, assigns one to another, overwrites the record through `operator stream_ffifo_info_t &`,
and destroys one. -/
inductive Command (ι : Type) where
  | construct (x : ι) (record : Record)
  | copyConstruct (x y : ι)
  | assign (x y : ι)
  | write (x : ι) (record : Record)
  | destroy (x : ι)

/-- A program constructs an object where none is live, and works with live objects only. -/
def Admitted (store : Store ι) : Command ι → Prop
  | .construct x _ => store x = none
  | .copyConstruct x y => store x = none ∧ (store y).isSome
  | .assign x y => (store x).isSome ∧ (store y).isSome
  | .write x _ => (store x).isSome
  | .destroy x => (store x).isSome

section Step

variable [DecidableEq ι]

/-- The store after a command. -/
def step (store : Store ι) : Command ι → Store ι
  | .construct x record => Function.update store x (some (Info.construct x record))
  | .copyConstruct x y => Function.update store x ((store y).map Info.copy)
  | .assign x y => Function.update store x ((store y).map Info.copy)
  | .write x record =>
    Function.update store x ((store x).map fun o => { o with info := record })
  | .destroy x => Function.update store x none

end Step

/-! ## Self-contained objects -/

/-- An object refers to its own record. -/
def Info.IsOwn (x : ι) (o : Info ι) : Prop := o.receive = ⟨x, .rx⟩ ∧ o.transmit = ⟨x, .tx⟩

/-- Every live object refers to its own record. -/
def SelfContained (store : Store ι) : Prop := ∀ x o, store x = some o → o.IsOwn x

/-- The accessors of every live object agree with its record. -/
def Agrees (store : Store ι) : Prop :=
  ∀ x o, store x = some o →
    o.receive.read store = some o.info.rx ∧ o.transmit.read store = some o.info.tx ∧
      o.isValid store = some (o.info.rx.isValid || o.info.tx.isValid)

/-- The command copies no object to another. -/
def Command.IsLocal : Command ι → Prop
  | .copyConstruct _ _ => False
  | .assign x y => x = y
  | _ => True

/-- In a store of self-contained objects the accessors agree with the records. -/
lemma SelfContained.agrees {store : Store ι} (h : SelfContained store) : Agrees store := by
  intro x o hx
  obtain ⟨hrx, htx⟩ := h x o hx
  have hread_rx : o.receive.read store = some o.info.rx := by
    simp [ChannelInfo.read, hrx, hx, Record.channel]
  have hread_tx : o.transmit.read store = some o.info.tx := by
    simp [ChannelInfo.read, htx, hx, Record.channel]
  refine ⟨hread_rx, hread_tx, ?_⟩
  cases hvalid : o.info.rx.isValid with
  | true => simp [Info.isValid, ChannelInfo.isValid, hread_rx, hvalid]
  | false => simp [Info.isValid, ChannelInfo.isValid, hread_rx, hread_tx, hvalid]

/-- An object refers to the record of one object at most. -/
lemma Info.IsOwn.eq {x y : ι} {o : Info ι} (hx : o.IsOwn x) (hy : o.IsOwn y) : x = y := by
  have hobject : (⟨x, .rx⟩ : ChannelInfo ι) = ⟨y, .rx⟩ := hx.1.symm.trans hy.1
  exact congrArg ChannelInfo.object hobject

/-- A copy of a live object refers to its own record exactly if it takes the object's
place. -/
lemma forall_copy_isOwn_iff {store : Store ι} (h : SelfContained store) {x y : ι}
    (hy : (store y).isSome) : (∀ o ∈ (store y).map Info.copy, o.IsOwn x) ↔ x = y := by
  obtain ⟨o, ho⟩ := Option.isSome_iff_exists.mp hy
  have hown : o.IsOwn y := h y o ho
  rw [ho]
  constructor
  · intro hcopy
    exact (hcopy o.copy rfl).eq hown
  · rintro rfl o' ho'
    obtain rfl : o.copy = o' := by simpa using ho'
    exact hown

section Step

variable [DecidableEq ι]

/-- Replacing one object keeps a store self-contained exactly if the new object refers to its own
record. -/
lemma selfContained_update_iff {store : Store ι} (h : SelfContained store) (x : ι)
    (o : Option (Info ι)) :
    SelfContained (Function.update store x o) ↔ ∀ o' ∈ o, o'.IsOwn x := by
  constructor
  · intro h' o' ho'
    exact h' x o' (by rw [Function.update_self]; exact ho')
  · intro hown y o' ho'
    rcases eq_or_ne y x with rfl | hy
    · rw [Function.update_self] at ho'
      exact hown o' ho'
    · rw [Function.update_of_ne hy] at ho'
      exact h y o' ho'

/-- An admitted command keeps a store self-contained exactly if it copies no object to another. -/
lemma selfContained_step_iff {store : Store ι} (h : SelfContained store) {c : Command ι}
    (hc : Admitted store c) : SelfContained (step store c) ↔ c.IsLocal := by
  cases c with
  | construct x record =>
    rw [step, selfContained_update_iff h]
    simp [Info.construct, Info.IsOwn, Command.IsLocal]
  | copyConstruct x y =>
    rw [step, selfContained_update_iff h, forall_copy_isOwn_iff h hc.2]
    -- the new object takes no live object's place
    have hne : x ≠ y := by
      rintro rfl
      exact absurd hc.2 (by simp [hc.1])
    exact iff_of_false hne id
  | assign x y =>
    rw [step, selfContained_update_iff h, forall_copy_isOwn_iff h hc.2]
    rfl
  | write x record =>
    rw [step, selfContained_update_iff h]
    refine iff_of_true (fun o ho => ?_) trivial
    obtain ⟨o', ho', rfl⟩ := Option.mem_map.mp ho
    exact h x o' ho'
  | destroy x =>
    rw [step, selfContained_update_iff h]
    simp [Command.IsLocal]

/-- When the objects of a program stay self-contained, and with them their accessors right: exactly
if the program never copies an object to another. -/
theorem infos_selfContained_iff (commands : List (Command ι))
    (hadmitted : Along step Admitted .empty commands) :
    Throughout step (fun store => SelfContained store ∧ Agrees store) .empty commands ↔
      ∀ c ∈ commands, c.IsLocal := by
  have hagree : ∀ store : Store ι, SelfContained store ∧ Agrees store ↔ SelfContained store :=
    fun store => ⟨And.left, fun h => ⟨h, h.agrees⟩⟩
  have hstart : SelfContained (.empty : Store ι) :=
    fun x o ho => absurd ho (by simp [Store.empty])
  have hkeep : ∀ (store : Store ι) (c : Command ι), True → Admitted store c → True :=
    fun _ _ _ _ => trivial
  have hstep : ∀ (store : Store ι) (c : Command ι), True → SelfContained store →
      Admitted store c → (SelfContained (step store c) ↔ c.IsLocal) :=
    fun _ _ _ h hc => selfContained_step_iff h hc
  simp only [hagree]
  rw [← along_iff_forall_mem step .empty commands]
  exact throughout_iff_along hkeep hstep trivial hstart hadmitted

end Step

/-! ### Two programs -/

/-- A record of a stream with four frames to receive and none to transmit. -/
def receiveOnly : Record where
  oFlags := 0
  oStatus := 0
  rx := ⟨⟨4, 512, 0, 0⟩, 0, 0⟩
  tx := ⟨⟨0, 0, 0, 0⟩, 0, 0⟩

/-- An object assigned to itself and destroyed, and a new one in its place, are self-contained. -/
theorem infos_selfContained_of_reuse :
    Throughout step (fun store => SelfContained store ∧ Agrees store) (.empty : Store ℕ)
      [.construct 0 receiveOnly, .assign 0 0, .destroy 0, .construct 0 receiveOnly] :=
  (infos_selfContained_iff _ (by simp [Admitted, step, Store.empty])).mpr
    (by simp [Command.IsLocal])

/-- The copy of an object refers to the object's record, and once the object is destroyed, its
`is_valid` reads a record that is gone. -/
theorem infos_copy_of_destroyed :
    Along step Admitted (.empty : Store ℕ)
        [.construct 0 receiveOnly, .copyConstruct 1 0, .destroy 0] ∧
      (∃ o, run step (.empty : Store ℕ)
          [.construct 0 receiveOnly, .copyConstruct 1 0, .destroy 0] 1 = some o ∧
        o.isValid (run step (.empty : Store ℕ)
          [.construct 0 receiveOnly, .copyConstruct 1 0, .destroy 0]) = none) ∧
      ¬ Throughout step (fun store => SelfContained store ∧ Agrees store) (.empty : Store ℕ)
        [.construct 0 receiveOnly, .copyConstruct 1 0, .destroy 0] := by
  refine ⟨by simp [Admitted, step, Store.empty], ⟨Info.construct 0 receiveOnly, rfl, rfl⟩, ?_⟩
  intro h
  obtain ⟨-, hagrees⟩ := h.at_end
  obtain ⟨-, -, hvalid⟩ := hagrees 1 (Info.construct 0 receiveOnly) rfl
  exact absurd hvalid (by decide)

end HalAPI.FrameStream
