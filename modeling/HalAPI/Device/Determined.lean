import HalAPI.Device.Attributes

/-!
# What the memory of a record does

The record that `set_attributes` passes to the driver is built in memory that holds anything.  This
file compares two runs that differ in the former content of that memory only.

An initialiser, or a constructor that assigns the whole record, makes them the same.
`Adc::Attributes` has neither: its constructor fills in the pins, and every other member is what the
memory held until a setter assigns it (`determined_iff`).
-/

namespace HalAPI

open Foundation Program

/-! ## Builders -/

namespace Builder

variable (b : Builder)

/-- After the calls of setters, `set_attributes` is the same for every content of the memory, for
every driver in every thread. -/
def Determined (setters : List b.Setter) : Prop :=
  ∀ (σ : Type) (onSetAttributes : b.Record → σ → ℤ × σ) (t : Thread σ b.Record),
    Oblivious (fun memory => b.setAttributes onSetAttributes (b.built memory setters)) t

/-- `set_attributes` is the same exactly if the record that is passed is. -/
lemma determined_iff_built_eq (setters : List b.Setter) :
    b.Determined setters ↔ ∀ m m', b.built m setters = b.built m' setters := by
  constructor
  · intro h m m'
    let onSetAttributes : b.Record → Unit → ℤ × Unit := fun _ d => (0, d)
    have hsame := (oblivious_iff_of_endsAtOnce fun memory =>
      endsAtOnce_systemCall (Thread.start ()) (b.built memory setters)
        (onSetAttributes (b.built memory setters))).mp (h Unit onSetAttributes (Thread.start ()))
    have hissued := congrArg Thread.issued (hsame m m').2
    rw [Thread.called_of_no_error _ rfl, Thread.called_of_no_error _ rfl, Thread.afterCall_issued,
      Thread.afterCall_issued] at hissued
    exact congrArg Prod.fst (List.cons.inj hissued).1
  · intro h σ onSetAttributes t m m' n
    simp only [h m m']

/-- If the construction does not depend on the memory, no sequence of setters does. -/
lemma determined_of_construct (h : ∀ m m', b.construct m = b.construct m')
    (setters : List b.Setter) : b.Determined setters := by
  rw [determined_iff_built_eq]
  intro m m'
  rw [built, built, h m m']

end Builder

/-- Every builder but that of `Adc` has an initialiser, or a constructor that assigns the whole
record. -/
lemma construct_eq_of_ne_adc (headers : Headers) {c : DeviceClass} (hc : c ≠ .adc)
    (m m' : (builder headers c).Record) :
    (builder headers c).construct m = (builder headers c).construct m' := by
  cases c with
  | adc => exact absurd rfl hc
  | _ => rfl

/-! ## `Adc::Attributes` -/

namespace Adc

/-- The members of `adc_attr_t`, and what else is in it. -/
inductive Field where
  | oFlags
  | pin (i : Fin 4)
  | freq
  | trigger
  | channel
  | width
  | channelCount
  | rank
  | samplingTime
  | rest

/-- The type of a member. -/
abbrev Field.Value (ρ : Type) : Field → Type
  | .oFlags => BitVec 32
  | .pin _ => I2C.McuPin
  | .freq => BitVec 32
  | .trigger => I2C.McuPin
  | .channel => BitVec 16
  | .width => BitVec 8
  | .channelCount => BitVec 8
  | .rank => BitVec 32
  | .samplingTime => BitVec 32
  | .rest => ρ

variable {ρ : Type} (headers : Headers)

/-- The value of a member. -/
def Attr.get : (f : Field) → Attr ρ → f.Value ρ
  | .oFlags, a => a.oFlags
  | .pin i, a => a.pinAssignment i
  | .freq, a => a.freq
  | .trigger, a => a.trigger
  | .channel, a => a.channel
  | .width, a => a.width
  | .channelCount, a => a.channelCount
  | .rank, a => a.rank
  | .samplingTime, a => a.samplingTime
  | .rest, a => a.rest

/-- A setter assigns a member. -/
def Setter.sets : Setter → Field → Prop
  | .setFlags _, f => f = .oFlags
  | .setGroupChannel options, f =>
    f = .oFlags ∨ f = .channel ∨ f = .rank ∨ f = .samplingTime ∨
      (f = .pin channel0 ∧ options.pin.port ≠ 0xFF)
  | .setWidth _, f => f = .width
  | .setFrequency _, f => f = .freq
  | .setTrigger _, f => f = .trigger
  | .setChannelCount _, f => f = .channelCount
  | .setChannel _, f => f = .channel
  | .setRank _, f => f = .rank
  | .setSamplingTime _, f => f = .samplingTime
  | .setPin i _, f => f = .pin i

/-- No setter assigns what else is in the record. -/
lemma not_sets_rest (setter : Setter) : ¬ setter.sets .rest := by
  cases setter <;> simp [Setter.sets]

/-- The constructor leaves a member as the memory was. -/
def Field.leftOpen : Field → Prop
  | .pin _ => False
  | .rest => False
  | _ => True

/-- Two records are the same if their members are. -/
lemma Attr.ext_get {a a' : Attr ρ} (h : ∀ f, a.get f = a'.get f) : a = a' := by
  have hpins : a.pinAssignment = a'.pinAssignment := funext fun i => h (.pin i)
  cases a
  cases a'
  simp only [Attr.mk.injEq]
  exact ⟨h .oFlags, hpins, h .freq, h .trigger, h .channel, h .width, h .channelCount, h .rank,
    h .samplingTime, h .rest⟩

/-- What `set_group_channel` does, member by member. -/
lemma setGroupChannel_eq (a : Attr ρ) (options : SetGroupChannel) :
    setGroupChannel headers a options =
      { a with
        oFlags := headers.flag .adcSetChannels ||| headers.flag .adcIsGroup
        pinAssignment :=
          if options.pin.port ≠ 0xFF then Function.update a.pinAssignment channel0 options.pin
          else a.pinAssignment
        channel := options.channel
        rank := options.rank
        samplingTime := options.samplingTime } := by
  unfold setGroupChannel
  by_cases hport : options.pin.port ≠ 0xFF
  · simp only [if_pos hport, Attr.assign]
  · simp only [if_neg hport]

/-- A setter assigns members to values of its own and leaves the others as they are. -/
lemma setsOrKeeps_apply : SetsOrKeeps (apply headers) (@Attr.get ρ) Setter.sets where
  set setter f hsets a a' := by
    cases setter with
    | setGroupChannel options =>
      rw [apply, apply, setGroupChannel_eq, setGroupChannel_eq]
      rcases hsets with rfl | rfl | rfl | rfl | ⟨rfl, hport⟩
      · rfl
      · rfl
      · rfl
      · rfl
      · simp only [Attr.get, if_pos hport, Function.update_self]
    | setPin i value =>
      obtain rfl : f = .pin i := hsets
      simp only [Attr.get, apply, Attr.assign, Function.update_self]
    | _ =>
      cases hsets
      rfl
  keep setter f hnot a := by
    cases setter with
    | setGroupChannel options =>
      rw [apply, setGroupChannel_eq]
      cases f with
      | pin i =>
        by_cases hport : options.pin.port ≠ 0xFF
        · have hi : i ≠ channel0 := by
            rintro rfl
            exact hnot (Or.inr (Or.inr (Or.inr (Or.inr ⟨rfl, hport⟩))))
          simp only [Attr.get, if_pos hport, Function.update_of_ne hi]
        · simp only [Attr.get, if_neg hport]
      | oFlags | channel | rank | samplingTime => exact absurd (by simp [Setter.sets]) hnot
      | _ => rfl
    | setPin i value =>
      cases f with
      | pin j =>
        have hj : j ≠ i := fun h => hnot (congrArg Field.pin h)
        simp only [Attr.get, apply, Attr.assign, Function.update_of_ne hj]
      | _ => rfl
    | _ => cases f <;> first | rfl | exact absurd rfl hnot

/-- Two runs build the same record exactly if every member is assigned by some setter or is the same
after the construction. -/
lemma built_eq_iff (setters : List Setter) (m m' : Attr (headers.Rest .adc)) :
    (attributes headers).built m setters = (attributes headers).built m' setters ↔
      ∀ f, (∃ setter ∈ setters, setter.sets f) ∨
        Attr.get f ((attributes headers).construct m) =
          Attr.get f ((attributes headers).construct m') := by
  have hget := fun f => (setsOrKeeps_apply headers).run_eq_iff f setters
    ((attributes headers).construct m) ((attributes headers).construct m')
  constructor
  · intro h f
    exact (hget f).mp (congrArg (Attr.get f) h)
  · intro h
    exact Attr.ext_get fun f => (hget f).mpr (h f)

/-- The constructor leaves the members that are left open as the memory was. -/
lemma get_construct_of_leftOpen {f : Field} (hf : f.leftOpen) (m : Attr (headers.Rest .adc)) :
    Attr.get f ((attributes headers).construct m) = Attr.get f m := by
  cases f with
  | pin i => exact hf.elim
  | rest => exact hf.elim
  | _ => rfl

/-- A memory in which every member is the same number, apart from what else is in the record. -/
def memoryOf (x : ℕ) (rest : ρ) : Attr ρ where
  oFlags := BitVec.ofNat 32 x
  pinAssignment _ := ⟨BitVec.ofNat 8 x, BitVec.ofNat 8 x⟩
  freq := BitVec.ofNat 32 x
  trigger := ⟨BitVec.ofNat 8 x, BitVec.ofNat 8 x⟩
  channel := BitVec.ofNat 16 x
  width := BitVec.ofNat 8 x
  channelCount := BitVec.ofNat 8 x
  rank := BitVec.ofNat 32 x
  samplingTime := BitVec.ofNat 32 x
  rest := rest

/-- The members that are left open differ in two memories. -/
lemma get_memoryOf_ne {f : Field} (hf : f.leftOpen) (rest : ρ) :
    Attr.get f (memoryOf 0 rest) ≠ Attr.get f (memoryOf 1 rest) := by
  cases f with
  | pin i => exact hf.elim
  | rest => exact hf.elim
  | oFlags | freq | rank | samplingTime => exact (by decide : 0#32 ≠ 1#32)
  | channel => exact (by decide : 0#16 ≠ 1#16)
  | width | channelCount => exact (by decide : 0#8 ≠ 1#8)
  | trigger => exact (by decide : (⟨0#8, 0#8⟩ : I2C.McuPin) ≠ ⟨1#8, 1#8⟩)

/-- The record does not depend on the memory exactly if every member that is left open is assigned
by some setter and there is nothing else in the record. -/
lemma built_eq_forall_iff (setters : List Setter) :
    (∀ m m', (attributes headers).built m setters = (attributes headers).built m' setters) ↔
      (∀ f : Field, f.leftOpen → ∃ setter ∈ setters, setter.sets f) ∧
        Subsingleton (headers.Rest .adc) := by
  have hiff := built_eq_iff headers setters
  constructor
  · intro h
    refine ⟨fun f hf => ?_, ⟨fun r r' => ?_⟩⟩
    · rcases (hiff _ _).mp (h (memoryOf 0 (headers.zeroRest .adc))
        (memoryOf 1 (headers.zeroRest .adc))) f with hsets | hsame
      · exact hsets
      · rw [get_construct_of_leftOpen headers hf, get_construct_of_leftOpen headers hf] at hsame
        exact absurd hsame (get_memoryOf_ne hf _)
    · rcases (hiff _ _).mp (h (memoryOf 0 r) (memoryOf 0 r')) .rest with
        ⟨setter, -, hsets⟩ | hsame
      · exact absurd hsets (not_sets_rest setter)
      · exact hsame
  · rintro ⟨hsets, hrest⟩ m m'
    refine (hiff m m').mpr fun f => ?_
    by_cases hf : f.leftOpen
    · exact Or.inl (hsets f hf)
    · right
      cases f with
      | pin i => rfl
      | rest => exact Subsingleton.elim _ _
      | _ => exact absurd trivial hf

end Adc

/-! ## All classes -/

/-- The records of all classes but `Adc` are the same whatever their memory held, after every
sequence of setters.  That of `Adc` is exactly if the setters assign every member that its
constructor leaves open, and the record has no other members. -/
theorem determined_iff (headers : Headers) :
    (∀ c, c ≠ .adc → ∀ setters, (builder headers c).Determined setters) ∧
      ∀ setters : List Adc.Setter, (Adc.attributes headers).Determined setters ↔
        (∀ f : Adc.Field, f.leftOpen → ∃ setter ∈ setters, setter.sets f) ∧
          Subsingleton (headers.Rest .adc) := by
  refine ⟨fun c hc setters => ?_, fun setters => ?_⟩
  · exact Builder.determined_of_construct _ (construct_eq_of_ne_adc headers hc) setters
  · exact ((Adc.attributes headers).determined_iff_built_eq setters).trans
      (Adc.built_eq_forall_iff headers setters)

/-- Headers whose constants are all one and whose records have no other members. -/
def plainHeaders : Headers where
  flag _ := 1
  Rest _ := Unit
  zeroRest _ := ()

/-- A group channel, and the setters of the members that it leaves open. -/
def Adc.allAssigned : List Adc.Setter :=
  [.setGroupChannel { channel := 3 }, .setWidth 12, .setFrequency 1000000, .setTrigger ⟨0, 0⟩,
    .setChannelCount 1]

/-- These setters assign every member. -/
theorem determined_iff_all_assigned :
    (Adc.attributes plainHeaders).Determined Adc.allAssigned := by
  refine ((determined_iff plainHeaders).2 _).mpr
    ⟨fun f hf => ?_, inferInstanceAs (Subsingleton Unit)⟩
  cases f with
  | pin i => exact hf.elim
  | rest => exact hf.elim
  | width => exact ⟨.setWidth 12, by simp [Adc.allAssigned], rfl⟩
  | freq => exact ⟨.setFrequency 1000000, by simp [Adc.allAssigned], rfl⟩
  | trigger => exact ⟨.setTrigger ⟨0, 0⟩, by simp [Adc.allAssigned], rfl⟩
  | channelCount => exact ⟨.setChannelCount 1, by simp [Adc.allAssigned], rfl⟩
  | _ =>
    exact ⟨.setGroupChannel { channel := 3 }, by simp [Adc.allAssigned], by simp [Adc.Setter.sets]⟩

/-- After `set_group_channel` the width that is passed to the driver is what the memory held. -/
theorem adc_not_determined_group_channel :
    ¬ (builder plainHeaders .adc).Determined
      [(.setGroupChannel { channel := 3, pin := ⟨0, 1⟩ } : Adc.Setter)] := by
  intro h
  have hbuilt := (Builder.determined_iff_built_eq _ _).mp h (Adc.memoryOf 0 ()) (Adc.memoryOf 1 ())
  have hwidth : 0#8 = 1#8 := congrArg Adc.Attr.width hbuilt
  exact absurd hwidth (by decide)

end HalAPI
