import HalAPI.Foundation.Runs
import HalAPI.Api.Query
import HalAPI.Drive.Drive
import HalAPI.I2C.Scan

/-!
# The attributes of the device classes

Every device class has a class `Attributes`, a builder of the record that `set_attributes` passes
to the driver.  The memory of the record holds anything before it is constructed.  Most of the
builders declare their record with an initialiser, which fills it with zeros, and then the
constructor and the setters assign members.

A record has the members that the builder assigns.  What else the headers put in it is of a type of
its own, and the constants are parameters.
-/

namespace HalAPI

open Foundation Program
open I2C (McuPin)

/-! ## Builders -/

/-- A builder: its record, the calls of setters, the record filled with zeros, whether the record is
declared with an initialiser, and what the constructor and a setter do to it. -/
structure Builder where
  Record : Type
  Setter : Type
  zeros : Record
  hasInitialiser : Bool
  body : Record → Record
  apply : Record → Setter → Record

namespace Builder

variable (b : Builder)

/-- The record after its default construction in a memory. -/
def construct (memory : b.Record) : b.Record :=
  b.body (if b.hasInitialiser then b.zeros else memory)

/-- The record after its construction and calls of setters. -/
def built (memory : b.Record) (setters : List b.Setter) : b.Record :=
  run b.apply (b.construct memory) setters

/-- `set_attributes`; the request is the record that is passed to the driver. -/
def setAttributes {σ : Type} (onSetAttributes : b.Record → σ → ℤ × σ) (record : b.Record) :
    Program (Thread σ b.Record) Unit :=
  systemCall record (onSetAttributes record)

end Builder

/-! ## What the headers say -/

/-- The device classes. -/
inductive DeviceClass where
  | adc
  | byteBuffer
  | drive
  | frameBuffer
  | frameStream
  | gpio
  | i2c
  | i2s
  | pwm
  | spi
  | timer
  | uart
  | usb
  deriving DecidableEq

/-- The constants that the builders use. -/
inductive HeaderFlag where
  | adcSetChannels
  | adcIsGroup
  | fifoInit
  | fifoExit
  | fifoIsOverflow
  | fifoSetWriteblock
  | ffifoIsOverflow
  | ffifoSetWriteblock
  | streamFfifoStart
  | streamFfifoStop
  | streamFfifoFlush
  | pwmSetTimer
  | spiSetMaster
  | spiIsFormatSpi
  | spiIsMode0
  | spiSetHalfDuplex
  | uartSetLineCodingDefault
  deriving DecidableEq

/-- The values of the constants, and what is in the record of a class beside the members that its
builder assigns, with its zero. -/
structure Headers where
  flag : HeaderFlag → BitVec 32
  Rest : DeviceClass → Type
  zeroRest : (c : DeviceClass) → Rest c

/-- `mcu_channel_t` -/
structure McuChannel where
  loc : BitVec 32
  value : BitVec 32
  deriving DecidableEq

/-- A pin with all bytes `0xff`. -/
def unassigned : McuPin := ⟨0xFF, 0xFF⟩

/-- A pin with all bytes zero. -/
def zeroPin : McuPin := ⟨0, 0⟩

section Code

variable {ρ : Type} (headers : Headers)

/-! ## Records with flags only -/

/-- A record of which the builder assigns the flags: `fifo_attr_t`, `ffifo_attr_t` and
`stream_ffifo_attr_t`. -/
structure FlagsAttr (ρ : Type) where
  oFlags : BitVec 32
  rest : ρ

/-- `m_attributes.o_flags |= flag` -/
def FlagsAttr.add (a : FlagsAttr ρ) (flag : BitVec 32) : FlagsAttr ρ :=
  { a with oFlags := a.oFlags ||| flag }

namespace ByteBuffer

/-- The setters of `ByteBuffer::Attributes`. -/
inductive Setter where
  | setInitialize
  | setFinalize
  | setOverflow
  | setWriteblock

/-- What a setter does. -/
def apply (a : FlagsAttr ρ) : Setter → FlagsAttr ρ
  | .setInitialize => a.add (headers.flag .fifoInit)
  | .setFinalize => a.add (headers.flag .fifoExit)
  | .setOverflow => a.add (headers.flag .fifoIsOverflow)
  | .setWriteblock => a.add (headers.flag .fifoSetWriteblock)

/-- `ByteBuffer::Attributes` -/
def attributes : Builder where
  Record := FlagsAttr (headers.Rest .byteBuffer)
  Setter := Setter
  zeros := ⟨0, headers.zeroRest .byteBuffer⟩
  hasInitialiser := true
  body a := a
  apply := apply headers

end ByteBuffer

namespace FrameBuffer

/-- The setters of `FrameBuffer::Attributes`. -/
inductive Setter where
  | setOverflow
  | setWriteblock

/-- What a setter does. -/
def apply (a : FlagsAttr ρ) : Setter → FlagsAttr ρ
  | .setOverflow => a.add (headers.flag .ffifoIsOverflow)
  | .setWriteblock => a.add (headers.flag .ffifoSetWriteblock)

/-- `FrameBuffer::Attributes` -/
def attributes : Builder where
  Record := FlagsAttr (headers.Rest .frameBuffer)
  Setter := Setter
  zeros := ⟨0, headers.zeroRest .frameBuffer⟩
  hasInitialiser := true
  body a := a
  apply := apply headers

end FrameBuffer

namespace FrameStream

/-- The setters of `FrameStream::Attributes`. -/
inductive Setter where
  | setFlags (value : BitVec 32)
  | setStart
  | setStop
  | setFlush

/-- What a setter does. -/
def apply (a : FlagsAttr ρ) : Setter → FlagsAttr ρ
  | .setFlags value => { a with oFlags := value }
  | .setStart => a.add (headers.flag .streamFfifoStart)
  | .setStop => a.add (headers.flag .streamFfifoStop)
  | .setFlush => a.add (headers.flag .streamFfifoFlush)

/-- `FrameStream::Attributes`; its record has no initialiser, and the constructor assigns `{0}`. -/
def attributes : Builder where
  Record := FlagsAttr (headers.Rest .frameStream)
  Setter := Setter
  zeros := ⟨0, headers.zeroRest .frameStream⟩
  hasInitialiser := false
  body _ := ⟨0, headers.zeroRest .frameStream⟩
  apply := apply headers

end FrameStream

/-! ## Records without pins -/

namespace Drive

/-- `drive_attr_t` -/
structure Attr (ρ : Type) extends Attributes where
  rest : ρ

/-- The setters of `Drive::Attributes`. -/
inductive Setter where
  | setFlags (flags : BitVec 32)
  | setOFlags (value : BitVec 32)
  | setStart (value : BitVec 32)
  | setEnd (value : BitVec 32)

/-- What a setter does. -/
def apply (a : Attr ρ) : Setter → Attr ρ
  | .setFlags flags => { a with oFlags := flags }
  | .setOFlags value => { a with oFlags := value }
  | .setStart value => { a with start := value }
  | .setEnd value => { a with stop := value }

/-- `Drive::Attributes` -/
def attributes : Builder where
  Record := Attr (headers.Rest .drive)
  Setter := Setter
  zeros := { oFlags := 0, start := 0, stop := 0, rest := headers.zeroRest .drive }
  hasInitialiser := true
  body a := a
  apply := apply

end Drive

namespace Gpio

/-- `pio_attr_t` -/
structure Attr (ρ : Type) where
  oFlags : BitVec 32
  oPinmask : BitVec 32
  rest : ρ

/-- The setters of `Gpio::Attributes`. -/
inductive Setter where
  | setFlags (value : BitVec 32)
  | setPinmask (value : BitVec 32)

/-- What a setter does. -/
def apply (a : Attr ρ) : Setter → Attr ρ
  | .setFlags value => { a with oFlags := value }
  | .setPinmask value => { a with oPinmask := value }

/-- `Gpio::Attributes` -/
def attributes : Builder where
  Record := Attr (headers.Rest .gpio)
  Setter := Setter
  zeros := ⟨0, 0, headers.zeroRest .gpio⟩
  hasInitialiser := true
  body a := a
  apply := apply

end Gpio

/-! ## Records with pins -/

namespace Adc

/-- `adc_attr_t`; the members of `pin_assignment` are `channel[0]` to `channel[3]`. -/
structure Attr (ρ : Type) where
  oFlags : BitVec 32
  pinAssignment : Fin 4 → McuPin
  freq : BitVec 32
  trigger : McuPin
  channel : BitVec 16
  width : BitVec 8
  channelCount : BitVec 8
  rank : BitVec 32
  samplingTime : BitVec 32
  rest : ρ

/-- `Adc::Attributes::SetGroupChannel` -/
structure SetGroupChannel where
  channel : BitVec 16 := 0
  rank : BitVec 32 := 0
  samplingTime : BitVec 32 := 15
  pin : McuPin := ⟨0xFF, 0⟩

/-- The setters of `Adc::Attributes`.  `set_channel0` to `set_channel3` are one setter of a pin. -/
inductive Setter where
  | setFlags (flags : BitVec 32)
  | setGroupChannel (options : SetGroupChannel)
  | setWidth (value : BitVec 8)
  | setFrequency (value : BitVec 32)
  | setTrigger (value : McuPin)
  | setChannelCount (value : BitVec 8)
  | setChannel (value : BitVec 16)
  | setRank (value : BitVec 32)
  | setSamplingTime (value : BitVec 32)
  | setPin (i : Fin 4) (value : McuPin)

/-- The index of the pin that `set_channel0` assigns. -/
def channel0 : Fin 4 := 0

/-- Assign a pin. -/
def Attr.assign (a : Attr ρ) (i : Fin 4) (value : McuPin) : Attr ρ :=
  { a with pinAssignment := Function.update a.pinAssignment i value }

/-- `Adc::Attributes::set_group_channel` -/
def setGroupChannel (a : Attr ρ) (options : SetGroupChannel) : Attr ρ :=
  let a :=
    { a with
      oFlags := headers.flag .adcSetChannels ||| headers.flag .adcIsGroup
      channel := options.channel
      rank := options.rank
      samplingTime := options.samplingTime }
  if options.pin.port ≠ 0xFF then a.assign channel0 options.pin else a

/-- What a setter does. -/
def apply (a : Attr ρ) : Setter → Attr ρ
  | .setFlags flags => { a with oFlags := flags }
  | .setGroupChannel options => setGroupChannel headers a options
  | .setWidth value => { a with width := value }
  | .setFrequency value => { a with freq := value }
  | .setTrigger value => { a with trigger := value }
  | .setChannelCount value => { a with channelCount := value }
  | .setChannel value => { a with channel := value }
  | .setRank value => { a with rank := value }
  | .setSamplingTime value => { a with samplingTime := value }
  | .setPin i value => a.assign i value

/-- `Adc::Attributes`; its record has no initialiser. -/
def attributes : Builder where
  Record := Attr (headers.Rest .adc)
  Setter := Setter
  zeros := ⟨0, fun _ => zeroPin, 0, zeroPin, 0, 0, 0, 0, 0, headers.zeroRest .adc⟩
  hasInitialiser := false
  body a := { a with pinAssignment := fun _ => unassigned }
  apply := apply headers

end Adc

namespace I2C

/-- `i2c_attr_t`; the second byte of `slave_addr[0]` is beside the one that `slave_addr()` reads. -/
structure Attr (ρ : Type) extends Attributes where
  slaveAddrHigh : BitVec 8
  rest : ρ

/-- The setters of `I2C::Attributes`. -/
inductive Setter where
  | setSda (value : McuPin)
  | setScl (value : McuPin)
  | setFlags (value : BitVec 32)
  | setFrequency (value : BitVec 32)
  | setSlaveAddr (addr : BitVec 8)
  | setSlaveAddr16 (addr : BitVec 16)

/-- What a setter does.  The address of sixteen bits has its low byte first. -/
def apply (a : Attr ρ) : Setter → Attr ρ
  | .setSda value => { a with sda := value }
  | .setScl value => { a with scl := value }
  | .setFlags value => { a with oFlags := value }
  | .setFrequency value => { a with freq := value }
  | .setSlaveAddr addr => { a with slaveAddr := addr }
  | .setSlaveAddr16 addr =>
    { a with slaveAddr := addr.setWidth 8, slaveAddrHigh := (addr >>> 8).setWidth 8 }

/-- `I2C::Attributes` -/
def attributes : Builder where
  Record := Attr (headers.Rest .i2c)
  Setter := Setter
  zeros :=
    { oFlags := 0, freq := 0, sda := zeroPin, scl := zeroPin, slaveAddr := 0, slaveAddrHigh := 0,
      rest := headers.zeroRest .i2c }
  hasInitialiser := true
  body a := { apply a (.setFrequency 100000) with sda := unassigned, scl := unassigned }
  apply := apply

end I2C

namespace I2S

/-- The pins of `i2s_attr_t`. -/
inductive PinName where
  | ws
  | sck
  | sdout
  | sdin
  | mck
  deriving DecidableEq

/-- `i2s_attr_t` -/
structure Attr (ρ : Type) where
  oFlags : BitVec 32
  freq : BitVec 32
  mckMult : BitVec 32
  slot : BitVec 32
  pinAssignment : PinName → McuPin
  rest : ρ

/-- The setters of `I2S::Attributes`; those of the pins are one. -/
inductive Setter where
  | setPin (name : PinName) (value : McuPin)
  | setFlags (value : BitVec 32)
  | setFrequency (value : BitVec 32)
  | setMasterMultiplier (value : BitVec 32)
  | setSlot (value : BitVec 32)

/-- What a setter does. -/
def apply (a : Attr ρ) : Setter → Attr ρ
  | .setPin name value =>
    { a with pinAssignment := Function.update a.pinAssignment name value }
  | .setFlags value => { a with oFlags := value }
  | .setFrequency value => { a with freq := value }
  | .setMasterMultiplier value => { a with mckMult := value }
  | .setSlot value => { a with slot := value }

/-- `I2S::Attributes` -/
def attributes : Builder where
  Record := Attr (headers.Rest .i2s)
  Setter := Setter
  zeros := ⟨0, 0, 0, 0, fun _ => zeroPin, headers.zeroRest .i2s⟩
  hasInitialiser := true
  body a := { apply a (.setFrequency 100000) with pinAssignment := fun _ => unassigned }
  apply := apply

end I2S

namespace Pwm

/-- `pwm_attr_t`; the members of `pin_assignment` are `channel[0]` to `channel[3]`. -/
structure Attr (ρ : Type) where
  oFlags : BitVec 32
  freq : BitVec 32
  period : BitVec 32
  channel : McuChannel
  pinAssignment : Fin 4 → McuPin
  rest : ρ

/-- The setters of `Pwm::Attributes`.  `set_pin_assignment_channel0` to
`set_pin_assignment_channel3` are one, and so are the two overloads of `set_channel`. -/
inductive Setter where
  | setFrequency (value : BitVec 32)
  | setPeriod (value : BitVec 32)
  | setFlags (value : BitVec 32)
  | setChannel (loc value : BitVec 32)
  | setPinAssignmentChannel (i : Fin 4) (pin : McuPin)

/-- What a setter does. -/
def apply (a : Attr ρ) : Setter → Attr ρ
  | .setFrequency value => { a with freq := value }
  | .setPeriod value => { a with period := value }
  | .setFlags value => { a with oFlags := value }
  | .setChannel loc value => { a with channel := ⟨loc, value⟩ }
  | .setPinAssignmentChannel i pin =>
    { a with pinAssignment := Function.update a.pinAssignment i pin }

/-- `Pwm::Attributes` -/
def attributes : Builder where
  Record := Attr (headers.Rest .pwm)
  Setter := Setter
  zeros := ⟨0, 0, 0, ⟨0, 0⟩, fun _ => zeroPin, headers.zeroRest .pwm⟩
  hasInitialiser := true
  body a :=
    { run apply a [.setFlags (headers.flag .pwmSetTimer), .setFrequency 1000000] with
      channel := ⟨-1, -1⟩
      period := 1000
      pinAssignment := fun _ => unassigned }
  apply := apply

end Pwm

namespace Spi

/-- The pins of `spi_attr_t`. -/
inductive PinName where
  | miso
  | mosi
  | sck
  | cs
  deriving DecidableEq

/-- `spi_attr_t` -/
structure Attr (ρ : Type) where
  oFlags : BitVec 32
  freq : BitVec 32
  width : BitVec 8
  pinAssignment : PinName → McuPin
  rest : ρ

/-- The setters of `Spi::Attributes`; those of the pins are one. -/
inductive Setter where
  | setFlags (flags : BitVec 32)
  | setWidth (value : BitVec 8)
  | setFrequency (value : BitVec 32)
  | setPin (name : PinName) (value : McuPin)

/-- What a setter does. -/
def apply (a : Attr ρ) : Setter → Attr ρ
  | .setFlags flags => { a with oFlags := flags }
  | .setWidth value => { a with width := value }
  | .setFrequency value => { a with freq := value }
  | .setPin name value =>
    { a with pinAssignment := Function.update a.pinAssignment name value }

/-- The flags that the constructor of `Spi::Attributes` sets. -/
def defaultFlags : BitVec 32 :=
  headers.flag .spiSetMaster ||| headers.flag .spiIsFormatSpi ||| headers.flag .spiIsMode0 |||
    headers.flag .spiSetHalfDuplex

/-- `Spi::Attributes` -/
def attributes : Builder where
  Record := Attr (headers.Rest .spi)
  Setter := Setter
  zeros := ⟨0, 0, 0, fun _ => zeroPin, headers.zeroRest .spi⟩
  hasInitialiser := true
  body a :=
    { run apply a [.setFlags (defaultFlags headers), .setFrequency 1000000, .setWidth 8] with
      pinAssignment := fun _ => unassigned }
  apply := apply

end Spi

namespace Timer

/-- `tmr_attr_t`; the members of `pin_assignment` are `channel[0]` to `channel[3]`. -/
structure Attr (ρ : Type) where
  oFlags : BitVec 32
  freq : BitVec 32
  period : BitVec 32
  channel : McuChannel
  pinAssignment : Fin 4 → McuPin
  rest : ρ

/-- The setters of `Timer::Attributes`.  `set_channel0` to `set_channel3` are one setter of a
pin. -/
inductive Setter where
  | setFlags (flags : BitVec 32)
  | setFrequency (value : BitVec 32)
  | setPeriod (value : BitVec 32)
  | setChannel (value : McuChannel)
  | setPin (i : Fin 4) (value : McuPin)

/-- What a setter does. -/
def apply (a : Attr ρ) : Setter → Attr ρ
  | .setFlags flags => { a with oFlags := flags }
  | .setFrequency value => { a with freq := value }
  | .setPeriod value => { a with period := value }
  | .setChannel value => { a with channel := value }
  | .setPin i value => { a with pinAssignment := Function.update a.pinAssignment i value }

/-- `Timer::Attributes` -/
def attributes : Builder where
  Record := Attr (headers.Rest .timer)
  Setter := Setter
  zeros := ⟨0, 0, 0, ⟨0, 0⟩, fun _ => zeroPin, headers.zeroRest .timer⟩
  hasInitialiser := true
  body a := { a with pinAssignment := fun _ => unassigned }
  apply := apply

end Timer

namespace Uart

/-- The pins of `uart_attr_t`. -/
inductive PinName where
  | tx
  | rx
  | cts
  | rts
  deriving DecidableEq

/-- `uart_attr_t` -/
structure Attr (ρ : Type) where
  oFlags : BitVec 32
  freq : BitVec 32
  width : BitVec 32
  pinAssignment : PinName → McuPin
  rest : ρ

/-- The setters of `Uart::Attributes`; those of the pins are one. -/
inductive Setter where
  | setPin (name : PinName) (value : McuPin)
  | setWidth (value : BitVec 32)
  | setFrequency (value : BitVec 32)
  | setFlags (value : BitVec 32)

/-- What a setter does. -/
def apply (a : Attr ρ) : Setter → Attr ρ
  | .setPin name value =>
    { a with pinAssignment := Function.update a.pinAssignment name value }
  | .setWidth value => { a with width := value }
  | .setFrequency value => { a with freq := value }
  | .setFlags value => { a with oFlags := value }

/-- `Uart::Attributes` -/
def attributes : Builder where
  Record := Attr (headers.Rest .uart)
  Setter := Setter
  zeros := ⟨0, 0, 0, fun _ => zeroPin, headers.zeroRest .uart⟩
  hasInitialiser := true
  body a :=
    { run apply a
        [.setFlags (headers.flag .uartSetLineCodingDefault), .setFrequency 115200, .setWidth 8] with
      pinAssignment := fun _ => unassigned }
  apply := apply

end Uart

namespace Usb

/-- The pins of `usb_attr_t`. -/
inductive PinName where
  | dp
  | dm
  | id
  | vbus
  deriving DecidableEq

/-- `usb_attr_t` -/
structure Attr (ρ : Type) where
  oFlags : BitVec 32
  freq : BitVec 32
  address : BitVec 32
  maxPacketSize : BitVec 32
  type : BitVec 32
  pinAssignment : PinName → McuPin
  rest : ρ

/-- The setters of `Usb::Attributes`; those of the pins are one. -/
inductive Setter where
  | setPin (name : PinName) (value : McuPin)
  | setAddress (value : BitVec 32)
  | setMaxPacketSize (value : BitVec 32)
  | setType (value : BitVec 32)
  | setFrequency (value : BitVec 32)
  | setFlags (value : BitVec 32)

/-- What a setter does. -/
def apply (a : Attr ρ) : Setter → Attr ρ
  | .setPin name value =>
    { a with pinAssignment := Function.update a.pinAssignment name value }
  | .setAddress value => { a with address := value }
  | .setMaxPacketSize value => { a with maxPacketSize := value }
  | .setType value => { a with type := value }
  | .setFrequency value => { a with freq := value }
  | .setFlags value => { a with oFlags := value }

/-- `Usb::Attributes` -/
def attributes : Builder where
  Record := Attr (headers.Rest .usb)
  Setter := Setter
  zeros := ⟨0, 0, 0, 0, 0, fun _ => zeroPin, headers.zeroRest .usb⟩
  hasInitialiser := true
  body a := { a with pinAssignment := fun _ => unassigned }
  apply := apply

end Usb

/-- The builder of a class. -/
def builder : DeviceClass → Builder
  | .adc => Adc.attributes headers
  | .byteBuffer => ByteBuffer.attributes headers
  | .drive => Drive.attributes headers
  | .frameBuffer => FrameBuffer.attributes headers
  | .frameStream => FrameStream.attributes headers
  | .gpio => Gpio.attributes headers
  | .i2c => I2C.attributes headers
  | .i2s => I2S.attributes headers
  | .pwm => Pwm.attributes headers
  | .spi => Spi.attributes headers
  | .timer => Timer.attributes headers
  | .uart => Uart.attributes headers
  | .usb => Usb.attributes headers

end Code

end HalAPI
