import HalAPI.Api.Query
import HalAPI.FrameStream.Info

/-!
# The records of the device classes

Every device class has a `get_info` that asks its driver for a record, and an `Info` that shows
the record to the caller.  The records have the members that the classes show.

Most of the functions declare the record without an initial value, and what it holds then is an
argument here.  `I2C::get_info` and `Uart::get_info` declare it with zeros.
-/

namespace HalAPI

open Foundation

/-- The queries, under the names of their request numbers. -/
inductive InfoRequest where
  | adcGetInfo
  | fifoGetInfo
  | flashGetInfo
  | ffifoGetInfo
  | streamFfifoGetInfo
  | i2cGetInfo
  | i2sGetInfo
  | spiGetInfo
  | tmrGetInfo
  | uartGetInfo
  | usbGetInfo
  deriving DecidableEq

/-! ## Data -/

/-- `Adc::Info` (`adc_info_t`) -/
structure Adc.Info where
  oFlags : BitVec 32
  oEvents : BitVec 32
  maximum : BitVec 32
  referenceMv : BitVec 32
  internalVrefChannel : BitVec 32
  internalTemperatureChannel : BitVec 32
  internalVbatChannel : BitVec 32
  bytesPerSample : BitVec 32
  resolution : BitVec 32
  deriving DecidableEq

/-- `Adc::Info::is_valid` -/
def Adc.Info.isValid (info : Adc.Info) : Bool := info.oFlags != 0

/-- `ByteBuffer::Info` (`fifo_info_t`) -/
structure ByteBuffer.Info where
  size : BitVec 32
  sizeReady : BitVec 32
  overflow : BitVec 32
  deriving DecidableEq

/-- `ByteBuffer::Info::is_valid` -/
def ByteBuffer.Info.isValid (info : ByteBuffer.Info) : Bool := 0 < info.size

/-- `Flash::Info` (`flash_info_t`) -/
structure Flash.Info where
  oFlags : BitVec 32
  oEvents : BitVec 32
  deriving DecidableEq

/-- `Flash::Info::is_valid` -/
def Flash.Info.isValid (info : Flash.Info) : Bool := info.oEvents != 0

/-- `FrameBuffer::Info` (`ffifo_info_t`) -/
abbrev FrameBuffer.Info : Type := FrameStream.FifoRecord

/-- `FrameBuffer::Info::is_valid` -/
def FrameBuffer.Info.isValid (info : FrameBuffer.Info) : Bool := info.frameSize != 0

/-- `I2C::Info` (`i2c_info_t`) -/
structure I2C.Info where
  oFlags : BitVec 32 := 0
  oEvents : BitVec 32 := 0
  freq : BitVec 32 := 0
  err : BitVec 32 := 0
  deriving DecidableEq

/-- `I2S::Info` (`i2s_info_t`) -/
structure I2S.Info where
  oFlags : BitVec 32
  oEvents : BitVec 32
  freq : BitVec 32
  deriving DecidableEq

/-- `Spi::Info` (`spi_info_t`) -/
structure Spi.Info where
  oFlags : BitVec 32
  oEvents : BitVec 32
  deriving DecidableEq

/-- `Spi::Info::is_valid` -/
def Spi.Info.isValid (info : Spi.Info) : Bool := info.oFlags != 0

/-- `Timer::Info` (`tmr_info_t`) -/
structure Timer.Info where
  oFlags : BitVec 32
  oEvents : BitVec 32
  deriving DecidableEq

/-- `Timer::Info::is_valid` -/
def Timer.Info.isValid (info : Timer.Info) : Bool := info.oFlags != 0

/-- `Uart::Info` (`uart_info_t`) -/
structure Uart.Info where
  oFlags : BitVec 32 := 0
  size : BitVec 32 := 0
  sizeReady : BitVec 32 := 0
  deriving DecidableEq

/-- `Uart::Info::is_valid` -/
def Uart.Info.isValid (info : Uart.Info) : Bool := info.oFlags != 0

/-- `Usb::Info` (`usb_info_t`) -/
structure Usb.Info where
  oFlags : BitVec 32
  oEvents : BitVec 32
  deriving DecidableEq

/-! ## The code -/

section Code

variable {σ ι : Type}

/-- `Adc::get_info` -/
def Adc.getInfo (onGetInfo : σ → (ℤ × Adc.Info) × σ) (uninitialized : Adc.Info) :
    Program (Thread σ InfoRequest) Adc.Info :=
  queryRecord .adcGetInfo onGetInfo uninitialized

/-- `ByteBuffer::get_info` -/
def ByteBuffer.getInfo (onGetInfo : σ → (ℤ × ByteBuffer.Info) × σ)
    (uninitialized : ByteBuffer.Info) : Program (Thread σ InfoRequest) ByteBuffer.Info :=
  queryRecord .fifoGetInfo onGetInfo uninitialized

/-- `Flash::get_info` -/
def Flash.getInfo (onGetInfo : σ → (ℤ × Flash.Info) × σ) (uninitialized : Flash.Info) :
    Program (Thread σ InfoRequest) Flash.Info :=
  queryRecord .flashGetInfo onGetInfo uninitialized

/-- `FrameBuffer::get_info` -/
def FrameBuffer.getInfo (onGetInfo : σ → (ℤ × FrameBuffer.Info) × σ)
    (uninitialized : FrameBuffer.Info) : Program (Thread σ InfoRequest) FrameBuffer.Info :=
  queryRecord .ffifoGetInfo onGetInfo uninitialized

/-- `FrameStream::get_info`, whose result is the object `x` -/
def FrameStream.getInfo (x : ι) (onGetInfo : σ → (ℤ × FrameStream.Record) × σ)
    (uninitialized : FrameStream.Record) :
    Program (Thread σ InfoRequest) (FrameStream.Info ι) := do
  let info ← queryRecord .streamFfifoGetInfo onGetInfo uninitialized
  return FrameStream.Info.construct x info

/-- `I2C::get_info` -/
def I2C.getInfo (onGetInfo : σ → (ℤ × I2C.Info) × σ) : Program (Thread σ InfoRequest) I2C.Info :=
  queryRecord .i2cGetInfo onGetInfo {}

/-- `I2S::get_info` -/
def I2S.getInfo (onGetInfo : σ → (ℤ × I2S.Info) × σ) (uninitialized : I2S.Info) :
    Program (Thread σ InfoRequest) I2S.Info :=
  queryRecord .i2sGetInfo onGetInfo uninitialized

/-- `Spi::get_info` -/
def Spi.getInfo (onGetInfo : σ → (ℤ × Spi.Info) × σ) (uninitialized : Spi.Info) :
    Program (Thread σ InfoRequest) Spi.Info :=
  queryRecord .spiGetInfo onGetInfo uninitialized

/-- `Timer::get_info` -/
def Timer.getInfo (onGetInfo : σ → (ℤ × Timer.Info) × σ) (uninitialized : Timer.Info) :
    Program (Thread σ InfoRequest) Timer.Info :=
  queryRecord .tmrGetInfo onGetInfo uninitialized

/-- `Uart::get_info` -/
def Uart.getInfo (onGetInfo : σ → (ℤ × Uart.Info) × σ) : Program (Thread σ InfoRequest) Uart.Info :=
  queryRecord .uartGetInfo onGetInfo {}

/-- `Usb::get_info` -/
def Usb.getInfo (onGetInfo : σ → (ℤ × Usb.Info) × σ) (uninitialized : Usb.Info) :
    Program (Thread σ InfoRequest) Usb.Info :=
  queryRecord .usbGetInfo onGetInfo uninitialized

end Code

end HalAPI
