import HalAPI.Foundation.Runs
import HalAPI.Foundation.BitMask
import HalAPI.Api.ExecutionContext
import HalAPI.I2C.ModifyRegister
import HalAPI.I2C.Scan
import HalAPI.Drive.Drive
import HalAPI.Drive.EraseDevice
import HalAPI.Drive.Progress
import HalAPI.Drive.Failure
import HalAPI.FrameStream.Info
import HalAPI.Flash.PageInfo
import HalAPI.Pin.Pin
import HalAPI.Pin.PulseScope
import HalAPI.Pin.Floating
import HalAPI.Device.Transfer
import HalAPI.Device.Signal
import HalAPI.Device.Handlers
import HalAPI.Device.Uninitialized
import HalAPI.Pin.Isolation
import HalAPI.Pin.Line
import HalAPI.Pin.Port
import HalAPI.Periph.FdMap
import HalAPI.Periph.Ownership
import HalAPI.Periph.OpenOnce
import HalAPI.Foundation.Overlay
import HalAPI.Foundation.Projection
import HalAPI.Foundation.CString
import HalAPI.QSPI.Flash
import HalAPI.QSPI.Chunks
import HalAPI.QSPI.Polling
import HalAPI.QSPI.WriteFlash
import HalAPI.QSPI.WriteEnable
import HalAPI.QSPI.Busy
import HalAPI.QSPI.StoreRuns
import HalAPI.QSPI.Configure
import HalAPI.QSPI.Transfers
import HalAPI.QSPI.ReadRange
import HalAPI.QSPI.Transferred
import HalAPI.Switchboard.Connections
import HalAPI.Switchboard.Lookup
import HalAPI.Switchboard.Listing
import HalAPI.Switchboard.LookupRuns
import HalAPI.Phylib.Util
import HalAPI.Phylib.DevicePath
import HalAPI.Periph.DeviceFiles
import HalAPI.Pin.FromString
import HalAPI.Device.Attributes
import HalAPI.Device.Determined
