import PanelFirmware.Utils.Crc
import PanelFirmware.Prm.CType
import PanelFirmware.Prm.Val
import PanelFirmware.Prm.Store
import PanelFirmware.Prm.Deserialize
import PanelFirmware.Prm.Parameters
import PanelFirmware.Prm.Range
import PanelFirmware.Prm.Clamp
import PanelFirmware.Hal.Flash
import PanelFirmware.Hal.Crc32
import PanelFirmware.Boot.Program
import PanelFirmware.Boot.Upgrade
import PanelFirmware.Boot.MemorySafety
import PanelFirmware.Boot.ImageCrc
import PanelFirmware.Systems.Write
import PanelFirmware.Modbus.PortTcp
import PanelFirmware.Modbus.Upload
import PanelFirmware.Modbus.FileRecord
import PanelFirmware.Modbus.Staging
import PanelFirmware.Modbus.Addressing
import PanelFirmware.Modbus.Transfer
import PanelFirmware.Modbus.RoundTrip
import PanelFirmware.Modbus.ReadOnly
import PanelFirmware.Regulator.Command
import PanelFirmware.Regulator.CommandTruth
import PanelFirmware.Regulator.CommandLifetime
import PanelFirmware.Libmodbus.Rtu
import PanelFirmware.Libmodbus.Message
import PanelFirmware.Libmodbus.Master
import PanelFirmware.Lib.BitPack
import PanelFirmware.Libmodbus.Bits
import PanelFirmware.Libmodbus.Reply
import PanelFirmware.Lib.Table
import PanelFirmware.Libmodbus.Device
import PanelFirmware.Libmodbus.Call
import PanelFirmware.Libmodbus.Session
import PanelFirmware.Libmodbus.Stale
import PanelFirmware.Regulator.Retry
import PanelFirmware.Regulator.Bridge
import PanelFirmware.Regulator.TcpRequest
import PanelFirmware.Modbus.TcpPort
import PanelFirmware.Modbus.EventPort
import PanelFirmware.Modbus.Segmentation
import PanelFirmware.Modbus.Handlers
import PanelFirmware.Modbus.Exchange
import PanelFirmware.Modbus.Execute
import PanelFirmware.Regulator.FalseSuccess
import PanelFirmware.Dev.Eep24AA
import PanelFirmware.Task.SystemTSK
import PanelFirmware.Hal.I2c
import PanelFirmware.Driver.I2cManager
import PanelFirmware.Hal.Uart
import PanelFirmware.Hal.Rtc
import PanelFirmware.Libmodbus.RtuPort
import PanelFirmware.Regulator.PacketSafety
import PanelFirmware.Regulator.Transparency
import PanelFirmware.Regulator.Ownership
import PanelFirmware.Regulator.Enable
import PanelFirmware.Net.HttpServer
import PanelFirmware.Net.Responses
import PanelFirmware.Net.HttpConnection
import PanelFirmware.Net.StateMeasTask
import PanelFirmware.Net.Sntp
import PanelFirmware.Net.SntpBuffers
import PanelFirmware.Window.SettingTSK
import PanelFirmware.Window.MenuSystem
import PanelFirmware.Window.Calibration
import PanelFirmware.Window.IpAddressEditor
import PanelFirmware.Window.Navigation
import PanelFirmware.Lib.Loop
import PanelFirmware.Modbus.RegisterWalk
import PanelFirmware.Regulator.Expiry
import PanelFirmware.Systems.WriteTermination
import PanelFirmware.Modbus.PortInit
import PanelFirmware.Net.SntpTime
import PanelFirmware.Hal.Key
import PanelFirmware.Hal.Htimer
import PanelFirmware.Utils.Timegm
import PanelFirmware.Window.ClockEditor
import PanelFirmware.Lib.Decimal
import PanelFirmware.Window.Measurements
import PanelFirmware.Prm.ToString
import PanelFirmware.Window.Cursor
import PanelFirmware.Net.HttpBounds
import PanelFirmware.Lib.Heap
import PanelFirmware.Systems.Memmgr
import PanelFirmware.Utils.CrcTables
import PanelFirmware.Utils.CrcCan
import PanelFirmware.Utils.Plog
import PanelFirmware.Systems.WritePointers
import PanelFirmware.Tools.Gen
import PanelFirmware.Lib.Raster
import PanelFirmware.Window.Text
import PanelFirmware.Lib.Scanline
import PanelFirmware.Window.FillTriangle
import PanelFirmware.Lib.DigitalLine
import PanelFirmware.Window.Line
