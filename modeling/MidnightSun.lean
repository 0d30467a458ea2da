import MidnightSun.Lib.Run
import MidnightSun.Safe.Queue
import MidnightSun.Boost.PropertyTree
import MidnightSun.Nvhttp.State
import MidnightSun.Nvhttp.Clients
import MidnightSun.Nvhttp.Authorization
import MidnightSun.Lib.Scan
import MidnightSun.Nvhttp.CertChain
import MidnightSun.Util.Hex
import MidnightSun.Http.Credentials
import MidnightSun.Nvhttp.StateFile
import MidnightSun.Nvhttp.Host
import MidnightSun.Nvhttp.Identity
import MidnightSun.Nvhttp.FreshState
import MidnightSun.Nvhttp.Pairing
import MidnightSun.Nvhttp.PairingOrder
import MidnightSun.Nvhttp.PinEntry
import MidnightSun.Lib.Nonce
import MidnightSun.Util.FromView
import MidnightSun.Net.Address
import MidnightSun.Rtsp.Announce
import MidnightSun.Rtsp.Attributes
import MidnightSun.Lib.Bytes
import MidnightSun.Stream.Session
import MidnightSun.Stream.Wire
import MidnightSun.Stream.NonceUse
import MidnightSun.Stream.Mandatory
import MidnightSun.Input.Packet
import MidnightSun.Input.Touch
import MidnightSun.Input.Passthrough
import MidnightSun.Input.System
import MidnightSun.Input.Gamepads
import MidnightSun.Input.GamepadEffect
import MidnightSun.Input.GamepadSlots
import MidnightSun.Input.Held
import MidnightSun.Input.Release
import MidnightSun.Lifecycle.Sessions
import MidnightSun.Lifecycle.Ownership
import MidnightSun.Lifecycle.ControlThread
import MidnightSun.Lifecycle.Packets
import MidnightSun.Lifecycle.Peers
import MidnightSun.Lib.Slices
import MidnightSun.Stream.Packetize
import MidnightSun.Stream.ConcatInsert
import MidnightSun.Stream.Fec
import MidnightSun.Stream.Reassembly
import MidnightSun.Stream.Numbering
import MidnightSun.Rtsp.Accepted
import MidnightSun.Audio.StreamConfig
import MidnightSun.Platf.SendBatch
import MidnightSun.Platf.Delivery
import MidnightSun.Lib.Search
import MidnightSun.Rtsp.Framing
import MidnightSun.Rtsp.LaunchEvent
import MidnightSun.Lib.View
import MidnightSun.Stream.ControlParse
import MidnightSun.Lib.References
import MidnightSun.Nvenc.Base
import MidnightSun.Nvenc.Session
import MidnightSun.Video.EncodeSession
import MidnightSun.Video.EncodeRun
import MidnightSun.Input.Bounds
import MidnightSun.Input.Delivery
import MidnightSun.Input.ControllerState
import MidnightSun.Input.Batching
import MidnightSun.Video.CaptureSync
import MidnightSun.Video.ProbeEncoders
import MidnightSun.Crypto.Gcm
import MidnightSun.Safe.Shared
import MidnightSun.Lib.Descending
import MidnightSun.Safe.Mail
import MidnightSun.Util.TaskPool
import MidnightSun.Lib.FirstChoice
import MidnightSun.Proc.Apps
import MidnightSun.Platf.Source
import MidnightSun.Config.Parse
import MidnightSun.Nlohmann.Json
import MidnightSun.Config.Save
import MidnightSun.Config.Readers
import MidnightSun.Config.Lines
import MidnightSun.Config.Lists
import MidnightSun.Config.Keybindings
import MidnightSun.Lib.Registry
import MidnightSun.Stream.RecvPing
import MidnightSun.Confighttp.Csrf
import MidnightSun.Confighttp.Routes
import MidnightSun.Lib.Unwind
import MidnightSun.Proc.Launch
import MidnightSun.Proc.EnvVal
import MidnightSun.DisplayDevice.Parse
import MidnightSun.DisplayDevice.Configuration
import MidnightSun.Input.LeftClick
import MidnightSun.Input.Modifiers
import MidnightSun.Input.Scrolling
import MidnightSun.Lib.Descriptors
import MidnightSun.Platf.Headless
import MidnightSun.Platf.Unicode
import MidnightSun.Confighttp.AppsFile
import MidnightSun.Confighttp.Origins
import MidnightSun.Lib.Buffer
import MidnightSun.Stream.AudioFec
import MidnightSun.Lib.Cursor
import MidnightSun.Video.Displays
import MidnightSun.Util.HexText
import MidnightSun.Safe.QueueRuns
import MidnightSun.Lib.Scope
import MidnightSun.Nvhttp.LaunchSession
import MidnightSun.Nvhttp.LaunchDisplay
import MidnightSun.Video.ImagePool
import MidnightSun.Util.ThreadPoolRuns
import MidnightSun.Rtsp.Encrypted
import MidnightSun.Platf.KmsCursor
import MidnightSun.NvPrefs.Recovery
import MidnightSun.Platf.DdupShows
