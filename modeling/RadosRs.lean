import RadosRs.Lib.Fixed
import RadosRs.Lib.Mealy
import RadosRs.Lib.Trace
import RadosRs.Lib.Keyed
import RadosRs.Lib.Bytes
import RadosRs.Wire.Codec
import RadosRs.Msgr.Frame
import RadosRs.Msgr.CrcFrame
import RadosRs.Msgr.Secure
import RadosRs.Msgr.SecureFrames
import RadosRs.Msgr.Message
import RadosRs.Msgr.Control
import RadosRs.Msgr.Session.State
import RadosRs.Msgr.Session.Machine
import RadosRs.Msgr.Session.Ledger
import RadosRs.Msgr.Session.Settle
import RadosRs.Msgr.Session.Refinement
import RadosRs.Msgr.Session.Life
import RadosRs.Msgr.Session.Resolution
import RadosRs.Msgr.Session.Delivery
import RadosRs.Msgr.Session.Replay
import RadosRs.Msgr.Session.Order
import RadosRs.Msgr.Session.Link
import RadosRs.Msgr.Session.Acts
import RadosRs.Msgr.Session.Attempts
import RadosRs.Msgr.Session.Renewal
import RadosRs.Msgr.Session.Finality
import RadosRs.Msgr.Session.Writes
import RadosRs.Msgr.Session.Accounts
import RadosRs.Lib.Retry
import RadosRs.Osd.Operation
import RadosRs.Osd.Message
import RadosRs.Osd.Client
import RadosRs.Osd.Outcome
import RadosRs.Osd.RequestId
import RadosRs.Osd.Sessions
import RadosRs.Osd.Mutations
import RadosRs.Osd.MutationLog
import RadosRs.Osd.Flush
import RadosRs.Osd.Durable
import RadosRs.Wire.Reading
import RadosRs.Error
import RadosRs.ReadOp
import RadosRs.Osd.ReplyLayout
import RadosRs.Osd.ReplyFront
import RadosRs.Osd.ReadBounds
import RadosRs.Wire.Writing
import RadosRs.Lib.Slice
import RadosRs.Lib.Stateful
import RadosRs.Osd.HObject
import RadosRs.Osd.Enumeration
import RadosRs.Osd.Backoff
import RadosRs.Client.Cursor
import RadosRs.Client.Split
import RadosRs.Client.Listing
import RadosRs.Client.Enumeration
import RadosRs.Client.Continuation
import RadosRs.Types
import RadosRs.Mgr.Client
import RadosRs.Mgr.Command
import RadosRs.Mon.Message
import RadosRs.Mon.Owner
import RadosRs.Mon.Custody
import RadosRs.Mon.MapMessage
import RadosRs.Mon.MapOwner
import RadosRs.Mon.Published
import RadosRs.Lib.Fallible
import RadosRs.Lib.Total
import RadosRs.Lib.Chains
import RadosRs.Lib.Leader
import RadosRs.Lib.Selection
import RadosRs.Wire.Reader
import RadosRs.Wire.Takes
import RadosRs.Wire.Sent
import RadosRs.Msgr.MessageFrames
import RadosRs.Crush.Hash
import RadosRs.Crush.Ln
import RadosRs.Crush.Map
import RadosRs.Crush.Graph
import RadosRs.Crush.Place
import RadosRs.Crush.Straw2
import RadosRs.Crush.Choose
import RadosRs.Crush.Devices
import RadosRs.Crush.Termination
import RadosRs.Crush.StableMod
import RadosRs.Maps.Pool
import RadosRs.Maps.OsdMap
import RadosRs.Maps.Placement
import RadosRs.Maps.PlacedSets
import RadosRs.Lib.Table
import RadosRs.Lib.Walk
import RadosRs.Maps.Incremental
import RadosRs.Maps.PoolNames
import RadosRs.Maps.WellFormed
import RadosRs.Maps.Renames
import RadosRs.Maps.Order
import RadosRs.Maps.MonMap
import RadosRs.Maps.MgrMap
import RadosRs.Protocol.Address
import RadosRs.Lib.Text
import RadosRs.Lib.IpText
import RadosRs.Mon.Seeds
import RadosRs.Config.Monitors
import RadosRs.Lib.Base64
import RadosRs.Cephx.Keyring
import RadosRs.Lib.Chaining
import RadosRs.Cephx.Crypto
import RadosRs.Cephx.Core
import RadosRs.Config.Keyring
import RadosRs.Wire.Crc
import RadosRs.Wire.Format
import RadosRs.Osd.Metadata
import RadosRs.Msgr.Session.Admission
import RadosRs.Client.Watch
