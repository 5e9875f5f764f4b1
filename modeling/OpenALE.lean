import OpenALE.Library.Machine
import OpenALE.Library.LinearCode
import OpenALE.Library.Bits
import OpenALE.Library.Segment
import OpenALE.Word.Basic
import OpenALE.Word.Address
import OpenALE.Word.Sequence
import OpenALE.Word.Report
import OpenALE.Message.Validator
import OpenALE.Control.Timing
import OpenALE.Control.Channel
import OpenALE.Control.State
import OpenALE.Control.Transition
import OpenALE.Control.Transmit
import OpenALE.Control.Update
import OpenALE.Control.Receive
import OpenALE.Control.Complete
import OpenALE.Control.Api
import OpenALE.Control.Run
import OpenALE.Control.View
import OpenALE.Control.Diagram
import OpenALE.Control.Reaction
import OpenALE.Control.Trigger
import OpenALE.Control.Held
import OpenALE.Control.Broadcast
import OpenALE.Control.Radio
import OpenALE.Control.Retune
import OpenALE.Control.Sounding
import OpenALE.Control.Linked
import OpenALE.Control.Collected
import OpenALE.Control.Burst
import OpenALE.Control.Drain
import OpenALE.Codec.Golay
import OpenALE.Codec.Interleaver
import OpenALE.Codec.Symbols
import OpenALE.Lqa.Metrics
import OpenALE.Lqa.Database
import OpenALE.Lqa.Exchange
import OpenALE.App.Amd
import OpenALE.App.Controller
import OpenALE.Properties.Transparency
import OpenALE.Properties.Returns
import OpenALE.Properties.Peer
import OpenALE.Properties.Isolation
import OpenALE.Properties.Quiescence
import OpenALE.Properties.HalfDuplex
import OpenALE.Properties.Conservation
import OpenALE.Properties.Message
import OpenALE.Properties.SignOff
import OpenALE.Properties.GroupAddresses
import OpenALE.Properties.Refusal
import OpenALE.Properties.Airtime
import OpenALE.Properties.Sweep
import OpenALE.Properties.Tuning
import OpenALE.Properties.Validity
import OpenALE.Properties.Windows
import OpenALE.Properties.LocalGuard
import OpenALE.Properties.Negotiation
import OpenALE.Properties.References
import OpenALE.Properties.Reports
import OpenALE.Properties.Ages
import OpenALE.Properties.Transfer
import OpenALE.Properties.Durability
import OpenALE.Properties.RollUp
import OpenALE.Properties.Replay
import OpenALE.Properties.Registration
import OpenALE.Properties.Websocket
import OpenALE.Properties.WordGrid
import OpenALE.Properties.SoundingNames
import OpenALE.Properties.TxQueue
import OpenALE.Properties.Occupancy
import OpenALE.Properties.Ranking
import OpenALE.Properties.Retention
import OpenALE.Properties.ChannelFiles
import OpenALE.Properties.MessageFiles
import OpenALE.Properties.ChannelLines
import OpenALE.Properties.LqaFiles
import OpenALE.Properties.PositionReports
import OpenALE.Properties.Acknowledgements
import OpenALE.Properties.Reception
import OpenALE.Properties.DataFrames
import OpenALE.Properties.Resampling
import OpenALE.Properties.Admissions
import OpenALE.Properties.GpsLines
import OpenALE.Properties.WireNumbers
import OpenALE.Properties.WireValues
import OpenALE.Library.Priority
import OpenALE.Library.Spsc
import OpenALE.Library.SplitBy
import OpenALE.Library.Forest
import OpenALE.Pal.HamlibRadio
import OpenALE.App.VoicePath
import OpenALE.Bridge.Rigctld
import OpenALE.Message.Assembler
import OpenALE.Properties.RadioQueue
import OpenALE.Properties.RadioWire
import OpenALE.Properties.RadioCache
import OpenALE.Properties.VoicePath
import OpenALE.Properties.Rigctld
import OpenALE.Properties.Assembly
import OpenALE.Properties.FrameAddresses
import OpenALE.Properties.Senders
import OpenALE.Properties.Scanner
import OpenALE.Properties.Scanning
import OpenALE.Properties.Bystander
import OpenALE.Properties.GroupCalls
import OpenALE.App.Keying
import OpenALE.App.AlsaDevice
import OpenALE.Properties.Keying
import OpenALE.Properties.Playout
