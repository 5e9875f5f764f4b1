import OpenALE.Word.Basic
import OpenALE.Control.Timing

/-!
# Channels and `ALEChannelManager`

Model of `include/Protocol/Control/ale_channel_types.h` and
`src/Protocol/Control/ale_channel_manager.cpp`. A method that fires `on_change_` returns the
channels it was fired for beside the new manager. Left out: `lqa_score`, a float heuristic that
only `select_best` reads, and the channel's call and sounding counters.
-/

namespace OpenALE

/-- `Channel`. -/
structure Channel where
  id : Str := []
  rxFrequencyHz : Nat := 0
  txFrequencyHz : Nat := 0
  rxMode : Str := ['U', 'S', 'B']
  txMode : Str := ['U', 'S', 'B']
  label : Str := []
  enabled : Bool := true
  rxOnly : Bool := false
  txOnly : Bool := false
  voiceUse : Bool := true
  dataUse : Bool := true
  inhibitCalling : Bool := false
  inhibitSounding : Bool := false
  inhibitReporting : Bool := false
  aleOnly : Bool := false
  secure : Bool := false
  powerPct : Nat := 100
  antenna : Nat := 1
  soundingIntervalMs : Nat := 0
  lastScanTimeMs : UInt32 := 0
  deriving Repr, DecidableEq

/-- `ScanConfig`. -/
structure ScanConfig where
  scanList : List Channel := []
  dwellTimeMs : UInt32 := td5Ms
  channelIndex : Nat := 0
  deriving Repr, DecidableEq

/-- `ALEChannelManager`. -/
structure ChannelManager where
  scan : ScanConfig := {}
  lastHopMs : UInt32 := 0
  scanStarted : Bool := false
  overrideActive : Bool := false
  overrideCh : Channel := {}
  deriving Repr, DecidableEq

namespace ChannelManager

variable (m : ChannelManager)

/-- `configure`. -/
def configure (config : ScanConfig) : ChannelManager :=
  { m with scan := config, scanStarted := false }

/-- `add_channel`. -/
def addChannel (ch : Channel) : ChannelManager :=
  { m with scan := { m.scan with scanList := m.scan.scanList ++ [ch] } }

/-- `current`. -/
def current : Option Channel :=
  if m.overrideActive then some m.overrideCh else m.scan.scanList[m.scan.channelIndex]?

/-- `channel_count`. -/
def channelCount : Nat := m.scan.scanList.length

/-- `set_override`. -/
def setOverride (ch : Channel) : ChannelManager × List Channel :=
  ({ m with overrideActive := true, overrideCh := ch }, [ch])

/-- `clear_override`. -/
def clearOverride : ChannelManager := { m with overrideActive := false }

/-- `apply`. -/
def apply (index : Nat) (now : UInt32) : ChannelManager × List Channel :=
  match m.scan.scanList[index]? with
  | none => (m, [])
  | some ch =>
    let ch' := { ch with lastScanTimeMs := now }
    ({ m with scan := { m.scan with
        channelIndex := index, scanList := m.scan.scanList.set index ch' } }, [ch'])

/-- `hop_next`. -/
def hopNext (now : UInt32) : ChannelManager × List Channel :=
  if m.scan.scanList = [] then (m, [])
  else
    let r := m.apply ((m.scan.channelIndex + 1) % m.scan.scanList.length) now
    ({ r.1 with lastHopMs := now }, r.2)

/-- `start`. -/
def start (now : UInt32) : ChannelManager × List Channel :=
  if m.scan.scanList = [] then
    ({ m with scan := { m.scan with channelIndex := 0 }, lastHopMs := now }, [])
  else if !m.scanStarted then
    apply { m with scanStarted := true, lastHopMs := now } 0 now
  else m.hopNext now

/-- `check_dwell_timeout`. -/
def checkDwellTimeout (now : UInt32) : Bool := m.scan.dwellTimeMs ≤ now - m.lastHopMs

/-- `anchor_dwell`. -/
def anchorDwell (now : UInt32) : ChannelManager := { m with lastHopMs := now }

/-- `hop_calling`: fires the callback, changes nothing. -/
def hopCalling (ch : Channel) : List Channel := [ch]

end ChannelManager

end OpenALE
