import OpenALE.Library.Priority

/-!
# The radio and its I/O worker

Model of `HamlibRadio` (`src/PAL/radios/hamlib_radio.cpp`) over its connections: the requests of the
main thread, the queue, and the worker, which takes a command and later carries it out. What the two
threads do in between commutes, so a request and a command that is carried out are one step each.
The answers of the rig are inputs.

* `wire` is the log of the CAT commands since the last start and `flushed` that of the promises that
  were kept, under the number of their request.
* Left out: the trace, the log lines, the serial lines, and the check of `rig_`, which is set while
  the worker runs.
-/

namespace OpenALE.Pal

/-- `RadioMode`. -/
inductive RadioMode where
  | lsb | usb | cw | fm | fmw | am | fsk | rtty | cwR | tune | fskR | dig | dataLsb | dataUsb
  | unknown
  deriving Repr, DecidableEq

/-- `Channel` of `PAL/radio.h`. -/
structure Channel where
  id : UInt8 := 0
  txFrequency : UInt32 := 0
  rxFrequency : UInt32 := 0
  txMode : RadioMode := .usb
  rxMode : RadioMode := .usb
  antenna : Int := 1
  power : Int := 100
  attenuation : Int := 0
  inUse : Bool := false
  deriving Repr, DecidableEq

/-- The modes of Hamlib that are named; `other` is any other. -/
inductive RigMode where
  | usb | lsb | cw | cwr | fm | wfm | am | rtty | rttyr | pktUsb | pktLsb | other
  deriving Repr, DecidableEq

/-- `to_hamlib_mode`. -/
def toHamlibMode : RadioMode → RigMode
  | .usb => .usb
  | .lsb => .lsb
  | .cw => .cw
  | .cwR => .cwr
  | .fm => .fm
  | .fmw => .fm
  | .am => .am
  | .fsk => .rtty
  | .rtty => .rtty
  | .fskR => .rttyr
  | .dataUsb => .pktUsb
  | .dataLsb => .pktLsb
  | .tune => .usb
  | .dig => .usb
  | .unknown => .usb

/-- `from_hamlib_mode`. -/
def fromHamlibMode : RigMode → RadioMode
  | .usb => .usb
  | .lsb => .lsb
  | .cw => .cw
  | .cwr => .cwR
  | .fm => .fm
  | .wfm => .fmw
  | .am => .am
  | .rtty => .rtty
  | .rttyr => .fskR
  | .pktUsb => .dataUsb
  | .pktLsb => .dataLsb
  | .other => .usb

/-- `SerialLinePolicy::PttInput`. -/
inductive PttInput where
  | normal | mic | data
  deriving Repr, DecidableEq

/-- `ptt_t`. -/
inductive PttMode where
  | off | on | onMic | onData
  deriving Repr, DecidableEq

/-- A call of Hamlib. -/
inductive Cat where
  | setFreq (hz : UInt32)
  | setMode (mode : RigMode)
  | setLevel (pct : Int)
  | setPtt (mode : PttMode)
  | setSplit (on : Bool)
  | getFreq
  | getMode
  | getLevel
  deriving Repr, DecidableEq

/-- What `start` finds out about the rig, and the settings of the policy. -/
structure Rig where
  powerSupported : Bool
  powerReadbackSupported : Bool
  splitSupported : Bool
  avoidRelayClick : Bool
  pttInput : PttInput
  deriving Repr, DecidableEq

/-- The answers of the rig while a command is carried out, and the time: whether each setting is
confirmed, and what is read, if anything. -/
structure Answers where
  now : Nat
  freqOk : Bool
  modeOk : Bool
  levelOk : Bool
  pttOk : Bool
  freq : Option UInt32
  mode : Option RigMode
  level : Option Int
  deriving Repr, DecidableEq

/-- `RadioCommand`. -/
inductive RadioCommand where
  | setChannel (ch : Channel)
  | setFrequency (hz : UInt32)
  | setMode (mode : RadioMode)
  | setPower (pct : Int)
  | setPtt (on : Bool)
  | sync
  | flush (number : Nat)
  deriving Repr, DecidableEq

/-- `is_urgent`. -/
def RadioCommand.isUrgent : RadioCommand → Bool
  | .setChannel _ => true
  | .setFrequency _ => true
  | .setMode _ => true
  | .setPtt _ => true
  | .setPower _ => false
  | .sync => false
  | .flush _ => false

/-- The commands that `tunes_in_flight_` counts. -/
def RadioCommand.isTune : RadioCommand → Bool
  | .setChannel _ => true
  | .setFrequency _ => true
  | .setMode _ => true
  | .setPower _ => false
  | .setPtt _ => false
  | .sync => false
  | .flush _ => false

/-- The members of `HamlibRadio` after `initialize`, the command that the worker has in hand, and the
logs. -/
structure HamlibRadio where
  cmdQueue : List RadioCommand := []
  inHand : Option RadioCommand := none
  workerRunning : Bool := false
  ready : Bool := false
  transmitting : Bool := false
  tunesInFlight : Int := 0
  cachedChannel : Channel := {}
  currentChannel : Channel := {}
  lastModeCmd : Nat := 0
  lastSentMode : RadioMode := .lsb
  modeEverSent : Bool := false
  splitState : Bool := false
  wire : List Cat := []
  flushed : List Nat := []
  deriving Repr, DecidableEq

/-- The bounds of a power level. -/
def clampPct (pct : Int) : Int := max 0 (min pct 100)

/-- `MODE_REASSERT_WINDOW` in milliseconds. -/
abbrev modeReassertWindow : Nat := 5000

namespace HamlibRadio

/-! ## Requests -/

/-- `enqueue`. -/
def enqueue (r : HamlibRadio) (cmd : RadioCommand) : HamlibRadio :=
  if r.workerRunning then
    { r with cmdQueue := Priority.enqueue RadioCommand.isUrgent cmd r.cmdQueue }
  else r

/-- A tune is in flight from its request on. -/
def countTune (r : HamlibRadio) : HamlibRadio := { r with tunesInFlight := r.tunesInFlight + 1 }

/-- `set_channel`. -/
def setChannel (r : HamlibRadio) (ch : Channel) : HamlibRadio :=
  ({ r with cachedChannel := ch }).countTune.enqueue (.setChannel ch)

/-- `set_frequency`. -/
def setFrequency (r : HamlibRadio) (hz : UInt32) : HamlibRadio :=
  if hz = 0 then r
  else
    ({ r with cachedChannel := { r.cachedChannel with rxFrequency := hz, txFrequency := hz } }
      ).countTune.enqueue (.setFrequency hz)

/-- `set_mode`. -/
def setMode (r : HamlibRadio) (mode : RadioMode) : HamlibRadio :=
  ({ r with cachedChannel := { r.cachedChannel with rxMode := mode, txMode := mode } }
    ).countTune.enqueue (.setMode mode)

/-- `set_power`. -/
def setPower (r : HamlibRadio) (pct : Int) : HamlibRadio :=
  let pct := clampPct pct
  ({ r with cachedChannel := { r.cachedChannel with power := pct } }).enqueue (.setPower pct)

/-- `set_ptt`. -/
def setPtt (r : HamlibRadio) (transmit : Bool) : HamlibRadio :=
  ({ r with transmitting := transmit }).enqueue (.setPtt transmit)

/-- `sync_from_radio`. -/
def syncFromRadio (r : HamlibRadio) : HamlibRadio := r.enqueue .sync

/-- `flush`, which waits for its promise. -/
def flush (r : HamlibRadio) (number : Nat) : HamlibRadio := r.enqueue (.flush number)

/-- `is_tune_settled`. -/
def isTuneSettled (r : HamlibRadio) : Bool := r.tunesInFlight = 0

/-! ## The worker -/

/-- A call of Hamlib is made. -/
def send (r : HamlibRadio) (c : Cat) : HamlibRadio := { r with wire := r.wire ++ [c] }

/-- `assert_mode`. -/
def assertMode (r : HamlibRadio) (mode : RadioMode) (a : Answers) : HamlibRadio :=
  ({ r with lastModeCmd := a.now, lastSentMode := mode, modeEverSent := true }).send
    (.setMode (toHamlibMode mode))

/-- `assert_power`, and whether it was confirmed. -/
def assertPower (g : Rig) (r : HamlibRadio) (pct : Int) (a : Answers) : HamlibRadio × Bool :=
  if g.powerSupported then (r.send (.setLevel (clampPct pct)), a.levelOk) else (r, false)

/-- `assert_split`. -/
def assertSplit (g : Rig) (r : HamlibRadio) (on : Bool) : HamlibRadio :=
  if g.splitSupported then ({ r with splitState := on }).send (.setSplit on) else r

/-- Split is armed before the frequency of a hop. -/
def armSplit (g : Rig) (r : HamlibRadio) : HamlibRadio :=
  if g.avoidRelayClick && !r.splitState then assertSplit g r true else r

/-- `impl_set_channel`. -/
def implSetChannel (g : Rig) (r : HamlibRadio) (ch : Channel) (a : Answers) : HamlibRadio :=
  let r := armSplit g r
  let r := if ch.txFrequency ≠ r.currentChannel.txFrequency then r.send (.setFreq ch.txFrequency)
    else r
  let r := if !r.modeEverSent || ch.txMode ≠ r.lastSentMode then r.assertMode ch.txMode a
    else { r with lastModeCmd := a.now }
  let powerChanged := g.powerSupported && ch.power ≠ r.currentChannel.power
  let prevPower := r.currentChannel.power
  let (r, ok) := if powerChanged then assertPower g r ch.power a else (r, true)
  let current := if powerChanged && !ok then { ch with power := prevPower } else ch
  { r with currentChannel := current, cachedChannel := current }

/-- `impl_set_frequency`. -/
def implSetFrequency (g : Rig) (r : HamlibRadio) (hz : UInt32) (a : Answers) : HamlibRadio :=
  if hz = 0 then r
  else
    let savedMode := r.currentChannel.txMode
    let r := (armSplit g r).send (.setFreq hz)
    let r := { r with
      currentChannel := { r.currentChannel with rxFrequency := hz, txFrequency := hz } }
    let r := r.assertMode savedMode a
    { r with cachedChannel := { r.cachedChannel with rxFrequency := hz, txFrequency := hz } }

/-- `impl_set_mode`. -/
def implSetMode (r : HamlibRadio) (mode : RadioMode) (a : Answers) : HamlibRadio :=
  let r := r.assertMode mode a
  { r with
    currentChannel := { r.currentChannel with rxMode := mode, txMode := mode }
    cachedChannel := { r.cachedChannel with rxMode := mode, txMode := mode } }

/-- `impl_set_power`. -/
def implSetPower (g : Rig) (r : HamlibRadio) (pct : Int) (a : Answers) : HamlibRadio :=
  let (r, ok) := assertPower g r pct a
  if ok then
    { r with
      currentChannel := { r.currentChannel with power := pct }
      cachedChannel := { r.cachedChannel with power := pct } }
  else r

/-- The mode of `rig_set_ptt`. -/
def pttMode (g : Rig) (on : Bool) : PttMode :=
  if on then
    match g.pttInput with
    | .mic => .onMic
    | .data => .onData
    | .normal => .on
  else .off

/-- `impl_set_ptt`. -/
def implSetPtt (g : Rig) (r : HamlibRadio) (on : Bool) (a : Answers) : HamlibRadio :=
  let r := if g.avoidRelayClick && on && r.splitState then assertSplit g r false else r
  let r := r.send (.setPtt (pttMode g on))
  let r := { r with transmitting := if a.pttOk then on else false }
  if g.avoidRelayClick && !on then assertSplit g r true else r

/-- The power in `impl_sync_from_radio`. -/
def syncPower (g : Rig) (r : HamlibRadio) (a : Answers) : HamlibRadio :=
  if g.powerReadbackSupported then
    let r := r.send .getLevel
    match a.level with
    | none => r
    | some level =>
      let power := clampPct level
      if power ≠ r.currentChannel.power then
        { r with
          currentChannel := { r.currentChannel with power }
          cachedChannel := { r.cachedChannel with power } }
      else r
  else r

/-- `impl_sync_from_radio`. -/
def implSyncFromRadio (g : Rig) (r : HamlibRadio) (a : Answers) : HamlibRadio :=
  if !r.ready then r
  else
    let r := r.send .getFreq
    match a.freq with
    | none => r
    | some hz =>
      let r := r.send .getMode
      match a.mode with
      | none => r
      | some mode =>
        let changed := decide (hz ≠ r.currentChannel.txFrequency)
        let r := if changed then
            { r with
              currentChannel := { r.currentChannel with rxFrequency := hz, txFrequency := hz }
              cachedChannel := { r.cachedChannel with rxFrequency := hz, txFrequency := hz } }
          else r
        -- what the operator changes on the rig is left alone
        let r := if fromHamlibMode mode ≠ r.currentChannel.txMode && !changed &&
            decide (a.now - r.lastModeCmd < modeReassertWindow) then
            r.send (.setMode (toHamlibMode r.currentChannel.txMode))
          else r
        syncPower g r a

/-- A tune is no longer in flight. -/
def settleTune (r : HamlibRadio) : HamlibRadio := { r with tunesInFlight := r.tunesInFlight - 1 }

/-- `worker_dispatch`. -/
def workerDispatch (g : Rig) (r : HamlibRadio) (cmd : RadioCommand) (a : Answers) : HamlibRadio :=
  match cmd with
  | .setChannel ch => (implSetChannel g r ch a).settleTune
  | .setFrequency hz => (implSetFrequency g r hz a).settleTune
  | .setMode mode => (r.implSetMode mode a).settleTune
  | .setPower pct => implSetPower g r pct a
  | .setPtt on => implSetPtt g r on a
  | .sync => implSyncFromRadio g r a
  | .flush number => { r with flushed := r.flushed ++ [number] }

/-- The worker takes the first command from the queue. -/
def take (r : HamlibRadio) : HamlibRadio :=
  match r.inHand, r.cmdQueue with
  | none, cmd :: rest => { r with inHand := some cmd, cmdQueue := rest }
  | _, _ => r

/-- It carries out the command in hand. -/
def dispatch (g : Rig) (r : HamlibRadio) (a : Answers) : HamlibRadio :=
  match r.inHand with
  | none => r
  | some cmd => { workerDispatch g r cmd a with inHand := none }

/-- `stop_worker_`: the command in hand is carried out, the promises in the queue are kept, and the
other commands there are dropped. -/
def stopWorker (g : Rig) (r : HamlibRadio) (a : Answers) : HamlibRadio :=
  if r.workerRunning then
    let r := dispatch g { r with workerRunning := false } a
    { r with
      flushed := r.flushed ++ r.cmdQueue.filterMap fun
        | .flush number => some number
        | _ => none
      cmdQueue := [] }
  else r

/-- `stop`. -/
def stop (g : Rig) (r : HamlibRadio) (a : Answers) : HamlibRadio :=
  { stopWorker g r a with transmitting := false, ready := false }

/-- `start`. A rig that is open is not opened again. -/
def start (r : HamlibRadio) (opened : Bool) : HamlibRadio :=
  if opened && !r.workerRunning then
    { r with
      splitState := false
      currentChannel := {}
      cachedChannel := {}
      tunesInFlight := 0
      ready := true
      workerRunning := true
      wire := [] }
  else r

end HamlibRadio

/-- What happens at a radio. -/
inductive RadioOp where
  | start (opened : Bool)
  | request (cmd : RadioCommand)
  | take
  | dispatch (a : Answers)
  | stop (a : Answers)
  deriving Repr, DecidableEq

namespace HamlibRadio

/-- A request of the main thread. -/
def request (r : HamlibRadio) : RadioCommand → HamlibRadio
  | .setChannel ch => r.setChannel ch
  | .setFrequency hz => r.setFrequency hz
  | .setMode mode => r.setMode mode
  | .setPower pct => r.setPower pct
  | .setPtt on => r.setPtt on
  | .sync => r.syncFromRadio
  | .flush number => r.flush number

/-- One step. -/
def step (g : Rig) (r : HamlibRadio) : RadioOp → HamlibRadio
  | .start opened => r.start opened
  | .request cmd => r.request cmd
  | .take => r.take
  | .dispatch a => dispatch g r a
  | .stop a => stop g r a

end HamlibRadio

end OpenALE.Pal
