import OpenALE.Library.Spsc

/-!
# The voice path

Model of `VoicePathManager` (`src/App/voice_path_manager.cpp`), `AudioTransport`
(`src/App/audio_transport.cpp`) and `AudioMonitor` (`src/App/audio_monitor.cpp`) as the bridge wires
them: the voice link, the operator's PTT, who gets what is received, and what the audio device
renders. The audio thread pulls the microphone from the ring while the main loop pushes; either may
stop between any two of its steps.

* What the decoder makes of a buffer (the link states it announces) and whether the modem has
  something to send are inputs of a tick.
* A device is attached when it was just opened, and then renders symbols.
* The radios are numbered, and `pttCalls` is the log of their PTT.
-/

namespace OpenALE

/-- `VoicePathManager::Mode`. -/
inductive VoiceMode where
  | aleExclusive | voicePassthrough
  deriving Repr, DecidableEq

/-- `AudioTransport::Source`. -/
inductive TxSource where
  | symbol | media | silence
  deriving Repr, DecidableEq

/-- The two objects that are `RxSink`s. -/
inductive RxSink where
  | voice | monitor
  deriving Repr, DecidableEq

/-- `RING_CAP`. -/
abbrev ringCap : Nat := 2048

/-- The values of a `size_t`. -/
abbrev sizeMod : Nat := 2 ^ 64

/-- The members of the three objects, what the device renders, and the logs: what the decoder was
fed, what was sent to the browser and for whom, the PTT of the radios, the resets of the idle timer
and what was said while the PTT was on. -/
structure VoicePath where
  radio : Option Nat
  vac : Option Nat
  armed : Bool
  linked : Bool
  ptt : Bool
  mode : VoiceMode
  ring : Spsc.State Int16
  rxSinks : List RxSink
  lastSource : TxSource
  protocolTxActive : Bool
  mediaTxActive : Bool
  monitorArmed : Bool
  pcmSource : TxSource
  decoded : List Int16
  browser : List (RxSink × List Int16)
  pttCalls : List (Nat × Bool)
  activity : Nat
  spoken : List Int16
  deriving Repr, DecidableEq

namespace VoicePath

/-- At the start of the bridge. -/
def start : VoicePath where
  radio := none
  vac := none
  armed := false
  linked := false
  ptt := false
  mode := .aleExclusive
  ring :=
    { cells := List.replicate ringCap 0, head := 0, tail := 0, sending := none, receiving := none,
      accepted := [], received := [] }
  rxSinks := []
  lastSource := .symbol
  protocolTxActive := false
  mediaTxActive := false
  monitorArmed := false
  pcmSource := .symbol
  decoded := []
  browser := []
  pttCalls := []
  activity := 0
  spoken := []

/-! ## `VoicePathManager` -/

/-- `radio_->set_ptt`, if a radio is attached. -/
def keyRadio (s : VoicePath) (on : Bool) : VoicePath :=
  match s.radio with
  | none => s
  | some radio => { s with pttCalls := s.pttCalls ++ [(radio, on)] }

/-- `passthrough_active`. -/
def passthroughActive (s : VoicePath) : Bool := s.mode = .voicePassthrough

/-- `media_tx_wanted`. -/
def mediaTxWanted (s : VoicePath) : Bool := s.ptt && s.mode = .voicePassthrough

/-- `enter_passthrough_`. -/
def enterPassthrough (s : VoicePath) : VoicePath :=
  { s with mode := .voicePassthrough, ptt := false, rxSinks := s.rxSinks ++ [.voice] }

/-- `exit_passthrough_`. -/
def exitPassthrough (s : VoicePath) : VoicePath :=
  let s := { s with rxSinks := s.rxSinks.filter fun sink => sink ≠ RxSink.voice }
  let s := if s.ptt then { s.keyRadio false with ptt := false } else s
  { s with mode := .aleExclusive }

/-- `on_link_state`. -/
def onLinkState (s : VoicePath) (linked : Bool) : VoicePath :=
  let s := { s with linked }
  let wantPassthrough := linked && s.armed
  if wantPassthrough && s.mode = .aleExclusive then s.enterPassthrough
  else if !wantPassthrough && s.mode = .voicePassthrough then s.exitPassthrough
  else s

/-- `arm`. -/
def arm (s : VoicePath) (on : Bool) : VoicePath := { s with armed := on }.onLinkState s.linked

/-- `set_ptt`. -/
def setPtt (s : VoicePath) (on : Bool) : VoicePath :=
  if s.mode ≠ .voicePassthrough then s
  else if on = s.ptt then s
  else
    let s := { s with ptt := on }
    if on then
      let s := s.keyRadio true
      { s with activity := s.activity + 1 }
    else s.keyRadio false

/-- `push_mic_pcm`, up to the loop. -/
def pushMicPcm (s : VoicePath) (samples : List Int16) : VoicePath :=
  if s.mode ≠ .voicePassthrough then s
  else if !s.ptt then s
  else if samples = [] then s
  else
    { s with
      ring := s.ring.beginPush sizeMod samples
      spoken := if s.ring.sending = none then s.spoken ++ samples else s.spoken }

/-- `on_rx_audio` of both sinks. -/
def onRxAudio (s : VoicePath) (buf : List Int16) : RxSink → VoicePath
  | .voice => { s with browser := s.browser ++ [(.voice, buf)] }
  | .monitor =>
    if s.passthroughActive then s else { s with browser := s.browser ++ [(.monitor, buf)] }

/-! ## `AudioMonitor` -/

/-- `AudioMonitor::arm`. -/
def monitor (s : VoicePath) (on : Bool) : VoicePath :=
  if on = s.monitorArmed then s
  else if on then { s with monitorArmed := on, rxSinks := s.rxSinks ++ [.monitor] }
  else { s with monitorArmed := on, rxSinks := s.rxSinks.filter fun sink => sink ≠ RxSink.monitor }

/-! ## `AudioTransport` -/

/-- `attach` of both. -/
def attach (s : VoicePath) (vac radio : Option Nat) : VoicePath :=
  let s := { s with radio }
  if vac = s.vac then s else { s with vac, lastSource := .symbol, pcmSource := .symbol }

/-- What `arbitrate_tx_` wants, and whether the modem and the microphone transmit. -/
def wantSource (s : VoicePath) (protocol : Bool) : TxSource × Bool × Bool :=
  if protocol then (.symbol, true, false)
  else if s.mediaTxWanted then (.media, false, true)
  else if s.passthroughActive then (.silence, false, false)
  else (.symbol, false, false)

/-- `arbitrate_tx_`. -/
def arbitrateTx (s : VoicePath) (protocol : Bool) : VoicePath :=
  let (want, protocolTxActive, mediaTxActive) := s.wantSource protocol
  let s := { s with protocolTxActive, mediaTxActive }
  if want = s.lastSource then s else { s with pcmSource := want, lastSource := want }

/-- The decoder is fed, and announces what it makes of it. -/
def feedDecoder (s : VoicePath) (rx : List Int16) (links : List Bool) : VoicePath :=
  if rx = [] then s else links.foldl onLinkState { s with decoded := s.decoded ++ rx }

/-- The sinks are called one after the other. -/
def fanOut (s : VoicePath) (rx : List Int16) : VoicePath :=
  if rx ≠ [] && !s.protocolTxActive && !s.mediaTxActive then
    s.rxSinks.foldl (fun s sink => s.onRxAudio rx sink) s
  else s

/-- `tick`. -/
def tick (s : VoicePath) (rx : List Int16) (links : List Bool) (protocol : Bool) : VoicePath :=
  match s.vac with
  | none => s
  | some _ => ((s.feedDecoder rx links).arbitrateTx protocol).fanOut rx

/-- `pull_mic_pcm`, up to the loop; the audio thread calls it where the device renders the
microphone. -/
def pullMicPcm (s : VoicePath) (want : Nat) : VoicePath :=
  match s.pcmSource with
  | .media => { s with ring := s.ring.beginPull sizeMod want }
  | .symbol => s
  | .silence => s

end VoicePath

/-- What happens at the voice path. -/
inductive VoiceOp where
  | attach (vac radio : Option Nat)
  | arm (on : Bool)
  | link (linked : Bool)
  | ptt (on : Bool)
  | monitor (on : Bool)
  | tick (rx : List Int16) (links : List Bool) (protocol : Bool)
  | pushMic (samples : List Int16)
  | pullMic (want : Nat)
  | ring (op : Spsc.Op Int16)
  deriving Repr, DecidableEq

/-- What is left of a push or of a pull: a cell, or the publication of the counter. -/
def ringOp : Spsc.Op Int16 → Bool
  | .beginPush _ => false
  | .beginPull _ => false
  | .write => true
  | .endPush => true
  | .read => true
  | .endPull => true

/-- One step. -/
def VoicePath.step (s : VoicePath) : VoiceOp → VoicePath
  | .attach vac radio => s.attach vac radio
  | .arm on => s.arm on
  | .link linked => s.onLinkState linked
  | .ptt on => s.setPtt on
  | .monitor on => s.monitor on
  | .tick rx links protocol => s.tick rx links protocol
  | .pushMic samples => s.pushMicPcm samples
  | .pullMic want => s.pullMicPcm want
  | .ring op => if ringOp op then { s with ring := s.ring.step sizeMod op } else s

end OpenALE
