import OpenALE.Library.Machine
import OpenALE.Modem.Modulator

/-!
# The audio device that plays the words

Model of the playback of `AlsaDevice` (`src/App/alsa_audio.cpp`) between `open` and `close`, with
the modulator it pulls the words from. The main thread hands over words, each with a callback, and
ticks; the audio thread runs `service_render` over and over. Either may stop between any two of its
steps: a poll of the position, each completion, each frame and each write are steps of their own.

* The sound card answers: what `snd_pcm_delay`, `snd_pcm_avail_update` and `snd_pcm_writei` return
  is an input, and so is what the tone generator, the filter and the resampler make of a word or of
  a buffer of voice.
* A frame is a sample; its channels and its format are left out, as is the capture.
* `transmitted`, `pulled`, `ends`, `written`, `played` and `fired` are logs.
-/

namespace OpenALE

/-- What a call of `snd_pcm_writei` comes to. -/
inductive Written where
  | frames (n : Nat)
  | again
  | recovered
  | failed
  deriving Repr, DecidableEq

/-- What the audio thread is told in a step. `word` is a word at the rate of the device: its first
sample and the others. -/
structure Card where
  delay : Int := 0
  avail : Int := 0
  pcm : List Int16 := []
  word : Int16 × List Int16 := (0, [])
  written : Written := .again
  deriving Repr, DecidableEq

/-- Where the audio thread stands in `service_render`. -/
inductive Pass where
  | idle
  /-- The completions, up to what is played. -/
  | completing (played : Nat)
  /-- The batch, with the sources it was begun with. -/
  | filling (avail : Nat) (pcm symbols : Bool) (scratch : List Int16)
  /-- What is left to write. -/
  | writing (rest : List Int16)
  deriving Repr, DecidableEq

/-- The members of `AlsaDevice` that playback is about, and the modulator. `atRenderBuf` is what is
left of the buffer from `at_render_pos_` on. -/
structure AlsaDevice where
  modulator : Modulator := {}
  symPull : Bool := true
  pcmPull : Bool := false
  atRenderBuf : List Int16 := []
  atFramePending : Bool := false
  totalWritten : Nat := 0
  wordPlayTargets : List Nat := []
  framesRendered : Nat := 0
  frameNotifyQueue : List (Nat × ALEWord) := []
  framesArmed : Nat := 0
  periodFrames : Nat := 2400
  pass : Pass := .idle
  /-- The words handed over. -/
  transmitted : List ALEWord := []
  /-- The words pulled, and their samples. -/
  pulled : List (Nat × List Int16) := []
  /-- Where the words end in what is written. -/
  ends : List Nat := []
  /-- The frames the card has taken. -/
  written : List Int16 := []
  /-- The furthest position it said it had played. -/
  played : Nat := 0
  /-- The words whose callback was called. -/
  fired : List ALEWord := []

namespace AlsaDevice

/-! ## The main thread -/

/-- The transmit callback: the word to the modulator, and `arm_frame_complete`. -/
def transmit (d : AlsaDevice) (w : ALEWord) : AlsaDevice :=
  { d with
    modulator := d.modulator.enqueueWord w
    framesArmed := d.framesArmed + 1
    frameNotifyQueue := d.frameNotifyQueue ++ [(d.framesArmed + 1, w)]
    transmitted := d.transmitted ++ [w] }

/-- `tick`, the completions of it. -/
def tick (d : AlsaDevice) : AlsaDevice :=
  let rendered := d.framesRendered
  { d with
    frameNotifyQueue := d.frameNotifyQueue.dropWhile fun n => n.1 ≤ rendered
    fired := d.fired ++ (d.frameNotifyQueue.takeWhile fun n => n.1 ≤ rendered).map Prod.snd }

/-! ## The audio thread -/

/-- `total_written_ - (uint64_t)delay`, with a negative delay taken for none. -/
def playedAt (d : AlsaDevice) (delay : Int) : Nat :=
  if delay.toNat ≤ d.totalWritten then d.totalWritten - delay.toNat
  else (d.totalWritten + 2 ^ 64 - delay.toNat) % 2 ^ 64

/-- The room there is, and the sources of the batch. -/
def startBatch (d : AlsaDevice) (avail : Int) : AlsaDevice :=
  if avail ≤ 0 then { d with pass := .idle }
  else
    { d with pass := .filling (min avail.toNat (d.periodFrames * 4)) d.pcmPull d.symPull [] }

/-- The next sample of the buffer, and the target of a word with its last. -/
def putSample (d : AlsaDevice) (avail : Nat) (pcm symbols : Bool) (scratch : List Int16) :
    AlsaDevice :=
  match d.atRenderBuf with
  | [] => d
  | x :: rest =>
    let d := { d with atRenderBuf := rest, pass := .filling avail pcm symbols (scratch ++ [x]) }
    if d.atFramePending ∧ rest = [] then
      { d with
        wordPlayTargets := d.wordPlayTargets ++ [d.totalWritten + (scratch.length + 1)]
        ends := d.ends ++ [d.totalWritten + (scratch.length + 1)]
        atFramePending := false }
    else d

/-- The rest of the batch is silence. -/
def fillSilence (d : AlsaDevice) (avail : Nat) (scratch : List Int16) : AlsaDevice :=
  { d with pass := .writing (scratch ++ List.replicate (avail - scratch.length) 0) }

/-- One frame of the batch. -/
def fillFrame (d : AlsaDevice) (card : Card) (avail : Nat) (pcm symbols : Bool)
    (scratch : List Int16) : AlsaDevice :=
  if d.atRenderBuf ≠ [] then d.putSample avail pcm symbols scratch
  else if pcm then
    if card.pcm = [] then d.fillSilence avail scratch
    else putSample { d with atRenderBuf := card.pcm } avail pcm symbols scratch
  else if symbols then
    match d.modulator.pullSymbolFrame with
    | (none, _) => d.fillSilence avail scratch
    | (some tx49, modulator) =>
      let samples := card.word.1 :: card.word.2
      putSample
        { d with
          modulator, atRenderBuf := samples, atFramePending := true
          pulled := d.pulled ++ [(tx49, samples)] } avail pcm symbols scratch
  else d.fillSilence avail scratch

/-- A call of `snd_pcm_writei`. -/
def writei (d : AlsaDevice) (rest : List Int16) : Written → AlsaDevice
  | .frames n =>
    { d with
      totalWritten := d.totalWritten + (rest.take n).length
      written := d.written ++ rest.take n
      pass := if rest.drop n = [] then .idle else .writing (rest.drop n) }
  | .again => d
  | .recovered => d
  | .failed => { d with pass := .idle }

/-- A step of `service_render`. -/
def serviceRender (d : AlsaDevice) (card : Card) : AlsaDevice :=
  match d.pass with
  | .idle =>
    { d with
      pass := .completing (d.playedAt card.delay)
      played := max d.played (d.playedAt card.delay) }
  | .completing played =>
    match d.wordPlayTargets with
    | [] => d.startBatch card.avail
    | target :: rest =>
      if target ≤ played then
        { d with wordPlayTargets := rest, framesRendered := d.framesRendered + 1 }
      else d.startBatch card.avail
  | .filling avail pcm symbols scratch =>
    if scratch.length < avail then d.fillFrame card avail pcm symbols scratch
    else { d with pass := .writing scratch }
  | .writing rest => d.writei rest card.written

end AlsaDevice

/-- A step of either thread; `abort` is that of the modulator. -/
inductive DeviceOp where
  | transmit (w : ALEWord)
  | abort
  | tick
  | setSymbolSource (set : Bool)
  | setPcmSource (set : Bool)
  | render (card : Card)
  deriving Repr, DecidableEq

namespace AlsaDevice

/-- One step. -/
def step (d : AlsaDevice) : DeviceOp → AlsaDevice
  | .transmit w => d.transmit w
  | .abort => { d with modulator := d.modulator.abort }
  | .tick => d.tick
  | .setSymbolSource set => { d with symPull := set }
  | .setPcmSource set => { d with pcmPull := set }
  | .render card => d.serviceRender card

end AlsaDevice

end OpenALE
