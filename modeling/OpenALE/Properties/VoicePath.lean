import OpenALE.App.VoicePath

/-!
# The voice path over whole runs

Results:
* `wired_run`: when the voice link is up and who is registered.
* `tick_sends`: what a tick installs on the device and sends to the browser.
* `keyed_iff`: when the radio is keyed just while the operator's PTT is on.
* `mic_in_order`, `mic_complete_iff`: what is transmitted of what is said.
-/

namespace OpenALE

namespace VoicePath

variable {s : VoicePath}

/-! ## What every step keeps -/

/-- What holds whatever the link does. -/
structure Core (s : VoicePath) : Prop where
  ptt : s.ptt = true → s.mode = .voicePassthrough
  voice : s.rxSinks.count .voice = if s.mode = .voicePassthrough then 1 else 0
  monitor : s.rxSinks.count .monitor = if s.monitorArmed then 1 else 0
  source : s.pcmSource = s.lastSource
  ring : Spsc.Ok sizeMod s.ring
  spoken : s.ring.accepted.Sublist s.spoken

/-- The voice link is up just while the station is linked and voice is armed. -/
def Linked (s : VoicePath) : Prop := s.mode = .voicePassthrough ↔ s.armed = true ∧ s.linked = true

/-- The path is in order. -/
structure Wired (s : VoicePath) : Prop extends Core s where
  linked : Linked s

theorem count_filter_ne (sink : RxSink) (sinks : List RxSink) :
    (sinks.filter fun x => x ≠ sink).count sink = 0 :=
  List.count_eq_zero.mpr fun h => of_decide_eq_true (List.mem_filter.mp h).2 rfl

theorem count_filter_other {sink other : RxSink} (hne : other ≠ sink) (sinks : List RxSink) :
    (sinks.filter fun x => x ≠ sink).count other = sinks.count other :=
  List.count_filter (decide_eq_true hne)

@[simp] theorem keyRadio_with (s : VoicePath) (on : Bool) :
    ∃ calls, s.keyRadio on = { s with pttCalls := calls } := by
  unfold keyRadio
  split
  · exact ⟨s.pttCalls, rfl⟩
  · exact ⟨_, rfl⟩

theorem Core.enterPassthrough (h : Core s) (hmode : s.mode = .aleExclusive) :
    Core s.enterPassthrough where
  ptt := nofun
  voice := by
    have hvoice := h.voice
    rw [hmode] at hvoice
    unfold VoicePath.enterPassthrough
    rw [List.count_append, hvoice]
    rfl
  monitor := by
    unfold VoicePath.enterPassthrough
    rw [List.count_append, h.monitor]
    rfl
  source := h.source
  ring := h.ring
  spoken := h.spoken

theorem Core.exitPassthrough (h : Core s) : Core s.exitPassthrough := by
  have hoff : ∀ calls, Core { s with
      rxSinks := s.rxSinks.filter fun sink => sink ≠ RxSink.voice
      pttCalls := calls
      ptt := false
      mode := .aleExclusive } := fun calls =>
    { ptt := nofun
      voice := count_filter_ne _ _
      monitor := (count_filter_other (by decide) _).trans h.monitor
      source := h.source
      ring := h.ring
      spoken := h.spoken }
  unfold VoicePath.exitPassthrough
  dsimp only
  split_ifs with hptt
  · obtain ⟨calls, hcalls⟩ := keyRadio_with { s with
      rxSinks := s.rxSinks.filter fun sink => sink ≠ RxSink.voice } false
    rw [hcalls]
    exact hoff calls
  · have hfalse : s.ptt = false := eq_false_of_ne_true hptt
    have hsame := hoff s.pttCalls
    rw [← hfalse] at hsame
    exact hsame

/-- The modes are two. -/
theorem mode_cases (s : VoicePath) : s.mode = .aleExclusive ∨ s.mode = .voicePassthrough := by
  cases s.mode with
  | aleExclusive => exact .inl rfl
  | voicePassthrough => exact .inr rfl

@[simp] theorem armed_exitPassthrough (s : VoicePath) :
    s.exitPassthrough.armed = s.armed ∧ s.exitPassthrough.linked = s.linked := by
  unfold VoicePath.exitPassthrough
  dsimp only
  split_ifs
  · obtain ⟨calls, hcalls⟩ := keyRadio_with { s with
      rxSinks := s.rxSinks.filter fun sink => sink ≠ RxSink.voice } false
    rw [hcalls]
    exact ⟨rfl, rfl⟩
  · exact ⟨rfl, rfl⟩

/-- What a link state can do. -/
theorem onLinkState_cases (s : VoicePath) (linked : Bool) :
    (s.mode = .aleExclusive ∧ (s.armed = true ∧ linked = true) ∧
      s.onLinkState linked = { s with linked }.enterPassthrough) ∨
    (s.mode = .voicePassthrough ∧ ¬ (s.armed = true ∧ linked = true) ∧
      s.onLinkState linked = { s with linked }.exitPassthrough) ∨
    ((s.mode = .voicePassthrough ↔ s.armed = true ∧ linked = true) ∧
      s.onLinkState linked = { s with linked }) := by
  have hwant : (linked && s.armed) = true ↔ s.armed = true ∧ linked = true := by
    rw [Bool.and_eq_true_iff, and_comm]
  unfold VoicePath.onLinkState
  dsimp only
  split_ifs with henter hexit
  · rw [Bool.and_eq_true_iff, hwant, decide_eq_true_eq] at henter
    exact .inl ⟨henter.2, henter.1, rfl⟩
  · rw [Bool.and_eq_true_iff, Bool.not_eq_true', ← Bool.not_eq_true, hwant,
      decide_eq_true_eq] at hexit
    exact .inr (.inl ⟨hexit.2, hexit.1, rfl⟩)
  · rw [Bool.and_eq_true_iff, hwant, decide_eq_true_eq] at henter
    rw [Bool.and_eq_true_iff, Bool.not_eq_true', ← Bool.not_eq_true, hwant,
      decide_eq_true_eq] at hexit
    refine .inr (.inr ⟨⟨fun hmode => ?_, fun hboth => ?_⟩, rfl⟩)
    · exact not_not.mp fun hnot => hexit ⟨hnot, hmode⟩
    · exact (mode_cases s).resolve_left fun hmode => henter ⟨hboth, hmode⟩

theorem Core.onLinkState (h : Core s) (linked : Bool) : Wired (s.onLinkState linked) := by
  have hcore : Core { s with linked } := ⟨h.ptt, h.voice, h.monitor, h.source, h.ring, h.spoken⟩
  obtain ⟨hmode, hboth, henter⟩ | ⟨-, hnot, hexit⟩ | ⟨hiff, hsame⟩ := onLinkState_cases s linked
  · rw [henter]
    exact ⟨hcore.enterPassthrough hmode, iff_of_true rfl hboth⟩
  · rw [hexit]
    obtain ⟨harmed, hlinked⟩ := armed_exitPassthrough { s with linked }
    refine ⟨hcore.exitPassthrough, iff_of_false nofun ?_⟩
    rwa [harmed, hlinked]
  · rw [hsame]
    exact ⟨hcore, hiff⟩

theorem Wired.foldl_onLinkState (h : Wired s) (links : List Bool) :
    Wired (links.foldl VoicePath.onLinkState s) := by
  induction links generalizing s with
  | nil => exact h
  | cons linked links ih => exact ih (h.toCore.onLinkState linked)

theorem Wired.setPtt (h : Wired s) (on : Bool) : Wired (s.setPtt on) := by
  unfold VoicePath.setPtt
  dsimp only
  split_ifs with hmode hsame hon
  · exact h
  · exact h
  · obtain ⟨calls, hcalls⟩ := keyRadio_with { s with ptt := on } true
    rw [hcalls]
    exact ⟨⟨fun _ => not_not.mp hmode, h.voice, h.monitor, h.source, h.ring, h.spoken⟩, h.linked⟩
  · obtain ⟨calls, hcalls⟩ := keyRadio_with { s with ptt := on } false
    rw [hcalls]
    exact ⟨⟨fun _ => not_not.mp hmode, h.voice, h.monitor, h.source, h.ring, h.spoken⟩, h.linked⟩

theorem Wired.setMonitor (h : Wired s) (on : Bool) : Wired (s.monitor on) := by
  unfold VoicePath.monitor
  split_ifs with hsame hon
  · exact h
  · have hfalse : s.monitorArmed = false := by
      cases hs : s.monitorArmed with
      | false => rfl
      | true => exact absurd (hon.trans hs.symm) hsame
    refine ⟨⟨h.ptt, ?_, ?_, h.source, h.ring, h.spoken⟩, h.linked⟩
    · rw [List.count_append, h.voice]
      rfl
    · rw [List.count_append, h.monitor, hfalse, hon]
      rfl
  · refine ⟨⟨h.ptt, ?_, ?_, h.source, h.ring, h.spoken⟩, h.linked⟩
    · exact (count_filter_other (by decide) _).trans h.voice
    · rw [if_neg hon]
      exact count_filter_ne _ _

theorem Wired.attach (h : Wired s) (vac radio : Option Nat) : Wired (s.attach vac radio) := by
  unfold VoicePath.attach
  dsimp only
  split_ifs
  · exact ⟨⟨h.ptt, h.voice, h.monitor, h.source, h.ring, h.spoken⟩, h.linked⟩
  · exact ⟨⟨h.ptt, h.voice, h.monitor, rfl, h.ring, h.spoken⟩, h.linked⟩

theorem Wired.feedDecoder (h : Wired s) (rx : List Int16) (links : List Bool) :
    Wired (s.feedDecoder rx links) := by
  unfold VoicePath.feedDecoder
  split_ifs
  · exact h
  · have hfed : Wired { s with decoded := s.decoded ++ rx } :=
      ⟨⟨h.ptt, h.voice, h.monitor, h.source, h.ring, h.spoken⟩, h.linked⟩
    exact hfed.foldl_onLinkState links

/-- The arbiter installs what it wants. -/
theorem arbitrateTx_with (h : s.pcmSource = s.lastSource) (protocol : Bool) :
    s.arbitrateTx protocol = { s with
      protocolTxActive := (s.wantSource protocol).2.1
      mediaTxActive := (s.wantSource protocol).2.2
      pcmSource := (s.wantSource protocol).1
      lastSource := (s.wantSource protocol).1 } := by
  unfold VoicePath.arbitrateTx
  dsimp only
  split_ifs with hsame
  · rw [hsame, ← h]
  · rfl

theorem Wired.arbitrateTx (h : Wired s) (protocol : Bool) : Wired (s.arbitrateTx protocol) := by
  rw [arbitrateTx_with h.source]
  exact ⟨⟨h.ptt, h.voice, h.monitor, rfl, h.ring, h.spoken⟩, h.linked⟩

/-- What a sink sends to the browser. -/
def heard (passthrough : Bool) (rx : List Int16) : RxSink → List (RxSink × List Int16)
  | .voice => [(.voice, rx)]
  | .monitor => if passthrough then [] else [(.monitor, rx)]

theorem onRxAudio_with (s : VoicePath) (rx : List Int16) (sink : RxSink) :
    s.onRxAudio rx sink =
      { s with browser := s.browser ++ heard s.passthroughActive rx sink } := by
  cases sink with
  | voice => rfl
  | monitor =>
    unfold onRxAudio heard
    dsimp only
    split_ifs
    · rw [List.append_nil]
    · rfl

/-- The sinks only send to the browser. -/
theorem foldl_onRxAudio_with (s : VoicePath) (rx : List Int16) (sinks : List RxSink) :
    sinks.foldl (fun s sink => s.onRxAudio rx sink) s =
      { s with browser := s.browser ++ sinks.flatMap (heard s.passthroughActive rx) } := by
  induction sinks generalizing s with
  | nil => simp
  | cons sink sinks ih =>
    rw [List.foldl_cons, onRxAudio_with, ih, List.flatMap_cons, ← List.append_assoc]
    rfl

theorem Wired.fanOut (h : Wired s) (rx : List Int16) : Wired (s.fanOut rx) := by
  unfold VoicePath.fanOut
  split_ifs
  · rw [foldl_onRxAudio_with]
    exact ⟨⟨h.ptt, h.voice, h.monitor, h.source, h.ring, h.spoken⟩, h.linked⟩
  · exact h

theorem Wired.tick (h : Wired s) (rx : List Int16) (links : List Bool) (protocol : Bool) :
    Wired (s.tick rx links protocol) := by
  unfold VoicePath.tick
  cases s.vac with
  | none => exact h
  | some vac => exact ((h.feedDecoder rx links).arbitrateTx protocol).fanOut rx

theorem Wired.pushMicPcm (h : Wired s) (samples : List Int16) : Wired (s.pushMicPcm samples) := by
  unfold VoicePath.pushMicPcm
  split_ifs with hmode hptt hempty hidle
  · exact h
  · exact h
  · exact h
  · refine ⟨⟨h.ptt, h.voice, h.monitor, h.source, h.ring.step (.beginPush samples), ?_⟩, h.linked⟩
    unfold Spsc.State.beginPush
    rw [hidle]
    exact h.spoken.append (List.take_sublist _ _)
  · refine ⟨⟨h.ptt, h.voice, h.monitor, h.source, h.ring.step (.beginPush samples), ?_⟩, h.linked⟩
    have hsame : s.ring.beginPush sizeMod samples = s.ring := by
      unfold Spsc.State.beginPush
      split
      · rfl
      · exact absurd ‹_› hidle
    rw [hsame]
    exact h.spoken

theorem accepted_ringOp {op : Spsc.Op Int16} (hop : ringOp op = true) (ring : Spsc.State Int16) :
    (ring.step sizeMod op).accepted = ring.accepted := by
  cases op with
  | beginPush xs => cases hop
  | beginPull want => cases hop
  | _ =>
    simp only [Spsc.State.step, Spsc.State.write, Spsc.State.endPush, Spsc.State.read,
      Spsc.State.endPull]
    split <;> rfl

theorem accepted_beginPull (want : Nat) (ring : Spsc.State Int16) :
    (ring.beginPull sizeMod want).accepted = ring.accepted := by
  unfold Spsc.State.beginPull
  split <;> rfl

/-- **What every step keeps.** -/
theorem Wired.step (h : Wired s) (op : VoiceOp) : Wired (s.step op) := by
  cases op with
  | attach vac radio => exact h.attach vac radio
  | arm on =>
    have hcore : Core { s with armed := on } :=
      ⟨h.ptt, h.voice, h.monitor, h.source, h.ring, h.spoken⟩
    exact hcore.onLinkState s.linked
  | link linked => exact h.toCore.onLinkState linked
  | ptt on => exact h.setPtt on
  | monitor on => exact h.setMonitor on
  | tick rx links protocol => exact h.tick rx links protocol
  | pushMic samples => exact h.pushMicPcm samples
  | pullMic want =>
    change Wired (s.pullMicPcm want)
    unfold pullMicPcm
    split
    · refine ⟨⟨h.ptt, h.voice, h.monitor, h.source, h.ring.step (.beginPull want), ?_⟩, h.linked⟩
      rw [accepted_beginPull]
      exact h.spoken
    · exact h
    · exact h
  | ring op =>
    rw [VoicePath.step]
    split_ifs with hop
    · refine ⟨⟨h.ptt, h.voice, h.monitor, h.source, h.ring.step op, ?_⟩, h.linked⟩
      rw [accepted_ringOp hop]
      exact h.spoken
    · exact h

theorem length_start : start.ring.cells.length = ringCap := List.length_replicate

theorem wired_start : Wired start where
  ptt := nofun
  voice := rfl
  monitor := rfl
  source := rfl
  ring := by
    refine Spsc.ok_init ?_ ?_ ?_
    all_goals
      rw [List.length_replicate]
      decide
  spoken := List.Sublist.refl _
  linked := by
    unfold Linked
    decide

theorem wired_after (ops : List VoiceOp) : Wired (Machine.run step start ops) := by
  have hstep : ∀ s op, Wired s → Wired (step s op) := fun _ op h => h.step op
  exact (Machine.allStates_of_inv' hstep wired_start ops).last

/-- **The wiring.** Along every run the voice link is up just while the station is linked and voice
is armed, the operator's PTT is on only then, and the voice path and the monitor are registered
once while they are up and not otherwise. -/
theorem wired_run (ops : List VoiceOp) :
    let s := Machine.run step start ops
    (s.passthroughActive = true ↔ s.armed = true ∧ s.linked = true) ∧
      (s.ptt = true → s.passthroughActive = true) ∧
      s.rxSinks.count .voice = (if s.passthroughActive then 1 else 0) ∧
      s.rxSinks.count .monitor = (if s.monitorArmed then 1 else 0) := by
  have h := wired_after ops
  have hpass : ∀ s : VoicePath, s.passthroughActive = true ↔ s.mode = .voicePassthrough :=
    fun _ => decide_eq_true_iff
  dsimp only
  refine ⟨(hpass _).trans h.linked, fun hptt => (hpass _).mpr (h.ptt hptt), ?_, h.monitor⟩
  rw [h.voice]
  exact if_congr (hpass _).symm rfl rfl

/-! ## A tick -/

theorem flatMap_heard_voice (rx : List Int16) (sinks : List RxSink) :
    sinks.flatMap (heard true rx) = List.replicate (sinks.count .voice) (.voice, rx) := by
  induction sinks with
  | nil => rfl
  | cons sink sinks ih =>
    rw [List.flatMap_cons, ih]
    cases sink with
    | voice =>
      rw [List.count_cons_self, List.replicate_succ]
      rfl
    | monitor =>
      rw [List.count_cons_of_ne (by decide)]
      rfl

theorem flatMap_heard_monitor (rx : List Int16) {sinks : List RxSink}
    (h : sinks.count .voice = 0) :
    sinks.flatMap (heard false rx) = List.replicate (sinks.count .monitor) (.monitor, rx) := by
  induction sinks with
  | nil => rfl
  | cons sink sinks ih =>
    cases sink with
    | voice =>
      rw [List.count_cons_self] at h
      cases h
    | monitor =>
      rw [List.count_cons_of_ne (by decide)] at h
      rw [List.flatMap_cons, ih h, List.count_cons_self, List.replicate_succ]
      rfl

/-- What the device should render. -/
def chosen (t : VoicePath) (protocol : Bool) : TxSource :=
  if protocol then .symbol
  else if t.ptt then .media
  else if t.armed && t.linked then .silence
  else .symbol

/-- What the browser should hear. -/
def playable (t : VoicePath) (rx : List Int16) (protocol : Bool) : List (RxSink × List Int16) :=
  if rx = [] ∨ protocol = true ∨ t.ptt = true then []
  else if t.armed && t.linked then [(.voice, rx)]
  else if t.monitorArmed then [(.monitor, rx)]
  else []

theorem Wired.passthrough (h : Wired s) : s.passthroughActive = (s.armed && s.linked) := by
  rw [Bool.eq_iff_iff, Bool.and_eq_true_iff]
  exact decide_eq_true_iff.trans h.linked

theorem Wired.media (h : Wired s) : s.mediaTxWanted = s.ptt := by
  rw [Bool.eq_iff_iff]
  unfold VoicePath.mediaTxWanted
  rw [Bool.and_eq_true_iff, decide_eq_true_eq]
  exact and_iff_left_of_imp h.ptt

/-- The source that is wanted. -/
theorem Wired.wantSource_eq (h : Wired s) (protocol : Bool) :
    s.wantSource protocol = (chosen s protocol, protocol, !protocol && s.ptt) := by
  unfold wantSource chosen
  rw [h.media, h.passthrough]
  cases protocol with
  | true => rfl
  | false => cases s.ptt <;> cases s.armed && s.linked <;> rfl

theorem Wired.browser_fanOut (h : Wired s) (rx : List Int16) (protocol : Bool) :
    ((s.arbitrateTx protocol).fanOut rx).browser = s.browser ++ playable s rx protocol := by
  have hvoice := h.voice
  rw [arbitrateTx_with h.source, h.wantSource_eq]
  unfold VoicePath.fanOut playable
  dsimp only
  by_cases hquiet : rx = [] ∨ protocol = true ∨ s.ptt = true
  · rw [if_neg, if_pos hquiet, List.append_nil]
    rw [Bool.and_eq_true_iff, Bool.and_eq_true_iff, decide_eq_true_eq]
    rintro ⟨⟨hne, hp⟩, hm⟩
    obtain hnil | hprotocol | hptt := hquiet
    · exact hne hnil
    · rw [hprotocol] at hp
      cases hp
    · cases protocol with
      | true => cases hp
      | false =>
        rw [hptt] at hm
        cases hm
  · obtain ⟨hne, hprotocol, hptt⟩ : rx ≠ [] ∧ protocol = false ∧ s.ptt = false := by
      push Not at hquiet
      exact ⟨hquiet.1, eq_false_of_ne_true hquiet.2.1, eq_false_of_ne_true hquiet.2.2⟩
    rw [if_neg hquiet, hprotocol, hptt, if_pos (by simp [hne]), foldl_onRxAudio_with]
    dsimp only
    congr 1
    have hpass := h.passthrough
    change s.rxSinks.flatMap (heard s.passthroughActive rx) = _
    cases hup : s.armed && s.linked with
    | true =>
      rw [hup] at hpass
      rw [if_pos (of_decide_eq_true hpass)] at hvoice
      rw [hpass, flatMap_heard_voice, hvoice]
      rfl
    | false =>
      rw [hup] at hpass
      rw [if_neg (of_decide_eq_false hpass)] at hvoice
      rw [hpass, flatMap_heard_monitor rx hvoice, h.monitor]
      cases s.monitorArmed <;> rfl

/-- The decoder is fed what is received, and only the link changes. -/
theorem feedDecoder_logs (s : VoicePath) (rx : List Int16) (links : List Bool) :
    (s.feedDecoder rx links).decoded = s.decoded ++ rx ∧
      (s.feedDecoder rx links).browser = s.browser := by
  have hlink : ∀ (s : VoicePath) (linked : Bool), (s.onLinkState linked).decoded = s.decoded ∧
      (s.onLinkState linked).browser = s.browser := by
    intro s linked
    obtain ⟨-, -, h⟩ | ⟨-, -, h⟩ | ⟨-, h⟩ := onLinkState_cases s linked
    · rw [h]
      exact ⟨rfl, rfl⟩
    · rw [h]
      unfold VoicePath.exitPassthrough
      dsimp only
      split_ifs
      · obtain ⟨calls, hcalls⟩ := keyRadio_with { s with
          linked, rxSinks := s.rxSinks.filter fun sink => sink ≠ RxSink.voice } false
        rw [hcalls]
        exact ⟨rfl, rfl⟩
      · exact ⟨rfl, rfl⟩
    · rw [h]
      exact ⟨rfl, rfl⟩
  have hlinks : ∀ (links : List Bool) (s : VoicePath),
      (links.foldl onLinkState s).decoded = s.decoded ∧
        (links.foldl onLinkState s).browser = s.browser := by
    intro links
    induction links with
    | nil => exact fun _ => ⟨rfl, rfl⟩
    | cons linked links ih =>
      intro s
      obtain ⟨hdecoded, hbrowser⟩ := ih (s.onLinkState linked)
      obtain ⟨hdecoded', hbrowser'⟩ := hlink s linked
      exact ⟨hdecoded.trans hdecoded', hbrowser.trans hbrowser'⟩
  unfold VoicePath.feedDecoder
  split_ifs with hempty
  · rw [hempty, List.append_nil]
    exact ⟨rfl, rfl⟩
  · exact hlinks links { s with decoded := s.decoded ++ rx }

/-- **A tick** with a device, in every state that a run reaches: the decoder is fed all that is
received; then the device renders symbols if the modem sends, else the microphone if the PTT is on,
else silence on a voice link and symbols off it; and the browser gets what is received once, on a
voice link or for the monitor, and nothing while the station transmits. -/
theorem tick_sends {ops : List VoiceOp} (hvac : (Machine.run step start ops).vac ≠ none)
    (rx : List Int16) (links : List Bool) (protocol : Bool) :
    let s := Machine.run step start ops
    let t := s.feedDecoder rx links
    (s.tick rx links protocol).decoded = s.decoded ++ rx ∧
      (s.tick rx links protocol).pcmSource = chosen t protocol ∧
      (s.tick rx links protocol).browser = s.browser ++ playable t rx protocol := by
  have h := (wired_after ops).feedDecoder rx links
  generalize Machine.run step start ops = s at hvac h ⊢
  dsimp only
  obtain ⟨vac, hvac⟩ := Option.ne_none_iff_exists'.mp hvac
  obtain ⟨hdecoded, hbrowser⟩ := feedDecoder_logs s rx links
  have hfan : ∀ t : VoicePath, (t.fanOut rx).decoded = t.decoded ∧
      (t.fanOut rx).pcmSource = t.pcmSource := by
    intro t
    unfold VoicePath.fanOut
    split_ifs
    · rw [foldl_onRxAudio_with]
      exact ⟨rfl, rfl⟩
    · exact ⟨rfl, rfl⟩
  unfold VoicePath.tick
  rw [hvac]
  dsimp only
  obtain ⟨hdecoded', hsource⟩ := hfan ((s.feedDecoder rx links).arbitrateTx protocol)
  refine ⟨?_, ?_, ?_⟩
  · rw [hdecoded', arbitrateTx_with h.source, ← hdecoded]
  · rw [hsource, arbitrateTx_with h.source, h.wantSource_eq]
  · rw [h.browser_fanOut, hbrowser]

theorem tick_sends_link :
    let s := Machine.run step start [.attach (some 0) none, .arm true]
    let t := s.feedDecoder [7] [true]
    (s.tick [7] [true] false).decoded = s.decoded ++ [7] ∧
      (s.tick [7] [true] false).pcmSource = chosen t false ∧
      (s.tick [7] [true] false).browser = s.browser ++ playable t [7] false := by
  have hvac : (Machine.run step start [.attach (some 0) none, .arm true]).vac ≠ none := by
    decide +kernel
  exact tick_sends hvac [7] [true] false

/-! ## The PTT of the radio -/

/-- The last that a radio was told is to transmit. -/
def keyed (s : VoicePath) (radio : Nat) : Prop :=
  (s.pttCalls.filter fun call => call.1 = radio).getLast? = some (radio, true)

/-- A radio is keyed just while it is attached and the operator's PTT is on. -/
def Keyed (s : VoicePath) : Prop :=
  ∀ radio, s.keyed radio ↔ s.ptt = true ∧ s.radio = some radio

/-- Another radio is attached while the PTT is on. -/
def Swaps (s : VoicePath) : VoiceOp → Prop
  | .attach _ radio => s.ptt = true ∧ radio ≠ s.radio
  | _ => False

theorem keyed_append (s : VoicePath) (radio other : Nat) (on : Bool) :
    keyed { s with pttCalls := s.pttCalls ++ [(other, on)] } radio ↔
      if other = radio then on = true else s.keyed radio := by
  unfold keyed
  dsimp only
  rw [List.filter_append, List.filter_singleton]
  by_cases hsame : other = radio
  · rw [if_pos hsame, hsame]
    simp
  · rw [if_neg hsame]
    simp [hsame]

theorem keyed_congr {s' : VoicePath} (h : Keyed s) (hcalls : s'.pttCalls = s.pttCalls)
    (hptt : s'.ptt = s.ptt) (hradio : s'.radio = s.radio) : Keyed s' := by
  intro radio
  unfold keyed
  rw [hcalls, hptt, hradio]
  exact h radio

/-- Without the PTT nothing is keyed. -/
theorem keyed_off {s' : VoicePath} (h : Keyed s) (hoff : s.ptt = false)
    (hcalls : s'.pttCalls = s.pttCalls) (hoff' : s'.ptt = false) : Keyed s' := by
  intro radio
  have hnot : ¬ s.keyed radio := by
    rw [h radio, hoff]
    exact fun hboth => Bool.noConfusion hboth.1
  unfold keyed at hnot ⊢
  rw [hcalls, hoff']
  exact iff_of_false hnot fun hboth => Bool.noConfusion hboth.1

/-- The PTT goes off. -/
theorem Keyed.release {s' : VoicePath} (h : Keyed s)
    (hcalls : s'.pttCalls = (s.keyRadio false).pttCalls) (hoff : s'.ptt = false) : Keyed s' := by
  intro radio
  have hnot : ¬ s'.keyed radio := by
    have hkeyed := h radio
    unfold keyRadio at hcalls
    cases hradio : s.radio with
    | none =>
      rw [hradio] at hcalls hkeyed
      unfold keyed at hkeyed ⊢
      rw [hcalls]
      exact fun hon => nomatch (hkeyed.mp hon).2
    | some other =>
      rw [hradio] at hcalls hkeyed
      have happend := keyed_append s radio other false
      unfold keyed at happend hkeyed ⊢
      rw [hcalls, happend]
      split_ifs with hsame
      · exact nofun
      · rw [hkeyed]
        exact fun hboth => hsame (Option.some.inj hboth.2)
  rw [hoff]
  exact iff_of_false hnot fun hboth => Bool.noConfusion hboth.1

/-- The PTT goes on. -/
theorem Keyed.press {s' : VoicePath} (h : Keyed s) (hoff : s.ptt = false)
    (hcalls : s'.pttCalls = (s.keyRadio true).pttCalls) (hon : s'.ptt = true)
    (hradio' : s'.radio = s.radio) : Keyed s' := by
  intro radio
  have hnot : ¬ s.keyed radio := by
    rw [h radio, hoff]
    exact fun hboth => Bool.noConfusion hboth.1
  unfold keyRadio at hcalls
  rw [hon, hradio']
  cases hradio : s.radio with
  | none =>
    rw [hradio] at hcalls
    unfold keyed at hnot ⊢
    rw [hcalls]
    exact iff_of_false hnot fun hboth => nomatch hboth.2
  | some other =>
    rw [hradio] at hcalls
    have happend := keyed_append s radio other true
    unfold keyed at happend hnot ⊢
    rw [hcalls, happend]
    split_ifs with hsame
    · exact iff_of_true rfl ⟨rfl, congrArg some hsame⟩
    · exact iff_of_false hnot fun hboth => hsame (Option.some.inj hboth.2)

theorem keyRadio_ptt (s : VoicePath) (on : Bool) :
    (s.keyRadio on).ptt = s.ptt ∧ (s.keyRadio on).radio = s.radio := by
  obtain ⟨calls, hcalls⟩ := keyRadio_with s on
  rw [hcalls]
  exact ⟨rfl, rfl⟩

theorem calls_keyRadio (s : VoicePath) (on : Bool) :
    (s.keyRadio on).pttCalls = s.pttCalls ++ (s.radio.map fun radio => (radio, on)).toList := by
  unfold keyRadio
  cases s.radio with
  | none => exact (List.append_nil _).symm
  | some radio => rfl

theorem Keyed.onLinkState (h : Keyed s) (hwired : s.ptt = true → s.mode = .voicePassthrough)
    (linked : Bool) : Keyed (s.onLinkState linked) := by
  obtain ⟨hmode, -, henter⟩ | ⟨-, -, hexit⟩ | ⟨-, hsame⟩ := onLinkState_cases s linked
  · rw [henter]
    refine keyed_off h (eq_false_of_ne_true fun hptt => ?_) rfl rfl
    exact VoiceMode.noConfusion (hmode.symm.trans (hwired hptt))
  · rw [hexit]
    unfold VoicePath.exitPassthrough
    dsimp only
    split_ifs with hptt
    · have hcalls : ({ s with
          linked, rxSinks := s.rxSinks.filter fun sink => sink ≠ RxSink.voice }.keyRadio
            false).pttCalls = (s.keyRadio false).pttCalls := by
        rw [calls_keyRadio, calls_keyRadio]
      exact h.release hcalls rfl
    · exact keyed_congr h rfl rfl rfl
  · rw [hsame]
    exact keyed_congr h rfl rfl rfl

theorem keyed_foldl_onLinkState (hwired : Wired s) (h : Keyed s) (links : List Bool) :
    Keyed (links.foldl VoicePath.onLinkState s) := by
  induction links generalizing s with
  | nil => exact h
  | cons linked links ih =>
    exact ih (hwired.toCore.onLinkState linked) (h.onLinkState hwired.ptt linked)

theorem Keyed.tick (hwired : Wired s) (h : Keyed s) (rx : List Int16) (links : List Bool)
    (protocol : Bool) : Keyed (s.tick rx links protocol) := by
  have hfed : Keyed (s.feedDecoder rx links) := by
    unfold feedDecoder
    split_ifs
    · exact h
    · have hlogged : Wired { s with decoded := s.decoded ++ rx } :=
        ⟨⟨hwired.ptt, hwired.voice, hwired.monitor, hwired.source, hwired.ring, hwired.spoken⟩,
          hwired.linked⟩
      exact keyed_foldl_onLinkState hlogged (keyed_congr h rfl rfl rfl) links
  unfold VoicePath.tick
  cases s.vac with
  | none => exact h
  | some vac =>
    dsimp only
    rw [arbitrateTx_with (hwired.feedDecoder rx links).source]
    unfold fanOut
    split_ifs
    · rw [foldl_onRxAudio_with]
      exact keyed_congr hfed rfl rfl rfl
    · exact keyed_congr hfed rfl rfl rfl

theorem Keyed.setPtt (h : Keyed s) (on : Bool) : Keyed (s.setPtt on) := by
  unfold VoicePath.setPtt
  dsimp only
  split_ifs with hmode hsame hon
  · exact h
  · exact h
  · have hoff : s.ptt = false := eq_false_of_ne_true fun hptt => hsame (hon.trans hptt.symm)
    obtain ⟨hptt, hradio⟩ := keyRadio_ptt { s with ptt := on } true
    have hcalls : ({ s with ptt := on }.keyRadio true).pttCalls = (s.keyRadio true).pttCalls := by
      rw [calls_keyRadio, calls_keyRadio]
    exact h.press hoff hcalls (hptt.trans hon) hradio
  · have hptt := (keyRadio_ptt { s with ptt := on } false).1
    have hcalls : ({ s with ptt := on }.keyRadio false).pttCalls = (s.keyRadio false).pttCalls := by
      rw [calls_keyRadio, calls_keyRadio]
    exact h.release hcalls (hptt.trans (eq_false_of_ne_true hon))

/-- **What a step keeps** that attaches no other radio while the PTT is on. -/
theorem Keyed.step (hwired : Wired s) (h : Keyed s) (op : VoiceOp) (hop : ¬ Swaps s op) :
    Keyed (s.step op) := by
  cases op with
  | attach vac radio =>
    have hattach : (s.attach vac radio).pttCalls = s.pttCalls ∧
        (s.attach vac radio).ptt = s.ptt ∧ (s.attach vac radio).radio = radio := by
      unfold attach
      dsimp only
      split_ifs <;> exact ⟨rfl, rfl, rfl⟩
    obtain ⟨hcalls, hptt, hradio⟩ := hattach
    change Keyed (s.attach vac radio)
    cases hon : s.ptt with
    | false => exact keyed_off h hon hcalls (hptt.trans hon)
    | true =>
      have hsame : radio = s.radio := not_not.mp fun hne => hop ⟨hon, hne⟩
      exact keyed_congr h hcalls hptt (hradio.trans hsame)
  | arm on =>
    have harmed : Keyed { s with armed := on } := keyed_congr h rfl rfl rfl
    exact harmed.onLinkState hwired.ptt s.linked
  | link linked => exact h.onLinkState hwired.ptt linked
  | ptt on => exact h.setPtt on
  | monitor on =>
    change Keyed (s.monitor on)
    unfold monitor
    split_ifs
    · exact h
    · exact keyed_congr h rfl rfl rfl
    · exact keyed_congr h rfl rfl rfl
  | tick rx links protocol => exact h.tick hwired rx links protocol
  | pushMic samples =>
    change Keyed (s.pushMicPcm samples)
    unfold pushMicPcm
    split_ifs
    · exact h
    · exact h
    · exact h
    all_goals exact keyed_congr h rfl rfl rfl
  | pullMic want =>
    change Keyed (s.pullMicPcm want)
    unfold pullMicPcm
    split
    · exact keyed_congr h rfl rfl rfl
    · exact h
    · exact h
  | ring op =>
    rw [VoicePath.step]
    split_ifs
    · exact keyed_congr h rfl rfl rfl
    · exact h

/-- Another radio leaves the old one keyed, or is not keyed itself. -/
theorem not_keyed_of_swaps (h : Keyed s) {op : VoiceOp} (hop : Swaps s op) :
    ¬ Keyed (s.step op) := by
  cases op with
  | attach vac radio =>
    obtain ⟨hon, hne⟩ := hop
    have hattach : (s.attach vac radio).pttCalls = s.pttCalls ∧
        (s.attach vac radio).ptt = s.ptt ∧ (s.attach vac radio).radio = radio := by
      unfold attach
      dsimp only
      split_ifs <;> exact ⟨rfl, rfl, rfl⟩
    obtain ⟨hcalls, hptt, hradio⟩ := hattach
    intro (hnext : Keyed (s.attach vac radio))
    refine hne (Option.ext fun other => ?_)
    have hold := h other
    have hnew := hnext other
    unfold keyed at hold hnew
    rw [hcalls, hptt, hradio, hon] at hnew
    rw [hon] at hold
    have hiff := hnew.symm.trans hold
    simpa using hiff
  | _ => exact hop.elim

/-- **The PTT of the radio.** Along a run the radio that is attached is keyed just while the
operator's PTT is on, and no other is, if and only if no other radio is attached while it is on. -/
theorem keyed_iff (ops : List VoiceOp) :
    Machine.AllStates step Keyed start ops ↔
      Machine.AllSteps step (fun s op => ¬ Swaps s op) start ops := by
  have hstart : Wired start ∧ Keyed start := by
    refine ⟨wired_start, fun radio => iff_of_false nofun fun hboth => Bool.noConfusion hboth.1⟩
  have hstep : ∀ s op, Wired s ∧ Keyed s → ¬ Swaps s op → Wired (s.step op) ∧ Keyed (s.step op) :=
    fun _ op h hop => ⟨h.1.step op, h.2.step h.1 op hop⟩
  have hbad : ∀ s op, Wired s ∧ Keyed s → ¬ ¬ Swaps s op → ¬ Keyed (s.step op) :=
    fun _ _ h hop => not_keyed_of_swaps h.2 (not_not.mp hop)
  exact Machine.allStates_iff_allSteps hstep (fun _ h => h.2) hbad hstart

/-! ## The microphone -/

/-- The ring, and what was said. -/
def mic (s : VoicePath) : Spsc.State Int16 × List Int16 := (s.ring, s.spoken)

theorem mic_keyRadio (s : VoicePath) (on : Bool) : (s.keyRadio on).mic = s.mic := by
  obtain ⟨calls, hcalls⟩ := keyRadio_with s on
  rw [hcalls]
  rfl

theorem mic_onLinkState (s : VoicePath) (linked : Bool) : (s.onLinkState linked).mic = s.mic := by
  obtain ⟨-, -, h⟩ | ⟨-, -, h⟩ | ⟨-, h⟩ := onLinkState_cases s linked
  · rw [h]
    rfl
  · rw [h]
    unfold VoicePath.exitPassthrough
    dsimp only
    split_ifs
    · exact mic_keyRadio _ false
    · rfl
  · rw [h]
    rfl

theorem mic_tick (s : VoicePath) (rx : List Int16) (links : List Bool) (protocol : Bool) :
    (s.tick rx links protocol).mic = s.mic := by
  have hlinks : ∀ (links : List Bool) (s : VoicePath),
      (links.foldl onLinkState s).mic = s.mic := by
    intro links
    induction links with
    | nil => exact fun _ => rfl
    | cons linked links ih => exact fun s => (ih _).trans (mic_onLinkState s linked)
  have hfed : (s.feedDecoder rx links).mic = s.mic := by
    unfold feedDecoder
    split_ifs
    · rfl
    · exact hlinks links _
  unfold tick
  cases s.vac with
  | none => rfl
  | some vac =>
    dsimp only
    unfold fanOut arbitrateTx
    dsimp only
    split_ifs
    all_goals first
      | exact hfed
      | (rw [foldl_onRxAudio_with]; exact hfed)

/-- What of a push goes to the ring. -/
theorem mic_pushMicPcm (s : VoicePath) (samples : List Int16) :
    ((s.pushMicPcm samples).mic = s.mic ∧
      (s.ptt = true → s.mode = .voicePassthrough → s.ring.sending = none → samples = [])) ∨
    (s.ptt = true ∧ s.mode = .voicePassthrough ∧ s.ring.sending = none ∧
      (s.pushMicPcm samples).mic = (s.ring.beginPush sizeMod samples, s.spoken ++ samples)) := by
  unfold pushMicPcm
  split_ifs with hmode hptt hempty hidle
  · exact .inl ⟨rfl, fun _ hpass => absurd hpass hmode⟩
  · rw [Bool.not_eq_true'] at hptt
    exact .inl ⟨rfl, fun hon => Bool.noConfusion (hptt.symm.trans hon)⟩
  · exact .inl ⟨rfl, fun _ _ _ => hempty⟩
  · rw [Bool.not_eq_true', Bool.not_eq_false] at hptt
    exact .inr ⟨hptt, not_not.mp hmode, hidle, rfl⟩
  · refine .inl ⟨?_, fun _ _ hnone => absurd hnone hidle⟩
    unfold mic Spsc.State.beginPush
    split
    · rfl
    · exact absurd ‹_› hidle

/-- What a step does to the ring. -/
theorem mic_step (s : VoicePath) (op : VoiceOp) :
    (s.step op).mic = s.mic ∧ (∀ samples, op ≠ .pushMic samples) ∨
      (∃ want, op = .pullMic want ∧ (s.step op).mic = (s.ring.beginPull sizeMod want, s.spoken)) ∨
      (∃ rest, op = .ring rest ∧ ringOp rest = true ∧
        (s.step op).mic = (s.ring.step sizeMod rest, s.spoken)) ∨
      ∃ samples, op = .pushMic samples := by
  cases op with
  | attach vac radio =>
    refine .inl ⟨?_, nofun⟩
    change (s.attach vac radio).mic = _
    unfold attach
    dsimp only
    split_ifs <;> rfl
  | arm on => exact .inl ⟨mic_onLinkState { s with armed := on } s.linked, nofun⟩
  | link linked => exact .inl ⟨mic_onLinkState s linked, nofun⟩
  | ptt on =>
    refine .inl ⟨?_, nofun⟩
    change (s.setPtt on).mic = _
    unfold setPtt
    dsimp only
    split_ifs
    · rfl
    · rfl
    all_goals exact mic_keyRadio _ _
  | monitor on =>
    refine .inl ⟨?_, nofun⟩
    change (s.monitor on).mic = _
    unfold monitor
    split_ifs <;> rfl
  | tick rx links protocol => exact .inl ⟨mic_tick s rx links protocol, nofun⟩
  | pushMic samples => exact .inr (.inr (.inr ⟨samples, rfl⟩))
  | pullMic want =>
    have hstep : s.step (.pullMic want) = s.pullMicPcm want := rfl
    rw [hstep]
    unfold pullMicPcm
    split
    · exact .inr (.inl ⟨want, rfl, rfl⟩)
    · exact .inl ⟨rfl, nofun⟩
    · exact .inl ⟨rfl, nofun⟩
  | ring op =>
    rw [VoicePath.step]
    split_ifs with hop
    · exact .inr (.inr (.inl ⟨op, rfl, hop, rfl⟩))
    · exact .inl ⟨rfl, nofun⟩

theorem length_ring (s : VoicePath) (op : VoiceOp) :
    (s.step op).ring.cells.length = s.ring.cells.length := by
  have hlen : ∀ {ring : Spsc.State Int16} {spoken}, (s.step op).mic = (ring, spoken) →
      (s.step op).ring.cells.length = ring.cells.length := fun h => congrArg (·.1.cells.length) h
  obtain ⟨h, -⟩ | ⟨want, -, h⟩ | ⟨rest, -, -, h⟩ | ⟨samples, rfl⟩ := mic_step s op
  · exact hlen h
  · exact (hlen h).trans (Spsc.length_step sizeMod s.ring (.beginPull want))
  · exact (hlen h).trans (Spsc.length_step sizeMod s.ring rest)
  · obtain ⟨h, -⟩ | ⟨-, -, -, h⟩ := mic_pushMicPcm s samples
    · exact hlen h
    · exact (hlen h).trans (Spsc.length_step sizeMod s.ring (.beginPush samples))

theorem length_after (ops : List VoiceOp) :
    (Machine.run step start ops).ring.cells.length = ringCap := by
  have hstep : ∀ s op, s.ring.cells.length = ringCap → (step s op).ring.cells.length = ringCap :=
    fun s op h => (length_ring s op).trans h
  have hrun : Machine.AllStates step (fun s => s.ring.cells.length = ringCap) start ops :=
    Machine.allStates_of_inv' hstep length_start ops
  exact hrun.last

/-- **The microphone.** Along every run and however the two threads interleave, the audio thread
reads the samples in the order in which they were said while the PTT was on, each at most once; the
ring holds what it has not read. -/
theorem mic_in_order (ops : List VoiceOp) :
    let s := Machine.run step start ops
    s.ring.received <+: s.ring.accepted ∧ s.ring.accepted.Sublist s.spoken ∧
      s.ring.accepted.length ≤ s.ring.received.length + ringCap := by
  have h := wired_after ops
  obtain ⟨hfirst, hroom⟩ := h.ring.received_first
  refine ⟨hfirst, h.spoken, ?_⟩
  rwa [length_after] at hroom

/-- What is pushed fits into the ring. -/
def Fits (s : VoicePath) : VoiceOp → Prop
  | .pushMic samples => s.ptt = true → s.mode = .voicePassthrough → s.ring.sending = none →
      samples.length ≤ ringCap - s.ring.filled sizeMod
  | _ => True

/-- The ring was offered nothing that it did not take. -/
def Complete (s : VoicePath) : Prop := s.ring.accepted = s.spoken

theorem accepted_beginPush (ring : Spsc.State Int16) (hidle : ring.sending = none)
    (samples : List Int16) : (ring.beginPush sizeMod samples).accepted =
      ring.accepted ++ samples.take (ring.cells.length - ring.filled sizeMod) := by
  unfold Spsc.State.beginPush
  rw [hidle]

theorem complete_step (h : Complete s) (hlen : s.ring.cells.length = ringCap) (op : VoiceOp) :
    Complete (s.step op) ↔ Fits s op := by
  have hview : ∀ {ring spoken}, (s.step op).mic = (ring, spoken) →
      (Complete (s.step op) ↔ ring.accepted = spoken) := by
    intro ring spoken hmic
    obtain ⟨rfl, rfl⟩ := Prod.mk.injEq .. ▸ hmic
    exact Iff.rfl
  obtain ⟨hmic, hother⟩ | ⟨want, rfl, hmic⟩ | ⟨rest, rfl, hrest, hmic⟩ | ⟨samples, rfl⟩ :=
    mic_step s op
  · rw [hview hmic]
    refine iff_of_true h ?_
    cases op with
    | pushMic samples => exact absurd rfl (hother samples)
    | _ => trivial
  · rw [hview hmic, accepted_beginPull]
    exact iff_of_true h trivial
  · rw [hview hmic, accepted_ringOp hrest]
    exact iff_of_true h trivial
  · obtain ⟨hmic, hempty⟩ | ⟨hptt, hmode, hidle, hmic⟩ := mic_pushMicPcm s samples
    · rw [hview hmic]
      refine iff_of_true h fun hptt hmode hidle => ?_
      rw [hempty hptt hmode hidle]
      exact Nat.zero_le _
    · rw [hview hmic, accepted_beginPush _ hidle, h, hlen, List.append_cancel_left_eq,
        List.take_eq_self_iff]
      exact ⟨fun hle _ _ _ => hle, fun hfits => hfits hptt hmode hidle⟩

/-- **What is said is taken over** without a gap along a run if and only if each push of it fits
into what the audio thread has left of the ring. -/
theorem mic_complete_iff (ops : List VoiceOp) :
    Machine.AllStates step Complete start ops ↔ Machine.AllSteps step Fits start ops := by
  have hstart : Complete start ∧ start.ring.cells.length = ringCap := ⟨rfl, length_start⟩
  have hstep : ∀ s op, Complete s ∧ s.ring.cells.length = ringCap → Fits s op →
      Complete (step s op) ∧ (step s op).ring.cells.length = ringCap := fun s op h hfits =>
    ⟨(complete_step h.1 h.2 op).mpr hfits, (length_ring s op).trans h.2⟩
  have hbad : ∀ s op, Complete s ∧ s.ring.cells.length = ringCap → ¬ Fits s op →
      ¬ Complete (step s op) := fun _ op h hfits hnext =>
    hfits ((complete_step h.1 h.2 op).mp hnext)
  exact Machine.allStates_iff_allSteps hstep (fun _ h => h.1) hbad hstart

end VoicePath

end OpenALE
