import OpenALE.Library.Machine
import OpenALE.Control.Retune

/-!
# The discipline of the scanner

An episode of `SCANNING` is a run that stays there with the same scan list. In it the radio is moved
by ticks only: after the full dwell time on a settled channel, or after `Tdrw` of silence.

Results:
* `scanning_step`: what an operation does to the scanner.
* `round_robin`: the channels an episode visits.
* `hop_due`: what came before every hop.
-/

namespace OpenALE

/-! ## The scan list -/

/-- The channel without the time of its last visit. -/
def Channel.unstamped (ch : Channel) : Channel := { ch with lastScanTimeMs := 0 }

namespace ChannelManager

variable {m m' m'' : ChannelManager}

/-- The places of the scan list behind the current one, round and round. -/
def placeAfter (m : ChannelManager) (i : Nat) : Nat :=
  (m.scan.channelIndex + 1 + i) % m.scan.scanList.length

/-- The list is kept, up to the times of the last visits, and so is the dwell time. -/
structure SameList (m m' : ChannelManager) : Prop where
  list : m'.scan.scanList.map Channel.unstamped = m.scan.scanList.map Channel.unstamped
  dwell : m'.scan.dwellTimeMs = m.scan.dwellTimeMs

theorem SameList.refl (m : ChannelManager) : SameList m m := ⟨rfl, rfl⟩

theorem SameList.trans (h : SameList m m') (h' : SameList m' m'') : SameList m m'' :=
  ⟨h'.list.trans h.list, h'.dwell.trans h.dwell⟩

theorem SameList.length (h : SameList m m') :
    m'.scan.scanList.length = m.scan.scanList.length := by
  have hlen := congrArg List.length h.list
  rwa [List.length_map, List.length_map] at hlen

theorem sameList_anchorDwell (m : ChannelManager) (now : UInt32) : SameList m (m.anchorDwell now) :=
  ⟨rfl, rfl⟩

/-- **A hop** goes to the next channel of the list. -/
theorem hopNext_spec (hne : m.scan.scanList ≠ []) (now : UInt32) :
    SameList m (m.hopNext now).1 ∧ (m.hopNext now).1.lastHopMs = now ∧
      (m.hopNext now).1.scan.channelIndex = m.placeAfter 0 ∧
      (m.hopNext now).2.map (fun ch => some ch.unstamped) =
        [(m.scan.scanList.map Channel.unstamped)[m.placeAfter 0]?] := by
  have hlt : (m.scan.channelIndex + 1) % m.scan.scanList.length < m.scan.scanList.length :=
    Nat.mod_lt _ (List.length_pos_iff.mpr hne)
  have hget := List.getElem?_eq_getElem hlt
  unfold hopNext apply placeAfter
  rw [if_neg hne, Nat.add_zero, hget]
  refine ⟨⟨?_, rfl⟩, rfl, rfl, ?_⟩
  · change (List.set _ _ _).map _ = _
    rw [List.map_set]
    refine List.ext_getElem? ?_
    intro i
    rw [List.getElem?_set]
    split_ifs with hi hil
    · subst hi
      rw [List.getElem?_map, hget]
      rfl
    · subst hi
      rw [List.length_map] at hil
      exact absurd hlt hil
    · rfl
  · rw [List.getElem?_map, hget]
    rfl

/-- Without a list there is nowhere to go. -/
theorem hopNext_nil (hnil : m.scan.scanList = []) (now : UInt32) : m.hopNext now = (m, []) := by
  rw [hopNext, if_pos hnil]

theorem hopNext_sameList (m : ChannelManager) (now : UInt32) : SameList m (m.hopNext now).1 := by
  by_cases hnil : m.scan.scanList = []
  · rw [hopNext_nil hnil]
    exact SameList.refl m
  · exact (hopNext_spec hnil now).1

end ChannelManager

namespace SM

open ChannelManager

variable {s p s' : SM} {op last : Op} {ops mid : List Op}

/-! ## One operation -/

/-- The tick that reaches `handle_scanning`: its time, and whether the radio was ready. -/
def scanTick (s : SM) : Op → Option (UInt32 × Bool)
  | .update now env =>
    if 0x80000000 ≤ now - s.currentTimeMs then none
    else if s.allcallBroadcasting && (s.clocked now).drainExpired then none
    else some (now, env.hopReady)
  | _ => none

/-- A valid word. -/
def isHeard : Op → Bool
  | .processReceivedWord w => w.valid
  | _ => false

/-- Nothing of the scanner has changed. -/
structure ScansOn (s s' : SM) : Prop where
  scan : s'.scan = s.scan
  manager : s'.channelManager = s.channelManager
  hops : hops s'.out = hops s.out

theorem ScansOn.refl (s : SM) : s.ScansOn s := ⟨rfl, rfl, rfl⟩

theorem ScansOn.trans (h : s.ScansOn p) (h' : p.ScansOn s') : s.ScansOn s' :=
  ⟨h'.scan.trans h.scan, h'.manager.trans h.manager, h'.hops.trans h.hops⟩

/-- What an operation does that does not leave `SCANNING`. -/
inductive Scans (s : SM) (op : Op) (s' : SM) : Prop where
  | polls (now : UInt32) (env : Env) (htick : s.scanTick op = some (now, env.hopReady))
      (hs : s' = (s.clearOut.clocked now).handleScanning env)
  | hears (hop : isHeard op = true)
      (hscan : s'.scan =
        { s.scan with scanningPhase := .scanPause, scanPauseSettleMs := s.currentTimeMs })
      (hm : s'.channelManager = s.channelManager) (hh : hops s'.out = [])
      (ht : s'.currentTimeMs = s.currentTimeMs)
  | pauses (t : UInt32) (hop : isHeard op = false) (htick : s.scanTick op = none)
      (hphase : s.scan.scanningPhase = .hopping)
      (hscan : s'.scan = { s.scan with scanningPhase := .scanPause, scanPauseSettleMs := t })
      (hm : s'.channelManager = s.channelManager) (hh : hops s'.out = [])
  | stays (hop : isHeard op = false) (htick : s.scanTick op = none) (hon : s.clearOut.ScansOn s')

/-- An event that does not leave `SCANNING` does nothing. -/
theorem event_scanning (hs : p.currentState = .scanning) (e : ALEEvent)
    (hs' : (p.processEvent e).1.currentState = .scanning) : (p.processEvent e).1 = p := by
  unfold processEvent at hs' ⊢
  rw [hs] at hs' ⊢
  cases e <;>
    first
      | rfl
      | (dsimp only at hs'
         rw [transitionTo_state] at hs'
         cases hs')

theorem scansOn_event (hs : p.currentState = .scanning) (e : ALEEvent)
    (hs' : (p.processEvent e).1.currentState = .scanning) : p.ScansOn (p.processEvent e).1 := by
  rw [event_scanning hs e hs']
  exact ScansOn.refl p

theorem scansOn_transmitWords (s : SM) (ws : List ALEWord) : s.ScansOn (s.transmitWords ws) := by
  rw [transmitWords_eq]
  refine ⟨rfl, rfl, ?_⟩
  rw [hops_append, hops_transmit, List.append_nil]

theorem scansOn_armDrain (s : SM) (d : UInt32) : s.ScansOn (s.armDrain d) := by
  unfold armDrain
  split_ifs
  · exact ⟨rfl, rfl, rfl⟩
  · exact ScansOn.refl s

/-- A callback that is no hop. -/
theorem ScansOn.emit (h : s.ScansOn p) {o : Output} (ho : OpenALE.hops [o] = []) :
    s.ScansOn (p.emit o) := by
  refine ⟨h.scan, h.manager, ?_⟩
  change OpenALE.hops (p.out ++ [o]) = _
  rw [hops_append, ho, List.append_nil, h.hops]

theorem ScansOn.rxEnabled (h : s.ScansOn p) (on : Bool) : s.ScansOn (p.rxEnabled on) :=
  h.emit (o := .rxEnabled on) rfl

/-- A request for a call or a sounding leaves `SCANNING`, and so does the emergency. -/
theorem requests_leave (hs : s.currentState = .scanning)
    (hg : s.trigger op = .event .callRequest ∨ s.trigger op = .event .soundingRequest ∨
      s.trigger op = .emergency) : (s.step op).currentState ≠ .scanning := by
  have hstate : (s.step op).currentState = (s.control.fire s.moreSweep (s.trigger op)).state :=
    congrArg Control.state (step_control s op)
  have hc : s.control.state = .scanning := hs
  rw [hstate]
  rcases hg with hg | hg | hg <;> rw [hg]
  · unfold Control.fire Control.event
    rw [hc]
    dsimp only
    rw [Control.goTo_state]
    decide
  · unfold Control.fire Control.event
    rw [hc]
    dsimp only
    rw [Control.goTo_state]
    decide
  · unfold Control.fire
    rw [Control.goTo_state]
    decide

theorem sendAllcallBroadcast_scansOn (s : SM) (a t : Str) (l : Bool) :
    s.ScansOn (s.sendAllcallBroadcast a t l).1 := by
  have hopen : s.ScansOn (SM.rxEnabled { s with allcallBroadcasting := true } false) :=
    ScansOn.rxEnabled (s := s) (p := { s with allcallBroadcasting := true }) ⟨rfl, rfl, rfl⟩ false
  have hsend := (hopen.trans (scansOn_transmitWords _ (s.allcallWords a t l)))
  unfold sendAllcallBroadcast
  split
  · exact ScansOn.refl s
  split
  · exact ScansOn.refl s
  split
  · exact ScansOn.refl s
  split
  · exact ScansOn.refl s
  · exact hsend.trans (scansOn_armDrain _ _)

theorem updateLqa_scansOn (s : SM) (lq : LinkQuality) : s.ScansOn (s.updateLqa lq) := by
  unfold updateLqa
  split_ifs
  · exact (ScansOn.refl s).emit rfl
  · exact ScansOn.refl s

/-- A word that is heard and does not leave `SCANNING`. -/
theorem reactScanning_stays (hs : s.currentState = .scanning) (r : WordRole)
    (hs' : (s.reactScanning r).currentState = .scanning) :
    ∃ p, s.ScansOn p ∧ p.currentTimeMs = s.currentTimeMs ∧
      s.reactScanning r = { p with scan := { p.scan with
        scanningPhase := .scanPause, scanPauseSettleMs := s.currentTimeMs } } := by
  have hdetect : (s.detectIncomingCall r).currentState = .scanning →
      s.ScansOn (s.detectIncomingCall r) ∧
        (s.detectIncomingCall r).currentTimeMs = s.currentTimeMs := by
    intro hd
    have hcall : ∀ p : SM, p.currentState = .scanning → s.ScansOn p →
        p.currentTimeMs = s.currentTimeMs → (callDetected p).currentState = .scanning →
        s.ScansOn (callDetected p) ∧ (callDetected p).currentTimeMs = s.currentTimeMs := by
      intro p hp hon ht hd
      have he : callDetected p = p := event_scanning hp .callDetected hd
      rw [he]
      exact ⟨hon, ht⟩
    unfold detectIncomingCall at hd ⊢
    cases r with
    | toSelf a => exact hcall _ hs ⟨rfl, rfl, rfl⟩ rfl hd
    | allcall a => exact hcall _ hs ⟨rfl, rfl, rfl⟩ rfl hd
    | _ => exact ⟨ScansOn.refl s, rfl⟩
  unfold reactScanning at hs' ⊢
  dsimp only at hs' ⊢
  by_cases hd : (s.detectIncomingCall r).currentState = .scanning
  · obtain ⟨hon, ht⟩ := hdetect hd
    rw [if_neg (not_not.mpr hd)]
    refine ⟨_, hon, ht, ?_⟩
    rw [ht]
  · rw [if_pos hd] at hs'
    exact absurd hs' hd

/-- The AllCall words that complete while the machine scans. -/
theorem completeAllcall_scansOn (s : SM) : s.ScansOn s.completeAllcall := by
  unfold completeAllcall
  dsimp only
  split
  · exact ScansOn.rxEnabled (s := s) (p := { s.popWord with
      allcallBroadcasting := false, tx := { s.popWord.tx with txDrainStartMs := 0 } })
      ⟨rfl, rfl, rfl⟩ true
  · exact ⟨rfl, rfl, rfl⟩

/-- **An operation that does not leave `SCANNING`** polls the scanner, starts or extends a pause, or
leaves the scanner alone. -/
theorem scanning_step (hs : s.currentState = .scanning) (hs' : (s.step op).currentState = .scanning)
    (hkeep : reconfigures op = false) : s.Scans op (s.step op) := by
  have hclear : s.clearOut.currentState = .scanning := hs
  have hstay : ∀ {op : Op} {q : SM}, isHeard op = false → s.scanTick op = none → s.clearOut.ScansOn q →
      s.Scans op q := fun h1 h2 h3 => .stays h1 h2 h3
  cases op with
  | processEvent e => exact hstay rfl rfl (scansOn_event hclear e hs')
  | update now env =>
    change (s.clearOut.update now env).currentState = .scanning at hs'
    change s.Scans _ (s.clearOut.update now env)
    unfold update at hs' ⊢
    by_cases hback : 0x80000000 ≤ now - s.currentTimeMs
    · have hb : 0x80000000 ≤ now - s.clearOut.currentTimeMs := hback
      rw [if_pos hb]
      exact hstay rfl (by rw [scanTick, if_pos hback]) (ScansOn.refl _)
    · have hb : ¬ 0x80000000 ≤ now - s.clearOut.currentTimeMs := hback
      rw [if_neg hb] at hs' ⊢
      change (tick (s.clearOut.clocked now) env).currentState = .scanning at hs'
      change s.Scans _ (tick (s.clearOut.clocked now) env)
      have hscan : (s.clearOut.clocked now).currentState = .scanning := hs
      have hlink : (s.clearOut.clocked now).checkLinkTimeout = false := by
        unfold checkLinkTimeout
        rw [hscan]
      unfold tick
      rw [hlink, if_neg Bool.false_ne_true]
      by_cases hdrain : ((s.clearOut.clocked now).allcallBroadcasting &&
          (s.clearOut.clocked now).drainExpired) = true
      · have hd : (s.allcallBroadcasting && (s.clocked now).drainExpired) = true := hdrain
        rw [if_pos hdrain]
        refine hstay rfl (by rw [scanTick, if_neg hback, if_pos hd]) ?_
        unfold allcallDrainTimeout
        exact ScansOn.rxEnabled (s := s.clearOut) (p := { s.clearOut.clocked now with
          allcallBroadcasting := false
          tx := { (s.clearOut.clocked now).tx with txDrainStartMs := 0, wordsPending := 0 } })
          ⟨rfl, rfl, rfl⟩ true
      · have hd : ¬ (s.allcallBroadcasting && (s.clocked now).drainExpired) = true := hdrain
        rw [if_neg hdrain]
        refine .polls now env (by rw [scanTick, if_neg hback, if_neg hd]) ?_
        unfold handle
        rw [hscan]
  | processReceivedWord w =>
    change (s.clearOut.processReceivedWord w).currentState = .scanning at hs'
    change s.Scans _ (s.clearOut.processReceivedWord w)
    unfold processReceivedWord at hs' ⊢
    cases hv : w.valid with
    | false =>
      rw [if_pos (by simp)]
      refine hstay (by rw [isHeard, hv]) rfl ?_
      unfold onInvalidWord
      rw [hclear]
      exact ScansOn.refl _
    | true =>
      rw [if_neg (by simp [hv])] at hs' ⊢
      dsimp only at hs' ⊢
      generalize hq : updateLqa { s.clearOut with
        hs := { s.clearOut.hs with contiguousErrors := 0 }
        lastWordTimeMs := s.clearOut.currentTimeMs } _ = q at hs' ⊢
      have hnoted : s.clearOut.ScansOn { s.clearOut with
        hs := { s.clearOut.hs with contiguousErrors := 0 }
        lastWordTimeMs := s.clearOut.currentTimeMs } := ⟨rfl, rfl, rfl⟩
      have hon : s.clearOut.ScansOn q := by
        rw [← hq]
        exact hnoted.trans (updateLqa_scansOn _ _)
      have hqs : q.currentState = .scanning ∧ q.currentTimeMs = s.currentTimeMs := by
        rw [← hq]
        unfold updateLqa
        split_ifs
        · exact ⟨hs, rfl⟩
        · exact ⟨hs, rfl⟩
      unfold react at hs' ⊢
      rw [hqs.1] at hs' ⊢
      obtain ⟨p, hp, ht, he⟩ := reactScanning_stays hqs.1 _ hs'
      have hall := hon.trans hp
      change s.Scans _ (q.reactScanning _)
      rw [he]
      refine .hears (by rw [isHeard, hv]) ?_ hall.manager hall.hops (ht.trans hqs.2)
      simp only [hall.scan, hqs.2]
      rfl
  | onWordComplete =>
    change s.Scans _ s.clearOut.onWordComplete
    unfold onWordComplete
    rw [hclear]
    refine hstay rfl rfl ?_
    simp only [reduceCtorEq, false_and, if_false]
    split_ifs
    · exact completeAllcall_scansOn _
    · exact ScansOn.refl _
  | initiateCall target =>
    exact absurd hs' (requests_leave hs (Or.inl (raiseIf_pos ((available_iff s).mpr (Or.inr hs)) _)))
  | initiateNetCall a =>
    exact absurd hs' (requests_leave hs (Or.inl (raiseIf_pos ((available_iff s).mpr (Or.inr hs)) _)))
  | initiateGroupCall ms =>
    by_cases hnil : ms = []
    · refine hstay rfl rfl ?_
      change s.clearOut.ScansOn (s.clearOut.initiateGroupCall ms).1
      unfold initiateGroupCall
      rw [if_pos hnil]
      split
      · exact ScansOn.refl _
      · exact ScansOn.refl _
    · exact absurd hs' (requests_leave hs
        (Or.inl (raiseIf_pos ⟨(available_iff s).mpr (Or.inr hs), hnil⟩ _)))
  | respondToCall =>
    refine hstay rfl rfl ?_
    change s.clearOut.ScansOn s.clearOut.respondToCall.1
    unfold respondToCall
    rw [if_pos (by rw [hclear]; decide)]
    exact ScansOn.refl _
  | sendSounding =>
    exact absurd hs' (requests_leave hs
      (Or.inr (Or.inl (raiseIf_pos ((available_iff s).mpr (Or.inr hs)) _))))
  | sendSoundingSweep chs =>
    by_cases hgo : ¬ s.allcallBroadcasting = true ∧ chs ≠ []
    · exact absurd hs' (requests_leave hs
        (Or.inr (Or.inl (raiseIf_pos ⟨(available_iff s).mpr (Or.inr hs), hgo⟩ _))))
    · refine hstay rfl rfl ?_
      change s.clearOut.ScansOn (s.clearOut.sendSoundingSweep chs).1
      unfold sendSoundingSweep
      split
      · exact ScansOn.refl _
      split
      · exact ScansOn.refl _
      · rename_i hair
        cases chs with
        | nil => exact ScansOn.refl _
        | cons ch chs => exact absurd ⟨hair, by simp⟩ hgo
  | sendAllcallBroadcast a t l => exact hstay rfl rfl (sendAllcallBroadcast_scansOn _ a t l)
  | terminateLink =>
    refine hstay rfl rfl ?_
    change s.clearOut.ScansOn s.clearOut.terminateLink
    unfold terminateLink
    rw [if_pos (by rw [hclear]; decide)]
    exact ScansOn.refl _
  | emergencyManualControl => exact absurd hs' (requests_leave hs (Or.inr (Or.inr rfl)))
  | triggerLinkedOrderwire ws d =>
    refine hstay rfl rfl ?_
    change s.clearOut.ScansOn (s.clearOut.triggerLinkedOrderwire ws d)
    unfold triggerLinkedOrderwire orderwireOpen
    rw [hclear]
    exact ScansOn.refl _
  | sendLinkedAmd ws peer n =>
    refine hstay rfl rfl ?_
    change s.clearOut.ScansOn (s.clearOut.sendLinkedAmd ws peer n)
    unfold sendLinkedAmd orderwireOpen
    rw [hclear]
    exact ScansOn.refl _
  | respondToLinkedAmd a ws =>
    refine hstay rfl rfl ?_
    change s.clearOut.ScansOn (s.clearOut.respondToLinkedAmd a ws)
    unfold respondToLinkedAmd orderwireOpen
    rw [hclear]
    exact ScansOn.refl _
  | onLinkActivity =>
    refine hstay rfl rfl ?_
    change s.clearOut.ScansOn s.clearOut.onLinkActivity
    unfold onLinkActivity
    split
    · exact ⟨rfl, rfl, rfl⟩
    · exact ScansOn.refl _
  | resetLinkIdleTimer =>
    refine hstay rfl rfl ?_
    change s.clearOut.ScansOn s.clearOut.resetLinkIdleTimer
    unfold resetLinkIdleTimer
    split
    · exact ScansOn.refl _
    · exact ⟨rfl, rfl, rfl⟩
  | updateLinkQuality lq => exact hstay rfl rfl (updateLqa_scansOn _ lq)
  | beginScanPause t =>
    change s.Scans _ (s.clearOut.beginScanPause t)
    unfold beginScanPause
    split
    · rename_i h
      exact .pauses t rfl rfl h.2 rfl rfl rfl
    · exact hstay rfl rfl (ScansOn.refl _)
  | extendPeerWaitWindow d => exact hstay rfl rfl ⟨rfl, rfl, rfl⟩
  | set x =>
    cases x with
    | selfAddress a =>
      refine hstay rfl rfl ?_
      change s.clearOut.ScansOn (s.clearOut.setSelfAddress a)
      unfold setSelfAddress
      split
      · exact ⟨rfl, rfl, rfl⟩
      · exact ScansOn.refl _
    | configureScan c => cases hkeep
    | addScanChannel ch => cases hkeep
    | _ => exact hstay rfl rfl ⟨rfl, rfl, rfl⟩

/-! ## A poll -/

/-- The dwell starts again when the radio has settled. -/
def anchored (m : ChannelManager) (settled : Bool) (now : UInt32) : ChannelManager :=
  if settled then m.anchorDwell now else m

/-- What the poll makes of the channel manager and which channels it goes to. -/
structure Polled (p s' : SM) (env : Env) : Prop where
  /-- In a pause the radio is not asked. -/
  paused : p.scan.scanningPhase = .scanPause →
    (s'.scan = p.scan ∧ s'.channelManager = p.channelManager ∧ hops s'.out = hops p.out) ∨
    (tdrwMs ≤ p.currentTimeMs - p.scan.scanPauseSettleMs ∧
      s'.scan = { p.scan with scanningPhase := .hopping } ∧
      s'.channelManager = (p.channelManager.hopNext p.currentTimeMs).1 ∧
      hops s'.out = hops p.out ++ (p.channelManager.hopNext p.currentTimeMs).2)
  hopping : ∀ m, m = anchored p.channelManager (env.hopReady && !p.scan.prevHopReady)
      p.currentTimeMs → p.scan.scanningPhase = .hopping →
    s'.scan = { p.scan with prevHopReady := env.hopReady } ∧
    ((s'.channelManager = m ∧ hops s'.out = hops p.out) ∨
      (env.hopReady = true ∧ m.checkDwellTimeout p.currentTimeMs = true ∧
        s'.channelManager = (m.hopNext p.currentTimeMs).1 ∧
        hops s'.out = hops p.out ++ (m.hopNext p.currentTimeMs).2))
  clock : s'.currentTimeMs = p.currentTimeMs

theorem handleScanning_polled (p : SM) (env : Env) : p.Polled (p.handleScanning env) env := by
  have hout : ∀ (out : List Output) (chs : List Channel),
      hops (out ++ chs.map .channelChange) = hops out ++ chs := by
    intro out chs
    rw [hops_append, hops_channels]
  unfold handleScanning
  dsimp only
  by_cases hphase : p.scan.scanningPhase = .scanPause
  · rw [if_pos hphase]
    split
    · rename_i hdue
      exact ⟨fun _ => Or.inr ⟨hdue, rfl, rfl, hout _ _⟩, fun _ _ h => absurd (hphase.symm.trans h)
        (by decide), rfl⟩
    · exact ⟨fun _ => Or.inl ⟨rfl, rfl, rfl⟩, fun _ _ h => absurd (hphase.symm.trans h)
        (by decide), rfl⟩
  · rw [if_neg hphase]
    by_cases hedge : env.hopReady = true ∧ ¬ p.scan.prevHopReady = true
    · have hm : anchored p.channelManager (env.hopReady && !p.scan.prevHopReady) p.currentTimeMs =
          p.channelManager.anchorDwell p.currentTimeMs := if_pos (by simpa using hedge)
      rw [if_pos hedge]
      split
      · rename_i hdue
        refine ⟨fun h => absurd h hphase, ?_, rfl⟩
        rintro m rfl -
        rw [hm]
        exact ⟨rfl, Or.inr ⟨hdue.2, hdue.1, rfl, hout _ _⟩⟩
      · refine ⟨fun h => absurd h hphase, ?_, rfl⟩
        rintro m rfl -
        rw [hm]
        exact ⟨rfl, Or.inl ⟨rfl, rfl⟩⟩
    · have hm : anchored p.channelManager (env.hopReady && !p.scan.prevHopReady) p.currentTimeMs =
          p.channelManager := if_neg (by simpa using hedge)
      rw [if_neg hedge]
      split
      · rename_i hdue
        refine ⟨fun h => absurd h hphase, ?_, rfl⟩
        rintro m rfl -
        rw [hm]
        exact ⟨rfl, Or.inr ⟨hdue.2, hdue.1, rfl, hout _ _⟩⟩
      · refine ⟨fun h => absurd h hphase, ?_, rfl⟩
        rintro m rfl -
        rw [hm]
        exact ⟨rfl, Or.inl ⟨rfl, rfl⟩⟩

/-- What a step in `SCANNING` does to the channel manager: it stays, or it goes one place on. -/
theorem Scans.manager (h : s.Scans op s') : ∃ m, SameList s.channelManager m ∧
    m.scan.channelIndex = s.channelManager.scan.channelIndex ∧
    ((s'.channelManager = m ∧ hops s'.out = []) ∨
      ∃ now, s'.channelManager = (m.hopNext now).1 ∧ hops s'.out = (m.hopNext now).2) := by
  have hanchored : ∀ (settled : Bool) (now : UInt32),
      SameList s.channelManager (anchored s.channelManager settled now) ∧
        (anchored s.channelManager settled now).scan.channelIndex =
          s.channelManager.scan.channelIndex := by
    intro settled now
    unfold anchored
    split_ifs
    · exact ⟨sameList_anchorDwell _ _, rfl⟩
    · exact ⟨SameList.refl _, rfl⟩
  cases h with
  | polls now env htick hs =>
    have hpoll := handleScanning_polled (s.clearOut.clocked now) env
    rw [← hs] at hpoll
    cases hphase : s.scan.scanningPhase with
    | scanPause =>
      rcases hpoll.paused hphase with ⟨-, hm, hh⟩ | ⟨-, -, hm, hh⟩
      · exact ⟨_, SameList.refl _, rfl, Or.inl ⟨hm, hh⟩⟩
      · exact ⟨_, SameList.refl _, rfl, Or.inr ⟨_, hm, hh⟩⟩
    | hopping =>
      obtain ⟨-, hcase⟩ := hpoll.hopping _ rfl hphase
      obtain ⟨hlist, hindex⟩ := hanchored (env.hopReady && !s.scan.prevHopReady) now
      rcases hcase with ⟨hm, hh⟩ | ⟨-, -, hm, hh⟩
      · exact ⟨_, hlist, hindex, Or.inl ⟨hm, hh⟩⟩
      · exact ⟨_, hlist, hindex, Or.inr ⟨_, hm, hh⟩⟩
  | hears hop hscan hm hh ht => exact ⟨_, SameList.refl _, rfl, Or.inl ⟨hm, hh⟩⟩
  | pauses t hop htick hphase hscan hm hh => exact ⟨_, SameList.refl _, rfl, Or.inl ⟨hm, hh⟩⟩
  | stays hop htick hon => exact ⟨_, SameList.refl _, rfl, Or.inl ⟨hon.manager, hon.hops⟩⟩

/-! ## The channels that are visited -/

/-- The channels a run goes to. -/
def visited (s : SM) : List Op → List Channel
  | [] => []
  | op :: ops => hops (s.step op).out ++ visited (s.step op) ops

/-- An episode of `SCANNING`. -/
structure Episode (s : SM) (ops : List Op) : Prop where
  scanning : Machine.AllStates step (fun p => p.currentState = .scanning) s ops
  keeps : ∀ op ∈ ops, reconfigures op = false

theorem Episode.step (h : s.Episode (op :: ops)) : s.Scans op (s.step op) ∧ (s.step op).Episode ops := by
  refine ⟨scanning_step h.scanning.1 h.scanning.2.head (h.keeps op List.mem_cons_self), h.scanning.2, ?_⟩
  intro o ho
  exact h.keeps o (List.mem_cons_of_mem op ho)

/-- **An episode goes round the scan list**: the channels visited are those behind the current one,
in the order of the list and again from its start. -/
theorem round_robin (s : SM) (ops : List Op) (h : s.Episode ops) :
    (s.visited ops).map (fun ch => some ch.unstamped) =
      (List.range (s.visited ops).length).map fun i =>
        (s.channelManager.scan.scanList.map Channel.unstamped)[s.channelManager.placeAfter i]? := by
  induction ops generalizing s with
  | nil => rfl
  | cons op ops ih =>
    obtain ⟨hstep, hrest⟩ := h.step
    obtain ⟨m, hlist, hindex, hcase⟩ := hstep.manager
    have ih := ih (s.step op) hrest
    have hplace : ∀ i, m.placeAfter i = s.channelManager.placeAfter i := by
      intro i
      rw [placeAfter, placeAfter, hindex, hlist.length]
    rw [visited]
    rcases hcase with ⟨hm, hh⟩ | ⟨now, hm, hh⟩
    · -- the radio stays
      have hsame : ∀ i, (s.step op).channelManager.placeAfter i = s.channelManager.placeAfter i := by
        intro i
        rw [hm, hplace]
      rw [hh, List.nil_append, ih]
      simp only [hsame]
      rw [hm, hlist.list]
    · by_cases hnil : m.scan.scanList = []
      · rw [hopNext_nil hnil] at hm hh
        have hsame : ∀ i, (s.step op).channelManager.placeAfter i = s.channelManager.placeAfter i := by
          intro i
          rw [hm, hplace]
        rw [hh, List.nil_append, ih]
        simp only [hsame]
        rw [hm, hlist.list]
      · -- one place on
        obtain ⟨hkept, -, hplaced, hch⟩ := hopNext_spec hnil now
        rw [← hm] at hkept hplaced
        have hone : (hops (s.step op).out).length = 1 := by
          rw [hh, ← List.length_map (f := fun ch => some ch.unstamped), hch]
          rfl
        have hnext : ∀ i, (s.step op).channelManager.placeAfter i =
            s.channelManager.placeAfter (i + 1) := by
          intro i
          rw [placeAfter, hplaced, hkept.length, hlist.length, hplace, placeAfter, placeAfter,
            Nat.add_zero, Nat.add_assoc, Nat.mod_add_mod]
          congr 1
          omega
        rw [List.map_append, hh, hch, ih, List.length_append, ← hh, hone, Nat.add_comm 1,
          List.range_succ_eq_map, List.map_cons, List.map_map, hkept.list, hlist.list, hplace]
        simp only [hnext]
        rfl

instance (s : SM) (ops : List Op) : Decidable (s.Episode ops) :=
  decidable_of_iff (Machine.AllStates step (fun p => p.currentState = .scanning) s ops ∧
      ∀ op ∈ ops, reconfigures op = false)
    ⟨fun h => ⟨h.1, h.2⟩, fun h => ⟨h.scanning, h.keeps⟩⟩

/-! ## What comes before a hop -/

/-- The milliseconds an operation takes. -/
def elapsed (s : SM) (op : Op) : Nat := ((s.step op).currentTimeMs - s.currentTimeMs).toNat

/-- The milliseconds of a run. -/
def duration (s : SM) : List Op → Nat
  | [] => 0
  | op :: ops => s.elapsed op + duration (s.step op) ops

theorem duration_append (s : SM) (as bs : List Op) :
    s.duration (as ++ bs) = s.duration as + (Machine.run step s as).duration bs := by
  induction as generalizing s with
  | nil => simp [duration]
  | cons op as ih =>
    rw [List.cons_append, duration, duration, ih, Machine.run_cons, Nat.add_assoc]

/-- What the radio answered, if it was asked. -/
def answer (s : SM) (op : Op) : Option Bool :=
  if s.scan.scanningPhase = .hopping then (s.scanTick op).map Prod.snd else none

/-- What can be said at a hop of an operation `ago` milliseconds before it, in a state `s` of the
episode, where `p` is the state before the hop. -/
structure Due (p : SM) (last : Op) (s : SM) (op : Op) (ago : Nat) : Prop where
  /-- Without a pause, the channel was listened to for its full dwell time with a settled radio. -/
  settled : p.scan.scanningPhase = .hopping →
    p.answer last = some true ∧
      (ago < s.channelManager.scan.dwellTimeMs.toNat →
        s.answer op ≠ some false ∧ hops (s.step op).out = [])
  /-- A pause ended with silence. -/
  silent : p.scan.scanningPhase = .scanPause → ago < tdrwMs.toNat → isHeard op = false

/-- What the scanner knows `ago` milliseconds after an operation in `s`. -/
structure Recalls (s : SM) (op : Op) (ago : Nat) (p : SM) : Prop where
  list : SameList s.channelManager p.channelManager
  unsettled : s.answer op = some false →
    p.scan.prevHopReady = false ∨ (p.currentTimeMs - p.channelManager.lastHopMs).toNat ≤ ago
  hopped : hops (s.step op).out ≠ [] →
    (p.currentTimeMs - p.channelManager.lastHopMs).toNat ≤ ago
  heard : isHeard op = true → tdrwMs.toNat ≤ ago ∨
    p.scan.scanningPhase = .scanPause ∧
      (p.currentTimeMs - p.scan.scanPauseSettleMs).toNat ≤ ago

/-- Time goes on. -/
theorem since_le (a b c : UInt32) : (c - a).toNat ≤ (b - a).toNat + (c - b).toNat := by
  have h : c - a = (b - a) + (c - b) := by grind
  rw [h, UInt32.toNat_add]
  exact Nat.mod_le _ _

theorem since_self (a : UInt32) : (a - a).toNat = 0 := by
  rw [UInt32.sub_self]
  rfl

theorem scans_sameList (h : p.Scans op s') : SameList p.channelManager s'.channelManager := by
  obtain ⟨m, hlist, -, ⟨hm, -⟩ | ⟨now, hm, -⟩⟩ := h.manager
  · rw [hm]
    exact hlist
  · rw [hm]
    exact hlist.trans (hopNext_sameList m now)

/-- After a hop the dwell starts now, if there is somewhere to go. -/
theorem lastHop_hopNext (m : ChannelManager) (now : UInt32) :
    (m.hopNext now).1.lastHopMs = now ∨ m.hopNext now = (m, []) := by
  by_cases hnil : m.scan.scanList = []
  · exact Or.inr (hopNext_nil hnil now)
  · exact Or.inl (hopNext_spec hnil now).2.1

/-- Right after the operation. -/
theorem recalls_first (h : s.Scans op (s.step op)) : s.Recalls op 0 (s.step op) := by
  refine ⟨scans_sameList h, ?_, ?_, ?_⟩
  · intro hanswer
    left
    unfold answer at hanswer
    split_ifs at hanswer with hphase
    cases h with
    | polls now env htick hs =>
      rw [htick] at hanswer
      have hready : env.hopReady = false := by simpa using hanswer
      have hpoll := handleScanning_polled (s.clearOut.clocked now) env
      rw [← hs] at hpoll
      rw [(hpoll.hopping _ rfl hphase).1]
      exact hready
    | hears hop hscan hm hh ht => cases op <;> simp [scanTick, isHeard] at hanswer hop
    | pauses t hop htick => rw [htick] at hanswer; cases hanswer
    | stays hop htick hon => rw [htick] at hanswer; cases hanswer
  · intro hhop
    cases h with
    | polls now env htick hs =>
      have hpoll := handleScanning_polled (s.clearOut.clocked now) env
      rw [← hs] at hpoll
      have hclock : (s.step op).currentTimeMs = now := hpoll.clock
      have hlast : ∀ m : ChannelManager, (s.step op).channelManager = (m.hopNext now).1 →
          hops (s.step op).out = (m.hopNext now).2 → (s.step op).channelManager.lastHopMs = now := by
        intro m hm hh
        rcases lastHop_hopNext m now with hl | hl
        · rw [hm, hl]
        · rw [hl] at hh
          exact absurd hh hhop
      have hnow : (s.step op).channelManager.lastHopMs = now := by
        cases hphase : s.scan.scanningPhase with
        | scanPause =>
          rcases hpoll.paused hphase with ⟨-, -, hh⟩ | ⟨-, -, hm, hh⟩
          · exact absurd hh hhop
          · exact hlast _ hm hh
        | hopping =>
          rcases (hpoll.hopping _ rfl hphase).2 with ⟨-, hh⟩ | ⟨-, -, hm, hh⟩
          · exact absurd hh hhop
          · exact hlast _ hm hh
      rw [hclock, hnow, since_self]
    | hears hop hscan hm hh ht => exact absurd hh hhop
    | pauses t hop htick hphase hscan hm hh => exact absurd hh hhop
    | stays hop htick hon => exact absurd hon.hops hhop
  · intro hheard
    right
    cases h with
    | polls now env htick hs => cases op <;> simp [scanTick, isHeard] at htick hheard
    | hears hop hscan hm hh ht =>
      rw [hscan, ht]
      exact ⟨rfl, (since_self _).le⟩
    | pauses t hop => rw [hop] at hheard; cases hheard
    | stays hop => rw [hop] at hheard; cases hheard

/-- **One more operation**: what is recalled goes on, and a hop is due. -/
theorem recalls_step {ago : Nat} (hr : s.Recalls op ago p) (h : p.Scans last (p.step last)) :
    s.Recalls op (ago + p.elapsed last) (p.step last) ∧
      (hops (p.step last).out ≠ [] → p.Due last s op (ago + p.elapsed last)) := by
  have hlist := hr.list.trans (scans_sameList h)
  have hgoes : ∀ {t : UInt32}, (p.currentTimeMs - t).toNat ≤ ago →
      ((p.step last).currentTimeMs - t).toNat ≤ ago + p.elapsed last := by
    intro t ht
    exact (since_le t p.currentTimeMs _).trans (Nat.add_le_add_right ht _)
  have hless : ago ≤ ago + p.elapsed last := Nat.le_add_right _ _
  cases h with
  | polls now env htick hs =>
    have hpoll := handleScanning_polled (p.clearOut.clocked now) env
    rw [← hs] at hpoll
    have hclock : (p.step last).currentTimeMs = now := hpoll.clock
    cases hphase : p.scan.scanningPhase with
    | scanPause =>
      rcases hpoll.paused hphase with ⟨hscan, hm, hh⟩ | ⟨hdue, hscan, hm, hh⟩
      · refine ⟨⟨hlist, ?_, ?_, ?_⟩, fun hhop => absurd hh hhop⟩
        · intro hanswer
          rw [hscan, hm]
          exact (hr.unsettled hanswer).imp_right hgoes
        · intro hhop
          rw [hm]
          exact hgoes (hr.hopped hhop)
        · intro hheard
          rw [hscan]
          exact (hr.heard hheard).imp (fun h => h.trans hless) (fun h => ⟨h.1, hgoes h.2⟩)
      · have hsilent : isHeard op = true → tdrwMs.toNat ≤ ago + p.elapsed last := by
          intro hheard
          rcases hr.heard hheard with hold | ⟨-, hsettle⟩
          · exact hold.trans hless
          · have hwait : tdrwMs.toNat ≤ (now - p.scan.scanPauseSettleMs).toNat :=
              UInt32.le_iff_toNat_le.mp hdue
            rw [← hclock] at hwait
            exact hwait.trans (hgoes hsettle)
        have hlast : ∀ {a : Nat}, (∀ t, (p.currentTimeMs - t).toNat ≤ ago →
              ((p.step last).currentTimeMs - t).toNat ≤ a) →
            (p.currentTimeMs - p.channelManager.lastHopMs).toNat ≤ ago →
            ((p.step last).currentTimeMs - (p.step last).channelManager.lastHopMs).toNat ≤ a := by
          intro a ha hold
          rw [hm]
          rcases lastHop_hopNext p.channelManager now with hl | hl
          · change (_ - (p.channelManager.hopNext now).1.lastHopMs).toNat ≤ a
            rw [hl, hclock, since_self]
            exact Nat.zero_le a
          · change (_ - (p.channelManager.hopNext now).1.lastHopMs).toNat ≤ a
            rw [hl]
            exact ha _ hold
        refine ⟨⟨hlist, ?_, ?_, fun hheard => Or.inl (hsilent hheard)⟩, ?_⟩
        · intro hanswer
          rw [hscan]
          exact (hr.unsettled hanswer).imp_right (hlast fun t => hgoes)
        · intro hhop
          exact hlast (fun t => hgoes) (hr.hopped hhop)
        · intro _
          refine ⟨fun h => absurd (hphase.symm.trans h) (by decide), ?_⟩
          intro _ hago
          cases hheard : isHeard op with
          | false => rfl
          | true => exact absurd (hsilent hheard) (by omega)
    | hopping =>
      obtain ⟨hscan, hcase⟩ := hpoll.hopping _ rfl hphase
      generalize hmdef : anchored (p.clearOut.clocked now).channelManager
        (env.hopReady && !(p.clearOut.clocked now).scan.prevHopReady)
        (p.clearOut.clocked now).currentTimeMs = m at hcase
      have hmlist : SameList p.channelManager m := by
        rw [← hmdef]
        unfold anchored
        split_ifs
        · exact sameList_anchorDwell _ _
        · exact SameList.refl _
      have hheard : isHeard op = true → tdrwMs.toNat ≤ ago + p.elapsed last := by
        intro hheard
        rcases hr.heard hheard with hold | ⟨hpause, -⟩
        · exact hold.trans hless
        · rw [hphase] at hpause
          cases hpause
      -- the dwell started at the last hop, or now
      have hanchor : m.lastHopMs = now ∨ m.lastHopMs = p.channelManager.lastHopMs ∧
          ¬ (env.hopReady = true ∧ p.scan.prevHopReady = false) := by
        rw [← hmdef]
        unfold anchored
        split_ifs with hedge
        · exact Or.inl rfl
        · refine Or.inr ⟨rfl, ?_⟩
          rintro ⟨h1, h2⟩
          apply hedge
          change (env.hopReady && !p.scan.prevHopReady) = true
          rw [h1, h2]
          rfl
      have hsince : (p.currentTimeMs - p.channelManager.lastHopMs).toNat ≤ ago →
          ((p.step last).currentTimeMs - m.lastHopMs).toNat ≤ ago + p.elapsed last := by
        intro hold
        rcases hanchor with hl | ⟨hl, -⟩
        · rw [hl, hclock, since_self]
          exact Nat.zero_le _
        · rw [hl]
          exact hgoes hold
      have hunsettled : s.answer op = some false → env.hopReady = true →
          ((p.step last).currentTimeMs - m.lastHopMs).toNat ≤ ago + p.elapsed last := by
        intro hanswer hready
        rcases hr.unsettled hanswer with hprev | hold
        · rcases hanchor with hl | ⟨-, hno⟩
          · rw [hl, hclock, since_self]
            exact Nat.zero_le _
          · exact absurd ⟨hready, hprev⟩ hno
        · exact hsince hold
      have hmanager : ((p.step last).currentTimeMs - m.lastHopMs).toNat ≤ ago + p.elapsed last →
          ((p.step last).currentTimeMs - (p.step last).channelManager.lastHopMs).toNat ≤
            ago + p.elapsed last := by
        intro hold
        rcases hcase with ⟨hm, -⟩ | ⟨-, -, hm, -⟩
        · rw [hm]
          exact hold
        · rw [hm]
          change (_ - (m.hopNext now).1.lastHopMs).toNat ≤ _
          rcases lastHop_hopNext m now with hl | hl
          · rw [hl, hclock, since_self]
            exact Nat.zero_le _
          · rw [hl]
            exact hold
      refine ⟨⟨hlist, ?_, ?_, fun h => Or.inl (hheard h)⟩, ?_⟩
      · intro hanswer
        rw [hscan]
        cases hready : env.hopReady with
        | false => exact Or.inl rfl
        | true => exact Or.inr (hmanager (hunsettled hanswer hready))
      · intro hhop
        exact hmanager (hsince (hr.hopped hhop))
      · intro hhop
        rcases hcase with ⟨-, hh⟩ | ⟨hready, hdwell, -, -⟩
        · exact absurd hh hhop
        have hfull : s.channelManager.scan.dwellTimeMs.toNat ≤
            ((p.step last).currentTimeMs - m.lastHopMs).toNat := by
          rw [checkDwellTimeout, decide_eq_true_eq] at hdwell
          have hd := UInt32.le_iff_toNat_le.mp hdwell
          rw [hmlist.dwell, hr.list.dwell] at hd
          rw [hclock]
          exact hd
        refine ⟨fun _ => ⟨?_, ?_⟩, fun h => absurd (hphase.symm.trans h) (by decide)⟩
        · rw [answer, if_pos hphase, htick, hready]
          rfl
        · intro hago
          refine ⟨?_, ?_⟩
          · intro hanswer
            have := hunsettled hanswer hready
            omega
          · by_contra hhopped
            have := hsince (hr.hopped hhopped)
            omega
  | hears hop hscan hm hh ht =>
    have hzero : p.elapsed last = 0 := by
      rw [elapsed, ht, since_self]
    refine ⟨⟨hlist, ?_, ?_, ?_⟩, fun hhop => absurd hh hhop⟩
    · intro hanswer
      rw [hscan, hm]
      exact (hr.unsettled hanswer).imp_right hgoes
    · intro hhop
      rw [hm]
      exact hgoes (hr.hopped hhop)
    · intro _
      right
      rw [hscan, ht]
      refine ⟨rfl, ?_⟩
      change (p.currentTimeMs - p.currentTimeMs).toNat ≤ _
      rw [since_self]
      exact Nat.zero_le _
  | pauses t hop htick hphase hscan hm hh =>
    refine ⟨⟨hlist, ?_, ?_, ?_⟩, fun hhop => absurd hh hhop⟩
    · intro hanswer
      rw [hscan, hm]
      exact (hr.unsettled hanswer).imp_right hgoes
    · intro hhop
      rw [hm]
      exact hgoes (hr.hopped hhop)
    · intro hheard
      left
      rcases hr.heard hheard with hold | ⟨hpause, -⟩
      · exact hold.trans hless
      · rw [hphase] at hpause
        cases hpause
  | stays hop htick hon =>
    have hscan : (p.step last).scan = p.scan := hon.scan
    have hm : (p.step last).channelManager = p.channelManager := hon.manager
    refine ⟨⟨hlist, ?_, ?_, ?_⟩, fun hhop => absurd hon.hops hhop⟩
    · intro hanswer
      rw [hscan, hm]
      exact (hr.unsettled hanswer).imp_right hgoes
    · intro hhop
      rw [hm]
      exact hgoes (hr.hopped hhop)
    · intro hheard
      rw [hscan]
      exact (hr.heard hheard).imp (fun h => h.trans hless) (fun h => ⟨h.1, hgoes h.2⟩)

/-- A run of operations. -/
theorem recalls_run {ago : Nat} (hr : s.Recalls op ago p) (h : p.Episode mid) :
    s.Recalls op (ago + p.duration mid) (Machine.run step p mid) := by
  induction mid generalizing p ago with
  | nil => exact hr
  | cons o mid ih =>
    obtain ⟨hstep, hrest⟩ := h.step
    have := ih (recalls_step hr hstep).1 hrest
    rwa [Nat.add_assoc] at this

theorem Episode.append {as bs : List Op} (h : s.Episode (as ++ bs)) :
    s.Episode as ∧ (Machine.run SM.step s as).Episode bs := by
  obtain ⟨hscan, hkeep⟩ := h
  rw [Machine.allStates_append] at hscan
  exact ⟨⟨hscan.1, fun o ho => hkeep o (List.mem_append_left bs ho)⟩,
    ⟨hscan.2, fun o ho => hkeep o (List.mem_append_right as ho)⟩⟩

/-- **Before every hop.** Let an operation of an episode hop, and look at any earlier one. If the
machine was not in a pause, the radio answers that it is ready; and if the earlier operation lies
less than the dwell time back, it was no hop and did not find the radio unready. If the machine was
in a pause, no valid word was heard less than `Tdrw` ago. -/
theorem hop_due (s : SM) (op : Op) (mid : List Op) (last : Op)
    (h : s.Episode (op :: (mid ++ [last])))
    (hhop : hops ((Machine.run step s (op :: mid)).step last).out ≠ []) :
    (Machine.run step s (op :: mid)).Due last s op ((s.step op).duration (mid ++ [last])) := by
  obtain ⟨hfirst, hrest⟩ := h.step
  obtain ⟨hmid, hlast⟩ := hrest.append
  have hr := recalls_run (recalls_first hfirst) hmid
  have hdue := (recalls_step hr hlast.step.1).2 hhop
  have htime : (s.step op).duration (mid ++ [last]) =
      0 + (s.step op).duration mid + (Machine.run SM.step (s.step op) mid).elapsed last := by
    rw [duration_append, duration, duration, Nat.add_zero, Nat.zero_add]
  rw [htime]
  exact hdue

end SM

end OpenALE
