import OpenALE.Properties.Framing
import OpenALE.Control.Held
import OpenALE.Control.Linked

/-!
# The station's frames before its own validator

`Emits` says which steps of the machine send a complete frame: the calling frame when `TUNING`
ends, whatever happened since the request; the response; the acknowledgement; the termination; the
broadcast.

Results:
* `emits_words`: the words of such a step are those of the sequence builder.
* `accepts_iff`: `FrameValidator` rejects the frame exactly for a group with two single-word
  members before a third, or with one before a member of more than 12 characters; for a text of
  more than 18 characters; and for more than two link-quality reports.
-/

namespace OpenALE

/-- A complete frame of the station. -/
inductive FrameKind where
  | call (target : Str)
  | group (members : List Str)
  | allcall (self text : Str) (linkAfterSend : Bool)
  | response
  | ack
  | termination
  deriving Repr, DecidableEq

/-- The operation that requests a calling frame. -/
def FrameKind.request : FrameKind → Option Op
  | .call target => some (.initiateCall target)
  | .group members => some (.initiateGroupCall members)
  | _ => none

namespace SM

/-- The words handed to the transmitter in one step. -/
def sent (s : SM) (op : Op) : List ALEWord := transmitted (s.step op).out

/-- The station sends the complete frame `ws`: for a call requested in `s`, after any operations
that leave it in `CALLING`; otherwise in a step taken in `s`. -/
inductive Emits (s : SM) : FrameKind → List ALEWord → Prop
  | calling {k : FrameKind} {req : Op} {ops : List Op} {now : UInt32} {env : Env}
      (hk : k.request = some req) (ha : s.available = true)
      (hin : Machine.AllStates step (fun p => p.currentState = .calling) (s.step req) ops)
      (hp : (Machine.run step (s.step req) ops).calling.callingPhase = .tuning)
      (hw : (Machine.run step (s.step req) ops).sent (.update now env) ≠ []) :
      Emits s k ((Machine.run step (s.step req) ops).sent (.update now env))
  | allcall {self text : Str} {linkAfterSend : Bool}
      (hw : s.sent (.sendAllcallBroadcast self text linkAfterSend) ≠ []) :
      Emits s (.allcall self text linkAfterSend)
        (s.sent (.sendAllcallBroadcast self text linkAfterSend))
  | response {now : UInt32} {env : Env} (hs : s.currentState = .handshake)
      (hp : s.hs.handshakePhase = .channelCheck) (hw : s.sent (.update now env) ≠ []) :
      Emits s .response (s.sent (.update now env))
  | ack {now : UInt32} {env : Env} (hs : s.currentState = .calling)
      (hp : s.calling.callingPhase = .sendingAck) (hw : s.sent (.update now env) ≠ []) :
      Emits s .ack (s.sent (.update now env))
  | termination {op : Op} (hs : s.currentState = .linked)
      (hop : op = .terminateLink ∨ op = .emergencyManualControl ∨
        isUpdate op = true ∧ (s.step op).currentState ≠ .linked) (hw : s.sent op ≠ []) :
      Emits s .termination (s.sent op)

/-! ## The words of a frame -/

/-- The words of a calling frame with its snapshot of message, CMD LQA and LQA report. -/
def callWords (s : SM) (scan lead : List ALEWord) : List ALEWord :=
  let msg := s.pend.pendingMessage
  let hasAmd := msg.isAmd && msg.content != []
  let lqaSeq := if s.pend.pendingLqaCmdSet then lqaCmd s.pend.pendingLqaCmdRaw else []
  let reportSeq := if s.pend.pendingLqaReportSet then s.pend.pendingLqaReportSeq else []
  scan ++ lead ++ (if hasAmd then fromId s.selfAddress else []) ++
    (lqaSeq ++ (reportSeq ++ if hasAmd then encodeAmd msg.content else [])) ++
    conclusion s.selfAddress false

/-- The words of a frame. -/
def frameWords (s : SM) : FrameKind → List ALEWord
  | .call target =>
    s.callWords (scanningCall target s.targetScanChannels) (leadingCall target)
  | .group members =>
    s.callWords (scanningCallGroup members s.targetScanChannels) (leadingCallGroup members)
  | .allcall self text linkAfterSend => s.allcallWords self text linkAfterSend
  | .response => s.responseWords
  | .ack => OpenALE.ack s.calling.toAddress s.selfAddress s.noLink
  | .termination => OpenALE.termination s.link.activeCallTo s.selfAddress

/-- `s'` comes from `s` with the words `ws` handed over. -/
def Hands (s s' : SM) (ws : List ALEWord) : Prop :=
  transmitted s'.out = transmitted s.out ++ ws.map (·.stamp s.currentTimeMs)

section Hands

variable {s p s' : SM} {ws : List ALEWord}

theorem Hands.refl (s : SM) : s.Hands s [] := (List.append_nil _).symm

theorem hands_of_out (h : transmitted s'.out = transmitted s.out) : s.Hands s' [] := by
  unfold Hands
  rw [h, List.map_nil, List.append_nil]

theorem transmitted_channels (chs : List Channel) : transmitted (chs.map .channelChange) = [] := by
  induction chs with
  | nil => rfl
  | cons c cs ih => exact ih

theorem transmitted_transitionTo (s : SM) (t : ALEState) :
    transmitted (s.transitionTo t).1.out = transmitted s.out := by
  by_cases h : s.currentState = t
  · rw [transitionTo_self h]
  · obtain ⟨chs, hc⟩ := transitionTo_out h
    rw [hc, transmitted_append, transmitted_append, transmitted_channels, List.append_nil]
    exact List.append_nil _

theorem transmitted_soundingComplete (s : SM) :
    transmitted s.soundingComplete.1.out = transmitted s.out := by
  unfold soundingComplete
  split
  · split
    · unfold advanceSweep rxEnabled emit setChannels
      dsimp only
      rw [transmitted_append, transmitted_append, transmitted_channels, List.append_nil]
      exact List.append_nil _
    · exact transmitted_transitionTo s.dropSweep _
  · exact transmitted_transitionTo s _

/-- An event sends nothing. -/
theorem transmitted_processEvent (s : SM) (e : ALEEvent) :
    transmitted (s.processEvent e).1.out = transmitted s.out := by
  unfold processEvent
  cases s.currentState <;> cases e <;>
    first
      | exact transmitted_transitionTo s _
      | exact transmitted_soundingComplete s
      | exact transmitted_transitionTo s.dropSweep _
      | rfl

theorem Hands.event (h : s.Hands p ws) (e : ALEEvent) : s.Hands (p.processEvent e).1 ws :=
  (transmitted_processEvent p e).trans h

theorem Hands.emit (h : s.Hands p ws) {o : Output} (ho : transmitted [o] = []) :
    s.Hands (p.emit o) ws := by
  show transmitted (p.out ++ [o]) = _
  rw [transmitted_append, ho, List.append_nil]
  exact h

theorem hands_transmitWords (s : SM) (ws : List ALEWord) : s.Hands (s.transmitWords ws) ws := by
  rw [transmitWords_eq]
  show transmitted (s.out ++ _) = _
  rw [transmitted_append, transmitted_map]

theorem Hands.armDrain (h : s.Hands p ws) (d : UInt32) : s.Hands (p.armDrain d) ws := by
  unfold SM.armDrain
  split <;> exact h

end Hands

/-! ## What the steps send -/

section Steps

variable {s p : SM} {now : UInt32} {env : Env} {ws : List ALEWord}

/-- A tick sends nothing, or what the handler of the state sends. -/
theorem tick_hands (h : s.tick env = s.handle env →
      s.Hands (s.handle env) [] ∨ s.Hands (s.handle env) ws) :
    s.Hands (s.tick env) [] ∨ s.Hands (s.tick env) ws := by
  by_cases hl : s.checkLinkTimeout = true
  · rw [show s.tick env = s.linkTimeout from if_pos hl]
    exact Or.inl ((Hands.refl s).event _)
  by_cases ha : (s.allcallBroadcasting && s.drainExpired) = true
  · rw [show s.tick env = s.allcallDrainTimeout from (if_neg hl).trans (if_pos ha)]
    exact Or.inl (hands_of_out (transmitted_append _ _ |>.trans (List.append_nil _)))
  · have he : s.tick env = s.handle env := (if_neg hl).trans (if_neg ha)
    rw [he]
    exact h he

/-- An update that sends anything sends what the handler does. -/
theorem sent_update (hp : p = s.clearOut.clocked now)
    (h : s.step (.update now env) = p.handle env →
      p.Hands (p.handle env) [] ∨ p.Hands (p.handle env) ws)
    (hw : s.sent (.update now env) ≠ []) :
    ∃ t, s.sent (.update now env) = ws.map (·.stamp t) := by
  have hsent : s.sent (.update now env) = transmitted (s.clearOut.update now env).out := rfl
  by_cases hb : 0x80000000 ≤ now - s.currentTimeMs
  · have hu : s.clearOut.update now env = s.clearOut := if_pos hb
    rw [hsent, hu] at hw
    exact absurd rfl hw
  · have hu : s.clearOut.update now env = (s.clearOut.clocked now).tick env := if_neg hb
    have hstep : s.step (.update now env) = p.tick env := by
      rw [hp]
      exact hu
    have ht := tick_hands fun he => h (hstep.trans he)
    rw [hsent, hu, ← hp] at hw ⊢
    have hnil : transmitted p.out = [] := by
      rw [hp]
      rfl
    unfold Hands at ht
    rw [hnil] at ht
    rcases ht with ht | ht
    · exact absurd ht hw
    · exact ⟨_, ht⟩

theorem handle_tuning (hc : p.currentState = .calling) (hp : p.calling.callingPhase = .tuning)
    (env : Env) : p.Hands (p.handle env) [] ∨ p.Hands (p.handle env) p.seqs.callFrame := by
  unfold handle
  rw [hc]
  unfold handleCalling
  rw [hp]
  unfold handleTuning
  dsimp only
  split
  · rw [enqueueCallSequence_eq]
    exact Or.inr (hands_transmitWords _ p.seqs.callFrame)
  · exact Or.inl (Hands.refl p)

theorem handle_response (hc : p.currentState = .handshake)
    (hp : p.hs.handshakePhase = .channelCheck) (env : Env) :
    p.Hands (p.handle env) [] ∨ p.Hands (p.handle env) p.responseWords := by
  unfold handle
  rw [hc]
  unfold handleHandshake
  rw [hp]
  unfold handleChannelCheck
  dsimp only
  split
  · exact Or.inl ((Hands.refl p).event _)
  split
  · right
    refine Hands.armDrain ?_ _
    refine (hands_transmitWords _ p.responseWords).trans ?_
    show transmitted (p.out ++ _) ++ _ = _
    rw [transmitted_append]
    exact congrArg (· ++ _) (List.append_nil _)
  · exact Or.inl (Hands.refl p)

theorem handle_ack (hc : p.currentState = .calling) (hp : p.calling.callingPhase = .sendingAck)
    (env : Env) : p.Hands (p.handle env) [] ∨
      p.Hands (p.handle env) (ack p.calling.toAddress p.selfAddress p.noLink) := by
  unfold handle
  rw [hc]
  unfold handleCalling
  rw [hp]
  unfold handleSendingAck
  dsimp only
  split
  · split
    · exact Or.inl (transmitted_processEvent _ _ |>.trans (List.append_nil _).symm)
    · exact Or.inl (Hands.refl p)
  split
  · exact Or.inr ((hands_transmitWords p _).armDrain _)
  · exact Or.inl (Hands.refl p)

/-- The idle warning sends nothing and keeps what the termination is made of. -/
theorem idleWarning_hands (p : SM) : p.Hands p.idleWarning [] ∧
    p.idleWarning.link.activeCallTo = p.link.activeCallTo ∧
    p.idleWarning.selfAddress = p.selfAddress ∧ p.idleWarning.currentTimeMs = p.currentTimeMs := by
  unfold idleWarning rearmIdleWarning
  dsimp only
  split <;> split <;>
    first
      | exact ⟨Hands.refl p, rfl, rfl, rfl⟩
      | exact ⟨(Hands.refl p).emit rfl, rfl, rfl, rfl⟩

theorem twaTimeout_hands (p : SM) : p.Hands p.twaTimeout [] ∨
    p.Hands p.twaTimeout (termination p.link.activeCallTo p.selfAddress) := by
  unfold twaTimeout
  dsimp only
  split
  · split
    · refine Or.inr ((transmitted_processEvent _ _).trans ?_)
      exact hands_transmitWords { p with link := { p.link with linkedTerminating := true } } _
    · exact Or.inl ((transmitted_processEvent _ _).trans (List.append_nil _).symm)
  · exact Or.inl (Hands.refl p)

theorem startOrderwire_currentState (p : SM) : p.startOrderwire.currentState = p.currentState := by
  unfold startOrderwire
  dsimp only
  rw [transmitWords_eq]
  unfold armDrain
  split <;> rfl

theorem handleLinkedAmdListening_hands (p : SM) : p.Hands p.handleLinkedAmdListening [] := by
  have hretry : p.Hands p.linkedAmdRetryOrFail [] := by
    unfold linkedAmdRetryOrFail
    split <;> exact (Hands.refl p).emit rfl
  unfold handleLinkedAmdListening
  split
  · split
    · exact hretry
    · exact Hands.refl p
  split
  · split
    · exact hretry
    · exact Hands.refl p
  split <;> exact Hands.refl p

theorem handleLinkedAmdWaitAck_hands (p : SM) : p.Hands p.handleLinkedAmdWaitAck [] := by
  unfold handleLinkedAmdWaitAck endLinkedAmd
  repeat' split
  all_goals exact Hands.refl p

/-- The step from `s` to `s'` stays in `LINKED` or sends nothing but a termination. -/
def Parts (s s' : SM) : Prop :=
  s'.currentState = .linked ∨ s.Hands s' [] ∨
    s.Hands s' (termination s.link.activeCallTo s.selfAddress)

theorem Hands.parts {s' : SM} (h : s.Hands s' []) : s.Parts s' := Or.inr (Or.inl h)

theorem handleLinkedActive_parts (hc : p.currentState = .linked) :
    p.Parts p.handleLinkedActive := by
  have hretry : p.Hands p.handleLinkedAmdRetry [] := by
    unfold handleLinkedAmdRetry
    split <;> exact Hands.refl p
  unfold handleLinkedActive
  split
  · exact Or.inl hc
  split
  · exact Or.inl ((startOrderwire_currentState p).trans hc)
  split
  · exact hretry.parts
  split
  · exact (handleLinkedAmdListening_hands p).parts
  split
  · exact (handleLinkedAmdWaitAck_hands p).parts
  · obtain ⟨h1, h2, h3, h4⟩ := idleWarning_hands p
    have ht := twaTimeout_hands p.idleWarning
    unfold Hands at h1 ht
    simp only [h1, h2, h3, h4, List.map_nil, List.append_nil] at ht
    exact Or.inr (ht.imp (fun h => h.trans (List.append_nil _).symm) id)

theorem linkedDrainTimeout_hands (p : SM) : p.Hands p.linkedDrainTimeout [] := by
  unfold linkedDrainTimeout
  dsimp only
  split
  · refine (transmitted_processEvent _ _).trans ?_
    exact transmitted_append _ _
  · exact transmitted_append _ _

/-- **A tick that ends the link sends nothing but a termination.** -/
theorem handleLinked_parts (hc : p.currentState = .linked) : p.Parts p.handleLinked := by
  unfold handleLinked
  split
  · exact (linkedDrainTimeout_hands p).parts
  split
  · exact Or.inl hc
  split
  · dsimp only
    split
    · exact Or.inr (Or.inl (transmitted_processEvent _ _ |>.trans (List.append_nil _).symm))
    · exact handleLinkedActive_parts
        (p := { p with link := { p.link with linkedTwasAddr := [] } }) hc
  · exact handleLinkedActive_parts hc

theorem handle_termination (hc : p.currentState = .linked)
    (hl : (p.handle env).currentState ≠ .linked) : p.Hands (p.handle env) [] ∨
      p.Hands (p.handle env) (termination p.link.activeCallTo p.selfAddress) := by
  have he : p.handle env = p.handleLinked := by
    unfold handle
    rw [hc]
  have hp := handleLinked_parts hc
  rw [← he] at hp
  exact hp.resolve_left hl

end Steps

/-! ## The frame of a request -/

section Request

variable {s : SM} {k : FrameKind} {ws : List ALEWord}

/-- During the call its sequences stay. -/
theorem run_seqs {s : SM} {ops : List Op}
    (h : Machine.AllStates step (fun p => p.currentState = .calling) s ops) :
    (Machine.run step s ops).seqs = s.seqs := by
  induction ops generalizing s with
  | nil => rfl
  | cons op ops ih =>
    have hs : (s.step op).seqs = s.seqs := (exec_frame (s := s.clearOut) h.1 op).1
    rw [Machine.run_cons, ih h.2, hs]

/-- A group without members is refused. -/
theorem members_ne_nil {members : List Str} (ha : s.available = true)
    (hc : (s.step (.initiateGroupCall members)).currentState = .calling) : members ≠ [] := by
  rintro rfl
  have hstep : s.step (.initiateGroupCall []) = s.clearOut := by
    show (s.clearOut.initiateGroupCall []).1 = _
    unfold initiateGroupCall
    split <;> rfl
  rw [hstep] at hc
  unfold available at ha
  rw [show s.currentState = .calling from hc] at ha
  exact absurd ha (by decide)

/-- **The calling frame is the snapshot taken at the request.** -/
theorem request_callFrame {req : Op} (hk : k.request = some req) (ha : s.available = true)
    (hc : (s.step req).currentState = .calling) :
    (s.step req).seqs.callFrame = s.frameWords k := by
  have hav : ¬ ¬ s.clearOut.available = true := not_not.mpr ha
  cases k with
  | call target =>
    obtain rfl : Op.initiateCall target = req := Option.some.inj hk
    have hq : s.step (.initiateCall target) = (s.clearOut.initiateCall target).1 := rfl
    rw [hq]
    unfold initiateCall
    rw [if_neg hav]
    dsimp only
    unfold callRequest
    rw [(processEvent_kept _ _).seqs]
    simp only [snapshotMessage, beginCall, CallSequences.callFrame, frameWords, callWords,
      List.append_assoc]
    rfl
  | group members =>
    obtain rfl : Op.initiateGroupCall members = req := Option.some.inj hk
    have hq : s.step (.initiateGroupCall members) = (s.clearOut.initiateGroupCall members).1 := rfl
    rw [hq]
    unfold initiateGroupCall
    rw [if_neg hav, if_neg (members_ne_nil ha hc)]
    dsimp only
    unfold callRequest
    rw [(processEvent_kept _ _).seqs]
    simp only [snapshotMessage, beginCall, CallSequences.callFrame, frameWords, callWords,
      List.append_assoc]
    rfl
  | _ => exact absurd hk (by simp [FrameKind.request])

theorem sent_terminateLink (hw : s.sent .terminateLink ≠ []) :
    ∃ t, s.sent .terminateLink = (s.frameWords .termination).map (·.stamp t) := by
  refine ⟨s.currentTimeMs, ?_⟩
  have hsent : s.sent .terminateLink = transmitted s.clearOut.terminateLink.out := rfl
  rw [hsent] at hw ⊢
  have ht := hands_transmitWords
    { s.clearOut with link := { s.clearOut.link with linkedTerminating := true } }
    (OpenALE.termination s.link.activeCallTo s.selfAddress)
  unfold terminateLink at hw ⊢
  split at hw
  · exact absurd rfl hw
  · rename_i hl
    rw [if_neg hl]
    dsimp only
    split
    · refine (transmitted_processEvent _ _).trans ?_
      exact (transmitted_append _ _).trans ((List.append_nil _).trans ht)
    · exact (transmitted_append _ _).trans ((List.append_nil _).trans ht)

theorem sent_emergency (hw : s.sent .emergencyManualControl ≠ []) :
    ∃ t, s.sent .emergencyManualControl = (s.frameWords .termination).map (·.stamp t) := by
  refine ⟨s.currentTimeMs, ?_⟩
  have hsent : s.sent .emergencyManualControl =
      transmitted s.clearOut.emergencyManualControl.out := rfl
  rw [hsent] at hw ⊢
  unfold emergencyManualControl at hw ⊢
  dsimp only at hw ⊢
  rw [transmitted_transitionTo] at hw ⊢
  split at hw
  · rename_i hl
    rw [if_pos hl]
    exact hands_transmitWords _ _
  · exact absurd rfl hw

/-- **The words of the frame are those of the sequence builder.** -/
theorem emits_words (h : s.Emits k ws) : ws ≠ [] ∧ ∃ t, ws = (s.frameWords k).map (·.stamp t) := by
  cases h with
  | @calling k req ops now env hk ha hin hp hw =>
    refine ⟨hw, ?_⟩
    rw [← request_callFrame hk ha hin.head, ← run_seqs hin]
    exact sent_update rfl (fun _ => handle_tuning (p := (Machine.run step _ ops).clearOut.clocked now)
      hin.last hp env) hw
  | @allcall self text l hw =>
    refine ⟨hw, s.currentTimeMs, ?_⟩
    have hsent : s.sent (.sendAllcallBroadcast self text l) =
        transmitted (s.clearOut.sendAllcallBroadcast self text l).1.out := rfl
    rw [hsent] at hw ⊢
    unfold sendAllcallBroadcast at hw ⊢
    split at hw
    · exact absurd rfl hw
    split at hw
    · exact absurd rfl hw
    split at hw
    · exact absurd rfl hw
    split at hw
    · exact absurd rfl hw
    rename_i h1 h2 h3 h4
    rw [if_neg h1, if_neg h2, if_neg h3, if_neg h4]
    dsimp only
    refine (Hands.armDrain (hands_transmitWords _ _) _).trans ?_
    rfl
  | @response now env hs hp hw =>
    refine ⟨hw, sent_update rfl (fun _ => ?_) hw⟩
    exact handle_response (p := s.clearOut.clocked now) hs hp env
  | @ack now env hs hp hw =>
    refine ⟨hw, sent_update rfl (fun _ => ?_) hw⟩
    exact handle_ack (p := s.clearOut.clocked now) hs hp env
  | @termination op hs hop hw =>
    refine ⟨hw, ?_⟩
    rcases hop with rfl | rfl | ⟨hu, hl⟩
    · exact sent_terminateLink hw
    · exact sent_emergency hw
    · cases op with
      | update now env =>
        refine sent_update rfl (fun he => ?_) hw
        rw [he] at hl
        exact handle_termination (p := s.clearOut.clocked now) hs hl
      | _ => exact absurd hu Bool.false_ne_true

theorem emits_group {members : List Str} (h : s.Emits (.group members) ws) : members ≠ [] := by
  cases h with
  | calling hk ha hin hp hw =>
    cases hk
    exact members_ne_nil ha hin.head

theorem emits_allcall {self text : Str} {l : Bool} (h : s.Emits (.allcall self text l) ws) :
    text ≠ [] := by
  cases h with
  | calling hk ha hin hp hw => cases hk
  | allcall hw =>
    rintro rfl
    have hstep : s.sent (.sendAllcallBroadcast self [] l) = [] := by
      show transmitted (s.clearOut.sendAllcallBroadcast self [] l).1.out = []
      unfold sendAllcallBroadcast
      rw [if_pos (show encodeAmd [] = [] from rfl)]
      repeat' split
      all_goals rfl
    exact hw hstep

end Request

/-! ## What the validator makes of it -/

/-- The addresses of a frame besides the station's own. -/
def addresses (s : SM) : FrameKind → List Str
  | .call target => [target]
  | .group members => members
  | .allcall self _ _ => [self]
  | .response => [s.hs.callerAddress]
  | .ack => [s.calling.toAddress]
  | .termination => [s.link.activeCallTo]

/-- The scanning section of a group call. -/
def groupScanning (s : SM) : FrameKind → List ALEWord
  | .group members => scanningCallGroup members s.targetScanChannels
  | _ => []

/-- The queued text has at most 18 characters and the queued report at most two entries. -/
def MessageFits (s : SM) (reports : List LQAReport) : Prop :=
  (s.pend.pendingMessage.isAmd = true → s.pend.pendingMessage.content.length ≤ 18) ∧
    (s.pend.pendingLqaReportSet = true → reports.length ≤ 2)

/-- The frame passes the validator. -/
def Conforms (s : SM) (reports : List LQAReport) : FrameKind → Prop
  | .call _ => s.MessageFits reports
  | .group members => FrameValidator.GroupFits members ∧ s.MessageFits reports
  | .allcall _ text _ => text.length ≤ 18
  | .response =>
    s.hs.pendingReject = true ∨ (s.pend.pendingLqaReportSet = true → reports.length ≤ 2)
  | .ack | .termination => True

end SM

namespace FrameValidator

theorem types_stamp (now : UInt32) (ws : List ALEWord) : types (ws.map (·.stamp now)) = types ws := by
  unfold types
  rw [List.map_map]
  rfl

/-- The validator does not read the time stamps. -/
theorem accepts_stamp (scanning ws : List ALEWord) (now : UInt32) :
    accepts scanning (ws.map (·.stamp now)) = accepts scanning ws := by
  have htarget : ∀ seen, targetLoop seen (ws.map (·.stamp now)) = targetLoop seen ws := by
    intro seen
    induction ws generalizing seen with
    | nil => rfl
    | cons w ws ih =>
      rw [List.map_cons, targetLoop_cons, targetLoop_cons]
      simp only [ih]
      rfl
  have ht := types_stamp now ws
  unfold accepts groupCallTargetCountValid
  rw [htarget]
  unfold fromCountValid fromPrecedesCmdOnly thruInScanningSectionOnly tisTwasMutuallyExclusive
    cmdNotBeforeAddressSection cmdHasCallAndConclusion repNotPrecededBySelfTisTwas
    addressSectionWordCountValid
  rw [ht]

end FrameValidator

namespace SM

open FrameValidator

section Accepts

variable {s : SM} {reports : List LQAReport}

/-- The queued CMD LQA. -/
theorem part_lqaCmd (b : Bool) (raw24 : Nat) :
    Part (types (if b then lqaCmd raw24 else [])) ∧
      fits (types (if b then lqaCmd raw24 else [])) = true := by
  cases b with
  | false => exact ⟨part_nil, rfl⟩
  | true => exact ⟨part_cmd (by simp), rfl⟩

/-- The queued report. -/
theorem part_lqaReport (b : Bool) (reports : List LQAReport) :
    Part (types (if b then lqaReport reports else [])) ∧
      (fits (types (if b then lqaReport reports else [])) = true ↔
        (b = true → reports.length ≤ 2)) := by
  cases b with
  | false => exact ⟨part_nil, iff_of_true rfl (fun h => absurd h Bool.false_ne_true)⟩
  | true =>
    by_cases hr : reports = []
    · subst hr
      exact ⟨part_nil, iff_of_true rfl fun _ => by simp⟩
    · obtain ⟨ts, ht, hext, hfits⟩ := types_lqaReport hr
      rw [if_pos rfl, ht]
      exact ⟨part_cmd hext, hfits.trans ⟨fun h _ => h, fun h => h rfl⟩⟩

/-- The queued text. -/
theorem part_encodeAmd (msg : PendingMessage) :
    Part (types (if msg.isAmd && msg.content != [] then encodeAmd msg.content else [])) ∧
      (fits (types (if msg.isAmd && msg.content != [] then encodeAmd msg.content else [])) = true ↔
        (msg.isAmd = true → msg.content.length ≤ 18)) ∧
      ((msg.isAmd && msg.content != []) = true →
        types (if msg.isAmd && msg.content != [] then encodeAmd msg.content else []) ≠ []) := by
  split
  · rename_i h
    rw [Bool.and_eq_true, bne_iff_ne] at h
    obtain ⟨ts, ht, hext, hfits⟩ := types_encodeAmd h.2
    rw [ht]
    exact ⟨part_cmd hext, hfits.trans ⟨fun hf _ => hf, fun hf => hf h.1⟩, fun _ => by simp⟩
  · rename_i h
    refine ⟨part_nil, iff_of_true rfl fun ha => ?_, fun ha => absurd ha h⟩
    rw [ha, Bool.true_and, bne_iff_ne, not_not] at h
    rw [h]
    exact Nat.zero_le 18

/-- A calling frame is accepted iff its leading call and its message are. -/
theorem accepts_callWords (hself : Basic38 s.selfAddress)
    (hr : s.pend.pendingLqaReportSeq = lqaReport reports) {scan lead scanning : List ALEWord}
    (hscan : (∃ n, types scan = List.replicate n .to) ∨ ∃ n, types scan = pairs n)
    (hscanning : scanning = scan ∨ scanning = []) (hlead : Lead (types lead)) (hne : lead ≠ [])
    {targets : List Str} (h5 : targets.length ≤ 5)
    (hw : ∀ w ∈ scan, w.type = .thru → w.address ∈ targets) :
    accepts scanning (s.callWords scan lead) = true ↔
      fits (types lead) = true ∧ s.MessageFits reports := by
  obtain ⟨hp1, hf1⟩ := part_lqaCmd s.pend.pendingLqaCmdSet s.pend.pendingLqaCmdRaw
  obtain ⟨hp2, hf2⟩ := part_lqaReport s.pend.pendingLqaReportSet reports
  obtain ⟨hp3, hf3, hamd⟩ := part_encodeAmd s.pend.pendingMessage
  unfold callWords
  dsimp only
  rw [hr]
  generalize (if s.pend.pendingLqaCmdSet then lqaCmd s.pend.pendingLqaCmdRaw else []) = lqa at *
  generalize (if s.pend.pendingLqaReportSet then lqaReport reports else []) = rep at *
  generalize (if s.pend.pendingMessage.isAmd && s.pend.pendingMessage.content != [] then
    encodeAmd s.pend.pendingMessage.content else []) = amd at *
  have hpart : Part (types (lqa ++ (rep ++ amd))) := by
    rw [types_append, types_append]
    exact hp1.append (hp2.append hp3)
  have hmsg : (fits (types (lqa ++ (rep ++ amd))) = true ↔ s.MessageFits reports) := by
    rw [types_append, types_append, fits_append (hp2.append hp3).opens, fits_append hp3.opens, hf1,
      Bool.true_and, Bool.and_eq_true, hf2, hf3]
    exact and_comm
  have hfrm : (if s.pend.pendingMessage.isAmd && s.pend.pendingMessage.content != [] then
      fromId s.selfAddress else []) = [] ∨
      (if s.pend.pendingMessage.isAmd && s.pend.pendingMessage.content != [] then
        fromId s.selfAddress else []) = fromId s.selfAddress ∧ lqa ++ (rep ++ amd) ≠ [] := by
    split
    · rename_i h
      refine Or.inr ⟨rfl, fun hn => hamd h ?_⟩
      rw [(List.append_eq_nil_iff.mp (List.append_eq_nil_iff.mp hn).2).2]
      rfl
    · exact Or.inl rfl
  unfold conclusion
  rw [accepts_frame hself (by simp) hscan hscanning hlead hfrm hpart (fun _ => hne) h5 hw,
    Bool.and_eq_true, hmsg]

/-- `TO` words twice, a message and the conclusion. -/
theorem accepts_addressed {peer self : Str} {t : PreambleType} {msg : List ALEWord}
    (hpeer : Basic38 peer) (hself : Basic38 self) (ht : t = .tis ∨ t = .twas)
    (hmsg : Part (types msg)) :
    accepts [] (leadingCall peer ++ msg ++ encode self t) = fits (types msg) := by
  obtain ⟨hlead, hfits, hne⟩ := lead_leadingCall hpeer
  have h := @accepts_frame self t [] (leadingCall peer) [] msg [] hself ht (Or.inl ⟨0, rfl⟩)
    (Or.inl rfl) hlead (Or.inl rfl) hmsg (fun _ => hne) [] (Nat.zero_le 5) (by simp)
  rw [List.nil_append, List.append_nil, hfits, Bool.true_and] at h
  exact h

theorem accepts_addressedThenConclusion {peer self : Str} {t : PreambleType}
    (hpeer : Basic38 peer) (hself : Basic38 self) (ht : t = .tis ∨ t = .twas) :
    accepts [] (addressedThenConclusion peer .to self t) = true := by
  have h := @accepts_addressed peer self t [] hpeer hself ht part_nil
  rw [List.append_nil] at h
  exact h

theorem accepts_conclusion {self : Str} {t : PreambleType} (hself : Basic38 self)
    (ht : t = .tis ∨ t = .twas) : accepts [] (encode self t) = true :=
  @accepts_frame self t [] [] [] [] [] hself ht (Or.inl ⟨0, rfl⟩) (Or.inl rfl) (Or.inl rfl)
    (Or.inl rfl) part_nil (fun h => absurd rfl h) [] (Nat.zero_le 5) (by simp)

/-- The message stands between the leading call and the conclusion of the response. -/
theorem insertBeforeConclusion_response {caller self : Str} (hcaller : Basic38 caller)
    (hself : Basic38 self) (msg : List ALEWord) :
    insertBeforeConclusion (response caller self false) msg =
      leadingCall caller ++ msg ++ encode self .tis := by
  have hbody : ∀ w ∈ leadingCall caller, (w.type != .tis && w.type != .twas) = true := by
    intro w hw
    have hm : w.type ∈ types (leadingCall caller) := List.mem_map_of_mem hw
    rcases (lead_leadingCall hcaller).1 with hl | ⟨es, hl, hes⟩ <;> rw [hl] at hm
    · exact absurd hm List.not_mem_nil
    · generalize w.type = t at hm
      rcases List.mem_cons.mp hm with rfl | hm
      · rfl
      · rcases hes t hm with rfl | ht
        · rfl
        · cases t <;> first | rfl | exact absurd ht (by decide)
  have htis : (encodeFirst self .tis).type = .tis := type_encodeFirst hself (by simp)
  have htake : (response caller self false).takeWhile (fun w => w.type != .tis && w.type != .twas) =
      leadingCall caller := by
    show (leadingCall caller ++ encode self .tis).takeWhile _ = _
    rw [List.takeWhile_append_of_pos hbody, encode_cons, List.takeWhile_cons_of_neg (by simp [htis]),
      List.append_nil]
  unfold insertBeforeConclusion
  dsimp only
  rw [htake]
  show _ ++ (leadingCall caller ++ encode self .tis).drop _ = _
  rw [List.drop_left]

theorem accepts_responseWords (hself : Basic38 s.selfAddress) (hcaller : Basic38 s.hs.callerAddress)
    (hr : s.pend.pendingLqaReportSeq = lqaReport reports) :
    accepts [] s.responseWords = true ↔ s.Conforms reports .response := by
  obtain ⟨hp1, hf1⟩ := part_lqaCmd s.pend.pendingLqaCmdSet s.pend.pendingLqaCmdRaw
  obtain ⟨hp2, hf2⟩ := part_lqaReport s.pend.pendingLqaReportSet reports
  unfold responseWords Conforms
  dsimp only
  rw [hr]
  generalize (if s.pend.pendingLqaCmdSet then lqaCmd s.pend.pendingLqaCmdRaw else []) = lqa at *
  generalize (if s.pend.pendingLqaReportSet then lqaReport reports else []) = rep at *
  cases hrej : s.hs.pendingReject with
  | true =>
    rw [if_pos (Or.inl rfl)]
    exact iff_of_true (accepts_conclusion hself (Or.inr rfl)) (Or.inl rfl)
  | false =>
    simp only [Bool.false_eq_true, false_or]
    rw [← hf2]
    split
    · rename_i hn
      rw [hn.2]
      exact iff_of_true (accepts_addressedThenConclusion hcaller hself (Or.inl rfl)) rfl
    · rw [insertBeforeConclusion_response hcaller hself,
        accepts_addressed hcaller hself (Or.inl rfl) (by rw [types_append]; exact hp1.append hp2),
        types_append, fits_append hp2.opens, hf1, Bool.true_and]

theorem no_thru_scanningCall {a : Str} (h : Basic38 a) (n : UInt32) :
    ∀ w ∈ scanningCall a n, w.type = .thru → w.address ∈ ([] : List Str) := by
  intro w hw hth
  have hm : w.type ∈ types (scanningCall a n) := List.mem_map_of_mem hw
  rw [types_scanningCall h, hth] at hm
  exact absurd (List.eq_of_mem_replicate hm) (by simp)

theorem accepts_allcallWords {self text : Str} (hself : Basic38 self) (hne : text ≠ [])
    (linkAfterSend : Bool) : accepts [] (s.allcallWords self text linkAfterSend) = true ↔
      text.length ≤ 18 := by
  have hglobal : Basic38 globalAllCallAddr := by decide
  obtain ⟨hlead, hfits, hl⟩ := lead_leadingCall hglobal
  obtain ⟨ts, ht, hext, hf⟩ := types_encodeAmd hne
  have hmsg : encodeAmd text ≠ [] := by
    intro h
    rw [h] at ht
    exact absurd ht (by simp [types])
  have hpart : Part (types (encodeAmd text)) := by
    rw [ht]
    exact part_cmd hext
  have h5 : ([] : List Str).length ≤ 5 := Nat.zero_le 5
  unfold allcallWords conclusion
  rw [accepts_frame hself (by cases linkAfterSend <;> simp) (Or.inl ⟨_, types_scanningCall hglobal _⟩)
    (Or.inr rfl) hlead (Or.inr ⟨rfl, hmsg⟩) hpart (fun _ => hl) h5
      (no_thru_scanningCall hglobal _), hfits, Bool.true_and, ht, hf]

end Accepts

/-- **The validator rejects a frame of the station exactly for these groups, texts and reports.** -/
theorem accepts_iff {s : SM} {k : FrameKind} {ws : List ALEWord} {reports : List LQAReport}
    (h : s.Emits k ws) (hself : Basic38 s.selfAddress) (haddr : ∀ a ∈ s.addresses k, Basic38 a)
    (hr : s.pend.pendingLqaReportSeq = lqaReport reports) :
    accepts (s.groupScanning k) ws = true ↔ s.Conforms reports k := by
  obtain ⟨hne, t, rfl⟩ := emits_words h
  rw [accepts_stamp]
  cases k with
  | call target =>
    have ht : Basic38 target := haddr target (List.mem_singleton_self target)
    obtain ⟨hlead, hfits, hl⟩ := lead_leadingCall ht
    have h5 : ([] : List Str).length ≤ 5 := Nat.zero_le 5
    refine (accepts_callWords hself hr (Or.inl ⟨_, types_scanningCall ht _⟩) (Or.inr rfl) hlead hl
      h5 (no_thru_scanningCall ht _)).trans ⟨fun h => h.2, fun h => ⟨hfits, h⟩⟩
  | group members =>
    obtain ⟨hlead, hfits, hl⟩ := lead_leadingCallGroup haddr (emits_group h)
    obtain ⟨targets, h5, hthru⟩ := targets_scanningCallGroup haddr s.targetScanChannels
    refine (accepts_callWords hself hr (types_scanningCallGroup haddr _) (Or.inl rfl) hlead hl h5
      hthru).trans ?_
    exact and_congr hfits Iff.rfl
  | allcall self text l =>
    exact accepts_allcallWords (haddr _ (List.mem_singleton_self _)) (emits_allcall h) l
  | response => exact accepts_responseWords hself (haddr _ (List.mem_singleton_self _)) hr
  | ack =>
    refine iff_of_true (accepts_addressedThenConclusion ?_ hself ?_) trivial
    · exact haddr _ (List.mem_singleton_self _)
    · cases s.noLink <;> simp
  | termination =>
    refine iff_of_true ?_ trivial
    show accepts [] (OpenALE.termination s.link.activeCallTo s.selfAddress) = true
    unfold OpenALE.termination
    split
    · exact accepts_conclusion hself (Or.inr rfl)
    · exact accepts_addressedThenConclusion (haddr _ (List.mem_singleton_self _)) hself (Or.inr rfl)

/-- A station with a callsign. -/
def station : SM := Machine.run step init [.set (.selfAddress ['S', 'A', 'M'])]

/-- The station has listened before its call to `members` and is tuning. -/
def tuned (members : List Str) : SM :=
  (station.step (.initiateGroupCall members)).step (.update 784 {})

/-- A calling frame after one operation. -/
theorem Emits.calling_singleton {s : SM} {k : FrameKind} {req op : Op} {now : UInt32} {env : Env}
    (hk : k.request = some req) (ha : s.available = true)
    (h0 : (s.step req).currentState = .calling)
    (h1 : ((s.step req).step op).currentState = .calling)
    (hp : ((s.step req).step op).calling.callingPhase = .tuning)
    (hw : ((s.step req).step op).sent (.update now env) ≠ []) :
    s.Emits k (((s.step req).step op).sent (.update now env)) := by
  have hrun : Machine.run step (s.step req) [op] = (s.step req).step op := Machine.run_cons
  rw [← hrun] at hp hw ⊢
  exact Emits.calling hk ha (Machine.allStates_singleton h0 h1) hp hw

theorem accepts_iff_pair :
    accepts (scanningCallGroup [['A', 'B', 'C'], ['D', 'E', 'F', 'G']] 1)
        ((tuned [['A', 'B', 'C'], ['D', 'E', 'F', 'G']]).sent (.update 1829 {})) = true ↔
      GroupFits [['A', 'B', 'C'], ['D', 'E', 'F', 'G']] ∧ station.MessageFits [] := by
  have hemits : station.Emits (.group [['A', 'B', 'C'], ['D', 'E', 'F', 'G']])
      ((tuned [['A', 'B', 'C'], ['D', 'E', 'F', 'G']]).sent (.update 1829 {})) :=
    Emits.calling_singleton rfl (by decide +kernel) (by decide +kernel) (by decide +kernel)
      (by decide +kernel) (by decide +kernel)
  have hr : station.pend.pendingLqaReportSeq = lqaReport [] := by decide +kernel
  exact accepts_iff hemits (by decide +kernel) (by decide +kernel) hr

/-- **Three members of one word each: `REP` stands behind `REP`.** -/
theorem accepts_fail : ¬ ∀ (as : List Op) (k : FrameKind) (ws : List ALEWord),
    (Machine.run step init as).Emits k ws → Basic38 (Machine.run step init as).selfAddress →
    (∀ a ∈ (Machine.run step init as).addresses k, Basic38 a ∧ a.length ≤ 15) →
    accepts ((Machine.run step init as).groupScanning k) ws = true := by
  intro h
  have hemits : station.Emits (.group [['A', 'B', 'C'], ['D', 'E', 'F'], ['G', 'H', 'I']])
      ((tuned [['A', 'B', 'C'], ['D', 'E', 'F'], ['G', 'H', 'I']]).sent (.update 1829 {})) :=
    Emits.calling_singleton rfl (by decide +kernel) (by decide +kernel) (by decide +kernel)
      (by decide +kernel) (by decide +kernel)
  have haddr : ∀ a ∈ station.addresses (.group [['A', 'B', 'C'], ['D', 'E', 'F'],
      ['G', 'H', 'I']]), Basic38 a ∧ a.length ≤ 15 := by decide +kernel
  exact absurd (h _ _ _ hemits (by decide +kernel) haddr) (by decide +kernel)

end SM

end OpenALE
