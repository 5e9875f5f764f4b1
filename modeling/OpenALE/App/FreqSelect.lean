import OpenALE.App.Amd
import OpenALE.App.Controller

/-!
# `FreqSelectManager`: moving a link to a better channel

Model of `src/App/freq_select_manager.cpp` and of the three places that drive it in
`src/App/ale_controller.cpp`: `tick_relink`, `evaluate_relink` and `rx_handle_freq_select`.

* `EfsStation` is the controller with the manager beside it. The callbacks of the state machine pile
  up in its `out`.
* The ranking of `rank_channels_for_station` is an argument, best channel first, and so is
  `rx_ber_settle_ms_`.
* `tick_relink` calls `tick_amd_confirm` in its midst; `negotiate` is what it does before, `callAgain`
  what it does after.
* Left out: status texts.

Results:
* `leftover_exec`: outside a link a proposal waits for its timeout and nothing else.
* `executing_exec`: `EXECUTING` is entered by an accepted proposal only, and never left.
-/

namespace OpenALE

/-- `ChannelRank`. -/
structure ChannelRank where
  frequencyHz : Nat
  score : Float32
  deriving Repr, DecidableEq

/-- The score of the first entry for `freqHz`, or none at all. -/
def scoreOf (ranked : List ChannelRank) (freqHz : Nat) : Float32 :=
  ((ranked.find? (·.frequencyHz == freqHz)).map (·.score)).getD 0.0

/-- `Phase`. -/
inductive FreqSelectPhase where
  | idle
  | proposed
  | executing
  deriving Repr, DecidableEq

/-- `FreqSelectManager`. -/
structure FreqSelectManager where
  phase : FreqSelectPhase := .idle
  proposedHz : Nat := 0
  timeoutMs : UInt32 := 0
  cooldownMs : UInt32 := 0
  peer : Str := []
  pendingCmdRx : Bool := false
  deriving Repr, DecidableEq

namespace FreqSelectManager

/-- `FreqSelectManager::tick`. -/
def tick (m : FreqSelectManager) (now : UInt32) : FreqSelectManager :=
  if m.phase = .proposed ∧ m.timeoutMs < now then { m with phase := .idle } else m

/-- `evaluate`'s entries for the proposal of `freqHz` to `peer`. -/
def propose (m : FreqSelectManager) (now : UInt32) (peer : Str) (freqHz : Nat) :
    FreqSelectManager :=
  { m with peer := peer, proposedHz := freqHz, phase := .proposed, timeoutMs := now + 3000 }

end FreqSelectManager

/-- A word that opens a frequency-select sequence. -/
def ALEWord.opensFreqSelect (w : ALEWord) : Bool := w.type == .cmd && cmdCharCode w == 0x66

namespace Controller

/-- `matches_self`. -/
def matchesSelf (c : Controller) (address : Str) : Bool :=
  c.selfAddresses.any (·.address == address)

/-- The better channel that `evaluate` and `evaluate_relink` find for the link's peer. -/
def betterChannel (c : Controller) (berSettleMs : UInt32) (ranked : List ChannelRank) :
    Option Nat :=
  if berSettleMs = 0 ∨ c.nowMs - berSettleMs < tdrwMs * 4 then none
  else if c.sm.rxBerStation = [] ∨ c.matchesSelf c.sm.rxBerStation then none
  else match c.sm.channelManager.current, ranked with
    | some ch, best :: _ =>
      if ch.rxFrequencyHz = 0 then none
      else if best.frequencyHz ≠ ch.rxFrequencyHz ∧
          best.score > scoreOf ranked ch.rxFrequencyHz + c.config.relinkImprovementThreshold then
        some best.frequencyHz
      else none
    | _, _ => none

/-- `evaluate_relink`. -/
def evaluateRelink (c : Controller) (berSettleMs : UInt32) (ranked : List ChannelRank) :
    Controller :=
  match c.betterChannel berSettleMs ranked with
  | none => c
  | some _ => { c with pendingRelinkAddr := c.sm.rxBerStation, sm := c.sm.terminateLink }

/-- `FreqSelectManager::send_orderwire`. -/
def sendFreqSelect (c : Controller) (freqHz : Nat) : Controller :=
  { c with sm := c.sm.triggerLinkedOrderwire (buildFreqSelectSequence freqHz) true }

end Controller

/-- `ALEController` with its `FreqSelectManager`. -/
structure EfsStation where
  ctl : Controller := {}
  efs : FreqSelectManager := {}

namespace EfsStation

/-! ## Proposing -/

/-- What `FreqSelectManager::evaluate` wants to propose. -/
def wants (s : EfsStation) (berSettleMs : UInt32) (ranked : List ChannelRank) : Option Nat :=
  if 0 < s.efs.cooldownMs ∧ s.ctl.nowMs < s.efs.cooldownMs then none
  else s.ctl.betterChannel berSettleMs ranked

/-- `FreqSelectManager::evaluate`. -/
def evaluate (s : EfsStation) (berSettleMs : UInt32) (ranked : List ChannelRank) : EfsStation :=
  match s.wants berSettleMs ranked with
  | none => s
  | some freqHz =>
    { efs := s.efs.propose s.ctl.nowMs s.ctl.sm.rxBerStation freqHz
      ctl := s.ctl.sendFreqSelect freqHz }

/-- The gate of `tick_relink`. -/
def Renegotiates (s : EfsStation) : Prop :=
  (s.ctl.config.relinkEnabled = true ∨ s.ctl.config.enhancedFreqSelect = true) ∧
    s.ctl.lqaEnabled = true ∧ s.ctl.sm.currentState = .linked ∧ s.ctl.pendingRelinkAddr = [] ∧
    s.efs.phase = .idle

instance (s : EfsStation) : Decidable s.Renegotiates := by unfold Renegotiates; infer_instance

/-- `tick_relink` up to `tick_amd_confirm`. -/
def negotiate (s : EfsStation) (berSettleMs : UInt32) (ranked : List ChannelRank) : EfsStation :=
  let s :=
    if s.Renegotiates then
      if s.ctl.config.enhancedFreqSelect then s.evaluate berSettleMs ranked
      else { s with ctl := s.ctl.evaluateRelink berSettleMs ranked }
    else s
  { s with efs := s.efs.tick s.ctl.nowMs }

/-- `tick_relink` after `tick_amd_confirm`: once the link is over, call the peer again. -/
def callAgain (s : EfsStation) (o : Outlook) : EfsStation :=
  if s.ctl.pendingRelinkAddr ≠ [] ∧ s.ctl.sm.available then
    { s with ctl := ({ s.ctl with pendingRelinkAddr := [] }.initiateCall o
        s.ctl.pendingRelinkAddr).1 }
  else s

/-! ## Listening -/

/-- `FreqSelectManager::handle_response`. -/
def handleResponse (s : EfsStation) (freqHz : Nat) : EfsStation :=
  if s.efs.phase ≠ .proposed then s
  else if 0 < freqHz ∧ freqHz = s.efs.proposedHz then
    { efs := { s.efs with phase := .executing }
      ctl := { s.ctl with
        pendingRelinkAddr := s.efs.peer, sm := s.ctl.sm.terminateLink } }
  else if freqHz = 0 then
    { s with efs := { s.efs with phase := .idle, cooldownMs := s.ctl.nowMs + 60000 } }
  else s

/-- `FreqSelectManager::handle_proposal`. -/
def handleProposal (s : EfsStation) (freqHz : Nat) (peer : Str) (ranked : List ChannelRank) :
    EfsStation :=
  match s.ctl.sm.channelManager.current with
  | none => s
  | some ch =>
    if freqHz = 0 ∨ ch.rxFrequencyHz = 0 ∨ peer = [] then s
    -- Both stations proposed: the lower address gives way.
    else if s.efs.phase = .proposed ∧ ¬ s.ctl.primarySelfAddress < s.efs.peer then s
    else
      let s := if s.efs.phase = .proposed then
        { s with efs := { s.efs with phase := .idle, proposedHz := 0 } } else s
      -- This loop has no `break`: the last entry of a frequency counts.
      if scoreOf ranked.reverse freqHz >
          scoreOf ranked.reverse ch.rxFrequencyHz + s.ctl.config.relinkImprovementThreshold then
        { s with ctl := s.ctl.sendFreqSelect freqHz }
      else { s with ctl := s.ctl.sendFreqSelect 0 }

/-- `FreqSelectManager::on_word`. -/
def onWord (s : EfsStation) (w : ALEWord) (ranked : List ChannelRank) : EfsStation :=
  if s.ctl.sm.currentState ≠ .linked then s
  else if w.opensFreqSelect then { s with efs := { s.efs with pendingCmdRx := true } }
  else if s.efs.pendingCmdRx then
    let s := { s with efs := { s.efs with pendingCmdRx := false } }
    if w.type = .data then
      let peer := s.ctl.sm.rxBerStation
      if s.efs.phase = .proposed then s.handleResponse (decodeFreqDataWord w.rawPayload)
      else if peer ≠ [] ∧ ¬ s.ctl.matchesSelf peer then
        s.handleProposal (decodeFreqDataWord w.rawPayload) peer ranked
      else s
    else s
  else s

/-- `rx_handle_freq_select`. -/
def rxHandleFreqSelect (s : EfsStation) (w : ALEWord) (ranked : List ChannelRank) : EfsStation :=
  if s.ctl.config.enhancedFreqSelect then s.onWord w ranked
  else { s with efs := { s.efs with pendingCmdRx := false } }

/-- `on_received_word`: the frequency selection hears the word before the state machine does. -/
def receive (s : EfsStation) (w : ALEWord) (ranked : List ChannelRank) : EfsStation :=
  let s := s.rxHandleFreqSelect w ranked
  { s with ctl := { s.ctl with sm := s.ctl.sm.processReceivedWord w } }

/-! ## Runs -/

/-- What drives a station: its state machine, edits of the controller's own data, the two halves of
`tick_relink` and a received word. -/
inductive Drive where
  | sm (op : Op)
  | edit (c : Controller)
  | negotiate (berSettleMs : UInt32) (ranked : List ChannelRank)
  | callAgain (o : Outlook)
  | receive (w : ALEWord) (ranked : List ChannelRank)

/-- One operation. -/
def exec (s : EfsStation) : Drive → EfsStation
  | .sm op => { s with ctl := { s.ctl with sm := s.ctl.sm.step op } }
  | .edit c =>
    { s with ctl := { c with sm := s.ctl.sm, pendingRelinkAddr := s.ctl.pendingRelinkAddr } }
  | .negotiate berSettleMs ranked => s.negotiate berSettleMs ranked
  | .callAgain o => s.callAgain o
  | .receive w ranked => s.receive w ranked

/-- The station is linked. -/
def Linked (s : EfsStation) : Prop := s.ctl.sm.currentState = .linked

instance (s : EfsStation) : Decidable s.Linked := by unfold Linked; infer_instance

/-- The peer's answer accepts the station's proposal. -/
def Agrees (s : EfsStation) : Drive → Prop
  | .receive w _ =>
    s.ctl.config.enhancedFreqSelect = true ∧ s.Linked ∧ w.type = .data ∧
      s.efs.pendingCmdRx = true ∧ s.efs.phase = .proposed ∧
      0 < decodeFreqDataWord w.rawPayload ∧ decodeFreqDataWord w.rawPayload = s.efs.proposedHz
  | _ => False

end EfsStation

/-- What a link that is over has left in the manager. -/
structure Leftover where
  /-- The deadline of the proposal nobody answered. -/
  openUntil : Option UInt32 := none
  /-- The command whose second word never came. -/
  half : Bool := false
  deriving Repr, DecidableEq

/-- What the manager would leave behind. -/
def FreqSelectManager.leftover (m : FreqSelectManager) : Leftover :=
  { openUntil := if m.phase = .proposed then some m.timeoutMs else none, half := m.pendingCmdRx }

namespace FreqSelectManager

variable {m : FreqSelectManager} {now : UInt32}

theorem tick_of_expired (hp : m.phase = .proposed) (ht : m.timeoutMs < now) :
    m.tick now = { m with phase := .idle } := by
  unfold tick
  rw [if_pos ⟨hp, ht⟩]

theorem tick_of_open (ht : ¬ m.timeoutMs < now) : m.tick now = m := by
  unfold tick
  rw [if_neg fun h => ht h.2]

theorem tick_of_ne (hp : m.phase ≠ .proposed) : m.tick now = m := by
  unfold tick
  rw [if_neg fun h => hp h.1]

theorem phase_tick (m : FreqSelectManager) (now : UInt32) :
    (m.tick now).phase = .executing ↔ m.phase = .executing := by
  by_cases hp : m.phase = .proposed
  · by_cases ht : m.timeoutMs < now
    · rw [tick_of_expired hp ht, hp]
      simp
    · rw [tick_of_open ht]
  · rw [tick_of_ne hp]

/-- A tick past its deadline clears the proposal. -/
theorem leftover_tick (m : FreqSelectManager) (now : UInt32) : (m.tick now).leftover =
    { openUntil := m.leftover.openUntil.filter (now ≤ ·), half := m.leftover.half } := by
  by_cases hp : m.phase = .proposed
  · by_cases ht : m.timeoutMs < now
    · rw [tick_of_expired hp ht]
      simp [leftover, hp, Option.filter, ht]
    · rw [tick_of_open ht]
      simp [leftover, hp, Option.filter, UInt32.not_lt.mp ht]
  · rw [tick_of_ne hp]
    simp [leftover, hp]

end FreqSelectManager

/-- What an operation outside a link clears: a tick past the deadline the proposal, a word heard
with the selection switched off the command. -/
def Leftover.clear (l : Leftover) (s : EfsStation) : EfsStation.Drive → Leftover
  | .negotiate _ _ => { l with openUntil := l.openUntil.filter (s.ctl.nowMs ≤ ·) }
  | .receive _ _ => { l with half := l.half && s.ctl.config.enhancedFreqSelect }
  | _ => l

namespace EfsStation

section Drive

variable {s : EfsStation}

theorem onWord_of_not_linked (h : ¬ s.Linked) (w : ALEWord) (ranked : List ChannelRank) :
    s.onWord w ranked = s := by
  have h' : s.ctl.sm.currentState ≠ .linked := h
  unfold onWord
  rw [if_pos h']

theorem negotiate_of_not_linked (h : ¬ s.Linked) (t : UInt32) (ranked : List ChannelRank) :
    s.negotiate t ranked = { s with efs := s.efs.tick s.ctl.nowMs } := by
  unfold negotiate
  rw [if_neg fun hr => h hr.2.2.1]

/-- **Outside a link a proposal waits for its timeout and nothing else.** -/
theorem leftover_exec (h : ¬ s.Linked) (d : Drive) :
    (s.exec d).efs.leftover = s.efs.leftover.clear s d := by
  cases d with
  | sm op => rfl
  | edit c => rfl
  | negotiate t ranked =>
    unfold exec
    dsimp only
    rw [negotiate_of_not_linked h]
    exact s.efs.leftover_tick s.ctl.nowMs
  | callAgain o =>
    unfold exec callAgain
    dsimp only
    split <;> rfl
  | receive w ranked =>
    unfold exec receive rxHandleFreqSelect Leftover.clear
    dsimp only
    rw [onWord_of_not_linked h]
    cases hc : s.ctl.config.enhancedFreqSelect with
    | true => simp [FreqSelectManager.leftover]
    | false => simp [FreqSelectManager.leftover]

/-- A proposal heard changes nothing in the manager of a station that has made none. -/
theorem handleProposal_efs (hp : s.efs.phase ≠ .proposed) (freqHz : Nat) (peer : Str)
    (ranked : List ChannelRank) : (s.handleProposal freqHz peer ranked).efs = s.efs := by
  unfold handleProposal
  cases s.ctl.sm.channelManager.current with
  | none => rfl
  | some ch =>
    dsimp only
    rw [if_neg hp]
    split_ifs with h1 h2
    · rfl
    · exact absurd h2.1 hp
    · rfl
    · rfl

theorem phase_handleResponse (hp : s.efs.phase = .proposed) (freqHz : Nat) :
    (s.handleResponse freqHz).efs.phase = .executing ↔
      0 < freqHz ∧ freqHz = s.efs.proposedHz := by
  unfold handleResponse
  rw [if_neg (not_not.mpr hp)]
  split
  · rename_i h
    exact iff_of_true rfl h
  · rename_i h
    split
    · exact iff_of_false (by simp) h
    · exact iff_of_false (by simp [hp]) h

/-- A word heard in a link makes the manager execute only when it accepts the proposal. -/
theorem onWord_executing (hl : s.Linked) (w : ALEWord) (ranked : List ChannelRank) :
    (s.onWord w ranked).efs.phase = .executing ↔ s.efs.phase = .executing ∨
      w.type = .data ∧ s.efs.pendingCmdRx = true ∧ s.efs.phase = .proposed ∧
        0 < decodeFreqDataWord w.rawPayload ∧
          decodeFreqDataWord w.rawPayload = s.efs.proposedHz := by
  have hl' : ¬ s.ctl.sm.currentState ≠ .linked := not_not.mpr hl
  unfold onWord
  rw [if_neg hl']
  by_cases ho : w.opensFreqSelect = true
  · have hd : w.type ≠ .data := by
      intro hd
      unfold ALEWord.opensFreqSelect at ho
      simp [hd] at ho
    rw [if_pos ho]
    simp [hd]
  · rw [if_neg ho]
    by_cases hpend : s.efs.pendingCmdRx = true
    · rw [if_pos hpend]
      dsimp only
      by_cases hd : w.type = .data
      · rw [if_pos hd]
        by_cases hp : s.efs.phase = .proposed
        · rw [if_pos hp, phase_handleResponse (by exact hp)]
          simp [hd, hpend, hp]
        · rw [if_neg hp]
          have hefs : ∀ x : EfsStation, x.efs.phase = s.efs.phase → (x.efs.phase = .executing ↔
              s.efs.phase = .executing ∨ w.type = .data ∧ s.efs.pendingCmdRx = true ∧
                s.efs.phase = .proposed ∧ 0 < decodeFreqDataWord w.rawPayload ∧
                  decodeFreqDataWord w.rawPayload = s.efs.proposedHz) := by
            intro x hx
            rw [hx]
            simp [hp]
          refine hefs _ ?_
          split
          · rw [handleProposal_efs (by exact hp)]
          · rfl
      · rw [if_neg hd]
        simp [hd]
    · rw [if_neg hpend]
      simp [hpend]

/-- **`EXECUTING` is entered by an accepted proposal only, and never left.** -/
theorem executing_exec (d : Drive) :
    (s.exec d).efs.phase = .executing ↔ s.efs.phase = .executing ∨ s.Agrees d := by
  cases d with
  | sm op => exact (or_iff_left id).symm
  | edit c => exact (or_iff_left id).symm
  | negotiate t ranked =>
    refine Iff.trans ?_ (or_iff_left id).symm
    unfold exec negotiate
    dsimp only
    rw [FreqSelectManager.phase_tick]
    split
    · rename_i hr
      have hidle : s.efs.phase ≠ .executing := by simp [hr.2.2.2.2]
      split
      · unfold evaluate
        split
        · rfl
        · exact iff_of_false (by simp [FreqSelectManager.propose]) hidle
      · rfl
    · rfl
  | callAgain o =>
    refine Iff.trans ?_ (or_iff_left id).symm
    unfold exec callAgain
    dsimp only
    split <;> rfl
  | receive w ranked =>
    unfold exec receive rxHandleFreqSelect Agrees
    dsimp only
    by_cases hc : s.ctl.config.enhancedFreqSelect = true
    · rw [if_pos hc]
      by_cases hl : s.Linked
      · rw [onWord_executing hl]
        simp [hc, hl]
      · rw [onWord_of_not_linked hl]
        simp [hl]
    · rw [if_neg hc]
      simp [hc]

end Drive

end EfsStation

end OpenALE
