import OpenALE.Control.Linked
import OpenALE.Properties.Returns

/-!
# The peer of a link

The station of a link is named in three places: `active_call_to`, `active_peer` and the station
`commit_rx_ber_sample` files under. They are meant to agree on the station the handshake was run
with.

Results:
* `peer_iff`: they do on every link of a run, from its first state to its last, exactly when no
  handshake completes over an address or a group flag that an earlier call left behind.
* `peer_fail`: a station that was called and then calls binds its link to the earlier caller.
-/

namespace OpenALE

/-- On the diagram a link comes up by a completed handshake, or by the end of a sounding that was
re-entered from a link. -/
theorem Control.fire_linked_iff {c : Control} {sweep : Bool} {g : Trigger} (h : c.Outside)
    (hn : c.state ≠ .linked) : (c.fire sweep g).state = .linked ↔
      ((c.state = .calling ∨ c.state = .handshake) ∧ g = .event .handshakeComplete) ∨
        (c.state = .sounding ∧ c.previous = .linked ∧ g = .event .soundingComplete ∧
          sweep = false) := by
  obtain ⟨state, previous, preLink⟩ := c
  have hpre : preLink ≠ .linked := by
    rcases h.preLink with h | h | h <;> (dsimp only at h; rw [h]; decide)
  dsimp only at hn ⊢
  cases g with
  | none => simp [Control.fire, hn]
  | emergency => simp [Control.fire]
  | event e =>
    cases state <;> cases e <;> cases sweep <;> simp [Control.fire, Control.event, hpre] at hn ⊢

namespace SM

/-! ## On the link -/

/-- The users of the link all take `p` for its peer. -/
structure PeerIs (s : SM) (p : Str) : Prop where
  callTo : s.link.activeCallTo = p
  amd : s.activePeer = p
  ber : s.rxBerStation = p

/-- The peer of a link never changes. -/
theorem peers_run {s : SM} (ho : s.control.Outside) : ∀ {as : List Op}, s.Stays as →
    (Machine.run step s as).peers = s.peers := by
  intro as
  induction as generalizing s with
  | nil => exact fun _ => rfl
  | cons op as ih =>
    intro hs
    have hm : s.clearOut.Moves op (s.step op).linkView :=
      exec_moves (s := s.clearOut) hs.1 (preLink_ne_linked ho) op hs.2.head
    have hp : (s.step op).peers = s.peers := hm.peers
    rw [Machine.run_cons, ih (outside_step ho op) hs.2, hp]

theorem peerIs_iff {s : SM} (hc : s.currentState = .linked) (p : Str) :
    s.PeerIs p ↔ s.peers.activeCallTo = p ∧
      (if s.peers.toAddress ≠ [] then s.peers.toAddress else s.peers.callerAddress) = p := by
  have ha : s.activePeer = s.rxBerStation := by
    unfold activePeer rxBerStation
    rw [if_neg (not_not.mpr hc)]
  constructor
  · intro h
    exact ⟨h.callTo, h.ber⟩
  · rintro ⟨h1, h2⟩
    exact ⟨h1, ha.trans h2, h2⟩

/-! ## The entry -/

/-- A completed handshake binds the peer. -/
theorem handshakeComplete_peers {q : SM}
    (hc : q.currentState = .calling ∨ q.currentState = .handshake) :
    (q.processEvent .handshakeComplete).1.peers =
      { q.peers with activeCallTo := q.bindPeer } := by
  have hn : q.currentState ≠ .linked := by rcases hc with h | h <;> rw [h] <;> decide
  have he : (q.processEvent .handshakeComplete).1 = (q.transitionTo .linked).1 := by
    unfold processEvent
    rcases hc with h | h <;> rw [h]
  have hl : (q.leaveFor .linked).link = q.link := by
    unfold leaveFor exitState
    rcases hc with h | h <;> rw [h]
  have hcal : (q.leaveFor .linked).calling = q.calling := by
    unfold leaveFor exitState
    rcases hc with h | h <;> rw [h]
  have hhs : (q.leaveFor .linked).hs = q.hs := by
    unfold leaveFor exitState
    rcases hc with h | h <;> rw [h]
  rw [he, transitionTo_of_ne hn]
  generalize q.leaveFor .linked = u at hl hcal hhs
  show Peers.mk u.clearBurst.bindPeer u.calling.toAddress u.hs.callerAddress =
    Peers.mk q.bindPeer q.calling.toAddress q.hs.callerAddress
  have hb : u.clearBurst.bindPeer = q.bindPeer := by
    unfold bindPeer
    show (if ¬ u.calling.activeCallIsGroup ∧ u.hs.callerAddress ≠ [] then u.hs.callerAddress
      else if u.calling.activeCallIsGroup ∧ u.calling.toAddress ≠ [] then u.calling.toAddress
      else u.link.activeCallTo) = _
    rw [hl, hcal, hhs]
  rw [hb, hcal, hhs]

/-- `active_call_to` as a handshake completes: the clock ends a silent AllCall handshake with the
caller bound. -/
def callTo (s : SM) (op : Op) : Str :=
  if s.currentState = .handshake ∧ s.hs.handshakePhase = .waitCycleEnd ∧ isUpdate op = true then
    s.hs.callerAddress
  else s.link.activeCallTo

/-- `q` is `s` as far as the binding of the peer reads it, with `active_call_to` at `a`. -/
structure BindsLike (s q : SM) (a : Str) : Prop where
  state : q.currentState = s.currentState
  group : q.calling.activeCallIsGroup = s.calling.activeCallIsGroup
  toAddress : q.calling.toAddress = s.calling.toAddress
  callerAddress : q.hs.callerAddress = s.hs.callerAddress
  callTo : q.link.activeCallTo = a

theorem handleWaitCycleEnd_completes {s : SM}
    (h : s.waitCycleEndTrigger = .event .handshakeComplete) :
    ∃ q, s.handleWaitCycleEnd = (q.processEvent .handshakeComplete).1 ∧
      s.BindsLike q s.hs.callerAddress := by
  unfold waitCycleEndTrigger at h
  unfold handleWaitCycleEnd
  split at h
  · exact absurd h (event_ne (by decide))
  · rw [if_neg (by assumption)]
    split at h
    · exact absurd h (event_ne (by decide))
    · rw [if_neg (by assumption)]
      split at h
      · rw [if_pos (by assumption)]
        split at h
        · exact absurd h (event_ne (by decide))
        · rw [if_neg (by assumption)]
          by_cases ha : s.hs.allcallSilent = true
          · rw [if_pos ha]
            exact ⟨_, rfl, rfl, rfl, rfl, rfl, rfl⟩
          · rw [raiseIf_neg ha] at h
            exact absurd h (none_ne _)
      · exact absurd h (none_ne _)

theorem handleWaitAck_completes {s : SM} (h : s.waitAckTrigger = .event .handshakeComplete) :
    ∃ q, s.handleWaitAck = (q.processEvent .handshakeComplete).1 ∧
      s.BindsLike q s.link.activeCallTo := by
  unfold waitAckTrigger at h
  unfold handleWaitAck
  split at h
  · exact absurd h (event_ne (by decide))
  · rw [if_neg (by assumption)]
    split at h
    · exact absurd h (event_ne (by decide))
    · rw [if_neg (by assumption)]
      unfold raiseIf at h
      split at h
      · rw [if_pos (by assumption)]
        exact ⟨_, rfl, rfl, rfl, rfl, rfl, rfl⟩
      · exact absurd h (none_ne _)

theorem tick_completes {s : SM} {env : Env}
    (h : s.tickTrigger env = .event .handshakeComplete) :
    ∃ q, s.tick env = (q.processEvent .handshakeComplete).1 ∧
      s.BindsLike q (s.callTo (.update 0 env)) := by
  unfold tickTrigger at h
  unfold tick
  split at h
  · exact absurd h (event_ne (by decide))
  · rw [if_neg (by assumption)]
    split at h
    · exact absurd h (none_ne _)
    · rw [if_neg (by assumption)]
      unfold handleTrigger at h
      unfold handle callTo
      cases hc : s.currentState <;> rw [hc] at h <;> dsimp only at h ⊢
      case calling => exact absurd h (callingTrigger_ne s env (by decide))
      case linked => exact absurd h (linkedTrigger_ne s (by decide) (by decide))
      case sounding => exact absurd h (soundingTrigger_ne s env (by decide))
      case handshake =>
        unfold handshakeTrigger at h
        unfold handleHandshake
        cases hp : s.hs.handshakePhase <;> rw [hp] at h <;> dsimp only at h ⊢
        case waitCycleEnd =>
          rw [if_pos ⟨rfl, rfl, rfl⟩]
          exact handleWaitCycleEnd_completes h
        case waitAck =>
          rw [if_neg (by simp)]
          exact handleWaitAck_completes h
        case channelCheck => exact absurd h (raiseIf_ne (by decide))
        case sendingResponse => exact absurd h (raiseIf_ne (by decide))
        all_goals exact absurd h (none_ne _)
      all_goals exact absurd h (none_ne _)

theorem onWordComplete_completes {s : SM}
    (h : s.completeTrigger = .event .handshakeComplete) :
    ∃ q, s.onWordComplete = (q.processEvent .handshakeComplete).1 ∧
      s.BindsLike q s.link.activeCallTo := by
  unfold completeTrigger at h
  unfold onWordComplete
  split at h
  · exact absurd h (raiseIf_ne (by decide))
  rw [if_neg (by assumption)]
  split at h
  · exact absurd h (none_ne _)
  rw [if_neg (by assumption)]
  split at h
  · exact absurd h (none_ne _)
  rw [if_neg (by assumption)]
  split at h
  · exact absurd h (none_ne _)
  rw [if_neg (by assumption)]
  split at h
  · rw [if_pos (by assumption)]
    split at h
    · rename_i hw
      have hn : s.noLink = false := by
        cases hn : s.noLink with
        | false => rfl
        | true =>
          rw [hn] at h
          exact absurd h (event_ne (by decide))
      unfold completeCalling
      rw [if_neg (by omega)]
      unfold completeCallingPhase
      rw [show s.popWord.countCycle.calling.callingPhase = .sendingAck from hw.2]
      dsimp only
      unfold completeAck
      rw [if_pos (by show s.tx.wordsPending - 1 = 0; omega),
        if_neg (by rw [show s.popWord.countCycle.noLink = s.noLink from rfl, hn]; decide)]
      exact ⟨_, rfl, rfl, rfl, rfl, rfl, rfl⟩
    · exact absurd h (none_ne _)
  · exact absurd h (raiseIf_ne (by decide))

/-- An operation that completes a handshake does so on a machine that binds like `s`. -/
theorem exec_completes {s : SM} {op : Op} (h : s.trigger op = .event .handshakeComplete) :
    ∃ q, s.exec op = (q.processEvent .handshakeComplete).1 ∧ s.BindsLike q (s.callTo op) := by
  have stays : ∀ {op : Op}, isUpdate op = false → s.callTo op = s.link.activeCallTo := by
    intro op ho
    unfold callTo
    rw [if_neg (by rw [ho]; simp)]
  cases op with
  | processEvent e =>
    obtain rfl : e = .handshakeComplete := Trigger.event.inj h
    rw [stays rfl]
    exact ⟨s, rfl, rfl, rfl, rfl, rfl, rfl⟩
  | update now env =>
    unfold trigger at h
    dsimp only at h
    show ∃ q, s.update now env = _ ∧ _
    unfold update
    split at h
    · exact absurd h (none_ne _)
    · rw [if_neg (by assumption)]
      obtain ⟨q, hq, hb⟩ := tick_completes h
      exact ⟨q, hq, hb.state, hb.group, hb.toAddress, hb.callerAddress, hb.callTo⟩
  | processReceivedWord w =>
    exfalso
    unfold trigger at h
    dsimp only at h
    split at h
    · unfold invalidTrigger at h
      repeat' split at h
      all_goals
        first
          | exact absurd h (raiseIf_ne (by decide))
          | exact absurd h (event_ne (by decide))
          | exact absurd h (none_ne _)
    · unfold reactTrigger at h
      repeat' split at h
      all_goals
        first
          | exact absurd h (raiseIf_ne (by decide))
          | exact absurd h (event_ne (by decide))
          | exact absurd h (none_ne _)
          | (rw [detectTrigger_eq] at h
             split at h
             · exact absurd h (event_ne (by decide))
             · exact absurd h (none_ne _))
  | onWordComplete =>
    rw [stays rfl]
    exact onWordComplete_completes h
  | respondToCall =>
    rw [stays rfl]
    show ∃ q, s.respondToCall.1 = _ ∧ _
    unfold trigger raiseIf at h
    dsimp only at h
    split at h
    · rename_i hw
      unfold respondToCall
      rw [if_neg (not_not.mpr hw.1), if_neg (not_not.mpr hw.2.1), if_neg hw.2.2]
      exact ⟨s, rfl, rfl, rfl, rfl, rfl, rfl⟩
    · exact absurd h (none_ne _)
  | initiateCall _ | initiateNetCall _ | initiateGroupCall _ | sendSounding
  | sendSoundingSweep _ => exact absurd h (raiseIf_ne (by decide))
  | _ => exact absurd h (by simp [trigger])

/-! ## Which peer the entry binds -/

/-- The station the handshake that `s` is in is run with: the one that answered the call, or the
caller. -/
def handshakePeer (s : SM) : Str :=
  if s.currentState = .calling then s.calling.toAddress else s.hs.callerAddress

/-- **Binding.** A link comes up by a completed call or handshake, and from its first state to its
last its users take the station of that handshake for its peer. -/
def BindsPeer (s : SM) (op : Op) : Prop :=
  s.Enters op → (s.currentState = .calling ∨ s.currentState = .handshake) ∧
    ∀ as : List Op, (s.step op).Stays as →
      (Machine.run step (s.step op) as).PeerIs s.handshakePeer

/-- The station called: the addresses an earlier call may have left behind do not win over the
station that answered. -/
def CalledBinds (s : SM) : Prop :=
  if s.calling.toAddress = [] then s.hs.callerAddress = [] ∧ s.link.activeCallTo = []
  else s.calling.activeCallIsGroup = true ∨ s.hs.callerAddress = s.calling.toAddress ∨
    (s.hs.callerAddress = [] ∧ s.link.activeCallTo = s.calling.toAddress)

/-- The station was called: no answer to an earlier call of its own is left behind, and where an
earlier group call left its flag the caller is bound otherwise. -/
def CallerBinds (s : SM) (op : Op) : Prop :=
  (s.calling.toAddress = [] ∨ s.calling.toAddress = s.hs.callerAddress) ∧
    if s.calling.activeCallIsGroup = true then
      s.calling.toAddress = [] → s.callTo op = s.hs.callerAddress
    else s.hs.callerAddress = [] → s.callTo op = []

/-- No handshake completes over what an earlier call left behind, and no sounding that was
re-entered from a link ends. -/
def NothingLeftOver (s : SM) (op : Op) : Prop :=
  match s.currentState with
  | .calling => s.trigger op = .event .handshakeComplete → s.CalledBinds
  | .handshake => s.trigger op = .event .handshakeComplete → s.CallerBinds op
  | .sounding =>
    ¬ (s.previousState = .linked ∧ s.trigger op = .event .soundingComplete ∧ s.moreSweep = false)
  | _ => True

theorem bindPeer_of_bindsLike {s q : SM} {a : Str} (h : s.BindsLike q a) :
    q.bindPeer = if ¬ s.calling.activeCallIsGroup ∧ s.hs.callerAddress ≠ [] then s.hs.callerAddress
      else if s.calling.activeCallIsGroup ∧ s.calling.toAddress ≠ [] then s.calling.toAddress
      else a := by
  unfold bindPeer
  rw [h.group, h.toAddress, h.callerAddress, h.callTo]

/-- A completed handshake binds its own station exactly when nothing left over wins. -/
theorem peer_at_entry {s : SM} {op : Op} (hc : s.currentState = .calling ∨ s.currentState = .handshake)
    (hg : s.trigger op = .event .handshakeComplete) :
    (s.step op).PeerIs s.handshakePeer ↔
      if s.currentState = .calling then s.CalledBinds else s.CallerBinds op := by
  have hg' : s.clearOut.trigger op = .event .handshakeComplete := by
    rw [← hg]
    cases op <;> rfl
  obtain ⟨q, hq, hb⟩ := exec_completes hg'
  have hst : q.currentState = s.currentState := hb.state
  have hqc : q.currentState = .calling ∨ q.currentState = .handshake := by rwa [hst]
  have hl : (s.step op).currentState = .linked := by
    have hf := congrArg Control.state (step_control s op)
    rw [hg] at hf
    rw [show (s.step op).currentState = _ from hf]
    unfold Control.fire Control.event
    rcases hc with hc | hc <;> rw [show s.control.state = _ from hc] <;> exact Control.goTo_state _ _
  have hp : (s.step op).peers = { q.peers with activeCallTo := q.bindPeer } :=
    (congrArg SM.peers hq).trans (handshakeComplete_peers hqc)
  rw [peerIs_iff hl, hp]
  show q.bindPeer = _ ∧ (if q.calling.toAddress ≠ [] then q.calling.toAddress
    else q.hs.callerAddress) = _ ↔ _
  have ht : q.calling.toAddress = s.calling.toAddress := hb.toAddress
  have hcl : q.hs.callerAddress = s.hs.callerAddress := hb.callerAddress
  rw [bindPeer_of_bindsLike hb, ht, hcl]
  show (if ¬ s.calling.activeCallIsGroup ∧ s.hs.callerAddress ≠ [] then s.hs.callerAddress
      else if s.calling.activeCallIsGroup ∧ s.calling.toAddress ≠ [] then s.calling.toAddress
      else s.callTo op) = _ ∧ _ ↔ _
  unfold handshakePeer
  by_cases h : s.currentState = .calling
  · have hct : s.callTo op = s.link.activeCallTo := by
      unfold callTo
      rw [if_neg (by rw [h]; simp)]
    rw [if_pos h, if_pos h, hct]
    unfold CalledBinds
    by_cases h1 : s.calling.toAddress = [] <;> by_cases h2 : s.hs.callerAddress = [] <;>
      by_cases h3 : s.calling.activeCallIsGroup = true <;> simp [h1, h2, h3]
  · rw [if_neg h, if_neg h]
    unfold CallerBinds
    by_cases h1 : s.calling.toAddress = [] <;> by_cases h2 : s.hs.callerAddress = [] <;>
      by_cases h3 : s.calling.activeCallIsGroup = true <;> simp [h1, h2, h3]

theorem enters_iff {s : SM} {op : Op} (ho : s.control.Outside) : s.Enters op ↔
    ((s.currentState = .calling ∨ s.currentState = .handshake) ∧
        s.trigger op = .event .handshakeComplete) ∨
      (s.currentState = .sounding ∧ s.previousState = .linked ∧
        s.trigger op = .event .soundingComplete ∧ s.moreSweep = false) := by
  have hst : (s.step op).currentState = (s.control.fire s.moreSweep (s.trigger op)).state :=
    congrArg Control.state (step_control s op)
  unfold Enters
  rw [hst]
  by_cases hn : s.currentState = .linked
  · simp [hn]
  · rw [Control.fire_linked_iff ho hn]
    exact and_iff_right hn

theorem bindsPeer_iff {s : SM} (ho : s.control.Outside) (op : Op) :
    s.BindsPeer op ↔ s.NothingLeftOver op := by
  unfold BindsPeer NothingLeftOver
  rw [enters_iff ho]
  have linked_of : ∀ hc : s.currentState = .calling ∨ s.currentState = .handshake,
      s.trigger op = .event .handshakeComplete →
      ((∀ as : List Op, (s.step op).Stays as →
        (Machine.run step (s.step op) as).PeerIs s.handshakePeer) ↔
        (s.step op).PeerIs s.handshakePeer) := by
    intro hc hg
    have he : s.Enters op := (enters_iff ho).mpr (Or.inl ⟨hc, hg⟩)
    refine ⟨fun h => h [] he.2, fun h as hs => ?_⟩
    have hp := peers_run (outside_step ho op) hs
    rw [peerIs_iff hs.last, hp]
    exact (peerIs_iff he.2 _).mp h
  cases hc : s.currentState with
  | calling =>
    simp only [reduceCtorEq, or_false, true_and, false_and]
    refine forall_congr' fun hg => ?_
    rw [linked_of (Or.inl hc) hg, peer_at_entry (Or.inl hc) hg, if_pos hc]
  | handshake =>
    simp only [reduceCtorEq, or_true, true_and, false_and, or_false]
    refine forall_congr' fun hg => ?_
    rw [linked_of (Or.inr hc) hg, peer_at_entry (Or.inr hc) hg, if_neg (by rw [hc]; decide)]
  | sounding => simp
  | _ => simp

/-- **The users of a link agree on the station of its handshake, on every link of a run, in exactly
the runs where nothing is left over from an earlier call as a handshake completes.** -/
theorem peer_iff (as : List Op) :
    Machine.AllSteps step BindsPeer init as ↔ Machine.AllSteps step NothingLeftOver init as :=
  Machine.allSteps_congr (fun _ a h => outside_step h a) (fun _ a h => bindsPeer_iff h a)
    outside_init

/-- `ABC` is called by `XYZ`, finds the channel busy, and then calls `DEF`, which answers. -/
def calledThenCalls : List Op :=
  let self : Str := ['A', 'B', 'C']
  let peer : Str := ['D', 'E', 'F']
  [.set (.selfAddress self), .set (.targetScanChannels 0), .update 1 {},
    .processReceivedWord (encodeFirst self .to),
    .processReceivedWord (encodeFirst ['X', 'Y', 'Z'] .tis),
    .update 785 {}, .update 785 {}, .update 785 { channelBusy := true },
    .initiateCall peer, .update 1569 {}, .update 2614 {},
    .onWordComplete, .onWordComplete, .onWordComplete,
    .processReceivedWord (encodeFirst self .to), .processReceivedWord (encodeFirst peer .tis),
    .update 3398 {}, .update 3398 {}, .onWordComplete, .onWordComplete]

/-- **A station that was called and then calls binds its link to the earlier caller.** -/
theorem peer_fail : ¬ ∀ as : List Op, Machine.AllSteps step BindsPeer init as := by
  intro h
  have hs := Machine.allSteps_iff.mp (h (calledThenCalls ++ [.onWordComplete])) calledThenCalls
    .onWordComplete [] rfl
  have he : (Machine.run step init calledThenCalls).Enters .onWordComplete :=
    ⟨by decide +kernel, by decide +kernel⟩
  have hp := (hs he).2 [] he.2
  exact absurd hp.callTo (by decide +kernel)

end SM

end OpenALE
