import OpenALE.Control.Run

/-!
# `ALEController`: call requests and the channel list

Model of the part of `src/App/ale_controller.cpp` that configures a call, with what it reads of the
net and contact stores (`src/Stores/ale_data_store.cpp`). A request returns the controller and the
source's `bool`.

* What the station's surroundings contribute is the argument `Outlook`: the ranking of
  `rank_channels_for_call` (a stable sort by float scores, so any permutation), the payload
  `encode_outgoing` computes from the link-quality database, and the channel of the radio.
* Left out: status texts, the event dispatch, the occupancy detector's busy latch and the saving of
  the station file.

Results:
* `request_eq`: a request is its own checks, a `CallSetup` written into the state machine, and the
  state machine's `initiate_*`.
-/

namespace OpenALE

/-- `Net`. -/
structure Net where
  name : Str
  channelIds : List Str := []
  dwellMs : UInt32 := 200
  scanningEnabled : Bool := true
  soundingEnabled : Bool := false
  soundingIntervalSec : UInt32 := 300
  callingLengthC : UInt32 := 10
  deriving Repr, DecidableEq

/-- A channel the net lists. -/
def Net.holds (n : Net) (ch : Channel) : Bool := n.channelIds.contains ch.id

/-- `NetStore::rename_channel` on one net. -/
def Net.renameChannel (n : Net) (oldId newId : Str) : Net :=
  let hasNew := n.channelIds.contains newId
  let ids := n.channelIds.map fun id => if id = oldId then (if hasNew then [] else newId) else id
  { n with channelIds := ids.filter (· != []) }

/-- `Contact`. -/
structure Contact where
  callsign : Str
  name : Str := []
  enabled : Bool := true
  netMembers : List Str := []
  validChannels : List Str := []
  allChannels : Bool := true
  deriving Repr, DecidableEq

/-- `SelfAddressEntry`. -/
structure SelfAddressEntry where
  address : Str
  enabled : Bool := true
  validChannels : List Str := []
  allChannels : Bool := true
  deriving Repr, DecidableEq

/-- `ALEStationConfig`. -/
structure StationConfig where
  assumedScanChannels : UInt32 := 10
  lqaExchangeEnabled : Bool := false
  amdSendMaxAttempts : Nat := 3
  positionReportNet : Str := []
  relinkEnabled : Bool := false
  relinkImprovementThreshold : Float32 := 5.0
  enhancedFreqSelect : Bool := false
  deriving Repr, DecidableEq

/-- The retry cycle of an AMD sent by a call (`amd_retry_*`). -/
structure AmdRetry where
  active : Bool := false
  attemptsRemaining : Nat := 0
  target : Str := []
  text : Str := []
  linkAfterSend : Bool := false
  pendingRecall : Bool := false
  recallAfterMs : UInt32 := 0
  deriving Repr, DecidableEq

/-- `ALEController`. -/
structure Controller where
  sm : SM := {}
  config : StationConfig := {}
  /-- `op_params_.lqa_enabled`. -/
  lqaEnabled : Bool := true
  callingChannels : List Channel := []
  activeScanNet : Str := []
  autoSoundingNet : Str := []
  nets : List Net := []
  contacts : List Contact := []
  selfAddresses : List SelfAddressEntry := []
  primarySelfAddress : Str := []
  amdRetry : AmdRetry := {}
  /-- The targets of the `ALE_AMD_NOT_SENT` events dispatched, oldest first. -/
  amdNotSent : List Str := []
  pendingRelinkAddr : Str := []
  nowMs : UInt32 := 0

/-- What a request asks of the link-quality analyzer and of the radio. -/
structure Outlook where
  rank : Str → List Channel → List Channel
  rank_perm : ∀ target channels, (rank target channels).Perm channels
  lqaRaw : Nat → Str → Nat
  radio : Channel

namespace Controller

/-! ## Lookups -/

/-- `NetStore::find`. -/
def findNet (c : Controller) (name : Str) : Option Net := c.nets.find? (·.name == name)

/-- `ContactStore::find`. -/
def findContact (c : Controller) (callsign : Str) : Option Contact :=
  c.contacts.find? (·.callsign == callsign)

/-- `find_channel_by_freq`. -/
def findChannelByFreq (c : Controller) (rxHz : Nat) : Option Channel :=
  if rxHz = 0 then none else c.callingChannels.find? (·.rxFrequencyHz == rxHz)

/-- `reporting_inhibited`. -/
def reportingInhibited (c : Controller) (rxHz : Nat) : Bool :=
  (c.findChannelByFreq rxHz).any (·.inhibitReporting)

/-- `tx_inhibited`. -/
def txInhibited (c : Controller) (rxHz : Nat) : Bool := (c.findChannelByFreq rxHz).any (·.rxOnly)

/-- The callable channels: neither inhibited for calling nor receive-only. -/
def callable (c : Controller) : List Channel :=
  c.callingChannels.filter fun ch => !ch.inhibitCalling && !ch.rxOnly

/-- The callable channels of the active net, or all of them when it has none. -/
def scopedToNet (c : Controller) (channels : List Channel) : List Channel :=
  if c.activeScanNet = [] then channels
  else match c.findNet c.activeScanNet with
    | none => channels
    | some net => if channels.filter net.holds = [] then channels else channels.filter net.holds

/-- The scan channels assumed of the targets: the calling length of the first net found among
their contacts. -/
def targetScanChannels (c : Controller) (targets : List Str) : UInt32 :=
  let names := (targets.filterMap c.findContact).flatMap (·.netMembers)
  ((names.findSome? c.findNet).map (·.callingLengthC)).getD c.config.assumedScanChannels

/-- `resolve_sounding_C`. -/
def resolveSoundingC (c : Controller) (netName : Str) : UInt32 :=
  let lengthOf := fun name : Str =>
    if name = [] then 0 else ((c.findNet name).map (·.callingLengthC)).getD 0
  if lengthOf netName ≠ 0 then lengthOf netName
  else if lengthOf c.autoSoundingNet ≠ 0 then lengthOf c.autoSoundingNet
  else if lengthOf c.activeScanNet ≠ 0 then lengthOf c.activeScanNet
  else c.config.assumedScanChannels

/-! ## Call requests -/

/-- `apply_lbt_policy_`: the short listening time only when every channel is ALE-only. -/
def applyLbtPolicy (c : Controller) (channels : List Channel) : Controller :=
  { c with sm := c.sm.setLbtShared (!(!channels.isEmpty && channels.all (·.aleOnly))) }

/-- Queue CMD LQA for the frame, unless the exchange is off or inhibited on the channel. -/
def queueLqa (c : Controller) (o : Outlook) (rxHz : Nat) (target : Str) : Controller :=
  if c.config.lqaExchangeEnabled ∧ ¬ c.reportingInhibited rxHz then
    { c with sm := c.sm.setPendingLqaCmd (o.lqaRaw rxHz target) }
  else c

/-- `set_calling_channels` of the state machine. -/
def pushChannels (c : Controller) (channels : List Channel) : Controller :=
  { c with sm := c.sm.setCallingChannels channels }

/-- `set_target_scan_channels` of the state machine. -/
def pushScanChannels (c : Controller) (n : UInt32) : Controller :=
  { c with sm := c.sm.setTargetScanChannels n }

/-- Hand the call to the state machine. -/
def place (c : Controller) (r : SM × Bool) : Controller × Bool := ({ c with sm := r.1 }, r.2)

/-- `initiate_call`. -/
def initiateCall (c : Controller) (o : Outlook) (target : Str) : Controller × Bool :=
  if ¬ StationAddress target then (c, false)
  else if c.sm.allcallBroadcasting then (c, false)
  else if c.callingChannels ≠ [] ∧ c.callable = [] then (c, false)
  else
    let callable := c.scopedToNet c.callable
    let ordered := o.rank target callable
    let firstCallFreq := (ordered.head?.map (·.rxFrequencyHz)).getD 0
    let c := c.pushChannels (if callable ≠ [] then ordered else c.callingChannels)
    let c := c.pushScanChannels (c.targetScanChannels [target])
    let c := c.queueLqa o firstCallFreq target
    let c := c.applyLbtPolicy callable
    c.place (c.sm.initiateCall target)

/-- `initiate_single_channel_call`. -/
def initiateSingleChannelCall (c : Controller) (o : Outlook) (target : Str) : Controller × Bool :=
  if ¬ StationAddress target then (c, false)
  else if c.txInhibited o.radio.rxFrequencyHz then (c, false)
  else
    let c := c.pushChannels [o.radio]
    let c := c.applyLbtPolicy (c.findChannelByFreq o.radio.rxFrequencyHz).toList
    let c := c.pushScanChannels (c.targetScanChannels [target])
    let c := c.queueLqa o o.radio.rxFrequencyHz target
    c.place (c.sm.initiateCall target)

/-- `initiate_group_call`. -/
def initiateGroupCall (c : Controller) (members : List Str) : Controller × Bool :=
  if members = [] then (c, false)
  else if ∃ m ∈ members, ¬ StationAddress m then (c, false)
  else
    let c := c.pushScanChannels (c.targetScanChannels members)
    let callable := c.scopedToNet c.callable
    let c := if callable ≠ [] then c.pushChannels callable else c
    c.place (c.sm.initiateGroupCall members)

/-- The three requests. -/
inductive Request where
  | call (target : Str)
  | singleChannelCall (target : Str)
  | groupCall (members : List Str)
  deriving Repr, DecidableEq

/-- Carry out a request. -/
def request (c : Controller) (o : Outlook) : Request → Controller × Bool
  | .call target => c.initiateCall o target
  | .singleChannelCall target => c.initiateSingleChannelCall o target
  | .groupCall members => c.initiateGroupCall members

/-! ## Channel edits -/

/-- `add_channel`; `freeId` is the result of `next_free_channel_id`, which names a channel added
without a name. -/
def addChannel (c : Controller) (freeId : Str) (ch : Channel) : Controller :=
  let ch := if ch.id = [] then { ch with id := freeId } else ch
  let chs := c.callingChannels
  let chs := match chs.findIdx? (·.rxFrequencyHz == ch.rxFrequencyHz) with
    | some i => chs.set i ch
    | none => chs ++ [ch]
  pushChannels { c with callingChannels := chs } chs

/-- `del_channel`. -/
def delChannel (c : Controller) (rxHz : Nat) : Controller :=
  match c.callingChannels.find? (·.rxFrequencyHz == rxHz) with
  | none => c
  | some removed =>
    let chs := c.callingChannels.filter (·.rxFrequencyHz != rxHz)
    let nets := if removed.id = [] then c.nets
      else c.nets.map fun n => { n with channelIds := n.channelIds.filter (· != removed.id) }
    pushChannels { c with callingChannels := chs, nets := nets } chs

/-- The channel named `id`, changed by `f`, and the list pushed to the state machine. -/
def editChannel (c : Controller) (id : Str) (f : Channel → Channel) : Controller :=
  match c.callingChannels.findIdx? (·.id == id) with
  | none => c
  | some i =>
    let chs := c.callingChannels.modify i f
    pushChannels { c with callingChannels := chs } chs

/-- `rename_channel`. -/
def renameChannel (c : Controller) (oldId newId : Str) : Controller :=
  if oldId = newId then c
  else if newId = [] then c
  else if newId.any (fun x => x == ' ' || x == '\t' || x == '\r' || x == '\n') then c
  else if c.callingChannels.all (·.id != oldId) then c
  else if c.callingChannels.any (·.id == newId) then c
  else
    let c := c.editChannel oldId fun ch => { ch with id := newId }
    { c with nets := c.nets.map (·.renameChannel oldId newId) }

/-- `set_channel_enabled`: an unchanged flag pushes nothing. -/
def setChannelEnabled (c : Controller) (id : Str) (enabled : Bool) : Controller :=
  if (c.callingChannels.find? (·.id == id)).any (·.enabled == enabled) then c
  else c.editChannel id fun ch => { ch with enabled := enabled }

/-- `set_channel_mode`. -/
def setChannelMode (c : Controller) (id mode : Str) : Controller :=
  if mode = [] then c else c.editChannel id fun ch => { ch with rxMode := mode, txMode := mode }

/-- `set_power` with a radio that supports it, on frequency `rxHz`; unchanged power pushes
nothing. -/
def setPower (c : Controller) (rxHz : Nat) (pct : Int) : Controller :=
  let pct := (min 100 (max 0 pct)).toNat
  match c.callingChannels.findIdx? (·.rxFrequencyHz == rxHz) with
  | none => c
  | some i =>
    if (c.callingChannels[i]?).any (·.powerPct == pct) then c
    else
      let chs := c.callingChannels.modify i fun ch => { ch with powerPct := pct }
      pushChannels { c with callingChannels := chs } chs

/-! ## A request in three parts -/

/-- What a request writes into the state machine before it places the call; `none` leaves a
setting alone. -/
structure CallSetup where
  channels : Option (List Channel)
  scanChannels : UInt32
  lqaRaw : Option Nat := none
  lbtShared : Option Bool := none

/-- The settings written. -/
def CallSetup.write (u : CallSetup) (s : SM) : SM :=
  { s with
    calling := match u.channels with
      | some chs => { s.calling with callingChannels := chs, callingChannelIndex := 0 }
      | none => s.calling
    targetScanChannels := u.scanChannels
    pend := match u.lqaRaw with
      | some raw => { s.pend with pendingLqaCmdRaw := raw, pendingLqaCmdSet := true }
      | none => s.pend
    lbtShared := u.lbtShared.getD s.lbtShared }

/-- The CMD LQA a request queues for channel `rxHz`. -/
def lqaFor (c : Controller) (o : Outlook) (rxHz : Nat) (target : Str) : Option Nat :=
  if c.config.lqaExchangeEnabled ∧ ¬ c.reportingInhibited rxHz then some (o.lqaRaw rxHz target)
  else none

/-- A channel that is not known ALE-only shares its frequency. -/
def shared (channels : List Channel) : Bool := !(!channels.isEmpty && channels.all (·.aleOnly))

/-- The settings of a request that passes the controller's own checks. -/
def setup (c : Controller) (o : Outlook) : Request → Option CallSetup
  | .call target =>
    if ¬ StationAddress target ∨ c.sm.allcallBroadcasting ∨
        (c.callingChannels ≠ [] ∧ c.callable = []) then none
    else
      let callable := c.scopedToNet c.callable
      let ordered := o.rank target callable
      some {
        channels := some (if callable ≠ [] then ordered else c.callingChannels)
        scanChannels := c.targetScanChannels [target]
        lqaRaw := c.lqaFor o ((ordered.head?.map (·.rxFrequencyHz)).getD 0) target
        lbtShared := some (shared callable) }
  | .singleChannelCall target =>
    if ¬ StationAddress target ∨ c.txInhibited o.radio.rxFrequencyHz then none
    else some {
      channels := some [o.radio]
      scanChannels := c.targetScanChannels [target]
      lqaRaw := c.lqaFor o o.radio.rxFrequencyHz target
      lbtShared := some (shared (c.findChannelByFreq o.radio.rxFrequencyHz).toList) }
  | .groupCall members =>
    if members = [] ∨ ∃ m ∈ members, ¬ StationAddress m then none
    else some {
      channels := if c.scopedToNet c.callable ≠ [] then some (c.scopedToNet c.callable) else none
      scanChannels := c.targetScanChannels members }

/-- The `initiate_*` of the state machine behind a request. -/
def Request.initiate (s : SM) : Request → SM × Bool
  | .call target | .singleChannelCall target => s.initiateCall target
  | .groupCall members => s.initiateGroupCall members

section Request

variable {c : Controller} {o : Outlook}

theorem queueLqa_eq (rxHz : Nat) (target : Str) :
    c.queueLqa o rxHz target = { c with sm := { c.sm with
      pend := match c.lqaFor o rxHz target with
        | some raw => { c.sm.pend with pendingLqaCmdRaw := raw, pendingLqaCmdSet := true }
        | none => c.sm.pend } } := by
  unfold queueLqa lqaFor
  split <;> rfl

theorem initiateCall_eq (target : Str) : c.initiateCall o target =
    match c.setup o (.call target) with
    | none => (c, false)
    | some u => c.place ((u.write c.sm).initiateCall target) := by
  unfold initiateCall setup
  dsimp only
  by_cases h1 : StationAddress target
  · by_cases h2 : c.sm.allcallBroadcasting = true
    · rw [if_neg (not_not.mpr h1), if_pos h2, if_pos (Or.inr (Or.inl h2))]
    · by_cases h3 : c.callingChannels ≠ [] ∧ c.callable = []
      · rw [if_neg (not_not.mpr h1), if_neg h2, if_pos h3, if_pos (Or.inr (Or.inr h3))]
      · rw [if_neg (not_not.mpr h1), if_neg h2, if_neg h3,
          if_neg (not_or.mpr ⟨not_not.mpr h1, not_or.mpr ⟨h2, h3⟩⟩), queueLqa_eq]
        rfl
  · rw [if_pos h1, if_pos (Or.inl h1)]

theorem initiateSingleChannelCall_eq (target : Str) : c.initiateSingleChannelCall o target =
    match c.setup o (.singleChannelCall target) with
    | none => (c, false)
    | some u => c.place ((u.write c.sm).initiateCall target) := by
  unfold initiateSingleChannelCall setup
  dsimp only
  by_cases h1 : StationAddress target
  · by_cases h2 : c.txInhibited o.radio.rxFrequencyHz = true
    · rw [if_neg (not_not.mpr h1), if_pos h2, if_pos (Or.inr h2)]
    · rw [if_neg (not_not.mpr h1), if_neg h2,
      if_neg (not_or.mpr ⟨not_not.mpr h1, h2⟩), queueLqa_eq]
      rfl
  · rw [if_pos h1, if_pos (Or.inl h1)]

theorem initiateGroupCall_eq (members : List Str) : c.initiateGroupCall members =
    match c.setup o (.groupCall members) with
    | none => (c, false)
    | some u => c.place ((u.write c.sm).initiateGroupCall members) := by
  unfold initiateGroupCall setup
  dsimp only
  by_cases h1 : members = []
  · rw [if_pos h1, if_pos (Or.inl h1)]
  · by_cases h2 : ∃ m ∈ members, ¬ StationAddress m
    · rw [if_neg h1, if_pos h2, if_pos (Or.inr h2)]
    · rw [if_neg h1, if_neg h2, if_neg (not_or.mpr ⟨h1, h2⟩)]
      have hscope : (c.pushScanChannels (c.targetScanChannels members)).scopedToNet
          (c.pushScanChannels (c.targetScanChannels members)).callable =
            c.scopedToNet c.callable := rfl
      rw [hscope]
      by_cases h3 : c.scopedToNet c.callable = []
      · simp only [h3, ne_eq, not_true_eq_false, if_false]
        rfl
      · simp only [ne_eq, h3, not_false_eq_true, if_true]
        rfl

/-- **A request is its own checks, the settings it writes, and the state machine's answer.** -/
theorem request_eq (r : Request) : c.request o r =
    match c.setup o r with
    | none => (c, false)
    | some u => c.place (r.initiate (u.write c.sm)) := by
  cases r with
  | call target => exact initiateCall_eq target
  | singleChannelCall target => exact initiateSingleChannelCall_eq target
  | groupCall members => exact initiateGroupCall_eq members

end Request

end Controller

end OpenALE
