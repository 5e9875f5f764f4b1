import OpenALE.Library.Machine
import OpenALE.Control.Api

/-!
# Runs of the state machine

`Op` is every way the outside drives an `ALEStateMachine`: events, clock ticks, received words,
completed words and the public API. `step` takes one operation and leaves its callbacks in `out`.
A run is `Machine.run SM.step` from `SM.init`.
-/

namespace OpenALE

/-- The setters. -/
inductive Setting where
  | selfAddress (address : Str)
  | configureScan (config : ScanConfig)
  | addScanChannel (ch : Channel)
  | targetScanChannels (n : UInt32)
  | timingParameters (p : TimingParameters)
  | slotNumber (slot : Nat) (tswtMs : UInt32)
  | callingChannels (channels : List Channel)
  | pendingMessage (msg : PendingMessage)
  | pendingLqaCmd (raw24 : Nat)
  | clearPendingLqaCmd
  | pendingLqaReportSeq (seq : List ALEWord)
  | clearPendingLqaReportSeq
  | pendingNoiseCmd (raw24 : Nat)
  | clearPendingNoiseCmd
  | soundingUseTwas (useTwas : Bool)
  | lbtOverride (on : Bool)
  | lbtShared (shared : Bool)
  deriving Repr, DecidableEq

/-- The operations on an `ALEStateMachine`. -/
inductive Op where
  | processEvent (e : ALEEvent)
  | update (now : UInt32) (env : Env)
  | processReceivedWord (w : ALEWord)
  | onWordComplete
  | initiateCall (target : Str)
  | initiateNetCall (netAddress : Str)
  | initiateGroupCall (members : List Str)
  | respondToCall
  | sendSounding
  | sendSoundingSweep (channels : List Channel)
  | sendAllcallBroadcast (selfAddr text : Str) (linkAfterSend : Bool)
  | terminateLink
  | emergencyManualControl
  | triggerLinkedOrderwire (words : List ALEWord) (doubleBurst : Bool)
  | sendLinkedAmd (contentWords : List ALEWord) (peer : Str) (maxAttempts : Nat)
  | respondToLinkedAmd (sender : Str) (extraCmdWords : List ALEWord)
  | onLinkActivity
  | resetLinkIdleTimer
  | updateLinkQuality (lq : LinkQuality)
  | beginScanPause (t : UInt32)
  | extendPeerWaitWindow (delay : UInt32)
  | set (x : Setting)
  deriving Repr, DecidableEq

namespace SM

/-- One setter. -/
def set (s : SM) : Setting → SM
  | .selfAddress a => s.setSelfAddress a
  | .configureScan c => s.configureScan c
  | .addScanChannel ch => s.addScanChannel ch
  | .targetScanChannels n => s.setTargetScanChannels n
  | .timingParameters p => s.setTimingParameters p
  | .slotNumber n t => s.setSlotNumber n t
  | .callingChannels chs => s.setCallingChannels chs
  | .pendingMessage m => s.setPendingMessage m
  | .pendingLqaCmd raw => s.setPendingLqaCmd raw
  | .clearPendingLqaCmd => s.clearPendingLqaCmd
  | .pendingLqaReportSeq seq => s.setPendingLqaReportSeq seq
  | .clearPendingLqaReportSeq => s.clearPendingLqaReportSeq
  | .pendingNoiseCmd raw => s.setPendingNoiseCmd raw
  | .clearPendingNoiseCmd => s.clearPendingNoiseCmd
  | .soundingUseTwas b => s.setSoundingUseTwas b
  | .lbtOverride b => s.setLbtOverride b
  | .lbtShared b => s.setLbtShared b

/-- One operation, its callbacks appended to `out`. -/
def exec (s : SM) : Op → SM
  | .processEvent e => (s.processEvent e).1
  | .update now env => s.update now env
  | .processReceivedWord w => s.processReceivedWord w
  | .onWordComplete => s.onWordComplete
  | .initiateCall target => (s.initiateCall target).1
  | .initiateNetCall a => (s.initiateNetCall a).1
  | .initiateGroupCall ms => (s.initiateGroupCall ms).1
  | .respondToCall => s.respondToCall.1
  | .sendSounding => s.sendSounding.1
  | .sendSoundingSweep chs => (s.sendSoundingSweep chs).1
  | .sendAllcallBroadcast a t l => (s.sendAllcallBroadcast a t l).1
  | .terminateLink => s.terminateLink
  | .emergencyManualControl => s.emergencyManualControl
  | .triggerLinkedOrderwire ws d => s.triggerLinkedOrderwire ws d
  | .sendLinkedAmd ws p n => s.sendLinkedAmd ws p n
  | .respondToLinkedAmd a ws => s.respondToLinkedAmd a ws
  | .onLinkActivity => s.onLinkActivity
  | .resetLinkIdleTimer => s.resetLinkIdleTimer
  | .updateLinkQuality lq => s.updateLqa lq
  | .beginScanPause t => s.beginScanPause t
  | .extendPeerWaitWindow d => s.extendPeerWaitWindow d
  | .set x => s.set x

/-- A clock tick. -/
def isUpdate : Op → Bool
  | .update _ _ => true
  | _ => false

/-- Forget the callbacks of the operation before. -/
def clearOut (s : SM) : SM := { s with out := [] }

/-- One step of the machine. -/
def step (s : SM) (op : Op) : SM := s.clearOut.exec op

/-- A machine as its constructor leaves it. -/
def init : SM := {}

end SM

end OpenALE
