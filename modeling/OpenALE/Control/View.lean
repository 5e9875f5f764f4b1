import OpenALE.Control.Transmit

/-!
# The machine as its transmitter sees it

`TxView` is what the machine is sending, if anything, and how many words it still counts. `Signal`
is what of the callbacks concerns the antenna: a word handed over, or the receiver switched.
-/

namespace OpenALE

/-- What concerns the antenna: a word is handed to the transmitter, or the receiver is switched. -/
inductive Signal where
  | send
  | rx (on : Bool)
  deriving Repr, DecidableEq

/-- The signals among the callbacks fired. -/
def signals (out : List Output) : List Signal :=
  out.filterMap fun o => match o with
    | .transmit _ => some .send
    | .rxEnabled on => some (.rx on)
    | _ => none

theorem signals_append (a b : List Output) : signals (a ++ b) = signals a ++ signals b :=
  List.filterMap_append

theorem signals_transmit (ws : List ALEWord) (now : UInt32) :
    signals (ws.map fun w => .transmit (w.stamp now)) = List.replicate ws.length .send := by
  induction ws with
  | nil => rfl
  | cons w ws ih => exact congrArg (Signal.send :: ·) ih

theorem signals_channels (chs : List Channel) : signals (chs.map .channelChange) = [] := by
  induction chs with
  | nil => rfl
  | cons c chs ih => exact ih

/-- The words handed over among the signals. -/
def sends (sig : List Signal) : Nat := sig.count .send

theorem sends_append (a b : List Signal) : sends (a ++ b) = sends a + sends b := List.count_append

@[simp] theorem sends_nil : sends [] = 0 := rfl

@[simp] theorem sends_rx (on : Bool) (sig : List Signal) : sends (.rx on :: sig) = sends sig :=
  List.count_cons_of_ne (by simp)

@[simp] theorem sends_replicate (n : Nat) : sends (List.replicate n .send) = n :=
  List.count_replicate_self

/-- What the machine is sending. -/
inductive Mode where
  | listen
  | tuning
  | call (p : CallingPhase)
  | ack
  | response
  | orderwire
  | termination
  | sounding
  | broadcast
  deriving Repr, DecidableEq

/-- The machine as its transmitter sees it. -/
structure TxView where
  mode : Mode
  cycles : Nat
  wordsPending : Nat
  allcall : Bool
  transmitting : Bool
  state : ALEState
  awaits : Bool

/-- The view after the transition to `t`. -/
def TxView.go (v : TxView) (t : ALEState) : TxView :=
  { v with
    mode := match t with
      | .idle | .scanning => if v.allcall then .broadcast else .listen
      | .linked => if v.transmitting then .orderwire else .listen
      | _ => .listen
    cycles := if t = .calling then 0 else v.cycles
    wordsPending := 0
    state := t
    awaits := false }

namespace SM

/-- What the machine is sending. -/
def mode (s : SM) : Mode :=
  match s.currentState with
  | .idle | .scanning => if s.allcallBroadcasting then .broadcast else .listen
  | .calling =>
    match s.calling.callingPhase with
    | .lbt | .listening => .listen
    | .tuning => .tuning
    | .sendingAck => .ack
    | p => .call p
  | .handshake => if s.hs.handshakePhase = .sendingResponse then .response else .listen
  | .linked =>
    if s.link.linkedTerminating then .termination
    else if s.ow.orderwireTransmitting then .orderwire else .listen
  | .sounding => if s.snd.soundingPhase = .transmitting then .sounding else .listen
  | .error => .listen

/-- The window after an own burst is open: `LISTENING` of a call or a sounding, `WAIT_ACK`. -/
def awaits (s : SM) : Bool :=
  match s.currentState with
  | .calling => s.calling.callingPhase == .listening
  | .handshake => s.hs.handshakePhase == .waitAck
  | .sounding => s.snd.soundingPhase == .listening
  | _ => false

/-- The machine as its transmitter sees it. -/
def txView (s : SM) : TxView :=
  { mode := s.mode
    cycles := s.calling.callCyclesInPhase
    wordsPending := s.tx.wordsPending
    allcall := s.allcallBroadcasting
    transmitting := s.ow.orderwireTransmitting
    state := s.currentState
    awaits := s.awaits }

section State

variable {s : SM}

/-- In `CALLING` the transmitter sees the phase. -/
theorem mode_calling (hc : s.currentState = .calling) : s.mode =
    match s.calling.callingPhase with
    | .lbt | .listening => .listen
    | .tuning => .tuning
    | .sendingAck => .ack
    | p => .call p := by
  unfold mode
  rw [hc]

theorem awaits_calling (hc : s.currentState = .calling) :
    s.awaits = (s.calling.callingPhase == .listening) := by
  unfold awaits
  rw [hc]

/-- In `HANDSHAKE` the transmitter sees the response. -/
theorem mode_handshake (hc : s.currentState = .handshake) : s.mode =
    if s.hs.handshakePhase = .sendingResponse then .response else .listen := by
  unfold mode
  rw [hc]

theorem awaits_handshake (hc : s.currentState = .handshake) :
    s.awaits = (s.hs.handshakePhase == .waitAck) := by
  unfold awaits
  rw [hc]

/-- In `LINKED` the transmitter sees the termination and the orderwire. -/
theorem mode_linked (hc : s.currentState = .linked) : s.mode =
    if s.link.linkedTerminating then .termination
    else if s.ow.orderwireTransmitting then .orderwire else .listen := by
  unfold mode
  rw [hc]

theorem awaits_linked (hc : s.currentState = .linked) : s.awaits = false := by
  unfold awaits
  rw [hc]

/-- In `SOUNDING` the transmitter sees the phase. -/
theorem mode_sounding (hc : s.currentState = .sounding) :
    s.mode = if s.snd.soundingPhase = .transmitting then .sounding else .listen := by
  unfold mode
  rw [hc]

theorem awaits_sounding (hc : s.currentState = .sounding) :
    s.awaits = (s.snd.soundingPhase == .listening) := by
  unfold awaits
  rw [hc]

/-- What is sent tells the state. -/
theorem calling_of_mode {p : CallingPhase} (hm : s.mode = .call p) : s.currentState = .calling := by
  unfold mode at hm
  cases hc : s.currentState <;> rw [hc] at hm <;> dsimp only at hm <;>
    first | rfl | ((repeat' split at hm) <;> exact absurd hm (by simp))

theorem ack_of_mode (hm : s.mode = .ack) : s.currentState = .calling := by
  unfold mode at hm
  cases hc : s.currentState <;> rw [hc] at hm <;> dsimp only at hm <;>
    first | rfl | ((repeat' split at hm) <;> exact absurd hm (by simp))

theorem linked_of_mode (hm : s.mode = .orderwire) : s.currentState = .linked := by
  unfold mode at hm
  cases hc : s.currentState <;> rw [hc] at hm <;> dsimp only at hm <;>
    first | rfl | ((repeat' split at hm) <;> exact absurd hm (by simp))

/-- While a burst is under way its window is not open. -/
theorem awaits_of_mode (hm : s.mode ≠ .listen) : s.awaits = false := by
  cases hc : s.currentState with
  | calling =>
    rw [awaits_calling hc]
    rw [mode_calling hc] at hm
    cases hp : s.calling.callingPhase <;> rw [hp] at hm <;> first | rfl | exact absurd rfl hm
  | handshake =>
    rw [awaits_handshake hc]
    rw [mode_handshake hc] at hm
    cases hp : s.hs.handshakePhase <;> rw [hp] at hm <;> first | rfl | exact absurd rfl hm
  | linked => exact awaits_linked hc
  | sounding =>
    rw [awaits_sounding hc]
    rw [mode_sounding hc] at hm
    cases hp : s.snd.soundingPhase <;> rw [hp] at hm <;> first | rfl | exact absurd rfl hm
  | _ =>
    unfold awaits
    rw [hc]

end State

/-- `s'` comes from `s` with the signals `sig` and the view `v`. -/
structure Yields (s s' : SM) (v : TxView) (sig : List Signal) : Prop where
  view : s'.txView = v
  out : signals s'.out = signals s.out ++ sig

theorem Yields.refl (s : SM) : s.Yields s s.txView [] := ⟨rfl, (List.append_nil _).symm⟩

/-- Nothing that the transmitter sees happens. -/
theorem Yields.quiet {s s' : SM} (hv : s'.txView = s.txView) (ho : signals s'.out = signals s.out) :
    s.Yields s' s.txView [] := ⟨hv, by rw [ho, List.append_nil]⟩

theorem Yields.trans {s p s' : SM} {v v' : TxView} {a b : List Signal} (h : s.Yields p v a)
    (h' : p.Yields s' v' b) : s.Yields s' v' (a ++ b) :=
  ⟨h'.view, by rw [h'.out, h.out, List.append_assoc]⟩

theorem signals_operator (s : SM) (o : OperatorEvent) :
    signals (s.operator o).out = signals s.out := by
  show signals (s.out ++ [_]) = _
  rw [signals_append]
  exact List.append_nil _

theorem signals_hop (s : SM) (chs : List Channel) :
    signals (s.out ++ chs.map .channelChange) = signals s.out := by
  rw [signals_append, signals_channels, List.append_nil]

end SM

end OpenALE
