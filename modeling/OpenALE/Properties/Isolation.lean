import OpenALE.Control.Linked

/-!
# An orderwire belongs to its link

An orderwire requested on one link is neither sent on a later one nor in the way of it.

Results:
* `orderwire_isolated`: so it is in every run that ends its links with no orderwire requested or
  on the air.
* `orderwire_not_isolated`: an emergency stop with an orderwire queued takes it into the next link.
-/

namespace OpenALE

/-- The trigger takes the machine out of `LINKED`. -/
def Trigger.endsLink : Trigger → Bool
  | .event .linkTimeout => true
  | .event .linkTerminated => true
  | .event .errorOccurred => true
  | .emergency => true
  | _ => false

namespace LinkView

/-- No orderwire was requested on this link. -/
structure Unused (v : LinkView) : Prop where
  pending : v.pending = false
  transmitting : v.transmitting = false
  phase : v.phase = .none
  listenStart : v.listenStart = 0
  retryPending : v.retryPending = false
  drainStart : v.terminating = false → v.drainStart = 0

/-- `words` are queued as the first orderwire of this link. -/
structure Queued (words : List ALEWord) (double : Bool) (v : LinkView) : Prop where
  pending : v.pending = true
  words : v.words = words
  double : v.double = double
  transmitting : v.transmitting = false
  drainStart : v.drainStart = 0

variable {v v' : LinkView} {now : UInt32} {ws : List ALEWord} {d : Bool}

theorem Unused.tick {lost allcallLost : Prop} (h : v.Unused)
    (ht : v.Tick now lost allcallLost v') : v'.Unused := by
  cases ht with
  | stay => exact h
  | start n _ _ hp _ => exact absurd (h.pending.symm.trans hp) (by decide)
  | retry ws _ hr => exact absurd (h.retryPending.symm.trans hr) (by decide)
  | again _ _ hl => exact absurd h.listenStart hl
  | giveUp _ hl => exact absurd h.listenStart hl
  | ack ws _ hl => exact absurd h.listenStart hl
  | heardAck _ hp => exact absurd (h.phase.symm.trans hp) (by decide)
  | abandon _ _ hx => exact absurd (h.transmitting.symm.trans hx) (by decide)
  | allcall _ =>
    exact ⟨h.pending, h.transmitting, h.phase, h.listenStart, h.retryPending, fun _ => rfl⟩

theorem Unused.complete (h : v.Unused) (allcall : Bool) : (v.complete now allcall).Unused := by
  unfold LinkView.complete
  split
  · exact ⟨h.pending, h.transmitting, h.phase, h.listenStart, h.retryPending, h.drainStart⟩
  · rename_i ht
    rw [if_neg (by rw [h.transmitting]; decide)]
    split
    · refine ⟨h.pending, h.transmitting, h.phase, h.listenStart, h.retryPending, fun _ => ?_⟩
      dsimp only
      split
      · rfl
      · exact h.drainStart (by simpa using ht)
    · exact h

theorem Queued.complete (h : v.Queued ws d) (ht : v.terminating = false) (allcall : Bool) :
    (v.complete now allcall).Queued ws d := by
  unfold LinkView.complete
  rw [if_neg (by rw [ht]; decide), if_neg (by rw [h.transmitting]; decide)]
  split
  · refine ⟨h.pending, h.words, h.double, h.transmitting, ?_⟩
    dsimp only
    split
    · rfl
    · exact h.drainStart
  · exact h

theorem fresh_unused {p : Peers} {o : Orderwire} (hp : o.orderwirePending = false)
    (hx : o.orderwireTransmitting = false) : (fresh p o).Unused :=
  ⟨hp, hx, rfl, rfl, rfl, fun _ => rfl⟩

end LinkView

namespace SM

/-! ## A link and its first orderwire -/

/-- The first orderwire of a link that came up in `s` is taken and sent: after operations `idle`
with no request of their own, a request `req` is accepted; and after operations `wait` with no
request and no clock tick, the next tick sends its words and `TIS` self, twice if so requested. -/
def SendsFirst (s : SM) : Prop :=
  ∀ (idle : List Op) (req : Op) (ws : List ALEWord) (d : Bool),
    s.Stays idle → (∀ op ∈ idle, request op = none) →
    (Machine.run step s idle).link.linkedTerminating = false → request req = some (ws, d) →
    let q := (Machine.run step s idle).step req
    (q.ow.orderwirePending = true ∧ q.ow.pendingOrderwireWords = ws ∧
      q.ow.orderwireDoubleBurst = d) ∧
    ∀ (wait : List Op) (now : UInt32) (env : Env),
      Machine.AllStates step
        (fun s => s.currentState = .linked ∧ s.link.linkedTerminating = false) q wait →
      (∀ op ∈ wait, request op = none ∧ ∀ t e, op ≠ .update t e) →
      let r := Machine.run step q wait
      ¬ 0x80000000 ≤ now - r.currentTimeMs →
      (r.step (.update now env)).currentState = .linked →
      (r.step (.update now env)).out = .rxEnabled false ::
        (let tx := ws ++ conclusion r.selfAddress false
         if d then tx ++ tx else tx).map (fun w => .transmit (w.stamp now))

/-- **Isolation.** A link that comes up finds no orderwire requested or on the air and no linked-AMD
exchange; until something is requested on it nothing is queued or on the air; and the first
request is taken and sent. -/
def Isolated (s : SM) (op : Op) : Prop :=
  s.Enters op →
    let t := s.step op
    (t.ow.orderwirePending = false ∧ t.ow.orderwireTransmitting = false ∧
      t.amd.linkedAmdPhase = .none) ∧
    (∀ idle : List Op, t.Stays idle → (∀ op ∈ idle, request op = none) →
      (Machine.run step t idle).ow.orderwirePending = false ∧
        (Machine.run step t idle).ow.orderwireTransmitting = false) ∧
    t.SendsFirst

/-- A step that ends a link finds no orderwire requested or on the air. -/
def EndsClean (s : SM) (op : Op) : Prop :=
  s.currentState = .linked → (s.trigger op).endsLink = true →
    s.ow.orderwirePending = false ∧ s.ow.orderwireTransmitting = false

instance (s : SM) (op : Op) : Decidable (s.EndsClean op) := by
  unfold EndsClean
  infer_instance

theorem trigger_endsLink {s : SM} {op : Op} (hc : s.currentState = .linked)
    (hn : (s.exec op).currentState ≠ .linked) : (s.trigger op).endsLink = true := by
  have h := congrArg Control.state (exec_control s op)
  have hcc : s.control.state = .linked := hc
  cases hg : s.trigger op with
  | none =>
    rw [hg] at h
    exact absurd (h.trans hcc) hn
  | emergency => rfl
  | event e =>
    rw [hg] at h
    unfold Control.fire Control.event at h
    rw [hcc] at h
    cases e <;> first | rfl | exact absurd (h.trans hcc) hn

/-! ## Between links -/

/-- Outside `LINKED` no orderwire is requested or on the air. -/
structure CleanOutside (s : SM) : Prop where
  outside : s.control.Outside
  clean : s.currentState ≠ .linked →
    s.ow.orderwirePending = false ∧ s.ow.orderwireTransmitting = false

theorem cleanOutside_init : init.CleanOutside := ⟨outside_init, fun _ => ⟨rfl, rfl⟩⟩

theorem cleanOutside_step {s : SM} {op : Op} (h : s.CleanOutside) (he : s.EndsClean op) :
    (s.step op).CleanOutside := by
  refine ⟨outside_step h.outside op, fun hn => ?_⟩
  by_cases hc : s.currentState = .linked
  · have ho : (s.step op).ow = s.ow := leaves_ow (s := s.clearOut) (by
      intro heq
      exact hn (heq.trans hc))
    have hg : s.clearOut.trigger op = s.trigger op := by cases op <;> rfl
    rw [ho]
    exact he hc (hg ▸ trigger_endsLink (s := s.clearOut) hc hn)
  · have ho : (s.step op).ow = s.ow := exec_ow (s := s.clearOut) hc op
    rw [ho]
    exact h.clean hc

/-! ## On the link -/

section Link

variable {s : SM} {op : Op} {ws : List ALEWord} {d : Bool}

theorem unused_step (hc : s.currentState = .linked) (ho : s.control.Outside)
    (h : s.linkView.Unused) (hr : request op = none)
    (ht : (s.step op).currentState = .linked) : (s.step op).linkView.Unused := by
  have hm : s.clearOut.Moves op (s.step op).linkView :=
    exec_moves (s := s.clearOut) hc (preLink_ne_linked ho) op ht
  generalize (s.step op).linkView = v at hm ⊢
  cases hm with
  | tick now env _ ht => exact h.tick ht
  | complete => exact h.complete _
  | terminate =>
    exact ⟨h.pending, h.transmitting, h.phase, h.listenStart, h.retryPending,
      fun ht => absurd ht (by simp)⟩
  | trigger ws d _ => exact absurd hr (by simp [request])
  | send ws p n _ => exact absurd hr (by simp [request])
  | respond a ws ha _ => exact absurd hr (by simp [request, ha])
  | stay _ _ => exact h

/-- Until a request nothing is queued or on the air. -/
theorem unused_run (ho : s.control.Outside) (h : s.linkView.Unused) :
    ∀ {idle : List Op}, s.Stays idle → (∀ op ∈ idle, request op = none) →
      (Machine.run step s idle).linkView.Unused ∧
        (Machine.run step s idle).control.Outside := by
  intro idle
  induction idle generalizing s with
  | nil => exact fun _ _ => ⟨h, ho⟩
  | cons op idle ih =>
    intro hs hr
    have hu := unused_step hs.1 ho h (hr op List.mem_cons_self) hs.2.head
    exact ih (outside_step ho op) hu hs.2 (fun o hm => hr o (List.mem_cons_of_mem _ hm))

/-- The first request is taken. -/
theorem request_queued (hc : s.currentState = .linked) (h : s.linkView.Unused)
    (ht : s.link.linkedTerminating = false) (hr : request op = some (ws, d)) :
    (s.step op).linkView.Queued ws d ∧ (s.step op).link.linkedTerminating = false := by
  have hn : ¬ ¬ s.clearOut.orderwireOpen = true := by
    rw [orderwireOpen_of_linked (s := s.clearOut) hc]
    show ¬ ¬ (!s.link.linkedTerminating) = true
    rw [ht]
    decide
  unfold step
  cases op with
  | triggerLinkedOrderwire ws' d' =>
    obtain ⟨rfl, rfl⟩ := Prod.mk.inj (Option.some.inj hr)
    simp only [exec, triggerLinkedOrderwire, if_neg hn]
    exact ⟨⟨rfl, rfl, rfl, h.transmitting, h.drainStart ht⟩, ht⟩
  | sendLinkedAmd ws' p n =>
    obtain ⟨rfl, rfl⟩ := Prod.mk.inj (Option.some.inj hr)
    simp only [exec, sendLinkedAmd, if_neg hn]
    exact ⟨⟨rfl, rfl, rfl, h.transmitting, h.drainStart ht⟩, ht⟩
  | respondToLinkedAmd a ws' =>
    by_cases ha : a = []
    · rw [request, if_pos ha] at hr
      exact absurd hr (by simp)
    · rw [request, if_neg ha] at hr
      obtain ⟨rfl, rfl⟩ := Prod.mk.inj (Option.some.inj hr)
      simp only [exec, respondToLinkedAmd, if_neg hn, if_neg ha]
      exact ⟨⟨rfl, rfl, rfl, h.transmitting, h.drainStart ht⟩, ht⟩
  | _ => exact absurd hr (by simp [request])

theorem queued_step (hc : s.currentState = .linked) (ho : s.control.Outside)
    (ht : s.link.linkedTerminating = false) (h : s.linkView.Queued ws d) (hr : request op = none)
    (hu : ∀ t e, op ≠ .update t e) (ht' : (s.step op).currentState = .linked)
    (hn : (s.step op).link.linkedTerminating = false) : (s.step op).linkView.Queued ws d := by
  have hm : s.clearOut.Moves op (s.step op).linkView :=
    exec_moves (s := s.clearOut) hc (preLink_ne_linked ho) op ht'
  have hv : (s.step op).linkView.terminating = false := hn
  generalize (s.step op).linkView = v at hm hv ⊢
  cases hm with
  | tick now env _ _ => exact absurd rfl (hu now env)
  | complete => exact h.complete ht _
  | terminate => exact absurd hv (by simp)
  | trigger ws d _ => exact absurd hr (by simp [request])
  | send ws p n _ => exact absurd hr (by simp [request])
  | respond a ws ha _ => exact absurd hr (by simp [request, ha])
  | stay _ _ => exact h

/-- A queued orderwire stays queued until the next tick. -/
theorem queued_run (ho : s.control.Outside) (h : s.linkView.Queued ws d) :
    ∀ {wait : List Op}, Machine.AllStates step
        (fun s => s.currentState = .linked ∧ s.link.linkedTerminating = false) s wait →
      (∀ op ∈ wait, request op = none ∧ ∀ t e, op ≠ .update t e) →
      (Machine.run step s wait).linkView.Queued ws d ∧
        (Machine.run step s wait).control.Outside := by
  intro wait
  induction wait generalizing s with
  | nil => exact fun _ _ => ⟨h, ho⟩
  | cons op wait ih =>
    intro hs hr
    obtain ⟨hr1, hr2⟩ := hr op List.mem_cons_self
    have hq := queued_step hs.1.1 ho hs.1.2 h hr1 hr2 hs.2.head.1 hs.2.head.2
    exact ih (outside_step ho op) hq hs.2 (fun o hm => hr o (List.mem_cons_of_mem _ hm))

/-- **A queued orderwire is sent by the next tick that keeps the link.** -/
theorem queued_sent (hc : s.currentState = .linked) (ho : s.control.Outside)
    (ht : s.link.linkedTerminating = false) (h : s.linkView.Queued ws d) {now : UInt32} {env : Env}
    (hf : ¬ 0x80000000 ≤ now - s.currentTimeMs)
    (hs : (s.step (.update now env)).currentState = .linked) :
    (s.step (.update now env)).out = .rxEnabled false ::
      (let tx := ws ++ conclusion s.selfAddress false
       if d then tx ++ tx else tx).map (fun w => .transmit (w.stamp now)) := by
  obtain ⟨a, ha⟩ := update_startOrderwire (s := s.clearOut) env hc (preLink_ne_linked ho) ht
    h.transmitting h.pending h.drainStart hf hs
  show (s.clearOut.update now env).out = _
  rw [ha, startOrderwire_out]
  obtain rfl : s.ow.pendingOrderwireWords = ws := h.words
  obtain rfl : s.ow.orderwireDoubleBurst = d := h.double
  rfl

theorem sendsFirst_of_unused (ho : s.control.Outside) (h : s.linkView.Unused) :
    s.SendsFirst := by
  intro idle req ws d hs hi ht hr
  obtain ⟨hu, ho'⟩ := unused_run ho h hs hi
  obtain ⟨hq, hqt⟩ := request_queued hs.last hu ht hr
  refine ⟨⟨hq.pending, hq.words, hq.double⟩, ?_⟩
  intro wait now env hw hwr r hf hl
  obtain ⟨hq', hoq⟩ := queued_run (outside_step ho' req) hq hw hwr
  exact queued_sent hw.last.1 hoq hw.last.2 hq' hf hl

end Link

/-! ## Along a run -/

theorem isolated_of_clean {s : SM} (h : s.CleanOutside) (op : Op) : s.Isolated op := by
  intro he t
  obtain ⟨hp, hx⟩ := h.clean he.1
  have hv : t.linkView = LinkView.fresh t.peers s.ow := exec_fresh (s := s.clearOut) he.1 he.2
  have hu : t.linkView.Unused := by
    rw [hv]
    exact LinkView.fresh_unused hp hx
  have ho : t.control.Outside := outside_step h.outside op
  refine ⟨⟨hu.pending, hu.transmitting, hu.phase⟩, fun idle hs hi => ?_,
    sendsFirst_of_unused ho hu⟩
  obtain ⟨hr, -⟩ := unused_run ho hu hs hi
  exact ⟨hr.pending, hr.transmitting⟩

/-- **An orderwire belongs to its link**, in every run whose links end with no orderwire requested
or on the air. -/
theorem orderwire_isolated {as : List Op} (h : Machine.AllSteps step EndsClean init as) :
    Machine.AllSteps step Isolated init as :=
  (Machine.allStates_of_inv (fun _ _ hs he => cleanOutside_step hs he) cleanOutside_init h).allSteps
    fun _ op hs => isolated_of_clean hs op

/-- Two links, an orderwire sent on the first and drained before it ends. -/
def twoLinks : List Op :=
  [.processEvent .callDetected, .processEvent .handshakeComplete,
    .triggerLinkedOrderwire [] false, .update 1 {}, .onWordComplete,
    .processEvent .linkTerminated, .processEvent .callDetected,
    .processEvent .handshakeComplete]

theorem orderwire_isolated_twoLinks :
    Machine.AllSteps step EndsClean init twoLinks ∧ Machine.AllSteps step Isolated init twoLinks :=
  have h : Machine.AllSteps step EndsClean init twoLinks := by decide
  ⟨h, orderwire_isolated h⟩

/-- **An emergency stop takes a queued orderwire into the next link.** -/
theorem orderwire_not_isolated :
    ¬ ∀ as : List Op, Machine.AllSteps step Isolated init as := by
  intro h
  have hs := Machine.allSteps_iff.mp (h [.processEvent .callDetected,
    .processEvent .handshakeComplete, .triggerLinkedOrderwire [] false, .emergencyManualControl,
    .processEvent .callDetected, .processEvent .handshakeComplete])
    [.processEvent .callDetected, .processEvent .handshakeComplete,
      .triggerLinkedOrderwire [] false, .emergencyManualControl, .processEvent .callDetected]
    (.processEvent .handshakeComplete) [] rfl ⟨by decide, by decide⟩
  exact absurd hs.1.1 (by decide)

end SM

end OpenALE
