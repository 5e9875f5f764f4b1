import OpenALE.Library.Machine
import OpenALE.Relay.Auth

/-!
# Replayed requests

A request is signed with its time and tolerated for five minutes before and after it. The guard
remembers the text of the signature for five minutes from the time of acceptance.

Results:
* `replay_guarded_iff`: no request is accepted twice exactly if each repetition that is still
  tolerated brings the signature in a text accepted not more than five minutes ago.
* `replay_guarded_fail`: the padding left away, a request is accepted again.
-/

namespace OpenALE.Relay

/-- A request that was accepted. -/
structure Acceptance where
  presented : Presented
  rawBody : Str
  time : Int
  deriving Repr, DecidableEq

/-- The verification over time, with what it accepted. -/
structure Guard where
  now : Int := 0
  seen : List (Str × Int) := []
  accepted : List Acceptance := []

/-- A request that comes `later` milliseconds after the last one, to the identities there are. -/
structure Arrival where
  later : Nat
  getIdentity : Str → Option Identity
  req : SignedRequest

namespace Guard

variable (host : Host)

/-- One request. -/
def step (x : Guard) (a : Arrival) : Guard :=
  let now := x.now + a.later
  let verified := verifyEd25519Auth host now a.getIdentity x.seen a.req
  { now, seen := verified.2
    accepted := match verified.1 with
      | .ok presented => x.accepted ++ [{ presented, rawBody := a.req.rawBody, time := now }]
      | .error _ => x.accepted }

/-! ## The property -/

/-- One and the same request: callsign, timestamp and body. -/
def Same (a : Acceptance) (p : Presented) (rawBody : Str) : Prop :=
  a.presented.callsign = p.callsign ∧ a.presented.timestamp = p.timestamp ∧ a.rawBody = rawBody

/-- No request was accepted twice. -/
def NoReplay (x : Guard) : Prop :=
  x.accepted.Pairwise fun a b => ¬ Same a b.presented b.rawBody

/-- A repetition that the headers' checks and the signature would let through brings a signature
text that was accepted within `MAX_SKEW_MS`. -/
def Guarded (x : Guard) (a : Arrival) : Prop :=
  ∀ p, checkHeaders host (x.now + a.later) a.req = .ok p →
    checkSignature host a.getIdentity p a.req.rawBody = .ok () →
      (∃ b ∈ x.accepted, Same b p a.req.rawBody) →
        ∃ b ∈ x.accepted, replayKey b.presented = replayKey p ∧
          x.now + a.later ≤ b.time + maxSkewMs

/-! ## The map of seen signatures -/

/-- The map is what was accepted, up to what has expired. -/
structure Inv (x : Guard) : Prop where
  once : x.NoReplay
  past : ∀ b ∈ x.accepted, b.time ≤ x.now
  sound : ∀ entry ∈ x.seen, ∃ b ∈ x.accepted,
    replayKey b.presented = entry.1 ∧ b.time + maxSkewMs = entry.2
  complete : ∀ b ∈ x.accepted, x.now ≤ b.time + maxSkewMs →
    (replayKey b.presented, b.time + maxSkewMs) ∈ x.seen

/-- The map holds a key after its sweep exactly if it was accepted within `MAX_SKEW_MS`. -/
theorem seen_iff {x : Guard} (h : x.Inv) (later : Nat) (key : Str) :
    (sweepSeen (x.now + later) x.seen).any (·.1 = key) = true ↔
      ∃ b ∈ x.accepted, replayKey b.presented = key ∧ x.now + later ≤ b.time + maxSkewMs := by
  rw [List.any_eq_true]
  constructor
  · rintro ⟨entry, hentry, hkey⟩
    obtain ⟨hmem, hlive⟩ := List.mem_filter.mp hentry
    obtain ⟨b, hb, hb1, hb2⟩ := h.sound entry hmem
    have hlive' := of_decide_eq_true hlive
    refine ⟨b, hb, hb1.trans (of_decide_eq_true hkey), ?_⟩
    rw [hb2]
    exact Int.not_lt.mp hlive'
  · rintro ⟨b, hb, hkey, hlive⟩
    refine ⟨_, List.mem_filter.mpr ⟨h.complete b hb (by omega), ?_⟩, decide_eq_true hkey⟩
    exact decide_eq_true (Int.not_lt.mpr hlive)

/-- What one request does: it is refused, or it is accepted with a key that no live entry has. -/
theorem step_cases {x : Guard} (h : x.Inv) (a : Arrival) :
    ((step host x a).accepted = x.accepted ∧
        ((step host x a).seen = x.seen ∨
          (step host x a).seen = sweepSeen (x.now + a.later) x.seen)) ∨
      ∃ p, checkHeaders host (x.now + a.later) a.req = .ok p ∧
        checkSignature host a.getIdentity p a.req.rawBody = .ok () ∧
        (¬ ∃ b ∈ x.accepted, replayKey b.presented = replayKey p ∧
          x.now + a.later ≤ b.time + maxSkewMs) ∧
        (step host x a).accepted =
          x.accepted ++ [{ presented := p, rawBody := a.req.rawBody, time := x.now + a.later }] ∧
        (step host x a).seen = sweepSeen (x.now + a.later) x.seen ++
          [(replayKey p, x.now + a.later + maxSkewMs)] := by
  unfold step verifyEd25519Auth
  dsimp only
  cases hheaders : checkHeaders host (x.now + a.later) a.req with
  | error reason => exact Or.inl ⟨rfl, Or.inl rfl⟩
  | ok p =>
    dsimp only
    by_cases hseen : (sweepSeen (x.now + a.later) x.seen).any (·.1 = replayKey p) = true
    · rw [if_pos hseen]
      exact Or.inl ⟨rfl, Or.inr rfl⟩
    · rw [if_neg hseen]
      cases hsign : checkSignature host a.getIdentity p a.req.rawBody with
      | error reason => exact Or.inl ⟨rfl, Or.inr rfl⟩
      | ok u =>
        refine Or.inr ⟨p, rfl, hsign, ?_, rfl, rfl⟩
        rw [← seen_iff h]
        exact hseen

/-- Letting time pass and sweeping keep the map. -/
theorem inv_sweep {x : Guard} (h : x.Inv) (later : Nat) :
    (∀ b ∈ x.accepted, b.time ≤ x.now + later) ∧
      (∀ entry ∈ sweepSeen (x.now + later) x.seen, ∃ b ∈ x.accepted,
        replayKey b.presented = entry.1 ∧ b.time + maxSkewMs = entry.2) ∧
      ∀ b ∈ x.accepted, x.now + later ≤ b.time + maxSkewMs →
        (replayKey b.presented, b.time + maxSkewMs) ∈ sweepSeen (x.now + later) x.seen := by
  refine ⟨fun b hb => ?_, fun entry hentry => ?_, fun b hb hlive => ?_⟩
  · have hpast := h.past b hb
    omega
  · exact h.sound entry (List.mem_of_mem_filter hentry)
  · refine List.mem_filter.mpr ⟨h.complete b hb (by omega), ?_⟩
    exact decide_eq_true (Int.not_lt.mpr hlive)

/-- **One request that is guarded** keeps the map, and that nothing was accepted twice. -/
theorem inv_step {x : Guard} {a : Arrival} (h : x.Inv) (ha : Guarded host x a) :
    (step host x a).Inv := by
  obtain ⟨hpast, hsound, hcomplete⟩ := inv_sweep h a.later
  obtain ⟨haccepted, hseen⟩ | ⟨p, hheaders, hsign, hnew, haccepted, hseen⟩ := step_cases host h a
  · refine ⟨?_, ?_, ?_, ?_⟩
    · unfold NoReplay
      rw [haccepted]
      exact h.once
    · rw [haccepted]
      exact hpast
    · rw [haccepted]
      obtain hseen | hseen := hseen
      · rw [hseen]
        exact h.sound
      · rw [hseen]
        exact hsound
    · rw [haccepted]
      intro b hb hlive
      have hmem := hcomplete b hb hlive
      obtain hseen | hseen := hseen
      · rw [hseen]
        exact List.mem_of_mem_filter hmem
      · rw [hseen]
        exact hmem
  · have hsame : ¬ ∃ b ∈ x.accepted, Same b p a.req.rawBody :=
      fun hs => hnew (ha p hheaders hsign hs)
    refine ⟨?_, ?_, ?_, ?_⟩
    · unfold NoReplay
      rw [haccepted, List.pairwise_append]
      refine ⟨h.once, List.pairwise_singleton _ _, fun b hb c hc hs => ?_⟩
      rw [List.mem_singleton.mp hc] at hs
      exact hsame ⟨b, hb, hs⟩
    · rw [haccepted]
      intro b hb
      obtain hb | hb := List.mem_append.mp hb
      · exact hpast b hb
      · rw [List.mem_singleton.mp hb]
        exact le_refl _
    · rw [haccepted, hseen]
      intro entry hentry
      obtain hentry | hentry := List.mem_append.mp hentry
      · obtain ⟨b, hb, hkey⟩ := hsound entry hentry
        exact ⟨b, List.mem_append_left _ hb, hkey⟩
      · rw [List.mem_singleton.mp hentry]
        exact ⟨_, List.mem_append_right _ (List.mem_singleton.mpr rfl), rfl, rfl⟩
    · rw [haccepted, hseen]
      intro b hb hlive
      obtain hb | hb := List.mem_append.mp hb
      · exact List.mem_append_left _ (hcomplete b hb hlive)
      · rw [List.mem_singleton.mp hb]
        exact List.mem_append_right _ (List.mem_singleton.mpr rfl)

/-- A repetition that is not guarded is accepted. -/
theorem not_guarded {x : Guard} {a : Arrival} (h : x.Inv) (ha : ¬ Guarded host x a) :
    ¬ (step host x a).NoReplay := by
  unfold Guarded at ha
  push Not at ha
  obtain ⟨p, hheaders, hsign, ⟨b, hb, hsame⟩, hlive⟩ := ha
  have hunseen : ¬ (sweepSeen (x.now + a.later) x.seen).any (·.1 = replayKey p) = true := by
    rw [seen_iff h]
    rintro ⟨c, hc, hkey, hle⟩
    exact absurd hle (Int.not_le.mpr (hlive c hc hkey))
  have haccepted : (step host x a).accepted =
      x.accepted ++ [{ presented := p, rawBody := a.req.rawBody, time := x.now + a.later }] := by
    unfold step verifyEd25519Auth
    dsimp only
    rw [hheaders]
    dsimp only
    rw [if_neg hunseen, hsign]
  intro hno
  unfold NoReplay at hno
  rw [haccepted, List.pairwise_append] at hno
  exact hno.2.2 b hb _ (List.mem_singleton.mpr rfl) hsame

/-- **Nothing is accepted twice** exactly along the runs whose repetitions are guarded, whatever the
clock does between them and whoever is approved. -/
theorem replay_guarded_iff (now : Int) (arrivals : List Arrival) :
    Machine.AllStates (step host) NoReplay { now } arrivals ↔
      Machine.AllSteps (step host) (Guarded host) { now } arrivals := by
  have h0 : Inv { now } := by
    refine ⟨List.Pairwise.nil, fun b hb => ?_, fun entry hentry => ?_, fun b hb => ?_⟩
    · cases hb
    · cases hentry
    · cases hb
  exact Machine.allStates_iff_allSteps (fun _ _ => inv_step host) (fun _ h => h.once)
    (fun _ _ => not_guarded host) h0

/-! ## A request accepted again -/

/-- A platform with one date and, for each key and message, one signature: the key's first byte
and the message. -/
def sampleHost : Host where
  parseDate _ := some 0
  toUpperCase := id
  importsKey _ := true
  verify key message signature :=
    signature = key.take 1 ++ message.map fun c => UInt8.ofNat c.toNat

/-- The request `{}` of `AB` at the time `0`, with its signature in the given text. -/
def sampleArrival (signatureB64 : String) : Arrival where
  later := 0
  getIdentity callsign :=
    if callsign = ['A', 'B'] then
      some ⟨List.replicate 43 'A' ++ ['='], "approved".toList⟩
    else none
  req :=
    { authorization := some "Ed25519 AB".toList, xTimestamp := some ['0']
      xSignature := some signatureB64.toList, rawBody := ['\x7b', '\x7d'] }

/-- The padding left away, the signature is the same and its text is another. -/
theorem replay_guarded_fail : ¬ ∀ (host : Host) (now : Int) (arrivals : List Arrival),
    Machine.AllStates (step host) NoReplay { now } arrivals := by
  intro h
  have hlast := (h sampleHost 0 [sampleArrival "ADAKe30=", sampleArrival "ADAKe30"]).last
  revert hlast
  unfold NoReplay Same
  decide +kernel

end Guard

end OpenALE.Relay
