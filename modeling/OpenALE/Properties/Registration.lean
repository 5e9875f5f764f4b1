import OpenALE.Library.Machine
import OpenALE.Relay.Registration

/-!
# Registrations

Stations claim callsigns, the operator approves and revokes them. A station shows itself approved
by the status of the last answer it got; an answer may be lost. The relay says `already_approved`
to whoever registers a callsign that is approved, whatever the key.

Results:
* `agreed_iff`: a station that shows itself approved is so, exactly if no one registers a callsign
  approved under another key and none is revoked while shown.
* `agreed_fail`: a second claimant shows itself approved.
-/

namespace OpenALE.Relay

/-- The relay and the stations. -/
structure Registry where
  now : Int := 0
  ids : Identities := []
  seen : List (Str × Int) := []
  stations : Nat → Option Registrant := fun _ => none

/-- What can happen. -/
inductive RegistryOp where
  /-- The service of a station starts, with the key it found or made. -/
  | start (i : Nat) (callsign : Str) (key : PublicKey)
  | register (i : Nat) (arrives : Bool)
  | report (i later : Nat) (timestamp body : Str) (limit : Limit) (outcome : Outcome)
    (arrives : Bool)
  | approve (callsign : Str)
  | revoke (callsign : Str)

namespace Registry

variable (host : Host) (sign : PublicKey → Str → List UInt8)

/-- The station after an answer. -/
def hear (x : Registry) (i : Nat) (r : Registrant) (regState : RegState) : Registry :=
  { x with stations := Function.update x.stations i (some { r with regState }) }

/-- The relay's verdict on a report. -/
def attempt (x : Registry) (r : Registrant) (later : Nat) (timestamp body : Str) (limit : Limit) :
    Except Response Presented × List (Str × Int) :=
  admitIngest host (x.now + later) x.ids x.seen (signRelayRequest sign r timestamp body) limit

/-- One operation. -/
def step (x : Registry) : RegistryOp → Registry
  | .start i callsign key =>
    { x with stations := Function.update x.stations i (some { callsign, key }) }
  | .register i arrives =>
    match x.stations i with
    | none => x
    | some r =>
      let answered := handleRegister host x.ids r.callsign (Base64.encode r.key)
      let y := { x with ids := answered.2 }
      if arrives then y.hear i r (registered r.regState answered.1) else y
  | .report i later timestamp body limit outcome arrives =>
    match x.stations i with
    | none => x
    | some r =>
      let admitted := x.attempt host sign r later timestamp body limit
      let response := answerIngest admitted.1 outcome
      let y := { x with now := x.now + later, seen := admitted.2 }
      if arrives then y.hear i r (updateRegState r.regState response.status response.body) else y
  | .approve callsign =>
    { x with ids := x.ids.setStatus (host.toUpperCase (trim callsign)) "approved".toList }
  | .revoke callsign =>
    { x with ids := x.ids.setStatus (host.toUpperCase (trim callsign)) "revoked".toList }

/-! ## The property -/

/-- The relay holds an approved identity of the station's callsign and key. -/
def Holds (x : Registry) (r : Registrant) : Prop :=
  ∃ identity, x.ids.get (relayCallsign host r.callsign) = some identity ∧
    identity.status = "approved".toList ∧ Base64.decode identity.publicKey = r.key.1

/-- A station that shows itself approved is. -/
def Agreed (x : Registry) : Prop :=
  ∀ i r, x.stations i = some r → r.regState = .approved → x.Holds host r

/-- A report is accepted of an approved station only. -/
def Vetted (x : Registry) (op : RegistryOp) : Prop :=
  ∀ i later timestamp body limit outcome arrives r p,
    op = .report i later timestamp body limit outcome arrives → x.stations i = some r →
      (x.attempt host sign r later timestamp body limit).1 = .ok p → x.Holds host r

/-- No answer is told to the wrong claimant, and no one is revoked while it shows itself
approved. -/
def Keeps (x : Registry) : RegistryOp → Prop
  | .register i true => ∀ r identity, x.stations i = some r →
    validCallsign (relayCallsign host r.callsign) = true →
      x.ids.get (relayCallsign host r.callsign) = some identity →
        identity.status = "approved".toList → Base64.decode identity.publicKey = r.key.1
  | .revoke callsign => ∀ i r, x.stations i = some r →
    relayCallsign host r.callsign = host.toUpperCase (trim callsign) → r.regState ≠ .approved
  | _ => True

/-! ## The identities -/

theorem get_setStatus (ids : Identities) (callsign status key : Str) :
    (ids.setStatus callsign status).get key =
      (ids.get key).map fun identity =>
        if key = callsign then { identity with status } else identity := by
  unfold Identities.get Identities.setStatus
  induction ids with
  | nil => rfl
  | cons entry ids ih =>
    have hsame : (if entry.1 = callsign then (entry.1, { entry.2 with status }) else entry).1 =
        entry.1 := by
      split <;> rfl
    rw [List.map_cons]
    by_cases hkey : entry.1 = key
    · rw [List.find?_cons_of_pos (by rw [hsame]; exact decide_eq_true hkey)]
      rw [List.find?_cons_of_pos (by exact decide_eq_true hkey)]
      rw [← hkey, Option.map_some, Option.map_some, Option.map_some]
      split <;> rfl
    · rw [List.find?_cons_of_neg (by rw [hsame]; simpa using hkey)]
      rw [List.find?_cons_of_neg (by simpa using hkey)]
      exact ih

theorem get_insertPending {ids : Identities} {callsign publicKey key : Str} {identity : Identity}
    (h : ids.get key = some identity) :
    (ids.insertPending callsign publicKey).get key = some identity := by
  unfold Identities.get Identities.insertPending at *
  obtain ⟨entry, hfind, rfl⟩ := Option.map_eq_some_iff.mp h
  rw [List.find?_append, hfind]
  rfl

/-! ## Texts -/

theorem lt_or_lt_of_isSpace {c : Char} (h : isSpace c = true) : c < '+' ∨ 'z' < c := by
  unfold isSpace at h
  obtain h | h := (Bool.or_eq_true _ _).mp h
  · have hall : ∀ c ∈ ['\t', '\n', '\x0b', '\x0c', '\r', ' ', '\u00a0', '\u1680', '\u2028',
        '\u2029', '\u202f', '\u205f', '\u3000', '\ufeff'], c < '+' ∨ 'z' < c := by
      simp only [List.forall_mem_cons, List.not_mem_nil, false_implies, implies_true, and_true]
      refine ⟨?_, ?_, ?_, ?_, ?_, ?_, ?_, ?_, ?_, ?_, ?_, ?_, ?_, ?_⟩
      iterate 6 exact Or.inl (by decide)
      iterate 8 exact Or.inr (by decide)
    exact hall c (List.contains_iff_mem.mp h)
  · have hlow := of_decide_eq_true ((Bool.and_eq_true _ _).mp h).1
    exact Or.inr (lt_of_lt_of_le (by decide) hlow)

/-- A space is no character of an alphabet. -/
theorem value_isSpace {c : Char} (h : isSpace c = true) : Base64.value c = none := by
  have hnot : ∀ low high : Char, '+' ≤ low → high ≤ 'z' → ¬ (low ≤ c ∧ c ≤ high) := by
    rintro low high hlow hhigh ⟨hc, hc'⟩
    obtain h | h := lt_or_lt_of_isSpace h
    · exact absurd (hlow.trans hc) (not_le.mpr h)
    · exact absurd (hc'.trans hhigh) (not_le.mpr h)
  have hne : ∀ d : Char, '+' ≤ d → d ≤ 'z' → c ≠ d :=
    fun d hd hd' hc => hnot d d hd hd' ⟨hc.ge, hc.le⟩
  unfold Base64.value
  rw [if_neg (hnot 'A' 'Z' (by decide) (by decide)), if_neg (hnot 'a' 'z' (by decide) (by decide)),
    if_neg (hnot '0' '9' (by decide) (by decide))]
  rw [if_neg (not_or.mpr ⟨hne '+' (by decide) (by decide), hne '-' (by decide) (by decide)⟩),
    if_neg (not_or.mpr ⟨hne '/' (by decide) (by decide), hne '_' (by decide) (by decide)⟩)]

theorem filterMap_dropWhile_isSpace (text : Str) :
    (text.dropWhile isSpace).filterMap Base64.value = text.filterMap Base64.value := by
  induction text with
  | nil => rfl
  | cons c text ih =>
    by_cases hc : isSpace c = true
    · rw [List.dropWhile_cons_of_pos hc, ih, List.filterMap_cons_none (value_isSpace hc)]
    · rw [List.dropWhile_cons_of_neg hc]

/-- The spaces around a key say nothing. -/
theorem decode_trim (text : Str) : Base64.decode (trim text) = Base64.decode text := by
  unfold Base64.decode trim List.rdropWhile
  rw [List.filterMap_reverse, filterMap_dropWhile_isSpace, ← List.filterMap_reverse,
    List.reverse_reverse, filterMap_dropWhile_isSpace]

/-- The callsign a report presents is the one the relay knows the station by. -/
theorem matchAuthorization_eq {callsign matched : Str}
    (h : matchAuthorization ("Ed25519 ".toList ++ callsign) = some matched) :
    matched = trim callsign := by
  unfold matchAuthorization at h
  have hspace : isSpace ' ' = true := by decide +kernel
  have hdrop : (("Ed25519 ".toList ++ callsign).drop 7).dropWhile isSpace =
      callsign.dropWhile isSpace := by
    change (' ' :: callsign).dropWhile isSpace = _
    rw [List.dropWhile_cons_of_pos hspace]
  split at h
  · dsimp only at h
    rw [hdrop] at h
    split at h
    · rename_i hall
      obtain rfl := Option.some.inj h
      have hnone : ∀ c ∈ callsign.dropWhile isSpace, isSpace c = false := by
        intro c hc
        simpa using List.all_eq_true.mp hall.2.2 c hc
      unfold trim
      refine (List.rdropWhile_eq_self_iff.mpr fun hne => ?_).symm
      rw [hnone _ (List.getLast_mem hne)]
      exact Bool.false_ne_true
    · cases h
  · cases h

/-! ## The endpoints -/

/-- A signature that is taken is one by an approved key. -/
theorem checkSignature_ok {getIdentity : Str → Option Identity} {p : Presented} {rawBody : Str}
    (h : checkSignature host getIdentity p rawBody = .ok ()) :
    ∃ identity, getIdentity p.callsign = some identity ∧
      identity.status = "approved".toList ∧ (Base64.decode identity.publicKey).length = 32 ∧
      host.verify (Base64.decode identity.publicKey) (signedMessage p.timestamp rawBody)
        (Base64.decode p.signatureB64) = true := by
  unfold checkSignature at h
  split at h
  · cases h
  · rename_i identity hget
    split at h
    · cases h
    · split at h
      · cases h
      · split at h
        · cases h
        · rename_i happroved
          dsimp only at h
          split at h
          · cases h
          · rename_i hlength
            split at h
            · cases h
            · split at h
              · cases h
              · rename_i hverify
                refine ⟨identity, hget, not_not.mp happroved, not_not.mp hlength, ?_⟩
                exact Bool.eq_true_of_not_eq_false hverify

/-- What the headers of a station's report bring. -/
theorem checkHeaders_signRelayRequest {now : Int} {r : Registrant} {timestamp body : Str}
    {p : Presented}
    (h : checkHeaders host now (signRelayRequest sign r timestamp body) = .ok p) :
    p.callsign = relayCallsign host r.callsign ∧
      Base64.decode p.signatureB64 = sign r.key (signedMessage timestamp body) := by
  unfold checkHeaders signRelayRequest at h
  dsimp only [Option.getD_some] at h
  split at h
  · cases h
  · rename_i matched hmatched
    split at h
    · cases h
    · cases h
    · split at h
      · cases h
      · split at h
        · cases h
        · obtain rfl := Except.ok.inj h
          dsimp only
          rw [matchAuthorization_eq hmatched, Base64.decode_encode]
          exact ⟨rfl, rfl⟩

/-- **A report that is let through** is one of an approved station. -/
theorem holds_of_admitted
    (hverify : ∀ (k k' : PublicKey) (m m' : Str), host.verify k.1 m (sign k' m') = true → k = k')
    {x : Registry} {r : Registrant} {later : Nat} {timestamp body : Str} {limit : Limit}
    {p : Presented} (h : (x.attempt host sign r later timestamp body limit).1 = .ok p) :
    x.Holds host r := by
  unfold attempt admitIngest verifyEd25519Auth at h
  dsimp only at h
  split at h
  · cases h
  · split at h
    · cases h
    · cases h
    · cases hheaders : checkHeaders host (x.now + later) (signRelayRequest sign r timestamp body) with
      | error reason =>
        rw [hheaders] at h
        cases h
      | ok q =>
        obtain ⟨hcallsign, hsignature⟩ := checkHeaders_signRelayRequest host sign hheaders
        rw [hheaders] at h
        dsimp only at h
        split at h
        · rename_i q' seen hverified
          split at hverified
          · cases hverified
          · split at hverified
            · cases hverified
            · rename_i hok
              obtain ⟨identity, hget, happroved, hlength, htrue⟩ := checkSignature_ok host hok
              rw [hsignature] at htrue
              have hkey := hverify ⟨Base64.decode identity.publicKey, hlength⟩ r.key _ _ htrue
              exact ⟨identity, hcallsign ▸ hget, happroved, congrArg Subtype.val hkey⟩
        · cases h

theorem registered_pending (state : RegState) {response : Response}
    (h : response.status = 201 ∨ response.status = 200) : registered state response = .pending := by
  unfold registered
  rw [if_pos h]
  cases state <;> decide +kernel

theorem registered_revoked (state : RegState) :
    registered state ⟨409, jsonField "error" "revoked"⟩ = .revoked := by
  cases state <;> decide +kernel

theorem registered_already_approved (state : RegState) :
    registered state ⟨409, jsonField "error" "already_approved"⟩ = .approved := by
  cases state <;> decide +kernel

/-- A registration is answered by a success or a conflict exactly of a known callsign. -/
theorem handleRegister_cases (ids : Identities) (callsign publicKey : Str) :
    ((handleRegister host ids callsign publicKey).2 = ids ∨
        (handleRegister host ids callsign publicKey).2 =
          ids.insertPending (relayCallsign host callsign) (trim publicKey)) ∧
      ∀ state, registered state (handleRegister host ids callsign publicKey).1 = .approved →
        state = .approved ∨ ∃ identity, ids.get (relayCallsign host callsign) = some identity ∧
          identity.status = "approved".toList ∧
          validCallsign (relayCallsign host callsign) = true ∧
          (handleRegister host ids callsign publicKey).2 = ids := by
  unfold handleRegister
  dsimp only
  split
  · exact ⟨Or.inl rfl, fun state h => Or.inl h⟩
  · rename_i hvalid
    split
    · exact ⟨Or.inl rfl, fun state h => Or.inl h⟩
    · split
      · rename_i identity hget
        split
        · rename_i happroved
          refine ⟨Or.inl rfl, fun state _ => Or.inr ⟨identity, hget, happroved, ?_, rfl⟩⟩
          exact Bool.eq_true_of_not_eq_false hvalid
        · split
          · refine ⟨Or.inl rfl, fun state h => ?_⟩
            rw [registered_pending state (Or.inr rfl)] at h
            cases h
          · refine ⟨Or.inl rfl, fun state h => ?_⟩
            rw [registered_revoked] at h
            cases h
      · refine ⟨Or.inr rfl, fun state h => ?_⟩
        rw [registered_pending state (Or.inl rfl)] at h
        cases h

/-- A registration for an approved callsign is a conflict, whatever the key. -/
theorem registered_of_approved {ids : Identities} {callsign : Str} (key : PublicKey)
    {identity : Identity} (hvalid : validCallsign (relayCallsign host callsign) = true)
    (hget : ids.get (relayCallsign host callsign) = some identity)
    (happroved : identity.status = "approved".toList) (state : RegState) :
    registered state (handleRegister host ids callsign (Base64.encode key)).1 = .approved ∧
      (handleRegister host ids callsign (Base64.encode key)).2 = ids := by
  unfold handleRegister
  dsimp only
  rw [if_neg (by rw [hvalid]; exact Bool.true_eq_false.mp), decode_trim,
    Base64.decode_encode, if_neg (not_not.mpr key.2), hget]
  dsimp only
  rw [if_pos happroved]
  exact ⟨registered_already_approved state, rfl⟩

/-- An answer that makes a station approved is a success or a duplicate. -/
theorem updateRegState_approved {state : RegState} {status : Nat} {body : Str}
    (h : updateRegState state status body = .approved) :
    state = .approved ∨ (200 ≤ status ∧ status < 300) ∨ status = 409 := by
  unfold updateRegState at h
  split at h
  · rename_i hsuccess
    exact Or.inr (Or.inl hsuccess)
  · split at h
    · rename_i hconflict
      exact Or.inr (Or.inr hconflict)
    · split at h
      · cases h
      · split at h
        · cases h
        · split at h
          · cases h
          · exact Or.inl h

/-- A refusal is neither. -/
theorem admitIngest_error {now : Int} {ids : Identities} {seen : List (Str × Int)}
    {req : SignedRequest} {limit : Limit} {response : Response}
    (h : (admitIngest host now ids seen req limit).1 = .error response) :
    ¬ (200 ≤ response.status ∧ response.status < 300) ∧ response.status ≠ 409 := by
  unfold admitIngest at h
  dsimp only at h
  split at h
  · obtain rfl := Except.error.inj h
    decide
  · split at h
    · obtain rfl := Except.error.inj h
      decide
    · obtain rfl := Except.error.inj h
      decide
    · split at h
      · cases h
      · obtain rfl := Except.error.inj h
        dsimp only
        split <;> decide

/-! ## The invariant -/

variable {host sign}

/-- What holds of a station does not depend on the others. -/
theorem holds_of_get {x y : Registry} {r : Registrant} (h : x.Holds host r)
    (hget : ∀ identity, x.ids.get (relayCallsign host r.callsign) = some identity →
      identity.status = "approved".toList →
        ∃ status, status = "approved".toList ∧
          y.ids.get (relayCallsign host r.callsign) = some { identity with status }) :
    y.Holds host r := by
  obtain ⟨identity, hsome, happroved, hkey⟩ := h
  obtain ⟨status, hstatus, hsome'⟩ := hget identity hsome happroved
  exact ⟨_, hsome', hstatus, hkey⟩

/-- Agreement when one station hears an answer. -/
theorem agreed_hear {x y : Registry} {i : Nat} {r : Registrant} {state : RegState}
    (h : x.Agreed host) (hstations : y.stations = x.stations)
    (hholds : ∀ r, x.Holds host r → y.Holds host r)
    (hr : state = .approved → y.Holds host r) : (y.hear i r state).Agreed host := by
  intro j s hs happroved
  unfold hear at hs
  dsimp only at hs
  by_cases hji : j = i
  · subst hji
    rw [Function.update_self] at hs
    obtain rfl := Option.some.inj hs
    exact hr happroved
  · rw [Function.update_of_ne hji, hstations] at hs
    exact hholds s (h j s hs happroved)

/-- The relay's part of a registration takes nothing away. -/
theorem holds_register {x : Registry} {callsign publicKey : Str} {r : Registrant}
    (h : x.Holds host r) :
    Holds host { x with ids := (handleRegister host x.ids callsign publicKey).2 } r := by
  refine holds_of_get h fun identity hget happroved => ⟨_, happroved, ?_⟩
  obtain hids | hids := (handleRegister_cases host x.ids callsign publicKey).1
  · dsimp only
    rw [hids]
    exact hget
  · dsimp only
    rw [hids]
    exact get_insertPending hget

/-- **One operation** that keeps keeps the agreement. -/
theorem agreed_step
    (hverify : ∀ (k k' : PublicKey) (m m' : Str), host.verify k.1 m (sign k' m') = true → k = k')
    {x : Registry} {op : RegistryOp} (h : x.Agreed host) (hop : x.Keeps host op) :
    (x.step host sign op).Agreed host := by
  cases op with
  | start i callsign key =>
    intro j r hr happroved
    unfold step at hr
    dsimp only at hr
    by_cases hji : j = i
    · subst hji
      rw [Function.update_self] at hr
      obtain rfl := Option.some.inj hr
      cases happroved
    · rw [Function.update_of_ne hji] at hr
      exact h j r hr happroved
  | register i arrives =>
    unfold step
    dsimp only
    split
    · exact h
    · rename_i r hr
      cases arrives with
      | false =>
        intro j s hs happroved
        exact holds_register (h j s hs happroved)
      | true =>
        refine agreed_hear h rfl (fun _ => holds_register) fun happroved => ?_
        obtain hstate | ⟨identity, hget, hidentity, hvalid, hids⟩ :=
          (handleRegister_cases host x.ids r.callsign (Base64.encode r.key)).2 _ happroved
        · exact holds_register (h i r hr hstate)
        · have hkey := hop r identity hr hvalid hget hidentity
          exact holds_register ⟨identity, hget, hidentity, hkey⟩
  | report i later timestamp body limit outcome arrives =>
    unfold step
    dsimp only
    split
    · exact h
    · rename_i r hr
      cases arrives with
      | false => exact h
      | true =>
        refine agreed_hear h rfl (fun _ hs => hs) fun happroved => ?_
        obtain hstate | hstatus := updateRegState_approved happroved
        · exact h i r hr hstate
        · cases hadmitted : (x.attempt host sign r later timestamp body limit).1 with
          | ok p =>
            have hholds := holds_of_admitted host sign hverify hadmitted
            exact holds_of_get hholds fun identity hget hidentity => ⟨_, hidentity, hget⟩
          | error response =>
            rw [hadmitted] at hstatus
            obtain ⟨hsuccess, hconflict⟩ := admitIngest_error host hadmitted
            exact absurd hstatus (not_or.mpr ⟨hsuccess, hconflict⟩)
  | approve callsign =>
    intro j r hr happroved
    refine holds_of_get (h j r hr happroved) fun identity hget hidentity => ⟨_, rfl, ?_⟩
    refine (get_setStatus _ _ _ _).trans ?_
    rw [hget, Option.map_some, ← hidentity]
    split <;> rfl
  | revoke callsign =>
    intro j r hr happroved
    have hne := fun he => hop j r hr he happroved
    refine holds_of_get (h j r hr happroved) fun identity hget hidentity => ⟨_, hidentity, ?_⟩
    refine (get_setStatus _ _ _ _).trans ?_
    rw [hget, Option.map_some, if_neg hne]

/-- The agreement is lost with an operation that does not keep it. -/
theorem not_agreed {x : Registry} {op : RegistryOp} (hop : ¬ x.Keeps host op) :
    ¬ (x.step host sign op).Agreed host := by
  intro hagreed
  cases op with
  | start i callsign key => exact hop trivial
  | report i later timestamp body limit outcome arrives => exact hop trivial
  | approve callsign => exact hop trivial
  | register i arrives =>
    cases arrives with
    | false => exact hop trivial
    | true =>
      refine hop fun r identity hr hvalid hget happroved => ?_
      obtain ⟨hstate, hids⟩ :=
        registered_of_approved host r.key hvalid hget happroved r.regState
      have hshown : (x.step host sign (.register i true)).stations i =
          some { r with regState := .approved } := by
        unfold step hear
        dsimp only
        rw [hr]
        dsimp only
        rw [if_pos rfl]
        dsimp only
        rw [Function.update_self, hstate]
      have hids' : (x.step host sign (.register i true)).ids = x.ids := by
        unfold step hear
        dsimp only
        rw [hr]
        dsimp only
        rw [if_pos rfl]
        exact hids
      obtain ⟨identity', hget', -, hkey⟩ := hagreed i _ hshown rfl
      rw [hids', hget] at hget'
      obtain rfl := Option.some.inj hget'
      exact hkey
  | revoke callsign =>
    refine hop fun i r hr hcallsign happroved => ?_
    obtain ⟨identity, hget, hstatus, -⟩ := hagreed i r hr happroved
    have hget' := (get_setStatus x.ids (host.toUpperCase (trim callsign)) "revoked".toList
      (relayCallsign host r.callsign)).symm.trans hget
    obtain ⟨before, -, rfl⟩ := Option.map_eq_some_iff.mp hget'
    rw [if_pos hcallsign] at hstatus
    have hne : "revoked".toList ≠ "approved".toList := by decide
    exact hne hstatus

/-- **Stations and relay agree**, and only reports of approved stations are accepted, exactly along
the runs without a second claimant of an approved callsign and without a revocation of a station
that shows itself approved. -/
theorem agreed_iff (host : Host) (sign : PublicKey → Str → List UInt8)
    (hverify : ∀ (k k' : PublicKey) (m m' : Str), host.verify k.1 m (sign k' m') = true → k = k')
    (now : Int) (ids : Identities) (seen : List (Str × Int)) (ops : List RegistryOp) :
    Machine.AllStates (step host sign) (Agreed host) { now, ids, seen } ops ∧
        Machine.AllSteps (step host sign) (Vetted host sign) { now, ids, seen } ops ↔
      Machine.AllSteps (step host sign) (Keeps host) { now, ids, seen } ops := by
  have h0 : Agreed host { now, ids, seen } := by
    intro i r hr
    cases hr
  refine Machine.allStates_and_allSteps_iff (fun _ _ => agreed_step hverify) (fun _ h => h)
    (fun x op _ _ => ?_) (fun x op _ hop hagreed => ?_) h0
  · intro i later timestamp body limit outcome arrives r p _ _ hadmitted
    exact holds_of_admitted host sign hverify hadmitted
  · exact absurd hagreed (not_agreed hop)

/-! ## A second claimant -/

/-- A platform whose signature is the key and the message. -/
def claimHost : Host where
  parseDate _ := some 0
  toUpperCase := id
  importsKey _ := true
  verify key message signature := signature = key ++ message.map fun c => UInt8.ofNat c.toNat

/-- Its `ed25519_sign`. -/
def claimSign (key : PublicKey) (message : Str) : List UInt8 :=
  key.1 ++ message.map fun c => UInt8.ofNat c.toNat

/-- A key of one repeated byte. -/
def repeatedKey (byte : UInt8) : PublicKey := ⟨List.replicate 32 byte, List.length_replicate⟩

/-- Station 0 registers `AB` and is approved; station 1 registers `AB` with another key. -/
def claims : List RegistryOp :=
  [.start 0 ['A', 'B'] (repeatedKey 1), .register 0 true, .approve ['A', 'B'],
    .start 1 ['A', 'B'] (repeatedKey 2), .register 1 true]

theorem claimSign_verify (k k' : PublicKey) (m m' : Str)
    (h : claimHost.verify k.1 m (claimSign k' m') = true) : k = k' := by
  have happend := of_decide_eq_true h
  exact Subtype.ext (List.append_inj happend (k'.2.trans k.2.symm)).1.symm

/-- The agreement along the first claim, to which the relay stays true. -/
theorem agreed_iff_first :
    Machine.AllStates (step claimHost claimSign) (Agreed claimHost) {} (claims.take 3) ∧
        Machine.AllSteps (step claimHost claimSign) (Vetted claimHost claimSign) {}
          (claims.take 3) ↔
      Machine.AllSteps (step claimHost claimSign) (Keeps claimHost) {} (claims.take 3) :=
  agreed_iff claimHost claimSign claimSign_verify 0 [] [] (claims.take 3)

/-- The second claimant shows itself approved under a key the relay does not know. -/
theorem agreed_fail : ¬ ∀ (host : Host) (sign : PublicKey → Str → List UInt8),
    (∀ (k k' : PublicKey) (m m' : Str), host.verify k.1 m (sign k' m') = true → k = k') →
      ∀ ops, Machine.AllStates (step host sign) (Agreed host) {} ops := by
  intro h
  have hlast := (h claimHost claimSign claimSign_verify claims).last
  have hstation : (Machine.run (step claimHost claimSign) {} claims).stations 1 =
      some ⟨['A', 'B'], repeatedKey 2, .approved⟩ := by
    rfl
  have hfirst : (Machine.run (step claimHost claimSign) {} claims).ids.get ['A', 'B'] =
      some ⟨trim (Base64.encode (repeatedKey 1).1), "approved".toList⟩ := by
    rfl
  obtain ⟨identity, hget, -, hkey⟩ := hlast 1 _ hstation rfl
  have hcallsign : relayCallsign claimHost ['A', 'B'] = ['A', 'B'] := by decide
  rw [hcallsign, hfirst] at hget
  obtain rfl := Option.some.inj hget
  rw [decode_trim, Base64.decode_encode] at hkey
  exact absurd hkey (by decide)

end Registry

end OpenALE.Relay
