import OpenALE.Library.Search
import OpenALE.Relay.Auth

/-!
# Registration

Model of the identities of the relay (`identities.js`, `admin-cli.js`), of its endpoints `register`
and `locations` up to the verdict on the signature (`server.js`), and of the station's side
(`LocationRelayService`, `sign_relay_request`).

* What an ingest answers behind the signature, the limit of its rate and a body too large is the
  argument `outcome`.
* A callsign has no character that JSON escapes, so the body of a registration is read as written.
* A key pair is known by its public key; `sign` is `ed25519_sign`.
-/

namespace OpenALE.Relay

/-! ## The identities -/

/-- The table `identities`. -/
abbrev Identities := List (Str × Identity)

/-- `getIdentity`. -/
def Identities.get (ids : Identities) (callsign : Str) : Option Identity :=
  (ids.find? (·.1 = callsign)).map Prod.snd

/-- `insertPendingIdentity`. -/
def Identities.insertPending (ids : Identities) (callsign publicKey : Str) : Identities :=
  ids ++ [(callsign, ⟨publicKey, "pending".toList⟩)]

/-- An update of a status: `approveIdentity` and `revokeIdentity`. -/
def Identities.setStatus (ids : Identities) (callsign status : Str) : Identities :=
  ids.map fun entry => if entry.1 = callsign then (entry.1, { entry.2 with status }) else entry

/-! ## The relay -/

/-- What a request is answered. -/
structure Response where
  status : Nat
  body : Str
  deriving Repr, DecidableEq

/-- The JSON text of an object of one field. -/
def jsonField (key val : String) : Str :=
  '\x7b' :: '"' :: key.toList ++ '"' :: ':' :: '"' :: val.toList ++ ['"', '\x7d']

/-- The JSON text of a refused signature. -/
def jsonUnauthorized (reason : String) : Str :=
  '\x7b' :: "\"error\":\"unauthorized\",\"reason\":\"".toList ++ reason.toList ++ ['"', '\x7d']

/-- `trim`. -/
def trim (text : Str) : Str := (text.dropWhile isSpace).rdropWhile isSpace

/-- `CALLSIGN_RE`. -/
def validCallsign (callsign : Str) : Bool :=
  2 ≤ callsign.length && callsign.length ≤ 16 &&
    callsign.all fun c => ('A' ≤ c && c ≤ 'Z') || ('0' ≤ c && c ≤ '9') || c = '/'

/-- The callsign under which the relay knows a station. -/
def relayCallsign (host : Host) (callsign : Str) : Str := host.toUpperCase (trim callsign)

/-- `handleRegister`. -/
def handleRegister (host : Host) (ids : Identities) (callsign publicKey : Str) :
    Response × Identities :=
  let callsign := relayCallsign host callsign
  let publicKeyB64 := trim publicKey
  if validCallsign callsign = false then (⟨422, jsonField "error" "invalid callsign"⟩, ids)
  else if (Base64.decode publicKeyB64).length ≠ 32 then
    (⟨422, jsonField "error" "public_key must be a base64-encoded 32-byte Ed25519 key"⟩, ids)
  else
    match ids.get callsign with
    | some existing =>
      if existing.status = "approved".toList then
        (⟨409, jsonField "error" "already_approved"⟩, ids)
      else if existing.status = "pending".toList then (⟨200, jsonField "status" "pending"⟩, ids)
      else (⟨409, jsonField "error" "revoked"⟩, ids)
    | none =>
      (⟨201, jsonField "status" "pending"⟩, ids.insertPending callsign publicKeyB64)

/-- The text of a `reason`. -/
def Refusal.reason : Refusal → String
  | .missingAuthHeader => "missing_auth_header"
  | .missingSignatureHeaders => "missing_signature_headers"
  | .invalidTimestamp => "invalid_timestamp"
  | .staleTimestamp => "stale_timestamp"
  | .replay => "replay"
  | .unknownCallsign => "unknown_callsign"
  | .pendingApproval => "pending_approval"
  | .revoked => "revoked"
  | .notApproved => "not_approved"
  | .malformedPublicKey => "malformed_public_key"
  | .badSignature => "bad_signature"

/-- What becomes of a report whose signature is verified. -/
inductive Outcome where
  | created | duplicate | unprocessable | observerMismatch | storageError
  deriving Repr, DecidableEq

/-- Its answer, the row's id left out. -/
def Outcome.response : Outcome → Response
  | .created => ⟨201, '\x7b' :: "\"ok\":true".toList ++ ['\x7d']⟩
  | .duplicate => ⟨409, jsonField "error" "duplicate report"⟩
  | .unprocessable => ⟨422, jsonField "error" "observer and source are required"⟩
  | .observerMismatch => ⟨403, jsonField "error" "observer_mismatch"⟩
  | .storageError => ⟨500, jsonField "error" "storage error"⟩

/-- What stops a request in front of its signature. -/
inductive Limit where
  | within | rate | size
  deriving Repr, DecidableEq

/-- `handleIngest` up to the signature. -/
def admitIngest (host : Host) (now : Int) (ids : Identities) (seen : List (Str × Int))
    (req : SignedRequest) (limit : Limit) : Except Response Presented × List (Str × Int) :=
  let peeked := (matchAuthorization (req.authorization.getD [])).bind fun callsign =>
    ids.get (host.toUpperCase callsign)
  if peeked.any (·.status = "revoked".toList) then
    (.error ⟨403, jsonField "error" "revoked"⟩, seen)
  else
    match limit with
    | .rate => (.error ⟨429, jsonField "error" "rate limit exceeded"⟩, seen)
    | .size => (.error ⟨413, jsonField "error" "payload too large"⟩, seen)
    | .within =>
      match verifyEd25519Auth host now ids.get seen req with
      | (.ok p, seen) => (.ok p, seen)
      | (.error reason, seen) =>
        (.error ⟨if reason = .revoked then 403 else 401, jsonUnauthorized reason.reason⟩, seen)

/-- The answer of `handleIngest`. -/
def answerIngest (admitted : Except Response Presented) (outcome : Outcome) : Response :=
  match admitted with
  | .ok _ => outcome.response
  | .error response => response

/-! ## The station -/

/-- `reg_state`. -/
inductive RegState where
  | unknown | pending | approved | rejected | revoked
  deriving Repr, DecidableEq

/-- A public key. -/
abbrev PublicKey := { key : List UInt8 // key.length = 32 }

/-- A station whose `LocationRelayService` runs. -/
structure Registrant where
  callsign : Str
  key : PublicKey
  regState : RegState := .unknown

/-- `find(token) != npos`. -/
def contains (token : String) (body : Str) : Bool := (Search.find token.toList body).isSome

/-- `update_reg_state`. -/
def updateRegState (state : RegState) (httpStatus : Nat) (body : Str) : RegState :=
  if 200 ≤ httpStatus ∧ httpStatus < 300 then .approved
  else if httpStatus = 409 then .approved
  else if httpStatus = 403 ∧ contains "revoked" body then .revoked
  else if httpStatus = 401 ∧ contains "pending_approval" body then .pending
  else if httpStatus = 401 ∨ httpStatus = 403 then .rejected
  else state

/-- `register_identity`, on the answer it got. -/
def registered (state : RegState) (response : Response) : RegState :=
  if response.status = 201 ∨ response.status = 200 then
    updateRegState state 401 "pending_approval".toList
  else if response.status = 409 then
    if contains "revoked" response.body then updateRegState state 403 "revoked".toList
    else updateRegState state 200 response.body
  else state

/-- `sign_relay_request`, as the headers of the request. -/
def signRelayRequest (sign : PublicKey → Str → List UInt8) (r : Registrant)
    (timestamp body : Str) : SignedRequest where
  authorization := some ("Ed25519 ".toList ++ r.callsign)
  xTimestamp := some timestamp
  xSignature := some (Base64.encode (sign r.key (signedMessage timestamp body)))
  rawBody := body

end OpenALE.Relay
