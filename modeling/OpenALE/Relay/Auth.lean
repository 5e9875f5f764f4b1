import OpenALE.Library.Base64
import OpenALE.Word.Basic

/-!
# Signed requests

Model of `tools/location-relay-server/auth.js`, with the identities it reads. Times are
milliseconds of `Date.now()`. What Node brings is the argument `host`: the parsing of dates, upper
case, the import of a key and Ed25519 itself.

* The map of seen signatures is the list of its entries.
* `Buffer.from(_, 'base64')` is `Base64.decode`: it knows both alphabets and skips all else.
-/

namespace OpenALE.Relay

/-- What an identity's row says. -/
structure Identity where
  publicKey : Str
  status : Str
  deriving Repr, DecidableEq

/-- The functions of the platform. -/
structure Host where
  /-- `Date.parse`, `none` for `NaN`. -/
  parseDate : Str → Option Int
  toUpperCase : Str → Str
  /-- `createPublicKey` takes the raw key. -/
  importsKey : List UInt8 → Bool
  /-- `verify` of a key, a message and a signature. -/
  verify : List UInt8 → Str → List UInt8 → Bool

/-- The headers a request is verified by. -/
structure SignedRequest where
  authorization : Option Str
  xTimestamp : Option Str
  xSignature : Option Str
  rawBody : Str
  deriving Repr, DecidableEq

/-- The `reason` of a refusal. -/
inductive Refusal where
  | missingAuthHeader
  | missingSignatureHeaders
  | invalidTimestamp
  | staleTimestamp
  | replay
  | unknownCallsign
  | pendingApproval
  | revoked
  | notApproved
  | malformedPublicKey
  | badSignature
  deriving Repr, DecidableEq

/-- `MAX_SKEW_MS`. -/
abbrev maxSkewMs : Int := 300000

/-! ## Texts -/

/-- `\s`. -/
def isSpace (c : Char) : Bool :=
  ['\t', '\n', '\x0b', '\x0c', '\r', ' ', '\u00a0', '\u1680', '\u2028', '\u2029', '\u202f',
    '\u205f', '\u3000', '\ufeff'].contains c || ('\u2000' ≤ c && c ≤ '\u200a')

/-- `/^Ed25519\s+(\S+)$/`. -/
def matchAuthorization (header : Str) : Option Str :=
  if header.take 7 = "Ed25519".toList then
    let callsign := (header.drop 7).dropWhile isSpace
    if (header.drop 7).head?.any isSpace ∧ callsign ≠ [] ∧ callsign.all (!isSpace ·) then
      some callsign
    else none
  else none

/-! ## The verification -/

/-- What the headers bring. -/
structure Presented where
  callsign : Str
  timestamp : Str
  signatureB64 : Str
  deriving Repr, DecidableEq

/-- The checks in front of the replay guard; an empty header counts as missing. -/
def checkHeaders (host : Host) (now : Int) (req : SignedRequest) : Except Refusal Presented :=
  match matchAuthorization (req.authorization.getD []) with
  | none => .error .missingAuthHeader
  | some callsign =>
    match req.xTimestamp.getD [], req.xSignature.getD [] with
    | [], _ => .error .missingSignatureHeaders
    | _, [] => .error .missingSignatureHeaders
    | timestamp, signatureB64 =>
      match host.parseDate timestamp with
      | none => .error .invalidTimestamp
      | some tsMs =>
        if (now - tsMs).natAbs > maxSkewMs.toNat then .error .staleTimestamp
        else .ok ⟨host.toUpperCase callsign, timestamp, signatureB64⟩

/-- The signed text. -/
def signedMessage (timestamp rawBody : Str) : Str := timestamp ++ '\n' :: rawBody

/-- The checks behind the replay guard. -/
def checkSignature (host : Host) (getIdentity : Str → Option Identity) (p : Presented)
    (rawBody : Str) : Except Refusal Unit :=
  match getIdentity p.callsign with
  | none => .error .unknownCallsign
  | some identity =>
    if identity.status = "pending".toList then .error .pendingApproval
    else if identity.status = "revoked".toList then .error .revoked
    else if identity.status ≠ "approved".toList then .error .notApproved
    else
      let publicKeyRaw := Base64.decode identity.publicKey
      if publicKeyRaw.length ≠ 32 then .error .malformedPublicKey
      else if host.importsKey publicKeyRaw = false then .error .malformedPublicKey
      else if host.verify publicKeyRaw (signedMessage p.timestamp rawBody)
          (Base64.decode p.signatureB64) = false then .error .badSignature
      else .ok ()

/-- The key of `seenSignatures`. -/
def replayKey (p : Presented) : Str := p.callsign ++ ':' :: p.signatureB64

/-- `sweepSeen`. -/
def sweepSeen (now : Int) (seen : List (Str × Int)) : List (Str × Int) :=
  seen.filter fun entry => ¬ entry.2 < now

/-- `verifyEd25519Auth`: the callsign, or why the request is refused, and the map after it. -/
def verifyEd25519Auth (host : Host) (now : Int) (getIdentity : Str → Option Identity)
    (seen : List (Str × Int)) (req : SignedRequest) :
    Except Refusal Presented × List (Str × Int) :=
  match checkHeaders host now req with
  | .error reason => (.error reason, seen)
  | .ok p =>
    let seen := sweepSeen now seen
    if seen.any (·.1 = replayKey p) then (.error .replay, seen)
    else
      match checkSignature host getIdentity p req.rawBody with
      | .error reason => (.error reason, seen)
      -- only a verified signature is remembered
      | .ok () => (.ok p, seen ++ [(replayKey p, now + maxSkewMs)])

end OpenALE.Relay
