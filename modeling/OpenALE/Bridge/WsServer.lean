import OpenALE.Library.Search
import OpenALE.Word.Basic

/-!
# The bridge's HTTP front end

Model of the request dispatch of `WsServer` (`src/apps/bridge/ws_server.cpp`): the header lookup,
the localhost guard, the WebSocket upgrade and the static files.

A request is the text received so far on one connection; `std::tolower` of the C locale is
`Char.toLower`. TLS, the answer's text and the files are left out.

Results:
* `dispatch_of_head`: what a complete head is answered.
-/

namespace OpenALE

open Search

/-- `to_lower`. -/
def toLower (s : Str) : Str := s.map Char.toLower

/-- The end of a line. -/
def crlf : Str := ['\r', '\n']

/-- The blanks skipped before a value. -/
def isBlank (c : Char) : Bool := c == ' ' || c == '\t'

/-- The text up to the next end of line. -/
def restOfLine (s : Str) : Str :=
  match find crlf s with
  | some e => s.take e
  | none => s

/-- The value behind the first occurrence of `key`, a lower-case text, `none` without one. -/
def valueAfter (req key : Str) : Option Str :=
  match find key (toLower req) with
  | none => none
  | some pos => some (restOfLine ((req.drop (pos + key.length)).dropWhile isBlank))

/-- `extract_header`. -/
def extractHeader (req name : Str) : Str := (valueAfter req (toLower name ++ [':'])).getD []

/-- `extract_ws_key`. -/
def extractWsKey (req : Str) : Str := (valueAfter req "sec-websocket-key:".toList).getD []

/-- `is_ws_upgrade`. -/
def isWsUpgrade (req : Str) : Bool :=
  (find "upgrade: websocket".toList (toLower req)).isSome ||
    (find "sec-websocket-key:".toList (toLower req)).isSome

/-- `request_path`. -/
def requestPath (req : Str) : Str :=
  match find [' '] req with
  | none => ['/']
  | some sp1 =>
    match find [' '] (req.drop (sp1 + 1)) with
    | none => ['/']
    | some len =>
      let path := ((req.drop (sp1 + 1)).take len).takeWhile (· ≠ '?')
      if path.isEmpty then ['/'] else path

/-- `is_loopback_host`. A port is cut off when `find` and `rfind` give the same colon. -/
def isLoopbackHost (val : Str) : Bool :=
  let h := if val.count ':' = 1 then val.takeWhile (· ≠ ':') else val
  toLower h == "localhost".toList || toLower h == "127.0.0.1".toList

/-- `origin_is_local`. -/
def originIsLocal (origin : Str) : Bool :=
  if origin.isEmpty || origin == "null".toList then true
  else
    let h := match find "://".toList origin with
      | some ss => origin.drop (ss + 3)
      | none => origin
    isLoopbackHost (h.takeWhile (· ≠ '/'))

/-- What becomes of a connection. -/
inductive Outcome where
  /-- No complete head yet. -/
  | waiting
  /-- More than 64 KiB: closed. -/
  | aborted
  /-- `403 Forbidden`. -/
  | forbidden
  /-- `101 Switching Protocols`, a session with this key. -/
  | upgraded (key : Str)
  /-- `503 Service Unavailable`. -/
  | unavailable
  /-- `serve_static`. -/
  | served (path : Str)
  deriving Repr, DecidableEq

/-- The localhost guard refuses. -/
def guardRefuses (req : Str) : Bool :=
  let host := extractHeader req "Host".toList
  let origin := extractHeader req "Origin".toList
  !host.isEmpty && !isLoopbackHost host || !originIsLocal origin

/-- The dispatch of a connection's text, after a read. -/
def dispatch (bindRemote clientActive : Bool) (buf : Str) : Outcome :=
  if buf.length > 64 * 1024 then .aborted
  else if find (crlf ++ crlf) buf = none then .waiting
  else if !bindRemote && guardRefuses buf then .forbidden
  else if isWsUpgrade buf then
    let key := extractWsKey buf
    if !key.isEmpty && !clientActive then .upgraded key else .unavailable
  else .served (requestPath buf)

/-- The text is a request head the server looks at. -/
def IsHead (buf : Str) : Prop := buf.length ≤ 64 * 1024 ∧ find (crlf ++ crlf) buf ≠ none

variable {buf : Str}

/-- Without remote access a head is refused exactly when the guard refuses it. -/
theorem dispatch_of_head (h : IsHead buf) (clientActive : Bool) :
    dispatch false clientActive buf = .forbidden ↔ guardRefuses buf = true := by
  obtain ⟨hlen, hend⟩ := h
  unfold dispatch
  rw [if_neg (Nat.not_lt.mpr hlen), if_neg hend]
  cases guardRefuses buf with
  | true => simp
  | false =>
    simp only [Bool.not_false, Bool.and_false, Bool.false_eq_true, if_false, iff_false]
    split
    · split <;> exact Outcome.noConfusion
    · exact Outcome.noConfusion

end OpenALE
