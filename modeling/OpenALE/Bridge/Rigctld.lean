import OpenALE.Library.Machine
import OpenALE.Library.Decimal
import OpenALE.Word.Basic

/-!
# The rigctld server

Model of `handle_rigctld_command` (`src/apps/bridge/rigctld_protocol.h`), of `RigctldServer`
(`src/apps/bridge/rigctld_server.cpp`) and of the main loop that answers its requests. The two
threads meet in the two queues alone, and every access to a queue is a step of its own.

* What `poll`, `accept`, `recv` and `send` answer are inputs. Text is a list of characters.
* `arrived` is the log of what was read on a connection, `answered` that of the answers of the main
  loop, and `sent` that of what was sent, with the number of bytes that `send` took.
-/

namespace OpenALE

namespace Rigctld

/-! ## The protocol -/

/-- The blanks of `rigctld_trim`. -/
def isBlank (c : Char) : Bool := c == ' ' || c == '\t' || c == '\r' || c == '\n'

/-- `rigctld_trim`. -/
def trim (s : Str) : Str := (s.dropWhile isBlank).rdropWhile isBlank

/-- `rigctld_dump_state`. -/
def dumpState : Str :=
  ("0\n1\n1\n100000 30000000 0x1ff -1 -1 0x10000003 0x1\n0 0 0 0 0 0 0\n" ++
    "100000 30000000 0x1ff -1 -1 0x10000003 0x1\n0 0 0 0 0 0 0\n0x1ff 1\n0 0\n2400 0x1ff\n" ++
    "500 0x04\n0 0\n0\n0\n0\n0\n0\n0\n0x00000003\n0x00000003\n0x00001001\n0x00001001\n0\n0\n\n" ++
    "RPRT 0\n").toList

/-- The answer that refuses. -/
def refusal : Str := "RPRT -1\n".toList

/-- The command of a line, without the marker and the backslash. -/
def command (line : Str) : Str :=
  let line := match line with
    | '+' :: rest => trim rest
    | ';' :: rest => trim rest
    | '|' :: rest => trim rest
    | _ => line
  match line with
  | '\\' :: cmd => cmd
  | _ => line

/-- The answer to a command. -/
def answerTo (cmd : Str) (radioAttached : Bool) (freqHz : UInt32) : Str :=
  if cmd = "q".toList ∨ cmd = "Q".toList then "RPRT 0\n".toList
  else if cmd = "chk_vfo".toList then "0\n".toList
  else if cmd = "dump_state".toList ∨ cmd = "dump_caps".toList then dumpState
  else if cmd = "get_info".toList then "openALE rigctld-compat v1\nRPRT 0\n".toList
  else if cmd = "get_vfo".toList ∨ cmd = "v".toList then "currVFO\nRPRT 0\n".toList
  else if cmd = "get_split_vfo".toList ∨ cmd = "s".toList then "0\nVFOA\nRPRT 0\n".toList
  else if cmd = "get_freq".toList ∨ cmd = "f".toList then
    if radioAttached then Decimal.digits freqHz.toNat ++ "\nRPRT 0\n".toList else refusal
  else refusal

/-- `handle_rigctld_command`. -/
def handleCommand (rawLine : Str) (radioAttached : Bool) (freqHz : UInt32) : Str :=
  let line := trim rawLine
  if line = [] then refusal else answerTo (command line) radioAttached freqHz

/-! ## The lines of a buffer -/

/-- The lines that are complete, and what is behind the last end of line. -/
def splitLines : Str → List Str × Str
  | [] => ([], [])
  | c :: s =>
    let (lines, rest) := splitLines s
    if c = '\n' then ([] :: lines, rest)
    else
      match lines with
      | [] => ([], c :: rest)
      | line :: lines => ((c :: line) :: lines, rest)

/-- A carriage return at the end of a line goes. -/
def chomp (line : Str) : Str := if line.getLast? = some '\r' then line.dropLast else line

/-! ## The server -/

/-- `kMaxClients`. -/
abbrev kMaxClients : Nat := 16

/-- The cap of a receive buffer. -/
abbrev bufferCap : Nat := 64 * 1024

/-- A `ClientSlot` that is in use. -/
structure ClientSlot where
  id : Nat
  recvBuf : Str
  deriving Repr, DecidableEq

/-- The members of `RigctldServer`, the request that the main loop has in hand, and the logs. -/
structure Server where
  running : Bool
  nextConnId : Nat
  clientCount : Nat
  slots : List (Option ClientSlot)
  recvQueue : List (Nat × Str)
  sendQueue : List (Nat × Str)
  inHand : Option (Nat × Str)
  arrived : List (Nat × Str)
  answered : List (Nat × Str × Str)
  sent : List (Nat × Str × Nat)
  deriving Repr, DecidableEq

/-- A server that was not started yet. -/
def init : Server where
  running := false
  nextConnId := 1
  clientCount := 0
  slots := List.replicate kMaxClients none
  recvQueue := []
  sendQueue := []
  inHand := none
  arrived := []
  answered := []
  sent := []

/-- What `poll` and `recv` tell about a slot. -/
inductive SlotEvent where
  | hangup
  | failed
  | received (chunk : Str)
  deriving Repr, DecidableEq

inductive ServerOp where
  | start (bound : Bool)
  | stop
  | accept
  | service (i : Nat) (ev : SlotEvent)
  | drain (took : List Nat)
  | pop
  | reply (radioAttached : Bool) (freqHz : UInt32)
  deriving Repr, DecidableEq

namespace Server

/-- `start`. -/
def start (s : Server) (bound : Bool) : Server := if bound then { s with running := true } else s

/-- `stop`: the I/O thread closes every connection. -/
def stop (s : Server) : Server :=
  if s.running then
    { s with running := false, clientCount := 0, slots := s.slots.map fun _ => none }
  else s

/-- A new connection takes the first slot that is free. -/
def accept (s : Server) : Server :=
  match s.slots.findIdx? Option.isNone with
  | none => s
  | some i =>
    { s with
      slots := s.slots.set i (some ⟨s.nextConnId, []⟩)
      nextConnId := s.nextConnId + 1
      clientCount := s.clientCount + 1 }

/-- A connection is closed. -/
def close (s : Server) (i : Nat) : Server :=
  { s with slots := s.slots.set i none, clientCount := s.clientCount - 1 }

/-- What arrived on a connection goes into its buffer, and the lines that are complete into the
queue. -/
def receive (s : Server) (i : Nat) (slot : ClientSlot) (chunk : Str) : Server :=
  let recvBuf := slot.recvBuf ++ chunk
  if bufferCap < recvBuf.length then s.close i
  else
    let (lines, rest) := splitLines recvBuf
    { s with
      slots := s.slots.set i (some { slot with recvBuf := rest })
      recvQueue := s.recvQueue ++ lines.map fun line => (slot.id, chomp line)
      arrived := s.arrived ++ [(slot.id, chunk)] }

/-- An active client is serviced. -/
def service (s : Server) (i : Nat) (ev : SlotEvent) : Server :=
  match s.slots.getD i none with
  | none => s
  | some slot =>
    match ev with
    | .hangup => s.close i
    | .failed => s.close i
    | .received chunk => s.receive i slot chunk

/-- The connection of an id is open. -/
def isOpen (s : Server) (id : Nat) : Bool :=
  s.slots.any fun slot => slot.any fun slot => slot.id = id

/-- One reply is sent, if its connection is open; `took` is what `send` took of it in all. -/
def sendOne (s : Server) (reply : Nat × Str) (took : Nat) : Server :=
  if s.isOpen reply.1 then { s with sent := s.sent ++ [(reply.1, reply.2, took)] } else s

/-- The send queue is drained; what is not told is sent in whole. -/
def drainAll (s : Server) : List (Nat × Str) → List Nat → Server
  | [], _ => s
  | reply :: replies, [] => (s.sendOne reply reply.2.length).drainAll replies []
  | reply :: replies, n :: took => (s.sendOne reply n).drainAll replies took

def drain (s : Server) (took : List Nat) : Server :=
  { s with sendQueue := [] }.drainAll s.sendQueue took

/-- `pop_request`. -/
def pop (s : Server) : Server :=
  match s.inHand, s.recvQueue with
  | none, request :: rest => { s with inHand := some request, recvQueue := rest }
  | _, _ => s

/-- The main loop answers, and `send_reply`. -/
def reply (s : Server) (radioAttached : Bool) (freqHz : UInt32) : Server :=
  match s.inHand with
  | none => s
  | some (id, line) =>
    let text := handleCommand line radioAttached freqHz
    { s with
      inHand := none
      answered := s.answered ++ [(id, line, text)]
      sendQueue := if s.running then s.sendQueue ++ [(id, text)] else s.sendQueue }

/-- One step. -/
def step (s : Server) : ServerOp → Server
  | .start bound => s.start bound
  | .stop => s.stop
  | .accept => if s.running then s.accept else s
  | .service i ev => if s.running then s.service i ev else s
  | .drain took => if s.running then s.drain took else s
  | .pop => s.pop
  | .reply radioAttached freqHz => s.reply radioAttached freqHz

end Server

end Rigctld

end OpenALE
