import OpenALE.Library.Machine
import OpenALE.Word.Basic

/-!
# `MessageAssembler`: from words to frames

Model of `src/Protocol/Message/ale_message.cpp`, driven as `ALECallProcessor` drives it: a frame
that is complete is fetched at once. `frames` is the log of what was fetched.
-/

namespace OpenALE

/-- `CallType`. -/
inductive CallType where
  | individual | net | group | allCall | sounding | amd | individualAck | netAck | unknown
  deriving Repr, DecidableEq

/-- `ALEMessage`; the defaults are those of its constructor. -/
structure ALEMessage where
  callType : CallType := .unknown
  toAddresses : List Str := []
  fromAddress : Str := []
  dataContent : List Str := []
  words : List ALEWord := []
  startTimeMs : UInt32 := 0
  durationMs : UInt32 := 0
  complete : Bool := false
  deriving Repr, DecidableEq

/-! ## `CallTypeDetector` -/

namespace CallTypeDetector

/-- A word of a type is among the words. -/
def has (t : PreambleType) (words : List ALEWord) : Bool := words.any fun w => w.type == t

/-- `is_individual_call`. -/
def isIndividualCall (words : List ALEWord) : Bool :=
  has .to words && (has .tis words || has .frm words) && !has .twas words

/-- `is_sounding`. -/
def isSounding (words : List ALEWord) : Bool :=
  has .tis words && !has .to words && !has .frm words && !has .twas words

/-- `is_amd`. -/
def isAmd (words : List ALEWord) : Bool :=
  has .to words && (has .tis words || has .frm words) && has .cmd words

/-- `detect`. -/
def detect (words : List ALEWord) : CallType :=
  if words = [] then .unknown
  else if isSounding words then .sounding
  else if isAmd words then .amd
  else if isIndividualCall words then .individual
  else .unknown

end CallTypeDetector

/-! ## Addresses and data -/

/-- `Ctx`. -/
inductive AddressCtx where
  | none | dest | src
  deriving Repr, DecidableEq

/-- The variables of `extract_addresses`, with the two fields that it writes. -/
structure Extraction where
  ctx : AddressCtx := .none
  currentAddr : Str := []
  orphanData : Str := []
  pastAnyPreamble : Bool := false
  toAddresses : List Str := []
  fromAddress : Str := []
  deriving Repr, DecidableEq

namespace Extraction

/-- The loop of `add_dest`: the first entry that the address continues is replaced by it, and an
address that an entry continues is left out. -/
def insertDest (a : Str) : List Str → List Str
  | [] => [a]
  | ex :: rest =>
    if ex <+: a then a :: rest
    else if a <+: ex then ex :: rest
    else ex :: insertDest a rest

/-- `add_dest`. -/
def addDest (a : Str) (dests : List Str) : List Str := if a = [] then dests else insertDest a dests

/-- `finalize_current`. -/
def finalizeCurrent (e : Extraction) : Extraction :=
  match e.ctx with
  | .none => { e with currentAddr := [] }
  | .dest => { e with toAddresses := addDest e.currentAddr e.toAddresses, currentAddr := [] }
  | .src =>
    if e.currentAddr = [] then e
    else { e with fromAddress := e.currentAddr, currentAddr := [] }

/-- The loop body. -/
def step (e : Extraction) (word : ALEWord) : Extraction :=
  match word.type with
  | .to | .twas =>
    { e.finalizeCurrent with
      currentAddr := trimAleAddress word.address
      ctx := .dest
      pastAnyPreamble := true }
  | .frm | .tis =>
    { e.finalizeCurrent with
      currentAddr := trimAleAddress word.address ++ e.orphanData
      orphanData := []
      ctx := .src
      pastAnyPreamble := true }
  | .data | .rep =>
    match e.ctx with
    | .none =>
      if e.pastAnyPreamble then e
      else { e with orphanData := e.orphanData ++ trimAleAddress word.address }
    | _ => { e with currentAddr := e.currentAddr ++ trimAleAddress word.address }
  | .cmd => { e.finalizeCurrent with ctx := .none }
  | .thru | .unknown => e

end Extraction

/-- `extract_addresses`: the destinations and the source. -/
def extractAddresses (words : List ALEWord) : List Str × Str :=
  let e := (words.foldl Extraction.step {}).finalizeCurrent
  (e.toAddresses, e.fromAddress)

/-- The characters of a data word without the blanks behind them. -/
def dataOf (word : ALEWord) : Str := word.address.rdropWhile (· == ' ')

/-- The loop of `extract_data`. -/
def extractDataFrom (collecting : Bool) : List ALEWord → List Str
  | [] => []
  | word :: words =>
    if word.type = .cmd ∨ (word.type = .data ∨ word.type = .rep) ∧ collecting = true then
      (if dataOf word = [] then [] else [dataOf word]) ++
        extractDataFrom (collecting || word.type = .cmd) words
    else extractDataFrom collecting words

/-- `extract_data`. -/
def extractData (words : List ALEWord) : List Str := extractDataFrom false words

/-! ## `MessageAssembler` -/

/-- The members of `MessageAssembler`, and the log. -/
structure MessageAssembler where
  currentWords : List ALEWord := []
  currentMessage : ALEMessage := {}
  active : Bool := false
  lastWordTimeMs : UInt32 := 0
  wordTimeoutMs : UInt32 := 5000
  frames : List ALEMessage := []
  deriving Repr, DecidableEq

/-- A word that concludes a frame. -/
def ALEWord.concludes (word : ALEWord) : Bool := word.type == .tis || word.type == .twas

namespace MessageAssembler

/-- `is_sequence_complete`. -/
def isSequenceComplete (words : List ALEWord) : Bool := words.any ALEWord.concludes

/-- `check_timeout` after a word at time `last`. -/
def timedOut (last now timeout : UInt32) : Bool := if now < last then false else timeout < now - last

/-- `reset`. -/
def reset (m : MessageAssembler) : MessageAssembler :=
  { m with currentWords := [], currentMessage := {}, active := false, lastWordTimeMs := 0 }

/-- `add_word`, and whether the message is complete. -/
def addWord (m : MessageAssembler) (word : ALEWord) : MessageAssembler × Bool :=
  if !word.valid then (m, false)
  else
    let now := word.timestampMs
    let m := if m.active && timedOut m.lastWordTimeMs now m.wordTimeoutMs then m.reset else m
    let m := if !m.active then
        { m with currentMessage := { m.currentMessage with startTimeMs := now }, active := true }
      else m
    let m := { m with currentWords := m.currentWords ++ [word], lastWordTimeMs := now }
    if isSequenceComplete m.currentWords then
      let (toAddresses, fromAddress) := extractAddresses m.currentWords
      ({ m with
        currentMessage := { m.currentMessage with
          words := m.currentWords
          durationMs := now - m.currentMessage.startTimeMs
          callType := CallTypeDetector.detect m.currentWords
          complete := true
          toAddresses
          fromAddress
          dataContent := extractData m.currentWords } }, true)
    else (m, false)

/-- `get_message`, into the log. -/
def getMessage (m : MessageAssembler) : MessageAssembler :=
  if m.currentMessage.complete then
    { m.reset with frames := m.frames ++ [m.currentMessage] }
  else m

/-- The end of `process_received_word`. -/
def receive (m : MessageAssembler) (word : ALEWord) : MessageAssembler :=
  match m.addWord word with
  | (m, true) => m.getMessage
  | (m, false) => m

end MessageAssembler

end OpenALE
