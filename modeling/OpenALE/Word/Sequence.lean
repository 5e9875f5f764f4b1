import OpenALE.Word.Address

/-!
# `ALESequenceBuilder` and AMD words

Model of `src/Word/ale_sequence.cpp` (the sequences the state machine transmits) and of
`encode_amd` (`src/Protocol/Message/ale_orderwire_protocols.cpp`). An `ALESequence` is its word
list. The link-quality report is built above the state machine, which only carries its words.
-/

namespace OpenALE

/-- `sent_twice`. -/
def sentTwice (words : List ALEWord) : List ALEWord := words ++ words

/-- `addressed_then_conclusion`. -/
def addressedThenConclusion (addressedAddr : Str) (addressedType : PreambleType) (selfAddr : Str)
    (conclusionType : PreambleType) : List ALEWord :=
  sentTwice (encode addressedAddr addressedType) ++ encode selfAddr conclusionType

/-- `ALESequenceBuilder::scanning_call`: `scan_channels * 2u` words. -/
def scanningCall (dest : Str) (scanChannels : UInt32) : List ALEWord :=
  if scanChannels = 0 then []
  else List.replicate (scanChannels * 2).toNat (encodeFirst dest .to)

/-- The distinct first words of the members, at most five (`unique_first`). -/
def uniqueFirst : List Str → List Str → List Str
  | acc, [] => acc
  | acc, m :: ms =>
    let fw := cstr (encodeFirst m .to).address
    let acc' := if fw ∈ acc then acc else acc ++ [fw]
    if acc'.length = 5 then acc' else uniqueFirst acc' ms

/-- `ALESequenceBuilder::scanning_call_group`. -/
def scanningCallGroup (members : List Str) (scanChannels : UInt32) : List ALEWord :=
  if scanChannels = 0 ∨ members = [] then []
  else
    let uf := uniqueFirst [] members
    if uf.length = 1 then scanningCall (uf.headD []) scanChannels
    else (List.range (scanChannels * 2).toNat).map fun i =>
      encodeFirst (uf.getD (i % uf.length) []) (if i % 2 = 0 then .thru else .rep)

/-- `ALESequenceBuilder::leading_call`. -/
def leadingCall (dest : Str) : List ALEWord := sentTwice (encode dest .to)

/-- `ALESequenceBuilder::leading_call_group`. -/
def leadingCallGroup (members : List Str) : List ALEWord := sentTwice (encodeGroup members .to)

/-- `ALESequenceBuilder::conclusion`. -/
def conclusion (self : Str) (isReject : Bool) : List ALEWord :=
  encode self (if isReject then .twas else .tis)

/-- `ALESequenceBuilder::from_id`. -/
def fromId (self : Str) : List ALEWord := encode self .frm

/-- `ALESequenceBuilder::response`. -/
def response (callerAddr selfAddr : Str) (isReject : Bool) : List ALEWord :=
  if isReject then encode selfAddr .twas
  else addressedThenConclusion callerAddr .to selfAddr .tis

/-- `ALESequenceBuilder::ack`. -/
def ack (peerAddr selfAddr : Str) (noLink : Bool) : List ALEWord :=
  addressedThenConclusion peerAddr .to selfAddr (if noLink then .twas else .tis)

/-- `ALESequenceBuilder::termination`. -/
def termination (peerAddr selfAddr : Str) : List ALEWord :=
  if peerAddr = [] then encode selfAddr .twas
  else addressedThenConclusion peerAddr .to selfAddr .twas

/-- A `CMD` word with function code `c` and a 21-bit payload: `lqa_cmd`, and the noise word that
`handle_sounding` rebuilds. -/
def cmdWord (c : Char) (raw24 : Nat) : ALEWord :=
  { type := .cmd, rawPayload := raw24 &&& 0x1FFFFF, address := [c, ' ', ' '], valid := true }

/-- `ALESequenceBuilder::lqa_cmd`. -/
def lqaCmd (raw24 : Nat) : List ALEWord := [cmdWord 'a' raw24]

/-! ## AMD -/

/-- The character `encode_amd` sends for `ch`. -/
def sanitizeAmd (ch : Char) : Char :=
  if 0x20 ≤ ch.toNat ∧ ch.toNat ≤ 0x5F then ch else '?'

/-- `make_cmd_amd_word`. -/
def makeCmdAmdWord : Str → ALEWord
  | [c0, c1, c2] =>
    let payload := encodeAscii c0 c1 c2 .data
    if payload = badPayload then {}
    else { type := .cmd, rawPayload := payload, address := [c0, c1, c2], valid := true }
  | _ => {}

/-- The `DATA`/`REP` words after the AMD header; `i` counts the words already built. -/
def encodeAmdFrom : Nat → List Str → List ALEWord
  | _, [] => []
  | i, c :: cs => makeWord (if i % 2 = 1 then .data else .rep) c :: encodeAmdFrom (i + 1) cs

/-- `encode_amd`: at most 90 characters, blank-filled triples. -/
def encodeAmd (text : Str) : List ALEWord :=
  match triples ' ' ((text.take 90).map sanitizeAmd) with
  | [] => []
  | c :: cs => makeCmdAmdWord c :: encodeAmdFrom 1 cs

/-! ## Word counts -/

theorem length_conclusion_pos (self : Str) (b : Bool) : 0 < (conclusion self b).length :=
  length_encode_pos self _

theorem length_termination_pos (peer self : Str) : 0 < (termination peer self).length := by
  unfold termination addressedThenConclusion
  have := length_encode_pos self .twas
  split
  · exact this
  · rw [List.length_append]; omega

theorem length_ack_pos (peer self : Str) (b : Bool) : 0 < (ack peer self b).length := by
  unfold ack addressedThenConclusion
  have := length_encode_pos self (if b then .twas else .tis)
  rw [List.length_append]
  omega

theorem length_leadingCall_pos (dest : Str) : 0 < (leadingCall dest).length := by
  unfold leadingCall sentTwice
  have := length_encode_pos dest .to
  rw [List.length_append]
  omega

theorem length_scanningCall (dest : Str) (c : UInt32) :
    (scanningCall dest c).length = (c * 2).toNat := by
  unfold scanningCall
  split
  · rename_i h; subst h; rfl
  · exact List.length_replicate

end OpenALE
