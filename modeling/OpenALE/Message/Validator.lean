import OpenALE.Word.Sequence

/-!
# `FrameValidator`

Model of `src/Protocol/Message/frame_validator.cpp`. Every check but the target count of a group
call reads nothing of a word but its type, so its loop runs over types; a loop variable of the
source is an argument. Left out: `rep_not_used_in_multiple_sender_situation`, which accepts
everything, and the four checks of the message section and of neighbouring words that no frame
here is held to.

`reconstructToAddresses` is the decoder of `AddressEncoder::encode_group`.
-/

namespace OpenALE

/-- The types of the words, in order. -/
def types (words : List ALEWord) : List PreambleType := words.map (·.type)

namespace FrameValidator

/-! ## Checks on the types -/

/-- `tis_twas_mutually_exclusive`. -/
def tisTwasMutuallyExclusive (words : List ALEWord) : Bool :=
  !(types words).contains .tis || !(types words).contains .twas

/-- `from_count_valid`. -/
def fromCountValid (words : List ALEWord) : Bool := decide ((types words).count .frm ≤ 1)

/-- The loop of `from_precedes_cmd_only`: behind each `FROM` and its extension words stands `CMD`. -/
def fromLoop : List PreambleType → Bool
  | [] => true
  | t :: ts =>
    if t = .frm ∧ (ts.dropWhile (·.isExt)).head? ≠ some .cmd then false else fromLoop ts

/-- `from_precedes_cmd_only`. -/
def fromPrecedesCmdOnly (words : List ALEWord) : Bool := fromLoop (types words)

/-- The loop of `thru_in_scanning_section_only` with `past_scanning`. -/
def thruLoop : Bool → List PreambleType → Bool
  | _, [] => true
  | past, t :: ts =>
    match t with
    | .to | .tis | .twas | .frm | .cmd => thruLoop true ts
    | .thru => if past then false else thruLoop past ts
    | _ => thruLoop past ts

/-- `thru_in_scanning_section_only`. -/
def thruInScanningSectionOnly (words : List ALEWord) : Bool := thruLoop false (types words)

/-- The loop of `thru_rep_alternates` with `expect_thru`. -/
def alternateLoop : Bool → List PreambleType → Bool
  | expectThru, [] => expectThru
  | expectThru, t :: ts =>
    if t ≠ .thru ∧ t ≠ .rep then alternateLoop expectThru ts
    else if expectThru ∧ t ≠ .thru then false
    else if ¬ expectThru ∧ t ≠ .rep then false
    else alternateLoop (!expectThru) ts

/-- `thru_rep_alternates`. -/
def thruRepAlternates (scanningWords : List ALEWord) : Bool := alternateLoop true (types scanningWords)

/-- The loop of `cmd_not_before_address_section` with `address_seen`. -/
def cmdLoop : Bool → List PreambleType → Bool
  | _, [] => true
  | seen, t :: ts =>
    match t with
    | .to | .frm | .tis | .twas => cmdLoop true ts
    | .cmd => if seen then cmdLoop seen ts else false
    | _ => cmdLoop seen ts

/-- `cmd_not_before_address_section`. -/
def cmdNotBeforeAddressSection (words : List ALEWord) : Bool := cmdLoop false (types words)

/-- A word that counts as a call. -/
def isCall (t : PreambleType) : Bool := t == .to || t == .frm || t == .tis || t == .twas

/-- `cmd_has_call_and_conclusion`: a call before the first `CMD`, a conclusion behind it. -/
def cmdHasCallAndConclusion (words : List ALEWord) : Bool :=
  let before := (types words).takeWhile (· != .cmd)
  match (types words).drop before.length with
  | [] => true
  | _ :: after => before.any isCall && after.any fun t => t == .tis || t == .twas

/-- The loop of `rep_not_preceded_by_self_tis_twas`; `prev` is the type before. -/
def repLoop : PreambleType → List PreambleType → Bool
  | _, [] => true
  | prev, t :: ts =>
    if t = .rep ∧ (prev = .rep ∨ prev = .tis ∨ prev = .twas) then false else repLoop t ts

/-- `rep_not_preceded_by_self_tis_twas`. -/
def repNotPrecededBySelfTisTwas (words : List ALEWord) : Bool :=
  match types words with
  | [] => true
  | t :: ts => repLoop t ts

/-- The loop of `address_section_word_count_valid` with `current`; `MAX = 5`. -/
def countLoop : Nat → List PreambleType → Bool
  | current, [] => decide (current ≤ 5)
  | current, t :: ts =>
    match t with
    | .to | .tis | .twas | .frm | .thru => if 5 < current then false else countLoop 1 ts
    | .data | .rep => if 5 < current + 1 then false else countLoop (current + 1) ts
    | .cmd => if 5 < current then false else countLoop 0 ts
    | .unknown => countLoop current ts

/-- `address_section_word_count_valid`. -/
def addressSectionWordCountValid (words : List ALEWord) : Bool := countLoop 0 (types words)

/-! ## The targets of a group call -/

/-- The loop of `group_call_target_count_valid`; `seen` holds the distinct `THRU` targets. -/
def targetLoop : List Str → List ALEWord → Bool
  | _, [] => true
  | seen, w :: ws =>
    if w.type ≠ .thru then targetLoop seen ws
    else if w.address ∈ seen then targetLoop seen ws
    else if 5 ≤ seen.length then false
    else targetLoop (seen ++ [w.address]) ws

/-- `group_call_target_count_valid`. -/
def groupCallTargetCountValid (scanningWords : List ALEWord) : Bool := targetLoop [] scanningWords

/-! ## Addresses read back -/

/-- `strip_padding`. -/
def stripPadding (addr : Str) : Str := (cstr addr).rdropWhile (· == '@')

/-- The variables of `reconstruct_to_addresses`. -/
structure Reconstruction where
  addresses : List Str := []
  current : Str := []
  lastNonRep : PreambleType := .unknown
  deriving Repr, DecidableEq

/-- One word of `reconstruct_to_addresses`. -/
def Reconstruction.add (r : Reconstruction) (word : ALEWord) : Reconstruction :=
  match word.type with
  | .to =>
    { addresses := if r.current ≠ [] then r.addresses ++ [r.current] else r.addresses
      current := stripPadding word.address, lastNonRep := .to }
  | .data => { r with current := r.current ++ stripPadding word.address, lastNonRep := .data }
  | .rep =>
    if r.lastNonRep = .to then
      { r with addresses := r.addresses ++ [r.current], current := stripPadding word.address }
    else { r with current := r.current ++ stripPadding word.address }
  | _ => r

/-- The address under construction closes the list. -/
def Reconstruction.close (r : Reconstruction) : List Str :=
  if r.current ≠ [] then r.addresses ++ [r.current] else r.addresses

/-- `reconstruct_to_addresses`. -/
def reconstructToAddresses (words : List ALEWord) : List Str :=
  (words.foldl Reconstruction.add {}).close

end FrameValidator

end OpenALE
