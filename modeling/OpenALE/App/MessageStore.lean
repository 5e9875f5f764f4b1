import OpenALE.Library.Binary

/-!
# `MessageStore` and its file

Model of `MessageStore` (`src/Stores/ale_data_store.cpp`). A string is its bytes, and an enumeration
the byte it is written as.

* A `reserve` or `resize` by a count from the file is a request; what the allocator grants is an
  argument, and a refused request throws.
* Of a word, the SINAD and the Golay flag are not in the file: they are left out.

Results:
* `reads_store`: a file is read back, if nothing in it is too long for its count.
* `ensures_store`: what is read fits, and there is as much of it as the header says.
-/

namespace OpenALE

open Binary Binary.Reader

/-- An `ALEWord`, as far as it is in the file. -/
structure StoredWord where
  type : UInt8
  address : Vector UInt8 4
  rawPayload : UInt32
  fecErrors : UInt8
  unanimousVotes : UInt8
  valid : Bool
  timestampMs : UInt32
  deriving DecidableEq

/-- `ALEMessage`. -/
structure StoredMessage where
  callType : UInt8 := 8
  toAddresses : List (List UInt8) := []
  fromAddress : List UInt8 := []
  dataContent : List (List UInt8) := []
  words : List StoredWord := []
  startTimeMs : UInt32 := 0
  durationMs : UInt32 := 0
  complete : Bool := false
  deriving DecidableEq

/-- `MessageStore`. -/
structure MessageStore where
  messages : List StoredMessage := []
  capacity : Nat

namespace MessageStore

/-- `kMinMessages`. -/
abbrev minMessages : Nat := 12

/-- A store of this capacity. -/
def init (capacity : Nat) : MessageStore where
  capacity := if capacity < minMessages then minMessages else capacity

/-- `push`. -/
def push (s : MessageStore) (msg : StoredMessage) : MessageStore where
  messages := (if s.messages.length ≥ s.capacity then s.messages.drop 1 else s.messages) ++ [msg]
  capacity := s.capacity

/-- `pop_oldest`. -/
def popOldest (s : MessageStore) : MessageStore where
  messages := s.messages.drop 1
  capacity := s.capacity

/-! ## Writing -/

/-- `write_string`. -/
def writeString (s : List UInt8) : List UInt8 :=
  encode32 (UInt32.ofNat s.length) ++ s.take (UInt32.ofNat s.length).toNat

/-- A flag. -/
def flag (b : Bool) : UInt8 := if b then 1 else 0

/-- The four characters of an address. -/
def writeAddress (v : Vector UInt8 4) : List UInt8 := [v[0]] ++ ([v[1]] ++ ([v[2]] ++ [v[3]]))

/-- A word. -/
def writeWord (w : StoredWord) : List UInt8 :=
  [w.type] ++ (writeAddress w.address ++ (encode32 w.rawPayload ++ ([w.fecErrors] ++
    ([w.unanimousVotes] ++ ([flag w.valid] ++ encode32 w.timestampMs)))))

/-- A message. -/
def writeMessage (m : StoredMessage) : List UInt8 :=
  [m.callType] ++ (encode32 (UInt32.ofNat m.toAddresses.length) ++
    (m.toAddresses.flatMap writeString ++ (writeString m.fromAddress ++
      (encode32 (UInt32.ofNat m.dataContent.length) ++ (m.dataContent.flatMap writeString ++
        (encode32 (UInt32.ofNat m.words.length) ++ (m.words.flatMap writeWord ++
          (encode32 m.startTimeMs ++ (encode32 m.durationMs ++ [flag m.complete])))))))))

/-- `PCALE_MSG` with its null. -/
def magic : List UInt8 := [80, 67, 65, 76, 69, 95, 77, 83, 71, 0]

/-- `save_to_file`. -/
def save (s : MessageStore) : List UInt8 :=
  (magic ++ (encode32 1 ++ (encode32 (UInt32.ofNat s.capacity) ++
    encode32 (UInt32.ofNat s.messages.length)))) ++ s.messages.flatMap writeMessage

/-! ## Reading -/

/-- What `load_from_file` asks the allocator for, by a count of the file. -/
inductive Request where
  | messages (n : Nat)
  | strings (n : Nat)
  | chars (n : Nat)
  | words (n : Nat)
  deriving DecidableEq

/-- `read_string`. -/
def readString : Reader Request (List UInt8) := do
  let len ← u32
  note (.chars len.toNat)
  take len.toNat

/-- A flag. -/
def readFlag : Reader Request Bool := do
  let b ← u8
  pure (b != 0)

/-- The four characters of an address. -/
def readAddress : Reader Request (Vector UInt8 4) := do
  let b₀ ← u8
  let b₁ ← u8
  let b₂ ← u8
  let b₃ ← u8
  pure #v[b₀, b₁, b₂, b₃]

/-- A word. -/
def readWord : Reader Request StoredWord := do
  let type ← u8
  let address ← readAddress
  let rawPayload ← u32
  let fecErrors ← u8
  let unanimousVotes ← u8
  let valid ← readFlag
  let timestampMs ← u32
  pure ⟨type, address, rawPayload, fecErrors, unanimousVotes, valid, timestampMs⟩

/-- A list of strings with its count. -/
def readStrings : Reader Request (List (List UInt8)) := do
  let n ← u32
  note (.strings n.toNat)
  many n.toNat readString

/-- A list of words with its count. -/
def readWords : Reader Request (List StoredWord) := do
  let n ← u32
  note (.words n.toNat)
  many n.toNat readWord

/-- A message. -/
def readMessage : Reader Request StoredMessage := do
  let callType ← u8
  let toAddresses ← readStrings
  let fromAddress ← readString
  let dataContent ← readStrings
  let words ← readWords
  let startTimeMs ← u32
  let durationMs ← u32
  let complete ← readFlag
  pure ⟨callType, toAddresses, fromAddress, dataContent, words, startTimeMs, durationMs, complete⟩

/-- The header: capacity and count. -/
def readHeader : Reader Request (UInt32 × UInt32) := do
  let m ← take 10
  if m ≠ magic then fail
  else
    let version ← u32
    if version ≠ 1 then fail
    else
      let cap ← u32
      let count ← u32
      pure (cap, count)

/-- The file. -/
def readStore : Reader Request (UInt32 × List StoredMessage) := do
  let h ← readHeader
  note (.messages h.2.toNat)
  let loaded ← many h.2.toNat readMessage
  pure (h.1, loaded)

/-- How a load ends: it returns true or false, or it throws. -/
inductive Outcome where
  | loaded
  | failed
  | thrown
  deriving DecidableEq

/-- `load_from_file`; `none` stands for a file that cannot be opened. -/
def load (grants : Request → Bool) (s : MessageStore) (file : Option (List UInt8)) :
    Outcome × MessageStore :=
  match file with
  | none => (.failed, s)
  | some bytes =>
    if (readStore bytes).1.all grants then
      match (readStore bytes).2 with
      | none => (.failed, s)
      | some ((cap, loaded), _) =>
        (.loaded, ⟨loaded, if cap.toNat ≥ minMessages then cap.toNat else minMessages⟩)
    else (.thrown, s)

/-! ## What fits its count -/

/-- A length that a count holds. -/
abbrev Counted {α : Type} (l : List α) : Prop := l.length < 2 ^ 32

/-- All lengths of a message fit their counts. -/
structure Fits (m : StoredMessage) : Prop where
  toAddresses : Counted m.toAddresses ∧ ∀ s ∈ m.toAddresses, Counted s
  fromAddress : Counted m.fromAddress
  dataContent : Counted m.dataContent ∧ ∀ s ∈ m.dataContent, Counted s
  words : Counted m.words

theorem counted_nil {α : Type} : Counted ([] : List α) := Nat.two_pow_pos 32

theorem toNat_count {α : Type} {l : List α} (h : Counted l) :
    (UInt32.ofNat l.length).toNat = l.length := UInt32.toNat_ofNat_of_lt' h

theorem reads_flag (b : Bool) : Reads readFlag [flag b] b := by
  have hbyte : Reads (u8 : Reader Request _) [flag b] (flag b) := reads_u8 (flag b)
  have h := hbyte.map (g := fun v => v != 0)
  cases b <;> exact h

theorem reads_string {s : List UInt8} (h : Counted s) : Reads readString (writeString s) s := by
  rw [writeString, toNat_count h, List.take_length]
  refine (reads_u32 _).bind (.after_note _ ?_)
  rw [toNat_count h]
  exact reads_take s

theorem reads_strings {l : List (List UInt8)} (h : Counted l) (hl : ∀ s ∈ l, Counted s) :
    Reads readStrings (encode32 (UInt32.ofNat l.length) ++ l.flatMap writeString) l := by
  refine (reads_u32 _).bind (.after_note _ ?_)
  rw [toNat_count h]
  exact reads_many fun s hs => reads_string (hl s hs)

theorem reads_address (v : Vector UInt8 4) : Reads readAddress (writeAddress v) v := by
  have heq : #v[v[0], v[1], v[2], v[3]] = v := by
    ext i hi
    match i, hi with
    | 0, _ | 1, _ | 2, _ | 3, _ => rfl
  have h : Reads readAddress (writeAddress v) #v[v[0], v[1], v[2], v[3]] :=
    (reads_u8 _).bind ((reads_u8 _).bind ((reads_u8 _).bind (reads_u8 _).map))
  rwa [heq] at h

theorem reads_word (w : StoredWord) : Reads readWord (writeWord w) w :=
  (reads_u8 _).bind ((reads_address _).bind ((reads_u32 _).bind ((reads_u8 _).bind
    ((reads_u8 _).bind ((reads_flag _).bind (reads_u32 _).map)))))

theorem reads_words {l : List StoredWord} (h : Counted l) :
    Reads readWords (encode32 (UInt32.ofNat l.length) ++ l.flatMap writeWord) l := by
  refine (reads_u32 _).bind (.after_note _ ?_)
  rw [toNat_count h]
  exact reads_many fun w _ => reads_word w

theorem reads_message {m : StoredMessage} (h : Fits m) : Reads readMessage (writeMessage m) m := by
  unfold writeMessage
  rw [← List.append_assoc (encode32 _) (m.toAddresses.flatMap writeString),
    ← List.append_assoc (encode32 _) (m.dataContent.flatMap writeString),
    ← List.append_assoc (encode32 _) (m.words.flatMap writeWord)]
  exact (reads_u8 _).bind ((reads_strings h.toAddresses.1 h.toAddresses.2).bind
    ((reads_string h.fromAddress).bind ((reads_strings h.dataContent.1 h.dataContent.2).bind
      ((reads_words h.words).bind ((reads_u32 _).bind ((reads_u32 _).bind (reads_flag _).map))))))

theorem reads_header (cap count : UInt32) :
    Reads readHeader (magic ++ (encode32 1 ++ (encode32 cap ++ encode32 count))) (cap, count) := by
  refine (reads_take magic).bind ?_
  rw [if_neg (not_not.mpr rfl)]
  refine (reads_u32 1).bind ?_
  rw [if_neg (not_not.mpr rfl)]
  exact (reads_u32 cap).bind (reads_u32 count).map

/-- **A file is read back.** -/
theorem reads_store {s : MessageStore} (hs : Counted s.messages) (h : ∀ m ∈ s.messages, Fits m) :
    Reads readStore s.save (UInt32.ofNat s.capacity, s.messages) := by
  refine (reads_header _ _).bind (.after_note _ ?_)
  rw [toNat_count hs]
  exact (reads_many fun m hm => reads_message (h m hm)).map

/-! ## What is read -/

theorem ensures_string : Ensures readString Counted := by
  refine ensures_bind fun len => ensures_bind fun _ => ?_
  intro s bs rest h
  rw [Counted, ensures_take len.toNat s bs rest h]
  exact len.toNat_lt

theorem ensures_strings :
    Ensures readStrings fun l => Counted l ∧ ∀ s ∈ l, Counted s := by
  refine ensures_bind fun n => ensures_bind fun _ => ?_
  intro s l rest h
  obtain ⟨hlen, hall⟩ := ensures_many ensures_string n.toNat s l rest h
  refine ⟨?_, hall⟩
  rw [Counted, hlen]
  exact n.toNat_lt

theorem ensures_words : Ensures readWords Counted := by
  refine ensures_bind fun n => ensures_bind fun _ => ?_
  intro s l rest h
  rw [Counted, (ensures_many (P := fun _ => True) ensures_any n.toNat s l rest h).1]
  exact n.toNat_lt

theorem ensures_message : Ensures readMessage Fits :=
  ensures_bind fun _ => ensures_strings.bind fun _ hto => ensures_string.bind fun _ hfrom =>
    ensures_strings.bind fun _ hdata => ensures_words.bind fun _ hwords => ensures_bind fun _ =>
      ensures_bind fun _ => ensures_bind fun _ => ensures_pure ⟨hto, hfrom, hdata, hwords⟩

/-- A file that is read has a header, with as many messages behind it as it says; all of them
fit. -/
theorem ensures_store {bytes rest : List UInt8} {cap : UInt32} {ms : List StoredMessage}
    (h : (readStore bytes).2 = some ((cap, ms), rest)) :
    (∃ rest', (readHeader bytes).2 = some ((cap, UInt32.ofNat ms.length), rest')) ∧ Counted ms ∧
      ∀ m ∈ ms, Fits m := by
  unfold readStore at h
  rw [snd_bind, Option.bind_eq_some_iff] at h
  obtain ⟨⟨⟨cap', count⟩, rest'⟩, hheader, h⟩ := h
  have hmany : Ensures (note (.messages count.toNat) >>= fun _ =>
      many count.toNat readMessage >>= fun loaded => pure (f := Reader Request) (cap', loaded))
        fun p => p.1 = cap' ∧ p.2.length = count.toNat ∧ ∀ m ∈ p.2, Fits m :=
    ensures_bind fun _ => (ensures_many ensures_message _).bind fun _ hl => ensures_pure ⟨rfl, hl⟩
  obtain ⟨hcap, hlen, hfits⟩ := hmany rest' (cap, ms) rest h
  dsimp only at hcap hlen hfits
  refine ⟨⟨rest', ?_⟩, ?_, hfits⟩
  · rw [hlen, UInt32.ofNat_toNat, hcap]
    exact hheader
  · rw [Counted, hlen]
    exact count.toNat_lt

end MessageStore

end OpenALE
