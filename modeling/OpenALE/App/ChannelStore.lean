import OpenALE.Library.Text
import OpenALE.Control.Channel
import OpenALE.Word.Basic

/-!
# `ChannelStore` and its file

Model of `ChannelStore` and `FileChannelBackend` (`src/Stores/ale_data_store.cpp`). The file is its
text; an empty line behind the last end of line is skipped like any other empty line.

Results:
* `readChannel_line`: a channel's line is read back, if its texts are words.
* `clean_readChannel`: what is read is of that kind.
-/

namespace OpenALE

/-- `ChannelStore`. -/
structure ChannelStore where
  channels : List Channel := []
  deriving DecidableEq

namespace ChannelStore

/-- `kCapacity`. -/
abbrev capacity : Nat := 100

/-! ## Operations -/

/-- `has_channel`. -/
def hasChannel (s : ChannelStore) (rx : Nat) : Bool := s.channels.any (·.rxFrequencyHz == rx)

/-- `add_channel`. -/
def addChannel (s : ChannelStore) (ch : Channel) : ChannelStore :=
  if s.hasChannel ch.rxFrequencyHz then s
  else if s.channels.length ≥ capacity then s
  else { channels := s.channels ++ [ch] }

/-- `remove_channel`. -/
def removeChannel (s : ChannelStore) (rx : Nat) : ChannelStore where
  channels := s.channels.filter fun c => c.rxFrequencyHz != rx

/-- The loop of `set_enabled`: the first channel of the frequency. -/
def enableFirst (rx : Nat) (enabled : Bool) : List Channel → List Channel
  | [] => []
  | c :: cs =>
    if c.rxFrequencyHz = rx then { c with enabled := enabled } :: cs
    else c :: enableFirst rx enabled cs

/-- `set_enabled`. -/
def setEnabled (s : ChannelStore) (rx : Nat) (enabled : Bool) : ChannelStore where
  channels := enableFirst rx enabled s.channels

/-! ## The file -/

/-- The characters a line is trimmed of. -/
def isBlank (c : Char) : Bool := c == ' ' || c == '\t' || c == '\r' || c == '\n'

/-- The id at the front of a line, and what follows it. -/
def readId : List Str → Str × List Str
  | [] => ([], [])
  | tok :: toks => if ['I', 'D', ':'].isPrefixOf tok then (tok.drop 3, toks) else ([], tok :: toks)

/-- The channel of the fields behind the id. -/
def readFields (id : Str) : List Str → Option Channel
  | [] => none
  | rx :: rest =>
    match Text.stoul rx with
    | none => none
    | some rxHz =>
      let mode := rest[1]?.getD ['U', 'S', 'B']
      some {
        id := id
        rxFrequencyHz := rxHz % 2 ^ 32
        txFrequencyHz := ((rest[0]?.bind Text.stoul).getD 0) % 2 ^ 32
        rxMode := mode
        txMode := mode
        label := List.intercalate [' '] (rest.drop 2) }

/-- The words of a line, without its comment. -/
def words (line : Str) : List Str :=
  Text.tokens Text.isSpace
    (((line.takeWhile (· != '#')).dropWhile isBlank).rdropWhile isBlank)

/-- The body of the loop of `FileChannelBackend::load`. -/
def readChannel (line : Str) : Option Channel :=
  readFields (readId (words line)).1 (readId (words line)).2

/-- `FileChannelBackend::load`. -/
def readFile (text : Str) : List Channel := (text.splitOn '\n').filterMap readChannel

/-- The body of the loop of `FileChannelBackend::save`, without the end of line. -/
def line (ch : Channel) : Str :=
  (if ch.id ≠ [] then ['I', 'D', ':'] ++ ch.id ++ [' '] else []) ++
    (Decimal.digits ch.rxFrequencyHz ++ ' ' :: (Decimal.digits ch.txFrequencyHz ++ ' ' :: ch.rxMode)) ++
    if ch.label ≠ [] then ' ' :: ch.label else []

/-- `FileChannelBackend::save`. -/
def writeFile (channels : List Channel) : Str := channels.flatMap fun ch => line ch ++ ['\n']

/-- `load`; `none` stands for a file that cannot be opened. -/
def load (s : ChannelStore) : Option Str → ChannelStore
  | none => s
  | some text => { channels := readFile text }

/-- `save`. -/
def save (s : ChannelStore) : Str := writeFile s.channels

/-- A call of the store's interface. -/
inductive Op where
  | add (ch : Channel)
  | remove (rx : Nat)
  | setEnabled (rx : Nat) (enabled : Bool)
  | clear
  | load (text : Option Str)

/-- One call. -/
def step (s : ChannelStore) : Op → ChannelStore
  | .add ch => s.addChannel ch
  | .remove rx => s.removeChannel rx
  | .setEnabled rx enabled => s.setEnabled rx enabled
  | .clear => {}
  | .load text => s.load text

/-! ## Lines that are read back -/

/-- A word of a line: no separator, and nothing that opens a comment. -/
def IsWord (t : Str) : Prop := ∀ c ∈ t, Text.isSpace c = false ∧ c ≠ '#'

/-- The texts of a channel survive its line: the id and the mode are words, the label is words set
apart by single spaces. The line has one mode and no mark for a channel that is switched off. -/
structure Clean (ch : Channel) : Prop where
  rx : ch.rxFrequencyHz < 2 ^ 32
  tx : ch.txFrequencyHz < 2 ^ 32
  id : IsWord ch.id
  mode : IsWord ch.rxMode
  modeNonempty : ch.rxMode ≠ []
  sameMode : ch.txMode = ch.rxMode
  enabled : ch.enabled = true
  comment : '#' ∉ ch.label
  label : List.intercalate [' '] (Text.tokens Text.isSpace ch.label) = ch.label

/-- What the file holds of a channel. -/
def persisted (ch : Channel) : Channel where
  id := ch.id
  rxFrequencyHz := ch.rxFrequencyHz
  txFrequencyHz := ch.txFrequencyHz
  rxMode := ch.rxMode
  txMode := ch.txMode
  label := ch.label
  enabled := ch.enabled

theorem isSpace_of_isBlank (c : Char) (h : isBlank c = true) : Text.isSpace c = true := by
  simp only [isBlank, Bool.or_eq_true, beq_iff_eq] at h
  obtain ((rfl | rfl) | rfl) | rfl := h <;> decide

theorem words_eq (l : Str) : words l = Text.tokens Text.isSpace (l.takeWhile (· != '#')) := by
  rw [words, Text.tokens_rdropWhile isSpace_of_isBlank, Text.tokens_dropWhile isSpace_of_isBlank]

theorem words_of_not_mem {l : Str} (h : '#' ∉ l) : words l = Text.tokens Text.isSpace l := by
  have hall : l.takeWhile (· != '#') = l := by
    rw [List.takeWhile_eq_self_iff]
    intro c hc
    rw [bne_iff_ne]
    rintro rfl
    exact h hc
  rw [words_eq, hall]

theorem isWord_digits (n : Nat) : IsWord (Decimal.digits n) := by
  intro c hc
  have hdigit := Decimal.isDigit_of_mem hc
  refine ⟨Text.isSpace_of_isDigit hdigit, ?_⟩
  rintro rfl
  exact absurd hdigit (by decide)

theorem isWord_nil : IsWord [] := fun _ hc => by cases hc

theorem isWord_cons {c : Char} {t : Str} :
    IsWord (c :: t) ↔ (Text.isSpace c = false ∧ c ≠ '#') ∧ IsWord t := List.forall_mem_cons

theorem isWord_append {s t : Str} (hs : IsWord s) (ht : IsWord t) : IsWord (s ++ t) := by
  intro c hc
  exact (List.mem_append.mp hc).elim (hs c) (ht c)

theorem tokens_isWord_cons {t l : Str} (ht : IsWord t) (hne : t ≠ []) :
    Text.tokens Text.isSpace (t ++ ' ' :: l) = t :: Text.tokens Text.isSpace l := by
  rw [Text.tokens_append_cons (by decide), Text.tokens_word hne fun c hc => (ht c hc).1,
    List.singleton_append]

variable {ch : Channel} {l : Str}

theorem tokens_label (hl : ch.label ≠ [] ∨ ch.label = []) (s : Str) (hs : IsWord s) (hne : s ≠ []) :
    Text.tokens Text.isSpace (s ++ if ch.label ≠ [] then ' ' :: ch.label else []) =
      s :: Text.tokens Text.isSpace ch.label := by
  obtain hl | hl := hl
  · rw [if_pos hl, tokens_isWord_cons hs hne]
  · rw [if_neg (not_not.mpr hl), hl, List.append_nil, Text.tokens_word hne fun c hc => (hs c hc).1,
      Text.tokens_nil]

/-- The words of a line behind the id. -/
theorem tokens_fields (h : Clean ch) :
    Text.tokens Text.isSpace
        ((Decimal.digits ch.rxFrequencyHz ++ ' ' :: (Decimal.digits ch.txFrequencyHz ++
          ' ' :: ch.rxMode)) ++ if ch.label ≠ [] then ' ' :: ch.label else []) =
      Decimal.digits ch.rxFrequencyHz :: Decimal.digits ch.txFrequencyHz :: ch.rxMode ::
        Text.tokens Text.isSpace ch.label := by
  rw [List.append_assoc, List.cons_append, List.append_assoc, List.cons_append,
    tokens_isWord_cons (isWord_digits _) (Decimal.digits_ne_nil _),
    tokens_isWord_cons (isWord_digits _) (Decimal.digits_ne_nil _),
    tokens_label (em' _) _ h.mode h.modeNonempty]

theorem not_mem_line (h : Clean ch) : '#' ∉ line ch := by
  have hid : '#' ∉ ch.id := fun hc => (h.id _ hc).2 rfl
  have hmode : '#' ∉ ch.rxMode := fun hc => (h.mode _ hc).2 rfl
  have hdigits n : '#' ∉ Decimal.digits n := fun hc => (isWord_digits n _ hc).2 rfl
  have hlabel := h.comment
  unfold line
  split <;> split <;> simp [hid, hmode, hdigits, hlabel]

theorem words_line (h : Clean ch) : words (line ch) =
    (if ch.id ≠ [] then [['I', 'D', ':'] ++ ch.id] else []) ++
      Decimal.digits ch.rxFrequencyHz :: Decimal.digits ch.txFrequencyHz :: ch.rxMode ::
        Text.tokens Text.isSpace ch.label := by
  rw [words_of_not_mem (not_mem_line h), line]
  split
  · rename_i hid
    have hmark : IsWord ['I', 'D', ':'] := by
      simp only [isWord_cons]
      exact ⟨by decide, by decide, by decide, isWord_nil⟩
    have hword : IsWord (['I', 'D', ':'] ++ ch.id) := isWord_append hmark h.id
    rw [List.append_assoc, List.append_assoc, List.singleton_append,
      tokens_isWord_cons hword (by simp), tokens_fields h, List.singleton_append]
  · rw [List.nil_append, List.nil_append, tokens_fields h]

theorem readId_digits (n : Nat) (rest : List Str) :
    readId (Decimal.digits n :: rest) = ([], Decimal.digits n :: rest) := by
  have hpre : ['I', 'D', ':'].isPrefixOf (Decimal.digits n) = false := by
    cases hd : Decimal.digits n with
    | nil => rfl
    | cons c cs =>
      have hc : c.isDigit = true := Decimal.isDigit_of_mem (n := n) (by rw [hd]; simp)
      have hne : ('I' == c) = false := by
        rw [beq_eq_false_iff_ne]
        rintro rfl
        exact absurd hc (by decide)
      change (('I' == c) && _) = false
      rw [hne, Bool.false_and]
  rw [readId, if_neg (by rw [hpre]; decide)]

theorem readId_words (h : Clean ch) : readId (words (line ch)) =
    (ch.id, Decimal.digits ch.rxFrequencyHz :: Decimal.digits ch.txFrequencyHz :: ch.rxMode ::
      Text.tokens Text.isSpace ch.label) := by
  rw [words_line h]
  split
  · have hpre : ['I', 'D', ':'].isPrefixOf (['I', 'D', ':'] ++ ch.id) = true := by
      simp
    rw [List.singleton_append, readId, if_pos hpre]
    rfl
  · rename_i hid
    rw [List.nil_append, readId_digits, not_not.mp hid]

/-- **A line is read back.** -/
theorem readChannel_line (h : Clean ch) : readChannel (line ch) = some (persisted ch) := by
  have hrx : Text.stoul (Decimal.digits ch.rxFrequencyHz) = some ch.rxFrequencyHz :=
    Text.stoul_digits (h.rx.trans (by decide))
  have htx : Text.stoul (Decimal.digits ch.txFrequencyHz) = some ch.txFrequencyHz :=
    Text.stoul_digits (h.tx.trans (by decide))
  rw [readChannel, readId_words h]
  simp only [readFields, hrx, List.getElem?_cons_zero, List.getElem?_cons_succ, Option.bind_some,
    htx, Option.getD_some, List.drop_succ_cons, List.drop_zero, h.label, persisted,
    Nat.mod_eq_of_lt h.rx, Nat.mod_eq_of_lt h.tx, h.sameMode, h.enabled]

/-! ## What is read -/

theorem mem_words {t : Str} (h : t ∈ words l) : t ≠ [] ∧ IsWord t := by
  rw [words_eq] at h
  obtain ⟨hne, hmem⟩ := Text.mem_tokens h
  refine ⟨hne, fun c hc => ⟨(hmem c hc).1, ?_⟩⟩
  have hcut := List.mem_takeWhile_imp (hmem c hc).2
  simpa using hcut

theorem mem_readId {toks : List Str} {t : Str} (h : t ∈ (readId toks).2) : t ∈ toks := by
  cases toks with
  | nil => exact h
  | cons tok toks =>
    rw [readId] at h
    split at h
    · exact List.mem_cons_of_mem _ h
    · exact h

theorem isWord_readId {toks : List Str} (h : ∀ t ∈ toks, IsWord t) : IsWord (readId toks).1 := by
  cases toks with
  | nil => exact isWord_nil
  | cons tok toks =>
    rw [readId]
    split
    · exact fun c hc => h tok List.mem_cons_self c (List.mem_of_mem_drop hc)
    · exact isWord_nil

theorem label_intercalate (ts : List Str) (h : ∀ t ∈ ts, t ≠ [] ∧ IsWord t) :
    '#' ∉ List.intercalate [' '] ts ∧
      Text.tokens Text.isSpace (List.intercalate [' '] ts) = ts := by
  refine ⟨fun hc => ?_, Text.tokens_intercalate (by decide) fun t ht =>
    ⟨(h t ht).1, fun c hc => ((h t ht).2 c hc).1⟩⟩
  obtain hc | ⟨t, ht, hc⟩ := Text.mem_intercalate hc
  · exact absurd hc (by decide)
  · exact ((h t ht).2 _ hc).2 rfl

/-- **What is read from a line survives its own line.** -/
theorem clean_readChannel (h : readChannel l = some ch) : Clean ch ∧ persisted ch = ch := by
  have hwords : ∀ t ∈ (readId (words l)).2, t ≠ [] ∧ IsWord t := fun t ht =>
    mem_words (mem_readId ht)
  have hid : IsWord (readId (words l)).1 := isWord_readId fun t ht => (mem_words ht).2
  unfold readChannel at h
  cases htoks : (readId (words l)).2 with
  | nil =>
    rw [htoks] at h
    cases h
  | cons rx rest =>
    rw [htoks] at h hwords
    cases hrx : Text.stoul rx with
    | none =>
      simp only [readFields, hrx] at h
      cases h
    | some rxHz =>
      simp only [readFields, hrx, Option.some.injEq] at h
      subst h
      have hmode : (rest[1]?.getD ['U', 'S', 'B']) ≠ [] ∧ IsWord (rest[1]?.getD ['U', 'S', 'B']) := by
        cases hm : rest[1]? with
        | none =>
          refine ⟨by decide, ?_⟩
          simp only [Option.getD_none, isWord_cons]
          exact ⟨by decide, by decide, by decide, isWord_nil⟩
        | some m => exact hwords m (List.mem_cons_of_mem _ (List.mem_of_getElem? hm))
      obtain ⟨hcomment, hlabel⟩ := label_intercalate (rest.drop 2) fun t ht =>
        hwords t (List.mem_cons_of_mem _ (List.mem_of_mem_drop ht))
      exact ⟨⟨Nat.mod_lt _ (by decide), Nat.mod_lt _ (by decide), hid, hmode.2, hmode.1, rfl, rfl,
        hcomment, by rw [hlabel]⟩, rfl⟩

/-! ## Files -/

theorem not_newline_line (h : Clean ch) : '\n' ∉ line ch := by
  have hword {t : Str} (ht : IsWord t) : '\n' ∉ t := fun hc => absurd (ht _ hc).1 (by decide)
  have hlabel : '\n' ∉ ch.label := by
    rw [← h.label]
    intro hc
    obtain hc | ⟨t, ht, hc⟩ := Text.mem_intercalate hc
    · exact absurd hc (by decide)
    · exact absurd ((Text.mem_tokens ht).2 _ hc).1 (by decide)
  unfold line
  split <;> split <;> simp [hword h.id, hword h.mode, hword (isWord_digits _), hlabel]

theorem readFile_writeFile {channels : List Channel} (h : ∀ ch ∈ channels, Clean ch) :
    readFile (writeFile channels) = channels.map persisted := by
  induction channels with
  | nil => rfl
  | cons ch channels ih =>
    have hch := h ch List.mem_cons_self
    have hsplit : (writeFile (ch :: channels)).splitOn '\n' =
        line ch :: (writeFile channels).splitOn '\n' := by
      rw [writeFile, List.flatMap_cons, List.append_assoc, List.singleton_append,
        List.splitOn_eq_splitOnP, List.splitOnP_append_cons_of_forall_mem]
      · rfl
      · intro c hc
        rw [beq_eq_false_iff_ne]
        rintro rfl
        exact not_newline_line hch hc
      · rfl
    rw [readFile, hsplit, List.filterMap_cons, readChannel_line hch, ← readFile,
      ih fun x hx => h x (List.mem_cons_of_mem _ hx), List.map_cons]

end ChannelStore

end OpenALE
