import OpenALE.Library.SplitBy
import OpenALE.Message.Assembler

/-!
# Which frames the assembler makes

The words that arrive fall into runs: a run ends with a word that concludes it, or where the next
word comes too late. The frames are the concluded runs, each with what its words say.

Results:
* `frames_eq`: the frames of any sequence of words.
-/

namespace OpenALE

open MessageAssembler

variable {m : MessageAssembler} {words seg : List ALEWord} {word last : ALEWord}

/-! ## Runs and frames -/

/-- The second word goes on with the frame of the first. -/
def together (a b : ALEWord) : Bool :=
  !(a.concludes || timedOut a.timestampMs b.timestampMs 5000)

/-- A run that ends with a conclusion. -/
def concluded (seg : List ALEWord) : Bool := seg.getLast?.any ALEWord.concludes

/-- When the first word of a run was heard. -/
def startOf (seg : List ALEWord) : UInt32 := (seg.head?.map ALEWord.timestampMs).getD 0

/-- When its last word was heard. -/
def endOf (seg : List ALEWord) : UInt32 := (seg.getLast?.map ALEWord.timestampMs).getD 0

/-- The frame of a run. -/
def assemble (seg : List ALEWord) : ALEMessage where
  callType := CallTypeDetector.detect seg
  toAddresses := (extractAddresses seg).1
  fromAddress := (extractAddresses seg).2
  dataContent := extractData seg
  words := seg
  startTimeMs := startOf seg
  durationMs := endOf seg - startOf seg
  complete := true

/-- The words a receiver takes up. -/
def heard (words : List ALEWord) : List ALEWord := words.filter ALEWord.valid

/-- The runs of the words heard. -/
def runs (words : List ALEWord) : List (List ALEWord) := (heard words).splitBy together

/-- The frames of the words heard. -/
def framesOf (words : List ALEWord) : List ALEMessage := ((runs words).filter concluded).map assemble

/-! ## One word -/

/-- No frame is open. -/
structure Idle (m : MessageAssembler) : Prop where
  noWords : m.currentWords = []
  noMessage : m.currentMessage = {}
  inactive : m.active = false

/-- A frame is open, and `last` was its last word. -/
structure Open (m : MessageAssembler) (last : ALEWord) : Prop where
  latest : m.currentWords.getLast? = some last
  message : m.currentMessage = { startTimeMs := startOf m.currentWords }
  isActive : m.active = true
  lastTime : m.lastWordTimeMs = last.timestampMs
  unconcluded : m.currentWords.any ALEWord.concludes = false

/-- The frame takes up one more word. -/
def extend (m : MessageAssembler) (word : ALEWord) : MessageAssembler :=
  { m with
    currentWords := m.currentWords ++ [word]
    currentMessage := { startTimeMs := startOf (m.currentWords ++ [word]) }
    active := true
    lastWordTimeMs := word.timestampMs }

/-- The word concludes the frame. -/
def conclude (m : MessageAssembler) (word : ALEWord) : MessageAssembler :=
  { m.reset with frames := m.frames ++ [assemble (m.currentWords ++ [word])] }

theorem receive_invalid (h : word.valid = false) : m.receive word = m := by
  unfold receive addWord
  rw [h]
  rfl

theorem endOf_concat (seg : List ALEWord) : endOf (seg ++ [word]) = word.timestampMs := by
  rw [endOf, List.getLast?_concat]
  rfl

/-- The word is taken up by the frame that is open, or opens one. -/
theorem receive_taken (hvalid : word.valid = true)
    (htime : (m.active && timedOut m.lastWordTimeMs word.timestampMs m.wordTimeoutMs) = false)
    (hopen : m.active = true → m.currentMessage = { startTimeMs := startOf m.currentWords } ∧
      m.currentWords ≠ [])
    (hidle : m.active = false → m.currentMessage = {} ∧ m.currentWords = [])
    (hno : m.currentWords.any ALEWord.concludes = false) :
    m.receive word = if word.concludes then conclude m word else extend m word := by
  obtain ⟨cs, msg, active, lastTime, timeout, frames⟩ := m
  dsimp only at htime hopen hidle hno
  have hcomplete : isSequenceComplete (cs ++ [word]) = word.concludes := by
    rw [isSequenceComplete, List.any_append, hno]
    simp
  have hstart : startOf (cs ++ [word]) = if active then startOf cs else word.timestampMs := by
    cases active with
    | true =>
      have hne := (hopen rfl).2
      rw [startOf, List.head?_append_of_ne_nil _ hne]
      rfl
    | false =>
      rw [(hidle rfl).2]
      rfl
  unfold receive addWord
  dsimp only
  rw [hvalid, htime]
  cases active with
  | true =>
    simp only [Bool.not_true, Bool.false_eq_true, if_false, hcomplete]
    rw [if_pos rfl] at hstart
    cases hc : word.concludes with
    | true =>
      simp only [if_true, getMessage, conclude, assemble, reset, endOf_concat, hstart,
        (hopen rfl).1]
    | false =>
      simp only [Bool.false_eq_true, if_false, extend, hstart, (hopen rfl).1]
  | false =>
    simp only [Bool.not_true, Bool.not_false, Bool.false_eq_true, if_false, if_true, hcomplete]
    rw [if_neg Bool.false_ne_true] at hstart
    cases hc : word.concludes with
    | true =>
      simp only [if_true, getMessage, conclude, assemble, reset, endOf_concat, hstart,
        (hidle rfl).1]
    | false =>
      simp only [Bool.false_eq_true, if_false, extend, hstart, (hidle rfl).1]

theorem receive_idle (h : Idle m) (hvalid : word.valid = true) :
    m.receive word = if word.concludes then conclude m word else extend m word := by
  refine receive_taken hvalid (by rw [h.inactive]; rfl) ?_ ?_ (by rw [h.noWords]; rfl)
  · intro hactive
    rw [h.inactive] at hactive
    cases hactive
  · intro _
    exact ⟨h.noMessage, h.noWords⟩

theorem Open.words_ne_nil (h : Open m last) : m.currentWords ≠ [] := by
  intro hnil
  have hlatest := h.latest
  rw [hnil] at hlatest
  cases hlatest

theorem receive_open (h : Open m last) (hvalid : word.valid = true)
    (htime : timedOut last.timestampMs word.timestampMs m.wordTimeoutMs = false) :
    m.receive word = if word.concludes then conclude m word else extend m word := by
  refine receive_taken hvalid ?_ ?_ ?_ h.unconcluded
  · rw [h.lastTime, htime, Bool.and_false]
  · intro _
    exact ⟨h.message, h.words_ne_nil⟩
  · intro hactive
    rw [h.isActive] at hactive
    cases hactive

/-- A word that comes too late finds the assembler reset. -/
theorem receive_late (h : Open m last) (hvalid : word.valid = true)
    (htime : timedOut last.timestampMs word.timestampMs m.wordTimeoutMs = true) :
    m.receive word = m.reset.receive word := by
  have hlate : (m.active && timedOut m.lastWordTimeMs word.timestampMs m.wordTimeoutMs) = true := by
    rw [h.isActive, h.lastTime, htime]
    rfl
  unfold receive addWord
  dsimp only
  rw [hvalid, hlate]
  rfl

/-! ## The run -/

/-- The runs so far, and what the assembler makes of them. -/
structure Assembled (words : List ALEWord) (m : MessageAssembler) : Prop where
  timeout : m.wordTimeoutMs = 5000
  frames : m.frames = framesOf words
  current : (Idle m ∧ ∀ a ∈ (heard words).getLast?, a.concludes = true) ∨
    ∃ last front, Open m last ∧ runs words = front ++ [m.currentWords]

theorem heard_concat (h : word.valid = true) : heard (words ++ [word]) = heard words ++ [word] := by
  rw [heard, List.filter_append, List.filter_cons_of_pos (by exact h)]
  rfl

/-- The word starts a run. -/
theorem runs_new (h : word.valid = true) (hnew : ∀ a ∈ (heard words).getLast?, together a word = false) :
    runs (words ++ [word]) = runs words ++ [[word]] := by
  rw [runs, heard_concat h, SplitBy.splitBy_concat_new hnew]
  rfl

theorem framesOf_new (h : runs (words ++ [word]) = runs words ++ [seg]) :
    framesOf (words ++ [word]) =
      framesOf words ++ if concluded seg then [assemble seg] else [] := by
  rw [framesOf, h, List.filter_append, List.map_append]
  cases hseg : concluded seg <;> simp [hseg, framesOf]

theorem concluded_concat (seg : List ALEWord) : concluded (seg ++ [word]) = word.concludes := by
  rw [concluded, List.getLast?_concat]
  rfl

/-- The word starts a run, and the assembler is idle. -/
theorem assembled_new (hvalid : word.valid = true) (ht : m.wordTimeoutMs = 5000)
    (hframes : m.frames = framesOf words) (hidle : Idle m)
    (hnew : ∀ a ∈ (heard words).getLast?, together a word = false) :
    Assembled (words ++ [word]) (m.receive word) := by
  have hruns := runs_new hvalid hnew
  have hlog := framesOf_new hruns
  have hlast : (heard (words ++ [word])).getLast? = some word := by
    rw [heard_concat hvalid, List.getLast?_concat]
  have hconc : concluded [word] = word.concludes := concluded_concat []
  rw [hconc] at hlog
  rw [receive_idle hidle hvalid]
  cases hc : word.concludes with
  | true =>
    rw [hc, if_pos rfl, ← hframes] at hlog
    rw [if_pos rfl]
    refine ⟨ht, ?_, Or.inl ⟨⟨rfl, rfl, rfl⟩, ?_⟩⟩
    · rw [hlog, conclude, hidle.noWords]
      rfl
    · rw [hlast]
      intro a ha
      obtain rfl := Option.some.inj ha
      exact hc
  | false =>
    rw [hc, if_neg Bool.false_ne_true, List.append_nil, ← hframes] at hlog
    rw [if_neg Bool.false_ne_true]
    refine ⟨ht, hlog.symm, Or.inr ⟨word, runs words, ⟨?_, rfl, rfl, rfl, ?_⟩, ?_⟩⟩
    · exact List.getLast?_concat
    · rw [extend, hidle.noWords]
      simpa using hc
    · rw [hruns, extend, hidle.noWords]
      rfl

/-- The word goes on with the run that is open. -/
theorem assembled_same {front : List (List ALEWord)} (hvalid : word.valid = true)
    (ht : m.wordTimeoutMs = 5000) (hframes : m.frames = framesOf words) (hopen : Open m last)
    (hruns : runs words = front ++ [m.currentWords]) (hsame : together last word = true) :
    Assembled (words ++ [word]) (m.receive word) := by
  have hruns' : runs (words ++ [word]) = front ++ [m.currentWords ++ [word]] := by
    rw [runs, heard_concat hvalid]
    exact SplitBy.splitBy_concat_same hruns hopen.latest hsame
  have hunfinished : concluded m.currentWords = false := by
    obtain ⟨cs, hcs⟩ := List.getLast?_eq_some_iff.mp hopen.latest
    have hno := hopen.unconcluded
    rw [hcs, List.any_append, Bool.or_eq_false_iff] at hno
    rw [hcs, concluded_concat]
    simpa using hno.2
  have hlog : framesOf (words ++ [word]) = m.frames ++
      if word.concludes then [assemble (m.currentWords ++ [word])] else [] := by
    rw [hframes, framesOf, framesOf, hruns, hruns', List.filter_append, List.filter_append,
      List.map_append, List.map_append]
    have hconc : concluded (m.currentWords ++ [word]) = word.concludes :=
      concluded_concat m.currentWords
    cases hc : word.concludes <;> simp [hc, hconc, hunfinished]
  have htime : timedOut last.timestampMs word.timestampMs m.wordTimeoutMs = false := by
    rw [together, Bool.not_eq_true', Bool.or_eq_false_iff] at hsame
    rw [ht]
    exact hsame.2
  rw [receive_open hopen hvalid htime]
  cases hc : word.concludes with
  | true =>
    rw [hc, if_pos rfl] at hlog
    rw [if_pos rfl]
    refine ⟨ht, ?_, Or.inl ⟨⟨rfl, rfl, rfl⟩, ?_⟩⟩
    · rw [hlog]
      rfl
    · rw [heard_concat hvalid, List.getLast?_concat]
      intro a ha
      obtain rfl := Option.some.inj ha
      exact hc
  | false =>
    rw [hc, if_neg Bool.false_ne_true, List.append_nil] at hlog
    rw [if_neg Bool.false_ne_true]
    refine ⟨ht, hlog.symm, Or.inr ⟨word, front, ⟨?_, rfl, rfl, rfl, ?_⟩, hruns'⟩⟩
    · exact List.getLast?_concat
    · rw [extend, List.any_append, hopen.unconcluded]
      simpa using hc

/-- **One word.** -/
theorem assembled_receive (h : Assembled words m) (word : ALEWord) :
    Assembled (words ++ [word]) (m.receive word) := by
  obtain ⟨ht, hframes, hcurrent⟩ := h
  cases hvalid : word.valid with
  | false =>
    have hsame : heard (words ++ [word]) = heard words := by
      rw [heard, List.filter_append, List.filter_cons_of_neg (by simp [hvalid])]
      simp [heard]
    rw [receive_invalid hvalid]
    refine ⟨ht, ?_, ?_⟩
    · rw [hframes, framesOf, framesOf, runs, runs, hsame]
    · rw [hsame, runs, hsame]
      exact hcurrent
  | true =>
    rcases hcurrent with ⟨hidle, hlast⟩ | ⟨last, front, hopen, hruns⟩
    · refine assembled_new hvalid ht hframes hidle ?_
      intro a ha
      rw [together, hlast a ha]
      rfl
    · have hheard : (heard words).getLast? = some last := by
        rw [← List.flatten_splitBy together (heard words), ← runs, hruns]
        simp [hopen.latest]
      cases hlate : timedOut last.timestampMs word.timestampMs 5000 with
      | true =>
        rw [receive_late hopen hvalid (by rw [ht]; exact hlate)]
        refine assembled_new hvalid ht hframes ⟨rfl, rfl, rfl⟩ ?_
        intro a ha
        rw [hheard] at ha
        obtain rfl := Option.some.inj ha
        rw [together, hlate]
        simp
      | false =>
        refine assembled_same hvalid ht hframes hopen hruns ?_
        obtain ⟨cs, hcs⟩ := List.getLast?_eq_some_iff.mp hopen.latest
        have hno := hopen.unconcluded
        rw [hcs, List.any_append, Bool.or_eq_false_iff] at hno
        rw [together, hlate, Bool.or_false, Bool.not_eq_true']
        simpa using hno.2

/-- **The frames of any sequence of words.** The valid words fall into runs, each closed by the
first `TIS` or `TWAS` in it or by a silence of more than five seconds behind it; the frames are the
runs closed by a conclusion, in their order, each with the type, the addresses, the data, the start
and the duration of its own words. -/
theorem frames_eq (words : List ALEWord) :
    (words.foldl receive {}).frames = framesOf words := by
  have key : Assembled words (words.foldl receive {}) := by
    induction words using List.reverseRecOn with
    | nil => exact ⟨rfl, rfl, Or.inl ⟨⟨rfl, rfl, rfl⟩, by simp [heard]⟩⟩
    | append_singleton words word ih =>
      rw [List.foldl_append]
      exact assembled_receive ih word
  exact key.frames

end OpenALE
