import OpenALE.Properties.Assembly
import OpenALE.Properties.FrameAddresses
import OpenALE.Properties.SoundingNames
import OpenALE.Properties.Transparency
import OpenALE.Properties.Validity

/-!
# The frames of calls one after the other

A calling frame ends for the assembler with its `TIS` word, so the extension words of the sender
stay behind and are the first words of the next frame.

Results:
* `calls_reported`: what is assembled from any sequence of calls, at any distance in time.
* `calls_reported_pair`: the second of two callers is reported under a mixed name.
-/

namespace OpenALE

open MessageAssembler

variable {addr : Str} {t : PreambleType} {ext ws : List ALEWord} {w : ALEWord}

/-! ## Words without their history -/

/-- The type and the characters of a word. -/
def ALEWord.bare (w : ALEWord) : ALEWord := { type := w.type, address := w.address }

theorem extension_bare (ws : List ALEWord) : extension (ws.map ALEWord.bare) = extension ws := by
  induction ws with
  | nil => rfl
  | cons w ws ih =>
    rw [List.map_cons, extension, extension, ih]
    rfl

theorem leading_bare (ws : List ALEWord) : leading (ws.map ALEWord.bare) = leading ws := by
  induction ws with
  | nil => rfl
  | cons w ws ih =>
    rw [List.map_cons, leading, leading, ih]
    rfl

theorem destinations_bare (ws : List ALEWord) :
    destinations (ws.map ALEWord.bare) = destinations ws := by
  induction ws with
  | nil => rfl
  | cons w ws ih =>
    rw [List.map_cons, destinations, destinations, ih, extension_bare]
    rfl

theorem senders_bare (o : Str) (ws : List ALEWord) :
    senders o (ws.map ALEWord.bare) = senders o ws := by
  induction ws generalizing o with
  | nil => rfl
  | cons w ws ih =>
    rw [List.map_cons, senders, senders, ih, ih, extension_bare]
    rfl

theorem extractDataFrom_bare (b : Bool) (ws : List ALEWord) :
    extractDataFrom b (ws.map ALEWord.bare) = extractDataFrom b ws := by
  induction ws generalizing b with
  | nil => rfl
  | cons w ws ih =>
    rw [List.map_cons, extractDataFrom, extractDataFrom, ih, ih]
    rfl

theorem has_bare (t : PreambleType) (ws : List ALEWord) :
    CallTypeDetector.has t (ws.map ALEWord.bare) = CallTypeDetector.has t ws := by
  rw [CallTypeDetector.has, List.any_map]
  rfl

/-- What a frame says. -/
structure FrameReport where
  callType : CallType
  toAddresses : List Str
  fromAddress : Str
  dataContent : List Str
  deriving Repr, DecidableEq

/-- What a message says. -/
def ALEMessage.report (m : ALEMessage) : FrameReport :=
  ⟨m.callType, m.toAddresses, m.fromAddress, m.dataContent⟩

theorem report_bare {as bs : List ALEWord} (h : as.map ALEWord.bare = bs.map ALEWord.bare) :
    (assemble as).report = (assemble bs).report := by
  have haddr : extractAddresses as = extractAddresses bs := by
    refine Prod.ext ?_ ?_
    · rw [toAddresses_eq, toAddresses_eq, ← destinations_bare, h, destinations_bare]
    · rw [fromAddress_eq, fromAddress_eq, ← leading_bare as, ← senders_bare _ as, h, leading_bare,
        senders_bare]
  have hdata : extractData as = extractData bs := by
    rw [extractData, extractData, ← extractDataFrom_bare, h, extractDataFrom_bare]
  have htype : CallTypeDetector.detect as = CallTypeDetector.detect bs := by
    have hhas : ∀ t, CallTypeDetector.has t as = CallTypeDetector.has t bs := by
      intro t
      rw [← has_bare, h, has_bare]
    have hnil : as = [] ↔ bs = [] := by
      rw [← List.map_eq_nil_iff (f := ALEWord.bare), h, List.map_eq_nil_iff]
    by_cases hbs : bs = []
    · rw [hnil.mpr hbs, hbs]
    · have hsounding : CallTypeDetector.isSounding as = CallTypeDetector.isSounding bs := by
        simp only [CallTypeDetector.isSounding, hhas]
      have hamd : CallTypeDetector.isAmd as = CallTypeDetector.isAmd bs := by
        simp only [CallTypeDetector.isAmd, hhas]
      have hcall : CallTypeDetector.isIndividualCall as = CallTypeDetector.isIndividualCall bs := by
        simp only [CallTypeDetector.isIndividualCall, hhas]
      rw [CallTypeDetector.detect, CallTypeDetector.detect, if_neg hbs, if_neg (mt hnil.mp hbs),
        hsounding, hamd, hcall]
  simp only [ALEMessage.report, assemble, haddr, hdata, htype]

/-! ## The words of an address -/

/-- Words that extend an address by `text`. -/
structure Extends (ext : List ALEWord) (text : Str) : Prop where
  isExt : ∀ w ∈ ext, w.type = .data ∨ w.type = .rep
  text : ext.flatMap (fun w => trimAleAddress w.address) = text

theorem extends_nil : Extends [] [] := ⟨fun _ h => absurd h List.not_mem_nil, rfl⟩

theorem Extends.cons_inv {text : Str} (h : Extends (w :: ext) text) :
    (w.type = .data ∨ w.type = .rep) ∧
      ∃ rest, Extends ext rest ∧ text = trimAleAddress w.address ++ rest :=
  ⟨h.isExt w List.mem_cons_self,
    _, ⟨fun v hv => h.isExt v (List.mem_cons_of_mem w hv), rfl⟩, h.text.symm⟩

theorem Extends.extension {text : Str} (h : Extends ext text) (ws : List ALEWord) :
    extension (ext ++ ws) = text ++ extension ws := by
  induction ext generalizing text with
  | nil =>
    rw [← h.text]
    rfl
  | cons w ext ih =>
    obtain ⟨hw, rest, hrest, rfl⟩ := h.cons_inv
    rw [List.cons_append, OpenALE.extension, ih hrest, List.append_assoc]
    rcases hw with hw | hw <;> rw [hw]

theorem Extends.leading {text : Str} (h : Extends ext text) (ws : List ALEWord) :
    leading (ext ++ ws) = text ++ leading ws := by
  induction ext generalizing text with
  | nil =>
    rw [← h.text]
    rfl
  | cons w ext ih =>
    obtain ⟨hw, rest, hrest, rfl⟩ := h.cons_inv
    rw [List.cons_append, OpenALE.leading, ih hrest, List.append_assoc]
    rcases hw with hw | hw <;> rw [hw]

/-- Words that call nobody. -/
theorem destinations_append (h : ∀ w ∈ ext, w.type ≠ .to ∧ w.type ≠ .twas) (ws : List ALEWord) :
    destinations (ext ++ ws) = destinations ws := by
  induction ext with
  | nil => rfl
  | cons w ext ih =>
    have hw := h w List.mem_cons_self
    rw [List.cons_append, destinations, if_neg (by simp [hw.1, hw.2]),
      ih fun v hv => h v (List.mem_cons_of_mem w hv)]

/-- Words that name no sender. -/
theorem senders_append (h : ∀ w ∈ ext, w.type ≠ .frm ∧ w.type ≠ .tis) (o : Str)
    (ws : List ALEWord) : senders o (ext ++ ws) = senders o ws := by
  induction ext with
  | nil => rfl
  | cons w ext ih =>
    have hw := h w List.mem_cons_self
    rw [List.cons_append, senders, if_neg (by simp [hw.1, hw.2]),
      ih fun v hv => h v (List.mem_cons_of_mem w hv)]

/-- Words that open no message. -/
theorem extractData_append (h : ∀ w ∈ ext, w.type ≠ .cmd) (ws : List ALEWord) :
    extractData (ext ++ ws) = extractData ws := by
  induction ext with
  | nil => rfl
  | cons w ext ih =>
    have hw := h w List.mem_cons_self
    have ih := ih fun v hv => h v (List.mem_cons_of_mem w hv)
    rw [extractData] at ih ⊢
    rw [List.cons_append, extractDataFrom, if_neg (by simp [hw]), ih, extractData]

/-- No address is extended by these words. -/
theorem extension_closed (h : Extraction.closes w = true) : extension (w :: ws) = [] := by
  unfold Extraction.closes at h
  cases hw : w.type <;> simp [hw] at h <;> simp [extension, hw]

/-- The extension words of a station's address. -/
def extWords (addr : Str) : List ALEWord := encodeExt (chunk addr).tail

theorem chunk_texts (h : GroupAddress addr) :
    trimAleAddress ((chunk addr).headD []) = addr.take 3 ∧
      ((chunk addr).tail.map trimAleAddress).flatten = addr.drop 3 := by
  have hone := flatten_take_triples 1 h.plain
  have hall := flatten_take_triples (triples '@' addr).length h.plain
  rw [List.take_of_length_le (by simp), length_triples, List.take_of_length_le (by omega)] at hall
  rw [← h.chunk_eq] at hone hall
  obtain ⟨c, cs, hc⟩ := List.exists_cons_of_ne_nil (chunk_ne_nil addr)
  rw [hc] at hone hall ⊢
  have hhead : trimAleAddress c = addr.take 3 := by simpa using hone
  refine ⟨hhead, ?_⟩
  rw [List.map_cons, List.flatten_cons, hhead] at hall
  have hwhole : addr.take 3 ++ (cs.map trimAleAddress).flatten = addr.take 3 ++ addr.drop 3 := by
    rw [List.take_append_drop]
    exact hall
  exact List.append_cancel_left hwhole

/-- The anchor word. -/
theorem anchor_spec (h : GroupAddress addr) (ht : t ≠ .unknown) :
    (encodeFirst addr t).type = t ∧ trimAleAddress (encodeFirst addr t).address = addr.take 3 := by
  have hmem : (chunk addr).headD [] ∈ chunk addr := by
    obtain ⟨c, cs, hc⟩ := List.exists_cons_of_ne_nil (chunk_ne_nil addr)
    rw [hc]
    exact List.mem_cons_self
  obtain ⟨hl, hb⟩ := h.chunk_of_mem _ hmem
  obtain ⟨htype, haddr, -⟩ := makeWord_chunk ht hl hb
  exact ⟨htype, by rw [encodeFirst, haddr]; exact (chunk_texts h).1⟩

/-- The extension words. -/
theorem extends_extWords (h : GroupAddress addr) : Extends (extWords addr) (addr.drop 3) := by
  have hchunks : ∀ c ∈ (chunk addr).tail, Chunk c :=
    fun c hc => h.chunk_of_mem c (List.mem_of_mem_tail hc)
  refine ⟨?_, ?_⟩
  · intro w hw
    exact (mem_encodeExt (fun c hc => (hchunks c hc).1) (fun c hc => (hchunks c hc).2) hw).1
  · have key : ∀ (ts : List PreambleType) (cs : List Str), (∀ t ∈ ts, t ≠ .unknown) →
        (∀ c ∈ cs, Chunk c) → cs.length ≤ ts.length →
        (List.zipWith makeWord ts cs).flatMap (fun w => trimAleAddress w.address) =
          (cs.map trimAleAddress).flatten := by
      intro ts
      induction ts with
      | nil =>
        intro cs _ _ hlen
        rw [List.length_eq_zero_iff.mp (Nat.le_zero.mp hlen)]
        rfl
      | cons t ts ih =>
        intro cs hts hcs hlen
        cases cs with
        | nil => rfl
        | cons c cs =>
          obtain ⟨hc, hcs⟩ := List.forall_mem_cons.mp hcs
          obtain ⟨ht, hts⟩ := List.forall_mem_cons.mp hts
          rw [List.zipWith_cons_cons, List.flatMap_cons, (makeWord_chunk ht hc.1 hc.2).2.1,
            ih cs hts hcs (Nat.le_of_succ_le_succ hlen)]
          rfl
    have hlen : (chunk addr).tail.length ≤ extTypes.length := by
      have := length_chunk_le addr
      rw [List.length_tail, extTypes]
      simp only [List.length_cons, List.length_nil]
      omega
    rw [← (chunk_texts h).2]
    exact key extTypes _ (by decide) hchunks hlen

/-! ## The frame of a call -/

/-- A call as it is sent, with a message or without one. -/
structure CallOnAir where
  dest : Str
  self : Str
  scanChannels : UInt32
  text : Str

namespace CallOnAir

/-- The identification and the message of a call. -/
def message (c : CallOnAir) : List ALEWord :=
  if c.text = [] then [] else fromId c.self ++ encodeAmd c.text

/-- The words up to the one that concludes the frame. -/
def frame (c : CallOnAir) : List ALEWord :=
  scanningCall c.dest c.scanChannels ++ (leadingCall c.dest ++ (c.message ++ [encodeFirst c.self .tis]))

/-- The words of a call. -/
def words (c : CallOnAir) : List ALEWord :=
  scanningCall c.dest c.scanChannels ++ leadingCall c.dest ++
    (if c.text = [] then [] else fromId c.self) ++ encodeAmd c.text ++ conclusion c.self false

/-- The call that a station makes of its state, without a link-quality report. -/
def ofStation (s : SM) (target : Str) : CallOnAir where
  dest := target
  self := s.selfAddress
  scanChannels := s.targetScanChannels
  text := if s.pend.pendingMessage.isAmd then s.pend.pendingMessage.content else []

/-- What the message says, word by word. -/
def data (c : CallOnAir) : List Str :=
  ((triples ' ' ((c.text.take 90).map sanitizeAmd)).map (List.rdropWhile (· == ' '))).filter (· ≠ [])

/-- What should be reported, with a sender that `addition` was added to. -/
def reportWith (c : CallOnAir) (addition : Str) : FrameReport where
  callType := if c.text = [] then .individual else .amd
  toAddresses := [c.dest]
  fromAddress := c.self.take 3 ++ if c.text = [] then addition else []
  dataContent := c.data

variable {c : CallOnAir}

theorem words_eq (c : CallOnAir) : c.words = c.frame ++ extWords c.self := by
  have hmessage : (if c.text = [] then [] else fromId c.self) ++ encodeAmd c.text = c.message := by
    unfold message
    split_ifs with htext
    · rw [htext]
      rfl
    · rfl
  rw [words, List.append_assoc (_ ++ _) _ (encodeAmd c.text), hmessage, conclusion,
    if_neg Bool.false_ne_true, encode_cons, frame, extWords]
  simp

/-- **The call of a station.** -/
theorem frameWords_call (s : SM) (target : Str) (hcmd : s.pend.pendingLqaCmdSet = false)
    (hreport : s.pend.pendingLqaReportSet = false) :
    s.frameWords (.call target) = (ofStation s target).words := by
  simp only [SM.frameWords, SM.callWords, words, ofStation, hcmd, hreport, Bool.false_eq_true, if_false,
    List.nil_append, List.append_assoc]
  by_cases hamd : s.pend.pendingMessage.isAmd = true
  · by_cases hcontent : s.pend.pendingMessage.content = []
    · simp [hamd, hcontent, encodeAmd, triples]
    · simp [hamd, hcontent]
  · simp [hamd, encodeAmd, triples]

/-! ### The message -/

/-- The words of a text: a command, and words of data that go on with it. -/
theorem amd_words {text : Str} (hne : text ≠ []) : ∃ w ws, encodeAmd text = w :: ws ∧
    w.type = .cmd ∧ (∀ v ∈ ws, v.type = .data ∨ v.type = .rep) ∧
      (w :: ws).map ALEWord.address = triples ' ' ((text.take 90).map sanitizeAmd) := by
  have hchunks : ∀ c ∈ triples ' ' ((text.take 90).map sanitizeAmd),
      c.length = 3 ∧ ∀ x ∈ c, validChar .data x = true := by
    intro c hc
    refine ⟨length_of_mem_triples hc, fun x hx => ?_⟩
    rcases mem_of_mem_triples hc hx with hx | rfl
    · obtain ⟨y, -, rfl⟩ := List.mem_map.mp hx
      exact sanitizeAmd_valid y
    · decide
  have hfrom : ∀ (cs : List Str) (i : Nat),
      (∀ c ∈ cs, c.length = 3 ∧ ∀ x ∈ c, validChar .data x = true) →
      (∀ v ∈ encodeAmdFrom i cs, v.type = .data ∨ v.type = .rep) ∧
        (encodeAmdFrom i cs).map ALEWord.address = cs := by
    intro cs
    induction cs with
    | nil => exact fun _ _ => ⟨fun _ h => absurd h List.not_mem_nil, rfl⟩
    | cons c cs ih =>
      intro i hcs
      obtain ⟨⟨hl, hx⟩, hcs⟩ := List.forall_mem_cons.mp hcs
      obtain ⟨htypes, haddrs⟩ := ih (i + 1) hcs
      have hword : ∀ t : PreambleType, t = .data ∨ t = .rep →
          (makeWord t c).type = t ∧ (makeWord t c).address = c := by
        intro t ht
        have hv : validChar t = validChar .data := by rcases ht with rfl | rfl <;> rfl
        obtain ⟨c0, c1, c2, rfl⟩ := List.length_eq_three.mp hl
        rw [makeWord_eq (by rcases ht with rfl | rfl <;> decide) (by rw [hv]; exact hx c0 (by simp))
          (by rw [hv]; exact hx c1 (by simp)) (by rw [hv]; exact hx c2 (by simp))]
        exact ⟨rfl, rfl⟩
      obtain ⟨htype, haddr⟩ := hword (if i % 2 = 1 then .data else .rep) (by split_ifs <;> simp)
      rw [encodeAmdFrom]
      refine ⟨?_, by rw [List.map_cons, haddr, haddrs]⟩
      intro v hv
      rcases List.mem_cons.mp hv with rfl | hv
      · rw [htype]
        split_ifs <;> simp
      · exact htypes v hv
  have hnonempty : triples ' ' ((text.take 90).map sanitizeAmd) ≠ [] := by
    obtain ⟨x, xs, rfl⟩ := List.exists_cons_of_ne_nil hne
    intro hnil
    have hlen := congrArg List.length hnil
    rw [length_triples] at hlen
    simp only [List.length_map, List.length_take, List.length_cons, List.length_nil] at hlen
    omega
  obtain ⟨c, cs, hc⟩ := List.exists_cons_of_ne_nil hnonempty
  rw [hc] at hchunks
  obtain ⟨⟨hl, hx⟩, hcs⟩ := List.forall_mem_cons.mp hchunks
  obtain ⟨htypes, haddrs⟩ := hfrom cs 1 hcs
  have hcmd : (makeCmdAmdWord c).type = .cmd ∧ (makeCmdAmdWord c).address = c := by
    obtain ⟨c0, c1, c2, rfl⟩ := List.length_eq_three.mp hl
    rw [makeCmdAmdWord_eq (hx c0 (by simp)) (hx c1 (by simp)) (hx c2 (by simp))]
    exact ⟨rfl, rfl⟩
  refine ⟨makeCmdAmdWord c, encodeAmdFrom 1 cs, by rw [encodeAmd, hc], hcmd.1, htypes, ?_⟩
  rw [List.map_cons, hcmd.2, haddrs, hc]

/-- The data behind a command. -/
theorem extractDataFrom_ext (h : ∀ v ∈ ext, v.type = .data ∨ v.type = .rep) (ws : List ALEWord) :
    extractDataFrom true (ext ++ ws) =
      (ext.map dataOf).filter (· ≠ []) ++ extractDataFrom true ws := by
  induction ext with
  | nil => rfl
  | cons v ext ih =>
    have hv := h v List.mem_cons_self
    rw [List.cons_append, extractDataFrom, if_pos (Or.inr ⟨hv, rfl⟩), Bool.true_or,
      ih fun u hu => h u (List.mem_cons_of_mem v hu), List.map_cons, ← List.append_assoc]
    by_cases hd : dataOf v = []
    · rw [if_pos hd, List.filter_cons_of_neg (by simpa using hd), List.nil_append]
    · rw [if_neg hd, List.filter_cons_of_pos (by simpa using hd)]
      rfl

theorem tis_not_data (hself : GroupAddress c.self) (b : Bool) :
    extractDataFrom b [encodeFirst c.self .tis] = [] := by
  have htype := (anchor_spec hself (t := .tis) (by decide)).1
  rw [extractDataFrom, if_neg (by simp [htype]), extractDataFrom]

/-- The data of a frame. -/
theorem extractData_message (hself : GroupAddress c.self) :
    extractData (c.message ++ [encodeFirst c.self .tis]) = c.data := by
  unfold message
  split_ifs with htext
  · rw [List.nil_append, extractData, tis_not_data hself, data, htext]
    rfl
  · obtain ⟨w, ws, hamd, hw, hws, haddr⟩ := amd_words htext
    have hfrom : ∀ v ∈ fromId c.self, v.type ≠ .cmd := by
      intro v hv
      rw [fromId, encode_cons] at hv
      rcases List.mem_cons.mp hv with rfl | hv
      · rw [(anchor_spec hself (t := .frm) (by decide)).1]
        decide
      · rcases (extends_extWords hself).isExt v hv with h | h <;> rw [h] <;> decide
    rw [List.append_assoc, extractData_append hfrom, hamd, extractData, List.cons_append,
      extractDataFrom, if_pos (Or.inl hw), show (false || decide (w.type = .cmd)) = true by simp [hw],
      extractDataFrom_ext hws, tis_not_data hself, List.append_nil, data, ← haddr, List.map_map,
      List.map_cons]
    by_cases hd : dataOf w = []
    · rw [if_pos hd, List.nil_append, List.filter_cons_of_neg (by simpa [dataOf] using hd)]
      rfl
    · rw [if_neg hd, List.filter_cons_of_pos (by simpa [dataOf] using hd)]
      rfl

/-! ### The addresses -/

/-- The words of a message call nobody. -/
theorem mem_message (hself : GroupAddress c.self) (hw : w ∈ c.message) :
    w.type = .frm ∨ w.type = .cmd ∨ w.type = .data ∨ w.type = .rep := by
  rw [message] at hw
  split_ifs at hw with htext
  · cases hw
  · rcases List.mem_append.mp hw with hw | hw
    · rw [fromId, encode_cons] at hw
      rcases List.mem_cons.mp hw with rfl | hw
      · exact Or.inl (anchor_spec hself (by decide)).1
      · exact Or.inr (Or.inr ((extends_extWords hself).isExt w hw))
    · obtain ⟨v, vs, hamd, hv, hvs, -⟩ := amd_words htext
      rw [hamd] at hw
      rcases List.mem_cons.mp hw with rfl | hw
      · exact Or.inr (Or.inl hv)
      · exact Or.inr (Or.inr (hvs w hw))

/-- What stands behind the leading call closes its address. -/
theorem extension_behind (hself : GroupAddress c.self) :
    extension (c.message ++ [encodeFirst c.self .tis]) = [] := by
  unfold message
  split_ifs with htext
  · exact extension_closed (by simp [Extraction.closes, (anchor_spec hself (t := .tis) (by decide)).1])
  · rw [fromId, encode_cons]
    exact extension_closed (by simp [Extraction.closes, (anchor_spec hself (t := .frm) (by decide)).1])

/-- An address that is called. -/
theorem destinations_encode (hdest : GroupAddress addr) (hws : extension ws = []) :
    destinations (encode addr .to ++ ws) = addr :: destinations ws := by
  obtain ⟨htype, htext⟩ := anchor_spec hdest (t := .to) (by decide)
  have hext := extends_extWords hdest
  rw [encode_cons, List.cons_append, destinations, if_pos (Or.inl htype), htext]
  change (addr.take 3 ++ extension (extWords addr ++ ws)) :: destinations (extWords addr ++ ws) = _
  rw [hext.extension, hws, List.append_nil, List.take_append_drop, destinations_append]
  intro w hw
  rcases hext.isExt w hw with h | h <;> rw [h] <;> decide

theorem extension_encode (hdest : GroupAddress addr) (ws : List ALEWord) :
    extension (encode addr .to ++ ws) = [] := by
  rw [encode_cons, List.cons_append]
  exact extension_closed (by simp [Extraction.closes, (anchor_spec hdest (t := .to) (by decide)).1])

/-- The scanning call calls the first three characters. -/
theorem destinations_scanning (hdest : GroupAddress addr) (n : Nat) (hws : extension ws = []) :
    destinations (List.replicate n (encodeFirst addr .to) ++ ws) =
      List.replicate n (addr.take 3) ++ destinations ws := by
  obtain ⟨htype, htext⟩ := anchor_spec hdest (t := .to) (by decide)
  induction n with
  | zero => rfl
  | succ n ih =>
    have hnext : extension (List.replicate n (encodeFirst addr .to) ++ ws) = [] := by
      cases n with
      | zero => exact hws
      | succ n => exact extension_closed (by simp [Extraction.closes, htype])
    rw [List.replicate_succ, List.cons_append, destinations, if_pos (Or.inl htype), ih, hnext, htext,
      List.append_nil]
    rfl

theorem scanningCall_eq (dest : Str) (n : UInt32) : scanningCall dest n =
    List.replicate (n * 2).toNat (encodeFirst dest .to) := by
  unfold scanningCall
  split_ifs with hn
  · rw [hn]
    rfl
  · rfl

/-- The addresses that a frame calls. -/
theorem destinations_frame (hdest : GroupAddress c.dest) (hself : GroupAddress c.self) :
    destinations c.frame =
      List.replicate (c.scanChannels * 2).toNat (c.dest.take 3) ++ [c.dest, c.dest] := by
  have hnone : destinations (c.message ++ [encodeFirst c.self .tis]) = [] := by
    rw [destinations_append, destinations, if_neg, destinations]
    · rw [(anchor_spec hself (t := .tis) (by decide)).1]
      decide
    · intro w hw
      rcases mem_message hself hw with h | h | h | h <;> rw [h] <;> decide
  rw [frame, scanningCall_eq, leadingCall, sentTwice, List.append_assoc, destinations_scanning hdest,
    destinations_encode hdest, destinations_encode hdest, hnone]
  · exact extension_behind hself
  · exact extension_encode hdest _
  · exact extension_encode hdest _

/-- Only the called station is a destination. -/
theorem toAddresses_frame (hdest : GroupAddress c.dest) (hself : GroupAddress c.self) {text : Str}
    {rest : List ALEWord} (hrest : Extends rest text) :
    (extractAddresses (rest ++ c.frame)).1 = [c.dest] := by
  obtain ⟨hnodup, hmem⟩ := toAddresses_spec (rest ++ c.frame)
  have hcalled : destinations (rest ++ c.frame) =
      List.replicate (c.scanChannels * 2).toNat (c.dest.take 3) ++ [c.dest, c.dest] := by
    rw [destinations_append, destinations_frame hdest hself]
    intro w hw
    rcases hrest.isExt w hw with h | h <;> rw [h] <;> decide
  have hspec : ∀ a, a ∈ (extractAddresses (rest ++ c.frame)).1 ↔ a = c.dest := by
    intro a
    rw [hmem a, hcalled]
    constructor
    · rintro ⟨ha, -, htop⟩
      refine (htop c.dest (by simp) ?_).symm
      rcases List.mem_append.mp ha with ha | ha
      · rw [List.eq_of_mem_replicate ha]
        exact List.take_prefix 3 c.dest
      · obtain rfl : a = c.dest := by simpa using ha
        exact List.prefix_rfl
    · rintro rfl
      refine ⟨by simp, hdest.ne_nil, ?_⟩
      intro b hb hcont
      rcases List.mem_append.mp hb with hb | hb
      · rw [List.eq_of_mem_replicate hb] at hcont ⊢
        have hfirst : c.dest.take 3 <+: c.dest := List.take_prefix 3 c.dest
        exact antisymm_of (· <+: ·) hfirst hcont
      · simpa using hb
  obtain ⟨a, as, has⟩ : ∃ a as, (extractAddresses (rest ++ c.frame)).1 = a :: as := by
    refine List.exists_cons_of_ne_nil ?_
    intro hnil
    have := (hspec c.dest).mpr rfl
    rw [hnil] at this
    cases this
  rw [has] at hspec hnodup ⊢
  obtain rfl := (hspec a).mp List.mem_cons_self
  cases as with
  | nil => rfl
  | cons b bs =>
    have hb := (hspec b).mp (by simp)
    rw [hb] at hnodup
    simp at hnodup

/-- Who is named as the source. -/
theorem fromAddress_frame (hdest : GroupAddress c.dest) (hself : GroupAddress c.self) {text : Str}
    {rest : List ALEWord} (hrest : Extends rest text) :
    (extractAddresses (rest ++ c.frame)).2 =
      c.self.take 3 ++ if c.text = [] then text else [] := by
  have hname : c.self.take 3 ≠ [] := by
    obtain ⟨x, xs, hx⟩ := List.exists_cons_of_ne_nil hself.ne_nil
    rw [hx]
    simp
  have hto := anchor_spec hdest (t := .to) (by decide)
  obtain ⟨htis, hself3⟩ := anchor_spec hself (t := .tis) (by decide)
  obtain ⟨hfrm, hfrom3⟩ := anchor_spec hself (t := .frm) (by decide)
  have hcall : ∀ w ∈ rest ++ (scanningCall c.dest c.scanChannels ++ leadingCall c.dest),
      w.type ≠ .frm ∧ w.type ≠ .tis := by
    have hencode : ∀ w ∈ encode c.dest .to, w.type ≠ .frm ∧ w.type ≠ .tis := by
      intro w hw
      rw [encode_cons] at hw
      rcases List.mem_cons.mp hw with rfl | hw
      · rw [hto.1]
        decide
      · rcases (extends_extWords hdest).isExt w hw with h | h <;> rw [h] <;> decide
    intro w hw
    rcases List.mem_append.mp hw with hw | hw
    · rcases hrest.isExt w hw with h | h <;> rw [h] <;> decide
    · rcases List.mem_append.mp hw with hw | hw
      · rw [scanningCall_eq] at hw
        rw [List.eq_of_mem_replicate hw, hto.1]
        decide
      · rw [leadingCall, sentTwice, List.mem_append, or_self] at hw
        exact hencode w hw
  have hleading : leading (rest ++ c.frame) = text := by
    have hstart : ∀ ws, leading (leadingCall c.dest ++ ws) = [] := by
      intro ws
      rw [leadingCall, sentTwice, encode_cons, List.cons_append, List.cons_append, leading, hto.1]
    rw [hrest.leading, frame, scanningCall_eq]
    cases (c.scanChannels * 2).toNat with
    | zero => rw [List.replicate_zero, List.nil_append, hstart, List.append_nil]
    | succ n => rw [List.replicate_succ, List.cons_append, leading, hto.1, List.append_nil]
  have hsplit : rest ++ c.frame = (rest ++ (scanningCall c.dest c.scanChannels ++
      leadingCall c.dest)) ++ (c.message ++ [encodeFirst c.self .tis]) := by
    simp only [frame, List.append_assoc]
  have hlast : ∀ o, senders o [encodeFirst c.self .tis] = [c.self.take 3 ++ o] := by
    intro o
    rw [senders, if_pos (Or.inr htis), hself3, senders, extension, List.append_nil]
  rw [fromAddress_eq, hleading, hsplit, senders_append hcall]
  unfold message
  split_ifs with htext
  · rw [List.nil_append, hlast, List.filter_cons_of_pos (by simp [hname]), List.filter_nil]
    rfl
  · obtain ⟨v, vs, hamd, hv, hvs, -⟩ := amd_words htext
    have hnone : ∀ w ∈ extWords c.self ++ encodeAmd c.text, w.type ≠ .frm ∧ w.type ≠ .tis := by
      intro w hw
      rcases List.mem_append.mp hw with hw | hw
      · rcases (extends_extWords hself).isExt w hw with h | h <;> rw [h] <;> decide
      · rw [hamd] at hw
        rcases List.mem_cons.mp hw with rfl | hw
        · rw [hv]
          decide
        · rcases hvs w hw with h | h <;> rw [h] <;> decide
    rw [fromId, encode_cons]
    change ((senders text (encodeFirst c.self .frm :: (extWords c.self ++ encodeAmd c.text ++
      [encodeFirst c.self .tis]))).filter (· ≠ [])).getLastD [] = _
    rw [senders, if_pos (Or.inl hfrm), senders_append hnone, hlast, List.append_nil,
      List.filter_cons, List.filter_cons_of_pos (by simpa using hname), List.filter_nil]
    split <;> rfl

/-- The type of a frame. -/
theorem detect_frame (hdest : GroupAddress c.dest) (hself : GroupAddress c.self) {text : Str}
    {rest : List ALEWord} (hrest : Extends rest text) :
    CallTypeDetector.detect (rest ++ c.frame) = if c.text = [] then .individual else .amd := by
  have hto := (anchor_spec hdest (t := .to) (by decide)).1
  have htis := (anchor_spec hself (t := .tis) (by decide)).1
  have hhas : ∀ (t : PreambleType) (w : ALEWord), w ∈ rest ++ c.frame → w.type = t →
      CallTypeDetector.has t (rest ++ c.frame) = true := by
    intro t w hw ht
    exact List.any_eq_true.mpr ⟨w, hw, by rw [ht]; exact beq_self_eq_true t⟩
  have hasTo := hhas .to (encodeFirst c.dest .to) (by simp [frame, leadingCall, sentTwice, encode_cons]) hto
  have hasTis := hhas .tis (encodeFirst c.self .tis) (by simp [frame]) htis
  have hkinds : ∀ w ∈ rest ++ c.frame, w.type ≠ .twas ∧ (c.text = [] → w.type ≠ .cmd) := by
    have hencode : ∀ w ∈ encode c.dest .to, w.type ≠ .twas ∧ (c.text = [] → w.type ≠ .cmd) := by
      intro w hw
      rw [encode_cons] at hw
      rcases List.mem_cons.mp hw with rfl | hw
      · simp [hto]
      · rcases (extends_extWords hdest).isExt w hw with h | h <;> simp [h]
    intro w hw
    rcases List.mem_append.mp hw with hw | hw
    · rcases hrest.isExt w hw with h | h <;> simp [h]
    rw [frame] at hw
    rcases List.mem_append.mp hw with hw | hw
    · rw [scanningCall_eq] at hw
      simp [List.eq_of_mem_replicate hw, hto]
    rcases List.mem_append.mp hw with hw | hw
    · rw [leadingCall, sentTwice, List.mem_append, or_self] at hw
      exact hencode w hw
    rcases List.mem_append.mp hw with hw | hw
    · refine ⟨?_, ?_⟩
      · rcases mem_message hself hw with h | h | h | h <;> simp [h]
      · intro htext
        rw [message, if_pos htext] at hw
        cases hw
    · simp [List.mem_singleton.mp hw, htis]
  have hnot : ∀ t : PreambleType, (∀ w ∈ rest ++ c.frame, w.type ≠ t) →
      CallTypeDetector.has t (rest ++ c.frame) = false := by
    intro t ht
    rw [CallTypeDetector.has, List.any_eq_false]
    intro w hw
    simpa using ht w hw
  have hasTwas := hnot .twas fun w hw => (hkinds w hw).1
  have hne : rest ++ c.frame ≠ [] := by
    simp [frame]
  rw [CallTypeDetector.detect, if_neg hne, CallTypeDetector.isSounding, CallTypeDetector.isAmd,
    CallTypeDetector.isIndividualCall, hasTo, hasTis, hasTwas]
  by_cases htext : c.text = []
  · rw [hnot .cmd fun w hw => (hkinds w hw).2 htext, if_pos htext]
    rfl
  · obtain ⟨v, vs, hamd, hv, -⟩ := amd_words htext
    rw [hhas .cmd v (by simp [frame, message, htext, hamd]) hv, if_neg htext]
    rfl

/-- **What a frame says**, when extension words that say `text` stand before it. -/
theorem report_frame (hdest : GroupAddress c.dest) (hself : GroupAddress c.self) {text : Str}
    {rest : List ALEWord} (hrest : Extends rest text) :
    (assemble (rest ++ c.frame)).report = c.reportWith text := by
  have hto := (anchor_spec hdest (t := .to) (by decide)).1
  have hdata : extractData (rest ++ c.frame) = c.data := by
    rw [extractData_append, frame, extractData_append, extractData_append, extractData_message hself]
    · intro w hw
      rw [leadingCall, sentTwice, List.mem_append, or_self, encode_cons] at hw
      rcases List.mem_cons.mp hw with rfl | hw
      · rw [hto]
        decide
      · rcases (extends_extWords hdest).isExt w hw with h | h <;> rw [h] <;> decide
    · intro w hw
      rw [scanningCall_eq] at hw
      rw [List.eq_of_mem_replicate hw, hto]
      decide
    · intro w hw
      rcases hrest.isExt w hw with h | h <;> rw [h] <;> decide
  rw [ALEMessage.report, assemble, reportWith]
  simp only [detect_frame hdest hself hrest, toAddresses_frame hdest hself hrest,
    fromAddress_frame hdest hself hrest, hdata]

end CallOnAir

/-! ## Calls one after the other -/

/-- A call, and its words as they were heard. -/
structure HeardCall where
  call : CallOnAir
  words : List ALEWord

namespace HeardCall

/-- Every word was heard, none more than five seconds after the one before. -/
structure Whole (x : HeardCall) : Prop where
  dest : GroupAddress x.call.dest
  self : GroupAddress x.call.self
  said : x.words.map ALEWord.bare = x.call.words.map ALEWord.bare
  valid : ∀ w ∈ x.words, w.valid = true
  paced : x.words.IsChain fun a b => timedOut a.timestampMs b.timestampMs 5000 = false

/-- Between two calls there were more than five seconds. -/
def late (prev x : HeardCall) : Bool :=
  match prev.words.getLast?, x.words.head? with
  | some a, some b => timedOut a.timestampMs b.timestampMs 5000
  | _, _ => false

/-- What is added to the sender of a call: the rest of the name of the caller before. -/
def addition : Option HeardCall → HeardCall → Str
  | none, _ => []
  | some prev, x => if prev.late x then [] else prev.call.self.drop 3

/-- What is reported of calls. -/
def reports : Option HeardCall → List HeardCall → List FrameReport
  | _, [] => []
  | prev, x :: xs => x.call.reportWith (addition prev x) :: reports (some x) xs

variable {x : HeardCall} {prev : Option HeardCall}

/-- The words of a call: the frame up to its conclusion, and the rest of the sender's name. -/
theorem Whole.split (h : x.Whole) : ∃ body tis ext, x.words = body ++ [tis] ++ ext ∧
    (body ++ [tis]).map ALEWord.bare = x.call.frame.map ALEWord.bare ∧
      tis.concludes = true ∧ (∀ w ∈ body, w.concludes = false) ∧
        Extends ext (x.call.self.drop 3) := by
  have hsaid := h.said
  rw [CallOnAir.words_eq, List.map_append] at hsaid
  obtain ⟨front, ext, hwords, hfront, hext⟩ := List.map_eq_append_iff.mp hsaid
  obtain ⟨init, hinit, hkinds⟩ : ∃ init, x.call.frame = init ++ [encodeFirst x.call.self .tis] ∧
      ∀ w ∈ init, w.type ≠ .tis ∧ w.type ≠ .twas := by
    refine ⟨scanningCall x.call.dest x.call.scanChannels ++ (leadingCall x.call.dest ++
      x.call.message), by simp [CallOnAir.frame], ?_⟩
    have hto := (anchor_spec h.dest (t := .to) (by decide)).1
    intro w hw
    rcases List.mem_append.mp hw with hw | hw
    · rw [CallOnAir.scanningCall_eq] at hw
      simp [List.eq_of_mem_replicate hw, hto]
    rcases List.mem_append.mp hw with hw | hw
    · rw [leadingCall, sentTwice, List.mem_append, or_self, encode_cons] at hw
      rcases List.mem_cons.mp hw with rfl | hw
      · simp [hto]
      · rcases (extends_extWords h.dest).isExt w hw with h | h <;> simp [h]
    · rcases CallOnAir.mem_message h.self hw with h | h | h | h <;> simp [h]
  rw [hinit, List.map_append] at hfront
  obtain ⟨body, last, rfl, hbody, hlast⟩ := List.map_eq_append_iff.mp hfront
  obtain ⟨tis, rfl, htis⟩ := List.map_eq_singleton_iff.mp hlast
  refine ⟨body, tis, ext, hwords, ?_, ?_, ?_, ?_, ?_⟩
  · rw [hinit, List.map_append, List.map_append, hbody, hlast]
  · have htype : tis.type = .tis :=
      (congrArg ALEWord.type htis).trans (anchor_spec h.self (t := .tis) (by decide)).1
    simp [ALEWord.concludes, htype]
  · intro w hw
    have hmem : w.bare ∈ init.map ALEWord.bare := by
      rw [← hbody]
      exact List.mem_map_of_mem hw
    obtain ⟨v, hv, hvw⟩ := List.mem_map.mp hmem
    have htype : v.bare.type = w.bare.type := congrArg ALEWord.type hvw
    change v.type = w.type at htype
    have hv := hkinds v hv
    rw [htype] at hv
    simp [ALEWord.concludes, hv.1, hv.2]
  · intro w hw
    have hmem : w.bare ∈ (extWords x.call.self).map ALEWord.bare := by
      rw [← hext]
      exact List.mem_map_of_mem hw
    obtain ⟨v, hv, hvw⟩ := List.mem_map.mp hmem
    have htype : v.bare.type = w.bare.type := congrArg ALEWord.type hvw
    change v.type = w.type at htype
    rw [← htype]
    exact (extends_extWords h.self).isExt v hv
  · have htext : ∀ ws : List ALEWord, ws.flatMap (fun w => trimAleAddress w.address) =
        (ws.map ALEWord.bare).flatMap fun w => trimAleAddress w.address := by
      intro ws
      rw [List.flatMap_map]
      rfl
    rw [htext, hext, ← htext]
    exact (extends_extWords h.self).text

/-- Extension words that were left behind by the call before. -/
structure Left (prev : Option HeardCall) (rest : List ALEWord) : Prop where
  text : Extends rest ((prev.map fun p => p.call.self.drop 3).getD [])
  paced : rest.IsChain fun a b => timedOut a.timestampMs b.timestampMs 5000 = false
  latest : rest ≠ [] → rest.getLast? = prev.bind fun p => p.words.getLast?

theorem left_none : Left none [] :=
  ⟨extends_nil, List.isChain_nil, fun h => absurd rfl h⟩

theorem not_concludes_of_ext (h : w.type = .data ∨ w.type = .rep) : w.concludes = false := by
  rcases h with h | h <;> simp [ALEWord.concludes, h]

/-- Words that no conclusion is among stay together if they are paced. -/
theorem together_of_paced {ws : List ALEWord} {last : ALEWord}
    (hno : ∀ w ∈ ws, w.concludes = false)
    (hpaced : (ws ++ [last]).IsChain fun a b => timedOut a.timestampMs b.timestampMs 5000 = false) :
    (ws ++ [last]).IsChain fun a b => together a b = true := by
  induction ws with
  | nil => exact List.isChain_singleton last
  | cons w ws ih =>
    rw [List.cons_append, List.isChain_cons] at hpaced ⊢
    refine ⟨?_, ih (fun v hv => hno v (List.mem_cons_of_mem w hv)) hpaced.2⟩
    intro b hb
    rw [together, hno w List.mem_cons_self, hpaced.1 b hb]
    rfl

/-- The run of a call. -/
theorem run_call (h : x.Whole) {rest body : List ALEWord} {tis : ALEWord} (hleft : Left prev rest)
    (hstart : x.words.head? = (body ++ [tis]).head?)
    (hpaced : (body ++ [tis]).IsChain fun a b => timedOut a.timestampMs b.timestampMs 5000 = false)
    (hbare : (body ++ [tis]).map ALEWord.bare = x.call.frame.map ALEWord.bare)
    (htis : tis.concludes = true) (hbody : ∀ w ∈ body, w.concludes = false) :
    (((rest ++ (body ++ [tis])).splitBy together).filter concluded).map
        (fun seg => (assemble seg).report) = [x.call.reportWith (addition prev x)] := by
  have hconc : ∀ front : List ALEWord, concluded (front ++ (body ++ [tis])) = true := by
    intro front
    rw [← List.append_assoc, concluded_concat]
    exact htis
  have hwhole : concluded (body ++ [tis]) = true := hconc []
  have hrun : (body ++ [tis]).splitBy together = [body ++ [tis]] :=
    List.splitBy_of_isChain (by simp) (together_of_paced hbody hpaced)
  have hreport : ∀ {front : List ALEWord} {text : Str}, Extends front text →
      (assemble (front ++ (body ++ [tis]))).report = x.call.reportWith text := by
    intro front text hfront
    rw [← CallOnAir.report_frame h.dest h.self hfront]
    exact report_bare (by rw [List.map_append, hbare, List.map_append])
  cases hr : rest with
  | nil =>
    have haddition : addition prev x = (prev.map fun p => p.call.self.drop 3).getD [] := by
      have hnone := hleft.text.text
      rw [hr, List.flatMap_nil] at hnone
      rw [← hnone]
      cases prev with
      | none => rfl
      | some p =>
        have hdrop : p.call.self.drop 3 = [] := hnone.symm
        rw [addition, hdrop]
        split_ifs <;> rfl
    have hfront := hleft.text
    rw [hr, ← haddition] at hfront
    rw [List.nil_append, hrun, List.filter_cons_of_pos hwhole, List.filter_nil]
    exact congrArg (fun r => [r]) (hreport hfront)
  | cons e es =>
    have hne : rest ≠ [] := by
      rw [hr]
      exact List.cons_ne_nil e es
    obtain ⟨a, ha⟩ : ∃ a, rest.getLast? = some a := ⟨_, List.getLast?_eq_some_getLast hne⟩
    obtain ⟨b, hb⟩ : ∃ b, (body ++ [tis]).head? = some b := ⟨_, List.head?_eq_some_head (by simp)⟩
    have hext : ∀ w ∈ rest, w.concludes = false :=
      fun w hw => not_concludes_of_ext (hleft.text.isExt w hw)
    have halast : a.concludes = false := hext a (List.mem_of_getLast? ha)
    cases prev with
    | none =>
      have hlast := hleft.latest hne
      rw [ha] at hlast
      cases hlast
    | some p =>
      have hlast : some a = p.words.getLast? := ha.symm.trans (hleft.latest hne)
      have hlate : p.late x = timedOut a.timestampMs b.timestampMs 5000 := by
        rw [late, ← hlast, hstart, hb]
      rw [← hr, addition, hlate]
      cases hgap : timedOut a.timestampMs b.timestampMs 5000 with
      | true =>
        -- the words left behind are a run without a conclusion
        have hsplit : (rest ++ (body ++ [tis])).splitBy together =
            rest.splitBy together ++ [body ++ [tis]] := by
          rw [List.splitBy_append, hrun]
          intro u hu v hv
          rw [ha] at hu
          rw [hb] at hv
          obtain rfl := Option.some.inj hu
          obtain rfl := Option.some.inj hv
          rw [together, hgap]
          simp
        have hdropped : (rest.splitBy together).filter concluded = [] := by
          rw [List.filter_eq_nil_iff]
          intro seg hseg hc
          rw [concluded, Option.any_eq_true] at hc
          obtain ⟨w, hw, hwc⟩ := hc
          have hmem : w ∈ rest := by
            rw [← List.flatten_splitBy together rest]
            exact List.mem_flatten.mpr ⟨seg, hseg, List.mem_of_getLast? hw⟩
          rw [hext w hmem] at hwc
          cases hwc
        rw [hsplit, List.filter_append, hdropped, List.nil_append,
          List.filter_cons_of_pos hwhole, List.filter_nil, if_pos rfl]
        exact congrArg (fun r => [r]) (hreport extends_nil)
      | false =>
        have hchain : (rest ++ body ++ [tis]).IsChain fun u v => together u v = true := by
          refine together_of_paced ?_ ?_
          · intro w hw
            rcases List.mem_append.mp hw with hw | hw
            · exact hext w hw
            · exact hbody w hw
          · rw [List.append_assoc, List.isChain_append]
            refine ⟨hleft.paced, hpaced, ?_⟩
            intro u hu v hv
            rw [ha] at hu
            rw [hb] at hv
            obtain rfl := Option.some.inj hu
            obtain rfl := Option.some.inj hv
            exact hgap
        rw [← List.append_assoc, List.splitBy_of_isChain (by simp) hchain, List.append_assoc,
          List.filter_cons_of_pos (hconc rest), List.filter_nil, if_neg Bool.false_ne_true]
        exact congrArg (fun r => [r]) (hreport hleft.text)

/-- Calls behind the words that were left. -/
theorem reports_eq (xs : List HeardCall) (h : ∀ x ∈ xs, x.Whole) {rest : List ALEWord}
    (hleft : Left prev rest) :
    (((rest ++ xs.flatMap HeardCall.words).splitBy together).filter concluded).map
      (fun seg => (assemble seg).report) = reports prev xs := by
  induction xs generalizing prev rest with
  | nil =>
    rw [List.flatMap_nil, List.append_nil, reports, List.map_eq_nil_iff, List.filter_eq_nil_iff]
    intro seg hseg hc
    rw [concluded, Option.any_eq_true] at hc
    obtain ⟨w, hw, hwc⟩ := hc
    have hmem : w ∈ rest := by
      rw [← List.flatten_splitBy together rest]
      exact List.mem_flatten.mpr ⟨seg, hseg, List.mem_of_getLast? hw⟩
    rw [not_concludes_of_ext (hleft.text.isExt w hmem)] at hwc
    cases hwc
  | cons x xs ih =>
    have hx := h x List.mem_cons_self
    obtain ⟨body, tis, ext, hwords, hbare, htis, hbody, hext⟩ := hx.split
    have hpaced := hx.paced
    rw [hwords, List.isChain_append] at hpaced
    have hleft' : Left (some x) ext := by
      refine ⟨hext, hpaced.2.1, ?_⟩
      intro hne
      change _ = x.words.getLast?
      rw [hwords, List.getLast?_append_of_ne_nil _ hne]
    have hstart : x.words.head? = (body ++ [tis]).head? := by
      rw [hwords, List.head?_append_of_ne_nil _ (by simp)]
    have hassoc : rest ++ (x :: xs).flatMap HeardCall.words =
        (rest ++ (body ++ [tis])) ++ (ext ++ xs.flatMap HeardCall.words) := by
      rw [List.flatMap_cons, hwords]
      simp only [List.append_assoc]
    rw [hassoc, List.splitBy_append, List.filter_append, List.map_append,
      run_call hx hleft hstart hpaced.1 hbare htis hbody,
      ih (fun y hy => h y (List.mem_cons_of_mem x hy)) hleft', reports]
    · rfl
    · intro u hu v _
      rw [← List.append_assoc, List.getLast?_concat] at hu
      obtain rfl := Option.some.inj hu
      rw [together, htis]
      rfl

/-- **What is reported of any sequence of calls**, each heard whole: one frame for each call, with
its type, the one station called and its message. The sender is named by the first three
characters of its address, and a call without a message that begins within five seconds after the
one before has the rest of that one's sender added. -/
theorem calls_reported (xs : List HeardCall) (h : ∀ x ∈ xs, x.Whole) :
    (((xs.flatMap HeardCall.words).foldl receive {}).frames).map ALEMessage.report =
      reports none xs := by
  have hheard : heard (xs.flatMap HeardCall.words) = xs.flatMap HeardCall.words := by
    rw [heard, List.filter_eq_self]
    intro w hw
    obtain ⟨x, hx, hw⟩ := List.mem_flatMap.mp hw
    exact (h x hx).valid w hw
  rw [frames_eq, framesOf, runs, hheard, List.map_map, ← reports_eq xs h left_none, List.nil_append]
  rfl

/-- A call heard from `start` on, a word each 392 ms. -/
def atTime (start : UInt32) (call : CallOnAir) : HeardCall where
  call := call
  words := call.words.mapIdx fun i w => w.stamp (start + 392 * UInt32.ofNat i)

instance (x : HeardCall) : Decidable x.Whole :=
  decidable_of_iff (GroupAddress x.call.dest ∧ GroupAddress x.call.self ∧
      x.words.map ALEWord.bare = x.call.words.map ALEWord.bare ∧
      (∀ w ∈ x.words, w.valid = true) ∧
      x.words.IsChain fun a b => timedOut a.timestampMs b.timestampMs 5000 = false)
    ⟨fun h => ⟨h.1, h.2.1, h.2.2.1, h.2.2.2.1, h.2.2.2.2⟩,
      fun h => ⟨h.dest, h.self, h.said, h.valid, h.paced⟩⟩

/-- `ALPHA1` and, a second after it, `BRAVO2` call `SIGMA`. -/
def twoCallers : List HeardCall :=
  [atTime 0 ⟨['S', 'I', 'G', 'M', 'A'], ['A', 'L', 'P', 'H', 'A', '1'], 1, []⟩,
    atTime 4136 ⟨['S', 'I', 'G', 'M', 'A'], ['B', 'R', 'A', 'V', 'O', '2'], 1, []⟩]

/-- `BRAVO2` is reported as `BRAHA1`. -/
theorem calls_reported_pair :
    ((twoCallers.flatMap HeardCall.words).foldl receive {}).frames.map ALEMessage.report =
        reports none twoCallers ∧
      (reports none twoCallers).map FrameReport.fromAddress =
        [['A', 'L', 'P'], ['B', 'R', 'A', 'H', 'A', '1']] :=
  ⟨calls_reported twoCallers (by decide +kernel), by decide +kernel⟩

end HeardCall

end OpenALE
