import Mathlib.Data.List.DropRight
import OpenALE.App.Amd
import OpenALE.Properties.Transparency

/-!
# A text from `encode_amd` to `amd_step`

The words of a frame with a message section are fed to an accumulator. The sender fills the last
three characters up with blanks; the receiver drops blanks and `'@'` from the end, and drops
nothing when nothing else is there.

Results:
* `amdFeed_frame_iff`: what arrives is the text without its trailing blanks exactly when the text is
  `Kept`.
* `amdFeed_frame_fail`: the text `HI@` arrives as `HI`.
-/

namespace OpenALE

/-! ## Frames around a message -/

/-- The words end or start no message: no text, and the `CMD` words are those of `encode_lqa_cmd`,
the LQA report, the noise report or the frequency select. -/
def Frame.WithoutText : Frame → Prop
  | .amd _ => False
  | .lqaCmd raw24 => ∃ p : LQACmdPayload, raw24 = encodeLqaCmd p
  | _ => True

/-- A frame with a message section: what precedes the text (calls, `FROM`, LQA command and report),
the text and the conclusion. -/
def messageFrame (before : List Frame) (text self : Str) (isReject : Bool) : List ALEWord :=
  before.flatMap Frame.words ++ encodeAmd text ++ conclusion self isReject

/-- The text that should arrive. -/
def amdText (text : Str) : Str := ((text.take 90).map sanitizeAmd).rdropWhile (· == ' ')

/-- The text survives the trimming: something else than blanks and `'@'` is in it and the last
character that is no blank is no `'@'`; or it is blanks and `'@'` throughout, fills its words and
does not end in a blank. -/
def Kept (t : Str) : Prop :=
  (∃ c ∈ t, isFiller c = false) ∧ (t.rdropWhile (· == ' ')).getLast? ≠ some '@' ∨
    (∀ c ∈ t, isFiller c = true) ∧ 3 ∣ t.length ∧ t.getLast? ≠ some ' '

/-! ## Function codes -/

section FunctionCode

theorem cmdCharCode_lqaCmd (p : LQACmdPayload) :
    cmdCharCode (cmdWord 'a' (encodeLqaCmd p)) = 0x61 := by
  have hka : (if p.ka1 then 1 else 0) <<< 13 < 2 ^ 14 := by cases p.ka1 <;> decide
  have hber : p.ber &&& 0x1F < 2 ^ 14 := by
    simpa using field_lt p.ber (n := 5) (k := 0) (by decide)
  have hsinad : (p.sinad &&& 0x1F) <<< 5 < 2 ^ 14 := field_lt p.sinad (n := 5) (by decide)
  have hmp : (p.mp &&& 0x07) <<< 10 < 2 ^ 14 := field_lt p.mp (n := 3) (by decide)
  show ((encodeLqaCmd p &&& 0x1FFFFF) >>> 14) &&& 0x7F = 0x61
  unfold encodeLqaCmd
  rw [Nat.shiftRight_and_distrib, shiftRight_or_low hber, shiftRight_or_low hsinad,
    shiftRight_or_low hmp, shiftRight_or_low hka]
  rfl

theorem cmdCharCode_noiseCmd (maxDb meanDb : Nat) : ∀ w ∈ noiseCmd maxDb meanDb,
    cmdCharCode w = 0x6E := by
  intro w hw
  have hmean : meanDb &&& 0x7F < 2 ^ 14 := by
    simpa using field_lt meanDb (n := 7) (k := 0) (by decide)
  have hmax : (maxDb &&& 0x7F) <<< 7 < 2 ^ 14 := field_lt maxDb (n := 7) (by decide)
  rw [List.mem_singleton.mp hw]
  unfold cmdCharCode
  rw [shiftRight_or_low hmean, shiftRight_or_low hmax]
  rfl

end FunctionCode

/-! ## Frames without a text -/

/-- **A frame without a text starts no message.** -/
theorem silent_of_withoutText {f : Frame} (hf : f.Accepted) (hn : f.WithoutText) :
    ∀ w ∈ f.words, Silent w := by
  cases f with
  | lqaCmd raw24 =>
    obtain ⟨p, rfl⟩ := hn
    intro w hw _
    rw [List.mem_singleton.mp hw, cmdCharCode_lqaCmd]
    simp
  | noiseCmd maxDb meanDb =>
    intro w hw _
    rw [cmdCharCode_noiseCmd maxDb meanDb w hw]
    simp
  | lqaReport reports =>
    intro w hw ht
    have hw' : w ∈ lqaReport reports := hw
    unfold lqaReport at hw'
    split at hw'
    · exact absurd hw' List.not_mem_nil
    rcases List.mem_cons.mp hw' with rfl | hw'
    · have hc := encodeReportCmd_code (reports.length % 256)
      unfold cmdCharCode
      rw [hc]
      simp
    · obtain ⟨p, -, rfl⟩ := List.mem_map.mp hw'
      exact absurd ht (by simp [dataWord])
  | amd text => exact absurd hn not_false
  | freqSelect freqHz =>
    intro w hw ht
    rcases List.mem_cons.mp hw with rfl | hw
    · decide
    · rw [List.mem_singleton.mp hw] at ht
      exact absurd ht (by simp [dataWord])
  | scanningCall _ _ | scanningCallGroup _ _ | leadingCall _ | leadingCallGroup _
  | conclusion _ _ | fromId _ | response _ _ _ | ack _ _ _ | termination _ _ =>
    exact fun w hw ht => absurd ht (addressWord_of_isAddress hf rfl w hw).type_ne_cmd

theorem silent_of_flatMap {fs : List Frame} (h : ∀ f ∈ fs, f.Accepted ∧ f.WithoutText) :
    ∀ w ∈ fs.flatMap Frame.words, Silent w := by
  intro w hw
  obtain ⟨f, hf, hw⟩ := List.mem_flatMap.mp hw
  exact silent_of_withoutText (h f hf).1 (h f hf).2 w hw

/-! ## The words of a text -/

section Text

variable {st : AmdAccumulator}

/-- Three characters of the Expanded-64 set. -/
def Chunk64 (c : Str) : Prop := c.length = 3 ∧ ∀ x ∈ c, validExpanded64 x = true

theorem chunk64_of_mem {text : Str} : ∀ c ∈ triples ' ' (text.map sanitizeAmd), Chunk64 c := by
  intro c hc
  refine ⟨length_of_mem_triples hc, fun x hx => ?_⟩
  rcases mem_of_mem_triples hc hx with hx | rfl
  · obtain ⟨y, -, rfl⟩ := List.mem_map.mp hx
    exact sanitizeAmd_valid y
  · decide

theorem makeWord_chunk64 {t : PreambleType} (ht : t = .data ∨ t = .rep) {c : Str} (h : Chunk64 c) :
    (makeWord t c).type = t ∧
      decodeAscii (makeWord t c).rawPayload (makeWord t c).type = (c, true) := by
  obtain ⟨hl, hc⟩ := h
  have hu : t ≠ .unknown := by rcases ht with rfl | rfl <;> decide
  have hv : ∀ x ∈ c, validChar t x = true := by rcases ht with rfl | rfl <;> exact hc
  have hclean := clean_makeWord hu hl hv
  match c, hl with
  | [c0, c1, c2], _ =>
    have heq := makeWord_eq hu (hv c0 (by simp)) (hv c1 (by simp)) (hv c2 (by simp))
    have haddr : (makeWord t [c0, c1, c2]).address = [c0, c1, c2] := by rw [heq]
    exact ⟨by rw [heq], hclean.chars.trans (by rw [haddr])⟩

theorem makeCmdAmdWord_chunk64 {c : Str} (h : Chunk64 c) : (makeCmdAmdWord c).type = .cmd ∧
    decodeAscii (makeCmdAmdWord c).rawPayload (makeCmdAmdWord c).type = (c, true) := by
  obtain ⟨hl, hc⟩ := h
  have hclean := clean_makeCmdAmdWord hl hc
  match c, hl with
  | [c0, c1, c2], _ =>
    have hv : ∀ x ∈ [c0, c1, c2], validChar .data x = true := hc
    have heq := makeCmdAmdWord_eq (hv c0 (by simp)) (hv c1 (by simp)) (hv c2 (by simp))
    have haddr : (makeCmdAmdWord [c0, c1, c2]).address = [c0, c1, c2] := by rw [heq]
    exact ⟨by rw [heq], hclean.chars.trans (by rw [haddr])⟩

theorem amdFeed_encodeAmdFrom {cs : List Str} (h : ∀ c ∈ cs, Chunk64 c) (acc : Str) (i : Nat) :
    amdFeed { collecting := true, acc := acc } (encodeAmdFrom i cs) =
      ({ collecting := true, acc := acc ++ cs.flatten }, []) := by
  induction cs generalizing acc i with
  | nil => simp [encodeAmdFrom, amdFeed]
  | cons c cs ih =>
    have hc := h c List.mem_cons_self
    have hword : ∀ t, t = .data ∨ t = .rep →
        amdStep { collecting := true, acc := acc } (makeWord t c) =
          ({ collecting := true, acc := acc ++ c }, []) := by
      intro t ht
      obtain ⟨htype, hdec⟩ := makeWord_chunk64 ht hc
      exact amdStep_text hc.2 (by rw [htype]; exact ht) hdec
    simp only [encodeAmdFrom, amdFeed]
    rw [hword _ (by split <;> simp)]
    dsimp only
    rw [ih (fun d hd => h d (List.mem_cons_of_mem c hd))]
    simp

/-- The text with the blanks that fill its last word. -/
def padded (t : Str) : Str := t ++ List.replicate ((3 - t.length % 3) % 3) ' '

theorem flatten_triples : ∀ t : Str, (triples ' ' t).flatten = padded t
  | [] => rfl
  | [_] => rfl
  | [_, _] => rfl
  | a :: b :: c :: rest => by
    have ih := flatten_triples rest
    have hlen : (a :: b :: c :: rest).length % 3 = rest.length % 3 := by
      simp only [List.length_cons]
      omega
    simp only [triples, List.flatten_cons, ih, padded, hlen]
    simp

theorem sanitizeAmd_eq {x d : Char} (hd : d ≠ '?') (h : sanitizeAmd x = d) : x = d := by
  unfold sanitizeAmd at h
  split at h
  · exact h
  · exact absurd h.symm hd

/-- The header names another protocol only if the text does. -/
theorem header_ne {text : Str} {c : Str} {cs : List Str}
    (hcs : triples ' ' ((text.take 90).map sanitizeAmd) = c :: cs)
    (hid : ¬ ['D', 'T', 'M'] <+: text ∧ ¬ ['D', 'B', 'M'] <+: text) :
    c ≠ ['D', 'T', 'M'] ∧ c ≠ ['D', 'B', 'M'] := by
  have key : ∀ x y z : Char, x ≠ '?' → y ≠ '?' → z ≠ '?' → z ≠ ' ' → y ≠ ' ' →
      ¬ [x, y, z] <+: text → c ≠ [x, y, z] := by
    intro x y z hx hy hz hz' hy' hno heq
    rw [heq] at hcs
    match text, hno, hcs with
    | [], _, hcs => simp [triples] at hcs
    | [_], _, hcs =>
      simp only [List.take_succ_cons, List.take_nil, List.map_cons, List.map_nil, triples,
        List.cons.injEq] at hcs
      exact hy' hcs.1.2.1.symm
    | [_, _], _, hcs =>
      simp only [List.take_succ_cons, List.take_nil, List.map_cons, List.map_nil, triples,
        List.cons.injEq] at hcs
      exact hz' hcs.1.2.2.1.symm
    | t0 :: t1 :: t2 :: rest, hno, hcs =>
      simp only [List.take_succ_cons, List.map_cons, triples, List.cons.injEq] at hcs
      obtain ⟨⟨h0, h1, h2, -⟩, -⟩ := hcs
      refine hno ⟨rest, ?_⟩
      rw [sanitizeAmd_eq hx h0, sanitizeAmd_eq hy h1, sanitizeAmd_eq hz h2]
      rfl
  exact ⟨key 'D' 'T' 'M' (by decide) (by decide) (by decide) (by decide) (by decide) hid.1,
    key 'D' 'B' 'M' (by decide) (by decide) (by decide) (by decide) (by decide) hid.2⟩

/-- **The accumulator collects the whole text.** -/
theorem amdFeed_encodeAmd (hst : st.collecting = false) {text : Str} (hne : text ≠ [])
    (hid : ¬ ['D', 'T', 'M'] <+: text ∧ ¬ ['D', 'B', 'M'] <+: text) :
    amdFeed st (encodeAmd text) =
      ({ collecting := true, acc := padded ((text.take 90).map sanitizeAmd) }, []) := by
  have hchunks : ∀ c ∈ triples ' ' ((text.take 90).map sanitizeAmd), Chunk64 c := chunk64_of_mem
  rw [← flatten_triples]
  unfold encodeAmd
  cases hcs : triples ' ' ((text.take 90).map sanitizeAmd) with
  | nil =>
    have hlen := length_triples ' ' ((text.take 90).map sanitizeAmd)
    rw [hcs, List.length_map, List.length_take, List.length_nil] at hlen
    have hpos := List.length_pos_iff.mpr hne
    omega
  | cons c cs =>
    rw [hcs] at hchunks
    have hc := hchunks c List.mem_cons_self
    obtain ⟨htype, hdec⟩ := makeCmdAmdWord_chunk64 hc
    simp only [amdFeed]
    rw [amdStep_header hst hc.1 hc.2 (header_ne hcs hid) htype hdec]
    dsimp only
    rw [amdFeed_encodeAmdFrom fun d hd => hchunks d (List.mem_cons_of_mem c hd)]
    rfl

end Text

/-! ## What is left of the text -/

section Trim

variable {t : Str}

theorem isFiller_iff (c : Char) : isFiller c = true ↔ c = ' ' ∨ c = '@' := by
  simp [isFiller]

/-- What is dropped as a blank is dropped as a filler. -/
theorem rdropWhile_append_of_all {p : Char → Bool} {u v : Str} (h : ∀ c ∈ v, p c = true) :
    (u ++ v).rdropWhile p = u.rdropWhile p := by
  induction v using List.reverseRecOn with
  | nil => rw [List.append_nil]
  | append_singleton v c ih =>
    rw [← List.append_assoc, List.rdropWhile_concat_pos p _ _ (h c (by simp))]
    exact ih fun d hd => h d (by simp [hd])

theorem rdropWhile_padded :
    (padded t).rdropWhile isFiller = (t.rdropWhile (· == ' ')).rdropWhile isFiller := by
  have hblank : ∀ c ∈ t.rtakeWhile (· == ' '), isFiller c = true := by
    intro c hc
    have := List.mem_rtakeWhile_imp hc
    exact (isFiller_iff c).mpr (Or.inl (by simpa using this))
  have hpad : ∀ c ∈ List.replicate ((3 - t.length % 3) % 3) ' ', isFiller c = true := by
    intro c hc
    rw [List.eq_of_mem_replicate hc]
    rfl
  unfold padded
  rw [rdropWhile_append_of_all hpad]
  conv_lhs => rw [← List.rdropWhile_append_rtakeWhile (p := (· == ' ')) (l := t)]
  exact rdropWhile_append_of_all hblank

theorem rdropWhile_ne_nil_iff :
    (t.rdropWhile (· == ' ')).rdropWhile isFiller ≠ [] ↔ ∃ c ∈ t, isFiller c = false := by
  rw [← rdropWhile_padded, ne_eq, List.rdropWhile_eq_nil_iff]
  constructor
  · intro h
    push Not at h
    obtain ⟨c, hc, hf⟩ := h
    rcases List.mem_append.mp hc with hc | hc
    · exact ⟨c, hc, by simpa using hf⟩
    · rw [List.eq_of_mem_replicate hc] at hf
      exact absurd rfl hf
  · rintro ⟨c, hc, hf⟩ h
    rw [h c (List.mem_append_left _ hc)] at hf
    exact absurd hf (by decide)

/-- Nothing more is dropped unless an `'@'` stands last. -/
theorem rdropWhile_eq_self_iff_getLast :
    (t.rdropWhile (· == ' ')).rdropWhile isFiller = t.rdropWhile (· == ' ') ↔
      (t.rdropWhile (· == ' ')).getLast? ≠ some '@' := by
  rw [List.rdropWhile_eq_self_iff]
  constructor
  · intro h hlast
    have hne : t.rdropWhile (· == ' ') ≠ [] := by
      intro hnil
      rw [hnil] at hlast
      exact absurd hlast (by simp)
    rw [List.getLast?_eq_some_getLast hne] at hlast
    exact h hne (by rw [Option.some.inj hlast]; rfl)
  · intro h hne hf
    rcases (isFiller_iff _).mp hf with hl | hl
    · exact List.rdropWhile_last_not (· == ' ') t hne (by rw [hl]; rfl)
    · exact h (by rw [List.getLast?_eq_some_getLast hne, hl])

theorem length_padded : (padded t).length = t.length + (3 - t.length % 3) % 3 := by
  simp [padded]

/-- **What `amd_flush` returns is the text without its trailing blanks** exactly when it is
`Kept`. -/
theorem flushed_padded_iff : flushed (padded t) = t.rdropWhile (· == ' ') ↔ Kept t := by
  unfold flushed Kept
  by_cases hne : ∃ c ∈ t, isFiller c = false
  · have hdrop := rdropWhile_ne_nil_iff.mpr hne
    have hall : ¬ ∀ c ∈ t, isFiller c = true := by
      intro h
      obtain ⟨c, hc, hf⟩ := hne
      rw [h c hc] at hf
      exact absurd hf (by decide)
    rw [if_neg (by rw [rdropWhile_padded]; exact hdrop), rdropWhile_padded,
      rdropWhile_eq_self_iff_getLast]
    constructor
    · exact fun h => Or.inl ⟨hne, h⟩
    · rintro (h | h)
      · exact h.2
      · exact absurd h.1 hall
  · have hall : ∀ c ∈ t, isFiller c = true := by
      push Not at hne
      simpa using hne
    have hdrop : (t.rdropWhile (· == ' ')).rdropWhile isFiller = [] := by
      by_contra h
      exact hne (rdropWhile_ne_nil_iff.mp h)
    rw [if_pos (by rw [rdropWhile_padded]; exact hdrop)]
    have hself : t.rdropWhile (· == ' ') = t ↔ t.getLast? ≠ some ' ' := by
      rw [List.rdropWhile_eq_self_iff]
      constructor
      · intro h hlast
        have hnil : t ≠ [] := by
          rintro rfl
          exact absurd hlast (by simp)
        rw [List.getLast?_eq_some_getLast hnil] at hlast
        exact h hnil (by rw [Option.some.inj hlast]; rfl)
      · intro h hnil hl
        exact h (by rw [List.getLast?_eq_some_getLast hnil]; simpa using hl)
    have hle : (t.rdropWhile (· == ' ')).length ≤ t.length :=
      (List.rdropWhile_prefix (· == ' ') t).length_le
    constructor
    · intro heq
      have hlen := congrArg List.length heq
      rw [length_padded] at hlen
      have hpad : (3 - t.length % 3) % 3 = 0 := by omega
      refine Or.inr ⟨hall, by omega, hself.mp ?_⟩
      rw [← heq]
      unfold padded
      rw [hpad, List.replicate_zero, List.append_nil]
    · rintro (h | ⟨-, hdvd, hlast⟩)
      · exact absurd h.1 hne
      · have hpad : (3 - t.length % 3) % 3 = 0 := by omega
        rw [hself.mpr hlast]
        unfold padded
        rw [hpad, List.replicate_zero, List.append_nil]

theorem isFiller_sanitizeAmd (c : Char) : isFiller (sanitizeAmd c) = isFiller c := by
  unfold sanitizeAmd
  split
  · rfl
  · rename_i h
    have hsp : c ≠ ' ' := fun hc => h (by rw [hc]; decide)
    have hat : c ≠ '@' := fun hc => h (by rw [hc]; decide)
    simp [isFiller, hsp, hat]

theorem sanitizeAmd_blank (c : Char) : (sanitizeAmd c == ' ') = (c == ' ') := by
  by_cases hc : c = ' '
  · rw [hc]
    rfl
  · have hs : sanitizeAmd c ≠ ' ' := fun h => hc (sanitizeAmd_eq (by decide) h)
    simp [hc, hs]

/-- Whether a text is kept is seen before its characters are replaced. -/
theorem kept_map_sanitizeAmd : Kept (t.map sanitizeAmd) ↔ Kept t := by
  have hdrop : (t.map sanitizeAmd).rdropWhile (· == ' ') =
      (t.rdropWhile (· == ' ')).map sanitizeAmd := by
    unfold List.rdropWhile
    rw [← List.map_reverse, List.dropWhile_map, ← List.map_reverse]
    congr 3
    funext c
    exact sanitizeAmd_blank c
  have hlast : ∀ (u : Str) (d : Char), d ≠ '?' → 0x20 ≤ d.toNat ∧ d.toNat ≤ 0x5F →
      ((u.map sanitizeAmd).getLast? ≠ some d ↔ u.getLast? ≠ some d) := by
    intro u d hq hd
    rw [List.getLast?_map, not_iff_not]
    constructor
    · intro h
      obtain ⟨x, hx, hxd⟩ := Option.map_eq_some_iff.mp h
      rw [hx, sanitizeAmd_eq hq hxd]
    · intro h
      rw [h, Option.map_some]
      unfold sanitizeAmd
      rw [if_pos hd]
  unfold Kept
  rw [hdrop, hlast _ '@' (by decide) (by decide), hlast _ ' ' (by decide) (by decide)]
  simp [isFiller_sanitizeAmd]

end Trim

/-! ## Whole frames -/

theorem amdFeed_conclusion {self : Str} (hs : ∀ c ∈ self, validBasic38 c = true) (isReject : Bool)
    (acc : Str) (hacc : flushed acc ≠ []) :
    (amdFeed { collecting := true, acc := acc } (conclusion self isReject)).2 = [flushed acc] := by
  have htype : (if isReject then PreambleType.twas else .tis) ≠ .unknown := by
    cases isReject <;> decide
  have hcmd : (if isReject then PreambleType.twas else .tis) ≠ .cmd := by
    cases isReject <;> decide
  have hsilent : ∀ w ∈ encodeExt (chunk self).tail, Silent w := by
    intro w hw ht
    have hword := addressWord_encode hs htype hcmd
      (w := w) (by rw [encode_cons]; exact List.mem_cons_of_mem _ hw)
    exact absurd ht hword.type_ne_cmd
  obtain ⟨hl, hx⟩ := chunk_chars hs (headD_mem_chunk self)
  have hfirst : (encodeFirst self (if isReject then .twas else .tis)).type = .tis ∨
      (encodeFirst self (if isReject then .twas else .tis)).type = .twas := by
    unfold encodeFirst
    rw [(makeWord_chunk htype hl hx).1]
    cases isReject <;> simp
  unfold conclusion
  rw [encode_cons]
  simp only [amdFeed]
  rw [amdStep_conclusion hfirst]
  dsimp only
  rw [amdFeed_idle rfl hsilent, if_neg hacc]

theorem flushed_ne_nil {acc : Str} (h : acc ≠ []) : flushed acc ≠ [] := by
  unfold flushed
  split
  · exact h
  · assumption

theorem amdFeed_messageFrame {before : List Frame} (hb : ∀ f ∈ before, f.Accepted ∧ f.WithoutText)
    {text self : Str} (hne : text ≠ []) (hid : ¬ ['D', 'T', 'M'] <+: text ∧ ¬ ['D', 'B', 'M'] <+: text)
    (hs : ∀ c ∈ self, validBasic38 c = true) (isReject : Bool) :
    (amdFeed {} (messageFrame before text self isReject)).2 =
      [flushed (padded ((text.take 90).map sanitizeAmd))] := by
  have hpad : padded ((text.take 90).map sanitizeAmd) ≠ [] := by
    obtain ⟨x, xs, rfl⟩ := List.exists_cons_of_ne_nil hne
    simp [padded]
  unfold messageFrame
  rw [amdFeed_append, amdFeed_append, amdFeed_idle rfl (silent_of_flatMap hb),
    amdFeed_encodeAmd rfl hne hid]
  exact amdFeed_conclusion hs isReject _ (flushed_ne_nil hpad)

/-- **A text arrives once and without its trailing blanks**, or no message does for a frame without
a text, exactly when the text is `Kept`. -/
theorem amdFeed_frame_iff (before : List Frame) (text self : Str) (isReject : Bool)
    (hb : ∀ f ∈ before, f.Accepted ∧ f.WithoutText) (hs : ∀ c ∈ self, validBasic38 c = true)
    (hid : ¬ ['D', 'T', 'M'] <+: text ∧ ¬ ['D', 'B', 'M'] <+: text) :
    (amdFeed {} (messageFrame before text self isReject)).2 =
        (if encodeAmd text = [] then [] else [amdText text]) ↔ Kept (text.take 90) := by
  by_cases hne : text = []
  · subst hne
    have hconc : ∀ w ∈ conclusion self isReject, Silent w := by
      have h := silent_of_withoutText (f := .conclusion self isReject)
        (by simpa [Frame.Accepted, Frame.addresses] using hs) trivial
      exact h
    refine iff_of_true ?_ (Or.inr ⟨by simp, by simp, by simp⟩)
    have hnil : encodeAmd [] = [] := rfl
    unfold messageFrame
    rw [if_pos hnil, amdFeed_idle rfl]
    intro w hw
    rcases List.mem_append.mp hw with hw | hw
    · rw [hnil, List.append_nil] at hw
      exact silent_of_flatMap hb w hw
    · exact hconc w hw
  · have henc : encodeAmd text ≠ [] := by
      intro h
      have hfeed := amdFeed_encodeAmd (rfl : ({} : AmdAccumulator).collecting = false) hne hid
      rw [h] at hfeed
      exact absurd (congrArg (fun r => r.1.collecting) hfeed) (by simp [amdFeed])
    rw [if_neg henc, amdFeed_messageFrame hb hne hid hs]
    unfold amdText
    rw [List.cons.injEq, eq_self_iff_true, and_true, flushed_padded_iff, kept_map_sanitizeAmd]

/-- A call to `JOE` from `SAM` with the text `HI`. -/
theorem amdFeed_frame_iff_hi :
    (amdFeed {} (messageFrame [.leadingCall ['J', 'O', 'E'], .fromId ['S', 'A', 'M']] ['H', 'I']
      ['S', 'A', 'M'] false)).2 =
      if encodeAmd ['H', 'I'] = [] then [] else [amdText ['H', 'I']] :=
  (amdFeed_frame_iff [.leadingCall ['J', 'O', 'E'], .fromId ['S', 'A', 'M']] ['H', 'I']
    ['S', 'A', 'M'] false
    (by simp [Frame.Accepted, Frame.addresses, Frame.WithoutText]; decide +kernel)
    (by simp; decide +kernel) (by simp)).mpr (Or.inl ⟨⟨'H', by decide, by decide⟩, by decide⟩)

/-- **The text `HI@` arrives as `HI`.** -/
theorem amdFeed_frame_fail : ¬ ∀ (before : List Frame) (text self : Str) (isReject : Bool),
    (∀ f ∈ before, f.Accepted ∧ f.WithoutText) → (∀ c ∈ self, validBasic38 c = true) →
    (¬ ['D', 'T', 'M'] <+: text ∧ ¬ ['D', 'B', 'M'] <+: text) →
    (amdFeed {} (messageFrame before text self isReject)).2 =
      (if encodeAmd text = [] then [] else [amdText text]) := by
  intro h
  have hb : ∀ f ∈ [Frame.leadingCall ['J', 'O', 'E']], f.Accepted ∧ f.WithoutText := by
    simp [Frame.Accepted, Frame.addresses, Frame.WithoutText]
    decide +kernel
  have hs : ∀ c ∈ ['S', 'A', 'M'], validBasic38 c = true := by
    simp
    decide +kernel
  have hid : ¬ ['D', 'T', 'M'] <+: ['H', 'I', '@'] ∧ ¬ ['D', 'B', 'M'] <+: ['H', 'I', '@'] := by
    simp
  have hfeed := h _ ['H', 'I', '@'] _ false hb hs hid
  have henc : encodeAmd ['H', 'I', '@'] ≠ [] := by simp [encodeAmd, triples]
  rw [amdFeed_messageFrame hb (by simp) hid hs, if_neg henc] at hfeed
  exact absurd hfeed (by decide)

end OpenALE
