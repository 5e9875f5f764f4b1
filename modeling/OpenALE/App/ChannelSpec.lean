import OpenALE.App.ChannelStore

/-!
# Channel lines: `parse_channel_spec` and `format_channel_line`

Model of the two functions of `src/App/ale_controller.cpp`. A line of the station file and the
argument of a command are read the same way. `.error ()` is an exception that leaves the function.
The cutting of comments, the split into words and the id at the front are those of `ChannelStore`,
which the source has twice.

Results:
* `readFlags_printed`: the flags of a channel are read back.
* `spec_parseChannelSpec`: what every parsed channel satisfies.
* `parseChannelSpec_formatChannelLine`: what a formatted line is parsed to.
-/

namespace OpenALE

namespace ChannelSpec

open ChannelStore (IsWord isWord_nil isWord_cons isWord_append isWord_digits words words_of_not_mem
  mem_words readId readId_digits isWord_readId mem_readId label_intercalate tokens_label
  tokens_isWord_cons)

/-! ## Reading -/

/-- `kModes` of `is_ale_mode`. -/
def aleModes : List Str :=
  [['U', 'S', 'B'], ['L', 'S', 'B'], ['A', 'M'], ['F', 'M'], ['F', 'M', 'W'], ['C', 'W', 'U'],
    ['C', 'W', 'L'], ['F', 'S', 'K'], ['R', 'T', 'T', 'Y'], ['U', 'S', 'B', '-', 'D'],
    ['L', 'S', 'B', '-', 'D']]

/-- `is_ale_mode`. -/
def isAleMode (s : Str) : Bool := aleModes.contains s

/-- The two frequencies and the tokens behind them; `none` where a conversion throws, which the
source catches. -/
def readFrequencies : List Str → Option ((Nat × Nat) × List Str)
  | [] => none
  | tok :: rest =>
    if tok.contains ':' then do
      let rx ← Text.stoul (tok.takeWhile (· != ':'))
      let txStr := (tok.dropWhile (· != ':')).drop 1
      let tx ← if txStr = [] then some 0 else Text.stoul txStr
      some ((rx % 2 ^ 32, tx % 2 ^ 32), rest)
    else do
      let rx ← Text.stoul tok
      match rest with
      | [] => some ((rx % 2 ^ 32, 0), [])
      | next :: rest' =>
        if next.all Char.isDigit then do
          let tx ← Text.stoul next
          some ((rx % 2 ^ 32, tx % 2 ^ 32), rest')
        else some ((rx % 2 ^ 32, 0), next :: rest')

/-- The mode, if there is one. -/
def readMode : List Str → Str × List Str
  | [] => (['U', 'S', 'B'], [])
  | tok :: toks => if isAleMode tok then (tok, toks) else (['U', 'S', 'B'], tok :: toks)

/-- The codes without a value. -/
def flagCodes : List Str :=
  [['O', 'F', 'F'], ['R', 'X'], ['T', 'X'], ['I', 'C'], ['I', 'S'], ['I', 'R'], ['A', 'O']]

/-- The mark of the power code. -/
def pwr : Str := ['P', 'W', 'R', ':']

/-- `is_pwr`. -/
def isPwr (code : Str) : Bool :=
  pwr.isPrefixOf code && decide (4 < code.length) && (code.drop 4).all Char.isDigit

/-- A code the source recognises. -/
def isCode (code : Str) : Bool := flagCodes.contains code || isPwr code

/-- What a code is trimmed of. -/
def isPad (c : Char) : Bool := c == ' ' || c == '\t'

/-- The codes between the brackets. -/
def codes (tok : Str) : List Str :=
  ((((tok.drop 1).dropLast).splitOn ',').map fun c =>
    (c.dropWhile isPad).rdropWhile isPad).filter fun c => !c.isEmpty

/-- `any_code && all_recognized`, of a token in brackets. -/
def isFlags (tok : Str) : Bool :=
  tok.head? == some '[' && tok.getLast? == some ']' && !(codes tok).isEmpty &&
    (codes tok).all isCode

/-- The body of the loop over the codes. -/
def applyCode (ch : Channel) (code : Str) : Except Unit Channel :=
  if code = ['O', 'F', 'F'] then .ok { ch with enabled := false }
  else if code = ['R', 'X'] then .ok { ch with rxOnly := true }
  else if code = ['T', 'X'] then .ok { ch with txOnly := true }
  else if code = ['I', 'C'] then .ok { ch with inhibitCalling := true }
  else if code = ['I', 'S'] then .ok { ch with inhibitSounding := true }
  else if code = ['I', 'R'] then .ok { ch with inhibitReporting := true }
  else if code = ['A', 'O'] then .ok { ch with aleOnly := true }
  else if pwr.isPrefixOf code then
    match Text.stoi (code.drop 4) with
    | none => .error ()
    | some v => .ok { ch with powerPct := (max 0 (min v 100)).toNat }
  else .ok ch

/-- The flags token, if there is one. -/
def readFlags (ch : Channel) : List Str → Except Unit (Channel × List Str)
  | [] => .ok (ch, [])
  | tok :: toks =>
    if isFlags tok then do
      let ch' ← (codes tok).foldlM applyCode ch
      .ok (ch', toks)
    else .ok (ch, tok :: toks)

/-- The channel of the tokens behind the id. -/
def readSpec (id : Str) (toks : List Str) : Except Unit (Option Channel) :=
  match readFrequencies toks with
  | none => .ok none
  | some ((rx, tx), rest) =>
    if rx = 0 then .ok none
    else
      let mode := (readMode rest).1
      do
        let (ch, label) ← readFlags
          { id := id, rxFrequencyHz := rx, txFrequencyHz := tx, rxMode := mode, txMode := mode }
          (readMode rest).2
        .ok (some { ch with label := List.intercalate [' '] label })

/-- `parse_channel_spec`. -/
def parseChannelSpec (raw : Str) : Except Unit (Option Channel) :=
  readSpec (readId (words raw)).1 (readId (words raw)).2

/-! ## Writing -/

/-- The codes of a channel's flags. -/
def printedCodes (ch : Channel) : List Str :=
  (if ch.enabled then [] else [['O', 'F', 'F']]) ++ (if ch.rxOnly then [['R', 'X']] else []) ++
    (if ch.txOnly then [['T', 'X']] else []) ++ (if ch.inhibitCalling then [['I', 'C']] else []) ++
    (if ch.inhibitSounding then [['I', 'S']] else []) ++
    (if ch.inhibitReporting then [['I', 'R']] else []) ++ (if ch.aleOnly then [['A', 'O']] else []) ++
    if ch.powerPct ≠ 100 then [pwr ++ Decimal.digits ch.powerPct] else []

/-- The flags token. -/
def flagsToken (ch : Channel) : Str := '[' :: (List.intercalate [','] (printedCodes ch) ++ [']'])

/-- What `snprintf` writes into `buf[64]`; `%s` ends at a null character. -/
def buf (ch : Channel) : Str :=
  (Decimal.digits ch.rxFrequencyHz ++ ' ' :: (Decimal.digits ch.txFrequencyHz ++ ' ' ::
    ch.rxMode.takeWhile (· != '\x00'))).take 63

/-- `format_channel_line`. -/
def formatChannelLine (ch : Channel) : Str :=
  (if ch.id ≠ [] then ['I', 'D', ':'] ++ ch.id ++ [' '] else []) ++ buf ch ++
    (if printedCodes ch ≠ [] then ' ' :: flagsToken ch else []) ++
    if ch.label ≠ [] then ' ' :: ch.label else []

/-- The fields the channel type documents as persistent: all but the running ones. -/
def persistent (ch : Channel) : Channel := { ch with lastScanTimeMs := 0 }

/-- What the line has no place for keeps its default. -/
structure Unprinted (ch : Channel) : Prop where
  voiceUse : ch.voiceUse = true
  dataUse : ch.dataUse = true
  secure : ch.secure = false
  antenna : ch.antenna = 1
  soundingIntervalMs : ch.soundingIntervalMs = 0

/-- What every parsed channel satisfies, its label apart. -/
structure Fields (ch : Channel) : Prop extends Unprinted ch where
  rxPos : ch.rxFrequencyHz ≠ 0
  rx : ch.rxFrequencyHz < 2 ^ 32
  tx : ch.txFrequencyHz < 2 ^ 32
  id : IsWord ch.id
  mode : isAleMode ch.rxMode = true
  sameMode : ch.txMode = ch.rxMode
  power : ch.powerPct ≤ 100

/-- A label of words set apart by single spaces, without a comment. -/
structure Tidy (label : Str) : Prop where
  comment : '#' ∉ label
  spaced : List.intercalate [' '] (Text.tokens Text.isSpace label) = label

variable {ch ch' : Channel} {code tok : Str} {toks : List Str}

/-! ## The flags token -/

theorem foldlM_invariant {P : Channel → Prop}
    (step : ∀ ch code ch', P ch → applyCode ch code = .ok ch' → P ch') {cs : List Str}
    (h : P ch) (hrun : cs.foldlM applyCode ch = .ok ch') : P ch' := by
  induction cs generalizing ch with
  | nil =>
    cases hrun
    exact h
  | cons code cs ih =>
    rw [List.foldlM_cons] at hrun
    cases hcode : applyCode ch code with
    | error e =>
      rw [hcode] at hrun
      cases hrun
    | ok next =>
      rw [hcode] at hrun
      exact ih (step ch code next h hcode) hrun

/-- A code changes flags and power only, and keeps the power in range. -/
theorem Fields.applyCode (h : Fields ch) (hrun : applyCode ch code = .ok ch') : Fields ch' := by
  unfold ChannelSpec.applyCode at hrun
  split_ifs at hrun
  all_goals try (cases hrun; exact { h with })
  split at hrun
  · cases hrun
  · rename_i v _
    cases hrun
    exact { h with power := by change (max 0 (min v 100)).toNat ≤ 100; omega }

theorem readFlags_of_not {toks : List Str} (h : ∀ tok ∈ toks.head?, isFlags tok = false) :
    readFlags ch toks = .ok (ch, toks) := by
  cases toks with
  | nil => rfl
  | cons tok toks => rw [readFlags, if_neg (by rw [h tok rfl]; decide)]

theorem readFlags_of_isFlags (h : isFlags tok = true) :
    readFlags ch (tok :: toks) = ((codes tok).foldlM applyCode ch).map fun ch' => (ch', toks) := by
  rw [readFlags, if_pos h]
  cases (codes tok).foldlM applyCode ch <;> rfl

/-! ## The printed flags -/

theorem mem_printedCodes (h : code ∈ printedCodes ch) :
    code ∈ flagCodes ∨ code = pwr ++ Decimal.digits ch.powerPct := by
  have hpick {b : Prop} [Decidable b] {c : Str} (hc : code ∈ if b then [c] else []) : code = c := by
    split at hc
    · exact List.mem_singleton.mp hc
    · cases hc
  simp only [printedCodes, List.mem_append] at h
  obtain ((((((h | h) | h) | h) | h) | h) | h) | h := h
  · split at h
    · cases h
    · rw [List.mem_singleton.mp h]
      exact .inl (by decide)
  all_goals
    have heq := hpick h
    subst heq
  iterate 6 exact .inl (by decide)
  exact .inr rfl

theorem isCode_of_mem (h : code ∈ printedCodes ch) : isCode code = true := by
  obtain h | rfl := mem_printedCodes h
  · rw [isCode, List.contains_iff_mem.mpr h, Bool.true_or]
  · have hlen : 4 < (pwr ++ Decimal.digits ch.powerPct).length := by
      rw [List.length_append]
      exact Nat.lt_add_of_pos_right (List.length_pos_of_ne_nil (Decimal.digits_ne_nil _))
    have hdigits : ((pwr ++ Decimal.digits ch.powerPct).drop 4).all Char.isDigit = true :=
      List.all_eq_true.mpr fun c hc => Decimal.isDigit_of_mem (n := ch.powerPct) hc
    rw [isCode, isPwr, decide_eq_true hlen, hdigits]
    simp

/-- No character of a code separates anything. -/
theorem isWord_of_mem (h : code ∈ printedCodes ch) :
    code ≠ [] ∧ IsWord code ∧ ',' ∉ code ∧ ∀ c ∈ code, isPad c = false := by
  have hpad {t : Str} (ht : IsWord t) : ∀ c ∈ t, isPad c = false := by
    intro c hc
    have hspace := (ht c hc).1
    unfold isPad
    rw [Bool.or_eq_false_iff, beq_eq_false_iff_ne, beq_eq_false_iff_ne]
    constructor <;> rintro rfl <;> revert hspace <;> decide
  have hflag : ∀ t ∈ flagCodes, t ≠ [] ∧
      (t.all fun c => !Text.isSpace c && c != '#') = true ∧ ',' ∉ t := by decide
  obtain h | rfl := mem_printedCodes h
  · obtain ⟨hne, hall, hcomma⟩ := hflag code h
    have hword : IsWord code := fun c hc => by simpa using List.all_eq_true.mp hall c hc
    exact ⟨hne, hword, hcomma, hpad hword⟩
  · have hpwr : IsWord pwr := by
      simp only [pwr, isWord_cons]
      exact ⟨by decide, by decide, by decide, by decide, isWord_nil⟩
    have hword : IsWord (pwr ++ Decimal.digits ch.powerPct) := isWord_append hpwr (isWord_digits _)
    refine ⟨by simp [pwr], hword, ?_, hpad hword⟩
    rw [List.mem_append]
    rintro (hc | hc)
    · revert hc
      decide
    · exact absurd (Decimal.isDigit_of_mem hc) (by decide)

theorem isWord_flagsToken (ch : Channel) : IsWord (flagsToken ch) := by
  have hclose : IsWord [']'] := isWord_cons.mpr ⟨by decide, isWord_nil⟩
  refine isWord_cons.mpr ⟨by decide, isWord_append (fun c hc => ?_) hclose⟩
  obtain rfl | ⟨t, ht, hc⟩ := Text.mem_intercalate hc
  · decide
  · exact (isWord_of_mem ht).2.1 c hc

theorem trim_eq_self {q : Char → Bool} {t : Str} (h : ∀ c ∈ t, q c = false) :
    (t.dropWhile q).rdropWhile q = t := by
  have hfront : t.dropWhile q = t :=
    List.dropWhile_eq_self_iff.mpr fun hl => by simp [h _ (List.getElem_mem hl)]
  rw [hfront, List.rdropWhile_eq_self_iff]
  intro hl
  simp [h _ (List.getLast_mem hl)]

theorem codes_flagsToken (h : printedCodes ch ≠ []) : codes (flagsToken ch) = printedCodes ch := by
  have hbody : ((flagsToken ch).drop 1).dropLast = List.intercalate [','] (printedCodes ch) := by
    rw [flagsToken, List.drop_succ_cons, List.drop_zero, List.dropLast_concat]
  have htrim : (printedCodes ch).map (fun c => (c.dropWhile isPad).rdropWhile isPad) =
      printedCodes ch := by
    conv_rhs => rw [← List.map_id (printedCodes ch)]
    exact List.map_congr_left fun c hc => trim_eq_self (isWord_of_mem hc).2.2.2
  have hfilter : (printedCodes ch).filter (fun c => !c.isEmpty) = printedCodes ch :=
    List.filter_eq_self.mpr fun c hc => by simpa using (isWord_of_mem hc).1
  rw [codes, hbody, List.splitOn_intercalate ',' (fun c hc => (isWord_of_mem hc).2.2.1) h, htrim,
    hfilter]

theorem isFlags_flagsToken (h : printedCodes ch ≠ []) : isFlags (flagsToken ch) = true := by
  have hall : (printedCodes ch).all isCode = true := List.all_eq_true.mpr fun c hc => isCode_of_mem hc
  have hlast : (flagsToken ch).getLast? = some ']' := by
    rw [flagsToken, ← List.cons_append, List.getLast?_concat]
  rw [isFlags, hlast, codes_flagsToken h, hall]
  simpa [flagsToken] using h

theorem foldlM_append {cs cs' : List Str} {ch'' : Channel} (h : cs.foldlM applyCode ch = .ok ch')
    (h' : cs'.foldlM applyCode ch' = .ok ch'') : (cs ++ cs').foldlM applyCode ch = .ok ch'' := by
  rw [List.foldlM_append, h]
  exact h'

/-- A printed flag moves its field from the default to the printed value. -/
theorem foldlM_pick (code : Str) (b : Bool) (f : Bool → Channel) (hset : applyCode (f false) code = .ok (f true)) :
    (if b = true then [code] else []).foldlM applyCode (f false) = .ok (f b) := by
  cases b with
  | false => rfl
  | true =>
    rw [if_pos rfl, List.foldlM_cons, hset]
    rfl

theorem applyCode_pwr {n : Nat} (h : n ≤ 100) :
    applyCode ch (pwr ++ Decimal.digits n) = .ok { ch with powerPct := n } := by
  have hstoi : Text.stoi ((pwr ++ Decimal.digits n).drop 4) = some (n : Int) :=
    Text.stoi_digits (n := n) (by omega)
  have hclamp : (max 0 (min (n : Int) 100)).toNat = n := by omega
  have hpre : pwr.isPrefixOf (pwr ++ Decimal.digits n) = true := by simp
  have hne {c : Char} {t : Str} (hc : c ≠ 'P') : pwr ++ Decimal.digits n ≠ c :: t := by
    intro heq
    exact hc (List.cons.inj heq).1.symm
  rw [applyCode, if_neg (hne (by decide)), if_neg (hne (by decide)), if_neg (hne (by decide)),
    if_neg (hne (by decide)), if_neg (hne (by decide)), if_neg (hne (by decide)),
    if_neg (hne (by decide)), if_pos hpre, hstoi]
  simp only [hclamp]

/-- A channel without flags. -/
def plain (id : Str) (rx tx : Nat) (mode : Str) : Channel where
  id := id
  rxFrequencyHz := rx
  txFrequencyHz := tx
  rxMode := mode
  txMode := mode

/-- The flags and the power of a channel, on another. -/
def withFlags (ch base : Channel) : Channel :=
  { base with
    enabled := ch.enabled
    rxOnly := ch.rxOnly
    txOnly := ch.txOnly
    inhibitCalling := ch.inhibitCalling
    inhibitSounding := ch.inhibitSounding
    inhibitReporting := ch.inhibitReporting
    aleOnly := ch.aleOnly
    powerPct := ch.powerPct }

/-- **The printed codes set the flags they were printed for.** -/
theorem foldlM_printedCodes (id : Str) (rx tx : Nat) (mode : Str) (h : ch.powerPct ≤ 100) :
    (printedCodes ch).foldlM applyCode (plain id rx tx mode) =
      .ok (withFlags ch (plain id rx tx mode)) := by
  let c0 := plain id rx tx mode
  let c1 := { c0 with enabled := ch.enabled }
  let c2 := { c1 with rxOnly := ch.rxOnly }
  let c3 := { c2 with txOnly := ch.txOnly }
  let c4 := { c3 with inhibitCalling := ch.inhibitCalling }
  let c5 := { c4 with inhibitSounding := ch.inhibitSounding }
  let c6 := { c5 with inhibitReporting := ch.inhibitReporting }
  let c7 := { c6 with aleOnly := ch.aleOnly }
  have hoff : (if ch.enabled = true then [] else [['O', 'F', 'F']]).foldlM applyCode c0 = .ok c1 := by
    unfold c1
    cases ch.enabled <;> rfl
  have hrx := foldlM_pick ['R', 'X'] ch.rxOnly (fun b => { c1 with rxOnly := b }) rfl
  have htx := foldlM_pick ['T', 'X'] ch.txOnly (fun b => { c2 with txOnly := b }) rfl
  have hic := foldlM_pick ['I', 'C'] ch.inhibitCalling
    (fun b => { c3 with inhibitCalling := b }) rfl
  have his := foldlM_pick ['I', 'S'] ch.inhibitSounding
    (fun b => { c4 with inhibitSounding := b }) rfl
  have hir := foldlM_pick ['I', 'R'] ch.inhibitReporting
    (fun b => { c5 with inhibitReporting := b }) rfl
  have hao := foldlM_pick ['A', 'O'] ch.aleOnly (fun b => { c6 with aleOnly := b }) rfl
  have hpower : (if ch.powerPct ≠ 100 then [pwr ++ Decimal.digits ch.powerPct] else []).foldlM
      applyCode c7 = .ok (withFlags ch c0) := by
    split
    · rw [List.foldlM_cons, applyCode_pwr h]
      rfl
    · rename_i hfull
      rw [withFlags, not_not.mp hfull]
      rfl
  exact foldlM_append (foldlM_append (foldlM_append (foldlM_append (foldlM_append (foldlM_append
    (foldlM_append hoff hrx) htx) hic) his) hir) hao) hpower

/-- **The flags of a channel are read back.** -/
theorem readFlags_printed (id : Str) (rx tx : Nat) (mode : Str) (h : ch.powerPct ≤ 100)
    (hflags : printedCodes ch ≠ []) :
    readFlags (plain id rx tx mode) (flagsToken ch :: toks) =
      .ok (withFlags ch (plain id rx tx mode), toks) := by
  rw [readFlags_of_isFlags (isFlags_flagsToken hflags), codes_flagsToken hflags,
    foldlM_printedCodes id rx tx mode h]
  rfl

/-- A channel without printed codes has the default flags. -/
theorem withFlags_of_none (h : printedCodes ch = []) (id : Str) (rx tx : Nat) (mode : Str) :
    withFlags ch (plain id rx tx mode) = plain id rx tx mode := by
  simp only [printedCodes, List.append_eq_nil_iff] at h
  obtain ⟨⟨⟨⟨⟨⟨⟨hen, hrx⟩, htx⟩, hic⟩, his⟩, hir⟩, hao⟩, hpower⟩ := h
  simp at hen hrx htx hic his hir hao hpower
  simp [withFlags, hen, hrx, htx, hic, his, hir, hao, hpower, plain]

/-! ## What is parsed -/

theorem readFrequencies_lt {rx tx : Nat} {rest : List Str}
    (h : readFrequencies toks = some ((rx, tx), rest)) :
    rx < 2 ^ 32 ∧ tx < 2 ^ 32 ∧ ∀ t ∈ rest, t ∈ toks := by
  cases toks with
  | nil => cases h
  | cons tok toks =>
    have hmod (n : Nat) : n % 2 ^ 32 < 2 ^ 32 := Nat.mod_lt _ (by decide)
    rw [readFrequencies] at h
    split at h
    · obtain ⟨n, -, h⟩ := Option.bind_eq_some_iff.mp h
      dsimp only at h
      split at h <;>
      · obtain ⟨m, -, h⟩ := Option.bind_eq_some_iff.mp h
        cases h
        exact ⟨hmod n, hmod m, fun t ht => List.mem_cons_of_mem _ ht⟩
    · obtain ⟨n, hn, h⟩ := Option.bind_eq_some_iff.mp h
      cases toks with
      | nil =>
        cases h
        exact ⟨hmod n, by decide, nofun⟩
      | cons next toks =>
        dsimp only at h
        split at h
        · obtain ⟨m, hm, h⟩ := Option.bind_eq_some_iff.mp h
          cases h
          exact ⟨hmod n, hmod m, fun t ht => List.mem_cons_of_mem _ (List.mem_cons_of_mem _ ht)⟩
        · cases h
          exact ⟨hmod n, by decide, fun t ht => List.mem_cons_of_mem _ ht⟩

theorem isAleMode_readMode (toks : List Str) : isAleMode (readMode toks).1 = true := by
  have husb : isAleMode ['U', 'S', 'B'] = true := by decide
  cases toks with
  | nil => exact husb
  | cons tok toks =>
    rw [readMode]
    split
    · assumption
    · exact husb

theorem mem_readMode {t : Str} (h : t ∈ (readMode toks).2) : t ∈ toks := by
  cases toks with
  | nil => exact h
  | cons tok toks =>
    rw [readMode] at h
    split at h
    · exact List.mem_cons_of_mem _ h
    · exact h

theorem mem_readFlags {rest : List Str} {t : Str} (h : readFlags ch toks = .ok (ch', rest))
    (ht : t ∈ rest) : t ∈ toks := by
  cases toks with
  | nil =>
    cases h
    exact ht
  | cons tok toks =>
    by_cases hflags : isFlags tok = true
    · rw [readFlags_of_isFlags hflags] at h
      cases hrun : (codes tok).foldlM applyCode ch with
      | error e =>
        rw [hrun] at h
        cases h
      | ok next =>
        rw [hrun] at h
        cases h
        exact List.mem_cons_of_mem _ ht
    · rw [readFlags, if_neg hflags] at h
      cases h
      exact ht

theorem Fields.readFlags {rest : List Str} (h : Fields ch)
    (hrun : readFlags ch toks = .ok (ch', rest)) : Fields ch' := by
  cases toks with
  | nil =>
    cases hrun
    exact h
  | cons tok toks =>
    by_cases hflags : isFlags tok = true
    · rw [readFlags_of_isFlags hflags] at hrun
      cases hcodes : (codes tok).foldlM ChannelSpec.applyCode ch with
      | error e =>
        rw [hcodes] at hrun
        cases hrun
      | ok next =>
        rw [hcodes] at hrun
        cases hrun
        exact foldlM_invariant (fun _ _ _ => Fields.applyCode) h hcodes
    · rw [ChannelSpec.readFlags, if_neg hflags] at hrun
      cases hrun
      exact h

/-- **What every parsed channel satisfies.** -/
theorem spec_parseChannelSpec {raw : Str} (h : parseChannelSpec raw = .ok (some ch)) :
    Fields ch ∧ Tidy ch.label := by
  have hid : IsWord (readId (words raw)).1 := isWord_readId fun t ht => (mem_words ht).2
  have hwords : ∀ t ∈ (readId (words raw)).2, t ≠ [] ∧ IsWord t := fun t ht =>
    mem_words (mem_readId ht)
  unfold parseChannelSpec readSpec at h
  split at h
  · cases h
  · rename_i rx tx rest hfreq
    obtain ⟨hrx, htx, hrest⟩ := readFrequencies_lt hfreq
    split at h
    · cases h
    · rename_i hpos
      dsimp only at h
      have hplain : Fields (plain (readId (words raw)).1 rx tx (readMode rest).1) :=
        { voiceUse := rfl, dataUse := rfl, secure := rfl, antenna := rfl, soundingIntervalMs := rfl,
          rxPos := hpos, rx := hrx, tx := htx, id := hid, mode := isAleMode_readMode rest,
          sameMode := rfl, power := le_refl 100 }
      cases hflags : readFlags (plain (readId (words raw)).1 rx tx (readMode rest).1)
          (readMode rest).2 with
      | error e =>
        rw [plain] at hflags
        rw [hflags] at h
        cases h
      | ok out =>
        obtain ⟨next, label⟩ := out
        have hfields := hplain.readFlags hflags
        obtain ⟨hcomment, hspaced⟩ := label_intercalate label fun t ht =>
          hwords t (hrest t (mem_readMode (mem_readFlags hflags ht)))
        rw [plain] at hflags
        rw [hflags] at h
        cases h
        exact ⟨{ hfields with }, hcomment, by rw [hspaced]⟩

/-! ## What is formatted -/

/-- What a line can hold of a channel, the flags apart. -/
structure Clean (ch : Channel) : Prop extends Fields ch, Tidy ch.label

/-- The tokens of the flags. -/
def flagsTokens (ch : Channel) : List Str := if printedCodes ch ≠ [] then [flagsToken ch] else []

theorem isWord_of_isAleMode {mode : Str} (h : isAleMode mode = true) :
    IsWord mode ∧ mode ≠ [] ∧ mode.length ≤ 5 ∧ '\x00' ∉ mode := by
  have hall : ∀ m ∈ aleModes, (m.all fun c => !Text.isSpace c && c != '#') = true ∧ m ≠ [] ∧
      m.length ≤ 5 ∧ '\x00' ∉ m := by decide
  obtain ⟨hword, hrest⟩ := hall mode (List.contains_iff_mem.mp h)
  exact ⟨fun c hc => by simpa using List.all_eq_true.mp hword c hc, hrest⟩

/-- The buffer is large enough. -/
theorem buf_eq (h : Clean ch) : buf ch =
    Decimal.digits ch.rxFrequencyHz ++ ' ' :: (Decimal.digits ch.txFrequencyHz ++ ' ' :: ch.rxMode) := by
  obtain ⟨-, -, hlen, hnull⟩ := isWord_of_isAleMode h.mode
  have hmode : ch.rxMode.takeWhile (· != '\x00') = ch.rxMode := by
    rw [List.takeWhile_eq_self_iff]
    intro c hc
    rw [bne_iff_ne]
    rintro rfl
    exact hnull hc
  have hten : (2 : Nat) ^ 32 ≤ 10 ^ 10 := by decide
  have hrx := (Decimal.length_digits_le (by decide)).mpr (h.rx.trans_le hten)
  have htx := (Decimal.length_digits_le (by decide)).mpr (h.tx.trans_le hten)
  rw [buf, hmode, List.take_of_length_le]
  simp only [List.length_append, List.length_cons]
  omega

theorem tokens_tail (ch : Channel) {s : Str} (hs : IsWord s) (hne : s ≠ []) :
    Text.tokens Text.isSpace (s ++ ((if printedCodes ch ≠ [] then ' ' :: flagsToken ch else []) ++
        if ch.label ≠ [] then ' ' :: ch.label else [])) =
      s :: (flagsTokens ch ++ Text.tokens Text.isSpace ch.label) := by
  unfold flagsTokens
  split
  · rw [List.cons_append, tokens_isWord_cons hs hne,
      tokens_label (em' _) _ (isWord_flagsToken ch) (by simp [flagsToken]), List.singleton_append]
  · rw [List.nil_append, tokens_label (em' _) _ hs hne, List.nil_append]

theorem words_formatChannelLine (h : Clean ch) : words (formatChannelLine ch) =
    (if ch.id ≠ [] then [['I', 'D', ':'] ++ ch.id] else []) ++
      Decimal.digits ch.rxFrequencyHz :: Decimal.digits ch.txFrequencyHz :: ch.rxMode ::
        (flagsTokens ch ++ Text.tokens Text.isSpace ch.label) := by
  obtain ⟨hmode, hne, -⟩ := isWord_of_isAleMode h.mode
  have hcomment : '#' ∉ formatChannelLine ch := by
    have hid : '#' ∉ ch.id := fun hc => (h.id _ hc).2 rfl
    have hmode' : '#' ∉ ch.rxMode := fun hc => (hmode _ hc).2 rfl
    have hdigits n : '#' ∉ Decimal.digits n := fun hc => (isWord_digits n _ hc).2 rfl
    have hflags : '#' ∉ flagsToken ch := fun hc => (isWord_flagsToken ch _ hc).2 rfl
    have hlabel := h.comment
    rw [formatChannelLine, buf_eq h]
    split <;> split <;> split <;> simp [hid, hmode', hdigits, hlabel, hflags]
  have hfields : Text.tokens Text.isSpace
      ((Decimal.digits ch.rxFrequencyHz ++ ' ' :: (Decimal.digits ch.txFrequencyHz ++ ' ' :: ch.rxMode)) ++
        ((if printedCodes ch ≠ [] then ' ' :: flagsToken ch else []) ++
          if ch.label ≠ [] then ' ' :: ch.label else [])) =
      Decimal.digits ch.rxFrequencyHz :: Decimal.digits ch.txFrequencyHz :: ch.rxMode ::
        (flagsTokens ch ++ Text.tokens Text.isSpace ch.label) := by
    rw [List.append_assoc, List.cons_append, List.append_assoc, List.cons_append,
      tokens_isWord_cons (isWord_digits _) (Decimal.digits_ne_nil _),
      tokens_isWord_cons (isWord_digits _) (Decimal.digits_ne_nil _), tokens_tail ch hmode hne]
  rw [words_of_not_mem hcomment, formatChannelLine, buf_eq h, List.append_assoc, List.append_assoc]
  split
  · have hmark : IsWord ['I', 'D', ':'] := by
      simp only [isWord_cons]
      exact ⟨by decide, by decide, by decide, isWord_nil⟩
    have hword : IsWord (['I', 'D', ':'] ++ ch.id) := isWord_append hmark h.id
    rw [List.append_assoc, List.singleton_append, tokens_isWord_cons hword (by simp), hfields,
      List.singleton_append]
  · rw [List.nil_append, List.nil_append, hfields]

theorem readId_formatChannelLine (h : Clean ch) : readId (words (formatChannelLine ch)) =
    (ch.id, Decimal.digits ch.rxFrequencyHz :: Decimal.digits ch.txFrequencyHz :: ch.rxMode ::
        (flagsTokens ch ++ Text.tokens Text.isSpace ch.label)) := by
  rw [words_formatChannelLine h]
  split
  · have hpre : ['I', 'D', ':'].isPrefixOf (['I', 'D', ':'] ++ ch.id) = true := by
      simp
    rw [List.singleton_append, readId, if_pos hpre]
    rfl
  · rename_i hid
    rw [List.nil_append, readId_digits, not_not.mp hid]

theorem readFrequencies_digits {rx tx : Nat} (hrx : rx < 2 ^ 32) (htx : tx < 2 ^ 32) :
    readFrequencies (Decimal.digits rx :: Decimal.digits tx :: toks) = some ((rx, tx), toks) := by
  have hcolon : (Decimal.digits rx).contains ':' = false := by
    rw [Bool.eq_false_iff, Ne, List.contains_iff_mem]
    exact fun hc => absurd (Decimal.isDigit_of_mem hc) (by decide)
  have hall : (Decimal.digits tx).all Char.isDigit = true :=
    List.all_eq_true.mpr fun c hc => Decimal.isDigit_of_mem hc
  have hpow : (2 : Nat) ^ 32 ≤ 2 ^ 64 := by decide
  rw [readFrequencies, hcolon, if_neg (by decide), Text.stoul_digits (hrx.trans_le hpow)]
  change (if (Decimal.digits tx).all Char.isDigit = true then _ else _) = _
  rw [if_pos hall, Text.stoul_digits (htx.trans_le hpow)]
  change some ((rx % 2 ^ 32, tx % 2 ^ 32), toks) = _
  rw [Nat.mod_eq_of_lt hrx, Nat.mod_eq_of_lt htx]

/-- **What a formatted line is parsed to.** -/
theorem parseChannelSpec_formatChannelLine (h : Clean ch) :
    parseChannelSpec (formatChannelLine ch) =
      (readFlags (plain ch.id ch.rxFrequencyHz ch.txFrequencyHz ch.rxMode)
        (flagsTokens ch ++ Text.tokens Text.isSpace ch.label)).map fun out =>
          some { out.1 with label := List.intercalate [' '] out.2 } := by
  rw [parseChannelSpec, readId_formatChannelLine h, readSpec, readFrequencies_digits h.rx h.tx]
  dsimp only
  rw [if_neg h.rxPos, readMode, if_pos h.mode, plain]
  rfl

end ChannelSpec

end OpenALE
