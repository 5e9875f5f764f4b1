import OpenALE.App.ChannelSpec

/-!
# Channel lines are read back

The round trip of `format_channel_line` and `parse_channel_spec`. The line has no place for some of
the persistent fields, and where it has no flags the first word of the label is taken for them if
it reads like them.
-/

namespace OpenALE

namespace ChannelSpec

variable {ch : Channel}

/-- Where no flags are printed, the label does not begin with a word that reads like flags. -/
def Unambiguous (ch : Channel) : Prop :=
  printedCodes ch = [] →
    ∀ tok ∈ (Text.tokens Text.isSpace ch.label).head?, isFlags tok = false

theorem clean_persistent : Clean (persistent ch) ↔ Clean ch := by
  constructor <;> exact fun h => { h with }

theorem withFlags_plain (h : Fields ch) :
    { withFlags ch (plain ch.id ch.rxFrequencyHz ch.txFrequencyHz ch.rxMode) with
      label := ch.label } = persistent ch := by
  simp only [withFlags, plain, persistent, h.sameMode, h.voiceUse, h.dataUse, h.secure, h.antenna,
    h.soundingIntervalMs]

/-- **A line is read back.** -/
theorem parse_of_unambiguous (h : Clean ch) (hlabel : Unambiguous ch) :
    parseChannelSpec (formatChannelLine ch) = .ok (some (persistent ch)) := by
  rw [parseChannelSpec_formatChannelLine h, flagsTokens]
  split
  · rename_i hflags
    rw [List.singleton_append, readFlags_printed _ _ _ _ h.power hflags, ← withFlags_plain h.toFields]
    change Except.ok (some { withFlags ch _ with
      label := List.intercalate [' '] (Text.tokens Text.isSpace ch.label) }) = _
    rw [h.spaced]
  · rename_i hnone
    rw [List.nil_append, readFlags_of_not (hlabel (not_not.mp hnone)), ← withFlags_plain h.toFields,
      withFlags_of_none (not_not.mp hnone)]
    change Except.ok (some { plain _ _ _ _ with
      label := List.intercalate [' '] (Text.tokens Text.isSpace ch.label) }) = _
    rw [h.spaced]

/-- A label that begins like flags is swallowed. -/
theorem label_of_not_unambiguous (h : Clean ch) (hlabel : ¬ Unambiguous ch) {c : Channel}
    (hparse : parseChannelSpec (formatChannelLine ch) = .ok (some c)) : c.label ≠ ch.label := by
  simp only [Unambiguous, Classical.not_imp, not_forall, Bool.not_eq_false] at hlabel
  obtain ⟨hnone, tok, hhead, hflags⟩ := hlabel
  obtain ⟨rest, htoks⟩ := List.head?_eq_some_iff.mp hhead
  have hwords : ∀ t ∈ tok :: rest, t ≠ [] ∧ ∀ x ∈ t, Text.isSpace x = false := by
    rw [← htoks]
    exact fun t ht => ⟨(Text.mem_tokens ht).1, fun x hx => ((Text.mem_tokens ht).2 x hx).1⟩
  rw [parseChannelSpec_formatChannelLine h, flagsTokens, if_neg (not_not.mpr hnone),
    List.nil_append, htoks, readFlags_of_isFlags hflags] at hparse
  cases hrun : (codes tok).foldlM applyCode
      (plain ch.id ch.rxFrequencyHz ch.txFrequencyHz ch.rxMode) with
  | error e =>
    rw [hrun] at hparse
    cases hparse
  | ok next =>
    rw [hrun] at hparse
    cases hparse
    intro hsame
    have htokens := congrArg (Text.tokens Text.isSpace) hsame
    rw [Text.tokens_intercalate (by decide) fun t ht => hwords t (List.mem_cons_of_mem _ ht),
      htoks] at htokens
    exact List.cons_ne_self _ _ htokens.symm

/-- What comes back is a channel that the line can hold. -/
theorem clean_of_parse {c : Channel}
    (hparse : parseChannelSpec (formatChannelLine ch) = .ok (some c))
    (hsame : persistent c = persistent ch) : Clean ch ∧ Unambiguous ch := by
  obtain ⟨hfields, htidy⟩ := spec_parseChannelSpec hparse
  have hclean : Clean ch := by
    rw [← clean_persistent, ← hsame, clean_persistent]
    exact { hfields, htidy with }
  refine ⟨hclean, ?_⟩
  by_contra hlabel
  have hl : (persistent c).label = (persistent ch).label := by rw [hsame]
  exact label_of_not_unambiguous hclean hlabel hparse hl

/-- **A channel line is read back exactly if it can hold the channel and its label does not begin
like flags.** -/
theorem roundTrip_iff (ch : Channel) :
    (∃ c, parseChannelSpec (formatChannelLine ch) = .ok (some c) ∧ persistent c = persistent ch) ↔
      Clean ch ∧ Unambiguous ch := by
  constructor
  · rintro ⟨c, hparse, hsame⟩
    exact clean_of_parse hparse hsame
  · rintro ⟨hclean, hlabel⟩
    exact ⟨_, parse_of_unambiguous hclean hlabel, rfl⟩

/-- The label `[RX]` of a channel without flags. -/
theorem roundTrip_fail : ¬ ∀ ch : Channel, ∃ c,
    parseChannelSpec (formatChannelLine ch) = .ok (some c) ∧ persistent c = persistent ch := by
  intro h
  obtain ⟨c, hparse, hsame⟩ := h { id := ['C'], rxFrequencyHz := 7, label := ['[', 'R', 'X', ']'] }
  have hlabel := (clean_of_parse hparse hsame).2 (by decide) ['[', 'R', 'X', ']'] (by decide)
  revert hlabel
  decide +kernel

end ChannelSpec

end OpenALE
