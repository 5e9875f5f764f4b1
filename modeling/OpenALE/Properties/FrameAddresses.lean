import OpenALE.Library.Forest
import OpenALE.Message.Assembler

/-!
# Whom a frame is for and who sent it

`extract_addresses` goes through the words of a frame with five variables. What comes out can be
said without them.

Results:
* `toAddresses_spec`: the destinations are the addresses called that no other one continues.
* `fromAddress_eq`: the source is the last sender that is not empty; the first sender is given the
  extension words that stand before every address.
-/

namespace OpenALE

variable {words ws : List ALEWord} {w : ALEWord} {e : Extraction} {a : Str}

/-! ## The addresses of a frame -/

/-- The extension of the address before these words. -/
def extension : List ALEWord → Str
  | [] => []
  | w :: ws =>
    match w.type with
    | .data | .rep => trimAleAddress w.address ++ extension ws
    | .thru | .unknown => extension ws
    | .to | .twas | .frm | .tis | .cmd => []

/-- The addresses called. -/
def destinations : List ALEWord → List Str
  | [] => []
  | w :: ws =>
    if w.type = .to ∨ w.type = .twas then
      (trimAleAddress w.address ++ extension ws) :: destinations ws
    else destinations ws

/-- The extension words before every address. -/
def leading : List ALEWord → Str
  | [] => []
  | w :: ws =>
    match w.type with
    | .data | .rep => trimAleAddress w.address ++ leading ws
    | .cmd | .thru | .unknown => leading ws
    | .to | .twas | .frm | .tis => []

/-- The senders; the first one is given `orphan`. -/
def senders (orphan : Str) : List ALEWord → List Str
  | [] => []
  | w :: ws =>
    if w.type = .frm ∨ w.type = .tis then
      (trimAleAddress w.address ++ orphan ++ extension ws) :: senders [] ws
    else senders orphan ws

/-- The last of them that is not empty, or the one before. -/
def lastNonempty (before : Str) (as : List Str) : Str :=
  as.foldl (fun b a => if a = [] then b else a) before

theorem lastNonempty_eq (before : Str) (as : List Str) :
    lastNonempty before as = (as.filter (· ≠ [])).getLastD before := by
  induction as generalizing before with
  | nil => rfl
  | cons a as ih =>
    rw [lastNonempty, List.foldl_cons, ← lastNonempty, ih]
    by_cases ha : a = []
    · rw [if_pos ha, List.filter_cons_of_neg (by simpa using ha)]
    · rw [if_neg ha, List.filter_cons_of_pos (by simpa using ha), List.getLastD_cons]

/-! ## The loop -/

namespace Extraction

/-- The address in hand when the loop is at `ws`, if it is a destination. -/
def pendingDest (e : Extraction) (ws : List ALEWord) : List Str :=
  if e.ctx = .dest then [e.currentAddr ++ extension ws] else []

/-- The same for a sender. -/
def pendingSrc (e : Extraction) (ws : List ALEWord) : List Str :=
  if e.ctx = .src then [e.currentAddr ++ extension ws] else []

/-- What the next sender is given. -/
def orphan (e : Extraction) (ws : List ALEWord) : Str :=
  e.orphanData ++ if e.pastAnyPreamble then [] else leading ws

/-- The address in hand is one that a preamble opened. -/
def Opened (e : Extraction) : Prop := e.ctx ≠ .none → e.pastAnyPreamble = true

/-- `add_dest` for all of them. -/
def addDests (dests as : List Str) : List Str := as.foldl (fun dests a => addDest a dests) dests

theorem addDests_append (dests as bs : List Str) :
    addDests dests (as ++ bs) = addDests (addDests dests as) bs := List.foldl_append

theorem toAddresses_finalize (e : Extraction) :
    e.finalizeCurrent.toAddresses = addDests e.toAddresses (e.pendingDest []) := by
  unfold finalizeCurrent pendingDest
  cases hctx : e.ctx with
  | none => rfl
  | dest => simp [addDests, extension]
  | src => by_cases ha : e.currentAddr = [] <;> simp [addDests, ha]

theorem fromAddress_finalize (e : Extraction) :
    e.finalizeCurrent.fromAddress = lastNonempty e.fromAddress (e.pendingSrc []) := by
  unfold finalizeCurrent pendingSrc
  cases hctx : e.ctx with
  | none => rfl
  | dest => rfl
  | src => by_cases ha : e.currentAddr = [] <;> simp [lastNonempty, extension, ha]

@[simp] theorem orphanData_finalize (e : Extraction) :
    e.finalizeCurrent.orphanData = e.orphanData := by
  unfold finalizeCurrent
  split <;> try split_ifs
  all_goals rfl

@[simp] theorem past_finalize (e : Extraction) :
    e.finalizeCurrent.pastAnyPreamble = e.pastAnyPreamble := by
  unfold finalizeCurrent
  split <;> try split_ifs
  all_goals rfl

/-- The word closes the address in hand. -/
def closes (w : ALEWord) : Bool :=
  w.type == .to || w.type == .twas || w.type == .frm || w.type == .tis || w.type == .cmd

theorem pendingDest_closed (h : closes w = true) : e.pendingDest (w :: ws) = e.pendingDest [] := by
  unfold closes at h
  cases hw : w.type <;> simp [hw] at h <;> simp [pendingDest, extension, hw]

theorem pendingSrc_closed (h : closes w = true) : e.pendingSrc (w :: ws) = e.pendingSrc [] := by
  unfold closes at h
  cases hw : w.type <;> simp [hw] at h <;> simp [pendingSrc, extension, hw]

/-- One word, for the destinations. -/
theorem dests_step (e : Extraction) (w : ALEWord) (ws : List ALEWord) :
    addDests (e.step w).toAddresses ((e.step w).pendingDest ws ++ destinations ws) =
      addDests e.toAddresses (e.pendingDest (w :: ws) ++ destinations (w :: ws)) := by
  cases hw : w.type with
  | «to» | twas =>
    have hstep : (e.step w).toAddresses = e.finalizeCurrent.toAddresses := by rw [step, hw]
    have hpend : (e.step w).pendingDest ws = [trimAleAddress w.address ++ extension ws] := by
      rw [step, hw]
      rfl
    rw [hstep, hpend, toAddresses_finalize, pendingDest_closed (by simp [closes, hw]), ← addDests_append,
      destinations, if_pos (by simp [hw])]
    rfl
  | frm | tis | cmd =>
    have hstep : (e.step w).toAddresses = e.finalizeCurrent.toAddresses := by rw [step, hw]
    have hpend : (e.step w).pendingDest ws = [] := by
      rw [step, hw]
      rfl
    rw [hstep, hpend, toAddresses_finalize, pendingDest_closed (by simp [closes, hw]), List.nil_append,
      ← addDests_append, destinations, if_neg (by simp [hw])]
  | data | rep =>
    have hdest : destinations (w :: ws) = destinations ws := by
      rw [destinations, if_neg (by simp [hw])]
    rw [hdest]
    cases hctx : e.ctx with
    | none =>
      have hstep : (e.step w).toAddresses = e.toAddresses ∧ (e.step w).ctx = .none := by
        rw [step, hw, hctx]
        dsimp only
        split_ifs
        · exact ⟨rfl, hctx⟩
        · exact ⟨rfl, rfl⟩
      simp [pendingDest, hstep.1, hstep.2, hctx]
    | dest => simp [step, pendingDest, extension, hw, hctx]
    | src => simp [step, pendingDest, hw, hctx]
  | thru | unknown =>
    have hstep : e.step w = e := by rw [step, hw]
    have hdest : destinations (w :: ws) = destinations ws := by
      rw [destinations, if_neg (by simp [hw])]
    simp [hstep, hdest, pendingDest, extension, hw]

theorem opened_step (h : e.Opened) : (e.step w).Opened := by
  intro hctx
  cases hw : w.type with
  | «to» | twas | frm | tis => rw [step, hw]
  | cmd =>
    rw [step, hw] at hctx
    exact absurd rfl hctx
  | data | rep =>
    rw [step, hw] at hctx ⊢
    cases he : e.ctx with
    | none =>
      simp only [he] at hctx ⊢
      split_ifs at hctx ⊢ with hpast
      · exact hpast
      · exact absurd rfl hctx
    | dest | src => exact h (by simp [he])
  | thru | unknown =>
    rw [step, hw] at hctx ⊢
    exact h hctx

/-- One word, for the source. -/
theorem source_step (h : e.Opened) (w : ALEWord) (ws : List ALEWord) :
    lastNonempty (e.step w).fromAddress
        ((e.step w).pendingSrc ws ++ senders ((e.step w).orphan ws) ws) =
      lastNonempty e.fromAddress (e.pendingSrc (w :: ws) ++ senders (e.orphan (w :: ws)) (w :: ws)) := by
  have happend : ∀ (b : Str) (as bs : List Str),
      lastNonempty b (as ++ bs) = lastNonempty (lastNonempty b as) bs :=
    fun _ _ _ => List.foldl_append
  cases hw : w.type with
  | «to» | twas =>
    have hstep : (e.step w).fromAddress = e.finalizeCurrent.fromAddress := by rw [step, hw]
    have hpend : (e.step w).pendingSrc ws = [] := by
      rw [step, hw]
      rfl
    have horphan : (e.step w).orphan ws = e.orphan (w :: ws) := by
      rw [step, hw]
      simp [orphan, leading, hw]
    rw [hstep, hpend, horphan, fromAddress_finalize, pendingSrc_closed (by simp [closes, hw]),
      List.nil_append, ← happend, senders, if_neg (by simp [hw])]
  | frm | tis =>
    have hstep : (e.step w).fromAddress = e.finalizeCurrent.fromAddress := by rw [step, hw]
    have hpend : (e.step w).pendingSrc ws =
        [trimAleAddress w.address ++ e.orphan (w :: ws) ++ extension ws] := by
      rw [step, hw]
      simp [pendingSrc, orphan, leading, hw]
    have horphan : (e.step w).orphan ws = [] := by
      rw [step, hw]
      rfl
    rw [hstep, hpend, horphan, fromAddress_finalize, pendingSrc_closed (by simp [closes, hw]),
      ← happend, senders, if_pos (by simp [hw])]
    rfl
  | cmd =>
    have hstep : (e.step w).fromAddress = e.finalizeCurrent.fromAddress := by rw [step, hw]
    have hpend : (e.step w).pendingSrc ws = [] := by
      rw [step, hw]
      rfl
    have horphan : (e.step w).orphan ws = e.orphan (w :: ws) := by
      rw [step, hw]
      simp [orphan, leading, hw]
    rw [hstep, hpend, horphan, fromAddress_finalize, pendingSrc_closed (by simp [closes, hw]),
      List.nil_append, ← happend, senders, if_neg (by simp [hw])]
  | data | rep =>
    have hsend : ∀ o, senders o (w :: ws) = senders o ws := by
      intro o
      rw [senders, if_neg (by simp [hw])]
    rw [hsend]
    cases hctx : e.ctx with
    | none =>
      cases hpast : e.pastAnyPreamble <;>
        simp [step, pendingSrc, orphan, leading, hw, hctx, hpast]
    | dest =>
      have hpast := h (by simp [hctx])
      simp [step, pendingSrc, orphan, hw, hctx, hpast]
    | src =>
      have hpast := h (by simp [hctx])
      simp [step, pendingSrc, orphan, extension, hw, hctx, hpast]
  | thru | unknown =>
    have hstep : e.step w = e := by rw [step, hw]
    have hsend : ∀ o, senders o (w :: ws) = senders o ws := by
      intro o
      rw [senders, if_neg (by simp [hw])]
    simp [hstep, hsend, pendingSrc, orphan, extension, leading, hw]

/-- The loop. -/
theorem loop_spec (h : e.Opened) (ws : List ALEWord) :
    (ws.foldl step e).finalizeCurrent.toAddresses =
        addDests e.toAddresses (e.pendingDest ws ++ destinations ws) ∧
      (ws.foldl step e).finalizeCurrent.fromAddress =
        lastNonempty e.fromAddress (e.pendingSrc ws ++ senders (e.orphan ws) ws) := by
  induction ws generalizing e with
  | nil =>
    refine ⟨?_, ?_⟩
    · rw [List.foldl_nil, toAddresses_finalize, destinations, List.append_nil]
    · rw [List.foldl_nil, fromAddress_finalize, senders, List.append_nil]
  | cons w ws ih =>
    obtain ⟨hto, hfrom⟩ := ih (opened_step (w := w) h)
    rw [List.foldl_cons]
    exact ⟨hto.trans (dests_step e w ws), hfrom.trans (source_step h w ws)⟩

/-- `add_dest` is the pass of the library. -/
theorem insertDest_eq (a : Str) (dests : List Str) :
    insertDest a dests = Forest.insert (· <+: ·) a dests := by
  induction dests with
  | nil => rfl
  | cons ex rest ih =>
    rw [insertDest, Forest.insert, ih]

theorem addDests_eq (as : List Str) :
    addDests [] as = Forest.topmost (· <+: ·) (as.filter (· ≠ [])) := by
  induction as using List.reverseRecOn with
  | nil => rfl
  | append_singleton as a ih =>
    rw [addDests_append, ih]
    change addDest a _ = _
    rw [addDest, List.filter_append]
    by_cases ha : a = []
    · rw [if_pos ha, List.filter_cons_of_neg (by simpa using ha), List.filter_nil, List.append_nil]
    · rw [if_neg ha, insertDest_eq, List.filter_cons_of_pos (by simpa using ha), Forest.topmost,
        Forest.topmost, List.foldl_append]
      rfl

end Extraction

open Extraction

/-! ## The results -/

theorem toAddresses_eq (words : List ALEWord) :
    (extractAddresses words).1 =
      Forest.topmost (· <+: ·) ((destinations words).filter (· ≠ [])) := by
  rw [← addDests_eq]
  exact (loop_spec (fun h => absurd rfl h) words).1

theorem prefix_forest (a b c : Str) (ha : a <+: c) (hb : b <+: c) : a <+: b ∨ b <+: a :=
  List.prefix_or_prefix_of_prefix ha hb

/-- **The destinations of a frame** are the addresses called, each with its extension words, that
are not empty and that no other one called continues; each stands there once. -/
theorem toAddresses_spec (words : List ALEWord) :
    (extractAddresses words).1.Nodup ∧
      ∀ a, a ∈ (extractAddresses words).1 ↔
        a ∈ destinations words ∧ a ≠ [] ∧ ∀ b ∈ destinations words, a <+: b → b = a := by
  rw [toAddresses_eq]
  refine ⟨Forest.topmost_nodup prefix_forest _, ?_⟩
  intro a
  rw [Forest.mem_topmost_iff prefix_forest, List.mem_filter]
  constructor
  · rintro ⟨⟨ha, hne⟩, htop⟩
    have hne : a ≠ [] := by simpa using hne
    refine ⟨ha, hne, ?_⟩
    intro b hb hab
    refine htop b (List.mem_filter.mpr ⟨hb, ?_⟩) hab
    have hb : b ≠ [] := by
      rintro rfl
      exact hne (List.prefix_nil.mp hab)
    simpa using hb
  · rintro ⟨ha, hne, htop⟩
    refine ⟨⟨ha, by simpa using hne⟩, ?_⟩
    intro b hb hab
    exact htop b (List.mem_filter.mp hb).1 hab

/-- **The source of a frame** is its last sender that is not empty, where the first sender is given
the extension words that stand before every address. -/
theorem fromAddress_eq (words : List ALEWord) :
    (extractAddresses words).2 =
      ((senders (leading words) words).filter (· ≠ [])).getLastD [] := by
  rw [← lastNonempty_eq]
  exact (loop_spec (fun h => absurd rfl h) words).2

end OpenALE
