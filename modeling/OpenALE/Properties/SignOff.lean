import OpenALE.Control.Collected
import OpenALE.Library.Segment

/-!
# The end of a link by the peer's `TWAS`

A link remembers the last `TWAS` word that may be its peer's and the address that the words after it
spell. A `Listener` is the machine with the words it has heard on the present link.

Results:
* `Tracks.hear_twas` and its siblings: the machine collects the latest conclusion heard.
* `leavesByTwas_iff`: the link ends by a `TWAS` exactly when a `TWAS` word and what follows it
  without a break spell the peer's address and their sender is silent for `Tdrw`, along every run
  whose steps are `Undisturbed`.
* `leavesByTwas_fail`: the `DATA` word of another station completes the peer's address.
-/

namespace OpenALE

/-! ## What is heard on a link -/

/-- A valid word heard, the time of it and the station it came from. -/
structure Heard where
  word : ALEWord
  time : UInt32
  sender : ℕ
  deriving Repr, DecidableEq

namespace Heard

/-- Its part of an address. -/
def addr (h : Heard) : Str := trimAleAddress h.word.address

/-- It opens a conclusion. -/
abbrev Opens (h : Heard) : Prop := h.word.type = .twas

/-- It goes on with the address of the word before, at most `2 × Trw` after it. -/
abbrev Follows (g h : Heard) : Prop := h.word.type.isExt = true ∧ h.time - g.time ≤ 2 * trwMs

/-- The time of the last word of a conclusion. -/
def last (a : Heard) (ext : List Heard) : UInt32 := (ext.getLastD a).time

/-- The address a conclusion spells. -/
def spelled (a : Heard) (ext : List Heard) : Str := a.addr ++ ext.flatMap addr

end Heard

/-- Among the words of a link the `TWAS` word `a` and the words `ext` that follow it without a break
spell the address of the peer, and the sender of `a` is not heard again within `Tdrw`. -/
structure SignOff (log : List Heard) (peer : Str) (a : Heard) (ext later : List Heard) : Prop where
  segment : Log.Segment Heard.Opens Heard.Follows log a ext later
  starts : a.addr ≠ []
  spells : Heard.spelled a ext = peer
  silent : ∀ h ∈ later, h.sender = a.sender → tdrwMs ≤ h.time - Heard.last a ext

/-- Such a conclusion has been there for `Tdrw` at time `now`. -/
def SignedOff (log : List Heard) (peer : Str) (now : UInt32) : Prop :=
  ∃ a ext later, SignOff log peer a ext later ∧ tdrwMs ≤ now - Heard.last a ext

/-- The machine and the words heard on the present link. -/
structure Listener where
  sm : SM
  heard : List Heard

namespace Listener

/-- As its constructor leaves it. -/
def init : Listener := { sm := SM.init, heard := [] }

/-- One operation and the station it comes from, when it is a word. -/
def step (m : Listener) (x : Op × ℕ) : Listener :=
  { sm := m.sm.step x.1
    heard := if m.sm.currentState = .linked ∧ (m.sm.step x.1).currentState = .linked then
        m.heard ++ (SM.hears x.1).toList.map fun w => ⟨w, m.sm.currentTimeMs, x.2⟩
      else [] }

/-- The step leaves `LINKED` because of a `TWAS`: a tick raises `LINK_TERMINATED` and the station
was not terminating the link itself. -/
def LeavesByTwas (m : Listener) (x : Op × ℕ) : Prop :=
  m.sm.currentState = .linked ∧ (m.sm.step x.1).currentState ≠ .linked ∧
    m.sm.link.linkedTerminating = false ∧ SM.isUpdate x.1 = true ∧
    m.sm.trigger x.1 = .event .linkTerminated

/-- The step is a tick on a link that looks at what was heard, and the peer has signed off. -/
def EndsLink (m : Listener) (x : Op × ℕ) : Prop :=
  ∃ now env, x.1 = .update now env ∧ m.sm.currentState = .linked ∧ m.sm.Examines now ∧
    SignedOff m.heard m.sm.link.activeCallTo now

/-- A word `w` of `sender` at time `now` finds the conclusion that `a` opened, `ext` went on with and
`later` came after as the machine has it, in `c`. -/
def Takes (c : SM.Collected) (peer : Str) (a : Heard) (ext later : List Heard) (now : UInt32)
    (w : ALEWord) (sender : ℕ) : Prop :=
  let gap := now - Heard.last a ext
  if w.type.isExt = true then
    gap ≤ 2 * trwMs →
      (c.addr ≠ [] → later = []) ∧
        (later = [] → a.addr ≠ [] → a.addr.isPrefixOf peer → c.addr ≠ [])
  else c.addr ≠ [] → c.addr = peer → (w.type = .twas ↔ sender = a.sender ∧ gap < tdrwMs)

instance (c : SM.Collected) (peer : Str) (a : Heard) (ext later : List Heard) (now : UInt32)
    (w : ALEWord) (sender : ℕ) : Decidable (Takes c peer a ext later now w sender) := by
  unfold Takes
  infer_instance

/-- **The condition on a step.** A word heard on a link finds the conclusion of the last `TWAS` word
as it is on the air: an extension word that comes in time comes before any other word and before the
conclusion has been discarded, and while the peer's address stands complete its sender sends no
other word than a `TWAS`, and no other station a `TWAS`. -/
def Undisturbed (m : Listener) (x : Op × ℕ) : Prop :=
  m.sm.currentState = .linked → ∀ w ∈ SM.hears x.1,
    ∀ c ∈ Log.latest Heard.Opens Heard.Follows m.heard,
      Takes m.sm.collected m.sm.link.activeCallTo c.1 c.2.1 c.2.2 m.sm.currentTimeMs w x.2

instance (m : Listener) (x : Op × ℕ) : Decidable (m.Undisturbed x) := by
  unfold Undisturbed
  infer_instance

/-! ### What the machine collects is the latest conclusion -/

/-- What is collected is what the words heard spell, as far as it may be the peer's. -/
structure Tracks (c : SM.Collected) (peer : Str) (log : List Heard) : Prop where
  held : c.addr ≠ [] → ∃ a ext later, Log.latest Heard.Opens Heard.Follows log = some (a, ext, later) ∧
    a.addr ≠ [] ∧ c.addr = Heard.spelled a ext ∧ c.last = Heard.last a ext ∧
      (c.addr = peer → ∀ h ∈ later, h.sender = a.sender → tdrwMs ≤ h.time - Heard.last a ext)
  found : ∀ a ext later, SignOff log peer a ext later →
    c.addr ≠ [] ∧ Log.latest Heard.Opens Heard.Follows log = some (a, ext, later)

section Tracks

variable {c : SM.Collected} {peer : Str} {log : List Heard} {now : UInt32} {w : ALEWord}
  {sender : ℕ}

theorem tracks_nil (last : UInt32) : Tracks ⟨[], last⟩ peer [] := by
  refine ⟨fun h => absurd rfl h, fun a ext later h => ?_⟩
  obtain ⟨earlier, hlog⟩ := h.segment.split
  exact absurd hlog (by simp)

/-- The peer has signed off exactly when its address stands collected. -/
theorem Tracks.signedOff_iff (h : Tracks c peer log) :
    SignedOff log peer now ↔ c.settled now ∧ c.addr = peer := by
  constructor
  · rintro ⟨a, ext, later, hs, hgap⟩
    obtain ⟨hne, hlat⟩ := h.found a ext later hs
    obtain ⟨a', ext', later', hlat', -, hsp, hlast, -⟩ := h.held hne
    obtain ⟨rfl, rfl, rfl⟩ : a = a' ∧ ext = ext' ∧ later = later' := by
      simpa using hlat.symm.trans hlat'
    exact ⟨⟨hne, by rw [hlast]; exact hgap⟩, hsp.trans hs.spells⟩
  · rintro ⟨⟨hne, hgap⟩, hpeer⟩
    obtain ⟨a, ext, later, hlat, hstart, hsp, hlast, hsilent⟩ := h.held hne
    refine ⟨a, ext, later, ⟨(Log.latest_eq_some_iff.mp hlat).1, hstart, hsp.symm.trans hpeer,
      hsilent hpeer⟩, ?_⟩
    rw [← hlast]
    exact hgap

/-- A conclusion that is not the peer's may be discarded. -/
theorem Tracks.discard (h : Tracks c peer log) (hne : c.addr ≠ peer) (last : UInt32) :
    Tracks ⟨[], last⟩ peer log := by
  refine ⟨fun hn => absurd rfl hn, fun a ext later hs => ?_⟩
  obtain ⟨ha, hlat⟩ := h.found a ext later hs
  obtain ⟨a', ext', later', hlat', -, hsp, -⟩ := h.held ha
  obtain ⟨rfl, rfl, rfl⟩ : a = a' ∧ ext = ext' ∧ later = later' := by
    simpa using hlat.symm.trans hlat'
  exact absurd (hsp.trans hs.spells) hne

theorem not_opens_of_follows (g h : Heard) (hf : Heard.Follows g h) : ¬ Heard.Opens h := by
  intro ho
  have he : h.word.type.isExt = true := hf.1
  rw [show h.word.type = .twas from ho] at he
  exact Bool.noConfusion he

theorem spelled_concat (a : Heard) (ext : List Heard) (x : Heard) :
    Heard.spelled a (ext ++ [x]) = Heard.spelled a ext ++ x.addr := by
  simp [Heard.spelled]

theorem last_concat (a : Heard) (ext : List Heard) (x : Heard) :
    Heard.last a (ext ++ [x]) = x.time := by
  simp [Heard.last]

/-- A conclusion of a log one word longer. -/
theorem signOff_concat {x : Heard} {a : Heard} {ext later : List Heard}
    (h : SignOff (log ++ [x]) peer a ext later) :
    (∃ before, later = before ++ [x] ∧ SignOff log peer a ext before ∧
      (x.sender = a.sender → tdrwMs ≤ x.time - Heard.last a ext) ∧
      (before = [] → ¬ Heard.Follows (ext.getLastD a) x)) ∨
    (∃ before, ext = before ++ [x] ∧ later = [] ∧
      Log.latest Heard.Opens Heard.Follows log = some (a, before, []) ∧
      Heard.Follows (before.getLastD a) x) ∨
    (a = x ∧ ext = [] ∧ later = [] ∧ Heard.Opens x) := by
  rcases Log.segment_concat.mp h.segment with ⟨before, rfl, hs, hx⟩ | ⟨before, rfl, rfl, hs, hr⟩ | hx
  · refine Or.inl ⟨before, rfl, ⟨hs, h.starts, h.spells, fun y hy => ?_⟩, ?_, hx⟩
    · exact h.silent y (List.mem_append_left _ hy)
    · exact h.silent x (by simp)
  · have hlat := Log.latest_eq_some_iff.mpr ⟨hs, hs.latest_of_nil not_opens_of_follows⟩
    exact Or.inr (Or.inl ⟨before, rfl, rfl, hlat, hr⟩)
  · exact Or.inr (Or.inr hx)

/-- A `TWAS` word starts a conclusion. -/
theorem Tracks.hear_twas (h : Tracks c peer log) (hw : w.type = .twas)
    (ht : ∀ t ∈ Log.latest Heard.Opens Heard.Follows log,
      Takes c peer t.1 t.2.1 t.2.2 now w sender) :
    Tracks (c.hear peer now w) peer (log ++ [⟨w, now, sender⟩]) := by
  have hx : Heard.Opens ⟨w, now, sender⟩ := hw
  have hlat : Log.latest Heard.Opens Heard.Follows (log ++ [⟨w, now, sender⟩]) =
      some (⟨w, now, sender⟩, [], []) := by
    rw [Log.latest_concat, Log.track_opens _ hx]
  have hext : w.type.isExt = false := by rw [hw]; rfl
  unfold SM.Collected.hear
  dsimp only
  rw [if_pos hw]
  constructor
  · intro hne
    split at hne
    · rename_i ha
      rw [if_pos ha]
      exact ⟨_, _, _, hlat, ha.1, by simp [Heard.spelled, Heard.addr], rfl, fun _ => by simp⟩
    · exact absurd rfl hne
  · intro a ext later hs
    rcases signOff_concat hs with ⟨before, -, hs', hsilent, -⟩ | ⟨before, -, -, -, hf⟩ |
      ⟨rfl, rfl, rfl, -⟩
    · -- the old conclusion's sender would have had to be silent
      obtain ⟨hne, hlog⟩ := h.found a ext before hs'
      have htakes := ht _ hlog
      unfold Takes at htakes
      dsimp only at htakes
      rw [hext, if_neg (by decide)] at htakes
      have hpeer : c.addr = peer := by
        obtain ⟨a', ext', later', hlog', -, hsp, -⟩ := h.held hne
        obtain ⟨rfl, rfl, rfl⟩ : a = a' ∧ ext = ext' ∧ before = later' := by
          simpa using hlog.symm.trans hlog'
        exact hsp.trans hs'.spells
      obtain ⟨hsender, hgap⟩ := (htakes hne hpeer).mp hw
      exact absurd (hsilent hsender) (UInt32.not_le.mpr hgap)
    · exact absurd hx (not_opens_of_follows _ _ hf)
    · have hstart : trimAleAddress w.address ≠ [] := hs.starts
      have hsp : trimAleAddress w.address = peer := by
        have := hs.spells
        simpa [Heard.spelled, Heard.addr] using this
      have ha : trimAleAddress w.address ≠ [] ∧
          (trimAleAddress w.address).isPrefixOf peer = true := by
        refine ⟨hstart, ?_⟩
        rw [hsp, List.isPrefixOf_iff_prefix]
      rw [if_pos ha]
      exact ⟨hstart, hlat⟩

/-- A word that neither starts nor continues an address. -/
theorem Tracks.hear_other (h : Tracks c peer log) (hw : w.type ≠ .twas)
    (hext : w.type.isExt = false)
    (ht : ∀ t ∈ Log.latest Heard.Opens Heard.Follows log,
      Takes c peer t.1 t.2.1 t.2.2 now w sender) :
    Tracks (c.hear peer now w) peer (log ++ [⟨w, now, sender⟩]) := by
  have hx : ¬ Heard.Opens ⟨w, now, sender⟩ := hw
  have hnf : ∀ g, ¬ Heard.Follows g ⟨w, now, sender⟩ := by
    intro g hf
    have he : w.type.isExt = true := hf.1
    rw [hext] at he
    exact Bool.noConfusion he
  have hc : c.hear peer now w = c := by
    unfold SM.Collected.hear
    dsimp only
    rw [if_neg hw, if_neg (fun hh => by rw [hext] at hh; exact Bool.noConfusion hh.1)]
  have hpass : ∀ {a ext later}, Log.latest Heard.Opens Heard.Follows log = some (a, ext, later) →
      Log.latest Heard.Opens Heard.Follows (log ++ [⟨w, now, sender⟩]) =
        some (a, ext, later ++ [⟨w, now, sender⟩]) := by
    intro a ext later hlog
    rw [Log.latest_concat, hlog, Log.track_passOver hx (fun _ => hnf _)]
  rw [hc]
  constructor
  · intro hne
    obtain ⟨a, ext, later, hlog, hstart, hsp, hlast, hsilent⟩ := h.held hne
    refine ⟨a, ext, _, hpass hlog, hstart, hsp, hlast, fun hpeer y hy => ?_⟩
    rcases List.mem_append.mp hy with hy | hy
    · exact hsilent hpeer y hy
    · intro hsender
      have htakes := ht _ hlog
      unfold Takes at htakes
      dsimp only at htakes
      rw [hext, if_neg (by decide)] at htakes
      rw [List.mem_singleton.mp hy] at hsender ⊢
      by_contra hgap
      exact hw ((htakes hne hpeer).mpr ⟨hsender, UInt32.not_le.mp hgap⟩)
  · intro a ext later hs
    rcases signOff_concat hs with ⟨before, rfl, hs', -, -⟩ | ⟨before, -, -, -, hf⟩ | ⟨-, -, -, ho⟩
    · obtain ⟨hne, hlog⟩ := h.found a ext before hs'
      exact ⟨hne, hpass hlog⟩
    · exact absurd hf (hnf _)
    · exact absurd ho hx

/-- A word that may continue an address. -/
theorem Tracks.hear_ext (h : Tracks c peer log) (hext : w.type.isExt = true)
    (ht : ∀ t ∈ Log.latest Heard.Opens Heard.Follows log,
      Takes c peer t.1 t.2.1 t.2.2 now w sender) :
    Tracks (c.hear peer now w) peer (log ++ [⟨w, now, sender⟩]) := by
  have hw : w.type ≠ .twas := by
    intro hw
    rw [hw] at hext
    exact Bool.noConfusion hext
  have hx : ¬ Heard.Opens ⟨w, now, sender⟩ := hw
  have htakes : ∀ {a ext later}, Log.latest Heard.Opens Heard.Follows log = some (a, ext, later) →
      now - Heard.last a ext ≤ 2 * trwMs → (c.addr ≠ [] → later = []) ∧
        (later = [] → a.addr ≠ [] → a.addr.isPrefixOf peer → c.addr ≠ []) := by
    intro a ext later hlog hgap
    have htk := ht _ hlog
    unfold Takes at htk
    dsimp only at htk
    rw [if_pos hext] at htk
    exact htk hgap
  unfold SM.Collected.hear
  dsimp only
  rw [if_neg hw]
  by_cases hne : c.addr = []
  · -- nothing is collected and nothing should be
    rw [if_neg (fun hh => hh.2.1 hne)]
    refine ⟨fun hn => absurd hne hn, fun a ext later hs => ?_⟩
    rcases signOff_concat hs with ⟨before, rfl, hs', -, -⟩ | ⟨before, rfl, -, hlog, hf⟩ |
      ⟨-, -, -, ho⟩
    · exact absurd hne (h.found a ext before hs').1
    · have hstart : a.addr.isPrefixOf peer = true := by
        rw [List.isPrefixOf_iff_prefix, ← hs.spells]
        exact List.prefix_append _ _
      exact absurd hne ((htakes hlog hf.2).2 rfl hs.starts hstart)
    · exact absurd ho hx
  obtain ⟨a, ext, later, hlog, hstart, hsp, hlast, hsilent⟩ := h.held hne
  by_cases hgap : now - c.last ≤ 2 * trwMs
  · -- the word continues the conclusion collected
    rw [if_pos ⟨hext, hne, hgap⟩]
    rw [hlast] at hgap
    obtain rfl := (htakes hlog hgap).1 hne
    have hf : Heard.Follows (ext.getLastD a) ⟨w, now, sender⟩ := ⟨hext, hgap⟩
    have hlat : Log.latest Heard.Opens Heard.Follows (log ++ [⟨w, now, sender⟩]) =
        some (a, ext ++ [⟨w, now, sender⟩], []) := by
      rw [Log.latest_concat, hlog, Log.track_extend hx hf]
    have hne' : c.addr ++ trimAleAddress w.address ≠ [] :=
      fun hh => hne (List.append_eq_nil_iff.mp hh).1
    constructor
    · intro _
      exact ⟨a, _, _, hlat, hstart, by rw [spelled_concat, hsp]; rfl, by rw [last_concat],
        fun _ => by simp⟩
    · intro a' ext' later' hs
      rcases signOff_concat hs with ⟨before, rfl, hs', -, hbr⟩ | ⟨before, rfl, rfl, hlog', -⟩ |
        ⟨-, -, -, ho⟩
      · obtain ⟨rfl, rfl, rfl⟩ : a' = a ∧ ext' = ext ∧ before = [] := by
          simpa using (h.found a' ext' before hs').2.symm.trans hlog
        exact absurd hf (hbr rfl)
      · obtain ⟨rfl, rfl⟩ : a' = a ∧ before = ext := by simpa using hlog'.symm.trans hlog
        exact ⟨hne', hlat⟩
      · exact absurd ho hx
  · -- the word comes too late
    rw [if_neg (fun hh => hgap hh.2.2)]
    rw [hlast] at hgap
    have hnf : ¬ Heard.Follows (ext.getLastD a) ⟨w, now, sender⟩ := fun hf => hgap hf.2
    have hlat : Log.latest Heard.Opens Heard.Follows (log ++ [⟨w, now, sender⟩]) =
        some (a, ext, later ++ [⟨w, now, sender⟩]) := by
      rw [Log.latest_concat, hlog, Log.track_passOver hx (fun _ => hnf)]
    constructor
    · intro _
      refine ⟨a, ext, _, hlat, hstart, hsp, hlast, fun hpeer y hy => ?_⟩
      rcases List.mem_append.mp hy with hy | hy
      · exact hsilent hpeer y hy
      · intro _
        rw [List.mem_singleton.mp hy]
        exact UInt32.le_of_lt (UInt32.not_le.mp hgap)
    · intro a' ext' later' hs
      rcases signOff_concat hs with ⟨before, rfl, hs', -, -⟩ | ⟨before, rfl, rfl, hlog', hf⟩ |
        ⟨-, -, -, ho⟩
      · obtain ⟨rfl, rfl, rfl⟩ : a' = a ∧ ext' = ext ∧ before = later := by
          simpa using (h.found a' ext' before hs').2.symm.trans hlog
        exact ⟨hne, hlat⟩
      · obtain ⟨rfl, rfl, -⟩ : a' = a ∧ before = ext ∧ [] = later := by
          simpa using hlog'.symm.trans hlog
        exact absurd hf hnf
      · exact absurd ho hx

/-- **What the machine collects stays the latest conclusion.** -/
theorem Tracks.hear (h : Tracks c peer log)
    (ht : ∀ t ∈ Log.latest Heard.Opens Heard.Follows log,
      Takes c peer t.1 t.2.1 t.2.2 now w sender) :
    Tracks (c.hear peer now w) peer (log ++ [⟨w, now, sender⟩]) := by
  by_cases hw : w.type = .twas
  · exact h.hear_twas hw ht
  · cases hext : w.type.isExt with
    | true => exact h.hear_ext hext ht
    | false => exact h.hear_other hw hext ht

end Tracks

/-! ### Runs -/

/-- The invariant of a run. -/
structure Inv (m : Listener) : Prop where
  outside : m.sm.control.Outside
  tracks : m.sm.currentState = .linked →
    Tracks m.sm.collected m.sm.link.activeCallTo m.heard

theorem inv_init : init.Inv := ⟨SM.outside_init, fun h => ALEState.noConfusion h⟩

section Step

variable {m : Listener} {x : Op × ℕ}

theorem step_heard_stays (hc : m.sm.currentState = .linked)
    (hs : (m.sm.step x.1).currentState = .linked) : (m.step x).heard =
      m.heard ++ (SM.hears x.1).toList.map fun w => ⟨w, m.sm.currentTimeMs, x.2⟩ :=
  if_pos ⟨hc, hs⟩

theorem step_heard_enters (hc : m.sm.currentState ≠ .linked) : (m.step x).heard = [] :=
  if_neg (fun hh => hc hh.1)

/-- The words heard and the conclusion collected go together. -/
theorem inv_step (m : Listener) (x : Op × ℕ) (h : m.Inv) (hx : m.Undisturbed x) :
    (m.step x).Inv := by
  refine ⟨SM.outside_step h.outside x.1, fun hs => ?_⟩
  have hs' : (m.sm.clearOut.exec x.1).currentState = .linked := hs
  by_cases hc : m.sm.currentState = .linked
  · have hpre : m.sm.clearOut.preLinkState ≠ .linked := SM.preLink_ne_linked h.outside
    have hcol : m.sm.clearOut.collected = m.sm.collected := rfl
    have hpeer : (m.step x).sm.link.activeCallTo = m.sm.link.activeCallTo := by
      have hm := SM.exec_moves (s := m.sm.clearOut) hc hpre x.1 hs'
      exact congrArg Peers.activeCallTo hm.peers
    have ht := h.tracks hc
    rw [hpeer, step_heard_stays hc hs]
    show Tracks (m.sm.clearOut.exec x.1).collected _ _
    cases hh : SM.hears x.1 with
    | some w =>
      obtain ⟨hop, hv⟩ : x.1 = .processReceivedWord w ∧ w.valid = true := SM.hears_eq_some hh
      have hcl := SM.processReceivedWord_collected (s := m.sm.clearOut) hc hv
      rw [hop]
      show Tracks (m.sm.clearOut.processReceivedWord w).collected _ _
      rw [hcl]
      have htk := hx hc w (by rw [hh]; rfl)
      exact ht.hear htk
    | none =>
      rw [Option.toList_none, List.map_nil, List.append_nil]
      cases hu : SM.isUpdate x.1 with
      | false => rwa [SM.exec_collected (s := m.sm.clearOut) hc hpre hu hh hs']
      | true =>
        obtain ⟨now, env, hop⟩ := SM.isUpdate_eq_true hu
        rw [hop] at hs' ⊢
        have hcl := SM.update_collected (s := m.sm.clearOut) hc hpre hs'
        show Tracks (m.sm.clearOut.update now env).collected _ _
        rw [hcl]
        split
        · rename_i hset
          refine ht.discard (fun hpe => ?_) _
          have htr : m.sm.clearOut.trigger (.update now env) = .event .linkTerminated :=
            (@SM.trigger_update_iff m.sm.clearOut now env hc hset.1.own).mpr
              ⟨hset.1, hset.2, hpe⟩
          exact SM.linkTerminated_ends (s := m.sm.clearOut) hc hpre htr hs'
        · exact ht
  · rw [step_heard_enters hc]
    have hf : (m.step x).sm.collected = ⟨[], 0⟩ := SM.exec_collected_fresh (s := m.sm.clearOut) hc hs'
    rw [hf]
    exact tracks_nil 0

/-- A tick ends the link for a `TWAS` exactly when the peer has signed off. -/
theorem leavesByTwas_iff_endsLink (h : m.Inv) : m.LeavesByTwas x ↔ m.EndsLink x := by
  have hpre : m.sm.clearOut.preLinkState ≠ .linked := SM.preLink_ne_linked h.outside
  have htrig : m.sm.clearOut.trigger x.1 = m.sm.trigger x.1 := by
    cases x.1 <;> rfl
  constructor
  · rintro ⟨hc, -, ht, hu, htr⟩
    obtain ⟨now, env, hop⟩ := SM.isUpdate_eq_true hu
    rw [hop] at htr
    obtain ⟨hex, hset, hpeer⟩ := (SM.trigger_update_iff hc ht).mp htr
    exact ⟨now, env, hop, hc, hex, ((h.tracks hc).signedOff_iff).mpr ⟨hset, hpeer⟩⟩
  · rintro ⟨now, env, hop, hc, hex, hso⟩
    obtain ⟨hset, hpeer⟩ := ((h.tracks hc).signedOff_iff).mp hso
    have htr : m.sm.trigger x.1 = .event .linkTerminated := by
      rw [hop]
      exact (SM.trigger_update_iff hc hex.own).mpr ⟨hex, hset, hpeer⟩
    have hends := SM.linkTerminated_ends (s := m.sm.clearOut) hc hpre (htrig.trans htr)
    exact ⟨hc, hends, hex.own, by rw [hop]; rfl, htr⟩

end Step

/-- **A `TWAS` ends the link exactly when it is the peer's**, along every run whose steps are
`Undisturbed`. -/
theorem leavesByTwas_iff (xs : List (Op × ℕ)) (h : Machine.AllSteps step Undisturbed init xs) :
    Machine.AllSteps step (fun m x => m.LeavesByTwas x ↔ m.EndsLink x) init xs :=
  (Machine.allStates_of_inv inv_step inv_init h).allSteps fun _ _ hm => leavesByTwas_iff_endsLink hm

/-- A word of the characters `a` is received. -/
def word (t : PreambleType) (a : Str) : Op := .processReceivedWord (makeWord t a)

/-- A link with `ABCDEF`. -/
def linksWithAbcdef : List (Op × ℕ) :=
  [(.initiateCall ['A', 'B', 'C', 'D', 'E', 'F'], 0), (.processEvent .handshakeComplete, 0)]

/-- The peer signs off in two words, `Trw` apart. -/
def peerSignsOff : List (Op × ℕ) :=
  linksWithAbcdef ++ [(word .twas ['A', 'B', 'C'], 1), (.update 392 {}, 0),
    (word .data ['D', 'E', 'F'], 1), (.update 1176 {}, 0)]

/-- A station `ABC` sounds and another station calls `XYZDEF`. -/
def othersAreHeard : List (Op × ℕ) :=
  linksWithAbcdef ++ [(word .twas ['A', 'B', 'C'], 2), (.update 392 {}, 0),
    (word .to ['X', 'Y', 'Z'], 3), (.update 783 {}, 0), (word .data ['D', 'E', 'F'], 3)]

/-- The peer signs off. -/
theorem leavesByTwas_iff_peerSignsOff : Machine.AllSteps step
    (fun m x => m.LeavesByTwas x ↔ m.EndsLink x) init peerSignsOff :=
  leavesByTwas_iff peerSignsOff (by decide +kernel)

/-- What is heard of the other stations. -/
theorem heard_othersAreHeard : (Machine.run step init othersAreHeard).heard =
    [⟨makeWord .twas ['A', 'B', 'C'], 0, 2⟩, ⟨makeWord .to ['X', 'Y', 'Z'], 392, 3⟩,
      ⟨makeWord .data ['D', 'E', 'F'], 783, 3⟩] := by
  decide +kernel

/-- **The words of two other stations end the link.** -/
theorem leavesByTwas_fail : ¬ ∀ xs : List (Op × ℕ), Machine.AllSteps step
    (fun m x => m.LeavesByTwas x ↔ m.EndsLink x) init xs := by
  intro h
  have hlast := (Machine.allSteps_append.mp
    (h (othersAreHeard ++ [(.update 1567 {}, 0)]))).2.1
  have hleaves : (Machine.run step init othersAreHeard).LeavesByTwas (.update 1567 {}, 0) := by
    unfold LeavesByTwas
    decide +kernel
  obtain ⟨now, env, -, -, -, a, ext, later, hs, -⟩ := hlast.mp hleaves
  have hseg := hs.segment
  rw [heard_othersAreHeard] at hseg
  obtain ⟨rfl, hlat⟩ := hseg.of_head (by decide +kernel)
  have hext := Log.latest_eq_some_iff.mpr ⟨hseg, hlat⟩
  have hcomp : Log.latest Heard.Opens Heard.Follows
      [⟨makeWord .twas ['A', 'B', 'C'], 0, 2⟩, ⟨makeWord .to ['X', 'Y', 'Z'], 392, 3⟩,
        ⟨makeWord .data ['D', 'E', 'F'], 783, 3⟩] =
      some (⟨makeWord .twas ['A', 'B', 'C'], 0, 2⟩, [], [⟨makeWord .to ['X', 'Y', 'Z'], 392, 3⟩,
        ⟨makeWord .data ['D', 'E', 'F'], 783, 3⟩]) := by
    decide +kernel
  obtain ⟨rfl, -⟩ : ext = [] ∧ _ := by simpa using hcomp.symm.trans hext
  have hpeer : (Machine.run step init othersAreHeard).sm.link.activeCallTo =
      ['A', 'B', 'C', 'D', 'E', 'F'] := by
    decide +kernel
  have hsp := hs.spells
  rw [hpeer] at hsp
  exact absurd hsp (by decide +kernel)

end Listener

end OpenALE
