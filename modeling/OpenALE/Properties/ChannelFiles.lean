import OpenALE.App.ChannelStore
import OpenALE.Library.Machine

/-!
# The channel store and its file

`add_channel` keeps the store within its capacity and its frequencies apart; `load` takes what the
file has. The file keeps a channel whose texts are words (`Clean`), no other.
-/

namespace OpenALE

namespace ChannelStore

variable {s : ChannelStore} {ch : Channel}

/-- No more channels than the store has room for, of different frequencies. -/
def Bounded (channels : List Channel) : Prop :=
  channels.length ≤ capacity ∧ (channels.map (·.rxFrequencyHz)).Nodup

instance (channels : List Channel) : Decidable (Bounded channels) := by
  unfold Bounded
  infer_instance

/-- Saving and loading restores the channels, as far as they are persisted. -/
def Restores (s : ChannelStore) : Prop :=
  (s.load (some s.save)).channels.map persisted = s.channels.map persisted

instance (s : ChannelStore) : Decidable s.Restores := by
  unfold Restores
  infer_instance

/-- The store is well-formed, and its file restores it. -/
def WellFormed (s : ChannelStore) : Prop := Bounded s.channels ∧ s.Restores

theorem clean_persisted : Clean (persisted ch) ↔ Clean ch :=
  ⟨fun h => ⟨h.rx, h.tx, h.id, h.mode, h.modeNonempty, h.sameMode, h.enabled, h.comment, h.label⟩,
    fun h => ⟨h.rx, h.tx, h.id, h.mode, h.modeNonempty, h.sameMode, h.enabled, h.comment, h.label⟩⟩

/-- **The file restores exactly the channels whose texts are words.** -/
theorem restores_iff : s.Restores ↔ ∀ ch ∈ s.channels, Clean ch := by
  constructor
  · intro h ch hch
    have hmem : persisted ch ∈ (s.load (some s.save)).channels.map persisted := by
      rw [h]
      exact List.mem_map_of_mem hch
    obtain ⟨x, hx, hxch⟩ := List.mem_map.mp hmem
    obtain ⟨l, -, hl⟩ := List.mem_filterMap.mp hx
    rw [← clean_persisted, ← hxch, clean_persisted]
    exact (clean_readChannel hl).1
  · intro h
    have hread : (s.load (some s.save)).channels = s.channels.map persisted := readFile_writeFile h
    rw [Restores, hread, List.map_map]
    rfl

/-- What a call must bring for the store to stay well-formed: an accepted channel whose texts are
words, a channel that stays switched on, a file with no more channels than the store has room for,
of different frequencies. -/
def Admits (s : ChannelStore) : Op → Prop
  | .add ch => s.hasChannel ch.rxFrequencyHz = false → s.channels.length < capacity → Clean ch
  | .setEnabled rx enabled => s.hasChannel rx = true → enabled = true
  | .load (some text) => Bounded (readFile text)
  | _ => True

/-- The invariant: bounded, and all channels clean. -/
def Sound (s : ChannelStore) : Prop := Bounded s.channels ∧ ∀ ch ∈ s.channels, Clean ch

theorem Sound.wellFormed (h : s.Sound) : s.WellFormed := ⟨h.1, restores_iff.mpr h.2⟩

theorem hasChannel_iff {rx : Nat} :
    s.hasChannel rx = true ↔ rx ∈ s.channels.map (·.rxFrequencyHz) := by
  simp [hasChannel]

theorem addChannel_of_accepted (hnew : s.hasChannel ch.rxFrequencyHz = false)
    (hroom : s.channels.length < capacity) :
    s.addChannel ch = { channels := s.channels ++ [ch] } := by
  rw [addChannel, if_neg (by rw [hnew]; decide), if_neg (not_le.mpr hroom)]

theorem addChannel_of_refused
    (h : ¬ (s.hasChannel ch.rxFrequencyHz = false ∧ s.channels.length < capacity)) :
    s.addChannel ch = s := by
  unfold addChannel
  split
  · rfl
  · rename_i hnew
    rw [if_pos]
    have hnew' : s.hasChannel ch.rxFrequencyHz = false := by simpa using hnew
    exact not_lt.mp fun hroom => h ⟨hnew', hroom⟩

/-! ## Switching a channel -/

theorem enableFirst_rx (rx : Nat) (enabled : Bool) (cs : List Channel) :
    (enableFirst rx enabled cs).map (·.rxFrequencyHz) = cs.map (·.rxFrequencyHz) := by
  induction cs with
  | nil => rfl
  | cons c cs ih =>
    rw [enableFirst]
    split
    · rfl
    · rw [List.map_cons, ih, List.map_cons]

theorem mem_enableFirst {rx : Nat} {enabled : Bool} {cs : List Channel} {c : Channel}
    (h : c ∈ enableFirst rx enabled cs) :
    c ∈ cs ∨ ∃ x ∈ cs, x.rxFrequencyHz = rx ∧ c = { x with enabled := enabled } := by
  induction cs with
  | nil => cases h
  | cons x cs ih =>
    rw [enableFirst] at h
    split at h
    · rename_i hrx
      obtain rfl | h := List.mem_cons.mp h
      · exact .inr ⟨x, List.mem_cons_self, hrx, rfl⟩
      · exact .inl (List.mem_cons_of_mem _ h)
    · obtain rfl | h := List.mem_cons.mp h
      · exact .inl List.mem_cons_self
      · exact (ih h).imp (List.mem_cons_of_mem _) fun ⟨y, hy, hc⟩ => ⟨y, List.mem_cons_of_mem _ hy, hc⟩

theorem exists_enableFirst {rx : Nat} (enabled : Bool) {cs : List Channel}
    (h : rx ∈ cs.map (·.rxFrequencyHz)) : ∃ c ∈ enableFirst rx enabled cs, c.enabled = enabled := by
  induction cs with
  | nil => cases h
  | cons x cs ih =>
    rw [enableFirst]
    split
    · exact ⟨_, List.mem_cons_self, rfl⟩
    · rename_i hne
      obtain hx | hx := List.mem_cons.mp h
      · exact absurd hx.symm hne
      · obtain ⟨c, hc, hen⟩ := ih hx
        exact ⟨c, List.mem_cons_of_mem _ hc, hen⟩

/-! ## One call -/

theorem Sound.step (h : s.Sound) (op : Op) (hop : s.Admits op) : (s.step op).Sound := by
  obtain ⟨⟨hlen, hnodup⟩, hclean⟩ := h
  cases op with
  | add ch =>
    by_cases hacc : s.hasChannel ch.rxFrequencyHz = false ∧ s.channels.length < capacity
    · have hch := hop hacc.1 hacc.2
      have hnew : ch.rxFrequencyHz ∉ s.channels.map (·.rxFrequencyHz) := by
        rw [← hasChannel_iff, hacc.1]
        decide
      rw [ChannelStore.step, addChannel_of_accepted hacc.1 hacc.2]
      refine ⟨⟨?_, ?_⟩, ?_⟩
      · rw [List.length_append]
        exact hacc.2
      · rw [List.map_append, List.map_singleton, List.nodup_append]
        exact ⟨hnodup, List.nodup_singleton _, fun a ha b hb => by
          rw [List.mem_singleton] at hb
          rintro rfl
          exact hnew (hb ▸ ha)⟩
      · intro x hx
        obtain hx | hx := List.mem_append.mp hx
        · exact hclean x hx
        · rw [List.mem_singleton.mp hx]
          exact hch
    · rw [ChannelStore.step, addChannel_of_refused hacc]
      exact ⟨⟨hlen, hnodup⟩, hclean⟩
  | remove rx =>
    refine ⟨⟨(List.length_filter_le _ _).trans hlen, ?_⟩, fun x hx => hclean x (List.mem_filter.mp hx).1⟩
    exact (List.filter_sublist.map _).nodup hnodup
  | setEnabled rx enabled =>
    refine ⟨⟨?_, ?_⟩, ?_⟩
    · have hsame := congrArg List.length (enableFirst_rx rx enabled s.channels)
      rw [List.length_map, List.length_map] at hsame
      exact hsame.trans_le hlen
    · change ((enableFirst rx enabled s.channels).map (·.rxFrequencyHz)).Nodup
      rw [enableFirst_rx]
      exact hnodup
    · intro x hx
      obtain hx | ⟨y, hy, hrx, rfl⟩ := mem_enableFirst hx
      · exact hclean x hx
      · have hon : enabled = true := hop (hasChannel_iff.mpr (hrx ▸ List.mem_map_of_mem hy))
        have hy' := hclean y hy
        exact { hy' with enabled := hon }
  | clear => exact ⟨⟨Nat.zero_le _, List.nodup_nil⟩, fun x hx => by cases hx⟩
  | load text =>
    cases text with
    | none => exact ⟨⟨hlen, hnodup⟩, hclean⟩
    | some text =>
      refine ⟨hop, fun x hx => ?_⟩
      obtain ⟨l, -, hl⟩ := List.mem_filterMap.mp hx
      exact (clean_readChannel hl).1

theorem not_wellFormed_step (op : Op) (hop : ¬ s.Admits op) : ¬ (s.step op).WellFormed := by
  rintro ⟨hbounded, hrestores⟩
  rw [restores_iff] at hrestores
  cases op with
  | add ch =>
    simp only [Admits, Classical.not_imp] at hop
    obtain ⟨hnew, hroom, hdirty⟩ := hop
    rw [ChannelStore.step, addChannel_of_accepted hnew hroom] at hrestores
    exact hdirty (hrestores ch (by simp))
  | setEnabled rx enabled =>
    simp only [Admits, Classical.not_imp] at hop
    obtain ⟨hhas, hoff⟩ := hop
    obtain ⟨c, hc, hen⟩ := exists_enableFirst enabled (hasChannel_iff.mp hhas)
    exact hoff (hen ▸ (hrestores c hc).enabled)
  | load text =>
    cases text with
    | none => exact hop trivial
    | some text => exact hop hbounded
  | remove rx => exact hop trivial
  | clear => exact hop trivial

/-- **The store is well-formed and restored by its file along a run exactly if every call brings
what the file can hold.** -/
theorem wellFormed_iff (ops : List Op) :
    Machine.AllStates step WellFormed {} ops ↔ Machine.AllSteps step Admits {} ops := by
  have h0 : ({} : ChannelStore).Sound :=
    ⟨⟨Nat.zero_le _, List.nodup_nil⟩, fun x hx => by cases hx⟩
  exact Machine.allStates_iff_allSteps (fun _ op h hop => h.step op hop) (fun _ h => h.wellFormed)
    (fun _ op _ hop => not_wellFormed_step op hop) h0

/-- A file with one frequency twice. -/
theorem wellFormed_fail : ¬ ∀ ops : List Op, Machine.AllStates step WellFormed {} ops := by
  intro h
  have hrun := h [.load (some ['7', '\n', '7', '\n'])]
  have hload : Bounded (readFile ['7', '\n', '7', '\n']) := hrun.2.1
  revert hload
  decide +kernel

end ChannelStore

end OpenALE
