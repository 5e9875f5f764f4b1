import OpenALE.Library.Machine
import OpenALE.App.Stores

/-!
# References to channels

A net lists its channels by id, and so do a contact and a self address that are not valid on all of
them. The operations on the stores change the channels and each of the three kinds of lists.

Results:
* `sound_step_iff`: what an operation must meet so that every reference still names a channel.
* `references_iff`: along every run references stay sound exactly when each step meets it.
* `references_fail`: a renamed channel is not renamed in a contact's list.
-/

namespace OpenALE

namespace Controller

/-- The ids of the channels. -/
def channelIds (c : Controller) : List Str := c.callingChannels.map (·.id)

/-- The ids the nets list. -/
def netRefs (c : Controller) : List Str := c.nets.flatMap (·.channelIds)

/-- The ids the contacts list. -/
def contactRefs (c : Controller) : List Str := c.contacts.flatMap (·.validChannels)

/-- The ids the self addresses list. -/
def selfRefs (c : Controller) : List Str := c.selfAddresses.flatMap (·.validChannels)

/-- **No reference dangles**: each listed id names exactly one channel. -/
structure SoundRefs (c : Controller) : Prop where
  unique : c.channelIds.Nodup
  nets : c.netRefs ⊆ c.channelIds
  contacts : c.contactRefs ⊆ c.channelIds
  selves : c.selfRefs ⊆ c.channelIds

/-- The operations on channels, nets, contacts and self addresses. -/
inductive StoreOp where
  | addChannel (ch : Channel)
  | delChannel (rxHz : Nat)
  | renameChannel (oldId newId : Str)
  | setChannelEnabled (id : Str) (enabled : Bool)
  | setChannelMode (id mode : Str)
  | setPower (rxHz : Nat) (pct : Int)
  | setCallingChannels (channels : List Channel)
  | clearChannels
  | addNet (name : Str)
  | delNet (name : Str)
  | renameNet (oldName newName : Str)
  | updateNet (updated : Net)
  | assignChannelToNet (name id : Str)
  | unassignChannelFromNet (name id : Str)
  | addContact (callsign name status netMembers validChannels : Str)
  | removeContact (callsign : Str)
  | addSelfAddress (addr status validChannels : Str)
  | removeSelfAddress (addr : Str)
  | setPrimarySelfAddress (addr : Str)

/-- One operation. -/
def storeStep (c : Controller) : StoreOp → Controller
  | .addChannel ch => c.addChannel (nextFreeChannelId c.callingChannels) ch
  | .delChannel rxHz => c.delChannel rxHz
  | .renameChannel oldId newId => c.renameChannel oldId newId
  | .setChannelEnabled id enabled => c.setChannelEnabled id enabled
  | .setChannelMode id mode => c.setChannelMode id mode
  | .setPower rxHz pct => c.setPower rxHz pct
  | .setCallingChannels channels => c.setCallingChannels channels
  | .clearChannels => c.clearChannels
  | .addNet name => c.addNet name
  | .delNet name => c.delNet name
  | .renameNet oldName newName => c.renameNet oldName newName
  | .updateNet updated => c.updateNet updated
  | .assignChannelToNet name id => c.assignChannelToNet name id
  | .unassignChannelFromNet name id => c.unassignChannelFromNet name id
  | .addContact callsign name status netMembers validChannels =>
    c.addContact callsign name status netMembers validChannels
  | .removeContact callsign => c.removeContact callsign
  | .addSelfAddress addr status validChannels => c.addSelfAddress addr status validChannels
  | .removeSelfAddress addr => c.removeSelfAddress addr
  | .setPrimarySelfAddress addr => c.setPrimarySelfAddress addr

/-- An id a list of the controller refers to. -/
def Refers (c : Controller) (id : Str) : Prop :=
  id ∈ c.netRefs ∨ id ∈ c.contactRefs ∨ id ∈ c.selfRefs

/-- The id `add_channel` gives a channel. -/
def givenId (c : Controller) (ch : Channel) : Str :=
  if ch.id = [] then nextFreeChannelId c.callingChannels else ch.id

/-- The channels a `valid_channels` text names; `ALL` names none. -/
def namedChannels (validChannels : Str) : List Str :=
  if validChannels.isEmpty || validChannels == "ALL".toList then [] else splitCsv validChannels

/-- `rename_channel` accepts the two ids. -/
def Renames (c : Controller) (oldId newId : Str) : Prop :=
  oldId ≠ newId ∧ newId ≠ [] ∧
    newId.any (fun x => x == ' ' || x == '\t' || x == '\r' || x == '\n') = false ∧
    oldId ∈ c.channelIds ∧ newId ∉ c.channelIds

/-- **What an operation must meet.** -/
def Repairs (c : Controller) : StoreOp → Prop
  -- a channel that takes another's place keeps its id, or nothing refers to the old one; no other
  -- channel has the new id
  | .addChannel ch =>
    match c.callingChannels.find? (·.rxFrequencyHz == ch.rxFrequencyHz) with
    | some replaced => replaced.id = c.givenId ch ∨
        c.givenId ch ∉ c.channelIds ∧ ¬ c.Refers replaced.id
    | none => c.givenId ch ∉ c.channelIds
  -- no contact and no self address refers to a deleted channel, and no net to any but the first
  | .delChannel rxHz => ∀ ch ∈ c.callingChannels, ch.rxFrequencyHz = rxHz →
      ch.id ∉ c.contactRefs ∧ ch.id ∉ c.selfRefs ∧
        (ch.id ∈ c.netRefs → ch.id ≠ [] ∧
          (c.callingChannels.find? (·.rxFrequencyHz == rxHz)).map (·.id) = some ch.id)
  | .renameChannel oldId newId => c.Renames oldId newId →
      oldId ∉ c.contactRefs ∧ oldId ∉ c.selfRefs
  | .setCallingChannels channels => (channels.map (·.id)).Nodup ∧
      ∀ id, c.Refers id → id ∈ channels.map (·.id)
  | .clearChannels => ∀ id, ¬ c.Refers id
  | .assignChannelToNet name id => (c.findNet name).isSome = true → id ∈ c.channelIds
  | .addContact callsign _ _ _ validChannels => callsign ≠ [] →
      namedChannels validChannels ⊆ c.channelIds
  | .addSelfAddress addr _ validChannels => addr ≠ [] →
      (c.selfAddresses.length < selfAddressCapacity ∨
        addr ∈ c.selfAddresses.map (·.address)) →
      namedChannels validChannels ⊆ c.channelIds
  | .setChannelEnabled _ _ | .setChannelMode _ _ | .setPower _ _ | .addNet _ | .delNet _
  | .renameNet _ _ | .updateNet _ | .unassignChannelFromNet _ _ | .removeContact _
  | .removeSelfAddress _ | .setPrimarySelfAddress _ => True

variable {c c' : Controller} {id name : Str} {channels : List Channel}

/-! ## What an operation leaves alone -/

theorem mem_netRefs : id ∈ c.netRefs ↔ ∃ n ∈ c.nets, id ∈ n.channelIds := List.mem_flatMap

theorem mem_contactRefs : id ∈ c.contactRefs ↔ ∃ ct ∈ c.contacts, id ∈ ct.validChannels :=
  List.mem_flatMap

theorem mem_selfRefs : id ∈ c.selfRefs ↔ ∃ e ∈ c.selfAddresses, id ∈ e.validChannels :=
  List.mem_flatMap

theorem soundRefs_iff :
    c.SoundRefs ↔ c.channelIds.Nodup ∧ ∀ id, c.Refers id → id ∈ c.channelIds := by
  constructor
  · intro h
    refine ⟨h.unique, ?_⟩
    rintro id (hid | hid | hid)
    · exact h.nets hid
    · exact h.contacts hid
    · exact h.selves hid
  · rintro ⟨hunique, hrefs⟩
    exact ⟨hunique, fun id hid => hrefs id (Or.inl hid), fun id hid => hrefs id (Or.inr (Or.inl hid)),
      fun id hid => hrefs id (Or.inr (Or.inr hid))⟩

/-- The stores of `c'` are those of `c`, but for the channels. -/
structure SameStores (c c' : Controller) : Prop where
  nets : c'.nets = c.nets
  contacts : c'.contacts = c.contacts
  selves : c'.selfAddresses = c.selfAddresses

theorem SameStores.refers (h : SameStores c c') : c'.Refers id ↔ c.Refers id := by
  unfold Refers netRefs contactRefs selfRefs
  rw [h.nets, h.contacts, h.selves]

/-- An operation on channels alone. -/
theorem SameStores.soundRefs_iff (h : SameStores c c') :
    c'.SoundRefs ↔ c'.channelIds.Nodup ∧ ∀ id, c.Refers id → id ∈ c'.channelIds := by
  rw [Controller.soundRefs_iff]
  refine and_congr_right fun _ => forall_congr' fun id => ?_
  rw [h.refers]

/-- An operation that keeps the ids and adds no reference. -/
theorem SoundRefs.of_fewer (h : c.SoundRefs) (hids : c'.channelIds = c.channelIds)
    (hrefs : ∀ id, c'.Refers id → c.Refers id) : c'.SoundRefs := by
  rw [soundRefs_iff, hids]
  exact ⟨h.unique, fun id hid => (soundRefs_iff.mp h).2 id (hrefs id hid)⟩

/-! ## Channels -/

theorem sameStores_setCallingChannels (c : Controller) (channels : List Channel) :
    SameStores c (c.setCallingChannels channels) := ⟨rfl, rfl, rfl⟩

theorem soundRefs_setCallingChannels : (c.setCallingChannels channels).SoundRefs ↔
    (channels.map (·.id)).Nodup ∧ ∀ id, c.Refers id → id ∈ channels.map (·.id) :=
  (sameStores_setCallingChannels c channels).soundRefs_iff

/-- The list after `add_channel`. -/
theorem addChannel_eq (c : Controller) (ch : Channel) :
    c.addChannel (nextFreeChannelId c.callingChannels) ch =
      c.setCallingChannels (match c.callingChannels.findIdx? (·.rxFrequencyHz == ch.rxFrequencyHz) with
        | some i => c.callingChannels.set i { ch with id := c.givenId ch }
        | none => c.callingChannels ++ [{ ch with id := c.givenId ch }]) := by
  have hch : (if ch.id = [] then { ch with id := nextFreeChannelId c.callingChannels } else ch) =
      { ch with id := c.givenId ch } := by
    unfold givenId
    split_ifs <;> rfl
  unfold addChannel
  dsimp only
  rw [hch]
  rfl

/-- A list cut at an index. -/
theorem exists_split {α : Type*} {l : List α} {i : Nat} {x : α} (h : l[i]? = some x) :
    ∃ a b, l = a ++ x :: b ∧ ∀ y, l.set i y = a ++ y :: b := by
  obtain ⟨hi, rfl⟩ := List.getElem?_eq_some_iff.mp h
  refine ⟨l.take i, l.drop (i + 1), ?_, ?_⟩
  · rw [← List.drop_eq_getElem_cons hi, List.take_append_drop]
  · intro y
    rw [List.set_eq_take_append_cons_drop, if_pos hi]

section List

variable {ids : List Str} {i : Nat} {old new : Str}

/-- Another id at one place of a list without repetitions. -/
theorem nodup_set_iff (hids : ids.Nodup) (hi : ids[i]? = some old) (hne : old ≠ new) :
    (ids.set i new).Nodup ↔ new ∉ ids := by
  obtain ⟨a, b, rfl, hset⟩ := exists_split hi
  rw [hset, List.nodup_middle, List.nodup_cons]
  rw [List.nodup_middle, List.nodup_cons] at hids
  simp only [List.mem_append, List.mem_cons, hids.2, and_true, not_or, hne.symm, not_false_eq_true,
    true_and]

theorem mem_set_iff (hids : ids.Nodup) (hi : ids[i]? = some old) :
    id ∈ ids.set i new ↔ id = new ∨ id ∈ ids ∧ id ≠ old := by
  obtain ⟨a, b, rfl, hset⟩ := exists_split hi
  rw [List.nodup_middle, List.nodup_cons, List.mem_append] at hids
  rw [hset]
  simp only [List.mem_append, List.mem_cons]
  constructor
  · rintro (ha | rfl | hb)
    · exact Or.inr ⟨Or.inl ha, fun h => hids.1 (Or.inl (h ▸ ha))⟩
    · exact Or.inl rfl
    · exact Or.inr ⟨Or.inr (Or.inr hb), fun h => hids.1 (Or.inr (h ▸ hb))⟩
  · rintro (rfl | ⟨ha | rfl | hb, hne⟩)
    · exact Or.inr (Or.inl rfl)
    · exact Or.inl ha
    · exact absurd rfl hne
    · exact Or.inr (Or.inr hb)

end List

/-- A channel found by a search stands at the index found. -/
theorem findIdx_of_find {p : Channel → Bool} {ch : Channel} (h : channels.find? p = some ch) :
    ∃ i, channels.findIdx? p = some i ∧ channels[i]? = some ch := by
  rw [List.find?_eq_bind_findIdx?_getElem?] at h
  exact Option.bind_eq_some_iff.mp h

theorem findIdx_of_not_find {p : Channel → Bool} (h : channels.find? p = none) :
    channels.findIdx? p = none := by
  rw [List.findIdx?_eq_none_iff]
  intro ch hch
  simpa using List.find?_eq_none.mp h ch hch

theorem soundRefs_addChannel (h : c.SoundRefs) (ch : Channel) :
    (c.storeStep (.addChannel ch)).SoundRefs ↔ c.Repairs (.addChannel ch) := by
  have hrefs := (Controller.soundRefs_iff.mp h).2
  have hunique : (c.callingChannels.map (·.id)).Nodup := h.unique
  unfold storeStep Repairs
  dsimp only
  rw [addChannel_eq, soundRefs_setCallingChannels]
  cases hfind : c.callingChannels.find? (·.rxFrequencyHz == ch.rxFrequencyHz) with
  | none =>
    rw [findIdx_of_not_find hfind]
    simp only [List.map_append, List.map_cons, List.map_nil]
    constructor
    · rintro ⟨hnodup, -⟩ hmem
      exact (List.nodup_append.mp hnodup).2.2 _ hmem _ (List.mem_singleton_self _) rfl
    · intro hnew
      refine ⟨?_, fun id hid => List.mem_append_left _ (hrefs id hid)⟩
      rw [List.nodup_append]
      refine ⟨hunique, List.nodup_singleton _, ?_⟩
      intro a ha b hb hab
      rw [List.mem_singleton.mp hb] at hab
      exact hnew (hab ▸ ha)
  | some replaced =>
    obtain ⟨i, hidx, hget⟩ := findIdx_of_find hfind
    have hi : (c.callingChannels.map (·.id))[i]? = some replaced.id := by
      rw [List.getElem?_map, hget]
      rfl
    rw [hidx]
    simp only [List.map_set]
    by_cases hid : replaced.id = c.givenId ch
    · -- the ids stay as they are
      have hset : (c.callingChannels.map (·.id)).set i (c.givenId ch) =
          c.callingChannels.map (·.id) := by
        obtain ⟨a, b, heq, hset⟩ := exists_split hi
        rw [hset, heq, hid]
      rw [hset]
      exact ⟨fun _ => Or.inl hid, fun _ => ⟨hunique, hrefs⟩⟩
    · rw [nodup_set_iff hunique hi hid, or_iff_right hid]
      refine and_congr_right fun hnew => ?_
      constructor
      · intro hall href
        obtain hid' | ⟨-, hne⟩ := (mem_set_iff hunique hi).mp (hall _ href)
        · exact hid hid'
        · exact hne rfl
      · intro hnot id href
        refine (mem_set_iff hunique hi).mpr (Or.inr ⟨hrefs id href, ?_⟩)
        rintro rfl
        exact hnot href

theorem soundRefs_clearChannels :
    (c.storeStep .clearChannels).SoundRefs ↔ c.Repairs .clearChannels := by
  unfold storeStep clearChannels Repairs
  dsimp only
  rw [soundRefs_setCallingChannels]
  simp

/-- A change at one place that `g` does not see. -/
theorem map_modify {α β : Type*} {l : List α} {f : α → α} {g : α → β} (h : ∀ x, g (f x) = g x)
    (i : Nat) : (l.modify i f).map g = l.map g := by
  refine List.ext_getElem? fun j => ?_
  rw [List.getElem?_map, List.getElem?_map, List.getElem?_modify]
  cases l[j]? with
  | none => rfl
  | some x =>
    split
    · exact congrArg some (h x)
    · rfl

/-- Editing a channel without touching its id. -/
theorem soundRefs_editChannel (h : c.SoundRefs) {f : Channel → Channel}
    (hf : ∀ ch, (f ch).id = ch.id) : (c.editChannel id f).SoundRefs := by
  unfold editChannel
  cases c.callingChannels.findIdx? (·.id == id) with
  | none => exact h
  | some i => exact h.of_fewer (map_modify hf i) fun _ hid => hid

theorem soundRefs_setChannelEnabled (h : c.SoundRefs) (enabled : Bool) :
    (c.setChannelEnabled id enabled).SoundRefs := by
  unfold setChannelEnabled
  split
  · exact h
  · exact soundRefs_editChannel h fun _ => rfl

theorem soundRefs_setChannelMode (h : c.SoundRefs) (mode : Str) :
    (c.setChannelMode id mode).SoundRefs := by
  unfold setChannelMode
  split
  · exact h
  · exact soundRefs_editChannel h fun _ => rfl

theorem soundRefs_setPower (h : c.SoundRefs) (rxHz : Nat) (pct : Int) :
    (c.setPower rxHz pct).SoundRefs := by
  unfold setPower
  dsimp only
  split
  · exact h
  · split
    · exact h
    · refine h.of_fewer ?_ fun _ hid => hid
      show List.map Channel.id (List.modify _ _ _) = List.map Channel.id _
      exact map_modify (by exact fun _ => rfl) _

/-- Two channels with one id are one. -/
theorem SoundRefs.eq_of_id (h : c.SoundRefs) {ch ch' : Channel} (hch : ch ∈ c.callingChannels)
    (hch' : ch' ∈ c.callingChannels) (hid : ch.id = ch'.id) : ch = ch' :=
  List.inj_on_of_nodup_map h.unique hch hch' hid

theorem soundRefs_delChannel (h : c.SoundRefs) (rxHz : Nat) :
    (c.storeStep (.delChannel rxHz)).SoundRefs ↔ c.Repairs (.delChannel rxHz) := by
  have hrefs := (Controller.soundRefs_iff.mp h).2
  unfold storeStep delChannel Repairs
  dsimp only
  cases hfind : c.callingChannels.find? (·.rxFrequencyHz == rxHz) with
  | none =>
    refine iff_of_true h ?_
    intro ch hch hrx
    exact absurd hrx (by simpa using List.find?_eq_none.mp hfind ch hch)
  | some removed =>
    have hremoved := List.mem_of_find?_eq_some hfind
    have hkept : ∀ id, id ∈ (c.callingChannels.filter (·.rxFrequencyHz != rxHz)).map (·.id) ↔
        ∃ ch ∈ c.callingChannels, ch.rxFrequencyHz ≠ rxHz ∧ ch.id = id := by
      intro id
      simp [List.mem_map, List.mem_filter, and_assoc]
    -- an id that goes with its channel is no id of the channels kept
    have hgone : ∀ ch ∈ c.callingChannels, ch.rxFrequencyHz = rxHz →
        ch.id ∉ (c.callingChannels.filter (·.rxFrequencyHz != rxHz)).map (·.id) := by
      intro ch hch hrx hmem
      obtain ⟨ch', hch', hrx', hid⟩ := (hkept _).mp hmem
      rw [h.eq_of_id hch' hch hid] at hrx'
      exact hrx' hrx
    have hstay : ∀ id ∈ c.channelIds, (∀ ch ∈ c.callingChannels, ch.rxFrequencyHz = rxHz →
        ch.id ≠ id) → id ∈ (c.callingChannels.filter (·.rxFrequencyHz != rxHz)).map (·.id) := by
      intro id hid hall
      obtain ⟨ch, hch, rfl⟩ := List.mem_map.mp hid
      exact (hkept _).mpr ⟨ch, hch, fun hrx => hall ch hch hrx rfl, rfl⟩
    have hnets : ∀ id, (∃ n ∈ (if removed.id = [] then c.nets else c.nets.map fun n =>
        { n with channelIds := n.channelIds.filter (· != removed.id) }), id ∈ n.channelIds) ↔
        id ∈ c.netRefs ∧ (removed.id = [] ∨ id ≠ removed.id) := by
      intro id
      rw [mem_netRefs]
      by_cases hnil : removed.id = []
      · simp [hnil]
      · simp only [hnil, if_false, false_or, List.mem_map]
        constructor
        · rintro ⟨_, ⟨n, hn, rfl⟩, hid⟩
          rw [List.mem_filter] at hid
          exact ⟨⟨n, hn, hid.1⟩, by simpa using hid.2⟩
        · rintro ⟨⟨n, hn, hid⟩, hne⟩
          exact ⟨_, ⟨n, hn, rfl⟩, List.mem_filter.mpr ⟨hid, by simpa using hne⟩⟩
    constructor
    · intro h' ch hch hrx
      refine ⟨fun hid => hgone ch hch hrx (h'.contacts hid),
        fun hid => hgone ch hch hrx (h'.selves hid), ?_⟩
      intro hid
      by_contra hcon
      refine hgone ch hch hrx (h'.nets (mem_netRefs.mpr ((hnets ch.id).mpr ⟨hid, ?_⟩)))
      by_cases hnil : removed.id = []
      · exact Or.inl hnil
      · right
        rintro hsame
        refine hcon ⟨by rwa [hsame], ?_⟩
        rw [Option.map_some, hsame]
    · intro hall
      refine ⟨?_, ?_, ?_, ?_⟩
      · exact h.unique.sublist (List.Sublist.map _ List.filter_sublist)
      · intro id hid
        obtain ⟨hmem, hor⟩ := (hnets id).mp (mem_netRefs.mp hid)
        refine hstay id (h.nets hmem) ?_
        rintro ch hch hrx rfl
        obtain ⟨hne, hfirst⟩ := (hall ch hch hrx).2.2 hmem
        rw [Option.map_some, Option.some.injEq] at hfirst
        obtain hnil | hne' := hor
        · exact hne (hfirst ▸ hnil)
        · exact hne' hfirst.symm
      · intro id hid
        refine hstay id (h.contacts hid) ?_
        rintro ch hch hrx rfl
        exact (hall ch hch hrx).1 hid
      · intro id hid
        refine hstay id (h.selves hid) ?_
        rintro ch hch hrx rfl
        exact (hall ch hch hrx).2.1 hid

/-- `rename_channel` acts when it accepts the ids. -/
theorem renameChannel_of_renames {oldId newId : Str} (h : c.Renames oldId newId) :
    c.renameChannel oldId newId =
      { c.editChannel oldId (fun ch => { ch with id := newId }) with
        nets := c.nets.map (·.renameChannel oldId newId) } := by
  obtain ⟨hne, hnil, hspace, hold, hnew⟩ := h
  have hall : c.callingChannels.all (·.id != oldId) = false := by
    obtain ⟨ch, hch, rfl⟩ := List.mem_map.mp hold
    rw [List.all_eq_false]
    exact ⟨ch, hch, by simp⟩
  have hany : c.callingChannels.any (·.id == newId) = false := by
    rw [List.any_eq_false]
    intro ch hch hid
    exact hnew (List.mem_map.mpr ⟨ch, hch, by simpa using hid⟩)
  have hnets : (c.editChannel oldId fun ch => { ch with id := newId }).nets = c.nets := by
    unfold editChannel
    split <;> rfl
  unfold renameChannel
  rw [if_neg hne, if_neg hnil, hspace, hall, hany]
  simp only [Bool.false_eq_true, if_false]
  rw [hnets]

theorem renameChannel_of_not_renames {oldId newId : Str} (h : ¬ c.Renames oldId newId) :
    c.renameChannel oldId newId = c := by
  unfold renameChannel
  split
  · rfl
  · next hne =>
    split
    · rfl
    · next hnil =>
      split
      · rfl
      · next hspace =>
        split
        · rfl
        · next hall =>
          split
          · rfl
          · next hany =>
            refine absurd ⟨hne, hnil, by simpa using hspace, ?_, ?_⟩ h
            · simpa [channelIds] using hall
            · simpa [channelIds] using hany

/-- The list of a renamed net holds the new id or ids it held before. -/
theorem mem_renameChannel {n : Net} {oldId newId : Str}
    (hid : id ∈ (n.renameChannel oldId newId).channelIds) :
    id = newId ∨ id ∈ n.channelIds ∧ id ≠ oldId := by
  unfold Net.renameChannel at hid
  dsimp only at hid
  obtain ⟨hmem, hnil⟩ := List.mem_filter.mp hid
  obtain ⟨x, hx, rfl⟩ := List.mem_map.mp hmem
  split_ifs at hnil ⊢ with hold hhas
  · exact absurd hnil (by simp)
  · exact Or.inl rfl
  · exact Or.inr ⟨hx, hold⟩

theorem sameStores_editChannel (c : Controller) (id : Str) (f : Channel → Channel) :
    SameStores c (c.editChannel id f) := by
  unfold editChannel
  split
  · exact ⟨rfl, rfl, rfl⟩
  · exact ⟨rfl, rfl, rfl⟩

/-- The ids after a rename: the one at the channel's place is exchanged. -/
theorem channelIds_rename {oldId newId : Str} (hold : oldId ∈ c.channelIds) :
    ∃ i, c.channelIds[i]? = some oldId ∧
      (c.editChannel oldId fun ch => { ch with id := newId }).channelIds =
        c.channelIds.set i newId := by
  obtain ⟨ch, hch, hid⟩ := List.mem_map.mp hold
  obtain ⟨found, hfound⟩ : ∃ found, c.callingChannels.find? (·.id == oldId) = some found := by
    rw [← Option.isSome_iff_exists, List.find?_isSome]
    exact ⟨ch, hch, by simpa using hid⟩
  obtain ⟨i, hidx, hget⟩ := findIdx_of_find hfound
  have hfid : found.id = oldId := by simpa using List.find?_some hfound
  refine ⟨i, ?_, ?_⟩
  · unfold channelIds
    rw [List.getElem?_map, hget, Option.map_some, hfid]
  · unfold editChannel
    rw [hidx]
    show List.map Channel.id (List.modify _ _ _) = _
    rw [List.modify_eq_set_getElem?, hget]
    exact List.map_set

theorem soundRefs_renameChannel (h : c.SoundRefs) (oldId newId : Str) :
    (c.storeStep (.renameChannel oldId newId)).SoundRefs ↔
      c.Repairs (.renameChannel oldId newId) := by
  unfold storeStep Repairs
  dsimp only
  by_cases hr : c.Renames oldId newId
  · rw [renameChannel_of_renames hr, imp_iff_right hr]
    obtain ⟨hne, -, -, hold, hnew⟩ := hr
    obtain ⟨i, hi, hids⟩ := @channelIds_rename c oldId newId hold
    have hstores := sameStores_editChannel c oldId fun ch => { ch with id := newId }
    have hmem : ∀ x, x ∈ (c.editChannel oldId fun ch => { ch with id := newId }).channelIds ↔
        x = newId ∨ x ∈ c.channelIds ∧ x ≠ oldId := by
      intro x
      rw [hids]
      exact mem_set_iff h.unique hi
    have hcontacts : (c.editChannel oldId fun ch => { ch with id := newId }).contactRefs =
        c.contactRefs := by
      unfold contactRefs
      rw [hstores.contacts]
    have hselves : (c.editChannel oldId fun ch => { ch with id := newId }).selfRefs =
        c.selfRefs := by
      unfold selfRefs
      rw [hstores.selves]
    constructor
    · intro h'
      have hout : oldId ∉ (c.editChannel oldId fun ch => { ch with id := newId }).channelIds := by
        rw [hmem]
        rintro (heq | ⟨-, hne'⟩)
        · exact hne heq
        · exact hne' rfl
      exact ⟨fun hid => hout (h'.contacts (hcontacts.symm ▸ hid)),
        fun hid => hout (h'.selves (hselves.symm ▸ hid))⟩
    · rintro ⟨hnotContact, hnotSelf⟩
      refine ⟨?_, ?_, ?_, ?_⟩
      · have hnodup := (nodup_set_iff h.unique hi hne).mpr hnew
        rw [← hids] at hnodup
        exact hnodup
      · intro x hx
        obtain ⟨m, hm, hxm⟩ := mem_netRefs.mp hx
        obtain ⟨n, hn, rfl⟩ := List.mem_map.mp hm
        obtain hnew' | ⟨hxn, hxo⟩ := mem_renameChannel hxm
        · exact (hmem x).mpr (Or.inl hnew')
        · exact (hmem x).mpr (Or.inr ⟨h.nets (mem_netRefs.mpr ⟨n, hn, hxn⟩), hxo⟩)
      · intro x hx
        have hx' : x ∈ c.contactRefs := hcontacts ▸ hx
        exact (hmem x).mpr (Or.inr ⟨h.contacts hx', fun he => hnotContact (he ▸ hx')⟩)
      · intro x hx
        have hx' : x ∈ c.selfRefs := hselves ▸ hx
        exact (hmem x).mpr (Or.inr ⟨h.selves hx', fun he => hnotSelf (he ▸ hx')⟩)
  · rw [renameChannel_of_not_renames hr]
    exact iff_of_true h fun hr' => absurd hr' hr

/-! ## Nets -/

/-- An operation on nets alone. -/
theorem soundRefs_of_nets (h : c.SoundRefs) {nets : List Net} :
    SoundRefs { c with nets := nets } ↔ ∀ n ∈ nets, n.channelIds ⊆ c.channelIds := by
  constructor
  · intro h' n hn id hid
    exact h'.nets (mem_netRefs.mpr ⟨n, hn, hid⟩)
  · intro hnets
    refine ⟨h.unique, ?_, h.contacts, h.selves⟩
    intro id hid
    obtain ⟨n, hn, hmem⟩ := mem_netRefs.mp hid
    exact hnets n hn hmem

/-- The lists of the nets are sound. -/
theorem SoundRefs.net (h : c.SoundRefs) {n : Net} (hn : n ∈ c.nets) :
    n.channelIds ⊆ c.channelIds := fun _ hid => h.nets (mem_netRefs.mpr ⟨n, hn, hid⟩)

theorem soundRefs_addNet (h : c.SoundRefs) (name : Str) : (c.addNet name).SoundRefs := by
  unfold addNet
  split
  · exact h
  · refine (soundRefs_of_nets h).mpr ?_
    intro n hn
    obtain hn | hn := List.mem_append.mp hn
    · exact h.net hn
    · rw [List.mem_singleton.mp hn]
      exact List.nil_subset _

theorem soundRefs_delNet (h : c.SoundRefs) (name : Str) : (c.delNet name).SoundRefs :=
  (soundRefs_of_nets h).mpr fun _ hn => h.net (List.mem_of_mem_filter hn)

/-- An edit of the net found under a name. -/
theorem soundRefs_editNet (h : c.SoundRefs) (name : Str) (f : Net → Net) :
    (c.editNet name f).SoundRefs ↔
      ∀ n, c.findNet name = some n → (f n).channelIds ⊆ c.channelIds := by
  unfold editNet findNet
  cases hfind : c.nets.find? (·.name == name) with
  | none =>
    have hidx : c.nets.findIdx? (·.name == name) = none := by
      rw [List.findIdx?_eq_none_iff]
      intro n hn
      simpa using List.find?_eq_none.mp hfind n hn
    rw [hidx]
    exact iff_of_true h fun n hn => absurd hn (by simp)
  | some n =>
    rw [List.find?_eq_bind_findIdx?_getElem?] at hfind
    obtain ⟨i, hidx, hget⟩ := Option.bind_eq_some_iff.mp hfind
    have hmodify : c.nets.modify i f = c.nets.set i (f n) := by
      rw [List.modify_eq_set_getElem?, hget]
      rfl
    rw [hidx]
    dsimp only
    rw [soundRefs_of_nets h, hmodify]
    constructor
    · rintro hall m hm
      rw [← Option.some.inj hm]
      exact hall _ (List.mem_set (List.getElem?_eq_some_iff.mp hget).1 _)
    · intro hn m hm
      obtain hm | rfl := List.mem_or_eq_of_mem_set hm
      · exact h.net hm
      · exact hn n rfl

/-- An edit that adds no id. -/
theorem soundRefs_editNet_of_fewer (h : c.SoundRefs) (name : Str) {f : Net → Net}
    (hf : ∀ n, (f n).channelIds ⊆ n.channelIds) : (c.editNet name f).SoundRefs := by
  refine (soundRefs_editNet h name f).mpr ?_
  intro n hn
  exact List.Subset.trans (hf n) (h.net (List.mem_of_find?_eq_some hn))

theorem soundRefs_assignChannelToNet (h : c.SoundRefs) (name id : Str) :
    (c.storeStep (.assignChannelToNet name id)).SoundRefs ↔
      c.Repairs (.assignChannelToNet name id) := by
  have hassign : ∀ n ∈ c.nets, (n.assignChannel id).channelIds ⊆ c.channelIds ↔
      id ∈ c.channelIds := by
    intro n hn
    unfold Net.assignChannel
    split_ifs with hmem
    · exact iff_of_true (h.net hn) (h.net hn (List.contains_iff_mem.mp hmem))
    · constructor
      · intro hsub
        exact hsub (by simp)
      · intro hid x hx
        obtain hx | hx := List.mem_append.mp hx
        · exact h.net hn hx
        · rwa [List.mem_singleton.mp hx]
  unfold storeStep assignChannelToNet Repairs
  dsimp only
  rw [soundRefs_editNet h]
  constructor
  · intro hall hsome
    obtain ⟨n, hn⟩ := Option.isSome_iff_exists.mp hsome
    exact (hassign n (List.mem_of_find?_eq_some hn)).mp (hall n hn)
  · intro hid n hn
    exact (hassign n (List.mem_of_find?_eq_some hn)).mpr (hid (by rw [hn]; rfl))

/-! ## Contacts -/

/-- An operation on contacts alone. -/
theorem soundRefs_of_contacts (h : c.SoundRefs) {contacts : List Contact} :
    SoundRefs { c with contacts := contacts } ↔
      ∀ ct ∈ contacts, ct.validChannels ⊆ c.channelIds := by
  constructor
  · intro h' ct hct id hid
    exact h'.contacts (mem_contactRefs.mpr ⟨ct, hct, hid⟩)
  · intro hcontacts
    refine ⟨h.unique, h.nets, ?_, h.selves⟩
    intro id hid
    obtain ⟨ct, hct, hmem⟩ := mem_contactRefs.mp hid
    exact hcontacts ct hct hmem

theorem SoundRefs.contact (h : c.SoundRefs) {ct : Contact} (hct : ct ∈ c.contacts) :
    ct.validChannels ⊆ c.channelIds := fun _ hid => h.contacts (mem_contactRefs.mpr ⟨ct, hct, hid⟩)

theorem soundRefs_addOrUpdateContact (h : c.SoundRefs) (ct : Contact) :
    (c.addOrUpdateContact ct).SoundRefs ↔
      (ct.callsign ≠ [] → ct.validChannels ⊆ c.channelIds) := by
  unfold addOrUpdateContact
  by_cases hnil : ct.callsign = []
  · rw [if_pos hnil]
    exact iff_of_true h fun hne => absurd hnil hne
  · rw [if_neg hnil, imp_iff_right hnil]
    cases hidx : c.contacts.findIdx? (·.callsign == ct.callsign) with
    | none =>
      dsimp only
      rw [soundRefs_of_contacts h]
      constructor
      · intro hall
        exact hall ct (by simp)
      · intro hct x hx
        obtain hx | hx := List.mem_append.mp hx
        · exact h.contact hx
        · rwa [List.mem_singleton.mp hx]
    | some i =>
      have hi : i < c.contacts.length := (List.findIdx?_eq_some_iff_getElem.mp hidx).1
      dsimp only
      rw [soundRefs_of_contacts h]
      constructor
      · intro hall
        exact hall ct (List.mem_set hi _)
      · intro hct x hx
        obtain hx | rfl := List.mem_or_eq_of_mem_set hx
        · exact h.contact hx
        · exact hct

theorem channelIds_addOrUpdateContact (c : Controller) (ct : Contact) :
    (c.addOrUpdateContact ct).channelIds = c.channelIds := by
  unfold addOrUpdateContact
  split
  · rfl
  · split <;> rfl

/-- Contacts written back one after the other. -/
theorem soundRefs_foldl_contacts {f : Contact → Contact}
    (hf : ∀ ct, (f ct).validChannels = ct.validChannels) (cts : List Contact) (h : c.SoundRefs)
    (hcts : ∀ ct ∈ cts, ct.validChannels ⊆ c.channelIds) :
    (cts.foldl (fun c ct => c.addOrUpdateContact (f ct)) c).SoundRefs := by
  induction cts generalizing c with
  | nil => exact h
  | cons ct cts ih =>
    rw [List.foldl_cons]
    refine ih ?_ ?_
    · refine (soundRefs_addOrUpdateContact h _).mpr fun _ => ?_
      rw [hf]
      exact hcts ct (by simp)
    · intro ct' hct'
      rw [channelIds_addOrUpdateContact]
      exact hcts ct' (List.mem_cons_of_mem _ hct')

theorem soundRefs_renameNet (h : c.SoundRefs) (oldName newName : Str) :
    (c.renameNet oldName newName).SoundRefs := by
  unfold renameNet
  split
  · exact h
  · have hedit := soundRefs_editNet_of_fewer h oldName (f := fun n => { n with name := newName })
      fun _ => List.Subset.refl _
    dsimp only
    refine soundRefs_foldl_contacts (f := fun ct => { ct with
      netMembers := ct.netMembers.map fun n => if n = oldName then newName else n }) (fun _ => rfl) _
      ⟨hedit.unique, hedit.nets, hedit.contacts, hedit.selves⟩ ?_
    intro ct hct
    exact hedit.contact (List.mem_of_mem_filter hct)

theorem soundRefs_removeContact (h : c.SoundRefs) (callsign : Str) :
    (c.removeContact callsign).SoundRefs :=
  (soundRefs_of_contacts h).mpr fun _ hct => h.contact (List.mem_of_mem_filter hct)

theorem soundRefs_addContact (h : c.SoundRefs) (callsign name status netMembers channels : Str) :
    (c.storeStep (.addContact callsign name status netMembers channels)).SoundRefs ↔
      c.Repairs (.addContact callsign name status netMembers channels) :=
  soundRefs_addOrUpdateContact h _

/-! ## Self addresses -/

/-- An operation on self addresses alone. -/
theorem soundRefs_of_selves (h : c.SoundRefs) {entries : List SelfAddressEntry} {primary : Str} :
    SoundRefs { c with selfAddresses := entries, primarySelfAddress := primary } ↔
      ∀ e ∈ entries, e.validChannels ⊆ c.channelIds := by
  constructor
  · intro h' e he id hid
    exact h'.selves (mem_selfRefs.mpr ⟨e, he, hid⟩)
  · intro hselves
    refine ⟨h.unique, h.nets, h.contacts, ?_⟩
    intro id hid
    obtain ⟨e, he, hmem⟩ := mem_selfRefs.mp hid
    exact hselves e he hmem

theorem SoundRefs.self (h : c.SoundRefs) {e : SelfAddressEntry} (he : e ∈ c.selfAddresses) :
    e.validChannels ⊆ c.channelIds := fun _ hid => h.selves (mem_selfRefs.mpr ⟨e, he, hid⟩)

/-- The primary address is no reference to a channel. -/
theorem soundRefs_setPrimary (c : Controller) (addr : Str) :
    (c.setPrimarySelfAddress addr).SoundRefs ↔ c.SoundRefs := by
  unfold setPrimarySelfAddress
  split
  · exact Iff.rfl
  · exact ⟨fun h => ⟨h.unique, h.nets, h.contacts, h.selves⟩,
      fun h => ⟨h.unique, h.nets, h.contacts, h.selves⟩⟩

theorem soundRefs_removeSelfAddress (h : c.SoundRefs) (addr : Str) :
    (c.removeSelfAddress addr).SoundRefs := by
  unfold removeSelfAddress
  dsimp only
  split
  · exact h
  · exact (soundRefs_of_selves h).mpr fun _ he => h.self (List.mem_of_mem_filter he)

/-- The store takes an entry that it has, or has room for. -/
theorem storeSelfAddress_cases (c : Controller) (entry : SelfAddressEntry) :
    c.storeSelfAddress entry = none ∧
      ¬ (c.selfAddresses.length < selfAddressCapacity ∨
        entry.address ∈ c.selfAddresses.map (·.address)) ∨
    ∃ entries primary, c.storeSelfAddress entry =
        some { c with selfAddresses := entries, primarySelfAddress := primary } ∧
      entry ∈ entries ∧ (∀ e ∈ entries, e = entry ∨ e ∈ c.selfAddresses) ∧
      (c.selfAddresses.length < selfAddressCapacity ∨
        entry.address ∈ c.selfAddresses.map (·.address)) := by
  unfold storeSelfAddress
  cases hidx : c.selfAddresses.findIdx? (·.address == entry.address) with
  | none =>
    have hnew : entry.address ∉ c.selfAddresses.map (·.address) := by
      intro hmem
      obtain ⟨e, he, haddr⟩ := List.mem_map.mp hmem
      have := List.findIdx?_eq_none_iff.mp hidx e he
      simp [haddr] at this
    dsimp only
    by_cases hfull : selfAddressCapacity ≤ c.selfAddresses.length
    · rw [if_pos hfull]
      left
      refine ⟨rfl, ?_⟩
      rintro (hlt | hmem)
      · omega
      · exact hnew hmem
    · rw [if_neg hfull]
      right
      refine ⟨_, _, rfl, by simp, ?_, Or.inl (by omega)⟩
      intro e he
      obtain he | he := List.mem_append.mp he
      · exact Or.inr he
      · exact Or.inl (List.mem_singleton.mp he)
  | some i =>
    obtain ⟨hi, haddr, -⟩ := List.findIdx?_eq_some_iff_getElem.mp hidx
    right
    refine ⟨_, _, rfl, List.mem_set hi _, ?_, Or.inr ?_⟩
    · intro e he
      exact (List.mem_or_eq_of_mem_set he).symm
    · exact List.mem_map.mpr ⟨_, List.getElem_mem hi, by simpa using haddr⟩

theorem soundRefs_addSelfAddress (h : c.SoundRefs) (addr status channels : Str) :
    (c.storeStep (.addSelfAddress addr status channels)).SoundRefs ↔
      c.Repairs (.addSelfAddress addr status channels) := by
  unfold storeStep addSelfAddress Repairs
  dsimp only
  by_cases hnil : addr = []
  · rw [if_pos hnil]
    exact iff_of_true h fun hne => absurd hnil hne
  · rw [if_neg hnil, imp_iff_right hnil]
    have hcases := storeSelfAddress_cases c {
      address := addr
      enabled := status != "disabled".toList
      validChannels := namedChannels channels
      allChannels := channels.isEmpty || channels == "ALL".toList }
    obtain ⟨hnone, hfull⟩ | ⟨entries, primary, hsome, hmem, hall, hroom⟩ := hcases
    · unfold namedChannels at hnone
      rw [hnone]
      exact iff_of_true h fun hroom => absurd hroom hfull
    · rw [imp_iff_right hroom]
      unfold namedChannels at hsome
      rw [hsome]
      have hentries : (∀ e ∈ entries, e.validChannels ⊆ c.channelIds) ↔
          namedChannels channels ⊆ c.channelIds := by
        constructor
        · intro hsub
          exact hsub _ hmem
        · intro hsub e he
          obtain rfl | he := hall e he
          · exact hsub
          · exact h.self he
      dsimp only
      split_ifs
      · rw [soundRefs_setPrimary, soundRefs_of_selves h, hentries]
      · rw [soundRefs_of_selves h, hentries]

/-! ## Runs -/

/-- **The step lemma**: an operation keeps the references sound exactly when it meets its
condition. -/
theorem sound_step_iff (h : c.SoundRefs) (op : StoreOp) :
    (c.storeStep op).SoundRefs ↔ c.Repairs op := by
  cases op with
  | addChannel ch => exact soundRefs_addChannel h ch
  | delChannel rxHz => exact soundRefs_delChannel h rxHz
  | renameChannel oldId newId => exact soundRefs_renameChannel h oldId newId
  | setChannelEnabled id enabled => exact iff_of_true (soundRefs_setChannelEnabled h enabled) trivial
  | setChannelMode id mode => exact iff_of_true (soundRefs_setChannelMode h mode) trivial
  | setPower rxHz pct => exact iff_of_true (soundRefs_setPower h rxHz pct) trivial
  | setCallingChannels channels => exact soundRefs_setCallingChannels
  | clearChannels => exact soundRefs_clearChannels
  | addNet name => exact iff_of_true (soundRefs_addNet h name) trivial
  | delNet name => exact iff_of_true (soundRefs_delNet h name) trivial
  | renameNet oldName newName => exact iff_of_true (soundRefs_renameNet h oldName newName) trivial
  | updateNet updated =>
    exact iff_of_true (soundRefs_editNet_of_fewer h _ fun _ => List.Subset.refl _) trivial
  | assignChannelToNet name id => exact soundRefs_assignChannelToNet h name id
  | unassignChannelFromNet name id =>
    exact iff_of_true (soundRefs_editNet_of_fewer h _ fun _ => List.filter_subset_self _) trivial
  | addContact callsign name status netMembers channels =>
    exact soundRefs_addContact h callsign name status netMembers channels
  | removeContact callsign => exact iff_of_true (soundRefs_removeContact h callsign) trivial
  | addSelfAddress addr status channels => exact soundRefs_addSelfAddress h addr status channels
  | removeSelfAddress addr => exact iff_of_true (soundRefs_removeSelfAddress h addr) trivial
  | setPrimarySelfAddress addr => exact iff_of_true ((soundRefs_setPrimary c addr).mpr h) trivial

/-- **References never dangle exactly when every operation repairs them.** -/
theorem references_iff (h : c.SoundRefs) (ops : List StoreOp) :
    Machine.AllStates storeStep SoundRefs c ops ↔ Machine.AllSteps storeStep Repairs c ops :=
  Machine.allStates_iff_allSteps (fun _ op h hr => (sound_step_iff h op).mpr hr) (fun _ h => h)
    (fun _ op h hr hs => hr ((sound_step_iff h op).mp hs)) h

/-- A channel, a contact reachable on it, the channel renamed. -/
private def renamed : List StoreOp :=
  [.addChannel { id := "C-1".toList, rxFrequencyHz := 7000000 },
    .addContact "ABC".toList [] "enabled".toList [] "C-1".toList,
    .renameChannel "C-1".toList "N-1".toList]

/-- A controller without stores. -/
private def fresh : Controller := {}

private theorem fresh_sound : fresh.SoundRefs where
  unique := List.nodup_nil
  nets := List.nil_subset _
  contacts := List.nil_subset _
  selves := List.nil_subset _

theorem references_fail :
    fresh.SoundRefs ∧ ¬ Machine.AllStates storeStep SoundRefs fresh renamed := by
  refine ⟨fresh_sound, fun h => ?_⟩
  have hsound := h.last
  have hmem : "C-1".toList ∈ (Machine.run storeStep fresh renamed).contactRefs := by
    decide +kernel
  exact absurd (hsound.contacts hmem) (by decide +kernel)

/-- A channel in a net, deleted. -/
private def deleted : List StoreOp :=
  [.addChannel { id := "C-1".toList, rxFrequencyHz := 7000000 }, .addNet "N".toList,
    .assignChannelToNet "N".toList "C-1".toList, .delChannel 7000000]

theorem references_iff_deleted : Machine.AllStates storeStep SoundRefs fresh deleted := by
  refine (references_iff fresh_sound deleted).mpr ⟨?_, trivial, ?_, ?_, trivial⟩
  · exact List.not_mem_nil
  · intro _
    decide +kernel
  · intro ch hch _
    have hid : ch.id = "C-1".toList := by
      have hall : ∀ ch ∈ (Machine.run storeStep fresh (deleted.take 3)).callingChannels,
          ch.id = "C-1".toList := by decide +kernel
      exact hall ch hch
    rw [hid]
    exact ⟨by decide +kernel, by decide +kernel, fun _ => ⟨by decide +kernel, by decide +kernel⟩⟩

end Controller

end OpenALE
