import OpenALE.Library.Decimal
import OpenALE.App.Controller

/-!
# The station's stores: channels, nets, contacts, self addresses

Model of the public operations of `ALEController` on its stores (`src/App/ale_controller.cpp`, with
`src/Stores/ale_data_store.cpp` and `src/Stores/address_book.cpp`). An operation returns the
controller; the source's `bool` and the saving of the station file are left out.

The contacts are `ContactStore::all`: the stations of the address book with their side-table entry.

Results:
* `nextFreeChannelId_not_mem`: the id found is free.
-/

namespace OpenALE

/-! ## Text -/

/-- `std::isspace` of the C locale. -/
def isSpace (c : Char) : Bool := c.toNat == 32 || (9 ≤ c.toNat && c.toNat ≤ 13)

/-- The text without the spaces around it. -/
def trim (s : Str) : Str := (s.dropWhile isSpace).rdropWhile isSpace

/-- `split_csv`. -/
def splitCsv (s : Str) : List Str := ((s.splitOn ',').map trim).filter (· ≠ [])

/-- The `n`-th name `next_free_channel_id` tries. -/
def channelName (n : Nat) : Str := 'C' :: '-' :: Decimal.digits n

/-- `next_free_channel_id`: of one name more than there are channels, one is free. -/
def nextFreeChannelId (channels : List Channel) : Str :=
  (((List.range (channels.length + 1)).map fun n => channelName (n + 1)).find?
    fun id => channels.all (·.id != id)).getD []

theorem nextFreeChannelId_not_mem (channels : List Channel) :
    nextFreeChannelId channels ∉ channels.map (·.id) := by
  have hfree : ∀ id : Str, channels.all (·.id != id) = true → id ∉ channels.map (·.id) := by
    intro id h hmem
    obtain ⟨ch, hch, rfl⟩ := List.mem_map.mp hmem
    simpa using List.all_eq_true.mp h ch hch
  unfold nextFreeChannelId
  cases hf : ((List.range (channels.length + 1)).map fun n => channelName (n + 1)).find?
      fun id => channels.all (·.id != id) with
  | some id => exact hfree id (@List.find?_some _ (fun id => channels.all (·.id != id)) _ _ hf)
  | none =>
    -- all the names tried are taken, and there are more of them than channels
    exfalso
    have htaken : (List.range (channels.length + 1)).map (fun n => channelName (n + 1)) ⊆
        channels.map (·.id) := by
      intro id hid
      have hnot := List.find?_eq_none.mp hf id hid
      obtain ⟨ch, hch, hne⟩ : ∃ ch ∈ channels, ch.id = id := by simpa using hnot
      exact List.mem_map.mpr ⟨ch, hch, hne⟩
    have hnodup : ((List.range (channels.length + 1)).map fun n => channelName (n + 1)).Nodup := by
      refine List.Nodup.map (fun m n h => ?_) List.nodup_range
      have hdigits : Decimal.digits (m + 1) = Decimal.digits (n + 1) := by
        simpa [channelName] using h
      exact Nat.succ.inj (Decimal.digits_injective hdigits)
    have hlen := (List.subperm_of_subset hnodup htaken).length_le
    simp only [List.length_map, List.length_range] at hlen
    omega

/-- `NetStore::assign_channel` on its net. -/
def Net.assignChannel (n : Net) (id : Str) : Net :=
  if n.channelIds.contains id then n else { n with channelIds := n.channelIds ++ [id] }

/-- `NetStore::unassign_channel` on its net. -/
def Net.unassignChannel (n : Net) (id : Str) : Net :=
  { n with channelIds := n.channelIds.filter (· != id) }

/-- The policy fields of `NetStore::update_net`. -/
def Net.updatePolicy (n updated : Net) : Net :=
  { n with
    dwellMs := updated.dwellMs
    scanningEnabled := updated.scanningEnabled
    soundingEnabled := updated.soundingEnabled
    soundingIntervalSec := updated.soundingIntervalSec
    callingLengthC := updated.callingLengthC }

namespace Controller

/-! ## Channels -/

/-- `set_calling_channels`. -/
def setCallingChannels (c : Controller) (channels : List Channel) : Controller :=
  pushChannels { c with callingChannels := channels } channels

/-- `CMD:CLEAR_CHANNELS`. -/
def clearChannels (c : Controller) : Controller := c.setCallingChannels []

/-! ## Nets -/

/-- `add_net`. -/
def addNet (c : Controller) (name : Str) : Controller :=
  if (c.findNet name).isSome then c else { c with nets := c.nets ++ [{ name := name }] }

/-- `del_net`. -/
def delNet (c : Controller) (name : Str) : Controller :=
  { c with nets := c.nets.filter (·.name != name) }

/-- The net found under a name, changed by `f`. -/
def editNet (c : Controller) (name : Str) (f : Net → Net) : Controller :=
  match c.nets.findIdx? (·.name == name) with
  | none => c
  | some i => { c with nets := c.nets.modify i f }

/-- `assign_channel_to_net`. -/
def assignChannelToNet (c : Controller) (name id : Str) : Controller :=
  c.editNet name (·.assignChannel id)

/-- `unassign_channel_from_net`. -/
def unassignChannelFromNet (c : Controller) (name id : Str) : Controller :=
  c.editNet name (·.unassignChannel id)

/-- `update_net`. -/
def updateNet (c : Controller) (updated : Net) : Controller :=
  c.editNet updated.name (·.updatePolicy updated)

/-! ## Contacts -/

/-- `ContactStore::add_or_update`. -/
def addOrUpdateContact (c : Controller) (contact : Contact) : Controller :=
  if contact.callsign = [] then c
  else match c.contacts.findIdx? (·.callsign == contact.callsign) with
    | some i => { c with contacts := c.contacts.set i contact }
    | none => { c with contacts := c.contacts ++ [contact] }

/-- `add_contact`. -/
def addContact (c : Controller) (callsign name status netMembers validChannels : Str) :
    Controller :=
  let all := validChannels.isEmpty || validChannels == "ALL".toList
  c.addOrUpdateContact {
    callsign := callsign
    name := name
    enabled := status != "disabled".toList
    netMembers := splitCsv netMembers
    validChannels := if all then [] else splitCsv validChannels
    allChannels := all }

/-- `remove_contact`. -/
def removeContact (c : Controller) (callsign : Str) : Controller :=
  { c with contacts := c.contacts.filter (·.callsign != callsign) }

/-- `rename_net`. -/
def renameNet (c : Controller) (oldName newName : Str) : Controller :=
  if oldName = newName ∨ newName = [] ∨ (c.findNet newName).isSome ∨ (c.findNet oldName).isNone then c
  else
    let c := c.editNet oldName fun n => { n with name := newName }
    let c := { c with
      activeScanNet := if c.activeScanNet = oldName then newName else c.activeScanNet
      autoSoundingNet := if c.autoSoundingNet = oldName then newName else c.autoSoundingNet }
    -- over a snapshot of the contacts
    (c.contacts.filter (·.netMembers.contains oldName)).foldl (fun c ct =>
      c.addOrUpdateContact { ct with
        netMembers := ct.netMembers.map fun n => if n = oldName then newName else n }) c

/-! ## Self addresses -/

/-- `SelfAddressStore::kCapacity`. -/
def selfAddressCapacity : Nat := 20

/-- `set_primary_self_address`. -/
def setPrimarySelfAddress (c : Controller) (addr : Str) : Controller :=
  if c.selfAddresses.all (·.address != addr) then c
  else { c with primarySelfAddress := addr, sm := c.sm.setSelfAddress addr }

/-- `SelfAddressStore::add`, `none` when the store is full. -/
def storeSelfAddress (c : Controller) (entry : SelfAddressEntry) : Option Controller :=
  match c.selfAddresses.findIdx? (·.address == entry.address) with
  | some i => some { c with selfAddresses := c.selfAddresses.set i entry }
  | none =>
    if selfAddressCapacity ≤ c.selfAddresses.length then none
    else some { c with
      selfAddresses := c.selfAddresses ++ [entry]
      primarySelfAddress :=
        if c.primarySelfAddress = [] then entry.address else c.primarySelfAddress }

/-- `add_self_address`. -/
def addSelfAddress (c : Controller) (addr status validChannels : Str) : Controller :=
  if addr = [] then c
  else
    let all := validChannels.isEmpty || validChannels == "ALL".toList
    match c.storeSelfAddress {
        address := addr
        enabled := status != "disabled".toList
        validChannels := if all then [] else splitCsv validChannels
        allChannels := all } with
    | none => c
    | some c => if c.primarySelfAddress = addr then c.setPrimarySelfAddress addr else c

/-- `remove_self_address`. -/
def removeSelfAddress (c : Controller) (addr : Str) : Controller :=
  let entries := c.selfAddresses.filter (·.address != addr)
  if entries.length = c.selfAddresses.length then c
  else { c with
    selfAddresses := entries
    primarySelfAddress := if c.primarySelfAddress = addr then
        (entries.head?.map (·.address)).getD []
      else c.primarySelfAddress }

end Controller

end OpenALE
