import OpenALE.Lqa.File

/-!
# The file of the LQA database, saved and loaded

A saved file restores the configuration and the entries. A file that is refused for its magic or its
version is refused before anything is done.
-/

namespace OpenALE

namespace LqaFile

open Binary Binary.Reader

/-! ## Restoring the map -/

theorem put_last {e : Entry} {es : List Entry} (h : ∀ x ∈ es, x.key < e.key) :
    put e es = es ++ [e] := by
  induction es with
  | nil => rfl
  | cons x xs ih =>
    have hx := h x List.mem_cons_self
    rw [put, if_neg hx.asymm, if_neg hx.ne', ih fun y hy => h y (List.mem_cons_of_mem _ hy),
      List.cons_append]

/-- Entries in key order go behind each other. -/
theorem foldl_restored (config : Config) (acc : List Entry) {es : List Entry}
    (hs : es.Pairwise fun a b => a.key < b.key) (hacc : ∀ x ∈ acc, ∀ e ∈ es, x.key < e.key) :
    (es.flatMap restored).foldl act ⟨config, acc⟩ = ⟨config, acc ++ es.map Entry.persisted⟩ := by
  induction es generalizing acc with
  | nil => simp
  | cons e es ih =>
    obtain ⟨hhead, htail⟩ := List.pairwise_cons.mp hs
    have hput : put e.persisted acc = acc ++ [e.persisted] :=
      put_last fun x hx => hacc x hx e List.mem_cons_self
    rw [List.flatMap_cons, List.foldl_append]
    change (es.flatMap restored).foldl act ⟨config, put e.persisted acc⟩ = _
    rw [hput, ih _ htail]
    · rw [List.map_cons, List.append_assoc, List.singleton_append]
    · intro x hx y hy
      obtain hx | hx := List.mem_append.mp hx
      · exact hacc x hx y (List.mem_cons_of_mem _ hy)
      · rw [List.mem_singleton.mp hx]
        exact hhead y hy

/-- **A saved database is restored**, with what the file has of each entry. -/
theorem load_save (db : Contents) (hnames : ∀ e ∈ db.entries, e.remoteStation.length ≤ nameLimit)
    (old : Database) :
    load old (some (save db.toDatabase)) = (true, ⟨db.config, db.entries.map Entry.persisted⟩) := by
  have hrun := runs_database db.fits hnames []
  rw [List.append_nil] at hrun
  have hconfig : act old (.config db.config.bytes) = ⟨db.config, old.entries⟩ := by
    have hdrop : old.config.bytes.drop db.config.bytes.length = [] := rfl
    rw [act, hdrop, List.append_nil, ofBytes_bytes]
  rw [load, hrun, List.foldl_cons, List.foldl_cons, hconfig]
  change (true, (db.entries.flatMap restored).foldl act ⟨db.config, []⟩) = _
  rw [foldl_restored db.config [] db.sorted (fun x hx => by cases hx), List.nil_append]

/-! ## Refused files -/

/-- The file has no magic, or a version that is not read. -/
def Refused (bytes : List UInt8) : Prop :=
  bytes.take 10 ≠ magic ∨ bytes.length < 14 ∨
    UInt32.ofNat (decode ((bytes.drop 10).take 4)) < 2 ∨
      3 < UInt32.ofNat (decode ((bytes.drop 10).take 4))

theorem notes_readVersion : Notes readVersion fun _ => False := by
  refine (notes_take 10).bind fun m => ?_
  split
  · exact notes_fail
  · refine notes_u32.bind fun version => ?_
    split
    · exact notes_fail
    · exact notes_pure

theorem readVersion_of_refused {bytes : List UInt8} (h : Refused bytes) :
    readVersion bytes = ([], none) := by
  refine Prod.ext (List.eq_nil_iff_forall_not_mem.mpr (notes_readVersion bytes)) ?_
  cases hread : (readVersion bytes).2 with
  | none => rfl
  | some p =>
    exfalso
    unfold readVersion at hread
    rw [snd_bind, Option.bind_eq_some_iff] at hread
    obtain ⟨⟨m, s⟩, hm, hread⟩ := hread
    obtain ⟨hlen, rfl, rfl⟩ := take_eq_some hm
    dsimp only at hread
    split at hread
    · cases hread
    · rename_i hmagic
      rw [snd_bind, Option.bind_eq_some_iff] at hread
      obtain ⟨⟨version, rest⟩, hv, hread⟩ := hread
      obtain ⟨hlen', rfl⟩ := u32_eq_some hv
      dsimp only at hread
      split at hread
      · cases hread
      · rename_i hversion
        rw [List.length_drop] at hlen'
        obtain h | h | h := h
        · exact hmagic h
        · omega
        · exact hversion h

theorem load_of_refused (db : Database) {bytes : List UInt8} (h : Refused bytes) :
    load db (some bytes) = (false, db) := by
  have hversion := readVersion_of_refused h
  have hnone : (readVersion bytes).2 = none := by rw [hversion]
  have hsnd : (readDatabase bytes).2 = none := by
    rw [readDatabase, snd_bind, hnone, Option.bind_none]
  have hfst : (readDatabase bytes).1 = [] := by
    rw [readDatabase, fst_bind_none hnone, hversion]
  rw [load, hsnd, hfst]
  rfl

/-! ## Memory -/

/-- The memory an action asks for is bounded. -/
def Modest : Action → Prop
  | .resize n => n ≤ nameLimit
  | _ => True

theorem modest_readFields (version frequencyHz : UInt32) (name : List UInt8) :
    Notes (readFields version frequencyHz name) Modest := by
  have hflag : Notes readFlag Modest := notes_u8.bind fun _ => notes_pure
  have hcontext : Notes (readContext version) Modest := by
    unfold readContext
    split
    · exact notes_u32.bind fun _ => notes_u32.bind fun _ => notes_pure
    · exact notes_pure
  exact notes_u32.bind fun _ => notes_u32.bind fun _ => notes_u32.bind fun _ =>
    notes_u32.bind fun _ => notes_u32.bind fun _ => notes_u32.bind fun _ => notes_u32.bind fun _ =>
      notes_u32.bind fun _ => notes_u32.bind fun _ => notes_u32.bind fun _ => notes_u32.bind fun _ =>
        notes_u8.bind fun _ => notes_u8.bind fun _ => notes_u8.bind fun _ => hflag.bind fun _ =>
          hcontext.bind fun _ => notes_pure

theorem modest_readEntry (version : UInt32) : Notes (readEntry version) Modest := by
  refine notes_u32.bind fun f => notes_u32.bind fun len => ?_
  split
  · exact notes_fail
  · rename_i hlen
    have hresize : Modest (.resize len.toNat) := not_lt.mp hlen
    exact (notes_note hresize).bind fun _ => (notes_take _).bind fun name =>
      (modest_readFields version f name).bind fun e => notes_note (r := Action.entry e) trivial

/-- No file makes the reader ask for more than a short name at once. -/
theorem modest_readDatabase : Notes readDatabase Modest := by
  have hversion : Notes readVersion Modest := fun s r hr => absurd hr (notes_readVersion s r)
  refine hversion.bind fun version => Notes.bind ?_ fun _ => ?_
  · refine (notes_takeInto 40 fun _ => trivial).bind fun bs => ?_
    split
    · exact notes_note (r := Action.upgradeAge) trivial
    · exact notes_pure
  · refine notes_u32.bind fun count => ?_
    split
    · exact notes_fail
    · exact (notes_note (r := Action.clear) trivial).bind fun _ =>
        (notes_many (modest_readEntry version) _).bind fun _ => notes_pure

/-- The default configuration. -/
def defaults : Config :=
  ⟨0x3F000000, 0x3E99999A, 0x3E4CCCCD, 90000000, 100, 0x3F666666, 0x41A00000, 0x40C00000, 0x3A83126F,
    0x3DCCCCCD⟩

/-- One entry, with a handshake that failed. -/
def failedOnce : Contents where
  config := defaults
  entries := [{ frequencyHz := 7102000, remoteStation := [65, 66, 67], lastFailedHandshakeMs := 5 }]
  sorted := List.pairwise_singleton _ _
  fits := by decide

end LqaFile

end OpenALE
