import OpenALE.Library.Binary

/-!
# The file of the LQA database

Model of `LQADatabase::save_to_file` and `load_from_file` (`src/LQA/lqa_database.cpp`).

* Nothing computes with the floats here: they are their bit patterns, and so are the signed numbers.
* The map is the list of its entries in key order.
* `load_from_file` acts on the database while it reads: a note of the reader is such an action, and
  a resize by a count of the file is one too.

Results:
* `runs_database`: a file is read back, with the actions that restore what it was made of.
-/

namespace OpenALE

namespace LqaFile

open Binary Binary.Reader

/-- `LQAConfig`, in the order of its layout. -/
structure Config where
  snrWeight : UInt32
  successWeight : UInt32
  recencyWeight : UInt32
  maxAgeMs : UInt32
  historyDepth : UInt32
  timeDecayFactor : UInt32
  goodSnrDb : UInt32
  poorSnrDb : UInt32
  goodBer : UInt32
  poorBer : UInt32
  deriving DecidableEq

/-- `LQAEntry`. -/
structure Entry where
  frequencyHz : UInt32 := 0
  remoteStation : List UInt8 := []
  snrDb : UInt32 := 0
  ber : UInt32 := 0
  sinadDb : UInt32 := 0
  fecErrors : UInt32 := 0
  totalWords : UInt32 := 0
  multipathScore : UInt32 := 0
  noiseFloorDbm : UInt32 := 0xC2F00000
  lastSoundingMs : UInt32 := 0
  lastContactMs : UInt32 := 0
  score : UInt32 := 0
  sampleCount : UInt32 := 0
  bilateralSinad : UInt8 := 31
  bilateralBer : UInt8 := 31
  bilateralMp : UInt8 := 7
  bilateralHandshakeTried : Bool := false
  lastFailedHandshakeMs : UInt32 := 0
  soundingTwas : Bool := false
  solarElevation : UInt32 := 0
  sfi : UInt32 := 0
  deriving DecidableEq

/-- `LQADatabase`. -/
structure Database where
  config : Config
  entries : List Entry
  deriving DecidableEq

/-- `kCapacity`. -/
abbrev capacity : Nat := 10000

/-- The longest name that is read. -/
abbrev nameLimit : Nat := 256

/-- `EntryKey`, in the order of the map. -/
def Entry.key (e : Entry) : ℕ ×ₗ List ℕ :=
  toLex (e.frequencyHz.toNat, e.remoteStation.map UInt8.toNat)

/-- A database in use: a map within its capacity. -/
structure Contents extends Database where
  sorted : entries.Pairwise fun a b => a.key < b.key
  fits : entries.length ≤ capacity

/-- `entries_[key] = entry`. -/
def put (e : Entry) : List Entry → List Entry
  | [] => [e]
  | x :: xs =>
    if e.key < x.key then e :: x :: xs
    else if e.key = x.key then e :: xs
    else x :: put e xs

/-! ## Writing -/

/-- The bytes of the configuration. -/
def Config.bytes (c : Config) : List UInt8 :=
  encode32 c.snrWeight ++ encode32 c.successWeight ++ encode32 c.recencyWeight ++
    encode32 c.maxAgeMs ++ encode32 c.historyDepth ++ encode32 c.timeDecayFactor ++
      encode32 c.goodSnrDb ++ encode32 c.poorSnrDb ++ encode32 c.goodBer ++ encode32 c.poorBer

/-- The `i`-th number of these bytes. -/
def field (bs : List UInt8) (i : Nat) : UInt32 := UInt32.ofNat (decode ((bs.drop (4 * i)).take 4))

/-- The configuration of these bytes. -/
def Config.ofBytes (bs : List UInt8) : Config where
  snrWeight := field bs 0
  successWeight := field bs 1
  recencyWeight := field bs 2
  maxAgeMs := field bs 3
  historyDepth := field bs 4
  timeDecayFactor := field bs 5
  goodSnrDb := field bs 6
  poorSnrDb := field bs 7
  goodBer := field bs 8
  poorBer := field bs 9

/-- A flag. -/
def flag (b : Bool) : UInt8 := if b then 1 else 0

/-- The fields of an entry behind its key. -/
def writeFields (e : Entry) : List UInt8 :=
  encode32 e.snrDb ++ (encode32 e.ber ++ (encode32 e.sinadDb ++ (encode32 e.fecErrors ++
    (encode32 e.totalWords ++ (encode32 e.multipathScore ++ (encode32 e.noiseFloorDbm ++
      (encode32 e.lastSoundingMs ++ (encode32 e.lastContactMs ++ (encode32 e.score ++
        (encode32 e.sampleCount ++ ([e.bilateralSinad] ++ ([e.bilateralBer] ++ ([e.bilateralMp] ++
          ([flag e.bilateralHandshakeTried] ++
            (encode32 e.solarElevation ++ encode32 e.sfi)))))))))))))))

/-- An entry. -/
def writeEntry (e : Entry) : List UInt8 :=
  encode32 e.frequencyHz ++ (encode32 (UInt32.ofNat e.remoteStation.length) ++
    (e.remoteStation.take (UInt32.ofNat e.remoteStation.length).toNat ++ writeFields e))

/-- `PCALE_LQA` with its null. -/
def magic : List UInt8 := [80, 67, 65, 76, 69, 95, 76, 81, 65, 0]

/-- `save_to_file`. -/
def save (db : Database) : List UInt8 :=
  magic ++ (encode32 3 ++ (db.config.bytes ++ (encode32 (UInt32.ofNat db.entries.length) ++
    db.entries.flatMap writeEntry)))

/-! ## Reading -/

/-- What `load_from_file` does to the database while it reads, and the memory it asks for. -/
inductive Action where
  | config (bs : List UInt8)
  | upgradeAge
  | clear
  | resize (n : Nat)
  | entry (e : Entry)

/-- An action. -/
def act (db : Database) : Action → Database
  | .config bs => { db with config := .ofBytes (bs ++ db.config.bytes.drop bs.length) }
  | .upgradeAge => { db with config := { db.config with maxAgeMs := 90000000 } }
  | .clear => { db with entries := [] }
  | .resize _ => db
  | .entry e => { db with entries := put e db.entries }

/-- A flag. -/
def readFlag : Reader Action Bool := do
  let b ← u8
  pure (b != 0)

/-- The solar elevation and the flux of version 3. -/
def readContext (version : UInt32) : Reader Action (UInt32 × UInt32) :=
  if version ≥ 3 then do
    let solarElevation ← u32
    let sfi ← u32
    pure (solarElevation, sfi)
  else pure (0, 0)

/-- The fields of an entry behind its key. -/
def readFields (version frequencyHz : UInt32) (remoteStation : List UInt8) : Reader Action Entry := do
  let snrDb ← u32
  let ber ← u32
  let sinadDb ← u32
  let fecErrors ← u32
  let totalWords ← u32
  let multipathScore ← u32
  let noiseFloorDbm ← u32
  let lastSoundingMs ← u32
  let lastContactMs ← u32
  let score ← u32
  let sampleCount ← u32
  let bilateralSinad ← u8
  let bilateralBer ← u8
  let bilateralMp ← u8
  let tried ← readFlag
  let ctx ← readContext version
  pure {
    frequencyHz := frequencyHz, remoteStation := remoteStation, snrDb := snrDb, ber := ber
    sinadDb := sinadDb, fecErrors := fecErrors, totalWords := totalWords
    multipathScore := multipathScore, noiseFloorDbm := noiseFloorDbm
    lastSoundingMs := lastSoundingMs, lastContactMs := lastContactMs, score := score
    sampleCount := sampleCount, bilateralSinad := bilateralSinad, bilateralBer := bilateralBer
    bilateralMp := bilateralMp, bilateralHandshakeTried := tried
    solarElevation := ctx.1, sfi := ctx.2 }

/-- The body of the loop of `load_from_file`. -/
def readEntry (version : UInt32) : Reader Action Unit := do
  let frequencyHz ← u32
  let len ← u32
  if len.toNat > nameLimit then fail
  else
    note (.resize len.toNat)
    let remoteStation ← take len.toNat
    let e ← readFields version frequencyHz remoteStation
    note (.entry e)

/-- The configuration, with the age of old files. -/
def readConfig (version : UInt32) : Reader Action Unit := do
  let bs ← takeInto 40 .config
  if version < 3 ∧ (Config.ofBytes bs).maxAgeMs < 90000000 then note .upgradeAge else pure ()

/-- The entries behind their count. -/
def readEntries (version : UInt32) : Reader Action Unit := do
  let count ← u32
  if count.toNat > capacity then fail
  else
    note .clear
    let _ ← many count.toNat (readEntry version)
    pure ()

/-- The version behind the magic. -/
def readVersion : Reader Action UInt32 := do
  let m ← take 10
  if m ≠ magic then fail
  else
    let version ← u32
    if version < 2 ∨ 3 < version then fail else pure version

/-- The file. -/
def readDatabase : Reader Action Unit := do
  let version ← readVersion
  readConfig version
  readEntries version

/-- `load_from_file`; `none` stands for a file that cannot be opened. -/
def load (db : Database) : Option (List UInt8) → Bool × Database
  | none => (false, db)
  | some bytes => ((readDatabase bytes).2.isSome, (readDatabase bytes).1.foldl act db)

/-! ## Reading what was written -/

/-- What the file has of an entry: the failed handshake is volatile, and the kind of the last sounding
is not written. -/
def Entry.persisted (e : Entry) : Entry :=
  { e with lastFailedHandshakeMs := 0, soundingTwas := false }

@[simp] theorem Entry.key_persisted (e : Entry) : e.persisted.key = e.key := rfl

theorem runs_flag (b : Bool) : Runs readFlag [flag b] [] b := by
  have hbyte : Runs (u8 : Reader Action _) [flag b] [] (flag b) := runs_u8 (flag b)
  have h := hbyte.map (g := fun v => v != 0)
  cases b <;> exact h

theorem runs_context (a b : UInt32) :
    Runs (readContext 3) (encode32 a ++ encode32 b) [] (a, b) :=
  (runs_u32 a).bind (runs_u32 b).map

theorem runs_fields (e : Entry) :
    Runs (readFields 3 e.frequencyHz e.remoteStation) (writeFields e) [] e.persisted :=
  (runs_u32 _).bind ((runs_u32 _).bind ((runs_u32 _).bind ((runs_u32 _).bind ((runs_u32 _).bind
    ((runs_u32 _).bind ((runs_u32 _).bind ((runs_u32 _).bind ((runs_u32 _).bind ((runs_u32 _).bind
      ((runs_u32 _).bind ((runs_u8 _).bind ((runs_u8 _).bind ((runs_u8 _).bind ((runs_flag _).bind
        (runs_context _ _).map))))))))))))))

/-- What is noted of an entry that is read back. -/
def restored (e : Entry) : List Action := [.resize e.remoteStation.length, .entry e.persisted]

theorem runs_entry {e : Entry} (h : e.remoteStation.length ≤ nameLimit) :
    Runs (readEntry 3) (writeEntry e) (restored e) () := by
  have hlen : (UInt32.ofNat e.remoteStation.length).toNat = e.remoteStation.length :=
    UInt32.toNat_ofNat_of_lt' (h.trans_lt (by decide))
  refine (runs_u32 _).bind ((runs_u32 _).bind ?_)
  rw [hlen, if_neg (not_lt.mpr h), List.take_length]
  refine .after_note _ ((runs_take _).bind ?_)
  have hfields := (runs_fields e).bind (f := fun x => note (Action.entry x))
    (runs_note (Action.entry e.persisted))
  rwa [List.append_nil] at hfields

theorem runs_version : Runs readVersion (magic ++ encode32 3) [] 3 := by
  refine (runs_take magic).bind ?_
  rw [if_neg (not_not.mpr rfl)]
  have hword : Runs (u32 : Reader Action _) (encode32 3) [] 3 := runs_u32 3
  exact hword.map (g := id)

theorem length_encode32 (n : UInt32) : (encode32 n).length = 4 := rfl

theorem length_bytes (c : Config) : c.bytes.length = 40 := rfl

theorem ofBytes_bytes (c : Config) : Config.ofBytes c.bytes = c := by
  obtain ⟨a₀, a₁, a₂, a₃, a₄, a₅, a₆, a₇, a₈, a₉⟩ := c
  unfold Config.ofBytes
  congr 1 <;> exact decode_encode32 _

theorem runs_config (c : Config) : Runs (readConfig 3) c.bytes [.config c.bytes] () := by
  have h := (runs_takeInto Action.config c.bytes).bind
    (f := fun bs => if (3 : UInt32) < 3 ∧ (Config.ofBytes bs).maxAgeMs < 90000000 then
      note Action.upgradeAge else pure ()) (runs_pure ())
  rwa [List.append_nil, List.append_nil] at h

theorem runs_entries {es : List Entry} (hfits : es.length ≤ capacity)
    (hnames : ∀ e ∈ es, e.remoteStation.length ≤ nameLimit) :
    Runs (readEntries 3) (encode32 (UInt32.ofNat es.length) ++ es.flatMap writeEntry)
      (.clear :: es.flatMap restored) () := by
  have hlen : (UInt32.ofNat es.length).toNat = es.length :=
    UInt32.toNat_ofNat_of_lt' (hfits.trans_lt (by decide))
  refine (runs_u32 _).bind ?_
  rw [hlen, if_neg (not_lt.mpr hfits)]
  have hentries : ∀ e ∈ es, Runs (readEntry 3) (writeEntry e) (restored e) ((fun _ => ()) e) :=
    fun e he => runs_entry (hnames e he)
  exact .after_note _ (runs_many hentries).map

/-- **A file is read back.** -/
theorem runs_database {db : Database} (hfits : db.entries.length ≤ capacity)
    (hnames : ∀ e ∈ db.entries, e.remoteStation.length ≤ nameLimit) :
    Runs readDatabase (save db)
      (.config db.config.bytes :: .clear :: db.entries.flatMap restored) () := by
  rw [save, ← List.append_assoc]
  exact runs_version.bind ((runs_config _).bind (runs_entries hfits hnames))

end LqaFile

end OpenALE
