import SteamAgent.Execution.Windows.Native

/-!
# Windows manifest adoption

`WindowsFilesystem.adopt_manifest` and `reconcile_adoption`, with the journal
record they leave for each other.

There are three groups.

* `AdoptionRecord`, its JSON and `_decode_record`, which reads back what was
  written or refuses it.
* `_patch_manifest`.
* The two methods and `clear_adoption_journal`.
-/

namespace SteamAgent.Execution.Windows

open Effects
open Sha256 (Bytes sha256hex)
open Text

/-! ## The journal record -/

def journalSchema : String :=
  "windows-adoption/1"

/-- `MAX_MANIFEST_BYTES`. -/
def maxManifestBytes : Nat :=
  4 * 1024 * 1024

/-- `_MAX_JOURNAL_BYTES`. -/
def maxJournalBytes : Nat :=
  32 * 1024

/-- `_AdoptionRecord`.  The schema is `journalSchema` in every record. -/
structure AdoptionRecord where
  appid : Nat
  operationId : Nat
  checksum : String
  steamappsIdentity : WinIdentity
  journalIdentity : WinIdentity
  stageIdentity : WinIdentity
  originalIdentity : Option WinIdentity
  backupIdentity : Option WinIdentity
  backupChecksum : Option String
  restoreIdentity : Option WinIdentity
deriving DecidableEq, Repr

/-- `asdict` of an identity. -/
def WinIdentity.toJson (id : WinIdentity) : Json :=
  .obj [("file_id", .str id.fileId), ("volume_serial", .int id.volumeSerial)]

/-- `None` or a value. -/
def optional {α : Type} (toJson : α → Json) : Option α → Json
  | none => .null
  | some a => toJson a

/-- `asdict(record)` with its keys sorted. -/
def AdoptionRecord.toJson (record : AdoptionRecord) : Json :=
  .obj [
    ("appid", .int record.appid),
    ("backup_checksum", optional .str record.backupChecksum),
    ("backup_identity", optional WinIdentity.toJson record.backupIdentity),
    ("checksum", .str record.checksum),
    ("journal_identity", record.journalIdentity.toJson),
    ("operation_id", .int record.operationId),
    ("original_identity", optional WinIdentity.toJson record.originalIdentity),
    ("restore_identity", optional WinIdentity.toJson record.restoreIdentity),
    ("schema", .str journalSchema),
    ("stage_identity", record.stageIdentity.toJson),
    ("steamapps_identity", record.steamappsIdentity.toJson)]

/-- `_AdoptionRecord.__dataclass_fields__`. -/
def recordFields : List String :=
  ["schema", "appid", "operation_id", "checksum", "steamapps_identity", "journal_identity",
    "stage_identity", "original_identity", "backup_identity", "backup_checksum",
    "restore_identity"]

/-- `[0-9a-f]` of a fixed length, to the end of the text. -/
def isHex (length : Nat) (text : String) : Bool :=
  text.length == length && text.toList.all fun c => "0123456789abcdef".toList.contains c

/-- The integer, if it lies in the range. -/
def intWithin (lo : Int) (hi : Option Int) (value : Json) : Option Nat :=
  value.toInt.bind fun n =>
    if lo ≤ n ∧ hi.all (fun m => decide (n ≤ m)) then some n.toNat else none

/-- `_decode_identity`. -/
def decodeIdentity : Json → Option WinIdentity
  | .obj fields => do
    if !Json.hasKeys fields ["volume_serial", "file_id"] then none
    let serial ← (Json.get fields "volume_serial").bind (intWithin 0 (some 18446744073709551615))
    let fileId ← ((Json.get fields "file_id").bind Json.toStr).filter (isHex 32)
    return ⟨serial, fileId⟩
  | _ => none

/-- A value that may be `None`. -/
def decodeOptional {α : Type} (decode : Json → Option α) : Json → Option (Option α)
  | .null => some none
  | value => (decode value).map some

/-- `_CHECKSUM`. -/
def decodeChecksum (value : Json) : Option String :=
  value.toStr.filter (isHex 64)

/-- `_decode_record`, after the check of the keys. -/
def decodeFields (raw : List (String × Json)) : Option AdoptionRecord := do
  let appid ← (Json.get raw "appid").bind (intWithin 1 (some 0xFFFFFFFF))
  let operationId ← (Json.get raw "operation_id").bind (intWithin 1 none)
  let checksum ← (Json.get raw "checksum").bind decodeChecksum
  let steamapps ← (Json.get raw "steamapps_identity").bind decodeIdentity
  let journal ← (Json.get raw "journal_identity").bind decodeIdentity
  let stage ← (Json.get raw "stage_identity").bind decodeIdentity
  let original ← (Json.get raw "original_identity").bind (decodeOptional decodeIdentity)
  let backup ← (Json.get raw "backup_identity").bind (decodeOptional decodeIdentity)
  let restore ← (Json.get raw "restore_identity").bind (decodeOptional decodeIdentity)
  let backupChecksum ← (Json.get raw "backup_checksum").bind (decodeOptional decodeChecksum)
  if original.isNone = backup.isNone ∧ backup.isNone = backupChecksum.isNone then
    return ⟨appid, operationId, checksum, steamapps, journal, stage, original, backup,
      backupChecksum, restore⟩
  else
    none

/-- `_decode_record`, on what `json.loads` makes of the journal. -/
def decodeRecord : Option Json → Except Exn AdoptionRecord
  | none => .error (windowsError "WINDOWS_ADOPTION_JOURNAL_INVALID")
  | some (.obj raw) =>
    if ((Json.get raw "schema").bind Json.toStr) ≠ some journalSchema then
      .error (windowsError "WINDOWS_ADOPTION_JOURNAL_UNSUPPORTED")
    else if !Json.hasKeys raw recordFields then
      .error (windowsError "WINDOWS_ADOPTION_JOURNAL_INVALID")
    else
      match decodeFields raw with
      | some record => .ok record
      | none => .error (windowsError "WINDOWS_ADOPTION_JOURNAL_INVALID")
  | some _ => .error (windowsError "WINDOWS_ADOPTION_JOURNAL_UNSUPPORTED")

theorem intWithin_int {lo : Int} {hi : Option Int} {n m : Nat}
    (h : intWithin lo hi (.int n) = some m) : m = n := by
  simp only [intWithin, Json.toInt_int, Option.bind_some] at h
  split at h
  · simpa using h.symm
  · simp at h

theorem decodeIdentity_obj {fields : List (String × Json)} {id : WinIdentity}
    (h : decodeIdentity (.obj fields) = some id) :
    (Json.get fields "volume_serial").bind (intWithin 0 (some 18446744073709551615))
        = some id.volumeSerial ∧
      (Json.get fields "file_id").bind Json.toStr = some id.fileId := by
  unfold decodeIdentity at h
  dsimp only at h
  split at h
  · nomatch h
  · obtain ⟨serial, hs, h⟩ := Option.bind_eq_some_iff.mp h
    obtain ⟨fileId, hf, h⟩ := Option.bind_eq_some_iff.mp h
    obtain rfl := Option.some.inj h
    exact ⟨hs, (Option.filter_eq_some_iff.mp hf).1⟩

theorem decodeIdentity_toJson {id id' : WinIdentity} (h : decodeIdentity id.toJson = some id') :
    id' = id := by
  obtain ⟨hserial, hfile⟩ := decodeIdentity_obj h
  have hs : id'.volumeSerial = id.volumeSerial := intWithin_int hserial
  have hf : id.fileId = id'.fileId := Option.some.inj hfile
  obtain ⟨serial, fileId⟩ := id'
  obtain rfl := hs
  obtain rfl := hf
  rfl

theorem decodeOptional_optional {α : Type} {toJson : α → Json} {decode : Json → Option α}
    (hj : ∀ a, toJson a ≠ .null) (hd : ∀ a a', decode (toJson a) = some a' → a' = a)
    {v v' : Option α} (h : decodeOptional decode (optional toJson v) = some v') : v' = v := by
  cases v with
  | none => simpa [optional, decodeOptional] using h.symm
  | some a =>
    have ha : decodeOptional decode (toJson a) = (decode (toJson a)).map some := by
      unfold decodeOptional
      split
      · exact absurd ‹_› (hj a)
      · rfl
    rw [optional, ha] at h
    obtain ⟨a', ha', rfl⟩ := Option.map_eq_some_iff.mp h
    rw [hd a a' ha']

theorem decodeChecksum_str {s s' : String} (h : decodeChecksum (.str s) = some s') : s' = s := by
  have := (Option.filter_eq_some_iff.mp h).1
  simpa using this.symm

theorem decodeFields_of_decodeRecord {raw : List (String × Json)} {r : AdoptionRecord}
    (h : decodeRecord (some (.obj raw)) = .ok r) : decodeFields raw = some r := by
  unfold decodeRecord at h
  dsimp only at h
  split at h
  · simp at h
  · split at h
    · simp at h
    · split at h
      · rw [← Except.ok.inj h]
        assumption
      · simp at h

/-- A record that is written and read back is the same, or is refused. -/
theorem decodeRecord_toJson {r r' : AdoptionRecord} (h : decodeRecord (some r.toJson) = .ok r') :
    r' = r := by
  have hid : ∀ id id' : WinIdentity, decodeIdentity id.toJson = some id' → id' = id :=
    fun _ _ => decodeIdentity_toJson
  have hopt : ∀ v v' : Option WinIdentity,
      decodeOptional decodeIdentity (optional WinIdentity.toJson v) = some v' → v' = v :=
    fun _ _ => decodeOptional_optional (fun _ => by simp [WinIdentity.toJson]) hid
  have hsum : ∀ v v' : Option String,
      decodeOptional decodeChecksum (optional .str v) = some v' → v' = v :=
    fun _ _ => decodeOptional_optional (fun _ => by simp) fun _ _ => decodeChecksum_str
  have hrecord := decodeFields_of_decodeRecord h
  unfold decodeFields at hrecord
  obtain ⟨appid, h1, hrecord⟩ := Option.bind_eq_some_iff.mp hrecord
  obtain ⟨operationId, h2, hrecord⟩ := Option.bind_eq_some_iff.mp hrecord
  obtain ⟨checksum, h3, hrecord⟩ := Option.bind_eq_some_iff.mp hrecord
  obtain ⟨steamapps, h4, hrecord⟩ := Option.bind_eq_some_iff.mp hrecord
  obtain ⟨journal, h5, hrecord⟩ := Option.bind_eq_some_iff.mp hrecord
  obtain ⟨stage, h6, hrecord⟩ := Option.bind_eq_some_iff.mp hrecord
  obtain ⟨original, h7, hrecord⟩ := Option.bind_eq_some_iff.mp hrecord
  obtain ⟨backup, h8, hrecord⟩ := Option.bind_eq_some_iff.mp hrecord
  obtain ⟨restore, h9, hrecord⟩ := Option.bind_eq_some_iff.mp hrecord
  obtain ⟨backupChecksum, h10, hrecord⟩ := Option.bind_eq_some_iff.mp hrecord
  split at hrecord
  · obtain rfl := Option.some.inj hrecord
    obtain rfl := intWithin_int h1
    obtain rfl := intWithin_int h2
    obtain rfl := decodeChecksum_str h3
    obtain rfl := hid _ _ h4
    obtain rfl := hid _ _ h5
    obtain rfl := hid _ _ h6
    obtain rfl := hopt _ _ h7
    obtain rfl := hopt _ _ h8
    obtain rfl := hopt _ _ h9
    obtain rfl := hsum _ _ h10
    rfl
  · simp at hrecord

/-! ## The patched manifest -/

/-- The `appid` field with one or more digits. -/
def appidField (text : List Char) : Option FieldMatch :=
  (quotedField "appid" isDecimal text).filter fun m => !m.value.isEmpty

/-- The `installdir` field with any value. -/
def installDirField (text : List Char) : Option FieldMatch :=
  quotedField "installdir" (· != '"') text

/-- `_patch_manifest`. -/
def patchManifest (payload : Bytes) (appid : Nat) (installDirName : String) : Except Exn Bytes :=
  match decodeStrict payload with
  | none => .error (windowsError "WINDOWS_FILESYSTEM_UNAVAILABLE")
  | some text =>
    if findAll appidField 0 text ≠ [(toString appid).toList] || !safeComponent installDirName then
      .error (windowsError "WINDOWS_MANIFEST_INVALID")
    else
      let r := substitute installDirField
        (fun m => m.opening ++ installDirName.toList ++ ['"']) 0 text
      if r.2 ≠ 1 then .error (windowsError "WINDOWS_MANIFEST_INVALID") else .ok (encode r.1)

/-! ## Primitives as programs -/

variable {α : Type}

/-- `_sanitized`. -/
def sanitized (p : WinProg α) : WinProg α := do
  match ← (p.attempt : WinProg _) with
  | .ok a => return a
  | .error (.adoptionError code) => .raise (windowsError code)
  | .error _ => .raise (windowsError "WINDOWS_FILESYSTEM_UNAVAILABLE")

def directoryIdentity (path : WinPath) : WinProg WinIdentity := do
  let a : Except Exn WinIdentity ← Prog.ask (S := WinSig) (.directoryIdentity path)
  Prog.ofExcept a

def fileIdentity (path : WinPath) : WinProg WinIdentity := do
  let a : Except Exn WinIdentity ← Prog.ask (S := WinSig) (.fileIdentity path)
  Prog.ofExcept a

def pathExists (path : WinPath) : WinProg Bool := do
  let a : Except Exn Bool ← Prog.ask (S := WinSig) (.pathExists path)
  Prog.ofExcept a

def read (path : WinPath) (limit : Nat) : WinProg FileData := do
  let a : Except Exn FileData ← Prog.ask (S := WinSig) (.read path limit)
  Prog.ofExcept a

def writeNew (path : WinPath) (data : FileData) : WinProg Unit := do
  let a : Except Exn Unit ← Prog.ask (S := WinSig) (.writeNew path data)
  Prog.ofExcept a

def copyNew (source destination : WinPath) : WinProg Unit := do
  let a : Except Exn Unit ← Prog.ask (S := WinSig) (.copyNew source destination)
  Prog.ofExcept a

def flush (path : WinPath) : WinProg Unit := do
  let a : Except Exn Unit ← Prog.ask (S := WinSig) (.flush path)
  Prog.ofExcept a

def moveNew (source destination : WinPath) : WinProg Unit := do
  let a : Except Exn Unit ← Prog.ask (S := WinSig) (.moveNew source destination)
  Prog.ofExcept a

def replace (source destination : WinPath) : WinProg Unit := do
  let a : Except Exn Unit ← Prog.ask (S := WinSig) (.replace source destination)
  Prog.ofExcept a

def delete (path : WinPath) : WinProg Unit := do
  let a : Except Exn Unit ← Prog.ask (S := WinSig) (.delete path)
  Prog.ofExcept a

/-! ## Adoption -/

/-- The texts of the library and the journal directory. -/
structure Site where
  library : String
  journalDir : String

/-- A path as the caller spells it, and the file it names. -/
structure Spelled where
  text : String
  path : WinPath

def raised {β : Type} (code : String) : WinProg β :=
  .raise (windowsError code)

/-- `_paths`. -/
def checkPaths (site : Site) (appid : Nat) : WinProg Unit := do
  if appid < 1 ∨ 0xFFFFFFFF < appid then
    raised "WINDOWS_MANIFEST_INVALID"
  else
    Prog.ofExcept (validatePath site.library)
    Prog.ofExcept (validatePath site.journalDir)

/-- `_reject_legacy`. -/
def rejectLegacy (appid : Nat) : WinProg Unit := do
  if ← pathExists (.legacyJournal appid) then
    raised "WINDOWS_ADOPTION_JOURNAL_UNSUPPORTED"
  else
    return

/-- `any(self.native.exists(path) for path in …)`. -/
def anyExists : List WinPath → WinProg Bool
  | [] => return false
  | path :: rest => do
    if ← pathExists path then return true else anyExists rest

/-- `_check_roots`. -/
def checkRoots (record : AdoptionRecord) : WinProg Unit := do
  let steamapps ← directoryIdentity .steamapps
  if steamapps ≠ record.steamappsIdentity then
    raised "WINDOWS_ADOPTION_IDENTITY_CHANGED"
  else
    let journals ← directoryIdentity .journals
    if journals ≠ record.journalIdentity then
      raised "WINDOWS_ADOPTION_IDENTITY_CHANGED"
    else
      return

/-- The backup of the destination: the identity of the destination, and the
identity and checksum of the backup. -/
def backUp (appid operationId : Nat) :
    WinProg (Option WinIdentity × Option WinIdentity × Option String) := do
  if ← pathExists (.manifest appid) then
    let original ← fileIdentity (.manifest appid)
    copyNew (.manifest appid) (.backup appid operationId)
    let backup ← fileIdentity (.backup appid operationId)
    let data ← read (.backup appid operationId) maxManifestBytes
    return (some original, some backup, some (sha256hex data.bytes))
  else
    return (none, none, none)

/-- The swap, after the journal is in place. -/
def swapStage (record : AdoptionRecord) : WinProg Unit := do
  let stage := WinPath.stage record.appid record.operationId
  let destination := WinPath.manifest record.appid
  match record.originalIdentity with
  | some original =>
    let current ← fileIdentity destination
    if current ≠ original then raised "WINDOWS_ADOPTION_IDENTITY_CHANGED"
    else replace stage destination
  | none => moveNew stage destination

/-- The check of the destination after the swap. -/
def checkLanded (record : AdoptionRecord) : WinProg Unit := do
  let current ← fileIdentity (.manifest record.appid)
  if current ≠ record.stageIdentity then
    raised "WINDOWS_ADOPTION_VERIFY_FAILED"
  else
    let data ← read (.manifest record.appid) maxManifestBytes
    if sha256hex data.bytes ≠ record.checksum then raised "WINDOWS_ADOPTION_VERIFY_FAILED"
    else return

/-- The staging of the patched manifest, the journal and the swap. -/
def stageAndSwap (appid operationId : Nat) (steamapps journals : WinIdentity) (patched : Bytes) :
    WinProg WinPath := do
  let (original, backup, backupChecksum) ← backUp appid operationId
  writeNew (.stage appid operationId) (.ofBytes patched)
  let stage ← fileIdentity (.stage appid operationId)
  if stage.volumeSerial ≠ steamapps.volumeSerial ∨
      backup.any (fun b => b.volumeSerial ≠ steamapps.volumeSerial) then
    raised "WINDOWS_CROSS_VOLUME_SWAP_REFUSED"
  else
    let record : AdoptionRecord := ⟨appid, operationId, sha256hex patched, steamapps, journals,
      stage, original, backup, backupChecksum, none⟩
    writeNew (.intent appid operationId) (.ofJson record.toJson)
    moveNew (.intent appid operationId) (.journal appid)
    checkRoots record
    swapStage record
    checkLanded record
    return .manifest appid

/-- `WindowsFilesystem.adopt_manifest`. -/
def adoptManifest (site : Site) (source : Spelled) (appid : Nat) (installDirName : String)
    (operationId : Nat) : WinProg WinPath := sanitized do
  checkPaths site appid
  if operationId = 0 then
    raised "WINDOWS_MANIFEST_INVALID"
  else
    rejectLegacy appid
    let steamapps ← directoryIdentity .steamapps
    let journals ← directoryIdentity .journals
    if ← anyExists [.journal appid, .stage appid operationId, .backup appid operationId,
        .restore appid operationId, .intent appid operationId] then
      raised "WINDOWS_ADOPTION_ALREADY_PENDING"
    else
      Prog.ofExcept (validatePath source.text)
      let payload ← read source.path maxManifestBytes
      let patched ← Prog.ofExcept (patchManifest payload.bytes appid installDirName)
      stageAndSwap appid operationId steamapps journals patched

/-! ## Recovery -/

/-- The texts that `reconcile_adoption` returns. -/
inductive AdoptionVerdict where
  | clean
  | stale
  | completed
  | restored
deriving DecidableEq, Repr

/-- The restore copy of the backup.  The result is its identity. -/
def prepareRestore (record : AdoptionRecord) (backupIdentity : WinIdentity) :
    WinProg WinIdentity := do
  let backup := WinPath.backup record.appid record.operationId
  let restore := WinPath.restore record.appid record.operationId
  if ← pathExists backup then
    let id ← fileIdentity backup
    if id ≠ backupIdentity then
      raised "WINDOWS_ADOPTION_BACKUP_INVALID"
    else
      let data ← read backup maxManifestBytes
      if some (sha256hex data.bytes) ≠ record.backupChecksum then
        raised "WINDOWS_ADOPTION_BACKUP_INVALID"
      else
        if ← pathExists restore then
          let data ← read restore maxManifestBytes
          if some (sha256hex data.bytes) ≠ record.backupChecksum then
            raised "WINDOWS_ADOPTION_BACKUP_INVALID"
        else
          copyNew backup restore
        fileIdentity restore
  else
    raised "WINDOWS_ADOPTION_BACKUP_INVALID"

/-- The journal with the identity of the restore copy. -/
def journalRestore (record : AdoptionRecord) : WinProg Unit := do
  let recovery := WinPath.recovery record.appid record.operationId
  let encoded := FileData.ofJson record.toJson
  if ← pathExists recovery then
    let data ← read recovery maxJournalBytes
    if data.bytes ≠ encoded.bytes then raised "WINDOWS_ADOPTION_JOURNAL_INVALID"
  else
    writeNew recovery encoded
  replace recovery (.journal record.appid)

/-- The restoration of a backup.  `present` says whether there is a
destination. -/
def restoreBackup (record : AdoptionRecord) (backupIdentity : WinIdentity) (present : Bool) :
    WinProg Unit := do
  let id ← prepareRestore record backupIdentity
  let record := { record with restoreIdentity := some id }
  journalRestore record
  checkRoots record
  let restore := WinPath.restore record.appid record.operationId
  if present then replace restore (.manifest record.appid)
  else moveNew restore (.manifest record.appid)
  let data ← read (.manifest record.appid) maxManifestBytes
  if some (sha256hex data.bytes) ≠ record.backupChecksum then
    raised "WINDOWS_ADOPTION_VERIFY_FAILED"
  else
    return

/-- The destination as it was before the swap. -/
def undoSwap (record : AdoptionRecord) (current : Option WinIdentity) : WinProg Unit :=
  match record.backupIdentity, current with
  | some backupIdentity, current => restoreBackup record backupIdentity current.isSome
  | none, some id =>
    if id ≠ record.stageIdentity then raised "WINDOWS_ADOPTION_IDENTITY_CHANGED"
    else delete (.manifest record.appid)
  | none, none => return

/-- The end of a recovery whose swap has not landed. -/
def undo (record : AdoptionRecord) (current : Option WinIdentity) : WinProg AdoptionVerdict := do
  undoSwap record current
  delete (.journal record.appid)
  return .restored

/-- `WindowsFilesystem.reconcile_adoption`, with the journal of the app read. -/
def reconcileRecord (record : AdoptionRecord) : WinProg AdoptionVerdict := do
  let destination := WinPath.manifest record.appid
  if ← pathExists destination then
    let id ← fileIdentity destination
    let data ← read destination maxManifestBytes
    if id = record.stageIdentity ∧ sha256hex data.bytes = record.checksum then
      flush destination
      return .completed
    else if record.restoreIdentity = some id ∧
        some (sha256hex data.bytes) = record.backupChecksum then
      flush destination
      delete (.journal record.appid)
      return .restored
    else if some id ≠ record.originalIdentity ∧ id ≠ record.stageIdentity ∧
        some id ≠ record.restoreIdentity then
      raised "WINDOWS_ADOPTION_IDENTITY_CHANGED"
    else
      undo record (some id)
  else
    undo record none

/-- `WindowsFilesystem.reconcile_adoption`. -/
def reconcileAdoption (site : Site) (appid : Nat) (operationId : Option Nat) :
    WinProg AdoptionVerdict := sanitized do
  checkPaths site appid
  rejectLegacy appid
  if ← pathExists (.journal appid) then
    let data ← read (.journal appid) maxJournalBytes
    let record ← Prog.ofExcept (decodeRecord data.json)
    if record.appid ≠ appid then
      raised "WINDOWS_ADOPTION_JOURNAL_INVALID"
    else
      checkRoots record
      if operationId.any (· ≠ record.operationId) then return .stale
      else reconcileRecord record
  else
    return .clean

end SteamAgent.Execution.Windows
