import SteamAgent.Execution.Sessions
import SteamAgent.Execution.Windows.Adoption

/-!
# The Windows content backend

`WindowsContentBackend`: the binding of an operation to its directories, and
the effect marker of an operation with its intent file.

There are three groups.

* `Binding` and `Receipt`, their JSON, and the checks of a marker.
* `bind_target`, `revalidate`, `_read` and `_write`.
* The four methods that work on a marker.
-/

namespace SteamAgent.Execution.Windows

open Effects

/-! ## Bindings and receipts -/

/-- `WindowsContentBinding`. -/
structure Binding where
  appid : Nat
  operationId : Nat
  installDirName : String
  libraryIdentity : WinIdentity
  targetIdentity : WinIdentity
  markerDirectoryIdentity : WinIdentity
deriving DecidableEq, Repr

/-- The states of an effect. -/
inductive EffectState where
  | prepared
  | completed
  | uncertain
deriving DecidableEq, Repr

def EffectState.text : EffectState → String
  | .prepared => "prepared"
  | .completed => "completed"
  | .uncertain => "uncertain"

def EffectState.parse : String → Option EffectState
  | "prepared" => some .prepared
  | "completed" => some .completed
  | "uncertain" => some .uncertain
  | _ => none

@[simp] theorem EffectState.parse_text (s : EffectState) : EffectState.parse s.text = some s := by
  cases s <;> rfl

def effectSchema : String :=
  "windows-content-effect/1"

def backendName : String :=
  "windows-ntfs-job/1"

/-- `_MARKER_LIMIT`. -/
def markerLimit : Nat :=
  16 * 1024

/-- `WindowsEffectReceipt`.  The schema and the backend are the same in every
receipt. -/
structure Receipt where
  operation : String
  binding : Binding
  state : EffectState
deriving DecidableEq, Repr

/-- `asdict(binding)` with its keys sorted. -/
def Binding.toJson (b : Binding) : Json :=
  .obj [
    ("appid", .int b.appid),
    ("install_dir_name", .str b.installDirName),
    ("library_identity", b.libraryIdentity.toJson),
    ("marker_directory_identity", b.markerDirectoryIdentity.toJson),
    ("operation_id", .int b.operationId),
    ("target_identity", b.targetIdentity.toJson)]

/-- `asdict(receipt)` with its keys sorted. -/
def Receipt.toJson (r : Receipt) : Json :=
  .obj [
    ("backend", .str backendName),
    ("binding", r.binding.toJson),
    ("operation", .str r.operation),
    ("schema", .str effectSchema),
    ("state", .str r.state.text)]

/-- `_binding`. -/
def decodeBinding : Json → Option Binding
  | .obj fields => do
    if !Json.hasKeys fields ["appid", "operation_id", "install_dir_name", "library_identity",
        "target_identity", "marker_directory_identity"] then none
    let appid ← (Json.get fields "appid").bind (intWithin 1 (some 0xFFFFFFFF))
    let operationId ← (Json.get fields "operation_id").bind (intWithin 1 none)
    let name ← ((Json.get fields "install_dir_name").bind Json.toStr).filter safeComponent
    let library ← (Json.get fields "library_identity").bind decodeIdentity
    let target ← (Json.get fields "target_identity").bind decodeIdentity
    let markers ← (Json.get fields "marker_directory_identity").bind decodeIdentity
    return ⟨appid, operationId, name, library, target, markers⟩
  | _ => none

/-- `{"install", "verify"}`. -/
def contentOperations : List String :=
  ["install", "verify"]

def contentError (code : String) : Exn :=
  .adoptionError code

/-- The checks of `inspect_effect`, on the object in the marker. -/
def decodeReceipt (raw : List (String × Json)) (binding : Binding) : Except Exn Receipt :=
  if !Json.hasKeys raw ["schema", "backend", "operation", "binding", "state"] ||
      (Json.get raw "schema").bind Json.toStr ≠ some effectSchema ||
      (Json.get raw "backend").bind Json.toStr ≠ some backendName then
    .error (contentError "WINDOWS_CONTENT_MARKER_UNSUPPORTED")
  else
    match (Json.get raw "binding").bind decodeBinding,
        ((Json.get raw "operation").bind Json.toStr).filter fun text =>
          contentOperations.contains text,
        ((Json.get raw "state").bind Json.toStr).bind EffectState.parse with
    | some recorded, some operation, some state =>
      if recorded = binding then .ok ⟨operation, recorded, state⟩
      else .error (contentError "WINDOWS_CONTENT_MARKER_INVALID")
    | _, _, _ => .error (contentError "WINDOWS_CONTENT_MARKER_INVALID")

theorem decodeBinding_obj {fields : List (String × Json)} {b : Binding}
    (h : decodeBinding (.obj fields) = some b) :
    (Json.get fields "appid").bind (intWithin 1 (some 0xFFFFFFFF)) = some b.appid ∧
      (Json.get fields "operation_id").bind (intWithin 1 none) = some b.operationId ∧
      (Json.get fields "install_dir_name").bind Json.toStr = some b.installDirName ∧
      (Json.get fields "library_identity").bind decodeIdentity = some b.libraryIdentity ∧
      (Json.get fields "target_identity").bind decodeIdentity = some b.targetIdentity ∧
      (Json.get fields "marker_directory_identity").bind decodeIdentity
        = some b.markerDirectoryIdentity := by
  unfold decodeBinding at h
  dsimp only at h
  split at h
  · nomatch h
  · obtain ⟨appid, h1, h⟩ := Option.bind_eq_some_iff.mp h
    obtain ⟨operationId, h2, h⟩ := Option.bind_eq_some_iff.mp h
    obtain ⟨name, h3, h⟩ := Option.bind_eq_some_iff.mp h
    obtain ⟨library, h4, h⟩ := Option.bind_eq_some_iff.mp h
    obtain ⟨target, h5, h⟩ := Option.bind_eq_some_iff.mp h
    obtain ⟨markers, h6, h⟩ := Option.bind_eq_some_iff.mp h
    obtain rfl := Option.some.inj h
    exact ⟨h1, h2, (Option.filter_eq_some_iff.mp h3).1, h4, h5, h6⟩

theorem decodeBinding_toJson {b b' : Binding} (h : decodeBinding b.toJson = some b') : b' = b := by
  obtain ⟨h1, h2, h3, h4, h5, h6⟩ := decodeBinding_obj h
  have ha : b'.appid = b.appid := intWithin_int h1
  have ho : b'.operationId = b.operationId := intWithin_int h2
  have hn : b.installDirName = b'.installDirName := Option.some.inj h3
  have hl : b'.libraryIdentity = b.libraryIdentity := decodeIdentity_toJson h4
  have ht : b'.targetIdentity = b.targetIdentity := decodeIdentity_toJson h5
  have hm : b'.markerDirectoryIdentity = b.markerDirectoryIdentity := decodeIdentity_toJson h6
  cases b
  cases b'
  simp_all

theorem decodeReceipt_ok {raw : List (String × Json)} {b : Binding} {r : Receipt}
    (h : decodeReceipt raw b = .ok r) :
    (Json.get raw "binding").bind decodeBinding = some r.binding ∧
      (Json.get raw "operation").bind Json.toStr = some r.operation ∧
      ((Json.get raw "state").bind Json.toStr).bind EffectState.parse = some r.state ∧
      r.binding = b ∧ r.operation ∈ contentOperations := by
  unfold decodeReceipt at h
  split at h
  · nomatch h
  · split at h
    · rename_i recorded operation state hb ho hs
      split at h
      · obtain rfl := Except.ok.inj h
        obtain ⟨ho, hmem⟩ := Option.filter_eq_some_iff.mp ho
        exact ⟨hb, ho, hs, ‹_›, by simpa using hmem⟩
      · nomatch h
    · nomatch h

/-- A receipt that is written and read back is the same, or is refused. -/
theorem decodeReceipt_toJson {r r' : Receipt} {b : Binding} {raw : List (String × Json)}
    (hraw : r.toJson = .obj raw) (h : decodeReceipt raw b = .ok r') : r' = r ∧ r.binding = b := by
  obtain rfl := Json.obj.inj hraw
  obtain ⟨hb, ho, hs, hbinding, _⟩ := decodeReceipt_ok h
  have hb' : r'.binding = r.binding := decodeBinding_toJson hb
  have ho' : r.operation = r'.operation := Option.some.inj ho
  have hs' : r.state = r'.state := by
    have := (EffectState.parse_text r.state).symm.trans hs
    exact Option.some.inj this
  cases r
  cases r'
  simp_all

/-! ## Targets and markers -/

/-- `_legacy_denial`. -/
def legacyDenial (appid : Nat) : WinProg Unit := do
  if ← pathExists (.legacyOwned appid) then
    .raise (contentError "WINDOWS_CONTENT_LEGACY_STATE_REFUSED")
  else if ← pathExists (.legacyJournal appid) then
    .raise (contentError "WINDOWS_CONTENT_LEGACY_STATE_REFUSED")
  else
    return

/-- `bind_target`. -/
def bindTarget (appid operationId : Nat) (installDirName : String) : WinProg Binding := do
  if appid < 1 ∨ 0xFFFFFFFF < appid ∨ operationId = 0 ∨ safeComponent installDirName = false then
    .raise (contentError "WINDOWS_CONTENT_TARGET_INVALID")
  else
    legacyDenial appid
    let library ← directoryIdentity .steamapps
    let target ← directoryIdentity (.target installDirName)
    let markers ← directoryIdentity .owned
    if target.volumeSerial ≠ library.volumeSerial then
      .raise (contentError "WINDOWS_CONTENT_TARGET_VOLUME_CHANGED")
    else
      return ⟨appid, operationId, installDirName, library, target, markers⟩

/-- `revalidate`. -/
def revalidate (binding : Binding) : WinProg Unit := do
  let current ← bindTarget binding.appid binding.operationId binding.installDirName
  if current ≠ binding then .raise (contentError "WINDOWS_CONTENT_IDENTITY_CHANGED") else return

/-- `_read`. -/
def readMarker (path : WinPath) : WinProg (List (String × Json)) := do
  match ← (read path markerLimit).attempt with
  | .ok ⟨_, some (.obj value)⟩ => return value
  | _ => .raise (contentError "WINDOWS_CONTENT_MARKER_INVALID")

/-- `_write`.  It computes the text of its value, so proofs unfold it by name
only. -/
@[irreducible] def writeMarker (path : WinPath) (value : Json) : WinProg Unit := do
  let payload := FileData.ofJson value
  if payload.bytes.length > markerLimit then
    .raise (contentError "WINDOWS_CONTENT_MARKER_INVALID")
  else if ← pathExists (.pending path) then
    .raise (contentError "WINDOWS_CONTENT_MARKER_PENDING")
  else
    writeNew (.pending path) payload
    if ← pathExists path then replace (.pending path) path else moveNew (.pending path) path

/-! ## Effects -/

/-- `inspect_effect`. -/
def inspectEffect (binding : Binding) : WinProg Receipt := do
  revalidate binding
  let raw ← readMarker (.effect binding.operationId)
  Prog.ofExcept (decodeReceipt raw binding)

/-- `begin_effect`. -/
def beginEffect (binding : Binding) (operation : String) : WinProg Receipt := do
  if contentOperations.contains operation = false then
    .raise (contentError "WINDOWS_CONTENT_OPERATION_UNSUPPORTED")
  else
    revalidate binding
    if ← pathExists (.effect binding.operationId) then
      let _ ← inspectEffect binding
      .raise (contentError "WINDOWS_CONTENT_EFFECT_ALREADY_RECORDED")
    else
      let receipt : Receipt := ⟨operation, binding, .prepared⟩
      writeMarker (.effect binding.operationId) receipt.toJson
      return receipt

/-- `WindowsContentResult`, without the log path. -/
structure WindowsContentResult where
  outcome : ContentOutcome
  appid : Nat
  operationId : Nat
  operation : String
  targetIdentity : WinIdentity
  processBackend : String
deriving DecidableEq, Repr

/-- The result is bound to the receipt. -/
def WindowsContentResult.bound (result : WindowsContentResult) (receipt : Receipt) : Bool :=
  result.appid == receipt.binding.appid && result.operationId == receipt.binding.operationId &&
    result.operation == receipt.operation &&
    result.targetIdentity == receipt.binding.targetIdentity

/-- The receipt that `finish_effect` records. -/
def Receipt.finished (receipt : Receipt) (result : WindowsContentResult) : Receipt :=
  { receipt with state := if result.outcome = .installed then .completed else .uncertain }

/-- `finish_effect`. -/
def finishEffect (binding : Binding) (result : WindowsContentResult) : WinProg Receipt := do
  if result.processBackend ≠ "windows-job/1" then
    .raise (contentError "WINDOWS_CONTENT_JOB_RESULT_REQUIRED")
  else
    let receipt ← inspectEffect binding
    if receipt.state ≠ .prepared then
      .raise (contentError "WINDOWS_CONTENT_EFFECT_TERMINAL")
    else if result.bound receipt = false then
      .raise (contentError "WINDOWS_CONTENT_JOB_RESULT_UNBOUND")
    else
      writeMarker (.effect binding.operationId) (receipt.finished result).toJson
      return receipt.finished result

/-- The checks of `adopt`.  `adopt_manifest` is reached if they return. -/
def adoptGate (binding : Binding) (source : Spelled) : WinProg Receipt := do
  let receipt ← inspectEffect binding
  if receipt.state ≠ .completed then
    .raise (contentError "WINDOWS_CONTENT_EFFECT_UNCONFIRMED")
  else
    Prog.ofExcept (validatePath source.text)
    if source.path ≠ .nested binding.installDirName binding.appid then
      .raise (contentError "WINDOWS_CONTENT_SOURCE_UNBOUND")
    else
      return receipt

/-- `adopt`. -/
def adopt (site : Site) (binding : Binding) (source : Spelled) : WinProg WinPath := do
  let _ ← adoptGate binding source
  adoptManifest site source binding.appid binding.installDirName binding.operationId

end SteamAgent.Execution.Windows
