import Mathlib.Data.List.Dedup
import Mathlib.Data.List.Sort
import SteamAgent.Effects.Safe

/-!
# Processes that belong to an app

`runtime.py` up to `RuntimeObserver.observe`: the records of a process backend,
the AppID that the environment of a process names, and an observation.

The backend, the gate and the clock are the surroundings: they answer a call
with anything, or raise anything.  Times are in microseconds.  `str.casefold`
is a parameter.

There are three groups.

* Failures, records and the calls.
* `attribution` of a process.
* `observation` of a scan, and `observe`.
-/

namespace SteamAgent.Execution.Runtime

open Effects

/-! ## Calls -/

/-- `StopFailureReason`. -/
inductive StopFailureReason where
  | probeFailed
  | gateDenied
  | gateUnreadable
deriving DecidableEq, Repr

/-- `probe_reason`. -/
inductive ProbeReason where
  | processIdentityChanged
  | windowIdentityChanged
  | windowCloseFailed
deriving DecidableEq, Repr

/-- The reason code of a result. -/
def StopFailureReason.text : StopFailureReason → String
  | probeFailed => "stop_probe_failed"
  | gateDenied => "stop_dispatch_gate_denied"
  | gateUnreadable => "stop_dispatch_gate_unreadable"

/-- What may be raised. -/
inductive Failure where
  /-- `ProbeError` itself. -/
  | probe
  /-- `StopRequestError`, a subclass of it. -/
  | stopRequest (reason : StopFailureReason) (requested : Bool) (probeReason : Option ProbeReason)
  /-- Any other `Exception`. -/
  | exception (className : String)
  /-- A `BaseException` that is no `Exception`. -/
  | interrupt (className : String)
deriving DecidableEq, Repr

/-- `ProcessRecord`. -/
structure ProcessRecord where
  pid : Int
  createTime : Int
  name : String
  appEnvironment : List (String × String)
  sameUser : Bool
  sameSession : Bool
deriving DecidableEq, Repr

/-- `ProcessScan`. -/
structure ProcessScan where
  processes : List ProcessRecord
  reasonCodes : List String
deriving DecidableEq, Repr

/-- The calls of an observer, and those of `_windows_close`. -/
inductive StopCall where
  /-- `backend.scan()`. -/
  | scan
  /-- `backend.read(pid)`. -/
  | read (pid : Int)
  /-- `before_request()`, and whether its answer is `True`. -/
  | gate
  /-- `backend.request_stop(process, force=force, …)`. -/
  | requestStop (process : ProcessRecord) (force : Bool)
  | monotonic
  | sleep (duration : Int)
  /-- `windows.windows()`. -/
  | windows
  /-- `windows.owner(window)`. -/
  | owner (window : Nat)
  /-- `identity_check()`. -/
  | identityCheck
  /-- `windows.close(window)`. -/
  | close (window : Nat)

/-- What a call returns with. -/
abbrev StopCall.Value : StopCall → Type
  | scan => ProcessScan
  | read _ => Option ProcessRecord
  | gate => Bool
  | requestStop _ _ => Bool
  | monotonic => Int
  | sleep _ => Unit
  | windows => List Nat
  | owner _ => Int
  | identityCheck => Bool
  | close _ => Bool

/-- The answer to a call. -/
abbrev StopCall.Ans (c : StopCall) : Type :=
  Except Failure c.Value

abbrev StopSig : Sig :=
  ⟨StopCall, StopCall.Ans⟩

abbrev StopProg := Prog StopSig Failure

def scan : StopProg ProcessScan :=
  Prog.ask (S := StopSig) .scan >>= Prog.ofExcept

def read (pid : Int) : StopProg (Option ProcessRecord) :=
  Prog.ask (S := StopSig) (.read pid) >>= Prog.ofExcept

def requestStop (process : ProcessRecord) (force : Bool) : StopProg Bool :=
  Prog.ask (S := StopSig) (.requestStop process force) >>= Prog.ofExcept

def owner (window : Nat) : StopProg Int :=
  Prog.ask (S := StopSig) (.owner window) >>= Prog.ofExcept

def monotonic : StopProg Int :=
  Prog.ask (S := StopSig) .monotonic >>= Prog.ofExcept

def sleep (duration : Int) : StopProg Unit :=
  Prog.ask (S := StopSig) (.sleep duration) >>= Prog.ofExcept

/-! ## Attribution -/

/-- `APP_ID_VARIABLES`. -/
def appIdVariables : List String :=
  ["SteamAppId", "SteamGameId", "STEAM_COMPAT_APP_ID"]

/-- `_INFRASTRUCTURE`. -/
def infrastructure : List String :=
  ["steam", "steam.exe", "steamwebhelper", "steamwebhelper.exe", "steamservice.exe",
    "steamerrorreporter.exe", "steamcmd", "steamcmd.exe", "wineserver", "wineserver64", "reaper",
    "pressure-vessel-wrap", "steam-runtime-launcher-service", "steam-runtime-launch-client",
    "services.exe", "winedevice.exe", "explorer.exe"]

/-- `0xFFFFFFFF`. -/
def maxAppid : Int :=
  4294967295

/-- An ASCII digit. -/
def isDigit (c : Char) : Bool :=
  '0' ≤ c && c ≤ '9'

/-- `int(value)` on ASCII digits. -/
def decimalValue (value : List Char) : Int :=
  value.foldl (fun n c => n * 10 + (c.toNat - 48 : Nat)) 0

/-- The number in the text of a variable, if it is an AppID. -/
def variableAppid (value : String) : Option Int :=
  let chars := value.toList
  if chars.length > 10 || chars = [] || !chars.all isDigit then none
  else
    let number := decimalValue chars
    if 0 < number ∧ number ≤ maxAppid then some number else none

/-- The variables that are set, with their numbers, or nothing where one of
them is invalid. -/
def readVariables (environment : List (String × String)) :
    List String → Option (List (String × Int))
  | [] => some []
  | name :: names =>
    match environment.lookup name with
    | none => readVariables environment names
    | some value =>
      match variableAppid value with
      | none => none
      | some number => (readVariables environment names).map ((name, number) :: ·)

/-- What `_attribution` returns. -/
structure Attribution where
  appid : Option Int
  evidence : List String
  invalid : Bool
deriving DecidableEq, Repr

/-- `_attribution`. -/
def attribution (casefold : String → String) (process : ProcessRecord) : Attribution :=
  if !process.sameUser || !process.sameSession then ⟨none, [], false⟩
  else if infrastructure.contains (casefold process.name) then ⟨none, [], false⟩
  else
    match readVariables process.appEnvironment appIdVariables with
    | none => ⟨none, [], true⟩
    | some values =>
      if (values.map Prod.snd).dedup.length > 1 then ⟨none, [], true⟩
      else ⟨values.head?.map Prod.snd, values.map Prod.fst, false⟩

/-! ## Observation -/

structure ObservedProcess where
  appid : Int
  pid : Int
  createTime : Int
  evidenceVariables : List String
deriving DecidableEq, Repr

inductive ObservationState where
  | observed
  | absent
  | unknown
deriving DecidableEq, Repr

structure RuntimeObservation where
  state : ObservationState
  processes : List ObservedProcess
  reasonCodes : List String
deriving DecidableEq, Repr

/-- The sort key `(appid, pid, create_time)`. -/
def ObservedProcess.before (p q : ObservedProcess) : Bool :=
  p.appid < q.appid || (p.appid = q.appid && (p.pid < q.pid ||
    (p.pid = q.pid && p.createTime ≤ q.createTime)))

/-- The entry of a process, when its app is wanted. -/
def observedProcess (casefold : String → String) (appid : Option Int) (process : ProcessRecord) :
    Option ObservedProcess :=
  let attributed := attribution casefold process
  attributed.appid.bind fun value =>
    if appid = none ∨ appid = some value then
      some ⟨value, process.pid, process.createTime, attributed.evidence⟩
    else none

/-- The reason codes of a scan, and one for an ambiguous environment. -/
def scanReasons (casefold : String → String) (scan : ProcessScan) : List String :=
  scan.reasonCodes ++
    if scan.processes.any fun process => (attribution casefold process).invalid then
      ["ambiguous_appid_environment"]
    else []

/-- The processes of a scan that belong to a wanted app, sorted. -/
def observedProcesses (casefold : String → String) (appid : Option Int) (scan : ProcessScan) :
    List ObservedProcess :=
  (scan.processes.filterMap (observedProcess casefold appid)).insertionSort fun p q => p.before q

/-- The observation of a scan that came back. -/
def observation (casefold : String → String) (appid : Option Int) (scan : ProcessScan) :
    RuntimeObservation :=
  let reasons := scanReasons casefold scan
  let observed := observedProcesses casefold appid scan
  let state := if reasons ≠ [] then .unknown else if observed ≠ [] then .observed else .absent
  ⟨state, observed, reasons.dedup.insertionSort fun a b => ¬b < a⟩

/-- `isinstance(error, ProbeError)`. -/
def Failure.isProbe : Failure → Bool
  | probe => true
  | stopRequest _ _ _ => true
  | _ => false

/-- `RuntimeObserver.observe`. -/
def observe (casefold : String → String) (platform : String) (appid : Option Int) :
    StopProg RuntimeObservation :=
  if platform ≠ "linux" ∧ platform ≠ "win32" then
    return ⟨.unknown, [], ["unsupported_platform"]⟩
  else do
    match ← scan.attempt with
    | .ok found => return observation casefold appid found
    | .error x =>
      if x.isProbe then return ⟨.unknown, [], ["process_probe_failed"]⟩ else .raise x

/-! ### What an observation says -/

variable {casefold : String → String} {appid : Option Int} {found : ProcessScan}

/-- An observed process is one of the scan, with its app. -/
theorem mem_observation {target : ObservedProcess}
    (h : target ∈ (observation casefold appid found).processes) :
    ∃ process ∈ found.processes, process.pid = target.pid ∧
      process.createTime = target.createTime ∧
      (attribution casefold process).appid = some target.appid ∧
      (appid = none ∨ appid = some target.appid) := by
  have hmem : target ∈ found.processes.filterMap (observedProcess casefold appid) :=
    (List.mem_insertionSort _).mp h
  obtain ⟨process, hprocess, hentry⟩ := List.mem_filterMap.mp hmem
  rw [observedProcess, Option.bind_eq_some_iff] at hentry
  obtain ⟨value, hvalue, hentry⟩ := hentry
  split at hentry
  · rename_i hwanted
    obtain rfl := Option.some.inj hentry
    exact ⟨process, hprocess, rfl, rfl, hvalue, hwanted⟩
  · cases hentry

/-- No scan with a reason code, and no scan with a process of the app, looks
empty. -/
theorem observation_absent {value : Int}
    (h : (observation casefold (some value) found).state = .absent) :
    found.reasonCodes = [] ∧ ∀ process ∈ found.processes,
      (attribution casefold process).invalid = false ∧
        (attribution casefold process).appid ≠ some value := by
  have hempty : scanReasons casefold found = [] ∧
      observedProcesses casefold (some value) found = [] := by
    unfold observation at h
    dsimp only at h
    by_cases hreasons : scanReasons casefold found = []
    · by_cases hobserved : observedProcesses casefold (some value) found = []
      · exact ⟨hreasons, hobserved⟩
      · simp [hreasons, hobserved] at h
    · simp [hreasons] at h
  obtain ⟨hreasons, hobserved⟩ := hempty
  obtain ⟨hcodes, hambiguous⟩ := List.append_eq_nil_iff.mp hreasons
  refine ⟨hcodes, fun process hprocess => ⟨?_, fun happ => ?_⟩⟩
  · by_contra hinvalid
    rw [if_pos] at hambiguous
    · cases hambiguous
    · exact List.any_eq_true.mpr ⟨process, hprocess, by simpa using hinvalid⟩
  · have hentry : observedProcess casefold (some value) process = some ⟨value, process.pid,
        process.createTime, (attribution casefold process).evidence⟩ := by
      simp [observedProcess, happ]
    have hmem := List.mem_filterMap.mpr ⟨process, hprocess, hentry⟩
    exact List.ne_nil_of_mem ((List.mem_insertionSort _).mpr hmem) hobserved

end SteamAgent.Execution.Runtime
