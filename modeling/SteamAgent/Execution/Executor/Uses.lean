import SteamAgent.Execution.Executor.Logic

/-!
# Which calls the parts of an execution make

One lemma for each part whose calls a later proof only needs to know by kind:
if the calls it can make all satisfy `D`, its `Calls D` holds.

There are four groups.

* Combinators and single calls.
* The endings.
* The filesystem programs: they change no manifest in `steamapps/`, apart from
  adoption and recovery, and the intake changes nothing at all.
* The ends of an execution, a launch, and the stop of a game.
-/

namespace SteamAgent.Execution

open Effects
open Content
open Ledger (Row OperationState Method PlanDocument)

variable {ρ α β : Type} {D : Call → Prop}

/-! ## Combinators and single calls -/

theorem calls_handling {p : Body ρ α} {catches : Exn → Bool} {handler : Exn → Body ρ α}
    (hp : p.Calls D) (hh : ∀ x, (handler x).Calls D) : (handling p catches handler).Calls D := by
  refine .bind hp.attempt ?_
  rintro ((result | x) | a)
  · trivial
  · exact Prog.Calls.ite (hh x) trivial
  · trivial

theorem calls_orRaise (a : Except Exn α) : (orRaise (ρ := ρ) a).Calls D := by
  cases a <;> trivial

/-- A single call whose exception is raised. -/
theorem calls_askRaise {c : Call} {f : Call.Ans c → Except Exn α} (h : D c) :
    (Prog.call (S := BrokerSig) c fun a => orRaise (ρ := ρ) (f a)).Calls D :=
  ⟨h, fun a => calls_orRaise (f a)⟩

theorem calls_ledger {p : Method α} (h : ∀ c, D (.ledger c)) : (ledger (ρ := ρ) p).Calls D :=
  Prog.calls_lift_of_forall p h

theorem calls_fs {p : FsProg α} (h : p.Calls fun c => D (.fs c)) : (fs (ρ := ρ) p).Calls D :=
  Prog.Calls.lift h

/-! ## The endings -/

theorem calls_contentPolicyDenial {cfg : Config} {operation : Row}
    (h : D (.dispatchPolicy operation)) :
    (contentPolicyDenial (ρ := ρ) cfg operation).Calls D := by
  unfold contentPolicyDenial
  refine Prog.Calls.ite ⟨h, ?_⟩ trivial
  rintro (x | _ | denial)
  · trivial
  · trivial
  · exact Prog.Calls.ite trivial trivial

theorem calls_restoreClient {id : Nat} {priorRunning : Option Bool}
    (hprobe : D (.session id .steamcmdRunning)) (hstart : D (.session id .startClient)) :
    (restoreClient (ρ := ρ) id priorRunning).Calls D := by
  refine ⟨hprobe, ?_⟩
  rintro (x | _ | _)
  · trivial
  · exact Prog.Calls.ite (calls_askRaise hstart) trivial
  · trivial

theorem leaves_ite {S : Sig} {ε : Type} {E : S.Call → Prop} {c : Prop} [Decidable c]
    {p q : Prog S ε α} (hp : p.Leaves E) (hq : q.Leaves E) :
    (if c then p else q).Leaves E := by
  split
  · exact hp
  · exact hq

theorem leaves_finishFailureAs {id : Nat} {priorRunning : Option Bool} {detail message : String}
    {outcome : ExecuteOutcome} {toState : OperationState}
    (hprobe : D (.session id .steamcmdRunning)) (hstart : D (.session id .startClient))
    (hledger : ∀ c, D (.ledger c)) :
    (finishFailureAs (α := α) id priorRunning detail message outcome toState).Leaves D := by
  refine .bind (calls_restoreClient hprobe hstart) fun restored => ?_
  exact leaves_ite (.bind (calls_ledger hledger) fun _ => trivial) trivial

theorem leaves_deferContentPolicy {operation : Row} {denial : String}
    (hprobe : D (.session operation.operationId .steamcmdRunning))
    (hstart : D (.session operation.operationId .startClient)) :
    (deferContentPolicy (α := α) operation denial).Leaves D := by
  refine .bind (Prog.Calls.ite (calls_askRaise hprobe) trivial) fun running => ?_
  refine leaves_ite trivial (.bind (calls_restoreClient hprobe hstart) fun restored => ?_)
  exact leaves_ite trivial trivial

theorem leaves_windowLapsed {id : Nat} {operation : Row} {resuming : Bool}
    (hprobe : D (.session id .steamcmdRunning)) (hstart : D (.session id .startClient))
    (hledger : ∀ c, D (.ledger c)) :
    (windowLapsed (α := α) id operation resuming).Leaves D := by
  refine .bind (calls_ledger hledger) fun _ => leaves_ite ?_ trivial
  refine .bind (calls_restoreClient hprobe hstart) fun _ => leaves_ite ?_ trivial
  exact .bind (calls_ledger hledger) fun _ => trivial

theorem leaves_pollingFailed {id : Nat} {cleanupAttempted : Bool}
    (h : D (.content id .terminate)) :
    (pollingFailed (ρ := ρ) (α := α) id cleanupAttempted).Leaves D := by
  refine leaves_ite trivial (.ask h ?_)
  rintro (x | _) <;> trivial

/-! ## The filesystem programs -/

/-- The call writes or removes a manifest in `steamapps/`. -/
def FsCall.writesManifest : FsCall → Bool
  | .durableWrite (.manifest _) _ => true
  | .writeRecord (.manifest _) _ => true
  | .unlink (.manifest _) _ => true
  | _ => false

/-- A filesystem program that leaves the manifests in `steamapps/` alone. -/
abbrev Spares (p : FsProg α) : Prop :=
  p.Calls fun c => FsCall.writesManifest c = false

variable {E : FsCall → Prop}

theorem calls_orNone {p : FsProg α} (hp : p.Calls E) : (orNone p).Calls E := by
  refine .bind hp.attempt ?_
  rintro (x | a)
  · exact Prog.Calls.ite trivial trivial
  · trivial

theorem calls_reading {p : FsProg α} (hp : p.Calls E) : (reading p).Calls E :=
  Prog.Calls.lift hp

theorem calls_manifestAppidAt {l : Loc} (h : E (.readBytes l)) : (manifestAppidAt l).Calls E :=
  .bind (calls_orNone ⟨h, Prog.Calls.ofExcept⟩) fun _ => trivial

theorem calls_manifestStateFlagsAt {l : Loc} (h : E (.readBytes l)) :
    (manifestStateFlagsAt l).Calls E :=
  .bind (calls_orNone ⟨h, Prog.Calls.ofExcept⟩) fun _ => trivial

theorem calls_manifestInstallDirAt {l : Loc} (h : E (.readBytes l)) :
    (manifestInstallDirAt l).Calls E :=
  .bind (calls_orNone ⟨h, Prog.Calls.ofExcept⟩) fun _ => trivial

theorem calls_locateManifest {name : String} {appid : Nat} (h : E (.isFile (.nested name appid))) :
    (locateManifest name appid).Calls E :=
  .bind ⟨h, Prog.Calls.ofExcept⟩ fun _ => trivial

/-- The retirement of the journal and the marker. -/
theorem spares_retireRecords (appid : Nat) : Spares (retireRecords appid) := by
  refine .bind (.bind ⟨rfl, Prog.Calls.ofExcept⟩ fun _ => .bind ⟨rfl, Prog.Calls.ofExcept⟩ fun _ => ?_)
    fun _ => ⟨rfl, Prog.Calls.ofExcept⟩
  exact Prog.Calls.ite ⟨rfl, Prog.Calls.ofExcept⟩ trivial

theorem spares_targetContained (name : String) : Spares (targetContained name) := by
  refine .bind (calls_orNone (.bind ⟨rfl, Prog.Calls.ofExcept⟩ fun _ => ?_)) fun _ => trivial
  exact Prog.Calls.ite trivial ⟨rfl, Prog.Calls.ofExcept⟩

theorem spares_recordOwnedDir (appid : Nat) (name : String) :
    Spares (recordOwnedDir appid name) := by
  refine .bind (spares_targetContained name) fun _ => Prog.Calls.ite ?_ trivial
  refine .bind ⟨rfl, Prog.Calls.ofExcept⟩ fun _ => .bind (spares_targetContained name) fun _ => ?_
  refine Prog.Calls.ite ?_ trivial
  exact .bind ⟨rfl, Prog.Calls.ofExcept⟩ fun _ => .bind ⟨rfl, Prog.Calls.ofExcept⟩ fun _ =>
    .bind ⟨rfl, Prog.Calls.ofExcept⟩ fun _ => ⟨rfl, Prog.Calls.ofExcept⟩

theorem spares_verifiedOutcome (appid : Nat) (priorRunning : Option Bool) :
    Spares (verifiedOutcome appid priorRunning) := by
  refine .bind (calls_manifestAppidAt rfl) fun _ => Prog.Calls.ite trivial ?_
  refine .bind (calls_manifestStateFlagsAt rfl) fun _ => Prog.Calls.ite trivial ?_
  refine .bind ⟨rfl, Prog.Calls.ofExcept⟩ fun _ => Prog.Calls.ite trivial ?_
  exact Prog.Calls.ite trivial trivial

/-! ## The intake reads only -/

/-- The calls that change nothing. -/
def FsCall.reads : FsCall → Bool
  | .durableWrite .. => false
  | .writeRecord .. => false
  | .unlink .. => false
  | .mkdir _ => false
  | .fsyncDir _ => false
  | _ => true

/-- A filesystem program that changes nothing. -/
abbrev Reads {ε : Type} (p : Prog FsSig ε α) : Prop :=
  p.Calls fun c : FsCall => FsCall.reads c = true

theorem reads_chooseInstallDir (cfg : Config) (operation : Row) (planned : String) :
    Reads (chooseInstallDir cfg operation planned) := by
  refine .bind (calls_reading (.ask rfl Prog.Calls.ofExcept)) fun present => Prog.Calls.ite ?_ ?_
  · refine .bind (calls_reading (calls_manifestAppidAt rfl)) fun appid => Prog.Calls.ite trivial ?_
    refine .bind (calls_reading (calls_manifestInstallDirAt rfl)) fun dir => ?_
    cases dir with
    | none => trivial
    | some existing => exact Prog.Calls.ite trivial trivial
  · exact Prog.Calls.ite trivial (Prog.Calls.ite trivial trivial)

theorem reads_checkTarget (name : String) : Reads (checkTarget name) := by
  refine .bind (calls_reading (.ask rfl Prog.Calls.ofExcept)) fun link => Prog.Calls.ite trivial ?_
  refine .bind (calls_reading (calls_orNone (.ask rfl Prog.Calls.ofExcept))) fun inside => ?_
  exact Prog.Calls.ite trivial trivial

theorem reads_checkInstalled (operation : Row) (name : String) :
    Reads (checkInstalled operation name) := by
  refine Prog.Calls.ite trivial (.bind (calls_reading ?_) fun installed => Prog.Calls.ite trivial trivial)
  refine .bind (calls_manifestStateFlagsAt rfl) fun flags => ?_
  exact Prog.Calls.ite (.ask rfl Prog.Calls.ofExcept) trivial

theorem reads_checkCollisions (cfg : Config) (appid : Nat) (name : String)
    (manifests : List String) : Reads (checkCollisions cfg appid name manifests) := by
  induction manifests with
  | nil => trivial
  | cons manifest rest ih =>
    refine Prog.Calls.ite ih (.bind (calls_reading (calls_manifestInstallDirAt rfl)) fun dir => ?_)
    cases dir with
    | none => trivial
    | some other => exact Prog.Calls.ite trivial ih

theorem reads_nestedAppid (appid : Nat) (name : String) : Reads (nestedAppid appid name) := by
  refine .bind (calls_locateManifest rfl) fun nested => ?_
  cases nested with
  | none => trivial
  | some l => exact calls_manifestAppidAt rfl

theorem reads_markerOwnsTarget (cfg : Config) (appid : Nat) (name : String) :
    Reads (markerOwnsTarget cfg appid name) := by
  refine .bind (calls_orNone (.ask rfl Prog.Calls.ofExcept)) fun marker => ?_
  split
  · trivial
  · split
    · refine Prog.Calls.ite (.bind (calls_orNone (.ask rfl Prog.Calls.ofExcept)) fun current => ?_) trivial
      cases current <;> trivial
    · trivial

theorem reads_checkOwned (cfg : Config) (appid : Nat) (name : String) :
    Reads (checkOwned cfg appid name) := by
  refine .bind (calls_reading (.ask rfl Prog.Calls.ofExcept)) fun present => Prog.Calls.ite ?_ trivial
  refine .bind (calls_reading (calls_manifestInstallDirAt rfl)) fun ownDir => ?_
  refine .bind (calls_reading (calls_orNone ?_)) fun owned => Prog.Calls.ite trivial trivial
  refine .bind (reads_nestedAppid appid name) fun nested => Prog.Calls.ite trivial ?_
  refine Prog.Calls.ite trivial (.bind (reads_markerOwnsTarget cfg appid name) fun marked => ?_)
  exact Prog.Calls.ite trivial (.bind (.ask rfl Prog.Calls.ofExcept) fun _ => trivial)

theorem reads_intake (cfg : Config) (operation : Row) (plan : PlanDocument) :
    Reads (intake cfg operation plan) := by
  have hplanned : Reads (plannedName plan) := by
    unfold plannedName
    split <;> trivial
  refine hplanned.bind fun planned => .bind (reads_chooseInstallDir cfg operation planned) ?_
  refine fun name => Prog.Calls.ite trivial (.bind (reads_checkTarget name) fun _ => ?_)
  refine .bind (reads_checkInstalled operation name) fun _ => ?_
  refine .bind (calls_reading (.ask rfl Prog.Calls.ofExcept)) fun manifests => ?_
  refine .bind (reads_checkCollisions cfg operation.appid name manifests) fun _ => ?_
  exact .bind (reads_checkOwned cfg operation.appid name) fun _ => trivial

/-! ## The ends of an execution -/

theorem calls_finishAdoption {id : Nat} {operation : Row} {priorRunning : Bool}
    (hprobe : D (.session id .steamcmdRunning)) (hstart : D (.session id .startClient))
    (hledger : ∀ c, D (.ledger c)) (hfs : ∀ c, FsCall.writesManifest c = false → D (.fs c)) :
    (finishAdoption id operation priorRunning).Calls D := by
  refine .bind (calls_ledger hledger) fun _ => .bind (calls_handling ?_ fun x => ?_) fun _ => ?_
  · exact calls_fs ((spares_retireRecords _).mono hfs)
  · exact .bind (calls_restoreClient hprobe hstart) fun _ => trivial
  · exact .bind (calls_restoreClient hprobe hstart) fun _ =>
      Prog.Calls.ite (calls_ledger hledger) trivial

theorem calls_verdictOf {id : Nat} {operation : Row} {priorRunning : Bool}
    (hledger : ∀ c, D (.ledger c)) (hfs : ∀ c, FsCall.reads c = true → D (.fs c)) :
    (verdictOf id operation priorRunning).Calls D := by
  have hend : ∀ (s : OperationState) (detail : Option String) (report : ExecutionReport),
      (do ledger (Ledger.transition id s detail none none); return report :
        Body ExecutionReport ExecutionReport).Calls D :=
    fun s detail report => .bind (calls_ledger hledger) fun _ => trivial
  refine .bind (calls_fs (calls_manifestAppidAt (hfs _ rfl))) fun _ => Prog.Calls.ite (hend _ _ _) ?_
  refine .bind (calls_fs (calls_manifestStateFlagsAt (hfs _ rfl))) fun _ => ?_
  refine Prog.Calls.ite (.bind (calls_fs (.ask (hfs _ rfl) Prog.Calls.ofExcept)) fun _ => ?_) (hend _ _ _)
  exact Prog.Calls.ite (hend _ _ _) (Prog.Calls.ite (hend _ _ _) (hend _ _ _))

/-- The session calls of a launch. -/
theorem calls_checkLaunch {cfg : Config} {id : Nat} {operation : Row}
    (hgates : D (.session id .gates)) (hstart : D (.session id .startClient))
    (hpolicy : D (.dispatchPolicy operation)) (hledger : ∀ c, D (.ledger c)) :
    (checkLaunch cfg id operation).Calls D := by
  have hlapsed : ∀ report, (do let _ ← ledger Ledger.expireLapsed; finish report :
      Body ExecutionReport Unit).Calls D :=
    fun report => .bind (calls_ledger hledger) fun _ => trivial
  refine .bind (calls_ledger hledger) fun _ => Prog.Calls.ite ?_ (hlapsed _)
  refine .bind (calls_askRaise hgates) fun g => Prog.Calls.ite trivial (Prog.Calls.ite trivial ?_)
  refine .bind (Prog.Calls.ite trivial (calls_askRaise hstart)) fun started => Prog.Calls.ite trivial ?_
  refine .bind (calls_askRaise hgates) fun g => Prog.Calls.ite trivial (Prog.Calls.ite trivial ?_)
  refine .bind (calls_ledger hledger) fun _ => Prog.Calls.ite (Prog.Calls.ite (.ask hpolicy ?_) trivial)
    (hlapsed _)
  refine fun answer => .bind (calls_orRaise answer) fun denial => ?_
  cases denial with
  | none => trivial
  | some denial => exact .bind (calls_ledger hledger) fun _ => trivial

theorem calls_launch {cfg : Config} {id : Nat} {operation : Row}
    (hgates : D (.session id .gates)) (hstart : D (.session id .startClient))
    (hlaunch : D (.session id (.launchApp operation.appid)))
    (hpolicy : D (.dispatchPolicy operation)) (hledger : ∀ c, D (.ledger c)) :
    (launch cfg id operation).Calls D := by
  refine Prog.Calls.ite trivial (.bind (calls_checkLaunch hgates hstart hpolicy hledger) fun _ => ?_)
  refine .bind (calls_ledger hledger) fun _ => .bind (calls_askRaise hlaunch) fun _ => ?_
  exact Prog.Calls.ite (.bind (calls_ledger hledger) fun _ => trivial)
    (.bind (calls_ledger hledger) fun _ => trivial)

theorem calls_looksAtGate {id : Nat} {operation : Row} {force : Bool} {n : Nat}
    (hledger : ∀ c, D (.ledger c)) (hload : D .loadPolicy) :
    (looksAtGate id operation force n).Calls D := by
  induction n with
  | zero => trivial
  | succ n ih =>
    have hgate : (dispatchGate id operation force).Calls D := by
      refine .ask hload fun policy => .bind (calls_orRaise policy) fun policy => ?_
      exact Prog.Calls.ite (calls_ledger hledger) trivial
    refine .bind (.bind hgate.attempt ?_) fun _ => .bind ih fun _ => trivial
    rintro ((report | x) | permitted)
    · trivial
    · exact Prog.Calls.ite trivial trivial
    · trivial

theorem calls_checkStop {id : Nat} {operation : Row} (hledger : ∀ c, D (.ledger c))
    (hload : D .loadPolicy) (hobserve : D (.observe operation.appid)) :
    (checkStop id operation).Calls D := by
  have hlapsed : ∀ report, (do let _ ← ledger Ledger.expireLapsed; finish report :
      Body ExecutionReport Bool).Calls D :=
    fun report => .bind (calls_ledger hledger) fun _ => trivial
  refine .bind (calls_ledger hledger) fun _ => Prog.Calls.ite ?_ (hlapsed _)
  refine .bind (calls_ledger hledger) fun plan => ?_
  split
  · refine .bind (calls_askRaise hobserve) fun _ => Prog.Calls.ite trivial ?_
    refine .bind (calls_handling (.ask hload fun a => calls_orRaise a) fun _ => trivial) ?_
    refine fun policy => Prog.Calls.ite (.bind (calls_ledger hledger) fun _ => trivial) ?_
    exact .bind (calls_ledger hledger) fun _ => Prog.Calls.ite trivial (hlapsed _)
  · trivial

theorem calls_stopGame {id : Nat} {operation : Row} (hledger : ∀ c, D (.ledger c))
    (hload : D .loadPolicy) (hobserve : D (.observe operation.appid))
    (hstop : ∀ force, D (.stopApp id operation.appid force))
    (hresult : ∀ permitted, D (.stopResult permitted)) : (stopGame id operation).Calls D := by
  refine Prog.Calls.ite trivial (.bind (calls_checkStop hledger hload hobserve) fun force => ?_)
  refine .bind (calls_ledger hledger) fun _ => .bind (.ask (hstop force) fun looks => ?_)
    fun result => ?_
  · refine .bind (calls_orRaise looks) fun n => .bind (calls_looksAtGate hledger hload) ?_
    exact fun permitted => .ask (hresult permitted) fun result => calls_orRaise result
  · exact Prog.Calls.ite (.bind (calls_ledger hledger) fun _ => trivial)
      (.bind (calls_ledger hledger) fun _ => trivial)

/-! ## Recovery -/

variable {operation : Row}

theorem calls_restoreOrLeave (hprobe : D (.session operation.operationId .steamcmdRunning))
    (hstart : D (.session operation.operationId .startClient)) :
    (restoreOrLeave operation).Calls D :=
  .bind (calls_restoreClient hprobe hstart) fun _ => Prog.Calls.ite trivial trivial

theorem leaves_restoreAndLeave {text : String}
    (hprobe : D (.session operation.operationId .steamcmdRunning))
    (hstart : D (.session operation.operationId .startClient)) :
    (restoreAndLeave (α := α) operation text).Leaves D :=
  .bind (calls_restoreClient hprobe hstart) fun _ => leaves_ite trivial trivial

/-- Restore, change the state, and report. -/
theorem calls_restoreAndMove {toState : OperationState} {detail : Option String}
    {actions : List String} (hprobe : D (.session operation.operationId .steamcmdRunning))
    (hstart : D (.session operation.operationId .startClient)) (hledger : ∀ c, D (.ledger c)) :
    (do
      restoreOrLeave operation
      ledger (Ledger.transition operation.operationId toState detail none none)
      return actions : Body (List String) (List String)).Calls D :=
  .bind (calls_restoreOrLeave hprobe hstart) fun _ => .bind (calls_ledger hledger) fun _ => trivial

theorem calls_recoverContent (hprobe : D (.session operation.operationId .steamcmdRunning))
    (hstart : D (.session operation.operationId .startClient)) (hledger : ∀ c, D (.ledger c)) :
    (recoverContent operation).Calls D := by
  refine .bind (calls_askRaise hprobe) fun _ => Prog.Calls.ite trivial ?_
  refine .bind (calls_ledger hledger) fun _ => Prog.Calls.ite ?_
    (calls_restoreAndMove hprobe hstart hledger)
  exact .bind (calls_ledger hledger) fun _ => trivial

theorem calls_recoverInterrupted (hprobe : D (.session operation.operationId .steamcmdRunning))
    (hstart : D (.session operation.operationId .startClient)) (hledger : ∀ c, D (.ledger c)) :
    (recoverInterrupted operation).Calls D :=
  .bind (calls_ledger hledger) fun _ =>
    Prog.Calls.ite trivial (calls_restoreAndMove hprobe hstart hledger)

theorem calls_retireAndRestore (hprobe : D (.session operation.operationId .steamcmdRunning))
    (hstart : D (.session operation.operationId .startClient))
    (hfs : ∀ c, FsCall.writesManifest c = false → D (.fs c)) :
    (retireAndRestore operation).Calls D :=
  .bind (calls_handling (calls_fs ((spares_retireRecords _).mono hfs)) fun _ =>
    (leaves_restoreAndLeave hprobe hstart).calls) fun _ => calls_restoreOrLeave hprobe hstart

theorem calls_recoverVerdict {what : String} (hledger : ∀ c, D (.ledger c))
    (hfs : ∀ c, FsCall.writesManifest c = false → D (.fs c)) :
    (recoverVerdict operation what).Calls D :=
  .bind (calls_fs ((spares_verifiedOutcome _ _).mono hfs)) fun _ =>
    .bind (calls_ledger hledger) fun _ => trivial

theorem calls_recoverAdopted (hprobe : D (.session operation.operationId .steamcmdRunning))
    (hstart : D (.session operation.operationId .startClient)) (hledger : ∀ c, D (.ledger c))
    (hfs : ∀ c, FsCall.writesManifest c = false → D (.fs c)) :
    (recoverAdopted operation).Calls D := by
  refine .bind (calls_retireAndRestore hprobe hstart hfs) fun _ => .bind ?_ fun _ =>
    calls_recoverVerdict hledger hfs
  exact Prog.Calls.ite trivial (calls_ledger hledger)

/-- A call that changes nothing writes no manifest. -/
theorem FsCall.writesManifest_of_reads {c : FsCall} (h : FsCall.reads c = true) :
    FsCall.writesManifest c = false := by
  cases c <;> first | rfl | simp [FsCall.reads] at h

end SteamAgent.Execution
