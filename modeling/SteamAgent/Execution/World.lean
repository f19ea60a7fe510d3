import SteamAgent.Execution.Executor.Broker
import SteamAgent.Execution.Ledger.Connections

/-!
# The world that the brokers share

The ledger, the execution lock, the files, the clock, and a record of what was
done to the Steam client and by steamcmd.

`Call.perform` gives the calls of a broker their meaning.  Sessions, steamcmd,
the policy and the callbacks answer anything.  A session call and steamcmd may
take time.  Steamcmd writes below its install target only.

Two parts of the world are records and nothing reads them: `effects`, newest
first, and `placed`, the operations whose adoption step has written the
manifest of the library.
-/

namespace SteamAgent.Execution

open Effects
open Content (Fs FsCall Loc)
open Ledger (LedgerWorld LedgerCall Stamp Row Txn)
open Sha256 (Bytes)

/-- What a broker did to the client or saw of steamcmd. -/
inductive Effect where
  /-- A `stop_client` call for an operation, whatever it answered. -/
  | stopped (id : Nat)
  /-- A `start_client` call that answered `True`. -/
  | started
  /-- A call of the content adapter for an operation. -/
  | content (id : Nat)
  /-- A `steamcmd_running` probe.  It is clear if it answered `False`. -/
  | probe (clear : Bool)
deriving DecidableEq, Repr

structure World where
  ledger : LedgerWorld
  /-- The process that holds the execution lock. -/
  lock : Option Nat
  effects : List Effect
  fs : Fs
  placed : List Nat
  clock : Stamp

namespace World

/-- The rows of the ledger. -/
def rows (w : World) : List Row :=
  w.ledger.db.operations

end World

/-! ## The meaning of the calls -/

/-- The record of a session call. -/
def SessionCall.effect (id : Nat) : (c : SessionCall) → c.Ans → Option Effect
  | .stopClient, _ => some (.stopped id)
  | .startClient, .ok true => some .started
  | .steamcmdRunning, .ok false => some (.probe true)
  | .steamcmdRunning, _ => some (.probe false)
  | _, _ => none

/-- Below an install target. -/
def inTarget : Loc → Bool
  | .target _ => true
  | .nested .. => true
  | _ => false

/-- Steamcmd writes below an install target only. -/
structure WritesBelow (f f' : Fs) : Prop where
  identity : f'.identity = f.identity
  files : ∀ l, inTarget l = false → f'.files l = f.files l
  records : f'.records = f.records

/-- The clock answers the time. -/
def readsClock (now : Stamp) : (c : LedgerCall) → c.Ans → Prop
  | .utcnow, a => a = now
  | _, _ => True

/-- A filesystem call in `adopt_manifest`: a write of the manifest that lands
is recorded. -/
def adoptPerform (id : Nat) (w : World) (c : FsCall) (a : c.Ans) (w' : World) : Prop :=
  match c with
  | .durableWrite (.manifest appid) data =>
    w' = { w with fs := w.fs.put (.manifest appid) data, placed := id :: w.placed } ∨
      (∃ x, a = .error x) ∧ w' = w
  | c => ∃ f, FsCall.perform w.fs c a f ∧ w' = { w with fs := f }

/-- What a call of process `i` may answer and change. -/
def Call.perform (i : Nat) (w : World) : (c : Call) → Call.Ans c → World → Prop
  | .ledger c, a, w' =>
    ∃ v, LedgerCall.perform i w.ledger c a v ∧ readsClock w.clock c a ∧ w' = { w with ledger := v }
  | .fs c, a, w' => ∃ f, FsCall.perform w.fs c a f ∧ w' = { w with fs := f }
  | .adopt id c, a, w' => adoptPerform id w c a w'
  | .recover _ c, a, w' => ∃ f, FsCall.perform w.fs c a f ∧ w' = { w with fs := f }
  | .session id c, a, w' =>
    ∃ now, w.clock ≤ now ∧
      w' = { w with effects := (c.effect id a).toList ++ w.effects, clock := now }
  | .content id _, _, w' =>
    ∃ f now, WritesBelow w.fs f ∧ w.clock ≤ now ∧
      w' = { w with effects := .content id :: w.effects, fs := f, clock := now }
  | .acquireLock, a, w' =>
    a = .ok () ∧ w.lock = none ∧ w' = { w with lock := some i } ∨ (∃ x, a = .error x) ∧ w' = w
  | .releaseLock, _, w' => w' = { w with lock := none }
  | _, _, w' => w' = w

/-! ## Other connections -/

/-- Whether a block is the compare-and-set of `transition`. -/
def Ledger.Txn.isUpdate : Txn → Bool
  | .update .. => true
  | _ => false

/-- What the rest of the program does to the ledger in one step: it mints a
nonce, or commits a block of `_migrate`, `request`, `confirm` or
`expire_lapsed`. -/
inductive OtherConnection (v : LedgerWorld) : LedgerWorld → Prop
  | mint (j : Nat) (nonce : String) (h : nonce ∉ v.minted.map Prod.fst) :
    OtherConnection v { v with minted := (nonce, j) :: v.minted }
  | block (j : Nat) (t : Txn) (hu : t.isUpdate = false) (hl : t.Legal j v) :
    OtherConnection v { v with db := (t.run v.db).2 }

/-! ## Surroundings that oblige -/

/-- What the surroundings of a run answer where nothing in the world decides. -/
structure Weather where
  /-- Whether the client runs until the broker first stops it. -/
  clientUp : Bool
  denial : Option String
  policy : ExecutionPolicy
  /-- What steamcmd writes below a target: the location and the content. -/
  download : Loc × Bytes
  /-- How long a session call takes. -/
  pace : Nat

/-- Whether the client runs. -/
def World.clientRunning (s : Weather) (w : World) : Bool :=
  match w.effects.find? fun e => match e with
    | .stopped _ => true
    | .started => true
    | _ => false
  with
  | some .started => true
  | some _ => false
  | none => s.clientUp

/-- The gates of an idle machine. -/
def World.idleGates (s : Weather) (w : World) : LeaseGates :=
  ⟨.pass, .pass, .pass, if w.clientRunning s then .fail else .pass⟩

/-- What the session answers. -/
def sessionAnswers (s : Weather) (w : World) : (c : SessionCall) → c.Ans
  | .gates => .ok (w.idleGates s)
  | .clientPossiblyRunning => .ok (w.clientRunning s)
  | .steamcmdRunning => .ok false
  | .stopClient => .ok true
  | .startClient => .ok true
  | .launchApp _ => .ok true

/-- What steamcmd answers. -/
def contentAnswers : (c : ContentCall) → c.Ans
  | .prepare => .ok "log"
  | .spawn .. => .ok 0
  | .wait => .exited
  | .terminate => .ok ()
  | .finish => .ok ⟨some 0, false, true⟩
  | .writeLog _ => .ok ()

/-- The files after a call of the content adapter. -/
def Weather.filesAfter (s : Weather) (f : Fs) (c : ContentCall) : Fs :=
  if c = .finish ∧ inTarget s.download.1 = true then f.put s.download.1 s.download.2 else f

/-- The world after a filesystem call in `adopt_manifest` that succeeds. -/
def adoptAnswers (id : Nat) (w : World) : (c : FsCall) → c.Ans × World
  | .durableWrite (.manifest appid) data =>
    (.ok (), { w with fs := w.fs.put (.manifest appid) data, placed := id :: w.placed })
  | c => ((Content.fsAnswers w.fs c).1, { w with fs := (Content.fsAnswers w.fs c).2 })

/-- A world in which every call of process `i` succeeds. -/
def worldAnswers (i : Nat) (s : Weather) : Oracle BrokerSig World
  | w, .ledger c =>
    let r := Ledger.answers i w.clock w.ledger c
    (r.1, { w with ledger := r.2 })
  | w, .fs c =>
    let r := Content.fsAnswers w.fs c
    (r.1, { w with fs := r.2 })
  | w, .recover _ c =>
    let r := Content.fsAnswers w.fs c
    (r.1, { w with fs := r.2 })
  | w, .adopt id c => adoptAnswers id w c
  | w, .session id c =>
    (sessionAnswers s w c,
      { w with
        effects := (c.effect id (sessionAnswers s w c)).toList ++ w.effects
        clock := w.clock + s.pace })
  | w, .content id c =>
    (contentAnswers c, { w with effects := .content id :: w.effects, fs := s.filesAfter w.fs c })
  | w, .dispatchPolicy _ => (.ok s.denial, w)
  | w, .accountLogin name => (.ok (some name), w)
  | w, .observe _ => (.ok ⟨false, 1⟩, w)
  | w, .stopApp .. => (.ok 1, w)
  | w, .stopResult _ => (.ok ⟨"stopped", "ok", 1⟩, w)
  | w, .loadPolicy => (.ok s.policy, w)
  | w, .acquireLock =>
    if w.lock = none then (.ok (), { w with lock := some i })
    else (.error (.executorLocked "another broker process is executing"), w)
  | w, .releaseLock => ((), { w with lock := none })

theorem writesBelow_filesAfter (s : Weather) (f : Fs) (c : ContentCall) :
    WritesBelow f (s.filesAfter f c) := by
  unfold Weather.filesAfter
  split
  · rename_i h
    refine ⟨rfl, fun l hl => if_neg fun heq => ?_, rfl⟩
    rw [heq, h.2] at hl
    simp at hl
  · exact ⟨rfl, fun _ _ => rfl, rfl⟩

theorem adoptPerform_adoptAnswers (id : Nat) (w : World) (c : FsCall) :
    adoptPerform id w c (adoptAnswers id w c).1 (adoptAnswers id w c).2 := by
  unfold adoptAnswers
  split
  · exact Or.inl rfl
  · rename_i hc
    unfold adoptPerform
    split
    · rename_i appid data
      exact absurd rfl (hc appid data)
    · exact ⟨_, Content.perform_fsAnswers w.fs _, rfl⟩

theorem perform_worldAnswers (i : Nat) (s : Weather) (w : World) (c : Call) :
    Call.perform i w c (worldAnswers i s w c).1 (worldAnswers i s w c).2 := by
  cases c with
  | ledger c =>
    refine ⟨_, Ledger.perform_answers i w.clock w.ledger c, ?_, rfl⟩
    cases c with
    | utcnow => exact rfl
    | _ => exact trivial
  | fs c => exact ⟨_, Content.perform_fsAnswers w.fs c, rfl⟩
  | recover id c => exact ⟨_, Content.perform_fsAnswers w.fs c, rfl⟩
  | adopt id c => exact adoptPerform_adoptAnswers id w c
  | session id c => exact ⟨w.clock + s.pace, Int.le_add_of_nonneg_right (Int.natCast_nonneg _), rfl⟩
  | content id c => exact ⟨_, w.clock, writesBelow_filesAfter s w.fs c, Int.le_refl _, rfl⟩
  | acquireLock =>
    rw [worldAnswers]
    split
    · exact Or.inl ⟨rfl, ‹_›, rfl⟩
    · exact Or.inr ⟨⟨_, rfl⟩, rfl⟩
  | _ => exact rfl

/-! ## A ready machine -/

/-- A broker on Linux with a policy callback. -/
def linuxBroker : Config where
  platform := .linux
  paths := ⟨"/lib", "/journal"⟩
  hasContent := true
  hasAccountLogin := false
  hasDispatchPolicy := true
  casefold := id

/-- The client runs, the owner permits, and steamcmd installs the app 620. -/
def fairWeather : Weather where
  clientUp := true
  denial := none
  policy := ⟨[(.install, "allow")], [], [], false⟩
  download := (.nested "app_620" 620,
    Text.encode "\"appid\" \"620\" \"StateFlags\" \"4\" \"installdir\" \"x\"".toList)
  pace := 1

/-- An authorized install of the app 620. -/
def authorizedPortal : Row :=
  { Ledger.portal.row .install 1 "0" 1600 with
    state := .authorized, nonce := none, nonceExpiresAt := none
    confirmationActor := some "owner", executionWindowExpiresAt := some 1900 }

/-- An idle machine with one authorized operation. -/
def readyWorld : World where
  ledger := ⟨⟨true, [authorizedPortal],
    [⟨1, none, .pendingConfirmation, none⟩,
      ⟨1, some .pendingConfirmation, .authorized, some "owner"⟩],
    some Ledger.terminalStates, true⟩, []⟩
  lock := none
  effects := []
  fs := ⟨some ⟨1, 2⟩, fun _ => none, fun _ => none⟩
  placed := []
  clock := 1000

end SteamAgent.Execution
