import SteamAgent.Effects.System
import SteamAgent.Execution.Runtime.Observe

/-!
# The stop of an app

`RuntimeObserver.stop_app` and `_windows_close`: exit requests to the processes
of an app, each after a fresh read and a look at the gate, and a wait until a
scan finds none.

The wait is unbounded.  `stopApp` takes a number of scans after which the wait
is interrupted, so every result of the source is one for some number.

There are five groups.

* The stop: one target, all targets, the wait.
* The moves of a run: which are in order, which issued a request, and what the
  last scan found.
* One lemma for each part, up to `stopApp_safe`.
* The windows of one process, in the same way.
* The result for every run.
-/

namespace SteamAgent.Execution.Runtime

open Effects

/-! ## The stop -/

inductive StopState where
  | stopped
  | absent
  | deferred
  | unknown
deriving DecidableEq, Repr

structure StopResult where
  state : StopState
  reasonCode : String
  processCount : Nat
  force : Bool
  requestedCount : Nat
deriving DecidableEq, Repr

/-- The arguments of `stop_app` and of its observer.  `gated` says whether there
is a `before_request`. -/
structure StopRequest where
  casefold : String → String
  platform : String
  appid : Int
  force : Bool
  timeout : Int
  gated : Bool

/-- `_check_stop_dispatch_gate`. -/
def checkStopDispatchGate (gated : Bool) : StopProg Unit :=
  if !gated then return ()
  else do
    match ← Prog.ask (S := StopSig) .gate with
    | .ok true => return ()
    | .ok false => .raise (.stopRequest .gateDenied false none)
    | .error (.interrupt className) => .raise (.interrupt className)
    | .error _ => .raise (.stopRequest .gateUnreadable false none)

/-- How the attempt on a target ends when nothing is raised. -/
inductive TargetEnd where
  /-- The process is gone. -/
  | skipped
  /-- The process is another one now. -/
  | changed
  | answered (requested : Bool)
deriving DecidableEq, Repr

/-- Whether a record is the target, and still belongs to the app. -/
def StopRequest.admits (q : StopRequest) (target : ObservedProcess) (current : ProcessRecord) :
    Bool :=
  let attributed := attribution q.casefold current
  current.createTime == target.createTime && !attributed.invalid &&
    attributed.appid == some q.appid

/-- The body of the `try` for one target. -/
def stopTarget (q : StopRequest) (target : ObservedProcess) : StopProg TargetEnd := do
  match ← read target.pid with
  | none => return .skipped
  | some current =>
    if !q.admits target current then return .changed
    else
      checkStopDispatchGate q.gated
      return .answered (← requestStop current q.force)

/-- The loop over the targets.  It ends with a result, or with the number of
requests. -/
def stopTargets (q : StopRequest) (count : Nat) :
    List ObservedProcess → Nat → StopProg (StopResult ⊕ Nat)
  | [], requested => return .inr requested
  | target :: targets, requested => do
    match ← (stopTarget q target).attempt with
    | .ok .skipped => stopTargets q count targets requested
    | .ok .changed =>
      return .inl ⟨.deferred, "process_identity_changed", count, q.force, requested⟩
    | .ok (.answered issued) => stopTargets q count targets (requested + issued.toNat)
    | .error (.stopRequest reason issued _) =>
      return .inl ⟨if reason = .gateDenied then .deferred else .unknown, reason.text, count,
        q.force, requested + issued.toNat⟩
    | .error .probe => return .inl ⟨.unknown, "stop_probe_failed", count, q.force, requested⟩
    | .error x => .raise x

/-- The loop of the wait.  After `scans` scans it is interrupted. -/
def confirmStop (q : StopRequest) (count requested : Nat) (deadline : Int) :
    Nat → StopProg StopResult
  | 0 => .raise (.interrupt "KeyboardInterrupt")
  | scans + 1 => do
    let after ← observe q.casefold q.platform (some q.appid)
    match after.state with
    | .absent => return ⟨.stopped, "attributed_processes_exited", count, q.force, requested⟩
    | .unknown => return ⟨.unknown, "stop_confirmation_unknown", count, q.force, requested⟩
    | .observed =>
      if requested = 0 then
        return ⟨.deferred, "close_request_unavailable", count, q.force, requested⟩
      else
        let now ← monotonic
        if now ≥ deadline then
          return ⟨.deferred, "stop_timeout", count, q.force, requested⟩
        else
          let now ← monotonic
          sleep (min 100000 (max 0 (deadline - now)))
          confirmStop q count requested deadline scans

/-- `stop_app` from the end of the loop over its targets. -/
def awaitStop (q : StopRequest) (scans count : Nat) : StopResult ⊕ Nat → StopProg StopResult
  | .inl result => return result
  | .inr requested => do
    let now ← monotonic
    confirmStop q count requested (now + q.timeout) scans

/-- `stop_app`. -/
def stopApp (q : StopRequest) (scans : Nat) : StopProg StopResult :=
  if ¬(0 < q.appid ∧ q.appid ≤ maxAppid) ∨ q.timeout < 0 then .raise (.exception "ValueError")
  else do
    let found ← observe q.casefold q.platform (some q.appid)
    let count := found.processes.length
    if found.state = .unknown ∧ found.processes = [] then
      return ⟨.unknown, "runtime_observation_unknown", count, q.force, 0⟩
    else if found.state = .absent then
      return ⟨.absent, "no_attributed_process", 0, q.force, 0⟩
    else
      stopTargets q count found.processes 0 >>= awaitStop q scans count

/-! ## The windows of one process -/

/-- The windows that belong to the process. -/
def ownedWindows (pid : Int) : List Nat → StopProg (List Nat)
  | [] => return []
  | window :: windows => do
    let found ← owner window
    let owned ← ownedWindows pid windows
    return if found = pid then window :: owned else owned

/-- The body of the `try` for one window. -/
def closeWindow (pid : Int) (gated : Bool) (window : Nat) : StopProg Unit := do
  if !(← Prog.ask (S := StopSig) .identityCheck >>= Prog.ofExcept) then
    .raise (.stopRequest .probeFailed false (some .processIdentityChanged))
  else if (← owner window) ≠ pid then
    .raise (.stopRequest .probeFailed false (some .windowIdentityChanged))
  else
    checkStopDispatchGate gated
    if !(← Prog.ask (S := StopSig) (.close window) >>= Prog.ofExcept) then
      .raise (.stopRequest .probeFailed false (some .windowCloseFailed))
    else return ()

/-- The loop over the windows.  `isOSError` says whether a class is `OSError`
or a subclass of it. -/
def closeWindows (isOSError : String → Bool) (pid : Int) (gated : Bool) :
    List Nat → Bool → StopProg Bool
  | [], requested => return requested
  | window :: windows, requested => do
    match ← (closeWindow pid gated window).attempt with
    | .ok () => closeWindows isOSError pid gated windows true
    | .error (.stopRequest reason issued probeReason) =>
      .raise (.stopRequest reason (requested || issued) probeReason)
    | .error .probe => .raise (.stopRequest .probeFailed requested none)
    | .error (.exception className) =>
      if isOSError className then .raise (.stopRequest .probeFailed requested none)
      else .raise (.exception className)
    | .error (.interrupt className) => .raise (.interrupt className)

/-- `_windows_close`. -/
def windowsClose (isOSError : String → Bool) (pid : Int) (gated : Bool) : StopProg Bool := do
  let windows ← Prog.ask (S := StopSig) .windows >>= Prog.ofExcept
  let targets ← ownedWindows pid windows
  if targets = [] then return false else closeWindows isOSError pid gated targets false

/-! ## The moves of a run -/

/-- A call of `stop_app` with its answer. -/
abbrev StopMove :=
  Move StopSig Unit

/-- Nothing was raised, and no gate, identity check or close answered `False`. -/
def StopMove.inOrder : StopMove → Bool
  | ⟨_, .scan, .ok _, _⟩ => true
  | ⟨_, .read _, .ok _, _⟩ => true
  | ⟨_, .gate, .ok permitted, _⟩ => permitted
  | ⟨_, .requestStop _ _, .ok _, _⟩ => true
  | ⟨_, .monotonic, .ok _, _⟩ => true
  | ⟨_, .sleep _, .ok _, _⟩ => true
  | ⟨_, .windows, .ok _, _⟩ => true
  | ⟨_, .owner _, .ok _, _⟩ => true
  | ⟨_, .identityCheck, .ok same, _⟩ => same
  | ⟨_, .close _, .ok posted, _⟩ => posted
  | _ => false

/-- What an exception says about the request. -/
def Failure.requested : Failure → Bool
  | stopRequest _ requested _ => requested
  | _ => false

/-- An exit request was issued, by the answer of the backend or by the flag of a
`StopRequestError`. -/
def StopMove.issued : StopMove → Bool
  | ⟨_, .requestStop _ _, .ok requested, _⟩ => requested
  | ⟨_, .requestStop _ _, .error x, _⟩ => x.requested
  | ⟨_, .read _, .error x, _⟩ => x.requested
  | ⟨_, .close _, .ok requested, _⟩ => requested
  | ⟨_, .close _, .error x, _⟩ => x.requested
  | ⟨_, .owner _, .error x, _⟩ => x.requested
  | ⟨_, .identityCheck, .error x, _⟩ => x.requested
  | ⟨_, .windows, .error x, _⟩ => x.requested
  | _ => false

/-- A scan came back. -/
def StopMove.found : StopMove → Option ProcessScan
  | ⟨_, .scan, .ok found, _⟩ => some found
  | _ => none

/-- The read of a record. -/
def StopMove.Reads (m : StopMove) (pid : Int) (record : ProcessRecord) : Prop :=
  m = ⟨(), .read pid, .ok (some record), ()⟩

/-- The number of targets for which an exit request was issued. -/
def issuedCount (l : List StopMove) : Nat :=
  l.countP StopMove.issued

/-- A scanned process of the app: its identity is the one of the target. -/
def Scanned (q : StopRequest) (l : List StopMove) (target : ObservedProcess) : Prop :=
  ∃ m ∈ l, ∃ found, m.found = some found ∧ ∃ process ∈ found.processes,
    process.pid = target.pid ∧ process.createTime = target.createTime ∧
      (attribution q.casefold process).appid = some q.appid

/-- Moves at the gate, at least one where there is a gate. -/
def Asked (gated : Bool) (gates : List StopMove) : Prop :=
  (∀ g ∈ gates, g.call = .gate) ∧ (gated = true → gates ≠ [])

/-- A request to a record is admissible after the moves `l`: all of them were in
order, the record was read after the scan of its target with nothing but the
gate since, and it is the target with a valid attribution to the app. -/
def Admissible (q : StopRequest) (l : List StopMove) (record : ProcessRecord) : Prop :=
  (∀ m ∈ l, m.inOrder = true) ∧
    ∃ gates m earlier target, l = gates ++ m :: earlier ∧ Asked q.gated gates ∧
      m.Reads target.pid record ∧ Scanned q earlier target ∧
      record.createTime = target.createTime ∧
      (attribution q.casefold record).invalid = false ∧
      (attribution q.casefold record).appid = some q.appid

/-- The last scan had no reason codes and no process of the app. -/
def LastScanClear (q : StopRequest) (l : List StopMove) : Prop :=
  ∃ found, l.findSome? StopMove.found = some found ∧ found.reasonCodes = [] ∧
    ∀ process ∈ found.processes, (attribution q.casefold process).appid ≠ some q.appid

/-- What a result says about the moves that led to it. -/
def Accounts (q : StopRequest) (result : StopResult) (l : List StopMove) : Prop :=
  result.requestedCount = issuedCount l ∧
    (result.state = .stopped ∨ result.state = .absent → LastScanClear q l)

/-- The calls that `stop_app` may make after the moves `l`. -/
def StopRequest.Allows (q : StopRequest) (l : List StopMove) (c : StopCall) : Prop :=
  ∀ process force, c = .requestStop process force → Admissible q l process

/-- A window may be closed after the moves `l`: all of them were in order, and
the last ones are an identity check, the owner of the window and the gate. -/
def Closable (pid : Int) (gated : Bool) (l : List StopMove) (window : Nat) : Prop :=
  (∀ m ∈ l, m.inOrder = true) ∧
    ∃ gates earlier, l = gates ++ ⟨(), .owner window, .ok pid, ()⟩ ::
      ⟨(), .identityCheck, .ok true, ()⟩ :: earlier ∧ Asked gated gates

/-- The calls that `_windows_close` may make after the moves `l`. -/
def AllowsClose (pid : Int) (gated : Bool) (l : List StopMove) (c : StopCall) : Prop :=
  ∀ window, c = .close window → Closable pid gated l window

/-- What an exception of `_windows_close` says about the requests: also an
`OSError` comes before the first of them. -/
def RaiseAccounts (isOSError : String → Bool) : Failure → List StopMove → Prop
  | .exception className, l => isOSError className = true → l.any StopMove.issued = false
  | .interrupt _, _ => True
  | x, l => l.any StopMove.issued = x.requested

/-- Any answers, and only allowed calls. -/
def stopRules (allows : List StopMove → StopCall → Prop) : Rules StopSig Unit where
  perform _ _ _ _ := True
  rely _ _ := True
  guar l m := allows l m.call
  rely_refl _ := trivial
  rely_trans _ _ := trivial

/-- `Safe` without states. -/
def Stops (allows : List StopMove → StopCall → Prop) {α : Type} (Q : α → List StopMove → Prop)
    (X : Failure → List StopMove → Prop) (p : StopProg α) (l : List StopMove) : Prop :=
  Safe (stopRules allows) (fun a l _ => Q a l) (fun x l _ => X x l) p l ()

namespace Stops

variable {allows : List StopMove → StopCall → Prop} {q : StopRequest} {α β : Type}
  {Q : α → List StopMove → Prop} {X : Failure → List StopMove → Prop} {l : List StopMove}

theorem ret {a : α} (h : Q a l) : Stops allows Q X (.ret a) l :=
  fun _ _ => h

theorem raise {x : Failure} (h : X x l) : Stops allows Q X (.raise x : StopProg α) l :=
  fun _ _ => h

theorem seq {R : β → List StopMove → Prop} {p : StopProg β} {f : β → StopProg α}
    (h : Stops allows R X p l) (hf : ∀ b l, R b l → Stops allows Q X (f b) l) : Stops allows Q X (p >>= f) l :=
  Safe.seq h fun b l _ hb => hf b l hb

/-- A handler, by the way the handled program ends. -/
theorem handler {R : β → List StopMove → Prop} {Y : Failure → List StopMove → Prop}
    {p : StopProg β} {f : Except Failure β → StopProg α} (h : Stops allows R Y p l)
    (hok : ∀ b l, R b l → Stops allows Q X (f (.ok b)) l)
    (herror : ∀ x l, Y x l → Stops allows Q X (f (.error x)) l) :
    Stops allows Q X (p.attempt >>= f) l :=
  Safe.attempt_bind (Safe.mono (fun b l _ hb => hok b l hb) (fun x l _ hx => herror x l hx) h)

/-- Weaken the postconditions. -/
theorem mono {Q' : α → List StopMove → Prop} {X' : Failure → List StopMove → Prop}
    {p : StopProg α} (h : Stops allows Q' X' p l) (hQ : ∀ a l, Q' a l → Q a l)
    (hX : ∀ x l, X' x l → X x l) : Stops allows Q X p l :=
  Safe.mono (fun a l _ ha => hQ a l ha) (fun x l _ hx => hX x l hx) h

/-- An allowed call. -/
theorem ask {c : StopCall} {k : StopCall.Ans c → StopProg α} (hc : allows l c)
    (h : ∀ a, Stops allows Q X (k a) (⟨(), c, a, ()⟩ :: l)) :
    Stops allows Q X (Prog.ask (S := StopSig) c >>= k) l :=
  fun _ _ a _ _ => ⟨hc, h a⟩

theorem monotonic {Q : Int → List StopMove → Prop}
    (h : ∀ now, Q now (⟨(), .monotonic, .ok now, ()⟩ :: l))
    (hx : ∀ x, X x (⟨(), .monotonic, .error x, ()⟩ :: l)) : Stops q.Allows Q X monotonic l := by
  refine ask (fun _ _ heq => nomatch heq) fun a => ?_
  cases a with
  | ok now => exact ret (h now)
  | error x => exact raise (hx x)

theorem sleep {duration : Int} {Q : Unit → List StopMove → Prop}
    (h : Q () (⟨(), .sleep duration, .ok (), ()⟩ :: l))
    (hx : ∀ x, X x (⟨(), .sleep duration, .error x, ()⟩ :: l)) :
    Stops q.Allows Q X (sleep duration) l := by
  refine ask (fun _ _ heq => nomatch heq) fun a => ?_
  cases a with
  | ok u => exact ret h
  | error x => exact raise (hx x)

theorem read {pid : Int} {Q : Option ProcessRecord → List StopMove → Prop}
    (h : ∀ record, Q record (⟨(), .read pid, .ok record, ()⟩ :: l))
    (hx : ∀ x, X x (⟨(), .read pid, .error x, ()⟩ :: l)) : Stops q.Allows Q X (read pid) l := by
  refine ask (fun _ _ heq => nomatch heq) fun a => ?_
  cases a with
  | ok record => exact ret (h record)
  | error x => exact raise (hx x)

/-- A request needs to be admissible. -/
theorem requestStop {process : ProcessRecord} {force : Bool} {Q : Bool → List StopMove → Prop}
    (hadmissible : Admissible q l process)
    (h : ∀ requested, Q requested (⟨(), .requestStop process force, .ok requested, ()⟩ :: l))
    (hx : ∀ x, X x (⟨(), .requestStop process force, .error x, ()⟩ :: l)) :
    Stops q.Allows Q X (requestStop process force) l := by
  refine ask (fun process' force' heq => ?_) fun a => ?_
  · cases heq
    exact hadmissible
  · cases a with
    | ok requested => exact ret (h requested)
    | error x => exact raise (hx x)

/-- An observation without a scan that came back is unknown. -/
theorem observe {Q : RuntimeObservation → List StopMove → Prop}
    (hunsupported : ∀ reasons, Q ⟨.unknown, [], reasons⟩ l)
    (hfailed : ∀ x reasons, Q ⟨.unknown, [], reasons⟩ (⟨(), .scan, .error x, ()⟩ :: l))
    (hfound : ∀ found, Q (observation q.casefold (some q.appid) found)
      (⟨(), .scan, .ok found, ()⟩ :: l))
    (hx : ∀ x, X x (⟨(), .scan, .error x, ()⟩ :: l)) :
    Stops q.Allows Q X (observe q.casefold q.platform (some q.appid)) l := by
  unfold Runtime.observe
  split
  · exact ret (hunsupported _)
  · have hscan : Stops q.Allows (fun found l' => l' = ⟨(), .scan, .ok found, ()⟩ :: l)
        (fun x l' => l' = ⟨(), .scan, .error x, ()⟩ :: l) scan l := by
      refine ask (fun _ _ heq => nomatch heq) fun a => ?_
      cases a with
      | ok found => exact ret rfl
      | error x => exact raise rfl
    refine handler hscan (fun found l' hl' => ?_) fun x l' hl' => ?_
    · subst hl'
      exact ret (hfound found)
    · subst hl'
      show Stops q.Allows Q X (if x.isProbe then _ else _) _
      split
      · exact ret (hfailed x _)
      · exact raise (hx x)

end Stops

/-! ### The count of requests -/

variable {q : StopRequest} {l : List StopMove}

/-- Every move was in order, and that many requests were issued. -/
structure InOrder (l : List StopMove) (requested : Nat) : Prop where
  moves : ∀ m ∈ l, m.inOrder = true
  issued : issuedCount l = requested

theorem issuedCount_cons (m : StopMove) (l : List StopMove) :
    issuedCount (m :: l) = issuedCount l + m.issued.toNat := by
  rw [issuedCount, List.countP_cons, issuedCount]
  cases m.issued <;> rfl

theorem InOrder.cons {requested : Nat} (h : InOrder l requested) {m : StopMove}
    (hm : m.inOrder = true) : InOrder (m :: l) (requested + m.issued.toNat) where
  moves m' hm' := by
    rcases List.mem_cons.mp hm' with rfl | hm'
    · exact hm
    · exact h.moves m' hm'
  issued := by rw [issuedCount_cons, h.issued]

/-- A move more, whatever it was. -/
theorem InOrder.count {requested : Nat} (h : InOrder l requested) (m : StopMove) :
    issuedCount (m :: l) = requested + m.issued.toNat := by
  rw [issuedCount_cons, h.issued]

theorem InOrder.append {requested : Nat} (h : InOrder l requested) {gates : List StopMove}
    (hgates : ∀ g ∈ gates, g.inOrder = true ∧ g.issued = false) :
    InOrder (gates ++ l) requested := by
  induction gates with
  | nil => exact h
  | cons g gates ih =>
    have hrest := ih fun g' hg' => hgates g' (List.mem_cons_of_mem _ hg')
    obtain ⟨horder, hissued⟩ := hgates g List.mem_cons_self
    have hcons := hrest.cons horder
    rw [hissued] at hcons
    exact hcons

/-- More moves do not take a scanned process away. -/
theorem Scanned.later {target : ObservedProcess} (h : Scanned q l target) {l' : List StopMove}
    (hl : l <:+ l') : Scanned q l' target := by
  obtain ⟨m, hm, hfound⟩ := h
  exact ⟨m, hl.subset hm, hfound⟩

/-! ### The gate -/

/-- The gate: it answers `True`, or it raises and issued nothing. -/
theorem checkStopDispatchGate_safe (allows : List StopMove → StopCall → Prop)
    (hgate : allows l .gate) (gated : Bool) :
    Stops allows (fun _ l' => ∃ gates, l' = gates ++ l ∧ Asked gated gates ∧
        ∀ g ∈ gates, g.inOrder = true ∧ g.issued = false)
      (fun x l' => (∃ m, l' = m :: l ∧ m.issued = false) ∧ x.requested = false ∧ x ≠ .probe)
      (checkStopDispatchGate gated) l := by
  unfold checkStopDispatchGate
  split
  · rename_i hopen
    refine Stops.ret ⟨[], rfl, ⟨by simp, fun hgated => ?_⟩, by simp⟩
    simp [hgated] at hopen
  · refine Stops.ask hgate fun a => ?_
    cases a with
    | ok permitted =>
      cases permitted with
      | true =>
        refine Stops.ret ⟨[_], rfl, ⟨fun g hg => ?_, by simp⟩, fun g hg => ?_⟩
        · rw [List.mem_singleton.mp hg]
        · rw [List.mem_singleton.mp hg]
          exact ⟨rfl, rfl⟩
      | false => exact Stops.raise ⟨⟨_, rfl, rfl⟩, rfl, by simp⟩
    | error x =>
      cases x with
      | interrupt className => exact Stops.raise ⟨⟨_, rfl, rfl⟩, rfl, by simp⟩
      | probe => exact Stops.raise ⟨⟨_, rfl, rfl⟩, rfl, by simp⟩
      | stopRequest reason issued probeReason =>
        exact Stops.raise ⟨⟨_, rfl, rfl⟩, rfl, by simp⟩
      | exception className => exact Stops.raise ⟨⟨_, rfl, rfl⟩, rfl, by simp⟩

/-! ### One target -/

/-- How a target ends, on the number of requests before it. -/
def TargetPost (requested : Nat) : TargetEnd → List StopMove → Prop
  | .skipped, l => InOrder l requested
  | .changed, l => issuedCount l = requested
  | .answered issued, l => InOrder l (requested + issued.toNat)

/-- The count when the attempt on a target raises. -/
def TargetRaise (requested : Nat) (x : Failure) (l : List StopMove) : Prop :=
  issuedCount l = requested + x.requested.toNat

/-- A gate that raises leaves the count as it is. -/
theorem InOrder.targetRaise {requested : Nat} (h : InOrder l requested) (x : Failure)
    (l' : List StopMove) (hraised : (∃ m, l' = m :: l ∧ m.issued = false) ∧
      x.requested = false ∧ x ≠ .probe) : TargetRaise requested x l' := by
  obtain ⟨⟨m, rfl, hissued⟩, hx, -⟩ := hraised
  rw [TargetRaise, h.count, hissued, hx]

theorem stopTarget_safe {requested : Nat} {target : ObservedProcess} (h : InOrder l requested)
    (hscanned : Scanned q l target) :
    Stops q.Allows (fun ending l' => TargetPost requested ending l' ∧ l <:+ l') (TargetRaise requested)
      (stopTarget q target) l := by
  refine Stops.seq (R := fun record l' => l' = ⟨(), .read target.pid, .ok record, ()⟩ :: l)
    (Stops.read (fun _ => rfl) fun x => ?_) fun record l' hl' => ?_
  · exact h.count _
  · subst hl'
    have hread : InOrder (⟨(), .read target.pid, .ok record, ()⟩ :: l) requested := h.cons rfl
    have hsuffix : l <:+ (⟨(), .read target.pid, .ok record, ()⟩ :: l : List StopMove) :=
      List.suffix_cons _ _
    cases record with
    | none => exact Stops.ret ⟨hread, hsuffix⟩
    | some current =>
      show Stops q.Allows _ _ (if !q.admits target current then _ else _) _
      by_cases hadmits : q.admits target current = true
      · rw [if_neg (by simp [hadmits])]
        simp only [StopRequest.admits, Bool.and_eq_true, beq_iff_eq, Bool.not_eq_true'] at hadmits
        obtain ⟨⟨htime, hvalid⟩, happ⟩ := hadmits
        have hgate := (checkStopDispatchGate_safe q.Allows
          (fun _ _ heq => nomatch heq) q.gated).mono (fun _ l₁ hl₁ => hl₁) hread.targetRaise
        refine Stops.seq hgate fun _ l₁ hl₁ => ?_
        obtain ⟨gates, rfl, hasked, hgates⟩ := hl₁
        have horder := hread.append hgates
        refine Stops.seq (R := fun issued l₂ => TargetPost requested (.answered issued) l₂ ∧ l <:+ l₂)
          (Stops.requestStop ?_ (fun issued => ⟨horder.cons rfl, ?_⟩) fun x => ?_)
          fun issued l₂ hl₂ => Stops.ret hl₂
        · exact ⟨horder.moves, gates, _, l, target, rfl, hasked, rfl, hscanned, htime, hvalid, happ⟩
        · exact (hsuffix.trans (List.suffix_append _ _)).trans (List.suffix_cons _ _)
        · exact horder.count _
      · rw [if_pos (by simpa using hadmits)]
        exact Stops.ret ⟨hread.issued, hsuffix⟩

/-! ### All targets, and the wait -/

/-- How the loop over the targets ends. -/
def TargetsPost (q : StopRequest) : StopResult ⊕ Nat → List StopMove → Prop
  | .inl result, l => Accounts q result l
  | .inr requested, l => issuedCount l = requested

/-- A result that reports neither `stopped` nor `absent` has to count only. -/
theorem accounts_of_count {state : StopState} {reason : String} {count requested : Nat}
    {force : Bool} (h : issuedCount l = requested) (hstopped : state ≠ .stopped)
    (habsent : state ≠ .absent) : Accounts q ⟨state, reason, count, force, requested⟩ l :=
  ⟨h.symm, fun hstate => (hstate.elim hstopped habsent).elim⟩

theorem stopTargets_safe {count : Nat} (targets : List ObservedProcess) :
    ∀ {l : List StopMove} {requested : Nat}, InOrder l requested →
    (∀ target ∈ targets, Scanned q l target) →
    Stops q.Allows (TargetsPost q) (fun _ _ => True) (stopTargets q count targets requested) l := by
  induction targets with
  | nil =>
    intro l requested h _
    exact Stops.ret h.issued
  | cons target targets ih =>
    intro l requested h hscanned
    have hhead := hscanned target List.mem_cons_self
    refine Stops.handler (stopTarget_safe h hhead) (fun ending l' hending => ?_) fun x l' hx => ?_
    · obtain ⟨hpost, hsuffix⟩ := hending
      have hrest : ∀ target ∈ targets, Scanned q l' target := fun other hother =>
        (hscanned other (List.mem_cons_of_mem _ hother)).later hsuffix
      cases ending with
      | skipped => exact ih hpost hrest
      | changed => exact Stops.ret (accounts_of_count hpost (by simp) (by simp))
      | answered issued => exact ih hpost hrest
    · cases x with
      | probe => exact Stops.ret (accounts_of_count hx (by simp) (by simp))
      | stopRequest reason issued probeReason =>
        refine Stops.ret (accounts_of_count hx ?_ ?_)
        · split <;> simp
        · split <;> simp
      | exception className => exact Stops.raise trivial
      | interrupt className => exact Stops.raise trivial

/-- A clear scan is the last one. -/
theorem lastScanClear {found : ProcessScan}
    (h : (observation q.casefold (some q.appid) found).state = .absent) :
    LastScanClear q (⟨(), .scan, .ok found, ()⟩ :: l) := by
  obtain ⟨hcodes, hclear⟩ := observation_absent h
  exact ⟨found, rfl, hcodes, fun process hprocess => (hclear process hprocess).2⟩

/-- The wait makes no request, so the count stands. -/
theorem confirmStop_safe {count requested : Nat} {deadline : Int} (scans : Nat) :
    ∀ {l : List StopMove}, issuedCount l = requested →
    Stops q.Allows (Accounts q) (fun _ _ => True) (confirmStop q count requested deadline scans) l := by
  induction scans with
  | zero =>
    intro l _
    exact Stops.raise trivial
  | succ scans ih =>
    intro l h
    have hcount : ∀ m : StopMove, m.issued = false → issuedCount (m :: l) = requested := by
      intro m hm
      rw [issuedCount_cons, hm, h]
      rfl
    have hunknown : ∀ {l' : List StopMove}, issuedCount l' = requested → Accounts q
        ⟨.unknown, "stop_confirmation_unknown", count, q.force, requested⟩ l' :=
      fun hl' => accounts_of_count hl' (by simp) (by simp)
    have hseen : Stops q.Allows (fun (after : RuntimeObservation) l' => issuedCount l' = requested ∧
        (after.state = .absent → LastScanClear q l')) (fun _ _ => True)
        (observe q.casefold q.platform (some q.appid)) l :=
      Stops.observe (fun _ => ⟨h, nofun⟩) (fun _ _ => ⟨hcount _ rfl, nofun⟩)
        (fun found => ⟨hcount _ rfl, lastScanClear⟩) fun _ => trivial
    refine Stops.seq hseen fun after l₁ hl₁ => ?_
    obtain ⟨hl₁, hclear⟩ := hl₁
    show Stops q.Allows _ _ (match after.state with | .absent => _ | .unknown => _ | .observed => _) _
    cases hstate : after.state with
    | absent => exact Stops.ret ⟨hl₁.symm, fun _ => hclear hstate⟩
    | unknown => exact Stops.ret (hunknown hl₁)
    | observed =>
      dsimp only
      by_cases hrequested : requested = 0
      · rw [if_pos hrequested]
        exact Stops.ret (accounts_of_count hl₁ (by simp) (by simp))
      · rw [if_neg hrequested]
        have hclock : ∀ {l' : List StopMove}, issuedCount l' = requested →
            Stops q.Allows (fun _ l'' => issuedCount l'' = requested) (fun _ _ => True) monotonic l' := by
          intro l' hl'
          refine Stops.monotonic (fun now => ?_) fun _ => trivial
          rw [issuedCount_cons, hl']
          rfl
        refine Stops.seq (hclock hl₁) fun now l₂ hl₂ => ?_
        show Stops q.Allows _ _ (if now ≥ deadline then _ else _) _
        by_cases hdeadline : now ≥ deadline
        · rw [if_pos hdeadline]
          exact Stops.ret (accounts_of_count hl₂ (by simp) (by simp))
        · rw [if_neg hdeadline]
          refine Stops.seq (hclock hl₂) fun now' l₃ hl₃ => ?_
          refine Stops.seq (R := fun _ l₄ => issuedCount l₄ = requested)
            (Stops.sleep ?_ fun _ => trivial) fun _ l₄ hl₄ => ih hl₄
          rw [issuedCount_cons, hl₃]
          rfl

theorem stopApp_safe (q : StopRequest) (scans : Nat) :
    Stops q.Allows (Accounts q) (fun _ _ => True) (stopApp q scans) [] := by
  unfold stopApp
  split
  · exact Stops.raise trivial
  · have hseen : Stops q.Allows (fun (found : RuntimeObservation) l => InOrder l 0 ∧
          (∀ target ∈ found.processes, Scanned q l target) ∧
          (found.state = .absent → LastScanClear q l) ∨
          issuedCount l = 0 ∧ found.state = .unknown ∧ found.processes = [])
        (fun _ _ => True) (observe q.casefold q.platform (some q.appid)) [] := by
      refine Stops.observe (fun _ => .inr ⟨rfl, rfl, rfl⟩) (fun _ _ => .inr ⟨rfl, rfl, rfl⟩)
        (fun found => .inl ⟨⟨?_, rfl⟩, fun target htarget => ?_, lastScanClear⟩) fun _ => trivial
      · intro m hm
        rw [List.mem_singleton.mp hm]
        rfl
      · obtain ⟨process, hprocess, hpid, htime, happ, hwanted⟩ := mem_observation htarget
        have hvalue : q.appid = target.appid := by simpa using hwanted
        exact ⟨_, List.mem_singleton_self _, found, rfl, process, hprocess, hpid, htime,
          happ.trans (by rw [hvalue])⟩
    refine Stops.seq hseen fun found l hl => ?_
    show Stops q.Allows _ _ (if found.state = .unknown ∧ found.processes = [] then _ else
      if found.state = .absent then _ else _) _
    have hissued : issuedCount l = 0 := hl.elim (fun h => h.1.issued) fun h => h.1
    by_cases hnothing : found.state = .unknown ∧ found.processes = []
    · rw [if_pos hnothing]
      exact Stops.ret (accounts_of_count hissued (by simp) (by simp))
    · rw [if_neg hnothing]
      obtain ⟨horder, hscanned, hclear⟩ := hl.resolve_right fun h => hnothing h.2
      by_cases habsent : found.state = .absent
      · rw [if_pos habsent]
        exact Stops.ret ⟨hissued.symm, fun _ => hclear habsent⟩
      · rw [if_neg habsent]
        refine Stops.seq (stopTargets_safe found.processes horder hscanned) fun ending l₁ hl₁ => ?_
        cases ending with
        | inl result => exact Stops.ret hl₁
        | inr requested =>
          refine Stops.seq (R := fun _ l₂ => issuedCount l₂ = requested)
            (Stops.monotonic (fun now => ?_) fun _ => trivial)
            fun now l₂ hl₂ => confirmStop_safe scans hl₂
          rw [issuedCount_cons, show issuedCount l₁ = requested from hl₁]
          rfl

/-! ### The windows -/

variable {isOSError : String → Bool} {pid : Int} {gated : Bool}

/-- Every move was in order, and a request was issued or not. -/
structure WindowsInOrder (l : List StopMove) (requested : Bool) : Prop where
  moves : ∀ m ∈ l, m.inOrder = true
  issued : l.any StopMove.issued = requested

/-- A move more, whatever it was. -/
theorem WindowsInOrder.any {requested : Bool} (h : WindowsInOrder l requested) (m : StopMove) :
    (m :: l).any StopMove.issued = (requested || m.issued) := by
  rw [List.any_cons, h.issued, Bool.or_comm]

theorem WindowsInOrder.cons {requested : Bool} (h : WindowsInOrder l requested) {m : StopMove}
    (hm : m.inOrder = true) : WindowsInOrder (m :: l) (requested || m.issued) where
  moves m' hm' := by
    rcases List.mem_cons.mp hm' with rfl | hm'
    · exact hm
    · exact h.moves m' hm'
  issued := h.any m

theorem WindowsInOrder.append {requested : Bool} (h : WindowsInOrder l requested)
    {gates : List StopMove} (hgates : ∀ g ∈ gates, g.inOrder = true ∧ g.issued = false) :
    WindowsInOrder (gates ++ l) requested where
  moves m hm := (List.mem_append.mp hm).elim (fun hm => (hgates m hm).1) (h.moves m)
  issued := by
    have hnone : gates.any StopMove.issued = false := by
      rw [List.any_eq_false]
      exact fun g hg => by simp [(hgates g hg).2]
    rw [List.any_append, hnone, h.issued, Bool.false_or]

theorem ownedWindows_safe (windows : List Nat) : ∀ {l : List StopMove}, WindowsInOrder l false →
    Stops (AllowsClose pid gated) (fun _ l' => WindowsInOrder l' false)
      (fun x l' => l'.any StopMove.issued = x.requested) (ownedWindows pid windows) l := by
  induction windows with
  | nil =>
    intro l h
    exact Stops.ret h
  | cons window windows ih =>
    intro l h
    refine Stops.ask (fun _ heq => nomatch heq) fun a => ?_
    cases a with
    | error x => exact Stops.raise (h.any _)
    | ok found =>
      show Stops _ _ _ (ownedWindows pid windows >>= _) _
      refine Stops.seq (ih (h.cons rfl)) fun owned l' hl' => ?_
      exact Stops.ret (Q := fun _ l' => WindowsInOrder l' false) hl'

/-- A gate that raises leaves the request as it is. -/
theorem WindowsInOrder.raised {requested : Bool} (h : WindowsInOrder l requested) (x : Failure)
    (l' : List StopMove) (hraised : (∃ m, l' = m :: l ∧ m.issued = false) ∧
      x.requested = false ∧ x ≠ .probe) :
    l'.any StopMove.issued = (requested || x.requested) := by
  obtain ⟨⟨m, rfl, hissued⟩, hx, -⟩ := hraised
  rw [h.any, hissued, hx]

/-- One window: it is closed, or an exception reports what was issued. -/
theorem closeWindow_safe {requested : Bool} {window : Nat} (h : WindowsInOrder l requested) :
    Stops (AllowsClose pid gated) (fun _ l' => WindowsInOrder l' true)
      (fun x l' => l'.any StopMove.issued = (requested || x.requested))
      (closeWindow pid gated window) l := by
  refine Stops.ask (fun _ heq => nomatch heq) fun a => ?_
  cases a with
  | error x => exact Stops.raise (h.any _)
  | ok same =>
    cases same with
    | false => exact Stops.raise (h.any _)
    | true =>
      have hsame := h.cons (m := ⟨(), .identityCheck, .ok true, ()⟩) rfl
      refine Stops.ask (fun _ heq => nomatch heq) fun a => ?_
      cases a with
      | error x =>
        refine Stops.raise ?_
        rw [hsame.any]
        simp [StopMove.issued]
      | ok found =>
        show Stops _ _ _ (if found ≠ pid then _ else _) _
        by_cases hfound : found = pid
        · rw [if_neg (by simpa using hfound)]
          subst hfound
          have howner := hsame.cons (m := ⟨(), .owner window, .ok found, ()⟩) rfl
          rw [show (requested || StopMove.issued ⟨(), .identityCheck, .ok true, ()⟩ ||
            StopMove.issued ⟨(), .owner window, .ok found, ()⟩) = requested by
              simp [StopMove.issued]] at howner
          have hgate := (checkStopDispatchGate_safe (AllowsClose found gated)
            (fun _ heq => nomatch heq) gated).mono (fun _ l₁ hl₁ => hl₁) howner.raised
          refine Stops.seq hgate fun _ l₁ hl₁ => ?_
          obtain ⟨gates, rfl, hasked, hgates⟩ := hl₁
          have horder := howner.append hgates
          refine Stops.ask (fun window' heq => ?_) fun a => ?_
          · cases heq
            exact ⟨horder.moves, gates, l, rfl, hasked⟩
          · cases a with
            | error x => exact Stops.raise (horder.any _)
            | ok posted =>
              cases posted with
              | false => exact Stops.raise (horder.any _)
              | true =>
                have hposted := horder.cons (m := ⟨(), .close window, .ok true, ()⟩) rfl
                rw [show (requested || StopMove.issued ⟨(), .close window, .ok true, ()⟩) = true by
                  simp [StopMove.issued]] at hposted
                exact Stops.ret hposted
        · rw [if_pos hfound]
          refine Stops.raise ?_
          rw [hsame.any]
          simp [StopMove.issued, Failure.requested]

/-- In the loop no `OSError` and no plain `ProbeError` gets out. -/
theorem closeWindows_safe (windows : List Nat) :
    ∀ {l : List StopMove} {requested : Bool}, WindowsInOrder l requested →
    Stops (AllowsClose pid gated) (fun answer l' => l'.any StopMove.issued = answer)
      (RaiseAccounts isOSError) (closeWindows isOSError pid gated windows requested) l := by
  induction windows with
  | nil =>
    intro l requested h
    exact Stops.ret h.issued
  | cons window windows ih =>
    intro l requested h
    refine Stops.handler (closeWindow_safe h) (fun _ l' hl' => ih hl') fun x l' hx => ?_
    cases x with
    | stopRequest reason issued probeReason => exact Stops.raise hx
    | probe => exact Stops.raise (hx.trans (Bool.or_false _))
    | interrupt className => exact Stops.raise trivial
    | exception className =>
      show Stops _ _ _ (if isOSError className = true then _ else _) _
      by_cases hos : isOSError className = true
      · rw [if_pos hos]
        exact Stops.raise (hx.trans (Bool.or_false _))
      · rw [if_neg hos]
        exact Stops.raise fun hos' => absurd hos' hos

/-- Before the loop nothing is issued. -/
theorem raiseAccounts_of_issued {x : Failure} (h : l.any StopMove.issued = x.requested) :
    RaiseAccounts isOSError x l := by
  cases x with
  | probe => exact h
  | stopRequest reason issued probeReason => exact h
  | exception className => exact fun _ => h
  | interrupt className => trivial

theorem windowsClose_safe (isOSError : String → Bool) (pid : Int) (gated : Bool) :
    Stops (AllowsClose pid gated) (fun answer l => l.any StopMove.issued = answer)
      (RaiseAccounts isOSError) (windowsClose isOSError pid gated) [] := by
  have hstart : WindowsInOrder [] false := ⟨by simp, rfl⟩
  refine Stops.ask (fun _ heq => nomatch heq) fun a => ?_
  cases a with
  | error x => exact Stops.raise (raiseAccounts_of_issued (hstart.any _))
  | ok windows =>
    have hlisted := hstart.cons (m := ⟨(), .windows, .ok windows, ()⟩) rfl
    have howned : Stops (AllowsClose pid gated) (fun _ l => WindowsInOrder l false)
        (RaiseAccounts isOSError) (ownedWindows pid windows) _ :=
      (ownedWindows_safe windows hlisted).mono (fun _ _ h => h)
        fun _ _ hx => raiseAccounts_of_issued hx
    show Stops _ _ _ (ownedWindows pid windows >>= _) _
    refine Stops.seq howned fun targets l hl => ?_
    show Stops _ _ _ (if targets = [] then _ else _) _
    by_cases htargets : targets = []
    · rw [if_pos htargets]
      exact Stops.ret hl.issued
    · rw [if_neg htargets]
      exact closeWindows_safe targets hl

/-! ## Every run -/

/-- A run of a program, with any answers. -/
def StopRun {α : Type} (p : StopProg α) (l : List StopMove) (p' : StopProg α) : Prop :=
  Run (fun _ _ _ _ => True) (fun _ _ => True) p () l p' ()

/-- Each call was allowed after the moves before it. -/
def AllAllowed (allows : List StopMove → StopCall → Prop) (l : List StopMove) : Prop :=
  ∀ later m earlier, l = later ++ m :: earlier → allows earlier m.call

theorem Stops.allAllowed {allows : List StopMove → StopCall → Prop} {α : Type}
    {Q : α → List StopMove → Prop} {X : Failure → List StopMove → Prop} {p p' : StopProg α}
    {l : List StopMove} (h : Stops allows Q X p []) (hr : StopRun p l p') :
    AllAllowed allows l := by
  intro later m earlier hl
  subst hl
  obtain ⟨p'', w'', hcut⟩ := hr.suffix (List.suffix_append later (m :: earlier))
  have hguar := Safe.guar h hcut
  rw [List.append_nil] at hguar
  exact hguar

theorem Stops.returned {allows : List StopMove → StopCall → Prop} {α : Type}
    {Q : α → List StopMove → Prop} {X : Failure → List StopMove → Prop} {p : StopProg α} {a : α}
    {l : List StopMove} (h : Stops allows Q X p []) (hr : StopRun p l (.ret a)) : Q a l := by
  have hend := (Safe.run h hr).of_ret
  rwa [List.append_nil] at hend

theorem Stops.raised {allows : List StopMove → StopCall → Prop} {α : Type}
    {Q : α → List StopMove → Prop} {X : Failure → List StopMove → Prop} {p : StopProg α}
    {x : Failure} {l : List StopMove} (h : Stops allows Q X p [])
    (hr : StopRun p l (.raise x)) : X x l := by
  have hend := (Safe.run h hr).of_raise
  rwa [List.append_nil] at hend

/-- In every run of `stop_app`, whatever the backend, the gate and the clock
answer, each request is admissible after the moves before it, and the result
accounts for the requests and for the last scan.  In every run of
`_windows_close` a window is closed only right after its checks, and the answer
or the exception says whether one was closed. -/
theorem stop_attributed (q : StopRequest) (isOSError : String → Bool) (pid : Int) (gated : Bool) :
    (∀ scans l p', StopRun (stopApp q scans) l p' →
      AllAllowed q.Allows l ∧ ∀ result, p' = .ret result → Accounts q result l) ∧
    ∀ l p', StopRun (windowsClose isOSError pid gated) l p' →
      AllAllowed (AllowsClose pid gated) l ∧
      (∀ answer, p' = .ret answer → l.any StopMove.issued = answer) ∧
      ∀ x, p' = .raise x → RaiseAccounts isOSError x l := by
  refine ⟨fun scans l p' hr => ?_, fun l p' hr => ?_⟩
  · have hsafe := stopApp_safe q scans
    refine ⟨hsafe.allAllowed hr, fun result hresult => ?_⟩
    subst hresult
    exact hsafe.returned hr
  · have hsafe := windowsClose_safe isOSError pid gated
    refine ⟨hsafe.allAllowed hr, fun answer hanswer => ?_, fun x hx => ?_⟩
    · subst hanswer
      exact hsafe.returned hr
    · subst hx
      exact hsafe.raised hr

/-! ## A stop -/

/-- A process of app 10. -/
def gameProcess : ProcessRecord :=
  ⟨7, 1, "game", [("SteamAppId", "10")], true, true⟩

/-- A forced stop of app 10 without a wait, behind a gate. -/
def gameStop : StopRequest :=
  ⟨id, "linux", 10, true, 0, true⟩

/-- The process stays, and everything is permitted. -/
def gameOracle : Oracle StopSig Unit
  | _, .scan => (.ok ⟨[gameProcess], []⟩, ())
  | _, .read _ => (.ok (some gameProcess), ())
  | _, .gate => (.ok true, ())
  | _, .requestStop _ _ => (.ok true, ())
  | _, .monotonic => (.ok 0, ())
  | _, .sleep _ => (.ok (), ())
  | _, .windows => (.ok [], ())
  | _, .owner _ => (.ok 7, ())
  | _, .identityCheck => (.ok true, ())
  | _, .close _ => (.ok true, ())

theorem stop_attributed_forced : ∃ l, StopRun (stopApp gameStop 1) l
    (.ret ⟨.deferred, "stop_timeout", 1, true, 1⟩) ∧ AllAllowed gameStop.Allows l ∧
      issuedCount l = 1 := by
  have hreturned : ((stopApp gameStop 1).moves gameOracle 9 () []).2.1.returned
      = some ⟨.deferred, "stop_timeout", 1, true, 1⟩ := by decide +kernel
  have hr : StopRun (stopApp gameStop 1) _ (.ret ⟨.deferred, "stop_timeout", 1, true, 1⟩) :=
    Run.of_returned (fun _ => trivial) (fun _ _ => trivial) rfl hreturned
  obtain ⟨hallowed, haccounts⟩ := (stop_attributed gameStop (fun _ => false) 7 true).1 1 _ _ hr
  exact ⟨_, hr, hallowed, (haccounts _ rfl).1.symm⟩

end SteamAgent.Execution.Runtime
