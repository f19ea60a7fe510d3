import SteamAgent.Execution.Executor.Log
import SteamAgent.Execution.Executor.Uses
import SteamAgent.Execution.World

/-!
# The kill switch and the lease

What an execution has seen when it stops the client, starts steamcmd, or writes
the manifest of the library.

There are five groups.

* The calls that are restricted, and `leaseLaw`, the restriction.
* `Need` and `At`: what is known at a point of the execution.
* One rule for each session call and for a policy read.
* One lemma for each stretch of `executeContent`.
* The recovery of `adopting`, and the two results.
-/

namespace SteamAgent.Execution

open Effects
open Content
open Ledger (Row OperationState Method transition)

variable {W ρ α : Type}

/-! ## The restricted calls -/

/-- Calls that act on the owner's policy: stop the client, start steamcmd, adopt. -/
def Call.needsPolicy : Call → Bool
  | .session _ .stopClient => true
  | .content _ .prepare => true
  | .content _ (.spawn ..) => true
  | .adopt .. => true
  | _ => false

/-- Calls that start the content adapter. -/
def Call.startsContent : Call → Bool
  | .content _ .prepare => true
  | .content _ (.spawn ..) => true
  | _ => false

/-- Calls that write or remove a manifest in `steamapps/`. -/
def Call.writesManifest : Call → Bool
  | .fs c => FsCall.writesManifest c
  | .adopt _ c => FsCall.writesManifest c
  | .recover _ c => FsCall.writesManifest c
  | _ => false

/-- The latest gates leave the user alone. -/
def LeaseClear (l : Log W) : Prop :=
  ∃ g, latestGates l = some g ∧ g.allClear = true

/-- The latest gates leave the user alone, and the client is absent. -/
def LeaseHeld (l : Log W) : Prop :=
  ∃ g, latestGates l = some g ∧ g.allClear = true ∧ g.clientRunning = .pass

/-- The restriction.  `gated` says whether the policy counts. -/
structure leaseLaw (gated : Bool) (l : Log W) (m : Move BrokerSig W) : Prop where
  policy : gated = true → m.call.needsPolicy = true → permitted l = true ∧ revoked l = false
  content : m.call.startsContent = true → LeaseHeld l ∧ steamcmdCleared l = true
  manifest : m.call.writesManifest = true → LeaseClear l ∧ latestPresence l = some false

/-- Calls without a restriction. -/
def Call.free (c : Call) : Bool :=
  !c.needsPolicy && !c.startsContent && !c.writesManifest

theorem leaseLaw_of_free {gated : Bool} (l : Log W) (m : Move BrokerSig W)
    (h : m.call.free = true) : leaseLaw gated l m := by
  simp only [Call.free, Bool.and_eq_true, Bool.not_eq_true'] at h
  obtain ⟨⟨hp, hc⟩, hm⟩ := h
  exact ⟨fun _ h => by simp [hp] at h, fun h => by simp [hc] at h, fun h => by simp [hm] at h⟩

/-! ## What is known at a point -/

/-- What the next calls rely on. -/
structure Need where
  granted : Bool
  cleared : Bool
  clear : Bool
  held : Bool
  absent : Bool

/-- Nothing is relied on. -/
def Need.none : Need :=
  ⟨false, false, false, false, false⟩

/-- What is known after the moves `l`. -/
structure At (gated : Bool) (need : Need) (l : Log W) : Prop where
  unrevoked : gated = true → revoked l = false
  granted : gated = true → need.granted = true → permitted l = true
  cleared : need.cleared = true → steamcmdCleared l = true
  clear : need.clear = true → LeaseClear l
  held : need.held = true → LeaseHeld l
  absent : need.absent = true → latestPresence l = some false

variable {gated : Bool} {need : Need} {l l' : Log W}

theorem At.keeps (h : At gated need l) (hk : Keeps l l') : At gated need l' where
  unrevoked hg := hk.revoked.trans (h.unrevoked hg)
  granted hg hn := hk.permitted.trans (h.granted hg hn)
  cleared hn := hk.cleared.trans (h.cleared hn)
  clear hn := by
    obtain ⟨g, hl, hg⟩ := h.clear hn
    exact ⟨g, hk.gates.trans hl, hg⟩
  held hn := by
    obtain ⟨g, hl, hg⟩ := h.held hn
    exact ⟨g, hk.gates.trans hl, hg⟩
  absent hn := hk.presence.trans (h.absent hn)

/-- What is known suffices for the call. -/
def Need.allows (need : Need) (c : Call) : Bool :=
  (!c.needsPolicy || need.granted) && (!c.startsContent || need.held && need.cleared) &&
    (!c.writesManifest || need.clear && need.absent)

theorem At.law (h : At gated need l) {m : Move BrokerSig W} (hm : need.allows m.call = true) :
    leaseLaw gated l m := by
  simp only [Need.allows, Bool.and_eq_true, Bool.or_eq_true, Bool.not_eq_true'] at hm
  obtain ⟨⟨hp, hc⟩, hw⟩ := hm
  refine ⟨fun hg h' => ?_, fun h' => ?_, fun h' => ?_⟩
  · have hn := hp.resolve_left (by simp [h'])
    exact ⟨h.granted hg hn, h.unrevoked hg⟩
  · have hn := hc.resolve_left (by simp [h'])
    exact ⟨h.held hn.1, h.cleared hn.2⟩
  · have hn := hw.resolve_left (by simp [h'])
    exact ⟨h.clear hn.1, h.absent hn.2⟩

/-! ## Programs and single calls -/

/-- After the moves `l` the program keeps the restriction. -/
abbrev Leased {ε : Type} (gated : Bool) (Q : α → Log W → Prop) (X : ε → Log W → Prop)
    (p : Prog BrokerSig ε α) (l : Log W) : Prop :=
  Lawful (leaseLaw gated) Q X p l

/-- No claim about the end. -/
abbrev Any {α : Type} : α → Log W → Prop :=
  fun _ _ => True

/-- A program without a restricted call. -/
theorem leased_free {ε : Type} {p : Prog BrokerSig ε α} (hp : p.Calls fun c : Call => c.free = true) :
    Leased gated Any Any p l :=
  Lawful.of_free leaseLaw_of_free hp

/-- A program of silent calls that what is known allows. -/
theorem leased_silent {ε : Type} {p : Prog BrokerSig ε α}
    (hp : p.Calls fun c : Call => c.silent = true ∧ need.allows c = true) (h : At gated need l) :
    Leased gated (fun _ => At gated need) (fun _ => At gated need) p l :=
  Lawful.of_calls (fun l _ hm h => ⟨h.law hm.2, h.keeps (keeps_silent hm.1 l)⟩) hp h

theorem leased_ledger {p : Method α} (h : At gated need l) :
    Leased gated (fun _ => At gated need) Any (ledger (ρ := ρ) p) l :=
  (leased_silent (calls_ledger fun _ => ⟨rfl, by simp [Need.allows, Call.needsPolicy,
    Call.startsContent, Call.writesManifest]⟩) h).mono (fun _ _ h => h) fun _ _ _ => trivial

theorem leased_fs {p : FsProg α} (hp : Spares p) (h : At gated need l) :
    Leased gated (fun _ => At gated need) Any (fs (ρ := ρ) p) l := by
  refine (leased_silent (calls_fs (hp.mono fun c hc => ⟨rfl, ?_⟩)) h).mono (fun _ _ h => h)
    fun _ _ _ => trivial
  simp [Need.allows, Call.needsPolicy, Call.startsContent, Call.writesManifest, hc]

/-! ## Session calls and policy reads -/

/-- What is known after a session call that shows nothing about the lease. -/
def Need.probed (need : Need) : Need :=
  { need with granted := false }

/-- What is known after the gates answered `g`. -/
def Need.seen (need : Need) (g : LeaseGates) : Need :=
  ⟨false, need.cleared, g.allClear, g.allClear && g.clientRunning == .pass, false⟩

theorem leased_gates {id : Nat} (h : At gated need l) :
    Leased gated (fun g l' => At gated (need.seen g) l' ∧
        (stopCalled l = true → g.clientRunning = .pass → latestPresence l' = some false))
      Any (gates (ρ := ρ) id) l := by
  refine .ask (fun w a w' => leaseLaw_of_free _ _ rfl) fun w a w' => .orRaise ?_ fun _ => trivial
  rintro g rfl
  refine ⟨⟨h.unrevoked, fun _ hn => by simp [Need.seen] at hn, h.cleared, fun hn => ⟨g, rfl, hn⟩,
    fun hn => ?_, fun hn => by simp [Need.seen] at hn⟩, fun hs hg => ?_⟩
  · simp only [Need.seen, Bool.and_eq_true, beq_iff_eq] at hn
    exact ⟨g, rfl, hn.1, hn.2⟩
  · simp [latestPresence, hs, hg]

/-- The gates after a stop are evidence about the client. -/
theorem leased_gates_of_stop {id : Nat} (h : At gated need l) (hs : stopCalled l = true) :
    Leased gated (fun g l' => At gated (need.seen g) l' ∧
        (g.clientRunning = .pass → latestPresence l' = some false))
      Any (gates (ρ := ρ) id) l :=
  (leased_gates h).mono (fun _ _ hg => ⟨hg.1, hg.2 hs⟩) fun _ _ _ => trivial

theorem leased_clientPossiblyRunning {id : Nat} (h : At gated need l) :
    Leased gated (fun running => At gated { need.probed with absent := !running }) Any
      (clientPossiblyRunning (ρ := ρ) id) l := by
  refine .ask (fun w a w' => leaseLaw_of_free _ _ rfl) fun w a w' => .orRaise ?_ fun _ => trivial
  rintro running rfl
  refine ⟨h.unrevoked, fun _ hn => by simp [Need.probed] at hn, h.cleared, h.clear, h.held,
    fun hn => ?_⟩
  simp only [Bool.not_eq_true'] at hn
  rw [latestPresence, hn]

theorem leased_steamcmdRunning {id : Nat} (h : At gated need l) :
    Leased gated (fun running => At gated { need.probed with cleared := need.cleared || !running })
      Any (steamcmdRunning (ρ := ρ) id) l := by
  refine .ask (fun w a w' => leaseLaw_of_free _ _ rfl) fun w a w' => .orRaise ?_ fun _ => trivial
  rintro running rfl
  refine ⟨h.unrevoked, fun _ hn => by simp [Need.probed] at hn, fun hn => ?_, h.clear, h.held,
    h.absent⟩
  cases running with
  | false => rfl
  | true => exact h.cleared (by simpa using hn)

theorem leased_stopClient {id : Nat} (h : At gated need l) (hn : need.granted = true) :
    Leased gated (fun _ l' => At gated need.probed l' ∧ stopCalled l' = true) Any
      (stopClient (ρ := ρ) id) l := by
  refine .ask (fun w a w' => h.law (by simp [Need.allows, Call.needsPolicy, Call.startsContent,
    Call.writesManifest, hn])) fun w a w' => .orRaise ?_ fun _ => trivial
  rintro stopped rfl
  exact ⟨⟨h.unrevoked, fun _ hn => by simp [Need.probed] at hn, h.cleared, h.clear, h.held,
    h.absent⟩, rfl⟩

/-- A policy read that permits. -/
theorem leased_contentPolicyDenial {cfg : Config} {operation : Row}
    (hcfg : gated = cfg.hasDispatchPolicy) (h : At gated need l) :
    Leased gated (fun denial l' => denial = none → At gated { need with granted := true } l') Any
      (contentPolicyDenial (ρ := ρ) cfg operation) l := by
  refine .ite (fun hc => ?_) fun hc => .ret fun _ => ?_
  · refine .ask (fun w a w' => leaseLaw_of_free _ _ rfl) fun w a w' => ?_
    rcases a with x | _ | denial
    · exact .ret fun hd => by simp at hd
    · exact .ret fun _ => ⟨h.unrevoked, fun _ _ => rfl, h.cleared, h.clear, h.held, h.absent⟩
    · exact .ite (fun _ => .ret fun hd => by simp at hd) fun _ => .ret fun hd => by simp at hd
  · have hg : gated = false := by simpa [hcfg] using hc
    subst hg
    exact ⟨h.unrevoked, fun hg => by simp at hg, h.cleared, h.clear, h.held, h.absent⟩

/-- A program that leaves without a restricted call. -/
theorem leased_leaves {ε : Type} {Q : α → Log W → Prop} {p : Prog BrokerSig ε α}
    (hp : p.Leaves fun c : Call => c.free = true) : Leased gated Q Any p l :=
  Lawful.of_leaves leaseLaw_of_free hp

theorem leased_finishFailureAs {Q : α → Log W → Prop} {id : Nat} {priorRunning : Option Bool}
    {detail message : String} {outcome : ExecuteOutcome} {toState : OperationState} :
    Leased gated Q Any (finishFailureAs id priorRunning detail message outcome toState) l :=
  leased_leaves (leaves_finishFailureAs rfl rfl fun _ => rfl)

theorem leased_unlessDenied {cfg : Config} {operation : Row} {onDenial : String → Body ρ Unit}
    (hcfg : gated = cfg.hasDispatchPolicy) (h : At gated need l)
    (hd : ∀ denial, (onDenial denial).Leaves fun c : Call => c.free = true) :
    Leased gated (fun _ => At gated { need with granted := true }) Any
      (unlessDenied cfg operation onDenial) l := by
  refine (leased_contentPolicyDenial hcfg h).seq fun denial l' hl => ?_
  cases denial with
  | none => exact .ret (hl rfl)
  | some denial => exact leased_leaves (hd denial)

/-! ## The stretches of an execution -/

/-- Only the denials count. -/
theorem At.forget (h : At gated need l) : At gated .none l :=
  ⟨h.unrevoked, fun _ hn => by simp [Need.none] at hn, fun hn => by simp [Need.none] at hn,
    fun hn => by simp [Need.none] at hn, fun hn => by simp [Need.none] at hn,
    fun hn => by simp [Need.none] at hn⟩

variable {cfg : Config} {id : Nat} {operation : Row} {resuming priorRunning : Bool}

theorem leased_contentGate (hcfg : gated = cfg.hasDispatchPolicy) (h : At gated need l) :
    Leased gated (fun _ => At gated .none) Any (contentGate cfg id operation resuming) l := by
  refine .ite (fun _ => .finish trivial) fun _ => .ite (fun _ => .finish trivial) fun _ => ?_
  refine (leased_unlessDenied hcfg h fun denial =>
    leaves_deferContentPolicy rfl rfl).seq fun _ l h => ?_
  have hlogin : Leased gated (fun _ => At gated .none) Any
      (resolveLogin (ρ := ExecutionReport) cfg operation) l :=
    .mono (fun _ _ h => h.forget) (fun _ _ _ => trivial)
      (leased_silent (Prog.Calls.ite (calls_askRaise ⟨rfl, rfl⟩) trivial) h)
  refine hlogin.seq fun login l h => ?_
  split
  · exact .finish trivial
  refine (leased_ledger h).seq fun valid l h => .ite (fun _ => ?_) fun _ =>
    leased_leaves (leaves_windowLapsed rfl rfl fun _ => rfl)
  refine (leased_fs (.ask rfl Prog.Calls.ofExcept) h).seq fun dir l h => .ite (fun _ => ?_)
    fun _ => .finish trivial
  refine (leased_fs (calls_orNone (.ask rfl Prog.Calls.ofExcept)) h).seq fun identity l h => ?_
  split
  · exact .finish trivial
  · exact .ret h

theorem leased_admitContent (h : At gated need l) :
    Leased gated (fun _ => At gated need) Any (admitContent cfg id operation) l := by
  refine (leased_ledger h).seq fun plan l h => .attempt_bind ?_
  refine (leased_silent (.lift ((reads_intake cfg operation plan).mono fun c hc =>
    ⟨rfl, ?_⟩)) h).mono (fun name l h => .ret h) fun halt l h => ?_
  · simp [Need.allows, Call.needsPolicy, Call.startsContent, Call.writesManifest,
      FsCall.writesManifest_of_reads hc]
  · cases halt with
    | done refusal => exact leased_finishFailureAs
    | exn x => exact .raise trivial

theorem leased_leaseGates (h : At gated need l) :
    Leased gated (fun _ => At gated { Need.none with cleared := true }) Any (leaseGates id) l := by
  refine (leased_steamcmdRunning h).seq fun running l h => .ite (fun _ => .finish trivial)
    fun hr => (leased_gates h).seq fun g l hg => .ite (fun _ => .ret ?_) fun _ => .finish trivial
  exact { hg.1.forget with cleared := fun _ => hg.1.cleared (by simp [Need.seen, hr]) }

/-- Before the stop of the client. -/
abbrev Probed : Need :=
  { Need.none with cleared := true }

theorem leased_stopIfRunning {running : Bool} (h : At gated { Probed with granted := true } l) :
    Leased gated (fun _ => At gated Probed) Any (stopIfRunning (ρ := ρ) id running) l :=
  .ite (fun _ => (leased_stopClient h rfl).mono (fun _ _ h => { h.1.forget with
      cleared := h.1.cleared }) fun _ _ _ => trivial)
    fun _ => .ret { h.forget with cleared := h.cleared }

theorem leased_stopForResume (hcfg : gated = cfg.hasDispatchPolicy) (h : At gated Probed l) :
    Leased gated (fun _ => At gated Probed) Any (stopForResume cfg id operation) l := by
  refine (leased_clientPossiblyRunning h).seq fun running l h => ?_
  refine (leased_unlessDenied hcfg h fun denial =>
    leaves_deferContentPolicy rfl rfl).seq fun _ l h => ?_
  have hp : At gated { Probed with granted := true } l :=
    { h.forget with cleared := h.cleared, granted := fun hg _ => h.granted hg rfl }
  refine (leased_stopIfRunning hp).seq fun stopped l h => .ite (fun _ => .ret h) fun _ => ?_
  exact leased_leaves (.bind (calls_restoreClient rfl rfl) fun _ => trivial)

theorem leased_stopForLease {g : LeaseGates} (hcfg : gated = cfg.hasDispatchPolicy)
    (h : At gated Probed l) :
    Leased gated (fun _ => At gated Probed) Any (stopForLease cfg id operation g) l := by
  refine .ite (fun _ => .finish trivial) fun _ => ?_
  refine (leased_unlessDenied hcfg h fun denial =>
    leaves_deferContentPolicy rfl rfl).seq fun _ l h => ?_
  refine (leased_ledger h).seq fun _ l h => (leased_ledger h).seq fun _ l h => ?_
  refine (leased_unlessDenied hcfg h fun denial =>
    leaves_finishFailureAs rfl rfl fun _ => rfl).seq fun _ l h => ?_
  exact (leased_stopIfRunning h).seq fun stopped l h => .ite (fun _ => .ret h) fun _ =>
    leased_finishFailureAs

theorem leased_stopForContent {g : LeaseGates} (hcfg : gated = cfg.hasDispatchPolicy)
    (h : At gated Probed l) :
    Leased gated (fun _ => At gated Probed) Any (stopForContent cfg id operation resuming g) l :=
  .ite (fun _ => leased_stopForResume hcfg h) fun _ => leased_stopForLease hcfg h

/-- When steamcmd may start. -/
abbrev Ready : Need :=
  { Need.none with cleared := true, held := true }

theorem leased_startContent {identity : Identity} (hcfg : gated = cfg.hasDispatchPolicy)
    (h : At gated Probed l) :
    Leased gated (fun _ => At gated Ready) Any
      (startContent cfg id operation resuming priorRunning identity) l := by
  refine (leased_gates h).seq fun g l hg => .ite (fun _ => leased_finishFailureAs) fun hclear => ?_
  obtain ⟨hclear, hpass⟩ := not_or.mp hclear
  have h : At gated Ready l :=
    { hg.1.forget with
      cleared := fun _ => hg.1.cleared rfl
      held := fun _ => hg.1.held (by simpa [Need.seen] using And.intro hclear hpass) }
  refine (leased_ledger h).seq fun valid l h => .ite (fun _ => ?_) fun _ => leased_finishFailureAs
  refine (leased_fs (calls_orNone (.ask rfl Prog.Calls.ofExcept)) h).seq fun current l h =>
    .ite (fun _ => leased_finishFailureAs) fun _ => ?_
  refine (leased_unlessDenied hcfg h fun denial =>
    leaves_finishFailureAs rfl rfl fun _ => rfl).seq fun _ l h => ?_
  exact (leased_ledger h).mono (fun _ _ h => { h.forget with
    cleared := h.cleared, held := h.held }) fun _ _ _ => trivial

/-! ## The content run -/

/-- A latch that is not set stands for policy reads that permitted. -/
def Latched (gated : Bool) (latch : Option String) (l : Log W) : Prop :=
  latch = none → At gated .none l

/-- The calls that are no policy read. -/
def Call.reading : Call → Bool
  | .dispatchPolicy _ => false
  | _ => true

theorem revoked_reading {m : Move BrokerSig W} (h : m.call.reading = true) (l : Log W) :
    revoked (m :: l) = revoked l := by
  obtain ⟨w, c, a, w'⟩ := m
  cases c with
  | dispatchPolicy operation => simp [Call.reading] at h
  | _ => rfl

/-- A program without a restricted call or a policy read. -/
theorem leased_latched {ε : Type} {p : Prog BrokerSig ε α} {latch : Option String}
    (hp : p.Calls fun c : Call => c.free = true ∧ c.reading = true) (h : Latched gated latch l) :
    Leased gated (fun _ => Latched gated latch) (fun _ => Latched gated latch) p l := by
  refine Lawful.of_calls (fun l m hm h => ⟨leaseLaw_of_free l m hm.1, fun hlatch => ?_⟩) hp h
  have hl := h hlatch
  exact { (hl.forget) with
    unrevoked := fun hg => (revoked_reading hm.2 l).trans (hl.unrevoked hg)
    granted := fun _ hn => by simp [Need.none] at hn
    cleared := fun hn => by simp [Need.none] at hn
    clear := fun hn => by simp [Need.none] at hn
    held := fun hn => by simp [Need.none] at hn
    absent := fun hn => by simp [Need.none] at hn }

theorem leased_abortContent {identity : Identity} {latch : Option String}
    (hcfg : gated = cfg.hasDispatchPolicy) (h : Latched gated latch l) :
    Leased gated (fun r => Latched gated r.2) Any
      (abortContent (ρ := ρ) cfg id operation identity latch) l := by
  have hdenial : Leased gated (fun denial => Latched gated (denial.or latch)) Any
      (contentPolicyDenial (ρ := ρ) cfg operation) l := by
    cases latch with
    | some text =>
      refine (leased_free (calls_contentPolicyDenial rfl)).mono (fun denial l _ hd => ?_)
        fun _ _ _ => trivial
      cases denial <;> simp at hd
    | none =>
      refine (leased_contentPolicyDenial hcfg (h rfl)).mono (fun denial l hl hd => ?_)
        fun _ _ _ => trivial
      exact (hl (by simpa using hd)).forget
  refine hdenial.seq fun denial l h => .attempt_bind ?_
  refine (leased_latched ?_ h).mono (fun _ _ h => .ret h) fun _ _ h => .ret h
  refine Prog.Calls.ite trivial (.bind (calls_askRaise ⟨rfl, rfl⟩) fun running => ?_)
  refine Prog.Calls.ite trivial (.bind (calls_ledger fun _ => ⟨rfl, rfl⟩) fun valid => ?_)
  refine Prog.Calls.ite (.bind (calls_fs (calls_orNone (.ask ⟨rfl, rfl⟩ Prog.Calls.ofExcept))) fun _ => ?_)
    trivial
  trivial

theorem leased_pollingFailed {Q : α → Log W → Prop} {cleanupAttempted : Bool} :
    Leased gated Q Any (pollingFailed (ρ := ρ) id cleanupAttempted) l :=
  leased_leaves (leaves_pollingFailed rfl)

theorem leased_pollLoop {poll : Poll ρ} {n : Nat} {latch : Option String}
    (hpoll : ∀ latch (l : Log W), Latched gated latch l →
      Leased gated (fun r => Latched gated r.2) Any (poll latch) l)
    (h : Latched gated latch l) :
    Leased gated (fun r => Latched gated r.2) Any (pollLoop id poll n latch) l := by
  induction n generalizing latch l with
  | zero =>
    rw [pollLoop]
    refine (leased_latched (p := contentWait id) ⟨⟨rfl, rfl⟩, fun _ => trivial⟩ h).seq' ?_
    rintro (_ | _ | _) l h
    · exact .ret h
    · exact .ret h
    · exact leased_pollingFailed
  | succ n ih =>
    rw [pollLoop]
    refine (leased_latched (p := contentWait id) ⟨⟨rfl, rfl⟩, fun _ => trivial⟩ h).seq' ?_
    rintro (_ | _ | _) l h
    · exact .ret h
    · refine (hpoll _ l h).seq ?_
      rintro ⟨x | _ | _, latch⟩ l h
      · exact .ret h
      · exact ih h
      · exact .ret h
    · exact leased_pollingFailed

theorem leased_collect {ended : Ended} {latch : Option String} (h : Latched gated latch l) :
    Leased gated (fun _ => Latched gated latch) Any (collect (ρ := ρ) id ended) l := by
  refine (leased_latched (p := collect id ended) (Prog.Calls.ite (.ask ⟨rfl, rfl⟩ ?_)
    (.ask ⟨rfl, rfl⟩ ?_)) h).mono (fun _ _ h => h) fun _ _ _ => trivial
  · rintro (x | f)
    · exact (leaves_pollingFailed ⟨rfl, rfl⟩).calls
    · trivial
  · rintro (x | ⟨⟩)
    · exact (leaves_pollingFailed ⟨rfl, rfl⟩).calls
    · refine .ask ⟨rfl, rfl⟩ ?_
      rintro (x | f)
      · exact (leaves_pollingFailed ⟨rfl, rfl⟩).calls
      · trivial

theorem leased_install {account installDir : String} {appid : Nat} {validate : Bool}
    {poll : Poll ρ}
    (hpoll : ∀ latch (l : Log W), Latched gated latch l →
      Leased gated (fun r => Latched gated r.2) Any (poll latch) l)
    (h : At gated { Ready with granted := true } l) :
    Leased gated (fun r => Latched gated r.2) Any
      (install id account appid installDir validate poll none) l := by
  refine .ask (fun w a w' => h.law rfl) fun w a w' => ?_
  have h := h.keeps (keeps_silent (m := ⟨w, .content id .prepare, a, w'⟩) rfl l)
  refine Lawful.seq (R := fun _ => At gated { Ready with granted := true })
    (.orRaise (fun _ _ => h) fun _ => trivial) fun stamp l h => ?_
  refine Lawful.seq (R := fun r => Latched gated r.2) ?_ fun r l h => ?_
  · refine .ask (fun w a w' => h.law rfl) fun w a w' => ?_
    have h := h.keeps (keeps_silent
      (m := ⟨w, .content id (.spawn account appid installDir validate), a, w'⟩) rfl l)
    cases a with
    | error x => exact .ite (fun _ => .ret fun _ => h.forget) fun _ => .raise trivial
    | ok n =>
      refine (leased_pollLoop hpoll fun _ => h.forget).seq fun r l h => ?_
      exact (leased_collect h).seq fun f l h => .ret h
  · refine (leased_latched (p := Prog.ask (S := BrokerSig) (.content id (.writeLog _))) ⟨⟨rfl, rfl⟩,
      fun _ => trivial⟩ h).seq' fun a l h => ?_
    exact Lawful.seq (.orRaise (fun _ _ => h) fun _ => trivial) fun _ l h => .ret h

variable {steamLogin name : String} {identity : Identity}

theorem leased_runContent (hcfg : gated = cfg.hasDispatchPolicy) (h : At gated Ready l) :
    Leased gated (fun r => Latched gated r.2) Any
      (runContent cfg id operation priorRunning steamLogin name identity) l := by
  refine .handling (Y := Any) ?_ (fun _ _ _ => trivial) fun x l _ _ => .ite
    (fun _ => leased_finishFailureAs) fun _ => leased_finishFailureAs
  refine (leased_unlessDenied hcfg h fun denial =>
    leaves_finishFailureAs rfl rfl fun _ => rfl).seq fun _ l h => ?_
  refine (leased_fs (spares_recordOwnedDir _ _) h).seq fun _ l h => ?_
  refine (leased_unlessDenied hcfg h fun denial =>
    leaves_finishFailureAs rfl rfl fun _ => rfl).seq fun _ l h => ?_
  exact leased_install (fun latch l h => leased_abortContent hcfg h) h

/-! ## Adoption -/

theorem leased_unlessLatched {latch : Option String} (hcfg : gated = cfg.hasDispatchPolicy)
    (h : Latched gated latch l) :
    Leased gated (fun _ => At gated .none) Any
      (unlessLatched cfg id operation priorRunning latch) l := by
  cases latch with
  | some denial => exact leased_finishFailureAs
  | none =>
    exact (leased_unlessDenied hcfg (h rfl) fun denial =>
      leaves_finishFailureAs rfl rfl fun _ => rfl).mono (fun _ _ h => h.forget) fun _ _ _ => trivial

theorem leased_checkResult {result : ContentResult} {latch : Option String}
    (hcfg : gated = cfg.hasDispatchPolicy) (h : Latched gated latch l) :
    Leased gated (fun _ => At gated .none) Any
      (checkResult cfg id operation priorRunning name result latch) l := by
  refine (leased_unlessLatched hcfg h).seq fun _ l h => ?_
  refine .ite (fun _ => leased_finishFailureAs) fun _ => .ite (fun _ => leased_finishFailureAs)
    fun _ => (leased_ledger h).seq fun valid l h => .ite (fun _ => ?_) fun _ =>
      leased_finishFailureAs
  refine (leased_fs (calls_locateManifest rfl) h).seq fun source l h => ?_
  cases source with
  | none => exact leased_finishFailureAs
  | some source =>
    exact (leased_fs (calls_manifestAppidAt rfl) h).seq fun appid l h => .ite
      (fun _ => leased_finishFailureAs) fun _ => .ret h

/-- When a manifest may be written. -/
abbrev Late : Need :=
  { Need.none with clear := true, absent := true }

theorem leased_stopForGood (h : At gated { Need.none with granted := true, clear := true } l) :
    Leased gated (fun absent l => absent = true → At gated Late l) Any
      (stopForGood (ρ := ρ) id) l := by
  refine (leased_stopClient h rfl).seq fun stopped l h => .ite (fun _ => ?_)
    fun _ => .ret fun hf => by simp at hf
  refine (leased_clientPossiblyRunning h.1).seq fun running l h => .ret fun hr => ?_
  exact { h.forget with clear := h.clear, absent := fun _ => h.absent (by simpa using hr) }

theorem leased_stopLateClient (hcfg : gated = cfg.hasDispatchPolicy)
    (h : At gated { Need.none with clear := true } l) :
    Leased gated (fun _ => At gated Late) Any
      (stopLateClient cfg id operation priorRunning) l := by
  refine (leased_clientPossiblyRunning h).seq fun running l h => .ite (fun hr => ?_) fun hr => .ret ?_
  · refine (leased_unlessDenied hcfg h fun denial =>
      leaves_finishFailureAs rfl rfl fun _ => rfl).seq fun _ l h => ?_
    have h : At gated { Need.none with granted := true, clear := true } l :=
      { h.forget with granted := fun hg _ => h.granted hg rfl, clear := h.clear }
    exact (leased_stopForGood h).seq fun absent l h => .ite (fun ha => .ret (h ha))
      fun _ => leased_finishFailureAs
  · exact { h.forget with clear := h.clear, absent := fun _ => h.absent (by simpa using hr) }

theorem leased_lateLease (hcfg : gated = cfg.hasDispatchPolicy) (h : At gated .none l) :
    Leased gated (fun _ => At gated { Late with granted := true }) Any
      (lateLease cfg id operation priorRunning identity) l := by
  refine (leased_fs (calls_orNone (.ask rfl Prog.Calls.ofExcept)) h).seq fun current l h =>
    .ite (fun _ => leased_finishFailureAs) fun _ => ?_
  refine (leased_gates h).seq fun g l hg => .ite (fun _ => leased_finishFailureAs) fun hclear => ?_
  have h : At gated { Need.none with clear := true } l :=
    { hg.1.forget with clear := fun _ => hg.1.clear (by simpa [Need.seen] using hclear) }
  refine (leased_stopLateClient hcfg h).seq fun _ l h => ?_
  refine (leased_unlessDenied hcfg h fun denial =>
    leaves_finishFailureAs rfl rfl fun _ => rfl).seq fun _ l h => leased_ledger h

/-- The calls of a recovery, once the lease is held. -/
theorem leased_recovering {p : FsProg α} (h : At gated need l) (hc : need.clear = true)
    (ha : need.absent = true) :
    Leased gated (fun _ => At gated need) (fun _ => At gated need) (recovering (ρ := ρ) id p) l :=
  leased_silent (Prog.calls_lift_of_forall p fun c => ⟨rfl, by simp [Need.allows, Call.needsPolicy,
    Call.startsContent, hc, ha]⟩) h

theorem leased_adoptContent {source : Loc} (h : At gated { Late with granted := true } l) :
    Leased gated Any Any (adoptContent cfg id operation priorRunning name source) l := by
  have hadopt : Leased gated (fun _ => At gated { Late with granted := true })
      (fun _ => At gated { Late with granted := true })
      (adopting (ρ := ExecutionReport) id
        (adoptManifest cfg.paths source operation.appid name id)) l :=
    leased_silent (Prog.calls_lift_of_forall _ fun c => ⟨rfl, by simp [Need.allows,
      Call.needsPolicy, Call.startsContent]⟩) h
  refine .handling (Y := fun _ => At gated { Late with granted := true })
    (hadopt.seq fun _ l h => .ret trivial) (fun _ _ _ => trivial) fun x l _ h => ?_
  refine .seq (R := Any) (.handling (Y := Any) ((leased_recovering h rfl rfl).mono
    (fun _ _ _ => trivial) fun _ _ _ => trivial) (fun _ _ _ => trivial) fun x l _ _ => ?_)
    fun verdict l _ => .ite (fun _ => .ret trivial) fun _ => leased_finishFailureAs
  exact leased_leaves (.bind (calls_restoreClient rfl rfl) fun _ => trivial)

theorem leased_executeContent (hcfg : gated = cfg.hasDispatchPolicy) (h : At gated need l) :
    Leased gated Any Any (executeContent cfg id operation resuming) l := by
  refine (leased_contentGate hcfg h).seq fun gate l h => ?_
  refine (leased_admitContent h).seq fun name l h => ?_
  refine (leased_leaseGates h).seq fun g l h => ?_
  refine (leased_stopForContent hcfg h).seq fun priorRunning l h => ?_
  refine (leased_startContent hcfg h).seq fun _ l h => ?_
  refine (leased_runContent hcfg h).seq fun run l h => ?_
  refine (leased_checkResult hcfg h).seq fun source l h => ?_
  refine (leased_lateLease hcfg h).seq fun _ l h => ?_
  refine (leased_adoptContent h).seq fun _ l _ => ?_
  refine leased_free (.bind (calls_finishAdoption rfl rfl (fun _ => rfl) fun c hc => ?_) fun _ =>
    calls_verdictOf (fun _ => rfl) fun c hc => ?_)
  · simp [Call.free, Call.needsPolicy, Call.startsContent, Call.writesManifest, hc]
  · simp [Call.free, Call.needsPolicy, Call.startsContent, Call.writesManifest,
      FsCall.writesManifest_of_reads hc]

theorem leased_executeLocked (hcfg : gated = cfg.hasDispatchPolicy) (h : At gated need l) :
    Leased gated Any Any (executeLocked cfg id) l := by
  refine (leased_ledger h).seq fun operation l h => .ite (fun _ => .ret trivial) fun _ => ?_
  refine .ite (fun _ => leased_free (calls_launch rfl rfl rfl rfl fun _ => rfl)) fun _ => ?_
  exact .ite (fun _ => .ret trivial) fun _ => leased_executeContent hcfg h

theorem leased_clientExecuteLocked (hcfg : gated = cfg.hasDispatchPolicy) (h : At gated need l) :
    Leased gated Any Any (clientExecuteLocked cfg id) l := by
  refine (leased_ledger h).seq fun operation l h => .ite (fun _ => .ret trivial) fun _ => ?_
  refine .ite (fun _ => leased_free (calls_stopGame (fun _ => rfl) rfl rfl (fun _ => rfl)
    fun _ => rfl)) fun _ => ?_
  exact .ite (fun _ => .ret trivial) fun _ => leased_executeLocked hcfg h

/-! ## Recovery -/

theorem free_spares {c : FsCall} (h : FsCall.writesManifest c = false) :
    (Call.fs c).free = true := by
  simp [Call.free, Call.needsPolicy, Call.startsContent, Call.writesManifest, h]

theorem leased_leaseForRepair (h : At false need l) :
    Leased false (fun _ => At false Late) Any (leaseForRepair operation) l := by
  refine (leased_gates h).seq fun g l hg => .ite (fun hclear => ?_) fun _ => .finish trivial
  have h : At false { Need.none with granted := true, clear := true } l :=
    { hg.1.forget with
      granted := fun hf => by simp at hf
      clear := fun _ => hg.1.clear hclear }
  refine (leased_clientPossiblyRunning h).seq fun running l h => .ite (fun _ => ?_) fun hr => .ret ?_
  · have h : At false { Need.none with granted := true } l :=
      { h.forget with granted := fun hf => by simp at hf }
    refine (leased_stopClient h rfl).seq fun stopped l h => .ite (fun _ => ?_) fun _ =>
      leased_leaves (leaves_restoreAndLeave rfl rfl)
    refine Lawful.bind ((leased_gates_of_stop h.1 h.2).mono (fun g l hg => .ite (fun _ =>
      leased_leaves (leaves_restoreAndLeave rfl rfl)) fun hclear => .ret ?_) fun _ _ _ => trivial)
    obtain ⟨hclear, hpass⟩ := not_or.mp hclear
    exact { hg.1.forget with
      clear := fun _ => hg.1.clear (by simpa [Need.seen] using hclear)
      absent := fun _ => hg.2 (by simpa using hpass) }
  · exact { h.forget with clear := h.clear, absent := fun _ => h.absent (by simpa using hr) }

theorem leased_recoverAdopting (h : At false need l) :
    Leased false Any Any (recoverAdopting cfg operation) l := by
  refine (leased_leaseForRepair h).seq fun _ l h => .seq (R := Any) (.handling (Y := Any)
    ((leased_recovering h rfl rfl).mono (fun _ _ _ => trivial) fun _ _ _ => trivial)
    (fun _ _ _ => trivial) fun x l _ _ => leased_leaves (leaves_restoreAndLeave rfl rfl))
    fun verdict l _ => .ite (fun _ => leased_free (calls_restoreAndMove rfl rfl fun _ => rfl))
    fun _ => leased_free ?_
  refine .bind (calls_ledger fun _ => rfl) fun _ => .bind (calls_retireAndRestore rfl rfl
    fun _ => free_spares) fun _ => .bind (calls_ledger fun _ => rfl) fun _ => ?_
  exact calls_recoverVerdict (fun _ => rfl) fun _ => free_spares

theorem leased_recover (h : At false need l) :
    Leased false Any Any (recover cfg operation) l := by
  unfold recover
  split
  · exact leased_free (.bind (calls_ledger fun _ => rfl) fun _ => trivial)
  · exact leased_free (calls_restoreAndMove rfl rfl fun _ => rfl)
  · exact leased_free (calls_restoreAndMove rfl rfl fun _ => rfl)
  · exact leased_free (calls_recoverContent rfl rfl fun _ => rfl)
  · exact leased_free (calls_recoverInterrupted rfl rfl fun _ => rfl)
  · exact leased_recoverAdopting h
  · exact leased_free (calls_recoverAdopted rfl rfl (fun _ => rfl) fun _ => free_spares)
  · exact leased_free (calls_recoverAdopted rfl rfl (fun _ => rfl) fun _ => free_spares)
  · exact .ret trivial

theorem leased_reconcileLocked (h : At false need l) :
    Leased false Any Any (reconcileLocked cfg) l := by
  refine (leased_ledger h).seq fun active l h => ?_
  split
  · exact .ret trivial
  · refine (leased_ledger h).seq fun _ l h => (leased_ledger h).seq fun active l h => ?_
    cases active with
    | none => exact .ret trivial
    | some operation => exact leased_recover h

theorem leased_underLock {p : Body ρ ρ} (h : At gated need l)
    (hp : ∀ l : Log W, At gated need l → Leased gated Any Any p l) :
    Leased gated Any Any (underLock (leave p)) l := by
  refine .ask (fun w a w' => leaseLaw_of_free _ _ rfl) fun w a w' => ?_
  have h := h.keeps (keeps_silent (m := ⟨w, .acquireLock, a, w'⟩) rfl l)
  rcases a with x | ⟨⟩
  · exact .raise trivial
  · refine .attempt_bind ((Lawful.leave (Q := Any) (X := Any) (hp _ h) (fun _ _ _ => trivial)
      fun _ _ _ => trivial).mono (fun a l _ => ?_) fun x l _ => ?_)
    · exact leased_free (.ask rfl fun _ => Prog.Calls.ofExcept _)
    · exact leased_free (.ask rfl fun _ => Prog.Calls.ofExcept _)

/-- Before the first call nothing is known, and nothing was denied. -/
theorem at_nil : At gated .none ([] : Log W) :=
  ⟨fun _ => rfl, fun _ hn => by simp [Need.none] at hn, fun hn => by simp [Need.none] at hn,
    fun hn => by simp [Need.none] at hn, fun hn => by simp [Need.none] at hn,
    fun hn => by simp [Need.none] at hn⟩

/-! ## The results -/

/-- The two entry points that execute an operation. -/
def executes (cfg : Config) (id : Nat) (p : Broker ExecutionReport) : Prop :=
  p = execute cfg id ∨ p = clientExecute cfg id

theorem leased_executes {p : Broker ExecutionReport} (hp : executes cfg id p)
    (hcfg : gated = cfg.hasDispatchPolicy) : Leased gated Any Any p ([] : Log W) := by
  rcases hp with rfl | rfl
  · exact leased_underLock at_nil fun _ h => leased_executeLocked hcfg h
  · exact leased_underLock at_nil fun _ h => leased_clientExecuteLocked hcfg h

/-- Inside an execution, the client is stopped, steamcmd is started and a
manifest is adopted only on a policy read that permits, with no session call in
between, and never after a read that denied or failed. -/
theorem policy_honoured (hcfg : cfg.hasDispatchPolicy = true) {p : Broker ExecutionReport}
    (hp : executes cfg id p) {perform : W → (c : Call) → Call.Ans c → W → Prop}
    {rely : W → W → Prop} {w w' : W} {m : Move BrokerSig W} {p' : Broker ExecutionReport}
    (hr : Run perform rely p w (m :: l) p' w') (hm : m.call.needsPolicy = true) :
    permitted l = true ∧ revoked l = false :=
  ((leased_executes hp rfl).run hr).policy hcfg hm

/-- Steamcmd is started only under a lease that is held, after a probe that
found no other steamcmd.  A manifest is written or removed only when the latest
gates are clear and the latest evidence says that the client is absent. -/
theorem lease_safe {perform : W → (c : Call) → Call.Ans c → W → Prop} {rely : W → W → Prop}
    {w w' : W} {m : Move BrokerSig W}
    (hr : (∃ p p', executes cfg id p ∧ Run perform rely p w (m :: l) p' w') ∨
      ∃ p', Run perform rely (reconcile cfg) w (m :: l) p' w') :
    (m.call.startsContent = true → LeaseHeld l ∧ steamcmdCleared l = true) ∧
    (m.call.writesManifest = true → LeaseClear l ∧ latestPresence l = some false) := by
  rcases hr with ⟨p, p', hp, hr⟩ | ⟨p', hr⟩
  · have hlaw := (leased_executes hp rfl).run hr
    exact ⟨hlaw.content, hlaw.manifest⟩
  · have hnil : At false .none ([] : Log W) := at_nil
    have hlaw := (leased_underLock hnil fun _ h => leased_reconcileLocked h).run hr
    exact ⟨hlaw.content, hlaw.manifest⟩

/-! ## A run -/

/-- An install up to its last call before steamcmd runs, or further. -/
@[irreducible] def installUpTo (n : Nat) : Log World × Broker ExecutionReport × World :=
  (execute linuxBroker 1).moves (worldAnswers 0 fairWeather) n readyWorld []

theorem installUpTo_eq (n : Nat) : (execute linuxBroker 1).moves (worldAnswers 0 fairWeather) n
    readyWorld [] = installUpTo n := by
  rw [installUpTo]

theorem policy_honoured_stop :
    ∃ m l, Run (Call.perform 0) Eq (execute linuxBroker 1) readyWorld (m :: l)
        (installUpTo 22).2.1 (installUpTo 22).2.2 ∧
      m.call.needsPolicy = true ∧ permitted l = true ∧ revoked l = false := by
  have hlast : (installUpTo 22).1.head?.any (fun m => m.call.needsPolicy) = true := by
    decide +kernel
  obtain ⟨m, l, hr, hm⟩ := Run.of_last (q := Call.needsPolicy) Eq.refl
    (perform_worldAnswers 0 fairWeather) (installUpTo_eq 22) hlast
  exact ⟨m, l, hr, hm, policy_honoured (by decide) (Or.inl rfl) hr hm⟩

theorem lease_safe_install :
    (∃ m l, Run (Call.perform 0) Eq (execute linuxBroker 1) readyWorld (m :: l)
        (installUpTo 42).2.1 (installUpTo 42).2.2 ∧
      m.call.startsContent = true ∧ LeaseHeld l ∧ steamcmdCleared l = true) ∧
    ∃ m l, Run (Call.perform 0) Eq (execute linuxBroker 1) readyWorld (m :: l)
        (installUpTo 63).2.1 (installUpTo 63).2.2 ∧
      m.call.writesManifest = true ∧ LeaseClear l ∧ latestPresence l = some false := by
  have hstart : (installUpTo 42).1.head?.any (fun m => m.call.startsContent) = true := by
    decide +kernel
  have hwrite : (installUpTo 63).1.head?.any (fun m => m.call.writesManifest) = true := by
    decide +kernel
  obtain ⟨m, l, hr, hm⟩ := Run.of_last (q := Call.startsContent) Eq.refl
    (perform_worldAnswers 0 fairWeather) (installUpTo_eq 42) hstart
  obtain ⟨m', l', hr', hm'⟩ := Run.of_last (q := Call.writesManifest) Eq.refl
    (perform_worldAnswers 0 fairWeather) (installUpTo_eq 63) hwrite
  exact ⟨⟨m, l, hr, hm, (lease_safe (Or.inl ⟨_, _, Or.inl rfl, hr⟩)).1 hm⟩,
    m', l', hr', hm', (lease_safe (Or.inl ⟨_, _, Or.inl rfl, hr'⟩)).2 hm'⟩

end SteamAgent.Execution
