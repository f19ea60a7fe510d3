import Mathlib.Logic.Relation
import SteamAgent.Evals.Finalization
import SteamAgent.Evals.Imports

/-!
# A screen is finalized once

The directories that the calls lead to, whatever is killed on the way.

There are four groups.

* What a decision says of the screen it was made for.
* `Published` and `Inv`: the three phases of a screen.
* The calls in each phase.
* Runs.
-/

namespace SteamAgent.Evals

open Datetime (Instant)
open Result (bind_eq_ok)

/-! ## Decisions -/

theorem throw_ne_ok {α : Type} {message : String} {a : α} :
    (throw message : Except String α) ≠ .ok a := by
  simp [throw, throwThe, MonadExceptOf.throw]

theorem checked_eq_ok {lib : ScreenLibrary} {result a : AcceptanceResult} :
    AcceptanceResult.checked lib result = .ok a ↔ result.check lib = .ok () ∧ a = result := by
  rw [AcceptanceResult.checked, bind_eq_ok]
  constructor
  · rintro ⟨⟨⟩, hcheck, heq⟩
    exact ⟨hcheck, (Except.ok.inj heq).symm⟩
  · rintro ⟨hcheck, rfl⟩
    exact ⟨⟨⟩, hcheck, rfl⟩

/-- The evaluation does not see whether the manifest is bound. -/
theorem evaluateInspected_bound (lib : ScreenLibrary) (core : ManifestCore) (digest time : String)
    (artifacts : Artifacts) :
    evaluateInspected lib ⟨core, some digest, some time⟩ artifacts =
      evaluateInspected lib ⟨core, none, none⟩ artifacts :=
  rfl

/-- A complete decision on a screen is one on a completed matrix, and has no time. -/
theorem complete_of_evaluateInspected {lib : ScreenLibrary} {manifest : MatrixManifest}
    {artifacts : Artifacts} {decision : AcceptanceResult}
    (h : evaluateInspected lib manifest artifacts = .ok decision)
    (hkind : decision.campaignKind = .screen) (hstatus : decision.status = .complete) :
    manifest.core.completed = true ∧ manifest.core.campaignKind = .screen ∧
      decision.finalizedAt = none ∧ decision.check lib = .ok () := by
  rw [evaluateInspected] at h
  simp only [unless_eq_ok, bind_eq_ok] at h
  obtain ⟨-, ⟨⟩, -, h⟩ := h
  rw [when_eq_ok] at h
  obtain ⟨-, h⟩ := h
  split at h
  next =>
    obtain ⟨-, rfl⟩ := checked_eq_ok.mp h
    cases hstatus
  next hcompleted =>
    simp only [unless_eq_ok, bind_eq_ok, checked_eq_ok] at h
    obtain ⟨-, hscreen, ⟨⟩, -, evidence, -, decisions, -, hcheck, rfl⟩ := h
    exact ⟨by simpa using hcompleted, hkind, rfl, hcheck⟩

/-- A complete decision on a screen passes its check with the time of a clock too. -/
theorem check_of_unfinalized {screen : Screen} {result : AcceptanceResult} {now : Instant}
    (hcheck : result.unfinalized.check screen.toScreenLibrary = .ok ())
    (hkind : result.campaignKind = .screen) (hstatus : result.status = .complete)
    (htime : result.finalizedAt = some (screen.formatTime now)) :
    result.check screen.toScreenLibrary = .ok () := by
  rw [AcceptanceResult.check, unless_eq_ok, unless_eq_ok, unless_eq_ok, unless_eq_ok,
    unless_eq_ok] at hcheck ⊢
  obtain ⟨hdigests, hbenchmark, hpending, -, -, hlast⟩ := hcheck
  refine ⟨hdigests, hbenchmark, hpending, ?_, ?_, hlast⟩
  · simp [hkind, hstatus]
  · simp [htime, screen.parse_format]

/-! ## Phases -/

/-- The time of the decision is one of a clock, after the end of the screen. -/
def TimedAfter (screen : Screen) (result : AcceptanceResult) : Prop :=
  ∃ now finished value, result.finalizedAt = some (screen.formatTime now) ∧
    screen.core.finishedAt = some value ∧ screen.parseTime value = some finished ∧ finished < now

/-- The decision is published, and it is the one that the evidence leads to. -/
structure Published (screen : Screen) (disk : Disk) (result : AcceptanceResult) : Prop where
  acceptance : disk.acceptance = some result
  core : disk.manifest.core = screen.core
  timed : TimedAfter screen result
  evaluated : evaluateInspected screen.toScreenLibrary ⟨screen.core, none, none⟩ disk.artifacts =
    .ok result.unfinalized
  kind : result.campaignKind = .screen
  status : result.status = .complete
  validCore : screen.validCore screen.core = true
  inputs : screen.inspectInputs screen.core = .ok ()
  evidence : screen.inspectEvidence screen.core = .ok ()
  artifacts : inspectArtifacts disk.artifacts = .ok ()
  size : screen.manifestSize ⟨screen.core, none, none⟩ ≤ maxManifestBytes

/-- The manifest bound to the decision. -/
def boundManifest (screen : Screen) (result : AcceptanceResult) : MatrixManifest :=
  ⟨screen.core, some (screen.acceptanceDigest result), result.finalizedAt⟩

/-- The phases of a screen. -/
inductive Inv (screen : Screen) (disk : Disk) : Prop
  | unpublished (hacceptance : disk.acceptance = none)
      (hmanifest : disk.manifest = ⟨screen.core, none, none⟩)
  | published (result : AcceptanceResult) (h : Published screen disk result)
      (hmanifest : disk.manifest = ⟨screen.core, none, none⟩)
  | bound (result : AcceptanceResult) (h : Published screen disk result)
      (hmanifest : disk.manifest = boundManifest screen result)

namespace Published

variable {screen : Screen} {disk : Disk} {result : AcceptanceResult}

theorem complete (h : Published screen disk result) :
    screen.core.completed = true ∧ screen.core.campaignKind = .screen ∧
      result.unfinalized.check screen.toScreenLibrary = .ok () := by
  obtain ⟨hcompleted, hscreen, -, hcheck⟩ :=
    complete_of_evaluateInspected h.evaluated h.kind h.status
  exact ⟨hcompleted, hscreen, hcheck⟩

/-- The published decision passes its own check. -/
theorem check (h : Published screen disk result) :
    result.check screen.toScreenLibrary = .ok () := by
  obtain ⟨now, -, -, htime, -⟩ := h.timed
  exact check_of_unfinalized h.complete.2.2 h.kind h.status htime

theorem size_le (h : Published screen disk result) :
    screen.acceptanceSize result ≤ maxAcceptanceBytes := by
  obtain ⟨now, -, -, htime, -⟩ := h.timed
  have hsize := screen.acceptanceFits disk.artifacts _ h.evaluated now
  rwa [← htime] at hsize

theorem frozen (h : Published screen disk result) :
    frozenAcceptance screen.toScreenLibrary disk = .ok result := by
  rw [frozenAcceptance, h.acceptance]
  dsimp only
  rw [if_neg (Nat.not_lt.mpr h.size_le), h.check]
  rfl

/-- The manifest without an acceptance passes its check. -/
theorem check_unbound (h : Published screen disk result) :
    MatrixManifest.check screen.toScreenLibrary ⟨screen.core, none, none⟩ = .ok () := by
  rw [MatrixManifest.check, if_neg (by simp [h.validCore])]
  rfl

theorem check_bound (h : Published screen disk result) :
    (boundManifest screen result).check screen.toScreenLibrary = .ok () := by
  obtain ⟨now, finished, value, htime, hvalue, hfinished, hlt⟩ := h.timed
  obtain ⟨hcompleted, hscreen, -⟩ := h.complete
  rw [MatrixManifest.check, if_neg (by simp [boundManifest, h.validCore])]
  simp only [boundManifest, htime, hvalue, screen.parse_format, Option.bind_some, hfinished,
    hcompleted, hscreen, screen.isSha256_acceptanceDigest]
  rw [if_neg]
  · rfl
  · have hnot : ¬now ≤ finished := Nat.not_le.mpr hlt
    simpa using hnot

theorem validateBound (h : Published screen disk result)
    (hmanifest : disk.manifest = boundManifest screen result) :
    validateBoundAcceptance screen.toScreenLibrary disk = .ok () := by
  have hsize := Nat.not_lt.mpr h.size_le
  simp [validateBoundAcceptance, hmanifest, boundManifest, h.acceptance, h.kind, h.status, hsize,
    pure, Except.pure]

theorem inspect_unbound (h : Published screen disk result)
    (hmanifest : disk.manifest = ⟨screen.core, none, none⟩) :
    inspectMatrix screen.toScreenLibrary disk = .ok disk.manifest := by
  have hlayout : verifyMatrixLayout screen.toScreenLibrary disk = .ok () := by
    rw [verifyMatrixLayout, if_neg (by simp [hmanifest, h.complete.2.1])]
    simp only [bind_eq_ok, validateBoundAcceptance, hmanifest]
    exact ⟨⟨⟩, rfl, h.artifacts⟩
  rw [inspectMatrix, hmanifest, unless_eq_ok]
  simp only [bind_eq_ok]
  exact ⟨Nat.not_lt.mpr h.size, ⟨⟩, h.check_unbound, ⟨⟩, h.inputs, ⟨⟩, hlayout, ⟨⟩, h.evidence, rfl⟩

theorem inspect_bound (h : Published screen disk result)
    (hmanifest : disk.manifest = boundManifest screen result) :
    inspectMatrix screen.toScreenLibrary disk = .ok disk.manifest := by
  obtain ⟨now, -, -, htime, -⟩ := h.timed
  have hlayout : verifyMatrixLayout screen.toScreenLibrary disk = .ok () := by
    rw [verifyMatrixLayout,
      if_neg (by simp [hmanifest, boundManifest, h.acceptance, h.complete.2.1])]
    simp only [bind_eq_ok]
    exact ⟨⟨⟩, h.validateBound hmanifest, h.artifacts⟩
  have hsize : screen.manifestSize (boundManifest screen result) ≤ maxManifestBytes := by
    rw [boundManifest, htime]
    exact screen.manifestFits _ now (screen.isSha256_acceptanceDigest result)
  rw [inspectMatrix, hmanifest, unless_eq_ok]
  simp only [bind_eq_ok]
  exact ⟨Nat.not_lt.mpr hsize, ⟨⟩, h.check_bound, ⟨⟩, h.inputs, ⟨⟩, hlayout, ⟨⟩, h.evidence, rfl⟩

/-- A fresh evaluation gives the decision, up to its time. -/
theorem evaluated_bound (h : Published screen disk result) :
    evaluateInspected screen.toScreenLibrary (boundManifest screen result) disk.artifacts =
      .ok result.unfinalized := by
  obtain ⟨now, -, -, htime, -⟩ := h.timed
  rw [boundManifest, htime, evaluateInspected_bound]
  exact h.evaluated

end Published

/-! ## Calls -/

variable {screen : Screen} {disk : Disk} {result : AcceptanceResult}

/-- A bound screen is loaded as it was published. -/
theorem Published.load (h : Published screen disk result)
    (hmanifest : disk.manifest = boundManifest screen result) :
    loadFinalizedScreen screen.toScreenLibrary disk = .ok result := by
  obtain ⟨now, -, -, htime, -⟩ := h.timed
  have hevaluated := h.evaluated_bound
  rw [loadFinalizedScreen, h.inspect_bound hmanifest]
  simp only [bind_eq_ok, unless_eq_ok]
  refine ⟨disk.manifest, rfl, ?_, result, h.frozen, result.unfinalized, ?_, ?_, rfl⟩
  · simp [hmanifest, boundManifest, htime]
  · rw [hmanifest]
    exact hevaluated
  · simp [hmanifest, boundManifest, h.kind, h.status, htime]

/-- Binding a published decision succeeds. -/
theorem Published.bind (h : Published screen disk result)
    (hmanifest : disk.manifest = ⟨screen.core, none, none⟩) {time : String}
    (htime : result.finalizedAt = some time) :
    bindDecision screen.toScreenLibrary disk result time =
      ([{ disk with manifest := boundManifest screen result }], .ok result) := by
  obtain ⟨now, finished, value, hnow, -⟩ := h.timed
  obtain ⟨hcompleted, hscreen, -⟩ := h.complete
  have hbound : (⟨screen.core, some (screen.acceptanceDigest result), some time⟩ : MatrixManifest) =
      boundManifest screen result := by
    rw [boundManifest, htime]
  have hparse : (screen.parseTime time).isNone = false := by
    rw [hnow] at htime
    rw [← Option.some.inj htime, screen.parse_format]
    rfl
  have hbind : disk.manifest.bindAcceptance screen.toScreenLibrary
      (screen.acceptanceDigest result) time = .ok (boundManifest screen result) := by
    rw [MatrixManifest.bindAcceptance, hmanifest, unless_eq_ok, unless_eq_ok]
    simp only [bind_eq_ok]
    refine ⟨by simp [hcompleted, hscreen, screen.isSha256_acceptanceDigest], by simp [hparse], ⟨⟩,
      ?_, congrArg Except.ok hbound⟩
    rw [hbound]
    exact h.check_bound
  have hpersist : disk.manifest.persist screen.toScreenLibrary (boundManifest screen result) =
      .ok (boundManifest screen result) := by
    rw [MatrixManifest.persist, hmanifest, unless_eq_ok]
    simp only [bind_eq_ok]
    refine ⟨Nat.not_lt.mpr h.size, ⟨⟩, h.check_unbound, ?_⟩
    rw [if_pos (by simp [boundManifest])]
    rfl
  rw [bindDecision, hbind]
  have hboth : (Except.ok (boundManifest screen result) >>=
      disk.manifest.persist screen.toScreenLibrary) = .ok (boundManifest screen result) := hpersist
  rw [hboth]
  rfl

theorem Published.with_manifest (h : Published screen disk result) (manifest : MatrixManifest)
    (hcore : manifest.core = screen.core) :
    Published screen { disk with manifest := manifest } result :=
  { h with core := hcore }

/-- The decision of a published screen is the one that is published. -/
theorem Published.screenDecision (h : Published screen disk result)
    (hinspect : inspectMatrix screen.toScreenLibrary disk = .ok disk.manifest)
    (hevaluated : evaluateInspected screen.toScreenLibrary disk.manifest disk.artifacts =
      .ok result.unfinalized) :
    Evals.screenDecision screen.toScreenLibrary disk = .ok (disk.manifest, result.unfinalized) := by
  rw [Evals.screenDecision, hinspect]
  simp only [bind_eq_ok, unless_eq_ok]
  refine ⟨disk.manifest, rfl, result.unfinalized, hevaluated, ?_, rfl⟩
  simp [AcceptanceResult.unfinalized, h.kind, h.status]

/-- A rerun after the publication binds the manifest to what is published. -/
theorem Published.finalize (h : Published screen disk result)
    (hmanifest : disk.manifest = ⟨screen.core, none, none⟩) (now : Instant) :
    finalizeScreen screen.toScreenLibrary now disk =
      ([{ disk with manifest := boundManifest screen result }], .ok result) := by
  obtain ⟨time, -, -, htime, -⟩ := h.timed
  rw [finalizeScreen, h.screenDecision (h.inspect_unbound hmanifest) (hmanifest ▸ h.evaluated)]
  simp only [h.frozen, htime]
  rw [if_neg (by simp [hmanifest]), if_neg (by simp)]
  exact h.bind hmanifest htime

/-- A rerun after the binding returns what is published and writes nothing. -/
theorem Published.refinalize (h : Published screen disk result)
    (hmanifest : disk.manifest = boundManifest screen result) (now : Instant) :
    finalizeScreen screen.toScreenLibrary now disk = ([], .ok result) := by
  rw [finalizeScreen, h.screenDecision (h.inspect_bound hmanifest) (hmanifest ▸ h.evaluated_bound)]
  dsimp only
  rw [if_pos (by simp [hmanifest, boundManifest]), h.load hmanifest]

theorem finalizedAt_eq_ok {lib : ScreenLibrary} {now : Instant} {manifest : MatrixManifest}
    {decision published : AcceptanceResult}
    (h : finalizedAt lib now manifest decision = .ok published) :
    published = { decision with finalizedAt := some (lib.formatTime now) } ∧
      ∃ value finished, manifest.core.finishedAt = some value ∧
        lib.parseTime value = some finished ∧ finished < now := by
  rw [finalizedAt] at h
  cases hvalue : manifest.core.finishedAt with
  | none =>
    rw [hvalue] at h
    exact absurd h throw_ne_ok
  | some value =>
    rw [hvalue] at h
    dsimp only at h
    cases hfinished : lib.parseTime value with
    | none =>
      rw [hfinished] at h
      exact absurd h throw_ne_ok
    | some finished =>
      rw [hfinished] at h
      dsimp only at h
      rw [unless_eq_ok, checked_eq_ok] at h
      exact ⟨h.2.2, value, finished, rfl, hfinished, Nat.not_le.mp h.1⟩

/-- A complete decision takes the time of a clock that is past the end of the screen. -/
theorem finalizedAt_of_lt {now finished : Instant} {manifest : MatrixManifest} {value : String}
    {decision : AcceptanceResult}
    (hcheck : decision.unfinalized.check screen.toScreenLibrary = .ok ())
    (hkind : decision.campaignKind = .screen) (hstatus : decision.status = .complete)
    (hvalue : manifest.core.finishedAt = some value)
    (hfinished : screen.parseTime value = some finished) (hlt : finished < now) :
    finalizedAt screen.toScreenLibrary now manifest decision =
      .ok { decision with finalizedAt := some (screen.formatTime now) } := by
  rw [finalizedAt, hvalue]
  dsimp only
  rw [hfinished]
  dsimp only
  rw [unless_eq_ok, checked_eq_ok]
  exact ⟨Nat.not_le.mpr hlt, check_of_unfinalized hcheck hkind hstatus rfl, rfl⟩

theorem of_inspectMatrix {lib : ScreenLibrary} {manifest : MatrixManifest}
    (h : inspectMatrix lib disk = .ok manifest) :
    manifest = disk.manifest ∧ lib.manifestSize disk.manifest ≤ maxManifestBytes ∧
      lib.validCore disk.manifest.core = true ∧ lib.inspectInputs disk.manifest.core = .ok () ∧
      lib.inspectEvidence disk.manifest.core = .ok () ∧ inspectArtifacts disk.artifacts = .ok () := by
  rw [inspectMatrix, unless_eq_ok] at h
  simp only [bind_eq_ok] at h
  obtain ⟨hsize, ⟨⟩, hcheck, ⟨⟩, hinputs, ⟨⟩, hlayout, ⟨⟩, hevidence, heq⟩ := h
  rw [MatrixManifest.check, unless_eq_ok] at hcheck
  rw [verifyMatrixLayout, unless_eq_ok] at hlayout
  simp only [bind_eq_ok] at hlayout
  obtain ⟨-, ⟨⟩, -, hartifacts⟩ := hlayout
  exact ⟨(Except.ok.inj heq).symm, Nat.not_lt.mp hsize, by simpa using hcheck.1, hinputs, hevidence,
    hartifacts⟩

/-- A decision is on the manifest of the disk, and it is complete. -/
theorem of_screenDecision {lib : ScreenLibrary} {manifest : MatrixManifest}
    {decision : AcceptanceResult} (h : screenDecision lib disk = .ok (manifest, decision)) :
    manifest = disk.manifest ∧ inspectMatrix lib disk = .ok disk.manifest ∧
      evaluateInspected lib disk.manifest disk.artifacts = .ok decision ∧
      decision.campaignKind = .screen ∧ decision.status = .complete := by
  rw [screenDecision] at h
  simp only [bind_eq_ok, unless_eq_ok] at h
  obtain ⟨inspected, hinspect, found, hevaluated, hcomplete, heq⟩ := h
  obtain ⟨rfl, rfl⟩ := Prod.mk.inj (Except.ok.inj heq)
  obtain ⟨rfl, -⟩ := of_inspectMatrix hinspect
  simp only [Bool.or_eq_true, decide_eq_true_eq, not_or, Decidable.not_not] at hcomplete
  exact ⟨rfl, hinspect, hevaluated, hcomplete⟩

/-- What the first finalization publishes is the decision of the evidence. -/
theorem published_of_screenDecision {manifest : MatrixManifest} {decision published : AcceptanceResult}
    {now : Instant} (hmanifest : disk.manifest = ⟨screen.core, none, none⟩)
    (hdecision : screenDecision screen.toScreenLibrary disk = .ok (manifest, decision))
    (htime : finalizedAt screen.toScreenLibrary now manifest decision = .ok published) :
    Published screen { disk with acceptance := some published } published ∧
      published.finalizedAt = some (screen.formatTime now) := by
  obtain ⟨rfl, hinspect, hevaluated, hkind, hstatus⟩ := of_screenDecision hdecision
  obtain ⟨-, hsize, hvalid, hinputs, hevidence, hartifacts⟩ := of_inspectMatrix hinspect
  rw [hmanifest] at hevaluated hsize hvalid hinputs hevidence htime
  obtain ⟨-, -, hnone, -⟩ := complete_of_evaluateInspected hevaluated hkind hstatus
  obtain ⟨rfl, value, finished, hvalue, hfinished, hlt⟩ := finalizedAt_eq_ok htime
  have hsame : AcceptanceResult.unfinalized
      { decision with finalizedAt := some (screen.formatTime now) } = decision := by
    rw [AcceptanceResult.unfinalized, ← hnone]
  refine ⟨?_, rfl⟩
  exact {
    acceptance := rfl
    core := congrArg MatrixManifest.core hmanifest
    timed := ⟨now, finished, value, rfl, hvalue, hfinished, hlt⟩
    evaluated := hsame.symm ▸ hevaluated
    kind := hkind
    status := hstatus
    validCore := hvalid
    inputs := hinputs
    evidence := hevidence
    artifacts := hartifacts
    size := hsize }

/-- Nothing is imported once the decision is published. -/
theorem import_error_of_acceptance (lib : ScreenLibrary) (h : disk.acceptance.isSome = true) :
    (∀ source, ∃ message, importScreenJudgment lib disk source = .error message) ∧
      ∀ source, ∃ message, importScreenAdjudication lib disk source = .error message := by
  have hfinalized : (disk.matrix lib).finalized = true := by simp [Disk.matrix, h]
  constructor
  · intro source
    refine ⟨"finalized screen cannot accept qualitative artifacts", ?_⟩
    rw [importScreenJudgment, importJudgment.eq_def, if_pos hfinalized]
    rfl
  · intro source
    refine ⟨"finalized screen cannot accept qualitative artifacts", ?_⟩
    rw [importScreenAdjudication, importAdjudication.eq_def, if_pos hfinalized]
    rfl

/-- Before a publication there is nothing frozen. -/
theorem frozenAcceptance_of_none {lib : ScreenLibrary} (hacceptance : disk.acceptance = none) :
    frozenAcceptance lib disk = .error "finalized screen acceptance is unavailable" := by
  rw [frozenAcceptance, hacceptance]
  rfl

theorem unbound_of_screenDecision {lib : ScreenLibrary} {core : ManifestCore}
    {manifest : MatrixManifest} {decision : AcceptanceResult}
    (hmanifest : disk.manifest = ⟨core, none, none⟩)
    (hdecision : screenDecision lib disk = .ok (manifest, decision)) :
    manifest.acceptanceSha256.isSome = false := by
  rw [(of_screenDecision hdecision).1, hmanifest]
  rfl

/-- The first finalization publishes the decision, and then binds the manifest to it. -/
theorem finalize_first {manifest : MatrixManifest} {decision published : AcceptanceResult}
    {now : Instant} (hacceptance : disk.acceptance = none)
    (hmanifest : disk.manifest = ⟨screen.core, none, none⟩)
    (hdecision : screenDecision screen.toScreenLibrary disk = .ok (manifest, decision))
    (htime : finalizedAt screen.toScreenLibrary now manifest decision = .ok published) :
    finalizeScreen screen.toScreenLibrary now disk =
      ([{ disk with acceptance := some published },
        ⟨boundManifest screen published, some published, disk.artifacts⟩], .ok published) := by
  obtain ⟨hpublished, hnow⟩ := published_of_screenDecision hmanifest hdecision htime
  have hunbound := unbound_of_screenDecision hmanifest hdecision
  rw [finalizeScreen]
  simp only [hdecision, frozenAcceptance_of_none hacceptance, hunbound, htime, hacceptance]
  rw [if_neg (by simp), if_neg (by simp), if_neg (by simp), hpublished.bind hmanifest hnow]

/-- The first finalization writes nothing, or publishes a decision and binds the manifest
to it. -/
theorem finalize_cases (hacceptance : disk.acceptance = none)
    (hmanifest : disk.manifest = ⟨screen.core, none, none⟩) (now : Instant) :
    (∃ message, finalizeScreen screen.toScreenLibrary now disk = ([], .error message)) ∨
      ∃ published, Published screen { disk with acceptance := some published } published ∧
        finalizeScreen screen.toScreenLibrary now disk =
          ([{ disk with acceptance := some published },
            ⟨boundManifest screen published, some published, disk.artifacts⟩], .ok published) := by
  cases hdecision : screenDecision screen.toScreenLibrary disk with
  | error message =>
    refine Or.inl ⟨message, ?_⟩
    rw [finalizeScreen, hdecision]
    rfl
  | ok found =>
    obtain ⟨manifest, decision⟩ := found
    cases htime : finalizedAt screen.toScreenLibrary now manifest decision with
    | ok published =>
      exact Or.inr ⟨published, (published_of_screenDecision hmanifest hdecision htime).1,
        finalize_first hacceptance hmanifest hdecision htime⟩
    | error message =>
      refine Or.inl ⟨message, ?_⟩
      have hunbound := unbound_of_screenDecision hmanifest hdecision
      rw [finalizeScreen]
      simp only [hdecision, frozenAcceptance_of_none hacceptance, hunbound, htime]
      rw [if_neg (by simp), if_neg (by simp)]
      rfl

/-- The writes of the first finalization. -/
theorem Inv.of_finalize {disk' : Disk} {now : Instant} (hacceptance : disk.acceptance = none)
    (hmanifest : disk.manifest = ⟨screen.core, none, none⟩)
    (hwrite : disk' ∈ (finalizeScreen screen.toScreenLibrary now disk).1) : Inv screen disk' := by
  rcases finalize_cases hacceptance hmanifest now with ⟨message, heq⟩ | ⟨published, h, heq⟩
  · rw [heq] at hwrite
    cases hwrite
  · rw [heq] at hwrite
    rcases List.mem_cons.mp hwrite with rfl | hwrite
    · exact .published published h hmanifest
    · obtain rfl := List.mem_singleton.mp hwrite
      exact .bound published (h.with_manifest _ rfl) rfl

theorem artifacts_of_importInspected {lib : ScreenLibrary} {imported : Except String Artifacts}
    {disk' : Disk} (h : importInspected lib disk imported = .ok disk') :
    disk' = { disk with artifacts := disk'.artifacts } := by
  rw [importInspected] at h
  simp only [bind_eq_ok] at h
  obtain ⟨artifacts, -, -, -, heq⟩ := h
  rw [← Except.ok.inj heq]

theorem mem_toList_toOption {α : Type} {x : Except String α} {a : α}
    (h : a ∈ x.toOption.toList) : x = .ok a := by
  cases x with
  | error message => simp [Except.toOption] at h
  | ok b => simpa [Except.toOption, eq_comm] using h

/-- On a published screen a call binds the manifest to what is published, or it writes
nothing. -/
theorem Published.writes (h : Published screen disk result)
    (hmanifest : disk.manifest = ⟨screen.core, none, none⟩ ∨
      disk.manifest = boundManifest screen result) {call : ScreenCall} {disk' : Disk}
    (hwrite : disk' ∈ call.writes screen.toScreenLibrary disk) :
    disk' = { disk with manifest := boundManifest screen result } := by
  have hpublished : disk.acceptance.isSome = true := by rw [h.acceptance]; rfl
  cases call with
  | finalize now =>
    rw [ScreenCall.writes] at hwrite
    rcases hmanifest with hmanifest | hmanifest
    · rw [h.finalize hmanifest] at hwrite
      exact List.mem_singleton.mp hwrite
    · rw [h.refinalize hmanifest] at hwrite
      cases hwrite
  | load => cases hwrite
  | importJudgment source =>
    obtain ⟨message, herror⟩ :=
      (import_error_of_acceptance screen.toScreenLibrary hpublished).1 source
    rw [ScreenCall.writes, herror] at hwrite
    cases hwrite
  | importAdjudication source =>
    obtain ⟨message, herror⟩ :=
      (import_error_of_acceptance screen.toScreenLibrary hpublished).2 source
    rw [ScreenCall.writes, herror] at hwrite
    cases hwrite

/-- A call keeps the phases in order. -/
theorem Inv.step {disk' : Disk} (h : Inv screen disk)
    (hstep : ScreenStep screen.toScreenLibrary disk disk') : Inv screen disk' := by
  rcases hstep with rfl | ⟨call, hwrite⟩
  · exact h
  · cases h with
    | unpublished hacceptance hmanifest =>
      cases call with
      | finalize now => exact Inv.of_finalize hacceptance hmanifest hwrite
      | load => cases hwrite
      | importJudgment source =>
        rw [artifacts_of_importInspected (mem_toList_toOption hwrite)]
        exact .unpublished hacceptance hmanifest
      | importAdjudication source =>
        rw [artifacts_of_importInspected (mem_toList_toOption hwrite)]
        exact .unpublished hacceptance hmanifest
    | published result h hmanifest =>
      rw [h.writes (Or.inl hmanifest) hwrite]
      exact .bound result (h.with_manifest _ rfl) rfl
    | bound result h hmanifest =>
      rw [h.writes (Or.inr hmanifest) hwrite]
      exact .bound result (h.with_manifest _ rfl) rfl

/-! ## Runs -/

/-- The directories that calls lead to, one after the other under the lock and each killed
at any point. -/
def ScreenRun (screen : Screen) : Disk → Disk → Prop :=
  Relation.ReflTransGen (ScreenStep screen.toScreenLibrary)

theorem Inv.run {disk' : Disk} (h : Inv screen disk) (hrun : ScreenRun screen disk disk') :
    Inv screen disk' := by
  induction hrun with
  | refl => exact h
  | tail _ hstep ih => exact ih.step hstep

/-- What is published stays, and so does a binding. -/
theorem Published.run (h : Published screen disk result)
    (hmanifest : disk.manifest = ⟨screen.core, none, none⟩ ∨
      disk.manifest = boundManifest screen result) {disk' : Disk}
    (hrun : ScreenRun screen disk disk') :
    disk' = disk ∨ disk' = { disk with manifest := boundManifest screen result } := by
  induction hrun with
  | refl => exact Or.inl rfl
  | tail _ hstep ih =>
    rcases hstep with rfl | ⟨call, hwrite⟩
    · exact ih
    · rcases ih with rfl | rfl
      · exact Or.inr (h.writes hmanifest hwrite)
      · exact Or.inr ((h.with_manifest _ rfl).writes (Or.inr rfl) hwrite)

/-- The directory after all writes of a call. -/
def afterWrites (disk : Disk) (writes : List Disk) : Disk :=
  writes.getLast?.getD disk

/-- What holds of a screen at every point of every run. -/
structure FinalizedOnce (screen : Screen) (disk : Disk) : Prop where
  /-- A bound manifest is never unbound or bound to something else. -/
  once : disk.manifest ≠ ⟨screen.core, none, none⟩ →
    ∀ disk', ScreenRun screen disk disk' → disk'.manifest = disk.manifest
  /-- The bound digest is that of the published acceptance, and the bound time its time. -/
  digest : disk.manifest ≠ ⟨screen.core, none, none⟩ → ∃ result, disk.acceptance = some result ∧
    disk.manifest.acceptanceSha256 = some (screen.acceptanceDigest result) ∧
    disk.manifest.acceptanceFinalizedAt = result.finalizedAt
  /-- A published acceptance is never replaced. -/
  published : ∀ result, disk.acceptance = some result →
    ∀ disk', ScreenRun screen disk disk' → disk'.acceptance = some result
  /-- Nothing is imported once an acceptance is published. -/
  imports : disk.acceptance.isSome = true →
    (∀ source, ∃ message,
      importScreenJudgment screen.toScreenLibrary disk source = .error message) ∧
      ∀ source, ∃ message,
        importScreenAdjudication screen.toScreenLibrary disk source = .error message
  /-- A screen with a complete decision is finalized, by a clock past the end of the screen. -/
  finalizes : disk.acceptance = none → ∀ manifest decision value finished now,
    screenDecision screen.toScreenLibrary disk = .ok (manifest, decision) →
    screen.core.finishedAt = some value → screen.parseTime value = some finished → finished < now →
      (finalizeScreen screen.toScreenLibrary now disk).2 =
        .ok { decision with finalizedAt := some (screen.formatTime now) }
  /-- A finalization that returns a decision has published it and bound the manifest to it, and
  a load then returns it. -/
  publishes : ∀ now result, (finalizeScreen screen.toScreenLibrary now disk).2 = .ok result →
    let disk' := afterWrites disk (finalizeScreen screen.toScreenLibrary now disk).1
    disk'.acceptance = some result ∧ disk'.manifest = boundManifest screen result ∧
      loadFinalizedScreen screen.toScreenLibrary disk' = .ok result
  /-- A rerun returns what is published, whatever its clock. -/
  rerun : ∀ result, disk.acceptance = some result → ∀ now,
    (finalizeScreen screen.toScreenLibrary now disk).2 = .ok result
  /-- A load after it returns the same, which is a fresh evaluation but for the time. -/
  load : ∀ result, disk.acceptance = some result → ∀ now,
    let disk' := afterWrites disk (finalizeScreen screen.toScreenLibrary now disk).1
    loadFinalizedScreen screen.toScreenLibrary disk' = .ok result ∧
      evaluateInspected screen.toScreenLibrary disk'.manifest disk'.artifacts =
        .ok result.unfinalized

/-- The first finalization of a complete screen past its end. -/
theorem finalize_of_lt (hacceptance : disk.acceptance = none)
    (hmanifest : disk.manifest = ⟨screen.core, none, none⟩) (manifest : MatrixManifest)
    (decision : AcceptanceResult) (value : String) (finished now : Instant)
    (hdecision : screenDecision screen.toScreenLibrary disk = .ok (manifest, decision))
    (hvalue : screen.core.finishedAt = some value)
    (hfinished : screen.parseTime value = some finished) (hlt : finished < now) :
    let published := { decision with finalizedAt := some (screen.formatTime now) }
    finalizeScreen screen.toScreenLibrary now disk =
      ([{ disk with acceptance := some published },
        ⟨boundManifest screen published, some published, disk.artifacts⟩], .ok published) := by
  obtain ⟨rfl, -, hevaluated, hkind, hstatus⟩ := of_screenDecision hdecision
  obtain ⟨-, -, hnone, hcheck⟩ := complete_of_evaluateInspected hevaluated hkind hstatus
  have hsame : decision.unfinalized = decision := by
    rw [AcceptanceResult.unfinalized, ← hnone]
  have hmanifestValue : disk.manifest.core.finishedAt = some value := by
    rw [hmanifest]
    exact hvalue
  have htime := finalizedAt_of_lt (hsame.symm ▸ hcheck) hkind hstatus hmanifestValue hfinished hlt
  exact finalize_first hacceptance hmanifest hdecision htime

/-- The first finalization publishes what it returns. -/
theorem finalize_publishes (hacceptance : disk.acceptance = none)
    (hmanifest : disk.manifest = ⟨screen.core, none, none⟩) (now : Instant)
    (result : AcceptanceResult)
    (hok : (finalizeScreen screen.toScreenLibrary now disk).2 = .ok result) :
    let disk' := afterWrites disk (finalizeScreen screen.toScreenLibrary now disk).1
    disk'.acceptance = some result ∧ disk'.manifest = boundManifest screen result ∧
      loadFinalizedScreen screen.toScreenLibrary disk' = .ok result := by
  rcases finalize_cases hacceptance hmanifest now with ⟨message, heq⟩ | ⟨published, h, heq⟩
  · rw [heq] at hok
    cases hok
  · rw [heq] at hok ⊢
    obtain rfl := Except.ok.inj hok
    exact ⟨rfl, rfl, (h.with_manifest (boundManifest screen published) rfl).load rfl⟩

/-- A published screen, bound or not yet, is finalized once. -/
theorem Published.finalizedOnce (h : Published screen disk result)
    (hmanifest : disk.manifest = ⟨screen.core, none, none⟩ ∨
      disk.manifest = boundManifest screen result) : FinalizedOnce screen disk := by
  have hbound : disk.manifest ≠ ⟨screen.core, none, none⟩ →
      disk.manifest = boundManifest screen result := by
    intro hne
    exact hmanifest.resolve_left hne
  have hsame : ∀ result', disk.acceptance = some result' → result' = result := by
    intro result' hresult'
    rw [h.acceptance] at hresult'
    exact (Option.some.inj hresult').symm
  constructor
  case once =>
    intro hne disk' hrun
    rcases h.run hmanifest hrun with rfl | rfl
    · rfl
    · exact (hbound hne).symm
  case digest =>
    intro hne
    refine ⟨result, h.acceptance, ?_, ?_⟩
    · rw [hbound hne]
      rfl
    · rw [hbound hne]
      rfl
  case published =>
    intro result' hresult' disk' hrun
    rcases h.run hmanifest hrun with rfl | rfl
    · exact hresult'
    · exact hresult'
  case imports => exact import_error_of_acceptance screen.toScreenLibrary
  case finalizes =>
    intro hnone
    rw [h.acceptance] at hnone
    cases hnone
  case publishes =>
    intro now result' hresult'
    rcases hmanifest with hmanifest | hmanifest
    · rw [h.finalize hmanifest] at hresult' ⊢
      obtain rfl := Except.ok.inj hresult'
      exact ⟨h.acceptance, rfl, (h.with_manifest (boundManifest screen result) rfl).load rfl⟩
    · rw [h.refinalize hmanifest] at hresult' ⊢
      obtain rfl := Except.ok.inj hresult'
      exact ⟨h.acceptance, hmanifest, h.load hmanifest⟩
  case rerun =>
    intro result' hresult' now
    rw [hsame result' hresult']
    rcases hmanifest with hmanifest | hmanifest
    · rw [h.finalize hmanifest]
    · rw [h.refinalize hmanifest]
  case load =>
    intro result' hresult' now
    rw [hsame result' hresult']
    rcases hmanifest with hmanifest | hmanifest
    · rw [h.finalize hmanifest]
      have hafter := h.with_manifest (boundManifest screen result) rfl
      exact ⟨hafter.load rfl, hafter.evaluated_bound⟩
    · rw [h.refinalize hmanifest]
      refine ⟨h.load hmanifest, ?_⟩
      show evaluateInspected screen.toScreenLibrary disk.manifest disk.artifacts = _
      rw [hmanifest]
      exact h.evaluated_bound

/-- A screen is finalized once, whatever is called and killed. -/
theorem finalized_once (screen : Screen) (artifacts : Artifacts) (disk : Disk)
    (hrun : ScreenRun screen (screen.start artifacts) disk) : FinalizedOnce screen disk := by
  have hinv : Inv screen disk := Inv.run (.unpublished rfl rfl) hrun
  cases hinv with
  | unpublished hacceptance hmanifest =>
    have hnone : ∀ result, disk.acceptance ≠ some result := by
      intro result hresult
      rw [hacceptance] at hresult
      cases hresult
    exact {
      once := fun hne => absurd hmanifest hne
      digest := fun hne => absurd hmanifest hne
      published := fun result hresult => absurd hresult (hnone result)
      imports := import_error_of_acceptance screen.toScreenLibrary
      finalizes := fun _ manifest decision value finished now hdecision hvalue hfinished hlt =>
        congrArg Prod.snd (finalize_of_lt hacceptance hmanifest manifest decision value finished
          now hdecision hvalue hfinished hlt)
      publishes := finalize_publishes hacceptance hmanifest
      rerun := fun result hresult => absurd hresult (hnone result)
      load := fun result hresult => absurd hresult (hnone result) }
  | published result h hmanifest => exact h.finalizedOnce (Or.inl hmanifest)
  | bound result h hmanifest => exact h.finalizedOnce (Or.inr hmanifest)

/-! A screen whose only route left attempts behind, and a clock after its end. -/

def rejectedCore : ManifestCore where
  matrixId := "matrix-1"
  completed := true
  campaignKind := .screen
  configSha256 := "01d3a5a3b2a4a4a39d1b8a1b27b22d3c5ff62df0f8d5bc2ddf1a1d25f5e6d101"
  campaignSha256 := "11d3a5a3b2a4a4a39d1b8a1b27b22d3c5ff62df0f8d5bc2ddf1a1d25f5e6d102"
  planSha256 := "21d3a5a3b2a4a4a39d1b8a1b27b22d3c5ff62df0f8d5bc2ddf1a1d25f5e6d103"
  sourceScreenManifestSha256 := none
  sourceScreenAcceptanceSha256 := none
  finishedAt := some "2026-07-01T12:00:00.000001Z"

def rejectedScreen : Screen where
  judge := screenLibrary
  matrix := screenMatrix
  validCore _ := true
  inspectInputs _ := .ok ()
  inspectEvidence _ := .ok ()
  structurallyComplete _ := true
  policyShape _ := .ok ()
  screenCorpus _ := .ok ()
  chronology _ := .ok ()
  pendingDecisions _ :=
    [⟨⟨some "gpt-5.6-sol", some "high"⟩, .unresolved, ["campaign_pending"], ["work-1"]⟩]
  decideRoutes _ _ :=
    .ok [⟨⟨some "gpt-5.6-sol", some "high"⟩, .rejected, ["extra_attempt_history"], ["work-1"]⟩]
  attemptHistorySha256 := "31d3a5a3b2a4a4a39d1b8a1b27b22d3c5ff62df0f8d5bc2ddf1a1d25f5e6d104"
  evidenceDigest _ := "41d3a5a3b2a4a4a39d1b8a1b27b22d3c5ff62df0f8d5bc2ddf1a1d25f5e6d105"
  manifestDigest _ := "a1d3a5a3b2a4a4a39d1b8a1b27b22d3c5ff62df0f8d5bc2ddf1a1d25f5e6d10a"
  acceptanceDigest _ := "b1d3a5a3b2a4a4a39d1b8a1b27b22d3c5ff62df0f8d5bc2ddf1a1d25f5e6d10b"
  manifestSize _ := 2048
  acceptanceSize _ := 1024
  parseTime := Instant.parse
  formatTime := Instant.text
  parse_format := Instant.parse_text
  isSha256_acceptanceDigest _ := rfl
  core := rejectedCore
  manifestFits _ _ _ := Nat.le_of_ble_eq_true rfl
  acceptanceFits _ _ _ _ := Nat.le_of_ble_eq_true rfl

/-- 2026-07-18T19:33:20.000001Z. -/
def rejectedNow : Instant :=
  ⟨63920000000000001, Nat.le_of_ble_eq_true rfl⟩

/-- The screen after its finalization. -/
def rejectedDisk : Disk :=
  afterWrites (rejectedScreen.start ⟨[], []⟩)
    (finalizeScreen rejectedScreen.toScreenLibrary rejectedNow (rejectedScreen.start ⟨[], []⟩)).1

/-- What is published of the screen. -/
def rejectedResult : AcceptanceResult where
  campaignKind := .screen
  matrixId := "matrix-1"
  manifestSha256 := rejectedScreen.manifestDigest ⟨rejectedCore, none, none⟩
  configSha256 := rejectedCore.configSha256
  campaignSha256 := rejectedCore.campaignSha256
  planSha256 := rejectedCore.planSha256
  status := .complete
  routes :=
    [⟨⟨some "gpt-5.6-sol", some "high"⟩, .rejected, ["extra_attempt_history"], ["work-1"]⟩]
  survivors := []
  qualifiedRoutes := []
  sourceScreenManifestSha256 := none
  qualitativeEvidenceSha256 := some (rejectedScreen.evidenceDigest ⟨[], [], []⟩)
  sourceScreenAcceptanceSha256 := none
  attemptHistorySha256 := rejectedScreen.attemptHistorySha256
  finalizedAt := some "2026-07-18T19:33:20.000001Z"

/-- The screen is finalized by its first call. -/
theorem finalize_rejected :
    finalizeScreen rejectedScreen.toScreenLibrary rejectedNow (rejectedScreen.start ⟨[], []⟩) =
      ([⟨⟨rejectedCore, none, none⟩, some rejectedResult, ⟨[], []⟩⟩,
        ⟨boundManifest rejectedScreen rejectedResult, some rejectedResult, ⟨[], []⟩⟩],
        .ok rejectedResult) := by
  have hdecision : screenDecision rejectedScreen.toScreenLibrary (rejectedScreen.start ⟨[], []⟩) =
      .ok (⟨rejectedCore, none, none⟩, rejectedResult.unfinalized) := by
    decide +kernel
  have hfinished : rejectedScreen.parseTime "2026-07-01T12:00:00.000001Z" =
      some ⟨63918504000000001, Nat.le_of_ble_eq_true rfl⟩ := by
    decide +kernel
  have htime : some (rejectedScreen.formatTime rejectedNow) = rejectedResult.finalizedAt := by
    decide +kernel
  have hfinalize := finalize_of_lt rfl rfl _ _ _ _ rejectedNow hdecision rfl hfinished
    (by decide)
  rw [htime] at hfinalize
  exact hfinalize

theorem finalized_once_rejected :
    rejectedDisk = ⟨boundManifest rejectedScreen rejectedResult, some rejectedResult, ⟨[], []⟩⟩ ∧
      FinalizedOnce rejectedScreen rejectedDisk := by
  have hdisk : rejectedDisk =
      ⟨boundManifest rejectedScreen rejectedResult, some rejectedResult, ⟨[], []⟩⟩ := by
    rw [rejectedDisk, finalize_rejected]
    rfl
  have hwrite : rejectedDisk ∈ (ScreenCall.finalize rejectedNow).writes
      rejectedScreen.toScreenLibrary (rejectedScreen.start ⟨[], []⟩) := by
    rw [hdisk, ScreenCall.writes, finalize_rejected]
    exact List.mem_cons_of_mem _ List.mem_cons_self
  exact ⟨hdisk, finalized_once rejectedScreen ⟨[], []⟩ rejectedDisk
    (Relation.ReflTransGen.single (Or.inr ⟨.finalize rejectedNow, hwrite⟩))⟩

end SteamAgent.Evals
