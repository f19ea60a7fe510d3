import SteamAgent.Execution.Windows.Logic

/-!
# When Windows adoption is crash-safe

`adopt_manifest` cut at any point, then `reconcile_adoption` any number of
times, each call cut at any point.

The journal and the destination move through four phases.

* `Settled`: no journal of the operation, and the old content.
* `Pending`: the journal and the backup are in place.  The destination is the
  old file, or its name was lost by a `replace`.
* `Restored`: the restore copy is the destination, and its journal is in place.
* `Landed`: the staged file is the destination, and the journal is in place.

Recovery replaces the journal by `replace`, too.  If that loses the journal
name while the destination name is lost, the next call finds no journal and
reports a clean state: the state is `Lost`.  Without such a move every phase is
kept, and the verdict agrees with the destination.
-/

namespace SteamAgent.Execution.Windows

open Effects
open Sha256 (Bytes sha256hex)

/-! ## Phases -/

/-- No journal of operation `n`. -/
def Foreign (appid n : Nat) (w : WinFs) : Prop :=
  ∀ file, w.get (.journal appid) = some file →
    ∀ record, decodeRecord file.data.json = .ok record → record.operationId ≠ n

/-- No file of operation `n`. -/
structure NoArtifacts (appid n : Nat) (w : WinFs) : Prop where
  journal : Foreign appid n w
  stage : w.get (.stage appid n) = none
  backup : w.get (.backup appid n) = none
  restore : w.get (.restore appid n) = none
  intent : w.get (.intent appid n) = none
  recovery : w.get (.recovery appid n) = none

/-- What adoption has fixed when it journals: the record, the staged file and
the backup. -/
structure Plan where
  record : AdoptionRecord
  stage : WinFile
  backup : Option WinFile

/-- The plan of operation `n`, for the old file `prior` and the new content. -/
structure Plan.Fits (plan : Plan) (appid n : Nat) (prior : Option WinFile) (patched : Bytes) :
    Prop where
  appid : plan.record.appid = appid
  operationId : plan.record.operationId = n
  checksum : plan.record.checksum = sha256hex patched
  stageIdentity : plan.record.stageIdentity = plan.stage.id
  originalIdentity : plan.record.originalIdentity = prior.map WinFile.id
  backupIdentity : plan.record.backupIdentity = plan.backup.map WinFile.id
  backupChecksum : plan.record.backupChecksum = plan.backup.map fun b => sha256hex b.data.bytes
  restoreIdentity : plan.record.restoreIdentity = none
  stage : plan.stage.data = .ofBytes patched
  backup : plan.backup.map WinFile.data = prior.map WinFile.data
  differs : ∀ file, prior = some file → file.id ≠ plan.stage.id

theorem Plan.Fits.ids {plan : Plan} {appid n : Nat} {prior : Option WinFile} {patched : Bytes}
    (h : plan.Fits appid n prior patched) :
    appid = plan.record.appid ∧ n = plan.record.operationId :=
  ⟨h.appid.symm, h.operationId.symm⟩

/-- The record with the identity of a restore copy. -/
def Plan.journal (plan : Plan) (restore : Option WinIdentity) : FileData :=
  .ofJson { plan.record with restoreIdentity := restore }.toJson

/-- A copy of the backup under an identity of its own. -/
structure Plan.Copy (plan : Plan) (file : WinFile) : Prop where
  data : plan.backup.map WinFile.data = some file.data
  differs : file.id ≠ plan.stage.id

structure Settled (appid n : Nat) (prior : Option WinFile) (w : WinFs) : Prop where
  foreign : Foreign appid n w
  dest : (w.get (.manifest appid)).map WinFile.data = prior.map WinFile.data

structure Pending (plan : Plan) (appid n : Nat) (prior : Option WinFile) (w : WinFs) : Prop where
  journal : ∃ id restore, w.get (.journal appid) = some ⟨id, plan.journal restore⟩ ∧
    ∀ r, restore = some r → ∃ file, w.get (.restore appid n) = some file ∧ file.id = r
  stage : w.get (.stage appid n) = some plan.stage
  backup : ∀ file, plan.backup = some file → w.get (.backup appid n) = some file
  restore : ∀ file, w.get (.restore appid n) = some file → plan.Copy file
  recovery : ∀ file, w.get (.recovery appid n) = some file →
    ∃ copy, w.get (.restore appid n) = some copy ∧ file.data = plan.journal (some copy.id)
  dest : w.get (.manifest appid) = prior ∨ w.get (.manifest appid) = none

structure Restored (plan : Plan) (appid : Nat) (w : WinFs) : Prop where
  dest : ∃ file, w.get (.manifest appid) = some file ∧ plan.Copy file ∧
    ∃ id, w.get (.journal appid) = some ⟨id, plan.journal (some file.id)⟩

structure Landed (plan : Plan) (appid : Nat) (w : WinFs) : Prop where
  journal : ∃ id, w.get (.journal appid) = some ⟨id, plan.journal none⟩
  dest : w.get (.manifest appid) = some plan.stage

/-- The journal name and the name of the old destination are gone. -/
structure Lost (appid : Nat) (prior : Option WinFile) (w : WinFs) : Prop where
  journal : w.get (.journal appid) = none
  dest : w.get (.manifest appid) = none
  old : prior ≠ none

/-- The phases.  Without a patched content the operation never journals
anything. -/
def Phase (appid n : Nat) (prior : Option WinFile) (patched : Option Bytes) (w : WinFs) : Prop :=
  Settled appid n prior w ∨
    ∃ p plan, patched = some p ∧ Plan.Fits plan appid n prior p ∧
      (Pending plan appid n prior w ∨ Restored plan appid w ∨ Landed plan appid w)

/-- The bytes that `adopt_manifest` places, if it can patch the source. -/
def patchedBytes (source : Option WinFile) (appid : Nat) (installDirName : String) :
    Option Bytes :=
  source.bind fun file => (patchManifest file.data.bytes appid installDirName).toOption

/-- A `replace` of the journal that loses its name while there is no
destination. -/
def journalLost (appid : Nat) (m : Move WinSig WinFs) : Prop :=
  loses (.journal appid) m ∧ m.before.get (.manifest appid) = none

theorem losing_journalLost (appid : Nat) : Losing (journalLost appid) :=
  fun _ h => ⟨_, h.1⟩

variable {appid n : Nat} {prior : Option WinFile} {patched : Bytes} {plan : Plan} {w : WinFs}

theorem foreign_of_none (h : w.get (.journal appid) = none) : Foreign appid n w := by
  intro file hfile
  rw [h] at hfile
  simp at hfile

/-! ## Adoption -/

/-- Before the journal: the old destination, and nothing of recovery. -/
structure Early (appid n : Nat) (prior : Option WinFile) (w : WinFs) : Prop where
  journal : w.get (.journal appid) = none
  restore : w.get (.restore appid n) = none
  recovery : w.get (.recovery appid n) = none
  dest : w.get (.manifest appid) = prior

theorem Early.settled (h : Early appid n prior w) : Settled appid n prior w :=
  ⟨foreign_of_none h.journal, by rw [h.dest]⟩

/-- A file at another path. -/
theorem Early.put (h : Early appid n prior w) {path : WinPath} (file : WinFile)
    (hpath : path = .backup appid n ∨ path = .stage appid n ∨ path = .intent appid n) :
    Early appid n prior (w.put path file) := by
  rcases hpath with rfl | rfl | rfl <;>
    exact ⟨by simp [h.journal], by simp [h.restore], by simp [h.recovery], by simp [h.dest]⟩

/-- No move of adoption is bad. -/
theorem losing_false : Losing fun _ => False :=
  fun _ h => h.elim

/-- The logic of adoption. -/
abbrev AdoptSafe {α : Type} (Good : WinFs → Prop) (Q : α → WinFs → Prop) (p : WinProg α)
    (w : WinFs) : Prop :=
  WinSafe (fun _ => False) Good (fun _ => False) Q p w

theorem WinSafe.anyExists {Bad : Move WinSig WinFs → Prop} {Good Lost : WinFs → Prop}
    (hB : Losing Bad) {Q : Bool → WinFs → Prop} {paths : List WinPath} (hG : Good w)
    (h : ∀ b, (b = false → ∀ path ∈ paths, w.get path = none) → Q b w) :
    WinSafe Bad Good Lost Q (anyExists paths) w := by
  induction paths with
  | nil => exact ret (h false fun _ path hp => by simp at hp)
  | cons path rest ih =>
    refine bind (pathExists hB hG ?_)
    cases hpath : w.get path with
    | some file => exact ret (h true fun hb => by simp at hb)
    | none =>
      refine ih fun b hb => h b fun hfalse q hq => ?_
      rcases List.mem_cons.mp hq with rfl | hq
      · exact hpath
      · exact hb hfalse q hq

/-- The lexical checks and the checks for a journal of another kind. -/
theorem WinSafe.checkPaths {Bad : Move WinSig WinFs → Prop} {Good Lost : WinFs → Prop}
    {Q : Unit → WinFs → Prop} (site : Site) (hG : Good w) (h : Q () w) :
    WinSafe Bad Good Lost Q (checkPaths site appid) w :=
  ite (fun _ => raise hG) fun _ => bind (ofExcept hG fun _ _ => ofExcept hG fun _ _ => h)

theorem WinSafe.rejectLegacy {Bad : Move WinSig WinFs → Prop} {Good Lost : WinFs → Prop}
    (hB : Losing Bad) {Q : Unit → WinFs → Prop} (hG : Good w) (h : Q () w) :
    WinSafe Bad Good Lost Q (rejectLegacy appid) w :=
  bind (pathExists hB hG (ite (fun _ => raise hG) fun _ => ret h))

theorem WinSafe.checkRoots {Bad : Move WinSig WinFs → Prop} {Good Lost : WinFs → Prop}
    (hB : Losing Bad) {Q : Unit → WinFs → Prop} {record : AdoptionRecord} (hG : Good w)
    (h : Q () w) : WinSafe Bad Good Lost Q (checkRoots record) w := by
  refine bind (directoryIdentity hB hG fun _ _ => ite (fun _ => raise hG) fun _ => ?_)
  exact bind (directoryIdentity hB hG fun _ _ => ite (fun _ => raise hG) fun _ => ret h)

/-- The backup is a copy of the destination. -/
theorem safe_backUp {Good : WinFs → Prop} (h : Early appid n prior w)
    (hG : ∀ w', Early appid n prior w' → Good w') :
    AdoptSafe Good (fun r w' => Early appid n prior w' ∧ ∃ backup : Option WinFile,
        r = (prior.map WinFile.id, backup.map WinFile.id,
          backup.map fun b => sha256hex b.data.bytes) ∧
        backup.map WinFile.data = prior.map WinFile.data ∧
        ∀ file, backup = some file → w'.get (.backup appid n) = some file)
      (backUp appid n) w := by
  refine .bind (.pathExists losing_false (hG w h) ?_)
  rw [h.dest]
  cases prior with
  | none => exact .ret ⟨h, none, rfl, rfl, fun file hf => by simp at hf⟩
  | some old =>
    refine .bind (.fileIdentity losing_false (hG w h) fun file hfile => ?_)
    obtain rfl := Option.some.inj (h.dest.symm.trans hfile)
    refine .bind (.copyNew losing_false (hG w h) fun file id hfile _ _ => ?_)
    obtain rfl := Option.some.inj (h.dest.symm.trans hfile)
    have hput := h.put ⟨id, old.data⟩ (Or.inl rfl)
    refine ⟨hG _ hput, .bind (.fileIdentity losing_false (hG _ hput) fun file hfile => ?_)⟩
    obtain rfl : ⟨id, old.data⟩ = file := by simpa using hfile
    refine .bind (.read losing_false (hG _ hput) fun file hfile => ?_)
    obtain rfl : ⟨id, old.data⟩ = file := by simpa using hfile
    exact .ret ⟨hput, some ⟨id, old.data⟩, rfl, rfl, fun file hf => by
      obtain rfl := Option.some.inj hf
      simp⟩

/-- The swap, from a pending adoption that has not been recovered. -/
theorem safe_swapStage {Good : WinFs → Prop} (hfits : plan.Fits appid n prior patched)
    (h : Pending plan appid n prior w) (hdest : w.get (.manifest appid) = prior)
    (hjournal : ∃ id, w.get (.journal appid) = some ⟨id, plan.journal none⟩)
    (hpending : ∀ w', Pending plan appid n prior w' → Good w')
    (hlanded : ∀ w', Landed plan appid w' → Good w') :
    AdoptSafe Good (fun _ w' => Landed plan appid w') (swapStage plan.record) w := by
  have hland : Landed plan appid
      ((w.remove (.stage appid n)).put (.manifest appid) plan.stage) :=
    ⟨by simpa using hjournal, by simp⟩
  unfold swapStage
  rw [hfits.appid, hfits.operationId, hfits.originalIdentity]
  cases prior with
  | none =>
    refine .moveNew losing_false (hpending w h) fun file hfile _ => ?_
    obtain rfl := Option.some.inj (h.stage.symm.trans hfile)
    exact ⟨hlanded _ hland, hland⟩
  | some old =>
    refine .bind (.fileIdentity losing_false (hpending w h) fun _ _ => ?_)
    refine .ite (fun _ => .raise (hpending w h)) fun _ => ?_
    refine .replace losing_false (hpending w h) (fun m _ _ _ hafter _ => ?_) fun file hfile _ => ?_
    · refine Or.inl ⟨id, hpending _ ?_⟩
      rw [hafter]
      exact ⟨by simpa using h.journal, by simpa using h.stage, by simpa using h.backup,
        by simpa using h.restore, by simpa using h.recovery, Or.inr (by simp)⟩
    · obtain rfl := Option.some.inj (h.stage.symm.trans hfile)
      exact ⟨hlanded _ hland, hland⟩

/-- The plan of an adoption. -/
def planOf (appid n : Nat) (steamapps journals stage : WinIdentity) (prior backup : Option WinFile)
    (patched : Bytes) : Plan where
  record := ⟨appid, n, sha256hex patched, steamapps, journals, stage, prior.map WinFile.id,
    backup.map WinFile.id, backup.map fun b => sha256hex b.data.bytes, none⟩
  stage := ⟨stage, .ofBytes patched⟩
  backup := backup

/-- The journal of a staged adoption. -/
theorem Early.pending (h : Early appid n prior w) (id : WinIdentity)
    (hstage : w.get (.stage appid n) = some plan.stage)
    (hbackup : ∀ file, plan.backup = some file → w.get (.backup appid n) = some file) :
    Pending plan appid n prior
      ((w.remove (.intent appid n)).put (.journal appid) ⟨id, plan.journal none⟩) where
  journal := ⟨id, none, by simp, fun r hr => by simp at hr⟩
  stage := by simpa using hstage
  backup file hf := by simpa using hbackup file hf
  restore file hf := by simp [h.restore] at hf
  recovery file hf := by simp [h.recovery] at hf
  dest := Or.inl (by simpa using h.dest)

/-- Staging keeps the phases. -/
theorem safe_stageAndSwap (steamapps journals : WinIdentity) (h : Early appid n prior w) :
    AdoptSafe (Phase appid n prior (some patched)) (fun _ _ => True)
      (stageAndSwap appid n steamapps journals patched) w := by
  have hearly : ∀ w', Early appid n prior w' → Phase appid n prior (some patched) w' :=
    fun _ h' => Or.inl h'.settled
  refine .bind (.mono ?_ (safe_backUp h hearly))
  rintro r w₁ ⟨h₁, backup, rfl, hdata, hbackup⟩
  refine .bind (.writeNew losing_false (hearly w₁ h₁) fun stage _ hfresh => ?_)
  have h₂ := h₁.put ⟨stage, .ofBytes patched⟩ (Or.inr (Or.inl rfl))
  have hbackup₂ : ∀ file, backup = some file →
      (w₁.put (.stage appid n) ⟨stage, .ofBytes patched⟩).get (.backup appid n) = some file :=
    fun file hf => by simpa using hbackup file hf
  refine ⟨hearly _ h₂, .bind (.fileIdentity losing_false (hearly _ h₂) fun file hfile => ?_)⟩
  obtain rfl : ⟨stage, .ofBytes patched⟩ = file := by simpa using hfile
  refine .ite (fun _ => .raise (hearly _ h₂)) fun _ => ?_
  have hfits : (planOf appid n steamapps journals stage prior backup patched).Fits appid n prior
      patched :=
    ⟨rfl, rfl, rfl, rfl, rfl, rfl, rfl, rfl, rfl, hdata,
      fun file hf => hfresh.ne (h₁.dest.trans hf)⟩
  refine .bind (.writeNew losing_false (hearly _ h₂) fun intent _ _ => ?_)
  have h₃ := h₂.put ⟨intent, (planOf appid n steamapps journals stage prior backup
    patched).journal none⟩ (Or.inr (Or.inr rfl))
  refine ⟨hearly _ h₃, .bind (.moveNew losing_false (hearly _ h₃) fun file hfile _ => ?_)⟩
  obtain rfl : ⟨intent, (planOf appid n steamapps journals stage prior backup
    patched).journal none⟩ = file := by
    rw [WinFs.get_put_self] at hfile
    exact Option.some.inj hfile
  have hpending : ∀ w', Pending (planOf appid n steamapps journals stage prior backup patched)
      appid n prior w' → Phase appid n prior (some patched) w' :=
    fun _ h' => Or.inr ⟨_, _, rfl, hfits, Or.inl h'⟩
  have hlanded : ∀ w', Landed (planOf appid n steamapps journals stage prior backup patched)
      appid w' → Phase appid n prior (some patched) w' :=
    fun _ h' => Or.inr ⟨_, _, rfl, hfits, Or.inr (Or.inr h')⟩
  have h₄ : Pending (planOf appid n steamapps journals stage prior backup patched) appid n prior _ :=
    h₃.pending intent (by simp [planOf]) fun file hf => by simpa using hbackup₂ file hf
  refine ⟨hpending _ h₄, .bind (.checkRoots losing_false (hpending _ h₄) (.bind ?_))⟩
  refine .mono (fun _ w' hw' => ?_) (safe_swapStage hfits h₄ (by simp [h₁.dest])
    ⟨intent, by simp⟩ hpending hlanded)
  refine .bind (.bind (.fileIdentity losing_false (hlanded w' hw') fun _ _ => ?_))
  refine .ite (fun _ => .raise (hlanded w' hw')) fun _ => ?_
  refine .bind (.read losing_false (hlanded w' hw') fun _ _ => ?_)
  exact .ite (fun _ => .raise (hlanded w' hw')) fun _ => .ret (.ret trivial)

/-- Adoption keeps the phases. -/
theorem safe_adopt (site : Site) (source : Spelled) (name : String)
    (h : NoArtifacts appid n w) :
    AdoptSafe (Phase appid n (w.get (.manifest appid))
        (patchedBytes (w.get source.path) appid name)) (fun _ _ => True)
      (adoptManifest site source appid name n) w := by
  have hG : Phase appid n (w.get (.manifest appid)) (patchedBytes (w.get source.path) appid name)
      w := Or.inl ⟨h.journal, rfl⟩
  refine .sanitized (.bind (.checkPaths site hG ?_))
  refine .ite (fun _ => .raise hG) fun _ => .bind (.rejectLegacy losing_false hG ?_)
  refine .bind (.directoryIdentity losing_false hG fun steamapps _ => ?_)
  refine .bind (.directoryIdentity losing_false hG fun journals _ => ?_)
  refine .bind (.anyExists losing_false hG fun b hb => .ite (fun _ => .raise hG) fun hfalse => ?_)
  have hjournal := hb (by simpa using hfalse) (.journal appid) (by simp)
  refine .bind (.ofExcept hG fun _ _ => .bind (.read losing_false hG fun file hfile => ?_))
  refine .bind (.ofExcept hG fun patched hpatched => ?_)
  have hsome : patchedBytes (w.get source.path) appid name = some patched := by
    simp [patchedBytes, hfile, hpatched, Except.toOption]
  rw [hsome]
  exact safe_stageAndSwap steamapps journals ⟨hjournal, h.restore, h.recovery, rfl⟩

/-! ## Recovery -/

/-- The logic of recovery. -/
abbrev RecoverSafe {α : Type} (appid : Nat) (prior : Option WinFile) (Good : WinFs → Prop)
    (Q : α → WinFs → Prop) (p : WinProg α) (w : WinFs) : Prop :=
  WinSafe (journalLost appid) Good (Lost appid prior) Q p w

/-- Recovery of another operation's journal, or of none. -/
theorem safe_reconcile_foreign (site : Site) {Bad : Move WinSig WinFs → Prop} {Good Lost : WinFs → Prop}
    (hB : Losing Bad) (hG : Good w) (h : Foreign appid n w) :
    WinSafe Bad Good Lost (fun verdict w' =>
        (verdict = .clean ∨ verdict = .stale) ∧ w' = w)
      (reconcileAdoption site appid (some n)) w := by
  refine .sanitized (.bind (.checkPaths site hG (.bind (.rejectLegacy hB hG ?_))))
  refine .bind (.pathExists hB hG (.ite (fun _ => ?_) fun _ => .ret ⟨Or.inl rfl, rfl⟩))
  refine .bind (.read hB hG fun file hfile => .bind (.ofExcept hG fun record hrecord => ?_))
  refine .ite (fun _ => .raise hG) fun _ => .bind (.checkRoots hB hG ?_)
  have hstale : (some n).any (fun m => decide (m ≠ record.operationId)) = true := by
    simpa using (h file hfile record hrecord).symm
  rw [if_pos hstale]
  exact .ret ⟨Or.inr rfl, rfl⟩

/-- The own journal passes every check, so recovery decides by the
destination. -/
theorem safe_reconcile_own (site : Site) {Bad : Move WinSig WinFs → Prop}
    {Good Lost : WinFs → Prop} {Q : AdoptionVerdict → WinFs → Prop} (hB : Losing Bad)
    (hfits : plan.Fits appid n prior patched) (hG : Good w) {id : WinIdentity}
    {restore : Option WinIdentity} (h : w.get (.journal appid) = some ⟨id, plan.journal restore⟩)
    (hdecide : WinSafe Bad Good Lost Q
      (reconcileRecord { plan.record with restoreIdentity := restore }) w) :
    WinSafe Bad Good Lost Q (reconcileAdoption site appid (some n)) w := by
  refine .sanitized (.bind (.checkPaths site hG (.bind (.rejectLegacy hB hG ?_))))
  refine .bind (.pathExists hB hG ?_)
  rw [h]
  refine .bind (.read hB hG fun file hfile => .bind (.ofExcept hG fun record hrecord => ?_))
  obtain rfl := Option.some.inj (h.symm.trans hfile)
  obtain rfl := decodeRecord_toJson hrecord
  refine .ite (fun _ => .raise hG) fun _ => .bind (.checkRoots hB hG ?_)
  have hown : ¬ (some n).any (fun m => decide (m ≠ plan.record.operationId)) = true := by
    simp [hfits.operationId]
  rw [if_neg hown]
  exact hdecide

/-- A landed swap is recognised by the staged file. -/
theorem safe_reconcile_landed (site : Site) {Bad : Move WinSig WinFs → Prop}
    {Good Lost : WinFs → Prop} (hB : Losing Bad)
    (hfits : plan.Fits appid n prior patched) (hG : Good w) (h : Landed plan appid w) :
    WinSafe Bad Good Lost (fun verdict w' => verdict = .completed ∧ w' = w)
      (reconcileAdoption site appid (some n)) w := by
  obtain ⟨id, hjournal⟩ := h.journal
  refine safe_reconcile_own site hB hfits hG hjournal ?_
  unfold reconcileRecord
  rw [hfits.appid]
  refine .bind (.pathExists hB hG ?_)
  rw [h.dest]
  refine .bind (.fileIdentity hB hG fun file hfile => ?_)
  obtain rfl := Option.some.inj (h.dest.symm.trans hfile)
  refine .bind (.read hB hG fun file hfile => ?_)
  obtain rfl := Option.some.inj (h.dest.symm.trans hfile)
  have hlanded : plan.stage.id = plan.record.stageIdentity ∧
      sha256hex plan.stage.data.bytes = plan.record.checksum := by
    rw [hfits.stageIdentity, hfits.checksum, hfits.stage]
    exact ⟨rfl, rfl⟩
  rw [if_pos hlanded]
  exact .bind (.flush hB hG (.ret ⟨rfl, rfl⟩))

/-- Without a journal the old content is settled. -/
theorem settled_remove_journal
    (h : (w.get (.manifest appid)).map WinFile.data = prior.map WinFile.data) :
    Settled appid n prior (w.remove (.journal appid)) where
  foreign := foreign_of_none (by simp)
  dest := by simpa using h

/-- The end of every recovery that restores. -/
theorem safe_retire {Good : WinFs → Prop} (hG : Good w)
    (hsettled : ∀ w', Settled appid n prior w' → Good w')
    (h : (w.get (.manifest appid)).map WinFile.data = prior.map WinFile.data) :
    RecoverSafe appid prior Good (fun verdict w' =>
        verdict = AdoptionVerdict.restored ∧ Settled appid n prior w') (do
      delete (.journal appid)
      return AdoptionVerdict.restored) w :=
  .bind (.delete (losing_journalLost appid) hG (hsettled _ (settled_remove_journal h))
    (.ret ⟨rfl, settled_remove_journal h⟩))

/-- The data of a restore copy is the old data. -/
theorem Plan.Copy.old {file : WinFile} (h : plan.Copy file)
    (hfits : plan.Fits appid n prior patched) : some file.data = prior.map WinFile.data := by
  rw [← hfits.backup, h.data]

/-- A restored destination is recognised by its journal. -/
theorem safe_reconcile_restored (site : Site) {Good : WinFs → Prop}
    (hfits : plan.Fits appid n prior patched) (hG : Good w) (h : Restored plan appid w)
    (hsettled : ∀ w', Settled appid n prior w' → Good w') :
    RecoverSafe appid prior Good (fun verdict w' => verdict = .restored ∧ Settled appid n prior w')
      (reconcileAdoption site appid (some n)) w := by
  have hB := losing_journalLost appid
  obtain ⟨copy, hdest, hcopy, id, hjournal⟩ := h.dest
  refine safe_reconcile_own site hB hfits hG hjournal ?_
  unfold reconcileRecord
  rw [hfits.appid]
  refine .bind (.pathExists hB hG ?_)
  rw [hdest]
  refine .bind (.fileIdentity hB hG fun file hfile => ?_)
  obtain rfl := Option.some.inj (hdest.symm.trans hfile)
  refine .bind (.read hB hG fun file hfile => ?_)
  obtain rfl := Option.some.inj (hdest.symm.trans hfile)
  have hnot : ¬ (copy.id = plan.record.stageIdentity ∧
      sha256hex copy.data.bytes = plan.record.checksum) := by
    rw [hfits.stageIdentity]
    exact fun h => hcopy.differs h.1
  have hrestored : some copy.id = some copy.id ∧
      some (sha256hex copy.data.bytes) = plan.record.backupChecksum := by
    obtain ⟨backup, hb, hdata⟩ := Option.map_eq_some_iff.mp hcopy.data
    rw [hfits.backupChecksum, hb, ← hdata]
    exact ⟨rfl, rfl⟩
  rw [if_neg hnot, if_pos hrestored]
  refine .bind (.flush hB hG ?_)
  exact safe_retire hG hsettled (by rw [hdest]; exact hcopy.old hfits)

/-- The restore copy is there, made before or just now. -/
theorem safe_prepareRestore {Good : WinFs → Prop} (hfits : plan.Fits appid n prior patched)
    (h : Pending plan appid n prior w) {backup : WinFile} (hbackup : plan.backup = some backup)
    (hG : ∀ w', Pending plan appid n prior w' → Good w') (restore : Option WinIdentity) :
    RecoverSafe appid prior Good (fun id w' => Pending plan appid n prior w' ∧
        w'.get (.manifest appid) = w.get (.manifest appid) ∧
        ∃ copy, w'.get (.restore appid n) = some copy ∧ copy.id = id)
      (prepareRestore { plan.record with restoreIdentity := restore } backup.id) w := by
  obtain ⟨rfl, rfl⟩ := hfits.ids
  have hB := losing_journalLost plan.record.appid
  unfold prepareRestore
  dsimp only
  have hthere := h.backup backup hbackup
  refine .bind (.pathExists hB (hG w h) ?_)
  rw [hthere]
  refine .bind (.fileIdentity hB (hG w h) fun file hfile => ?_)
  obtain rfl := Option.some.inj (hthere.symm.trans hfile)
  refine .ite (fun _ => .raise (hG w h)) fun _ => .bind (.read hB (hG w h) fun file hfile => ?_)
  obtain rfl := Option.some.inj (hthere.symm.trans hfile)
  refine .ite (fun _ => .raise (hG w h)) fun _ => .bind (.pathExists hB (hG w h) ?_)
  cases hrestore : w.get (.restore plan.record.appid plan.record.operationId) with
  | some copy =>
    refine .bind (.read hB (hG w h) fun _ _ => .ite (fun _ => .bind (.raise (hG w h))) fun _ => ?_)
    exact .fileIdentity hB (hG w h) fun file hfile => ⟨h, rfl, file, hfile, rfl⟩
  | none =>
    refine .bind (.copyNew hB (hG w h) fun file id hfile _ hfresh => ?_)
    obtain rfl := Option.some.inj (hthere.symm.trans hfile)
    have hput : Pending plan _ _ prior
        (w.put (.restore plan.record.appid plan.record.operationId) ⟨id, backup.data⟩) :=
      { journal := by
          obtain ⟨jid, r, hj, hr⟩ := h.journal
          refine ⟨jid, r, by simpa using hj, fun q hq => ?_⟩
          obtain ⟨file, hf, _⟩ := hr q hq
          rw [hrestore] at hf
          simp at hf
        stage := by simpa using h.stage
        backup := by simpa using h.backup
        restore := by
          rintro file hf
          obtain rfl : ⟨id, backup.data⟩ = file := by simpa using hf
          exact ⟨by rw [hbackup]; rfl, (hfresh.ne h.stage).symm⟩
        recovery := by
          intro file hf
          obtain ⟨copy, hc, _⟩ := h.recovery file (by simpa using hf)
          rw [hrestore] at hc
          simp at hc
        dest := by simpa using h.dest }
    refine ⟨hG _ hput, .fileIdentity hB (hG _ hput) fun file hfile => ?_⟩
    exact ⟨hput, by simp, file, hfile, rfl⟩

/-- The journal of a restore copy is in place. -/
structure Rejournaled (plan : Plan) (appid n : Nat) (prior : Option WinFile) (copy : WinFile)
    (w : WinFs) : Prop extends Pending plan appid n prior w where
  copied : w.get (.restore appid n) = some copy
  rejournaled : ∃ id, w.get (.journal appid) = some ⟨id, plan.journal (some copy.id)⟩

/-- The one `replace` that may lose the journal. -/
theorem safe_replaceJournal {Good : WinFs → Prop} (h : Pending plan appid n prior w)
    {old copy recovery : WinFile} (hprior : prior = some old)
    (hcopy : w.get (.restore appid n) = some copy)
    (hrecovery : w.get (.recovery appid n) = some recovery)
    (hdata : recovery.data = plan.journal (some copy.id))
    (hG : ∀ w', Pending plan appid n prior w' → Good w')
    (hsettled : ∀ w', Settled appid n prior w' → Good w') :
    RecoverSafe appid prior Good (fun _ w' => Rejournaled plan appid n prior copy w' ∧
        w'.get (.manifest appid) = w.get (.manifest appid))
      (replace (.recovery appid n) (.journal appid)) w := by
  have hB := losing_journalLost appid
  refine .replace hB (hG w h) (fun m hbefore _ hloses hafter _ => ?_) fun file hfile _ => ?_
  · rw [hafter]
    rcases h.dest with hdest | hdest
    · refine Or.inl ⟨fun hbad => ?_, hsettled _ (settled_remove_journal (by rw [hdest]))⟩
      have hnone := hbad.2
      rw [hbefore, hdest, hprior] at hnone
      simp at hnone
    · exact Or.inr ⟨⟨hloses, by rw [hbefore, hdest]⟩, ⟨by simp, by simpa using hdest, by simp [hprior]⟩⟩
  · obtain rfl := Option.some.inj (hrecovery.symm.trans hfile)
    have hjournal : ((w.remove (.recovery appid n)).put (.journal appid) recovery).get
        (.journal appid) = some ⟨recovery.id, plan.journal (some copy.id)⟩ := by
      rw [WinFs.get_put_self, ← hdata]
    have hnext : Rejournaled plan appid n prior copy
        ((w.remove (.recovery appid n)).put (.journal appid) recovery) :=
      { journal := by
          refine ⟨recovery.id, some copy.id, hjournal, fun r hr => ⟨copy, by simpa using hcopy, ?_⟩⟩
          exact Option.some.inj hr
        stage := by simpa using h.stage
        backup := by simpa using h.backup
        restore := by simpa using h.restore
        recovery := fun file hf => by simp at hf
        dest := by simpa using h.dest
        copied := by simpa using hcopy
        rejournaled := ⟨recovery.id, hjournal⟩ }
    exact ⟨hG _ hnext.toPending, hnext, by simp⟩

theorem safe_journalRestore {Good : WinFs → Prop} (hfits : plan.Fits appid n prior patched)
    (h : Pending plan appid n prior w) {old copy : WinFile} (hprior : prior = some old)
    (hcopy : w.get (.restore appid n) = some copy)
    (hG : ∀ w', Pending plan appid n prior w' → Good w')
    (hsettled : ∀ w', Settled appid n prior w' → Good w') :
    RecoverSafe appid prior Good (fun _ w' => Rejournaled plan appid n prior copy w' ∧
        w'.get (.manifest appid) = w.get (.manifest appid))
      (journalRestore { plan.record with restoreIdentity := some copy.id }) w := by
  obtain ⟨rfl, rfl⟩ := hfits.ids
  have hB := losing_journalLost plan.record.appid
  unfold journalRestore
  dsimp only
  refine .bind (.pathExists hB (hG w h) ?_)
  cases hrecovery : w.get (.recovery plan.record.appid plan.record.operationId) with
  | some recovery =>
    obtain ⟨copy', hc, hdata⟩ := h.recovery recovery hrecovery
    obtain rfl := Option.some.inj (hcopy.symm.trans hc)
    refine .bind (.read hB (hG w h) fun _ _ => .ite (fun _ => .bind (.raise (hG w h))) fun _ => ?_)
    exact safe_replaceJournal h hprior hcopy hrecovery hdata hG hsettled
  | none =>
    refine .bind (.writeNew hB (hG w h) fun id _ _ => ?_)
    have hput : Pending plan _ _ prior
        (w.put (.recovery plan.record.appid plan.record.operationId)
          ⟨id, plan.journal (some copy.id)⟩) :=
      { journal := by simpa using h.journal
        stage := by simpa using h.stage
        backup := by simpa using h.backup
        restore := by simpa using h.restore
        recovery := by
          rintro file hf
          obtain rfl : ⟨id, plan.journal (some copy.id)⟩ = file := by simpa using hf
          exact ⟨copy, by simpa using hcopy, rfl⟩
        dest := by simpa using h.dest }
    have hthere : (w.put (.recovery plan.record.appid plan.record.operationId)
        ⟨id, plan.journal (some copy.id)⟩).get (.restore plan.record.appid plan.record.operationId)
          = some copy := by simpa using hcopy
    refine ⟨hG _ hput, .mono (fun _ w' hw' => ⟨hw'.1, by simpa using hw'.2⟩)
      (safe_replaceJournal hput hprior hthere (WinFs.get_put_self ..) rfl hG hsettled)⟩

/-- The restore copy becomes the destination. -/
theorem safe_restoreBackup {Good : WinFs → Prop} (hfits : plan.Fits appid n prior patched)
    (h : Pending plan appid n prior w) {backup : WinFile} (hbackup : plan.backup = some backup)
    (hG : ∀ w', Pending plan appid n prior w' → Good w')
    (hrestored : ∀ w', Restored plan appid w' → Good w')
    (hsettled : ∀ w', Settled appid n prior w' → Good w') (restore : Option WinIdentity)
    {present : Bool} (hpresent : present = (w.get (.manifest appid)).isSome) :
    RecoverSafe appid prior Good (fun _ w' => Restored plan appid w')
      (restoreBackup { plan.record with restoreIdentity := restore } backup.id present) w := by
  obtain ⟨rfl, rfl⟩ := hfits.ids
  have hB := losing_journalLost plan.record.appid
  obtain ⟨old, hprior⟩ : ∃ old, prior = some old := by
    have hdata := hfits.backup
    rw [hbackup] at hdata
    obtain ⟨old, hold, _⟩ := Option.map_eq_some_iff.mp hdata.symm
    exact ⟨old, hold⟩
  refine .bind (.mono ?_ (safe_prepareRestore hfits h hbackup hG restore))
  rintro id w₁ ⟨h₁, hdest₁, copy, hcopy, rfl⟩
  refine .bind (.mono ?_ (safe_journalRestore hfits h₁ hprior hcopy hG hsettled))
  rintro ⟨⟩ w₂ ⟨h₂, hdest₂⟩
  have hplace : Restored plan plan.record.appid
      ((w₂.remove (.restore plan.record.appid plan.record.operationId)).put
        (.manifest plan.record.appid) copy) := by
    refine ⟨copy, by simp, h₂.restore copy h₂.copied, ?_⟩
    simpa using h₂.rejournaled
  have hcheck : RecoverSafe _ prior Good (fun _ w' => Restored plan plan.record.appid w') (do
      let data ← read (.manifest plan.record.appid) maxManifestBytes
      if some (sha256hex data.bytes) ≠ plan.record.backupChecksum then
        raised "WINDOWS_ADOPTION_VERIFY_FAILED"
      else
        return) ((w₂.remove (.restore plan.record.appid plan.record.operationId)).put
          (.manifest plan.record.appid) copy) :=
    .bind (.read hB (hrestored _ hplace) fun _ _ =>
      .ite (fun _ => .raise (hrestored _ hplace)) fun _ => .ret hplace)
  refine .bind (.checkRoots hB (hG w₂ h₂.toPending) ?_)
  cases present with
  | true =>
    refine .bind (.replace hB (hG w₂ h₂.toPending) (fun m hbefore hcall hloses hafter _ => ?_)
      fun file hfile _ => ?_)
    · -- the destination name is lost, the restore copy is still there
      refine Or.inl ⟨fun hbad => ?_, hG _ ?_⟩
      · obtain ⟨⟨source, hc⟩, _⟩ := hbad.1
        rw [hcall] at hc
        simp at hc
      · rw [hafter]
        exact ⟨by simpa using h₂.journal, by simpa using h₂.stage, by simpa using h₂.backup,
          by simpa using h₂.restore, by simpa using h₂.recovery, Or.inr (by simp)⟩
    · obtain rfl := Option.some.inj (h₂.copied.symm.trans hfile)
      exact ⟨hrestored _ hplace, hcheck⟩
  | false =>
    refine .bind (.moveNew hB (hG w₂ h₂.toPending) fun file hfile _ => ?_)
    obtain rfl := Option.some.inj (h₂.copied.symm.trans hfile)
    exact ⟨hrestored _ hplace, hcheck⟩

theorem undoSwap_some {record : AdoptionRecord} {id : WinIdentity}
    (h : record.backupIdentity = some id) (current : Option WinIdentity) :
    undoSwap record current = restoreBackup record id current.isSome := by
  unfold undoSwap
  rw [h]

theorem undoSwap_none {record : AdoptionRecord} (h : record.backupIdentity = none) :
    undoSwap record none = .ret () := by
  unfold undoSwap
  rw [h]
  rfl

/-- Undoing an adoption that has not landed. -/
theorem safe_undo {Good : WinFs → Prop} (hfits : plan.Fits appid n prior patched)
    (h : Pending plan appid n prior w)
    (hG : ∀ w', Pending plan appid n prior w' → Good w')
    (hrestored : ∀ w', Restored plan appid w' → Good w')
    (hsettled : ∀ w', Settled appid n prior w' → Good w') (restore : Option WinIdentity)
    {current : Option WinIdentity} (hcurrent : current = (w.get (.manifest appid)).map WinFile.id) :
    RecoverSafe appid prior Good (fun verdict w' => verdict = .restored ∧ Settled appid n prior w')
      (undo { plan.record with restoreIdentity := restore } current) w := by
  obtain ⟨rfl, rfl⟩ := hfits.ids
  have hidentity := hfits.backupIdentity
  refine .bind ?_
  cases hbackup : plan.backup with
  | some backup =>
    rw [hbackup] at hidentity
    have hpresent : current.isSome = (w.get (.manifest plan.record.appid)).isSome := by
      rw [hcurrent, Option.isSome_map]
    have hswap : undoSwap { plan.record with restoreIdentity := restore } current =
        restoreBackup { plan.record with restoreIdentity := restore } backup.id current.isSome :=
      undoSwap_some hidentity current
    rw [hswap]
    refine .mono (fun _ w' hw' => ?_) (safe_restoreBackup hfits h hbackup hG hrestored hsettled
      restore hpresent)
    obtain ⟨copy, hdest, hcopy, _⟩ := hw'.dest
    exact safe_retire (hrestored w' hw') hsettled (by rw [hdest]; exact hcopy.old hfits)
  | none =>
    have hprior : prior = none := by
      have hdata := hfits.backup
      rw [hbackup] at hdata
      exact Option.map_eq_none_iff.mp hdata.symm
    have hdest : w.get (.manifest plan.record.appid) = none := by
      rcases h.dest with hd | hd
      · rw [hd, hprior]
      · exact hd
    rw [hdest] at hcurrent
    obtain rfl := hcurrent
    rw [hbackup] at hidentity
    have hswap : undoSwap { plan.record with restoreIdentity := restore } none = .ret () :=
      undoSwap_none hidentity
    rw [Option.map_none, hswap]
    exact .ret (safe_retire (hG w h) hsettled (by rw [hdest, hprior]))

/-- Recovery before the swap has landed. -/
theorem safe_reconcile_pending (site : Site) {Good : WinFs → Prop}
    (hfits : plan.Fits appid n prior patched) (h : Pending plan appid n prior w)
    (hG : ∀ w', Pending plan appid n prior w' → Good w')
    (hrestored : ∀ w', Restored plan appid w' → Good w')
    (hsettled : ∀ w', Settled appid n prior w' → Good w') :
    RecoverSafe appid prior Good (fun verdict w' => verdict = .restored ∧ Settled appid n prior w')
      (reconcileAdoption site appid (some n)) w := by
  obtain ⟨rfl, rfl⟩ := hfits.ids
  have hB := losing_journalLost plan.record.appid
  obtain ⟨id, restore, hjournal, _⟩ := h.journal
  refine safe_reconcile_own site hB hfits (hG w h) hjournal ?_
  unfold reconcileRecord
  dsimp only
  refine .bind (.pathExists hB (hG w h) ?_)
  have hundo : ∀ current, current = (w.get (.manifest plan.record.appid)).map WinFile.id →
      RecoverSafe _ prior Good (fun verdict w' => verdict = .restored ∧ Settled _ _ prior w')
        (undo { plan.record with restoreIdentity := restore } current) w :=
    fun _ => safe_undo hfits h hG hrestored hsettled restore
  cases hdest : w.get (.manifest plan.record.appid) with
  | none => exact hundo none (by rw [hdest]; rfl)
  | some file =>
    have hprior : some file = prior := by
      rcases h.dest with hd | hd
      · exact hdest.symm.trans hd
      · rw [hdest] at hd
        simp at hd
    refine .bind (.fileIdentity hB (hG w h) fun _ hfile => ?_)
    obtain rfl := Option.some.inj (hdest.symm.trans hfile)
    refine .bind (.read hB (hG w h) fun _ hfile => ?_)
    obtain rfl := Option.some.inj (hdest.symm.trans hfile)
    have hnot : ¬ (file.id = plan.record.stageIdentity ∧
        sha256hex file.data.bytes = plan.record.checksum) := by
      rw [hfits.stageIdentity]
      exact fun hh => hfits.differs file hprior.symm hh.1
    rw [if_neg hnot]
    refine .ite (fun _ => .bind (.flush hB (hG w h) ?_)) fun _ => ?_
    · exact safe_retire (hG w h) hsettled (by rw [hdest, hprior])
    · exact .ite (fun _ => .raise (hG w h)) fun _ => hundo _ (by rw [hdest]; rfl)

/-! ## Any number of attempts -/

/-- What a recovery call returns with. -/
def Recovered (appid n : Nat) (prior : Option WinFile) (patched : Option Bytes)
    (verdict : AdoptionVerdict) (w : WinFs) : Prop :=
  verdict ≠ .completed ∧ Settled appid n prior w ∨
    verdict = .completed ∧ ∃ p plan, patched = some p ∧ Plan.Fits plan appid n prior p ∧
      Landed plan appid w

/-- A recovery call from any phase. -/
theorem safe_reconcile (site : Site) {patched : Option Bytes} (h : Phase appid n prior patched w) :
    RecoverSafe appid prior (Phase appid n prior patched) (Recovered appid n prior patched)
      (reconcileAdoption site appid (some n)) w := by
  rcases h with hs | ⟨p, plan, rfl, hfits, hp⟩
  · refine .mono ?_ (safe_reconcile_foreign site (losing_journalLost appid) (Or.inl hs)
      hs.foreign)
    rintro verdict w' ⟨rfl | rfl, rfl⟩ <;> exact Or.inl ⟨by simp, hs⟩
  · have hG : ∀ w', Pending plan appid n prior w' → Phase appid n prior (some p) w' :=
      fun _ h' => Or.inr ⟨p, plan, rfl, hfits, Or.inl h'⟩
    have hsettled : ∀ w', Settled appid n prior w' → Phase appid n prior (some p) w' :=
      fun _ => Or.inl
    have hrestored : ∀ w', Restored plan appid w' → Phase appid n prior (some p) w' :=
      fun _ h' => Or.inr ⟨p, plan, rfl, hfits, Or.inr (Or.inl h')⟩
    have hend : ∀ verdict w', verdict = .restored ∧ Settled appid n prior w' →
        Recovered appid n prior (some p) verdict w' := by
      rintro verdict w' ⟨rfl, hs⟩
      exact Or.inl ⟨by simp, hs⟩
    rcases hp with hp | hr | hl
    · exact .mono hend (safe_reconcile_pending site hfits hp hG hrestored hsettled)
    · exact .mono hend (safe_reconcile_restored site hfits (hrestored _ hr) hr hsettled)
    · refine .mono ?_ (safe_reconcile_landed site (losing_journalLost appid) hfits
        (Or.inr ⟨p, plan, rfl, hfits, Or.inr (Or.inr hl)⟩) hl)
      rintro verdict w' ⟨rfl, rfl⟩
      exact Or.inr ⟨rfl, p, plan, rfl, hfits, hl⟩

/-- Any number of recovery calls, each cut at any point, and all their moves. -/
inductive Attempts (site : Site) (appid n : Nat) (w : WinFs) :
    List (Move WinSig WinFs) → WinFs → Prop
  | none : Attempts site appid n w [] w
  | more {w₁ w₂ : WinFs} {moves l : List (Move WinSig WinFs)} {p : WinProg AdoptionVerdict}
      (h : Attempts site appid n w moves w₁)
      (hr : Run WinCall.perform NoWriter (reconcileAdoption site appid (some n)) w₁ l p w₂) :
      Attempts site appid n w (l ++ moves) w₂

theorem calm_append {Bad : Move WinSig WinFs → Prop} {l l' : List (Move WinSig WinFs)} :
    Calm Bad (l ++ l') ↔ Calm Bad l ∧ Calm Bad l' :=
  List.forall_mem_append

/-- A call that is cut leaves a phase, or loses the journal. -/
theorem kept_run {site : Site} {patched : Option Bytes} (h : Phase appid n prior patched w)
    {l : List (Move WinSig WinFs)} {p : WinProg AdoptionVerdict} {w' : WinFs}
    (hr : Run WinCall.perform NoWriter (reconcileAdoption site appid (some n)) w l p w') :
    Kept (journalLost appid) (Phase appid n prior patched) (Lost appid prior) l w' :=
  (safe_reconcile site h [] calm_nil).cut (Or.inl ⟨calm_nil, h⟩) hr

/-- A move that loses some name. -/
def losesAny (m : Move WinSig WinFs) : Prop :=
  ∃ path, loses path m

theorem losing_losesAny : Losing losesAny :=
  fun _ h => h

/-- A call that keeps the state as it is makes no losing move. -/
theorem unchanged_run {site : Site} {Q : AdoptionVerdict → WinFs → Prop}
    (h : WinSafe losesAny (fun v => v = w) (fun _ => False) Q
      (reconcileAdoption site appid (some n)) w)
    {l : List (Move WinSig WinFs)} {p : WinProg AdoptionVerdict} {w' : WinFs}
    (hr : Run WinCall.perform NoWriter (reconcileAdoption site appid (some n)) w l p w') :
    w' = w ∧ Calm (journalLost appid) l := by
  rcases (h [] calm_nil).cut (Or.inl ⟨calm_nil, rfl⟩) hr with ⟨hcalm, hw⟩ | ⟨_, hlost⟩
  · exact ⟨hw, fun m hm hbad => hcalm m hm ⟨_, hbad.1⟩⟩
  · exact hlost.elim

/-- States in which recovery changes nothing. -/
def Rests (appid n : Nat) (prior : Option WinFile) (patched : Option Bytes) (w : WinFs) : Prop :=
  Foreign appid n w ∨
    ∃ p plan, patched = some p ∧ Plan.Fits plan appid n prior p ∧ Landed plan appid w

theorem Rests.run {site : Site} {patched : Option Bytes} (h : Rests appid n prior patched w)
    {l : List (Move WinSig WinFs)} {p : WinProg AdoptionVerdict} {w' : WinFs}
    (hr : Run WinCall.perform NoWriter (reconcileAdoption site appid (some n)) w l p w') :
    w' = w ∧ Calm (journalLost appid) l := by
  rcases h with hf | ⟨_, _, rfl, hfits, hl⟩
  · exact unchanged_run (safe_reconcile_foreign site losing_losesAny rfl hf) hr
  · exact unchanged_run (safe_reconcile_landed site losing_losesAny hfits rfl hl) hr

theorem Rests.attempts {site : Site} {patched : Option Bytes} (h : Rests appid n prior patched w)
    {moves : List (Move WinSig WinFs)} {w' : WinFs} (ha : Attempts site appid n w moves w') :
    w' = w := by
  induction ha with
  | none => rfl
  | more _ hr ih =>
    obtain rfl := ih
    exact (h.run hr).1

theorem Recovered.rests {patched : Option Bytes} {verdict : AdoptionVerdict}
    (h : Recovered appid n prior patched verdict w) : Rests appid n prior patched w := by
  rcases h with ⟨_, hs⟩ | ⟨_, hl⟩
  · exact Or.inl hs.foreign
  · exact Or.inr hl

theorem Lost.foreign (h : Lost appid prior w) : Foreign appid n w :=
  foreign_of_none h.journal

/-- Any number of attempts leave a phase, or lose the journal. -/
theorem kept_attempts {site : Site} {patched : Option Bytes} (h : Phase appid n prior patched w)
    {moves : List (Move WinSig WinFs)} {w' : WinFs} (ha : Attempts site appid n w moves w') :
    Kept (journalLost appid) (Phase appid n prior patched) (Lost appid prior) moves w' := by
  induction ha with
  | none => exact Or.inl ⟨calm_nil, h⟩
  | more _ hr ih =>
    rcases ih with ⟨hcalm, hphase⟩ | ⟨hbad, hlost⟩
    · rcases kept_run hphase hr with ⟨hc, hp⟩ | ⟨hc, hl⟩
      · exact Or.inl ⟨calm_append.mpr ⟨hc, hcalm⟩, hp⟩
      · exact Or.inr ⟨fun h => hc (calm_append.mp h).1, hl⟩
    · have hrests : Rests appid n prior patched _ := Or.inl hlost.foreign
      obtain ⟨rfl, _⟩ := hrests.run hr
      exact Or.inr ⟨fun h => hbad (calm_append.mp h).2, hlost⟩

/-! ## The verdict -/

/-- The bytes of the destination. -/
def destination (appid : Nat) (w : WinFs) : Option Bytes :=
  (w.get (.manifest appid)).map fun file => file.data.bytes

/-- The verdict agrees with the content of the destination. -/
def Agrees (verdict : AdoptionVerdict) (dest prior patched : Option Bytes) : Prop :=
  (verdict = .completed → patched.isSome ∧ dest = patched) ∧ (verdict ≠ .completed → dest = prior)

/-- A call that returned agrees with the destination, and so does every later
one, about the same content. -/
def CrashSafe (site : Site) (appid n : Nat) (verdict : AdoptionVerdict) (w : WinFs)
    (prior patched : Option Bytes) : Prop :=
  Agrees verdict (destination appid w) prior patched ∧
    ∀ moves w' l verdict' w'', Attempts site appid n w moves w' →
      Run WinCall.perform NoWriter (reconcileAdoption site appid (some n)) w' l (.ret verdict')
        w'' →
      destination appid w'' = destination appid w ∧
        Agrees verdict' (destination appid w'') prior patched

theorem Recovered.agrees {patched : Option Bytes} {verdict : AdoptionVerdict}
    (h : Recovered appid n prior patched verdict w) :
    Agrees verdict (destination appid w) (prior.map fun file => file.data.bytes) patched := by
  rcases h with ⟨hv, hs⟩ | ⟨hv, p, plan, rfl, hfits, hl⟩
  · refine ⟨fun hc => absurd hc hv, fun _ => ?_⟩
    have hdest := congrArg (Option.map FileData.bytes) hs.dest
    rwa [Option.map_map, Option.map_map] at hdest
  · refine ⟨fun _ => ⟨rfl, ?_⟩, fun hc => absurd hv hc⟩
    rw [destination, hl.dest, Option.map_some, hfits.stage]
    rfl

/-- The verdict of a call in a state that rests. -/
theorem recovered_again {site : Site} {patched : Option Bytes} {verdict : AdoptionVerdict}
    (h : Recovered appid n prior patched verdict w) {l : List (Move WinSig WinFs)}
    {verdict' : AdoptionVerdict} {w' : WinFs}
    (hr : Run WinCall.perform NoWriter (reconcileAdoption site appid (some n)) w l (.ret verdict')
      w') : Recovered appid n prior patched verdict' w' := by
  have hphase : Phase appid n prior patched w := by
    rcases h with ⟨_, hs⟩ | ⟨_, p, plan, hp, hfits, hl⟩
    · exact Or.inl hs
    · exact Or.inr ⟨p, plan, hp, hfits, Or.inr (Or.inr hl)⟩
  exact ((safe_reconcile site hphase [] calm_nil).returned hr).2

/-- Windows adoption is crash-safe exactly if no attempt loses the journal name
while the destination name is lost. -/
theorem windows_adoption_crash_safe (site : Site) (source : Spelled) (name : String)
    {w₀ w₁ w₂ w₃ : WinFs} {l₁ l₃ moves : List (Move WinSig WinFs)} {p₁ : WinProg WinPath}
    {verdict : AdoptionVerdict} (hno : NoArtifacts appid n w₀)
    (hadopt : Run WinCall.perform NoWriter (adoptManifest site source appid name n) w₀ l₁ p₁ w₁)
    (hattempts : Attempts site appid n w₁ moves w₂)
    (hreturn : Run WinCall.perform NoWriter (reconcileAdoption site appid (some n)) w₂ l₃
      (.ret verdict) w₃) :
    CrashSafe site appid n verdict w₃ (destination appid w₀)
        (patchedBytes (w₀.get source.path) appid name) ↔
      ∀ m ∈ moves, ¬ journalLost appid m := by
  have h₁ : Phase appid n (w₀.get (.manifest appid))
      (patchedBytes (w₀.get source.path) appid name) w₁ := by
    rcases (safe_adopt site source name hno [] calm_nil).cut
      (Or.inl ⟨calm_nil, Or.inl ⟨hno.journal, rfl⟩⟩) hadopt with h | h
    · exact h.2
    · exact h.2.elim
  rcases kept_attempts h₁ hattempts with ⟨hcalm, h₂⟩ | ⟨hbad, hlost⟩
  · refine iff_of_true ?_ hcalm
    have h₃ := ((safe_reconcile site h₂ [] calm_nil).returned hreturn).2
    refine ⟨h₃.agrees, fun moves w' l verdict' w'' ha hr => ?_⟩
    obtain rfl := h₃.rests.attempts ha
    exact ⟨by rw [(h₃.rests.run hr).1], (recovered_again h₃ hr).agrees⟩
  · refine iff_of_false (fun hsafe => ?_) hbad
    have hforeign : Rests appid n (w₀.get (.manifest appid)) none w₂ := Or.inl hlost.foreign
    obtain rfl := (hforeign.run hreturn).1
    obtain ⟨hv, _⟩ := ((safe_reconcile_foreign site losing_losesAny rfl hlost.foreign :
      WinSafe losesAny (fun v => v = w₃) (fun _ => False) _ _ _) [] calm_nil).returned hreturn |>.2
    have hdest := hsafe.1.2 (by rcases hv with rfl | rfl <;> simp)
    rw [destination, destination, hlost.dest] at hdest
    exact hlost.old (Option.map_eq_none_iff.mp hdest.symm)

/-! ## Runs -/

/-- The identity on volume 7 with the given number. -/
def numbered (n : Nat) : WinIdentity :=
  ⟨7, String.ofList (List.replicate 31 '0' ++ [Nat.digitChar n])⟩

/-- The first of sixteen identities that no file has. -/
def newIdentity (w : WinFs) : WinIdentity :=
  (((List.range 16).map numbered).find? fun id => decide (w.fresh id)).getD (numbered 0)

/-- What the primitives answer if all goes well.  With `losing`, every `replace`
loses its destination name. -/
def winAnswers (losing : Bool) : Oracle WinSig WinFs
  | w, .directoryIdentity path =>
    (match w.directories path with
      | some id => .ok id
      | none => .error (windowsError "WINDOWS_FILE_TYPE_UNSUPPORTED"), w)
  | w, .fileIdentity path =>
    (match w.get path with
      | some file => .ok file.id
      | none => .error (windowsError "WINDOWS_FILESYSTEM_UNAVAILABLE"), w)
  | w, .pathExists path => (.ok (w.get path).isSome, w)
  | w, .read path limit =>
    (match w.get path with
      | some file =>
        if file.data.bytes.length ≤ limit then .ok file.data
        else .error (windowsError "WINDOWS_FILE_READ_FAILED")
      | none => .error (windowsError "WINDOWS_FILE_READ_FAILED"), w)
  | w, .writeNew path data =>
    if w.get path = none ∧ w.fresh (newIdentity w) then (.ok (), w.put path ⟨newIdentity w, data⟩)
    else (.error (windowsError "WINDOWS_FILE_WRITE_FAILED"), w)
  | w, .copyNew source destination =>
    match w.get source with
    | some file =>
      if w.get destination = none ∧ w.fresh (newIdentity w) then
        (.ok (), w.put destination ⟨newIdentity w, file.data⟩)
      else (.error (windowsError "WINDOWS_FILE_COPY_FAILED"), w)
    | none => (.error (windowsError "WINDOWS_FILE_COPY_FAILED"), w)
  | w, .flush _ => (.ok (), w)
  | w, .moveNew source destination =>
    match w.get source with
    | some file =>
      if w.get destination = none then (.ok (), (w.remove source).put destination file)
      else (.error (windowsError "WINDOWS_FILE_MOVE_FAILED"), w)
    | none => (.error (windowsError "WINDOWS_FILE_MOVE_FAILED"), w)
  | w, .replace source destination =>
    match w.get source, w.get destination with
    | some file, some _ =>
      if losing then (.error (windowsError "WINDOWS_FILE_REPLACE_FAILED"), w.remove destination)
      else (.ok (), (w.remove source).put destination file)
    | _, _ => (.error (windowsError "WINDOWS_FILE_REPLACE_FAILED"), w)
  | w, .delete path => (.ok (), w.remove path)

theorem perform_winAnswers (losing : Bool) (w : WinFs) (c : WinCall) :
    WinCall.perform w c (winAnswers losing w c).1 (winAnswers losing w c).2 := by
  cases c with
  | directoryIdentity path =>
    refine ⟨rfl, fun id hid => ?_⟩
    cases h : w.directories path with
    | some id' => simpa [winAnswers, h] using hid
    | none => simp [winAnswers, h] at hid
  | fileIdentity path =>
    refine ⟨rfl, fun id hid => ?_⟩
    cases h : w.get path with
    | some file => simpa [winAnswers, h] using hid
    | none => simp [winAnswers, h] at hid
  | pathExists path => exact ⟨rfl, fun b hb => (Except.ok.inj hb).symm⟩
  | read path limit =>
    refine ⟨rfl, fun data hdata => ?_⟩
    cases h : w.get path with
    | some file =>
      by_cases hle : file.data.bytes.length ≤ limit
      · have hdata : file.data = data := by simpa [winAnswers, h, hle] using hdata
        subst hdata
        exact ⟨rfl, hle⟩
      · simp [winAnswers, h, hle] at hdata
    | none => simp [winAnswers, h] at hdata
  | writeNew path data =>
    by_cases h : w.get path = none ∧ w.fresh (newIdentity w)
    · simp only [winAnswers, if_pos h]
      exact Or.inl ⟨rfl, .writeNew h.1 h.2⟩
    · simp only [winAnswers, if_neg h]
      exact Or.inr ⟨⟨_, rfl⟩, rfl⟩
  | copyNew source destination =>
    cases hs : w.get source with
    | some file =>
      by_cases h : w.get destination = none ∧ w.fresh (newIdentity w)
      · simp only [winAnswers, hs, if_pos h]
        exact Or.inl ⟨rfl, .copyNew hs h.1 h.2⟩
      · simp only [winAnswers, hs, if_neg h]
        exact Or.inr ⟨⟨_, rfl⟩, rfl⟩
    | none =>
      simp only [winAnswers, hs]
      exact Or.inr ⟨⟨_, rfl⟩, rfl⟩
  | flush path => exact Or.inl ⟨rfl, .flush⟩
  | moveNew source destination =>
    cases hs : w.get source with
    | some file =>
      by_cases h : w.get destination = none
      · simp only [winAnswers, hs, if_pos h]
        exact Or.inl ⟨rfl, .moveNew hs h⟩
      · simp only [winAnswers, hs, if_neg h]
        exact Or.inr ⟨⟨_, rfl⟩, rfl⟩
    | none =>
      simp only [winAnswers, hs]
      exact Or.inr ⟨⟨_, rfl⟩, rfl⟩
  | replace source destination =>
    cases hs : w.get source with
    | none =>
      simp only [winAnswers, hs]
      exact Or.inl (Or.inr ⟨⟨_, rfl⟩, rfl⟩)
    | some file =>
      cases hd : w.get destination with
      | none =>
        simp only [winAnswers, hs, hd]
        exact Or.inl (Or.inr ⟨⟨_, rfl⟩, rfl⟩)
      | some old =>
        cases losing with
        | true =>
          simp only [winAnswers, hs, hd]
          exact Or.inr ⟨⟨_, rfl⟩, by simp [hs], by simp [hd], rfl⟩
        | false =>
          simp only [winAnswers, hs, hd]
          exact Or.inl (Or.inl ⟨rfl, .replace hs hd⟩)
  | delete path => exact Or.inl ⟨rfl, .delete⟩

/-- A library on volume 7 with an installed app 620, and the state directory. -/
def portalSite : Site :=
  ⟨"C:\\lib", "C:\\state\\journal"⟩

/-- The manifest that steamcmd has written. -/
def portalSource : Spelled :=
  ⟨"C:\\lib\\new.acf", .other "new.acf"⟩

def portalFiles : WinFs where
  directories
    | .steamapps => some (numbered 14)
    | .journals => some (numbered 15)
    | _ => none
  files := [
    (.manifest 620, ⟨numbered 12, .ofBytes (Text.encode "\"appid\" \"620\" old".toList)⟩),
    (.other "new.acf", ⟨numbered 13,
      .ofBytes (Text.encode "\"appid\" \"620\" \"installdir\" \"x\"".toList)⟩)]

theorem noArtifacts_portal : NoArtifacts 620 7 portalFiles where
  journal := foreign_of_none rfl
  stage := rfl
  backup := rfl
  restore := rfl
  intent := rfl
  recovery := rfl

/-- Adoption whose swap loses the destination name. -/
@[irreducible] def lostAdoption : List (Move WinSig WinFs) × WinProg WinPath × WinFs :=
  (adoptManifest portalSite portalSource 620 "p" 7).moves (winAnswers true) 40 portalFiles []

/-- Recovery that goes well. -/
@[irreducible] def goodRecovery : List (Move WinSig WinFs) × WinProg AdoptionVerdict × WinFs :=
  (reconcileAdoption portalSite 620 (some 7)).moves (winAnswers false) 40 lostAdoption.2.2 []

/-- Recovery that loses the journal name. -/
@[irreducible] def lostRecovery : List (Move WinSig WinFs) × WinProg AdoptionVerdict × WinFs :=
  (reconcileAdoption portalSite 620 (some 7)).moves (winAnswers true) 40 lostAdoption.2.2 []

/-- The recovery after it. -/
@[irreducible] def lateRecovery : List (Move WinSig WinFs) × WinProg AdoptionVerdict × WinFs :=
  (reconcileAdoption portalSite 620 (some 7)).moves (winAnswers false) 40 lostRecovery.2.2 []

theorem run_lostAdoption : Run WinCall.perform NoWriter
    (adoptManifest portalSite portalSource 620 "p" 7) portalFiles lostAdoption.1 lostAdoption.2.1
      lostAdoption.2.2 := by
  have hlost : (adoptManifest portalSite portalSource 620 "p" 7).moves (winAnswers true) 40
      portalFiles [] = lostAdoption := by
    rw [lostAdoption]
  exact Run.of_moves NoWriter.refl (perform_winAnswers true) hlost

/-- The destination name is lost once, and recovery restores it. -/
theorem windows_adoption_crash_safe_portal :
    goodRecovery.2.1.returned = some .restored ∧
    CrashSafe portalSite 620 7 .restored goodRecovery.2.2 (destination 620 portalFiles)
      (patchedBytes (portalFiles.get portalSource.path) 620 "p") := by
  have hreturned : goodRecovery.2.1.returned = some .restored := by decide +kernel
  have hgood : (reconcileAdoption portalSite 620 (some 7)).moves (winAnswers false) 40
      lostAdoption.2.2 [] = goodRecovery := by
    rw [goodRecovery]
  have hrun := Run.of_returned NoWriter.refl (perform_winAnswers false) hgood hreturned
  exact ⟨hreturned, (windows_adoption_crash_safe portalSite portalSource "p" noArtifacts_portal
    run_lostAdoption .none hrun).mpr fun m hm => by simp at hm⟩

/-- The destination name is lost, recovery loses the journal name, and the next
call reports a clean state without a destination. -/
theorem windows_adoption_loses_manifest :
    NoArtifacts 620 7 portalFiles ∧
    Run WinCall.perform NoWriter (adoptManifest portalSite portalSource 620 "p" 7) portalFiles
      lostAdoption.1 lostAdoption.2.1 lostAdoption.2.2 ∧
    Attempts portalSite 620 7 lostAdoption.2.2 (lostRecovery.1 ++ []) lostRecovery.2.2 ∧
    Run WinCall.perform NoWriter (reconcileAdoption portalSite 620 (some 7)) lostRecovery.2.2
      lateRecovery.1 (.ret .clean) lateRecovery.2.2 ∧
    ¬ CrashSafe portalSite 620 7 .clean lateRecovery.2.2 (destination 620 portalFiles)
      (patchedBytes (portalFiles.get portalSource.path) 620 "p") := by
  have hlost : (reconcileAdoption portalSite 620 (some 7)).moves (winAnswers true) 40
      lostAdoption.2.2 [] = lostRecovery := by
    rw [lostRecovery]
  have hlate : (reconcileAdoption portalSite 620 (some 7)).moves (winAnswers false) 40
      lostRecovery.2.2 [] = lateRecovery := by
    rw [lateRecovery]
  have hlast : lateRecovery.2.1.returned = some .clean ∧
      destination 620 lateRecovery.2.2 = none := by decide +kernel
  obtain ⟨hreturned, hgone⟩ := hlast
  have hattempt := Run.of_moves NoWriter.refl (perform_winAnswers true) hlost
  have hrun := Run.of_returned NoWriter.refl (perform_winAnswers false) hlate hreturned
  refine ⟨noArtifacts_portal, run_lostAdoption, .more .none hattempt, hrun, fun hsafe => ?_⟩
  have hdest := hsafe.1.2 (by simp)
  rw [hgone] at hdest
  simp [destination, portalFiles, WinFs.get] at hdest

end SteamAgent.Execution.Windows
