import SteamAgent.LocalSteam.Scan
import SteamAgent.Stdlib.Result

/-!
# The scan loses nothing silently

There are six groups.

* Readings: one that returns early has warned.
* Manifests: what a returned app comes from.
* The loop over the manifests.
* The loop over the libraries.
* The libraries of the index.
* `scan_lossless`.
-/

namespace SteamAgent.LocalSteam

open Result (bind_eq_ok)

/-- A warning has the path. -/
def Warned (warnings : List LocalSteamWarning) (path : PosixPath) : Prop :=
  ∃ w ∈ warnings, w.path = some path

theorem Warned.mono {warnings warnings' : List LocalSteamWarning} {path : PosixPath}
    (h : Warned warnings path) (hsubset : warnings ⊆ warnings') : Warned warnings' path := by
  obtain ⟨w, hw, hpath⟩ := h
  exact ⟨w, hsubset hw, hpath⟩

/-! ## Readings -/

namespace Reading

variable {α β : Type} {path : PosixPath}

/-- An early return appends a warning with the path. -/
def Reports (path : PosixPath) (r : Reading α) : Prop :=
  r.value = none → Warned r.warnings path

theorem bind_value {r : Reading α} {f : α → Reading β} {b : β} :
    (r >>= f).value = some b ↔ ∃ a, r.value = some a ∧ (f a).value = some b := by
  obtain ⟨warnings, value⟩ := r
  cases value with
  | none =>
    constructor
    · intro h
      cases h
    · intro h
      obtain ⟨a, heq, -⟩ := h
      cases heq
  | some a =>
    constructor
    · intro h
      exact ⟨a, rfl, h⟩
    · intro h
      obtain ⟨a', heq, h⟩ := h
      cases heq
      exact h

theorem reports_giveUp {w : LocalSteamWarning} (h : w.path = some path) :
    Reports path (giveUp w : Reading α) :=
  fun _ => ⟨w, List.mem_cons_self, h⟩

theorem reports_pure (a : α) : Reports path (pure a : Reading α) :=
  nofun

theorem reports_warn (w : LocalSteamWarning) : Reports path (warn w) :=
  nofun

theorem Reports.bind {r : Reading α} {f : α → Reading β} (h : Reports path r)
    (hf : ∀ a, Reports path (f a)) : Reports path (r >>= f) := by
  obtain ⟨warnings, value⟩ := r
  cases value with
  | none => exact fun _ => h rfl
  | some a => exact fun hnone => (hf a hnone).mono (List.subset_append_right _ _)

end Reading

open Reading

/-! ## Manifests -/

section Manifests

variable {s : Snapshot} {casefold : List Char → List Char} {manifest libraryPath : PosixPath}
  {filenameAppid appid : Int}

theorem readKeyvalues_reports : Reports manifest (readKeyvalues s casefold manifest) := by
  unfold readKeyvalues
  repeat' split
  all_goals first | exact reports_giveUp rfl | exact reports_pure _

/-- A file that is read is a regular one. -/
theorem readKeyvalues_value {tree : KeyValuesObject}
    (h : (readKeyvalues s casefold manifest).value = some tree) :
    s.isSymlink manifest = some false ∧ s.isFile manifest = some true ∧
      ∃ text, s.readText manifest = .ok text ∧ parseKeyvalues casefold text = .ok tree := by
  unfold readKeyvalues at h
  dsimp only at h
  split at h
  · cases h
  · cases h
  · cases h
  · cases h
  · rename_i hlink hfile
    split at h
    · cases h
    · cases h
    · split at h
      · cases h
      · split at h
        · cases h
        · cases h
        · rename_i text htext
          split at h
          · rename_i tree' hparse
            cases h
            exact ⟨hlink, hfile, text, htext, hparse⟩
          · cases h
          · cases h

theorem manifestState_reports {parsed : KeyValuesObject} :
    Reports manifest (manifestState manifest filenameAppid parsed) := by
  unfold manifestState
  split
  · exact reports_giveUp rfl
  · exact reports_pure _

theorem manifestAppid_reports {raw : Option Value} :
    Reports manifest (manifestAppid manifest filenameAppid raw) := by
  unfold manifestAppid
  split
  · exact (reports_warn _).bind fun _ => reports_pure _
  · split
    · exact reports_giveUp rfl
    · split
      · exact (reports_warn _).bind fun _ => reports_pure _
      · exact reports_pure _

theorem manifestStateFlags_reports {raw : Option Value} :
    Reports manifest (manifestStateFlags manifest appid raw) := by
  unfold manifestStateFlags
  dsimp only
  split
  · exact reports_giveUp rfl
  · split_ifs
    · exact reports_giveUp rfl
    · exact reports_giveUp rfl
    · exact reports_giveUp rfl
    · exact reports_pure _

theorem manifestInstallDir_reports {raw : Option Value} :
    Reports manifest (manifestInstallDir s manifest libraryPath appid raw) := by
  unfold manifestInstallDir
  dsimp only
  repeat' split
  all_goals first
    | exact reports_giveUp rfl
    | exact reports_pure _
    | exact (reports_warn _).bind fun _ => reports_pure _

theorem boundedInteger_reports {raw : Option Value} {field : String} :
    Reports manifest (boundedOptionalManifestInteger raw field manifest appid) := by
  unfold boundedOptionalManifestInteger
  dsimp only
  repeat' split
  all_goals first
    | exact reports_pure _
    | exact (reports_warn _).bind fun _ => reports_pure _

/-- A manifest without an app has a warning. -/
theorem readManifest_reports :
    Reports manifest (readManifest s casefold manifest libraryPath filenameAppid) := by
  unfold readManifest
  split
  · exact reports_giveUp rfl
  · refine readKeyvalues_reports.bind fun parsed => manifestState_reports.bind fun state =>
      manifestAppid_reports.bind fun appid => manifestStateFlags_reports.bind fun flags =>
      manifestInstallDir_reports.bind fun installDir => ?_
    split
    · exact boundedInteger_reports.bind fun _ => boundedInteger_reports.bind fun _ =>
        reports_pure _
    · exact reports_giveUp rfl

theorem manifestStateFlags_value {raw : Option Value} {flags : Nat}
    (h : (manifestStateFlags manifest appid raw).value = some flags) :
    signedInteger raw = some (flags : Int) ∧ flags &&& appStateUninstalled = 0 := by
  unfold manifestStateFlags at h
  dsimp only at h
  split at h
  · cases h
  · rename_i integer hinteger
    split_ifs at h with hnegative hlarge huninstalled
    · cases h
    · cases h
    · cases h
    · cases h
      refine ⟨?_, not_not.mp huninstalled⟩
      rw [hinteger, Int.toNat_of_nonneg (Int.not_lt.mp hnegative)]

/-- An install directory is resolved, and stays in `steamapps/common`. -/
theorem manifestInstallDir_value {raw : Option Value} {dir : PosixPath}
    (h : (manifestInstallDir s manifest libraryPath appid raw).value = some (some dir)) :
    ∃ common, s.resolve ((libraryPath.child "steamapps".toList).child "common".toList) =
      some common ∧ isRelativeTo dir common = true := by
  unfold manifestInstallDir at h
  dsimp only at h
  split at h
  · split at h
    · cases h
    · split at h
      · cases h
      · rename_i common hcommon
        split at h
        · cases h
        · split at h
          · rename_i hrelative
            cases h
            exact ⟨common, hcommon, hrelative⟩
          · cases h
  · cases h

end Manifests

/-- The app comes from a regular manifest of its library, whose flags say that it is
installed, or that it is updated in an install directory that exists. -/
structure Installed (s : Snapshot) (casefold : List Char → List Char)
    (app : InstalledSteamApp) : Prop where
  regular : s.isSymlink app.manifestPath = some false ∧ s.isFile app.manifestPath = some true
  flags : ∃ text tree state, s.readText app.manifestPath = .ok text ∧
    parseKeyvalues casefold text = .ok tree ∧ tree.get "AppState" = some (.object state) ∧
    signedInteger (state.get "StateFlags") = some (app.stateFlags : Int)
  notUninstalled : app.stateFlags &&& appStateUninstalled = 0
  installed : app.stateFlags &&& appStateFullyInstalled ≠ 0 ∨
    app.stateFlags &&& appStatePlausibleUpdate ≠ 0 ∧ ∃ dir common, app.installDir = some dir ∧
      s.isDir dir = some true ∧
      s.resolve ((app.libraryPath.child "steamapps".toList).child "common".toList) = some common ∧
      isRelativeTo dir common = true

theorem provesInstalled_iff {s : Snapshot} {flags : Nat} {installDir : Option PosixPath} :
    provesInstalled s flags installDir = true →
      flags &&& appStateFullyInstalled ≠ 0 ∨ flags &&& appStatePlausibleUpdate ≠ 0 ∧
        ∃ dir, installDir = some dir ∧ s.isDir dir = some true := by
  intro h
  rw [provesInstalled, Bool.or_eq_true, bne_iff_ne] at h
  refine h.imp_right fun h => ?_
  simp only [Bool.and_eq_true, bne_iff_ne, Option.any_eq_true] at h
  obtain ⟨⟨-, hupdate⟩, dir, hdir, hreadable⟩ := h
  refine ⟨hupdate, dir, hdir, ?_⟩
  rw [isReadableDirectory] at hreadable
  cases hisDir : s.isDir dir with
  | none =>
    rw [hisDir] at hreadable
    cases hreadable
  | some isDir =>
    rw [hisDir] at hreadable
    exact congrArg some hreadable

/-- The app that a manifest gives. -/
theorem readManifest_value {s : Snapshot} {casefold : List Char → List Char}
    {manifest libraryPath : PosixPath} {filenameAppid : Int} {app : InstalledSteamApp}
    (h : (readManifest s casefold manifest libraryPath filenameAppid).value = some app) :
    app.manifestPath = manifest ∧ app.libraryPath = libraryPath ∧ Installed s casefold app := by
  unfold readManifest at h
  split at h
  · cases h
  · obtain ⟨parsed, hparsed, h⟩ := bind_value.mp h
    obtain ⟨state, hstate, h⟩ := bind_value.mp h
    obtain ⟨appid, -, h⟩ := bind_value.mp h
    obtain ⟨flags, hflags, h⟩ := bind_value.mp h
    obtain ⟨installDir, hinstallDir, h⟩ := bind_value.mp h
    split at h
    · rename_i hproves
      obtain ⟨buildId, -, h⟩ := bind_value.mp h
      obtain ⟨sizeOnDisk, -, h⟩ := bind_value.mp h
      cases h
      obtain ⟨hlink, hfile, text, htext, hparse⟩ := readKeyvalues_value hparsed
      obtain ⟨hinteger, hpresent⟩ := manifestStateFlags_value hflags
      refine ⟨rfl, rfl, ⟨hlink, hfile⟩, ?_, hpresent, ?_⟩
      · refine ⟨text, parsed, state, htext, hparse, ?_, hinteger⟩
        unfold manifestState at hstate
        split at hstate
        · cases hstate
        · rename_i state' hobject
          cases hstate
          obtain ⟨value, hvalue, hobject⟩ := Option.bind_eq_some_iff.mp hobject
          cases value with
          | text _ => cases hobject
          | object _ =>
            cases hobject
            exact hvalue
      · refine (provesInstalled_iff hproves).imp_right ?_
        intro h
        obtain ⟨hupdate, dir, hdir, hisDir⟩ := h
        subst hdir
        obtain ⟨common, hcommon, hrelative⟩ := manifestInstallDir_value hinstallDir
        exact ⟨hupdate, dir, common, rfl, hisDir, hcommon, hrelative⟩
    · cases h

/-! ## The loop over the manifests -/

/-- The scan goes on: nothing that was found is lost. -/
def Grows (found found' : Found) : Prop :=
  found.apps ⊆ found'.apps ∧ found.warnings ⊆ found'.warnings

theorem Grows.refl (found : Found) : Grows found found :=
  ⟨List.Subset.refl _, List.Subset.refl _⟩

theorem Grows.trans {found found' found'' : Found} (h : Grows found found')
    (h' : Grows found' found'') : Grows found found'' :=
  ⟨List.Subset.trans h.1 h'.1, List.Subset.trans h.2 h'.2⟩

theorem grows_warn (found : Found) (warnings : List LocalSteamWarning) :
    Grows found (found.warn warnings) :=
  ⟨List.Subset.refl _, List.subset_append_left _ _⟩

/-- The entry gave an app, or a warning has its path. -/
def Settled (path : PosixPath) (found : Found) : Prop :=
  (∃ app ∈ found.apps, app.manifestPath = path) ∨ Warned found.warnings path

theorem Settled.grows {path : PosixPath} {found found' : Found} (h : Grows found found')
    (hsettled : Settled path found) : Settled path found' := by
  rcases hsettled with ⟨app, happ, hpath⟩ | hwarned
  · exact .inl ⟨app, h.1 happ, hpath⟩
  · exact .inr (hwarned.mono h.2)

/-- The app is what its manifest gives, whose name has the AppID that is used for it. -/
def Given (s : Snapshot) (casefold : List Char → List Char) (app : InstalledSteamApp) : Prop :=
  ∃ name digits app', app.manifestPath = (app.libraryPath.child "steamapps".toList).child name ∧
    manifestDigits name = some digits ∧ (readManifest s casefold app.manifestPath app.libraryPath
      (Decimal.valueOf digits)).value = some app' ∧
    app = { app' with residual := some (measureResidualContent s
      ⟨app.manifestPath.root, app.manifestPath.parts.dropLast⟩ app'.appid) }

/-- The invariant of the scan. -/
structure Consistent (s : Snapshot) (casefold : List Char → List Char) (found : Found) :
    Prop where
  seen : ∀ appid, (found.seenApps.lookup appid).isSome = true ↔
    appid ∈ found.apps.map InstalledSteamApp.appid
  unique : (found.apps.map InstalledSteamApp.appid).Nodup
  given : ∀ app ∈ found.apps, Given s casefold app

theorem Consistent.warn {s : Snapshot} {casefold : List Char → List Char} {found : Found}
    (h : Consistent s casefold found) (warnings : List LocalSteamWarning) :
    Consistent s casefold (found.warn warnings) :=
  ⟨h.seen, h.unique, h.given⟩

/-- One manifest: the invariant is kept, nothing is lost, and the manifest is settled. -/
theorem takeManifest_step {s : Snapshot} {casefold : List Char → List Char}
    {libraryPath : PosixPath} {name digits : List Char} {found found' : Found}
    (hdigits : manifestDigits name = some digits) (hfound : Consistent s casefold found)
    (h : takeManifest s casefold libraryPath found
      ((libraryPath.child "steamapps".toList).child name, Decimal.valueOf digits) = .ok found') :
    Consistent s casefold found' ∧ Grows found found' ∧
      Settled ((libraryPath.child "steamapps".toList).child name) found' := by
  have hwarn : ∀ warnings, Warned warnings ((libraryPath.child "steamapps".toList).child name) →
      found' = found.warn warnings → Consistent s casefold found' ∧ Grows found found' ∧
        Settled ((libraryPath.child "steamapps".toList).child name) found' := by
    intro warnings hwarned heq
    subst heq
    exact ⟨hfound.warn warnings, grows_warn found warnings,
      .inr (hwarned.mono (List.subset_append_right _ _))⟩
  unfold takeManifest at h
  dsimp only at h
  split at h
  · cases h
  · exact hwarn _ ⟨_, List.mem_cons_self, rfl⟩ (Except.ok.inj h).symm
  · split at h
    · cases h
    · exact hwarn _ ⟨_, List.mem_cons_self, rfl⟩ (Except.ok.inj h).symm
    · split at h
      · rename_i hnone
        exact hwarn _ (readManifest_reports hnone) (Except.ok.inj h).symm
      · rename_i app happ
        obtain ⟨hmanifest, hlibrary, -⟩ := readManifest_value happ
        split at h
        · exact hwarn _ ⟨_, List.mem_append_right _ List.mem_cons_self, rfl⟩
            (Except.ok.inj h).symm
        · rename_i hnew
          rw [← Except.ok.inj h]
          refine ⟨⟨?_, ?_, ?_⟩, ⟨List.subset_append_left _ _, List.subset_append_left _ _⟩, ?_⟩
          · intro appid
            rw [List.map_append, List.mem_append, ← hfound.seen, List.lookup_cons]
            by_cases heq : appid = app.appid
            · subst heq
              simp
            · have hbeq : (appid == app.appid) = false := beq_eq_false_iff_ne.mpr heq
              rw [hbeq]
              simp [heq]
          · rw [List.map_append, List.nodup_append]
            refine ⟨hfound.unique, List.nodup_singleton _, ?_⟩
            intro appid happid appid' happid' heq
            rw [List.mem_singleton.mp happid'] at heq
            rw [heq, ← hfound.seen] at happid
            exact hnew happid
          · intro app' happ'
            rcases List.mem_append.mp happ' with happ' | happ'
            · exact hfound.given app' happ'
            · rw [List.mem_singleton.mp happ']
              refine ⟨name, digits, app, ?_, hdigits, ?_, ?_⟩
              · show app.manifestPath = (app.libraryPath.child _).child name
                rw [hmanifest, hlibrary]
              · show (readManifest s casefold app.manifestPath app.libraryPath _).value = some app
                rw [hmanifest, hlibrary]
                exact happ
              · show _ = ({ app with residual := some (measureResidualContent s
                  ⟨app.manifestPath.root, app.manifestPath.parts.dropLast⟩ app.appid) } :
                    InstalledSteamApp)
                rw [hmanifest]
          · exact .inl ⟨_, List.mem_append_right _ List.mem_cons_self, hmanifest⟩

/-! ## The loop over the libraries -/

/-- The manifests of a library are enumerated, or a warning has the path of the library; and
each that is enumerated is settled. -/
def Covered (s : Snapshot) (library : SteamLibrary) (found : Found) : Prop :=
  let steamapps := library.path.child "steamapps".toList
  (isReadableDirectory s steamapps = true ∧ (∃ names, s.scandir steamapps = some names) ∨
      Warned found.warnings steamapps) ∧
    (isReadableDirectory s steamapps = true → ∀ names, s.scandir steamapps = some names →
      ∀ name ∈ names, isCandidate name = true → Settled (steamapps.child name) found)

theorem Covered.grows {s : Snapshot} {library : SteamLibrary} {found found' : Found}
    (h : Grows found found') (hcovered : Covered s library found) : Covered s library found' :=
  ⟨hcovered.1.imp_right fun hwarned => hwarned.mono h.2,
    fun hreadable names hnames name hname hcandidate =>
      (hcovered.2 hreadable names hnames name hname hcandidate).grows h⟩

/-- A candidate that is no manifest has a warning. -/
theorem inspectCandidate_eq_ok {s : Snapshot} {candidate : PosixPath} {name : List Char}
    {r : Reading (PosixPath × List Char)} (h : inspectCandidate s candidate name = .ok r) :
    (∃ digits, r.value = some (candidate, digits) ∧ manifestDigits name = some digits) ∨
      r.value = none ∧ Warned r.warnings candidate := by
  have hgiveUp : ∀ w : LocalSteamWarning, w.path = some candidate → giveUp w = r →
      r.value = none ∧ Warned r.warnings candidate := by
    intro w hw heq
    subst heq
    exact ⟨rfl, w, List.mem_cons_self, hw⟩
  unfold inspectCandidate at h
  split at h
  · cases h
  · exact .inr (hgiveUp _ rfl (Except.ok.inj h))
  · split at h
    · exact .inr (hgiveUp _ rfl (Except.ok.inj h))
    · exact .inr (hgiveUp _ rfl (Except.ok.inj h))
    · split at h
      · exact .inr (hgiveUp _ rfl (Except.ok.inj h))
      · rename_i digits hdigits
        rw [← Except.ok.inj h]
        exact .inl ⟨digits, rfl, hdigits⟩

/-- The AppIDs of the names of the manifests. -/
theorem withAppid_eq_ok {manifest : PosixPath × List Char} {result : PosixPath × Int}
    (h : (do let appid ← filenameAppid manifest.2; return (manifest.1, appid)) =
      (.ok result : Except Raised (PosixPath × Int))) :
    result = (manifest.1, (Decimal.valueOf manifest.2 : Int)) := by
  obtain ⟨appid, happid, hresult⟩ := bind_eq_ok.mp h
  rw [filenameAppid, Result.guard_eq_ok] at happid
  cases happid.2
  cases hresult
  rfl

/-- One library: the invariant is kept, nothing is lost, and the library is covered. -/
theorem scanLibrary_step {s : Snapshot} {casefold : List Char → List Char}
    {library : SteamLibrary} {found found' : Found} (hfound : Consistent s casefold found)
    (h : scanLibrary s casefold found library = .ok found') :
    Consistent s casefold found' ∧ Grows found found' ∧ Covered s library found' := by
  have hwarn : ∀ w : LocalSteamWarning, w.path = some (library.path.child "steamapps".toList) →
      ¬(isReadableDirectory s (library.path.child "steamapps".toList) = true ∧
        (s.scandir (library.path.child "steamapps".toList)).isSome = true) →
      found' = found.warn [w] →
      Consistent s casefold found' ∧ Grows found found' ∧ Covered s library found' := by
    intro w hpath hclosed heq
    subst heq
    refine ⟨hfound.warn _, grows_warn _ _,
      .inr ⟨w, List.mem_append_right _ List.mem_cons_self, hpath⟩, ?_⟩
    intro hreadable names hnames
    exact absurd ⟨hreadable, by rw [hnames]; rfl⟩ hclosed
  unfold scanLibrary at h
  dsimp only at h
  split at h
  · rename_i hreadable
    exact hwarn _ rfl (fun hopen => hreadable hopen.1) (Except.ok.inj h).symm
  · rename_i hreadable
    rw [not_not] at hreadable
    split at h
    · rename_i hnone
      refine hwarn _ rfl (fun hopen => ?_) (Except.ok.inj h).symm
      rw [hnone] at hopen
      cases hopen.2
    · rename_i names hnames
      obtain ⟨inspected, hinspected, h⟩ := bind_eq_ok.mp h
      obtain ⟨manifests, hmanifests, h⟩ := bind_eq_ok.mp h
      have hinspected := Result.mapM_eq_ok_iff.mp hinspected
      have hmanifests := Result.mapM_eq_ok_iff.mp hmanifests
      have hnamed : ∀ manifest ∈ manifests, ∃ name digits, manifestDigits name = some digits ∧
          manifest = ((library.path.child "steamapps".toList).child name,
            (Decimal.valueOf digits : Int)) := by
        intro manifest hmanifest
        obtain ⟨candidate, hcandidate, hmade⟩ := Result.exists_of_mem_right hmanifests hmanifest
        obtain ⟨r, hr, hvalue⟩ := List.mem_filterMap.mp hcandidate
        obtain ⟨name, -, hname⟩ := Result.exists_of_mem_right hinspected hr
        rcases inspectCandidate_eq_ok hname with ⟨digits, hvalue', hdigits⟩ | ⟨hnone, -⟩
        · rw [hvalue] at hvalue'
          cases hvalue'
          exact ⟨name, digits, hdigits, withAppid_eq_ok hmade⟩
        · rw [hvalue] at hnone
          cases hnone
      obtain ⟨hconsistent, hgrows, hsettled⟩ := Result.foldlM_rule (Consistent s casefold) Grows
        (fun manifest found => Settled manifest.1 found) Grows.refl (fun _ _ _ => Grows.trans)
        (fun manifest hmanifest before after hbefore hstep => by
          obtain ⟨name, digits, hdigits, rfl⟩ := hnamed manifest hmanifest
          exact takeManifest_step hdigits hbefore hstep)
        (fun _ _ _ => Settled.grows) h (hfound.warn _)
      refine ⟨hconsistent, (grows_warn _ _).trans hgrows, .inl ⟨hreadable, names, hnames⟩, ?_⟩
      intro _ names' hnames' name hname hcandidate
      rw [hnames] at hnames'
      cases hnames'
      have hsorted : name ∈ Choice.sortBy String.ofList (names.filter isCandidate) :=
        (Choice.sortBy_perm _ _).mem_iff.mpr (List.mem_filter.mpr ⟨hname, hcandidate⟩)
      obtain ⟨r, hr, hread⟩ := Result.exists_of_mem_left hinspected hsorted
      rcases inspectCandidate_eq_ok hread with ⟨digits, hvalue, hdigits⟩ | ⟨-, hwarned⟩
      · have hmem := List.mem_filterMap.mpr ⟨r, hr, hvalue⟩
        obtain ⟨manifest, hmanifest, hmade⟩ := Result.exists_of_mem_left hmanifests hmem
        have hpath := hsettled manifest hmanifest
        rw [withAppid_eq_ok hmade] at hpath
        exact hpath
      · refine .inr (hwarned.mono fun w hw => hgrows.2 ?_)
        refine List.mem_append_right _ (List.mem_append_left _ ?_)
        exact List.mem_flatMap.mpr ⟨r, hr, hw⟩

/-! ## The libraries of the index -/

/-- One entry of the index: its library is specified, or a warning names the entry. -/
theorem librarySpec_eq_ok {s : Snapshot} {root source : PosixPath} {entry : List Char × Value}
    {r : Reading LibrarySpec} (h : librarySpec s root source entry = .ok r) :
    (∃ spec text path, r.value = some spec ∧ libraryPath entry.2 = some text ∧
        s.expanduser (.ofText text) = some path ∧ spec.path = root.join path) ∨
      ∃ w ∈ r.warnings, w.path = some source ∧ ∃ rest, w.message = entryMessage entry.1 rest := by
  obtain ⟨index, value⟩ := entry
  unfold librarySpec at h
  dsimp only at h
  split at h
  · rw [← Except.ok.inj h]
    exact .inr ⟨_, List.mem_cons_self, rfl, _, rfl⟩
  · split at h
    · rw [← Except.ok.inj h]
      exact .inr ⟨_, List.mem_cons_self, rfl, _, rfl⟩
    · rename_i text htext
      split at h
      · cases h
      · rename_i path hpath
        rw [← Except.ok.inj h]
        obtain ⟨expanded, hexpanded, rfl⟩ := Option.map_eq_some_iff.mp hpath
        exact .inl ⟨_, text, expanded, rfl, htext, hexpanded, rfl⟩

/-- The loop that resolves the libraries: nothing is lost, different libraries have different
paths, and each library is there or a warning has its path. -/
theorem addLibrary_foldl {s : Snapshot} {specs : List LibrarySpec} :
    ∀ {found : List LocalSteamWarning × List SteamLibrary},
    (found.2.map SteamLibrary.path).Nodup →
    found.1 ⊆ (specs.foldl (addLibrary s) found).1 ∧
      found.2 ⊆ (specs.foldl (addLibrary s) found).2 ∧
      ((specs.foldl (addLibrary s) found).2.map SteamLibrary.path).Nodup ∧
      ∀ spec ∈ specs, (∃ library ∈ (specs.foldl (addLibrary s) found).2,
          safeResolve s spec.path = some library.path) ∨
        Warned (specs.foldl (addLibrary s) found).1 (lexicalAbsolute s spec.path) := by
  induction specs with
  | nil => exact fun hnodup => ⟨List.Subset.refl _, List.Subset.refl _, hnodup, nofun⟩
  | cons spec specs ih =>
    intro found hnodup
    rw [List.foldl_cons]
    have hone : found.1 ⊆ (addLibrary s found spec).1 ∧ found.2 ⊆ (addLibrary s found spec).2 ∧
        ((addLibrary s found spec).2.map SteamLibrary.path).Nodup ∧
        ((∃ library ∈ (addLibrary s found spec).2,
            safeResolve s spec.path = some library.path) ∨
          Warned (addLibrary s found spec).1 (lexicalAbsolute s spec.path)) := by
      unfold addLibrary
      cases hresolve : safeResolve s spec.path with
      | none =>
        exact ⟨List.subset_append_left _ _, List.Subset.refl _, hnodup,
          .inr ⟨_, List.mem_append_right _ List.mem_cons_self, rfl⟩⟩
      | some normalized =>
        dsimp only
        by_cases hseen : found.2.any (fun library => library.path == normalized) = true
        · rw [if_pos hseen]
          obtain ⟨library, hlibrary, heq⟩ := List.any_eq_true.mp hseen
          exact ⟨List.subset_append_left _ _, List.Subset.refl _, hnodup,
            .inl ⟨library, hlibrary, congrArg some (beq_iff_eq.mp heq).symm⟩⟩
        · rw [if_neg hseen]
          refine ⟨List.Subset.refl _, List.subset_append_left _ _, ?_,
            .inl ⟨_, List.mem_append_right _ List.mem_cons_self, rfl⟩⟩
          dsimp only
          rw [List.map_append, List.nodup_append]
          refine ⟨hnodup, List.nodup_singleton _, ?_⟩
          intro path hpath path' hpath' heq
          obtain ⟨library, hlibrary, rfl⟩ := List.mem_map.mp hpath
          rw [List.mem_singleton.mp hpath'] at heq
          exact hseen (List.any_eq_true.mpr ⟨library, hlibrary, beq_iff_eq.mpr heq⟩)
    obtain ⟨hwarnings, hlibraries, hnodup', hspec⟩ := hone
    obtain ⟨hwarnings', hlibraries', hnodup'', hspecs⟩ := ih hnodup'
    refine ⟨List.Subset.trans hwarnings hwarnings', List.Subset.trans hlibraries hlibraries',
      hnodup'', List.forall_mem_cons.mpr ⟨?_, hspecs⟩⟩
    rcases hspec with ⟨library, hlibrary, hresolve⟩ | hwarned
    · exact .inl ⟨library, hlibraries' hlibrary, hresolve⟩
    · exact .inr (hwarned.mono hwarnings')

/-- The index of the root is read and has the object of the libraries. -/
def Accepted (s : Snapshot) (casefold : List Char → List Char) (root : PosixPath)
    (folders : KeyValuesObject) : Prop :=
  let libraryFile := (root.child "steamapps".toList).child "libraryfolders.vdf".toList
  s.lstat libraryFile = .present ∧ ∃ tree, (readKeyvalues s casefold libraryFile).value =
    some tree ∧ libraryFolders casefold tree = some folders

/-- Each entry of an accepted index is specified, or a warning names it. -/
theorem indexSpecs_eq_ok {s : Snapshot} {casefold : List Char → List Char} {root : PosixPath}
    {folders : KeyValuesObject} {result : List LocalSteamWarning × List LibrarySpec}
    (h : indexSpecs s casefold root = .ok result) (haccepted : Accepted s casefold root folders)
    {entry : List Char × Value} (hentry : entry ∈ libraryEntries folders) :
    (∃ spec ∈ result.2, ∃ text path, libraryPath entry.2 = some text ∧
        s.expanduser (.ofText text) = some path ∧ spec.path = root.join path) ∨
      ∃ w ∈ result.1,
        w.path = some ((root.child "steamapps".toList).child "libraryfolders.vdf".toList) ∧
        ∃ rest, w.message = entryMessage entry.1 rest := by
  obtain ⟨hpresent, tree, htree, hfolders⟩ := haccepted
  simp only [indexSpecs, hpresent, htree, hfolders] at h
  obtain ⟨specs, hspecs, h⟩ := bind_eq_ok.mp h
  obtain ⟨read, hread, hspecs⟩ := bind_eq_ok.mp hspecs
  cases h
  obtain ⟨r, hr, hmade⟩ := Result.exists_of_mem_left (Result.mapM_eq_ok_iff.mp hread) hentry
  rw [← Except.ok.inj hspecs]
  rcases librarySpec_eq_ok hmade with ⟨spec, text, path, hvalue, hrest⟩ | ⟨w, hw, hrest⟩
  · refine .inl ⟨spec, ?_, text, path, hrest⟩
    have hmem := List.mem_filterMap.mpr ⟨r, hr, hvalue⟩
    dsimp only
    split
    · exact hmem
    · exact List.mem_cons_of_mem _ hmem
  · exact .inr ⟨w, List.mem_append_right _ (List.mem_flatMap.mpr ⟨r, hr, hw⟩), hrest⟩

/-! ## The scan -/

/-- Nothing is lost silently. -/
structure Lossless (s : Snapshot) (casefold : List Char → List Char) (steamRoot : List Char)
    (scan : LocalSteamScan) : Prop where
  /-- Every AppID occurs at most once. -/
  unique : (scan.apps.map InstalledSteamApp.appid).Nodup
  /-- Every app comes from a manifest of a library, and is installed. -/
  apps : ∀ app ∈ scan.apps, Installed s casefold app ∧ ∃ name, isCandidate name = true ∧
    app.manifestPath = (app.libraryPath.child "steamapps".toList).child name
  /-- Different libraries have different paths. -/
  distinct : (scan.libraries.map SteamLibrary.path).Nodup
  /-- A library is enumerated, or a warning has the path of its `steamapps`. -/
  libraries : ∀ library ∈ scan.libraries,
    isReadableDirectory s (library.path.child "steamapps".toList) = true ∧
        (∃ names, s.scandir (library.path.child "steamapps".toList) = some names) ∨
      Warned scan.warnings (library.path.child "steamapps".toList)
  /-- An entry that is enumerated gives exactly one app, or a warning has its path. -/
  entries : ∀ library ∈ scan.libraries,
    isReadableDirectory s (library.path.child "steamapps".toList) = true →
    ∀ names, s.scandir (library.path.child "steamapps".toList) = some names → ∀ name ∈ names,
    isCandidate name = true →
      (∃! app, app ∈ scan.apps ∧
        app.manifestPath = (library.path.child "steamapps".toList).child name) ∨
      Warned scan.warnings ((library.path.child "steamapps".toList).child name)
  /-- A library of an accepted index is scanned, or a warning names it by its path or by its
  entry. -/
  declared : ∀ expanded root, s.expanduser (.ofText steamRoot) = some expanded →
    s.resolve expanded = some root → ∀ folders, Accepted s casefold root folders →
    ∀ entry ∈ libraryEntries folders,
      (∃ text path, libraryPath entry.2 = some text ∧ s.expanduser (.ofText text) = some path ∧
        ((∃ library ∈ scan.libraries, safeResolve s (root.join path) = some library.path) ∨
          Warned scan.warnings (lexicalAbsolute s (root.join path)))) ∨
      ∃ w ∈ scan.warnings,
        w.path = some ((root.child "steamapps".toList).child "libraryfolders.vdf".toList) ∧
        ∃ rest, w.message = entryMessage entry.1 rest

theorem stripStart_eq_some {key text rest : List Char}
    (h : Text.stripStart key text = some rest) : text = key ++ rest := by
  induction key generalizing text with
  | nil => exact Option.some.inj h
  | cons k key ih =>
    cases text with
    | nil => cases h
    | cons c text =>
      unfold Text.stripStart at h
      split at h
      · rename_i heq
        rw [heq, ih h, List.cons_append]
      · cases h

/-- The name of a manifest is one that the enumeration selects. -/
theorem isCandidate_of_digits {name digits : List Char} (h : manifestDigits name = some digits) :
    isCandidate name = true := by
  obtain ⟨rest, hrest, h⟩ := Option.bind_eq_some_iff.mp h
  dsimp only at h
  split at h
  · rename_i hboth
    rw [isCandidate, Bool.and_eq_true, stripStart_eq_some hrest]
    refine ⟨List.isPrefixOf_iff_prefix.mpr (List.prefix_append _ _), ?_⟩
    rw [List.isSuffixOf_iff_suffix, ← hboth.2]
    exact (List.drop_suffix _ _).trans (List.suffix_append _ _)
  · cases h

/-- Two apps of one manifest are one app. -/
theorem Consistent.eq_of_manifestPath {s : Snapshot} {casefold : List Char → List Char}
    {found : Found} (h : Consistent s casefold found) {app app' : InstalledSteamApp}
    (happ : app ∈ found.apps) (happ' : app' ∈ found.apps)
    (hpath : app.manifestPath = app'.manifestPath) : app = app' := by
  obtain ⟨name, digits, read, hmanifest, hdigits, hread, heq⟩ := h.given app happ
  obtain ⟨name', digits', read', hmanifest', hdigits', hread', heq'⟩ := h.given app' happ'
  have hsame := hpath
  rw [hmanifest, hmanifest', PosixPath.child_inj, PosixPath.child_inj] at hsame
  rw [hsame.2, hdigits'] at hdigits
  cases hdigits
  rw [hpath, hsame.1.1, hread'] at hread
  cases hread
  rw [heq, heq', hpath]

/-- Whatever the directories, the manifests and the failures to read them: a scan that returns
has lost nothing silently. -/
theorem scan_lossless (s : Snapshot) (casefold : List Char → List Char) (steamRoot : List Char)
    (scan : LocalSteamScan) (h : scanLocalSteam s casefold steamRoot = .ok scan) :
    Lossless s casefold steamRoot scan := by
  unfold scanLocalSteam at h
  split at h
  · cases h
  · rename_i expanded hexpanded
    split at h
    · rename_i hnone
      cases h
      refine ⟨List.nodup_nil, List.forall_mem_nil _, List.nodup_nil, List.forall_mem_nil _,
        List.forall_mem_nil _, ?_⟩
      intro expanded' root hexpanded' hroot
      rw [hexpanded] at hexpanded'
      cases hexpanded'
      rw [hnone] at hroot
      cases hroot
    · rename_i root hroot
      obtain ⟨index, hindex, h⟩ := bind_eq_ok.mp h
      obtain ⟨found, hfound, h⟩ := bind_eq_ok.mp h
      obtain ⟨hwarnings, -, hdistinct, hspecs⟩ :=
        @addLibrary_foldl s index.2 (index.1, []) List.nodup_nil
      generalize index.2.foldl (addLibrary s) (index.1, []) = resolved
        at hfound h hwarnings hdistinct hspecs
      have hinit : Consistent s casefold ⟨[], [], resolved.1⟩ :=
        ⟨fun _ => iff_of_false nofun List.not_mem_nil, List.nodup_nil, List.forall_mem_nil _⟩
      obtain ⟨hconsistent, hgrows, hcovered⟩ := Result.foldlM_rule (Consistent s casefold) Grows
        (fun library found => Covered s library found) Grows.refl (fun _ _ _ => Grows.trans)
        (fun library _ before after hbefore hstep => scanLibrary_step hbefore hstep)
        (fun _ _ _ => Covered.grows) hfound hinit
      cases h
      have hsorted := Choice.sortBy_perm
        (fun app : InstalledSteamApp => toLex (app.appid, pathText app.libraryPath)) found.apps
      refine ⟨?_, ?_, hdistinct, fun library hlibrary => (hcovered library hlibrary).1, ?_, ?_⟩
      · exact (hsorted.map InstalledSteamApp.appid).nodup_iff.mpr hconsistent.unique
      · intro app happ
        obtain ⟨name, digits, read, hmanifest, hdigits, hread, heq⟩ :=
          hconsistent.given app (hsorted.mem_iff.mp happ)
        refine ⟨?_, name, isCandidate_of_digits hdigits, hmanifest⟩
        obtain ⟨hpath, hlibrary, hinstalled⟩ := readManifest_value hread
        rw [heq]
        exact ⟨hinstalled.regular, hinstalled.flags, hinstalled.notUninstalled,
          hinstalled.installed⟩
      · intro library hlibrary hreadable names hnames name hname hcandidate
        refine ((hcovered library hlibrary).2 hreadable names hnames name hname hcandidate).imp_left
          ?_
        intro h
        obtain ⟨app, happ, hpath⟩ := h
        refine ⟨app, ⟨hsorted.mem_iff.mpr happ, hpath⟩, ?_⟩
        intro app' h'
        exact hconsistent.eq_of_manifestPath (hsorted.mem_iff.mp h'.1) happ
          (h'.2.trans hpath.symm)
      · intro expanded' root' hexpanded' hroot' folders haccepted entry hentry
        rw [hexpanded] at hexpanded'
        cases hexpanded'
        rw [hroot] at hroot'
        cases hroot'
        rcases indexSpecs_eq_ok hindex haccepted hentry with
          ⟨spec, hspec, text, path, htext, hpath, heq⟩ | ⟨w, hw, hrest⟩
        · refine .inl ⟨text, path, htext, hpath, ?_⟩
          rw [← heq]
          exact (hspecs spec hspec).imp_right fun hwarned => hwarned.mono hgrows.2
        · exact .inr ⟨w, hgrows.2 (hwarnings hw), hrest⟩

/-! ## Two small libraries -/

/-- An absolute path of these components. -/
def absolute (parts : List String) : PosixPath :=
  ⟨1, parts.map String.toList⟩

/-- The index declares the root and another library, and of the manifests in
that library one ends inside its object. -/
def smallFiles : List (PosixPath × String) :=
  [(absolute ["steam", "steamapps", "libraryfolders.vdf"],
      "\"libraryfolders\" \x7b \"0\" \x7b \"path\" \"/steam\" \x7d " ++
        "\"1\" \x7b \"path\" \"/games\" \x7d \x7d"),
    (absolute ["steam", "steamapps", "appmanifest_10.acf"],
      "\"AppState\" \x7b \"appid\" \"10\" \"StateFlags\" \"4\" \"installdir\" \"a\" \x7d"),
    (absolute ["games", "steamapps", "appmanifest_20.acf"],
      "\"AppState\" \x7b \"appid\" \"20\" \"StateFlags\" \"4\" \"installdir\" \"b\" \x7d"),
    (absolute ["games", "steamapps", "appmanifest_30.acf"],
      "\"AppState\" \x7b \"appid\" \"30\"")]

def smallSnapshot : Snapshot where
  cwd := absolute []
  expanduser := some
  resolve := some
  isSymlink _ := some false
  readlink _ := none
  isFile path := some (smallFiles.lookup path).isSome
  isDir path :=
    some (path == absolute ["steam", "steamapps"] || path == absolute ["games", "steamapps"])
  lstat path := if (smallFiles.lookup path).isSome then .present else .missing
  size _ := .ok 100
  readText path :=
    match smallFiles.lookup path with
    | some text => .ok text.toList
    | none => .error .notFound
  scandir path :=
    if path = absolute ["steam", "steamapps"] then
      some ["appmanifest_10.acf".toList, "libraryfolders.vdf".toList]
    else if path = absolute ["games", "steamapps"] then
      some ["appmanifest_20.acf".toList, "appmanifest_30.acf".toList]
    else none
  tree _ := .absent

/-- An application, installed under its own name in a library. -/
def smallApp (appid : Int) (library installDir manifest : String) : InstalledSteamApp where
  appid := appid
  name := none
  installDir := some (absolute [library, "steamapps", "common", installDir])
  buildId := none
  sizeOnDiskBytes := none
  stateFlags := 4
  libraryPath := absolute [library]
  manifestPath := absolute [library, "steamapps", manifest]
  residual := some ⟨some 0, some 0, some 0, "measured"⟩

def smallScan : LocalSteamScan where
  steamRoot := absolute ["steam"]
  libraries := [⟨absolute ["steam"], [], some "0".toList⟩,
    ⟨absolute ["games"], [], some "1".toList⟩]
  apps := [smallApp 10 "steam" "a" "appmanifest_10.acf",
    smallApp 20 "games" "b" "appmanifest_20.acf"]
  warnings := [⟨.malformed, "malformed_keyvalues", "unterminated object at line 1",
    some (absolute ["games", "steamapps", "appmanifest_30.acf"]), none⟩]

theorem scan_lossless_small :
    Lossless smallSnapshot (List.map Char.toLower) "/steam".toList smallScan :=
  scan_lossless smallSnapshot (List.map Char.toLower) "/steam".toList smallScan (by decide +kernel)

end SteamAgent.LocalSteam
