import SteamAgent.Execution.Linux.PlainIndex

/-!
# What the download gate sees

The gate reads the configuration files with a pattern and a count of braces.  It is
compared with the index reader of `local_steam.py`, which obtains the libraries that
the files declare.

There are five groups.

* Walks: `downloadActivity_eq_false`.
* The gate: `gates_download_eq_pass`.
* The libraries that are declared, and those that the pattern finds:
  `sees_every_iff_spelled`.
* Files that are written plainly: `gates_see_every`.
* A plain file, and a path with an escape.
-/

namespace SteamAgent.Execution.Linux

open LocalSteam (declaredPaths declaredLibraries libraryDirectory stripMarks)

/-! ## Walks -/

/-- Only directories, each of which can be listed and is older than the threshold. -/
inductive Quiet (now : Int) : Entry → Prop
  | directory {modified : Int} {entries : List Entry}
      (hage : downloadResidueAge ≤ now - modified) (hentries : ∀ e ∈ entries, Quiet now e) :
      Quiet now (.directory modified (true, entries))

/-- The tree is absent, or each of its entries is quiet. -/
def Tree.Quiet (now : Int) : Tree → Prop
  | absent => True
  | unreadable => False
  | entries listed => ∀ e ∈ listed, Linux.Quiet now e

theorem quiet_directory {now modified : Int} {content : Bool × List Entry} :
    Quiet now (.directory modified content) ↔ ¬now - modified < downloadResidueAge ∧
      content.1 = true ∧ ∀ e ∈ content.2, Quiet now e := by
  constructor
  · intro h
    cases h with
    | directory hage hentries => exact ⟨Int.not_lt.mpr hage, rfl, hentries⟩
  · intro h
    obtain ⟨listable, entries⟩ := content
    obtain ⟨hage, hlistable, hentries⟩ := h
    cases hlistable
    exact .directory (Int.not_lt.mp hage) hentries

/-- A walk finds no activity when all that is left to walk is quiet. -/
theorem downloadActivity_eq_false {now : Int} {stack : List (Bool × List Entry)} :
    downloadActivity now stack = .ok false ↔
      ∀ d ∈ stack, d.1 = true ∧ ∀ e ∈ d.2, Quiet now e := by
  induction stack using downloadActivity.induct now with
  | case1 =>
    rw [downloadActivity]
    exact iff_of_true rfl nofun
  | case2 entries stack =>
    rw [downloadActivity]
    refine iff_of_false nofun fun h => ?_
    cases (h _ List.mem_cons_self).1
  | case3 stack ih =>
    rw [downloadActivity, ih, List.forall_mem_cons]
    exact (and_iff_right ⟨rfl, nofun⟩).symm
  | case4 rest stack =>
    rw [downloadActivity]
    refine iff_of_false nofun fun h => ?_
    cases (h _ List.mem_cons_self).2 _ List.mem_cons_self
  | case5 rest stack =>
    rw [downloadActivity]
    refine iff_of_false nofun fun h => ?_
    cases (h _ List.mem_cons_self).2 _ List.mem_cons_self
  | case6 modified content rest stack hage =>
    rw [downloadActivity, if_pos hage]
    refine iff_of_false nofun fun h => ?_
    have hquiet := (h _ List.mem_cons_self).2 _ List.mem_cons_self
    exact (quiet_directory.mp hquiet).1 hage
  | case7 modified content rest stack hage ih =>
    rw [downloadActivity, if_neg hage, ih]
    simp only [List.forall_mem_cons, quiet_directory]
    tauto

/-- The loop over the directories passes when each tree is quiet, in whatever order. -/
theorem downloadState_eq_pass {machine : Machine} {dirs : List PosixPath} {state : GateState} :
    downloadState machine state dirs = .pass ↔
      state = .pass ∧ ∀ dir ∈ dirs, (machine.tree dir).Quiet machine.now := by
  induction dirs generalizing state with
  | nil => exact ⟨fun h => ⟨h, nofun⟩, fun h => h.1⟩
  | cons dir dirs ih =>
    rw [downloadState, List.forall_mem_cons]
    cases machine.tree dir with
    | absent =>
      dsimp only
      rw [ih]
      exact and_congr_right fun _ => (and_iff_right trivial).symm
    | unreadable =>
      dsimp only
      rw [ih]
      exact iff_of_false (fun h => nomatch h.1) fun h => h.2.1
    | entries entries =>
      dsimp only
      have hwalk : downloadActivity machine.now [(true, entries)] = .ok false ↔
          (Tree.entries entries).Quiet machine.now := by
        rw [downloadActivity_eq_false, List.forall_mem_singleton]
        exact and_iff_right rfl
      cases hactivity : downloadActivity machine.now [(true, entries)] with
      | error _ =>
        dsimp only
        rw [ih]
        refine iff_of_false (fun h => nomatch h.1) fun h => ?_
        rw [hwalk.mpr h.2.1] at hactivity
        cases hactivity
      | ok active =>
        cases active with
        | true =>
          refine iff_of_false nofun fun h => ?_
          rw [hwalk.mpr h.2.1] at hactivity
          cases hactivity
        | false =>
          dsimp only
          rw [ih]
          exact and_congr_right fun _ => (and_iff_right (hwalk.mp hactivity)).symm

/-! ## The gate -/

/-- A configuration file has the text. -/
def HasText (places : Places) (text : List Char) : Prop :=
  ∃ vdf ∈ vdfCandidates places, places.read vdf = .text text

/-- Each configuration file that exists can be read and looks complete. -/
def Trusted (places : Places) : Prop :=
  (∀ vdf ∈ vdfCandidates places, places.read vdf ≠ .unreadable) ∧
    ∀ text, HasText places text → looksComplete text = true

theorem mem_addDirs {values : List (List Char)} {dirs : List PosixPath} {dir : PosixPath} :
    dir ∈ addDirs dirs values ↔
      dir ∈ dirs ∨ ∃ value ∈ values, dir = downloadingOf (.ofText value) := by
  induction values generalizing dirs with
  | nil => exact ⟨.inl, fun h => h.elim id fun h => nomatch h.choose_spec.1⟩
  | cons value values ih =>
    rw [addDirs, List.foldl_cons]
    show dir ∈ addDirs _ values ↔ _
    rw [ih, List.exists_mem_cons_iff]
    dsimp only
    by_cases hmem : dirs.contains (downloadingOf (.ofText value)) = true
    · rw [if_pos hmem]
      rw [List.contains_iff_mem] at hmem
      constructor
      · intro h
        exact h.imp_right .inr
      · intro h
        rcases h with h | rfl | h
        · exact .inl h
        · exact .inl hmem
        · exact .inr h
    · rw [if_neg hmem, List.mem_append, List.mem_singleton, or_assoc]

theorem collectDirs_eq_some {read : PosixPath → ConfigFile} {candidates dirs : List PosixPath} :
    (∃ dirs', collectDirs read candidates dirs = some dirs') ↔
      ∀ vdf ∈ candidates, read vdf ≠ .unreadable ∧
        ∀ text, read vdf = .text text → looksComplete text = true := by
  induction candidates generalizing dirs with
  | nil => exact iff_of_true ⟨dirs, rfl⟩ nofun
  | cons vdf candidates ih =>
    rw [List.forall_mem_cons, collectDirs]
    cases hread : read vdf with
    | missing =>
      dsimp only
      rw [ih]
      exact (and_iff_right ⟨nofun, nofun⟩).symm
    | unreadable => exact iff_of_false nofun fun h => h.1.1 rfl
    | text text =>
      dsimp only
      by_cases hcomplete : looksComplete text = true
      · rw [if_pos hcomplete, ih]
        refine (and_iff_right ⟨nofun, ?_⟩).symm
        intro text' heq
        cases heq
        exact hcomplete
      · rw [if_neg hcomplete]
        exact iff_of_false nofun fun h => hcomplete (h.1.2 text rfl)

theorem mem_collectDirs {read : PosixPath → ConfigFile} {candidates dirs dirs' : List PosixPath}
    (h : collectDirs read candidates dirs = some dirs') {dir : PosixPath} :
    dir ∈ dirs' ↔ dir ∈ dirs ∨ ∃ vdf ∈ candidates, ∃ text, read vdf = .text text ∧
      ∃ value ∈ quotedPaths text, dir = downloadingOf (.ofText value) := by
  induction candidates generalizing dirs with
  | nil =>
    cases h
    exact ⟨.inl, fun h => h.elim id fun h => nomatch h.choose_spec.1⟩
  | cons vdf candidates ih =>
    rw [collectDirs] at h
    rw [List.exists_mem_cons_iff]
    cases hread : read vdf with
    | missing =>
      rw [hread] at h
      rw [ih h]
      refine or_congr_right (or_iff_right fun h => ?_).symm
      obtain ⟨text, heq, -⟩ := h
      cases heq
    | unreadable =>
      rw [hread] at h
      cases h
    | text text =>
      simp only [hread] at h
      split at h
      · rw [ih h, mem_addDirs, or_assoc]
        refine or_congr_right (or_congr_left ?_)
        constructor
        · intro h
          exact ⟨text, rfl, h⟩
        · intro h
          obtain ⟨text', heq, h⟩ := h
          cases heq
          exact h
      · cases h

/-- The gate passes when the files are trusted and the trees of the paths that it finds are
quiet. -/
theorem gates_download_eq_pass {places : Places} {machine : Machine} :
    (gates places machine).downloadInFlight = .pass ↔
      Trusted places ∧ (machine.tree (downloadingOf places.library)).Quiet machine.now ∧
        ∀ text, HasText places text → ∀ value ∈ quotedPaths text,
          (machine.tree (downloadingOf (.ofText value))).Quiet machine.now := by
  have htrusted : (∃ dirs, downloadDirs places = some dirs) ↔ Trusted places := by
    rw [downloadDirs, collectDirs_eq_some, Trusted]
    constructor
    · intro h
      refine ⟨fun vdf hvdf => (h vdf hvdf).1, fun text htext => ?_⟩
      obtain ⟨vdf, hvdf, hread⟩ := htext
      exact (h vdf hvdf).2 text hread
    · intro h vdf hvdf
      exact ⟨h.1 vdf hvdf, fun text hread => h.2 text ⟨vdf, hvdf, hread⟩⟩
  rw [← htrusted, gates]
  dsimp only
  cases hdirs : downloadDirs places with
  | none =>
    refine iff_of_false nofun fun h => ?_
    obtain ⟨dirs, heq⟩ := h.1
    cases heq
  | some dirs =>
    dsimp only
    rw [downloadState_eq_pass, and_iff_right rfl, and_iff_right ⟨dirs, rfl⟩]
    have hmem := @mem_collectDirs _ _ _ _ hdirs
    constructor
    · intro h
      refine ⟨h _ (hmem.mpr (.inl List.mem_cons_self)), fun text htext value hvalue => ?_⟩
      obtain ⟨vdf, hvdf, hread⟩ := htext
      exact h _ (hmem.mpr (.inr ⟨vdf, hvdf, text, hread, value, hvalue, rfl⟩))
    · intro h dir hdir
      rcases hmem.mp hdir with hdir | ⟨vdf, hvdf, text, hread, value, hvalue, rfl⟩
      · rw [List.mem_singleton.mp hdir]
        exact h.1
      · exact h.2 text ⟨vdf, hvdf, hread⟩ value hvalue

/-! ## The libraries that are declared -/

/-- What the index reader goes by: `str.casefold`, the home directories that
`Path.expanduser` finds, and the Steam root to which an index file belongs. -/
structure IndexReader where
  casefold : List Char → List Char
  home : List Char → Option PosixPath
  root : PosixPath → PosixPath

/-- The libraries of an index file. -/
def IndexReader.libraries (reader : IndexReader) (vdf : PosixPath) (text : List Char) :
    Option (List PosixPath) :=
  declaredLibraries reader.casefold (PosixPath.expanduser reader.home) (reader.root vdf) text

/-- A gate that passes has seen each library: each tree that it walks is quiet, and each
configuration file is accepted, with a path for each library, whose tree is quiet. -/
def SeesEvery (reader : IndexReader) (places : Places) (machine : Machine) : Prop :=
  (gates places machine).downloadInFlight = .pass →
    (∀ dirs, downloadDirs places = some dirs →
      ∀ dir ∈ dirs, (machine.tree dir).Quiet machine.now) ∧
    ∀ vdf ∈ vdfCandidates places, ∀ text, places.read vdf = .text text →
      ∃ libraries, reader.libraries vdf text = some libraries ∧
        ∀ library ∈ libraries, (machine.tree (downloadingOf library)).Quiet machine.now

/-- The pattern finds each library that the files declare. -/
def Spelled (reader : IndexReader) (places : Places) : Prop :=
  Trusted places → ∀ vdf ∈ vdfCandidates places, ∀ text, places.read vdf = .text text →
    ∃ libraries, reader.libraries vdf text = some libraries ∧
      ∀ library ∈ libraries, library = places.library ∨
        ∃ text', HasText places text' ∧ ∃ value ∈ quotedPaths text', .ofText value = library

theorem downloadingOf_inj {path path' : PosixPath} :
    downloadingOf path = downloadingOf path' ↔ path = path' := by
  constructor
  · intro h
    exact (PosixPath.child_inj.mp (PosixPath.child_inj.mp h).1).1
  · exact congrArg downloadingOf

/-- A machine on which nothing is downloaded but at one path. -/
def machineWith (busy : PosixPath → Bool) : Machine where
  tree path := if busy path then .entries [.other] else .absent
  now := 0
  uid := "1000"
  returncode _ := 1

theorem machineWith_quiet {busy : PosixPath → Bool} {path : PosixPath} :
    ((machineWith busy).tree path).Quiet (machineWith busy).now ↔ busy path = false := by
  show (if busy path = true then Tree.entries [.other] else Tree.absent).Quiet _ ↔ _
  by_cases h : busy path = true
  · rw [if_pos h]
    refine iff_of_false (fun hquiet => ?_) (by simp [h])
    cases hquiet _ List.mem_cons_self
  · rw [if_neg h]
    exact iff_of_true trivial (Bool.not_eq_true _ ▸ h)

/-- The gate sees each library on every machine when the pattern finds each of them. -/
theorem sees_every_iff_spelled (reader : IndexReader) (places : Places) :
    (∀ machine, SeesEvery reader places machine) ↔ Spelled reader places := by
  constructor
  · intro hsees htrusted vdf hvdf text htext
    have hidle : (gates places (machineWith fun _ => false)).downloadInFlight = .pass := by
      rw [gates_download_eq_pass]
      exact ⟨htrusted, trivial, fun _ _ _ _ => trivial⟩
    obtain ⟨libraries, hlibraries, -⟩ := (hsees _ hidle).2 vdf hvdf text htext
    refine ⟨libraries, hlibraries, fun library hlibrary => ?_⟩
    by_contra hmissed
    push Not at hmissed
    have hpass : (gates places (machineWith fun dir =>
        dir == downloadingOf library)).downloadInFlight = .pass := by
      rw [gates_download_eq_pass]
      refine ⟨htrusted, ?_, fun text' htext' value hvalue => ?_⟩
      · rw [machineWith_quiet, beq_eq_false_iff_ne, Ne, downloadingOf_inj]
        exact fun heq => hmissed.1 heq.symm
      · rw [machineWith_quiet, beq_eq_false_iff_ne, Ne, downloadingOf_inj]
        exact hmissed.2 text' htext' value hvalue
    obtain ⟨libraries', hlibraries', hquiet⟩ := (hsees _ hpass).2 vdf hvdf text htext
    rw [hlibraries] at hlibraries'
    cases hlibraries'
    have hbusy := hquiet library hlibrary
    rw [machineWith_quiet, beq_self_eq_true] at hbusy
    cases hbusy
  · intro hspelled machine hpass
    have hstate := hpass
    obtain ⟨htrusted, hlibrary, hfound⟩ := gates_download_eq_pass.mp hpass
    refine ⟨?_, fun vdf hvdf text htext => ?_⟩
    · intro dirs hdirs
      rw [gates, hdirs] at hstate
      exact (downloadState_eq_pass.mp hstate).2
    · obtain ⟨libraries, hlibraries, hspelled⟩ := hspelled htrusted vdf hvdf text htext
      refine ⟨libraries, hlibraries, fun library hmem => ?_⟩
      rcases hspelled library hmem with rfl | ⟨text', htext', value, hvalue, rfl⟩
      · exact hlibrary
      · exact hfound text' htext' value hvalue

/-! ## Files that are written plainly -/

/-- A text with absolute paths, accepted by the index reader and written plainly. -/
structure PlainIndex (casefold : List Char → List Char) (text : List Char) : Prop where
  declared : ∃ paths, declaredPaths casefold text = some paths ∧
    ∀ path ∈ paths, path.head? = some '/'
  written : plainlyWritten .gap (stripMarks text) = true

/-- Each configuration file is plain, unless one of them cannot be read or has more braces
of one kind. -/
def PlainlyConfigured (casefold : List Char → List Char) (places : Places) : Prop :=
  (∀ vdf ∈ vdfCandidates places, places.read vdf ≠ .unreadable) →
  (∀ text, HasText places text → text.count '\x7b' = text.count '\x7d') →
    ∀ text, HasText places text → PlainIndex casefold text

/-- The libraries at absolute paths are where their texts say, whatever the root. -/
theorem mapM_libraryDirectory {home : List Char → Option PosixPath} {root : PosixPath}
    {paths : List (List Char)} (h : ∀ path ∈ paths, path.head? = some '/') :
    paths.mapM (libraryDirectory (PosixPath.expanduser home) root) =
      some (paths.map PosixPath.ofText) := by
  induction paths with
  | nil => rfl
  | cons path paths ih =>
    rw [List.forall_mem_cons] at h
    have habsolute := PosixPath.isAbsolute_ofText h.1
    rw [List.mapM_cons, ih h.2, libraryDirectory, PosixPath.expanduser_of_isAbsolute habsolute,
      Option.map_some, PosixPath.join_of_isAbsolute habsolute]
    rfl

theorem IndexReader.libraries_of_absolute (reader : IndexReader) {vdf : PosixPath}
    {text : List Char} {paths : List (List Char)}
    (hpaths : declaredPaths reader.casefold text = some paths)
    (habsolute : ∀ path ∈ paths, path.head? = some '/') :
    reader.libraries vdf text = some (paths.map PosixPath.ofText) := by
  rw [IndexReader.libraries, declaredLibraries, hpaths]
  exact mapM_libraryDirectory habsolute

theorem PlainlyConfigured.spelled {reader : IndexReader} {places : Places}
    (h : PlainlyConfigured reader.casefold places) : Spelled reader places := by
  intro htrusted vdf hvdf text htext
  have hbraces : ∀ text, HasText places text → text.count '\x7b' = text.count '\x7d' := by
    intro text htext
    have hcomplete := htrusted.2 text htext
    rw [looksComplete, Bool.and_eq_true, beq_iff_eq] at hcomplete
    exact hcomplete.2
  have hplain : PlainIndex reader.casefold text := h htrusted.1 hbraces text ⟨vdf, hvdf, htext⟩
  obtain ⟨paths, hpaths, habsolute⟩ := hplain.declared
  refine ⟨paths.map PosixPath.ofText, reader.libraries_of_absolute hpaths habsolute,
    fun library hlibrary => ?_⟩
  obtain ⟨path, hpath, rfl⟩ := List.mem_map.mp hlibrary
  exact Or.inr ⟨text, ⟨vdf, hvdf, htext⟩, path,
    declaredPaths_subset hpaths hplain.written hpath, rfl⟩

/-- On plain files the gate sees each library that they declare. -/
theorem gates_see_every (reader : IndexReader) (places : Places)
    (h : PlainlyConfigured reader.casefold places) (machine : Machine) :
    SeesEvery reader places machine :=
  (sees_every_iff_spelled reader places).mpr h.spelled machine

/-! ## Two files -/

/-- A reader on a machine without further home directories. -/
def plainReader : IndexReader where
  casefold := List.map Char.toLower
  home user := if user = [] then some ⟨1, ["home".toList, "deck".toList]⟩ else none
  root vdf := ⟨vdf.root, vdf.parts.dropLast.dropLast⟩

/-- A session whose own library has this index. -/
def placesWith (text : List Char) : Places where
  library := ⟨1, ["steam".toList]⟩
  home := ⟨1, ["home".toList, "deck".toList]⟩
  read path :=
    if path = ⟨1, ["steam".toList, "steamapps".toList, "libraryfolders.vdf".toList]⟩ then
      .text text
    else .missing

theorem hasText_placesWith {text text' : List Char} (h : HasText (placesWith text) text') :
    text' = text := by
  obtain ⟨vdf, -, hread⟩ := h
  show text' = text
  rw [placesWith] at hread
  dsimp only at hread
  split at hread
  · cases hread
    rfl
  · cases hread

/-- Two libraries, as Steam writes them. -/
def plainIndexText : List Char :=
  ("\"libraryfolders\"\n\x7b\n\t\"0\"\n\t\x7b\n\t\t\"path\"\t\t\"/steam\"\n\t\x7d\n" ++
    "\t\"1\"\n\t\x7b\n\t\t\"path\"\t\t\"/media/games\"\n\t\x7d\n\x7d\n").toList

theorem declared_plain : declaredPaths (List.map Char.toLower) plainIndexText =
    some ["/steam".toList, "/media/games".toList] := by
  decide

theorem plainIndex_plain : PlainIndex (List.map Char.toLower) plainIndexText where
  declared := ⟨_, declared_plain, by decide⟩
  written := by decide

/-- The second of the libraries. -/
def secondLibrary : PosixPath :=
  ⟨1, ["media".toList, "games".toList]⟩

theorem libraries_plain (vdf : PosixPath) :
    plainReader.libraries vdf plainIndexText = some [⟨1, ["steam".toList]⟩, secondLibrary] := by
  rw [plainReader.libraries_of_absolute declared_plain (by decide)]
  decide

/-- Without a download the gate passes, and with one in the second library it does not. -/
theorem gates_see_every_plain :
    (gates (placesWith plainIndexText) (machineWith fun _ => false)).downloadInFlight = .pass ∧
    (gates (placesWith plainIndexText) (machineWith fun dir =>
      dir == downloadingOf secondLibrary)).downloadInFlight ≠ .pass := by
  refine ⟨by decide, fun hpass => ?_⟩
  obtain ⟨libraries, hlibraries, hquiet⟩ := (gates_see_every plainReader (placesWith plainIndexText)
    (fun _ _ _ htext => hasText_placesWith htext ▸ plainIndex_plain) _ hpass).2 _
      List.mem_cons_self plainIndexText rfl
  rw [libraries_plain] at hlibraries
  cases hlibraries
  have hbusy := hquiet secondLibrary (List.mem_cons_of_mem _ List.mem_cons_self)
  rw [machineWith_quiet, beq_self_eq_true] at hbusy
  cases hbusy

/-- A library whose name has a backslash. -/
def slashedText : List Char :=
  "\"libraryfolders\" \x7b \"0\" \x7b \"path\" \"/media/a\\\\b\" \x7d \x7d".toList

def slashedLibrary : PosixPath :=
  ⟨1, ["media".toList, "a\\b".toList]⟩

theorem libraries_slashed (vdf : PosixPath) :
    plainReader.libraries vdf slashedText = some [slashedLibrary] := by
  have hpaths : declaredPaths (List.map Char.toLower) slashedText =
      some ["/media/a\\b".toList] := by
    decide
  rw [plainReader.libraries_of_absolute hpaths (by decide)]
  decide

theorem gates_slashed : (gates (placesWith slashedText) (machineWith fun dir =>
    dir == downloadingOf slashedLibrary)).downloadInFlight = .pass := by
  decide

/-- The download of the library is not seen. -/
theorem gates_miss_slashed :
    ¬∀ (reader : IndexReader) (places : Places) (machine : Machine),
      SeesEvery reader places machine := by
  intro h
  obtain ⟨libraries, hlibraries, hquiet⟩ := (h plainReader (placesWith slashedText) _
    gates_slashed).2 _ List.mem_cons_self slashedText rfl
  rw [libraries_slashed] at hlibraries
  cases hlibraries
  have hbusy := hquiet _ List.mem_cons_self
  rw [machineWith_quiet] at hbusy
  cases hbusy

end SteamAgent.Execution.Linux
