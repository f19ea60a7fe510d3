import Mathlib

/-!
# The probe for installed content

The walk of `_holds_a_nonempty_file` over a file system, which is a function of the
path: what `os.scandir` lists at the path of a link is what the link points to, so links
may form cycles.  The executor runs the probe on POSIX systems only.

There are four groups.

* Directories and what `os.DirEntry` answers.
* The walk.
* The content of a tree.  `Holds` is what the probe looks for.
* One directory, and the whole walk.
-/

namespace SteamAgent.Execution.ContentProbe

/-! ## Directories -/

/-- What an entry is, without following links. -/
inductive Kind where
  | link
  | directory
  | other
deriving DecidableEq, Repr

/-- The methods of an entry that may raise an `OSError`. -/
inductive Call where
  | isSymlink
  | isDir
  | stat
deriving DecidableEq, Repr

/-- `os.DirEntry`. -/
structure DirEntry where
  name : String
  kind : Kind
  size : Nat
  fails : List Call
deriving DecidableEq, Repr

namespace DirEntry

/-- What a method answers, or an `OSError`. -/
def ask {α : Type} (e : DirEntry) (call : Call) (answer : α) : Option α :=
  if call ∈ e.fails then none else some answer

def isSymlink (e : DirEntry) : Option Bool :=
  e.ask .isSymlink (e.kind = .link)

/-- `is_dir(follow_symlinks=False)`. -/
def isDir (e : DirEntry) : Option Bool :=
  e.ask .isDir (e.kind = .directory)

/-- `stat(follow_symlinks=False).st_size`. -/
def statSize (e : DirEntry) : Option Nat :=
  e.ask .stat e.size

/-- A file with bytes, or another entry that is no link and no directory. -/
def IsContent (e : DirEntry) : Prop :=
  e.kind = .other ∧ 0 < e.size

instance (e : DirEntry) : Decidable e.IsContent := by
  unfold IsContent
  infer_instance

end DirEntry

/-- A directory, with the number of entries after which `os.scandir` raises an `OSError`.
It is zero for a directory that does not open. -/
structure Directory where
  entries : List DirEntry
  failure : Option Nat
deriving DecidableEq, Repr

/-- The entries that `os.scandir` yields. -/
def Directory.yielded (d : Directory) : List DirEntry :=
  match d.failure with
  | none => d.entries
  | some n => d.entries.take n

/-- The names below the root, outermost first. -/
abbrev Path := List String

/-- `os.scandir` of each path. -/
abbrev FileSystem := Path → Directory

/-! ## The walk -/

/-- `_CONTENT_PROBE_ENTRIES`. -/
def contentProbeEntries : Nat :=
  100000

/-- The loop over a directory returns from the function, or it leaves a budget and the
directories that it found. -/
inductive Scan where
  | answered (found : Bool)
  | listed (budget : Nat) (directories : List Path)
deriving DecidableEq, Repr

/-- The loop over the entries of a directory. -/
def scan (path : Path) (budget : Nat) (directories : List Path) : List DirEntry → Scan
  | [] => .listed budget directories
  | entry :: rest =>
    if budget = 0 then .answered false
    else
      match entry.isSymlink with
      | none | some true => scan path (budget - 1) directories rest
      | some false =>
        match entry.isDir with
        | none => scan path (budget - 1) directories rest
        | some true => scan path (budget - 1) (directories ++ [path ++ [entry.name]]) rest
        | some false =>
          match entry.statSize with
          | none => scan path (budget - 1) directories rest
          | some size =>
            if 0 < size then .answered true else scan path (budget - 1) directories rest

/-- The loop over the stack, whose top is the head of the list. -/
def walk (files : FileSystem) : Nat → Nat → List Path → Option Bool
  | 0, _, _ => none
  | _ + 1, _, [] => some false
  | fuel + 1, budget, path :: stack =>
    match scan path budget [] (files path).yielded with
    | .answered found => some found
    | .listed budget directories =>
      -- An `OSError` of the directory leaves out the directories found before it.
      if (files path).failure.isSome then walk files fuel budget stack
      else walk files fuel budget (directories.reverse ++ stack)

/-- `_holds_a_nonempty_file`. -/
def holdsANonemptyFile (files : FileSystem) (fuel : Nat) : Option Bool :=
  walk files fuel contentProbeEntries [[]]

/-! ## The content of a tree -/

/-- A path is reached from another through real directories. -/
inductive Reached (files : FileSystem) : Path → Path → Prop where
  | here (path : Path) : Reached files path path
  | down {path target : Path} {e : DirEntry} (hentry : e ∈ (files path).entries)
      (hkind : e.kind = .directory) (h : Reached files (path ++ [e.name]) target) :
      Reached files path target

/-- Content lies below a directory, reached through real directories. -/
def Holds (files : FileSystem) (path : Path) : Prop :=
  ∃ target, Reached files path target ∧ ∃ e ∈ (files target).entries, e.IsContent

/-- No directory below a directory fails to be read, and no entry. -/
def Readable (files : FileSystem) (path : Path) : Prop :=
  ∀ target, Reached files path target →
    (files target).failure = none ∧ ∀ e ∈ (files target).entries, e.fails = []

/-- The directories of a directory, as their paths. -/
def Directory.children (d : Directory) (path : Path) : List Path :=
  (d.entries.filter fun e => e.kind = .directory).map fun e => path ++ [e.name]

/-- The number of entries below a directory, down to a depth. -/
def entriesTo (files : FileSystem) : Nat → Path → Nat
  | 0, _ => 0
  | depth + 1, path =>
    (files path).entries.length +
      (((files path).children path).map (entriesTo files depth)).sum

/-- There are at most so many entries below the directories, at any depth. -/
def Fits (files : FileSystem) (budget : Nat) (stack : List Path) : Prop :=
  ∀ depth, (stack.map (entriesTo files depth)).sum ≤ budget

theorem entriesTo_succ_le (files : FileSystem) (depth : Nat) (path : Path) :
    entriesTo files depth path ≤ entriesTo files (depth + 1) path := by
  induction depth generalizing path with
  | zero => exact Nat.zero_le _
  | succ depth ih =>
    rw [entriesTo, entriesTo]
    apply Nat.add_le_add_left
    exact List.sum_le_sum fun child _ => ih child

theorem Fits.children {files : FileSystem} {budget : Nat} {path : Path} {stack : List Path}
    (h : Fits files budget (path :: stack)) :
    (files path).entries.length ≤ budget ∧
      Fits files (budget - (files path).entries.length)
        ((files path).children path ++ stack) := by
  have hstep : ∀ depth, (files path).entries.length +
      (((files path).children path ++ stack).map (entriesTo files depth)).sum ≤ budget := by
    intro depth
    have hnext := h (depth + 1)
    rw [List.map_cons, List.sum_cons, entriesTo] at hnext
    have hstack : (stack.map (entriesTo files depth)).sum ≤
        (stack.map (entriesTo files (depth + 1))).sum :=
      List.sum_le_sum fun p _ => entriesTo_succ_le files depth p
    rw [List.map_append, List.sum_append]
    omega
  constructor
  · exact Nat.le_of_add_right_le (hstep 0)
  · intro depth
    have hdepth := hstep depth
    omega

theorem Fits.perm {files : FileSystem} {budget : Nat} {stack stack' : List Path}
    (h : Fits files budget stack) (hperm : stack.Perm stack') : Fits files budget stack' := by
  intro depth
  rw [← (hperm.map _).sum_eq]
  exact h depth

theorem Holds.child {files : FileSystem} {path : Path} {e : DirEntry}
    (hentry : e ∈ (files path).entries) (hkind : e.kind = .directory)
    (h : Holds files (path ++ [e.name])) : Holds files path := by
  obtain ⟨target, hreached, hcontent⟩ := h
  exact ⟨target, .down hentry hkind hreached, hcontent⟩

theorem Readable.child {files : FileSystem} {path : Path} {e : DirEntry}
    (h : Readable files path) (hentry : e ∈ (files path).entries)
    (hkind : e.kind = .directory) : Readable files (path ++ [e.name]) :=
  fun target hreached => h target (.down hentry hkind hreached)

theorem mem_children {d : Directory} {path child : Path} :
    child ∈ d.children path ↔
      ∃ e ∈ d.entries, e.kind = .directory ∧ path ++ [e.name] = child := by
  unfold Directory.children
  simp [and_assoc]

/-- Content below a directory lies in it or below one of its directories. -/
theorem Holds.cases {files : FileSystem} {path : Path} (h : Holds files path) :
    (∃ e ∈ (files path).entries, e.IsContent) ∨
      ∃ child ∈ (files path).children path, Holds files child := by
  obtain ⟨target, hreached, hcontent⟩ := h
  cases hreached with
  | here => exact .inl hcontent
  | down hentry hkind hreached =>
    exact .inr ⟨_, mem_children.mpr ⟨_, hentry, hkind, rfl⟩, target, hreached, hcontent⟩

/-! ## One directory -/

theorem ask_eq_some {α : Type} {e : DirEntry} {call : Call} {answer a : α}
    (h : e.ask call answer = some a) : answer = a := by
  unfold DirEntry.ask at h
  split at h
  · cases h
  · exact Option.some.inj h

theorem ask_of_readable {α : Type} {e : DirEntry} (h : e.fails = []) (call : Call) (answer : α) :
    e.ask call answer = some answer := by
  simp [DirEntry.ask, h]

/-- The loop finds content, or directories, only in the entries it is given. -/
theorem scan_sound {path : Path} {budget : Nat} {directories : List Path}
    {entries : List DirEntry} :
    (scan path budget directories entries = .answered true →
      ∃ e ∈ entries, e.IsContent) ∧
    ∀ left found, scan path budget directories entries = .listed left found →
      ∀ child ∈ found, child ∈ directories ∨
        ∃ e ∈ entries, e.kind = .directory ∧ path ++ [e.name] = child := by
  induction entries generalizing budget directories with
  | nil =>
    constructor
    · intro h
      cases h
    · intro left found h child hchild
      cases h
      exact .inl hchild
  | cons e rest ih =>
    -- What a loop over the rest finds, the whole loop finds.
    have hrest : ∀ budget, (scan path budget directories rest = .answered true →
          ∃ e' ∈ e :: rest, e'.IsContent) ∧
        ∀ left found, scan path budget directories rest = .listed left found →
          ∀ child ∈ found, child ∈ directories ∨
            ∃ e' ∈ e :: rest, e'.kind = .directory ∧ path ++ [e'.name] = child := by
      intro budget
      constructor
      · intro h
        obtain ⟨e', he', hcontent⟩ := ih.1 h
        exact ⟨e', List.mem_cons_of_mem _ he', hcontent⟩
      · intro left found h child hchild
        rcases ih.2 left found h child hchild with hold | ⟨e', he', hdirectory⟩
        · exact .inl hold
        · exact .inr ⟨e', List.mem_cons_of_mem _ he', hdirectory⟩
    rw [scan]
    split
    · constructor
      · intro h
        cases h
      · intro left found h
        cases h
    · split
      · exact hrest _
      · exact hrest _
      · split
        · exact hrest _
        · next hdirectory =>
          have hkind : e.kind = .directory := of_decide_eq_true (ask_eq_some hdirectory)
          constructor
          · intro h
            obtain ⟨e', he', hcontent⟩ := ih.1 h
            exact ⟨e', List.mem_cons_of_mem _ he', hcontent⟩
          · intro left found h child hchild
            rcases ih.2 left found h child hchild with hold | ⟨e', he', hdirectory'⟩
            · rcases List.mem_append.mp hold with hold | hnew
              · exact .inl hold
              · rw [List.mem_singleton] at hnew
                exact .inr ⟨e, List.mem_cons_self, hkind, hnew.symm⟩
            · exact .inr ⟨e', List.mem_cons_of_mem _ he', hdirectory'⟩
        · next hlink _ hdirectory =>
          have hnotLink : e.kind ≠ .link := of_decide_eq_false (ask_eq_some hlink)
          have hnotDirectory : e.kind ≠ .directory :=
            of_decide_eq_false (ask_eq_some hdirectory)
          split
          · exact hrest _
          · next size hsize =>
            split
            · next hpositive =>
              constructor
              · intro _
                refine ⟨e, List.mem_cons_self, ?_, ?_⟩
                · cases hkind : e.kind with
                  | link => exact absurd hkind hnotLink
                  | directory => exact absurd hkind hnotDirectory
                  | other => rfl
                · rw [ask_eq_some hsize]
                  exact hpositive
              · intro left found h
                cases h
            · exact hrest _

/-- Where all entries are read, the loop finds the content, or every directory. -/
theorem scan_readable {path : Path} {budget : Nat} {directories : List Path}
    {entries : List DirEntry} (hread : ∀ e ∈ entries, e.fails = [])
    (hbudget : entries.length ≤ budget) :
    scan path budget directories entries =
      if ∃ e ∈ entries, e.IsContent then .answered true
      else .listed (budget - entries.length)
        (directories ++ (Directory.mk entries none).children path) := by
  induction entries generalizing budget directories with
  | nil => simp [scan, Directory.children]
  | cons e rest ih =>
    have he := hread e List.mem_cons_self
    have hrest := fun e' he' => hread e' (List.mem_cons_of_mem e he')
    rw [List.length_cons] at hbudget
    have hlength : rest.length ≤ budget - 1 := by omega
    have hleft : budget - 1 - rest.length = budget - (rest.length + 1) := by omega
    have hnonzero : budget ≠ 0 := by omega
    rw [scan, if_neg hnonzero, DirEntry.isSymlink, ask_of_readable he]
    cases hkind : e.kind with
    | link => simp [ih hrest hlength, hkind, DirEntry.IsContent, Directory.children, hleft]
    | directory =>
      simp [DirEntry.isDir, ask_of_readable he, ih hrest hlength, hkind, DirEntry.IsContent,
        Directory.children, hleft]
    | other =>
      by_cases hsize : 0 < e.size
      · simp [DirEntry.isDir, DirEntry.statSize, ask_of_readable he, hkind,
          DirEntry.IsContent, hsize]
      · simp [DirEntry.isDir, DirEntry.statSize, ask_of_readable he, ih hrest hlength, hkind,
          DirEntry.IsContent, hsize, Directory.children, hleft]

/-- The loop takes from the budget what it adds to the directories. -/
theorem scan_listed {path : Path} {budget left : Nat} {directories found : List Path}
    {entries : List DirEntry} (h : scan path budget directories entries = .listed left found) :
    found.length + left ≤ directories.length + budget := by
  induction entries generalizing budget directories with
  | nil =>
    cases h
    exact Nat.le_refl _
  | cons e rest ih =>
    rw [scan] at h
    split at h
    · cases h
    · have hskip : ∀ h : scan path (budget - 1) directories rest = .listed left found,
          found.length + left ≤ directories.length + budget := by
        intro h
        have hrest := ih h
        omega
      split at h
      · exact hskip h
      · exact hskip h
      · split at h
        · exact hskip h
        · have hrest := ih h
          rw [List.length_append, List.length_singleton] at hrest
          omega
        · split at h
          · exact hskip h
          · split at h
            · cases h
            · exact hskip h

/-! ## The walk -/

/-- Each directory that is taken from the stack was paid for by the budget. -/
theorem walk_total {files : FileSystem} {fuel budget : Nat} {stack : List Path}
    (hfuel : stack.length + budget < fuel) : ∃ found, walk files fuel budget stack = some found := by
  induction fuel generalizing budget stack with
  | zero => omega
  | succ fuel ih =>
    cases stack with
    | nil => exact ⟨false, rfl⟩
    | cons path stack =>
      rw [List.length_cons] at hfuel
      rw [walk]
      cases hscan : scan path budget [] (files path).yielded with
      | answered found => exact ⟨found, rfl⟩
      | listed left directories =>
        have hlisted := scan_listed hscan
        rw [List.length_nil] at hlisted
        dsimp only
        split
        · apply ih
          omega
        · apply ih
          rw [List.length_append, List.length_reverse]
          omega

theorem walk_mono {files : FileSystem} {fuel fuel' budget : Nat} {stack : List Path}
    {found : Bool} (h : walk files fuel budget stack = some found) (hle : fuel ≤ fuel') :
    walk files fuel' budget stack = some found := by
  induction fuel generalizing fuel' budget stack with
  | zero => cases h
  | succ fuel ih =>
    obtain ⟨fuel', rfl⟩ : ∃ n, fuel' = n + 1 := ⟨fuel' - 1, by omega⟩
    cases stack with
    | nil => exact h
    | cons path stack =>
      rw [walk] at h ⊢
      cases hscan : scan path budget [] (files path).yielded with
      | answered answer =>
        rw [hscan] at h
        exact h
      | listed left directories =>
        rw [hscan] at h
        dsimp only at h ⊢
        split
        · next hfailure =>
          rw [if_pos hfailure] at h
          exact ih h (by omega)
        · next hfailure =>
          rw [if_neg hfailure] at h
          exact ih h (by omega)

theorem mem_of_yielded {d : Directory} {e : DirEntry} (h : e ∈ d.yielded) : e ∈ d.entries := by
  unfold Directory.yielded at h
  split at h
  · exact h
  · exact List.mem_of_mem_take h

/-- The walk finds what lies below a directory of the stack. -/
theorem walk_sound {files : FileSystem} {fuel budget : Nat} {stack : List Path}
    (h : walk files fuel budget stack = some true) : ∃ path ∈ stack, Holds files path := by
  induction fuel generalizing budget stack with
  | zero => cases h
  | succ fuel ih =>
    cases stack with
    | nil => cases h
    | cons path stack =>
      rw [walk] at h
      cases hscan : scan path budget [] (files path).yielded with
      | answered found =>
        rw [hscan] at h
        cases h
        obtain ⟨e, he, hcontent⟩ := scan_sound.1 hscan
        exact ⟨path, List.mem_cons_self, path, .here path, e, mem_of_yielded he, hcontent⟩
      | listed left directories =>
        rw [hscan] at h
        dsimp only at h
        split at h
        · obtain ⟨path', hpath', hholds⟩ := ih h
          exact ⟨path', List.mem_cons_of_mem _ hpath', hholds⟩
        · obtain ⟨path', hpath', hholds⟩ := ih h
          rcases List.mem_append.mp hpath' with hchild | hold
          · rcases scan_sound.2 left directories hscan path' (List.mem_reverse.mp hchild)
              with hnone | ⟨e, he, hkind, heq⟩
            · exact absurd hnone List.not_mem_nil
            · rw [← heq] at hholds
              exact ⟨path, List.mem_cons_self, hholds.child (mem_of_yielded he) hkind⟩
          · exact ⟨path', List.mem_cons_of_mem _ hold, hholds⟩

/-- The walk misses nothing below readable directories that the budget covers. -/
theorem walk_complete {files : FileSystem} {fuel budget : Nat} {stack : List Path} {found : Bool}
    (h : walk files fuel budget stack = some found) (hfits : Fits files budget stack)
    (hread : ∀ path ∈ stack, Readable files path) (hholds : ∃ path ∈ stack, Holds files path) :
    found = true := by
  induction fuel generalizing budget stack with
  | zero => cases h
  | succ fuel ih =>
    cases stack with
    | nil =>
      obtain ⟨path, hpath, -⟩ := hholds
      exact absurd hpath List.not_mem_nil
    | cons path stack =>
      obtain ⟨hfailure, hentries⟩ := hread path List.mem_cons_self path (.here path)
      have hyielded : (files path).yielded = (files path).entries := by
        unfold Directory.yielded
        rw [hfailure]
      obtain ⟨hbudget, hchildren⟩ := hfits.children
      rw [walk, hyielded, scan_readable hentries hbudget] at h
      by_cases hcontent : ∃ e ∈ (files path).entries, e.IsContent
      · rw [if_pos hcontent] at h
        exact (Option.some.inj h).symm
      · rw [if_neg hcontent, List.nil_append] at h
        dsimp only at h
        rw [hfailure, Option.isSome_none, if_neg Bool.false_ne_true] at h
        have hperm : ((files path).children path ++ stack).Perm
            (((files path).children path).reverse ++ stack) :=
          (List.reverse_perm _).symm.append_right stack
        refine ih h (hchildren.perm hperm) ?_ ?_
        · intro path' hpath'
          rcases List.mem_append.mp (hperm.mem_iff.mpr hpath') with hchild | hold
          · obtain ⟨e, he, hkind, heq⟩ := mem_children.mp hchild
            rw [← heq]
            exact (hread path List.mem_cons_self).child he hkind
          · exact hread path' (List.mem_cons_of_mem _ hold)
        · obtain ⟨path', hpath', hholds⟩ := hholds
          rcases List.mem_cons.mp hpath' with heq | hold
          · rw [heq] at hholds
            rcases hholds.cases with hhere | ⟨child, hchild, hbelow⟩
            · exact absurd hhere hcontent
            · exact ⟨child, hperm.mem_iff.mp (List.mem_append_left _ hchild), hbelow⟩
          · exact ⟨path', List.mem_append_right _ hold, hholds⟩

/-- The probe answers on every file system.  It finds only content of the tree, and it
finds it where the tree is readable and has no more entries than the budget. -/
theorem holdsANonemptyFile_spec (files : FileSystem) :
    ∃ found, (∀ fuel, contentProbeEntries + 1 < fuel →
        holdsANonemptyFile files fuel = some found) ∧
      (found = true → Holds files []) ∧
      (Holds files [] → Readable files [] → Fits files contentProbeEntries [[]] →
        found = true) := by
  have hfuel : [([] : Path)].length + contentProbeEntries < contentProbeEntries + 2 := by
    rw [List.length_singleton]
    omega
  have htotal : ∃ found, walk files (contentProbeEntries + 2) contentProbeEntries [[]] =
      some found := walk_total hfuel
  obtain ⟨found, hfound⟩ := htotal
  refine ⟨found, fun fuel hlarge => walk_mono hfound hlarge, ?_, ?_⟩
  · intro htrue
    rw [htrue] at hfound
    obtain ⟨path, hpath, hholds⟩ := walk_sound hfound
    rw [List.mem_singleton.mp hpath] at hholds
    exact hholds
  · intro hholds hread hfits
    refine walk_complete hfound hfits ?_ ⟨[], List.mem_cons_self, hholds⟩
    intro path hpath
    rw [List.mem_singleton.mp hpath]
    exact hread

/-- A link to its own directory beside an empty directory, which holds a file. -/
example : walk (fun
    | [] => ⟨[⟨"self", .link, 9, []⟩, ⟨"game", .directory, 0, []⟩], none⟩
    | ["game"] => ⟨[⟨"empty", .other, 0, []⟩, ⟨"data", .other, 5, []⟩], none⟩
    | _ => ⟨[⟨"self", .link, 9, []⟩], none⟩) 10 10 [[]] = some true := by
  decide

end SteamAgent.Execution.ContentProbe
