import Mathlib

/-!
# The size of what an uninstall leaves

`_measure_tree`, with the entries that it takes from `os.scandir`, and the three trees of
an app.

There are five groups.

* Trees.  An entry keeps what it is and its size apart from the calls that fail on it.
* The walk.
* The entries of a tree.
* One entry, one directory, the walk.
* The three trees.
-/

namespace SteamAgent.LocalSteam

/-! ## Trees -/

/-- What an entry is that is not a directory.  A junction is a link with directory mode. -/
inductive Leaf where
  | link
  | junction
  | regular
  | special
deriving DecidableEq, Repr

/-- The methods of `os.DirEntry` that may raise an `OSError`. -/
inductive EntryCall where
  | isSymlink
  | isJunction
  | isDir
  | isFile
  | stat
deriving DecidableEq, Repr

/-- An entry of a tree.  `failure` is the number of entries of a directory after which
`os.scandir` raises an `OSError`. -/
inductive SizedEntry where
  | leaf (kind : Leaf) (bytes : Nat) (fails : List EntryCall)
  | directory (fails : List EntryCall) (entries : List SizedEntry) (failure : Option Nat)

/-- A directory as `os.scandir` lists it. -/
structure SizedDirectory where
  entries : List SizedEntry
  failure : Option Nat

/-- The entries before the failure. -/
def SizedDirectory.yielded (d : SizedDirectory) : List SizedEntry :=
  match d.failure with
  | none => d.entries
  | some n => d.entries.take n

/-- The root of a tree. -/
inductive SizedTree where
  | absent
  | unreadable
  | link
  | junction
  | file
  | directory (content : SizedDirectory)

namespace SizedEntry

def fails : SizedEntry → List EntryCall
  | .leaf _ _ fails | .directory fails _ _ => fails

/-- What a method answers, or an `OSError`. -/
def ask {α : Type} (e : SizedEntry) (call : EntryCall) (answer : α) : Option α :=
  if call ∈ e.fails then none else some answer

/-- What an entry is, unless it is a directory. -/
def leaf? : SizedEntry → Option Leaf
  | .leaf kind _ _ => some kind
  | .directory .. => none

/-- The size of an entry.  Nothing asks for that of a directory. -/
def size : SizedEntry → Nat
  | .leaf _ bytes _ => bytes
  | .directory .. => 0

def isSymlink (e : SizedEntry) : Option Bool :=
  e.ask .isSymlink (e.leaf? = some .link)

def isJunction (e : SizedEntry) : Option Bool :=
  e.ask .isJunction (e.leaf? = some .junction)

/-- `is_dir(follow_symlinks=False)`. -/
def isDir (e : SizedEntry) : Option Bool :=
  e.ask .isDir (e.leaf? = none ∨ e.leaf? = some .junction)

/-- `is_file(follow_symlinks=False)`. -/
def isFile (e : SizedEntry) : Option Bool :=
  e.ask .isFile (e.leaf? = some .regular)

/-- `stat(follow_symlinks=False).st_size`. -/
def statSize (e : SizedEntry) : Option Nat :=
  e.ask .stat e.size

/-- `os.scandir(entry.path)`.  What is not a directory does not open. -/
def scandir : SizedEntry → SizedDirectory
  | .leaf .. => ⟨[], some 0⟩
  | .directory _ entries failure => ⟨entries, failure⟩

end SizedEntry

/-! ## The walk -/

/-- `MAX_RESIDUAL_ENTRIES`. -/
def maxResidualEntries : Int :=
  60000

/-- The variables of `_measure_tree`, with the top of the stack at its head, and the
entries that were taken so far. -/
structure Measuring where
  budget : Int
  total : Nat
  complete : Bool
  stack : List SizedDirectory
  visited : List SizedEntry

/-- What `_measure_tree` returns, the budget that it leaves, and the entries it took. -/
structure Measured where
  total : Nat
  complete : Bool
  budget : Int
  visited : List SizedEntry

/-- What the body of the loop over a directory does with an entry. -/
inductive Visit where
  | counted (bytes : Nat)
  | pushed (content : SizedDirectory)
  | skipped
  | failed

/-- `total += entry.stat(follow_symlinks=False).st_size`. -/
def SizedEntry.count (e : SizedEntry) : Visit :=
  match e.statSize with
  | none => .failed
  | some bytes => .counted bytes

/-- The `try` block around an entry. -/
def SizedEntry.visit (e : SizedEntry) : Visit :=
  match e.isSymlink with
  | none => .failed
  | some true => e.count
  | some false =>
    match e.isJunction with
    | none => .failed
    | some true => e.count
    | some false =>
      match e.isDir with
      | none => .failed
      | some true => .pushed e.scandir
      | some false =>
        match e.isFile with
        | none => .failed
        | some true => e.count
        | some false => .skipped

/-- One turn of the loop over a directory, with a budget. -/
def Measuring.take (s : Measuring) (e : SizedEntry) : Measuring :=
  let s := { s with budget := s.budget - 1, visited := e :: s.visited }
  match e.visit with
  | .counted bytes => { s with total := s.total + bytes }
  | .pushed content => { s with stack := content :: s.stack }
  | .skipped => s
  | .failed => { s with complete := false }

/-- `return total, False`. -/
def Measuring.exhausted (s : Measuring) : Measured :=
  ⟨s.total, false, s.budget, s.visited⟩

/-- The loop over a directory, which may return from the function. -/
def measureEntries (s : Measuring) : List SizedEntry → Except Measured Measuring
  | [] => .ok s
  | e :: rest => if s.budget ≤ 0 then .error s.exhausted else measureEntries (s.take e) rest

theorem take_credit (s : Measuring) (e : SizedEntry) (h : 0 < s.budget) :
    (s.take e).budget.toNat + (s.take e).stack.length ≤ s.budget.toNat + s.stack.length := by
  unfold Measuring.take
  cases e.visit with
  | pushed content =>
    simp only [List.length_cons]
    omega
  | counted bytes =>
    simp only
    omega
  | skipped =>
    simp only
    omega
  | failed =>
    simp only
    omega

/-- Each directory on the stack was paid for by the budget. -/
theorem measureEntries_credit {s s' : Measuring} {entries : List SizedEntry}
    (h : measureEntries s entries = .ok s') :
    s'.budget.toNat + s'.stack.length ≤ s.budget.toNat + s.stack.length := by
  induction entries generalizing s with
  | nil =>
    cases h
    exact Nat.le_refl _
  | cons e rest ih =>
    rw [measureEntries] at h
    split at h
    · cases h
    · next hbudget =>
      exact (ih h).trans (take_credit s e (by omega))

/-- The loop over the stack. -/
def measureWalk (s : Measuring) : Measured :=
  match _hstack : s.stack with
  | [] => ⟨s.total, s.complete, s.budget, s.visited⟩
  | content :: stack =>
    if s.budget ≤ 0 then s.exhausted
    else
      match _hentries : measureEntries { s with stack } content.yielded with
      | .error returned => returned
      | .ok s' => measureWalk { s' with complete := s'.complete && content.failure.isNone }
termination_by s.budget.toNat + s.stack.length
decreasing_by
  have hcredit := measureEntries_credit _hentries
  simp only [_hstack, List.length_cons] at hcredit ⊢
  omega

/-- `_measure_tree`. -/
def measureTree (budget : Int) : SizedTree → Measured
  | .absent => ⟨0, true, budget, []⟩
  | .unreadable | .link | .junction => ⟨0, false, budget, []⟩
  | .file => measureWalk ⟨budget, 0, true, [⟨[], some 0⟩], []⟩
  | .directory content => measureWalk ⟨budget, 0, true, [content], []⟩

/-- `ResidualContent`. -/
structure ResidualContent where
  compatdataBytes : Option Nat
  shadercacheBytes : Option Nat
  workshopBytes : Option Nat
  state : String
deriving DecidableEq, Repr

/-- The calls of `_measure_residual_content`, which share a budget. -/
def measureTrees (compatdata shadercache workshop : SizedTree) : List Measured :=
  let compatdata := measureTree maxResidualEntries compatdata
  let shadercache := measureTree compatdata.budget shadercache
  let workshop := measureTree shadercache.budget workshop
  [compatdata, shadercache, workshop]

/-- `_measure_residual_content` on the trees of the three directories. -/
def residualContent (compatdata shadercache workshop : SizedTree) : ResidualContent :=
  let counts := measureTrees compatdata shadercache workshop
  let truncated := counts.any fun m => !m.complete
  ⟨counts[0]?.map Measured.total, counts[1]?.map Measured.total, counts[2]?.map Measured.total,
    if truncated then "partial" else "measured"⟩

/-! ## The entries of a tree -/

mutual

/-- An entry and the entries below it. -/
def SizedEntry.all : SizedEntry → List SizedEntry
  | .leaf kind bytes fails => [.leaf kind bytes fails]
  | .directory fails entries failure => .directory fails entries failure :: allOf entries

/-- Entries and the entries below them. -/
def allOf : List SizedEntry → List SizedEntry
  | [] => []
  | e :: rest => e.all ++ allOf rest

end

/-- The entries below the root. -/
def SizedTree.entries : SizedTree → List SizedEntry
  | .directory content => allOf content.entries
  | _ => []

/-- The bytes of a regular file or of a link itself. -/
def SizedEntry.bytes : SizedEntry → Nat
  | .leaf .special _ _ => 0
  | .leaf _ bytes _ => bytes
  | .directory .. => 0

/-- The sum of the sizes of the regular files and links. -/
def bytesOf (entries : List SizedEntry) : Nat :=
  (entries.map SizedEntry.bytes).sum

/-- A call that the walk makes on an entry raises an `OSError`. -/
def SizedEntry.Fails (e : SizedEntry) : Prop :=
  e.visit = .failed ∨ ∃ content, e.visit = .pushed content ∧ content.failure ≠ none

/-- Nothing fails, at the root and below it. -/
def SizedTree.Faultless (t : SizedTree) : Prop :=
  (t = .absent ∨ ∃ content, t = .directory content ∧ content.failure = none) ∧
    ∀ e ∈ t.entries, ¬ e.Fails

/-- The entries below the directories of the stack. -/
def pending (stack : List SizedDirectory) : List SizedEntry :=
  stack.flatMap fun content => allOf content.entries

theorem pending_cons (content : SizedDirectory) (stack : List SizedDirectory) :
    pending (content :: stack) = allOf content.entries ++ pending stack :=
  List.flatMap_cons

theorem bytesOf_cons (e : SizedEntry) (entries : List SizedEntry) :
    bytesOf (e :: entries) = e.bytes + bytesOf entries :=
  rfl

theorem bytesOf_perm {entries entries' : List SizedEntry} (h : entries.Perm entries') :
    bytesOf entries = bytesOf entries' :=
  (h.map _).sum_nat

theorem bytesOf_subperm {entries entries' : List SizedEntry} (h : entries.Subperm entries') :
    bytesOf entries ≤ bytesOf entries' := by
  obtain ⟨front, hperm, hsublist⟩ := h
  rw [← bytesOf_perm hperm]
  exact (hsublist.map _).sum_le_sum fun _ _ => Nat.zero_le _

/-! ## One entry -/

theorem ask_cases {α : Type} (e : SizedEntry) (call : EntryCall) (answer : α) :
    e.ask call answer = none ∨ e.ask call answer = some answer := by
  unfold SizedEntry.ask
  split
  · exact .inl rfl
  · exact .inr rfl

theorem count_cases (e : SizedEntry) : e.count = .failed ∨ e.count = .counted e.size := by
  unfold SizedEntry.count SizedEntry.statSize
  rcases ask_cases e .stat e.size with h | h
  · rw [h]
    exact .inl rfl
  · rw [h]
    exact .inr rfl

/-- The bytes of an entry are its size, unless it is special or a directory. -/
theorem bytes_eq (e : SizedEntry) :
    e.bytes = if e.leaf? = some .special then 0 else e.size := by
  cases e with
  | leaf kind bytes fails => cases kind <;> rfl
  | directory => rfl

/-- What the walk counts are the bytes of the entry, and what it pushes the directory. -/
theorem visit_cases (e : SizedEntry) :
    e.visit = .failed ∨ e.leaf?.isSome ∧ e.visit = .counted e.bytes ∨
    e.leaf?.isSome ∧ e.visit = .skipped ∧ e.bytes = 0 ∨
    e.leaf? = none ∧ e.visit = .pushed e.scandir := by
  unfold SizedEntry.visit SizedEntry.isSymlink SizedEntry.isJunction SizedEntry.isDir
    SizedEntry.isFile
  rw [bytes_eq]
  have hcount : e.count = .failed ∨ e.count = .counted e.size ∨ e.count = .skipped ∧ e.size = 0 :=
    (count_cases e).imp_right .inl
  cases hleaf : e.leaf? with
  | none =>
    rcases ask_cases e .isSymlink false with h | h <;>
    rcases ask_cases e .isJunction false with hjunction | hjunction <;>
    rcases ask_cases e .isDir true with hdir | hdir <;>
    simp [h, hjunction, hdir]
  | some kind =>
    cases kind with
    | link =>
      rcases ask_cases e .isSymlink true with h | h <;> simp [h, hcount]
    | junction =>
      rcases ask_cases e .isSymlink false with h | h <;>
      rcases ask_cases e .isJunction true with hjunction | hjunction <;>
      simp [h, hjunction, hcount]
    | regular =>
      rcases ask_cases e .isSymlink false with h | h <;>
      rcases ask_cases e .isJunction false with hjunction | hjunction <;>
      rcases ask_cases e .isDir false with hdir | hdir <;>
      rcases ask_cases e .isFile true with hfile | hfile <;>
      simp [h, hjunction, hdir, hfile, hcount]
    | special =>
      rcases ask_cases e .isSymlink false with h | h <;>
      rcases ask_cases e .isJunction false with hjunction | hjunction <;>
      rcases ask_cases e .isDir false with hdir | hdir <;>
      rcases ask_cases e .isFile false with hfile | hfile <;>
      simp [h, hjunction, hdir, hfile]

/-! ## One turn -/

/-- The entries below an entry. -/
def SizedEntry.inside (e : SizedEntry) : List SizedEntry :=
  if e.leaf? = none then allOf e.scandir.entries else []

theorem all_eq (e : SizedEntry) : e.all = e :: e.inside := by
  cases e with
  | leaf => rfl
  | directory => rfl

/-- A directory of the tree whose entry, if it has one, was taken. -/
def Opened (root : SizedDirectory) (visited : List SizedEntry) (content : SizedDirectory) :
    Prop :=
  content = root ∨ ∃ e ∈ visited, e.visit = .pushed content

/-- What the loops keep: `rest` is what is left of the current directory. -/
structure Measuring.Keeps (root : SizedDirectory) (current : Option SizedDirectory)
    (rest : List SizedEntry) (s : Measuring) : Prop where
  within : (s.visited ++ (allOf rest ++ pending s.stack)).Subperm (allOf root.entries)
  below : s.total ≤ bytesOf s.visited
  exact : s.complete = true →
    (s.visited ++ (allOf rest ++ pending s.stack)).Perm (allOf root.entries) ∧
      s.total = bytesOf s.visited
  faultless : s.complete = true →
    (∀ e ∈ s.visited, e.visit ≠ .failed) ∧
      ∀ content, Opened root s.visited content →
        content.failure = none ∨ content ∈ s.stack ∨ current = some content

/-- An entry moves to those that were taken, and what is below it to the stack. -/
theorem moved (e : SizedEntry) (visited rest inside stack : List SizedEntry) :
    ((e :: visited) ++ (rest ++ (inside ++ stack))).Perm
      (visited ++ ((e :: inside) ++ rest ++ stack)) := by
  have hmiddle : (visited ++ (e :: (inside ++ rest ++ stack))).Perm
      (e :: (visited ++ (inside ++ rest ++ stack))) := List.perm_middle
  refine List.Perm.trans (List.Perm.cons e ?_) hmiddle.symm
  apply List.Perm.append_left
  rw [List.append_assoc]
  exact List.perm_append_comm_assoc rest inside stack

theorem Measuring.Keeps.skip {root : SizedDirectory} {current : Option SizedDirectory}
    {rest rest' : List SizedEntry} {s s' : Measuring} (h : s.Keeps root current rest)
    (hincomplete : s'.complete = false) (htotal : s'.total ≤ bytesOf s'.visited)
    (hsub : (s'.visited ++ (allOf rest' ++ pending s'.stack)).Subperm
      (s.visited ++ (allOf rest ++ pending s.stack))) :
    s'.Keeps root current rest' := by
  refine ⟨hsub.trans h.within, htotal, ?_, ?_⟩
  · intro hcomplete
    rw [hincomplete] at hcomplete
    cases hcomplete
  · intro hcomplete
    rw [hincomplete] at hcomplete
    cases hcomplete

theorem take_keeps {root : SizedDirectory} {current : Option SizedDirectory} {e : SizedEntry}
    {rest : List SizedEntry} {s : Measuring} (h : s.Keeps root current (e :: rest)) :
    (s.take e).Keeps root current rest := by
  have hmoved := moved e s.visited (allOf rest) e.inside (pending s.stack)
  rw [← all_eq, ← allOf] at hmoved
  by_cases hfailed : e.visit = .failed
  · -- The entry fails, and what is inside it is left out.
    simp only [Measuring.take, hfailed]
    refine h.skip rfl (h.below.trans (Nat.le_add_left _ _))
      (List.Subperm.trans ?_ hmoved.subperm)
    apply List.Sublist.subperm
    apply List.Sublist.append_left
    apply List.Sublist.append_left
    exact List.sublist_append_right _ _
  -- Otherwise what is inside it is on the stack.
  have hturn : (s.take e).visited = e :: s.visited ∧ (s.take e).total = s.total + e.bytes ∧
      (s.take e).complete = s.complete ∧
      pending (s.take e).stack = e.inside ++ pending s.stack ∧ s.stack ⊆ (s.take e).stack ∧
      ∀ content, e.visit = .pushed content → content ∈ (s.take e).stack := by
    rcases visit_cases e with hvisit | ⟨hleaf, hvisit⟩ | ⟨hleaf, hvisit, hbytes⟩ | ⟨hnone, hvisit⟩
    · exact absurd hvisit hfailed
    · have hinside : e.inside = [] := if_neg (Option.isSome_iff_ne_none.mp hleaf)
      simp [Measuring.take, hvisit, hinside]
    · have hinside : e.inside = [] := if_neg (Option.isSome_iff_ne_none.mp hleaf)
      simp [Measuring.take, hvisit, hinside, hbytes]
    · have hinside : e.inside = allOf e.scandir.entries := if_pos hnone
      have hbytes : e.bytes = 0 := by
        cases e with
        | leaf => cases hnone
        | directory => rfl
      simp [Measuring.take, hvisit, hinside, hbytes, pending_cons]
  obtain ⟨hvisited, htotal, hcomplete, hpending, hstack, hpushed⟩ := hturn
  constructor
  · rw [hvisited, hpending]
    exact hmoved.subperm.trans h.within
  · rw [hvisited, htotal, bytesOf_cons, Nat.add_comm]
    exact Nat.add_le_add_left h.below _
  · intro hc
    rw [hcomplete] at hc
    obtain ⟨hperm, hsum⟩ := h.exact hc
    rw [hvisited, hpending, htotal, bytesOf_cons, hsum, Nat.add_comm]
    exact ⟨hmoved.trans hperm, rfl⟩
  · intro hc
    rw [hcomplete] at hc
    obtain ⟨hnone, hopened⟩ := h.faultless hc
    rw [hvisited]
    constructor
    · intro e' he'
      rcases List.mem_cons.mp he' with heq | hold
      · rw [heq]
        exact hfailed
      · exact hnone e' hold
    · intro content hcontent
      have hold : Opened root s.visited content →
          content.failure = none ∨ content ∈ (s.take e).stack ∨ current = some content :=
        fun hold => (hopened content hold).imp_right (Or.imp_left fun hmem => hstack hmem)
      rcases hcontent with hroot | ⟨e', he', hvisit⟩
      · exact hold (.inl hroot)
      · rcases List.mem_cons.mp he' with heq | hmem
        · rw [heq] at hvisit
          exact .inr (.inl (hpushed content hvisit))
        · exact hold (.inr ⟨e', hmem, hvisit⟩)

/-! ## The loops -/

/-- What is returned: within the tree, and exact where it says so. -/
structure Measured.Sound (root : SizedDirectory) (m : Measured) : Prop where
  partial_le : m.total ≤ bytesOf (allOf root.entries)
  exact : m.complete = true → m.visited.Perm (allOf root.entries) ∧
    m.total = bytesOf (allOf root.entries) ∧ root.failure = none ∧
    ∀ e ∈ allOf root.entries, ¬ e.Fails

theorem Measuring.Keeps.exhausted {root : SizedDirectory} {current : Option SizedDirectory}
    {rest : List SizedEntry} {s : Measuring} (h : s.Keeps root current rest) :
    s.exhausted.Sound root := by
  constructor
  · refine h.below.trans (bytesOf_subperm (List.Subperm.trans ?_ h.within))
    exact (List.sublist_append_left _ _).subperm
  · intro hcomplete
    cases hcomplete

theorem measureEntries_keeps {root : SizedDirectory} {current : Option SizedDirectory}
    {yielded dropped : List SizedEntry} {s : Measuring}
    (h : s.Keeps root current (yielded ++ dropped)) :
    match measureEntries s yielded with
    | .error m => m.Sound root
    | .ok s' => s'.Keeps root current dropped := by
  induction yielded generalizing s with
  | nil => exact h
  | cons e rest ih =>
    rw [measureEntries]
    by_cases hbudget : s.budget ≤ 0
    · rw [if_pos hbudget]
      exact h.exhausted
    · rw [if_neg hbudget]
      exact ih (take_keeps h)

theorem exists_dropped (content : SizedDirectory) :
    ∃ dropped, content.entries = content.yielded ++ dropped ∧
      (content.failure = none → dropped = []) := by
  unfold SizedDirectory.yielded
  cases content.failure with
  | none => exact ⟨[], (List.append_nil _).symm, fun _ => rfl⟩
  | some n =>
    refine ⟨content.entries.drop n, (List.take_append_drop n _).symm, ?_⟩
    intro h
    cases h

/-- The directory at the top of the stack becomes the current one. -/
theorem Measuring.Keeps.pop {root content : SizedDirectory} {stack : List SizedDirectory}
    {s : Measuring} (h : s.Keeps root none []) (hstack : s.stack = content :: stack) :
    { s with stack }.Keeps root (some content) content.entries := by
  have hpending : allOf [] ++ pending s.stack = allOf content.entries ++ pending stack := by
    rw [hstack, pending_cons, allOf, List.nil_append]
  constructor
  · rw [← hpending]
    exact h.within
  · exact h.below
  · intro hcomplete
    rw [← hpending]
    exact h.exact hcomplete
  · intro hcomplete
    refine ⟨(h.faultless hcomplete).1, fun content' hopened => ?_⟩
    rcases (h.faultless hcomplete).2 content' hopened with hnone | hmem | hcurrent
    · exact .inl hnone
    · rw [hstack] at hmem
      rcases List.mem_cons.mp hmem with heq | hold
      · rw [heq]
        exact .inr (.inr rfl)
      · exact .inr (.inl hold)
    · cases hcurrent

/-- The loop over the current directory ends, by a failure or not. -/
theorem Measuring.Keeps.close {root content : SizedDirectory} {dropped : List SizedEntry}
    {s : Measuring} (h : s.Keeps root (some content) dropped)
    (hdropped : content.failure = none → dropped = []) :
    { s with complete := s.complete && content.failure.isNone }.Keeps root none [] := by
  cases hfailure : content.failure with
  | none =>
    rw [hdropped hfailure] at h
    rw [Option.isNone_none, Bool.and_true]
    refine ⟨h.within, h.below, h.exact, fun hcomplete => ?_⟩
    refine ⟨(h.faultless hcomplete).1, fun content' hopened => ?_⟩
    rcases (h.faultless hcomplete).2 content' hopened with hnone | hmem | hcurrent
    · exact .inl hnone
    · exact .inr (.inl hmem)
    · rw [← Option.some.inj hcurrent]
      exact .inl hfailure
  | some n =>
    rw [Option.isNone_some, Bool.and_false]
    have hsub : (s.visited ++ (allOf [] ++ pending s.stack)).Subperm
        (s.visited ++ (allOf dropped ++ pending s.stack)) := by
      apply List.Sublist.subperm
      apply List.Sublist.append_left
      exact List.sublist_append_right _ _
    refine ⟨hsub.trans h.within, h.below, ?_, ?_⟩
    · intro hcomplete
      cases hcomplete
    · intro hcomplete
      cases hcomplete

theorem measureWalk_nil {s : Measuring} (hstack : s.stack = []) :
    measureWalk s = ⟨s.total, s.complete, s.budget, s.visited⟩ := by
  rw [measureWalk]
  split
  · rfl
  · next heq =>
    rw [hstack] at heq
    cases heq

theorem measureWalk_cons {s : Measuring} {content : SizedDirectory}
    {stack : List SizedDirectory} (hstack : s.stack = content :: stack) :
    measureWalk s = if s.budget ≤ 0 then s.exhausted
      else match measureEntries { s with stack } content.yielded with
      | .error returned => returned
      | .ok s' => measureWalk { s' with complete := s'.complete && content.failure.isNone } := by
  rw [measureWalk]
  split
  · next heq =>
    rw [hstack] at heq
    cases heq
  · next heq =>
    rw [hstack] at heq
    cases heq
    split
    · rfl
    · split
      · next hentries => rw [hentries]
      · next hentries => rw [hentries]

/-- What is returned where the stack is empty. -/
theorem Measuring.Keeps.finish {root : SizedDirectory} {s : Measuring} (h : s.Keeps root none [])
    (hstack : s.stack = []) :
    Measured.Sound root ⟨s.total, s.complete, s.budget, s.visited⟩ := by
  have hpending : allOf [] ++ pending s.stack = [] := by
    rw [hstack]
    rfl
  have hexact := h.exact
  have hwithin := h.within
  rw [hpending, List.append_nil] at hexact hwithin
  refine ⟨h.below.trans (bytesOf_subperm hwithin), fun hcomplete => ?_⟩
  obtain ⟨hperm, htotal⟩ := hexact hcomplete
  obtain ⟨hfailed, hopened⟩ := h.faultless hcomplete
  have hnone : ∀ content, Opened root s.visited content → content.failure = none := by
    intro content hcontent
    rcases hopened content hcontent with hnone | hmem | hcurrent
    · exact hnone
    · rw [hstack] at hmem
      exact absurd hmem List.not_mem_nil
    · cases hcurrent
  refine ⟨hperm, htotal.trans (bytesOf_perm hperm), hnone root (.inl rfl), ?_⟩
  intro e he hfails
  have hvisited : e ∈ s.visited := hperm.mem_iff.mpr he
  rcases hfails with hfails | ⟨content, hpushed, hfailure⟩
  · exact hfailed e hvisited hfails
  · exact hfailure (hnone content (.inr ⟨e, hvisited, hpushed⟩))

theorem measureWalk_sound {root : SizedDirectory} {s : Measuring} (h : s.Keeps root none []) :
    (measureWalk s).Sound root := by
  induction s using measureWalk.induct with
  | case1 s hstack =>
    rw [measureWalk_nil hstack]
    exact h.finish hstack
  | case2 s content stack hstack hbudget =>
    rw [measureWalk_cons hstack, if_pos hbudget]
    exact h.exhausted
  | case3 s content stack hstack hbudget returned hentries =>
    obtain ⟨dropped, heq, -⟩ := exists_dropped content
    have hpop := h.pop hstack
    rw [heq] at hpop
    have hkeeps := measureEntries_keeps hpop
    rw [measureWalk_cons hstack, if_neg hbudget]
    rw [hentries] at hkeeps ⊢
    exact hkeeps
  | case4 s content stack hstack hbudget s' hentries ih =>
    obtain ⟨dropped, heq, hdropped⟩ := exists_dropped content
    have hpop := h.pop hstack
    rw [heq] at hpop
    have hkeeps := measureEntries_keeps hpop
    rw [measureWalk_cons hstack, if_neg hbudget]
    rw [hentries] at hkeeps ⊢
    exact ih (hkeeps.close hdropped)

/-! ## The budget -/

theorem take_spent (s : Measuring) (e : SizedEntry) :
    (s.take e).budget + (s.take e).visited.length = s.budget + s.visited.length := by
  unfold Measuring.take
  cases e.visit <;> simp only [List.length_cons] <;> omega

/-- The budget that is spent is the number of entries, which takes no more than it. -/
def Spends (budget left : Int) (before visited : List SizedEntry) : Prop :=
  left + visited.length = budget + before.length ∧ (0 ≤ budget → 0 ≤ left)

theorem measureEntries_spends (s : Measuring) (entries : List SizedEntry) :
    match measureEntries s entries with
    | .error m => Spends s.budget m.budget s.visited m.visited
    | .ok s' => Spends s.budget s'.budget s.visited s'.visited := by
  induction entries generalizing s with
  | nil => exact ⟨rfl, id⟩
  | cons e rest ih =>
    rw [measureEntries]
    by_cases hbudget : s.budget ≤ 0
    · rw [if_pos hbudget]
      exact ⟨rfl, id⟩
    · rw [if_neg hbudget]
      have hspent := take_spent s e
      have hleft : (s.take e).budget = s.budget - 1 := by
        unfold Measuring.take
        cases e.visit <;> rfl
      have hrest := ih (s.take e)
      split at hrest
      · exact ⟨hrest.1.trans hspent, fun _ => hrest.2 (by omega)⟩
      · exact ⟨hrest.1.trans hspent, fun _ => hrest.2 (by omega)⟩

theorem measureWalk_spends (s : Measuring) :
    Spends s.budget (measureWalk s).budget s.visited (measureWalk s).visited := by
  induction s using measureWalk.induct with
  | case1 s hstack =>
    rw [measureWalk_nil hstack]
    exact ⟨rfl, id⟩
  | case2 s content stack hstack hbudget =>
    rw [measureWalk_cons hstack, if_pos hbudget]
    exact ⟨rfl, id⟩
  | case3 s content stack hstack hbudget returned hentries =>
    have hspends := measureEntries_spends { s with stack } content.yielded
    rw [measureWalk_cons hstack, if_neg hbudget]
    rw [hentries] at hspends ⊢
    exact hspends
  | case4 s content stack hstack hbudget s' hentries ih =>
    have hspends := measureEntries_spends { s with stack } content.yielded
    rw [measureWalk_cons hstack, if_neg hbudget]
    rw [hentries] at hspends ⊢
    exact ⟨ih.1.trans hspends.1, fun h => ih.2 (hspends.2 h)⟩

theorem measureTree_spends (budget : Int) (tree : SizedTree) :
    Spends budget (measureTree budget tree).budget [] (measureTree budget tree).visited := by
  cases tree with
  | absent => exact ⟨rfl, id⟩
  | unreadable => exact ⟨rfl, id⟩
  | link => exact ⟨rfl, id⟩
  | junction => exact ⟨rfl, id⟩
  | file => exact measureWalk_spends _
  | directory content => exact measureWalk_spends _

/-! ## The three trees -/

theorem keeps_start (content : SizedDirectory) (budget : Int) :
    Measuring.Keeps content none [] ⟨budget, 0, true, [content], []⟩ := by
  have hpending : ([] : List SizedEntry) ++ (allOf [] ++ pending [content]) =
      allOf content.entries := by
    simp [allOf, pending]
  refine ⟨?_, Nat.le_refl _, fun _ => ⟨?_, rfl⟩, fun _ => ⟨?_, ?_⟩⟩
  · rw [hpending]
  · rw [hpending]
  · intro e he
    exact absurd he List.not_mem_nil
  · intro content' hopened
    rcases hopened with hroot | ⟨e, he, -⟩
    · rw [hroot]
      exact .inr (.inl List.mem_cons_self)
    · exact absurd he List.not_mem_nil

theorem measureTree_sound (budget : Int) (tree : SizedTree) :
    (measureTree budget tree).total ≤ bytesOf tree.entries ∧
      ((measureTree budget tree).complete = true → tree.Faultless ∧
        (measureTree budget tree).visited.Perm tree.entries ∧
        (measureTree budget tree).total = bytesOf tree.entries) := by
  cases tree with
  | absent =>
    refine ⟨Nat.zero_le _, fun _ => ⟨⟨.inl rfl, ?_⟩, List.Perm.refl _, rfl⟩⟩
    intro e he
    exact absurd he List.not_mem_nil
  | unreadable => exact ⟨Nat.zero_le _, fun h => absurd h Bool.false_ne_true⟩
  | link => exact ⟨Nat.zero_le _, fun h => absurd h Bool.false_ne_true⟩
  | junction => exact ⟨Nat.zero_le _, fun h => absurd h Bool.false_ne_true⟩
  | file =>
    have hsound := measureWalk_sound (keeps_start ⟨[], some 0⟩ budget)
    refine ⟨hsound.partial_le, fun hcomplete => ?_⟩
    cases (hsound.exact hcomplete).2.2.1
  | directory content =>
    have hsound := measureWalk_sound (keeps_start content budget)
    refine ⟨hsound.partial_le, fun hcomplete => ?_⟩
    obtain ⟨hperm, htotal, hfailure, hfaultless⟩ := hsound.exact hcomplete
    exact ⟨⟨.inr ⟨content, rfl, hfailure⟩, hfaultless⟩, hperm, htotal⟩

/-- The number of entries that the calls took. -/
def visitedCount (calls : List Measured) : Nat :=
  (calls.map fun m => m.visited.length).sum

/-- A measurement is exact, or it is marked partial and is not too large.  The trees of an
app are walked on one budget, and all three must be complete. -/
theorem residual_exact_or_partial :
    (∀ (budget : Int) (tree : SizedTree),
      ((measureTree budget tree).complete = true → tree.Faultless ∧
        (measureTree budget tree).visited.Perm tree.entries ∧
        (measureTree budget tree).total = bytesOf tree.entries) ∧
      ((measureTree budget tree).complete = false →
        (measureTree budget tree).total ≤ bytesOf tree.entries)) ∧
    ∀ compatdata shadercache workshop : SizedTree,
      (visitedCount (measureTrees compatdata shadercache workshop) : Int) ≤ maxResidualEntries ∧
      ((residualContent compatdata shadercache workshop).state = "measured" ↔
        ∀ m ∈ measureTrees compatdata shadercache workshop, m.complete = true) := by
  constructor
  · intro budget tree
    have hsound := measureTree_sound budget tree
    exact ⟨hsound.2, fun _ => hsound.1⟩
  · intro compatdata shadercache workshop
    constructor
    · have h := measureTree_spends maxResidualEntries compatdata
      have h' := measureTree_spends (measureTree maxResidualEntries compatdata).budget shadercache
      have h'' := measureTree_spends (measureTree
        (measureTree maxResidualEntries compatdata).budget shadercache).budget workshop
      have hpositive : (0 : Int) ≤ maxResidualEntries := by decide
      have hfirst := h.2 hpositive
      have hsecond := h'.2 hfirst
      have hthird := h''.2 hsecond
      have hsum := h.1
      have hsum' := h'.1
      have hsum'' := h''.1
      simp only [visitedCount, measureTrees, List.map_cons, List.map_nil, List.sum_cons,
        List.sum_nil, List.length_nil, Int.natCast_add, Int.natCast_zero] at hsum hsum' hsum'' ⊢
      omega
    · simp only [residualContent]
      split
      · next htruncated =>
        obtain ⟨m, hm, hincomplete⟩ := List.any_eq_true.mp htruncated
        refine iff_of_false (by decide) fun hall => ?_
        rw [hall m hm] at hincomplete
        cases hincomplete
      · next htruncated =>
        refine iff_of_true rfl fun m hm => ?_
        by_contra hincomplete
        apply htruncated
        apply List.any_eq_true.mpr
        exact ⟨m, hm, by simpa using hincomplete⟩

end SteamAgent.LocalSteam
