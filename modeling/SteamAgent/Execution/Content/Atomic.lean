import SteamAgent.Effects.System
import SteamAgent.Execution.Content.Logic

/-!
# Adoption is crash-atomic

`adopt_manifest` cut at any point, then `reconcile_adoption` any number of
times, each call cut at any point.

The destination moves through three phases.

* `Untouched`: it holds what it held before, and no journal of the operation
  exists.
* `Pending`: the journal and the backup are durable, and the swap has not
  landed.
* `Landed`: the swap has landed, and the journal is still there.

Adoption goes from the first to the last.  Recovery stays in `Untouched` and
in `Landed`, and goes from `Pending` back to `Untouched`.  The one assumption
is that the old and the new content do not collide under SHA-256.
-/

namespace SteamAgent.Execution.Content

open Effects
open Sha256 (Bytes sha256hex)

/-! ## Phases -/

/-- No journal of operation `n`. -/
def Foreign (appid n : Nat) (w : Fs) : Prop :=
  ∀ record, w.records (.journal appid) = some (some record) →
    (get record "operation_id").any (eqInt n) = false

/-- The journal of operation `n`, its backup and its mount. -/
structure Journaled (paths : Paths) (appid n : Nat) (prior : Option Bytes) (patched : Bytes)
    (w : Fs) : Prop where
  journal : ∃ identity, w.identity = some identity ∧
    w.records (.journal appid) = some (some
      (journalRecord paths appid n (sha256hex patched) prior.isSome identity))
  backup : ∀ data, prior = some data → w.files (.backup appid) = some data

structure Untouched (appid n : Nat) (prior : Option Bytes) (w : Fs) : Prop where
  foreign : Foreign appid n w
  dest : w.files (.manifest appid) = prior

structure Pending (paths : Paths) (appid n : Nat) (prior : Option Bytes) (patched : Bytes)
    (w : Fs) : Prop extends Journaled paths appid n prior patched w where
  dest : w.files (.manifest appid) = prior

structure Landed (paths : Paths) (appid n : Nat) (prior : Option Bytes) (patched : Bytes)
    (w : Fs) : Prop extends Journaled paths appid n prior patched w where
  dest : w.files (.manifest appid) = some patched

/-- The three phases.  Without a patched content the operation never journals
anything. -/
def Phase (paths : Paths) (appid n : Nat) (prior patched : Option Bytes) (w : Fs) : Prop :=
  Untouched appid n prior w ∨
    ∃ p, patched = some p ∧ (Pending paths appid n prior p w ∨ Landed paths appid n prior p w)

/-- The bytes that `adopt_manifest` places, if it can patch the source. -/
def patchedBytes (source : Option Bytes) (installDirName : String) : Option Bytes :=
  source.bind fun data =>
    match patchedManifest data installDirName with
    | .ok text => some (Text.encode text)
    | .error _ => none

variable {paths : Paths} {appid n : Nat} {prior : Option Bytes} {patched : Bytes} {w : Fs}

/-! ## Adoption -/

/-- The backup is durable before anything else changes. -/
theorem safe_backupDestination {G : Fs → Prop} (h : Untouched appid n prior w)
    (hG : ∀ w', Untouched appid n prior w' → G w') :
    FsSafe G (fun backup w' => Untouched appid n prior w' ∧ backup = prior.isSome ∧
      w'.identity = w.identity ∧ ∀ data, prior = some data → w'.files (.backup appid) = some data)
      (backupDestination appid) w := by
  refine .bind (.pathExists (hG w h) fun b hb => ?_)
  obtain rfl : b = prior.isSome := by
    rw [hb rfl, Fs.present_manifest, h.dest]
  cases hp : prior with
  | none => exact .ret ⟨hp ▸ h, rfl, rfl, fun data hd => by simp at hd⟩
  | some old =>
    refine .bind (.readBytes (hG w h) fun data hdata => ?_)
    obtain rfl : old = data := Option.some.inj ((hp ▸ h.dest).symm.trans hdata)
    have hput : Untouched appid n prior (w.put (.backup appid) old) :=
      ⟨h.foreign, by simpa using h.dest⟩
    refine .bind (.durableWrite (hG w h) (hG _ hput) (.ret ⟨hp ▸ hput, rfl, rfl, ?_⟩))
    rintro data hd
    simpa using hd

/-- Adoption keeps the phases, and has landed when it returns. -/
theorem safe_adopt (source : Loc) (name : String) (h : Untouched appid n prior w) :
    FsSafe (Phase paths appid n prior (patchedBytes (w.files source) name))
      (fun _ w' => ∃ p, patchedBytes (w.files source) name = some p ∧
        Landed paths appid n prior p w')
      (adoptManifest paths source appid name n) w := by
  have hphase : ∀ w', Untouched appid n prior w' →
      Phase paths appid n prior (patchedBytes (w.files source) name) w' := fun _ => Or.inl
  unfold adoptManifest
  refine .bind (.wrapOSError (.lstat (hphase w h) fun identity hid => ?_))
  refine .bind (.mkdir (hphase w h) (.bind (.fsyncDir (hphase w h) ?_)))
  refine .bind (.readBytes (hphase w h) fun data hdata => ?_)
  refine .bind (.ofExcept (hphase w h) fun text htext => ?_)
  have hpatched : patchedBytes (w.files source) name = some (Text.encode text) := by
    simp [patchedBytes, hdata, htext]
  rw [hpatched] at hphase ⊢
  refine .bind (.mono ?_ (safe_backupDestination h hphase))
  rintro backup w₁ ⟨h₁, rfl, hid₁, hbackup⟩
  have hpending : Pending paths appid n prior (Text.encode text)
      (w₁.putRecord (.journal appid) (journalRecord paths appid n
        (sha256hex (Text.encode text)) prior.isSome identity)) :=
    { journal := ⟨identity, hid₁.trans (hid rfl), by simp⟩
      backup := by simpa using hbackup
      dest := by simpa using h₁.dest }
  have hlanded : ∀ w', Pending paths appid n prior (Text.encode text) w' →
      Landed paths appid n prior (Text.encode text) (w'.put (.manifest appid) (Text.encode text)) :=
    fun w' h' =>
      { journal := h'.journal
        backup := by simpa using h'.backup
        dest := by simp }
  have hpend := fun w' h' => (Or.inr ⟨_, rfl, Or.inl h'⟩ :
    Phase paths appid n prior (some (Text.encode text)) w')
  have hland := fun w' h' => (Or.inr ⟨_, rfl, Or.inr h'⟩ :
    Phase paths appid n prior (some (Text.encode text)) w')
  refine .bind (.writeRecord (hphase _ h₁) (hpend _ hpending) ?_)
  refine .bind (.wrapOSError (.durableWrite (hpend _ hpending) (hland _ (hlanded _ hpending)) ?_))
  exact .ret ⟨_, rfl, hlanded _ hpending⟩

/-! ## Recovery -/

/-- Retiring the journal. -/
theorem untouched_remove_journal (h : w.files (.manifest appid) = prior) :
    Untouched appid n prior (w.remove (.journal appid)) where
  foreign record hr := by simp at hr
  dest := by simpa using h

/-- Recovery of another operation's journal, or of none. -/
theorem safe_reconcile_untouched (h : Untouched appid n prior w) :
    FsSafe (Untouched appid n prior)
      (fun verdict w' => verdict ≠ .completed ∧ Untouched appid n prior w')
      (reconcileAdoption paths appid (some n)) w := by
  refine .bind (.isFile h fun b _ => ?_)
  cases b with
  | false => exact .ret ⟨by simp, h⟩
  | true =>
    refine .bind (.readJournal h fun record destination checksum hr _ _ => ?_)
    refine .bind (.checkJournal h ?_)
    have hforeign : (some n).any (fun m => !(get record "operation_id").any (eqInt m)) = true := by
      simp [h.foreign record hr]
    rw [if_pos hforeign]
    have hgone := untouched_remove_journal (n := n) h.dest
    exact .bind (.unlink h hgone (.ret ⟨by simp, hgone⟩))

/-- The own journal passes every check, so recovery decides by the
destination. -/
theorem safe_reconcile_own {G : Fs → Prop} {Q : AdoptionVerdict → Fs → Prop} (hG : G w)
    (h : Journaled paths appid n prior patched w)
    (hdecide : FsSafe G Q (do
      if ← swapLanded appid (sha256hex patched) prior.isSome then
        return .completed
      else
        restoreAdoption appid prior.isSome) w) :
    FsSafe G Q (reconcileAdoption paths appid (some n)) w := by
  obtain ⟨identity, _, hrecord⟩ := h.journal
  refine .bind (.isFile hG fun b hb => ?_)
  obtain rfl : b = true := by
    rw [hb rfl, Fs.present_journal, hrecord]
    rfl
  refine .bind (.readJournal hG fun record destination checksum hr hd hc => ?_)
  obtain rfl : _ = record := Option.some.inj (Option.some.inj (hrecord.symm.trans hr))
  obtain rfl : .str (sha256hex patched) = checksum := Option.some.inj (Eq.trans (by rfl) hc)
  refine .bind (.checkJournal hG ?_)
  have hown : ¬ (some n).any (fun m => !(get (journalRecord paths appid n (sha256hex patched)
      prior.isSome identity) "operation_id").any (eqInt m)) = true := by
    simp [get, item, journalRecord, eqInt]
  have hbackup : (get (journalRecord paths appid n (sha256hex patched) prior.isSome identity)
      "backup").isSome = prior.isSome := by
    cases prior <;> simp [get, item, journalRecord]
  rw [if_neg hown]
  simp only [hbackup]
  exact hdecide

/-- A landed swap is recognised by its checksum. -/
theorem safe_reconcile_landed (h : Landed paths appid n prior patched w) :
    FsSafe (Landed paths appid n prior patched)
      (fun verdict w' => verdict = .completed ∧ Landed paths appid n prior patched w')
      (reconcileAdoption paths appid (some n)) w := by
  refine safe_reconcile_own h h.toJournaled (.bind (.bind (.isFile h fun b hb => ?_)))
  obtain rfl : b = true := by
    rw [hb rfl, Fs.present_manifest, h.dest]
    rfl
  refine .bind (.wrapOSError (.readBytes h fun data hd => ?_))
  obtain rfl : patched = data := Option.some.inj (h.dest.symm.trans hd)
  rw [if_pos rfl]
  exact .ret (.ret ⟨rfl, h⟩)

/-- What recovery of the own journal leaves and returns. -/
def Recovered (paths : Paths) (appid n : Nat) (prior : Option Bytes) (patched : Bytes)
    (verdict : AdoptionVerdict) (w : Fs) : Prop :=
  verdict = .completed ∧ Landed paths appid n prior patched w ∨
    verdict ≠ .completed ∧ Untouched appid n prior w

/-- Undoing a swap that has not landed leaves the old content in every state on
the way. -/
theorem safe_restore (h : Pending paths appid n prior patched w) {G : Fs → Prop}
    (hpend : ∀ w', Pending paths appid n prior patched w' → G w')
    (huntouched : ∀ w', Untouched appid n prior w' → G w') :
    FsSafe G (Recovered paths appid n prior patched)
      (restoreAdoption appid prior.isSome) w := by
  have hretire : ∀ w', Pending paths appid n prior patched w' → FsSafe G
      (Recovered paths appid n prior patched) (do
        unlink (.journal appid) false
        fsyncDir .journalDir
        return .restored) w' := by
    intro w' h'
    have hgone := untouched_remove_journal (n := n) h'.dest
    refine .bind (.unlink (hpend _ h') (huntouched _ hgone) ?_)
    exact .bind (.fsyncDir (huntouched _ hgone) (.ret (Or.inr ⟨by simp, hgone⟩)))
  cases hp : prior with
  | none =>
    have hremoved : Pending paths appid n prior patched (w.remove (.manifest appid)) :=
      { journal := by simpa using h.journal
        backup := fun data hd => by simp [hp] at hd
        dest := by simp [hp] }
    rw [hp] at hretire hremoved hpend
    refine .bind (.unlink (hpend w (hp ▸ h)) (hpend _ hremoved) ?_)
    exact .bind (.fsyncDir (hpend _ hremoved) (hretire _ hremoved))
  | some old =>
    rw [hp] at hretire hpend h
    refine .bind (.isFile (hpend w h) fun b hb => ?_)
    obtain rfl : b = true := by
      rw [hb rfl, Fs.present_backup, h.backup old rfl]
      rfl
    refine .bind (.readBytes (hpend w h) fun data hd => ?_)
    obtain rfl : old = data := Option.some.inj ((h.backup old rfl).symm.trans hd)
    have hput : Pending paths appid n (some old) patched (w.put (.manifest appid) old) :=
      { journal := h.journal
        backup := by simpa using h.backup
        dest := by simp }
    exact .bind (.durableWrite (hpend w h) (hpend _ hput) (hretire _ hput))

/-- Recovery before the swap landed. -/
theorem safe_reconcile_pending (h : Pending paths appid n prior patched w)
    (hash : ∀ old, prior = some old → sha256hex old = sha256hex patched → old = patched) :
    FsSafe (Phase paths appid n prior (some patched)) (Recovered paths appid n prior patched)
      (reconcileAdoption paths appid (some n)) w := by
  have hpend : ∀ w', Pending paths appid n prior patched w' →
      Phase paths appid n prior (some patched) w' := fun _ h' => Or.inr ⟨_, rfl, Or.inl h'⟩
  have hrestore := safe_restore h hpend fun _ h' => Or.inl h'
  refine safe_reconcile_own (hpend w h) h.toJournaled (.bind (.bind
    (.isFile (hpend w h) fun b hb => ?_)))
  obtain rfl : b = prior.isSome := by
    rw [hb rfl, Fs.present_manifest, h.dest]
  cases hp : prior with
  | none =>
    rw [hp] at hrestore
    exact .ret hrestore
  | some old =>
    refine .bind (.wrapOSError (.readBytes (hp ▸ hpend w h) fun data hd => ?_))
    obtain rfl : old = data := Option.some.inj ((hp ▸ h.dest).symm.trans hd)
    rw [hp] at hrestore
    split
    · -- the old content is the new content
      rename_i heq
      obtain rfl := hash old hp heq
      have hlanded : Landed paths appid n (some old) old w :=
        { journal := hp ▸ h.journal
          backup := hp ▸ h.backup
          dest := hd }
      exact .ret (.ret (Or.inl ⟨rfl, hlanded⟩))
    · exact .ret hrestore

/-! ## Any number of attempts -/

/-- Any number of recovery calls, each cut at any point. -/
inductive Attempts (paths : Paths) (appid n : Nat) (w : Fs) : Fs → Prop
  | none : Attempts paths appid n w w
  | more {w₁ w₂ : Fs} {l : List (Move FsSig Fs)} {p : FsProg AdoptionVerdict}
      (h : Attempts paths appid n w w₁)
      (hr : Run FsCall.perform NoWriter (reconcileAdoption paths appid (some n)) w₁
        l p w₂) : Attempts paths appid n w w₂

/-- A property that one cut call keeps is kept by any number of them. -/
theorem Attempts.keep {P : Fs → Prop} {w' : Fs}
    (hstep : ∀ w, P w → ∃ Q : AdoptionVerdict → Fs → Prop,
      FsSafe P Q (reconcileAdoption paths appid (some n)) w)
    (h : Attempts paths appid n w w') (hw : P w) : P w' := by
  induction h with
  | none => exact hw
  | more _ hr ih =>
    obtain ⟨Q, hQ⟩ := hstep _ ih
    exact hQ.cut ih hr

/-- The verdict agrees with the content of the destination. -/
def Agrees (verdict : AdoptionVerdict) (dest prior patched : Option Bytes) : Prop :=
  (verdict = .completed → patched.isSome ∧ dest = patched) ∧ (verdict ≠ .completed → dest = prior)

/-- A recovery call from any phase. -/
theorem safe_reconcile {patched : Option Bytes} (h : Phase paths appid n prior patched w)
    (hash : ∀ old new, prior = some old → patched = some new →
      sha256hex old = sha256hex new → old = new) :
    FsSafe (Phase paths appid n prior patched)
      (fun verdict w' => verdict ≠ .completed ∧ Untouched appid n prior w' ∨
        verdict = .completed ∧ ∃ p, patched = some p ∧ Landed paths appid n prior p w')
      (reconcileAdoption paths appid (some n)) w := by
  rcases h with h | ⟨p, rfl, h | h⟩
  · exact ((safe_reconcile_untouched h).weaken fun _ => Or.inl).mono fun _ _ => Or.inl
  · refine (safe_reconcile_pending h fun old ho => hash old p ho rfl).mono ?_
    rintro verdict w' (⟨hv, hl⟩ | hu)
    · exact Or.inr ⟨hv, p, rfl, hl⟩
    · exact Or.inl hu
  · refine ((safe_reconcile_landed h).weaken fun _ hl => Or.inr ⟨p, rfl, Or.inr hl⟩).mono ?_
    exact fun verdict w' hl => Or.inr ⟨hl.1, p, rfl, hl.2⟩

/-- Adoption is crash-atomic. -/
theorem adoption_crash_atomic (source : Loc) (name : String) {w₀ w₁ w₂ w₃ : Fs}
    {l₁ l₃ : List (Move FsSig Fs)} {p₁ : FsProg Loc} {verdict : AdoptionVerdict}
    (hforeign : Foreign appid n w₀)
    (hash : ∀ old new, w₀.files (.manifest appid) = some old →
      patchedBytes (w₀.files source) name = some new → sha256hex old = sha256hex new → old = new)
    (hadopt : Run FsCall.perform NoWriter
      (adoptManifest paths source appid name n) w₀ l₁ p₁ w₁)
    (hattempts : Attempts paths appid n w₁ w₂)
    (hreturn : Run FsCall.perform NoWriter
      (reconcileAdoption paths appid (some n)) w₂ l₃ (.ret verdict) w₃) :
    Agrees verdict (w₃.files (.manifest appid)) (w₀.files (.manifest appid))
      (patchedBytes (w₀.files source) name) ∧
    ∀ w₄ w₅ l₅ verdict', Attempts paths appid n w₃ w₄ →
      Run FsCall.perform NoWriter
        (reconcileAdoption paths appid (some n)) w₄ l₅ (.ret verdict') w₅ →
      w₅.files (.manifest appid) = w₃.files (.manifest appid) ∧
      Agrees verdict' (w₅.files (.manifest appid)) (w₀.files (.manifest appid))
        (patchedBytes (w₀.files source) name) := by
  have h₀ : Untouched appid n (w₀.files (.manifest appid)) w₀ := ⟨hforeign, rfl⟩
  have h₁ := (safe_adopt source name h₀).cut (Or.inl h₀) hadopt
  have h₂ := hattempts.keep (fun w h => ⟨_, safe_reconcile h hash⟩) h₁
  rcases (safe_reconcile h₂ hash).returned hreturn with ⟨hv, hu⟩ | ⟨rfl, p, hp, hl⟩
  · refine ⟨⟨fun hc => absurd hc hv, fun _ => hu.dest⟩, fun w₄ w₅ l₅ verdict' ha hr => ?_⟩
    have h₄ := ha.keep (fun w h => ⟨_, safe_reconcile_untouched h⟩) hu
    obtain ⟨hv', hu'⟩ := (safe_reconcile_untouched h₄).returned hr
    exact ⟨hu'.dest.trans hu.dest.symm, fun hc => absurd hc hv', fun _ => hu'.dest⟩
  · refine ⟨⟨fun _ => ⟨by simp [hp], hl.dest.trans hp.symm⟩, fun hc => absurd rfl hc⟩,
      fun w₄ w₅ l₅ verdict' ha hr => ?_⟩
    have h₄ := ha.keep (fun w h => ⟨_, safe_reconcile_landed h⟩) hl
    obtain ⟨rfl, hl'⟩ := (safe_reconcile_landed h₄).returned hr
    exact ⟨hl'.dest.trans hl.dest.symm,
      ⟨fun _ => ⟨by simp [hp], hl'.dest.trans hp.symm⟩, fun hc => absurd rfl hc⟩⟩

/-! ## A run -/

/-- A library with an installed app 620, and a new manifest below its target. -/
def portalLibrary : Fs where
  identity := some ⟨1, 2⟩
  files l :=
    if l = .manifest 620 then some (Text.encode "\"appid\" \"620\" old".toList)
    else if l = .nested "p" 620 then
      some (Text.encode "\"appid\" \"620\" \"installdir\" \"x\"".toList)
    else none
  records _ := none

/-- Adoption is killed after the journal, before the swap. -/
@[irreducible] def killedAdoption : List (Move FsSig Fs) × FsProg Loc × Fs :=
  (adoptManifest ⟨"/lib", "/state/journal"⟩ (.nested "p" 620) 620 "p" 7).moves fsAnswers 8
    portalLibrary []

/-- Recovery runs to its end. -/
@[irreducible] def recoveredAdoption : List (Move FsSig Fs) × FsProg AdoptionVerdict × Fs :=
  (reconcileAdoption ⟨"/lib", "/state/journal"⟩ 620 (some 7)).moves fsAnswers 20
    killedAdoption.2.2 []

/-- The old and the new content of the manifest have different digests. -/
theorem portalLibrary_digests {old new : Bytes}
    (hold : portalLibrary.files (.manifest 620) = some old)
    (hnew : patchedBytes (portalLibrary.files (.nested "p" 620)) "p" = some new) :
    sha256hex old ≠ sha256hex new := by
  intro heq
  have hne : (portalLibrary.files (.manifest 620)).map sha256hex
      ≠ (patchedBytes (portalLibrary.files (.nested "p" 620)) "p").map sha256hex := by
    decide +kernel
  rw [hold, hnew] at hne
  exact absurd (congrArg some heq) hne

theorem adoption_crash_atomic_portal :
    recoveredAdoption.2.1.returned = some .restored ∧
    Agrees .restored (recoveredAdoption.2.2.files (.manifest 620))
      (portalLibrary.files (.manifest 620))
      (patchedBytes (portalLibrary.files (.nested "p" 620)) "p") := by
  have hreturned : recoveredAdoption.2.1.returned = some .restored := by decide +kernel
  have hkilled : (adoptManifest ⟨"/lib", "/state/journal"⟩ (.nested "p" 620) 620 "p" 7).moves
      fsAnswers 8 portalLibrary [] = killedAdoption := by
    rw [killedAdoption]
  have hrecovered : (reconcileAdoption ⟨"/lib", "/state/journal"⟩ 620 (some 7)).moves
      fsAnswers 20 killedAdoption.2.2 [] = recoveredAdoption := by
    rw [recoveredAdoption]
  have hforeign : Foreign 620 7 portalLibrary := fun record hr => nomatch hr
  have hadopt := Run.of_moves NoWriter.refl perform_fsAnswers hkilled
  have hreturn := Run.of_returned NoWriter.refl perform_fsAnswers hrecovered hreturned
  exact ⟨hreturned, (adoption_crash_atomic _ _ hforeign
    (fun _ _ hold hnew heq => absurd heq (portalLibrary_digests hold hnew))
    hadopt .none hreturn).1⟩

end SteamAgent.Execution.Content
