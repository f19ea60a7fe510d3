import SteamAgent.Effects.Safe
import SteamAgent.Execution.Content.Adoption

/-!
# A program logic for the filesystem programs

`FsSafe G Q p w` says: run from `w` by its only writer, every call of `p`
leaves a state with `G`, a return satisfies `Q`, and so does `G` any
exception.  A program that is killed between two calls leaves a state with `G`
too, because every call does.

There are two groups.

* Sequencing and the exception handlers.
* One rule for each call.
-/

namespace SteamAgent.Execution.Content

open Effects
open Sha256 (Bytes)
open Ledger (PlanDocument)

variable {α β : Type} {G : Fs → Prop} {Q : α → Fs → Prop} {w : Fs}

/-- The rules of a program that nobody disturbs and that keeps `G`. -/
def fsRules (G : Fs → Prop) : Rules FsSig Fs where
  perform := FsCall.perform
  rely := NoWriter
  guar _ m := G m.after
  rely_refl _ := rfl
  rely_trans h h' := h'.trans h

/-- From `w`, every call keeps `G` and a return satisfies `Q`. -/
def FsSafe (G : Fs → Prop) (Q : α → Fs → Prop) (p : FsProg α) (w : Fs) : Prop :=
  ∀ l, Safe (fsRules G) (fun a _ w => Q a w) (fun _ _ w => G w) p l w

namespace FsSafe

/-! ## Sequencing -/

theorem ret {a : α} (h : Q a w) : FsSafe G Q (.ret a) w := by
  rintro l w' rfl
  exact h

theorem raise {x : Exn} (h : G w) : FsSafe G Q (.raise x) w := by
  rintro l w' rfl
  exact h

theorem ofExcept {a : Except Exn α} (hG : G w) (h : ∀ b, a = .ok b → Q b w) :
    FsSafe G Q (Prog.ofExcept a) w := by
  cases a with
  | ok b => exact ret (h b rfl)
  | error x => exact raise hG

theorem bind {f : α → FsProg β} {R : β → Fs → Prop} {p : FsProg α}
    (h : FsSafe G (fun a w => FsSafe G R (f a) w) p w) : FsSafe G R (p >>= f) w :=
  fun l => Safe.bind (Safe.imp (fun _ l _ hs => hs l) (h l))

theorem mono {Q' : α → Fs → Prop} {p : FsProg α} (hQ : ∀ a w, Q a w → Q' a w)
    (h : FsSafe G Q p w) : FsSafe G Q' p w :=
  fun l => Safe.imp (fun _ _ _ => hQ _ _) (h l)

/-- A program keeps `G` to its end. -/
theorem weaken {G' : Fs → Prop} {p : FsProg α} (hG : ∀ w, G w → G' w) (h : FsSafe G Q p w) :
    FsSafe G' Q p w :=
  fun l => Safe.weaken (r := fsRules G) (fun _ _ _ _ hp => hp) (fun _ _ hr => hr)
    (fun _ _ => hG _) (Safe.mono (fun _ _ _ hq => hq) (fun _ _ _ => hG _) (h l))

theorem wrapOSError {message : String} {p : FsProg α} (h : FsSafe G Q p w) :
    FsSafe G Q (wrapOSError message p) w := by
  refine fun l => Safe.bind (Safe.attempt (Safe.mono ?_ ?_ (h l)))
  · exact fun a l w hq => ret hq l
  · intro x l w hG
    show Safe _ _ _ (if x.isOSError then _ else _) l w
    split <;> exact raise hG l

/-! ## Single calls -/

theorem pathExists {l : Loc} {Q : Bool → Fs → Prop} (hG : G w)
    (h : ∀ b, (l.tracked = true → b = w.present l) → Q b w) :
    FsSafe G Q (pathExists l) w := by
  rintro log w₁ rfl a w₂ ⟨rfl, ha⟩
  exact ⟨hG, ofExcept hG (fun b hb => h b (ha b hb)) _⟩

theorem isFile {l : Loc} {Q : Bool → Fs → Prop} (hG : G w)
    (h : ∀ b, (l.tracked = true → b = w.present l) → Q b w) : FsSafe G Q (isFile l) w := by
  rintro log w₁ rfl a w₂ ⟨rfl, ha⟩
  exact ⟨hG, ofExcept hG (fun b hb => h b (ha b hb)) _⟩

theorem lstat {l : Loc} {Q : Identity → Fs → Prop} (hG : G w)
    (h : ∀ i, (l = .steamapps → w.identity = some i) → Q i w) : FsSafe G Q (lstat l) w := by
  rintro log w₁ rfl a w₂ ⟨rfl, ha⟩
  exact ⟨hG, ofExcept hG (fun i hi => h i (ha i hi)) _⟩

theorem readBytes {l : Loc} {Q : Bytes → Fs → Prop} (hG : G w)
    (h : ∀ data, w.files l = some data → Q data w) : FsSafe G Q (readBytes l) w := by
  rintro log w₁ rfl a w₂ ⟨rfl, ha⟩
  exact ⟨hG, ofExcept hG (fun data hd => h data (ha data hd)) _⟩

theorem readRecord {l : Loc} {Q : Option PlanDocument → Fs → Prop} (hG : G w)
    (h : ∀ r, w.records l = some r → Q r w) : FsSafe G Q (readRecord l) w := by
  rintro log w₁ rfl a w₂ ⟨rfl, ha⟩
  exact ⟨hG, ofExcept hG (fun r hr => h r (ha r hr)) _⟩

/-- A durable write may raise and still have landed. -/
theorem durableWrite {l : Loc} {data : Bytes} {Q : Unit → Fs → Prop} (hG : G w)
    (hG' : G (w.put l data)) (h : Q () (w.put l data)) :
    FsSafe G Q (durableWrite l data) w := by
  rintro log w₁ rfl a w₂ (rfl | ⟨⟨x, rfl⟩, rfl⟩)
  · exact ⟨hG', ofExcept hG' (fun _ _ => h) _⟩
  · exact ⟨hG, raise hG _⟩

theorem writeRecord {l : Loc} {record : PlanDocument} {Q : Unit → Fs → Prop} (hG : G w)
    (hG' : G (w.putRecord l record)) (h : Q () (w.putRecord l record)) :
    FsSafe G Q (writeRecord l record) w := by
  rintro log w₁ rfl a w₂ (rfl | ⟨⟨x, rfl⟩, rfl⟩)
  · exact ⟨hG', ofExcept hG' (fun _ _ => h) _⟩
  · exact ⟨hG, raise hG _⟩

theorem unlink {l : Loc} {missingOk : Bool} {Q : Unit → Fs → Prop} (hG : G w)
    (hG' : G (w.remove l)) (h : Q () (w.remove l)) : FsSafe G Q (unlink l missingOk) w := by
  rintro log w₁ rfl a w₂ (⟨rfl, _, rfl⟩ | ⟨⟨x, rfl⟩, rfl⟩)
  · exact ⟨hG', ret h _⟩
  · exact ⟨hG, raise hG _⟩

theorem mkdir {l : Loc} {Q : Unit → Fs → Prop} (hG : G w) (h : Q () w) :
    FsSafe G Q (mkdir l) w := by
  rintro log w₁ rfl a w₂ rfl
  exact ⟨hG, ofExcept hG (fun _ _ => h) _⟩

theorem fsyncDir {l : Loc} {Q : Unit → Fs → Prop} (hG : G w) (h : Q () w) :
    FsSafe G Q (fsyncDir l) w := by
  rintro log w₁ rfl a w₂ rfl
  exact ⟨hG, ofExcept hG (fun _ _ => h) _⟩

theorem readJournal {appid : Nat} {Q : Journal → Fs → Prop} (hG : G w)
    (h : ∀ record destination checksum, w.records (.journal appid) = some (some record) →
      item record "destination" = some destination → item record "checksum" = some checksum →
      Q ⟨record, pyStr destination, pyStr checksum⟩ w) :
    FsSafe G Q (readJournal appid) w := by
  refine bind (.wrapOSError (.readRecord hG fun r hr => ?_))
  cases r with
  | none => exact raise hG
  | some record =>
    dsimp only
    split
    · rename_i destination checksum hd hc
      exact ret (h record destination checksum hr hd hc)
    · exact raise hG

theorem checkJournal {paths : Paths} {appid : Nat} {journal : Journal} {Q : Unit → Fs → Prop}
    (hG : G w) (h : Q () w) : FsSafe G Q (checkJournal paths appid journal) w := by
  unfold Content.checkJournal
  split
  · exact raise hG
  · split
    · exact raise hG
    · refine bind (.wrapOSError (.lstat hG fun i _ => ?_))
      split
      · exact ret h
      · exact raise hG

end FsSafe

/-! ## Runs -/

variable {p p' : FsProg α} {w' : Fs} {l : List (Move FsSig Fs)}

/-- A program that is cut at any point leaves `G`. -/
theorem FsSafe.cut (h : FsSafe G Q p w) (hG : G w)
    (hr : Run FsCall.perform NoWriter p w l p' w') : G w' := by
  cases hr with
  | start => exact hG
  | step hr hrely hperform => exact Safe.guar (h []) (.step hr hrely hperform)

/-- What a program returned with. -/
theorem FsSafe.returned {a : α} (h : FsSafe G Q p w)
    (hr : Run FsCall.perform NoWriter p w l (.ret a) w') : Q a w' :=
  ((h []).run hr).of_ret

end SteamAgent.Execution.Content
