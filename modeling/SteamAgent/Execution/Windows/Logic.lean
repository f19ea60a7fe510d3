import SteamAgent.Effects.Alone
import SteamAgent.Execution.Windows.Adoption

/-!
# A program logic for the Windows drivers

`WinSafe Bad Good Lost Q p w` says: from `w`, every primitive of `p` leaves a
good state, unless one of its moves was bad.  A bad move is a `replace` that
lost its destination name where that must not happen, and it leaves a lost
state.

There are two groups.

* Sequencing.
* One rule for each primitive.
-/

namespace SteamAgent.Execution.Windows

open Effects

variable {α β : Type}

/-- The move is a `replace` that raised after its destination name was gone. -/
def loses (path : WinPath) (m : Move WinSig WinFs) : Prop :=
  (∃ source, m.call = .replace source path) ∧ (m.before.get path).isSome = true ∧
    m.after.get path = none

/-- Bad moves lose a name. -/
def Losing (Bad : Move WinSig WinFs → Prop) : Prop :=
  ∀ m, Bad m → ∃ path, loses path m

/-- No move is bad. -/
def Calm (Bad : Move WinSig WinFs → Prop) (l : List (Move WinSig WinFs)) : Prop :=
  ∀ m ∈ l, ¬ Bad m

/-- The state is good, or some move was bad and it is lost. -/
def Kept (Bad : Move WinSig WinFs → Prop) (Good Lost : WinFs → Prop)
    (l : List (Move WinSig WinFs)) (w : WinFs) : Prop :=
  Calm Bad l ∧ Good w ∨ ¬ Calm Bad l ∧ Lost w

/-- From `w`, every primitive keeps the state good up to a bad move, and a
return satisfies `Q`. -/
def WinSafe (Bad : Move WinSig WinFs → Prop) (Good Lost : WinFs → Prop) (Q : α → WinFs → Prop)
    (p : WinProg α) (w : WinFs) : Prop :=
  ∀ l, Calm Bad l →
    Alone WinCall.perform (Kept Bad Good Lost) (fun a l w => Calm Bad l ∧ Q a w) p l w

variable {Bad : Move WinSig WinFs → Prop} {Good Lost : WinFs → Prop} {Q : α → WinFs → Prop}
  {w : WinFs} {l : List (Move WinSig WinFs)}

theorem calm_nil : Calm Bad [] :=
  fun m hm => by simp at hm

theorem Calm.cons {m : Move WinSig WinFs} (hl : Calm Bad l) (hm : ¬ Bad m) : Calm Bad (m :: l) :=
  List.forall_mem_cons.mpr ⟨hm, hl⟩

/-- Only a `replace` is bad. -/
theorem Losing.not_bad {m : Move WinSig WinFs} (h : Losing Bad)
    (hm : ∀ source destination, m.call ≠ .replace source destination) : ¬ Bad m := by
  intro hb
  obtain ⟨path, ⟨source, hcall⟩, _⟩ := h m hb
  exact hm source path hcall

namespace WinSafe

/-! ## Sequencing -/

theorem ret {a : α} (h : Q a w) : WinSafe Bad Good Lost Q (.ret a) w :=
  fun _ hl => .ret ⟨hl, h⟩

theorem raise {x : Exn} (h : Good w) : WinSafe Bad Good Lost Q (.raise x) w :=
  fun _ hl => .raise (Or.inl ⟨hl, h⟩)

theorem ofExcept {a : Except Exn α} (hG : Good w) (h : ∀ b, a = .ok b → Q b w) :
    WinSafe Bad Good Lost Q (Prog.ofExcept a) w :=
  fun _ hl => .ofExcept (Or.inl ⟨hl, hG⟩) fun b hb => ⟨hl, h b hb⟩

theorem bind {Q : β → WinFs → Prop} {p : WinProg α} {f : α → WinProg β}
    (h : WinSafe Bad Good Lost (fun a w => WinSafe Bad Good Lost Q (f a) w) p w) :
    WinSafe Bad Good Lost Q (p >>= f) w :=
  fun l hl => .bind (Alone.mono (fun _ l _ hs => hs.2 l hs.1) (h l hl))

theorem mono {Q' : α → WinFs → Prop} {p : WinProg α} (hQ : ∀ a w, Q a w → Q' a w)
    (h : WinSafe Bad Good Lost Q p w) : WinSafe Bad Good Lost Q' p w :=
  fun l hl => Alone.mono (fun _ _ _ hs => ⟨hs.1, hQ _ _ hs.2⟩) (h l hl)

/-- `_sanitized` changes the exception only. -/
theorem sanitized {p : WinProg α} (h : WinSafe Bad Good Lost Q p w) :
    WinSafe Bad Good Lost Q (sanitized p) w := by
  refine fun l hl => .handler (Alone.mono (fun a l w hs => .ret hs) (h l hl)) fun x l w hG => ?_
  cases x <;> exact .raise hG

theorem ite {c : Prop} [Decidable c] {p q : WinProg α} (hp : c → WinSafe Bad Good Lost Q p w)
    (hq : ¬ c → WinSafe Bad Good Lost Q q w) :
    WinSafe Bad Good Lost Q (if c then p else q) w := by
  split
  · exact hp ‹_›
  · exact hq ‹_›

/-! ## Single primitives -/

/-- A primitive that is not bad. -/
theorem ask {c : WinCall} {k : c.Ans → WinProg α}
    (h : ∀ a w', WinCall.perform w c a w' →
      ¬ Bad ⟨w, c, a, w'⟩ ∧ Good w' ∧ WinSafe Bad Good Lost Q (k a) w') :
    WinSafe Bad Good Lost Q (Prog.ask (S := WinSig) c >>= k) w := by
  refine fun l hl => .ask fun a w' hc => ?_
  obtain ⟨hbad, hgood, hk⟩ := h a w' hc
  exact ⟨Or.inl ⟨hl.cons hbad, hgood⟩, hk _ (hl.cons hbad)⟩

variable (hB : Losing Bad)

include hB

theorem directoryIdentity {path : WinPath} {Q : WinIdentity → WinFs → Prop} (hG : Good w)
    (h : ∀ id, w.directories path = some id → Q id w) :
    WinSafe Bad Good Lost Q (directoryIdentity path) w := by
  refine ask fun a w' hc => ?_
  obtain ⟨rfl, ha⟩ := hc
  exact ⟨hB.not_bad (by simp), hG, ofExcept hG fun id hid => h id (ha id hid)⟩

theorem fileIdentity {path : WinPath} {Q : WinIdentity → WinFs → Prop} (hG : Good w)
    (h : ∀ file, w.get path = some file → Q file.id w) :
    WinSafe Bad Good Lost Q (fileIdentity path) w := by
  refine ask fun a w' hc => ?_
  obtain ⟨rfl, ha⟩ := hc
  refine ⟨hB.not_bad (by simp), hG, ofExcept hG fun id hid => ?_⟩
  obtain ⟨file, hfile, rfl⟩ := Option.map_eq_some_iff.mp (ha id hid)
  exact h file hfile

theorem pathExists {path : WinPath} {Q : Bool → WinFs → Prop} (hG : Good w)
    (h : Q (w.get path).isSome w) : WinSafe Bad Good Lost Q (pathExists path) w := by
  refine ask fun a w' hc => ?_
  obtain ⟨rfl, ha⟩ := hc
  refine ⟨hB.not_bad (by simp), hG, ofExcept hG fun b hb => ?_⟩
  rw [ha b hb]
  exact h

theorem read {path : WinPath} {limit : Nat} {Q : FileData → WinFs → Prop} (hG : Good w)
    (h : ∀ file, w.get path = some file → Q file.data w) :
    WinSafe Bad Good Lost Q (read path limit) w := by
  refine ask fun a w' hc => ?_
  obtain ⟨rfl, ha⟩ := hc
  refine ⟨hB.not_bad (by simp), hG, ofExcept hG fun data hd => ?_⟩
  obtain ⟨file, hfile, rfl⟩ := Option.map_eq_some_iff.mp (ha data hd).1
  exact h file hfile

omit hB in
/-- A primitive that happens or not. -/
theorem outcome {c : WinCall} {a : Except Exn Unit} {w' : WinFs} {Q : Unit → WinFs → Prop}
    (hc : WinCall.perform.Outcome w c a w') (hG : Good w)
    (h : ∀ w', Changes w c w' → Good w' ∧ Q () w') :
    Good w' ∧ WinSafe Bad Good Lost Q (Prog.ofExcept a) w' := by
  rcases hc with ⟨rfl, hw⟩ | ⟨⟨x, rfl⟩, rfl⟩
  · exact ⟨(h _ hw).1, ret (h _ hw).2⟩
  · exact ⟨hG, raise hG⟩

theorem writeNew {path : WinPath} {data : FileData} {Q : Unit → WinFs → Prop} (hG : Good w)
    (h : ∀ id, w.get path = none → w.fresh id →
      Good (w.put path ⟨id, data⟩) ∧ Q () (w.put path ⟨id, data⟩)) :
    WinSafe Bad Good Lost Q (writeNew path data) w := by
  refine ask fun a w' hc => ⟨hB.not_bad (by simp), outcome hc hG fun w' hw => ?_⟩
  cases hw with
  | writeNew habsent hfresh =>
    exact h _ habsent hfresh

theorem copyNew {source destination : WinPath} {Q : Unit → WinFs → Prop} (hG : Good w)
    (h : ∀ file id, w.get source = some file → w.get destination = none → w.fresh id →
      Good (w.put destination ⟨id, file.data⟩) ∧ Q () (w.put destination ⟨id, file.data⟩)) :
    WinSafe Bad Good Lost Q (copyNew source destination) w := by
  refine ask fun a w' hc => ⟨hB.not_bad (by simp), outcome hc hG fun w' hw => ?_⟩
  cases hw with
  | copyNew hsource habsent hfresh =>
    exact h _ _ hsource habsent hfresh

theorem flush {path : WinPath} {Q : Unit → WinFs → Prop} (hG : Good w) (h : Q () w) :
    WinSafe Bad Good Lost Q (flush path) w := by
  refine ask fun a w' hc => ⟨hB.not_bad (by simp), outcome hc hG fun w' hw => ?_⟩
  cases hw with
  | flush => exact ⟨hG, h⟩

theorem moveNew {source destination : WinPath} {Q : Unit → WinFs → Prop} (hG : Good w)
    (h : ∀ file, w.get source = some file → w.get destination = none →
      Good ((w.remove source).put destination file) ∧
        Q () ((w.remove source).put destination file)) :
    WinSafe Bad Good Lost Q (moveNew source destination) w := by
  refine ask fun a w' hc => ⟨hB.not_bad (by simp), outcome hc hG fun w' hw => ?_⟩
  cases hw with
  | moveNew hsource habsent =>
    exact h _ hsource habsent

theorem delete {path : WinPath} {Q : Unit → WinFs → Prop} (hG : Good w)
    (hG' : Good (w.remove path)) (h : Q () (w.remove path)) :
    WinSafe Bad Good Lost Q (delete path) w := by
  refine ask fun a w' hc => ⟨hB.not_bad (by simp), outcome hc hG fun w' hw => ?_⟩
  cases hw with
  | delete => exact ⟨hG', h⟩

/-- A `replace` happens, does nothing, or loses its destination name. -/
theorem replace {source destination : WinPath} {Q : Unit → WinFs → Prop} (hG : Good w)
    (hlost : ∀ m : Move WinSig WinFs, m.before = w → m.call = .replace source destination →
      loses destination m → m.after = w.remove destination → (w.get source).isSome = true →
        ¬ Bad m ∧ Good m.after ∨ Bad m ∧ Lost m.after)
    (h : ∀ file, w.get source = some file → (w.get destination).isSome = true →
      Good ((w.remove source).put destination file) ∧
        Q () ((w.remove source).put destination file)) :
    WinSafe Bad Good Lost Q (replace source destination) w := by
  refine fun l hl => .ask fun a w' hc => ?_
  have hstays : (w'.get destination).isSome = true →
      ¬ Bad ⟨w, .replace source destination, a, w'⟩ := by
    intro hsome hbad
    obtain ⟨path, ⟨source', hcall⟩, _, hgone⟩ := hB _ hbad
    obtain ⟨-, rfl⟩ := WinCall.replace.inj hcall
    rw [hgone] at hsome
    simp at hsome
  rcases hc with (⟨rfl, hw⟩ | ⟨⟨x, rfl⟩, rfl⟩) | ⟨⟨x, rfl⟩, hsource, hdest, rfl⟩
  · cases hw with
    | replace hsource hold =>
      obtain ⟨hgood, hq⟩ := h _ hsource (by rw [hold]; rfl)
      have hcalm := hl.cons (hstays (by simp))
      exact ⟨Or.inl ⟨hcalm, hgood⟩, .ret ⟨hcalm, hq⟩⟩
  · have hcalm : ¬ Bad ⟨w', .replace source destination, .error x, w'⟩ := by
      intro hbad
      obtain ⟨path, ⟨source', hcall⟩, hsome, hgone⟩ := hB _ hbad
      rw [hgone] at hsome
      simp at hsome
    exact ⟨Or.inl ⟨hl.cons hcalm, hG⟩, .raise (Or.inl ⟨hl.cons hcalm, hG⟩)⟩
  · have hkept : Kept Bad Good Lost
        (⟨w, .replace source destination, .error x, w.remove destination⟩ :: l)
        (w.remove destination) := by
      rcases hlost ⟨w, .replace source destination, .error x, w.remove destination⟩ rfl rfl
          ⟨⟨source, rfl⟩, hdest, by simp⟩ rfl hsource with ⟨hbad, hgood⟩ | ⟨hbad, hlost⟩
      · exact Or.inl ⟨hl.cons hbad, hgood⟩
      · exact Or.inr ⟨fun hc => hc _ List.mem_cons_self hbad, hlost⟩
    exact ⟨hkept, .raise hkept⟩

end WinSafe

end SteamAgent.Execution.Windows
