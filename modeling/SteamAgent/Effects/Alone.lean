import SteamAgent.Effects.Safe

/-!
# Programs that nobody disturbs

`Alone perform G Q p l w` says: run from `w` after the moves `l` by its only
writer, every call of `p` leaves moves and a state with `G`, a return satisfies
`Q`, and so does `G` any exception.  A program that is killed between two calls
leaves `G` too, because every call does.

There are two groups.

* The rules: a return, an exception, one call, sequencing, a handler.
* `Alone.cut` and `Alone.returned`, which carry them to runs.
-/

namespace Effects

variable {S : Sig} {W : Type} {ε ε' α β : Type}

/-- The rules of a program that nobody disturbs and that keeps `G`. -/
def aloneRules (perform : W → (c : S.Call) → S.Ans c → W → Prop)
    (G : List (Move S W) → W → Prop) : Rules S W where
  perform := perform
  rely w w' := w' = w
  guar l m := G (m :: l) m.after
  rely_refl _ := rfl
  rely_trans h h' := h'.trans h

/-- From `w`, after the moves `l`, every call keeps `G` and a return satisfies
`Q`. -/
def Alone (perform : W → (c : S.Call) → S.Ans c → W → Prop) (G : List (Move S W) → W → Prop)
    (Q : α → List (Move S W) → W → Prop) (p : Prog S ε α) (l : List (Move S W)) (w : W) : Prop :=
  Safe (aloneRules perform G) Q (fun _ => G) p l w

namespace Alone

variable {perform : W → (c : S.Call) → S.Ans c → W → Prop} {G G' : List (Move S W) → W → Prop}
  {Q Q' : α → List (Move S W) → W → Prop} {p p' : Prog S ε α} {l l' : List (Move S W)} {w w' : W}

theorem ret {a : α} (h : Q a l w) : Alone perform G Q (.ret a : Prog S ε α) l w := by
  rintro w' rfl
  exact h

theorem raise {x : ε} (h : G l w) : Alone perform G Q (.raise x : Prog S ε α) l w := by
  rintro w' rfl
  exact h

theorem ofExcept {a : Except ε α} (hG : G l w) (h : ∀ b, a = .ok b → Q b l w) :
    Alone perform G Q (Prog.ofExcept a) l w := by
  cases a with
  | ok b => exact ret (h b rfl)
  | error x => exact raise hG

theorem bind {Q : β → List (Move S W) → W → Prop} {f : α → Prog S ε β}
    (h : Alone perform G (fun a l w => Alone perform G Q (f a) l w) p l w) :
    Alone perform G Q (p >>= f) l w :=
  Safe.bind h

theorem mono (hQ : ∀ a l w, Q a l w → Q' a l w) (h : Alone perform G Q p l w) :
    Alone perform G Q' p l w :=
  Safe.imp hQ h

/-- One call followed by the rest of the program. -/
theorem ask {c : S.Call} {k : S.Ans c → Prog S ε α}
    (h : ∀ a w', perform w c a w' →
      G (⟨w, c, a, w'⟩ :: l) w' ∧ Alone perform G Q (k a) (⟨w, c, a, w'⟩ :: l) w') :
    Alone perform G Q (Prog.ask c >>= k) l w := by
  rintro w₁ rfl a w₂ hc
  exact h a w₂ hc

/-- A handler that raises every exception again, perhaps as another one. -/
theorem handler {f : Except ε α → Prog S ε' β} {Q : β → List (Move S W) → W → Prop}
    (h : Alone perform G (fun a l w => Alone perform G Q (f (.ok a)) l w) p l w)
    (hf : ∀ x l w, G l w → Alone perform G Q (f (.error x)) l w) :
    Alone perform G Q (p.attempt >>= f) l w :=
  Safe.attempt_bind (Safe.mono (fun _ _ _ ha => ha) hf h)

/-- The part of a program that was cut at any point. -/
theorem cut (h : Alone perform G Q p [] w) (hG : G [] w)
    (hr : Run perform (fun w w' => w' = w) p w l p' w') : G l w' := by
  cases hr with
  | start => exact hG
  | step hr hrely hperform =>
    have hg := Safe.guar (r := aloneRules perform G) h (.step hr hrely hperform)
    rw [List.append_nil] at hg
    exact hg

/-- What a program returned with. -/
theorem returned {a : α} (h : Alone perform G Q p [] w)
    (hr : Run perform (fun w w' => w' = w) p w l (.ret a) w') : Q a l w' := by
  have hq := Safe.of_ret (Safe.run (r := aloneRules perform G) h hr)
  rwa [List.append_nil] at hq

end Alone

end Effects
