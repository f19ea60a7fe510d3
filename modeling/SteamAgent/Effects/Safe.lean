import SteamAgent.Effects.Prog

/-!
# A rely-guarantee logic for programs

`Safe r Q X p l w` says: from the state `w`, after the moves `l`, whatever the
calls of `p` answer and whatever others do in between, each move of `p` keeps
the guarantee of `r`, a returned value satisfies `Q` and an exception `X`.  The
guarantee is checked at every single move, so it also holds of a program that
is killed on the way.

The moves made so far are an argument of the guarantee and of the
postconditions.  A property such as "the last answer to this call was clear"
is therefore a property of the logic's own state.

There are three groups.

* The rules: one call, sequencing, weakening, an exception handler.
* `Safe.of_calls`, for a program whose calls all keep one property.  It needs
  the calls of the program only, not its shape.
* `Safe.run` and `Safe.guar`, which carry `Safe` to the runs of the program.
-/

namespace Effects

variable {S : Sig} {W : Type} {ε ε' α β : Type}

/-- What a program may assume and what it has to keep.  `perform` is what a
call may answer and change, `rely` is what others may do between two calls,
and `guar` is what each move has to satisfy after the moves before it. -/
structure Rules (S : Sig) (W : Type) where
  perform : W → (c : S.Call) → S.Ans c → W → Prop
  rely : W → W → Prop
  guar : List (Move S W) → Move S W → Prop
  rely_refl : ∀ w, rely w w
  rely_trans : ∀ {u v w}, rely u v → rely v w → rely u w

/-- From `w`, after the moves `l`, every move of the program keeps the
guarantee and every end satisfies its postcondition. -/
def Safe (r : Rules S W) (Q : α → List (Move S W) → W → Prop)
    (X : ε → List (Move S W) → W → Prop) : Prog S ε α → List (Move S W) → W → Prop
  | .ret a, l, w => ∀ w', r.rely w w' → Q a l w'
  | .raise x, l, w => ∀ w', r.rely w w' → X x l w'
  | .call c k, l, w => ∀ w₁, r.rely w w₁ → ∀ a w₂, r.perform w₁ c a w₂ →
      r.guar l ⟨w₁, c, a, w₂⟩ ∧ Safe r Q X (k a) (⟨w₁, c, a, w₂⟩ :: l) w₂

namespace Safe

variable {r : Rules S W} {Q Q' : α → List (Move S W) → W → Prop}
  {X X' : ε → List (Move S W) → W → Prop} {p : Prog S ε α} {l : List (Move S W)} {w w' : W}

/-- `Safe` survives what others may do. -/
theorem rely (h : Safe r Q X p l w) (hw : r.rely w w') : Safe r Q X p l w' := by
  cases p with
  | ret a => exact fun v hv => h v (r.rely_trans hw hv)
  | raise x => exact fun v hv => h v (r.rely_trans hw hv)
  | call c k => exact fun v hv => h v (r.rely_trans hw hv)

theorem of_ret {a : α} (h : Safe r Q X (.ret a) l w) : Q a l w :=
  h w (r.rely_refl w)

theorem of_raise {x : ε} (h : Safe r Q X (.raise x) l w) : X x l w :=
  h w (r.rely_refl w)

theorem mono (hQ : ∀ a l w, Q a l w → Q' a l w) (hX : ∀ x l w, X x l w → X' x l w)
    (h : Safe r Q X p l w) : Safe r Q' X' p l w := by
  induction p generalizing l w with
  | ret a => exact fun v hv => hQ _ _ _ (h v hv)
  | raise x => exact fun v hv => hX _ _ _ (h v hv)
  | call c k ih => exact fun v hv a u hu => ⟨(h v hv a u hu).1, ih a (h v hv a u hu).2⟩

/-- Weaken the postcondition of a return only. -/
theorem imp (hQ : ∀ a l w, Q a l w → Q' a l w) (h : Safe r Q X p l w) : Safe r Q' X p l w :=
  h.mono hQ fun _ _ _ hx => hx

/-- Sequencing: what the first program returns with starts the second. -/
theorem bind {Q : β → List (Move S W) → W → Prop} {f : α → Prog S ε β}
    (h : Safe r (fun a l w => Safe r Q X (f a) l w) X p l w) : Safe r Q X (p >>= f) l w := by
  induction p generalizing l w with
  | ret a => exact h w (r.rely_refl w)
  | raise x => exact h
  | call c k ih => exact fun v hv a u hu => ⟨(h v hv a u hu).1, ih a (h v hv a u hu).2⟩

/-- Sequencing with the postcondition of the first program as its own lemma. -/
theorem seq {R : α → List (Move S W) → W → Prop} {Q : β → List (Move S W) → W → Prop}
    {f : α → Prog S ε β} (h : Safe r R X p l w)
    (hf : ∀ a l w, R a l w → Safe r Q X (f a) l w) : Safe r Q X (p >>= f) l w :=
  bind (h.imp hf)

/-- One call followed by the rest of the program. -/
theorem ask {c : S.Call} {k : S.Ans c → Prog S ε α}
    (h : ∀ w₁, r.rely w w₁ → ∀ a w₂, r.perform w₁ c a w₂ →
      r.guar l ⟨w₁, c, a, w₂⟩ ∧ Safe r Q X (k a) (⟨w₁, c, a, w₂⟩ :: l) w₂) :
    Safe r Q X (Prog.ask c >>= k) l w :=
  h

/-- An exception handler sees the exception as a value. -/
theorem attempt {Q : Except ε α → List (Move S W) → W → Prop}
    {X : ε' → List (Move S W) → W → Prop}
    (h : Safe r (fun a => Q (.ok a)) (fun x => Q (.error x)) p l w) :
    Safe r Q X (p.attempt : Prog S ε' _) l w := by
  induction p generalizing l w with
  | ret a => exact h
  | raise x => exact h
  | call c k ih => exact fun v hv a u hu => ⟨(h v hv a u hu).1, ih a (h v hv a u hu).2⟩

/-- The postconditions survive what others may do. -/
theorem closed (h : Safe r Q X p l w) :
    Safe r (fun a l w => ∀ w', r.rely w w' → Q a l w')
      (fun x l w => ∀ w', r.rely w w' → X x l w') p l w := by
  induction p generalizing l w with
  | ret a => exact fun v hv u hu => h u (r.rely_trans hv hu)
  | raise x => exact fun v hv u hu => h u (r.rely_trans hv hu)
  | call c k ih => exact fun v hv a u hu => ⟨(h v hv a u hu).1, ih a (h v hv a u hu).2⟩

/-- An exception handler and the rest of the program, by the way the handled
program ends. -/
theorem attempt_bind {Q : β → List (Move S W) → W → Prop}
    {X : ε' → List (Move S W) → W → Prop} {f : Except ε α → Prog S ε' β}
    (h : Safe r (fun a l w => Safe r Q X (f (.ok a)) l w)
      (fun x l w => Safe r Q X (f (.error x)) l w) p l w) :
    Safe r Q X (p.attempt >>= f) l w :=
  bind (attempt h)

/-- A program whose calls all keep the property `P` keeps it to its end. -/
theorem of_calls {D : S.Call → Prop} {P : List (Move S W) → W → Prop}
    (hrely : ∀ l w w', P l w → r.rely w w' → P l w')
    (hstep : ∀ l w c a w', D c → P l w → r.perform w c a w' →
      r.guar l ⟨w, c, a, w'⟩ ∧ P (⟨w, c, a, w'⟩ :: l) w')
    (hp : p.Calls D) (h : P l w) :
    Safe r (fun _ => P) (fun _ => P) p l w := by
  induction p generalizing l w with
  | ret a => exact fun v hv => hrely _ _ _ h hv
  | raise x => exact fun v hv => hrely _ _ _ h hv
  | call c k ih =>
    intro v hv a u hu
    have hPv := hrely _ _ _ h hv
    obtain ⟨hg, hP⟩ := hstep _ _ _ _ _ hp.1 hPv hu
    exact ⟨hg, ih a (hp.2 a) hP⟩

/-- The same for a program that never returns: it keeps `P` up to its
exception. -/
theorem of_leaves {D : S.Call → Prop} {P : List (Move S W) → W → Prop}
    (hrely : ∀ l w w', P l w → r.rely w w' → P l w')
    (hstep : ∀ l w c a w', D c → P l w → r.perform w c a w' →
      r.guar l ⟨w, c, a, w'⟩ ∧ P (⟨w, c, a, w'⟩ :: l) w')
    (hp : p.Leaves D) (h : P l w) :
    Safe r Q (fun _ => P) p l w := by
  induction p generalizing l w with
  | ret a => exact hp.elim
  | raise x => exact fun v hv => hrely _ _ _ h hv
  | call c k ih =>
    intro v hv a u hu
    have hPv := hrely _ _ _ h hv
    obtain ⟨hg, hP⟩ := hstep _ _ _ _ _ hp.1 hPv hu
    exact ⟨hg, ih a (hp.2 a) hP⟩

/-- A guarantee may be weakened, a rely relation and the calls' effects
strengthened. -/
theorem weaken {r' : Rules S W} (hperform : ∀ w c a w', r'.perform w c a w' → r.perform w c a w')
    (hrely : ∀ w w', r'.rely w w' → r.rely w w') (hguar : ∀ l m, r.guar l m → r'.guar l m)
    (h : Safe r Q X p l w) : Safe r' Q X p l w := by
  induction p generalizing l w with
  | ret a => exact fun v hv => h v (hrely _ _ hv)
  | raise x => exact fun v hv => h v (hrely _ _ hv)
  | call c k ih =>
    intro v hv a u hu
    obtain ⟨hg, hs⟩ := h v (hrely _ _ hv) a u (hperform _ _ _ _ hu)
    exact ⟨hguar _ _ hg, ih a hs⟩

/-! ## Runs -/

/-- What is left of a safe program after a run is safe. -/
theorem run {l₀ : List (Move S W)} {p' : Prog S ε α} (h : Safe r Q X p l₀ w)
    (hr : Run r.perform r.rely p w l p' w') : Safe r Q X p' (l ++ l₀) w' := by
  induction hr with
  | start => exact h
  | step _ hrely hperform ih => exact (ih _ hrely _ _ hperform).2

/-- Every move of a run of a safe program keeps the guarantee. -/
theorem guar {l₀ : List (Move S W)} {m : Move S W} {p' : Prog S ε α}
    (h : Safe r Q X p l₀ w) (hr : Run r.perform r.rely p w (m :: l) p' w') :
    r.guar (l ++ l₀) m := by
  cases hr with
  | step hr hrely hperform => exact (h.run hr _ hrely _ _ hperform).1

end Safe

end Effects
