import Mathlib.Data.List.Infix
import Mathlib.Logic.Relation

/-!
# Programs that call their surroundings

A program is a tree.  An inner node is one call to the surroundings with a
continuation for every answer, and a leaf is a returned value or a raised
exception.  The surroundings are not fixed: a `Sig` names the calls and the
type of each answer, and a relation says which answers they may give.

There are four groups.

* `Prog` and its monad, with `attempt` for an exception handler.
* `Prog.lift`, which reads a program over a small signature as a program over
  a larger one.
* `Prog.Calls`, the calls a program can make at all.
* `Move` and `Run`: one call with the states around it, and a run of a program
  up to any point.  The rest of the program after the run is part of `Run`, so
  a run that stops early is a program that was killed there.
-/

namespace Effects

/-- What a program may call, and the type of the answer to each call. -/
structure Sig where
  Call : Type
  Ans : Call → Type

/-- A program over the calls of `S`.  It returns an `α` or raises an `ε`. -/
inductive Prog (S : Sig) (ε α : Type) where
  | ret (a : α)
  | raise (x : ε)
  | call (c : S.Call) (k : S.Ans c → Prog S ε α)

namespace Prog

variable {S T : Sig} {ε ε' α β γ : Type}

/-- Sequencing.  An exception skips the continuation. -/
def bind : Prog S ε α → (α → Prog S ε β) → Prog S ε β
  | ret a, f => f a
  | raise x, _ => raise x
  | call c k, f => call c fun b => (k b).bind f

instance : Monad (Prog S ε) where
  pure := ret
  bind := bind

/-- The program that makes one call and returns its answer. -/
def ask (c : S.Call) : Prog S ε (S.Ans c) :=
  call c ret

/-- Run a program and reify its exception as a value.  A handler is a match
on the result. -/
def attempt : Prog S ε α → Prog S ε' (Except ε α)
  | ret a => ret (.ok a)
  | raise x => ret (.error x)
  | call c k => call c fun b => (k b).attempt

/-- The value of a reified result, raising the exception again. -/
def ofExcept : Except ε α → Prog S ε α
  | .ok a => ret a
  | .error x => raise x

/-- Read a program over `S` as a program over `T`: `f` places its calls, `g`
reads the answers back and `e` places its exceptions. -/
def lift (f : S.Call → T.Call) (g : ∀ c, T.Ans (f c) → S.Ans c) (e : ε → ε') :
    Prog S ε α → Prog T ε' α
  | ret a => ret a
  | raise x => raise (e x)
  | call c k => call (f c) fun b => (k (g c b)).lift f g e

/-- Whether the program has come to its end, by a return or an exception. -/
def finished : Prog S ε α → Bool
  | ret _ => true
  | raise _ => true
  | call _ _ => false

/-- The value of a program that has returned. -/
def returned : Prog S ε α → Option α
  | ret a => some a
  | _ => none

theorem eq_ret_of_returned {p : Prog S ε α} {a : α} (h : p.returned = some a) : p = ret a := by
  cases p with
  | ret b => rw [Option.some.inj h]
  | raise x => simp [returned] at h
  | call c k => simp [returned] at h

/-! ## Unfolding the monad -/

@[simp] theorem pure_eq (a : α) : (pure a : Prog S ε α) = ret a := rfl

@[simp] theorem ret_bind (a : α) (f : α → Prog S ε β) : (ret a >>= f) = f a := rfl

@[simp] theorem raise_bind (x : ε) (f : α → Prog S ε β) : (raise x >>= f) = raise x := rfl

@[simp] theorem call_bind (c : S.Call) (k : S.Ans c → Prog S ε α) (f : α → Prog S ε β) :
    (call c k >>= f) = call c fun b => k b >>= f := rfl

@[simp] theorem ask_bind (c : S.Call) (f : S.Ans c → Prog S ε β) :
    (ask c >>= f) = call c f := rfl

@[simp] theorem attempt_ret (a : α) : ((ret a : Prog S ε α).attempt : Prog S ε' _) = ret (.ok a) := rfl

@[simp] theorem attempt_raise (x : ε) :
    ((raise x : Prog S ε α).attempt : Prog S ε' _) = ret (.error x) := rfl

@[simp] theorem attempt_call (c : S.Call) (k : S.Ans c → Prog S ε α) :
    ((call c k).attempt : Prog S ε' _) = call c fun b => (k b).attempt := rfl

@[simp] theorem lift_ret (f : S.Call → T.Call) (g : ∀ c, T.Ans (f c) → S.Ans c) (e : ε → ε')
    (a : α) : (ret a : Prog S ε α).lift f g e = ret a := rfl

@[simp] theorem lift_raise (f : S.Call → T.Call) (g : ∀ c, T.Ans (f c) → S.Ans c) (e : ε → ε')
    (x : ε) : (raise x : Prog S ε α).lift f g e = raise (e x) := rfl

@[simp] theorem lift_call (f : S.Call → T.Call) (g : ∀ c, T.Ans (f c) → S.Ans c) (e : ε → ε')
    (c : S.Call) (k : S.Ans c → Prog S ε α) :
    (call c k).lift f g e = call (f c) fun b => (k (g c b)).lift f g e := rfl

theorem bind_assoc (p : Prog S ε α) (f : α → Prog S ε β) (h : β → Prog S ε γ) :
    (p >>= f >>= h) = (p >>= fun a => f a >>= h) := by
  induction p with
  | ret a => rfl
  | raise x => rfl
  | call c k ih =>
    simp only [call_bind]
    exact congrArg _ (funext ih)

/-! ## The calls of a program -/

/-- Every call the program can make, under any answers, satisfies `D`. -/
def Calls (D : S.Call → Prop) : Prog S ε α → Prop
  | ret _ => True
  | raise _ => True
  | call c k => D c ∧ ∀ b, (k b).Calls D

variable {D D' : S.Call → Prop}

@[simp] theorem calls_ret (a : α) : (ret a : Prog S ε α).Calls D := trivial

@[simp] theorem calls_raise (x : ε) : (raise x : Prog S ε α).Calls D := trivial

@[simp] theorem calls_call (c : S.Call) (k : S.Ans c → Prog S ε α) :
    (call c k).Calls D ↔ D c ∧ ∀ b, (k b).Calls D := Iff.rfl

@[simp] theorem calls_ask (c : S.Call) : (ask c : Prog S ε _).Calls D ↔ D c :=
  ⟨And.left, fun h => ⟨h, fun _ => trivial⟩⟩

/-- A call followed by the rest of the program. -/
theorem Calls.ask {c : S.Call} {k : S.Ans c → Prog S ε α} (hc : D c) (hk : ∀ b, (k b).Calls D) :
    (Prog.ask c >>= k).Calls D :=
  ⟨hc, hk⟩

theorem Calls.bind {p : Prog S ε α} {f : α → Prog S ε β} (hp : p.Calls D)
    (hf : ∀ a, (f a).Calls D) : (p >>= f).Calls D := by
  induction p with
  | ret a => exact hf a
  | raise x => trivial
  | call c k ih => exact ⟨hp.1, fun b => ih b (hp.2 b)⟩

theorem Calls.attempt {p : Prog S ε α} (hp : p.Calls D) :
    (p.attempt : Prog S ε' _).Calls D := by
  induction p with
  | ret a => trivial
  | raise x => trivial
  | call c k ih => exact ⟨hp.1, fun b => ih b (hp.2 b)⟩

theorem Calls.ite {c : Prop} [Decidable c] {p q : Prog S ε α} (hp : p.Calls D) (hq : q.Calls D) :
    (if c then p else q).Calls D := by
  split
  · exact hp
  · exact hq

theorem Calls.ofExcept (a : Except ε α) : (Prog.ofExcept (S := S) a).Calls D := by
  cases a <;> trivial

theorem Calls.mono {p : Prog S ε α} (h : ∀ c, D c → D' c) (hp : p.Calls D) : p.Calls D' := by
  induction p with
  | ret a => trivial
  | raise x => trivial
  | call c k ih => exact ⟨h c hp.1, fun b => ih b (hp.2 b)⟩

/-- A lifted program makes the placed calls only. -/
theorem Calls.lift {f : S.Call → T.Call} {g : ∀ c, T.Ans (f c) → S.Ans c} {e : ε → ε'}
    {D : T.Call → Prop} {p : Prog S ε α} (hp : p.Calls fun c => D (f c)) :
    (p.lift f g e).Calls D := by
  induction p with
  | ret a => trivial
  | raise x => trivial
  | call c k ih => exact ⟨hp.1, fun b => ih _ (hp.2 _)⟩

theorem calls_of_forall (p : Prog S ε α) (h : ∀ c, D c) : p.Calls D := by
  induction p with
  | ret a => trivial
  | raise x => trivial
  | call c k ih => exact ⟨h c, fun b => ih b⟩

/-- A lifted program whose placed calls all satisfy `D` needs no look inside. -/
theorem calls_lift_of_forall {f : S.Call → T.Call} {g : ∀ c, T.Ans (f c) → S.Ans c}
    {e : ε → ε'} {D : T.Call → Prop} (p : Prog S ε α) (h : ∀ c, D (f c)) :
    (p.lift f g e).Calls D :=
  Calls.lift (calls_of_forall p h)

/-- Every call satisfies `D`, and the program never returns. -/
def Leaves (D : S.Call → Prop) : Prog S ε α → Prop
  | ret _ => False
  | raise _ => True
  | call c k => D c ∧ ∀ b, (k b).Leaves D

theorem Leaves.ask {c : S.Call} {k : S.Ans c → Prog S ε α} (hc : D c)
    (hk : ∀ b, (k b).Leaves D) : (Prog.ask c >>= k).Leaves D :=
  ⟨hc, hk⟩

theorem Leaves.bind {p : Prog S ε α} {f : α → Prog S ε β} (hp : p.Calls D)
    (hf : ∀ a, (f a).Leaves D) : (p >>= f).Leaves D := by
  induction p with
  | ret a => exact hf a
  | raise x => trivial
  | call c k ih => exact ⟨hp.1, fun b => ih b (hp.2 b)⟩

theorem Leaves.calls {p : Prog S ε α} (hp : p.Leaves D) : p.Calls D := by
  induction p with
  | ret a => trivial
  | raise x => trivial
  | call c k ih => exact ⟨hp.1, fun b => ih b (hp.2 b)⟩

end Prog

/-! ## Runs -/

variable {S : Sig} {W : Type} {ε α : Type}

/-- One call that was made: the state before it, the call, the answer, and the
state after it. -/
structure Move (S : Sig) (W : Type) where
  before : W
  call : S.Call
  ans : S.Ans call
  after : W

/-- The program `p`, started in `w`, made the moves `l` (newest first) and
reached the state `w'` with `p'` left to do.  `perform` says what a call may
answer and change, and `rely` what others may change between two calls. -/
inductive Run (perform : W → (c : S.Call) → S.Ans c → W → Prop) (rely : W → W → Prop)
    (p : Prog S ε α) (w : W) : List (Move S W) → Prog S ε α → W → Prop
  | start : Run perform rely p w [] p w
  | step {l : List (Move S W)} {c : S.Call} {k : S.Ans c → Prog S ε α} {a : S.Ans c}
      {w₁ w₂ w₃ : W} (h : Run perform rely p w l (.call c k) w₁) (hrely : rely w₁ w₂)
      (hperform : perform w₂ c a w₃) :
      Run perform rely p w (⟨w₂, c, a, w₃⟩ :: l) (k a) w₃

/-- A run under stronger surroundings is a run under weaker ones. -/
theorem Run.weaken {perform perform' : W → (c : S.Call) → S.Ans c → W → Prop}
    {rely rely' : W → W → Prop} {p p' : Prog S ε α} {w w' : W} {l : List (Move S W)}
    (h : Run perform rely p w l p' w') (hp : ∀ w c a w', perform w c a w' → perform' w c a w')
    (hr : ∀ w w', rely w w' → rely' w w') : Run perform' rely' p w l p' w' := by
  induction h with
  | start => exact .start
  | step _ hrely hperform ih => exact .step ih (hr _ _ hrely) (hp _ _ _ _ hperform)

/-- A run may be cut after any of its moves. -/
theorem Run.suffix {perform : W → (c : S.Call) → S.Ans c → W → Prop} {rely : W → W → Prop}
    {p p' : Prog S ε α} {w w' : W} {l l' : List (Move S W)}
    (h : Run perform rely p w l p' w') (hl : l' <:+ l) :
    ∃ p'' w'', Run perform rely p w l' p'' w'' := by
  induction h with
  | start =>
    obtain rfl := List.suffix_nil.mp hl
    exact ⟨p, w, .start⟩
  | step h hrely hperform ih =>
    rcases List.suffix_cons_iff.mp hl with rfl | hl
    · exact ⟨_, _, .step h hrely hperform⟩
    · exact ih hl

end Effects
