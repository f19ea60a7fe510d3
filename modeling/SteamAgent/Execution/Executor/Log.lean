import SteamAgent.Execution.Executor.Logic

/-!
# What the calls of an execution show

Functions of the moves that one process has made, newest first: the latest
lease gates, the latest evidence about the client, whether a policy read
permits, whether one has denied.

There are three groups.

* The functions.
* `Keeps`, and the calls that change none of them.
* `lawRules`: a guarantee about single moves, and the rules for programs under
  it.  Nothing is assumed of the answers or of anybody else.
-/

namespace SteamAgent.Execution

open Effects
open Content (FsCall)

variable {W ρ α β ε ε' : Type}

/-- The moves of one process, newest first. -/
abbrev Log (W : Type) := List (Move BrokerSig W)

/-! ## Reading the log -/

/-- The latest answer of `gates`. -/
def latestGates : Log W → Option LeaseGates
  | [] => none
  | ⟨_, .session _ .gates, .ok g, _⟩ :: _ => some g
  | _ :: l => latestGates l

/-- Whether a `stop_client` call was made. -/
def stopCalled : Log W → Bool
  | [] => false
  | ⟨_, .session _ .stopClient, _, _⟩ :: _ => true
  | _ :: l => stopCalled l

/-- The latest evidence about the client, as "possibly running": an answer of
`client_possibly_running`, or the `client_running` gate after a stop. -/
def latestPresence : Log W → Option Bool
  | [] => none
  | ⟨_, .session _ .clientPossiblyRunning, .ok running, _⟩ :: _ => some running
  | ⟨_, .session _ .gates, .ok g, _⟩ :: l =>
    if stopCalled l then some (g.clientRunning != .pass) else latestPresence l
  | _ :: l => latestPresence l

/-- Whether a `steamcmd_running` probe answered `False`. -/
def steamcmdCleared : Log W → Bool
  | [] => false
  | ⟨_, .session _ .steamcmdRunning, .ok false, _⟩ :: _ => true
  | _ :: l => steamcmdCleared l

/-- Whether a policy read permitted and no session call was made since. -/
def permitted : Log W → Bool
  | [] => false
  | ⟨_, .dispatchPolicy _, .ok none, _⟩ :: _ => true
  | ⟨_, .session _ _, _, _⟩ :: _ => false
  | _ :: l => permitted l

/-- Whether a policy read denied or failed. -/
def revoked : Log W → Bool
  | [] => false
  | ⟨_, .dispatchPolicy _, .ok none, _⟩ :: l => revoked l
  | ⟨_, .dispatchPolicy _, _, _⟩ :: _ => true
  | _ :: l => revoked l

/-! ## Calls that show nothing -/

/-- The log shows the same as before. -/
structure Keeps (l l' : Log W) : Prop where
  gates : latestGates l' = latestGates l
  stop : stopCalled l' = stopCalled l
  presence : latestPresence l' = latestPresence l
  cleared : steamcmdCleared l' = steamcmdCleared l
  permitted : permitted l' = permitted l
  revoked : revoked l' = revoked l

/-- The calls that are neither a session call nor a policy read. -/
def Call.silent : Call → Bool
  | .session .. => false
  | .dispatchPolicy _ => false
  | _ => true

theorem keeps_silent {m : Move BrokerSig W} (h : m.call.silent = true) (l : Log W) :
    Keeps l (m :: l) := by
  obtain ⟨w, c, a, w'⟩ := m
  cases c with
  | session id c => simp [Call.silent] at h
  | dispatchPolicy operation => simp [Call.silent] at h
  | _ => exact ⟨rfl, rfl, rfl, rfl, rfl, rfl⟩

/-! ## Guarantees about single moves -/

/-- The rules of a program that keeps `law` at each move, whatever it is
answered and whatever anybody else does. -/
def lawRules (law : Log W → Move BrokerSig W → Prop) : Rules BrokerSig W where
  perform _ _ _ _ := True
  rely _ _ := True
  guar := law
  rely_refl _ := trivial
  rely_trans _ _ := trivial

/-- After the moves `l`, every move of the program keeps `law`, and its ends
satisfy `Q` and `X`. -/
def Lawful (law : Log W → Move BrokerSig W → Prop) (Q : α → Log W → Prop) (X : ε → Log W → Prop)
    (p : Prog BrokerSig ε α) (l : Log W) : Prop :=
  ∀ w, Safe (lawRules law) (fun a l _ => Q a l) (fun x l _ => X x l) p l w

namespace Lawful

variable {law : Log W → Move BrokerSig W → Prop} {Q Q' : α → Log W → Prop}
  {X X' : ε → Log W → Prop} {p : Prog BrokerSig ε α} {l : Log W}

theorem ret {a : α} (h : Q a l) : Lawful law Q X (.ret a) l :=
  fun _ _ _ => h

theorem raise {x : ε} (h : X x l) : Lawful law Q X (.raise x) l :=
  fun _ _ _ => h

theorem mono (hQ : ∀ a l, Q a l → Q' a l) (hX : ∀ x l, X x l → X' x l) (h : Lawful law Q X p l) :
    Lawful law Q' X' p l :=
  fun w => (h w).mono (fun a l _ => hQ a l) fun x l _ => hX x l

theorem bind {Q : β → Log W → Prop} {f : α → Prog BrokerSig ε β}
    (h : Lawful law (fun a l => Lawful law Q X (f a) l) X p l) : Lawful law Q X (p >>= f) l :=
  fun w => Safe.bind ((h w).imp fun _ _ w hf => hf w)

/-- Sequencing with the postcondition of the first program as its own lemma. -/
theorem seq {R : α → Log W → Prop} {Q : β → Log W → Prop} {f : α → Prog BrokerSig ε β}
    (h : Lawful law R X p l) (hf : ∀ a l, R a l → Lawful law Q X (f a) l) :
    Lawful law Q X (p >>= f) l :=
  bind (h.mono hf fun _ _ hx => hx)

/-- Sequencing after a program without a claim about its exceptions. -/
theorem seq' {R : α → Log W → Prop} {Q : β → Log W → Prop} {f : α → Prog BrokerSig ε β}
    (h : Lawful law R X' p l) (hf : ∀ a l, R a l → Lawful law Q (fun _ _ => True) (f a) l) :
    Lawful law Q (fun _ _ => True) (p >>= f) l :=
  bind (h.mono hf fun _ _ _ => trivial)

/-- A handler and the rest, by the way the handled program ends. -/
theorem attempt_bind {Q : β → Log W → Prop} {X : ε' → Log W → Prop}
    {f : Except ε α → Prog BrokerSig ε' β}
    (h : Lawful law (fun a l => Lawful law Q X (f (.ok a)) l)
      (fun x l => Lawful law Q X (f (.error x)) l) p l) :
    Lawful law Q X (p.attempt >>= f) l :=
  fun w => Safe.attempt_bind ((h w).mono (fun _ _ w hf => hf w) fun _ _ w hf => hf w)

/-- One call. -/
theorem ask {c : Call} {k : Call.Ans c → Prog BrokerSig ε α}
    (hlaw : ∀ w a w', law l ⟨w, c, a, w'⟩)
    (h : ∀ w a w', Lawful law Q X (k a) (⟨w, c, a, w'⟩ :: l)) :
    Lawful law Q X (Prog.ask (S := BrokerSig) c >>= k) l :=
  fun _ w₁ _ a w₂ _ => ⟨hlaw w₁ a w₂, h w₁ a w₂ w₂⟩

theorem ite {c : Prop} [Decidable c] {q : Prog BrokerSig ε α} (hp : c → Lawful law Q X p l)
    (hq : ¬c → Lawful law Q X q l) : Lawful law Q X (if c then p else q) l := by
  split
  · exact hp ‹_›
  · exact hq ‹_›

/-- A program whose calls all keep the property `P`. -/
theorem of_calls {D : Call → Prop} {P : Log W → Prop}
    (hstep : ∀ l m, D m.call → P l → law l m ∧ P (m :: l)) (hp : p.Calls D) (h : P l) :
    Lawful law (fun _ => P) (fun _ => P) p l :=
  fun _ => Safe.of_calls (P := fun l _ => P l) (fun _ _ _ hl _ => hl)
    (fun l w c a w' hD hP _ => hstep l ⟨w, c, a, w'⟩ hD hP) hp h

/-- A program whose calls never concern the law. -/
theorem of_free {D : Call → Prop} (hD : ∀ l m, D m.call → law l m) (hp : p.Calls D) :
    Lawful law (fun _ _ => True) (fun _ _ => True) p l :=
  of_calls (P := fun _ => True) (fun l m hm _ => ⟨hD l m hm, trivial⟩) hp trivial

/-- The same for a program that never returns. -/
theorem of_leaves {D : Call → Prop} (hD : ∀ l m, D m.call → law l m) (hp : p.Leaves D) :
    Lawful law Q (fun _ _ => True) p l :=
  fun _ => Safe.of_leaves (P := fun _ _ => True) (fun _ _ _ _ _ => trivial)
    (fun l w c a w' hm _ _ => ⟨hD l ⟨w, c, a, w'⟩ hm, trivial⟩) hp trivial

theorem finish {X : Halt ρ → Log W → Prop} {result : ρ} (h : X (.done result) l) :
    Lawful law Q X (finish result) l :=
  raise h

theorem orRaise {X : Halt ρ → Log W → Prop} {a : Except Exn α} (hQ : ∀ b, a = .ok b → Q b l)
    (hX : ∀ x, X (.exn x) l) : Lawful law Q X (orRaise a) l := by
  cases a with
  | ok b => exact ret (hQ b rfl)
  | error x => exact raise (hX x)

theorem handling {X Y : Halt ρ → Log W → Prop} {p : Body ρ α} {catches : Exn → Bool}
    {handler : Exn → Body ρ α} (h : Lawful law Q Y p l)
    (hpass : ∀ halt l, Y halt l → X halt l)
    (hcatch : ∀ x l, catches x = true → Y (.exn x) l → Lawful law Q X (handler x) l) :
    Lawful law Q X (handling p catches handler) l :=
  fun w => Safe.handling (h w) (fun _ l _ => hpass _ l) (fun _ l _ _ => hpass _ l)
    fun x l w hc hy => hcatch x l hc hy w

theorem leave {Q : ρ → Log W → Prop} {X : Exn → Log W → Prop} {Y : Halt ρ → Log W → Prop}
    {p : Body ρ ρ} (h : Lawful law Q Y p l) (hdone : ∀ result l, Y (.done result) l → Q result l)
    (hexn : ∀ x l, Y (.exn x) l → X x l) : Lawful law Q X (leave p) l :=
  fun w => Safe.leave (h w) (fun _ l _ => hdone _ l) fun _ l _ => hexn _ l

/-- The moves of a run keep the law. -/
theorem run {perform : W → (c : Call) → Call.Ans c → W → Prop} {rely : W → W → Prop} {w w' : W}
    {p' : Prog BrokerSig ε α} {m : Move BrokerSig W} (h : Lawful law Q X p [])
    (hr : Run perform rely p w (m :: l) p' w') : law l m := by
  have hlaw := (h w).guar (hr.weaken (fun _ _ _ _ _ => trivial) fun _ _ _ => trivial)
  rwa [List.append_nil] at hlaw

end Lawful

end SteamAgent.Execution
