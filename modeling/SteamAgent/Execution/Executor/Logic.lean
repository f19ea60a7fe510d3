import SteamAgent.Execution.Executor.Broker

/-!
# Rules for the bodies of the executor

The rules of the program logic for the combinators of `Body`: an early return,
a handler, the end of a method, and the execution lock.  They hold for any
rules of the surroundings.
-/

namespace SteamAgent.Execution

open Effects

variable {W ρ α : Type} {r : Rules BrokerSig W} {l : List (Move BrokerSig W)} {w : W}

/-- A handler sees the exceptions it names.  Everything else passes through. -/
theorem Safe.handling {Q : α → List (Move BrokerSig W) → W → Prop}
    {X Y : Halt ρ → List (Move BrokerSig W) → W → Prop} {p : Body ρ α} {catches : Exn → Bool}
    {handler : Exn → Body ρ α} (h : Safe r Q Y p l w)
    (hdone : ∀ result l w, Y (.done result) l w → X (.done result) l w)
    (hpass : ∀ x l w, catches x = false → Y (.exn x) l w → X (.exn x) l w)
    (hcatch : ∀ x l w, catches x = true → Y (.exn x) l w → Safe r Q X (handler x) l w) :
    Safe r Q X (handling p catches handler) l w := by
  refine Safe.attempt_bind (h.closed.mono (fun a l w hq => hq) ?_)
  rintro (result | x) l w hy
  · exact fun w' hw => hdone _ _ _ (hy w' hw)
  · by_cases hc : catches x = true
    · simpa only [hc, if_true] using hcatch x l w hc (hy w (r.rely_refl w))
    · simp only [hc, Bool.false_eq_true, if_false]
      exact fun w' hw => hpass _ _ _ (by simpa using hc) (hy w' hw)

/-- The end of a method. -/
theorem Safe.leave {Q : ρ → List (Move BrokerSig W) → W → Prop}
    {X : Exn → List (Move BrokerSig W) → W → Prop}
    {Y : Halt ρ → List (Move BrokerSig W) → W → Prop} {p : Body ρ ρ} (h : Safe r Q Y p l w)
    (hdone : ∀ result l w, Y (.done result) l w → Q result l w)
    (hexn : ∀ x l w, Y (.exn x) l w → X x l w) : Safe r Q X (leave p) l w := by
  refine Safe.attempt_bind (h.closed.mono (fun a l w hq => hq) ?_)
  rintro (result | x) l w hy
  · exact fun w' hw => hdone _ _ _ (hy w' hw)
  · exact fun w' hw => hexn _ _ _ (hy w' hw)

end SteamAgent.Execution
