import SteamAgent.Effects.Safe

/-!
# Interleaved processes

A `System` is a shared world and a list of processes.  A process is the
program it still has to run and the moves it has made.  A step of the system
starts a process, performs the next call of some process, kills a process at
whatever point it has reached, or lets the world drift.  Processes are never
removed from the list, so the moves of a dead process stay on record.

There are three groups.

* The steps of a system and `Reach`.
* `Discipline`: the proof obligations of the rely-guarantee rule for parallel
  processes.  `Discipline.reach` is the rule: what the processes guarantee one
  by one holds in every state of every interleaving.
* `System.moves`: a scheduler that runs one process against an oracle.  It
  computes, so a run on concrete inputs can be evaluated.
-/

namespace Effects

variable {S : Sig} {W ε α : Type}

/-- One process: what it still has to run, the moves it made (newest first),
and whether it was killed. -/
structure Proc (S : Sig) (W ε α : Type) where
  prog : Prog S ε α
  log : List (Move S W)
  killed : Bool

/-- Whether the process can still move. -/
def Proc.alive (p : Proc S W ε α) : Bool :=
  !p.killed && !p.prog.finished

/-- A world shared by the processes.  A process is named by its position. -/
structure System (S : Sig) (W ε α : Type) where
  world : W
  procs : List (Proc S W ε α)

/-- The dynamics of a system.  `perform i` is what a call of process `i` may
answer and change, `mayStart` which programs may be started, `drift` what the
world does on its own, and `onKill i` what the operating system undoes when
process `i` dies. -/
structure Dynamics (S : Sig) (W ε α : Type) where
  perform : Nat → W → (c : S.Call) → S.Ans c → W → Prop
  mayStart : System S W ε α → Prog S ε α → Prop
  drift : System S W ε α → W → Prop
  onKill : Nat → W → W

namespace System

/-- Start one more process. -/
def start (s : System S W ε α) (p : Prog S ε α) : System S W ε α :=
  ⟨s.world, s.procs ++ [⟨p, [], false⟩]⟩

inductive Step (d : Dynamics S W ε α) : System S W ε α → System S W ε α → Prop
  | start {s : System S W ε α} {p : Prog S ε α} (h : d.mayStart s p) : Step d s (s.start p)
  | move {s : System S W ε α} {i : Nat} {c : S.Call} {k : S.Ans c → Prog S ε α}
      {l : List (Move S W)} {a : S.Ans c} {w' : W}
      (hi : s.procs[i]? = some ⟨.call c k, l, false⟩) (h : d.perform i s.world c a w') :
      Step d s ⟨w', s.procs.set i ⟨k a, ⟨s.world, c, a, w'⟩ :: l, false⟩⟩
  | kill {s : System S W ε α} {i : Nat} {p : Prog S ε α} {l : List (Move S W)}
      (hi : s.procs[i]? = some ⟨p, l, false⟩) (hp : p.finished = false) :
      Step d s ⟨d.onKill i s.world, s.procs.set i ⟨p, l, true⟩⟩
  | drift {s : System S W ε α} {w' : W} (h : d.drift s w') : Step d s ⟨w', s.procs⟩

/-- The systems reachable from `s`. -/
def Reach (d : Dynamics S W ε α) : System S W ε α → System S W ε α → Prop :=
  Relation.ReflTransGen (Step d)

/-- All moves made by anyone. -/
def allMoves (s : System S W ε α) : List (Move S W) :=
  s.procs.flatMap Proc.log

/-- Process `i` made the move. -/
def Made (s : System S W ε α) (i : Nat) (m : Move S W) : Prop :=
  ∃ p, s.procs[i]? = some p ∧ m ∈ p.log

end System

/-! ## All moves of a system -/

namespace System

variable {d : Dynamics S W ε α}

private theorem flatMap_set {procs : List (Proc S W ε α)} {i : Nat} {p q : Proc S W ε α}
    (hi : procs[i]? = some p) :
    (procs.set i q).flatMap Proc.log
        = (procs.take i).flatMap Proc.log ++ (q.log ++ (procs.drop (i + 1)).flatMap Proc.log) ∧
      procs.flatMap Proc.log
        = (procs.take i).flatMap Proc.log ++ (p.log ++ (procs.drop (i + 1)).flatMap Proc.log) := by
  obtain ⟨hlt, hp⟩ := List.getElem?_eq_some_iff.mp hi
  have hprocs : procs = procs.take i ++ p :: procs.drop (i + 1) := by
    rw [← hp, List.getElem_cons_drop, List.take_append_drop]
  constructor
  · rw [List.set_eq_take_append_cons_drop, if_pos hlt, List.flatMap_append, List.flatMap_cons]
  · conv_lhs => rw [hprocs]
    rw [List.flatMap_append, List.flatMap_cons]

/-- A step adds one move, made in the state before it, or none. -/
theorem Step.allMoves {s s' : System S W ε α} (h : Step d s s') :
    s'.allMoves = s.allMoves ∧
        (s'.world = s.world ∨ (∃ i, s'.world = d.onKill i s.world) ∨ d.drift s s'.world) ∨
      ∃ i p m, s.procs[i]? = some p ∧ s'.allMoves.Perm (m :: s.allMoves) ∧
        m.before = s.world ∧ m.after = s'.world ∧
        d.perform i m.before m.call m.ans m.after ∧
        ∃ k, p = ⟨.call m.call k, p.log, false⟩ ∧
          s'.procs = s.procs.set i ⟨k m.ans, m :: p.log, false⟩ := by
  cases h with
  | start _ => exact Or.inl ⟨by simp [System.allMoves, System.start], Or.inl rfl⟩
  | @move i c k l a w' hi hm =>
    refine Or.inr ⟨i, _, ⟨s.world, c, a, w'⟩, hi, ?_, rfl, rfl, hm, k, rfl, rfl⟩
    obtain ⟨hset, hold⟩ := flatMap_set (q := ⟨k a, ⟨s.world, c, a, w'⟩ :: l, false⟩) hi
    rw [System.allMoves, System.allMoves, hset, hold, List.cons_append]
    exact List.perm_middle
  | @kill i p l hi hp =>
    obtain ⟨hset, hold⟩ := flatMap_set (q := ⟨p, l, true⟩) hi
    exact Or.inl ⟨by rw [System.allMoves, System.allMoves, hset, hold], Or.inr (Or.inl ⟨i, rfl⟩)⟩
  | drift hd => exact Or.inl ⟨rfl, Or.inr (Or.inr hd)⟩

theorem mem_allMoves {s : System S W ε α} {m : Move S W} :
    m ∈ s.allMoves ↔ ∃ i, s.Made i m := by
  constructor
  · intro h
    obtain ⟨p, hp, hm⟩ := List.mem_flatMap.mp h
    obtain ⟨i, hi⟩ := List.getElem?_of_mem hp
    exact ⟨i, p, hi, hm⟩
  · rintro ⟨i, p, hi, hm⟩
    exact List.mem_flatMap.mpr ⟨p, List.mem_of_getElem? hi, hm⟩

/-- A move on record after a step was on record before it, or was made by it. -/
theorem Step.made {s s' : System S W ε α} (h : Step d s s') {i : Nat} {m : Move S W}
    (hm : s'.Made i m) : s.Made i m ∨ m.before = s.world ∧ m.after = s'.world := by
  obtain ⟨p', hi, hm⟩ := hm
  have hset : ∀ {j : Nat} {q q' : Proc S W ε α}, s.procs[j]? = some q →
      (s.procs.set j q')[i]? = some p' → i ≠ j ∧ s.procs[i]? = some p' ∨ i = j ∧ p' = q' := by
    intro j q q' hj hi
    by_cases hij : j = i
    · subst hij
      rw [List.getElem?_set_self (List.getElem?_eq_some_iff.mp hj).1] at hi
      exact Or.inr ⟨rfl, (Option.some.inj hi).symm⟩
    · rw [List.getElem?_set_ne hij] at hi
      exact Or.inl ⟨fun he => hij he.symm, hi⟩
  cases h with
  | start _ =>
    refine Or.inl ⟨p', ?_, hm⟩
    simp only [System.start, List.getElem?_append] at hi
    split at hi
    · exact hi
    · rw [List.getElem?_singleton] at hi
      split at hi
      · obtain rfl := Option.some.inj hi
        simp at hm
      · simp at hi
  | move hj _ =>
    rcases hset hj hi with ⟨_, hi⟩ | ⟨rfl, rfl⟩
    · exact Or.inl ⟨p', hi, hm⟩
    · rcases List.mem_cons.mp hm with rfl | hm
      · exact Or.inr ⟨rfl, rfl⟩
      · exact Or.inl ⟨_, hj, hm⟩
  | kill hj _ =>
    rcases hset hj hi with ⟨_, hi⟩ | ⟨rfl, rfl⟩
    · exact Or.inl ⟨p', hi, hm⟩
    · exact Or.inl ⟨_, hj, hm⟩
  | drift _ => exact Or.inl ⟨p', hi, hm⟩

/-- A property of the world that every move on record keeps, under a condition on
the moves, holds along every run whose moves all meet the condition. -/
theorem Reach.world_inv (Inv : W → Prop) (meets : Move S W → Prop)
    (hmove : ∀ i m, Inv m.before → d.perform i m.before m.call m.ans m.after → meets m →
      Inv m.after)
    (hdrift : ∀ (s : System S W ε α) w', Inv s.world → d.drift s w' → Inv w')
    (hkill : ∀ i w, Inv w → Inv (d.onKill i w))
    {s s' : System S W ε α} (h : Reach d s s') (hs : Inv s.world)
    (hmeets : ∀ m ∈ s'.allMoves, meets m) : Inv s'.world := by
  induction h with
  | refl => exact hs
  | @tail s₁ s₂ _ hstep ih =>
    rcases hstep.allMoves with ⟨hsame, hworld⟩ | ⟨i, p, m, _, hperm, hbefore, hafter, hp, _⟩
    · have hinv := ih fun m hm => hmeets m (hsame ▸ hm)
      rcases hworld with hw | ⟨i, hw⟩ | hd
      · rw [hw]
        exact hinv
      · rw [hw]
        exact hkill i _ hinv
      · exact hdrift _ _ hinv hd
    · have hinv := ih fun m' hm' => hmeets m' (hperm.mem_iff.mpr (List.mem_cons_of_mem _ hm'))
      rw [← hafter]
      rw [← hbefore] at hinv
      exact hmove i m hinv hp (hmeets m (hperm.mem_iff.mpr List.mem_cons_self))

private theorem countP_flatMap_le_one {q : Move S W → Bool} {procs : List (Proc S W ε α)}
    (hone : ∀ p ∈ procs, p.log.countP q ≤ 1)
    (hsame : procs.Pairwise fun p p' => p.log.countP q = 0 ∨ p'.log.countP q = 0) :
    (procs.flatMap Proc.log).countP q ≤ 1 := by
  induction procs with
  | nil => simp
  | cons p rest ih =>
    rw [List.flatMap_cons, List.countP_append]
    obtain ⟨hp, hrest⟩ := List.forall_mem_cons.mp hone
    obtain ⟨hhead, htail⟩ := List.pairwise_cons.mp hsame
    by_cases h0 : p.log.countP q = 0
    · rw [h0, Nat.zero_add]
      exact ih hrest htail
    · have hzero : (rest.flatMap Proc.log).countP q = 0 := by
        refine List.countP_eq_zero.mpr fun m hm => ?_
        obtain ⟨p', hp', hm⟩ := List.mem_flatMap.mp hm
        exact List.countP_eq_zero.mp ((hhead p' hp').resolve_left h0) m hm
      omega

/-- At most one move of a kind, when no process makes two and no two processes
make one. -/
theorem countP_allMoves_le_one {q : Move S W → Bool} {s : System S W ε α}
    (hone : ∀ p ∈ s.procs, p.log.countP q ≤ 1)
    (hsame : ∀ i j m m', s.Made i m → s.Made j m' → q m = true → q m' = true → i = j) :
    s.allMoves.countP q ≤ 1 := by
  refine countP_flatMap_le_one hone (List.pairwise_iff_getElem.mpr fun i j hi hj hij => ?_)
  by_contra hne
  obtain ⟨h, h'⟩ := not_or.mp hne
  obtain ⟨m, hm, hq⟩ := List.countP_pos_iff.mp (Nat.pos_of_ne_zero h)
  obtain ⟨m', hm', hq'⟩ := List.countP_pos_iff.mp (Nat.pos_of_ne_zero h')
  have heq := hsame i j m m' ⟨_, List.getElem?_eq_getElem hi, hm⟩
    ⟨_, List.getElem?_eq_getElem hj, hm'⟩ hq hq'
  omega

end System

/-! ## The rule for parallel processes -/

/-- The obligations under which the guarantees of the processes, proved one by
one, hold in every interleaving.  `Inv` is the invariant of the world and
`rules i` is what process `i` assumes and keeps. -/
structure Discipline (d : Dynamics S W ε α) where
  Inv : W → Prop
  rules : Nat → Rules S W
  onReturn : Nat → α → List (Move S W) → W → Prop
  onRaise : Nat → ε → List (Move S W) → W → Prop
  performs : ∀ {i w c a w'}, Inv w → d.perform i w c a w' → (rules i).perform w c a w'
  inv_move : ∀ {i l m}, Inv m.before → d.perform i m.before m.call m.ans m.after →
    (rules i).guar l m → Inv m.after
  rely_move : ∀ {i j l m}, i ≠ j → Inv m.before → d.perform i m.before m.call m.ans m.after →
    (rules i).guar l m → (rules j).rely m.before m.after
  inv_drift : ∀ {s w'}, Inv s.world → d.drift s w' → Inv w'
  rely_drift : ∀ {s w' i p}, Inv s.world → d.drift s w' → s.procs[i]? = some p →
    p.alive = true → (rules i).rely s.world w'
  inv_kill : ∀ {i w}, Inv w → Inv (d.onKill i w)
  rely_kill : ∀ {i j w}, i ≠ j → Inv w → (rules j).rely w (d.onKill i w)
  starts : ∀ {s p}, Inv s.world → d.mayStart s p →
    Safe (rules s.procs.length) (onReturn s.procs.length) (onRaise s.procs.length) p [] s.world

namespace Discipline

variable {d : Dynamics S W ε α} (D : Discipline d)

/-- What is known of process `i` with record `p` while the world is `w`.  The
last two parts are about a process that has come to its end: its
postcondition held at that time. -/
structure Kept (i : Nat) (p : Proc S W ε α) (w : W) : Prop where
  safe : p.alive = true → Safe (D.rules i) (D.onReturn i) (D.onRaise i) p.prog p.log w
  guar : ∀ m l, m :: l <:+ p.log →
    (D.rules i).guar l m ∧ d.perform i m.before m.call m.ans m.after ∧ D.Inv m.before
  returned : ∀ a, p.killed = false → p.prog = .ret a → ∃ w', D.onReturn i a p.log w'
  raised : ∀ x, p.killed = false → p.prog = .raise x → ∃ w', D.onRaise i x p.log w'

/-- The invariant of the rule. -/
structure Good (s : System S W ε α) : Prop where
  inv : D.Inv s.world
  kept : ∀ i p, s.procs[i]? = some p → D.Kept i p s.world

variable {D}

theorem Kept.of_safe {i : Nat} {p : Prog S ε α} {l : List (Move S W)} {w : W}
    (h : Safe (D.rules i) (D.onReturn i) (D.onRaise i) p l w)
    (hg : ∀ m l', m :: l' <:+ l →
      (D.rules i).guar l' m ∧ d.perform i m.before m.call m.ans m.after ∧ D.Inv m.before) :
    D.Kept i ⟨p, l, false⟩ w where
  safe _ := h
  guar := hg
  returned a _ ha := by
    subst ha
    exact ⟨w, h.of_ret⟩
  raised x _ hx := by
    subst hx
    exact ⟨w, h.of_raise⟩

theorem Kept.rely {i : Nat} {p : Proc S W ε α} {w w' : W} (h : D.Kept i p w)
    (hw : p.alive = true → (D.rules i).rely w w') : D.Kept i p w' where
  safe ha := (h.safe ha).rely (hw ha)
  guar := h.guar
  returned := h.returned
  raised := h.raised

private theorem good_start {s : System S W ε α} (h : D.Good s) {p : Prog S ε α}
    (hp : d.mayStart s p) : D.Good (s.start p) where
  inv := h.inv
  kept i q hi := by
    simp only [System.start, List.getElem?_append] at hi
    split at hi
    · exact h.kept i q hi
    · rename_i hlen
      have hq : i - s.procs.length = 0 ∧ q = ⟨p, [], false⟩ := by
        cases hk : i - s.procs.length with
        | zero => rw [hk] at hi; simpa using hi.symm
        | succ k => rw [hk] at hi; simp at hi
      have hil : i = s.procs.length := by omega
      rw [hq.2, hil]
      refine Kept.of_safe (D.starts h.inv hp) fun m l hm => ?_
      simp at hm

private theorem good_move {s : System S W ε α} (h : D.Good s) {i : Nat} {c : S.Call}
    {k : S.Ans c → Prog S ε α} {l : List (Move S W)} {a : S.Ans c} {w' : W}
    (hi : s.procs[i]? = some ⟨.call c k, l, false⟩) (hm : d.perform i s.world c a w') :
    D.Good ⟨w', s.procs.set i ⟨k a, ⟨s.world, c, a, w'⟩ :: l, false⟩⟩ := by
  have hk := h.kept i _ hi
  obtain ⟨hg, hs⟩ := hk.safe rfl s.world ((D.rules i).rely_refl _) a w' (D.performs h.inv hm)
  refine ⟨D.inv_move h.inv hm hg, fun j q hj => ?_⟩
  by_cases hij : i = j
  · subst hij
    have hlt : i < s.procs.length := (List.getElem?_eq_some_iff.mp hi).1
    rw [List.getElem?_set_self hlt] at hj
    obtain rfl := Option.some.inj hj
    refine Kept.of_safe hs fun m l' hml => ?_
    rcases List.suffix_cons_iff.mp hml with heq | hml
    · obtain ⟨rfl, rfl⟩ := List.cons.inj heq
      exact ⟨hg, hm, h.inv⟩
    · exact hk.guar m l' hml
  · rw [List.getElem?_set_ne hij] at hj
    exact (h.kept j q hj).rely fun _ => D.rely_move hij h.inv hm hg

private theorem good_kill {s : System S W ε α} (h : D.Good s) {i : Nat} {p : Prog S ε α}
    {l : List (Move S W)} (hi : s.procs[i]? = some ⟨p, l, false⟩) :
    D.Good ⟨d.onKill i s.world, s.procs.set i ⟨p, l, true⟩⟩ := by
  refine ⟨D.inv_kill h.inv, fun j q hj => ?_⟩
  by_cases hij : i = j
  · subst hij
    have hlt : i < s.procs.length := (List.getElem?_eq_some_iff.mp hi).1
    rw [List.getElem?_set_self hlt] at hj
    obtain rfl := Option.some.inj hj
    refine ⟨fun ha => ?_, (h.kept i _ hi).guar, fun a ha => ?_, fun x hx => ?_⟩
    · simp [Proc.alive] at ha
    · simp at ha
    · simp at hx
  · rw [List.getElem?_set_ne hij] at hj
    exact (h.kept j q hj).rely fun _ => D.rely_kill hij h.inv

/-- What is known of a move on record. -/
theorem Good.made {s : System S W ε α} (h : D.Good s) {i : Nat} {m : Move S W}
    (hm : s.Made i m) : ∃ l, (D.rules i).guar l m ∧ d.perform i m.before m.call m.ans m.after ∧
      D.Inv m.before := by
  obtain ⟨p, hi, hm⟩ := hm
  obtain ⟨l₁, l₂, hl⟩ := List.append_of_mem hm
  exact ⟨l₂, (h.kept i p hi).guar m l₂ (by rw [hl]; exact List.suffix_append _ _)⟩

theorem good_step {s s' : System S W ε α} (h : D.Good s) (hs : System.Step d s s') :
    D.Good s' := by
  cases hs with
  | start hp => exact good_start h hp
  | move hi hm => exact good_move h hi hm
  | kill hi _ => exact good_kill h hi
  | drift hd =>
    exact ⟨D.inv_drift h.inv hd, fun i p hi => (h.kept i p hi).rely (D.rely_drift h.inv hd hi)⟩

/-- The rule for parallel processes, along a run. -/
theorem good_reach {s s' : System S W ε α} (h : D.Good s) (hr : System.Reach d s s') :
    D.Good s' := by
  induction hr with
  | refl => exact h
  | tail _ hs ih => exact good_step ih hs

/-- The rule for parallel processes: from a world with the invariant and no
processes, every reachable system is good. -/
theorem reach {w : W} {s : System S W ε α} (hw : D.Inv w)
    (hr : System.Reach d ⟨w, []⟩ s) : D.Good s :=
  good_reach ⟨hw, fun i p hi => by simp at hi⟩ hr

end Discipline

/-! ## Running against an oracle -/

/-- An oracle answers every call and gives the world after it. -/
abbrev Oracle (S : Sig) (W : Type) :=
  W → (c : S.Call) → S.Ans c × W

/-- Up to `n` moves of the program, answered by the oracle. -/
def Prog.moves (o : Oracle S W) :
    Nat → Prog S ε α → W → List (Move S W) → List (Move S W) × Prog S ε α × W
  | 0, p, w, l => (l, p, w)
  | _ + 1, .ret a, w, l => (l, .ret a, w)
  | _ + 1, .raise x, w, l => (l, .raise x, w)
  | n + 1, .call c k, w, l =>
    (k (o w c).1).moves o n (o w c).2 (⟨w, c, (o w c).1, (o w c).2⟩ :: l)

@[simp] theorem Prog.moves_call (o : Oracle S W) (n : Nat) (c : S.Call)
    (k : S.Ans c → Prog S ε α) (w : W) (l : List (Move S W)) :
    (Prog.call c k).moves o (n + 1) w l
      = (k (o w c).1).moves o n (o w c).2 (⟨w, c, (o w c).1, (o w c).2⟩ :: l) := rfl

@[simp] theorem Prog.moves_zero (o : Oracle S W) (p : Prog S ε α) (w : W)
    (l : List (Move S W)) : p.moves o 0 w l = (l, p, w) := rfl

/-- Oracle moves are a run, as soon as the oracle's answers are allowed. -/
theorem Run.moves {perform : W → (c : S.Call) → S.Ans c → W → Prop} {rely : W → W → Prop}
    (hrely : ∀ w, rely w w) {o : Oracle S W}
    (ho : ∀ w c, perform w c (o w c).1 (o w c).2) (n : Nat) {p q : Prog S ε α} {w v : W}
    {l : List (Move S W)} (h : Run perform rely p w l q v) :
    Run perform rely p w (q.moves o n v l).1 (q.moves o n v l).2.1 (q.moves o n v l).2.2 := by
  induction n generalizing q v l with
  | zero => exact h
  | succ n ih =>
    cases q with
    | ret a => exact h
    | raise x => exact h
    | call c k => exact ih (.step h (hrely v) (ho v c))

/-- Oracle moves from the start of a program. -/
theorem Run.of_moves {perform : W → (c : S.Call) → S.Ans c → W → Prop} {rely : W → W → Prop}
    (hrely : ∀ w, rely w w) {o : Oracle S W}
    (ho : ∀ w c, perform w c (o w c).1 (o w c).2) {n : Nat} {p : Prog S ε α} {w : W}
    {r : List (Move S W) × Prog S ε α × W} (h : p.moves o n w [] = r) :
    Run perform rely p w r.1 r.2.1 r.2.2 := by
  subst h
  exact .moves hrely ho n .start

/-- Oracle moves up to the return. -/
theorem Run.of_returned {perform : W → (c : S.Call) → S.Ans c → W → Prop} {rely : W → W → Prop}
    (hrely : ∀ w, rely w w) {o : Oracle S W}
    (ho : ∀ w c, perform w c (o w c).1 (o w c).2) {n : Nat} {p : Prog S ε α} {w : W} {a : α}
    {r : List (Move S W) × Prog S ε α × W} (h : p.moves o n w [] = r)
    (ha : r.2.1.returned = some a) : Run perform rely p w r.1 (.ret a) r.2.2 :=
  Prog.eq_ret_of_returned ha ▸ Run.of_moves hrely ho h

/-- Oracle moves, cut at their last one. -/
theorem Run.of_last {perform : W → (c : S.Call) → S.Ans c → W → Prop} {rely : W → W → Prop}
    (hrely : ∀ w, rely w w) {o : Oracle S W}
    (ho : ∀ w c, perform w c (o w c).1 (o w c).2) {n : Nat} {p : Prog S ε α} {w : W}
    {r : List (Move S W) × Prog S ε α × W} (h : p.moves o n w [] = r) {q : S.Call → Bool}
    (hq : r.1.head?.any (fun m => q m.call) = true) :
    ∃ m l, Run perform rely p w (m :: l) r.2.1 r.2.2 ∧ q m.call = true := by
  have hrun := Run.of_moves hrely ho h
  cases hl : r.1 with
  | nil => simp [hl] at hq
  | cons m l =>
    rw [hl] at hrun hq
    exact ⟨m, l, hrun, by simpa using hq⟩

namespace System

/-- Up to `n` moves of process `i`, answered by the oracle. -/
def moves (o : Oracle S W) (i n : Nat) (s : System S W ε α) : System S W ε α :=
  match s.procs[i]? with
  | some ⟨p, l, false⟩ =>
    let r := p.moves o n s.world l
    ⟨r.2.2, s.procs.set i ⟨r.2.1, r.1, false⟩⟩
  | _ => s

/-- The world after moves of a process that was just started. -/
theorem world_moves_start (o : Oracle S W) (n : Nat) (s : System S W ε α) (p : Prog S ε α) :
    ((s.start p).moves o s.procs.length n).world = (p.moves o n s.world []).2.2 := by
  simp [System.moves, System.start]

variable {d : Dynamics S W ε α}

theorem Reach.start {s s' : System S W ε α} {p : Prog S ε α} (h : Reach d s s')
    (hp : d.mayStart s' p) : Reach d s (s'.start p) :=
  h.tail (.start hp)

private theorem reach_moves_aux {o : Oracle S W} {i : Nat}
    (ho : ∀ w c, d.perform i w c (o w c).1 (o w c).2) (n : Nat) {s₀ : System S W ε α}
    (p : Prog S ε α) (w : W) (l : List (Move S W)) (procs : List (Proc S W ε α))
    (hlt : i < procs.length) (h : Reach d s₀ ⟨w, procs.set i ⟨p, l, false⟩⟩) :
    Reach d s₀ ⟨(p.moves o n w l).2.2,
      procs.set i ⟨(p.moves o n w l).2.1, (p.moves o n w l).1, false⟩⟩ := by
  induction n generalizing p w l with
  | zero => exact h
  | succ n ih =>
    cases p with
    | ret a => exact h
    | raise x => exact h
    | call c k =>
      have hi : (procs.set i ⟨.call c k, l, false⟩)[i]? = some ⟨.call c k, l, false⟩ :=
        List.getElem?_set_self hlt
      have hstep := h.tail (.move hi (ho w c))
      rw [List.set_set] at hstep
      exact ih _ _ _ hstep

theorem Reach.moves {s s' : System S W ε α} (h : Reach d s s') {o : Oracle S W} {i : Nat}
    (ho : ∀ w c, d.perform i w c (o w c).1 (o w c).2) (n : Nat) :
    Reach d s (s'.moves o i n) := by
  unfold System.moves
  split
  · rename_i p l hi
    have hlt := (List.getElem?_eq_some_iff.mp hi).1
    refine reach_moves_aux ho n p s'.world l s'.procs hlt ?_
    have hself : s'.procs.set i ⟨p, l, false⟩ = s'.procs := by
      rw [← (List.getElem?_eq_some_iff.mp hi).2]
      exact List.set_getElem_self hlt
    rw [hself]
    exact h
  · exact h

end System

end Effects
