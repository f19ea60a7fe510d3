import Mathlib.Data.List.Perm.Basic

/-!
# Computations that can fail

What a returned value says about the parts of an `Except` computation.
-/

namespace Result

variable {ε α β : Type}

/-- A computation that returns went through each of its parts. -/
theorem bind_eq_ok {x : Except ε α} {f : α → Except ε β} {b : β} :
    (x >>= f) = .ok b ↔ ∃ a, x = .ok a ∧ f a = .ok b := by
  cases x with
  | error e => simp [bind, Except.bind]
  | ok a => simp [bind, Except.bind]

theorem bind_eq_error {x : Except ε α} {f : α → Except ε β} {e : ε} :
    (x >>= f) = .error e ↔ x = .error e ∨ ∃ a, x = .ok a ∧ f a = .error e := by
  cases x with
  | error e' => simp [bind, Except.bind]
  | ok a => simp [bind, Except.bind]

theorem guard_eq_ok {p : Prop} [Decidable p] {e : ε} {x : Except ε α} {a : α} :
    (if p then .error e else x) = .ok a ↔ ¬p ∧ x = .ok a := by
  by_cases h : p
  · simp [h]
  · simp [h]

/-- A loop returns when each of its turns does. -/
theorem mapM_eq_ok_iff {f : α → Except ε β} {values : List α} {results : List β} :
    values.mapM f = .ok results ↔ List.Forall₂ (fun a b => f a = .ok b) values results := by
  induction values generalizing results with
  | nil =>
    rw [List.mapM_nil]
    constructor
    · intro h
      cases h
      exact .nil
    · intro h
      cases h
      rfl
  | cons a values ih =>
    rw [List.mapM_cons, bind_eq_ok]
    constructor
    · intro h
      obtain ⟨b, ha, h⟩ := h
      obtain ⟨bs, hvalues, h⟩ := bind_eq_ok.mp h
      cases h
      exact .cons ha (ih.mp hvalues)
    · intro h
      cases h with
      | cons ha hvalues => exact ⟨_, ha, bind_eq_ok.mpr ⟨_, ih.mpr hvalues, rfl⟩⟩

/-- A loop none of whose turns fails returns. -/
theorem exists_mapM_eq_ok {f : α → Except ε β} {values : List α}
    (h : ∀ a ∈ values, ∃ b, f a = .ok b) : ∃ results, values.mapM f = .ok results := by
  induction values with
  | nil => exact ⟨[], rfl⟩
  | cons a values ih =>
    obtain ⟨b, hb⟩ := h a List.mem_cons_self
    obtain ⟨results, hresults⟩ := ih fun c hc => h c (List.mem_cons_of_mem _ hc)
    refine ⟨b :: results, ?_⟩
    rw [List.mapM_cons, hb, hresults]
    rfl

theorem forM_eq_ok_iff {f : α → Except ε Unit} {values : List α} :
    values.forM f = .ok () ↔ ∀ a ∈ values, f a = .ok () := by
  induction values with
  | nil => exact iff_of_true rfl fun _ h => absurd h List.not_mem_nil
  | cons a values ih =>
    show (f a >>= fun _ => values.forM f) = .ok ⟨⟩ ↔ _
    rw [bind_eq_ok, List.forall_mem_cons]
    constructor
    · intro h
      obtain ⟨⟨⟩, ha, hvalues⟩ := h
      exact ⟨ha, ih.mp hvalues⟩
    · intro h
      exact ⟨⟨⟩, h.1, ih.mpr h.2⟩

/-- A loop over the same values in another order. -/
theorem mapM_perm {f : α → Except ε β} {values values' : List α} {results : List β}
    (h : values.mapM f = .ok results) (hperm : values.Perm values') :
    ∃ results', values'.mapM f = .ok results' ∧ results.Perm results' := by
  obtain ⟨results', hforall, hresults⟩ :=
    List.perm_comp_forall₂ hperm.symm (mapM_eq_ok_iff.mp h)
  exact ⟨results', mapM_eq_ok_iff.mpr hforall, hresults.symm⟩

/-- A loop over values that give the same results. -/
theorem mapM_related {γ : Type} {r : α → γ → Prop} {f : α → Except ε β} {g : γ → Except ε β}
    {values : List α} {values' : List γ} {results : List β} (hvalues : List.Forall₂ r values values')
    (hstep : ∀ a c b, r a c → f a = .ok b → g c = .ok b) (h : values.mapM f = .ok results) :
    values'.mapM g = .ok results := by
  rw [mapM_eq_ok_iff] at h ⊢
  induction hvalues generalizing results with
  | nil =>
    cases h
    exact .nil
  | cons hr _ ih =>
    cases h with
    | cons ha hrest => exact .cons (hstep _ _ _ hr ha) (ih hrest)

/-- A loop that fails does so in one of its turns. -/
theorem exists_of_mapM_eq_error {f : α → Except ε β} {values : List α} {e : ε}
    (h : values.mapM f = .error e) : ∃ a ∈ values, f a = .error e := by
  induction values with
  | nil => cases h
  | cons a values ih =>
    rw [List.mapM_cons] at h
    rcases bind_eq_error.mp h with h | ⟨b, -, h⟩
    · exact ⟨a, List.mem_cons_self, h⟩
    · rcases bind_eq_error.mp h with h | ⟨bs, -, h⟩
      · obtain ⟨c, hc, hfail⟩ := ih h
        exact ⟨c, List.mem_cons_of_mem _ hc, hfail⟩
      · cases h

/-- A loop that carries a state: what each turn keeps, how far it moves, and what each value
leaves behind. -/
theorem foldlM_rule {σ : Type} {step : σ → α → Except ε σ} {values : List α} (P : σ → Prop)
    (R : σ → σ → Prop) (Q : α → σ → Prop) (hrefl : ∀ s, R s s)
    (htrans : ∀ s s' s'', R s s' → R s' s'' → R s s'')
    (hstep : ∀ a ∈ values, ∀ s s', P s → step s a = .ok s' → P s' ∧ R s s' ∧ Q a s')
    (hkeep : ∀ a s s', R s s' → Q a s → Q a s') {s s' : σ} (h : values.foldlM step s = .ok s')
    (hs : P s) : P s' ∧ R s s' ∧ ∀ a ∈ values, Q a s' := by
  induction values generalizing s with
  | nil =>
    cases h
    exact ⟨hs, hrefl _, nofun⟩
  | cons a values ih =>
    rw [List.foldlM_cons] at h
    obtain ⟨t, hfirst, h⟩ := bind_eq_ok.mp h
    obtain ⟨ht, hmove, ha⟩ := hstep a List.mem_cons_self s t hs hfirst
    obtain ⟨hs', hmove', hvalues⟩ := ih (fun b hb => hstep b (List.mem_cons_of_mem _ hb)) h ht
    exact ⟨hs', htrans _ _ _ hmove hmove',
      List.forall_mem_cons.mpr ⟨hkeep a _ _ hmove' ha, hvalues⟩⟩

/-! ## Failing alike -/

/-- The two computations fail with the same errors. -/
def FailsAs {γ : Type} (x : Except ε α) (y : Except ε γ) : Prop :=
  ∀ e, x = .error e ↔ y = .error e

variable {γ δ : Type}

theorem failsAs_error {e : ε} : FailsAs (.error e : Except ε α) (.error e : Except ε γ) :=
  fun _ => ⟨fun h => congrArg _ (Except.error.inj h), fun h => congrArg _ (Except.error.inj h)⟩

theorem failsAs_map {x : Except ε α} {f : α → β} : FailsAs (x.map f) x := by
  cases x with
  | error e => exact failsAs_error
  | ok a => exact fun _ => iff_of_false nofun nofun

theorem FailsAs.bind {x : Except ε α} {y : Except ε γ} {f : α → Except ε β} {g : γ → Except ε δ}
    (h : FailsAs x y) (hf : ∀ a c, FailsAs (f a) (g c)) : FailsAs (x >>= f) (y >>= g) := by
  cases x with
  | error e =>
    have hy : y = .error e := (h e).mp rfl
    rw [hy]
    exact failsAs_error
  | ok a =>
    cases y with
    | error e => exact absurd ((h e).mpr rfl) nofun
    | ok c => exact hf a c

/-- What a computation returns does not change how it fails. -/
theorem FailsAs.pure {x : Except ε α} {y : Except ε γ} {f : α → β} (h : FailsAs x y) :
    FailsAs (x >>= fun a => (.ok (f a) : Except ε β)) y := by
  intro e
  rw [← h e, bind_eq_error]
  constructor
  · intro herror
    rcases herror with herror | ⟨a, -, herror⟩
    · exact herror
    · cases herror
  · exact .inl

theorem failsAs_append {f : α → Except ε β} {xs ys : List α} {x : Except ε γ}
    {g : γ → Except ε δ} (hx : FailsAs x (xs.mapM f)) (hy : ∀ c, FailsAs (g c) (ys.mapM f)) :
    FailsAs (x >>= g) ((xs ++ ys).mapM f) := by
  rw [List.mapM_append]
  refine hx.bind fun c bs => ?_
  intro e
  rw [hy c e]
  exact (FailsAs.pure (fun _ => Iff.rfl) e).symm

/-- A loop whose turns each fail as the loop over some values does. -/
theorem failsAs_flatMap {f : α → Except ε β} {g : γ → Except ε δ} {part : γ → List α}
    {values : List γ} (h : ∀ c ∈ values, FailsAs (g c) ((part c).mapM f)) :
    FailsAs (values.mapM g) ((values.flatMap part).mapM f) := by
  induction values with
  | nil => exact fun e => iff_of_false nofun nofun
  | cons c values ih =>
    rw [List.mapM_cons, List.flatMap_cons]
    refine failsAs_append (h c List.mem_cons_self) fun d => ?_
    exact FailsAs.pure (ih fun c hc => h c (List.mem_cons_of_mem _ hc))

theorem exists_of_mem_right {γ : Type} {r : α → γ → Prop} {values : List α} {values' : List γ}
    (h : List.Forall₂ r values values') {b : γ} (hb : b ∈ values') : ∃ a ∈ values, r a b := by
  induction h with
  | nil => cases hb
  | @cons a _ _ _ hr _ ih =>
    rcases List.mem_cons.mp hb with rfl | hb
    · exact ⟨a, List.mem_cons_self, hr⟩
    · obtain ⟨c, hc, hrc⟩ := ih hb
      exact ⟨c, List.mem_cons_of_mem _ hc, hrc⟩

theorem exists_of_mem_left {γ : Type} {r : α → γ → Prop} {values : List α} {values' : List γ}
    (h : List.Forall₂ r values values') {a : α} (ha : a ∈ values) : ∃ b ∈ values', r a b :=
  exists_of_mem_right h.flip ha

end Result
