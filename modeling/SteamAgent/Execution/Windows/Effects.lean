import SteamAgent.Effects.System
import SteamAgent.Execution.Windows.Backend
import SteamAgent.Execution.Windows.Recovery

/-!
# An effect starts at most once

The marker of an operation and its intent file, over any sequence of backend
calls, each cut at any point, while others change everything else.

There are six groups.

* `Slot`, the marker and the intent of one operation, and `Slot.Step`, all that
  a backend call may do to it.
* Primitives that leave every slot alone.
* Receipts and their data, and `Slot.Stage`, the slots that steps can reach.
* One lemma for each call: its primitives are steps, and what it returns with.
* `Session`, the sequences of calls, and `SlotRun`, what they do to a slot.
* The three results and a run.

A slot that has left the empty state never returns to it, and `begin_effect`
returns only on the way out of it.
-/

namespace SteamAgent.Execution.Windows

open Effects

variable {α : Type}

/-! ## Slots -/

/-- The data of a marker. -/
def Receipt.data (r : Receipt) : FileData :=
  .ofJson r.toJson

/-- The marker of an operation and its intent file. -/
@[ext] structure Slot where
  marker : Option FileData
  intent : Option FileData

def Slot.empty : Slot :=
  ⟨none, none⟩

/-- The slot of operation `n`. -/
def slot (n : Nat) (w : WinFs) : Slot :=
  ⟨(w.get (.effect n)).map WinFile.data, (w.get (.pending (.effect n))).map WinFile.data⟩

/-- The calls on a marker. -/
inductive BackendCall where
  | beginEffect (binding : Binding) (operation : String)
  | inspectEffect (binding : Binding)
  | finishEffect (binding : Binding) (result : WindowsContentResult)
  | adopt (binding : Binding) (source : Spelled)

def BackendCall.binding : BackendCall → Binding
  | .beginEffect b _ => b
  | .inspectEffect b => b
  | .finishEffect b _ => b
  | .adopt b _ => b

/-- What a call returns with. -/
inductive BackendAnswer where
  | began (r : Receipt)
  | inspected (r : Receipt)
  | finished (r : Receipt)
  | adopted (path : WinPath)

def BackendCall.program (site : Site) : BackendCall → WinProg BackendAnswer
  | .beginEffect b operation => do
    let r ← Windows.beginEffect b operation
    return .began r
  | .inspectEffect b => do
    let r ← Windows.inspectEffect b
    return .inspected r
  | .finishEffect b result => do
    let r ← Windows.finishEffect b result
    return .finished r
  | .adopt b source => do
    let path ← Windows.adopt site b source
    return .adopted path

/-- The receipt is prepared, and the result is bound to it. -/
structure Finishes (b : Binding) (result : WindowsContentResult) (r : Receipt) : Prop where
  binding : r.binding = b
  prepared : r.state = .prepared
  bound : result.bound r = true

/-- What a call may do to the slot of its operation in one primitive. -/
inductive Slot.Step : BackendCall → Slot → Slot → Prop
  | intend (b : Binding) (operation : String) :
    Step (.beginEffect b operation) .empty ⟨none, some (Receipt.mk operation b .prepared).data⟩
  | mark (b : Binding) (operation : String) :
    Step (.beginEffect b operation) ⟨none, some (Receipt.mk operation b .prepared).data⟩
      ⟨some (Receipt.mk operation b .prepared).data, none⟩
  | conclude {b : Binding} {result : WindowsContentResult} {r : Receipt} (h : Finishes b result r) :
    Step (.finishEffect b result) ⟨some r.data, none⟩ ⟨some r.data, some (r.finished result).data⟩
  | record {b : Binding} {result : WindowsContentResult} {r : Receipt} (h : Finishes b result r) :
    Step (.finishEffect b result) ⟨some r.data, some (r.finished result).data⟩
      ⟨some (r.finished result).data, none⟩
  | lose {b : Binding} {result : WindowsContentResult} {r : Receipt} (h : Finishes b result r) :
    Step (.finishEffect b result) ⟨some r.data, some (r.finished result).data⟩
      ⟨none, some (r.finished result).data⟩

/-- A step leaves evidence. -/
theorem Slot.Step.ne_empty {c : BackendCall} {s s' : Slot} (h : Slot.Step c s s') :
    s' ≠ .empty := by
  cases h <;> simp [Slot.empty]

/-! ## Primitives elsewhere -/

/-- The paths that a primitive writes or removes. -/
def WinCall.writes : WinCall → List WinPath
  | .writeNew path _ => [path]
  | .copyNew _ destination => [destination]
  | .moveNew source destination => [source, destination]
  | .replace source destination => [source, destination]
  | .delete path => [path]
  | _ => []

theorem Changes.get {w w' : WinFs} {c : WinCall} (h : Changes w c w') {path : WinPath}
    (hp : path ∉ c.writes) : w'.get path = w.get path := by
  cases h with
  | writeNew _ _ =>
    simp only [WinCall.writes, List.mem_singleton] at hp
    simp [hp]
  | copyNew _ _ _ =>
    simp only [WinCall.writes, List.mem_singleton] at hp
    simp [hp]
  | flush => rfl
  | moveNew _ _ =>
    simp only [WinCall.writes, List.mem_cons, List.not_mem_nil, or_false, not_or] at hp
    simp [hp]
  | replace _ _ =>
    simp only [WinCall.writes, List.mem_cons, List.not_mem_nil, or_false, not_or] at hp
    simp [hp]
  | delete =>
    simp only [WinCall.writes, List.mem_singleton] at hp
    simp [hp]

/-- A path that a primitive does not write stays as it is. -/
theorem WinCall.perform_get {w w' : WinFs} {c : WinCall} {a : c.Ans}
    (h : WinCall.perform w c a w') {path : WinPath} (hp : path ∉ c.writes) :
    w'.get path = w.get path := by
  have houtcome : ∀ {c : WinCall} {a : Except Exn Unit}, path ∉ c.writes →
      WinCall.perform.Outcome w c a w' → w'.get path = w.get path := by
    rintro c a hp (⟨_, hc⟩ | ⟨_, rfl⟩)
    · exact hc.get hp
    · rfl
  cases c with
  | directoryIdentity _ => rw [h.1]
  | fileIdentity _ => rw [h.1]
  | pathExists _ => rw [h.1]
  | read _ _ => rw [h.1]
  | replace source destination =>
    rcases h with h | ⟨_, _, _, rfl⟩
    · exact houtcome hp h
    · simp only [WinCall.writes, List.mem_cons, List.not_mem_nil, or_false, not_or] at hp
      simp [hp]
  | _ => exact houtcome hp h

/-- The primitive leaves every slot alone. -/
def WinCall.Elsewhere (c : WinCall) : Prop :=
  ∀ n, WinPath.effect n ∉ c.writes ∧ WinPath.pending (.effect n) ∉ c.writes

theorem WinCall.Elsewhere.slot {w w' : WinFs} {c : WinCall} {a : c.Ans} (hc : c.Elsewhere)
    (h : WinCall.perform w c a w') (n : Nat) : slot n w' = slot n w := by
  rw [Windows.slot, Windows.slot, perform_get h (hc n).1, perform_get h (hc n).2]

theorem calls_sanitized {D : WinCall → Prop} {p : WinProg α} (h : p.Calls D) :
    (sanitized p).Calls D := by
  refine .bind h.attempt ?_
  rintro (x | a)
  · cases x <;> trivial
  · trivial

/-- A program that leaves every slot alone. -/
abbrev Spares (p : WinProg α) : Prop :=
  p.Calls WinCall.Elsewhere

theorem elsewhere_of_reads {c : WinCall} (h : c.writes = []) : c.Elsewhere :=
  fun n => by simp [h]

theorem spares_directoryIdentity (path : WinPath) : Spares (directoryIdentity path) :=
  .ask (elsewhere_of_reads rfl) fun a => .ofExcept a

theorem spares_fileIdentity (path : WinPath) : Spares (fileIdentity path) :=
  .ask (elsewhere_of_reads rfl) fun a => .ofExcept a

theorem spares_pathExists (path : WinPath) : Spares (pathExists path) :=
  .ask (elsewhere_of_reads rfl) fun a => .ofExcept a

theorem spares_read (path : WinPath) (limit : Nat) : Spares (read path limit) :=
  .ask (elsewhere_of_reads rfl) fun a => .ofExcept a

theorem spares_rejectLegacy (appid : Nat) : Spares (rejectLegacy appid) :=
  .bind (spares_pathExists _) fun _ => .ite trivial trivial

theorem spares_checkPaths (site : Site) (appid : Nat) : Spares (checkPaths site appid) :=
  .ite trivial (.bind (.ofExcept _) fun _ => .ofExcept _)

theorem spares_checkRoots (record : AdoptionRecord) : Spares (checkRoots record) :=
  .bind (spares_directoryIdentity _) fun _ => .ite trivial
    (.bind (spares_directoryIdentity _) fun _ => .ite trivial trivial)

theorem spares_anyExists (paths : List WinPath) : Spares (anyExists paths) := by
  induction paths with
  | nil => trivial
  | cons path rest ih => exact .bind (spares_pathExists path) fun _ => .ite trivial ih

theorem spares_backUp (appid n : Nat) : Spares (backUp appid n) := by
  refine .bind (spares_pathExists _) fun _ => .ite ?_ trivial
  refine .bind (spares_fileIdentity _) fun _ => .bind (.ask ?_ fun a => .ofExcept a) fun _ => ?_
  · exact fun n => by simp [WinCall.writes]
  · exact .bind (spares_fileIdentity _) fun _ => .bind (spares_read _ _) fun _ => trivial

theorem spares_swapStage (record : AdoptionRecord) : Spares (swapStage record) := by
  unfold swapStage
  dsimp only
  split
  · refine .bind (spares_fileIdentity _) fun _ => .ite trivial (.ask ?_ fun a => .ofExcept a)
    exact fun n => by simp [WinCall.writes]
  · refine .ask ?_ fun a => .ofExcept a
    exact fun n => by simp [WinCall.writes]

theorem spares_stageAndSwap (appid n : Nat) (steamapps journals : WinIdentity)
    (patched : Sha256.Bytes) : Spares (stageAndSwap appid n steamapps journals patched) := by
  refine .bind (spares_backUp _ _) fun r => .bind (.ask ?_ fun a => .ofExcept a) fun _ => ?_
  · exact fun n => by simp [WinCall.writes]
  refine .bind (spares_fileIdentity _) fun _ => .ite trivial ?_
  refine .bind (.ask ?_ fun a => .ofExcept a) fun _ => .bind (.ask ?_ fun a => .ofExcept a) fun _ => ?_
  · exact fun n => by simp [WinCall.writes]
  · exact fun n => by simp [WinCall.writes]
  refine .bind (spares_checkRoots _) fun _ => .bind (spares_swapStage _) fun _ => .bind ?_ fun _ =>
    trivial
  exact .bind (spares_fileIdentity _) fun _ => .ite trivial
    (.bind (spares_read _ _) fun _ => .ite trivial trivial)

/-- Adoption leaves every slot alone. -/
theorem spares_adoptManifest (site : Site) (source : Spelled) (appid : Nat) (name : String)
    (n : Nat) : Spares (adoptManifest site source appid name n) := by
  refine calls_sanitized (.bind (spares_checkPaths _ _) fun _ => .ite trivial ?_)
  refine .bind (spares_rejectLegacy _) fun _ => .bind (spares_directoryIdentity _) fun _ => ?_
  refine .bind (spares_directoryIdentity _) fun _ => .bind (spares_anyExists _) fun _ => ?_
  refine .ite trivial (.bind (.ofExcept _) fun _ => .bind (spares_read _ _) fun _ => ?_)
  exact .bind (.ofExcept _) fun _ => spares_stageAndSwap _ _ _ _ _

theorem spares_revalidate (b : Binding) : Spares (revalidate b) := by
  refine .bind (.ite trivial (.bind ?_ fun _ => ?_)) fun _ => .ite trivial trivial
  · exact .bind (spares_pathExists _) fun _ => .ite trivial
      (.bind (spares_pathExists _) fun _ => .ite trivial trivial)
  · exact .bind (spares_directoryIdentity _) fun _ => .bind (spares_directoryIdentity _) fun _ =>
      .bind (spares_directoryIdentity _) fun _ => .ite trivial trivial

/-! ## What each call does -/

/-- Others leave the slots alone. -/
def KeepsSlots (w w' : WinFs) : Prop :=
  ∀ n, slot n w' = slot n w

/-- What a call assumes and keeps: others leave the slots alone, and so does
the call, apart from the steps on its own. -/
def backendRules (c : BackendCall) : Rules WinSig WinFs where
  perform := WinCall.perform
  rely := KeepsSlots
  guar _ m := ∀ n, slot n m.after = slot n m.before ∨
    n = c.binding.operationId ∧ Slot.Step c (slot n m.before) (slot n m.after)
  rely_refl _ _ := rfl
  rely_trans h h' n := (h' n).trans (h n)

variable {c : BackendCall} {Q : α → List (Move WinSig WinFs) → WinFs → Prop}
  {l : List (Move WinSig WinFs)} {w : WinFs}

/-- A program that leaves the slots alone. -/
theorem safe_spares {p : WinProg α} {s : Slot} {n : Nat} (hp : Spares p) (hs : slot n w = s) :
    Safe (backendRules c) (fun _ _ w' => slot n w' = s) (fun _ _ _ => True) p l w := by
  have hsafe : Safe (backendRules c) (fun _ _ w' => slot n w' = s) (fun _ _ w' => slot n w' = s)
      p l w := by
    refine .of_calls (fun _ w w' h hr => (hr n).trans h) ?_ hp hs
    intro l w call a w' hc h hperform
    exact ⟨fun n => Or.inl (hc.slot hperform n), (hc.slot hperform n).trans h⟩
  exact hsafe.mono (fun _ _ _ h => h) fun _ _ _ _ => trivial

/-- A marker that decodes to the receipt. -/
def Slot.Holds (s : Slot) (b : Binding) (r : Receipt) : Prop :=
  ∃ data raw, s.marker = some data ∧ data.json = some (.obj raw) ∧ decodeReceipt raw b = .ok r

/-- A marker that holds a receipt's data holds no other receipt. -/
theorem Slot.Holds.eq {s : Slot} {b : Binding} {r r' : Receipt} (h : s.Holds b r')
    (hs : s.marker = some r.data) : r' = r ∧ r.binding = b := by
  obtain ⟨data, raw, hmarker, hjson, hdecode⟩ := h
  obtain rfl := Option.some.inj (hs.symm.trans hmarker)
  exact decodeReceipt_toJson (Option.some.inj hjson) hdecode

theorem safe_readMarker {s : Slot} {n : Nat} (hs : slot n w = s) :
    Safe (backendRules c) (fun raw _ w' => slot n w' = s ∧ ∃ data, s.marker = some data ∧
      data.json = some (.obj raw)) (fun _ _ _ => True) (readMarker (.effect n)) l w := by
  refine .attempt_bind (.ask fun w₁ hw₁ a w₂ hc => ?_)
  obtain ⟨rfl, ha⟩ := hc
  refine ⟨fun _ => Or.inl rfl, ?_⟩
  have hs₂ : slot n w₂ = s := (hw₁ n).trans hs
  have hraise : ∀ l' w', Safe (backendRules c) (fun raw _ w' => slot n w' = s ∧
      ∃ data, s.marker = some data ∧ data.json = some (.obj raw)) (fun _ _ _ => True)
      (.raise (contentError "WINDOWS_CONTENT_MARKER_INVALID") : WinProg _) l' w' :=
    fun _ _ _ _ => trivial
  cases a with
  | error x => exact fun w' _ => hraise _ w'
  | ok data =>
    rintro w' hw'
    obtain ⟨bytes, json⟩ := data
    rcases json with _ | json
    · exact hraise _ w'
    · cases json with
      | obj raw =>
        refine fun w'' hw'' => ⟨((hw'' n).trans (hw' n)).trans hs₂, ⟨bytes, some (.obj raw)⟩, ?_, rfl⟩
        rw [← hs₂]
        exact (ha _ rfl).1
      | _ => exact hraise _ w'

/-- What `inspect_effect` returns is the marker. -/
theorem safe_inspectEffect {b : Binding} {s : Slot} (hs : slot b.operationId w = s) :
    Safe (backendRules c) (fun r _ w' => slot b.operationId w' = s ∧ s.Holds b r)
      (fun _ _ _ => True) (inspectEffect b) l w := by
  refine .seq (safe_spares (spares_revalidate b) hs) fun _ l w hs => ?_
  refine .seq (safe_readMarker hs) fun raw l w hraw => ?_
  obtain ⟨hs, data, hmarker, hjson⟩ := hraw
  cases hdecode : decodeReceipt raw b with
  | error x => exact fun _ _ => trivial
  | ok r => exact fun w' hw' => ⟨(hw' _).trans hs, data, raw, hmarker, hjson, hdecode⟩

/-- One look at a marker or an intent. -/
theorem safe_pathExists {path : WinPath} {s : Slot} {n : Nat} {present : Bool}
    (hpath : ∀ w', slot n w' = s → (w'.get path).isSome = present) (hs : slot n w = s) :
    Safe (backendRules c) (fun b _ w' => slot n w' = s ∧ b = present) (fun _ _ _ => True)
      (pathExists path) l w := by
  refine .ask fun w₁ hw₁ a w₂ hc => ?_
  obtain ⟨rfl, ha⟩ := hc
  refine ⟨fun _ => Or.inl rfl, ?_⟩
  have hs₂ : slot n w₂ = s := (hw₁ n).trans hs
  cases a with
  | error x => exact fun _ _ => trivial
  | ok b => exact fun w' hw' => ⟨(hw' n).trans hs₂, (ha b rfl).trans (hpath _ hs₂)⟩

theorem isSome_effect {n : Nat} {s : Slot} (w : WinFs) (hs : slot n w = s) :
    (w.get (.effect n)).isSome = s.marker.isSome := by
  rw [← hs, slot, Option.isSome_map]

theorem isSome_pending {n : Nat} {s : Slot} (w : WinFs) (hs : slot n w = s) :
    (w.get (.pending (.effect n))).isSome = s.intent.isSome := by
  rw [← hs, slot, Option.isSome_map]

/-- A primitive on the slot of operation `n` leaves the others alone. -/
theorem slot_other {call : WinCall} {a : call.Ans} {w' : WinFs} {n : Nat}
    (h : WinCall.perform w call a w')
    (hwrites : ∀ p ∈ call.writes, p = .effect n ∨ p = .pending (.effect n)) {k : Nat}
    (hk : k ≠ n) : slot k w' = slot k w := by
  have heffect : WinPath.effect k ∉ call.writes := by
    intro hp
    rcases hwrites _ hp with h | h
    · exact hk (WinPath.effect.inj h)
    · nomatch h
  have hpending : WinPath.pending (.effect k) ∉ call.writes := by
    intro hp
    rcases hwrites _ hp with h | h
    · nomatch h
    · exact hk (WinPath.effect.inj (WinPath.pending.inj h))
  rw [slot, slot, WinCall.perform_get h heffect, WinCall.perform_get h hpending]

/-- A primitive on the slot of the call's operation, by what it does to it. -/
theorem safe_onSlot {call : WinCall} {k : call.Ans → WinProg α} {n : Nat} {s : Slot}
    (hn : n = c.binding.operationId)
    (hwrites : ∀ p ∈ call.writes, p = .effect n ∨ p = .pending (.effect n))
    (hs : slot n w = s)
    (h : ∀ w₁ a w₂, slot n w₁ = s → WinCall.perform w₁ call a w₂ →
      (slot n w₂ = s ∨ Slot.Step c s (slot n w₂)) ∧
        Safe (backendRules c) Q (fun _ _ _ => True) (k a) (⟨w₁, call, a, w₂⟩ :: l) w₂) :
    Safe (backendRules c) Q (fun _ _ _ => True) (Prog.ask (S := WinSig) call >>= k) l w := by
  refine .ask fun w₁ hw₁ a w₂ hc => ?_
  have hs₁ : slot n w₁ = s := (hw₁ n).trans hs
  obtain ⟨hstep, hk⟩ := h w₁ a w₂ hs₁ hc
  refine ⟨fun j => ?_, hk⟩
  by_cases hj : j = n
  · subst hj
    dsimp only
    rw [hs₁]
    rcases hstep with hstep | hstep
    · exact Or.inl hstep
    · exact Or.inr ⟨hn, hstep⟩
  · exact Or.inl (slot_other hc hwrites hj)

/-- The intent is written. -/
theorem safe_writeIntent {n : Nat} {marker : Option FileData} {data : FileData}
    (hn : n = c.binding.operationId) (hstep : Slot.Step c ⟨marker, none⟩ ⟨marker, some data⟩)
    (hs : slot n w = ⟨marker, none⟩) :
    Safe (backendRules c) (fun _ _ w' => slot n w' = ⟨marker, some data⟩) (fun _ _ _ => True)
      (writeNew (.pending (.effect n)) data) l w := by
  refine safe_onSlot hn (fun p hp => ?_) hs fun w₁ a w₂ hs₁ hc => ?_
  · exact Or.inr (List.mem_singleton.mp hp)
  · rcases hc with ⟨rfl, hc⟩ | ⟨⟨x, rfl⟩, rfl⟩
    · cases hc with
      | @writeNew _ _ id _ _ =>
        have hmarker : (w₁.get (.effect n)).map WinFile.data = marker := congrArg Slot.marker hs₁
        have hs₂ : slot n (w₁.put (.pending (.effect n)) ⟨id, data⟩) = ⟨marker, some data⟩ := by
          simp [slot, hmarker]
        exact ⟨Or.inr (hs₂ ▸ hstep), fun w' hw' => (hw' n).trans hs₂⟩
    · exact ⟨Or.inl hs₁, fun _ _ => trivial⟩

/-- The intent becomes the first marker. -/
theorem safe_moveIntent {n : Nat} {data : FileData} (hn : n = c.binding.operationId)
    (hstep : Slot.Step c ⟨none, some data⟩ ⟨some data, none⟩) (hs : slot n w = ⟨none, some data⟩) :
    Safe (backendRules c) (fun _ _ w' => slot n w' = ⟨some data, none⟩) (fun _ _ _ => True)
      (moveNew (.pending (.effect n)) (.effect n)) l w := by
  refine safe_onSlot hn (fun p hp => ?_) hs fun w₁ a w₂ hs₁ hc => ?_
  · simp only [WinCall.writes, List.mem_cons, List.not_mem_nil, or_false] at hp
    exact hp.symm
  · rcases hc with ⟨rfl, hc⟩ | ⟨⟨x, rfl⟩, rfl⟩
    · cases hc with
      | @moveNew _ _ file hsource _ =>
        have hdata : some file.data = some data := by
          have := congrArg Slot.intent hs₁
          rwa [slot, hsource] at this
        have hs₂ : slot n ((w₁.remove (.pending (.effect n))).put (.effect n) file)
            = ⟨some data, none⟩ := by
          simp [slot, Option.some.inj hdata]
        exact ⟨Or.inr (hs₂ ▸ hstep), fun w' hw' => (hw' n).trans hs₂⟩
    · exact ⟨Or.inl hs₁, fun _ _ => trivial⟩

/-- The intent becomes the next marker, or the marker name is lost. -/
theorem safe_replaceIntent {n : Nat} {old data : FileData} (hn : n = c.binding.operationId)
    (hstep : Slot.Step c ⟨some old, some data⟩ ⟨some data, none⟩)
    (hlose : Slot.Step c ⟨some old, some data⟩ ⟨none, some data⟩)
    (hs : slot n w = ⟨some old, some data⟩) :
    Safe (backendRules c) (fun _ _ w' => slot n w' = ⟨some data, none⟩) (fun _ _ _ => True)
      (replace (.pending (.effect n)) (.effect n)) l w := by
  refine safe_onSlot hn (fun p hp => ?_) hs fun w₁ a w₂ hs₁ hc => ?_
  · simp only [WinCall.writes, List.mem_cons, List.not_mem_nil, or_false] at hp
    exact hp.symm
  · have hintent : (w₁.get (.pending (.effect n))).map WinFile.data = some data :=
      congrArg Slot.intent hs₁
    rcases hc with (⟨rfl, hc⟩ | ⟨⟨x, rfl⟩, rfl⟩) | ⟨⟨x, rfl⟩, _, _, rfl⟩
    · cases hc with
      | @replace _ _ file _ hsource _ =>
        have hdata : file.data = data := by
          rw [hsource] at hintent
          exact Option.some.inj hintent
        have hs₂ : slot n ((w₁.remove (.pending (.effect n))).put (.effect n) file)
            = ⟨some data, none⟩ := by
          simp [slot, hdata]
        exact ⟨Or.inr (hs₂ ▸ hstep), fun w' hw' => (hw' n).trans hs₂⟩
    · exact ⟨Or.inl hs₁, fun _ _ => trivial⟩
    · have hs₂ : slot n (w₁.remove (.effect n)) = ⟨none, some data⟩ := by
        simp [slot, hintent]
      exact ⟨Or.inr (hs₂ ▸ hlose), fun _ _ => trivial⟩

/-- `_write` onto an absent or a present marker. -/
theorem safe_writeMarker {n : Nat} {s : Slot} {r : Receipt} (hn : n = c.binding.operationId)
    (hs : slot n w = s) (hintend : Slot.Step c ⟨s.marker, none⟩ ⟨s.marker, some r.data⟩)
    (hland : Slot.Step c ⟨s.marker, some r.data⟩ ⟨some r.data, none⟩)
    (hlose : s.marker ≠ none → Slot.Step c ⟨s.marker, some r.data⟩ ⟨none, some r.data⟩) :
    Safe (backendRules c) (fun _ _ w' => s.intent = none ∧ slot n w' = ⟨some r.data, none⟩)
      (fun _ _ _ => True) (writeMarker (.effect n) r.toJson) l w := by
  unfold writeMarker
  dsimp only
  split
  · exact fun _ _ => trivial
  refine .seq (safe_pathExists (isSome_pending · ·) hs) fun b l w hb => ?_
  obtain ⟨hs, rfl⟩ := hb
  obtain ⟨marker, intent⟩ := s
  cases intent with
  | some data => exact fun _ _ => trivial
  | none =>
    refine .seq (safe_writeIntent hn hintend hs) fun _ l w hs => ?_
    refine .seq (safe_pathExists (isSome_effect · ·) hs) fun b l w hb => ?_
    obtain ⟨hs, rfl⟩ := hb
    cases marker with
    | none => exact .imp (fun _ _ _ h => ⟨rfl, h⟩) (safe_moveIntent hn hland hs)
    | some old =>
      exact .imp (fun _ _ _ h => ⟨rfl, h⟩)
        (safe_replaceIntent hn hland (hlose (by simp)) hs)

/-! ## Receipts and their data -/

theorem WinIdentity.toJson_injective {i j : WinIdentity} (h : i.toJson = j.toJson) : i = j := by
  cases i
  cases j
  simp only [WinIdentity.toJson, Json.obj.injEq, List.cons.injEq, Prod.mk.injEq, Json.int.injEq,
    Json.str.injEq, Int.ofNat_inj] at h
  simp_all

theorem Binding.toJson_injective {b b' : Binding} (h : b.toJson = b'.toJson) : b = b' := by
  simp only [Binding.toJson, Json.obj.injEq, List.cons.injEq, Prod.mk.injEq, Json.int.injEq,
    Json.str.injEq, Int.ofNat_inj, true_and, and_true] at h
  obtain ⟨ha, hn, hl, hm, ho, ht⟩ := h
  have hl := WinIdentity.toJson_injective hl
  have hm := WinIdentity.toJson_injective hm
  have ht := WinIdentity.toJson_injective ht
  cases b
  cases b'
  simp_all

/-- Different receipts have different data. -/
theorem Receipt.data_injective {r r' : Receipt} (h : r.data = r'.data) : r = r' := by
  have hjson : r.toJson = r'.toJson := Option.some.inj (congrArg FileData.json h)
  simp only [Receipt.toJson, Json.obj.injEq, List.cons.injEq, Prod.mk.injEq, Json.str.injEq,
    true_and, and_true] at hjson
  obtain ⟨hb, ho, hs⟩ := hjson
  have hb := Binding.toJson_injective hb
  have hs : r.state = r'.state := by
    have := congrArg EffectState.parse hs
    simpa using this
  cases r
  cases r'
  simp_all

@[simp] theorem Receipt.finished_binding (r : Receipt) (result : WindowsContentResult) :
    (r.finished result).binding = r.binding := rfl

@[simp] theorem Receipt.finished_operation (r : Receipt) (result : WindowsContentResult) :
    (r.finished result).operation = r.operation := rfl

theorem Receipt.finished_state (r : Receipt) (result : WindowsContentResult) :
    (r.finished result).state = if result.outcome = .installed then .completed else .uncertain :=
  rfl

theorem Receipt.finished_ne_prepared (r : Receipt) (result : WindowsContentResult) :
    (r.finished result).state ≠ .prepared := by
  rw [finished_state]
  split <;> simp

/-! ## Stages -/

/-- The slots after the receipt `r` was prepared. -/
inductive Slot.After (r : Receipt) : Slot → Prop
  | prepared (hr : r.state = .prepared) : After r ⟨some r.data, none⟩
  | concluding (result : WindowsContentResult) (hr : r.state = .prepared) :
    After r ⟨some r.data, some (r.finished result).data⟩
  | lost (result : WindowsContentResult) (hr : r.state = .prepared) :
    After r ⟨none, some (r.finished result).data⟩
  | terminal (result : WindowsContentResult) (hr : r.state = .prepared) :
    After r ⟨some (r.finished result).data, none⟩

/-- All slots that calls can leave. -/
inductive Slot.Stage : Slot → Prop
  | empty : Stage .empty
  | intended {r : Receipt} (hr : r.state = .prepared) : Stage ⟨none, some r.data⟩
  | after {r : Receipt} {s : Slot} (h : After r s) : Stage s

/-- Steps keep the receipt that was prepared. -/
theorem Slot.After.step {r : Receipt} {c : BackendCall} {s s' : Slot} (hs : After r s)
    (h : Step c s s') : After r s' := by
  cases h with
  | intend => nomatch hs
  | mark =>
    generalize hd : Receipt.data _ = d at hs
    cases hs with
    | lost result hr =>
      have := Receipt.data_injective hd
      exact absurd (congrArg Receipt.state this).symm (r.finished_ne_prepared result)
  | @conclude b result r' hfin =>
    generalize hd : r'.data = d at hs
    cases hs with
    | prepared hr =>
      obtain rfl := Receipt.data_injective hd
      exact .concluding result hr
    | terminal result hr =>
      have hstate := hfin.prepared
      rw [Receipt.data_injective hd] at hstate
      exact absurd hstate (r.finished_ne_prepared result)
  | @record b result r' hfin =>
    generalize hd : r'.data = d at hs
    generalize hf : (r'.finished result).data = f at hs
    cases hs with
    | concluding result' hr =>
      obtain rfl := Receipt.data_injective hd
      exact .terminal result' hr
  | @lose b result r' hfin =>
    generalize hd : r'.data = d at hs
    generalize hf : (r'.finished result).data = f at hs
    cases hs with
    | concluding result' hr =>
      obtain rfl := Receipt.data_injective hd
      exact .lost result' hr

theorem Slot.Stage.step {c : BackendCall} {s s' : Slot} (hs : Stage s) (h : Step c s s') :
    Stage s' := by
  cases hs with
  | after hs => exact .after (hs.step h)
  | empty =>
    generalize hempty : Slot.empty = s at h
    cases h with
    | intend => exact .intended rfl
    | _ => simp [Slot.empty] at hempty
  | @intended r hr =>
    generalize hd : r.data = d at h
    cases h with
    | mark => exact .after (.prepared rfl)

/-- A terminal marker without an intent stays. -/
theorem Slot.not_step_terminal {r : Receipt} {c : BackendCall} {s' : Slot}
    (hr : r.state ≠ .prepared) (h : Step c ⟨some r.data, none⟩ s') : False := by
  generalize hd : r.data = d at h
  cases h with
  | conclude hfin =>
    have hstate := hfin.prepared
    rw [← Receipt.data_injective hd] at hstate
    exact hr hstate

/-- The marker of a stage is a receipt. -/
theorem Slot.Stage.marker {s : Slot} (hs : Stage s) {b : Binding} {r : Receipt}
    (h : s.Holds b r) : s.marker = some r.data := by
  have hreceipt : ∀ r' : Receipt, s.marker = some r'.data → s.marker = some r.data := by
    intro r' hr'
    rw [(h.eq hr').1]
    exact hr'
  cases hs with
  | empty => nomatch h
  | intended _ => nomatch h
  | after hs => cases hs with
    | lost => nomatch h
    | _ => exact hreceipt _ rfl

/-! ## Calls -/

/-- `begin_effect` returns only if there was no marker and no intent. -/
theorem safe_beginEffect {b : Binding} {operation : String} {s : Slot}
    (hs : slot b.operationId w = s) :
    Safe (backendRules (.beginEffect b operation))
      (fun _ _ w' => s = .empty ∧ slot b.operationId w' ≠ .empty) (fun _ _ _ => True)
      (beginEffect b operation) l w := by
  unfold beginEffect
  split
  · exact fun _ _ => trivial
  refine .seq (safe_spares (spares_revalidate b) hs) fun _ l w hs => ?_
  refine .seq (safe_pathExists (isSome_effect · ·) hs) fun present l w hp => ?_
  obtain ⟨hs, rfl⟩ := hp
  obtain ⟨marker, intent⟩ := s
  cases marker with
  | some data =>
    rw [Option.isSome_some, if_pos rfl]
    exact .seq (safe_inspectEffect hs) fun _ _ _ _ _ _ => trivial
  | none =>
    rw [Option.isSome_none, if_neg Bool.false_ne_true]
    have hn : b.operationId = (BackendCall.beginEffect b operation).binding.operationId := rfl
    refine .seq (safe_writeMarker hn hs (.intend b operation) (.mark b operation) fun h =>
      absurd rfl h) fun _ l w hw => ?_
    obtain ⟨hintent, hw⟩ := hw
    intro w' hw'
    refine ⟨by rw [Slot.empty, ← hintent], ?_⟩
    rw [hw' b.operationId, hw]
    simp [Slot.empty]

/-- `finish_effect` works on a marker that holds a receipt. -/
theorem safe_finishEffect {b : Binding} {result : WindowsContentResult} {s : Slot}
    (hstage : s.Stage) (hs : slot b.operationId w = s) :
    Safe (backendRules (.finishEffect b result)) (fun _ _ _ => True) (fun _ _ _ => True)
      (finishEffect b result) l w := by
  unfold finishEffect
  split
  · exact fun _ _ => trivial
  refine .seq (safe_inspectEffect hs) fun r l w hr => ?_
  obtain ⟨hs, hholds⟩ := hr
  split
  · exact fun _ _ => trivial
  rename_i hprepared
  split
  · exact fun _ _ => trivial
  rename_i hbound
  have hmarker : s.marker = some r.data := hstage.marker hholds
  have hfin : Finishes b result r :=
    ⟨(hholds.eq hmarker).2, not_not.mp hprepared, by simpa using hbound⟩
  refine .seq (safe_writeMarker rfl hs ?_ ?_ fun _ => ?_) fun _ _ _ _ _ _ => trivial
  · rw [hmarker]
    exact .conclude hfin
  · rw [hmarker]
    exact .record hfin
  · rw [hmarker]
    exact .lose hfin

theorem spares_inspectEffect (b : Binding) : Spares (inspectEffect b) := by
  refine .bind (spares_revalidate b) fun _ => .bind (.bind (spares_read _ _).attempt ?_) fun _ =>
    .ofExcept _
  rintro (x | ⟨bytes, json⟩)
  · trivial
  · rcases json with _ | json
    · trivial
    · cases json <;> trivial

theorem spares_adopt (site : Site) (b : Binding) (source : Spelled) :
    Spares (adopt site b source) := by
  refine .bind (.bind (spares_inspectEffect b) fun _ => .ite trivial ?_) fun _ =>
    spares_adoptManifest _ _ _ _ _
  exact .bind (.ofExcept _) fun _ => .ite trivial trivial

/-- `begin_effect` has returned with a receipt. -/
def BackendAnswer.begins : BackendAnswer → Bool
  | .began _ => true
  | _ => false

/-- Every call keeps its rules, and a call that returns from `begin_effect`
leaves the empty slot. -/
theorem safe_program (site : Site) {s : Slot} (hstage : s.Stage)
    (hs : slot c.binding.operationId w = s) :
    Safe (backendRules c) (fun a _ w' => a.begins = true →
        s = .empty ∧ slot c.binding.operationId w' ≠ .empty) (fun _ _ _ => True)
      (c.program site) l w := by
  cases c with
  | beginEffect b operation =>
    change slot b.operationId w = s at hs
    refine .seq (safe_beginEffect hs) fun r l w hr w' hw' _ => ⟨hr.1, fun hempty => ?_⟩
    exact hr.2 ((hw' _).symm.trans hempty)
  | inspectEffect b =>
    exact .seq (safe_spares (spares_inspectEffect b) hs) fun _ _ _ _ _ _ h => nomatch h
  | finishEffect b result =>
    exact .seq (safe_finishEffect hstage hs) fun _ _ _ _ _ _ h => nomatch h
  | adopt b source =>
    exact .seq (safe_spares (spares_adopt site b source) hs) fun _ _ _ _ _ _ h => nomatch h

/-! ## Sessions -/

/-- One call that was made: its primitives, newest first, and what it had left
to do when it was cut. -/
structure Entry where
  call : BackendCall
  moves : List (Move WinSig WinFs)
  rest : WinProg BackendAnswer

/-- The calls made so far, newest first, one after the other.  Each is cut at
any point, and between and during them others do not touch the slots. -/
inductive Session (site : Site) (start : WinFs) : List Entry → WinFs → Prop
  | start : Session site start [] start
  | call {h : List Entry} {c : BackendCall} {l : List (Move WinSig WinFs)}
      {p : WinProg BackendAnswer} {w w₁ w₂ : WinFs} (hs : Session site start h w)
      (hrely : KeepsSlots w w₁) (hrun : Run WinCall.perform KeepsSlots (c.program site) w₁ l p w₂) :
    Session site start (⟨c, l, p⟩ :: h) w₂

/-- All primitives of a session with their calls, newest first. -/
def primitives (h : List Entry) : List (BackendCall × Move WinSig WinFs) :=
  h.flatMap fun e => e.moves.map fun m => (e.call, m)

/-- What primitives have done to the slot of operation `n`, from the slot `s₀`. -/
inductive SlotRun (n : Nat) (s₀ : Slot) : List (BackendCall × Move WinSig WinFs) → Slot → Prop
  | start : SlotRun n s₀ [] s₀
  | keep {c : BackendCall} {l : List (BackendCall × Move WinSig WinFs)} {m : Move WinSig WinFs}
      {s : Slot} (h : SlotRun n s₀ l s) (hbefore : slot n m.before = s)
      (hafter : slot n m.after = s) : SlotRun n s₀ ((c, m) :: l) s
  | step {c : BackendCall} {l : List (BackendCall × Move WinSig WinFs)} {m : Move WinSig WinFs}
      {s s' : Slot} (h : SlotRun n s₀ l s) (hstep : Slot.Step c s s')
      (hbefore : slot n m.before = s) (hafter : slot n m.after = s') :
    SlotRun n s₀ ((c, m) :: l) s'

variable {n : Nat} {ops ops' : List (BackendCall × Move WinSig WinFs)} {s₀ s s' : Slot}

theorem SlotRun.trans (h : SlotRun n s₀ ops s) (h' : SlotRun n s ops' s') :
    SlotRun n s₀ (ops' ++ ops) s' := by
  induction h' with
  | start => exact h
  | keep _ hbefore hafter ih => exact .keep ih hbefore hafter
  | step _ hstep hbefore hafter ih => exact .step ih hstep hbefore hafter

theorem SlotRun.stage (h : SlotRun n s₀ ops s) (hs : s₀.Stage) : s.Stage := by
  induction h with
  | start => exact hs
  | keep _ _ _ ih => exact ih
  | step _ hstep _ _ ih => exact ih.step hstep

theorem SlotRun.after {r : Receipt} (h : SlotRun n s₀ ops s) (hs : s₀.After r) : s.After r := by
  induction h with
  | start => exact hs
  | keep _ _ _ ih => exact ih
  | step _ hstep _ _ ih => exact ih.step hstep

theorem SlotRun.ne_empty (h : SlotRun n s₀ ops s) (hs : s₀ ≠ .empty) : s ≠ .empty := by
  induction h with
  | start => exact hs
  | keep _ _ _ ih => exact ih
  | step _ hstep _ _ _ => exact hstep.ne_empty

/-- A terminal marker stays. -/
theorem SlotRun.terminal {r : Receipt} (h : SlotRun n s₀ ops s) (hs : s₀ = ⟨some r.data, none⟩)
    (hr : r.state ≠ .prepared) : s = ⟨some r.data, none⟩ := by
  induction h with
  | start => exact hs
  | keep _ _ _ ih => exact ih
  | step _ hstep _ _ ih =>
    rw [ih] at hstep
    exact (Slot.not_step_terminal hr hstep).elim

/-- The primitives of one call are a run of each slot. -/
theorem slotRun_program {site : Site} {p : WinProg BackendAnswer} {w₁ w₂ : WinFs}
    (hstage : (slot c.binding.operationId w₁).Stage)
    (hrun : Run WinCall.perform KeepsSlots (c.program site) w₁ l p w₂) :
    SlotRun n (slot n w₁) (l.map fun m => (c, m)) (slot n w₂) := by
  induction hrun with
  | start => exact .start
  | @step l c' k a v v₁ v₂ hr hrely hperform ih =>
    have hguar := (safe_program (l := []) site hstage rfl).guar (r := backendRules c)
      (.step hr hrely hperform) n
    have hbefore : slot n v₁ = slot n v := hrely n
    rcases hguar with hsame | ⟨_, hstep⟩
    · have hafter : slot n v₂ = slot n v := hsame.trans hbefore
      rw [hafter]
      exact .keep ih hbefore hafter
    · exact .step ih (hbefore ▸ hstep) hbefore rfl

/-- A session is a run of each slot. -/
theorem Session.slotRun {site : Site} {start : WinFs} {h : List Entry}
    (hs : Session site start h w) (hstart : ∀ n, slot n start = .empty) (n : Nat) :
    SlotRun n .empty (primitives h) (slot n w) := by
  induction hs generalizing n with
  | start =>
    rw [hstart]
    exact .start
  | @call h c l p w w₁ w₂ hs hrely hrun ih =>
    have hn : ∀ n, SlotRun n .empty (primitives h) (slot n w₁) := by
      intro n
      rw [hrely n]
      exact ih n
    exact (hn n).trans (slotRun_program ((hn c.binding.operationId).stage .empty) hrun)

/-! ## Results -/

/-- The call was `begin_effect` for operation `n`, and it returned a receipt. -/
def Entry.begins (n : Nat) (e : Entry) : Bool :=
  e.call.binding.operationId == n && e.rest.returned.any BackendAnswer.begins

/-- A returned `begin_effect` leaves the empty slot, which nothing restores. -/
theorem Session.countP_begins {site : Site} {start : WinFs} {h : List Entry}
    (hs : Session site start h w) (hstart : ∀ n, slot n start = .empty) (n : Nat) :
    h.countP (Entry.begins n) ≤ 1 ∧ (slot n w = .empty → h.countP (Entry.begins n) = 0) := by
  induction hs with
  | start => simp
  | @call h c l p w w₁ w₂ hs hrely hrun ih =>
    obtain ⟨hone, hnone⟩ := ih
    have hstage : (slot c.binding.operationId w₁).Stage := by
      rw [hrely]
      exact (hs.slotRun hstart _).stage .empty
    rw [List.countP_cons]
    by_cases hbegins : Entry.begins n ⟨c, l, p⟩ = true
    · rw [if_pos hbegins]
      simp only [Entry.begins, Bool.and_eq_true, beq_iff_eq, Option.any_eq_true] at hbegins
      obtain ⟨rfl, a, hreturned, ha⟩ := hbegins
      have hp := Prog.eq_ret_of_returned hreturned
      subst hp
      obtain ⟨hempty, hleft⟩ := ((safe_program (l := []) site hstage rfl).run hrun).of_ret ha
      rw [hnone ((hrely _).symm.trans hempty)]
      exact ⟨le_refl 1, fun h => absurd h hleft⟩
    · rw [if_neg hbegins, Nat.add_zero]
      refine ⟨hone, fun hempty => hnone ?_⟩
      by_contra hne
      rw [← hrely n] at hne
      exact (slotRun_program hstage hrun).ne_empty hne hempty

/-- What a receipt may become: itself, or finished if it is prepared. -/
inductive Receipt.Advances (r : Receipt) : Receipt → Prop
  | same : Advances r r
  | finished (hr : r.state = .prepared) (result : WindowsContentResult) :
    Advances r (r.finished result)

/-- The markers of two slots, the later one second. -/
def Slot.Leads (s s' : Slot) : Prop :=
  ∀ b b' r r', s.Holds b r → s'.Holds b' r' → r.Advances r'

/-- The receipts in the marker after `r` was prepared. -/
theorem Slot.After.advances {r r' : Receipt} (h : After r s) (hr' : s.marker = some r'.data) :
    r.Advances r' := by
  cases h with
  | prepared _ =>
    obtain rfl := Receipt.data_injective (Option.some.inj hr')
    exact .same
  | concluding _ _ =>
    obtain rfl := Receipt.data_injective (Option.some.inj hr')
    exact .same
  | lost _ _ => nomatch hr'
  | terminal result hr =>
    obtain rfl := Receipt.data_injective (Option.some.inj hr')
    exact .finished hr result

/-- A run of a slot only advances its marker. -/
theorem SlotRun.leads (h : SlotRun n s₀ ops s) (hs : s₀.Stage) : s₀.Leads s := by
  intro b b' r r' hr hr'
  have hmarker := hs.marker hr
  have hmarker' := (h.stage hs).marker hr'
  cases hs with
  | empty => nomatch hmarker
  | intended _ => nomatch hmarker
  | @after r₀ s₀ hs =>
    have hafter := h.after hs
    cases hs with
    | prepared _ =>
      obtain rfl := Receipt.data_injective (Option.some.inj hmarker)
      exact hafter.advances hmarker'
    | concluding _ _ =>
      obtain rfl := Receipt.data_injective (Option.some.inj hmarker)
      exact hafter.advances hmarker'
    | lost _ _ => nomatch hmarker
    | terminal result _ =>
      rw [h.terminal rfl (r₀.finished_ne_prepared result)] at hmarker'
      obtain rfl := Receipt.data_injective (Option.some.inj (hmarker.symm.trans hmarker'))
      exact .same

/-- The slots of a run, newest first. -/
def slots (n : Nat) (ops : List (BackendCall × Move WinSig WinFs)) : List Slot :=
  ops.flatMap fun op => [slot n op.2.after, slot n op.2.before]

/-- Every slot of the list leads to all slots before it, and to all that can
follow `s`. -/
def Ordered (n : Nat) (s : Slot) (l : List Slot) : Prop :=
  l.Pairwise (fun later earlier => earlier.Leads later) ∧
    ∀ t ∈ l, ∀ ops s', SlotRun n s ops s' → t.Leads s'

theorem Ordered.cons {t : List Slot} (h : Ordered n s t) (hs : s.Stage)
    (hop : SlotRun n s ops s') : Ordered n s' (s' :: s :: t) := by
  obtain ⟨hpairs, hleads⟩ := h
  have hold : ∀ u ∈ t, u.Leads s := fun u hu => hleads u hu [] s .start
  have hnew : ∀ u ∈ s :: t, ∀ ops' v, SlotRun n s' ops' v → u.Leads v := by
    intro u hu ops' v hv
    rcases List.mem_cons.mp hu with rfl | hu
    · exact (hop.trans hv).leads hs
    · exact hleads u hu _ _ (hop.trans hv)
  refine ⟨?_, ?_⟩
  · refine List.pairwise_cons.mpr ⟨fun u hu => hnew u hu [] s' .start, ?_⟩
    exact List.pairwise_cons.mpr ⟨hold, hpairs⟩
  · intro u hu ops' v hv
    rcases List.mem_cons.mp hu with rfl | hu
    · exact hv.leads (hop.stage hs)
    · exact hnew u hu ops' v hv

/-- Along a run every slot leads to all later ones. -/
theorem SlotRun.ordered (h : SlotRun n s₀ ops s) (hs : s₀.Stage) : Ordered n s (slots n ops) := by
  induction h with
  | start => exact ⟨.nil, fun t ht => by simp [slots] at ht⟩
  | @keep c l m s h hbefore hafter ih =>
    have hop : SlotRun n s [(c, m)] s := .keep .start hbefore hafter
    have := ih.cons (h.stage hs) hop
    rwa [slots, List.flatMap_cons, hbefore, hafter]
  | @step c l m s s' h hstep hbefore hafter ih =>
    have hop : SlotRun n s [(c, m)] s' := .step .start hstep hbefore hafter
    have := ih.cons (h.stage hs) hop
    rwa [slots, List.flatMap_cons, hbefore, hafter]

/-- A completed marker was recorded from a job result. -/
theorem SlotRun.installed {r : Receipt} (h : SlotRun n .empty ops s)
    (hr : s.marker = some r.data) (hcompleted : r.state = .completed) :
    ∃ b result r₀ m, (BackendCall.finishEffect b result, m) ∈ ops ∧ Finishes b result r₀ ∧
      r = r₀.finished result ∧ (slot n m.before).marker = some r₀.data ∧
      (slot n m.after).marker = some r.data := by
  have hnot : ∀ {b result} {r₀ : Receipt}, Finishes b result r₀ → r₀.data ≠ r.data := by
    intro b result r₀ hfin heq
    have hstate := hfin.prepared
    rw [Receipt.data_injective heq, hcompleted] at hstate
    nomatch hstate
  induction h with
  | start => nomatch hr
  | keep _ _ _ ih =>
    obtain ⟨b, result, r₀, m, hmem, hrest⟩ := ih hr
    exact ⟨b, result, r₀, m, List.mem_cons_of_mem _ hmem, hrest⟩
  | step _ hstep hbefore hafter ih =>
    cases hstep with
    | intend _ _ => nomatch hr
    | mark b operation =>
      have hprepared := Receipt.data_injective (Option.some.inj hr)
      rw [← hprepared] at hcompleted
      nomatch hcompleted
    | conclude hfin => exact absurd (Option.some.inj hr) (hnot hfin)
    | @record b result r₀ hfin =>
      obtain rfl := Receipt.data_injective (Option.some.inj hr)
      exact ⟨b, result, r₀, _, List.mem_cons_self, hfin, rfl, by rw [hbefore], by rw [hafter]⟩
    | lose hfin => nomatch hr

/-- The call was `finish_effect` with a job result for the binding and the
operation of `r` and with outcome `installed`, and it recorded `r`. -/
structure Entry.Records (e : Entry) (result : WindowsContentResult) (r : Receipt) : Prop where
  finish : ∃ b, e.call = .finishEffect b result
  installed : result.outcome = .installed
  appid : result.appid = r.binding.appid
  operationId : result.operationId = r.binding.operationId
  operation : result.operation = r.operation
  targetIdentity : result.targetIdentity = r.binding.targetIdentity
  recorded : ∃ m ∈ e.moves, (slot r.binding.operationId m.before).marker ≠ some r.data ∧
    (slot r.binding.operationId m.after).marker = some r.data

/-- What `adoptGate` returns is the completed marker. -/
theorem safe_adoptGate {b : Binding} {source : Spelled} {s : Slot}
    (hs : slot b.operationId w = s) :
    Safe (backendRules c) (fun r _ _ => s.Holds b r ∧ r.state = .completed) (fun _ _ _ => True)
      (adoptGate b source) l w := by
  unfold adoptGate
  refine .seq (safe_inspectEffect hs) fun r l w hr => ?_
  split
  · exact fun _ _ => trivial
  rename_i hcompleted
  refine .seq (safe_spares (.ofExcept _) hr.1) fun _ l w _ => ?_
  split
  · exact fun _ _ => trivial
  · exact fun _ _ => ⟨hr.2, not_not.mp hcompleted⟩

/-- `adopt_manifest` is reached only after a job result was recorded. -/
theorem Session.records {site : Site} {start : WinFs} {h : List Entry}
    (hs : Session site start h w) (hstart : ∀ n, slot n start = .empty) {b : Binding}
    {source : Spelled} {r : Receipt} {w₁ w₂ : WinFs} (hrely : KeepsSlots w w₁)
    (hrun : Run WinCall.perform KeepsSlots (adoptGate b source) w₁ l (.ret r) w₂) :
    r.binding = b ∧ ∃ e ∈ h, ∃ result, e.Records result r := by
  have hgate := (safe_adoptGate (l := []) (c := .inspectEffect b) (hrely b.operationId)).run
    (r := backendRules _) hrun
  obtain ⟨hholds, hcompleted⟩ := hgate.of_ret
  have hslot := hs.slotRun hstart b.operationId
  have hmarker := (hslot.stage .empty).marker hholds
  obtain ⟨b', result, r₀, m, hmem, hfin, rfl, hbefore, hafter⟩ := hslot.installed hmarker hcompleted
  have hbinding := (hholds.eq hmarker).2
  refine ⟨hbinding, ?_⟩
  obtain ⟨e, he, hmem⟩ := List.mem_flatMap.mp hmem
  obtain ⟨m', hm, heq⟩ := List.mem_map.mp hmem
  obtain ⟨hcall, rfl⟩ := Prod.mk.inj heq
  have hoperation : (r₀.finished result).binding.operationId = b.operationId := by rw [hbinding]
  have hbound := hfin.bound
  simp only [WindowsContentResult.bound, Bool.and_eq_true, beq_iff_eq] at hbound
  obtain ⟨⟨⟨happid, hid⟩, hop⟩, htarget⟩ := hbound
  refine ⟨e, he, result, ⟨b', hcall⟩, ?_, happid, hid, hop, htarget, m', hm, ?_, ?_⟩
  · by_contra hne
    rw [Receipt.finished_state, if_neg hne] at hcompleted
    nomatch hcompleted
  · rw [hoperation, hbefore]
    intro heq
    have := congrArg Receipt.state (Receipt.data_injective (Option.some.inj heq))
    rw [hfin.prepared] at this
    exact r₀.finished_ne_prepared result this.symm
  · rw [hoperation]
    exact hafter

/-- A content effect starts at most once, its recorded state only advances, and
adoption needs a recorded result. -/
theorem windows_effect_starts_once {site : Site} {start : WinFs} {h : List Entry}
    (hs : Session site start h w) (hstart : ∀ n, slot n start = .empty) :
    (∀ n, h.countP (Entry.begins n) ≤ 1) ∧
    (∀ n, (slots n (primitives h)).Pairwise fun later earlier => earlier.Leads later) ∧
    ∀ b source r l w₁ w₂, KeepsSlots w w₁ →
      Run WinCall.perform KeepsSlots (adoptGate b source) w₁ l (.ret r) w₂ →
      r.binding = b ∧ ∃ e ∈ h, ∃ result, e.Records result r :=
  ⟨fun n => (hs.countP_begins hstart n).1, fun n => ((hs.slotRun hstart n).ordered .empty).1,
    fun _ _ _ _ _ _ hrely hrun => hs.records hstart hrely hrun⟩

/-! ## A run -/

/-- The directories of an operation on app 620, and no files. -/
def effectFiles : WinFs where
  directories
    | .steamapps => some (numbered 14)
    | .target "p" => some (numbered 11)
    | .owned => some (numbered 10)
    | _ => none
  files := []

def effectBinding : Binding :=
  ⟨620, 7, "p", numbered 14, numbered 11, numbered 10⟩

def effectResult : WindowsContentResult :=
  ⟨.installed, 620, 7, "install", numbered 11, "windows-job/1"⟩

/-- The effect begins. -/
@[irreducible] def begun : List (Move WinSig WinFs) × WinProg BackendAnswer × WinFs :=
  ((BackendCall.beginEffect effectBinding "install").program portalSite).moves (winAnswers false) 40
    effectFiles []

/-- The effect is finished. -/
@[irreducible] def concluded : List (Move WinSig WinFs) × WinProg BackendAnswer × WinFs :=
  ((BackendCall.finishEffect effectBinding effectResult).program portalSite).moves
    (winAnswers false) 40 begun.2.2 []

/-- The gate before adoption. -/
@[irreducible] def admitted : List (Move WinSig WinFs) × WinProg Receipt × WinFs :=
  (adoptGate effectBinding ⟨"C:\\lib\\common\\p\\m.acf", .nested "p" 620⟩).moves
    (winAnswers false) 40 concluded.2.2 []

theorem KeepsSlots.refl (w : WinFs) : KeepsSlots w w :=
  fun _ => rfl

/-- The session of the two calls. -/
theorem session_concluded : Session portalSite effectFiles
    [⟨.finishEffect effectBinding effectResult, concluded.1, concluded.2.1⟩,
      ⟨.beginEffect effectBinding "install", begun.1, begun.2.1⟩] concluded.2.2 := by
  have hbegun := Run.of_moves KeepsSlots.refl (perform_winAnswers false)
    (by rw [begun] : _ = begun)
  have hconcluded := Run.of_moves KeepsSlots.refl (perform_winAnswers false)
    (by rw [concluded] : _ = concluded)
  exact .call (.call .start (.refl _) hbegun) (.refl _) hconcluded

/-- The effect begins once, is finished, and its manifest may be adopted. -/
theorem windows_effect_starts_once_portal :
    begun.2.1.returned.any BackendAnswer.begins = true ∧
    admitted.2.1.returned = some ⟨"install", effectBinding, .completed⟩ ∧
    ∃ (e : Entry) (result : WindowsContentResult),
      e.Records result ⟨"install", effectBinding, .completed⟩ := by
  have hreturned : begun.2.1.returned.any BackendAnswer.begins = true ∧
      admitted.2.1.returned = some ⟨"install", effectBinding, .completed⟩ := by decide +kernel
  obtain ⟨hbegun, hadmitted⟩ := hreturned
  have hrun := Run.of_returned KeepsSlots.refl (perform_winAnswers false)
    (by rw [admitted] : _ = admitted) hadmitted
  obtain ⟨-, -, hadopt⟩ := windows_effect_starts_once session_concluded fun _ => rfl
  obtain ⟨-, e, -, result, hrecords⟩ := hadopt _ _ _ _ _ _ (.refl _) hrun
  exact ⟨hbegun, hadmitted, e, result, hrecords⟩

end SteamAgent.Execution.Windows
