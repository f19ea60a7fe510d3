import SteamAgent.Stdlib.PyText
import SteamAgent.Stdlib.Result

/-!
# The markup of declared facts

`_BoundedHTMLParser` and `_LanguageParser` of `steam_declared_facts.py` as machines over the
events that `HTMLParser` calls them with.  `str.casefold` is a parameter: nothing depends on
what it does to a tag.

There are five groups.

* The bounded parser, one definition for each of its handlers.
* The language parser, which stops at a line break.
* What it means for a tag to be open.  `Opened` says it of a list of events, and `nest` is the
  stack that computes it.
* The invariant of the bounded parser, and the data that it never sees.
* The language parser until its line break.
-/

namespace SteamAgent.DeclaredFacts

/-! ## The bounded parser -/

/-- What `HTMLParser` calls a handler for.  The attributes of a tag are never read. -/
inductive Event where
  | startTag (tag : PyStr)
  | startEndTag (tag : PyStr)
  | endTag (tag : PyStr)
  | data (text : PyStr)
  | comment (text : PyStr)
deriving DecidableEq, Repr

def maxHtmlTokens : Nat :=
  8192

def maxHtmlDepth : Nat :=
  64

def maxSanitizedTextChars : Nat :=
  32 * 1024

/-- The code of `_invalid()`. -/
def invalid : String :=
  "PROVIDER_RESPONSE_INVALID"

/-- `_BREAK_TAGS`. -/
def breakTags : List PyStr :=
  ["br", "div", "li", "ol", "p", "tr", "ul"].map PyStr.ofString

/-- `_SKIP_TAGS`. -/
def skipTags : List PyStr :=
  ["script", "style", "template"].map PyStr.ofString

/-- `_VOID_TAGS`. -/
def voidTags : List PyStr :=
  ["area", "base", "br", "col", "embed", "hr", "img", "input", "link", "meta", "param", "source",
    "track", "wbr"].map PyStr.ofString

/-- `_BoundedHTMLParser`.  The tag that was opened last is the first of `openTags`. -/
structure Parser where
  parts : List PyStr
  tokens : Nat
  openTags : List PyStr
  skipDepth : Int
  characters : Nat
deriving DecidableEq, Repr

def Parser.init : Parser where
  parts := []
  tokens := 0
  openTags := []
  skipDepth := 0
  characters := 0

/-- `_token`. -/
def Parser.token (p : Parser) : Except String Parser :=
  if maxHtmlTokens < p.tokens + 1 then .error invalid else .ok { p with tokens := p.tokens + 1 }

/-- The line break that a tag stands for. -/
def Parser.lineBreak (p : Parser) (lowered : PyStr) : Parser :=
  if p.skipDepth = 0 ∧ lowered ∈ breakTags then { p with parts := p.parts ++ [[10]] } else p

/-- The tag is open from here on, unless it is void. -/
def Parser.opened (p : Parser) (lowered : PyStr) : Parser :=
  if lowered ∈ voidTags then p else { p with openTags := lowered :: p.openTags }

section Casefold

variable (casefold : PyStr → PyStr)

def handleStarttag (p : Parser) (tag : PyStr) : Except String Parser :=
  p.token >>= fun p =>
    if maxHtmlDepth < (p.opened (casefold tag)).openTags.length then .error invalid
    else if casefold tag ∈ skipTags then
      .ok { p.opened (casefold tag) with skipDepth := p.skipDepth + 1 }
    else .ok ((p.opened (casefold tag)).lineBreak (casefold tag))

def handleStartendtag (p : Parser) (tag : PyStr) : Except String Parser :=
  p.token >>= fun p =>
    if casefold tag ∈ skipTags then .error invalid else .ok (p.lineBreak (casefold tag))

def handleEndtag (p : Parser) (tag : PyStr) : Except String Parser :=
  p.token >>= fun p =>
    if casefold tag ∈ voidTags then .ok (p.lineBreak (casefold tag))
    else
      match p.openTags with
      | [] => .error invalid
      | top :: rest =>
        if top ≠ casefold tag then .error invalid
        else if casefold tag ∈ skipTags then
          .ok { p with openTags := rest, skipDepth := p.skipDepth - 1 }
        else .ok (Parser.lineBreak { p with openTags := rest } (casefold tag))

def handleData (p : Parser) (text : PyStr) : Except String Parser :=
  p.token >>= fun p =>
    if p.skipDepth ≠ 0 then .ok p
    else if maxSanitizedTextChars * 2 < p.characters + text.length then .error invalid
    else .ok { p with characters := p.characters + text.length, parts := p.parts ++ [text] }

def handle (p : Parser) : Event → Except String Parser
  | .startTag tag => handleStarttag casefold p tag
  | .startEndTag tag => handleStartendtag casefold p tag
  | .endTag tag => handleEndtag casefold p tag
  | .data text => handleData p text
  | .comment _ => p.token

/-- The parser after some events. -/
def run (events : List Event) : Except String Parser :=
  events.foldlM (handle casefold) .init

/-! ## The language parser -/

/-- `_LanguageParser`. -/
structure LanguageParser where
  base : Parser
  beforeBreak : Bool
deriving DecidableEq, Repr

def LanguageParser.init : LanguageParser where
  base := .init
  beforeBreak := true

/-- The handler of `_BoundedHTMLParser`, before the break. -/
def LanguageParser.inherited (p : LanguageParser) (e : Event) : Except String LanguageParser :=
  if p.beforeBreak then handle casefold p.base e >>= fun base => .ok { p with base := base }
  else .ok p

/-- The tag is a line break. -/
def isBr (tag : PyStr) : Bool :=
  casefold tag = PyStr.ofString "br"

def languageHandle (p : LanguageParser) : Event → Except String LanguageParser
  | .startTag tag =>
    let p := if isBr casefold tag then { p with beforeBreak := false } else p
    p.inherited casefold (.startTag tag)
  | .startEndTag tag =>
    if isBr casefold tag then .ok { p with beforeBreak := false }
    else p.inherited casefold (.startEndTag tag)
  | e => p.inherited casefold e

def languageRun (events : List Event) : Except String LanguageParser :=
  events.foldlM (languageHandle casefold) .init

/-- `text.split(",")`, with the part that was begun. -/
def splitCommas (part : PyStr) : PyStr → List PyStr
  | [] => [part]
  | c :: rest => if c = 44 then part :: splitCommas [] rest else splitCommas (part ++ [c]) rest

/-- `items`. -/
def items (p : Parser) : List PyStr :=
  (splitCommas [] p.parts.flatten).filter fun part => !PyStr.isBlank part

def languageItems (events : List Event) : Except String (List PyStr) :=
  (languageRun casefold events).map fun p => items p.base

/-! ## Open tags -/

/-- The tag that an event opens: a void tag is never open. -/
def opens : Event → Option PyStr
  | .startTag tag => if casefold tag ∈ voidTags then none else some (casefold tag)
  | _ => none

/-- The tag that an event closes. -/
def closes : Event → Option PyStr
  | .endTag tag => if casefold tag ∈ voidTags then none else some (casefold tag)
  | _ => none

/-- Events that close each tag they open, and no other. -/
inductive Balanced : List Event → Prop where
  | nil : Balanced []
  | other {e : Event} {rest : List Event} (hopens : opens casefold e = none)
      (hcloses : closes casefold e = none) (hrest : Balanced rest) : Balanced (e :: rest)
  | pair {s e : Event} {inner rest : List Event} {tag : PyStr}
      (hopens : opens casefold s = some tag) (hinner : Balanced inner)
      (hcloses : closes casefold e = some tag) (hrest : Balanced rest) :
      Balanced (s :: inner ++ e :: rest)

/-- The tags that are open after some events, the last one first.  Between one and the next
everything that was opened has been closed. -/
inductive Opened : List Event → List PyStr → Prop where
  | base {events : List Event} (hbalanced : Balanced casefold events) : Opened events []
  | inside {front inner : List Event} {s : Event} {tags : List PyStr} {tag : PyStr}
      (hfront : Opened front tags) (hopens : opens casefold s = some tag)
      (hinner : Balanced casefold inner) : Opened (front ++ s :: inner) (tag :: tags)

/-- A script, style or template tag is open. -/
def Hidden (events : List Event) : Prop :=
  ∃ tags, Opened casefold events tags ∧ ∃ tag ∈ tags, tag ∈ skipTags

/-- The events that follow, where data in a hidden place is any other data. -/
inductive Redacted : List Event → List Event → List Event → Prop where
  | nil (before : List Event) : Redacted before [] []
  | keep {before rest rest' : List Event} (e : Event)
      (hrest : Redacted (before ++ [e]) rest rest') : Redacted before (e :: rest) (e :: rest')
  | hide {before rest rest' : List Event} (text text' : PyStr) (hhidden : Hidden casefold before)
      (hrest : Redacted (before ++ [.data text]) rest rest') :
      Redacted before (.data text :: rest) (.data text' :: rest')

/-- The stack of open tags after one more event. -/
def nest (tags : List PyStr) (e : Event) : Option (List PyStr) :=
  match opens casefold e with
  | some tag => some (tag :: tags)
  | none =>
    match closes casefold e with
    | none => some tags
    | some tag =>
      match tags with
      | [] => none
      | top :: rest => if top = tag then some rest else none

variable {casefold}

theorem nest_opens {tags : List PyStr} {e : Event} {tag : PyStr} (h : opens casefold e = some tag) :
    nest casefold tags e = some (tag :: tags) := by
  rw [nest, h]

theorem opens_eq_none_of_closes {e : Event} {tag : PyStr} (h : closes casefold e = some tag) :
    opens casefold e = none := by
  cases e with
  | startTag t => cases h
  | endTag t => rfl
  | _ => cases h

theorem nest_closes {tags : List PyStr} {e : Event} {tag : PyStr}
    (h : closes casefold e = some tag) : nest casefold (tag :: tags) e = some tags := by
  rw [nest, opens_eq_none_of_closes h, h]
  exact if_pos rfl

theorem nest_other {tags : List PyStr} {e : Event} (hopens : opens casefold e = none)
    (hcloses : closes casefold e = none) : nest casefold tags e = some tags := by
  rw [nest, hopens, hcloses]

/-- What one event does to the stack. -/
theorem nest_cases {tags tags' : List PyStr} {e : Event} (h : nest casefold tags e = some tags') :
    (∃ tag, opens casefold e = some tag ∧ tags' = tag :: tags) ∨
      (∃ tag, closes casefold e = some tag ∧ tags = tag :: tags') ∨
      (opens casefold e = none ∧ closes casefold e = none ∧ tags' = tags) := by
  unfold nest at h
  split at h
  · next tag hopens => exact .inl ⟨tag, hopens, (Option.some.inj h).symm⟩
  · next hopens =>
    split at h
    · next hcloses => exact .inr (.inr ⟨hopens, hcloses, (Option.some.inj h).symm⟩)
    · next tag hcloses =>
      cases tags with
      | nil => cases h
      | cons top rest =>
        obtain ⟨htop, h⟩ := (Option.ite_none_right_eq_some).mp h
        rw [htop, Option.some.inj h]
        exact .inr (.inl ⟨tag, hcloses, rfl⟩)

theorem Balanced.append {a b : List Event} (ha : Balanced casefold a) (hb : Balanced casefold b) :
    Balanced casefold (a ++ b) := by
  induction ha with
  | nil => exact hb
  | other hopens hcloses _ ih => exact .other hopens hcloses ih
  | pair hopens hinner hcloses _ _ ih =>
    rw [List.append_assoc, List.cons_append]
    exact .pair hopens hinner hcloses ih

theorem Balanced.foldlM_nest {events : List Event} (h : Balanced casefold events)
    (tags : List PyStr) : events.foldlM (nest casefold) tags = some tags := by
  induction h generalizing tags with
  | nil => rfl
  | other hopens hcloses _ ih =>
    rw [List.foldlM_cons, nest_other hopens hcloses]
    exact ih tags
  | @pair s e inner rest tag hopens _ hcloses _ ihinner ihrest =>
    rw [List.cons_append, List.foldlM_cons, nest_opens hopens]
    show (inner ++ e :: rest).foldlM (nest casefold) (tag :: tags) = some tags
    rw [List.foldlM_append, ihinner (tag :: tags)]
    show (e :: rest).foldlM (nest casefold) (tag :: tags) = some tags
    rw [List.foldlM_cons, nest_closes hcloses]
    exact ihrest tags

theorem Opened.foldlM_nest {events : List Event} {tags : List PyStr}
    (h : Opened casefold events tags) : events.foldlM (nest casefold) [] = some tags := by
  induction h with
  | base hbalanced => exact hbalanced.foldlM_nest []
  | @inside front inner s tags tag _ hopens hinner ih =>
    rw [List.foldlM_append, ih]
    show (s :: inner).foldlM (nest casefold) tags = some (tag :: tags)
    rw [List.foldlM_cons, nest_opens hopens]
    exact hinner.foldlM_nest (tag :: tags)

/-- The open tags are determined by the events. -/
theorem Opened.unique {events : List Event} {tags tags' : List PyStr}
    (h : Opened casefold events tags) (h' : Opened casefold events tags') : tags = tags' :=
  Option.some.inj (h.foldlM_nest.symm.trans h'.foldlM_nest)

theorem Opened.append {events more : List Event} {tags : List PyStr}
    (h : Opened casefold events tags) (hmore : Balanced casefold more) :
    Opened casefold (events ++ more) tags := by
  cases h with
  | base hbalanced => exact .base (hbalanced.append hmore)
  | inside hfront hopens hinner =>
    rw [List.append_assoc, List.cons_append]
    exact .inside hfront hopens (hinner.append hmore)

theorem Opened.nest {events : List Event} {tags tags' : List PyStr} {e : Event}
    (h : Opened casefold events tags) (hnest : nest casefold tags e = some tags') :
    Opened casefold (events ++ [e]) tags' := by
  rcases nest_cases hnest with ⟨tag, hopens, rfl⟩ | ⟨tag, hcloses, rfl⟩ | ⟨hopens, hcloses, rfl⟩
  · exact .inside h hopens .nil
  · cases h with
    | @inside front inner s _ _ hfront hopens hinner =>
      rw [List.append_assoc, List.cons_append]
      exact hfront.append (.pair hopens hinner hcloses .nil)
  · exact h.append (.other hopens hcloses .nil)

/-! ## The invariant of the bounded parser -/

variable (casefold)

/-- How many script, style and template tags are open. -/
def skipCount (tags : List PyStr) : Nat :=
  tags.countP fun tag => tag ∈ skipTags

structure Parser.Sound (events : List Event) (p : Parser) : Prop where
  opened : Opened casefold events p.openTags
  skipDepth : p.skipDepth = skipCount p.openTags
  tokens : p.tokens ≤ maxHtmlTokens
  depth : p.openTags.length ≤ maxHtmlDepth

/-- The open tags move as the stack does, and the skip depth with them. -/
structure Moves (p p' : Parser) (e : Event) : Prop where
  nest : nest casefold p.openTags e = some p'.openTags
  skipDepth : p'.skipDepth + skipCount p.openTags = p.skipDepth + skipCount p'.openTags
  tokens : p'.tokens ≤ maxHtmlTokens
  depth : p.openTags.length ≤ maxHtmlDepth → p'.openTags.length ≤ maxHtmlDepth

variable {casefold}

theorem skip_not_void {tag : PyStr} (h : tag ∈ skipTags) : tag ∉ voidTags := by
  revert tag
  decide +kernel

theorem token_eq_ok {p p' : Parser} (h : p.token = .ok p') :
    p.tokens + 1 ≤ maxHtmlTokens ∧ p' = { p with tokens := p.tokens + 1 } := by
  obtain ⟨hbound, h⟩ := Result.guard_eq_ok.mp h
  cases h
  exact ⟨Nat.not_lt.mp hbound, rfl⟩

@[simp] theorem lineBreak_openTags (p : Parser) (lowered : PyStr) :
    (p.lineBreak lowered).openTags = p.openTags := by
  unfold Parser.lineBreak
  split <;> rfl

@[simp] theorem lineBreak_skipDepth (p : Parser) (lowered : PyStr) :
    (p.lineBreak lowered).skipDepth = p.skipDepth := by
  unfold Parser.lineBreak
  split <;> rfl

@[simp] theorem lineBreak_tokens (p : Parser) (lowered : PyStr) :
    (p.lineBreak lowered).tokens = p.tokens := by
  unfold Parser.lineBreak
  split <;> rfl

@[simp] theorem skipCount_cons (tag : PyStr) (tags : List PyStr) :
    skipCount (tag :: tags) = skipCount tags + if tag ∈ skipTags then 1 else 0 := by
  simp [skipCount, List.countP_cons]

/-- A handler that leaves the open tags as they are. -/
theorem moves_of_same {p p' : Parser} {e : Event} (hopens : opens casefold e = none)
    (hcloses : closes casefold e = none) (htags : p'.openTags = p.openTags)
    (hskip : p'.skipDepth = p.skipDepth) (htokens : p'.tokens ≤ maxHtmlTokens) :
    Moves casefold p p' e where
  nest := by rw [nest_other hopens hcloses, htags]
  skipDepth := by rw [htags, hskip]
  tokens := htokens
  depth := by rw [htags]; exact id

theorem handleStarttag_moves {p p' : Parser} {tag : PyStr}
    (h : handleStarttag casefold p tag = .ok p') : Moves casefold p p' (.startTag tag) := by
  obtain ⟨q, hq, h⟩ := Result.bind_eq_ok.mp h
  obtain ⟨htokens, rfl⟩ := token_eq_ok hq
  obtain ⟨hdepth, h⟩ := Result.guard_eq_ok.mp h
  rw [Nat.not_lt] at hdepth
  by_cases hvoid : casefold tag ∈ voidTags
  · have hopens : opens casefold (.startTag tag) = none := if_pos hvoid
    have hskip : casefold tag ∉ skipTags := fun hskip => skip_not_void hskip hvoid
    rw [if_neg hskip, Parser.opened, if_pos hvoid] at h
    cases h
    exact moves_of_same hopens rfl (by simp) (by simp) (by simpa using htokens)
  · have hopens : opens casefold (.startTag tag) = some (casefold tag) := if_neg hvoid
    rw [Parser.opened, if_neg hvoid] at h hdepth
    by_cases hskip : casefold tag ∈ skipTags
    · rw [if_pos hskip] at h
      cases h
      exact {
        nest := nest_opens hopens
        skipDepth := by simp [hskip]; omega
        tokens := htokens
        depth := fun _ => hdepth }
    · rw [if_neg hskip] at h
      cases h
      exact {
        nest := by rw [nest_opens hopens, lineBreak_openTags]
        skipDepth := by simp [hskip]
        tokens := by simpa using htokens
        depth := fun _ => by simpa using hdepth }

theorem handleStartendtag_moves {p p' : Parser} {tag : PyStr}
    (h : handleStartendtag casefold p tag = .ok p') : Moves casefold p p' (.startEndTag tag) := by
  obtain ⟨q, hq, h⟩ := Result.bind_eq_ok.mp h
  obtain ⟨htokens, rfl⟩ := token_eq_ok hq
  obtain ⟨-, h⟩ := Result.guard_eq_ok.mp h
  cases h
  exact moves_of_same rfl rfl (by simp) (by simp) (by simpa using htokens)

theorem handleEndtag_moves {p p' : Parser} {tag : PyStr}
    (h : handleEndtag casefold p tag = .ok p') : Moves casefold p p' (.endTag tag) := by
  obtain ⟨q, hq, h⟩ := Result.bind_eq_ok.mp h
  obtain ⟨htokens, rfl⟩ := token_eq_ok hq
  by_cases hvoid : casefold tag ∈ voidTags
  · have hcloses : closes casefold (.endTag tag) = none := if_pos hvoid
    rw [if_pos hvoid] at h
    cases h
    exact moves_of_same rfl hcloses (by simp) (by simp) (by simpa using htokens)
  · have hcloses : closes casefold (.endTag tag) = some (casefold tag) := if_neg hvoid
    rw [if_neg hvoid] at h
    cases htags : p.openTags with
    | nil =>
      rw [htags] at h
      cases h
    | cons top rest =>
      rw [htags] at h
      obtain ⟨htop, h⟩ := Result.guard_eq_ok.mp h
      rw [not_not] at htop
      subst htop
      have hnest : nest casefold (_ :: rest) _ = some rest := nest_closes hcloses
      by_cases hskip : casefold tag ∈ skipTags
      · rw [if_pos hskip] at h
        cases h
        exact {
          nest := by rw [htags]; exact hnest
          skipDepth := by
            rw [htags]
            simp only [skipCount, List.countP_cons, hskip, decide_true, if_true]
            omega
          tokens := htokens
          depth := fun hdepth => by rw [htags] at hdepth; simp at hdepth ⊢; omega }
      · rw [if_neg hskip] at h
        cases h
        exact {
          nest := by rw [htags, hnest, lineBreak_openTags]
          skipDepth := by rw [htags]; simp [hskip]
          tokens := by simpa using htokens
          depth := fun hdepth => by rw [htags] at hdepth; simp at hdepth ⊢; omega }

theorem handleData_moves {p p' : Parser} {text : PyStr} (h : handleData p text = .ok p') :
    Moves casefold p p' (.data text) := by
  obtain ⟨q, hq, h⟩ := Result.bind_eq_ok.mp h
  obtain ⟨htokens, rfl⟩ := token_eq_ok hq
  by_cases hskip : p.skipDepth ≠ 0
  · rw [if_pos hskip] at h
    cases h
    exact moves_of_same rfl rfl rfl rfl htokens
  · rw [if_neg hskip] at h
    obtain ⟨-, h⟩ := Result.guard_eq_ok.mp h
    cases h
    exact moves_of_same rfl rfl rfl rfl htokens

theorem handle_moves {p p' : Parser} {e : Event} (h : handle casefold p e = .ok p') :
    Moves casefold p p' e := by
  cases e with
  | startTag tag => exact handleStarttag_moves h
  | startEndTag tag => exact handleStartendtag_moves h
  | endTag tag => exact handleEndtag_moves h
  | data text => exact handleData_moves h
  | comment text =>
    obtain ⟨htokens, rfl⟩ := token_eq_ok h
    exact moves_of_same rfl rfl rfl rfl htokens

/-- One event keeps the invariant. -/
theorem Parser.Sound.handle {events : List Event} {p p' : Parser} {e : Event}
    (hp : p.Sound casefold events) (h : handle casefold p e = .ok p') :
    p'.Sound casefold (events ++ [e]) := by
  have hmoves := handle_moves h
  refine ⟨hp.opened.nest hmoves.nest, ?_, hmoves.tokens, hmoves.depth hp.depth⟩
  have hskip := hmoves.skipDepth
  have hbefore := hp.skipDepth
  omega

theorem sound_init : Parser.init.Sound casefold [] where
  opened := .base .nil
  skipDepth := rfl
  tokens := Nat.zero_le _
  depth := Nat.zero_le _

/-- A run keeps the invariant. -/
theorem Parser.Sound.run {before events : List Event} {p p' : Parser}
    (hp : p.Sound casefold before)
    (h : events.foldlM (DeclaredFacts.handle casefold) p = .ok p') :
    p'.Sound casefold (before ++ events) := by
  induction events generalizing before p with
  | nil =>
    cases h
    rw [List.append_nil]
    exact hp
  | cons e events ih =>
    rw [List.foldlM_cons] at h
    obtain ⟨q, hq, h⟩ := Result.bind_eq_ok.mp h
    have hrest := ih (hp.handle hq) h
    rwa [List.append_assoc] at hrest

/-- A run goes through each of its beginnings. -/
theorem run_append {before after : List Event} {p : Parser}
    (h : run casefold (before ++ after) = .ok p) :
    ∃ q, run casefold before = .ok q ∧ after.foldlM (handle casefold) q = .ok p := by
  rw [run, List.foldlM_append] at h
  exact Result.bind_eq_ok.mp h

/-- In a hidden place the skip depth is not zero. -/
theorem Parser.Sound.skipDepth_ne_zero {before : List Event} {p : Parser}
    (hp : p.Sound casefold before) (hhidden : Hidden casefold before) : p.skipDepth ≠ 0 := by
  obtain ⟨tags, htags, tag, htag, hskip⟩ := hhidden
  rw [htags.unique hp.opened] at htag
  have hpos : 0 < skipCount p.openTags :=
    List.countP_pos_iff.mpr ⟨tag, htag, decide_eq_true hskip⟩
  rw [hp.skipDepth]
  omega

/-- Data in a hidden place only counts as a token. -/
theorem handleData_hidden {p : Parser} (h : p.skipDepth ≠ 0) (text : PyStr) :
    handleData p text = p.token := by
  unfold handleData Parser.token
  split
  · rfl
  · exact if_pos h

/-- The parser ends alike whatever the hidden data was. -/
theorem Redacted.run_eq {before events events' : List Event}
    (h : Redacted casefold before events events') {p p' : Parser} (hp : p.Sound casefold before)
    (hrun : events.foldlM (handle casefold) p = .ok p') :
    events'.foldlM (handle casefold) p = .ok p' := by
  induction h generalizing p with
  | nil before => exact hrun
  | keep e _ ih =>
    rw [List.foldlM_cons] at hrun ⊢
    obtain ⟨q, hq, hrun⟩ := Result.bind_eq_ok.mp hrun
    exact Result.bind_eq_ok.mpr ⟨q, hq, ih (hp.handle hq) hrun⟩
  | hide text text' hhidden _ ih =>
    rw [List.foldlM_cons] at hrun ⊢
    obtain ⟨q, hq, hrun⟩ := Result.bind_eq_ok.mp hrun
    have hskip := hp.skipDepth_ne_zero hhidden
    refine Result.bind_eq_ok.mpr ⟨q, ?_, ih (hp.handle hq) hrun⟩
    show handleData p text' = .ok q
    rw [handleData_hidden hskip, ← handleData_hidden hskip text]
    exact hq

/-! ## The language parser until its line break -/

variable (casefold)

/-- The event is a line break for the language parser.  An end tag is none. -/
def isBreak : Event → Bool
  | .startTag tag => isBr casefold tag
  | .startEndTag tag => isBr casefold tag
  | _ => false

variable {casefold}

theorem languageHandle_before {p : Parser} {e : Event} (h : isBreak casefold e = false) :
    languageHandle casefold ⟨p, true⟩ e =
      (handle casefold p e).map fun base => ⟨base, true⟩ := by
  have hinherited : LanguageParser.inherited casefold ⟨p, true⟩ e =
      (handle casefold p e).map fun base => ⟨base, true⟩ := by
    rw [LanguageParser.inherited, if_pos rfl]
    cases handle casefold p e <;> rfl
  cases e with
  | startTag tag =>
    have hbr : isBr casefold tag = false := h
    simpa [languageHandle, hbr] using hinherited
  | startEndTag tag =>
    have hbr : isBr casefold tag = false := h
    simpa [languageHandle, hbr] using hinherited
  | endTag tag => exact hinherited
  | data text => exact hinherited
  | comment text => exact hinherited

theorem languageHandle_break {p : Parser} {e : Event} (h : isBreak casefold e = true) :
    languageHandle casefold ⟨p, true⟩ e = .ok ⟨p, false⟩ := by
  cases e with
  | startTag tag =>
    have hbr : isBr casefold tag = true := h
    simp [languageHandle, hbr, LanguageParser.inherited]
  | startEndTag tag => exact if_pos h
  | _ => cases h

theorem languageHandle_after (p : Parser) (e : Event) :
    languageHandle casefold ⟨p, false⟩ e = .ok ⟨p, false⟩ := by
  cases e with
  | startTag tag => simp [languageHandle, LanguageParser.inherited]
  | startEndTag tag => simp [languageHandle, LanguageParser.inherited]
  | _ => rfl

theorem languageRun_after (p : Parser) (events : List Event) :
    events.foldlM (languageHandle casefold) ⟨p, false⟩ = .ok ⟨p, false⟩ := by
  induction events with
  | nil => rfl
  | cons e events ih =>
    rw [List.foldlM_cons, languageHandle_after]
    exact ih

/-- Until the line break the language parser runs as the bounded one does. -/
theorem languageRun_before {before : List Event} (h : ∀ e ∈ before, isBreak casefold e = false)
    (p : Parser) :
    before.foldlM (languageHandle casefold) ⟨p, true⟩ =
      (before.foldlM (handle casefold) p).map fun base => ⟨base, true⟩ := by
  induction before generalizing p with
  | nil => rfl
  | cons e before ih =>
    rw [List.foldlM_cons, List.foldlM_cons, languageHandle_before (h e List.mem_cons_self)]
    cases handle casefold p e with
    | error message => rfl
    | ok q => exact ih (fun e' he' => h e' (List.mem_cons_of_mem _ he')) q

/-- The items come from what stands before the first line break. -/
theorem languageItems_eq {before : List Event} (h : ∀ e ∈ before, isBreak casefold e = false)
    {br : Event} (hbr : isBreak casefold br = true) (after : List Event) :
    languageItems casefold (before ++ br :: after) = (run casefold before).map items := by
  rw [languageItems, languageRun, List.foldlM_append, LanguageParser.init, languageRun_before h,
    run]
  cases before.foldlM (handle casefold) Parser.init with
  | error message => rfl
  | ok p =>
    show Except.map (fun q : LanguageParser => items q.base)
      ((br :: after).foldlM (languageHandle casefold) ⟨p, true⟩) = .ok (items p)
    rw [List.foldlM_cons, languageHandle_break hbr]
    show Except.map (fun q : LanguageParser => items q.base)
      (after.foldlM (languageHandle casefold) ⟨p, false⟩) = .ok (items p)
    rw [languageRun_after]
    rfl

/-- What was opened since the tag that an end tag closes has been closed. -/
theorem Opened.exists_inner {events : List Event} {tag : PyStr} {tags : List PyStr}
    (h : Opened casefold events (tag :: tags)) :
    ∃ front s inner, events = front ++ s :: inner ∧ opens casefold s = some tag ∧
      Balanced casefold inner := by
  cases h with
  | @inside front inner s _ _ _ hopens hinner => exact ⟨front, s, inner, rfl, hopens, hinner⟩

/-- An end tag that a run has gone through closes the last open tag. -/
theorem endTag_closes {before after : List Event} {tag : PyStr} {p : Parser}
    (h : run casefold (before ++ .endTag tag :: after) = .ok p) (hvoid : casefold tag ∉ voidTags) :
    ∃ tags, Opened casefold before (casefold tag :: tags) ∧
      Opened casefold (before ++ [.endTag tag]) tags := by
  obtain ⟨q, hq, hafter⟩ := run_append h
  rw [List.foldlM_cons] at hafter
  obtain ⟨q', hq', -⟩ := Result.bind_eq_ok.mp hafter
  have hbefore : q.Sound casefold before := sound_init.run hq
  have hnest := (handle_moves hq').nest
  have hcloses : closes casefold (.endTag tag) = some (casefold tag) := if_neg hvoid
  rcases nest_cases hnest with ⟨_, hopens, -⟩ | ⟨tag', hcloses', htags⟩ | ⟨-, hnone, -⟩
  · cases hopens
  · rw [hcloses] at hcloses'
    cases hcloses'
    exact ⟨q'.openTags, htags ▸ hbefore.opened, hbefore.opened.nest hnest⟩
  · rw [hcloses] at hnone
    cases hnone

variable (casefold)

/-- What both parsers promise of a run without an error. -/
theorem hidden_markup_never_collected :
    (∀ events p, run casefold events = .ok p →
      (∀ before tag after, events = before ++ .endTag tag :: after →
        (casefold tag ∉ voidTags → ∃ front s inner, before = front ++ s :: inner ∧
          opens casefold s = some (casefold tag) ∧ Balanced casefold inner) ∧
        (casefold tag ∈ voidTags → ∀ tags, Opened casefold before tags →
          Opened casefold (before ++ [.endTag tag]) tags)) ∧
      (∀ before after, events = before ++ after → ∃ q, run casefold before = .ok q ∧
        Opened casefold before q.openTags ∧ q.skipDepth = skipCount q.openTags ∧
        q.tokens ≤ maxHtmlTokens ∧ q.openTags.length ≤ maxHtmlDepth) ∧
      ∀ events', Redacted casefold [] events events' → run casefold events' = .ok p) ∧
    ∀ before br after, (∀ e ∈ before, isBreak casefold e = false) → isBreak casefold br = true →
      languageItems casefold (before ++ br :: after) = (run casefold before).map items := by
  refine ⟨fun events p h => ⟨?_, ?_, ?_⟩, fun before br after hbefore hbr =>
    languageItems_eq hbefore hbr after⟩
  · rintro before tag after rfl
    constructor
    · intro hvoid
      obtain ⟨tags, hopened, -⟩ := endTag_closes h hvoid
      exact hopened.exists_inner
    · intro hvoid tags hopened
      have hcloses : closes casefold (.endTag tag) = none := if_pos hvoid
      exact hopened.nest (nest_other rfl hcloses)
  · rintro before after rfl
    obtain ⟨q, hq, -⟩ := run_append h
    have hsound : q.Sound casefold before := sound_init.run hq
    exact ⟨q, hq, hsound.opened, hsound.skipDepth, hsound.tokens, hsound.depth⟩
  · intro events' hredacted
    exact hredacted.run_eq sound_init h

/-- A script whose text is another one. -/
theorem hidden_markup_never_collected_script :
    ∃ p, run id [.startTag (PyStr.ofString "script"), .data (PyStr.ofString "a")] = .ok p ∧
      run id [.startTag (PyStr.ofString "script"), .data (PyStr.ofString "b")] = .ok p := by
  have hopens : opens id (.startTag (PyStr.ofString "script")) = some (PyStr.ofString "script") :=
    by decide +kernel
  have hhidden : Hidden id ([] ++ [.startTag (PyStr.ofString "script")]) :=
    ⟨_, .inside (.base .nil) hopens .nil, PyStr.ofString "script", List.mem_cons_self,
      by decide +kernel⟩
  have hrun : run id [.startTag (PyStr.ofString "script"), .data (PyStr.ofString "a")] =
      .ok ⟨[], 2, [PyStr.ofString "script"], 1, 0⟩ := by decide +kernel
  refine ⟨_, hrun, ?_⟩
  exact ((hidden_markup_never_collected id).1 _ _ hrun).2.2 _
    (.keep _ (.hide _ _ hhidden (.nil _)))

/-- The end tag of a line break closes nothing, and the language parser goes on after it. -/
theorem endTag_br_closes_nothing :
    (run id [.endTag (PyStr.ofString "br")] = .ok ⟨[[10]], 1, [], 0, 0⟩ ∧
      ¬∃ (front : List Event) (s : Event) (inner : List Event), [] = front ++ s :: inner) ∧
    languageItems id [.data (PyStr.ofString "a"), .endTag (PyStr.ofString "br"),
        .data (PyStr.ofString "b")] ≠
      languageItems id [.data (PyStr.ofString "a"), .endTag (PyStr.ofString "br"),
        .data (PyStr.ofString "c")] := by
  refine ⟨⟨by decide +kernel, ?_⟩, by decide +kernel⟩
  rintro ⟨front, s, inner, h⟩
  simp at h

end Casefold

end SteamAgent.DeclaredFacts
