import SteamAgent.Catalog.Provenance
import SteamAgent.Stdlib.Result

/-!
# What a catalog scan says

Whatever the provider answers, a scan ends, and the three parts of the demand
that it returns are what the accepted pages say.

There are five groups.

* `PageRead`: what `interpretPage` accepts.
* `Accepted`: the pages of a scan, one after the other.
* The variables of the loop, for the accepted pages.
* The run of the loop.
* The checks of storage, and the result.
-/

namespace SteamAgent.Catalog

open Choice (sortBy sortBy_perm)
open Datetime (Instant Aware)
open Result (bind_eq_ok guard_eq_ok)
open Storage (Exn require)
open Storage.Feedback (FromIsoFormat Stamp)

/-! ## Pages -/

/-- What an accepted page says, after the AppID of the request. -/
structure PageRead (requested : Nat) (page : Page) : Prop where
  increasing : (requested :: page.apps.map (·.appid)).Pairwise (· < ·)
  bounded : ∀ app ∈ page.apps, app.appid ≤ page.lastAppid
  forward : requested ≤ page.lastAppid
  range : requested ≤ maxUnsigned32 → page.lastAppid ≤ maxUnsigned32
  more : page.haveMoreResults = true →
    requested < page.lastAppid ∧ ∃ app ∈ page.apps, app.appid = page.lastAppid

theorem readApp_eq_ok {previous : Nat} {value : JsonValue} {app : PageApp}
    (h : readApp previous value = .ok app) :
    previous < app.appid ∧ app.appid ≤ maxUnsigned32 := by
  unfold readApp at h
  split at h
  · split at h
    · cases h
    · rename_i appid happid
      obtain ⟨lastModified, -, h⟩ := bind_eq_ok.mp h
      obtain ⟨priceChange, -, h⟩ := bind_eq_ok.mp h
      cases h
      unfold readAppid at happid
      split at happid
      · rename_i hvalue
        split at happid
        · rename_i hpositive
          cases happid
          obtain ⟨value, -, hunsigned⟩ := Option.bind_eq_some_iff.mp hvalue
          exact ⟨hpositive.2, JsonValue.le_of_unsigned hunsigned⟩
        · cases happid
      · cases happid
  · cases h

theorem readApps_eq_ok {values : List JsonValue} : ∀ {previous : Nat} {apps : List PageApp},
    readApps previous values = .ok apps →
    (previous :: apps.map (·.appid)).Pairwise (· < ·) ∧
      ∀ app ∈ apps, app.appid ≤ maxUnsigned32 := by
  induction values with
  | nil =>
    intro previous apps h
    cases h
    exact ⟨List.pairwise_singleton _ _, nofun⟩
  | cons value values ih =>
    intro previous apps h
    obtain ⟨app, happ, h⟩ := bind_eq_ok.mp h
    obtain ⟨rest, hrest, h⟩ := bind_eq_ok.mp h
    cases h
    obtain ⟨hlt, hrange⟩ := readApp_eq_ok happ
    obtain ⟨hincreasing, hranges⟩ := ih hrest
    constructor
    · rw [List.map_cons, List.pairwise_cons]
      refine ⟨?_, hincreasing⟩
      intro appid hmem
      rcases List.mem_cons.mp hmem with rfl | hmem
      · exact hlt
      · exact Nat.lt_trans hlt ((List.pairwise_cons.mp hincreasing).1 appid hmem)
    · intro app' hmem
      rcases List.mem_cons.mp hmem with rfl | hmem
      · exact hrange
      · exact hranges app' hmem

/-- The last AppID of an increasing page is its largest. -/
theorem le_getLast {apps : List PageApp} {last : PageApp}
    (hincreasing : (apps.map (·.appid)).Pairwise (· < ·)) (hlast : apps.getLast? = some last) :
    ∀ app ∈ apps, app.appid ≤ last.appid := by
  obtain ⟨front, rfl⟩ := List.getLast?_eq_some_iff.mp hlast
  rw [List.map_append, List.pairwise_append] at hincreasing
  intro app hmem
  rcases List.mem_append.mp hmem with hfront | hmem
  · exact Nat.le_of_lt (hincreasing.2.2 _ (List.mem_map_of_mem hfront) _ List.mem_cons_self)
  · rw [List.mem_singleton.mp hmem]

theorem interpretBody_eq_ok {fields : List (String × JsonValue)} {requested : Nat} {page : Page}
    (h : interpretBody fields requested = .ok page) : PageRead requested page := by
  unfold interpretBody at h
  split at h
  · rename_i values haveMore _ _
    obtain ⟨apps, happs, h⟩ := bind_eq_ok.mp h
    obtain ⟨supplied, -, h⟩ := bind_eq_ok.mp h
    obtain ⟨last, hlast, h⟩ := bind_eq_ok.mp h
    obtain ⟨hmore, h⟩ := guard_eq_ok.mp h
    cases h
    obtain ⟨hincreasing, hranges⟩ := readApps_eq_ok happs
    have hmore : haveMore = true → requested < last := by
      intro htrue
      by_contra hle
      exact hmore ⟨htrue, Nat.le_of_not_lt hle⟩
    unfold lastAppidOf at hlast
    split at hlast
    · rename_i app happ
      obtain ⟨-, hlast⟩ := guard_eq_ok.mp hlast
      cases hlast
      have hmem : app ∈ apps := List.mem_of_getLast? happ
      have hforward : requested < app.appid :=
        (List.pairwise_cons.mp hincreasing).1 _ (List.mem_map_of_mem hmem)
      exact ⟨hincreasing, le_getLast (List.pairwise_cons.mp hincreasing).2 happ,
        Nat.le_of_lt hforward, fun _ => hranges app hmem, fun _ => ⟨hforward, app, hmem, rfl⟩⟩
    · rename_i hnone
      obtain ⟨hfalse, hlast⟩ := guard_eq_ok.mp hlast
      obtain ⟨-, hlast⟩ := guard_eq_ok.mp hlast
      cases hlast
      have hnil : apps = [] := List.getLast?_eq_none_iff.mp hnone
      subst hnil
      exact ⟨hincreasing, nofun, Nat.le_refl _, id, fun htrue => absurd htrue hfalse⟩
  · cases h

theorem interpretPage_eq_ok {loads : List UInt8 → Option JsonValue} {response : HttpResponse}
    {requested : Nat} {page : Page} (h : interpretPage loads response requested = .ok page) :
    PageRead requested page := by
  obtain ⟨-, -, h⟩ := bind_eq_ok.mp h
  split at h
  · split at h
    · exact interpretBody_eq_ok h
    · cases h
  · cases h

/-! ## Accepted pages -/

/-- The pages of a scan so far, each with its time, and the cursor after them. -/
inductive Accepted (client : Client) (w : World) (stream : CatalogStream) :
    List (Page × String) → Nat → Prop
  | start : Accepted client w stream [] 0
  | page {accepted : List (Page × String)} {cursor : Nat} {page : Page} {retrievedAt : String}
      (h : Accepted client w stream accepted cursor)
      (hturn : client.turn w stream accepted.length cursor = .ok (page, retrievedAt)) :
      Accepted client w stream (accepted ++ [(page, retrievedAt)]) page.lastAppid

/-- The AppIDs of the pages, in their order. -/
def appidsOf (accepted : List (Page × String)) : List Nat :=
  accepted.flatMap fun page => page.1.apps.map (·.appid)

/-- Page `n` lists the application. -/
def Listed (accepted : List (Page × String)) (n : Nat) (app : PageApp) : Prop :=
  ∃ page, accepted[n]? = some page ∧ app ∈ page.1.apps

variable {client : Client} {w : World} {stream : CatalogStream} {accepted : List (Page × String)}
  {cursor : Nat}

theorem pageRead_of_turn {n : Nat} {page : Page} {retrievedAt : String}
    (h : client.turn w stream n cursor = .ok (page, retrievedAt)) : PageRead cursor page := by
  obtain ⟨response, -, h⟩ := bind_eq_ok.mp h
  obtain ⟨page', hpage, h⟩ := bind_eq_ok.mp h
  obtain ⟨retrievedAt', -, h⟩ := bind_eq_ok.mp h
  cases h
  exact interpretPage_eq_ok hpage

theorem timestamp_of_turn {n : Nat} {page : Page} {retrievedAt : String}
    (h : client.turn w stream n cursor = .ok (page, retrievedAt)) :
    ∃ i : Instant, retrievedAt = (wholeSecond i).text := by
  obtain ⟨response, -, h⟩ := bind_eq_ok.mp h
  obtain ⟨page', -, h⟩ := bind_eq_ok.mp h
  obtain ⟨retrievedAt', htime, h⟩ := bind_eq_ok.mp h
  cases h
  unfold timestamp at htime
  split at htime
  · cases htime
  · rename_i i _
    exact ⟨i, (Except.ok.inj htime).symm⟩

theorem appidsOf_append (pages : List (Page × String)) (page : Page) (retrievedAt : String) :
    appidsOf (pages ++ [(page, retrievedAt)]) = appidsOf pages ++ page.apps.map (·.appid) := by
  rw [appidsOf, List.flatMap_append, List.flatMap_singleton]
  rfl

theorem mem_appidsOf {appid : Nat} :
    appid ∈ appidsOf accepted ↔ ∃ page ∈ accepted, ∃ app ∈ page.1.apps, app.appid = appid := by
  simp only [appidsOf, List.mem_flatMap, List.mem_map]

namespace Accepted

/-- The AppIDs increase along the pages, up to the cursor. -/
theorem chain (h : Accepted client w stream accepted cursor) :
    (appidsOf accepted).Pairwise (· < ·) ∧ (∀ appid ∈ appidsOf accepted, appid ≤ cursor) ∧
      cursor ≤ maxUnsigned32 := by
  induction h with
  | start => exact ⟨List.Pairwise.nil, nofun, Nat.zero_le _⟩
  | page h hturn ih =>
    obtain ⟨hincreasing, hbounded, hrange⟩ := ih
    have hread := pageRead_of_turn hturn
    obtain ⟨hafter, hpage⟩ := List.pairwise_cons.mp hread.increasing
    refine ⟨?_, ?_, hread.range hrange⟩
    · rw [appidsOf_append, List.pairwise_append]
      refine ⟨hincreasing, hpage, ?_⟩
      intro a ha b hb
      exact Nat.lt_of_le_of_lt (hbounded a ha) (hafter b hb)
    · intro appid hmem
      rw [appidsOf_append] at hmem
      rcases List.mem_append.mp hmem with hold | hnew
      · exact Nat.le_trans (hbounded appid hold) hread.forward
      · obtain ⟨app, happ, rfl⟩ := List.mem_map.mp hnew
        exact hread.bounded app happ

theorem cursor_of_nil (h : Accepted client w stream accepted cursor) (hnil : accepted = []) :
    cursor = 0 := by
  cases h with
  | start => rfl
  | page => exact absurd hnil (List.append_ne_nil_of_right_ne_nil _ (List.cons_ne_nil _ _))

/-- After a page that announces more, the cursor is an AppID of the page. -/
theorem cursor_listed (h : Accepted client w stream accepted cursor) {page : Page × String}
    (hlast : accepted.getLast? = some page) (hmore : page.1.haveMoreResults = true) :
    cursor ∈ appidsOf accepted := by
  cases h with
  | start => cases hlast
  | page h hturn =>
    rw [List.getLast?_concat] at hlast
    cases hlast
    obtain ⟨-, app, happ, heq⟩ := (pageRead_of_turn hturn).more hmore
    rw [appidsOf_append, List.mem_append]
    exact Or.inr (List.mem_map.mpr ⟨app, happ, heq⟩)

end Accepted

/-- An application is on one page, once. -/
theorem listed_once (h : (appidsOf accepted).Pairwise (· < ·)) {app app' : PageApp} {n m : Nat}
    (hn : Listed accepted n app) (hm : Listed accepted m app') (happid : app.appid = app'.appid) :
    n = m ∧ app = app' := by
  induction accepted generalizing n m with
  | nil =>
    obtain ⟨page, hpage, -⟩ := hn
    cases hpage
  | cons first rest ih =>
    rw [appidsOf, List.flatMap_cons, List.pairwise_append] at h
    obtain ⟨hfirst, hrest, hapart⟩ := h
    have happears : ∀ {k : Nat} {a : PageApp}, Listed (first :: rest) (k + 1) a →
        a.appid ∈ appidsOf rest := by
      intro k a hlisted
      obtain ⟨page, hpage, hmem⟩ := hlisted
      exact mem_appidsOf.mpr ⟨page, List.mem_of_getElem? hpage, a, hmem, rfl⟩
    cases n with
    | zero =>
      obtain ⟨page, hpage, happ⟩ := hn
      cases hpage
      cases m with
      | zero =>
        obtain ⟨page', hpage', happ'⟩ := hm
        cases hpage'
        have hnodup : (first.1.apps.map (·.appid)).Nodup := hfirst.imp Nat.ne_of_lt
        exact ⟨rfl, List.inj_on_of_nodup_map hnodup happ happ' happid⟩
      | succ m =>
        have hlt := hapart _ (List.mem_map_of_mem happ) _ (happears hm)
        omega
    | succ n =>
      cases m with
      | zero =>
        obtain ⟨page', hpage', happ'⟩ := hm
        cases hpage'
        have hlt := hapart _ (List.mem_map_of_mem happ') _ (happears hn)
        omega
      | succ m =>
        obtain ⟨hnm, heq⟩ := ih hrest hn hm
        exact ⟨congrArg (· + 1) hnm, heq⟩

/-! ## The variables of the loop -/

variable {demanded : List Nat}

/-- The variables after the accepted pages. -/
def stateOf (stream : CatalogStream) (demanded : List Nat) (accepted : List (Page × String)) :
    LoopState :=
  accepted.foldl (fun state page => state.accept stream demanded page.1 page.2) ⟨[], [], 0⟩

/-- A hit of an application. -/
def hitOf (stream : CatalogStream) (app : PageApp) : CatalogApp :=
  ⟨app.appid, stream, app.lastModified, app.priceChangeNumber⟩

/-- The applications of the pages that are demanded. -/
def demandedApps (demanded : List Nat) (accepted : List (Page × String)) : List PageApp :=
  (accepted.flatMap (·.1.apps)).filter fun app => demanded.contains app.appid

theorem stateOf_append (page : Page) (retrievedAt : String) :
    stateOf stream demanded (accepted ++ [(page, retrievedAt)]) =
      (stateOf stream demanded accepted).accept stream demanded page retrievedAt := by
  rw [stateOf, List.foldl_append]
  rfl

theorem putHit_fresh {hits : List CatalogApp} {app : CatalogApp}
    (h : app.appid ∉ hits.map (·.appid)) : putHit hits app = hits ++ [app] := by
  rw [putHit, List.filter_eq_self.mpr]
  intro hit hmem
  apply decide_eq_true
  intro heq
  exact h (List.mem_map.mpr ⟨hit, hmem, heq⟩)

/-- Applications with new AppIDs are appended. -/
theorem collectHits_fresh {apps : List PageApp} (hnodup : (apps.map (·.appid)).Nodup) :
    ∀ {hits : List CatalogApp}, (∀ app ∈ apps, app.appid ∉ hits.map (·.appid)) →
    collectHits stream demanded hits apps =
      hits ++ (apps.filter fun app => demanded.contains app.appid).map (hitOf stream) := by
  induction apps with
  | nil => simp [collectHits]
  | cons app apps ih =>
    intro hits hfresh
    rw [List.map_cons, List.nodup_cons] at hnodup
    have hrest : ∀ app' ∈ apps, app'.appid ∉ hits.map (·.appid) := fun app' hmem =>
      hfresh app' (List.mem_cons_of_mem _ hmem)
    rw [collectHits, List.foldl_cons]
    by_cases hdemanded : demanded.contains app.appid = true
    · rw [if_pos hdemanded, List.filter_cons, if_pos hdemanded,
        putHit_fresh (hfresh app List.mem_cons_self)]
      refine (ih hnodup.2 ?_).trans (List.append_assoc _ _ _)
      intro app' hmem
      rw [List.map_append, List.mem_append, not_or]
      refine ⟨hrest app' hmem, ?_⟩
      intro heq
      rw [List.map_singleton, List.mem_singleton] at heq
      exact hnodup.1 (List.mem_map.mpr ⟨app', hmem, heq⟩)
    · rw [if_neg hdemanded, List.filter_cons, if_neg hdemanded]
      exact ih hnodup.2 hrest

theorem map_appid_demandedApps (demanded : List Nat) (accepted : List (Page × String)) :
    (demandedApps demanded accepted).map (·.appid) =
      (appidsOf accepted).filter demanded.contains := by
  rw [demandedApps, appidsOf, ← List.map_flatMap, List.filter_map]
  rfl

namespace Accepted

/-- The variables are what the accepted pages say. -/
theorem state (h : Accepted client w stream accepted cursor) (demanded : List Nat) :
    (stateOf stream demanded accepted).hits =
        (demandedApps demanded accepted).map (hitOf stream) ∧
      (stateOf stream demanded accepted).pages.length = accepted.length ∧
      (stateOf stream demanded accepted).cursor = cursor := by
  induction h with
  | start => exact ⟨rfl, rfl, rfl⟩
  | @page accepted cursor page retrievedAt h hturn ih =>
    obtain ⟨hhits, hlength, hcursor⟩ := ih
    rw [stateOf_append]
    refine ⟨?_, ?_, rfl⟩
    · obtain ⟨-, hbounded, -⟩ := h.chain
      obtain ⟨hafter, hpage⟩ := List.pairwise_cons.mp (pageRead_of_turn hturn).increasing
      rw [LoopState.accept, collectHits_fresh (hpage.imp Nat.ne_of_lt), hhits, demandedApps,
        demandedApps, List.flatMap_append, List.filter_append, List.map_append,
        List.flatMap_singleton]
      intro app happ hmem
      rw [hhits, List.map_map] at hmem
      obtain ⟨app', happ', heq⟩ := List.mem_map.mp hmem
      have hold : app'.appid ∈ appidsOf accepted := by
        have hmap : app'.appid ∈ (demandedApps demanded accepted).map (·.appid) :=
          List.mem_map_of_mem happ'
        rw [map_appid_demandedApps] at hmap
        exact List.mem_of_mem_filter hmap
      have hle := hbounded _ hold
      have hlt := hafter _ (List.mem_map_of_mem happ)
      have heq : app'.appid = app.appid := heq
      omega
    · rw [LoopState.accept, List.length_append, List.length_append, hlength]
      rfl

/-- The AppIDs of the hits. -/
theorem hit_appids (h : Accepted client w stream accepted cursor) (demanded : List Nat) :
    (stateOf stream demanded accepted).hits.map (·.appid) =
      (appidsOf accepted).filter demanded.contains := by
  rw [(h.state demanded).1, List.map_map, ← map_appid_demandedApps]
  rfl

end Accepted

/-! ## The run of the loop -/

/-- How the loop ends, after the accepted pages. -/
inductive Outcome (client : Client) (w : World) (stream : CatalogStream) (demanded : List Nat) :
    Except ScanError CatalogScan → Prop
  | failed {e : CatalogApiError} (herror : client.turn w stream 0 0 = .error e) :
      Outcome client w stream demanded (.error (.api e))
  | stopped {accepted : List (Page × String)} {cursor : Nat} {page : Page × String}
      {e : CatalogApiError} (h : Accepted client w stream accepted cursor)
      (hlast : accepted.getLast? = some page) (hmore : page.1.haveMoreResults = true)
      (hbefore : cursor < demanded.getLastD 0)
      (herror : client.turn w stream accepted.length cursor = .error e) :
      Outcome client w stream demanded (.ok (scanResult client stream demanded .unfinished
        .providerError (some e) (stateOf stream demanded accepted)))
  | ended {accepted : List (Page × String)} {cursor : Nat} {page : Page × String}
      (h : Accepted client w stream accepted cursor) (hlast : accepted.getLast? = some page)
      (hmore : page.1.haveMoreResults = false) :
      Outcome client w stream demanded (.ok (scanResult client stream demanded .complete
        .endOfStream none (stateOf stream demanded accepted)))
  | passed {accepted : List (Page × String)} {cursor : Nat} {page : Page × String}
      (h : Accepted client w stream accepted cursor) (hlast : accepted.getLast? = some page)
      (hmore : page.1.haveMoreResults = true) (hpassed : demanded.getLastD 0 ≤ cursor) :
      Outcome client w stream demanded (.ok (scanResult client stream demanded .complete
        .demandBoundary none (stateOf stream demanded accepted)))

/-- The loop goes on after the accepted pages. -/
def GoesOn (demanded : List Nat) (accepted : List (Page × String)) (cursor : Nat) : Prop :=
  cursor < demanded.getLastD 0 ∧
    ∀ page, accepted.getLast? = some page → page.1.haveMoreResults = true

/-- Every turn that goes on raises the cursor, so that the loop ends. -/
theorem outcome_scanLoop (h : Accepted client w stream accepted cursor)
    (hgoes : GoesOn demanded accepted cursor) {requests : Nat}
    (hrequests : demanded.getLastD 0 ≤ cursor + requests) :
    ∃ result, scanLoop client w stream demanded requests (stateOf stream demanded accepted) =
      some result ∧ Outcome client w stream demanded result := by
  induction requests generalizing accepted cursor with
  | zero =>
    have hlt := hgoes.1
    omega
  | succ requests ih =>
    obtain ⟨-, hlength, hcursor⟩ := h.state demanded
    rw [scanLoop, hlength, hcursor]
    cases hturn : client.turn w stream accepted.length cursor with
    | error e =>
      by_cases hnil : accepted = []
      · obtain rfl := h.cursor_of_nil hnil
        subst hnil
        exact ⟨_, rfl, .failed hturn⟩
      · obtain ⟨page, hlast⟩ := Option.ne_none_iff_exists'.mp (mt List.getLast?_eq_none_iff.mp hnil)
        have hpages : (stateOf stream demanded accepted).pages ≠ [] := by
          rw [← List.length_pos_iff, hlength]
          exact List.length_pos_iff.mpr hnil
        exact ⟨_, if_neg hpages, .stopped h hlast (hgoes.2 page hlast) hgoes.1 hturn⟩
    | ok result =>
      obtain ⟨page, retrievedAt⟩ := result
      have haccepted := h.page hturn
      have hlast : (accepted ++ [(page, retrievedAt)]).getLast? = some (page, retrievedAt) :=
        List.getLast?_concat
      dsimp only
      rw [← stateOf_append, (haccepted.state demanded).2.2]
      by_cases hmore : page.haveMoreResults = false
      · exact ⟨_, if_pos hmore, .ended haccepted hlast hmore⟩
      · have hmore' : page.haveMoreResults = true := by simpa using hmore
        rw [if_neg hmore]
        by_cases hpassed : demanded.getLastD 0 ≤ page.lastAppid
        · exact ⟨_, if_pos hpassed, .passed haccepted hlast hmore' hpassed⟩
        · rw [if_neg hpassed]
          have hforward := ((pageRead_of_turn hturn).more hmore').1
          apply ih haccepted ⟨by omega, ?_⟩ (by omega)
          intro page' hpage'
          rw [hlast] at hpage'
          cases hpage'
          exact hmore'

/-- More requests are allowed, and none of them is made. -/
theorem scanLoop_add {state : LoopState} {requests : Nat} {result : Except ScanError CatalogScan}
    (h : scanLoop client w stream demanded requests state = some result) (more : Nat) :
    scanLoop client w stream demanded (requests + more) state = some result := by
  induction requests generalizing state with
  | zero => cases h
  | succ requests ih =>
    rw [Nat.succ_add, scanLoop]
    rw [scanLoop] at h
    split
    · rename_i e herror
      rw [herror] at h
      exact h
    · rename_i page retrievedAt hturn
      rw [hturn] at h
      dsimp only at h ⊢
      split
      · rename_i hmore
        rw [if_pos hmore] at h
        exact h
      · rename_i hmore
        rw [if_neg hmore] at h
        split
        · rename_i hpassed
          rw [if_pos hpassed] at h
          exact h
        · rename_i hpassed
          rw [if_neg hpassed] at h
          exact ih h

/-! ## The parts of the demand -/

theorem le_getLastD (hsorted : demanded.Pairwise (· ≤ ·)) : ∀ appid ∈ demanded,
    appid ≤ demanded.getLastD 0 := by
  intro appid hmem
  rw [List.getLastD_eq_getLast?]
  cases hlast : demanded.getLast? with
  | none =>
    rw [List.getLast?_eq_none_iff.mp hlast] at hmem
    cases hmem
  | some last =>
    obtain ⟨front, rfl⟩ := List.getLast?_eq_some_iff.mp hlast
    rcases List.mem_append.mp hmem with hfront | hmem
    · exact (List.pairwise_append.mp hsorted).2.2 _ hfront _ List.mem_cons_self
    · exact Nat.le_of_eq (List.mem_singleton.mp hmem)

theorem getLastD_mem (hne : demanded ≠ []) : demanded.getLastD 0 ∈ demanded := by
  rw [List.getLastD_eq_getLast?, List.getLast?_eq_some_getLast hne]
  exact List.getLast_mem hne

/-- What the provenance of a page records. -/
def recordOf (page : CatalogPageProvenance) : Option Nat × Nat × Nat × Bool × String :=
  (page.firstAppid, page.lastAppid, page.itemCount, page.haveMoreResults, page.retrievedAt)

/-- The record of an accepted page. -/
def pageRecord (page : Page × String) : Option Nat × Nat × Nat × Bool × String :=
  (page.1.apps.head?.map (·.appid), page.1.lastAppid, page.1.apps.length, page.1.haveMoreResults,
    page.2)

theorem records_stateOf (stream : CatalogStream) (demanded : List Nat)
    (accepted : List (Page × String)) :
    (stateOf stream demanded accepted).pages.map recordOf = accepted.map pageRecord := by
  induction accepted using List.reverseRecOn with
  | nil => rfl
  | append_singleton accepted page ih =>
    rw [stateOf_append, LoopState.accept, List.map_append, List.map_append, ih]
    rfl

/-- What a scan says about the accepted pages. -/
structure Sound (client : Client) (w : World) (stream : CatalogStream) (demanded : List Nat)
    (accepted : List (Page × String)) (scan : CatalogScan) : Prop where
  /-- The accepted pages are pages that the provider gave, up to the cursor. -/
  provided : Accepted client w stream accepted scan.scannedThroughAppid
  recorded : scan.pages.map recordOf = accepted.map pageRecord
  partitioned : (scan.hits.map (·.appid) ++ scan.confirmedAbsentAppids ++
    scan.unresolvedAppids).Perm demanded
  listed : ∀ hit ∈ scan.hits, hit.stream = stream ∧
    ∃! n, Listed accepted n ⟨hit.appid, hit.lastModified, hit.priceChangeNumber⟩
  /-- An absent AppID is on no page, and was passed, or the stream ended. -/
  absent : ∀ appid ∈ scan.confirmedAbsentAppids, appid ∉ appidsOf accepted ∧
    ((appidsOf accepted).Pairwise (· < ·) ∧ (∃ later ∈ appidsOf accepted, appid < later) ∨
      scan.termination = .endOfStream ∧
        ∃ page, accepted.getLast? = some page ∧ page.1.haveMoreResults = false)
  resolved : scan.unresolvedAppids = [] ↔
    scan.state = .complete ∨ demanded.getLastD 0 ≤ scan.scannedThroughAppid

section Parts

variable {termination : Termination} {scanState : ScanState} {e : Option CatalogApiError}
  {appid : Nat}

theorem not_hit_iff (h : Accepted client w stream accepted cursor) (hmem : appid ∈ demanded) :
    (!((stateOf stream demanded accepted).hits.map (·.appid)).contains appid) = true ↔
      appid ∉ appidsOf accepted := by
  rw [h.hit_appids, Bool.not_eq_true', Bool.eq_false_iff, ne_eq, List.contains_iff_mem,
    List.mem_filter, List.contains_iff_mem]
  exact not_congr (and_iff_left hmem)

theorem mem_confirmedAbsent (h : Accepted client w stream accepted cursor)
    (hsorted : demanded.Pairwise (· ≤ ·)) :
    appid ∈ (scanResult client stream demanded scanState termination e
        (stateOf stream demanded accepted)).confirmedAbsentAppids ↔
      appid ∈ demanded ∧ appid ∉ appidsOf accepted ∧
        (termination = .endOfStream ∨ appid ≤ cursor) := by
  rw [scanResult]
  dsimp only
  by_cases hend : termination = .endOfStream
  · rw [if_pos hend, List.mem_filter]
    constructor
    · intro hboth
      exact ⟨hboth.1, (not_hit_iff h hboth.1).mp hboth.2, Or.inl hend⟩
    · intro hboth
      exact ⟨hboth.1, (not_hit_iff h hboth.1).mpr hboth.2.1⟩
  · rw [if_neg hend, List.mem_filter, Bool.and_eq_true_iff, decide_eq_true_iff, Nat.le_min,
      (h.state demanded).2.2]
    constructor
    · intro hboth
      exact ⟨hboth.1, (not_hit_iff h hboth.1).mp hboth.2.2, Or.inr hboth.2.1.1⟩
    · intro hboth
      obtain ⟨hmem, hlisted, hpassed⟩ := hboth
      exact ⟨hmem, ⟨hpassed.resolve_left hend, le_getLastD hsorted appid hmem⟩,
        (not_hit_iff h hmem).mpr hlisted⟩

theorem mem_unresolved (h : Accepted client w stream accepted cursor) :
    appid ∈ (scanResult client stream demanded scanState termination e
        (stateOf stream demanded accepted)).unresolvedAppids ↔
      appid ∈ demanded ∧ termination ≠ .endOfStream ∧ cursor < appid := by
  rw [scanResult]
  dsimp only
  by_cases hend : termination = .endOfStream
  · rw [if_pos hend]
    exact ⟨nofun, fun hboth => absurd hend hboth.2.1⟩
  · rw [if_neg hend, List.mem_filter, (h.state demanded).2.2, decide_eq_true_iff]
    exact ⟨fun hboth => ⟨hboth.1, hend, hboth.2⟩, fun hboth => ⟨hboth.1, hboth.2.2⟩⟩

theorem hits_perm (h : Accepted client w stream accepted cursor) (scanState : ScanState)
    (termination : Termination) (e : Option CatalogApiError) :
    ((scanResult client stream demanded scanState termination e
      (stateOf stream demanded accepted)).hits.map (·.appid)).Perm
        ((appidsOf accepted).filter demanded.contains) := by
  rw [← h.hit_appids demanded]
  exact (sortBy_perm _ _).map _

theorem nodup_parts (hnodup : demanded.Nodup) (state : LoopState) :
    (scanResult client stream demanded scanState termination e state).confirmedAbsentAppids.Nodup ∧
      (scanResult client stream demanded scanState termination e state).unresolvedAppids.Nodup := by
  rw [scanResult]
  dsimp only
  by_cases hend : termination = .endOfStream
  · rw [if_pos hend, if_pos hend]
    exact ⟨hnodup.filter _, List.nodup_nil⟩
  · rw [if_neg hend, if_neg hend]
    exact ⟨hnodup.filter _, hnodup.filter _⟩

/-- The demand is split into three parts. -/
theorem partition_perm (h : Accepted client w stream accepted cursor) (hnodup : demanded.Nodup)
    (hsorted : demanded.Pairwise (· ≤ ·)) {scan : CatalogScan}
    (hscan : scan = scanResult client stream demanded scanState termination e
      (stateOf stream demanded accepted)) :
    (scan.hits.map (·.appid) ++ scan.confirmedAbsentAppids ++
      scan.unresolvedAppids).Perm demanded := by
  obtain ⟨hincreasing, hbounded, -⟩ := h.chain
  have hhits : (scan.hits.map (·.appid)).Perm ((appidsOf accepted).filter demanded.contains) := by
    rw [hscan]
    exact hits_perm h scanState termination e
  have hhit : ∀ appid, appid ∈ scan.hits.map (·.appid) ↔
      appid ∈ appidsOf accepted ∧ appid ∈ demanded := by
    intro appid
    rw [hhits.mem_iff, List.mem_filter, List.contains_iff_mem]
  have habsent : ∀ appid, appid ∈ scan.confirmedAbsentAppids ↔ appid ∈ demanded ∧
      appid ∉ appidsOf accepted ∧ (termination = .endOfStream ∨ appid ≤ cursor) := by
    intro appid
    rw [hscan]
    exact mem_confirmedAbsent h hsorted
  have hunresolved : ∀ appid, appid ∈ scan.unresolvedAppids ↔
      appid ∈ demanded ∧ termination ≠ .endOfStream ∧ cursor < appid := by
    intro appid
    rw [hscan]
    exact mem_unresolved h
  have hparts : scan.confirmedAbsentAppids.Nodup ∧ scan.unresolvedAppids.Nodup := by
    rw [hscan]
    exact nodup_parts hnodup _
  refine (List.perm_ext_iff_of_nodup ?_ hnodup).mpr ?_
  · have hlisted : (appidsOf accepted).Nodup := hincreasing.imp Nat.ne_of_lt
    rw [List.nodup_append, List.nodup_append]
    refine ⟨⟨hhits.nodup_iff.mpr (hlisted.filter _), hparts.1, ?_⟩, hparts.2, ?_⟩
    · intro a ha b hb hab
      exact ((habsent b).mp hb).2.1 (hab ▸ ((hhit a).mp ha).1)
    · intro a ha b hb hab
      subst hab
      have hafter := ((hunresolved a).mp hb).2
      rcases List.mem_append.mp ha with ha | ha
      · have hle := hbounded a ((hhit a).mp ha).1
        omega
      · rcases ((habsent a).mp ha).2.2 with hend | hle
        · exact hafter.1 hend
        · omega
  · intro appid
    rw [List.mem_append, List.mem_append, hhit, habsent, hunresolved]
    constructor
    · intro hmem
      rcases hmem with (hmem | hmem) | hmem
      · exact hmem.2
      · exact hmem.1
      · exact hmem.1
    · intro hmem
      by_cases hlisted : appid ∈ appidsOf accepted
      · exact Or.inl (Or.inl ⟨hlisted, hmem⟩)
      · by_cases hpassed : termination = .endOfStream ∨ appid ≤ cursor
        · exact Or.inl (Or.inr ⟨hmem, hlisted, hpassed⟩)
        · rw [not_or] at hpassed
          exact Or.inr ⟨hmem, hpassed.1, Nat.lt_of_not_le hpassed.2⟩

/-- A hit is on one accepted page. -/
theorem listed_of_hit (h : Accepted client w stream accepted cursor) {hit : CatalogApp}
    (hhit : hit ∈ (scanResult client stream demanded scanState termination e
      (stateOf stream demanded accepted)).hits) :
    hit.stream = stream ∧
      ∃! n, Listed accepted n ⟨hit.appid, hit.lastModified, hit.priceChangeNumber⟩ := by
  have hmem : hit ∈ (stateOf stream demanded accepted).hits := (sortBy_perm _ _).mem_iff.mp hhit
  rw [(h.state demanded).1] at hmem
  obtain ⟨app, happ, rfl⟩ := List.mem_map.mp hmem
  obtain ⟨page, hpage, happ⟩ := List.mem_flatMap.mp (List.mem_of_mem_filter happ)
  obtain ⟨n, hn⟩ := List.getElem?_of_mem hpage
  refine ⟨rfl, n, ⟨page, hn, happ⟩, ?_⟩
  intro m hm
  exact (listed_once h.chain.1 hm ⟨page, hn, happ⟩ rfl).1

end Parts

/-! ## The checks of storage -/

theorem require_ok {p : Prop} [Decidable p] (h : p) (x : Exn) : require p x = .ok () :=
  Storage.require_eq_ok.mpr h

theorem checkPage_ok {page : CatalogPageInput} {number : Nat} {previousLast : Int}
    (hnumber : page.pageNumber = number) (hrequested : page.requestedLastAppid = previousLast)
    (hfirst : ∀ first ∈ page.firstAppid, 1 ≤ first ∧ first ≤ page.lastAppid)
    (hbounds : 0 ≤ page.lastAppid ∧ page.lastAppid ≤ maxUnsigned32 ∧ 0 ≤ page.itemCount) :
    checkPage page number previousLast = .ok () := by
  rw [checkPage, require_ok hnumber, require_ok hrequested, require_ok hfirst, require_ok hbounds]
  rfl

/-- One more page. -/
theorem normalizePages_append {iso : FromIsoFormat} {pages : List CatalogPageInput}
    {page : CatalogPageInput} {time : String} (htime : page.retrievedAt.timestamp iso = .ok time) :
    ∀ {number : Nat} {previousLast last : Int} {normalized : List (CatalogPageInput × String)},
    normalizePages iso number previousLast pages = .ok (normalized, last) →
    checkPage page (number + pages.length) last = .ok () →
    normalizePages iso number previousLast (pages ++ [page]) =
      .ok (normalized ++ [(page, time)], page.lastAppid) := by
  induction pages with
  | nil =>
    intro number previousLast last normalized h hcheck
    cases h
    rw [List.nil_append, normalizePages, show checkPage page number previousLast = _ from hcheck,
      htime]
    rfl
  | cons first pages ih =>
    intro number previousLast last normalized h hcheck
    obtain ⟨⟨⟩, hfirst, h⟩ := bind_eq_ok.mp h
    obtain ⟨retrievedAt, hretrieved, h⟩ := bind_eq_ok.mp h
    obtain ⟨⟨rest, last'⟩, hrest, h⟩ := bind_eq_ok.mp h
    cases h
    have hlength : number + (first :: pages).length = number + 1 + pages.length := by
      rw [List.length_cons]
      omega
    rw [hlength] at hcheck
    rw [List.cons_append, normalizePages, hfirst, hretrieved]
    exact bind_eq_ok.mpr ⟨_, rfl, bind_eq_ok.mpr ⟨_, rfl, bind_eq_ok.mpr ⟨_, ih hrest hcheck, rfl⟩⟩⟩

/-- `datetime.fromisoformat` reads what `isoformat` writes, with the offset as `Z`. -/
def ReadsBack (iso : FromIsoFormat) : Prop :=
  ∀ i : Instant, iso i.text = .ok (Aware.ofInstant i)

theorem timestamp_text {iso : FromIsoFormat} (hiso : ReadsBack iso) (i : Instant) :
    (Stamp.text i.text).timestamp iso = .ok i.text := by
  rw [Stamp.timestamp, hiso i]
  exact Storage.timestamp_ofInstant i

/-- The pages of a scan are a chain for storage too. -/
theorem normalizePages_of_accepted {iso : FromIsoFormat} (hiso : ReadsBack iso)
    (h : Accepted client w stream accepted cursor) (demanded : List Nat) :
    ∃ normalized, normalizePages iso 1 0 ((stateOf stream demanded accepted).pages.map pageInput) =
      .ok (normalized, (cursor : Int)) := by
  induction h with
  | start => exact ⟨[], rfl⟩
  | @page accepted cursor page retrievedAt h hturn ih =>
    obtain ⟨normalized, hnormalized⟩ := ih
    obtain ⟨-, hlength, hcursor⟩ := h.state demanded
    have hread := pageRead_of_turn hturn
    obtain ⟨i, rfl⟩ := timestamp_of_turn hturn
    have htime := timestamp_text hiso (wholeSecond i)
    rw [stateOf_append, LoopState.accept, List.map_append, List.map_singleton]
    refine ⟨normalized ++ [(_, (wholeSecond i).text)],
      normalizePages_append htime hnormalized (checkPage_ok ?_ ?_ ?_ ?_)⟩
    · rw [List.length_map]
      simp only [pageInput]
      omega
    · simp only [pageInput, hcursor]
    · intro first hfirst
      simp only [pageInput, Option.mem_def, Option.map_eq_some_iff] at hfirst
      obtain ⟨_, ⟨app, happ, rfl⟩, rfl⟩ := hfirst
      have hmem : app ∈ page.apps := List.mem_of_head? happ
      have hafter := (List.pairwise_cons.mp hread.increasing).1 _ (List.mem_map_of_mem hmem)
      have hle := hread.bounded app hmem
      simp only [pageInput, Int.ofNat_eq_natCast]
      omega
    · have hrange := hread.range h.chain.2.2
      simp only [pageInput]
      omega

/-- The filters of a stream are accepted. -/
theorem validate_filterContext (stream : CatalogStream) {maxResults : Nat}
    (hvalid : 1 ≤ maxResults ∧ maxResults ≤ defaultMaxResults) :
    validateCatalogFilterContext stream.value (filterContext stream maxResults) = .ok () := by
  have hmax : maxResultsAllowed (filterContext stream maxResults) = true := by
    have hboth : (1 ≤ (maxResults : Int) && (maxResults : Int) ≤ 50000) = true := by
      rw [Bool.and_eq_true_iff, decide_eq_true_iff, decide_eq_true_iff]
      have hle : maxResults ≤ 50000 := hvalid.2
      omega
    exact hboth
  rw [validateCatalogFilterContext, require_ok hmax]
  cases stream with
  | games => rfl
  | nonGames => rfl

/-- What storage checks of a complete scan. -/
def Stored (iso : FromIsoFormat) (demanded : List Nat) (scan : CatalogScan) : Prop :=
  (∃ pages, catalogStream iso (streamInput scan) = .ok (streamInput scan, pages)) ∧
    checkDemandBoundary demanded (streamInput scan) = .ok ()

theorem stored_scanResult {iso : FromIsoFormat} (hiso : ReadsBack iso)
    (h : Accepted client w stream accepted cursor) {scanState : ScanState}
    {termination : Termination} {e : Option CatalogApiError}
    (htermination : termination = .endOfStream ∨
      termination = .demandBoundary ∧ demanded.getLastD 0 ≤ cursor) :
    Stored iso demanded (scanResult client stream demanded scanState termination e
      (stateOf stream demanded accepted)) := by
  obtain ⟨normalized, hnormalized⟩ := normalizePages_of_accepted hiso h demanded
  obtain ⟨-, -, hcursor⟩ := h.state demanded
  have hrange := h.chain.2.2
  constructor
  · have hvalue : termination.value ∈ ["no_demand", "demand_boundary", "end_of_stream"] := by
      rcases htermination with rfl | ⟨rfl, -⟩
      · decide
      · decide
    have hscanned : 0 ≤ (cursor : Int) ∧ (cursor : Int) ≤ maxUnsigned32 := by omega
    refine ⟨normalized, ?_⟩
    rw [catalogStream, streamInput, scanResult]
    dsimp only
    rw [hcursor, require_ok hvalue, require_ok hscanned, validate_filterContext stream client.valid,
      hnormalized]
    exact bind_eq_ok.mpr ⟨_, rfl, bind_eq_ok.mpr ⟨_, rfl, bind_eq_ok.mpr ⟨_, rfl,
      bind_eq_ok.mpr ⟨_, rfl, bind_eq_ok.mpr ⟨_, require_ok rfl _, rfl⟩⟩⟩⟩⟩
  · rw [checkDemandBoundary, streamInput, scanResult]
    dsimp only
    rw [hcursor]
    rcases htermination with rfl | ⟨rfl, hpassed⟩
    · rw [require_ok (by simp [Termination.value]), require_ok (by simp [Termination.value])]
      rfl
    · rw [require_ok (by simp [Termination.value]), require_ok ?_]
      · rfl
      · intro hboth
        omega

/-! ## The result -/

theorem normalizeDemandedAppids_eq_ok {values : List Int}
    (h : normalizeDemandedAppids values = .ok demanded) :
    demanded.Nodup ∧ demanded.Pairwise (· ≤ ·) := by
  unfold normalizeDemandedAppids at h
  split at h
  · rename_i hvalues
    cases h
    constructor
    · rw [(sortBy_perm id _).nodup_iff]
      apply hvalues.1.map_on
      intro a ha b hb hab
      have hpositive := (hvalues.2 a ha).1
      have hpositive' := (hvalues.2 b hb).1
      omega
    · exact Choice.sortBy_pairwise id _
  · cases h

/-- The scan of the accepted pages is sound, with the state that fits its termination. -/
theorem sound_scanResult (h : Accepted client w stream accepted cursor) (hnodup : demanded.Nodup)
    (hsorted : demanded.Pairwise (· ≤ ·)) (hne : demanded ≠ []) {page : Page × String}
    (hlast : accepted.getLast? = some page) {scanState : ScanState} {termination : Termination}
    {e : Option CatalogApiError}
    (hmore : page.1.haveMoreResults = false ↔ termination = .endOfStream)
    (hstate : scanState = .complete ↔
      termination = .endOfStream ∨ demanded.getLastD 0 ≤ cursor) :
    Sound client w stream demanded accepted (scanResult client stream demanded scanState
      termination e (stateOf stream demanded accepted)) := by
  have hcursor := (h.state demanded).2.2
  refine ⟨?_, records_stateOf stream demanded accepted, partition_perm h hnodup hsorted rfl,
    fun hit => listed_of_hit h, ?_, ?_⟩
  · rw [show (scanResult _ _ _ _ _ _ _).scannedThroughAppid = cursor from hcursor]
    exact h
  · intro appid hmem
    obtain ⟨-, hlisted, hpassed⟩ := (mem_confirmedAbsent h hsorted).mp hmem
    refine ⟨hlisted, ?_⟩
    by_cases hend : termination = .endOfStream
    · exact Or.inr ⟨hend, page, hlast, hmore.mpr hend⟩
    · have htrue : page.1.haveMoreResults = true := by
        rw [← Bool.not_eq_false]
        exact fun hfalse => hend (hmore.mp hfalse)
      have hcursorListed := h.cursor_listed hlast htrue
      have hle := hpassed.resolve_left hend
      have happart : appid ≠ cursor := by
        intro heq
        exact hlisted (heq ▸ hcursorListed)
      exact Or.inl ⟨h.chain.1, cursor, hcursorListed, by omega⟩
  · rw [show (scanResult _ _ _ _ _ _ _).scannedThroughAppid = cursor from hcursor,
      show (scanResult _ _ _ _ _ _ _).state = scanState from rfl, hstate, List.eq_nil_iff_forall_not_mem]
    constructor
    · intro hnone
      by_cases hend : termination = .endOfStream
      · exact Or.inl (Or.inl hend)
      · apply Or.inr
        by_contra hbefore
        exact hnone _ ((mem_unresolved h).mpr ⟨getLastD_mem hne, hend, by omega⟩)
    · intro hall appid hmem
      obtain ⟨hdemanded, hend, hbefore⟩ := (mem_unresolved h).mp hmem
      have hle := le_getLastD hsorted appid hdemanded
      rcases hall with (hall | hall) | hall
      · exact hend hall
      · omega
      · omega

/-- The result of a loop that ends. -/
theorem sound_of_outcome {result : Except ScanError CatalogScan} (hnodup : demanded.Nodup)
    (hsorted : demanded.Pairwise (· ≤ ·)) (hne : demanded ≠ [])
    (h : Outcome client w stream demanded result) :
    (∃ e, result = .error (.api e) ∧ client.turn w stream 0 0 = .error e) ∨
      ∃ scan accepted, result = .ok scan ∧ Sound client w stream demanded accepted scan ∧
        ∀ iso, ReadsBack iso → scan.state = .complete → Stored iso demanded scan := by
  cases h with
  | failed herror => exact Or.inl ⟨_, rfl, herror⟩
  | stopped h hlast hmore hbefore herror =>
    refine Or.inr ⟨_, _, rfl, sound_scanResult h hnodup hsorted hne hlast ?_ ?_, nofun⟩
    · simp [hmore]
    · simpa using hbefore
  | ended h hlast hmore =>
    refine Or.inr ⟨_, _, rfl, sound_scanResult h hnodup hsorted hne hlast ?_ ?_, ?_⟩
    · simp [hmore]
    · simp
    · intro iso hiso _
      exact stored_scanResult hiso h (Or.inl rfl)
  | passed h hlast hmore hpassed =>
    refine Or.inr ⟨_, _, rfl, sound_scanResult h hnodup hsorted hne hlast ?_ ?_, ?_⟩
    · simp [hmore]
    · simpa using hpassed
    · intro iso hiso _
      exact stored_scanResult hiso h (Or.inr ⟨rfl, hpassed⟩)

theorem normalizeDemandedAppids_pos {values : List Int}
    (h : normalizeDemandedAppids values = .ok demanded) (hne : values ≠ []) :
    demanded ≠ [] ∧ 0 < demanded.getLastD 0 := by
  have hdemanded : demanded = sortBy id (values.map Int.toNat) ∧ ∀ value ∈ values, 0 < value := by
    unfold normalizeDemandedAppids at h
    split at h
    · rename_i hvalues
      exact ⟨(Except.ok.inj h).symm, fun value hmem => (hvalues.2 value hmem).1⟩
    · cases h
  have hnil : demanded ≠ [] := by
    rw [← List.length_pos_iff, hdemanded.1, (sortBy_perm id _).length_eq, List.length_map]
    exact List.length_pos_iff.mpr hne
  refine ⟨hnil, ?_⟩
  have hmem := getLastD_mem hnil
  rw [hdemanded.1, (sortBy_perm id _).mem_iff] at hmem
  obtain ⟨value, hvalue, heq⟩ := List.mem_map.mp hmem
  rw [hdemanded.1, ← heq]
  have hpositive := hdemanded.2 value hvalue
  omega

/-- Whatever the provider answers, a scan of a demand ends after at most as many requests
as its largest AppID, before the first page or with a sound scan. -/
theorem catalog_scan_sound (client : Client) (w : World) (hasKey : Bool) (stream : CatalogStream)
    {values : List Int} {demanded : List Nat} (h : normalizeDemandedAppids values = .ok demanded)
    (hne : values ≠ []) :
    ∃ result, (∀ requests, demanded.getLastD 0 ≤ requests →
        scanDemandedApps client w hasKey values stream requests = some result) ∧
      ((∃ e, result = .error (.api e) ∧ (hasKey = true → client.turn w stream 0 0 = .error e)) ∨
        ∃ scan accepted, result = .ok scan ∧ Sound client w stream demanded accepted scan ∧
          ∀ iso, ReadsBack iso → scan.state = .complete → Stored iso demanded scan) := by
  obtain ⟨hnodup, hsorted⟩ := normalizeDemandedAppids_eq_ok h
  obtain ⟨hnil, hpositive⟩ := normalizeDemandedAppids_pos h hne
  cases hasKey with
  | false =>
    refine ⟨_, ?_, Or.inl ⟨⟨"AUTHENTICATION_FAILED", false⟩, rfl, nofun⟩⟩
    intro requests _
    rw [scanDemandedApps, h]
    exact (if_neg hnil).trans (if_pos rfl)
  | true =>
    obtain ⟨result, hloop, houtcome⟩ := outcome_scanLoop (.start) ⟨hpositive, nofun⟩
      (Nat.le_of_eq (Nat.zero_add (demanded.getLastD 0)).symm)
    refine ⟨result, ?_, ?_⟩
    · intro requests hrequests
      obtain ⟨more, rfl⟩ := Nat.exists_eq_add_of_le hrequests
      rw [scanDemandedApps, h]
      refine (if_neg hnil).trans ((if_neg (by decide)).trans ?_)
      exact scanLoop_add hloop more
    · rcases sound_of_outcome hnodup hsorted hnil houtcome with hfailed | hsound
      · obtain ⟨e, hresult, herror⟩ := hfailed
        exact Or.inl ⟨e, hresult, fun _ => herror⟩
      · exact Or.inr hsound

/-! ## Two pages -/

def fullClient : Client :=
  ⟨defaultMaxResults, of_decide_eq_true rfl⟩

/-- A page that lists these AppIDs. -/
def listing (appids : List Int) (haveMore : Bool) : JsonValue :=
  .obj [("response", .obj [("apps", .arr (appids.map fun appid => .obj [("appid", .int appid)])),
    ("have_more_results", .bool haveMore)])]

/-- A provider whose second page is the last one. -/
def twoPages : World where
  answer := fun n _ => .ok ⟨200, List.replicate n 0⟩
  loads := fun body => some (if body = [] then listing [10, 20] true else listing [40] false)
  clock := fun _ => some (Storage.sinceNoon 0)

/-- `datetime.fromisoformat` of the texts that a scan writes. -/
def writtenIso : FromIsoFormat :=
  fun text => (Storage.readInstant text).map Aware.ofInstant

theorem readsBack_writtenIso : ReadsBack writtenIso := by
  intro i
  rw [writtenIso, Storage.readInstant_text]
  rfl

/-- The AppID between the pages is absent, and the scan is stored as it is. -/
theorem catalog_scan_sound_two :
    ∃ scan accepted, scanDemandedApps fullClient twoPages true [30, 10] .games 30 =
        some (.ok scan) ∧
      Sound fullClient twoPages .games [10, 30] accepted scan ∧
      scan.hits = [⟨10, .games, none, none⟩] ∧ scan.confirmedAbsentAppids = [30] ∧
      scan.state = .complete ∧ Stored writtenIso [10, 30] scan := by
  obtain ⟨result, hresult, h⟩ := catalog_scan_sound fullClient twoPages true .games
    (show normalizeDemandedAppids [30, 10] = .ok [10, 30] by decide) (by decide)
  have hscan := hresult 30 (by decide)
  rcases h with ⟨e, -, herror⟩ | ⟨scan, accepted, rfl, hsound, hstored⟩
  · cases (herror rfl)
  · have hparts : (scanDemandedApps fullClient twoPages true [30, 10] .games 30).bind
        (fun result => result.toOption.map fun scan =>
          (scan.hits, scan.confirmedAbsentAppids, scan.state)) =
        some ([⟨10, .games, none, none⟩], [30], .complete) := by
      decide +kernel
    rw [hscan] at hparts
    obtain ⟨hhits, hparts⟩ := Prod.ext_iff.mp (Option.some.inj hparts)
    obtain ⟨habsent, hstate⟩ := Prod.ext_iff.mp hparts
    exact ⟨scan, accepted, hscan, hsound, hhits, habsent, hstate,
      hstored writtenIso readsBack_writtenIso hstate⟩

end SteamAgent.Catalog
