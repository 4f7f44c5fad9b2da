import FleetWatch.Proofs.Container.FollowerTurn
import Mathlib.Data.List.Induction
/-!
What a handle shows of its container.

Calls, waiters and followers work at one handle, and the engine answers each of their looks at once
or later, in any order.  A look that finds the container, a look that finds none, a `clear` and a
log that is not there are conclusions; other failures are not.  Main statement: after any run the
handle shows the container just if the latest conclusion found it, and then what that look was
answered, and every call returns what its own look was answered (`run_showsLatest`).
-/

namespace FleetWatch

/-! ### Conclusions -/

/-- What settles what is known of a container. -/
inductive Conclusion where
  | seen (s : Snapshot)
  /-- A look found no container. -/
  | missing
  | cleared
  /-- There was no container to open the log of. -/
  | noLog
deriving Repr, DecidableEq

namespace Conclusion

/-- What the answer to a look settles. -/
def ofLook : LookAnswer → Option Conclusion
  | .ok s => some (.seen s)
  | .error e => if e.isNotFound then some .missing else none

/-- What the answer to the opening of a log settles. -/
def ofLog (answer : LogAnswer) : Option Conclusion :=
  if saysMissing answer then some .noLog else none

/-- The conclusions of somebody who hears the answer to a look, and then that to opening a log. -/
def ofAnswers (heard : Option LookAnswer) (log : Option LogAnswer) : List Conclusion :=
  (heard.bind ofLook).toList ++ (log.bind ofLog).toList

def shown : Conclusion → Option Snapshot
  | .seen s => some s
  | .missing | .cleared | .noLog => none

/-- What is known after some conclusions, of which the latest counts. -/
def knownAfter (conclusions : List Conclusion) (before : Option Snapshot) : Option Snapshot :=
  (conclusions.getLast?.map shown).getD before

theorem knownAfter_append (cs cs' : List Conclusion) (before : Option Snapshot) :
    knownAfter (cs ++ cs') before = knownAfter cs' (knownAfter cs before) := by
  cases h : cs'.getLast? with
  | none =>
    rw [List.getLast?_eq_none_iff.mp h, List.append_nil]
    rfl
  | some c =>
    simp only [knownAfter, List.getLast?_append, h, Option.some_or, Option.map_some,
      Option.getD_some]

/-- A snapshot is known just if the latest conclusion is that it was seen. -/
theorem knownAfter_none_eq_some_iff {conclusions : List Conclusion} {s : Snapshot} :
    knownAfter conclusions none = some s ↔ conclusions.getLast? = some (.seen s) := by
  cases h : conclusions.getLast? with
  | none => simp [knownAfter, h]
  | some c => cases c <;> simp [knownAfter, h, shown]

end Conclusion

open Conclusion

theorem Handle.snapshot_observe_eq (h : Handle) (r : LookAnswer) :
    (h.observe r).2.snapshot = knownAfter (ofLook r).toList h.snapshot := by
  cases r with
  | ok s => rfl
  | error e =>
    simp only [observe, ofLook]
    by_cases he : e.isNotFound
    · rw [if_pos he, if_pos he]
      exact h.snapshot_clear
    · rw [if_neg he, if_neg he]
      rfl

theorem Site.Hears.snapshot_eq {s s' : Site} {heard : Option LookAnswer} (h : s.Hears heard s') :
    s'.handle.snapshot = knownAfter (ofAnswers heard none) s.handle.snapshot := by
  rw [h.handle_eq, ofAnswers, Option.bind_none, Option.toList_none, List.append_nil]
  cases heard with
  | none => rfl
  | some r => exact s.handle.snapshot_observe_eq r

/-- A turn of a follower changes what the handle shows by what it concludes. -/
theorem Follow.Follower.Turn.snapshot_eq {f : Follower} {s : Site} {next : Follower × Site}
    {heard : Option LookAnswer} {log : Option LogAnswer} {item : Option LogItem}
    (h : f.Turn s heard log item next) :
    next.2.handle.snapshot = knownAfter (ofAnswers heard log) s.handle.snapshot := by
  obtain ⟨after, hears, -, hhandle⟩ := h.site_eq
  have hafter := hears.snapshot_eq
  rw [ofAnswers, Option.bind_none, Option.toList_none, List.append_nil] at hafter
  rw [ofAnswers, knownAfter_append, ← hafter, hhandle]
  cases log with
  | none => rfl
  | some answer =>
    rw [Option.any_some, Option.bind_some, ofLog]
    by_cases hmissing : saysMissing answer
    · rw [if_pos hmissing, if_pos hmissing]
      exact after.handle.snapshot_clear
    · rw [if_neg hmissing, if_neg hmissing]
      rfl

/-! ### Calls -/

/-- What somebody asks of a handle. -/
inductive Call where
  | refresh
  | status
  | getenv (key : String)
deriving Repr, DecidableEq

/-- What a call gives. -/
inductive CallResult where
  | found (result : Except ContainerError (Option Snapshot))
  | state (result : Except ContainerError LifecycleState)
  | value (result : Except ContainerError (Option String))

namespace Call

/-- Makes a call.  It gives nothing yet if its look is not answered. -/
def make (c : Call) (s : Site) : Option CallResult × Site :=
  match c with
  | .refresh => (s.refresh.1.map .found, s.refresh.2)
  | .status => (s.status.1.map .state, s.status.2)
  | .getenv key => ((s.getenv key).1.map .value, (s.getenv key).2)

/-- What a call gives when its look showed this. -/
def resultOf (c : Call) (h : Handle) (found : Except ContainerError (Option Snapshot)) :
    CallResult :=
  match c with
  | .refresh => .found found
  | .status => .state (found.map Handle.stateOf)
  | .getenv key => .value (h.variableOf key found)

end Call

/-- A call that was made. -/
structure MadeCall where
  call : Call
  /-- What the handle showed before. -/
  known : Option Snapshot
  /-- How many looks the engine counted for it. -/
  looks : Nat

/-- A call that returned. -/
structure ReturnedCall extends MadeCall where
  /-- What its look was answered. -/
  answer : Option LookAnswer
  result : CallResult

/-- A call that needs the answer to its one look. -/
inductive MadeCall.AwaitsLook : MadeCall → Prop where
  | refresh (known : Option Snapshot) : AwaitsLook ⟨.refresh, known, 1⟩
  | status (known : Option Snapshot) : AwaitsLook ⟨.status, known, 1⟩
  | getenv (key : String) : AwaitsLook ⟨.getenv key, none, 1⟩

/-- A call at the handle of a name that took the looks that it needs, and gave what they showed. -/
inductive ReturnedCall.GoesByLook (name : String) : ReturnedCall → Prop where
  | found (known : Option Snapshot) (s : Snapshot) :
    GoesByLook name ⟨⟨.refresh, known, 1⟩, some (.ok s), .found (.ok (some s))⟩
  | foundNone (known : Option Snapshot) (e : ContainerError) (isNotFound : e.isNotFound = true) :
    GoesByLook name ⟨⟨.refresh, known, 1⟩, some (.error e), .found (.ok none)⟩
  | refreshFails (known : Option Snapshot) (e : ContainerError)
      (isNotFound : e.isNotFound = false) :
    GoesByLook name ⟨⟨.refresh, known, 1⟩, some (.error e), .found (.error e)⟩
  | state (known : Option Snapshot) (s : Snapshot) :
    GoesByLook name ⟨⟨.status, known, 1⟩, some (.ok s), .state (.ok s.state)⟩
  | stateMissing (known : Option Snapshot) (e : ContainerError) (isNotFound : e.isNotFound = true) :
    GoesByLook name ⟨⟨.status, known, 1⟩, some (.error e), .state (.ok .missing)⟩
  | statusFails (known : Option Snapshot) (e : ContainerError) (isNotFound : e.isNotFound = false) :
    GoesByLook name ⟨⟨.status, known, 1⟩, some (.error e), .state (.error e)⟩
  | knownValue (key : String) (s : Snapshot) :
    GoesByLook name ⟨⟨.getenv key, some s, 0⟩, none, .value (.ok (s.getenv key))⟩
  | value (key : String) (s : Snapshot) :
    GoesByLook name ⟨⟨.getenv key, none, 1⟩, some (.ok s), .value (.ok (s.getenv key))⟩
  | valueMissing (key : String) (e : ContainerError) (isNotFound : e.isNotFound = true) :
    GoesByLook name ⟨⟨.getenv key, none, 1⟩, some (.error e), .value (.error (.notFound name))⟩
  | getenvFails (key : String) (e : ContainerError) (isNotFound : e.isNotFound = false) :
    GoesByLook name ⟨⟨.getenv key, none, 1⟩, some (.error e), .value (.error e)⟩

/-- A call that needs a look gives what the look is answered. -/
theorem MadeCall.AwaitsLook.goesByLook {c : MadeCall} (h : c.AwaitsLook) (handle : Handle)
    (answer : LookAnswer) :
    ReturnedCall.GoesByLook handle.name
      ⟨c, some answer, c.call.resultOf handle (handle.observe answer).1⟩ := by
  cases answer with
  | ok s =>
    cases h with
    | refresh known => exact .found known s
    | status known => exact .state known s
    | getenv key => exact .value key s
  | error e =>
    cases he : e.isNotFound with
    | true =>
      have hfound : (handle.observe (.error e)).1 = .ok none := by
        simp only [Handle.observe, he, if_true]
      rw [hfound]
      cases h with
      | refresh known => exact .foundNone known e he
      | status known => exact .stateMissing known e he
      | getenv key => exact .valueMissing key e he
    | false =>
      have hfound : (handle.observe (.error e)).1 = .error e := by
        simp only [Handle.observe, he, Bool.false_eq_true, if_false]
      rw [hfound]
      cases h with
      | refresh known => exact .refreshFails known e he
      | status known => exact .statusFails known e he
      | getenv key => exact .getenvFails key e he

namespace Call

/-- A call that is made at a site. -/
def madeAt (c : Call) (s : Site) : MadeCall where
  call := c
  known := s.handle.snapshot
  looks := (c.make s).2.engine.inspects - s.engine.inspects

/-- A call takes one look and gives what the look showed, or is a question for a variable that the
handle can answer by itself. -/
theorem make_cases (c : Call) (s : Site) :
    (c.madeAt s).AwaitsLook ∧
        c.make s = (s.refresh.1.map (c.resultOf s.handle), s.refresh.2) ∨
      ∃ key seen, c = .getenv key ∧ s.handle.snapshot = some seen ∧
        c.make s = (some (.value (.ok (seen.getenv key))), s) := by
  have hlooks : s.refresh.2.engine.inspects - s.engine.inspects = 1 := by
    rw [s.refresh_spec.2.2, Nat.add_sub_cancel_left]
  cases c with
  | refresh =>
    left
    simp only [madeAt, make, hlooks]
    exact ⟨.refresh _, rfl⟩
  | status =>
    left
    simp only [madeAt, make, Site.status, hlooks, Option.map_map]
    exact ⟨.status _, rfl⟩
  | getenv key =>
    cases hknown : s.handle.snapshot with
    | some seen =>
      right
      refine ⟨key, seen, rfl, rfl, ?_⟩
      simp only [make, Site.getenv, hknown, Option.map_some]
    | none =>
      left
      simp only [madeAt, make, Site.getenv, hknown, hlooks, Option.map_map]
      exact ⟨.getenv key, rfl⟩

end Call

/-! ### A handle that is shared -/

/-- A handle with everybody who works at it, and a record of what was concluded and returned. -/
structure SharedHandle where
  site : Site
  /-- The calls whose look is not answered yet. -/
  calls : List MadeCall := []
  waiters : List (Awaited × Waiter) := []
  followers : List Follow.Follower := []
  /-- The conclusions, oldest first. -/
  conclusions : List Conclusion := []
  returned : List ReturnedCall := []

/-- What can happen at a handle.  A place is that in the list of those who are asked for. -/
inductive HandleEvent where
  | pass (ms : Nat)
  /-- From now on the engine is as this one. -/
  | engineBecomes (engine : Engine)
  | cancel
  | clear
  | call (c : Call)
  | callAnswered (place : Nat) (answer : LookAnswer)
  | wait (want : Awaited)
  | waiterGoesOn (place : Nat) (isCancelled : Bool)
  | waiterAnswered (place : Nat) (answer : LookAnswer)
  | follow
  | followerGoesOn (place : Nat)
  | followerAnswered (place : Nat) (answer : LookAnswer)
  | reader (place : Nat) (act : Follow.ReaderAct)

/-- Those who wait, when the one at a place did this. -/
def Waited.putInto (waited : Waited) (waiters : List (Awaited × Waiter)) (place : Nat)
    (want : Awaited) : List (Awaited × Waiter) :=
  match waited with
  | .again w => waiters.set place (want, w)
  | .ready _ | .cancelled => waiters.eraseIdx place

namespace SharedHandle

/-- A handle that was just made, and shows nothing. -/
def start (now : Nat) (engine : Engine) (name : String) : SharedHandle where
  site := { now, engine, handle := { name } }

/-- The site changes, and this is concluded. -/
def moveTo (h : SharedHandle) (site : Site) (conclusions : List Conclusion) : SharedHandle :=
  { h with site, conclusions := h.conclusions ++ conclusions }

/-- The conclusions from the look that is taken between two moments. -/
def lookConclusions (s s' : Site) : List Conclusion :=
  ofAnswers (s.answerBetween s') none

def on (h : SharedHandle) : HandleEvent → SharedHandle
  | .pass ms => h.moveTo { h.site with now := h.site.now + ms } []
  | .engineBecomes engine => h.moveTo { h.site with engine } []
  | .cancel => h.moveTo { h.site with handle := { h.site.handle with isCancelled := true } } []
  | .clear => h.moveTo { h.site with handle := h.site.handle.clear } [.cleared]
  | .call c =>
    let (result, site) := c.make h.site
    let made := c.madeAt h.site
    let after := h.moveTo site (lookConclusions h.site site)
    match result with
    | none => { after with calls := h.calls ++ [made] }
    | some result =>
      { after with
        returned := h.returned ++ [{ made with answer := h.site.answerBetween site, result }] }
  | .callAnswered place answer =>
    match h.calls[place]? with
    | none => h
    | some made =>
      let result := made.call.resultOf h.site.handle (h.site.handle.observe answer).1
      { h.moveTo (h.site.answered answer) (ofAnswers (some answer) none) with
        calls := h.calls.eraseIdx place
        returned := h.returned ++ [{ made with answer := some answer, result }] }
  | .wait want => { h with waiters := h.waiters ++ [(want, .fresh)] }
  | .waiterGoesOn place isCancelled =>
    match h.waiters[place]? with
    | none => h
    | some (want, w) =>
      match w.step? want isCancelled h.site with
      | none => h
      | some (waited, site) =>
        { h.moveTo site (lookConclusions h.site site) with
          waiters := waited.putInto h.waiters place want }
  | .waiterAnswered place answer =>
    match h.waiters[place]? with
    | some (want, .stuck) =>
      let site := h.site.answered answer
      { h.moveTo site (ofAnswers (some answer) none) with
        waiters := (Waiter.check want site).putInto h.waiters place want }
    | _ => h
  | .follow => { h with followers := h.followers ++ [{}] }
  | .followerGoesOn place =>
    match h.followers[place]? with
    | none => h
    | some f =>
      match f.step? h.site with
      | none => h
      | some (f', site) =>
        { h.moveTo site (ofAnswers (h.site.answerBetween site) (f.logAnswer? (f.wait? h.site))) with
          followers := h.followers.set place f' }
  | .followerAnswered place answer =>
    match h.followers[place]? with
    | none => h
    | some f =>
      match f.answered? answer h.site with
      | none => h
      | some (f', site) =>
        { h.moveTo site (ofAnswers (some answer) (f.logAnswer? (f.lateWait? answer h.site))) with
          followers := h.followers.set place f' }
  | .reader place act => { h with followers := h.followers.modify place fun f => f.heed act }

def run (h : SharedHandle) (events : List HandleEvent) : SharedHandle :=
  events.foldl on h

theorem run_concat (h : SharedHandle) (events : List HandleEvent) (e : HandleEvent) :
    h.run (events ++ [e]) = (h.run events).on e := by
  simp only [run, List.foldl_append, List.foldl_cons, List.foldl_nil]

/-- What holds of a handle of a name at every moment. -/
structure Sound (name : String) (h : SharedHandle) : Prop where
  name_eq : h.site.handle.name = name
  shows : h.site.handle.snapshot = knownAfter h.conclusions none
  awaitLook : ∀ c ∈ h.calls, c.AwaitsLook
  goByLook : ∀ c ∈ h.returned, c.GoesByLook name

theorem start_sound (now : Nat) (engine : Engine) (name : String) :
    (start now engine name).Sound name where
  name_eq := rfl
  shows := rfl
  awaitLook _ hc := absurd hc List.not_mem_nil
  goByLook _ hc := absurd hc List.not_mem_nil

variable {name : String} {h : SharedHandle}

/-- A change of what the handle shows has to be concluded. -/
theorem Sound.moveTo (hs : h.Sound name) {site : Site} {conclusions : List Conclusion}
    (hname : site.handle.name = h.site.handle.name)
    (hshows : site.handle.snapshot = knownAfter conclusions h.site.handle.snapshot) :
    (h.moveTo site conclusions).Sound name where
  name_eq := hname.trans hs.name_eq
  shows := by rw [SharedHandle.moveTo, knownAfter_append, ← hs.shows, hshows]
  awaitLook := hs.awaitLook
  goByLook := hs.goByLook

/-- What is heard is concluded. -/
theorem Sound.hear (hs : h.Sound name) {site : Site}
    {heard : Option LookAnswer} (hears : h.site.Hears heard site) :
    (h.moveTo site (ofAnswers heard none)).Sound name :=
  hs.moveTo hears.name_eq hears.snapshot_eq

/-- So is what a follower comes to know. -/
theorem Sound.turn (hs : h.Sound name) {f : Follow.Follower} {next : Follow.Follower × Site}
    {heard : Option LookAnswer} {log : Option LogAnswer} {item : Option LogItem}
    (hturn : f.Turn h.site heard log item next) :
    (h.moveTo next.2 (ofAnswers heard log)).Sound name :=
  hs.moveTo hturn.name_eq hturn.snapshot_eq

/-- One more call returns. -/
theorem Sound.returns (hs : h.Sound name) {c : ReturnedCall} (hc : c.GoesByLook name) :
    ∀ c' ∈ h.returned ++ [c], c'.GoesByLook name := by
  intro c' hmem
  rcases List.mem_append.mp hmem with hold | hnew
  · exact hs.goByLook c' hold
  · exact List.mem_singleton.mp hnew ▸ hc

/-- A call is made. -/
theorem Sound.call (hs : h.Sound name) (c : Call) : (h.on (.call c)).Sound name := by
  rcases c.make_cases h.site with ⟨hawaits, hmake⟩ | ⟨key, seen, rfl, hknown, hmake⟩
  · obtain ⟨hears, hresult, -⟩ := h.site.refresh_spec
    have hheard := hs.hear hears
    simp only [SharedHandle.on, hmake, hresult]
    rw [← lookConclusions] at hheard
    cases hanswer : h.site.answerBetween h.site.refresh.2 with
    | none =>
      refine ⟨hheard.name_eq, hheard.shows, ?_, hs.goByLook⟩
      intro made hmade
      rcases List.mem_append.mp hmade with hold | hnew
      · exact hs.awaitLook made hold
      · exact List.mem_singleton.mp hnew ▸ hawaits
    | some answer =>
      refine ⟨hheard.name_eq, hheard.shows, hs.awaitLook, ?_⟩
      exact hs.returns (hs.name_eq ▸ hawaits.goesByLook h.site.handle answer)
  · have hquiet : h.site.answerBetween h.site = none := Site.answerBetween_of_inspects rfl
    have hmade : Call.madeAt (.getenv key) h.site = ⟨.getenv key, some seen, 0⟩ := by
      rw [Call.madeAt, hmake, hknown, Nat.sub_self]
    have hstays := hs.hear h.site.hears_nothing
    simp only [SharedHandle.on, hmake, hmade, lookConclusions, hquiet]
    refine ⟨hstays.name_eq, hstays.shows, hs.awaitLook, ?_⟩
    exact hs.returns (.knownValue key seen)

theorem Sound.callAnswered (hs : h.Sound name) (place : Nat)
    (answer : LookAnswer) : (h.on (.callAnswered place answer)).Sound name := by
  simp only [on]
  split
  · exact hs
  · next made hmade =>
    have hawaits : made.AwaitsLook := hs.awaitLook made (List.mem_of_getElem? hmade)
    have hheard := hs.hear (h.site.hears_answered answer)
    refine ⟨hheard.name_eq, hheard.shows, ?_, ?_⟩
    · intro c hc
      exact hs.awaitLook c (List.mem_of_mem_eraseIdx hc)
    · exact hs.returns (hs.name_eq ▸ hawaits.goesByLook h.site.handle answer)

theorem Sound.on (hs : h.Sound name) (e : HandleEvent) : (h.on e).Sound name := by
  cases e with
  | pass ms => exact hs.moveTo rfl rfl
  | engineBecomes engine => exact hs.moveTo rfl rfl
  | cancel => exact hs.moveTo rfl rfl
  | clear => exact hs.moveTo h.site.handle.name_clear h.site.handle.snapshot_clear
  | call c => exact hs.call c
  | callAnswered place answer => exact hs.callAnswered place answer
  | wait want => exact ⟨hs.name_eq, hs.shows, hs.awaitLook, hs.goByLook⟩
  | waiterGoesOn place isCancelled =>
    simp only [SharedHandle.on]
    split
    · exact hs
    · split
      · exact hs
      · next hstep =>
        have hnext := hs.hear (Waiter.turn_of_step? hstep).hears
        exact ⟨hnext.name_eq, hnext.shows, hnext.awaitLook, hnext.goByLook⟩
  | waiterAnswered place answer =>
    simp only [SharedHandle.on]
    split
    · have hnext := hs.hear (h.site.hears_answered answer)
      exact ⟨hnext.name_eq, hnext.shows, hnext.awaitLook, hnext.goByLook⟩
    · exact hs
  | follow => exact ⟨hs.name_eq, hs.shows, hs.awaitLook, hs.goByLook⟩
  | followerGoesOn place =>
    simp only [SharedHandle.on]
    split
    · exact hs
    · split
      · exact hs
      · next hstep =>
        have hnext := hs.turn (Follow.Follower.turn_of_step? hstep)
        exact ⟨hnext.name_eq, hnext.shows, hnext.awaitLook, hnext.goByLook⟩
  | followerAnswered place answer =>
    simp only [SharedHandle.on]
    split
    · exact hs
    · split
      · exact hs
      · next hanswered =>
        have hnext := hs.turn (Follow.Follower.turn_of_answered? hanswered)
        exact ⟨hnext.name_eq, hnext.shows, hnext.awaitLook, hnext.goByLook⟩
  | reader place act => exact ⟨hs.name_eq, hs.shows, hs.awaitLook, hs.goByLook⟩

theorem run_sound (now : Nat) (engine : Engine) (name : String) (events : List HandleEvent) :
    ((start now engine name).run events).Sound name := by
  induction events using List.reverseRecOn with
  | nil => exact start_sound now engine name
  | append_singleton events e ih =>
    rw [run_concat]
    exact ih.on e

/-- What a handle of a name shows is what was concluded last, and calls go by their own looks. -/
structure ShowsLatest (name : String) (h : SharedHandle) : Prop where
  /-- The container is shown just if the latest conclusion is that it was seen, and as it was. -/
  shows_iff : ∀ s, h.site.handle.snapshot = some s ↔ h.conclusions.getLast? = some (.seen s)
  /-- Whatever concludes nothing leaves alone what is shown. -/
  unchanged : ∀ e, (h.on e).conclusions = h.conclusions →
    (h.on e).site.handle.snapshot = h.site.handle.snapshot
  /-- A call that did not return yet has taken its one look. -/
  awaitLook : ∀ c ∈ h.calls, c.AwaitsLook
  goByLook : ∀ c ∈ h.returned, c.GoesByLook name

/-- After any run of calls, waiters and followers, whatever the engine answers and when, the handle
shows what was concluded last, and every call returned what its look was answered. -/
theorem run_showsLatest (now : Nat) (engine : Engine) (name : String) (events : List HandleEvent) :
    ((start now engine name).run events).ShowsLatest name := by
  have hs := run_sound now engine name events
  constructor
  · intro s
    rw [hs.shows]
    exact knownAfter_none_eq_some_iff
  · intro e hsame
    rw [(hs.on e).shows, hs.shows, hsame]
  · exact hs.awaitLook
  · exact hs.goByLook

/-- A look that fails leaves alone what is known, and one that finds nothing does not. -/
example :
    let db : Snapshot :=
      { id := "1", name := "db", state := .running, env := [], startedAt := none }
    let engine : Engine := .script
      { wall := ⟨0, 0⟩, inspections := [.ok db, .error (.engine "hiccup"), .error .notFound] }
    let h := start 0 engine "db"
    (h.run [.call .refresh, .call .status]).site.handle.snapshot = some db ∧
      (h.run [.call .refresh, .call .status, .call .status]).site.handle.snapshot = none := by
  decide

end SharedHandle

end FleetWatch
