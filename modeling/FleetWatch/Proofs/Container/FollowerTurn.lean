import FleetWatch.Container.Follow
/-!
Everything that a follower of a log can do next.

A step of whoever waits for a container at most hears the answer to one look (`Waiter.Turn`), and so
does a step of a follower, which opens the log or takes an item of it besides
(`Follow.Follower.Turn`).  A look that the engine does not answer at once is answered later,
whatever happened at the handle in between; what it leads to is a turn like any other.
-/

namespace FleetWatch

/-- What the engine answers to a look. -/
abbrev LookAnswer := Except ContainerError Snapshot

/-- What the engine answers to the opening of a log. -/
abbrev LogAnswer := Except ContainerError (Feed String)

/-- What an open log gives. -/
abbrev LogItem := Except ContainerError String

/-- The engine says that it has no such container. -/
def saysMissing {α : Type} : Except ContainerError α → Bool
  | .ok _ => false
  | .error e => e.isNotFound

/-! ### Handles -/

namespace Handle

variable {h : Handle} {r : LookAnswer} {s : Snapshot}

theorem name_clear (h : Handle) : h.clear.name = h.name := by
  unfold clear
  split <;> rfl

theorem isCancelled_clear (h : Handle) : h.clear.isCancelled = h.isCancelled := by
  unfold clear
  split <;> rfl

theorem snapshot_clear (h : Handle) : h.clear.snapshot = none := by
  unfold clear
  split
  · rfl
  · assumption

theorem name_observe (h : Handle) (r : LookAnswer) :
    (h.observe r).2.name = h.name := by
  unfold observe
  split
  · rfl
  · split
    · exact h.name_clear
    · rfl

theorem isCancelled_observe (h : Handle) (r : LookAnswer) :
    (h.observe r).2.isCancelled = h.isCancelled := by
  unfold observe
  split
  · rfl
  · split
    · exact h.isCancelled_clear
    · rfl

/-- A handle shows what an answer showed, or what it showed before. -/
theorem snapshot_observe (hs : (h.observe r).2.snapshot = some s) :
    r = .ok s ∨ h.snapshot = some s := by
  unfold observe at hs
  split at hs
  · cases hs
    exact Or.inl rfl
  · split at hs
    · cases h.snapshot_clear.symm.trans hs
    · exact Or.inr hs

end Handle

/-! ### Looks -/

theorem Engine.inspects_inspect (e : Engine) (name : String) :
    (e.inspect name).2.inspects = e.inspects + 1 := by
  cases e with
  | memory e => rfl
  | script e =>
    simp only [inspect, inspects, Script.Engine.inspect]
    split <;> rfl

theorem Engine.inspects_logs (e : Engine) (name : String) (request : LogRequest) :
    (e.logs name request).2.inspects = e.inspects := by
  cases e with
  | memory e => rfl
  | script e =>
    simp only [logs, inspects, Script.Engine.logs]
    split <;> rfl

namespace Site

variable {s s' : Site}

/-- A look that was taken before is answered. -/
def answered (s : Site) (answer : LookAnswer) : Site :=
  { s with handle := (s.handle.observe answer).2 }

/-- From one moment to another the handle learns what a look is answered, or nothing. -/
structure Hears (s : Site) (heard : Option LookAnswer) (s' : Site) : Prop where
  now_eq : s'.now = s.now
  handle_eq : s'.handle = (heard.map fun r => (s.handle.observe r).2).getD s.handle

theorem hears_nothing (s : Site) : s.Hears none s :=
  ⟨rfl, rfl⟩

theorem hears_answered (s : Site) (answer : LookAnswer) :
    s.Hears (some answer) (s.answered answer) :=
  ⟨rfl, rfl⟩

/-- What the engine answers to the look that is taken between two moments.  None is taken if the
engine counts none. -/
def answerBetween (s s' : Site) : Option LookAnswer :=
  if s'.engine.inspects = s.engine.inspects then none
  else
    match (s.engine.inspect s.handle.name).1 with
    | .answer r => some r
    | .never => none

theorem answerBetween_of_inspects (h : s'.engine.inspects = s.engine.inspects) :
    s.answerBetween s' = none := by
  rw [answerBetween, if_pos h]

theorem inspect_of_answerBetween {r : LookAnswer}
    (h : s.answerBetween s' = some r) : (s.engine.inspect s.handle.name).1 = .answer r := by
  unfold answerBetween at h
  split at h
  · cases h
  · split at h
    · next hreply =>
      cases h
      exact hreply
    · cases h

theorem answerBetween_congr {s'' : Site} (h : s''.engine.inspects = s'.engine.inspects) :
    s.answerBetween s'' = s.answerBetween s' := by
  simp only [answerBetween, h]

/-- A look is counted, and gives what the handle makes of its answer. -/
theorem refresh_spec (s : Site) :
    s.Hears (s.answerBetween s.refresh.2) s.refresh.2 ∧
      s.refresh.1 = (s.answerBetween s.refresh.2).map (fun r => (s.handle.observe r).1) ∧
      s.refresh.2.engine.inspects = s.engine.inspects + 1 := by
  cases hlook : s.engine.inspect s.handle.name with
  | mk reply engine =>
    have hcount : engine.inspects = s.engine.inspects + 1 := by
      rw [← s.engine.inspects_inspect s.handle.name, hlook]
    have hmore : engine.inspects ≠ s.engine.inspects := by omega
    cases reply with
    | never =>
      have hrefresh : s.refresh = (none, { s with engine }) := by simp only [refresh, hlook]
      simp only [hrefresh, answerBetween, if_neg hmore, hlook]
      exact ⟨⟨rfl, rfl⟩, rfl, hcount⟩
    | answer r =>
      have hrefresh : s.refresh = (some (s.handle.observe r).1, { s.answered r with engine }) := by
        simp only [refresh, hlook, answered]
      simp only [hrefresh, answerBetween, if_neg hmore, hlook]
      exact ⟨⟨rfl, rfl⟩, rfl, hcount⟩

/-- A look that is not answered. -/
theorem hears_of_refresh_none (h : s.refresh = (none, s')) :
    s.answerBetween s' = none ∧ s.Hears none s' := by
  obtain ⟨hears, hresult, -⟩ := s.refresh_spec
  rw [h] at hears hresult
  have hheard := Option.map_eq_none_iff.mp hresult.symm
  exact ⟨hheard, hheard ▸ hears⟩

/-- A look that is answered. -/
theorem hears_of_refresh_some {result : Except ContainerError (Option Snapshot)}
    (h : s.refresh = (some result, s')) :
    ∃ answer, s.answerBetween s' = some answer ∧ s.Hears (some answer) s' := by
  obtain ⟨hears, hresult, -⟩ := s.refresh_spec
  rw [h] at hears hresult
  obtain ⟨answer, hheard, -⟩ := Option.map_eq_some_iff.mp hresult.symm
  exact ⟨answer, hheard, hheard ▸ hears⟩

/-- A handle comes to show a container only by a look that shows it. -/
theorem Hears.snapshot_cases {heard : Option LookAnswer} (h : s.Hears heard s')
    (hnone : s.handle.snapshot = none) :
    s'.handle.snapshot = none ∨ ∃ seen, heard = some (.ok seen) := by
  rw [h.handle_eq]
  cases heard with
  | none => exact Or.inl hnone
  | some r =>
    cases hafter : (s.handle.observe r).2.snapshot with
    | none => exact Or.inl hafter
    | some seen =>
      rcases Handle.snapshot_observe hafter with hr | hold
      · exact Or.inr ⟨seen, congrArg some hr⟩
      · cases hnone.symm.trans hold

theorem Hears.name_eq {heard : Option LookAnswer} (h : s.Hears heard s') :
    s'.handle.name = s.handle.name := by
  rw [h.handle_eq]
  cases heard with
  | none => rfl
  | some r => exact s.handle.name_observe r

theorem Hears.isCancelled_eq {heard : Option LookAnswer}
    (h : s.Hears heard s') : s'.handle.isCancelled = s.handle.isCancelled := by
  rw [h.handle_eq]
  cases heard with
  | none => rfl
  | some r => exact s.handle.isCancelled_observe r

end Site

/-! ### Waiters -/

namespace Waiter

variable {want : Awaited} {w : Waiter} {isCancelled : Bool} {s s' : Site} {waited : Waited}

/-- Everything that a waiter can do next, with the answer that it hears. -/
inductive Turn (want : Awaited) (isCancelled : Bool) (s : Site) :
    Waiter → Option LookAnswer → Waited → Site → Prop where
  | starts : Turn want isCancelled s .fresh none (check want s) s
  | stops {seen due : Nat} (why : isCancelled = true ∨ s.handle.isCancelled = true) :
    Turn want isCancelled s (.waiting seen due) none .cancelled s
  /-- It notices that the handle shows something else. -/
  | notices {seen due : Nat} (changed : s.handle.version ≠ seen) :
    Turn want isCancelled s (.waiting seen due) none (check want s) s
  | looks {seen due : Nat} {answer : LookAnswer} {after : Site}
      (isDue : due ≤ s.now) (hears : s.Hears (some answer) after) :
    Turn want isCancelled s (.waiting seen due) (some answer) (check want after) after
  | looksInVain {seen due : Nat} {after : Site} (isDue : due ≤ s.now) (hears : s.Hears none after) :
    Turn want isCancelled s (.waiting seen due) none (.again .stuck) after
  /-- Its look is answered late. -/
  | isAnswered (answer : LookAnswer) :
    Turn want isCancelled s .stuck (some answer) (check want (s.answered answer))
      (s.answered answer)

theorem turn_of_step? (h : w.step? want isCancelled s = some (waited, s')) :
    w.Turn want isCancelled s (s.answerBetween s') waited s' := by
  have hquiet : s.answerBetween s = none := Site.answerBetween_of_inspects rfl
  cases w with
  | fresh =>
    cases h
    rw [hquiet]
    exact .starts
  | stuck => cases h
  | waiting seen due =>
    simp only [step?] at h
    split at h
    · next hstop =>
      cases h
      rw [hquiet]
      exact .stops ((Bool.or_eq_true _ _).mp hstop)
    · split at h
      · next hchanged =>
        cases h
        rw [hquiet]
        exact .notices hchanged
      · split at h
        · next hdue =>
          split at h
          · next hrefresh =>
            cases h
            obtain ⟨hheard, hears⟩ := Site.hears_of_refresh_none hrefresh
            rw [hheard]
            exact .looksInVain hdue hears
          · next hrefresh =>
            cases h
            obtain ⟨answer, hheard, hears⟩ := Site.hears_of_refresh_some hrefresh
            rw [hheard]
            exact .looks hdue hears
        · cases h

theorem Turn.hears {heard : Option LookAnswer}
    (h : w.Turn want isCancelled s heard waited s') : s.Hears heard s' := by
  cases h with
  | starts | stops | notices => exact s.hears_nothing
  | looks _ hears | looksInVain _ hears => exact hears
  | isAnswered answer => exact s.hears_answered answer

theorem check_again {w : Waiter} (h : check want s = .again w) :
    w = .waiting s.handle.version (s.now + observeInterval) := by
  unfold check at h
  split at h
  · split at h
    · cases h
    · cases h
      rfl
  · cases h
    rfl

theorem check_ne_cancelled (want : Awaited) (s : Site) : check want s ≠ .cancelled := by
  unfold check
  split
  · split <;> nofun
  · nofun

/-- A waiter changes its handle only by what the engine answers. -/
theorem handle_of_step? (h : w.step? want isCancelled s = some (waited, s')) :
    s'.handle = s.handle ∨ ∃ r, (s.engine.inspect s.handle.name).1 = .answer r ∧
      s'.handle = (s.handle.observe r).2 := by
  have hears := (turn_of_step? h).hears
  cases hheard : s.answerBetween s' with
  | none =>
    rw [hheard] at hears
    exact Or.inl hears.handle_eq
  | some r =>
    rw [hheard] at hears
    exact Or.inr ⟨r, Site.inspect_of_answerBetween hheard, hears.handle_eq⟩

/-- Only a waiter that is told to stop does. -/
theorem Turn.of_cancelled {heard : Option LookAnswer}
    (h : w.Turn want isCancelled s heard .cancelled s') :
    s' = s ∧ heard = none ∧ (isCancelled = true ∨ s.handle.isCancelled = true) := by
  generalize hwaited : Waited.cancelled = waited at h
  cases h with
  | stops why => exact ⟨rfl, rfl, why⟩
  | looksInVain => cases hwaited
  | starts | notices | looks | isAnswered => exact absurd hwaited.symm (check_ne_cancelled _ _)

/-- A waiter that waits on saw what the handle shows, and looks again after a while, unless its look
is not answered. -/
theorem Turn.of_again {heard : Option LookAnswer} {w' : Waiter}
    (h : w.Turn want isCancelled s heard (.again w') s') :
    w ≠ .stuck ∧ w' = .stuck ∨ w' = .waiting s'.handle.version (s'.now + observeInterval) := by
  generalize hwaited : Waited.again w' = waited at h
  cases h with
  | stops => cases hwaited
  | looksInVain =>
    cases hwaited
    exact Or.inl ⟨nofun, rfl⟩
  | starts | notices | looks | isAnswered => exact Or.inr (check_again hwaited.symm)

/-- A waiter is done with what the handle shows. -/
theorem Turn.snapshot_of_ready {heard : Option LookAnswer} {seen : Snapshot}
    (h : w.Turn want isCancelled s heard (.ready seen) s') : s'.handle.snapshot = some seen := by
  generalize hwaited : Waited.ready seen = waited at h
  cases h with
  | stops | looksInVain => cases hwaited
  | starts | notices | looks | isAnswered => exact (check_ready hwaited.symm).1

end Waiter

/-! ### Followers -/

namespace Follow

namespace Follower

variable {f : Follower} {s : Site} {next : Follower × Site}

/-- What becomes of the wait of a follower that waits for its container. -/
def wait? (f : Follower) (s : Site) : Option (Waited × Site) :=
  if s.handle.isCancelled then none
  else
    match f.phase with
    | .awaiting w => w.step? .observed f.isCancelled s
    | _ => none

/-- What the engine answers to a follower that opens the log because its wait is over. -/
def logAnswer? (f : Follower) : Option (Waited × Site) → Option LogAnswer
  | some (.ready seen, s) => some (s.openLog (f.request seen s.engine.wall)).1
  | _ => none

/-- What a follower that reads a log takes from it next. -/
def item? (f : Follower) (s : Site) : Option LogItem :=
  if s.handle.isCancelled || f.isCancelled then none
  else
    match f.phase with
    | .reading feed =>
      match (s.engine.pullLine feed).1 with
      | .item item => some item
      | _ => none
    | _ => none

/-- A wait that goes on because a look is answered. -/
def lateWait? (f : Follower) (answer : LookAnswer) (s : Site) :
    Option (Waited × Site) :=
  match f.phase with
  | .awaiting .stuck => some (Waiter.check .observed (s.answered answer), s.answered answer)
  | _ => none

/-- A follower whose look is answered, if it is waiting for that. -/
def answered? (f : Follower) (answer : LookAnswer) (s : Site) :
    Option (Follower × Site) :=
  match f.phase with
  | .looking => some ({ f with phase := .resting (s.now + retryDelay) }, s.answered answer)
  | _ => (f.lateWait? answer s).map f.afterWait

/-- How a follower goes on when it opens the log of a container that was seen, with the answer. -/
inductive Opens (f : Follower) (seen : Snapshot) (s : Site) :
    LogAnswer → Follower × Site → Prop where
  | opened (feed : Feed String) (engine : Engine) :
    Opens f seen s (.ok feed)
      ({ f with phase := .reading feed, lastStart := seen.startedAt }, { s with engine })
  /-- There is no container any more. -/
  | missing (e : ContainerError) (engine : Engine) (isNotFound : e.isNotFound = true) :
    Opens f seen s (.error e)
      ({ f with phase := .retrying (s.now + retryDelay), lastStart := seen.startedAt },
        { s with engine, handle := s.handle.clear })
  | failed (e : ContainerError) (engine : Engine) (isNotFound : e.isNotFound = false) :
    Opens f seen s (.error e)
      ({ f with phase := .retrying (s.now + retryDelay), lastStart := seen.startedAt },
        { s with engine })

theorem opens_openLog (f : Follower) (seen : Snapshot) (s : Site) :
    f.Opens seen s (s.openLog (f.request seen s.engine.wall)).1 (f.openLog seen s) := by
  simp only [openLog, Site.openLog]
  cases hlogs : s.engine.logs s.handle.name (f.request seen s.engine.wall) with
  | mk answer engine =>
    cases answer with
    | ok feed => exact .opened feed engine
    | error e =>
      by_cases he : e.isNotFound = true
      · simp only [if_pos he]
        exact .missing e engine he
      · simp only [if_neg he]
        exact .failed e engine (Bool.eq_false_iff.mpr he)

/-- How a follower goes on when its log is over, with the answer that it hears. -/
inductive Leaving (f : Follower) (s : Site) :
    Option LookAnswer → Follower × Site → Prop where
  | stops (dropped : f.lines.readerGone = true) : Leaving f s none (f.stop, s)
  | rests {answer : LookAnswer} {after : Site}
      (hears : s.Hears (some answer) after) :
    Leaving f s (some answer) ({ f with phase := .resting (after.now + retryDelay) }, after)
  | looksInVain {after : Site} (hears : s.Hears none after) :
    Leaving f s none ({ f with phase := .looking }, after)

theorem leaving_endOfLog (f : Follower) (s : Site) :
    f.Leaving s (s.answerBetween (f.endOfLog s).2) (f.endOfLog s) := by
  unfold endOfLog
  split
  · next hdropped =>
    rw [Site.answerBetween_of_inspects rfl]
    exact .stops hdropped
  · split
    · next hrefresh =>
      obtain ⟨hheard, hears⟩ := Site.hears_of_refresh_none hrefresh
      rw [hheard]
      exact .looksInVain hears
    · next hrefresh =>
      obtain ⟨answer, hheard, hears⟩ := Site.hears_of_refresh_some hrefresh
      rw [hheard]
      exact .rests hears

theorem Leaving.hears {heard : Option LookAnswer} (h : f.Leaving s heard next) :
    s.Hears heard next.2 := by
  cases h with
  | stops => exact s.hears_nothing
  | rests hears | looksInVain hears => exact hears

theorem Leaving.lines_eq {heard : Option LookAnswer} (h : f.Leaving s heard next) :
    next.1.lines.items = f.lines.items ∧ next.1.lines.capacity = f.lines.capacity := by
  cases h with
  | stops | rests | looksInVain => exact ⟨rfl, rfl⟩

/-- Everything that a follower can do next, with the answer that it hears, the answer to its opening
of the log, and the item that it takes from an open one. -/
inductive Turn (f : Follower) (s : Site) :
    Option LookAnswer → Option LogAnswer →
      Option LogItem → Follower × Site → Prop where
  | stops (why : s.handle.isCancelled = true ∨ f.isCancelled = true ∨ f.lines.readerGone = true) :
    Turn f s none none none (f.stop, s)
  | waits {w w' : Waiter} {heard : Option LookAnswer} {after : Site}
      (phase : f.phase = .awaiting w)
      (turn : w.Turn .observed f.isCancelled s heard (.again w') after) :
    Turn f s heard none none ({ f with phase := .awaiting w' }, after)
  | opens {w : Waiter} {heard : Option LookAnswer} {seen : Snapshot}
      {answer : LogAnswer} {after : Site} {next : Follower × Site}
      (phase : f.phase = .awaiting w)
      (turn : w.Turn .observed f.isCancelled s heard (.ready seen) after)
      (opens : f.Opens seen after answer next) :
    Turn f s heard (some answer) none next
  | takes {feed rest : Feed String} {line : String} (phase : f.phase = .reading feed)
      (pulled : s.engine.pullLine feed = (.item (.ok line), rest)) :
    Turn f s none none (some (.ok line)) ({ f with phase := .passing rest line }, s)
  /-- The log fails. -/
  | fails {feed rest : Feed String} {e : ContainerError}
      {heard : Option LookAnswer} {next : Follower × Site}
      (phase : f.phase = .reading feed)
      (pulled : s.engine.pullLine feed = (.item (.error e), rest))
      (leaving : f.Leaving s heard next) :
    Turn f s heard none (some (.error e)) next
  /-- The log is over. -/
  | leaves {feed rest : Feed String} {heard : Option LookAnswer}
      {next : Follower × Site} (phase : f.phase = .reading feed)
      (pulled : s.engine.pullLine feed = (.over, rest)) (leaving : f.Leaving s heard next) :
    Turn f s heard none none next
  | passes {feed : Feed String} {line : String} (phase : f.phase = .passing feed line)
      (room : f.lines.hasRoom = true) :
    Turn f s none none none
      ({ f with phase := .reading feed, lines := f.lines.send (.ok line) }, s)
  | startsOver {due : Nat} (phase : f.phase = .retrying due ∨ f.phase = .resting due)
      (isDue : due ≤ s.now) :
    Turn f s none none none ({ f with phase := .awaiting .fresh }, s)
  /-- The look behind a log that is over is answered late. -/
  | isAnswered (answer : LookAnswer) (phase : f.phase = .looking) :
    Turn f s (some answer) none none
      ({ f with phase := .resting (s.now + retryDelay) }, s.answered answer)

theorem inspects_openLog (f : Follower) (seen : Snapshot) (s : Site) :
    (f.openLog seen s).2.engine.inspects = s.engine.inspects := by
  have hlogs := s.engine.inspects_logs s.handle.name (f.request seen s.engine.wall)
  simp only [openLog, Site.openLog]
  split
  · next heq =>
    obtain ⟨-, rfl⟩ := Prod.mk.inj heq
    exact hlogs
  · next heq =>
    obtain ⟨-, rfl⟩ := Prod.mk.inj heq
    split <;> exact hlogs

/-- A wait that goes on in some way leads to a turn. -/
theorem turn_afterWait {w : Waiter} {heard : Option LookAnswer}
    {waited : Waited × Site} (hphase : f.phase = .awaiting w)
    (hturn : w.Turn .observed f.isCancelled s heard waited.1 waited.2) :
    f.Turn s heard (f.logAnswer? (some waited)) none (f.afterWait waited) ∧
      (f.afterWait waited).2.engine.inspects = waited.2.engine.inspects := by
  obtain ⟨waited, after⟩ := waited
  cases waited with
  | ready seen =>
    exact ⟨.opens hphase hturn (f.opens_openLog seen after), f.inspects_openLog seen after⟩
  | again w' => exact ⟨.waits hphase hturn, rfl⟩
  | cancelled =>
    obtain ⟨rfl, rfl, hwhy⟩ := hturn.of_cancelled
    exact ⟨.stops (hwhy.elim (fun h => Or.inr (Or.inl h)) Or.inl), rfl⟩

/-- The turn that a step is: with the answers and the item that the engine gives in it. -/
def TakesTurn (f : Follower) (s : Site) (next : Follower × Site) : Prop :=
  f.Turn s (s.answerBetween next.2) (f.logAnswer? (f.wait? s)) (f.item? s) next

/-- A step in which the engine is not asked. -/
theorem takesTurn_of_quiet (hwait : f.wait? s = none) (hitem : f.item? s = none)
    (hcount : next.2.engine.inspects = s.engine.inspects) (hturn : f.Turn s none none none next) :
    f.TakesTurn s next := by
  rw [TakesTurn, Site.answerBetween_of_inspects hcount, hwait, hitem]
  exact hturn

theorem takesTurn_of_isCancelled (hcancelled : s.handle.isCancelled = true)
    (h : f.step? s = some next) : f.TakesTurn s next := by
  have hnext : next = (f.stop, s) := by
    cases hphase : f.phase <;>
      simp only [step?, hphase, hcancelled, if_true, Option.some.injEq, reduceCtorEq] at h <;>
      exact h.symm
  have hwait : f.wait? s = none := by simp only [wait?, hcancelled, if_true]
  have hitem : f.item? s = none := by simp only [item?, hcancelled, Bool.true_or, if_true]
  rw [hnext]
  exact takesTurn_of_quiet hwait hitem rfl (.stops (Or.inl hcancelled))

theorem takesTurn_of_awaiting {w : Waiter} (hphase : f.phase = .awaiting w)
    (hgoes : s.handle.isCancelled = false) (h : f.step? s = some next) : f.TakesTurn s next := by
  have hitem : f.item? s = none := by simp [item?, hphase]
  have hwait : f.wait? s = w.step? .observed f.isCancelled s := by simp [wait?, hphase, hgoes]
  simp only [step?, hphase, hgoes, Bool.false_eq_true, if_false] at h
  obtain ⟨waited, hw, rfl⟩ := Option.map_eq_some_iff.mp h
  obtain ⟨hturn, hcount⟩ := turn_afterWait hphase (Waiter.turn_of_step? hw)
  rw [TakesTurn, hitem, hwait, hw, Site.answerBetween_congr hcount]
  exact hturn

theorem takesTurn_of_reading {feed : Feed String} (hphase : f.phase = .reading feed)
    (hgoes : s.handle.isCancelled = false) (h : f.step? s = some next) : f.TakesTurn s next := by
  have hwait : f.wait? s = none := by simp [wait?, hphase]
  simp only [step?, hphase, hgoes, Bool.false_eq_true, if_false] at h
  split at h
  · next hstop =>
    cases h
    have hitem : f.item? s = none := by simp [item?, hstop]
    exact takesTurn_of_quiet hwait hitem rfl (.stops (Or.inr (Or.inl hstop)))
  · next hwanted =>
    rw [TakesTurn, hwait]
    split at h
    · cases h
    · next line rest hpull =>
      cases h
      have hitem : f.item? s = some (.ok line) := by simp [item?, hphase, hgoes, hwanted, hpull]
      rw [Site.answerBetween_of_inspects rfl, hitem]
      exact .takes hphase hpull
    · next e rest hpull =>
      cases h
      have hitem : f.item? s = some (.error e) := by simp [item?, hphase, hgoes, hwanted, hpull]
      rw [hitem]
      exact .fails hphase hpull (f.leaving_endOfLog s)
    · next rest hpull =>
      cases h
      have hitem : f.item? s = none := by simp [item?, hphase, hpull]
      rw [hitem]
      exact .leaves hphase hpull (f.leaving_endOfLog s)

/-- A step of a follower is one of its turns. -/
theorem turn_of_step? (h : f.step? s = some next) : f.TakesTurn s next := by
  by_cases hcancelled : s.handle.isCancelled = true
  · exact takesTurn_of_isCancelled hcancelled h
  · have hgoes : s.handle.isCancelled = false := Bool.eq_false_iff.mpr hcancelled
    cases hphase : f.phase with
    | awaiting w => exact takesTurn_of_awaiting hphase hgoes h
    | reading feed => exact takesTurn_of_reading hphase hgoes h
    | passing feed line =>
      have hwait : f.wait? s = none := by simp [wait?, hphase]
      have hitem : f.item? s = none := by simp [item?, hphase]
      simp only [step?, hphase, hgoes, Bool.false_eq_true, if_false] at h
      split at h
      · next hdropped =>
        cases h
        exact takesTurn_of_quiet hwait hitem rfl (.stops (Or.inr (Or.inr hdropped)))
      · split at h
        · next hroom =>
          cases h
          exact takesTurn_of_quiet hwait hitem rfl (.passes hphase hroom)
        · cases h
    | retrying due | resting due =>
      have hwait : f.wait? s = none := by simp [wait?, hphase]
      have hitem : f.item? s = none := by simp [item?, hphase]
      have hphases : f.phase = .retrying due ∨ f.phase = .resting due := by simp [hphase]
      simp only [step?, hphase, hgoes, Bool.false_eq_true, if_false] at h
      split at h
      · next hstop =>
        cases h
        exact takesTurn_of_quiet hwait hitem rfl (.stops (Or.inr (Or.inl hstop)))
      · split at h
        · next hdue =>
          cases h
          exact takesTurn_of_quiet hwait hitem rfl (.startsOver hphases hdue)
        · cases h
    | looking => simp [step?, hphase, hgoes] at h
    | stopped => simp [step?, hphase] at h

/-- What a late answer leads to is a turn too. -/
theorem turn_of_answered? {answer : LookAnswer} (h : f.answered? answer s = some next) :
    f.Turn s (some answer) (f.logAnswer? (f.lateWait? answer s)) none next := by
  unfold answered? at h
  split at h
  · next hp =>
    cases h
    have hwait : f.lateWait? answer s = none := by simp [lateWait?, hp]
    rw [hwait]
    exact .isAnswered answer hp
  · obtain ⟨waited, hw, rfl⟩ := Option.map_eq_some_iff.mp h
    rw [hw]
    unfold lateWait? at hw
    split at hw
    · next hp =>
      cases hw
      exact (turn_afterWait hp (.isAnswered answer)).1
    · cases hw

section

variable {heard : Option LookAnswer} {log : Option LogAnswer} {item : Option LogItem}

/-- A step changes the handle by what is heard, and by an opening that finds no container. -/
theorem Turn.site_eq (h : f.Turn s heard log item next) :
    ∃ after, s.Hears heard after ∧ next.2.now = after.now ∧
      next.2.handle = if log.any saysMissing then after.handle.clear else after.handle := by
  cases h with
  | stops | takes | passes | startsOver => exact ⟨s, s.hears_nothing, rfl, rfl⟩
  | waits phase turn => exact ⟨_, turn.hears, rfl, rfl⟩
  | opens phase turn opens =>
    refine ⟨_, turn.hears, ?_⟩
    cases opens with
    | opened feed engine => exact ⟨rfl, rfl⟩
    | missing e engine isNotFound =>
      rw [Option.any_some, saysMissing, if_pos isNotFound]
      exact ⟨rfl, rfl⟩
    | failed e engine isNotFound =>
      rw [Option.any_some, saysMissing, if_neg (Bool.eq_false_iff.mp isNotFound)]
      exact ⟨rfl, rfl⟩
  | fails _ _ leaving | leaves _ _ leaving => exact ⟨_, leaving.hears, rfl, rfl⟩
  | isAnswered answer => exact ⟨_, s.hears_answered answer, rfl, rfl⟩

theorem Turn.now_eq (h : f.Turn s heard log item next) : next.2.now = s.now := by
  obtain ⟨after, hears, hnow, -⟩ := h.site_eq
  exact hnow.trans hears.now_eq

theorem Turn.name_eq (h : f.Turn s heard log item next) : next.2.handle.name = s.handle.name := by
  obtain ⟨after, hears, -, hhandle⟩ := h.site_eq
  rw [hhandle, ← hears.name_eq]
  split
  · exact after.handle.name_clear
  · rfl

theorem Turn.handle_isCancelled_eq (h : f.Turn s heard log item next) :
    next.2.handle.isCancelled = s.handle.isCancelled := by
  obtain ⟨after, hears, -, hhandle⟩ := h.site_eq
  rw [hhandle, ← hears.isCancelled_eq]
  split
  · exact after.handle.isCancelled_clear
  · rfl

/-- A follower stops only when it is told to or when nobody takes its lines, and does not tell
itself. -/
theorem Turn.lasts (h : f.Turn s heard log item next) :
    next.1.isCancelled = f.isCancelled ∧ next.1.lines.readerGone = f.lines.readerGone ∧
      (next.1.phase = .stopped ∧
          (s.handle.isCancelled = true ∨ f.isCancelled = true ∨ f.lines.readerGone = true) ∨
        f.phase ≠ .stopped ∧ next.1.phase ≠ .stopped ∧
          next.1.lines.senderGone = f.lines.senderGone) := by
  have hleaving : ∀ {heard next}, f.Leaving s heard next →
      next.1.isCancelled = f.isCancelled ∧ next.1.lines.readerGone = f.lines.readerGone ∧
        (next.1.phase = .stopped ∧ f.lines.readerGone = true ∨
          next.1.phase ≠ .stopped ∧ next.1.lines.senderGone = f.lines.senderGone) := by
    intro heard next hleaving
    cases hleaving with
    | stops dropped => exact ⟨rfl, rfl, Or.inl ⟨rfl, dropped⟩⟩
    | rests | looksInVain => exact ⟨rfl, rfl, Or.inr ⟨nofun, rfl⟩⟩
  cases h with
  | stops why => exact ⟨rfl, rfl, Or.inl ⟨rfl, why⟩⟩
  | waits phase | takes phase | passes phase | isAnswered _ phase =>
    exact ⟨rfl, rfl, Or.inr ⟨by rw [phase]; nofun, nofun, rfl⟩⟩
  | opens phase turn opens =>
    cases opens <;> exact ⟨rfl, rfl, Or.inr ⟨by rw [phase]; nofun, nofun, rfl⟩⟩
  | fails phase pulled leaving | leaves phase pulled leaving =>
    have hreading : f.phase ≠ .stopped := by rw [phase]; nofun
    obtain ⟨hcancelled, hdropped, ⟨hstop, hwhy⟩ | ⟨hgoes, hsender⟩⟩ := hleaving leaving
    · exact ⟨hcancelled, hdropped, Or.inl ⟨hstop, Or.inr (Or.inr hwhy)⟩⟩
    · exact ⟨hcancelled, hdropped, Or.inr ⟨hreading, hgoes, hsender⟩⟩
  | startsOver phase =>
    have hwaiting : f.phase ≠ .stopped := by
      rcases phase with phase | phase <;> rw [phase] <;> nofun
    exact ⟨rfl, rfl, Or.inr ⟨hwaiting, nofun, rfl⟩⟩

/-- Only a line in hand is handed on, and only where there is room. -/
theorem Turn.items_cases (h : f.Turn s heard log item next) :
    next.1.lines.capacity = f.lines.capacity ∧
      (next.1.lines.items = f.lines.items ∨
        f.lines.hasRoom = true ∧ ∃ line, next.1.lines.items = f.lines.items ++ [line]) := by
  cases h with
  | stops | waits | takes | startsOver | isAnswered => exact ⟨rfl, Or.inl rfl⟩
  | opens phase turn opens => cases opens <;> exact ⟨rfl, Or.inl rfl⟩
  | fails _ _ leaving | leaves _ _ leaving =>
    exact ⟨leaving.lines_eq.2, Or.inl leaving.lines_eq.1⟩
  | passes phase room => exact ⟨rfl, Or.inr ⟨room, _, rfl⟩⟩

end

end Follower

/-- What whoever takes the lines of a follower does. -/
inductive ReaderAct where
  | read (burst : Nat)
  /-- Nobody will take any more lines. -/
  | drop
  | cancel
deriving Repr, DecidableEq

def Follower.heed (f : Follower) : ReaderAct → Follower
  | .read burst => { f with lines := (f.lines.read burst).2 }
  | .drop => { f with lines := f.lines.drop }
  | .cancel => { f with isCancelled := true }

end Follow

end FleetWatch
