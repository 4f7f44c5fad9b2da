import FleetWatch.Container.Follow
import Mathlib.Data.List.Induction
/-!
From when on a follower reads a container's log.

Whatever the engine answers and whatever else happens at the handle, a follower asks for the log from
the container's start, unless its latest attempt to open a log was for that start already.  An attempt
that failed counts like one that did not: after it the log is read from the moment of the next
attempt on, and the lines from before are lost.
-/

namespace FleetWatch

namespace Follow

/-- An attempt to open a container's log. -/
structure Opening where
  /-- The container's start in the snapshot that the handle had. -/
  start : Option Instant
  since : LogSince
  /-- The time of the attempt. -/
  wall : Instant
  succeeded : Bool
deriving Repr, DecidableEq, Inhabited

namespace Follower

/-- The attempt to open a log that a follower's next step is. -/
def opening? (f : Follower) (s : Site) : Option Opening :=
  if s.handle.isCancelled then none
  else
    match f.phase with
    | .awaiting w =>
      match w.step? .observed f.isCancelled s with
      | some (.ready seen, s) =>
        let request := f.request seen s.engine.wall
        some
          { start := s.handle.snapshot.bind Snapshot.startedAt
            since := request.since
            wall := s.engine.wall
            succeeded := (s.openLog request).1.isOk }
      | _ => none
    | _ => none

end Follower

variable {f f' : Follower} {s s' : Site}

/-- The start that the latest attempt to open a log was for. -/
def latestStart (openings : List Opening) : Option Instant :=
  openings.getLast?.bind Opening.start

theorem latestStart_concat (openings : List Opening) (o : Opening) :
    latestStart (openings ++ [o]) = o.start := by
  simp only [latestStart, List.getLast?_concat, Option.bind_some]

theorem Follower.openLog_lastStart (f : Follower) (seen : Snapshot) (s : Site) :
    (f.openLog seen s).1.lastStart = seen.startedAt := by
  unfold openLog
  dsimp only
  split <;> rfl

theorem Follower.endOfLog_lastStart (f : Follower) (s : Site) :
    (f.endOfLog s).1.lastStart = f.lastStart := by
  unfold endOfLog
  split
  · rfl
  · split <;> rfl

theorem Follower.opening?_ready {w : Waiter} {seen : Snapshot} (hp : f.phase = .awaiting w)
    (hgoes : s.handle.isCancelled = false)
    (hw : w.step? .observed f.isCancelled s = some (.ready seen, s')) :
    f.opening? s = some
      { start := seen.startedAt
        since := Follow.since f.lastStart seen s'.engine.wall
        wall := s'.engine.wall
        succeeded := (s'.openLog (f.request seen s'.engine.wall)).1.isOk } := by
  have hseen : s'.handle.snapshot = some seen := (Waiter.step?_ready hw).1
  simp only [opening?, hp, hgoes, hw, hseen, Bool.false_eq_true, if_false, Option.bind_some,
    request]

/-- A follower's step is an attempt to open a log, or the follower remembers the same start after
it. -/
theorem Follower.step_cases (h : f.step? s = some (f', s')) :
    f.opening? s = none ∧ f'.lastStart = f.lastStart ∨
      ∃ w seen after, s.handle.isCancelled = false ∧ f.phase = .awaiting w ∧
        w.step? .observed f.isCancelled s = some (.ready seen, after) ∧
        f.openLog seen after = (f', s') := by
  cases hgoes : s.handle.isCancelled with
  | true =>
    refine Or.inl ⟨by simp only [opening?, hgoes, if_true], ?_⟩
    cases hp : f.phase <;> simp only [step?, hp, hgoes, if_true, reduceCtorEq] at h <;> cases h <;> rfl
  | false =>
    cases hp : f.phase with
    | awaiting w =>
      cases hw : w.step? .observed f.isCancelled s with
      | none => simp [step?, hp, hgoes, hw] at h
      | some waited =>
        obtain ⟨waited, after⟩ := waited
        cases waited with
        | ready seen =>
          refine Or.inr ⟨w, seen, after, rfl, rfl, hw, ?_⟩
          simpa [step?, hp, hgoes, hw, afterWait] using h
        | cancelled | again _ =>
          refine Or.inl ⟨by simp [opening?, hp, hw], ?_⟩
          simp only [step?, hp, hgoes, hw, Bool.false_eq_true, if_false] at h
          cases h
          rfl
    | reading feed =>
      refine Or.inl ⟨by simp [opening?, hp], ?_⟩
      simp only [step?, hp, hgoes, Bool.false_eq_true, if_false] at h
      split at h
      · cases h
        rfl
      · split at h
        · cases h
        · cases h
          rfl
        · rw [Option.some.injEq] at h
          rw [← f.endOfLog_lastStart s, h]
        · rw [Option.some.injEq] at h
          rw [← f.endOfLog_lastStart s, h]
    | passing _ _ | retrying _ | resting _ =>
      refine Or.inl ⟨by simp [opening?, hp], ?_⟩
      simp only [step?, hp, hgoes, Bool.false_eq_true, if_false] at h
      split at h
      · cases h
        rfl
      · split at h
        · cases h
          rfl
        · cases h
    | looking => simp [step?, hp, hgoes] at h
    | stopped => simp [step?, hp] at h

/-- Only an attempt to open a log changes which start a follower remembers. -/
theorem Follower.lastStart_of_step (h : f.step? s = some (f', s')) :
    f'.lastStart = ((f.opening? s).map Opening.start).getD f.lastStart := by
  rcases step_cases h with ⟨hnone, hsame⟩ | ⟨w, seen, after, hgoes, hp, hw, hopen⟩
  · rw [hnone]
    exact hsame
  · rw [opening?_ready hp hgoes hw, ← congrArg (fun r => r.1.lastStart) hopen]
    exact f.openLog_lastStart seen after

/-- A log is asked for from the container's start, unless the follower remembers that start. -/
theorem Follower.since_of_opening {o : Opening} {t : Instant} (h : f.opening? s = some o)
    (hstart : o.start = some t) :
    o.since = if f.lastStart = some t then .at o.wall else .at t := by
  unfold opening? at h
  split at h
  · cases h
  · split at h
    · split at h
      · next w hp seen after hw =>
        have hseen : after.handle.snapshot = some seen := (Waiter.step?_ready hw).1
        cases h
        rw [hseen, Option.bind_some] at hstart
        have hseenStart : seen.startedAt = some t := hstart
        simp only [request, Follow.since, hseenStart, @eq_comm _ (some t)]
      · cases h
    · cases h

end Follow

/-! ### Runs -/

/-- A follower at its site, with a record of its attempts to open a log. -/
structure RecordedFollower where
  follower : Follow.Follower
  site : Site
  openings : List Follow.Opening := []

/-- What happens to a follower. -/
inductive FollowEvent where
  /-- The follower does its next thing, if there is one. -/
  | proceed
  /-- Time passes, the container changes, or somebody looks at it or forgets or cancels the
  handle. -/
  | elsewhere (change : Site → Site)
  /-- Somebody takes lines. -/
  | read (burst : Nat)
  /-- Nobody will take any more lines. -/
  | drop
  | cancel

namespace RecordedFollower

open Follow

def start (s : Site) : RecordedFollower where
  follower := {}
  site := s

def on (r : RecordedFollower) : FollowEvent → RecordedFollower
  | .proceed =>
    match r.follower.step? r.site with
    | none => r
    | some (f, s) =>
      { follower := f, site := s, openings := r.openings ++ (r.follower.opening? r.site).toList }
  | .elsewhere change => { r with site := change r.site }
  | .read burst =>
    { r with follower := { r.follower with lines := (r.follower.lines.read burst).2 } }
  | .drop => { r with follower := { r.follower with lines := r.follower.lines.drop } }
  | .cancel => { r with follower := { r.follower with isCancelled := true } }

def run (r : RecordedFollower) (events : List FollowEvent) : RecordedFollower :=
  events.foldl on r

theorem run_concat (r : RecordedFollower) (events : List FollowEvent) (e : FollowEvent) :
    r.run (events ++ [e]) = (r.run events).on e := by
  simp only [run, List.foldl_append, List.foldl_cons, List.foldl_nil]

variable {r : RecordedFollower}

/-- An attempt that goes by the ones before it: the log is asked for from the container's start,
unless the latest of them was for that start. -/
def GoesBy (o : Opening) (earlier : List Opening) : Prop :=
  ∀ t, o.start = some t →
    o.since = if latestStart earlier = some t then .at o.wall else .at t

/-- What holds of a follower at every moment. -/
structure Sound (r : RecordedFollower) : Prop where
  lastStart_eq : r.follower.lastStart = latestStart r.openings
  goesBy : ∀ earlier o later, r.openings = earlier ++ o :: later → GoesBy o earlier

theorem start_sound (s : Site) : (start s).Sound where
  lastStart_eq := rfl
  goesBy earlier o later h := by simp [start] at h

/-- A list with one more element is cut before that element or before one that was there. -/
theorem concat_eq_append_cons {α : Type} {l earlier later : List α} {a b : α}
    (h : l ++ [b] = earlier ++ a :: later) :
    l = earlier ∧ b = a ∨ ∃ before, l = earlier ++ a :: before := by
  rcases List.eq_nil_or_concat later with rfl | ⟨before, c, rfl⟩
  · have hparts := List.append_inj' h rfl
    exact Or.inl ⟨hparts.1, List.singleton_inj.mp hparts.2⟩
  · rw [List.concat_eq_append, ← List.cons_append, ← List.append_assoc] at h
    exact Or.inr ⟨before, (List.append_inj' h rfl).1⟩

theorem Sound.proceed (h : r.Sound) : (r.on .proceed).Sound := by
  unfold on
  cases hstep : r.follower.step? r.site with
  | none => exact h
  | some next =>
    obtain ⟨f, s⟩ := next
    have hlast := Follower.lastStart_of_step hstep
    cases ho : r.follower.opening? r.site with
    | none =>
      rw [ho] at hlast
      constructor
      · simpa [ho] using hlast.trans h.lastStart_eq
      · simpa [ho] using h.goesBy
    | some o =>
      rw [ho] at hlast
      constructor
      · simpa [ho, latestStart_concat] using hlast
      · intro earlier o' later hcut
        rcases concat_eq_append_cons (by simpa only [ho, Option.toList_some] using hcut) with
          ⟨hearlier, heq⟩ | ⟨before, hbefore⟩
        · intro t hstart
          rw [← hearlier, ← heq, ← h.lastStart_eq]
          exact Follower.since_of_opening ho (heq ▸ hstart)
        · exact h.goesBy earlier o' before hbefore

theorem Sound.on (h : r.Sound) (e : FollowEvent) : (r.on e).Sound := by
  cases e with
  | proceed => exact h.proceed
  | elsewhere change => exact ⟨h.lastStart_eq, h.goesBy⟩
  | read burst => exact ⟨h.lastStart_eq, h.goesBy⟩
  | drop => exact ⟨h.lastStart_eq, h.goesBy⟩
  | cancel => exact ⟨h.lastStart_eq, h.goesBy⟩

theorem run_sound (s : Site) (events : List FollowEvent) : ((start s).run events).Sound := by
  induction events using List.reverseRecOn with
  | nil => exact start_sound s
  | append_singleton events e ih =>
    rw [run_concat]
    exact ih.on e

/-- The first log that is opened for a start is read from that start on, unless the attempt right
before was for that start and failed: then it is read from its own moment on. -/
theorem run_first_since (s : Site) (events : List FollowEvent) {earlier later : List Opening}
    {o : Opening} {t : Instant}
    (hrun : ((start s).run events).openings = earlier ++ o :: later) (hstart : o.start = some t)
    (hfirst : ∀ p ∈ earlier, p.start = some t → p.succeeded = false) :
    latestStart earlier ≠ some t ∧ o.since = .at t ∨
      (∃ p, earlier.getLast? = some p ∧ p.start = some t ∧ p.succeeded = false) ∧
        o.since = .at o.wall := by
  have hsince := (run_sound s events).goesBy earlier o later hrun t hstart
  by_cases hlatest : latestStart earlier = some t
  · right
    rw [if_pos hlatest] at hsince
    obtain ⟨p, hlast, hp⟩ := Option.bind_eq_some_iff.mp hlatest
    have hfailed : p.succeeded = false := hfirst p (List.mem_of_getLast? hlast) hp
    exact ⟨⟨p, hlast, hp, hfailed⟩, hsince⟩
  · left
    rw [if_neg hlatest] at hsince
    exact ⟨hlatest, hsince⟩

/-- A container that runs since the start of 2020, seen an hour later by an engine that cannot open
its log at first. -/
def hiccup : Site where
  now := 0
  engine := .script
    { wall := ⟨1577840400, 0⟩
      logReplies := [.error (.engine "daemon hiccup"), .ok (["up"], .silent)] }
  handle :=
    { name := "db"
      snapshot := some
        { id := "1", name := "db", state := .running, env := [], startedAt := some ⟨1577836800, 0⟩ } }

/-- The log is tried, and tried again after the delay. -/
def triedTwice : List FollowEvent :=
  [.proceed, .elsewhere fun s => { s with now := retryDelay }, .proceed, .proceed]

/-- The attempt that the engine fails. -/
def refused : Opening where
  start := some ⟨1577836800, 0⟩
  since := .at ⟨1577836800, 0⟩
  wall := ⟨1577840400, 0⟩
  succeeded := false

/-- The attempt after it. -/
def opened : Opening where
  start := some ⟨1577836800, 0⟩
  since := .at ⟨1577840400, 0⟩
  wall := ⟨1577840400, 0⟩
  succeeded := true

theorem hiccup_openings : ((start hiccup).run triedTwice).openings = [refused] ++ opened :: [] := by
  decide

theorem hiccup_first_since :
    (∀ p ∈ [refused], p.start = some ⟨1577836800, 0⟩ → p.succeeded = false) ∧
      (latestStart [refused] ≠ some ⟨1577836800, 0⟩ ∧ opened.since = .at ⟨1577836800, 0⟩ ∨
        (∃ p, [refused].getLast? = some p ∧ p.start = some ⟨1577836800, 0⟩ ∧ p.succeeded = false) ∧
          opened.since = .at opened.wall) := by
  have hfirst : ∀ p ∈ [refused], p.start = some ⟨1577836800, 0⟩ → p.succeeded = false := by decide
  exact ⟨hfirst, run_first_since hiccup triedTwice hiccup_openings rfl hfirst⟩

/-- That the first log opened for a start is read from that start on. -/
def ReadsFromStart (openings : List Opening) : Prop :=
  ∀ earlier o later t, openings = earlier ++ o :: later → o.start = some t → o.succeeded = true →
    (∀ p ∈ earlier, p.start = some t → p.succeeded = false) → o.since = .at t

/-- A failed attempt makes the next one skip what the container printed since its start. -/
theorem not_readsFromStart_hiccup :
    ¬ ∀ s events, ReadsFromStart ((start s).run events).openings := by
  intro hreads
  have hsince := hreads hiccup triedTwice [refused] opened [] ⟨1577836800, 0⟩ hiccup_openings rfl
    rfl (by decide)
  exact absurd hsince (by decide)

end RecordedFollower

end FleetWatch
