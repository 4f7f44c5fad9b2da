import FleetWatch.Proofs.Container.FollowedLines
import Mathlib.Data.List.Basic
/-!
What has been handed on once a follower has nothing left to do.

As long as somebody takes the lines a follower comes to rest after some turns: there it waits for
time to pass, for the container or for its log.  Main statement: after any run what was handed on
are the lines of the opened logs, each up to its first error, in the order of their opening; at rest
it is all of them (`run_followsOn`).
-/

namespace FleetWatch

open Follow

/-! ### How much of a log is left -/

theorem pullLive_bounds {α : Type} {capacity position next : Nat} {items : List α} {a : α}
    (h : pullLive capacity items position = some (a, next)) :
    position < next ∧ next ≤ items.length := by
  obtain ⟨b, hb, heq⟩ := Option.map_eq_some_iff.mp h
  obtain ⟨hlt, -⟩ := List.getElem?_eq_some_iff.mp hb
  cases heq
  omega

/-- How many lines may still be added to what a log gave. -/
def Memory.Engine.linesLeft (e : Memory.Engine) : FeedRest → Nat
  | .live uid position =>
    ((e.entries.find? fun c => c.uid == uid).map fun c => c.lines.length - position).getD 0
  | .over | .silent => 0

theorem Memory.Engine.linesLeft_lt (e : Memory.Engine) {uid position next : Nat}
    {item : LogItem} {isOver : Bool} (h : e.liveLine uid position = (some (item, next), isOver)) :
    e.linesLeft (.live uid next) < e.linesLeft (.live uid position) := by
  unfold liveLine at h
  split at h
  · cases h
  · next c hfind =>
    simp only [Prod.mk.injEq, Option.map_eq_some_iff] at h
    obtain ⟨⟨⟨line, next'⟩, hlive, heq⟩, -⟩ := h
    cases heq
    obtain ⟨hlt, hle⟩ := pullLive_bounds hlive
    simp only [linesLeft, hfind, Option.map_some, Option.getD_some]
    omega

/-- While the engine stays as it is, a log gives only so many items. -/
theorem Engine.exists_left (engine : Engine) :
    ∃ left : Feed String → Nat, ∀ feed rest item,
      engine.pullLine feed = (.item item, rest) → left rest < left feed := by
  cases engine with
  | script engine =>
    refine ⟨fun feed => feed.items.length, fun feed rest item hpull => ?_⟩
    simp only [pullLine, Feed.pull] at hpull
    split at hpull
    · next hitems =>
      cases hpull
      simp only [hitems, List.length_cons]
      exact Nat.lt_succ_self _
    · split at hpull <;> cases hpull
  | memory engine =>
    refine ⟨fun feed => feed.items.length + engine.linesLeft feed.rest, ?_⟩
    intro feed rest item hpull
    simp only [pullLine, Feed.pull] at hpull
    split at hpull
    · next hitems =>
      cases hpull
      simp only [hitems, List.length_cons]
      exact Nat.add_lt_add_right (Nat.lt_succ_self _) _
    · next hitems =>
      split at hpull
      · cases hpull
      · cases hpull
      · next uid position hrest =>
        split at hpull
        · next next _ hlive =>
          cases hpull
          exact Nat.add_lt_add_left (hrest ▸ engine.linesLeft_lt hlive) _
        · next isOver _ => cases isOver <;> cases hpull

/-! ### Rest -/

namespace FollowedContainer

/-- The follower has nothing to do, and all its lines were taken. -/
def IsAtRest (l : FollowedContainer) : Prop :=
  l.follower.step? l.site = none ∧ l.follower.lines.items = []

/-- The follower takes its turn, and what it hands on is taken. -/
def round (l : FollowedContainer) : FollowedContainer :=
  (l.on .proceed).on (.reader (.read lineCapacity))

def rounds : Nat → FollowedContainer → FollowedContainer
  | 0, l => l
  | n + 1, l => rounds n l.round

/-- After some rounds the follower is at rest. -/
def Settles (l : FollowedContainer) : Prop :=
  ∃ n, (rounds n l).IsAtRest

/-- All lines were taken. -/
structure Drained (l : FollowedContainer) : Prop where
  sound : l.Sound
  items_nil : l.follower.lines.items = []

variable {l : FollowedContainer}

theorem Sound.drained_of_read (h : l.Sound) : (l.on (.reader (.read lineCapacity))).Drained :=
  ⟨h.on _, List.drop_eq_nil_of_le h.bounded.length_le⟩

theorem Drained.settles_of_none (h : l.Drained) (hnone : l.follower.step? l.site = none) :
    l.Settles :=
  ⟨0, hnone, h.items_nil⟩

/-- It is enough that a follower comes to rest after each turn that it can take. -/
theorem Drained.settles_of_turns (h : l.Drained)
    (hturns : ∀ {heard log item next}, l.follower.Turn l.site heard log item next →
      ∀ l' : FollowedContainer, l'.Drained → l'.follower.phase = next.1.phase → l'.site = next.2 →
        l'.Settles) : l.Settles := by
  cases hstep : l.follower.step? l.site with
  | none => exact h.settles_of_none hstep
  | some next =>
    have hround : l.round.follower.phase = next.1.phase ∧ l.round.site = next.2 := by
      simp only [round, FollowedContainer.on, hstep]
      exact ⟨rfl, rfl⟩
    obtain ⟨n, hrest⟩ := hturns (Follower.turn_of_step? hstep) l.round
      (h.sound.on .proceed).drained_of_read hround.1 hround.2
    exact ⟨n + 1, hrest⟩

/-- A follower that is stopped has nothing to do. -/
theorem Drained.settles_of_stopped (h : l.Drained) (hphase : l.follower.phase = .stopped) :
    l.Settles := by
  refine h.settles_of_none ?_
  simp only [Follower.step?, hphase]

theorem lt_add_retryDelay (now : Nat) : now < now + retryDelay :=
  Nat.lt_add_of_pos_right (by decide)

/-- A follower that is to go on later waits for that. -/
theorem Drained.settles_of_later (h : l.Drained) {due : Nat} (hdue : l.site.now < due)
    (hphase : l.follower.phase = .retrying due ∨ l.follower.phase = .resting due) : l.Settles := by
  refine h.settles_of_turns fun hturn l' h' hphase' _ => ?_
  cases hturn with
  | stops => exact h'.settles_of_stopped hphase'
  | startsOver phase isDue =>
    have hsame : due ≤ l.site.now := by
      rcases hphase with hphase | hphase <;> rcases phase with phase | phase <;>
        cases hphase.symm.trans phase <;> exact isDue
    omega
  | waits phase | opens phase | takes phase | fails phase | leaves phase | passes phase
  | isAnswered _ phase =>
    rcases hphase with hphase | hphase <;> cases hphase.symm.trans phase

/-- So does one whose look is never answered. -/
theorem Drained.settles_of_looking (h : l.Drained) (hphase : l.follower.phase = .looking) :
    l.Settles := by
  refine h.settles_of_turns fun hturn l' h' hphase' hsite => ?_
  cases hturn with
  | stops => exact h'.settles_of_stopped hphase'
  | isAnswered answer =>
    refine h'.settles_of_later ?_ (Or.inr hphase')
    rw [hsite]
    exact lt_add_retryDelay _
  | startsOver phase => rcases phase with phase | phase <;> cases hphase.symm.trans phase
  | waits phase | opens phase | takes phase | fails phase | leaves phase | passes phase =>
    cases hphase.symm.trans phase

/-- So does one whose log is over. -/
theorem Drained.settles_of_left (h : l.Drained) {f : Follower} {s : Site}
    {heard : Option LookAnswer} {next : Follower × Site}
    (hleaving : f.Leaving s heard next) (hphase : l.follower.phase = next.1.phase)
    (hsite : l.site = next.2) : l.Settles := by
  cases hleaving with
  | stops => exact h.settles_of_stopped hphase
  | rests =>
    refine h.settles_of_later ?_ (Or.inr hphase)
    rw [hsite]
    exact lt_add_retryDelay _
  | looksInVain => exact h.settles_of_looking hphase

/-- A line in hand is handed on before the follower reads on. -/
theorem Drained.settles_of_passing (h : l.Drained) {feed : Feed String} {line : String}
    (hphase : l.follower.phase = .passing feed line)
    (hreading : ∀ l' : FollowedContainer, l'.Drained → l'.follower.phase = .reading feed →
      l'.site = l.site → l'.Settles) : l.Settles := by
  refine h.settles_of_turns fun hturn l' h' hphase' hsite => ?_
  cases hturn with
  | stops => exact h'.settles_of_stopped hphase'
  | passes phase =>
    cases hphase.symm.trans phase
    exact hreading l' h' hphase' hsite
  | startsOver phase => rcases phase with phase | phase <;> cases hphase.symm.trans phase
  | waits phase | opens phase | takes phase | fails phase | leaves phase | isAnswered _ phase =>
    cases hphase.symm.trans phase

/-- A follower reads a log until there is nothing to read. -/
theorem Drained.settles_of_reading (h : l.Drained) {feed : Feed String}
    (hphase : l.follower.phase = .reading feed) : l.Settles := by
  obtain ⟨left, hleft⟩ := l.site.engine.exists_left
  generalize hengine : l.site.engine = engine at hleft
  -- by how much of the log is left
  induction hn : left feed using Nat.strong_induction_on generalizing l feed with
  | h n ih =>
    subst hn
    refine h.settles_of_turns fun hturn l' h' hphase' hsite => ?_
    cases hturn with
    | stops => exact h'.settles_of_stopped hphase'
    | takes phase pulled =>
      cases hphase.symm.trans phase
      have hless := hleft _ _ _ (hengine ▸ pulled)
      refine h'.settles_of_passing hphase' fun l'' h'' hphase'' hsite' => ?_
      exact ih _ hless h'' hphase'' (by rw [hsite', hsite, hengine]) rfl
    | fails phase pulled leaving | leaves phase pulled leaving =>
      exact h'.settles_of_left leaving hphase' hsite
    | startsOver phase => rcases phase with phase | phase <;> cases hphase.symm.trans phase
    | waits phase | opens phase | passes phase | isAnswered _ phase =>
      cases hphase.symm.trans phase

/-- A follower opens a log once it saw the container. -/
theorem Drained.settles_of_opened (h : l.Drained) {f : Follower} {seen : Snapshot} {s : Site}
    {answer : LogAnswer} {next : Follower × Site}
    (hopens : f.Opens seen s answer next) (hphase : l.follower.phase = next.1.phase)
    (hsite : l.site = next.2) : l.Settles := by
  cases hopens with
  | opened feed => exact h.settles_of_reading hphase
  | missing | failed =>
    refine h.settles_of_later ?_ (Or.inl hphase)
    rw [hsite]
    exact lt_add_retryDelay _

/-- A waiter that has just looked waits. -/
theorem Drained.settles_of_waiting (h : l.Drained)
    (hphase : l.follower.phase =
      .awaiting (.waiting l.site.handle.version (l.site.now + observeInterval))) : l.Settles := by
  have hlater : ¬ l.site.now + observeInterval ≤ l.site.now :=
    Nat.not_le_of_lt (Nat.lt_add_of_pos_right (by decide))
  have hwait : ∀ {w : Waiter} {heard waited after}, l.follower.phase = .awaiting w →
      w.Turn .observed l.follower.isCancelled l.site heard waited after → waited = .cancelled := by
    intro w heard waited after hw hturn
    cases hphase.symm.trans hw
    cases hturn with
    | stops => rfl
    | notices changed => exact absurd rfl changed
    | looks isDue | looksInVain isDue => exact absurd isDue hlater
  refine h.settles_of_turns fun hturn l' h' hphase' hsite => ?_
  cases hturn with
  | stops => exact h'.settles_of_stopped hphase'
  | waits phase turn | opens phase turn => cases hwait phase turn
  | startsOver phase => rcases phase with phase | phase <;> cases hphase.symm.trans phase
  | takes phase | fails phase | leaves phase | passes phase | isAnswered _ phase =>
    cases hphase.symm.trans phase

/-- A wait comes to rest if one does whose look is not answered. -/
theorem Drained.settles_of_wait (h : l.Drained) {w : Waiter}
    (hphase : l.follower.phase = .awaiting w)
    (hstuck : w ≠ .stuck → ∀ l' : FollowedContainer, l'.Drained →
      l'.follower.phase = .awaiting .stuck → l'.Settles) : l.Settles := by
  refine h.settles_of_turns fun hturn l' h' hphase' hsite => ?_
  cases hturn with
  | stops => exact h'.settles_of_stopped hphase'
  | waits phase turn =>
    cases hphase.symm.trans phase
    rcases turn.of_again with ⟨hw, rfl⟩ | rfl
    · exact hstuck hw l' h' hphase'
    · refine h'.settles_of_waiting ?_
      rw [hphase', hsite]
  | opens phase turn opens => exact h'.settles_of_opened opens hphase' hsite
  | startsOver phase => rcases phase with phase | phase <;> cases hphase.symm.trans phase
  | takes phase | fails phase | leaves phase | passes phase | isAnswered _ phase =>
    cases hphase.symm.trans phase

theorem Drained.settles_of_awaiting (h : l.Drained) {w : Waiter}
    (hphase : l.follower.phase = .awaiting w) : l.Settles := by
  refine h.settles_of_wait hphase fun _ l' h' hstuck => ?_
  exact h'.settles_of_wait hstuck fun hw => absurd rfl hw

/-- As long as its lines are taken, a follower comes to rest. -/
theorem Drained.settles (h : l.Drained) : l.Settles := by
  cases hphase : l.follower.phase with
  | awaiting w => exact h.settles_of_awaiting hphase
  | reading feed => exact h.settles_of_reading hphase
  | passing feed line =>
    exact h.settles_of_passing hphase fun l' h' hreading _ => h'.settles_of_reading hreading
  | looking => exact h.settles_of_looking hphase
  | stopped => exact h.settles_of_stopped hphase
  | retrying due | resting due =>
    refine h.settles_of_turns fun hturn l' h' hphase' hsite => ?_
    cases hturn with
    | stops => exact h'.settles_of_stopped hphase'
    | startsOver => exact h'.settles_of_awaiting hphase'
    | waits phase | opens phase | takes phase | fails phase | leaves phase | passes phase
    | isAnswered _ phase => cases hphase.symm.trans phase

/-! ### What is handed on -/

/-- At rest the log that is read has nothing to give, and no line is in hand. -/
theorem Sound.pending_of_rest (h : l.Sound) (hrest : l.IsAtRest) :
    l.follower.phase.inHand = [] ∧ ∀ feed, l.follower.phase.feed? = some feed →
      (l.site.engine.pullLine feed).1 = .pending := by
  obtain ⟨hnone, hitems⟩ := hrest
  have hgoes : ∀ feed, l.follower.phase.feed? = some feed → l.site.handle.isCancelled = false := by
    intro feed hfeed
    rw [Bool.eq_false_iff]
    intro hcancelled
    cases hphase : l.follower.phase with
    | stopped =>
      rw [hphase] at hfeed
      cases hfeed
    | _ => simp [Follower.step?, hphase, hcancelled] at hnone
  cases hphase : l.follower.phase with
  | reading feed =>
    have hopen := hgoes feed (by rw [hphase]; rfl)
    refine ⟨rfl, fun feed' hfeed => ?_⟩
    cases hfeed
    simp only [Follower.step?, hphase, hopen, Bool.false_eq_true, if_false] at hnone
    split at hnone
    · cases hnone
    · split at hnone
      · next hpull => rw [hpull]
      · cases hnone
      · cases hnone
      · cases hnone
  | passing feed line =>
    have hopen := hgoes feed (by rw [hphase]; rfl)
    have hroom : l.follower.lines.hasRoom = true := by
      rw [Channel.hasRoom, hitems, h.bounded.capacity_eq]
      decide
    simp only [Follower.step?, hphase, hopen, hroom, Bool.false_eq_true, if_false, if_true] at hnone
    split at hnone <;> cases hnone
  | _ =>
    refine ⟨rfl, fun feed hfeed => ?_⟩
    cases hfeed

/-- At rest everything has been taken that the logs gave. -/
theorem Sound.taken_eq_of_rest (h : l.Sound) (hrest : l.IsAtRest)
    (hgoes : l.follower.phase ≠ .stopped) : l.taken = l.lines := by
  have hcomplete := h.relays.complete hgoes
  rw [(h.pending_of_rest hrest).1, hrest.2, List.append_nil, List.append_nil] at hcomplete
  exact hcomplete

/-- Logs that nothing is added to gave all their lines by then. -/
theorem Sound.lines_eq_of_rest (h : l.Sound) (hrest : l.IsAtRest)
    (hgoes : l.follower.phase ≠ .stopped) (hfixed : ∀ log ∈ l.logs, log.feed.IsFixed) :
    l.lines = l.logs.reverse.flatMap fun log => upToError log.feed.items := by
  have hlog : ∀ log ∈ l.logs, log.lines = upToError log.feed.items := by
    intro log hlog
    cases hfeed : l.follower.phase.feed? with
    | none =>
      have hbetween := Phase.isBetween_of_feed? hfeed hgoes
      exact (h.relays.readOut hbetween log hlog).lines_eq (hfixed log hlog)
    | some feed =>
      obtain ⟨latest, earlier, hlogs, hopen⟩ := h.relays.reading feed hfeed
      have hearlier := h.relays.earlier
      rw [hlogs] at hlog hearlier
      rcases List.mem_cons.mp hlog with rfl | hlog'
      · exact hopen.lines_eq_of_pending (hfixed log (hlogs ▸ List.mem_cons_self))
          ((h.pending_of_rest hrest).2 feed hfeed)
      · exact (hearlier log hlog').lines_eq (hfixed log (hlogs ▸ List.mem_cons_of_mem _ hlog'))
  rw [lines]
  exact List.flatMap_congr fun log hmem => hlog log (List.mem_reverse.mp hmem)

/-- What a follower hands on, and how it goes on. -/
structure FollowsOn (l : FollowedContainer) : Prop where
  /-- What was handed on are lines of the logs that were opened, each up to its first error, in the
  order of their opening. -/
  inOrder : l.taken ++ l.follower.lines.items <+: l.lines
  /-- Only a line in hand is missing while the follower goes on. -/
  complete : l.follower.phase ≠ .stopped →
    l.taken ++ l.follower.lines.items ++ l.follower.phase.inHand = l.lines
  /-- The logs are those that were opened, in order. -/
  opened : l.logs.reverse.map OpenedLog.feed = l.attempts.filterMap fun a => a.answer.toOption
  given : ∀ log ∈ l.logs, ∃ rest, log.feed.Gives log.items rest
  /-- Only the latest log may not be read up to its end or its first error. -/
  readOut : ∀ log ∈ l.logs.tail, log.IsReadOut
  /-- As long as its lines are taken, the follower comes to rest. -/
  settles : (l.on (.reader (.read lineCapacity))).Settles
  /-- At rest all lines have been taken, up to the first error of each log. -/
  atRest : l.IsAtRest → l.follower.phase ≠ .stopped → l.taken = l.lines ∧
    ((∀ log ∈ l.logs, log.feed.IsFixed) →
      l.taken = l.logs.reverse.flatMap fun log => upToError log.feed.items)
  /-- No error is handed on. -/
  isOk : ∀ item ∈ l.taken ++ l.follower.lines.items, item.isOk = true
  /-- Attempts are at least three seconds apart. -/
  apart : l.attempts.Pairwise fun a b => a.time + 3000 ≤ b.time
  /-- An attempt that finds no container makes the handle forget it. -/
  forgot : ∀ a ∈ l.attempts, saysMissing a.answer = true → a.shown = none
  /-- The next attempt comes only after a look that shows the container. -/
  anew : l.attempts.Pairwise fun a b => saysMissing a.answer = true → a.sightings < b.sightings
  /-- The lines end only when the follower is told to stop, or nobody takes them. -/
  lasts : l.follower.lines.senderGone = true → l.site.handle.isCancelled = true ∨
    l.follower.isCancelled = true ∨ l.follower.lines.readerGone = true

/-- Whatever the engine answers and whatever else happens at the handle, a follower hands on the
lines of the logs that it opens, all of them and nothing else, and goes on until it is told to
stop. -/
theorem run_followsOn (s : Site) (events : List FollowedEvent) :
    ((start s).run events).FollowsOn := by
  have h := run_sound s events
  refine
    { inOrder := h.relays.delivered
      complete := h.relays.complete
      opened := h.relays.opened
      given := h.relays.given
      readOut := h.relays.earlier
      settles := h.drained_of_read.settles
      atRest := fun hrest hgoes => ⟨h.taken_eq_of_rest hrest hgoes, fun hfixed => ?_⟩
      isOk := fun item hitem => ?_
      apart := h.paced.apart
      forgot := h.looksAnew.forgot
      anew := h.looksAnew.anew
      lasts := fun hgone => h.lasts.told (h.lasts.ends hgone) }
  · rw [h.taken_eq_of_rest hrest hgoes]
    exact h.lines_eq_of_rest hrest hgoes hfixed
  · obtain ⟨log, -, hline⟩ := List.mem_flatMap.mp (h.relays.delivered.subset hitem)
    exact OpenedLog.isOk_of_mem_lines hline

/-- A log that fails and then is not there for a moment is followed further, and nobody is told. -/
example :
    let db : Snapshot :=
      { id := "1", name := "db", state := .running, env := [], startedAt := none }
    let engine : Engine := .script
      { wall := ⟨0, 0⟩
        inspections := [.ok db]
        logReplies :=
          [.ok (["a", "b"], .failing (.engine "cut")), .error .notFound, .ok (["c"], .silent)] }
    let l := start { now := 0, engine, handle := { name := "db", snapshot := some db } }
    let untilDue := List.replicate 9 .proceed ++ [.reader (.read 256), .pass 3000]
    (l.run (untilDue ++ untilDue ++ untilDue ++ untilDue)).taken = [.ok "a", .ok "b", .ok "c"] := by
  decide

end FollowedContainer

end FleetWatch
