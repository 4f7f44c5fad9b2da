import FleetWatch.Proofs.Container.FollowerTurn
import Mathlib.Data.List.Induction
import Mathlib.Data.List.TakeWhile
/-!
What a follower of a log hands on.

The record of a follower holds every log that it opened with the items that it took from it, every
attempt to open one, and every item that somebody took from the follower.
-/

namespace FleetWatch

/-! ### What a log gives -/

/-- The items that an open log gives one after the other, whatever becomes of the engine meanwhile,
and what is left of the log then. -/
inductive Feed.Gives (feed : Feed String) : List LogItem → Feed String → Prop where
  | nothing : feed.Gives [] feed
  | next {items : List LogItem} {item : LogItem}
      {rest left : Feed String} (engine : Engine) (before : feed.Gives items rest)
      (pulled : engine.pullLine rest = (.item item, left)) :
    feed.Gives (items ++ [item]) left

/-- Nothing is added to a log after it was opened. -/
def Feed.IsFixed (feed : Feed String) : Prop :=
  ∀ source position, feed.rest ≠ .live source position

theorem Engine.exists_pull (engine : Engine) :
    ∃ live, ∀ feed, engine.pullLine feed = feed.pull live := by
  cases engine with
  | memory engine => exact ⟨engine.liveLine, fun _ => rfl⟩
  | script engine => exact ⟨fun _ _ => (none, true), fun _ => rfl⟩

/-- What a fixed log gives is what it begins with. -/
theorem Feed.Gives.items_eq {feed rest : Feed String} {items : List LogItem}
    (h : feed.Gives items rest) (hfixed : feed.IsFixed) :
    feed.items = items ++ rest.items ∧ rest.rest = feed.rest := by
  induction h with
  | nothing => exact ⟨rfl, rfl⟩
  | next engine _ pulled ih =>
    obtain ⟨hitems, hrest⟩ := ih
    obtain ⟨live, hlive⟩ := engine.exists_pull
    rw [hlive] at pulled
    obtain ⟨hfirst, hleft⟩ :=
      items_of_pull (fun source position => hrest ▸ hfixed source position) pulled
    rw [hitems, hfirst, List.append_assoc]
    exact ⟨rfl, hleft.trans hrest⟩

/-- The items before the first error. -/
def upToError (items : List LogItem) : List LogItem :=
  items.takeWhile Except.isOk

theorem upToError_of_isOk {items : List LogItem}
    (h : ∀ item ∈ items, item.isOk = true) : upToError items = items :=
  List.takeWhile_eq_self_iff.mpr h

/-- Behind an error nothing counts. -/
theorem upToError_error {items : List LogItem}
    (h : ∀ item ∈ items, item.isOk = true) (e : ContainerError) (more : List LogItem) :
    upToError (items ++ .error e :: more) = items := by
  rw [upToError, List.takeWhile_append_of_pos h,
    List.takeWhile_cons_of_neg (show ¬ Except.isOk (.error e) = true from Bool.false_ne_true),
    List.append_nil]

theorem isOk_of_mem_upToError {items : List LogItem}
    {item : LogItem} (h : item ∈ upToError items) : item.isOk = true :=
  List.mem_takeWhile_imp h

/-! ### The record of a follower -/

open Follow

/-- A log that was opened, with what was taken from it. -/
structure OpenedLog where
  /-- The log as it was opened. -/
  feed : Feed String
  items : List LogItem := []

namespace OpenedLog

/-- The items before the first error. -/
def lines (log : OpenedLog) : List LogItem :=
  upToError log.items

def add (log : OpenedLog) (items : List LogItem) : OpenedLog :=
  { log with items := log.items ++ items }

/-- The log gave these items, and so much of it is left. -/
def IsOpenAt (log : OpenedLog) (rest : Feed String) : Prop :=
  log.feed.Gives log.items rest ∧ ∀ item ∈ log.items, item.isOk = true

/-- The log was read up to its first error, or up to its end. -/
def IsReadOut (log : OpenedLog) : Prop :=
  ∃ rest, log.feed.Gives log.items rest ∧
    ((∃ e, log.items = log.lines ++ [.error e]) ∨
      log.items = log.lines ∧ ∃ engine : Engine, (engine.pullLine rest).1 = .over)

variable {log : OpenedLog} {feed rest : Feed String} {engine : Engine}

@[simp] theorem add_nil (log : OpenedLog) : log.add [] = log := by
  rw [add, List.append_nil]

theorem isOpenAt_of_opened (feed : Feed String) : IsOpenAt { feed } feed :=
  ⟨.nothing, fun _ h => absurd h List.not_mem_nil⟩

theorem IsOpenAt.lines_eq (h : log.IsOpenAt feed) : log.lines = log.items :=
  upToError_of_isOk h.2

/-- One more line is taken. -/
theorem IsOpenAt.add {line : String} (h : log.IsOpenAt feed)
    (hpull : engine.pullLine feed = (.item (.ok line), rest)) :
    (log.add [.ok line]).IsOpenAt rest := by
  refine ⟨.next engine h.1 hpull, ?_⟩
  intro item hitem
  rcases List.mem_append.mp hitem with hold | hnew
  · exact h.2 item hold
  · rw [List.mem_singleton.mp hnew]
    rfl

/-- An error ends the reading. -/
theorem IsOpenAt.fail {e : ContainerError} (h : log.IsOpenAt feed)
    (hpull : engine.pullLine feed = (.item (.error e), rest)) :
    (log.add [.error e]).IsReadOut ∧ (log.add [.error e]).lines = log.lines := by
  have hlines : (log.add [.error e]).lines = log.items := upToError_error h.2 e []
  refine ⟨⟨rest, .next engine h.1 hpull, Or.inl ⟨e, ?_⟩⟩, hlines.trans h.lines_eq.symm⟩
  rw [hlines]
  rfl

theorem IsOpenAt.finish (h : log.IsOpenAt feed) (hpull : engine.pullLine feed = (.over, rest)) :
    log.IsReadOut :=
  ⟨feed, h.1, Or.inr ⟨h.lines_eq.symm, engine, by rw [hpull]⟩⟩

theorem isOk_of_mem_lines {item : LogItem} (h : item ∈ log.lines) :
    item.isOk = true :=
  isOk_of_mem_upToError h

/-- A fixed log that was read out gave all its lines up to the first error. -/
theorem IsReadOut.lines_eq (h : log.IsReadOut) (hfixed : log.feed.IsFixed) :
    log.lines = upToError log.feed.items := by
  obtain ⟨rest, hgives, ⟨e, herror⟩ | ⟨hall, engine, hend⟩⟩ := h
  · rw [(hgives.items_eq hfixed).1, herror, List.append_assoc]
    exact (upToError_error (fun _ => isOk_of_mem_lines) e rest.items).symm
  · obtain ⟨live, hlive⟩ := engine.exists_pull
    have hnone : ∀ item, (rest.pull live).1 ≠ .item item := by
      intro item
      rw [← hlive, hend]
      nofun
    rw [(hgives.items_eq hfixed).1, Feed.items_eq_nil_of_pull hnone rfl, List.append_nil]
    rfl

/-- So did one that is still read, once it has nothing to give. -/
theorem IsOpenAt.lines_eq_of_pending (h : log.IsOpenAt feed)
    (hfixed : log.feed.IsFixed) (hpending : (engine.pullLine feed).1 = .pending) :
    log.lines = upToError log.feed.items := by
  obtain ⟨live, hlive⟩ := engine.exists_pull
  have hnone : ∀ item, (feed.pull live).1 ≠ .item item := by
    intro item
    rw [← hlive, hpending]
    nofun
  rw [(h.1.items_eq hfixed).1, Feed.items_eq_nil_of_pull hnone rfl, List.append_nil]
  rfl

theorem IsReadOut.given (h : log.IsReadOut) : ∃ rest, log.feed.Gives log.items rest := by
  obtain ⟨rest, hgives, -⟩ := h
  exact ⟨rest, hgives⟩

end OpenedLog

/-- An attempt to open a log. -/
structure OpenAttempt where
  time : Nat
  answer : LogAnswer
  /-- How many looks had shown the container before. -/
  sightings : Nat
  /-- What the handle showed after it. -/
  shown : Option Snapshot

/-- A follower at its handle, with a record of what it did. -/
structure FollowedContainer where
  follower : Follower := {}
  site : Site
  attempts : List OpenAttempt := []
  /-- The logs that were opened, the latest first. -/
  logs : List OpenedLog := []
  /-- The items that somebody took from the follower. -/
  taken : List LogItem := []
  /-- How many looks showed the container. -/
  sightings : Nat := 0

/-- What can happen to a follower and to its handle. -/
inductive FollowedEvent where
  /-- The follower does its next thing, if there is one. -/
  | proceed
  /-- The follower's look is answered late. -/
  | answered (answer : LookAnswer)
  /-- A look that somebody else took is answered. -/
  | looked (answer : LookAnswer)
  | forget
  | cancelHandle
  | engineBecomes (engine : Engine)
  | pass (ms : Nat)
  | reader (act : ReaderAct)

/-- The looks among one that show the container. -/
def sightingsIn : Option LookAnswer → Nat
  | some (.ok _) => 1
  | _ => 0

namespace FollowedContainer

def start (s : Site) : FollowedContainer where
  site := s

/-- The follower's turn, with the answer that it hears, the answer to its opening of the log and the
item that it takes. -/
def advance (l : FollowedContainer) (heard : Option LookAnswer) (answer : Option LogAnswer)
    (item : Option LogItem) (next : Follower × Site) : FollowedContainer :=
  let sightings := l.sightings + sightingsIn heard
  let attempt (answer : LogAnswer) : OpenAttempt :=
    { time := next.2.now, answer, sightings, shown := next.2.handle.snapshot }
  { l with
    follower := next.1
    site := next.2
    sightings
    attempts := l.attempts ++ (answer.map attempt).toList
    logs := ((answer.bind Except.toOption).map fun feed => { feed }).toList ++
      l.logs.modifyHead fun log => log.add item.toList }

/-- Something happens at the handle, with so many looks that show the container. -/
def elsewhere (l : FollowedContainer) (site : Site) (sightings : Nat) : FollowedContainer :=
  { l with site, sightings := l.sightings + sightings }

def on (l : FollowedContainer) : FollowedEvent → FollowedContainer
  | .proceed =>
    match l.follower.step? l.site with
    | none => l
    | some next =>
      l.advance (l.site.answerBetween next.2) (l.follower.logAnswer? (l.follower.wait? l.site))
        (l.follower.item? l.site) next
  | .answered answer =>
    match l.follower.answered? answer l.site with
    | none => l
    | some next =>
      l.advance (some answer) (l.follower.logAnswer? (l.follower.lateWait? answer l.site)) none next
  | .looked answer => l.elsewhere (l.site.answered answer) (sightingsIn (some answer))
  | .forget => l.elsewhere { l.site with handle := l.site.handle.clear } 0
  | .cancelHandle =>
    l.elsewhere { l.site with handle := { l.site.handle with isCancelled := true } } 0
  | .engineBecomes engine => l.elsewhere { l.site with engine } 0
  | .pass ms => l.elsewhere { l.site with now := l.site.now + ms } 0
  | .reader (.read burst) =>
    { l with
      follower := l.follower.heed (.read burst)
      taken := l.taken ++ (l.follower.lines.read burst).1.items }
  | .reader act => { l with follower := l.follower.heed act }

def run (l : FollowedContainer) (events : List FollowedEvent) : FollowedContainer :=
  events.foldl on l

theorem run_concat (l : FollowedContainer) (events : List FollowedEvent) (e : FollowedEvent) :
    l.run (events ++ [e]) = (l.run events).on e := by
  simp only [run, List.foldl_append, List.foldl_cons, List.foldl_nil]

/-- The lines of all logs that were opened, in the order of their opening. -/
def lines (l : FollowedContainer) : List LogItem :=
  l.logs.reverse.flatMap OpenedLog.lines

end FollowedContainer

/-- The log that a follower reads. -/
def Follow.Phase.feed? : Phase → Option (Feed String)
  | .reading feed | .passing feed _ => some feed
  | _ => none

/-- A follower that goes on and reads no log. -/
def Follow.Phase.isBetween : Phase → Bool
  | .awaiting _ | .retrying _ | .looking | .resting _ => true
  | .reading _ | .passing _ _ | .stopped => false

/-- The line that a follower has in hand. -/
def Follow.Phase.inHand : Phase → List LogItem
  | .passing _ line => [.ok line]
  | _ => []

namespace Follow.Phase

/-- In this phase the log is not opened before so much time has passed since a moment. -/
def KeepsAway (phase : Phase) (now since : Nat) : Prop :=
  match phase with
  | .awaiting _ => since + retryDelay ≤ now
  | .retrying due | .resting due => since + retryDelay ≤ due
  | .reading _ | .passing _ _ | .looking | .stopped => True

variable {phase : Phase}

theorem KeepsAway.mono {now later since : Nat} (h : phase.KeepsAway now since) (hle : now ≤ later) :
    phase.KeepsAway later since := by
  cases phase with
  | awaiting w => exact Nat.le_trans h hle
  | _ => exact h

theorem feed?_of_isBetween (h : phase.isBetween = true) : phase.feed? = none := by
  cases phase with
  | reading | passing => cases h
  | _ => rfl

theorem ne_stopped_of_isBetween (h : phase.isBetween = true) : phase ≠ .stopped := by
  rintro rfl
  cases h

theorem isBetween_of_feed? (h : phase.feed? = none) (hgoes : phase ≠ .stopped) :
    phase.isBetween = true := by
  cases phase with
  | reading | passing => cases h
  | stopped => exact absurd rfl hgoes
  | _ => rfl

theorem inHand_of_feed? (h : phase.feed? = none) : phase.inHand = [] := by
  cases phase with
  | passing feed line => cases h
  | _ => rfl

end Follow.Phase

namespace FollowedContainer

variable {l : FollowedContainer}

/-! ### The lines -/

/-- What is taken, what waits to be taken and what is in hand are the lines of the logs. -/
structure Relays (l : FollowedContainer) : Prop where
  delivered : l.taken ++ l.follower.lines.items <+: l.lines
  complete : l.follower.phase ≠ .stopped →
    l.taken ++ l.follower.lines.items ++ l.follower.phase.inHand = l.lines
  given : ∀ log ∈ l.logs, ∃ rest, log.feed.Gives log.items rest
  reading : ∀ feed, l.follower.phase.feed? = some feed →
    ∃ log earlier, l.logs = log :: earlier ∧ log.IsOpenAt feed
  /-- Between two logs, all are read out. -/
  readOut : l.follower.phase.isBetween = true → ∀ log ∈ l.logs, log.IsReadOut
  earlier : ∀ log ∈ l.logs.tail, log.IsReadOut
  opened : l.logs.reverse.map OpenedLog.feed = l.attempts.filterMap fun a => a.answer.toOption

theorem start_relays (s : Site) : (start s).Relays where
  delivered := List.nil_prefix
  complete _ := rfl
  given _ hlog := absurd hlog List.not_mem_nil
  reading _ hfeed := by cases hfeed
  readOut _ _ hlog := absurd hlog List.not_mem_nil
  earlier _ hlog := absurd hlog List.not_mem_nil
  opened := rfl

/-- The lines of the latest log come after those of the others. -/
theorem lines_cons {log : OpenedLog} {earlier : List OpenedLog} (h : l.logs = log :: earlier) :
    l.lines = earlier.reverse.flatMap OpenedLog.lines ++ log.lines := by
  rw [lines, h, List.reverse_cons, List.flatMap_append, List.flatMap_singleton]

section

variable {heard : Option LookAnswer} {answer : Option LogAnswer}
  {item : Option LogItem} {next : Follower × Site}

/-- The logs are those that the attempts opened. -/
theorem Relays.opened_advance (h : l.Relays) :
    (l.advance heard answer item next).logs.reverse.map OpenedLog.feed =
      (l.advance heard answer item next).attempts.filterMap fun a => a.answer.toOption := by
  have hfeeds : (l.logs.modifyHead fun log => log.add item.toList).map OpenedLog.feed =
      l.logs.map OpenedLog.feed := by
    cases l.logs <;> rfl
  simp only [advance, List.reverse_append, List.map_append, List.filterMap_append, List.map_reverse,
    hfeeds]
  rw [← List.map_reverse, h.opened]
  congr 1
  cases answer with
  | none => rfl
  | some answer => cases answer <;> rfl

/-- Nothing is taken, and a log may be opened. -/
theorem logs_advance_of_untouched :
    (l.advance heard answer none next).logs =
      ((answer.bind Except.toOption).map fun feed => ({ feed } : OpenedLog)).toList ++ l.logs := by
  have hadd : (fun log : OpenedLog => log.add []) = id := funext OpenedLog.add_nil
  simp only [advance, Option.toList_none, hadd, List.modifyHead_id, id_eq]

theorem logs_advance_of_quiet (hanswer : answer.bind Except.toOption = none) :
    (l.advance heard answer none next).logs = l.logs := by
  rw [logs_advance_of_untouched, hanswer]
  rfl

/-- The latest log gives an item. -/
theorem logs_advance_of_cons {log : OpenedLog} {earlier : List OpenedLog}
    (h : l.logs = log :: earlier) :
    (l.advance heard none item next).logs = log.add item.toList :: earlier := by
  simp only [advance, h, Option.bind_none, Option.map_none, Option.toList_none, List.nil_append,
    List.modifyHead_cons]

/-- The follower stops, and what it has in hand is lost. -/
theorem Relays.stop (h : l.Relays) :
    (l.advance none none none (l.follower.stop, l.site)).Relays := by
  have hlogs : (l.advance none none none (l.follower.stop, l.site)).logs = l.logs :=
    logs_advance_of_quiet rfl
  refine ⟨?_, fun hgoes => absurd rfl hgoes, ?_, nofun, nofun, ?_, h.opened_advance⟩
  · rw [lines, hlogs]
    exact h.delivered
  · rw [hlogs]
    exact h.given
  · rw [hlogs]
    exact h.earlier

/-- Nothing happens to the logs between two of them. -/
theorem Relays.between (h : l.Relays) (hbetween : l.follower.phase.isBetween = true)
    (hanswer : answer.bind Except.toOption = none) (hnext : next.1.phase.isBetween = true)
    (hlines : next.1.lines = l.follower.lines) : (l.advance heard answer none next).Relays := by
  have hlogs : (l.advance heard answer none next).logs = l.logs := logs_advance_of_quiet hanswer
  have hhand := Phase.inHand_of_feed? (Phase.feed?_of_isBetween hbetween)
  have hhand' := Phase.inHand_of_feed? (Phase.feed?_of_isBetween hnext)
  have hreadOut := h.readOut hbetween
  constructor
  · rw [lines, hlogs, advance, hlines]
    exact h.delivered
  · intro _
    have hcomplete := h.complete (Phase.ne_stopped_of_isBetween hbetween)
    rw [hhand] at hcomplete
    rw [lines, hlogs, advance, hlines, hhand']
    exact hcomplete
  · rw [hlogs]
    exact h.given
  · intro feed hfeed
    cases (Phase.feed?_of_isBetween hnext).symm.trans hfeed
  · intro _
    rw [hlogs]
    exact hreadOut
  · rw [hlogs]
    exact h.earlier
  · exact h.opened_advance

/-- A log is opened. -/
theorem Relays.openLog (h : l.Relays) {feed : Feed String}
    (hbetween : l.follower.phase.isBetween = true) (hnext : next.1.phase = .reading feed)
    (hlines : next.1.lines = l.follower.lines) :
    (l.advance heard (some (.ok feed)) none next).Relays := by
  have hlogs : (l.advance heard (some (.ok feed)) none next).logs = { feed } :: l.logs :=
    logs_advance_of_untouched
  have hhand := Phase.inHand_of_feed? (Phase.feed?_of_isBetween hbetween)
  have hreadOut := h.readOut hbetween
  have hall : (l.advance heard (some (.ok feed)) none next).lines = l.lines := by
    rw [lines_cons hlogs]
    exact List.append_nil _
  constructor
  · rw [hall, advance, hlines]
    exact h.delivered
  · intro _
    have hcomplete := h.complete (Phase.ne_stopped_of_isBetween hbetween)
    rw [hhand] at hcomplete
    rw [hall, advance, hlines, hnext]
    exact hcomplete
  · rw [hlogs, List.forall_mem_cons]
    exact ⟨⟨feed, .nothing⟩, h.given⟩
  · intro feed' hfeed
    rw [advance, hnext] at hfeed
    cases hfeed
    exact ⟨_, _, hlogs, OpenedLog.isOpenAt_of_opened feed⟩
  · intro hbetween'
    rw [advance, hnext] at hbetween'
    cases hbetween'
  · rw [hlogs]
    exact hreadOut
  · exact h.opened_advance

/-- A line is taken from the log. -/
theorem Relays.take (h : l.Relays) {feed rest : Feed String} {line : String}
    (hphase : l.follower.phase = .reading feed)
    (hpull : l.site.engine.pullLine feed = (.item (.ok line), rest))
    (hnext : next.1.phase = .passing rest line) (hlines : next.1.lines = l.follower.lines) :
    (l.advance heard none (some (.ok line)) next).Relays := by
  obtain ⟨log, earlier, hbefore, hopen⟩ := h.reading feed (by rw [hphase]; rfl)
  have hlogs : (l.advance heard none (some (.ok line)) next).logs = log.add [.ok line] :: earlier :=
    logs_advance_of_cons hbefore
  have hopen' : (log.add [.ok line]).IsOpenAt rest := hopen.add hpull
  have hall : (l.advance heard none (some (.ok line)) next).lines = l.lines ++ [.ok line] := by
    rw [lines_cons hlogs, lines_cons hbefore, hopen'.lines_eq, hopen.lines_eq, List.append_assoc]
    rfl
  have hcomplete : l.taken ++ l.follower.lines.items ++ [] = l.lines := by
    have hcomplete := h.complete (by rw [hphase]; nofun)
    rwa [hphase] at hcomplete
  rw [List.append_nil] at hcomplete
  have hearlier := h.earlier
  rw [hbefore] at hearlier
  constructor
  · rw [hall, ← hcomplete, advance, hlines]
    exact List.prefix_append _ _
  · intro _
    rw [hall, ← hcomplete, advance, hlines, hnext]
    rfl
  · rw [hlogs, List.forall_mem_cons]
    exact ⟨⟨rest, hopen'.1⟩, fun log' hlog => (hearlier log' hlog).given⟩
  · intro feed' hfeed
    rw [advance, hnext] at hfeed
    cases hfeed
    exact ⟨_, _, hlogs, hopen'⟩
  · intro hbetween
    rw [advance, hnext] at hbetween
    cases hbetween
  · rw [hlogs]
    exact hearlier
  · exact h.opened_advance

/-- A line in hand is handed on. -/
theorem Relays.pass (h : l.Relays) {feed : Feed String} {line : String}
    (hphase : l.follower.phase = .passing feed line) (hnext : next.1.phase = .reading feed)
    (hlines : next.1.lines.items = l.follower.lines.items ++ [.ok line]) :
    (l.advance heard none none next).Relays := by
  have hlogs : (l.advance heard none none next).logs = l.logs := logs_advance_of_quiet rfl
  have hall : (l.advance heard none none next).lines = l.lines := by rw [lines, lines, hlogs]
  have hcomplete := h.complete (by rw [hphase]; nofun)
  rw [hphase, List.append_assoc] at hcomplete
  have hsame : l.taken ++ next.1.lines.items = l.lines := by
    rw [hlines]
    exact hcomplete
  constructor
  · rw [hall, ← hsame]
    exact List.prefix_rfl
  · intro _
    rw [hall, ← hsame, advance, hnext]
    exact List.append_nil _
  · rw [hlogs]
    exact h.given
  · intro feed' hfeed
    rw [advance, hnext] at hfeed
    cases hfeed
    rw [hlogs]
    exact h.reading feed (by rw [hphase]; rfl)
  · intro hbetween
    rw [advance, hnext] at hbetween
    cases hbetween
  · rw [hlogs]
    exact h.earlier
  · exact h.opened_advance

/-- A log is left that was read out. -/
theorem Relays.leave (h : l.Relays) {feed : Feed String} (hphase : l.follower.phase = .reading feed)
    (hout : ∀ log : OpenedLog, log.IsOpenAt feed →
      (log.add item.toList).IsReadOut ∧ (log.add item.toList).lines = log.lines)
    (hnext : next.1.phase.feed? = none) (hlines : next.1.lines.items = l.follower.lines.items) :
    (l.advance heard none item next).Relays := by
  obtain ⟨log, earlier, hbefore, hopen⟩ := h.reading feed (by rw [hphase]; rfl)
  obtain ⟨hreadOut, hsame⟩ := hout log hopen
  have hlogs : (l.advance heard none item next).logs = log.add item.toList :: earlier :=
    logs_advance_of_cons hbefore
  have hall : (l.advance heard none item next).lines = l.lines := by
    rw [lines_cons hlogs, lines_cons hbefore, hsame]
  have hearlier := h.earlier
  rw [hbefore] at hearlier
  have hreadOuts : ∀ log' ∈ (l.advance heard none item next).logs, log'.IsReadOut := by
    rw [hlogs, List.forall_mem_cons]
    exact ⟨hreadOut, hearlier⟩
  constructor
  · rw [hall, advance, hlines]
    exact h.delivered
  · intro _
    have hcomplete := h.complete (by rw [hphase]; nofun)
    rw [hphase] at hcomplete
    rw [hall, advance, hlines, Phase.inHand_of_feed? hnext]
    exact hcomplete
  · exact fun log' hlog => (hreadOuts log' hlog).given
  · intro feed' hfeed
    cases hnext.symm.trans hfeed
  · exact fun _ => hreadOuts
  · exact fun log' hlog => hreadOuts log' (List.mem_of_mem_tail hlog)
  · exact h.opened_advance

theorem Relays.turn (h : l.Relays) (hturn : l.follower.Turn l.site heard answer item next) :
    (l.advance heard answer item next).Relays := by
  have hleft : ∀ {heard next}, l.follower.Leaving l.site heard next →
      next.1.phase.feed? = none := by
    intro heard next hleaving
    cases hleaving with
    | stops | rests | looksInVain => rfl
  cases hturn with
  | stops why => exact h.stop
  | waits phase turn => exact h.between (by rw [phase]; rfl) rfl rfl rfl
  | opens phase turn opens =>
    have hbetween : l.follower.phase.isBetween = true := by rw [phase]; rfl
    cases opens with
    | opened feed engine => exact h.openLog hbetween rfl rfl
    | missing | failed => exact h.between hbetween rfl rfl rfl
  | takes phase pulled => exact h.take phase pulled rfl rfl
  | fails phase pulled leaving =>
    exact h.leave phase (fun log hopen => hopen.fail pulled) (hleft leaving) leaving.lines_eq.1
  | leaves phase pulled leaving =>
    refine h.leave phase (fun log hopen => ?_) (hleft leaving) leaving.lines_eq.1
    rw [Option.toList_none, OpenedLog.add_nil]
    exact ⟨hopen.finish pulled, rfl⟩
  | passes phase room => exact h.pass phase rfl rfl
  | startsOver phase isDue =>
    have hbetween : l.follower.phase.isBetween = true := by
      rcases phase with phase | phase <;> rw [phase] <;> rfl
    exact h.between hbetween rfl rfl rfl
  | isAnswered answer phase => exact h.between (by rw [phase]; rfl) rfl rfl rfl

theorem Relays.elsewhere (h : l.Relays) (site : Site) (sightings : Nat) :
    (l.elsewhere site sightings).Relays :=
  ⟨h.delivered, h.complete, h.given, h.reading, h.readOut, h.earlier, h.opened⟩

theorem Relays.reader (h : l.Relays) (act : ReaderAct) : (l.on (.reader act)).Relays := by
  cases act with
  | read burst =>
    have hall : l.taken ++ l.follower.lines.items.take burst ++ l.follower.lines.items.drop burst =
        l.taken ++ l.follower.lines.items := by
      rw [List.append_assoc, List.take_append_drop]
    refine ⟨?_, fun hgoes => ?_, h.given, h.reading, h.readOut, h.earlier, h.opened⟩
    · exact hall.symm ▸ h.delivered
    · have hcomplete := h.complete hgoes
      rw [← hall] at hcomplete
      exact hcomplete
  | drop | cancel =>
    exact ⟨h.delivered, h.complete, h.given, h.reading, h.readOut, h.earlier, h.opened⟩

end

/-! ### The attempts -/

/-- Attempts are so far apart, and the next one will be. -/
structure Paced (l : FollowedContainer) : Prop where
  apart : l.attempts.Pairwise fun a b => a.time + retryDelay ≤ b.time
  past : ∀ a ∈ l.attempts, a.time ≤ l.site.now
  keepAway : ∀ a ∈ l.attempts, l.follower.phase.KeepsAway l.site.now a.time

/-- An attempt that found no container made the handle forget it, and the ones behind it came after
somebody saw the container again. -/
structure LooksAnew (l : FollowedContainer) : Prop where
  forgot : ∀ a ∈ l.attempts, saysMissing a.answer = true → a.shown = none
  anew : l.attempts.Pairwise fun a b => saysMissing a.answer = true → a.sightings < b.sightings
  /-- The handle shows nothing since the attempt, if nobody saw the container. -/
  blind : ∀ a ∈ l.attempts, saysMissing a.answer = true →
    a.sightings < l.sightings ∨ a.sightings = l.sightings ∧ l.site.handle.snapshot = none

section

variable {heard : Option LookAnswer} {answer : Option LogAnswer}
  {item : Option LogItem} {next : Follower × Site}

theorem attempts_advance_none (l : FollowedContainer) (heard : Option LookAnswer)
    (item : Option LogItem) (next : Follower × Site) :
    (l.advance heard none item next).attempts = l.attempts :=
  List.append_nil _

/-- A turn without an attempt. -/
theorem Paced.goOn (h : l.Paced) (hnow : next.2.now = l.site.now)
    (hnext : ∀ since ≤ l.site.now, l.follower.phase.KeepsAway l.site.now since →
      next.1.phase.KeepsAway l.site.now since) :
    (l.advance heard none item next).Paced := by
  have hattempts := attempts_advance_none l heard item next
  constructor
  · rw [hattempts]
    exact h.apart
  · intro a ha
    rw [hattempts] at ha
    exact hnow ▸ h.past a ha
  · intro a ha
    rw [hattempts] at ha
    rw [advance, hnow]
    exact hnext a.time (h.past a ha) (h.keepAway a ha)

/-- An attempt of a follower that waited for the container. -/
theorem Paced.attempt (h : l.Paced) {w : Waiter} (hphase : l.follower.phase = .awaiting w)
    {answer : LogAnswer} (hnow : next.2.now = l.site.now)
    (hnext : ∀ since ≤ l.site.now, next.1.phase.KeepsAway l.site.now since) :
    (l.advance heard (some answer) none next).Paced := by
  have hwaited : ∀ a ∈ l.attempts, a.time + retryDelay ≤ l.site.now := by
    intro a ha
    have haway := h.keepAway a ha
    rwa [hphase] at haway
  have hpast : ∀ a ∈ (l.advance heard (some answer) none next).attempts, a.time ≤ l.site.now := by
    intro a ha
    rcases List.mem_append.mp ha with hold | hnew
    · exact h.past a hold
    · rw [List.mem_singleton.mp hnew]
      exact hnow.le
  constructor
  · refine List.pairwise_append.mpr ⟨h.apart, List.pairwise_singleton _ _, ?_⟩
    intro a ha b hb
    rw [List.mem_singleton.mp hb]
    exact hnow.symm ▸ hwaited a ha
  · exact fun a ha => hnow.symm ▸ hpast a ha
  · intro a ha
    rw [advance, hnow]
    exact hnext a.time (hpast a ha)

theorem Paced.turn (h : l.Paced) (hturn : l.follower.Turn l.site heard answer item next) :
    (l.advance heard answer item next).Paced := by
  have hnow := hturn.now_eq
  -- whoever leaves a log rests for the whole delay
  have hleaving : ∀ {heard next}, l.follower.Leaving l.site heard next →
      ∀ since ≤ l.site.now, next.1.phase.KeepsAway l.site.now since := by
    intro heard next hleaving since hsince
    cases hleaving with
    | stops | looksInVain => trivial
    | rests hears => exact hears.now_eq.symm ▸ Nat.add_le_add_right hsince retryDelay
  cases hturn with
  | stops | takes | passes => exact h.goOn hnow fun _ _ _ => trivial
  | waits phase turn =>
    refine h.goOn hnow fun since _ haway => ?_
    rw [phase] at haway
    exact haway
  | opens phase turn opens =>
    refine h.attempt phase hnow fun since hsince => ?_
    cases opens with
    | opened => trivial
    | missing | failed => exact turn.hears.now_eq.symm ▸ Nat.add_le_add_right hsince retryDelay
  | fails phase pulled leaving | leaves phase pulled leaving =>
    exact h.goOn hnow fun since hsince _ => hleaving leaving since hsince
  | startsOver phase isDue =>
    refine h.goOn hnow fun since _ haway => ?_
    refine Nat.le_trans ?_ isDue
    rcases phase with phase | phase <;> rw [phase] at haway <;> exact haway
  | isAnswered _ phase =>
    exact h.goOn hnow fun since hsince _ => Nat.add_le_add_right hsince retryDelay

theorem Paced.elsewhere (h : l.Paced) {site : Site} (hnow : l.site.now ≤ site.now)
    (sightings : Nat) : (l.elsewhere site sightings).Paced :=
  ⟨h.apart, fun a ha => (h.past a ha).trans hnow, fun a ha => (h.keepAway a ha).mono hnow⟩

/-- What is heard may show the container, and then it is counted. -/
theorem LooksAnew.blind_of_hears (h : l.LooksAnew) {site : Site} (hears : l.site.Hears heard site)
    {a : OpenAttempt} (ha : a ∈ l.attempts) (hmissing : saysMissing a.answer = true) :
    a.sightings < l.sightings + sightingsIn heard ∨
      a.sightings = l.sightings + sightingsIn heard ∧ site.handle.snapshot = none := by
  rcases h.blind a ha hmissing with hless | ⟨hsame, hnone⟩
  · exact Or.inl (Nat.lt_add_right _ hless)
  · rcases hears.snapshot_cases hnone with hnone' | ⟨seen, rfl⟩
    · rcases Nat.eq_zero_or_pos (sightingsIn heard) with hzero | hpos
      · exact Or.inr ⟨by rw [hzero, hsame, Nat.add_zero], hnone'⟩
      · exact Or.inl (hsame ▸ Nat.lt_add_of_pos_right hpos)
    · exact Or.inl (hsame ▸ Nat.lt_succ_self _)

/-- Somebody hears something. -/
theorem LooksAnew.goOn (h : l.LooksAnew) {site : Site} (hears : l.site.Hears heard site)
    (hsite : next.2.handle = site.handle) : (l.advance heard none item next).LooksAnew := by
  have hattempts := attempts_advance_none l heard item next
  constructor
  · rw [hattempts]
    exact h.forgot
  · rw [hattempts]
    exact h.anew
  · intro a ha hmissing
    rw [hattempts] at ha
    rw [advance, hsite]
    exact h.blind_of_hears hears ha hmissing

/-- An attempt behind a wait that is over, since the container was seen. -/
theorem LooksAnew.attempt (h : l.LooksAnew) {site : Site} (hears : l.site.Hears heard site)
    {seen : Snapshot} (hseen : site.handle.snapshot = some seen) {answer : LogAnswer}
    (hmissing : saysMissing answer = true → next.2.handle.snapshot = none) :
    (l.advance heard (some answer) none next).LooksAnew := by
  have hbefore : ∀ a ∈ l.attempts, saysMissing a.answer = true →
      a.sightings < l.sightings + sightingsIn heard := by
    intro a ha hnone
    rcases h.blind_of_hears hears ha hnone with hless | ⟨-, hblind⟩
    · exact hless
    · cases hseen.symm.trans hblind
  constructor
  · intro a ha hnone
    rcases List.mem_append.mp ha with hold | hnew
    · exact h.forgot a hold hnone
    · rw [List.mem_singleton.mp hnew] at hnone ⊢
      exact hmissing hnone
  · refine List.pairwise_append.mpr ⟨h.anew, List.pairwise_singleton _ _, ?_⟩
    intro a ha b hb hnone
    rw [List.mem_singleton.mp hb]
    exact hbefore a ha hnone
  · intro a ha hnone
    rcases List.mem_append.mp ha with hold | hnew
    · exact Or.inl (hbefore a hold hnone)
    · rw [List.mem_singleton.mp hnew] at hnone ⊢
      exact Or.inr ⟨rfl, hmissing hnone⟩

theorem LooksAnew.turn (h : l.LooksAnew) (hturn : l.follower.Turn l.site heard answer item next) :
    (l.advance heard answer item next).LooksAnew := by
  cases hturn with
  | stops | takes | passes | startsOver => exact h.goOn l.site.hears_nothing rfl
  | waits phase turn => exact h.goOn turn.hears rfl
  | opens phase turn opens =>
    refine h.attempt turn.hears turn.snapshot_of_ready fun hmissing => ?_
    cases opens with
    | opened => cases hmissing
    | missing => exact Handle.snapshot_clear _
    | failed e engine isNotFound => cases isNotFound.symm.trans hmissing
  | fails _ _ leaving | leaves _ _ leaving => exact h.goOn leaving.hears rfl
  | isAnswered answer => exact h.goOn (l.site.hears_answered answer) rfl

theorem LooksAnew.elsewhere (h : l.LooksAnew) {site site' : Site} (hears : l.site.Hears heard site)
    (hsite : site.handle.snapshot = none → site'.handle.snapshot = none) :
    (l.elsewhere site' (sightingsIn heard)).LooksAnew := by
  refine ⟨h.forgot, h.anew, fun a ha hmissing => ?_⟩
  exact (h.blind_of_hears hears ha hmissing).imp_right fun hblind => ⟨hblind.1, hsite hblind.2⟩

end

/-! ### The end -/

/-- The stream of lines ends only when the follower is told to stop or nobody takes them. -/
structure Lasts (l : FollowedContainer) : Prop where
  told : l.follower.phase = .stopped → l.site.handle.isCancelled = true ∨
    l.follower.isCancelled = true ∨ l.follower.lines.readerGone = true
  ends : l.follower.lines.senderGone = true → l.follower.phase = .stopped

/-- No more lines wait to be taken than there is room for. -/
structure Bounded (l : FollowedContainer) : Prop where
  capacity_eq : l.follower.lines.capacity = lineCapacity
  length_le : l.follower.lines.items.length ≤ lineCapacity

section

variable {heard : Option LookAnswer} {answer : Option LogAnswer}
  {item : Option LogItem} {next : Follower × Site}

theorem Lasts.turn (h : l.Lasts) (hturn : l.follower.Turn l.site heard answer item next) :
    (l.advance heard answer item next).Lasts := by
  obtain ⟨hcancelled, hdropped, hphase⟩ := hturn.lasts
  rcases hphase with ⟨hstop, hwhy⟩ | ⟨hbefore, hgoes, hsender⟩
  · refine ⟨fun _ => ?_, fun _ => hstop⟩
    rw [advance, hturn.handle_isCancelled_eq, hcancelled, hdropped]
    exact hwhy
  · refine ⟨fun hstop => absurd hstop hgoes, fun hgone => ?_⟩
    rw [advance, hsender] at hgone
    exact absurd (h.ends hgone) hbefore

theorem Bounded.turn (h : l.Bounded) (hturn : l.follower.Turn l.site heard answer item next) :
    (l.advance heard answer item next).Bounded := by
  obtain ⟨hcapacity, hitems⟩ := hturn.items_cases
  refine ⟨hcapacity.trans h.capacity_eq, ?_⟩
  rw [advance]
  rcases hitems with hsame | ⟨hroom, line, hmore⟩
  · rw [hsame]
    exact h.length_le
  · rw [Channel.hasRoom, h.capacity_eq, decide_eq_true_eq] at hroom
    rw [hmore, List.length_append]
    exact hroom

end

/-! ### Every moment -/

/-- What holds of a follower at every moment. -/
structure Sound (l : FollowedContainer) : Prop where
  relays : l.Relays
  paced : l.Paced
  looksAnew : l.LooksAnew
  lasts : l.Lasts
  bounded : l.Bounded

theorem start_sound (s : Site) : (start s).Sound where
  relays := start_relays s
  paced :=
    { apart := List.Pairwise.nil
      past := fun _ ha => absurd ha List.not_mem_nil
      keepAway := fun _ ha => absurd ha List.not_mem_nil }
  looksAnew :=
    { forgot := fun _ ha => absurd ha List.not_mem_nil
      anew := List.Pairwise.nil
      blind := fun _ ha => absurd ha List.not_mem_nil }
  lasts := ⟨nofun, nofun⟩
  bounded := ⟨rfl, Nat.zero_le _⟩

theorem Sound.turn (h : l.Sound) {heard : Option LookAnswer} {answer : Option LogAnswer}
    {item : Option LogItem} {next : Follower × Site}
    (hturn : l.follower.Turn l.site heard answer item next) :
    (l.advance heard answer item next).Sound where
  relays := h.relays.turn hturn
  paced := h.paced.turn hturn
  looksAnew := h.looksAnew.turn hturn
  lasts := h.lasts.turn hturn
  bounded := h.bounded.turn hturn

/-- Something happens at the handle that at most tells it what a look showed, and forgets it. -/
theorem Sound.elsewhere (h : l.Sound) {heard : Option LookAnswer}
    {site site' : Site} (hears : l.site.Hears heard site)
    (hsite : site.handle.snapshot = none → site'.handle.snapshot = none)
    (hnow : l.site.now ≤ site'.now)
    (hcancel : l.site.handle.isCancelled = true → site'.handle.isCancelled = true) :
    (l.elsewhere site' (sightingsIn heard)).Sound where
  relays := h.relays.elsewhere site' _
  paced := h.paced.elsewhere hnow _
  looksAnew := h.looksAnew.elsewhere hears hsite
  lasts := ⟨fun hstop => (h.lasts.told hstop).imp_left hcancel, h.lasts.ends⟩
  bounded := ⟨h.bounded.capacity_eq, h.bounded.length_le⟩

/-- Whoever takes the lines takes some, or is why the follower may stop. -/
theorem Sound.reader (h : l.Sound) (act : ReaderAct) : (l.on (.reader act)).Sound := by
  have hrelays := h.relays.reader act
  cases act with
  | read burst =>
    have hlength : (l.follower.lines.items.drop burst).length ≤ lineCapacity :=
      (List.length_drop ▸ Nat.sub_le _ _).trans h.bounded.length_le
    exact ⟨hrelays, ⟨h.paced.apart, h.paced.past, h.paced.keepAway⟩,
      ⟨h.looksAnew.forgot, h.looksAnew.anew, h.looksAnew.blind⟩, ⟨h.lasts.told, h.lasts.ends⟩,
      ⟨h.bounded.capacity_eq, hlength⟩⟩
  | drop =>
    exact ⟨hrelays, ⟨h.paced.apart, h.paced.past, h.paced.keepAway⟩,
      ⟨h.looksAnew.forgot, h.looksAnew.anew, h.looksAnew.blind⟩,
      ⟨fun _ => Or.inr (Or.inr rfl), h.lasts.ends⟩, ⟨h.bounded.capacity_eq, h.bounded.length_le⟩⟩
  | cancel =>
    exact ⟨hrelays, ⟨h.paced.apart, h.paced.past, h.paced.keepAway⟩,
      ⟨h.looksAnew.forgot, h.looksAnew.anew, h.looksAnew.blind⟩,
      ⟨fun _ => Or.inr (Or.inl rfl), h.lasts.ends⟩, ⟨h.bounded.capacity_eq, h.bounded.length_le⟩⟩

theorem Sound.on (h : l.Sound) (e : FollowedEvent) : (l.on e).Sound := by
  have hquiet := l.site.hears_nothing
  cases e with
  | proceed =>
    simp only [FollowedContainer.on]
    split
    · exact h
    · next hstep => exact h.turn (Follower.turn_of_step? hstep)
  | answered answer =>
    simp only [FollowedContainer.on]
    split
    · exact h
    · next hanswered => exact h.turn (Follower.turn_of_answered? hanswered)
  | looked answer =>
    have hears := l.site.hears_answered answer
    exact h.elsewhere hears id (Nat.le_refl _) fun hc => hears.isCancelled_eq.trans hc
  | forget =>
    refine h.elsewhere hquiet (fun _ => l.site.handle.snapshot_clear) (Nat.le_refl _) fun hc => ?_
    exact l.site.handle.isCancelled_clear.trans hc
  | cancelHandle => exact h.elsewhere hquiet id (Nat.le_refl _) fun _ => rfl
  | engineBecomes engine => exact h.elsewhere hquiet id (Nat.le_refl _) id
  | pass ms => exact h.elsewhere hquiet id (Nat.le_add_right _ _) id
  | reader act => exact h.reader act

theorem run_sound (s : Site) (events : List FollowedEvent) : ((start s).run events).Sound := by
  induction events using List.reverseRecOn with
  | nil => exact start_sound s
  | append_singleton events e ih =>
    rw [run_concat]
    exact ih.on e

end FollowedContainer

end FleetWatch
