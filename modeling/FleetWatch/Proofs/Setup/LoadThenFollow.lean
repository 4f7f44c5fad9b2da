import FleetWatch.Proofs.Setup.CatchUp
import FleetWatch.Proofs.Setup.Steps
/-!
Loading a log and then following it.

The latest session of what stands in the log is published first, and the log is followed from where
that was read to.  Together they publish what the complete lines of the whole log tell without its
earlier sessions, in order and each once: a line that was unfinished when the log was loaded is
published when it is completed.
-/

namespace FleetWatch

namespace Broadcaster

/-- An open broadcaster accepts one step for each match, in order. -/
theorem publishAll_accepted {b : Broadcaster} (hopen : b.isOpen = true) (ms : List LineMatch)
    {steps : List SetupMilestone} (h : b.Accepted steps) :
    ∃ published, (b.publishAll ms).2.Accepted (steps ++ published) ∧
      published.map (fun m => (m.status, m.details)) = ms.map fun m => (m.status, m.details) :=
  ⟨_, (publishAll_steps hopen ms h).1, map_stepsFrom _ ms⟩

/-- Loading a log that is a file or is not there yet publishes its latest session. -/
theorem loadLastSession_eq {b : Broadcaster} (hopen : b.isOpen = true) {disk : Disk}
    (hplace : disk.place ≠ .directory) (path : String) :
    b.loadLastSession path disk.read =
      (.ok ⟨(completePart disk.log).length,
          (latestSession (logMatches disk.log)).getLast? == some .finished⟩,
        (b.publishAll (latestSession (logMatches disk.log))).2) := by
  cases hp : disk.place with
  | absent =>
    rw [Disk.read, Disk.log, hp]
    rfl
  | directory => exact absurd hp hplace
  | file id =>
    rw [Disk.read_eq_ok hp, loadLastSession_of_isOpen hopen, LoadedLog.ofBytes, loadedSession_eq]

end Broadcaster

namespace FollowedLog

/-- A log that is followed from where it was loaded to. -/
def resume (now : Nat) (disk : Disk) (b : Broadcaster) (loaded : LoadedLog) : FollowedLog :=
  { now, disk, follower := { offset := loaded.offset }, broadcaster := some b }

theorem resume_sound {b : Broadcaster} {disk : Disk} (hplace : disk.place ≠ .directory) (now : Nat)
    (isFinished : Bool) :
    Sound b (completePart disk.log)
      (resume now disk b ⟨(completePart disk.log).length, isFinished⟩) [] where
  published := rfl
  follows :=
    ⟨rfl, ⟨unfinishedLine disk.log, completePart_append_unfinishedLine disk.log⟩, rfl⟩
  isCancelled := rfl
  readerGone := rfl
  capacity := rfl
  place := hplace
  timely := trivial

end FollowedLog

/-- What is published of a log: its latest session when it is loaded, and then what is told by the
lines completed later, the first of which goes on with the line that was unfinished. -/
def sinceLatest (loaded later : List UInt8) : List LineMatch :=
  latestSession (logMatches loaded) ++ logMatches (unfinishedLine loaded ++ later)

/-- That a broadcaster is told of a log with `loaded` in it and `later` added to it exactly what the
log tells from its latest session on. -/
structure HandsOver (b : Broadcaster) (loaded later : List UInt8) (l : FollowedLog) : Prop where
  /-- What is published so far begins it and has the whole session loaded. -/
  so_far : ∃ told, told <+: logMatches (unfinishedLine loaded ++ later) ∧
    l.broadcaster = some (b.publishAll (latestSession (logMatches loaded) ++ told)).2
  /-- All of it is published if the log is left alone for as long as a follower may wait. -/
  complete : ∀ ms, Tail.openRetryDelay ≤ ms →
    (l.elapse ms).broadcaster = some (b.publishAll (sinceLatest loaded later)).2
  /-- Each match is one step, in order. -/
  steps : ∀ steps, b.Accepted steps → ∃ published,
    (b.publishAll (sinceLatest loaded later)).2.Accepted (steps ++ published) ∧
      published.map (fun m => (m.status, m.details)) =
        (sinceLatest loaded later).map fun m => (m.status, m.details)
  /-- It is what the whole log tells but for the sessions before the one loaded. -/
  without_earlier : ∃ earlier,
    LatestAfter (logMatches loaded) earlier (latestSession (logMatches loaded)) ∧
      logMatches (loaded ++ later) = earlier ++ sinceLatest loaded later

/-- A log that is loaded and then followed is published from its latest session on, whatever is added
to it and whenever the follower looks. -/
theorem loaded_then_followed (disk : Disk) (hplace : disk.place ≠ .directory) (b : Broadcaster)
    (hopen : b.isOpen = true) (path : String) (now : Nat) (events : List FollowedLog.Event) :
    ∃ loaded loadedB, b.loadLastSession path disk.read = (.ok loaded, loadedB) ∧
      HandsOver b disk.log (FollowedLog.added events)
        ((FollowedLog.resume now disk loadedB loaded).happen events) := by
  have hload := Broadcaster.loadLastSession_eq hopen hplace path
  generalize ((latestSession (logMatches disk.log)).getLast? == some .finished) = isFinished at hload
  have hstill := (Broadcaster.publishAll_of_isOpen hopen (latestSession (logMatches disk.log))).2
  refine ⟨_, _, hload, ?_⟩
  generalize hresumed : FollowedLog.resume now disk _ _ = resumed
  have hsound := FollowedLog.resume_sound
    (b := (b.publishAll (latestSession (logMatches disk.log))).2) hplace now isFinished
  rw [hresumed] at hsound
  obtain ⟨handed, hafter⟩ := hsound.happen hstill events
  rw [List.nil_append] at hafter
  have hlog : (resumed.happen events).disk.log =
      completePart disk.log ++ (unfinishedLine disk.log ++ FollowedLog.added events) := by
    rw [FollowedLog.log_happen hsound.place, ← List.append_assoc,
      completePart_append_unfinishedLine, ← hresumed]
    rfl
  refine ⟨?_, fun ms hms => ?_, fun steps hsteps => b.publishAll_accepted hopen _ hsteps, ?_⟩
  · obtain ⟨followed, hfollowed, hprefix⟩ := hafter.handed_prefix
    rw [hlog] at hfollowed
    refine ⟨handed.filterMap readSetupLine, ?_, ?_⟩
    · rw [List.append_cancel_left hfollowed]
      have htold := hprefix.filterMap readSetupLine
      rw [List.filterMap_map] at htold
      exact htold
    · rw [hafter.published, Broadcaster.publishAll_append hopen]
  · rw [hafter.elapse_broadcaster hstill hlog hms, sinceLatest, Broadcaster.publishAll_append hopen]
  · obtain ⟨earlier, hearlier⟩ := exists_latestAfter (logMatches disk.log)
    refine ⟨earlier, hearlier, ?_⟩
    rw [logMatches_append, sinceLatest, ← List.append_assoc, ← hearlier.eq_append]

/-- A log with a finished session, loaded in the middle of a character of its last line, which is
completed while the follower rests. -/
theorem cut_line_loaded_then_followed :
    let disk := Disk.create {} (Text.utf8Bytes
      "Setup wallets\nStart shell\nCreate wallets\r\nUnlock wallets " ++ [0xE2, 0x9C])
    let events := [.follow, .follow, .append [0x93], .pass 250, .follow, .append [13, 10, 83]]
    disk.place ≠ .directory ∧ (Broadcaster.create 4).isOpen = true ∧
      sinceLatest disk.log (FollowedLog.added events) =
        [.milestone "Create wallets" none, .milestone "Unlock wallets" none] ∧
      ∃ loaded loadedB,
        (Broadcaster.create 4).loadLastSession "setup.log" disk.read = (.ok loaded, loadedB) ∧
          HandsOver (Broadcaster.create 4) disk.log (FollowedLog.added events)
            ((FollowedLog.resume 0 disk loadedB loaded).happen events) :=
  ⟨by decide, rfl, by decide +kernel,
    loaded_then_followed _ (by decide) _ rfl "setup.log" 0 _⟩

end FleetWatch
