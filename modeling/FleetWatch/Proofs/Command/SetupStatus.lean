import FleetWatch.Proofs.Command.ShownSteps
import FleetWatch.Proofs.Setup.LoadThenFollow
import FleetWatch.Proofs.Setup.Receipt
/-!
Showing a bring-up from its log.

The latest session in the log is history, of which as much is printed as was asked for; of a session
that is over, its end is always printed.  Main statement: a session that is over is shown at once and
to its end, and any other is followed to the end that is still to come (`start_showsBringUp`).
-/

namespace FleetWatch

namespace SetupShow

/-- The latest session of a log. -/
def session (loaded : List UInt8) : List LineMatch :=
  latestSession (logMatches loaded)

/-- The steps of the latest session that are kept as history. -/
def kept (capacity : Nat) (loaded : List UInt8) : List SetupMilestone :=
  lastOf (max capacity 1) (stepsFrom 1 (session loaded))

/-- The part of the history that is printed: as much as is asked for, but no less than `least`. -/
def asked (history : Int) (least : Nat) (kept : List SetupMilestone) : List SetupMilestone :=
  if history < 0 then kept else lastOf (max least (min history.toNat kept.length)) kept

/-- The steps that the lines completed later are published as. -/
def later (loaded added : List UInt8) : List SetupMilestone :=
  stepsFrom ((session loaded).length + 1) (logMatches (unfinishedLine loaded ++ added))

theorem asked_suffix (history : Int) (least : Nat) (kept : List SetupMilestone) :
    asked history least kept <:+ kept := by
  unfold asked
  split
  · exact List.suffix_rfl
  · exact lastOf_suffix _ _

/-- A subscription asks for one step at least of a session that is over. -/
theorem lastOf_sessionReplay (history : Int) (isFinished : Bool) {kept : List SetupMilestone}
    (hkept : isFinished = true → kept ≠ []) :
    lastOf ((sessionReplay history isFinished).count kept.length) kept =
      asked history isFinished.toNat kept := by
  have hpos : isFinished.toNat ≤ kept.length := by
    cases isFinished with
    | true => exact List.length_pos_iff.2 (hkept rfl)
    | false => exact Nat.zero_le _
  rcases history with (_ | count) | count
  · -- Nothing is asked for.
    have hnone : (sessionReplay (Int.ofNat 0) isFinished).count kept.length = isFinished.toNat := by
      cases isFinished with
      | true => exact Nat.min_eq_left hpos
      | false => rfl
    have htoNat : (Int.ofNat 0).toNat = 0 := rfl
    rw [hnone, asked, if_neg (by decide), htoNat, Nat.zero_min, Nat.max_zero]
  · have hcount : (sessionReplay (Int.ofNat (count + 1)) isFinished).count kept.length =
        min (count + 1) kept.length := rfl
    have htoNat : (Int.ofNat (count + 1)).toNat = count + 1 := rfl
    have hone : isFinished.toNat ≤ 1 := Bool.toNat_le _
    have hasked : ¬ Int.ofNat (count + 1) < 0 := Int.not_lt.2 (Int.natCast_nonneg _)
    rw [hcount, asked, if_neg hasked, htoNat]
    congr 1
    omega
  · have hall : (sessionReplay (Int.negSucc count) isFinished).count kept.length = kept.length := rfl
    rw [hall, asked, if_pos (Int.negSucc_lt_zero count), lastOf_eq_self (Nat.le_refl _)]

/-- What is printed first of a session that is over ends in its only end. -/
theorem asked_finished {loaded : List UInt8}
    (hover : (session loaded).getLast? = some .finished) (capacity : Nat) (history : Int) :
    ∃ before last, asked history 1 (kept capacity loaded) = before ++ [last] ∧
      last.isDone = true ∧ ∀ m ∈ before, m.isDone = false := by
  rcases latestSession_cases (logMatches loaded) with ⟨-, front, hfront, hsingle⟩ | ⟨hgoing, -⟩
  · let last : SetupMilestone :=
      { seq := 1 + front.length, status := LineMatch.doneStatus, details := none }
    have hone (count : Nat) : 0 < max count 1 := Nat.le_max_right _ _
    have hkept : kept capacity loaded =
        lastOf (max capacity 1 - 1) (stepsFrom 1 front) ++ [last] := by
      rw [kept, session, hfront, stepsFrom_append, ← lastOf_concat (hone capacity)]
      rfl
    have hnone : ∀ m ∈ stepsFrom 1 front, m.isDone = false := fun m hm =>
      not_isDone_of_mem_stepsFrom (fun m hm =>
        mem_logMatches_of_mem_latestSession (hfront ▸ List.mem_append_left _ hm)) hsingle hm
    rw [hkept, asked]
    split
    · exact ⟨_, last, rfl, rfl, fun m hm => hnone m ((lastOf_suffix _ _).subset hm)⟩
    · rw [Nat.max_comm, lastOf_concat (hone _)]
      exact ⟨_, last, rfl, rfl, fun m hm =>
        hnone m ((lastOf_suffix _ _).subset ((lastOf_suffix _ _).subset hm))⟩
  · exact absurd hover hgoing

/-- What is printed first of a session that is not over has no end. -/
theorem asked_unfinished {loaded : List UInt8}
    (hgoing : (session loaded).getLast? ≠ some .finished) (capacity : Nat) (history : Int) :
    ∀ m ∈ asked history 0 (kept capacity loaded), m.isDone = false := by
  rcases latestSession_cases (logMatches loaded) with ⟨hover, -⟩ | ⟨-, hnone⟩
  · exact absurd hover hgoing
  · intro m hm
    exact not_isDone_of_mem_stepsFrom (fun m => mem_logMatches_of_mem_latestSession) hnone
      ((lastOf_suffix _ _).subset ((asked_suffix _ _ _).subset hm))

end SetupShow

namespace RecordedShow

open SetupShow

/-- Within a time, a show prints just some steps and is done if one of them is the end. -/
structure Shows (all : List SetupMilestone) (wait : Nat) (r : RecordedShow) : Prop where
  so_far : r.printed <+: all
  isDone_iff : r.view.isDone = true ↔ ∃ m ∈ r.printed, m.isDone = true
  complete : ∀ ms, wait ≤ ms → r.printed ++ (r.view.elapse ms).1 = all ∧
    ((r.view.elapse ms).2.isDone = true ↔ ∃ m ∈ all, m.isDone = true)

/-- Whatever happens to the log, the bring-up is shown as it was asked for. -/
structure ShowsBringUp (capacity : Nat) (history : Int) (loaded : List UInt8) (start : RecordedShow)
    (events : List Event) : Prop where
  /-- Of a session that is over only history is shown, and that at once.  It ends in the end of the
  session, and there is no other. -/
  finished : (session loaded).getLast? = some .finished →
    (start.run events).Shows (asked history 1 (kept capacity loaded)) 0 ∧
      ∃ before last, asked history 1 (kept capacity loaded) = before ++ [last] ∧
        last.isDone = true ∧ ∀ m ∈ before, m.isDone = false
  /-- Otherwise the history is followed by what comes later, up to the end. -/
  unfinished : (session loaded).getLast? ≠ some .finished →
    (∀ earlier, earlier <+: events → (start.run earlier).view.isDone = false →
      (start.run earlier).behind ≤ liveCapacity) →
    (start.run events).Shows
      (asked history 0 (kept capacity loaded) ++ upToDone (later loaded (added events)))
      Tail.openRetryDelay

variable {b : Broadcaster} {before : List UInt8} {steps history : List SetupMilestone}
variable {r : RecordedShow} {handed : List String} {passed : Nat}

/-- A show that started has printed nothing yet of what it was asked for. -/
theorem start_sound {disk : Disk} (hplace : disk.place ≠ .directory) {b : Broadcaster}
    {steps : List SetupMilestone} (hopen : b.isOpen = true) (hsteps : b.Accepted steps)
    (isFinished : Bool) (replay : Replay) :
    Sound b (completePart disk.log) steps (lastOf (replay.count b.history.length) b.history)
      { view :=
          { log := .resume 0 disk b ⟨(completePart disk.log).length, isFinished⟩
            subscription := b.subscribe replay } }
      [] 0 where
  log := FollowedLog.resume_sound hplace 0 isFinished
  room := Nat.zero_le _
  next_eq := by
    rw [Broadcaster.subscribe, if_pos hopen, hsteps.nextSeq_eq, Nat.add_zero]
  passed_le := Nat.zero_le _
  split_eq := by
    rw [List.take_zero, List.append_nil, List.nil_append, Broadcaster.subscribe,
      Replay.drop_skip]
  replayed_nil h := absurd rfl h
  isDone_eq := rfl
  upToDone_eq := rfl

theorem PrintsOut.complete {all printed : List SetupMilestone}
    {shown : List SetupMilestone × SetupShow} (h : PrintsOut all shown printed) :
    printed ++ shown.1 = upToDone all ∧
      (shown.2.isDone = true ↔ ∃ m ∈ upToDone all, m.isDone = true) := by
  refine ⟨h.printed_eq, ?_⟩
  rw [h.isDone_eq, ← any_upToDone, List.any_eq_true]

theorem Sound.isDone_iff (h : Sound b before steps history r handed passed) :
    r.view.isDone = true ↔ ∃ m ∈ r.printed, m.isDone = true := by
  rw [h.isDone_eq, List.any_eq_true]

/-- A show of a session that is over is about to print its history to the end. -/
theorem Sound.shows_over (h : Sound b before steps history r handed passed) (hopen : b.isOpen = true)
    (hsteps : b.Accepted steps) (hover : history.any SetupMilestone.isDone = true) :
    r.Shows (upToDone history) 0 where
  so_far := by
    rw [← upToDone_append_of_any hover]
    exact (prefix_upToDone h.prefix_taken h.upToDone_eq).1
  isDone_iff := h.isDone_iff
  complete ms _ := (h.runUntil_over hopen hsteps hover _ _ (by omega)).complete

/-- A show that is not too far behind is about to print what the log tells. -/
theorem Sound.shows_all (h : Sound b before steps history r handed passed) (hopen : b.isOpen = true)
    (hsteps : b.Accepted steps) {followed : List UInt8}
    (hlog : r.view.log.disk.log = before ++ followed)
    (hnear : r.view.isDone = false → r.behind ≤ liveCapacity) :
    r.Shows (upToDone (history ++ stepsFrom (steps.length + 1) (logMatches followed)))
      Tail.openRetryDelay where
  so_far := (prefix_upToDone (h.prefix_all (h.log.told_prefix_of hlog)) h.upToDone_eq).1
  isDone_iff := h.isDone_iff
  complete ms hms := by
    have heffort := FollowedLog.effort_lt_stepBound r.view.log ms
    have hmatches : (logMatches followed).length ≤ r.view.log.stepBound ms := by
      have hbytes := FollowedLog.length_log_le r.view.log.disk
      have htold := length_logMatches_le followed
      rw [hlog, List.length_append] at hbytes
      unfold FollowedLog.stepBound
      dsimp only
      omega
    exact (h.runUntil_all hopen hsteps (Nat.add_le_add_left hms _) _ hlog h.log.timely.informed
      (Nat.le_add_right _ _) hnear (by omega)).complete

theorem log_of_take? {s s' : SetupShow} {m : SetupMilestone} (h : s.take? = some (m, s')) :
    s'.log = s.log := by
  unfold SetupShow.take? at h
  split at h
  · cases h
  · split at h
    · cases h
      rfl
    · cases h

theorem log_on (hplace : r.view.log.disk.place ≠ .directory) (event : Event) :
    (r.on event).view.log.disk.log = r.view.log.disk.log ++ added [event] ∧
      (r.on event).view.log.disk.place ≠ .directory := by
  have hnone : r.view.log.disk.log = r.view.log.disk.log ++ [] := (List.append_nil _).symm
  cases event with
  | log event =>
    have hadded : added [.log event] = FollowedLog.added [event] := List.append_nil _
    rw [hadded]
    exact FollowedLog.log_on hplace event
  | publishFirst count =>
    change (r.view.log.publishFirst count).disk.log = _ ∧
      (r.view.log.publishFirst count).disk.place ≠ _
    rw [FollowedLog.disk_publishFirst]
    exact ⟨hnone, hplace⟩
  | take =>
    unfold on
    dsimp only
    split
    · exact ⟨hnone, hplace⟩
    · split
      · exact ⟨hnone, hplace⟩
      · next m view htake =>
        rw [log_of_take? htake]
        exact ⟨hnone, hplace⟩

/-- The log is what it was with everything that was added. -/
theorem log_run (hplace : r.view.log.disk.place ≠ .directory) (events : List Event) :
    (r.run events).view.log.disk.log = r.view.log.disk.log ++ added events ∧
      (r.run events).view.log.disk.place ≠ .directory := by
  induction events using List.reverseRecOn with
  | nil => exact ⟨(List.append_nil _).symm, hplace⟩
  | append_singleton events event ih =>
    obtain ⟨hlog, hstill⟩ := ih
    have hadded : added (events ++ [event]) = added events ++ added [event] := List.flatMap_append
    obtain ⟨hnext, hplace'⟩ := log_on hstill event
    rw [run_concat, hnext, hlog, hadded, List.append_assoc]
    exact ⟨rfl, hplace'⟩

/-- A show of a log that can be read starts with the history that it was asked for. -/
theorem exists_start (path : String) (capacity : Nat) {disk : Disk}
    (hplace : disk.place ≠ .directory) (history : Int) :
    ∃ b view, SetupShow.start path capacity disk history = .ok view ∧ view.log.disk = disk ∧
      b.isOpen = true ∧ b.Accepted (stepsFrom 1 (session disk.log)) ∧
      Sound b (completePart disk.log) (stepsFrom 1 (session disk.log))
        (asked history ((session disk.log).getLast? == some .finished).toNat
          (kept capacity disk.log)) { view } [] 0 := by
  have hcreated : (Broadcaster.create capacity).isOpen = true := rfl
  have hload : (Broadcaster.create capacity).loadLastSession path disk.read =
      (.ok ⟨(completePart disk.log).length, (session disk.log).getLast? == some .finished⟩,
        ((Broadcaster.create capacity).publishAll (session disk.log)).2) :=
    Broadcaster.loadLastSession_eq hcreated hplace path
  obtain ⟨haccepted, hcapacity⟩ :=
    Broadcaster.publishAll_steps hcreated (session disk.log) (Broadcaster.create_accepted capacity)
  have hopen := (Broadcaster.publishAll_of_isOpen hcreated (session disk.log)).2
  generalize ((Broadcaster.create capacity).publishAll (session disk.log)).2 = b
    at hload haccepted hcapacity hopen
  rw [List.nil_append] at haccepted
  have hhistory : b.history = kept capacity disk.log := by
    rw [haccepted.history_eq, hcapacity]
    rfl
  have hsound := start_sound hplace hopen haccepted
    ((session disk.log).getLast? == some .finished)
    (sessionReplay history ((session disk.log).getLast? == some .finished))
  rw [hhistory, lastOf_sessionReplay] at hsound
  · refine ⟨b, _, ?_, ?_, hopen, haccepted, hsound⟩
    · rw [SetupShow.start, hload]
      rfl
    · rfl
  · intro hover
    rw [beq_iff_eq] at hover
    rw [kept, ne_eq, lastOf_eq_nil_iff (Nat.le_max_right _ _), ← List.length_eq_zero_iff,
      length_stepsFrom, List.length_eq_zero_iff]
    intro hnil
    rw [hnil] at hover
    cases hover

/-- A show of a log that can be read starts, and goes on as it was asked to. -/
theorem start_showsBringUp (path : String) (capacity : Nat) {disk : Disk}
    (hplace : disk.place ≠ .directory) (history : Int) (events : List Event) :
    ∃ view, SetupShow.start path capacity disk history = .ok view ∧
      ShowsBringUp capacity history disk.log { view } events := by
  obtain ⟨b, view, hstart, hdisk, hopen, haccepted, hsound⟩ :=
    exists_start path capacity hplace history
  refine ⟨view, hstart, ?_, ?_⟩
  · intro hover
    obtain ⟨before, last, hasked, hlast, hbefore⟩ := asked_finished hover capacity history
    have hfinished : ((session disk.log).getLast? == some .finished).toNat = 1 := by rw [hover]; rfl
    have hnone : before.any SetupMilestone.isDone = false := by
      simpa only [List.any_eq_false, Bool.not_eq_true] using hbefore
    have hany : (asked history 1 (kept capacity disk.log)).any SetupMilestone.isDone = true := by
      rw [hasked, List.any_append, List.any_cons, hlast, Bool.true_or, Bool.or_true]
    rw [hfinished] at hsound
    obtain ⟨handed, passed, hrun⟩ := hsound.run hopen haccepted events
      fun earlier handed passed _ h hgoing hnil => absurd hnil (h.replayed_ne_nil hany hgoing)
    have hshows := hrun.shows_over hopen haccepted hany
    rw [hasked, upToDone_concat hnone, ← hasked] at hshows
    exact ⟨hshows, before, last, hasked, hlast, hbefore⟩
  · intro hgoing hnear
    have hunfinished : ((session disk.log).getLast? == some .finished).toNat = 0 := by
      rw [beq_eq_false_iff_ne.2 hgoing]
      rfl
    have hnone : (asked history 0 (kept capacity disk.log)).any SetupMilestone.isDone = false := by
      simpa only [List.any_eq_false, Bool.not_eq_true] using
        asked_unfinished hgoing capacity history
    rw [hunfinished] at hsound
    obtain ⟨handed, passed, hrun⟩ := hsound.run hopen haccepted events
      fun earlier _ _ hearlier _ hgoing _ => hnear earlier hearlier hgoing
    have hlog : (({ view } : RecordedShow).run events).view.log.disk.log =
        completePart disk.log ++ (unfinishedLine disk.log ++ added events) := by
      rw [(log_run (hdisk ▸ hplace) events).1, ← List.append_assoc,
        completePart_append_unfinishedLine, ← hdisk]
    have hshows := hrun.shows_all hopen haccepted hlog (hnear events List.prefix_rfl)
    rw [upToDone_append hnone, length_stepsFrom] at hshows
    exact hshows

/-- A log whose last line is cut off, of which one step is asked for; the line is completed later. -/
theorem cut_line_showsBringUp :
    let disk := Disk.create {} (Text.utf8Bytes
      "Setup wallets\nStart shell\nSetup wallets\nCreate wallets\nUnlock wal")
    let events := [.log (.append (Text.utf8Bytes "lets\nStart shell\nSetup wallets\n")),
      .log .follow, .take, .publishFirst 1, .take]
    disk.place ≠ .directory ∧
      asked 1 0 (kept 4 disk.log) ++ upToDone (later disk.log (added events)) =
        [{ seq := 2, status := "Create wallets", details := none },
         { seq := 3, status := "Unlock wallets", details := none },
         { seq := 4, status := "Done", details := none }] ∧
      ∃ view, SetupShow.start "setup.log" 4 disk 1 = .ok view ∧
        ShowsBringUp 4 1 disk.log { view } events :=
  ⟨by decide, by decide +kernel, start_showsBringUp "setup.log" 4 (by decide) 1 _⟩

/-- Nothing is asked for of a session that is over and longer than what is kept. -/
example : asked 0 1 (kept 2 (Text.utf8Bytes "Setup wallets\nUnlock wallets\nStart shell\n")) =
    [{ seq := 3, status := "Done", details := none }] := by
  decide +kernel

end RecordedShow

end FleetWatch
