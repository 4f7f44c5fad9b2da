import FleetWatch.Proofs.Setup.Accepted
import FleetWatch.Proofs.Setup.FollowerStep
import FleetWatch.Setup.Publishing
import Mathlib.Data.List.Induction
/-!
Following a log that is only added to.

A follower has an open file in hand with a part of the log that it took, bytes that it read ahead and
the rest of the log.  The part taken tells the lines that it completed and the line it is in; that is
the invariant of the following, and it holds however the additions fall between the steps.
-/

namespace FleetWatch

/-- The bytes at the path, none if nothing is there. -/
def Disk.log (d : Disk) : List UInt8 :=
  match d.place with
  | .file id => d.contents id
  | _ => []

namespace Disk

theorem contents_setContents (d : Disk) (id : Nat) (bytes : List UInt8) :
    (d.setContents id bytes).contents id = bytes := by
  simp [contents, setContents]

theorem contents_create (d : Disk) (bytes : List UInt8) :
    (d.create bytes).contents d.nextId = bytes := by
  simp [contents, create]

theorem log_eq_contents {d : Disk} {id : Nat} (h : d.place = .file id) :
    d.log = d.contents id := by
  rw [log, h]

/-- What is added stands at the end of the log. -/
theorem log_append {d : Disk} (h : d.place ≠ .directory) (bytes : List UInt8) :
    (d.append bytes).log = d.log ++ bytes := by
  cases hp : d.place with
  | absent =>
    rw [append, hp, log, log, hp, List.nil_append]
    exact d.contents_create bytes
  | directory => exact absurd hp h
  | file id =>
    rw [append, hp, log, log, hp]
    simp only [setContents, hp]
    exact d.contents_setContents id _

/-- A file that is added to stays at the path. -/
theorem place_append {d : Disk} {id : Nat} (h : d.place = .file id) (bytes : List UInt8) :
    (d.append bytes).place = .file id := by
  rw [append, h]
  exact h

theorem place_append_ne {d : Disk} (h : d.place ≠ .directory) (bytes : List UInt8) :
    (d.append bytes).place ≠ .directory := by
  cases hp : d.place with
  | absent =>
    rw [append, hp]
    exact Place.noConfusion
  | directory => exact absurd hp h
  | file id =>
    rw [place_append hp]
    exact Place.noConfusion

theorem read_eq_ok {d : Disk} {id : Nat} (h : d.place = .file id) : d.read = .ok d.log := by
  rw [read, h, log_eq_contents h]

end Disk

namespace Tail

/-- An open file has the part `taken` of a log behind it, which completes some lines. -/
structure OpenFile.HasTaken (file : OpenFile) (log before taken : List UInt8)
    (lines : List String) : Prop where
  log_eq : ∃ after, log = before ++ taken ++ file.ahead ++ after
  position_eq : file.position = (before ++ taken).length
  next_eq : file.next = (before ++ taken ++ file.ahead).length
  pending_eq : file.pending = unfinishedLine taken
  lines_eq : lines = (completeLines taken).map decodeLine

namespace OpenFile.HasTaken

variable {file : OpenFile} {log before taken : List UInt8} {lines : List String}

theorem append (h : file.HasTaken log before taken lines) (bytes : List UInt8) :
    file.HasTaken (log ++ bytes) before taken lines := by
  obtain ⟨after, rfl⟩ := h.log_eq
  exact { h with log_eq := ⟨after ++ bytes, List.append_assoc _ _ _⟩ }

theorem position_le (h : file.HasTaken log before taken lines) : file.position ≤ log.length := by
  obtain ⟨after, rfl⟩ := h.log_eq
  simp only [h.position_eq, List.length_append]
  omega

/-- The lines taken are the first ones of what is left of the log. -/
theorem lines_prefix (h : file.HasTaken log before taken lines) :
    ∃ followed, log = before ++ followed ∧ lines <+: (completeLines followed).map decodeLine := by
  obtain ⟨after, hlog⟩ := h.log_eq
  refine ⟨taken ++ (file.ahead ++ after), by simpa only [List.append_assoc] using hlog, ?_⟩
  rw [h.lines_eq, completeLines_append, List.map_append]
  exact List.prefix_append _ _

/-- What is read next is what comes next in the log, whatever stands before the part that is read. -/
theorem more_eq {disk : Disk} (h : file.HasTaken log before taken lines)
    (hrest : (disk.contents file.id).drop before.length = log.drop before.length)
    (hahead : file.ahead = []) :
    ∃ after, log = before ++ taken ++ after ∧ file.more disk = after.take readSize := by
  obtain ⟨after, hlog⟩ := h.log_eq
  have hnext := h.next_eq
  rw [hahead, List.append_nil] at hlog hnext
  refine ⟨after, hlog, ?_⟩
  rw [OpenFile.more, hnext, List.length_append, ← List.drop_drop, hrest, hlog, List.append_assoc,
    List.drop_left, List.drop_left]

theorem readMore_of_drop {disk : Disk} (h : file.HasTaken log before taken lines)
    (hrest : (disk.contents file.id).drop before.length = log.drop before.length)
    (hahead : file.ahead = []) : (file.readMore disk).HasTaken log before taken lines := by
  obtain ⟨after, hlog, hmore⟩ := h.more_eq hrest hahead
  have hnext := h.next_eq
  rw [hahead, List.append_nil] at hnext
  refine ⟨⟨after.drop readSize, ?_⟩, h.position_eq, ?_, h.pending_eq, h.lines_eq⟩
  · simp only [OpenFile.readMore, hmore]
    rw [List.append_assoc, List.take_append_drop, hlog]
  · simp only [OpenFile.readMore, hnext, List.length_append]

/-- Reading more takes what comes next in the log. -/
theorem readMore {disk : Disk} (h : file.HasTaken disk.log before taken lines)
    (hfile : disk.place = .file file.id) (hahead : file.ahead = []) :
    (file.readMore disk).HasTaken disk.log before taken lines :=
  h.readMore_of_drop (by rw [Disk.log_eq_contents hfile]) hahead

/-- Taking bytes without a line feed lengthens the line that the file is in. -/
theorem takeAll (h : file.HasTaken log before taken lines) (hnone : 10 ∉ file.ahead) :
    file.takeAll.HasTaken log before (taken ++ file.ahead) lines := by
  obtain ⟨hlines, hpending⟩ := completeLines_append_of_not_mem hnone taken
  obtain ⟨after, hlog⟩ := h.log_eq
  refine ⟨⟨after, ?_⟩, ?_, ?_, ?_, ?_⟩
  · simpa only [OpenFile.takeAll, List.append_assoc, List.nil_append] using hlog
  · simp only [OpenFile.takeAll, h.position_eq, List.length_append]
    omega
  · simp only [OpenFile.takeAll, h.next_eq, List.append_assoc, List.append_nil]
  · simp only [OpenFile.takeAll, hpending, h.pending_eq]
  · rw [hlines, h.lines_eq]

/-- Taking bytes up to a line feed completes the line that the file is in. -/
theorem takeLine (h : file.HasTaken log before taken lines) {line rest : List UInt8}
    (hnone : 10 ∉ line) (hahead : file.ahead = line ++ 10 :: rest) :
    (file.takeLine line rest).HasTaken log before (taken ++ (line ++ [10]))
      (lines ++ [decodeLine (file.pending ++ (line ++ [10]))]) := by
  obtain ⟨hlines, hpending⟩ := completeLines_append_feed hnone taken
  obtain ⟨after, hlog⟩ := h.log_eq
  have hnext := h.next_eq
  rw [hahead] at hlog hnext
  refine ⟨⟨after, ?_⟩, ?_, ?_, hpending.symm, ?_⟩
  · simpa only [OpenFile.takeLine, List.append_assoc, List.cons_append, List.nil_append] using hlog
  · simp only [OpenFile.takeLine, h.position_eq, List.length_append]
    omega
  · simpa only [OpenFile.takeLine, List.append_assoc, List.cons_append, List.nil_append] using hnext
  · rw [hlines, h.lines_eq, h.pending_eq, List.map_append, List.map_singleton, ← List.append_assoc,
      decodeLine_append_feed]

end OpenFile.HasTaken

namespace Follower

variable {f f' : Follower} {disk : Disk} {before : List UInt8} {lines sent : List String}

/-- The line that is complete and not delivered yet. -/
def completed (f : Follower) : List String :=
  match f.phase with
  | .delivering _ line => [line]
  | _ => []

/-- The follower goes on in the log after `before`, and completed `lines`. -/
def Follows (f : Follower) (disk : Disk) (before : List UInt8) (lines : List String) : Prop :=
  match f.phase with
  | .opening | .retrying _ => f.offset = before.length ∧ before <+: disk.log ∧ lines = []
  | .reading file | .delivering file _ =>
    disk.place = .file file.id ∧ ∃ taken, file.HasTaken disk.log before taken lines
  | .resting file _ =>
    disk.place = .file file.id ∧ file.ahead = [] ∧
      ∃ taken, file.HasTaken disk.log before taken lines
  | .stopped => False

/-- The follower waits no longer than it is told to. -/
def Timely (f : Follower) (now : Nat) : Prop :=
  match f.phase with
  | .retrying due => due ≤ now + openRetryDelay
  | .resting _ due => due ≤ now + pollInterval
  | _ => True

theorem Timely.mono {now later : Nat} (h : f.Timely now) (hle : now ≤ later) : f.Timely later := by
  unfold Timely at h ⊢
  split at h
  · omega
  · omega
  · trivial

theorem Step.timely {now : Nat} (step : Step disk now f f') : f'.Timely now := by
  cases step with
  | missing was place => exact Nat.le_refl _
  | barred was place => exact Nat.le_refl _
  | rest file was ahead atEnd => exact Nat.le_refl _
  | recheck file due was passed =>
    unfold Follower.recheck
    split
    · split <;> exact trivial
    · exact trivial
  | _ => exact trivial

theorem Follows.append (h : f.Follows disk before lines) (hplace : disk.place ≠ .directory)
    (bytes : List UInt8) : f.Follows (disk.append bytes) before lines := by
  unfold Follows at h ⊢
  rw [Disk.log_append hplace]
  split at h
  · exact ⟨h.1, h.2.1.trans (List.prefix_append _ _), h.2.2⟩
  · exact ⟨h.1, h.2.1.trans (List.prefix_append _ _), h.2.2⟩
  · obtain ⟨hfile, taken, htaken⟩ := h
    exact ⟨Disk.place_append hfile bytes, taken, htaken.append bytes⟩
  · obtain ⟨hfile, taken, htaken⟩ := h
    exact ⟨Disk.place_append hfile bytes, taken, htaken.append bytes⟩
  · obtain ⟨hfile, hahead, taken, htaken⟩ := h
    exact ⟨Disk.place_append hfile bytes, hahead, taken, htaken.append bytes⟩
  · exact h

/-- A log that is only added to is never opened again. -/
theorem recheck_eq {file : OpenFile} {taken : List UInt8} (hfile : disk.place = .file file.id)
    (h : file.HasTaken disk.log before taken lines) :
    f.recheck disk file = { f with phase := .reading file } := by
  have hposition := h.position_le
  rw [Disk.log_eq_contents hfile] at hposition
  simp only [recheck, hfile, true_and, if_pos hposition]

theorem Follows.of_reading {file : OpenFile} (h : f.Follows disk before (sent ++ f.completed))
    (hp : f.phase = .reading file) :
    disk.place = .file file.id ∧ ∃ taken, file.HasTaken disk.log before taken sent := by
  simpa only [Follows, completed, hp, List.append_nil] using h

theorem Follows.of_resting {file : OpenFile} {due : Nat}
    (h : f.Follows disk before (sent ++ f.completed)) (hp : f.phase = .resting file due) :
    disk.place = .file file.id ∧ file.ahead = [] ∧
      ∃ taken, file.HasTaken disk.log before taken sent := by
  simpa only [Follows, completed, hp, List.append_nil] using h

theorem Follows.of_delivering {file : OpenFile} {line : String}
    (h : f.Follows disk before (sent ++ f.completed)) (hp : f.phase = .delivering file line) :
    disk.place = .file file.id ∧ ∃ taken, file.HasTaken disk.log before taken (sent ++ [line]) := by
  simpa only [Follows, completed, hp] using h

theorem Follows.of_waiting (h : f.Follows disk before (sent ++ f.completed))
    (hp : f.phase = .opening ∨ ∃ due, f.phase = .retrying due) :
    f.offset = before.length ∧ before <+: disk.log ∧ sent = [] := by
  rcases hp with hp | ⟨due, hp⟩ <;> simpa only [Follows, completed, hp, List.append_nil] using h

/-- A step sends at most the line that it completed, and the follower goes on. -/
theorem Step.follows {now : Nat} (step : Step disk now f f') (hplace : disk.place ≠ .directory)
    (h : f.Follows disk before (sent ++ f.completed)) :
    ∃ newly, f'.lines = { f.lines with items := f.lines.items ++ newly } ∧
      f'.Follows disk before (sent ++ newly ++ f'.completed) := by
  cases step with
  | missing was place =>
    obtain ⟨hoffset, hbefore, rfl⟩ := h.of_waiting (Or.inl was)
    exact ⟨[], by simp, hoffset, hbefore, rfl⟩
  | barred was place => exact absurd place hplace
  | opened id was place =>
    obtain ⟨hoffset, ⟨after, hlog⟩, rfl⟩ := h.of_waiting (Or.inl was)
    refine ⟨[], by simp, place, [], ⟨after, ?_⟩, ?_, ?_, rfl, rfl⟩
    · simpa using hlog.symm
    · simpa using hoffset
    · simpa using hoffset
  | retry due was passed =>
    obtain ⟨hoffset, hbefore, rfl⟩ := h.of_waiting (Or.inr ⟨due, was⟩)
    exact ⟨[], by simp, hoffset, hbefore, rfl⟩
  | rest file was ahead atEnd =>
    obtain ⟨hfile, taken, htaken⟩ := h.of_reading was
    exact ⟨[], by simp, hfile, ahead, taken, by simpa [completed] using htaken⟩
  | readMore file was ahead more =>
    obtain ⟨hfile, taken, htaken⟩ := h.of_reading was
    exact ⟨[], by simp, hfile, taken, by simpa [completed] using htaken.readMore hfile ahead⟩
  | takeAll file was some none =>
    obtain ⟨hfile, taken, htaken⟩ := h.of_reading was
    exact ⟨[], by simp, hfile, _, by simpa [completed] using htaken.takeAll none⟩
  | takeLine file line rest was ahead none =>
    obtain ⟨hfile, taken, htaken⟩ := h.of_reading was
    exact ⟨[], by simp, hfile, _, by simpa [completed] using htaken.takeLine none ahead⟩
  | deliver file line was room =>
    obtain ⟨hfile, taken, htaken⟩ := h.of_delivering was
    exact ⟨[line], rfl, hfile, taken, by simpa [completed] using htaken⟩
  | recheck file due was passed =>
    obtain ⟨hfile, _, taken, htaken⟩ := h.of_resting was
    rw [recheck_eq hfile htaken]
    exact ⟨[], by simp, hfile, taken, by simpa [completed] using htaken⟩

/-- The lines that a follower completed are the first ones of what it follows. -/
theorem Follows.lines_prefix (h : f.Follows disk before lines) :
    ∃ followed, disk.log = before ++ followed ∧
      lines <+: (completeLines followed).map decodeLine := by
  unfold Follows at h
  split at h
  · obtain ⟨_, ⟨followed, hlog⟩, rfl⟩ := h
    exact ⟨followed, hlog.symm, List.nil_prefix⟩
  · obtain ⟨_, ⟨followed, hlog⟩, rfl⟩ := h
    exact ⟨followed, hlog.symm, List.nil_prefix⟩
  · exact h.2.choose_spec.lines_prefix
  · exact h.2.choose_spec.lines_prefix
  · exact h.2.2.choose_spec.lines_prefix
  · exact h.elim

end Follower

end Tail

/-! ### Publishing -/

namespace FollowedLog

/-- Publishing lines is publishing what they tell. -/
theorem publishLines_eq (b : Broadcaster) (lines : List String) :
    publishLines b lines = b.publishAll (lines.filterMap readSetupLine) := by
  induction lines generalizing b with
  | nil => rfl
  | cons line lines ih =>
    cases hm : readSetupLine line with
    | none => simp only [publishLines, hm, List.filterMap_cons, ih]
    | some m =>
      simp only [publishLines, hm, List.filterMap_cons, Broadcaster.publishAll]
      cases hb : b.publishMatch m with
      | error e => rfl
      | ok published => simp only [ih]

/-- Publishes the first of the lines that wait, and leaves the others waiting. -/
def publishFirst (l : FollowedLog) (count : Nat) : FollowedLog :=
  match l.broadcaster with
  | none => l
  | some b =>
    let lines := { l.follower.lines with items := l.follower.lines.items.drop count }
    match publishLines b (l.follower.lines.items.take count) with
    | (none, b) => { l with broadcaster := some b, follower := { l.follower with lines } }
    | (some _, b) =>
      { l with broadcaster := some b, isCancelled := true,
               follower := { l.follower with lines := lines.drop } }

/-- Handing over all the lines that wait is one way of publishing them. -/
theorem handOver_eq_publishFirst (l : FollowedLog) :
    l.handOver = l.publishFirst l.follower.lines.items.length := by
  unfold handOver publishFirst
  cases l.broadcaster with
  | none => rfl
  | some b =>
    rcases hpublished : publishLines b l.follower.lines.items with ⟨_ | fault, after⟩
    all_goals simp only [List.take_length, List.drop_length, hpublished]

/-- What can happen to a log that is followed. -/
inductive Event where
  /-- Somebody adds to the log. -/
  | append (bytes : List UInt8)
  /-- The follower goes on, if it can. -/
  | follow
  /-- The lines that wait are published. -/
  | publish
  | pass (ms : Nat)

/-- What happens does to a log that is followed. -/
def on (l : FollowedLog) : Event → FollowedLog
  | .append bytes => { l with disk := l.disk.append bytes }
  | .follow =>
    ((l.follower.step? l.disk l.now l.isCancelled).map fun f => { l with follower := f }).getD l
  | .publish => l.handOver
  | .pass ms => { l with now := l.now + ms }

/-- Several things that happen, in order. -/
def happen (l : FollowedLog) (events : List Event) : FollowedLog :=
  events.foldl on l

/-- Everything that is added to the log. -/
def added (events : List Event) : List UInt8 :=
  events.flatMap fun
    | .append bytes => bytes
    | _ => []

/-- The lines `handed` over of a log were published to a broadcaster, and the follower goes on after
them and those that wait. -/
structure Sound (b : Broadcaster) (before : List UInt8) (l : FollowedLog)
    (handed : List String) : Prop where
  published : l.broadcaster = some (b.publishAll (handed.filterMap readSetupLine)).2
  follows : l.follower.Follows l.disk before
    (handed ++ l.follower.lines.items ++ l.follower.completed)
  isCancelled : l.isCancelled = false
  readerGone : l.follower.lines.readerGone = false
  capacity : l.follower.lines.capacity = Tail.lineCapacity
  place : l.disk.place ≠ .directory
  timely : l.follower.Timely l.now

variable {b : Broadcaster} {before : List UInt8} {l : FollowedLog} {handed : List String}

theorem Sound.append (h : Sound b before l handed) (bytes : List UInt8) :
    Sound b before (l.on (.append bytes)) handed :=
  { h with
    follows := h.follows.append h.place bytes
    place := Disk.place_append_ne h.place bytes }

theorem Sound.stepFollower (h : Sound b before l handed) {f : Tail.Follower}
    (hstep : l.follower.step? l.disk l.now l.isCancelled = some f) :
    Sound b before { l with follower := f } handed := by
  rw [h.isCancelled] at hstep
  have step := Tail.Follower.step_of_step? h.readerGone hstep
  obtain ⟨newly, hlines, hfollows⟩ := step.follows h.place h.follows
  refine ⟨h.published, ?_, h.isCancelled, ?_, ?_, h.place, step.timely⟩
  · simpa only [hlines, List.append_assoc] using hfollows
  · simpa only [hlines] using h.readerGone
  · simpa only [hlines] using h.capacity

/-- An open broadcaster takes what the first lines that wait tell. -/
theorem Sound.publishFirst (h : Sound b before l handed) (hopen : b.isOpen = true) (count : Nat) :
    l.publishFirst count =
        { l with
          broadcaster := some (b.publishAll
            ((handed ++ l.follower.lines.items.take count).filterMap readSetupLine)).2
          follower :=
            { l.follower with
              lines := { l.follower.lines with items := l.follower.lines.items.drop count } } } ∧
      Sound b before (l.publishFirst count) (handed ++ l.follower.lines.items.take count) := by
  have hstill := (Broadcaster.publishAll_of_isOpen hopen (handed.filterMap readSetupLine)).2
  have hnone := (Broadcaster.publishAll_of_isOpen hstill
    ((l.follower.lines.items.take count).filterMap readSetupLine)).1
  have hall := Broadcaster.publishAll_append hopen (handed.filterMap readSetupLine)
    ((l.follower.lines.items.take count).filterMap readSetupLine)
  have heq : l.publishFirst count =
      { l with
        broadcaster := some (b.publishAll
          ((handed ++ l.follower.lines.items.take count).filterMap readSetupLine)).2
        follower :=
          { l.follower with
            lines := { l.follower.lines with items := l.follower.lines.items.drop count } } } := by
    unfold FollowedLog.publishFirst
    rw [List.filterMap_append, hall]
    simp only [h.published, publishLines_eq]
    generalize (b.publishAll (handed.filterMap readSetupLine)).2.publishAll
      ((l.follower.lines.items.take count).filterMap readSetupLine) = result at hnone ⊢
    obtain ⟨fault, after⟩ := result
    cases hnone
    rfl
  refine ⟨heq, ?_⟩
  rw [heq]
  refine ⟨rfl, ?_, h.isCancelled, h.readerGone, h.capacity, h.place, h.timely⟩
  rw [List.append_assoc handed, List.take_append_drop]
  exact h.follows

/-- An open broadcaster takes what the lines that wait tell. -/
theorem Sound.handOver (h : Sound b before l handed) (hopen : b.isOpen = true) :
    l.handOver =
        { l with
          broadcaster :=
            some (b.publishAll ((handed ++ l.follower.lines.items).filterMap readSetupLine)).2
          follower := { l.follower with lines := { l.follower.lines with items := [] } } } ∧
      Sound b before l.handOver (handed ++ l.follower.lines.items) := by
  have hfirst := h.publishFirst hopen l.follower.lines.items.length
  rwa [← handOver_eq_publishFirst, List.take_length, List.drop_length] at hfirst

theorem Sound.on (h : Sound b before l handed) (hopen : b.isOpen = true) (event : Event) :
    ∃ newly, Sound b before (l.on event) (handed ++ newly) := by
  cases event with
  | append bytes => exact ⟨[], by simpa only [List.append_nil] using h.append bytes⟩
  | follow =>
    refine ⟨[], ?_⟩
    rw [List.append_nil]
    cases hstep : l.follower.step? l.disk l.now l.isCancelled with
    | some f =>
      rw [FollowedLog.on, hstep]
      exact h.stepFollower hstep
    | none =>
      rw [FollowedLog.on, hstep]
      exact h
  | publish => exact ⟨_, (h.handOver hopen).2⟩
  | pass ms =>
    refine ⟨[], ?_⟩
    rw [List.append_nil]
    exact { h with timely := h.timely.mono (Nat.le_add_right _ _) }

/-- However the steps fall between the additions, what was published is what some lines tell. -/
theorem Sound.happen (h : Sound b before l handed) (hopen : b.isOpen = true)
    (events : List Event) : ∃ newly, Sound b before (l.happen events) (handed ++ newly) := by
  induction events generalizing l handed with
  | nil =>
    refine ⟨[], ?_⟩
    rw [List.append_nil]
    exact h
  | cons event events ih =>
    obtain ⟨first, hfirst⟩ := h.on hopen event
    obtain ⟨later, hlater⟩ := ih hfirst
    refine ⟨first ++ later, ?_⟩
    rw [← List.append_assoc]
    exact hlater

theorem disk_publishFirst (l : FollowedLog) (count : Nat) : (l.publishFirst count).disk = l.disk := by
  unfold FollowedLog.publishFirst
  split
  · rfl
  · dsimp only
    split <;> rfl

theorem disk_handOver (l : FollowedLog) : l.handOver.disk = l.disk := by
  rw [handOver_eq_publishFirst, disk_publishFirst]

theorem log_on (h : l.disk.place ≠ .directory) (event : Event) :
    (l.on event).disk.log = l.disk.log ++ added [event] ∧
      (l.on event).disk.place ≠ .directory := by
  cases event with
  | append bytes =>
    refine ⟨?_, Disk.place_append_ne h bytes⟩
    simpa [FollowedLog.on, added] using Disk.log_append h bytes
  | follow =>
    cases hstep : l.follower.step? l.disk l.now l.isCancelled with
    | some f =>
      simp only [FollowedLog.on, hstep]
      exact ⟨(List.append_nil _).symm, h⟩
    | none =>
      simp only [FollowedLog.on, hstep]
      exact ⟨(List.append_nil _).symm, h⟩
  | publish =>
    simp only [FollowedLog.on, disk_handOver]
    exact ⟨(List.append_nil _).symm, h⟩
  | pass ms => exact ⟨(List.append_nil _).symm, h⟩

/-- The log is what it was with everything that was added. -/
theorem log_happen (h : l.disk.place ≠ .directory) (events : List Event) :
    (l.happen events).disk.log = l.disk.log ++ added events := by
  induction events generalizing l with
  | nil => exact (List.append_nil _).symm
  | cons event events ih =>
    obtain ⟨hlog, hplace⟩ := log_on h event
    have hadded : added (event :: events) = added [event] ++ added events := by simp [added]
    rw [hadded, ← List.append_assoc, ← hlog]
    exact ih hplace

/-- The lines that a follower completed begin those of the log after the part it leaves out. -/
theorem Sound.handed_prefix (h : Sound b before l handed) :
    ∃ followed, l.disk.log = before ++ followed ∧
      handed <+: (completeLines followed).map decodeLine := by
  have hfollows := h.follows
  generalize hlines : handed ++ l.follower.lines.items ++ l.follower.completed = lines at hfollows
  have hprefix : handed <+: lines := by
    rw [← hlines, List.append_assoc]
    exact List.prefix_append _ _
  obtain ⟨followed, hlog, hfollowed⟩ := hfollows.lines_prefix
  exact ⟨followed, hlog, hprefix.trans hfollowed⟩

theorem Sound.room_of_step (h : Sound b before l handed)
    (hroom : l.follower.lines.items.length ≤ Tail.lineCapacity) {f : Tail.Follower}
    (hstep : l.follower.step? l.disk l.now l.isCancelled = some f) :
    f.lines.items.length ≤ Tail.lineCapacity := by
  have hcapacity := (h.stepFollower hstep).capacity
  rw [h.isCancelled] at hstep
  rw [← h.capacity] at hroom
  rw [← hcapacity]
  exact (Tail.Follower.step_of_step? h.readerGone hstep).room hroom

theorem Sound.room_step (h : Sound b before l handed) (hopen : b.isOpen = true)
    (hroom : l.follower.lines.items.length ≤ Tail.lineCapacity) {l' : FollowedLog}
    (hstep : l.step? = some l') : l'.follower.lines.items.length ≤ Tail.lineCapacity := by
  unfold step? at hstep
  split at hstep
  · cases hstep
    rw [(h.handOver hopen).1]
    exact Nat.zero_le _
  · obtain ⟨f, hf, rfl⟩ := Option.map_eq_some_iff.1 hstep
    exact h.room_of_step hroom hf

theorem Sound.room_on (h : Sound b before l handed) (hopen : b.isOpen = true)
    (hroom : l.follower.lines.items.length ≤ Tail.lineCapacity) (event : Event) :
    (l.on event).follower.lines.items.length ≤ Tail.lineCapacity := by
  cases event with
  | append bytes => exact hroom
  | pass ms => exact hroom
  | publish =>
    rw [FollowedLog.on, (h.handOver hopen).1]
    exact Nat.zero_le _
  | follow =>
    cases hstep : l.follower.step? l.disk l.now l.isCancelled with
    | none =>
      rw [FollowedLog.on, hstep]
      exact hroom
    | some f =>
      rw [FollowedLog.on, hstep]
      exact h.room_of_step hroom hstep

end FollowedLog

end FleetWatch
