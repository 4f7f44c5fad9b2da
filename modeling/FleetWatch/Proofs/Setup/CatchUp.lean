import FleetWatch.Proofs.Setup.Following
import FleetWatch.Proofs.Setup.LogMatches
/-!
Catching up with a log that nobody adds to any more.

A follower that is left alone reads the log to its end: every step uses up bytes that are not read,
a line that is not published or a time to look again, so the steps that a stretch of time can take
are enough.  A follower that rests after that has taken everything, and what it took is published.
-/

namespace FleetWatch

namespace Tail

/-- How often a follower can look again after a time. -/
def looks (deadline time : Nat) : Nat :=
  (deadline + pollInterval - time) / pollInterval

theorem looks_succ {deadline time : Nat} (h : time ≤ deadline) :
    looks deadline time = looks deadline (time + pollInterval) + 1 := by
  simp only [looks, pollInterval]
  omega

theorem looks_anti (deadline : Nat) {time later : Nat} (h : time ≤ later) :
    looks deadline later ≤ looks deadline time := by
  simp only [looks, pollInterval]
  omega

namespace Follower

/-- A bound on the steps up to a deadline: four for each byte of the log that is not read and three
for each that is not taken, four for each look, and a few for what is under way. -/
def effort (f : Follower) (deadline now size : Nat) : Nat :=
  match f.phase with
  | .opening => 4 * (size - f.offset) + 4 * looks deadline (now + pollInterval) + 3
  | .retrying due =>
    4 * (size - f.offset) + 4 * looks deadline (max due now) + if now < due then 1 else 0
  | .reading file =>
    4 * (size - file.next) + 3 * file.ahead.length + 4 * looks deadline (now + pollInterval) + 2
  | .delivering file _ =>
    4 * (size - file.next) + 3 * file.ahead.length + 4 * looks deadline (now + pollInterval) + 4
  | .resting file due =>
    4 * (size - file.next) + 3 * file.ahead.length + 4 * looks deadline (max due now) +
      if now < due then 1 else 0
  | .stopped => 0

/-- Whether lines wait to be published. -/
def backlog (lines : Channel String) : Nat :=
  if lines.items = [] then 0 else 1

/-- A follower that waits found nothing more, if it has looked since a time. -/
def Informed (f : Follower) (disk : Disk) (start : Nat) : Prop :=
  match f.phase with
  | .retrying due => disk.place = .absent ∨ due ≤ start + openRetryDelay
  | .resting file due => file.next = disk.log.length ∨ due ≤ start + pollInterval
  | _ => True

variable {f f' : Follower} {disk : Disk} {before : List UInt8} {sent : List String}
variable {deadline now start : Nat}

theorem backlog_le (lines : Channel String) : backlog lines ≤ 1 := by
  unfold backlog
  split <;> omega

theorem length_more {file : OpenFile} (hfile : disk.place = .file file.id) :
    (file.more disk).length ≤ disk.log.length - file.next := by
  rw [Disk.log_eq_contents hfile, OpenFile.more, List.length_take, List.length_drop]
  exact Nat.min_le_right _ _

theorem next_eq_of_more {file : OpenFile} {taken : List UInt8} {lines : List String}
    (hfile : disk.place = .file file.id) (htaken : file.HasTaken disk.log before taken lines)
    (hend : file.more disk = []) : file.next = disk.log.length := by
  obtain ⟨after, hlog⟩ := htaken.log_eq
  have hnext := htaken.next_eq
  rw [OpenFile.more, ← Disk.log_eq_contents hfile, hnext, hlog, List.drop_left,
    List.take_eq_nil_iff] at hend
  rw [hnext, hlog, hend.resolve_left (by decide), List.append_nil]

/-- Every step takes some of the effort. -/
theorem Step.effort_lt (step : Step disk now f f') (hplace : disk.place ≠ .directory)
    (hnow : now ≤ deadline) (h : f.Follows disk before (sent ++ f.completed)) :
    backlog f'.lines + f'.effort deadline now disk.log.length <
      backlog f.lines + f.effort deadline now disk.log.length := by
  cases step with
  | missing was place =>
    have hlater := looks_anti deadline (show now + pollInterval ≤ max (now + openRetryDelay) now by
      simp only [pollInterval, openRetryDelay]; omega)
    have hone : (if now < now + openRetryDelay then 1 else 0) ≤ 1 := by split <;> omega
    simp only [effort, was]
    omega
  | barred was place => exact absurd place hplace
  | opened id was place =>
    simp only [effort, was, List.length_nil]
    omega
  | retry due was passed =>
    have hlook := looks_succ hnow
    simp only [effort, was, Nat.max_eq_right passed, if_neg (Nat.not_lt.mpr passed)]
    omega
  | rest file was ahead atEnd =>
    have hlater : max (now + pollInterval) now = now + pollInterval := by omega
    have hone : (if now < now + pollInterval then 1 else 0) ≤ 1 := by split <;> omega
    simp only [effort, was, hlater]
    omega
  | readMore file was ahead more =>
    have hmore := length_more (h.of_reading was).1
    have hpos := List.length_pos_iff.mpr more
    simp only [effort, was, OpenFile.readMore, ahead, List.length_nil]
    omega
  | takeAll file was some none =>
    have hpos := List.length_pos_iff.mpr some
    simp only [effort, was, OpenFile.takeAll, List.length_nil]
    omega
  | takeLine file line rest was ahead none =>
    simp only [effort, was, OpenFile.takeLine, ahead, List.length_append, List.length_cons]
    omega
  | deliver file line was room =>
    have hone := backlog_le (f.lines.send line)
    simp only [effort, was]
    omega
  | recheck file due was passed =>
    obtain ⟨hfile, _, taken, htaken⟩ := h.of_resting was
    have hlook := looks_succ hnow
    rw [recheck_eq hfile htaken]
    simp only [effort, was, Nat.max_eq_right passed, if_neg (Nat.not_lt.mpr passed)]
    omega

/-- A follower that comes to wait found the end of the log, or no log. -/
theorem Step.informed (step : Step disk now f f') (hplace : disk.place ≠ .directory)
    (h : f.Follows disk before (sent ++ f.completed)) : f'.Informed disk start := by
  cases step with
  | missing was place => exact Or.inl place
  | barred was place => exact absurd place hplace
  | rest file was ahead atEnd =>
    obtain ⟨hfile, taken, htaken⟩ := h.of_reading was
    exact Or.inl (next_eq_of_more hfile htaken atEnd)
  | recheck file due was passed =>
    obtain ⟨hfile, _, taken, htaken⟩ := h.of_resting was
    rw [recheck_eq hfile htaken]
    exact trivial
  | _ => exact trivial

/-- A follower that waits no longer than it is told to need not have looked before. -/
theorem Timely.informed (h : f.Timely now) : f.Informed disk now := by
  unfold Timely at h
  unfold Informed
  split
  all_goals simp_all

theorem phase_of_wake? {t : Nat} (h : f.wake? = some t) :
    f.phase = .retrying t ∨ ∃ file, f.phase = .resting file t := by
  unfold wake? at h
  split at h
  · next hp =>
    cases h
    exact Or.inl hp
  · next file _ hp =>
    cases h
    exact Or.inr ⟨file, hp⟩
  · cases h

/-- A follower that waits does so until a time to come, and the wait takes some of the effort. -/
theorem effort_lt_of_wake? {t : Nat} (deadline size : Nat) (hstep : f.step? disk now false = none)
    (hwake : f.wake? = some t) :
    now < t ∧ f.effort deadline t size < f.effort deadline now size := by
  unfold step? at hstep
  rcases phase_of_wake? hwake with hp | ⟨file, hp⟩
  all_goals
    have hlater : now < t := by
      simpa only [hp, Bool.false_eq_true, if_false, ite_eq_right_iff, reduceCtorEq, imp_false,
        Nat.not_le] using hstep
    refine ⟨hlater, ?_⟩
    simp only [effort, hp, Nat.max_self, Nat.max_eq_left (Nat.le_of_lt hlater), if_pos hlater,
      Nat.lt_irrefl, if_false]
    exact Nat.lt_succ_self _

end Follower

end Tail

namespace FollowedLog

/-- A bound on the steps up to a deadline. -/
def effort (deadline : Nat) (l : FollowedLog) : Nat :=
  Tail.Follower.backlog l.follower.lines + l.follower.effort deadline l.now l.disk.log.length

variable {b : Broadcaster} {before followed : List UInt8} {l l' : FollowedLog}
variable {handed : List String} {deadline start : Nat}

/-- A step publishes the lines that wait or goes on with the log, and takes some of the effort. -/
theorem Sound.step (h : Sound b before l handed) (hopen : b.isOpen = true)
    (hinformed : l.follower.Informed l.disk start) (hnow : l.now ≤ deadline)
    (hstep : l.step? = some l') :
    (∃ newly, newly.length ≤ l.follower.lines.items.length ∧
        Sound b before l' (handed ++ newly)) ∧
      l'.follower.Informed l'.disk start ∧ l'.now = l.now ∧ l'.disk = l.disk ∧
      l'.effort deadline < l.effort deadline := by
  unfold step? at hstep
  split at hstep
  · next hwaiting =>
    have hne : l.follower.lines.items ≠ [] := by
      simp only [Bool.and_eq_true, Bool.not_eq_true', List.isEmpty_eq_false_iff] at hwaiting
      exact hwaiting.2
    obtain ⟨heq, hsound⟩ := h.handOver hopen
    cases hstep
    refine ⟨⟨_, Nat.le_refl _, hsound⟩, ?_⟩
    rw [heq]
    refine ⟨hinformed, rfl, rfl, ?_⟩
    simp only [effort, Tail.Follower.backlog, if_neg hne, if_true]
    exact Nat.add_lt_add_right Nat.zero_lt_one _
  · obtain ⟨f, hf, rfl⟩ := Option.map_eq_some_iff.mp hstep
    refine ⟨⟨[], Nat.zero_le _, ?_⟩, ?_⟩
    · rw [List.append_nil]
      exact h.stepFollower hf
    · rw [h.isCancelled] at hf
      have step := Tail.Follower.step_of_step? h.readerGone hf
      exact ⟨step.informed h.place h.follows, rfl, rfl, step.effort_lt h.place hnow h.follows⟩

/-- What is handed over of a log begins what its complete lines tell. -/
theorem Sound.told_prefix_of (h : Sound b before l handed)
    (hlog : l.disk.log = before ++ followed) :
    handed.filterMap readSetupLine <+: logMatches followed := by
  obtain ⟨rest, hrest, hprefix⟩ := h.handed_prefix
  rw [hlog] at hrest
  obtain rfl := List.append_cancel_left hrest
  have htold := hprefix.filterMap readSetupLine
  rwa [List.filterMap_map] at htold

/-- Nothing waits to be published, and nothing can be done by the follower now. -/
theorem Sound.quiet (h : Sound b before l handed) (hstep : l.step? = none) :
    l.follower.lines.items = [] ∧ l.follower.step? l.disk l.now false = none := by
  have hnone : l.follower.lines.items = [] := by
    by_contra hne
    simp [step?, h.published, List.isEmpty_eq_false_iff.mpr hne] at hstep
  exact ⟨hnone, by simpa [step?, h.published, hnone, h.isCancelled] using hstep⟩

/-- A follower that waits on has completed every line, and each is published. -/
theorem Sound.handed_eq (h : Sound b before l handed) (hlog : l.disk.log = before ++ followed)
    (hinformed : l.follower.Informed l.disk start) (hstep : l.step? = none)
    (hwake : ∀ t, l.follower.wake? = some t → start + Tail.openRetryDelay < t) :
    handed = (completeLines followed).map decodeLine := by
  obtain ⟨hnone, hfollower⟩ := h.quiet hstep
  have hfollows := h.follows
  rw [hnone, List.append_nil] at hfollows
  unfold Tail.Follower.step? at hfollower
  cases hp : l.follower.phase with
  | opening => simp only [hp, reduceCtorEq] at hfollower
  | retrying due =>
    obtain ⟨_, ⟨after, hafter⟩, rfl⟩ := hfollows.of_waiting (Or.inr ⟨due, hp⟩)
    have hlate := hwake due (by simp only [Tail.Follower.wake?, hp])
    simp only [Tail.Follower.Informed, hp] at hinformed
    have habsent := hinformed.resolve_right (by omega)
    have hnil : followed = [] := by
      rw [Disk.log, habsent] at hlog
      exact (List.append_eq_nil_iff.mp hlog.symm).2
    rw [hnil]
    rfl
  | reading file => simp [hp] at hfollower
  | delivering file line =>
    have hroom : l.follower.lines.hasRoom = true := by
      simp only [Channel.hasRoom, hnone, h.capacity, List.length_nil, decide_eq_true_eq]
      decide
    simp [hp, h.readerGone, hroom] at hfollower
  | resting file due =>
    obtain ⟨_, hahead, taken, htaken⟩ := hfollows.of_resting hp
    have hlate := hwake due (by simp only [Tail.Follower.wake?, hp])
    simp only [Tail.Follower.Informed, hp] at hinformed
    have hend := hinformed.resolve_right (by
      simp only [Tail.openRetryDelay, Tail.pollInterval] at hlate ⊢
      omega)
    obtain ⟨after, hafter⟩ := htaken.log_eq
    have hall : followed = taken := by
      have hnext := htaken.next_eq
      rw [hahead, List.append_nil] at hafter hnext
      have hnil : after = [] := by
        rw [hend, hafter, List.length_append] at hnext
        exact List.length_eq_zero_iff.mp (by omega)
      rw [hnil, List.append_nil, hlog] at hafter
      exact List.append_cancel_left hafter
    rw [hall, htaken.lines_eq]
  | stopped => simp only [Tail.Follower.Follows, hp] at hfollows

/-- Within its effort a run publishes everything that the complete lines tell. -/
theorem Sound.runUntil_broadcaster (hopen : b.isOpen = true) (fuel : Nat)
    (h : Sound b before l handed) (hlog : l.disk.log = before ++ followed)
    (hinformed : l.follower.Informed l.disk start) (hnow : l.now ≤ deadline)
    (hlate : start + Tail.openRetryDelay ≤ deadline) (heffort : l.effort deadline < fuel) :
    (runUntil fuel deadline l).broadcaster = some (b.publishAll (logMatches followed)).2 := by
  induction fuel generalizing l handed with
  | zero => exact absurd heffort (Nat.not_lt_zero _)
  | succ fuel ih =>
    unfold runUntil
    split
    · next l' hstep =>
      obtain ⟨⟨newly, -, hsound⟩, hinformed', hsame, hdisk, hless⟩ :=
        h.step hopen hinformed hnow hstep
      exact ih hsound (hdisk ▸ hlog) hinformed' (hsame ▸ hnow) (by omega)
    · next hstep =>
      have hdone : (∀ t, l.follower.wake? = some t → deadline < t) →
          l.broadcaster = some (b.publishAll (logMatches followed)).2 := by
        intro hwake
        rw [h.published, h.handed_eq hlog hinformed hstep fun t ht => by
          have := hwake t ht
          omega]
        rw [List.filterMap_map]
        rfl
      split
      · next t hwake =>
        split
        · next hdue =>
          obtain ⟨hlater, hless⟩ := Tail.Follower.effort_lt_of_wake? deadline l.disk.log.length
            (h.quiet hstep).2 hwake
          refine ih (l := { l with now := t }) { h with timely := ?_ } hlog hinformed hdue ?_
          · exact h.timely.mono (Nat.le_of_lt hlater)
          · simp only [effort] at heffort ⊢
            omega
        · next hdue =>
          refine hdone fun t' ht' => ?_
          rw [hwake] at ht'
          cases ht'
          omega
      · next hwake =>
        refine hdone fun t ht => ?_
        rw [hwake] at ht
        cases ht

theorem length_log_le (d : Disk) : d.log.length ≤ (d.files.flatMap Prod.snd).length := by
  unfold Disk.log
  split
  · next id _ =>
    unfold Disk.contents
    cases hfind : d.files.find? fun f => f.1 == id with
    | none => exact Nat.zero_le _
    | some file =>
      rw [List.flatMap_def]
      refine (List.sublist_flatten_of_mem ?_).length_le
      exact List.mem_map_of_mem (List.mem_of_find?_eq_some hfind)
  · exact Nat.zero_le _

/-- The steps that a stretch of time is given are more than its effort. -/
theorem effort_lt_stepBound (l : FollowedLog) (ms : Nat) :
    l.effort (l.now + ms) < l.stepBound ms := by
  have hlog := length_log_le l.disk
  have hbacklog := Tail.Follower.backlog_le l.follower.lines
  have hlooks : ∀ due, Tail.looks (l.now + ms) (max due l.now) ≤ ms / Tail.pollInterval + 1 := by
    intro due
    simp only [Tail.looks, Tail.pollInterval]
    omega
  have hnext : Tail.looks (l.now + ms) (l.now + Tail.pollInterval) ≤ ms / Tail.pollInterval := by
    simp only [Tail.looks, Tail.pollInterval]
    omega
  have hwait : ∀ due, (if l.now < due then 1 else 0) ≤ 1 := by
    intro due
    split <;> omega
  unfold effort stepBound Tail.Follower.effort Tail.Follower.aheadLength
  cases l.follower.phase with
  | opening =>
    simp only
    omega
  | retrying due =>
    have := hlooks due
    have := hwait due
    simp only
    omega
  | reading file =>
    simp only
    omega
  | delivering file line =>
    simp only
    omega
  | resting file due =>
    have := hlooks due
    have := hwait due
    simp only
    omega
  | stopped =>
    simp only
    omega

/-- A log that is left alone for as long as a follower may wait is published to its end. -/
theorem Sound.elapse_broadcaster (h : Sound b before l handed) (hopen : b.isOpen = true)
    (hlog : l.disk.log = before ++ followed) {ms : Nat} (hms : Tail.openRetryDelay ≤ ms) :
    (l.elapse ms).broadcaster = some (b.publishAll (logMatches followed)).2 := by
  exact h.runUntil_broadcaster hopen _ hlog h.timely.informed (Nat.le_add_right _ _)
    (Nat.add_le_add_left hms _) (effort_lt_stepBound l ms)

end FollowedLog

end FleetWatch
