import FleetWatch.Proofs.Setup.CatchUp
import FleetWatch.Proofs.Setup.Rotation
/-!
Following a file that is only added to.

Such a file is opened once and never given up.  Main statement: what is delivered is at every moment
the first complete lines of the file from the follower's start on, and all of them each time that the
follower comes to the end, wherever the additions were cut (`run_deliversAdded`).
-/

namespace FleetWatch

namespace FollowedPath

variable {offset : Nat} {p p' : FollowedPath} {e : PathEvent}

/-- The complete lines of the file at the path from a byte on. -/
def linesFrom (p : FollowedPath) (offset : Nat) : List String :=
  (completeLines (p.disk.log.drop offset)).map decodeLine

/-- Whether the file at the path is only added to, and reaches to the follower's start when it is
opened. -/
def addsOnly (p : FollowedPath) : PathEvent → Bool
  | .append _ | .take _ | .pass _ => true
  | .follow => p.opensWithin
  | _ => false

theorem Turn.renamed_eq (turn : Turn p e p') : p'.renamed = p.renamed := by
  cases turn <;> rfl

theorem Turn.capacity_eq (turn : Turn p e p') :
    p'.follower.lines.capacity = p.follower.lines.capacity := by
  cases turn <;> rfl

theorem Turn.timely (turn : Turn p e p') (h : p.follower.Timely p.now) :
    p'.follower.Timely p'.now := by
  cases turn with
  | idle => exact h
  | missing | barred | rest | unread => exact Nat.le_refl _
  | _ => exact trivial

/-- What holds of a path at every moment if its file is only added to. -/
structure Added (offset : Nat) (p : FollowedPath) : Prop where
  rotated : Rotated offset p
  renamed_eq : p.renamed = []
  capacity : p.follower.lines.capacity = Tail.lineCapacity
  timely : p.follower.Timely p.now

theorem Added.on (h : Added offset p) (hok : p.addsOnly e = true) : Added offset (p.on e) := by
  have hrotates : p.rotatesOnly e = true := by
    cases e <;> first | exact hok | cases hok
  have hrotated := h.rotated.on hrotates
  cases e with
  | append bytes => exact ⟨hrotated, h.renamed_eq, h.capacity, h.timely⟩
  | follow =>
    have turn : Turn p .follow (p.on .follow) := follow_turn h.rotated.sound.readerGone
    exact ⟨hrotated, turn.renamed_eq.trans h.renamed_eq, turn.capacity_eq.trans h.capacity,
      turn.timely h.timely⟩
  | take count => exact ⟨hrotated, h.renamed_eq, h.capacity, h.timely⟩
  | pass ms => exact ⟨hrotated, h.renamed_eq, h.capacity, h.timely.mono (Nat.le_add_right _ _)⟩
  | _ => cases hok

theorem run_added (offset : Nat) {events : List PathEvent}
    (hok : (start offset).throughout addsOnly events = true) :
    Added offset ((start offset).run events) :=
  run_induction (fun _ _ hok h => h.on hok) ⟨start_rotated offset, rfl, rfl, trivial⟩ hok

theorem Added.sound (h : Added offset p) : Sound offset p :=
  h.rotated.sound

theorem Added.past_eq (h : Added offset p) : p.past = [] := by
  refine List.eq_nil_iff_forall_not_mem.mpr fun q hq => ?_
  obtain ⟨id, hreplaced⟩ := h.rotated.past q hq
  have hrenamed := hreplaced.mem_renamed
  rw [h.renamed_eq] at hrenamed
  cases hrenamed

/-- The file at hand is the one at the path. -/
theorem Added.place_eq (h : Added offset p) {o : Opening} (hcurrent : p.current = some o) :
    o.place = p.disk.place := by
  obtain ⟨_, _, id, hid, hat | hrenamed⟩ := h.rotated.current o hcurrent
  · exact hid.trans hat.symm
  · rw [h.renamed_eq] at hrenamed
    cases hrenamed

/-! ### What is delivered -/

/-- What is at hand is the whole file from the follower's start on. -/
theorem Added.of_current (h : Added offset p) {o : Opening} (hcurrent : p.current = some o) :
    o.start = offset ∧ o.rest = p.disk.log.drop offset ∧ p.delivered = o.lines := by
  have hopenings : p.openings = [o] := by
    rw [openings, h.past_eq, hcurrent]
    rfl
  have hstart := h.sound.first_start o (by rw [hopenings]; rfl)
  refine ⟨hstart, ?_, ?_⟩
  · have htext := h.rotated.text_eq o (by rw [hopenings]; exact List.mem_singleton_self o)
    rw [Opening.rest, hstart, htext, h.place_eq hcurrent, Disk.held_place]
  · rw [h.sound.delivered_eq, hopenings, List.flatMap_singleton]

/-- Before the file is opened nothing is delivered. -/
theorem Added.delivered_eq_nil (h : Added offset p) (hnone : p.current = none) :
    p.delivered = [] := by
  rw [h.sound.delivered_eq, openings, h.past_eq, hnone]
  rfl

theorem Added.delivered_prefix (h : Added offset p) : p.delivered <+: p.linesFrom offset := by
  cases hcurrent : p.current with
  | none =>
    rw [h.delivered_eq_nil hcurrent]
    exact List.nil_prefix
  | some o =>
    obtain ⟨_, hrest, hlines⟩ := h.of_current hcurrent
    rw [hlines, linesFrom, ← hrest]
    exact h.sound.lines_prefix o (by simp only [openings, hcurrent, Option.toList_some,
      List.mem_append, List.mem_singleton, or_true])

/-- A follower that finds the end of the file has delivered every complete line. -/
theorem Added.atEnd (h : Added offset p) {file : Tail.OpenFile}
    (was : p.follower.phase = .reading file) (hahead : file.ahead = [])
    (hend : file.more p.disk = []) :
    p.delivered = p.linesFrom offset ∧ file.pending = unfinishedLine (p.disk.log.drop offset) := by
  have hisAt := h.sound.isAt
  rw [was] at hisAt
  obtain ⟨o, taken, hcurrent, hcut, hreads⟩ := hisAt.of_reading
  obtain ⟨_, hrest, hlines⟩ := h.of_current hcurrent
  rw [linesFrom, ← hrest, hreads.rest_eq_taken hcut hahead hend, hlines]
  exact ⟨hreads.lines_eq, hreads.pending_eq⟩

/-- While the follower rests, that is so of what it polled. -/
theorem Added.rested (h : Added offset p) {file : Tail.OpenFile} {due : Nat}
    (was : p.follower.phase = .resting file due) :
    ∃ polled added, p.disk.log.drop offset = polled ++ added ∧
      file.position = offset + polled.length ∧
      p.delivered = (completeLines polled).map decodeLine ∧ file.pending = unfinishedLine polled := by
  have hisAt := h.sound.isAt
  rw [was] at hisAt
  obtain ⟨o, hcurrent, hahead, hreads⟩ := hisAt.of_resting
  obtain ⟨hstart, hrest, hlines⟩ := h.of_current hcurrent
  obtain ⟨added, hadded⟩ := hreads.taken_prefix
  rw [hahead, List.append_nil, hrest] at hadded
  refine ⟨o.found, added, hadded.symm, ?_, ?_, hreads.pending_eq⟩
  · rw [hreads.position_eq, hstart]
  · rw [hlines]
    exact hreads.lines_eq

/-! ### Catching up -/

/-- The reader takes all that waits, and the follower goes on after a while. -/
def round (p : FollowedPath) : FollowedPath :=
  p.run [.pass Tail.openRetryDelay, .take p.follower.lines.items.length, .follow]

/-- A bound on the rounds until the follower finds the end of a file of so many bytes. -/
def roundsLeft (size : Nat) : Tail.Phase → Nat
  | .retrying _ => 4 * size + 4
  | .opening => 4 * size + 3
  | .delivering file _ => 4 * (size - file.next) + 3 * file.ahead.length + 4
  | .resting file _ => 4 * (size - file.next) + 3 * file.ahead.length + 3
  | .reading file => 4 * (size - file.next) + 3 * file.ahead.length + 2
  | .stopped => 0

theorem disk_goOn (p : FollowedPath) (f : Tail.Follower) : (p.goOn f).disk = p.disk := by
  unfold goOn
  split
  · rfl
  · split <;> rfl
  · rfl
  · rfl
  · rfl
  · rfl

theorem follower_goOn (p : FollowedPath) (f : Tail.Follower) : (p.goOn f).follower = f := by
  unfold goOn
  split
  · rfl
  · split <;> rfl
  · rfl
  · rfl
  · rfl
  · rfl

/-- The file that the follower reads is the one at the path. -/
theorem Added.place_of_openFile (h : Added offset p) {file : Tail.OpenFile}
    (hfile : p.follower.openFile? = some file) : p.disk.place = .file file.id := by
  obtain ⟨o, taken, hcurrent, hreads⟩ := h.sound.reads hfile
  exact (h.place_eq hcurrent).symm.trans hreads.place_eq

/-- A follower that waited long enough, with room for another line, goes on. -/
theorem Added.step_isSome (h : Added offset p) (hroom : p.follower.lines.items = [])
    (hdue : ∀ t, p.follower.wake? = some t → t ≤ p.now) :
    (p.follower.step? p.disk p.now false).isSome = true := by
  unfold Tail.Follower.step?
  cases hp : p.follower.phase with
  | opening => rfl
  | retrying due =>
    have hpassed := hdue due (by simp only [Tail.Follower.wake?, hp])
    simp only [Bool.false_eq_true, if_false, if_pos hpassed, Option.isSome_some]
  | reading file => rfl
  | delivering file line =>
    have hroom : p.follower.lines.hasRoom = true := by
      simp only [Channel.hasRoom, hroom, h.capacity, List.length_nil, decide_eq_true_eq]
      decide
    simp only [h.sound.readerGone, Bool.false_eq_true, if_false, if_pos hroom, Option.isSome_some]
  | resting file due =>
    have hpassed := hdue due (by simp only [Tail.Follower.wake?, hp])
    simp only [Bool.false_eq_true, if_false, if_pos hpassed, Option.isSome_some]
  | stopped =>
    have hisAt := h.sound.isAt
    rw [hp] at hisAt
    cases hc : p.current <;> rw [hc] at hisAt <;> exact hisAt.elim

/-- Going on, a follower finds the end of the file or comes nearer to it. -/
theorem Added.roundsLeft_lt (h : Added offset p) (hplace : p.disk.place ≠ .absent)
    {f : Tail.Follower} (step : Tail.Follower.Step p.disk p.now p.follower f) :
    (∃ file, p.follower.phase = .reading file ∧ file.ahead = [] ∧ file.more p.disk = []) ∨
      roundsLeft p.disk.log.length f.phase < roundsLeft p.disk.log.length p.follower.phase := by
  cases step with
  | missing was place => exact absurd place hplace
  | barred was place => exact absurd place h.rotated.place_ne
  | rest file was ahead atEnd => exact Or.inl ⟨file, was, ahead, atEnd⟩
  | opened id was place =>
    simp only [roundsLeft, was, List.length_nil]
    omega
  | retry due was passed =>
    simp only [roundsLeft, was]
    omega
  | readMore file was ahead more =>
    have hfile : p.follower.openFile? = some file := by simp only [Tail.Follower.openFile?, was]
    have hmore := Tail.Follower.length_more (h.place_of_openFile hfile)
    have hpos := List.length_pos_iff.mpr more
    simp only [roundsLeft, was, Tail.OpenFile.readMore, ahead, List.length_nil]
    omega
  | takeAll file was some none =>
    have hpos := List.length_pos_iff.mpr some
    simp only [roundsLeft, was, Tail.OpenFile.takeAll, List.length_nil]
    omega
  | takeLine file line rest was ahead none =>
    simp only [roundsLeft, was, Tail.OpenFile.takeLine, ahead, List.length_append, List.length_cons]
    omega
  | deliver file line was room =>
    simp only [roundsLeft, was]
    omega
  | recheck file due was passed =>
    have hfile : p.follower.openFile? = some file := by simp only [Tail.Follower.openFile?, was]
    obtain ⟨o, _, hcurrent, _⟩ := h.sound.reads hfile
    obtain ⟨hcut, hstart, _⟩ := h.rotated.current o hcurrent
    have hwhole := h.sound.position_le was hcurrent hcut hstart
    have hback : p.follower.recheck p.disk file = { p.follower with phase := .reading file } := by
      simp only [Tail.Follower.recheck, h.place_of_openFile hfile, true_and, if_pos hwhole]
    rw [hback]
    simp only [roundsLeft, was]
    omega

/-- A follower of a file that reaches to its start may always go on. -/
theorem Added.opensWithin (h : Added offset p) (hoffset : offset ≤ p.disk.log.length) :
    p.opensWithin = true := by
  unfold FollowedPath.opensWithin
  split
  · next id _ place =>
    rw [decide_eq_true_eq, ← Disk.log_eq_contents place]
    rcases h.sound.starts with ⟨_, hleft⟩ | ⟨hleft, _⟩
    · exact hleft ▸ hoffset
    · exact hleft ▸ Nat.zero_le _
  · rfl

/-- In a round the follower finds the end of the file, or comes nearer to it. -/
theorem Added.round (h : Added offset p) (hplace : p.disk.place ≠ .absent)
    (hoffset : offset ≤ p.disk.log.length) :
    p.delivered = p.linesFrom offset ∨
      Added offset p.round ∧ p.round.disk = p.disk ∧
        roundsLeft p.disk.log.length p.round.follower.phase <
          roundsLeft p.disk.log.length p.follower.phase := by
  let waiting := p.run [.pass Tail.openRetryDelay, .take p.follower.lines.items.length]
  have hwaiting : Added offset waiting := (h.on (e := .pass _) rfl).on (e := .take _) rfl
  have hroom : waiting.follower.lines.items = [] := List.drop_length
  have hdue : ∀ t, p.follower.wake? = some t → t ≤ p.now + Tail.openRetryDelay := by
    intro t ht
    have htimely := h.timely
    rcases Tail.Follower.phase_of_wake? ht with hp | ⟨file, hp⟩
    · simpa only [Tail.Follower.Timely, hp] using htimely
    · simp only [Tail.Follower.Timely, hp, Tail.pollInterval] at htimely
      simp only [Tail.openRetryDelay]
      omega
  obtain ⟨f, hstep⟩ := Option.isSome_iff_exists.mp (hwaiting.step_isSome hroom hdue)
  have hround : p.round = waiting.goOn f := by
    change ((waiting.follower.step? waiting.disk waiting.now false).map waiting.goOn).getD waiting = _
    rw [hstep]
    rfl
  rcases hwaiting.roundsLeft_lt hplace (Tail.Follower.step_of_step? h.sound.readerGone hstep) with
    ⟨file, was, ahead, atEnd⟩ | hless
  · left
    exact (delivered_take _ _).symm.trans (hwaiting.atEnd was ahead atEnd).1
  · right
    refine ⟨hwaiting.on (e := .follow) (hwaiting.opensWithin hoffset), ?_, ?_⟩
    · rw [hround, disk_goOn]
      rfl
    · rw [hround, follower_goOn]
      exact hless

/-- A follower whose file is left alone for a while and that has a reader delivers all of it. -/
theorem Added.catchesUp (h : Added offset p) (hplace : p.disk.place ≠ .absent)
    (hoffset : offset ≤ p.disk.log.length) :
    ∃ n, (Nat.iterate FollowedPath.round n p).delivered = p.linesFrom offset := by
  generalize hleft : roundsLeft p.disk.log.length p.follower.phase = left
  induction left using Nat.strongRecOn generalizing p with
  | ind left ih =>
    rcases h.round hplace hoffset with hall | ⟨hround, hdisk, hless⟩
    · exact ⟨0, hall⟩
    · obtain ⟨n, hn⟩ := ih _ (hleft ▸ hless) hround (hdisk ▸ hplace) (hdisk ▸ hoffset) (by rw [hdisk])
      refine ⟨n + 1, ?_⟩
      rwa [linesFrom, hdisk] at hn

/-- What comes of following a file that is only added to. -/
structure DeliversAdded (offset : Nat) (p : FollowedPath) : Prop where
  /-- What is delivered is the first complete lines. -/
  delivered_prefix : p.delivered <+: p.linesFrom offset
  /-- It is all of them when the follower finds the end of the file, and what is unfinished then is
  held back. -/
  at_end : ∀ file, p.follower.phase = .reading file → file.ahead = [] → file.more p.disk = [] →
    p.delivered = p.linesFrom offset ∧ file.pending = unfinishedLine (p.disk.log.drop offset)
  /-- While the follower rests, that is so of what it polled. -/
  rested : ∀ file due, p.follower.phase = .resting file due →
    ∃ polled added, p.disk.log.drop offset = polled ++ added ∧
      file.position = offset + polled.length ∧
      p.delivered = (completeLines polled).map decodeLine ∧ file.pending = unfinishedLine polled
  /-- It finds the end if the file is there and left alone, and somebody reads. -/
  catches_up : p.disk.place ≠ .absent → offset ≤ p.disk.log.length →
    ∃ n, (Nat.iterate FollowedPath.round n p).delivered = p.linesFrom offset

/-- However the additions to a file are cut, and whenever its follower looks, the lines delivered are
those of the file from the follower's start on. -/
theorem run_deliversAdded (offset : Nat) (events : List PathEvent)
    (hok : (start offset).throughout addsOnly events = true) :
    ((start offset).run events).DeliversAdded offset := by
  have hadded := run_added offset hok
  exact ⟨hadded.delivered_prefix, fun _ => hadded.atEnd, fun _ _ => hadded.rested,
    hadded.catchesUp⟩

/-- Additions that are cut within a character and between the two bytes that end a line, after a
start in the middle of the file. -/
theorem cutAdditions_deliversAdded :
    let events : List PathEvent :=
      [.follow, .append (Text.utf8Bytes "old\nna" ++ [0xC3])] ++ [.pass 1000] ++
        List.replicate 5 .follow ++ [.append ([0xAF] ++ Text.utf8Bytes "ve\r"), .pass 250] ++
        List.replicate 4 .follow ++ [.append (Text.utf8Bytes "\nrest"), .pass 250] ++
        List.replicate 6 .follow
    (start 4).throughout addsOnly events = true ∧
      ((start 4).run events).delivered = ["naïve"] ∧
      ((start 4).run events).DeliversAdded 4 :=
  ⟨by decide +kernel, by decide +kernel, run_deliversAdded 4 _ (by decide +kernel)⟩

end FollowedPath

end FleetWatch
