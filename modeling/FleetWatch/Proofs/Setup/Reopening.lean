import FleetWatch.Proofs.Setup.Openings
/-!
Opening a path again.

A follower gives a file up when a look shows that another one, or none, stands at the path, or that
the file is shorter than what was read of it, and when the path or the file cannot be read.  Main
statement: what it delivers is the first complete lines of one file after the other, none of them
mixed with the unfinished line of a file given up before, and only the first file is read from the
offset on (`run_keepsApart`).
-/

namespace FleetWatch

namespace FollowedPath

variable {offset : Nat} {p : FollowedPath}

/-- Opening a path again neither mixes nor repeats what was there. -/
structure KeepsApart (offset : Nat) (p : FollowedPath) : Prop where
  /-- What is delivered is the lines of one opening after the other. -/
  delivered_eq : p.delivered = p.openings.flatMap Opening.lines
  /-- Those of each are the first complete lines of what was there from its start on. -/
  lines_prefix : ∀ o ∈ p.openings, o.lines <+: (completeLines o.rest).map decodeLine
  /-- What is there now is what the record says, unless it was cut. -/
  text_eq : ∀ o, p.current = some o → o.isCut = false → o.text = p.disk.held o.place
  /-- The unfinished line is one of the file at hand, of which everything before it was taken. -/
  held_back : ∀ file, p.follower.openFile? = some file → ∃ o taken, p.current = some o ∧
    o.place = .file file.id ∧ taken <+: o.rest ∧ file.position = o.start + taken.length ∧
      file.pending = unfinishedLine taken
  /-- A file is given up because the path was seen without it, or it was seen shorter than what was
  read of it, or something failed. -/
  reason : ∀ q ∈ p.past, q.2.IsReason q.1.place
  first_start : ∀ o ∈ p.openings.head?, o.start = offset
  later_start : ∀ o ∈ p.openings.tail, o.start = 0
  /-- A file that a look finds shorter than where it is read from is opened again from its start. -/
  beyond : ∀ file due o, p.follower.phase = .resting file due → due ≤ p.now → p.current = some o →
    p.disk.place = .file file.id → (p.disk.contents file.id).length < o.start →
      ((p.on .follow).on .follow).openings =
        p.openings ++ [{ place := .file file.id, start := 0, text := p.disk.contents file.id }]

/-- A follower that has a file open is in the opening at hand. -/
theorem Sound.reads (h : Sound offset p) {file : Tail.OpenFile}
    (hfile : p.follower.openFile? = some file) :
    ∃ o taken, p.current = some o ∧ file.Reads p.disk o taken (o.lines ++ p.follower.completed) := by
  have hisAt := h.isAt
  unfold Tail.Follower.openFile? at hfile
  unfold Tail.Follower.completed
  split at hfile
  · next hp =>
    cases hfile
    rw [hp] at hisAt
    obtain ⟨o, taken, hcurrent, _, hreads⟩ := hisAt.of_reading
    exact ⟨o, taken, hcurrent, by simpa only [hp, List.append_nil] using hreads⟩
  · next hp =>
    cases hfile
    rw [hp] at hisAt
    obtain ⟨o, taken, hcurrent, _, hreads⟩ := hisAt.of_delivering
    exact ⟨o, taken, hcurrent, by simpa only [hp] using hreads⟩
  · next hp =>
    cases hfile
    rw [hp] at hisAt
    obtain ⟨o, hcurrent, _, hreads⟩ := hisAt.of_resting
    exact ⟨o, _, hcurrent, by simpa only [hp, List.append_nil] using hreads⟩
  · cases hfile

/-- Something was opened that is not given up just if the follower has a file open. -/
theorem Sound.reads_current (h : Sound offset p) {o : Opening} (hcurrent : p.current = some o) :
    ∃ file taken, p.follower.openFile? = some file ∧
      file.Reads p.disk o taken (o.lines ++ p.follower.completed) := by
  have hfile : ∃ file, p.follower.openFile? = some file := by
    have hisAt := h.isAt
    rw [hcurrent] at hisAt
    unfold Tail.Follower.openFile?
    cases hp : p.follower.phase with
    | reading file | delivering file _ | resting file _ => exact ⟨file, rfl⟩
    | _ =>
      rw [hp] at hisAt
      exact hisAt.elim
  obtain ⟨file, hfile⟩ := hfile
  obtain ⟨o', taken, hsame, hreads⟩ := h.reads hfile
  cases hcurrent.symm.trans hsame
  exact ⟨file, taken, hfile, hreads⟩

theorem Sound.lines_prefix (h : Sound offset p) :
    ∀ o ∈ p.openings, o.lines <+: (completeLines o.rest).map decodeLine := by
  intro o ho
  rcases List.mem_append.mp ho with hpast | hcurrent
  · obtain ⟨q, hq, rfl⟩ := List.mem_map.mp hpast
    exact (h.givenUp q hq).fair
  · rw [Option.mem_toList] at hcurrent
    obtain ⟨file, _, _, hreads⟩ := h.reads_current hcurrent
    exact (List.prefix_append _ _).trans hreads.lines_prefix

theorem Sound.first_start (h : Sound offset p) : ∀ o ∈ p.openings.head?, o.start = offset := by
  intro o ho
  have hstarts := h.starts
  obtain ⟨rest, hopenings⟩ := List.head?_eq_some_iff.mp ho
  rw [hopenings, List.map_cons] at hstarts
  rcases hstarts with ⟨hnil, _⟩ | ⟨_, n, hcons⟩
  · cases hnil
  · exact (List.cons.inj hcons).1

theorem Sound.later_start (h : Sound offset p) : ∀ o ∈ p.openings.tail, o.start = 0 := by
  intro o ho
  have hstarts := h.starts
  cases hopenings : p.openings with
  | nil =>
    rw [hopenings] at ho
    cases ho
  | cons first rest =>
    rw [hopenings] at ho hstarts
    rcases hstarts with ⟨hnil, _⟩ | ⟨_, n, hcons⟩
    · cases hnil
    · have hrest := (List.cons.inj hcons).2
      exact (List.mem_replicate.mp (hrest ▸ List.mem_map_of_mem ho)).2

/-- Once something was opened the offset is used up. -/
theorem Sound.offset_eq_zero (h : Sound offset p) (hopened : p.openings ≠ []) :
    p.follower.offset = 0 := by
  rcases h.starts with ⟨hnil, _⟩ | ⟨hzero, _⟩
  · exact absurd (List.map_eq_nil_iff.mp hnil) hopened
  · exact hzero

theorem Sound.beyond (h : Sound offset p) {file : Tail.OpenFile} {due : Nat} {o : Opening}
    (was : p.follower.phase = .resting file due) (passed : due ≤ p.now) (hcurrent : p.current = some o)
    (place : p.disk.place = .file file.id) (hshort : (p.disk.contents file.id).length < o.start) :
    ((p.on .follow).on .follow).openings =
      p.openings ++ [{ place := .file file.id, start := 0, text := p.disk.contents file.id }] := by
  have hisAt := h.isAt
  rw [was] at hisAt
  obtain ⟨o', hsame, _, hreads⟩ := hisAt.of_resting
  cases hcurrent.symm.trans hsame
  have hposition := hreads.position_eq
  have hoffset := h.offset_eq_zero (by simp [openings, hcurrent])
  have hrecheck : p.follower.recheck p.disk file = { p.follower with phase := .opening } := by
    simp only [Tail.Follower.recheck, place]
    exact if_neg fun hfits => absurd hfits.2 (by omega)
  have hfirst : p.on .follow =
      ({ p with follower := { p.follower with phase := .opening } }).close
        (.looked p.disk.place file.position (p.disk.contents file.id).length) := by
    rw [FollowedPath.on]
    simp only [Tail.Follower.step?, was, Bool.false_eq_true, if_false, if_pos passed, hrecheck,
      Option.map_some, Option.getD_some, goOn]
  rw [hfirst, FollowedPath.on]
  simp only [FollowedPath.close, Tail.Follower.step?, Tail.Follower.openFile, place,
    Option.map_some, Option.getD_some, goOn, openings, hcurrent, opening, hoffset,
    Disk.log_eq_contents place]
  simp

/-- Whatever happens to a followed path in order, what is delivered is kept apart. -/
theorem run_keepsApart (offset : Nat) (events : List PathEvent)
    (hok : (start offset).throughout inOrder events = true) :
    ((start offset).run events).KeepsApart offset := by
  have hsound := run_sound offset hok
  generalize (start offset).run events = p at hsound
  refine ⟨hsound.delivered_eq, hsound.lines_prefix, ?_, ?_, fun q hq => (hsound.givenUp q hq).reason,
    hsound.first_start, hsound.later_start, fun _ _ _ => hsound.beyond⟩
  · intro o hcurrent hcut
    obtain ⟨file, _, _, hreads⟩ := hsound.reads_current hcurrent
    rw [hreads.text_eq hcut, hreads.place_eq, Disk.held]
  · intro file hfile
    obtain ⟨o, taken, hcurrent, hreads⟩ := hsound.reads hfile
    exact ⟨o, taken, hcurrent, hreads.place_eq, (List.prefix_append _ _).trans hreads.taken_prefix,
      hreads.position_eq, hreads.pending_eq⟩

/-- A file that is renamed away in the middle of a line, and one that is cut in the middle of one. -/
theorem interrupted_keepsApart :
    let events : List PathEvent :=
      [.append (Text.utf8Bytes "ab\ncd\nunfi")] ++ List.replicate 6 .follow ++
        [.rotate (Text.utf8Bytes "nished\nx"), .pass 250] ++ List.replicate 7 .follow ++
        [.truncate 1, .pass 250] ++ List.replicate 5 .follow ++
        [.append (Text.utf8Bytes "ew\n"), .pass 250] ++ List.replicate 4 .follow
    (start 3).throughout inOrder events = true ∧
      ((start 3).run events).delivered = ["cd", "nished", "new"] ∧
      ((start 3).run events).KeepsApart 3 :=
  ⟨by decide +kernel, by decide +kernel, run_keepsApart 3 _ (by decide +kernel)⟩

end FollowedPath

end FleetWatch
