import FleetWatch.Proofs.Setup.FollowedPath
import Mathlib.Data.List.Infix
/-!
What holds of the files that a follower opens, one after the other.

`FollowedPath.Turn` says once what a step of the follower, or a failure, does to a followed path and
to its record.  `Sound` is what every event keeps that comes in order: the lines of each opening are
the first complete ones of what it held, those of the opening at hand are where its open file says
they are, and everything delivered is the lines of the openings one after the other.
-/

namespace FleetWatch

/-! ### Openings -/

namespace Opening

/-- The lines delivered are the first complete ones of what there is to read. -/
def IsFair (o : Opening) : Prop :=
  o.lines <+: (completeLines o.rest).map decodeLine

/-- The lines delivered are those that were complete when the follower last came to the end. -/
structure IsRead (o : Opening) : Prop where
  lines_eq : o.lines = (completeLines o.found).map decodeLine
  found_prefix : o.found <+: o.rest

theorem isFair_of_nil {o : Opening} (h : o.lines = []) : o.IsFair := by
  rw [IsFair, h]
  exact List.nil_prefix

theorem IsRead.isFair {o : Opening} (h : o.IsRead) : o.IsFair := by
  obtain ⟨later, hrest⟩ := h.found_prefix
  rw [IsFair, h.lines_eq, ← hrest, completeLines_append, List.map_append]
  exact List.prefix_append _ _

theorem start_refresh (disk : Disk) (o : Opening) : (o.refresh disk).start = o.start := by
  unfold refresh
  split <;> rfl

theorem lines_refresh (disk : Disk) (o : Opening) : (o.refresh disk).lines = o.lines := by
  unfold refresh
  split <;> rfl

theorem found_refresh (disk : Disk) (o : Opening) : (o.refresh disk).found = o.found := by
  unfold refresh
  split <;> rfl

end Opening

/-- What ended the reading is a reason to open the path again. -/
def Ending.IsReason (place : Place) : Ending → Prop
  | .looked seen position length => seen ≠ place ∨ length < position
  | _ => True

/-- Something that was opened and given up is as it should be. -/
structure IsGivenUp (q : Opening × Ending) : Prop where
  fair : q.1.IsFair
  reason : q.2.IsReason q.1.place
  read : ∀ place position length, q.2 = .looked place position length → q.1.IsRead

/-- The first of some starts is the offset, which is left until then, and the others are 0. -/
def StartsOnce (offset left : Nat) (starts : List Nat) : Prop :=
  starts = [] ∧ left = offset ∨ left = 0 ∧ ∃ n, starts = offset :: List.replicate n 0

theorem StartsOnce.concat {offset left : Nat} {starts : List Nat}
    (h : StartsOnce offset left starts) : StartsOnce offset 0 (starts ++ [left]) := by
  rcases h with ⟨rfl, rfl⟩ | ⟨rfl, n, rfl⟩
  · exact Or.inr ⟨rfl, 0, rfl⟩
  · refine Or.inr ⟨rfl, n + 1, ?_⟩
    rw [List.cons_append, List.replicate_succ']

/-! ### The file at hand -/

namespace Tail.OpenFile

variable {file : OpenFile} {disk : Disk} {o : Opening} {taken : List UInt8} {lines : List String}

theorem HasTaken.change {before rest : List UInt8}
    (h : file.HasTaken (before ++ rest) before taken lines) {rest' : List UInt8}
    (hkept : taken ++ file.ahead <+: rest') : file.HasTaken (before ++ rest') before taken lines := by
  obtain ⟨after, rfl⟩ := hkept
  exact { h with log_eq := ⟨after, by simp only [List.append_assoc]⟩ }

/-- An open file is that of an opening, with the part `taken` of what there is to read behind it.
What stands before the start makes no difference. -/
structure Reads (file : OpenFile) (disk : Disk) (o : Opening) (taken : List UInt8)
    (lines : List String) : Prop where
  place_eq : o.place = .file file.id
  id_lt : file.id < disk.nextId
  text_eq : o.isCut = false → o.text = disk.contents file.id
  hasTaken : ∃ before, before.length = o.start ∧ file.HasTaken (before ++ o.rest) before taken lines

namespace Reads

theorem taken_prefix (h : file.Reads disk o taken lines) : taken ++ file.ahead <+: o.rest := by
  obtain ⟨before, _, htaken⟩ := h.hasTaken
  obtain ⟨after, hlog⟩ := htaken.log_eq
  simp only [List.append_assoc] at hlog
  refine ⟨after, ?_⟩
  rw [List.append_assoc]
  exact (List.append_cancel_left hlog).symm

theorem position_eq (h : file.Reads disk o taken lines) : file.position = o.start + taken.length := by
  obtain ⟨before, hbefore, htaken⟩ := h.hasTaken
  rw [htaken.position_eq, List.length_append, hbefore]

theorem pending_eq (h : file.Reads disk o taken lines) : file.pending = unfinishedLine taken := by
  obtain ⟨before, _, htaken⟩ := h.hasTaken
  exact htaken.pending_eq

theorem lines_eq (h : file.Reads disk o taken lines) : lines = (completeLines taken).map decodeLine := by
  obtain ⟨before, _, htaken⟩ := h.hasTaken
  exact htaken.lines_eq

/-- The lines that were completed are the first complete ones of what there is to read. -/
theorem lines_prefix (h : file.Reads disk o taken lines) :
    lines <+: (completeLines o.rest).map decodeLine := by
  obtain ⟨after, hrest⟩ := (List.prefix_append taken file.ahead).trans h.taken_prefix
  rw [h.lines_eq, ← hrest, completeLines_append, List.map_append]
  exact List.prefix_append _ _

/-- What is read next is what comes next, as long as nothing was cut away. -/
theorem rest_eq (h : file.Reads disk o taken lines) (hcut : o.isCut = false) {before : List UInt8}
    (hbefore : before.length = o.start) :
    (disk.contents file.id).drop before.length = (before ++ o.rest).drop before.length := by
  rw [List.drop_left, hbefore, ← h.text_eq hcut, Opening.rest]

/-- A file that comes to its end has taken everything there is to read. -/
theorem rest_eq_taken (h : file.Reads disk o taken lines) (hcut : o.isCut = false)
    (hahead : file.ahead = []) (hend : file.more disk = []) : o.rest = taken := by
  obtain ⟨before, hbefore, htaken⟩ := h.hasTaken
  obtain ⟨after, hlog, hmore⟩ := htaken.more_eq (h.rest_eq hcut hbefore) hahead
  rw [hend, eq_comm, List.take_eq_nil_iff] at hmore
  rw [hmore.resolve_left (by decide), List.append_nil] at hlog
  exact List.append_cancel_left hlog

theorem readMore (h : file.Reads disk o taken lines) (hcut : o.isCut = false)
    (hahead : file.ahead = []) : (file.readMore disk).Reads disk o taken lines := by
  obtain ⟨before, hbefore, htaken⟩ := h.hasTaken
  exact ⟨h.place_eq, h.id_lt, h.text_eq, before, hbefore,
    htaken.readMore_of_drop (h.rest_eq hcut hbefore) hahead⟩

theorem takeAll (h : file.Reads disk o taken lines) (hnone : 10 ∉ file.ahead) :
    file.takeAll.Reads disk o (taken ++ file.ahead) lines := by
  obtain ⟨before, hbefore, htaken⟩ := h.hasTaken
  exact ⟨h.place_eq, h.id_lt, h.text_eq, before, hbefore, htaken.takeAll hnone⟩

theorem takeLine (h : file.Reads disk o taken lines) {line rest : List UInt8} (hnone : 10 ∉ line)
    (hahead : file.ahead = line ++ 10 :: rest) :
    (file.takeLine line rest).Reads disk o (taken ++ (line ++ [10]))
      (lines ++ [decodeLine (file.pending ++ (line ++ [10]))]) := by
  obtain ⟨before, hbefore, htaken⟩ := h.hasTaken
  exact ⟨h.place_eq, h.id_lt, h.text_eq, before, hbefore, htaken.takeLine hnone hahead⟩

/-- A file goes on on a disk that still has what was taken of it. -/
theorem refresh (h : file.Reads disk o taken lines) {disk' : Disk}
    (hnext : disk.nextId ≤ disk'.nextId)
    (hkept : o.isCut = false → taken ++ file.ahead <+: (disk'.contents file.id).drop o.start) :
    file.Reads disk' (o.refresh disk') taken lines := by
  obtain ⟨before, hbefore, htaken⟩ := h.hasTaken
  have hlt := Nat.lt_of_lt_of_le h.id_lt hnext
  unfold Opening.refresh
  split
  · next hcut => exact ⟨h.place_eq, hlt, fun hkept => absurd (hcut.symm.trans hkept) (by decide),
      before, hbefore, htaken⟩
  · next hcut =>
    have hheld : disk'.held o.place = disk'.contents file.id := by rw [h.place_eq, Disk.held]
    refine ⟨h.place_eq, hlt, fun _ => hheld, before, hbefore, ?_⟩
    apply htaken.change
    rw [Opening.rest, hheld]
    exact hkept (Bool.eq_false_iff.mpr hcut)

theorem grow (h : file.Reads disk o taken lines) {disk' : Disk} (hgrows : disk.Grows disk') :
    file.Reads disk' (o.refresh disk') taken lines := by
  refine h.refresh hgrows.nextId_le fun hcut => h.taken_prefix.trans ?_
  rw [Opening.rest, h.text_eq hcut]
  exact List.IsPrefix.drop (hgrows.prefix_contents _ h.id_lt) o.start

/-- A cut leaves what was read of the file as it was, and says nothing of the file any more. -/
theorem cut (h : file.Reads disk o taken lines) (length : Nat) :
    file.Reads (disk.truncate length) o.cut taken lines where
  place_eq := h.place_eq
  id_lt := (disk.nextId_truncate length).symm ▸ h.id_lt
  text_eq := nofun
  hasTaken := h.hasTaken

/-- A file that is cut behind what was read of it is still read rightly. -/
theorem truncate (h : file.Reads disk o taken lines) (hahead : file.ahead = []) {length : Nat}
    (hbehind : disk.place = .file file.id →
      file.position ≤ length ∨ (disk.contents file.id).length ≤ length) :
    file.Reads (disk.truncate length) (o.refresh (disk.truncate length)) taken lines := by
  refine h.refresh (Nat.le_of_eq (disk.nextId_truncate length).symm) fun hcut => ?_
  have htaken := h.taken_prefix
  rw [hahead, List.append_nil, Opening.rest, h.text_eq hcut] at htaken
  rw [hahead, List.append_nil]
  by_cases hplace : disk.place = .file file.id
  · rw [Disk.contents_truncate hplace]
    rcases hbehind hplace with hread | hwhole
    · rw [List.drop_take, List.prefix_take_iff]
      have := h.position_eq
      exact ⟨htaken, by omega⟩
    · rwa [List.take_of_length_le hwhole]
  · rwa [Disk.contents_truncate_of_ne hplace]

end Reads

end Tail.OpenFile

namespace FollowedPath

/-- Where a follower is in the opening at hand. -/
def IsAt (disk : Disk) : Tail.Phase → Option Opening → Prop
  | .opening, none | .retrying _, none => True
  | .reading file, some o => o.isCut = false ∧ ∃ taken, file.Reads disk o taken o.lines
  | .delivering file line, some o =>
    o.isCut = false ∧ ∃ taken, file.Reads disk o taken (o.lines ++ [line])
  | .resting file _, some o => file.ahead = [] ∧ file.Reads disk o o.found o.lines
  | _, _ => False

variable {disk disk' : Disk} {current : Option Opening} {file : Tail.OpenFile} {line : String}
variable {due : Nat}

theorem IsAt.of_waiting {phase : Tail.Phase} (h : IsAt disk phase current)
    (was : phase = .opening ∨ ∃ due, phase = .retrying due) : current = none := by
  rcases was with rfl | ⟨due, rfl⟩ <;> cases current <;> first | rfl | exact h.elim

theorem IsAt.of_reading (h : IsAt disk (.reading file) current) :
    ∃ o taken, current = some o ∧ o.isCut = false ∧ file.Reads disk o taken o.lines := by
  cases current with
  | none => exact h.elim
  | some o => exact ⟨o, h.2.choose, rfl, h.1, h.2.choose_spec⟩

theorem IsAt.of_delivering (h : IsAt disk (.delivering file line) current) :
    ∃ o taken, current = some o ∧ o.isCut = false ∧ file.Reads disk o taken (o.lines ++ [line]) := by
  cases current with
  | none => exact h.elim
  | some o => exact ⟨o, h.2.choose, rfl, h.1, h.2.choose_spec⟩

theorem IsAt.of_resting (h : IsAt disk (.resting file due) current) :
    ∃ o, current = some o ∧ file.ahead = [] ∧ file.Reads disk o o.found o.lines := by
  cases current with
  | none => exact h.elim
  | some o => exact ⟨o, rfl, h⟩

/-- A follower stays where it is when files only grow. -/
theorem IsAt.grow {phase : Tail.Phase} (h : IsAt disk phase current) (hgrows : disk.Grows disk') :
    IsAt disk' phase (current.map (Opening.refresh disk')) := by
  have hcut : ∀ o : Opening, o.isCut = false → (o.refresh disk').isCut = false := by
    intro o ho
    simp only [Opening.refresh, ho, Bool.false_eq_true, if_false]
  cases phase with
  | opening =>
    rw [h.of_waiting (Or.inl rfl)]
    exact trivial
  | retrying due =>
    rw [h.of_waiting (Or.inr ⟨due, rfl⟩)]
    exact trivial
  | reading file =>
    obtain ⟨o, taken, rfl, hwhole, hreads⟩ := h.of_reading
    exact ⟨hcut o hwhole, taken, by simpa only [Opening.lines_refresh] using hreads.grow hgrows⟩
  | delivering file line =>
    obtain ⟨o, taken, rfl, hwhole, hreads⟩ := h.of_delivering
    exact ⟨hcut o hwhole, taken, by simpa only [Opening.lines_refresh] using hreads.grow hgrows⟩
  | resting file due =>
    obtain ⟨o, rfl, hahead, hreads⟩ := h.of_resting
    refine ⟨hahead, ?_⟩
    rw [Opening.lines_refresh, Opening.found_refresh]
    exact hreads.grow hgrows
  | stopped => cases current <;> exact h.elim

/-- A follower that is not on its way through a file has none open, or rests at the end of one. -/
theorem IsAt.of_not_reading {f : Tail.Follower} (h : IsAt disk f.phase current)
    (hwaiting : f.isReading = false) :
    (current = none ∧ ∀ disk', IsAt disk' f.phase none) ∨
      ∃ file due o, f.phase = .resting file due ∧ current = some o ∧ file.ahead = [] ∧
        file.Reads disk o o.found o.lines := by
  unfold Tail.Follower.isReading at hwaiting
  cases hp : f.phase with
  | opening => exact Or.inl ⟨h.of_waiting (Or.inl hp), fun _ => trivial⟩
  | retrying due => exact Or.inl ⟨h.of_waiting (Or.inr ⟨due, hp⟩), fun _ => trivial⟩
  | reading file => simp [hp] at hwaiting
  | delivering file line => simp [hp] at hwaiting
  | resting file due =>
    rw [hp] at h
    obtain ⟨o, hcurrent, hahead, hreads⟩ := h.of_resting
    exact Or.inr ⟨file, due, o, rfl, hcurrent, hahead, hreads⟩
  | stopped =>
    rw [hp] at h
    cases current <;> exact h.elim

theorem IsAt.cut {f : Tail.Follower} (h : IsAt disk f.phase current) (length : Nat)
    (hwaiting : f.isReading = false) :
    IsAt (disk.truncate length) f.phase (current.map Opening.cut) := by
  rcases h.of_not_reading hwaiting with ⟨rfl, hnone⟩ | ⟨file, due, o, hp, rfl, hahead, hreads⟩
  · exact hnone _
  · rw [hp]
    exact ⟨hahead, hreads.cut length⟩

theorem IsAt.truncate {f : Tail.Follower} (h : IsAt disk f.phase current) (length : Nat)
    (hwaiting : f.isReading = false)
    (hbehind : ∀ file, f.openFile? = some file → disk.place = .file file.id →
      file.position ≤ length ∨ (disk.contents file.id).length ≤ length) :
    IsAt (disk.truncate length) f.phase (current.map (Opening.refresh (disk.truncate length))) := by
  rcases h.of_not_reading hwaiting with ⟨rfl, hnone⟩ | ⟨file, due, o, hp, rfl, hahead, hreads⟩
  · exact hnone _
  · rw [hp]
    refine ⟨hahead, ?_⟩
    rw [Opening.lines_refresh, Opening.found_refresh]
    exact hreads.truncate hahead (hbehind file (by simp only [Tail.Follower.openFile?, hp]))

/-! ### Turns -/

variable {p p' : FollowedPath} {e : PathEvent}

/-- What a step of the follower, or a failure, does to a followed path. -/
inductive Turn (p : FollowedPath) : PathEvent → FollowedPath → Prop where
  | idle (e : PathEvent) : Turn p e p
  /-- Nothing is there, or it cannot be opened. -/
  | missing (e : PathEvent) (was : p.follower.phase = .opening) :
    Turn p e
      { p with follower := { p.follower with phase := .retrying (p.now + Tail.openRetryDelay) } }
  /-- A directory is opened, and cannot be read. -/
  | barred (was : p.follower.phase = .opening) (place : p.disk.place = .directory) :
    Turn p .follow
      { p with
        follower :=
          { p.follower with phase := .retrying (p.now + Tail.openRetryDelay), offset := 0 }
        past := p.past ++ [(p.opening, .unread)] }
  | unsought (was : p.follower.phase = .opening) :
    Turn p (.fail .seeking)
      { p with
        follower := { p.follower with phase := .opening, offset := 0 }
        past := p.past ++ [(p.opening, .unsought)] }
  | opened (id : Nat) (was : p.follower.phase = .opening) (place : p.disk.place = .file id) :
    Turn p .follow
      { p with
        follower :=
          { p.follower with
            phase := .reading { id, next := p.follower.offset, position := p.follower.offset }
            offset := 0 }
        current := some p.opening }
  | retry (due : Nat) (was : p.follower.phase = .retrying due) :
    Turn p .follow { p with follower := { p.follower with phase := .opening } }
  | readMore (file : Tail.OpenFile) (was : p.follower.phase = .reading file)
    (ahead : file.ahead = []) :
    Turn p .follow
      { p with follower := { p.follower with phase := .reading (file.readMore p.disk) } }
  | takeAll (file : Tail.OpenFile) (was : p.follower.phase = .reading file)
    (none : 10 ∉ file.ahead) :
    Turn p .follow { p with follower := { p.follower with phase := .reading file.takeAll } }
  | takeLine (file : Tail.OpenFile) (line rest : List UInt8) (was : p.follower.phase = .reading file)
    (ahead : file.ahead = line ++ 10 :: rest) (none : 10 ∉ line) :
    Turn p .follow
      { p with
        follower :=
          { p.follower with
            phase := .delivering (file.takeLine line rest)
              (decodeLine (file.pending ++ (line ++ [10]))) } }
  /-- The end of the file. -/
  | rest (file : Tail.OpenFile) (was : p.follower.phase = .reading file) (ahead : file.ahead = [])
    (atEnd : file.more p.disk = []) :
    Turn p .follow
      { p with
        follower := { p.follower with phase := .resting file (p.now + Tail.pollInterval) }
        current := p.current.map Opening.reachEnd }
  | deliver (file : Tail.OpenFile) (line : String) (was : p.follower.phase = .delivering file line) :
    Turn p .follow
      { p with
        follower := { p.follower with phase := .reading file, lines := p.follower.lines.send line }
        current := p.current.map (Opening.deliver line) }
  /-- A look finds the same file, and all of what was read of it. -/
  | goBack (file : Tail.OpenFile) (due : Nat) (was : p.follower.phase = .resting file due)
    (passed : due ≤ p.now) (place : p.disk.place = .file file.id)
    (whole : file.position ≤ (p.disk.contents file.id).length) :
    Turn p .follow { p with follower := { p.follower with phase := .reading file } }
  | reopen (file : Tail.OpenFile) (due : Nat) (was : p.follower.phase = .resting file due)
    (passed : due ≤ p.now)
    (reason : p.disk.place ≠ .file file.id ∨ (p.disk.contents file.id).length < file.position) :
    Turn p .follow
      ({ p with follower := { p.follower with phase := .opening } }.close
        (.looked p.disk.place file.position (p.disk.contents file.id).length))
  | unread (file : Tail.OpenFile) (was : p.follower.phase = .reading file) :
    Turn p (.fail .reading)
      ({ p with
        follower :=
          { p.follower with phase := .retrying (p.now + Tail.openRetryDelay) } }.close .unread)
  | unexamined (file : Tail.OpenFile) (due : Nat) (was : p.follower.phase = .resting file due) :
    Turn p (.fail .examining)
      ({ p with follower := { p.follower with phase := .opening } }.close .unexamined)

theorem follow_turn (hreader : p.follower.lines.readerGone = false) :
    Turn p .follow (p.on .follow) := by
  rw [on]
  cases hstep : p.follower.step? p.disk p.now false with
  | none => exact .idle .follow
  | some f =>
    rw [Option.map_some, Option.getD_some]
    cases Tail.Follower.step_of_step? hreader hstep with
    | missing was place => simpa only [goOn, was, place, if_true] using Turn.missing .follow was
    | barred was place =>
      simpa only [goOn, was, place, reduceCtorEq, if_false] using Turn.barred was place
    | opened id was place => simpa only [goOn, was] using Turn.opened id was place
    | retry due was _ => simpa only [goOn, was] using Turn.retry due was
    | rest file was ahead atEnd => simpa only [goOn, was] using Turn.rest file was ahead atEnd
    | readMore file was ahead _ => simpa only [goOn, was] using Turn.readMore file was ahead
    | takeAll file was _ none => simpa only [goOn, was] using Turn.takeAll file was none
    | takeLine file line rest was ahead none =>
      simpa only [goOn, was] using Turn.takeLine file line rest was ahead none
    | deliver file line was _ => simpa only [goOn, was] using Turn.deliver file line was
    | recheck file due was passed =>
      by_cases hsame : p.disk.place = .file file.id ∧
          file.position ≤ (p.disk.contents file.id).length
      · have hback : p.follower.recheck p.disk file = { p.follower with phase := .reading file } := by
          simp only [Tail.Follower.recheck, hsame.1, true_and, if_pos hsame.2]
        rw [hback]
        simpa only [goOn, was] using Turn.goBack file due was passed hsame.1 hsame.2
      · have hopen : p.follower.recheck p.disk file = { p.follower with phase := .opening } := by
          unfold Tail.Follower.recheck
          split
          · next id hplace =>
            refine if_neg fun (hid : id = file.id ∧ _) => hsame ?_
            rw [← hid.1]
            exact ⟨hplace, hid.2⟩
          · rfl
        rw [hopen]
        have hreason : p.disk.place ≠ .file file.id ∨
            (p.disk.contents file.id).length < file.position := by
          rw [not_and_or, Nat.not_le] at hsame
          exact hsame
        simpa only [goOn, was] using Turn.reopen file due was passed hreason

theorem fail_turn (fault : Tail.Fault) : Turn p (.fail fault) (p.on (.fail fault)) := by
  rw [on]
  cases hfault : p.follower.fault? p.disk p.now fault with
  | none => exact .idle _
  | some f =>
    rw [Option.map_some, Option.getD_some]
    cases fault with
    | opening =>
      cases hp : p.follower.phase with
      | opening =>
        simp only [Tail.Follower.fault?, hp, Option.some.injEq] at hfault
        subst hfault
        exact .missing _ hp
      | _ => simp only [Tail.Follower.fault?, hp, reduceCtorEq] at hfault
    | seeking =>
      cases hp : p.follower.phase with
      | opening =>
        simp only [Tail.Follower.fault?, hp, Option.ite_none_left_eq_some, Option.some.injEq] at hfault
        obtain ⟨_, rfl⟩ := hfault
        simpa only [failOn, hp] using Turn.unsought hp
      | _ => simp only [Tail.Follower.fault?, hp, reduceCtorEq] at hfault
    | reading =>
      cases hp : p.follower.phase with
      | reading file =>
        simp only [Tail.Follower.fault?, hp, Option.ite_none_right_eq_some, Option.some.injEq] at hfault
        obtain ⟨_, rfl⟩ := hfault
        exact .unread file hp
      | _ => simp only [Tail.Follower.fault?, hp, reduceCtorEq] at hfault
    | examining =>
      cases hp : p.follower.phase with
      | resting file due =>
        simp only [Tail.Follower.fault?, hp, Option.ite_none_right_eq_some, Option.some.injEq] at hfault
        obtain ⟨_, rfl⟩ := hfault
        exact .unexamined file due hp
      | _ => simp only [Tail.Follower.fault?, hp, reduceCtorEq] at hfault

/-! ### Soundness -/

/-- What holds of a followed path at every moment. -/
structure Sound (offset : Nat) (p : FollowedPath) : Prop where
  delivered_eq : p.delivered = p.openings.flatMap Opening.lines
  starts : StartsOnce offset p.follower.offset (p.openings.map Opening.start)
  givenUp : ∀ q ∈ p.past, IsGivenUp q
  isAt : IsAt p.disk p.follower.phase p.current
  fresh : p.disk.HasFreshIds
  readerGone : p.follower.lines.readerGone = false

variable {offset : Nat} {ending : Ending} {o : Opening}

theorem openings_close (p : FollowedPath) (ending : Ending) :
    (p.close ending).openings = p.openings := by
  cases hc : p.current <;> simp [openings, close, hc]

/-- A view of the openings is as it was if that of the opening at hand is. -/
theorem map_openings {β : Type} {view : Opening → β} (hpast : p'.past = p.past)
    (hcurrent : p'.current.map view = p.current.map view) :
    p'.openings.map view = p.openings.map view := by
  rw [openings, openings, hpast, List.map_append, List.map_append, ← Option.toList_map,
    ← Option.toList_map, hcurrent]

/-- What goes on without a line being delivered or something being opened or given up. -/
theorem Sound.of_same (h : Sound offset p) (hpast : p'.past = p.past)
    (hstart : p'.current.map Opening.start = p.current.map Opening.start)
    (hlines : p'.current.map Opening.lines = p.current.map Opening.lines)
    (hdelivered : p'.delivered = p.delivered) (hoffset : p'.follower.offset = p.follower.offset)
    (hreader : p'.follower.lines.readerGone = p.follower.lines.readerGone)
    (hfresh : p'.disk.HasFreshIds) (hisAt : IsAt p'.disk p'.follower.phase p'.current) :
    Sound offset p' where
  delivered_eq := by
    rw [hdelivered, h.delivered_eq, List.flatMap_def, List.flatMap_def, map_openings hpast hlines]
  starts := by
    rw [map_openings hpast hstart, hoffset]
    exact h.starts
  givenUp := hpast ▸ h.givenUp
  isAt := hisAt
  fresh := hfresh
  readerGone := hreader.trans h.readerGone

/-- A record of what was given up goes on being right with one more opening that is. -/
theorem givenUp_concat (h : ∀ q ∈ p.past, IsGivenUp q) (hlast : IsGivenUp (o, ending)) :
    ∀ q ∈ p.past ++ [(o, ending)], IsGivenUp q :=
  List.forall_mem_append.mpr ⟨h, List.forall_mem_singleton.mpr hlast⟩

/-- A change after which every file holds what it held, and maybe more, harms nothing. -/
theorem Sound.change (h : Sound offset p) (hgrows : p.disk.Grows disk') :
    Sound offset (p.change disk') := by
  refine h.of_same rfl ?_ ?_ rfl rfl rfl (hgrows.fresh h.fresh) (h.isAt.grow hgrows)
  · simp only [FollowedPath.change, Option.map_map, Function.comp_def, Opening.start_refresh]
  · simp only [FollowedPath.change, Option.map_map, Function.comp_def, Opening.lines_refresh]

/-- Whether something comes in order: no file is cut while the follower is on its way through one,
and a look finds a file that was cut below what was read while it is that short. -/
def inOrder (p : FollowedPath) : PathEvent → Bool
  | .truncate _ => !p.follower.isReading
  | .follow =>
    match p.follower.phase, p.current with
    | .resting file due, some o =>
      !(o.isCut && p.disk.place == .file file.id && due ≤ p.now) ||
        (p.disk.contents file.id).length < file.position
    | _, _ => true
  | _ => true

theorem Sound.truncate (h : Sound offset p) (length : Nat)
    (hwaiting : p.follower.isReading = false) : Sound offset (p.on (.truncate length)) := by
  have hfresh : (p.disk.truncate length).HasFreshIds := by
    intro id hid
    rw [Disk.place_truncate] at hid
    rw [Disk.nextId_truncate]
    exact h.fresh id hid
  rw [FollowedPath.on]
  split
  · next hcuts =>
    refine h.of_same rfl ?_ ?_ rfl rfl rfl hfresh (h.isAt.cut length hwaiting)
    · simp only [Option.map_map, Function.comp_def, Opening.cut]
    · simp only [Option.map_map, Function.comp_def, Opening.cut]
  · next hspares =>
    refine h.of_same rfl ?_ ?_ rfl rfl rfl hfresh ?_
    · simp only [FollowedPath.change, Option.map_map, Function.comp_def, Opening.start_refresh]
    · simp only [FollowedPath.change, Option.map_map, Function.comp_def, Opening.lines_refresh]
    · apply h.isAt.truncate length hwaiting
      intro file hfile hplace
      simp only [cutsRead, hfile, Option.any_some, hplace, true_and, decide_eq_true_eq] at hspares
      omega

/-- What is opened or tried to be opened starts where the follower was told to, once. -/
theorem Sound.concat_starts (h : Sound offset p) (hnone : p.current = none) :
    StartsOnce offset 0 ((p.past.map Prod.fst ++ [p.opening]).map Opening.start) := by
  have hstarts := h.starts.concat
  rw [openings, hnone, Option.toList_none, List.append_nil] at hstarts
  rw [List.map_append]
  exact hstarts

/-- Something that could not be read at all is given up at once. -/
theorem Sound.openInVain (h : Sound offset p) (was : p.follower.phase = .opening)
    (ending : Ending) (hreason : ending.IsReason p.opening.place)
    (hread : ∀ place position length, ending ≠ .looked place position length) {phase : Tail.Phase}
    (hphase : phase = .opening ∨ ∃ due, phase = .retrying due) :
    Sound offset
      { p with
        follower := { p.follower with phase, offset := 0 }
        past := p.past ++ [(p.opening, ending)] } := by
  have hnone := h.isAt.of_waiting (Or.inl was)
  have hdelivered := h.delivered_eq
  refine ⟨?_, ?_, givenUp_concat h.givenUp ⟨?_, hreason, ?_⟩, ?_, h.fresh, h.readerGone⟩
  · rw [openings, hnone, Option.toList_none, List.append_nil] at hdelivered
    have hlines : p.opening.lines = [] := rfl
    simpa [openings, delivered, hnone, hlines] using hdelivered
  · have hstarts := h.concat_starts hnone
    simpa [openings, hnone] using hstarts
  · exact Opening.isFair_of_nil rfl
  · intro place position length hlooked
    exact absurd hlooked (hread place position length)
  · rw [hnone]
    rcases hphase with rfl | ⟨due, rfl⟩ <;> exact trivial

theorem Sound.opened (h : Sound offset p) {id : Nat} (was : p.follower.phase = .opening)
    (place : p.disk.place = .file id) :
    Sound offset
      { p with
        follower :=
          { p.follower with
            phase := .reading { id, next := p.follower.offset, position := p.follower.offset }
            offset := 0 }
        current := some p.opening } := by
  have hnone := h.isAt.of_waiting (Or.inl was)
  have hdelivered := h.delivered_eq
  refine ⟨?_, ?_, h.givenUp, ⟨rfl, [], place, h.fresh id place, ?_, ?_⟩, h.fresh, h.readerGone⟩
  · rw [openings, hnone, Option.toList_none, List.append_nil] at hdelivered
    have hlines : p.opening.lines = [] := rfl
    simpa [openings, delivered, hlines] using hdelivered
  · exact h.concat_starts hnone
  · exact fun _ => Disk.log_eq_contents place
  · have hlength : p.follower.offset = (List.replicate p.opening.start (0 : UInt8)).length :=
      (List.length_replicate).symm
    exact ⟨List.replicate p.opening.start 0, List.length_replicate,
      ⟨p.opening.rest, by simp⟩, by simpa using hlength, by simpa using hlength, rfl, rfl⟩

theorem Sound.deliver (h : Sound offset p) {file : Tail.OpenFile}
    (was : p.follower.phase = .delivering file line) :
    Sound offset
      { p with
        follower := { p.follower with phase := .reading file, lines := p.follower.lines.send line }
        current := p.current.map (Opening.deliver line) } := by
  have hisAt := h.isAt
  rw [was] at hisAt
  obtain ⟨o, taken, hcurrent, hwhole, hreads⟩ := hisAt.of_delivering
  have hdelivered := h.delivered_eq
  have hstarts := h.starts
  rw [hcurrent]
  refine ⟨?_, ?_, h.givenUp, ⟨hwhole, taken, ?_⟩, h.fresh, h.readerGone⟩
  · simp only [delivered, openings, hcurrent, Option.toList_some, List.flatMap_append,
      List.flatMap_singleton] at hdelivered
    simp only [delivered, openings, Channel.send, Opening.deliver, Option.map_some,
      Option.toList_some, List.flatMap_append, List.flatMap_singleton]
    rw [← List.append_assoc, hdelivered, List.append_assoc]
  · simpa [openings, hcurrent, Opening.deliver] using hstarts
  · exact ⟨hreads.place_eq, hreads.id_lt, hreads.text_eq, hreads.hasTaken⟩

/-- The opening at hand is given up. -/
theorem Sound.close (h : Sound offset p) (hcurrent : p.current = some o)
    (hgiven : IsGivenUp (o, ending)) {phase : Tail.Phase}
    (hphase : phase = .opening ∨ ∃ due, phase = .retrying due) :
    Sound offset ({ p with follower := { p.follower with phase } }.close ending) where
  delivered_eq := by
    rw [openings_close]
    exact h.delivered_eq
  starts := by
    rw [openings_close]
    exact h.starts
  givenUp := by
    simp only [FollowedPath.close, hcurrent]
    exact givenUp_concat h.givenUp hgiven
  isAt := by rcases hphase with rfl | ⟨due, rfl⟩ <;> exact trivial
  fresh := h.fresh
  readerGone := h.readerGone

/-- Every turn in order leaves everything as it should be. -/
theorem Sound.turn (h : Sound offset p) (hok : p.inOrder e = true) (turn : Turn p e p') :
    Sound offset p' := by
  have hisAt := h.isAt
  cases turn with
  | idle => exact h
  | missing _ was =>
    refine h.of_same rfl rfl rfl rfl rfl rfl h.fresh ?_
    rw [hisAt.of_waiting (Or.inl was)]
    exact trivial
  | barred was place => exact h.openInVain was .unread trivial nofun (Or.inr ⟨_, rfl⟩)
  | unsought was => exact h.openInVain was .unsought trivial nofun (Or.inl rfl)
  | opened id was place => exact h.opened was place
  | retry due was =>
    refine h.of_same rfl rfl rfl rfl rfl rfl h.fresh ?_
    rw [hisAt.of_waiting (Or.inr ⟨due, was⟩)]
    exact trivial
  | readMore file was ahead =>
    rw [was] at hisAt
    obtain ⟨o, taken, hcurrent, hwhole, hreads⟩ := hisAt.of_reading
    refine h.of_same rfl rfl rfl rfl rfl rfl h.fresh ?_
    rw [hcurrent]
    exact ⟨hwhole, taken, hreads.readMore hwhole ahead⟩
  | takeAll file was none =>
    rw [was] at hisAt
    obtain ⟨o, taken, hcurrent, hwhole, hreads⟩ := hisAt.of_reading
    refine h.of_same rfl rfl rfl rfl rfl rfl h.fresh ?_
    rw [hcurrent]
    exact ⟨hwhole, _, hreads.takeAll none⟩
  | takeLine file line rest was ahead none =>
    rw [was] at hisAt
    obtain ⟨o, taken, hcurrent, hwhole, hreads⟩ := hisAt.of_reading
    refine h.of_same rfl rfl rfl rfl rfl rfl h.fresh ?_
    rw [hcurrent]
    exact ⟨hwhole, _, hreads.takeLine none ahead⟩
  | rest file was ahead atEnd =>
    rw [was] at hisAt
    obtain ⟨o, taken, hcurrent, hwhole, hreads⟩ := hisAt.of_reading
    refine h.of_same rfl ?_ ?_ rfl rfl rfl h.fresh ?_
    · simp only [Option.map_map, Function.comp_def, Opening.reachEnd]
    · simp only [Option.map_map, Function.comp_def, Opening.reachEnd]
    · rw [hcurrent]
      refine ⟨ahead, hreads.place_eq, hreads.id_lt, hreads.text_eq, ?_⟩
      simp only [Opening.reachEnd]
      rw [hreads.rest_eq_taken hwhole ahead atEnd]
      exact hreads.hasTaken
  | deliver file line was => exact h.deliver was
  | goBack file due was passed place whole =>
    rw [was] at hisAt
    obtain ⟨o, hcurrent, _, hreads⟩ := hisAt.of_resting
    have hwhole : o.isCut = false := by
      simp only [inOrder, was, hcurrent, place, beq_self_eq_true, passed, decide_true, Bool.and_true,
        Bool.or_eq_true, Bool.not_eq_true', decide_eq_true_eq] at hok
      exact hok.resolve_right (Nat.not_lt.mpr whole)
    refine h.of_same rfl rfl rfl rfl rfl rfl h.fresh ?_
    rw [hcurrent]
    exact ⟨hwhole, _, hreads⟩
  | reopen file due was passed reason =>
    rw [was] at hisAt
    obtain ⟨o, hcurrent, hahead, hreads⟩ := hisAt.of_resting
    have hread : o.IsRead := by
      refine ⟨hreads.lines_eq, ?_⟩
      have hprefix := hreads.taken_prefix
      rwa [hahead, List.append_nil] at hprefix
    refine h.close hcurrent ⟨hread.isFair, ?_, fun _ _ _ _ => hread⟩ (Or.inl rfl)
    rw [hreads.place_eq]
    exact reason
  | unread file was =>
    rw [was] at hisAt
    obtain ⟨o, taken, hcurrent, _, hreads⟩ := hisAt.of_reading
    have hgiven : IsGivenUp (o, .unread) := ⟨hreads.lines_prefix, trivial, nofun⟩
    exact h.close hcurrent hgiven (Or.inr ⟨_, rfl⟩)
  | unexamined file due was =>
    rw [was] at hisAt
    obtain ⟨o, hcurrent, _, hreads⟩ := hisAt.of_resting
    have hgiven : IsGivenUp (o, .unexamined) := ⟨hreads.lines_prefix, trivial, nofun⟩
    exact h.close hcurrent hgiven (Or.inl rfl)

theorem Sound.on (h : Sound offset p) (hok : p.inOrder e = true) : Sound offset (p.on e) := by
  cases e with
  | append bytes => exact h.change (p.disk.grows_append bytes)
  | truncate length =>
    rw [inOrder, Bool.not_eq_true'] at hok
    exact h.truncate length hok
  | rotate bytes =>
    have hchange := h.change (p.disk.grows_rotate bytes)
    exact ⟨hchange.delivered_eq, hchange.starts, hchange.givenUp, hchange.isAt, hchange.fresh,
      hchange.readerGone⟩
  | remove => exact h.change p.disk.grows_remove
  | makeDirectory => exact h.change p.disk.grows_makeDirectory
  | removeDirectory => exact h.change p.disk.grows_removeDirectory
  | follow => exact h.turn hok (follow_turn h.readerGone)
  | fail fault => exact h.turn hok (fail_turn fault)
  | take count => exact h.of_same rfl rfl rfl (p.delivered_take count) rfl rfl h.fresh h.isAt
  | pass ms => exact h.of_same rfl rfl rfl rfl rfl rfl h.fresh h.isAt

theorem start_sound (offset : Nat) : Sound offset (start offset) where
  delivered_eq := rfl
  starts := Or.inl ⟨rfl, rfl⟩
  givenUp := fun _ h => absurd h List.not_mem_nil
  isAt := trivial
  fresh := nofun
  readerGone := rfl

/-- Whatever happens to a followed path, as long as it comes in order. -/
theorem run_sound (offset : Nat) {events : List PathEvent}
    (hok : (start offset).throughout inOrder events = true) :
    Sound offset ((start offset).run events) :=
  run_induction (fun _ _ hok h => h.on hok) (start_sound offset) hok

end FollowedPath

end FleetWatch
