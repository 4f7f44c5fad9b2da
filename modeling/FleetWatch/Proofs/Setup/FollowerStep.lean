import FleetWatch.Proofs.Container.CompleteLines
import FleetWatch.Setup.Tail
/-!
What a follower of a log does in one step.

`Follower.Step` lists the steps of a follower that nobody stops, each with what makes it happen.
What holds of every run of a follower is proved by one case for each.
-/

namespace FleetWatch

namespace Tail

theorem nextPiece_of_not_mem {bytes : List UInt8} (h : 10 ∉ bytes) : nextPiece bytes = bytes := by
  induction bytes with
  | nil => rfl
  | cons b bytes ih =>
    rw [List.mem_cons, not_or] at h
    rw [nextPiece, if_neg (Ne.symm h.1), ih h.2]

theorem nextPiece_line {line : List UInt8} (h : 10 ∉ line) (rest : List UInt8) :
    nextPiece (line ++ 10 :: rest) = line ++ [10] := by
  induction line with
  | nil => rw [List.nil_append, nextPiece, if_pos rfl, List.nil_append]
  | cons b line ih =>
    rw [List.mem_cons, not_or] at h
    rw [List.cons_append, nextPiece, if_neg (Ne.symm h.1), ih h.2, List.cons_append]

namespace OpenFile

/-- The bytes that are read next, if any. -/
def more (file : OpenFile) (disk : Disk) : List UInt8 :=
  ((disk.contents file.id).drop file.next).take readSize

/-- The file after these bytes were read. -/
def readMore (file : OpenFile) (disk : Disk) : OpenFile :=
  { file with next := file.next + (file.more disk).length, ahead := file.more disk }

/-- The file after all bytes read ahead were taken. -/
def takeAll (file : OpenFile) : OpenFile :=
  { file with
    position := file.position + file.ahead.length
    ahead := []
    pending := file.pending ++ file.ahead }

/-- The file after a line was taken, with what is left ahead. -/
def takeLine (file : OpenFile) (line rest : List UInt8) : OpenFile :=
  { file with position := file.position + (line ++ [10]).length, ahead := rest, pending := [] }

end OpenFile

namespace Follower

/-- A step of a follower. -/
inductive Step (disk : Disk) (now : Nat) (f : Follower) : Follower → Prop where
  | missing (was : f.phase = .opening) (place : disk.place = .absent) :
    Step disk now f { f with phase := .retrying (now + openRetryDelay) }
  /-- A directory cannot be read, and the offset is used up by trying. -/
  | barred (was : f.phase = .opening) (place : disk.place = .directory) :
    Step disk now f { f with phase := .retrying (now + openRetryDelay), offset := 0 }
  | opened (id : Nat) (was : f.phase = .opening) (place : disk.place = .file id) :
    Step disk now f
      { f with phase := .reading { id, next := f.offset, position := f.offset }, offset := 0 }
  | retry (due : Nat) (was : f.phase = .retrying due) (passed : due ≤ now) :
    Step disk now f { f with phase := .opening }
  | rest (file : OpenFile) (was : f.phase = .reading file) (ahead : file.ahead = [])
    (atEnd : file.more disk = []) :
    Step disk now f { f with phase := .resting file (now + pollInterval) }
  | readMore (file : OpenFile) (was : f.phase = .reading file) (ahead : file.ahead = [])
    (more : file.more disk ≠ []) :
    Step disk now f { f with phase := .reading (file.readMore disk) }
  | takeAll (file : OpenFile) (was : f.phase = .reading file) (some : file.ahead ≠ [])
    (none : 10 ∉ file.ahead) :
    Step disk now f { f with phase := .reading file.takeAll }
  | takeLine (file : OpenFile) (line rest : List UInt8) (was : f.phase = .reading file)
    (ahead : file.ahead = line ++ 10 :: rest) (none : 10 ∉ line) :
    Step disk now f
      { f with
        phase := .delivering (file.takeLine line rest)
          (decodeLine (file.pending ++ (line ++ [10]))) }
  | deliver (file : OpenFile) (line : String) (was : f.phase = .delivering file line)
    (room : f.lines.hasRoom = true) :
    Step disk now f { f with phase := .reading file, lines := f.lines.send line }
  | recheck (file : OpenFile) (due : Nat) (was : f.phase = .resting file due)
    (passed : due ≤ now) : Step disk now f (f.recheck disk file)

variable {f f' : Follower} {disk : Disk} {now : Nat}

theorem readPiece_step {file : OpenFile} (was : f.phase = .reading file) :
    Step disk now f (f.readPiece disk now file) := by
  rcases not_mem_or_line file.ahead with hnone | ⟨line, rest, hahead, hline⟩
  · by_cases hnil : file.ahead = []
    · have hread : f.readPiece disk now file =
          if file.more disk = [] then { f with phase := .resting file (now + pollInterval) }
          else { f with phase := .reading (file.readMore disk) } := by
        simp only [readPiece, hnil, nextPiece, List.isEmpty_nil, if_true, List.isEmpty_iff]
        rfl
      rw [hread]
      split
      · exact .rest file was hnil ‹_›
      · exact .readMore file was hnil ‹_›
    · have hlast : file.ahead.getLast? ≠ some 10 := fun hlast => hnone (List.mem_of_getLast? hlast)
      have hread : f.readPiece disk now file = { f with phase := .reading file.takeAll } := by
        simp only [readPiece, nextPiece_of_not_mem hnone, List.isEmpty_iff, hnil, hlast, if_false,
          List.drop_length, OpenFile.takeAll]
      rw [hread]
      exact .takeAll file was hnil hnone
  · have hcons : line ++ 10 :: rest = (line ++ [10]) ++ rest := by simp
    have hrest : file.ahead.drop (line ++ [10]).length = rest := by
      rw [hahead, hcons, List.drop_left]
    have hne : line ++ [10] ≠ [] := by simp
    have hread : f.readPiece disk now file =
        { f with
          phase := .delivering (file.takeLine line rest)
            (decodeLine (file.pending ++ (line ++ [10]))) } := by
      simp only [readPiece, hahead ▸ nextPiece_line hline rest, List.isEmpty_iff, hne, if_false,
        List.getLast?_concat, if_true, hrest, OpenFile.takeLine]
    rw [hread]
    exact .takeLine file line rest was hahead hline

/-- A follower that is not stopped does one of these steps. -/
theorem step_of_step? (hreader : f.lines.readerGone = false)
    (h : f.step? disk now false = some f') : Step disk now f f' := by
  unfold step? at h
  cases hp : f.phase with
  | opening =>
    simp only [hp, Option.some.injEq] at h
    subst h
    unfold openFile
    split
    · exact .missing hp ‹_›
    · exact .barred hp ‹_›
    · exact .opened _ hp ‹_›
  | retrying due =>
    simp only [hp, Bool.false_eq_true, if_false, Option.ite_none_right_eq_some,
      Option.some.injEq] at h
    obtain ⟨hpassed, rfl⟩ := h
    exact .retry due hp hpassed
  | reading file =>
    simp only [hp, Bool.false_eq_true, if_false, Option.some.injEq] at h
    subst h
    exact readPiece_step hp
  | delivering file line =>
    simp only [hp, hreader, Bool.false_eq_true, if_false, Option.ite_none_right_eq_some,
      Option.some.injEq] at h
    obtain ⟨hroom, rfl⟩ := h
    exact .deliver file line hp hroom
  | resting file due =>
    simp only [hp, Bool.false_eq_true, if_false, Option.ite_none_right_eq_some,
      Option.some.injEq] at h
    obtain ⟨hpassed, rfl⟩ := h
    exact .recheck file due hp hpassed
  | stopped => simp only [hp, reduceCtorEq] at h

/-- A follower delivers no more lines than may wait. -/
theorem Step.room (step : Step disk now f f')
    (h : f.lines.items.length ≤ f.lines.capacity) :
    f'.lines.items.length ≤ f'.lines.capacity := by
  cases step with
  | deliver file line was room =>
    simp only [Channel.hasRoom, decide_eq_true_eq] at room
    simp only [Channel.send, List.length_append, List.length_singleton]
    omega
  | recheck file due was passed =>
    unfold Follower.recheck
    split
    · split <;> exact h
    · exact h
  | _ => exact h

end Follower

end Tail

end FleetWatch
