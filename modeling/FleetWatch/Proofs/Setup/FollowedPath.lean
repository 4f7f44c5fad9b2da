import FleetWatch.Proofs.Setup.Following
import Mathlib.Data.List.Find
import Mathlib.Data.List.Infix
/-!
A followed path, and everything that can happen to it.

Others add to the file at the path, cut it, rename it away, remove it and put it back, and what the
follower does may fail, all of it at any time between two of the follower's steps.  The path keeps a
record of the files that were opened at it, one after the other: from where they were read, what was
there, which lines were delivered, and what ended the reading.
-/

namespace FleetWatch

namespace Disk

/-- What a thing that a path names holds. -/
def held (d : Disk) : Place → List UInt8
  | .file id => d.contents id
  | _ => []

/-- Cuts the file at the path to a length. -/
def truncate (d : Disk) (length : Nat) : Disk :=
  match d.place with
  | .file id => d.setContents id ((d.contents id).take length)
  | _ => d

end Disk

namespace Tail.Follower

/-- The file that a follower has open. -/
def openFile? (f : Follower) : Option OpenFile :=
  match f.phase with
  | .reading file | .delivering file _ | .resting file _ => some file
  | _ => none

/-- The follower is on its way through the bytes of a file, and not waiting. -/
def isReading (f : Follower) : Bool :=
  match f.phase with
  | .reading _ | .delivering _ _ => true
  | _ => false

end Tail.Follower

/-- One opening of what stands at a path. -/
structure Opening where
  place : Place
  /-- Where it is read from. -/
  start : Nat
  /-- What it holds; once it is cut below what was read, what it held before. -/
  text : List UInt8
  isCut : Bool := false
  /-- What it held from the start on when the follower last came to its end. -/
  found : List UInt8 := []
  lines : List String := []
deriving Repr, DecidableEq

namespace Opening

/-- What there is to read. -/
def rest (o : Opening) : List UInt8 :=
  o.text.drop o.start

/-- The opening as the disk is now. -/
def refresh (disk : Disk) (o : Opening) : Opening :=
  if o.isCut then o else { o with text := disk.held o.place }

def cut (o : Opening) : Opening :=
  { o with isCut := true }

/-- The follower came to the end. -/
def reachEnd (o : Opening) : Opening :=
  { o with found := o.rest }

def deliver (line : String) (o : Opening) : Opening :=
  { o with lines := o.lines ++ [line] }

end Opening

/-- What ended the reading of something that was opened. -/
inductive Ending where
  /-- A look at the path showed this, with so much of the file read and so much there. -/
  | looked (place : Place) (position length : Nat)
  | unexamined
  | unread
  | unsought
deriving Repr, DecidableEq

/-- What can happen to a followed path. -/
inductive PathEvent where
  | append (bytes : List UInt8)
  | truncate (length : Nat)
  /-- The file is renamed away, and there is a new one. -/
  | rotate (bytes : List UInt8)
  | remove
  | makeDirectory
  | removeDirectory
  /-- The follower goes on, if it can. -/
  | follow
  /-- The follower goes on, and what it does fails. -/
  | fail (fault : Tail.Fault)
  /-- The reader takes some of the lines that wait. -/
  | take (count : Nat)
  | pass (ms : Nat)
deriving Repr, DecidableEq

/-- A path with its follower and what became of both. -/
structure FollowedPath where
  now : Nat := 0
  disk : Disk := {}
  follower : Tail.Follower
  /-- The lines that the reader took. -/
  received : List String := []
  /-- What was opened and given up again, oldest first. -/
  past : List (Opening × Ending) := []
  current : Option Opening := none
  /-- The files renamed away since something was opened, oldest first. -/
  renamed : List Nat := []
deriving Repr, DecidableEq

namespace FollowedPath

/-- A path where nothing is yet, and a follower that is about to look. -/
def start (offset : Nat) : FollowedPath :=
  { follower := { offset } }

/-- Everything that was opened, oldest first. -/
def openings (p : FollowedPath) : List Opening :=
  p.past.map Prod.fst ++ p.current.toList

/-- Every line that left the follower. -/
def delivered (p : FollowedPath) : List String :=
  p.received ++ p.follower.lines.items

/-- What is opened if the path is opened now. -/
def opening (p : FollowedPath) : Opening :=
  { place := p.disk.place, start := p.follower.offset, text := p.disk.log }

/-- The path after the disk became another one. -/
def change (p : FollowedPath) (disk : Disk) : FollowedPath :=
  { p with disk, current := p.current.map (Opening.refresh disk) }

/-- What was opened last is given up. -/
def close (p : FollowedPath) (ending : Ending) : FollowedPath :=
  { p with past := p.past ++ (p.current.map fun o => (o, ending)).toList, current := none }

/-- Cutting the file at the path to a length takes away some of what the follower read. -/
def cutsRead (p : FollowedPath) (length : Nat) : Bool :=
  p.follower.openFile?.any fun file =>
    p.disk.place = .file file.id ∧ length < file.position ∧ length < (p.disk.contents file.id).length

/-- The file at the path, if anything was opened yet. -/
def standing (p : FollowedPath) : List Nat :=
  match p.disk.place, p.openings with
  | .file id, _ :: _ => [id]
  | _, _ => []

/-- The path after its follower went on. -/
def goOn (p : FollowedPath) (f : Tail.Follower) : FollowedPath :=
  let after := { p with follower := f }
  match p.follower.phase, f.phase with
  | .opening, .reading _ => { after with current := some p.opening }
  | .opening, .retrying _ =>
    if p.disk.place = .absent then after else { after with past := p.past ++ [(p.opening, .unread)] }
  | .reading _, .resting _ _ => { after with current := p.current.map Opening.reachEnd }
  | .delivering _ line, _ => { after with current := p.current.map (Opening.deliver line) }
  | .resting file _, .opening =>
    after.close (.looked p.disk.place file.position (p.disk.contents file.id).length)
  | _, _ => after

/-- The path after something failed that its follower did. -/
def failOn (p : FollowedPath) (fault : Tail.Fault) (f : Tail.Follower) : FollowedPath :=
  let after := { p with follower := f }
  match fault with
  | .opening => after
  | .seeking => { after with past := p.past ++ [(p.opening, .unsought)] }
  | .reading => after.close .unread
  | .examining => after.close .unexamined

/-- What happens does to a followed path. -/
def on (p : FollowedPath) : PathEvent → FollowedPath
  | .append bytes => p.change (p.disk.append bytes)
  | .truncate length =>
    if p.cutsRead length then
      { p with disk := p.disk.truncate length, current := p.current.map Opening.cut }
    else p.change (p.disk.truncate length)
  | .rotate bytes => { p.change (p.disk.rotate bytes) with renamed := p.renamed ++ p.standing }
  | .remove => p.change p.disk.remove
  | .makeDirectory => p.change p.disk.makeDirectory
  | .removeDirectory => p.change p.disk.removeDirectory
  | .follow => ((p.follower.step? p.disk p.now false).map p.goOn).getD p
  | .fail fault => ((p.follower.fault? p.disk p.now fault).map (p.failOn fault)).getD p
  | .take count =>
    { p with
      received := p.received ++ (p.follower.lines.read count).1.items
      follower := { p.follower with lines := (p.follower.lines.read count).2 } }
  | .pass ms => { p with now := p.now + ms }

/-- Several things that happen, in order. -/
def run (p : FollowedPath) (events : List PathEvent) : FollowedPath :=
  events.foldl on p

/-- That something is so of everything that happens, when it happens. -/
def throughout (ok : FollowedPath → PathEvent → Bool) : FollowedPath → List PathEvent → Bool
  | _, [] => true
  | p, e :: events => ok p e && throughout ok (p.on e) events

theorem delivered_take (p : FollowedPath) (count : Nat) :
    (p.on (.take count)).delivered = p.delivered := by
  simp only [on, delivered, Channel.read, List.append_assoc, List.take_append_drop]

/-- What holds at first and is kept by whatever is allowed holds at last. -/
theorem run_induction {ok : FollowedPath → PathEvent → Bool} {P : FollowedPath → Prop}
    (step : ∀ p e, ok p e = true → P p → P (p.on e)) {p : FollowedPath} (hp : P p)
    {events : List PathEvent} (hok : p.throughout ok events = true) : P (p.run events) := by
  induction events generalizing p with
  | nil => exact hp
  | cons e events ih =>
    rw [throughout, Bool.and_eq_true] at hok
    exact ih (step p e hok.1 hp) hok.2

end FollowedPath

/-! ### Changes that only add -/

namespace Disk

theorem held_place (d : Disk) : d.held d.place = d.log := by
  unfold held log
  cases d.place <;> rfl

theorem contents_setContents_of_ne {d : Disk} {id other : Nat} (h : other ≠ id) (bytes : List UInt8) :
    (d.setContents id bytes).contents other = d.contents other := by
  simp only [contents, setContents]
  rw [List.find?_cons_of_neg (by simpa using Ne.symm h), List.find?_filter]
  congr 2
  refine List.find?_congr fun f _ => ?_
  by_cases hf : f.1 = other
  · simp [hf, h]
  · simp [hf]

theorem contents_create_of_lt {d : Disk} {id : Nat} (h : id < d.nextId) (bytes : List UInt8) :
    (d.create bytes).contents id = d.contents id := by
  simp only [contents, create]
  rw [List.find?_cons_of_neg (by simpa using (Nat.ne_of_lt h).symm)]

/-- New files are told from those that stood at the path before. -/
def HasFreshIds (d : Disk) : Prop :=
  ∀ id, d.place = .file id → id < d.nextId

/-- A change after which every file holds what it held, and maybe more. -/
structure Grows (d d' : Disk) : Prop where
  nextId_le : d.nextId ≤ d'.nextId
  fresh : d.HasFreshIds → d'.HasFreshIds
  prefix_contents : ∀ id, id < d.nextId → d.contents id <+: d'.contents id

theorem grows_create (d : Disk) (bytes : List UInt8) : d.Grows (d.create bytes) where
  nextId_le := Nat.le_succ _
  fresh _ id h := by
    cases h
    exact Nat.lt_succ_self _
  prefix_contents id h := by
    rw [contents_create_of_lt h]

theorem grows_of_place {d d' : Disk} (hfiles : d'.files = d.files) (hnext : d'.nextId = d.nextId)
    (hplace : ∀ id, d'.place = .file id → d.place = .file id) : d.Grows d' where
  nextId_le := Nat.le_of_eq hnext.symm
  fresh h id hid := hnext ▸ h id (hplace id hid)
  prefix_contents id _ := by
    rw [contents, contents, hfiles]

theorem grows_append (d : Disk) (bytes : List UInt8) : d.Grows (d.append bytes) := by
  cases hp : d.place with
  | absent =>
    rw [append, hp]
    exact d.grows_create bytes
  | directory =>
    rw [append, hp]
    exact grows_of_place rfl rfl fun _ h => h
  | file id =>
    rw [append, hp]
    refine ⟨Nat.le_refl _, fun h => h, fun other _ => ?_⟩
    by_cases hother : other = id
    · rw [hother, contents_setContents]
      exact List.prefix_append _ _
    · rw [contents_setContents_of_ne hother]

theorem grows_remove (d : Disk) : d.Grows d.remove := by
  unfold remove
  split
  · exact grows_of_place rfl rfl nofun
  · exact grows_of_place rfl rfl fun _ h => h

theorem Grows.trans {d d' d'' : Disk} (h : d.Grows d') (h' : d'.Grows d'') : d.Grows d'' where
  nextId_le := Nat.le_trans h.nextId_le h'.nextId_le
  fresh hfresh := h'.fresh (h.fresh hfresh)
  prefix_contents id hid :=
    (h.prefix_contents id hid).trans
      (h'.prefix_contents id (Nat.lt_of_lt_of_le hid h.nextId_le))

theorem grows_rotate (d : Disk) (bytes : List UInt8) : d.Grows (d.rotate bytes) :=
  d.grows_remove.trans (d.remove.grows_create bytes)

theorem grows_makeDirectory (d : Disk) : d.Grows d.makeDirectory := by
  unfold makeDirectory
  split
  · exact grows_of_place rfl rfl nofun
  · exact grows_of_place rfl rfl fun _ h => h

theorem grows_removeDirectory (d : Disk) : d.Grows d.removeDirectory := by
  unfold removeDirectory
  split
  · exact grows_of_place rfl rfl nofun
  · exact grows_of_place rfl rfl fun _ h => h

theorem place_truncate (d : Disk) (length : Nat) : (d.truncate length).place = d.place := by
  cases hp : d.place <;> simp [truncate, setContents, hp]

theorem nextId_truncate (d : Disk) (length : Nat) : (d.truncate length).nextId = d.nextId := by
  cases hp : d.place <;> simp [truncate, setContents, hp]

theorem contents_truncate {d : Disk} {id : Nat} (h : d.place = .file id) (length : Nat) :
    (d.truncate length).contents id = (d.contents id).take length := by
  rw [truncate, h]
  exact d.contents_setContents id _

theorem contents_truncate_of_ne {d : Disk} {id : Nat} (h : d.place ≠ .file id) (length : Nat) :
    (d.truncate length).contents id = d.contents id := by
  cases hp : d.place with
  | absent => rw [truncate, hp]
  | directory => rw [truncate, hp]
  | file other =>
    have hne : id ≠ other := fun heq => h (heq ▸ hp)
    rw [truncate, hp]
    exact contents_setContents_of_ne hne _

end Disk

end FleetWatch
