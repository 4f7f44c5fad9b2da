import FleetWatch.Proofs.Setup.Reopening
/-!
Following a file that is renamed away and replaced.

A follower reads the file that it has open to its end, rests, and then looks which file stands at the
path; a file that was replaced is given up as it was when its end was reached.  Main statement: what
is delivered of each replaced file is the lines that were complete then, and nothing is lost if every
replacement finds the follower at the file it replaces, on its way through it or with nothing more to
read (`run_readsReplaced`).  What is added to a file while the follower rests at its end, and a file
that comes and goes in the meantime, are lost (`lateLine_lost`).
-/

namespace FleetWatch

namespace Disk

variable {d : Disk} {id : Nat}

/-- A file that does not stand at the path any more. -/
structure IsAway (d : Disk) (id : Nat) : Prop where
  id_lt : id < d.nextId
  place_ne : d.place ≠ .file id

theorem place_append_eq_iff (h : id < d.nextId) (bytes : List UInt8) :
    (d.append bytes).place = .file id ↔ d.place = .file id := by
  cases hp : d.place with
  | absent =>
    rw [append, hp, create]
    simp only [Place.file.injEq, reduceCtorEq, iff_false]
    exact (Nat.ne_of_lt h).symm
  | directory => rw [append, hp, hp]
  | file other => rw [place_append hp]

theorem IsAway.append (h : d.IsAway id) (bytes : List UInt8) : (d.append bytes).IsAway id where
  id_lt := Nat.lt_of_lt_of_le h.id_lt (d.grows_append bytes).nextId_le
  place_ne := fun hplace => h.place_ne ((place_append_eq_iff h.id_lt bytes).mp hplace)

theorem IsAway.contents_append (h : d.IsAway id) (bytes : List UInt8) :
    (d.append bytes).contents id = d.contents id := by
  cases hp : d.place with
  | absent =>
    rw [Disk.append, hp]
    exact contents_create_of_lt h.id_lt bytes
  | directory => rw [Disk.append, hp]
  | file other =>
    have hne : id ≠ other := fun heq => h.place_ne (heq ▸ hp)
    rw [Disk.append, hp]
    exact contents_setContents_of_ne hne _

theorem nextId_remove (d : Disk) : d.remove.nextId = d.nextId := by
  unfold remove
  split <;> rfl

theorem isAway_rotate (h : id < d.nextId) (bytes : List UInt8) : (d.rotate bytes).IsAway id where
  id_lt := Nat.lt_of_lt_of_le h (d.grows_rotate bytes).nextId_le
  place_ne := by
    rw [rotate, create, nextId_remove]
    simp only [ne_eq, Place.file.injEq]
    exact (Nat.ne_of_lt h).symm

theorem contents_rotate (h : id < d.nextId) (bytes : List UInt8) :
    (d.rotate bytes).contents id = d.contents id := by
  rw [rotate, contents_create_of_lt (d.nextId_remove.symm ▸ h)]
  unfold remove
  split <;> rfl

/-- The complete lines of several files, the first of them from a byte on. -/
def linesInTurn (d : Disk) : Nat → List Place → List String
  | _, [] => []
  | start, place :: places =>
    (completeLines ((d.held place).drop start)).map decodeLine ++ d.linesInTurn 0 places

theorem linesInTurn_prefix (d : Disk) (start : Nat) (places later : List Place) :
    d.linesInTurn start places <+: d.linesInTurn start (places ++ later) := by
  induction places generalizing start with
  | nil => exact List.nil_prefix
  | cons place places ih =>
    rw [List.cons_append, linesInTurn, linesInTurn, List.prefix_append_right_inj]
    exact ih 0

end Disk

namespace FollowedPath

variable {offset : Nat} {p p' : FollowedPath} {e : PathEvent}

/-! ### Replaced files -/

/-- Whether a file that is about to be opened reaches to the follower's start. -/
def opensWithin (p : FollowedPath) : Bool :=
  match p.follower.phase, p.disk.place with
  | .opening, .file id => p.follower.offset ≤ (p.disk.contents id).length
  | _, _ => true

/-- Whether the file at the path is only added to and replaced, and reaches to the follower's start
when it is opened. -/
def rotatesOnly (p : FollowedPath) : PathEvent → Bool
  | .append _ | .rotate _ | .take _ | .pass _ => true
  | .follow => p.opensWithin
  | _ => false

theorem opensWithin_opened {id : Nat} (hok : p.opensWithin = true)
    (was : p.follower.phase = .opening) (place : p.disk.place = .file id) :
    p.opening.start ≤ p.opening.text.length := by
  rw [opensWithin, was, place, decide_eq_true_eq, ← Disk.log_eq_contents place] at hok
  exact hok

/-- What was read of a file that was opened within it, and never cut, is still there. -/
theorem Sound.position_le (h : Sound offset p) {file : Tail.OpenFile} {due : Nat} {o : Opening}
    (was : p.follower.phase = .resting file due) (hcurrent : p.current = some o)
    (hcut : o.isCut = false) (hstart : o.start ≤ o.text.length) :
    file.position ≤ (p.disk.contents file.id).length := by
  have hisAt := h.isAt
  rw [was] at hisAt
  obtain ⟨o', hsame, hahead, hreads⟩ := hisAt.of_resting
  cases hcurrent.symm.trans hsame
  have hlength := hreads.taken_prefix.length_le
  have hposition := hreads.position_eq
  rw [hahead, List.append_nil, Opening.rest, List.length_drop] at hlength
  rw [← hreads.text_eq hcut]
  omega

/-- A file that was given up because it was replaced. -/
structure IsReplaced (disk : Disk) (renamed : List Nat) (o : Opening) (id : Nat) : Prop where
  place_eq : o.place = .file id
  isAway : disk.IsAway id
  text_eq : o.text = disk.contents id
  mem_renamed : id ∈ renamed
  isRead : o.IsRead

/-- What holds of a path at every moment if its file is only added to and replaced. -/
structure Rotated (offset : Nat) (p : FollowedPath) : Prop where
  sound : Sound offset p
  place_ne : p.disk.place ≠ .directory
  current : ∀ o, p.current = some o → o.isCut = false ∧ o.start ≤ o.text.length ∧
    ∃ id, o.place = .file id ∧ (p.disk.place = .file id ∨ id ∈ p.renamed)
  past : ∀ q ∈ p.past, ∃ id, IsReplaced p.disk p.renamed q.1 id

theorem Rotated.inOrder (h : Rotated offset p) (hok : p.rotatesOnly e = true) :
    p.inOrder e = true := by
  cases e with
  | truncate length => cases hok
  | follow =>
    rw [FollowedPath.inOrder]
    split
    · next file due o _ hcurrent =>
      simp only [(h.current o hcurrent).1, Bool.false_and, Bool.not_false, Bool.true_or]
    · rfl
  | _ => rfl

/-- A file at hand stays what it is on a disk where files only grew. -/
theorem Rotated.current_change (h : Rotated offset p) {disk : Disk} (hgrows : p.disk.Grows disk)
    {o' : Opening} (ho' : (p.change disk).current = some o') :
    o'.isCut = false ∧ o'.start ≤ o'.text.length ∧
      ∃ o file, p.current = some o ∧ p.follower.openFile? = some file ∧ o.place = .file file.id ∧
        file.id < p.disk.nextId ∧ o'.place = .file file.id := by
  obtain ⟨o, hcurrent, rfl⟩ := Option.map_eq_some_iff.mp ho'
  obtain ⟨hcut, hstart, _⟩ := h.current o hcurrent
  obtain ⟨file, _, hfile, hreads⟩ := h.sound.reads_current hcurrent
  have hlength := (hgrows.prefix_contents _ hreads.id_lt).length_le
  rw [hreads.text_eq hcut] at hstart
  simp only [Opening.refresh, hcut, Bool.false_eq_true, if_false, hreads.place_eq, Disk.held,
    true_and]
  exact ⟨Nat.le_trans hstart hlength, o, file, hcurrent, hfile, hreads.place_eq, hreads.id_lt, rfl⟩

theorem Rotated.append (h : Rotated offset p) (bytes : List UInt8) :
    Rotated offset (p.on (.append bytes)) where
  sound := h.sound.change (p.disk.grows_append bytes)
  place_ne := Disk.place_append_ne h.place_ne bytes
  current := by
    intro o' ho'
    obtain ⟨hcut, hstart, o, file, hcurrent, _, hplace, hlt, hsame⟩ :=
      h.current_change (p.disk.grows_append bytes) ho'
    obtain ⟨_, _, id, hid, hwhere⟩ := h.current o hcurrent
    cases hplace.symm.trans hid
    exact ⟨hcut, hstart, _, hsame, hwhere.imp_left (Disk.place_append_eq_iff hlt bytes).mpr⟩
  past := by
    intro q hq
    obtain ⟨id, hreplaced⟩ := h.past q hq
    exact ⟨id, hreplaced.place_eq, hreplaced.isAway.append bytes,
      hreplaced.text_eq.trans (hreplaced.isAway.contents_append bytes).symm, hreplaced.mem_renamed,
      hreplaced.isRead⟩

theorem Rotated.rotate (h : Rotated offset p) (bytes : List UInt8) :
    Rotated offset (p.on (.rotate bytes)) where
  sound := h.sound.on (e := .rotate bytes) rfl
  place_ne := by
    simp only [FollowedPath.on, FollowedPath.change, Disk.rotate, Disk.create, ne_eq, reduceCtorEq,
      not_false_eq_true]
  current := by
    intro o' ho'
    obtain ⟨hcut, hstart, o, file, hcurrent, _, hplace, hlt, hsame⟩ :=
      h.current_change (p.disk.grows_rotate bytes) ho'
    obtain ⟨_, _, id, hid, hwhere⟩ := h.current o hcurrent
    cases hplace.symm.trans hid
    refine ⟨hcut, hstart, _, hsame, Or.inr (List.mem_append.mpr ?_)⟩
    rcases hwhere with hat | hrenamed
    · right
      cases hopenings : p.openings with
      | nil => simp [openings, hcurrent] at hopenings
      | cons => simp only [standing, hat, hopenings, List.mem_singleton]
    · exact Or.inl hrenamed
  past := by
    intro q hq
    obtain ⟨id, hreplaced⟩ := h.past q hq
    have hlt := hreplaced.isAway.id_lt
    exact ⟨id, hreplaced.place_eq, Disk.isAway_rotate hlt bytes,
      hreplaced.text_eq.trans (Disk.contents_rotate hlt bytes).symm,
      List.mem_append_left _ hreplaced.mem_renamed, hreplaced.isRead⟩

/-- A file that is given up was replaced. -/
theorem Rotated.isReplaced (h : Rotated offset p) {file : Tail.OpenFile} {due : Nat}
    (was : p.follower.phase = .resting file due)
    (reason : p.disk.place ≠ .file file.id ∨ (p.disk.contents file.id).length < file.position) :
    ∃ o, p.current = some o ∧ IsReplaced p.disk p.renamed o file.id := by
  have hisAt := h.sound.isAt
  rw [was] at hisAt
  obtain ⟨o, hcurrent, hahead, hreads⟩ := hisAt.of_resting
  obtain ⟨hcut, hstart, id, hid, hwhere⟩ := h.current o hcurrent
  cases hreads.place_eq.symm.trans hid
  have hwhole := h.sound.position_le was hcurrent hcut hstart
  have haway := reason.resolve_right (Nat.not_lt.mpr hwhole)
  have hprefix := hreads.taken_prefix
  rw [hahead, List.append_nil] at hprefix
  exact ⟨o, hcurrent, hid, ⟨hreads.id_lt, haway⟩, hreads.text_eq hcut, hwhere.resolve_left haway,
    ⟨hreads.lines_eq, hprefix⟩⟩

theorem Rotated.turn (h : Rotated offset p) (hok : p.rotatesOnly e = true) (turn : Turn p e p') :
    Rotated offset p' := by
  have hsound := h.sound.turn (h.inOrder hok) turn
  cases turn with
  | idle => exact h
  | missing | retry | readMore | takeAll | takeLine | goBack =>
    exact ⟨hsound, h.place_ne, h.current, h.past⟩
  | barred was place => exact absurd place h.place_ne
  | unsought | unread | unexamined => cases hok
  | opened id was place =>
    refine ⟨hsound, h.place_ne, fun o ho => ?_, h.past⟩
    cases ho
    exact ⟨rfl, opensWithin_opened hok was place, id, place, Or.inl place⟩
  | rest | deliver =>
    refine ⟨hsound, h.place_ne, fun o' ho' => ?_, h.past⟩
    obtain ⟨o, hcurrent, rfl⟩ := Option.map_eq_some_iff.mp ho'
    exact h.current o hcurrent
  | reopen file due was passed reason =>
    obtain ⟨o, hcurrent, hreplaced⟩ := h.isReplaced was reason
    refine ⟨hsound, h.place_ne, nofun, ?_⟩
    simp only [FollowedPath.close, hcurrent]
    refine List.forall_mem_append.mpr ⟨h.past, List.forall_mem_singleton.mpr ⟨file.id, ?_⟩⟩
    exact hreplaced

theorem Rotated.on (h : Rotated offset p) (hok : p.rotatesOnly e = true) :
    Rotated offset (p.on e) := by
  cases e with
  | append bytes => exact h.append bytes
  | rotate bytes => exact h.rotate bytes
  | follow => exact h.turn hok (follow_turn h.sound.readerGone)
  | take count => exact ⟨h.sound.on (h.inOrder hok), h.place_ne, h.current, h.past⟩
  | pass ms => exact ⟨h.sound.on (h.inOrder hok), h.place_ne, h.current, h.past⟩
  | _ => cases hok

theorem start_rotated (offset : Nat) : Rotated offset (start offset) where
  sound := start_sound offset
  place_ne := nofun
  current := nofun
  past := fun _ h => absurd h List.not_mem_nil

theorem run_rotated (offset : Nat) {events : List PathEvent}
    (hok : (start offset).throughout rotatesOnly events = true) :
    Rotated offset ((start offset).run events) :=
  run_induction (fun _ _ hok h => h.on hok) (start_rotated offset) hok

/-! ### Replacements that the follower sees in time -/

/-- Whether every replacement finds the follower at the file that it replaces, on its way through it
or with nothing more to read. -/
def seesEach (p : FollowedPath) (e : PathEvent) : Bool :=
  p.rotatesOnly e &&
    match e with
    | .rotate _ =>
      p.openings.isEmpty || p.follower.openFile?.any fun file =>
        p.disk.place = .file file.id ∧
          (p.follower.isReading ∨ file.position = (p.disk.contents file.id).length)
    | _ => true

/-- The files renamed away are those that were given up, one after the other, and the file at hand if
another one stands at the path. -/
inductive InTurn (p : FollowedPath) : Prop where
  | abreast (renamed : p.past.map (fun q => q.1.place) = p.renamed.map Place.file)
    (here : ∀ o, p.current = some o → o.place = p.disk.place)
  | behind (o : Opening) (current : p.current = some o) (away : o.place ≠ p.disk.place)
    (renamed : p.past.map (fun q => q.1.place) ++ [o.place] = p.renamed.map Place.file)
    (whole : p.follower.isReading = false → o.found = o.rest)

/-- What holds of a path at every moment if the follower sees each replacement in time. -/
structure Seen (offset : Nat) (p : FollowedPath) : Prop where
  rotated : Rotated offset p
  whole : ∀ q ∈ p.past, q.1.found = q.1.rest
  inTurn : p.InTurn

/-- A file at hand is the same one while nothing is added to it. -/
theorem Rotated.refresh_eq (h : Rotated offset p) {o : Opening} (hcurrent : p.current = some o)
    {disk : Disk} (hcontents : ∀ id, o.place = .file id → disk.contents id = p.disk.contents id) :
    o.refresh disk = o := by
  obtain ⟨hcut, _⟩ := h.current o hcurrent
  obtain ⟨_, _, _, hreads⟩ := h.sound.reads_current hcurrent
  have htext : disk.held o.place = o.text := by
    rw [hreads.text_eq hcut, hreads.place_eq, Disk.held, hcontents _ hreads.place_eq]
  unfold Opening.refresh
  rw [if_neg (hcut ▸ Bool.false_ne_true), htext]

/-- A follower that rests with nothing more to read found all there is. -/
theorem Rotated.found_eq_rest (h : Rotated offset p) {o : Opening} (hcurrent : p.current = some o)
    {file : Tail.OpenFile} (hfile : p.follower.openFile? = some file)
    (hwaiting : p.follower.isReading = false)
    (hread : file.position = (p.disk.contents file.id).length) : o.found = o.rest := by
  rcases h.sound.isAt.of_not_reading hwaiting with ⟨hnone, _⟩ | ⟨file', due, o', hp, hsame, hreads⟩
  · cases hnone.symm.trans hcurrent
  · cases hcurrent.symm.trans hsame
    simp only [Tail.Follower.openFile?, hp, Option.some.injEq] at hfile
    subst hfile
    obtain ⟨hahead, hreads⟩ := hreads
    have hprefix := hreads.taken_prefix
    rw [hahead, List.append_nil] at hprefix
    refine hprefix.eq_of_length ?_
    rw [Opening.rest, List.length_drop, hreads.text_eq (h.current o hcurrent).1, ← hread,
      hreads.position_eq, Nat.add_sub_cancel_left]

theorem Seen.append (h : Seen offset p) (bytes : List UInt8) : Seen offset (p.on (.append bytes)) := by
  refine ⟨h.rotated.append bytes, h.whole, ?_⟩
  cases h.inTurn with
  | abreast renamed here =>
    refine .abreast renamed fun o' ho' => ?_
    obtain ⟨_, _, o, file, hcurrent, _, hplace, hlt, hsame⟩ :=
      h.rotated.current_change (p.disk.grows_append bytes) ho'
    have hat := (here o hcurrent).symm.trans hplace
    exact hsame.trans (Disk.place_append hat bytes).symm
  | behind o hcurrent away renamed whole =>
    obtain ⟨_, _, id, hid, _⟩ := h.rotated.current o hcurrent
    obtain ⟨file, _, _, hreads⟩ := h.rotated.sound.reads_current hcurrent
    cases hid.symm.trans hreads.place_eq
    have haway : p.disk.IsAway file.id := ⟨hreads.id_lt, fun hat => away (hid.trans hat.symm)⟩
    have hsame : o.refresh (p.disk.append bytes) = o := by
      refine h.rotated.refresh_eq hcurrent fun id hplace => ?_
      cases hid.symm.trans hplace
      exact haway.contents_append bytes
    refine .behind o ?_ ?_ renamed whole
    · simp only [FollowedPath.on, FollowedPath.change, hcurrent, Option.map_some, hsame]
    · exact fun hat => (haway.append bytes).place_ne (hat.symm.trans hid)

theorem Seen.rotate (h : Seen offset p) (bytes : List UInt8)
    (hok : p.seesEach (.rotate bytes) = true) : Seen offset (p.on (.rotate bytes)) := by
  refine ⟨h.rotated.rotate bytes, h.whole, ?_⟩
  simp only [seesEach, rotatesOnly, Bool.true_and, Bool.or_eq_true, List.isEmpty_iff,
    Option.any_eq_true, decide_eq_true_eq] at hok
  rcases hok with hnone | ⟨file, hfile, hat, hread⟩
  · have hpast : p.past = [] := List.map_eq_nil_iff.mp (List.append_eq_nil_iff.mp hnone).1
    have hcurrent : p.current = none := by
      simpa [openings, hpast] using hnone
    have hstanding : p.standing = [] := by
      unfold standing
      split
      · next hopenings => cases hnone.symm.trans hopenings
      · rfl
    refine .abreast ?_ fun o ho => ?_
    · cases h.inTurn with
      | abreast renamed here =>
        rw [hpast] at renamed
        simp only [FollowedPath.on, FollowedPath.change, hpast, hstanding, List.append_nil, renamed]
      | behind o current => cases hcurrent.symm.trans current
    · simp [FollowedPath.on, FollowedPath.change, hcurrent] at ho
  · obtain ⟨o, taken, hcurrent, hreads⟩ := h.rotated.sound.reads hfile
    have hsame : o.refresh (p.disk.rotate bytes) = o := by
      refine h.rotated.refresh_eq hcurrent fun id hplace => ?_
      cases hreads.place_eq.symm.trans hplace
      exact Disk.contents_rotate hreads.id_lt bytes
    have hstanding : p.standing = [file.id] := by
      cases hopenings : p.openings with
      | nil => simp [openings, hcurrent] at hopenings
      | cons => simp only [standing, hat, hopenings]
    refine .behind o ?_ ?_ ?_ fun hwaiting => ?_
    · simp only [FollowedPath.on, FollowedPath.change, hcurrent, Option.map_some, hsame]
    · exact fun hback =>
        (Disk.isAway_rotate hreads.id_lt bytes).place_ne (hback.symm.trans hreads.place_eq)
    · cases h.inTurn with
      | abreast renamed here =>
        simp only [FollowedPath.on, FollowedPath.change, hstanding, List.map_append, List.map_cons,
          List.map_nil, renamed, hreads.place_eq]
      | behind o' current away =>
        cases hcurrent.symm.trans current
        exact absurd (hreads.place_eq.trans hat.symm) away
    · exact h.rotated.found_eq_rest hcurrent hfile hwaiting
        (hread.resolve_left (hwaiting ▸ Bool.false_ne_true))

/-- The follower goes on with what it has at hand. -/
theorem InTurn.map (h : p.InTurn) {view : Opening → Opening} (hplace : ∀ o, (view o).place = o.place)
    (hdisk : p'.disk = p.disk) (hpast : p'.past = p.past) (hrenamed : p'.renamed = p.renamed)
    (hcurrent : p'.current = p.current.map view)
    (hwhole : ∀ o, (p.follower.isReading = false → o.found = o.rest) →
      p'.follower.isReading = false → (view o).found = (view o).rest) : p'.InTurn := by
  cases h with
  | abreast renamed here =>
    refine .abreast (by rw [hpast, hrenamed, renamed]) fun o' ho' => ?_
    obtain ⟨o, ho, rfl⟩ := Option.map_eq_some_iff.mp (hcurrent.symm.trans ho')
    rw [hplace, hdisk, here o ho]
  | behind o current away renamed whole =>
    refine .behind (view o) ?_ ?_ ?_ (hwhole o whole)
    · rw [hcurrent, current, Option.map_some]
    · rwa [hplace, hdisk]
    · rw [hplace, hpast, hrenamed, renamed]

theorem InTurn.same (h : p.InTurn) (hdisk : p'.disk = p.disk) (hpast : p'.past = p.past)
    (hrenamed : p'.renamed = p.renamed) (hcurrent : p'.current = p.current)
    (hreading : p'.follower.isReading = false → p.follower.isReading = false) : p'.InTurn :=
  h.map (fun o => show (id o).place = o.place from rfl) hdisk hpast hrenamed
    (hcurrent.trans (congrFun Option.map_id _).symm) fun _ hwhole hwaiting =>
      hwhole (hreading hwaiting)

theorem Seen.turn (h : Seen offset p) (hok : p.rotatesOnly e = true) (turn : Turn p e p') :
    Seen offset p' := by
  have hrotated := h.rotated.turn hok turn
  cases turn with
  | idle => exact h
  | missing _ was =>
    refine ⟨hrotated, h.whole, h.inTurn.same rfl rfl rfl rfl fun _ => ?_⟩
    simp only [Tail.Follower.isReading, was]
  | retry due was =>
    refine ⟨hrotated, h.whole, h.inTurn.same rfl rfl rfl rfl fun _ => ?_⟩
    simp only [Tail.Follower.isReading, was]
  | readMore | takeAll | takeLine | goBack =>
    exact ⟨hrotated, h.whole, h.inTurn.same rfl rfl rfl rfl nofun⟩
  | barred was place => exact absurd place h.rotated.place_ne
  | unsought | unread | unexamined => cases hok
  | opened id was place =>
    refine ⟨hrotated, h.whole, ?_⟩
    have hnone := h.rotated.sound.isAt.of_waiting (Or.inl was)
    cases h.inTurn with
    | abreast renamed here =>
      refine .abreast renamed fun o ho => ?_
      cases ho
      rfl
    | behind o current => cases hnone.symm.trans current
  | rest =>
    have hplace : ∀ o : Opening, o.reachEnd.place = o.place := fun _ => rfl
    exact ⟨hrotated, h.whole, h.inTurn.map hplace rfl rfl rfl rfl fun _ _ _ => rfl⟩
  | deliver file line was =>
    have hplace : ∀ o : Opening, (o.deliver line).place = o.place := fun _ => rfl
    exact ⟨hrotated, h.whole, h.inTurn.map hplace rfl rfl rfl rfl nofun⟩
  | reopen file due was passed reason =>
    obtain ⟨o, hcurrent, hreplaced⟩ := h.rotated.isReplaced was reason
    have hwaiting : p.follower.isReading = false := by simp only [Tail.Follower.isReading, was]
    cases h.inTurn with
    | abreast renamed here =>
      exact absurd ((here o hcurrent).symm.trans hreplaced.place_eq) hreplaced.isAway.place_ne
    | behind o' current away renamed whole =>
      cases hcurrent.symm.trans current
      refine ⟨hrotated, ?_, .abreast ?_ nofun⟩
      · simp only [FollowedPath.close, hcurrent]
        exact List.forall_mem_append.mpr ⟨h.whole, List.forall_mem_singleton.mpr (whole hwaiting)⟩
      · simp only [FollowedPath.close, hcurrent, Option.map_some, Option.toList_some, List.map_append,
          List.map_cons, List.map_nil, renamed]

theorem Seen.on (h : Seen offset p) (hok : p.seesEach e = true) : Seen offset (p.on e) := by
  have hrotates : p.rotatesOnly e = true := (Bool.and_eq_true_iff.mp hok).1
  cases e with
  | append bytes => exact h.append bytes
  | rotate bytes => exact h.rotate bytes hok
  | follow => exact h.turn hrotates (follow_turn h.rotated.sound.readerGone)
  | take count =>
    exact ⟨h.rotated.on hrotates, h.whole, h.inTurn.same rfl rfl rfl rfl fun hwaiting => hwaiting⟩
  | pass ms =>
    exact ⟨h.rotated.on hrotates, h.whole, h.inTurn.same rfl rfl rfl rfl fun hwaiting => hwaiting⟩
  | _ => cases hrotates

theorem run_seen (offset : Nat) {events : List PathEvent}
    (hok : (start offset).throughout seesEach events = true) :
    Seen offset ((start offset).run events) := by
  have hstart : Seen offset (start offset) :=
    ⟨start_rotated offset, fun _ h => absurd h List.not_mem_nil, .abreast rfl nofun⟩
  exact run_induction (fun _ _ hok h => h.on hok) hstart hok

/-! ### What is delivered -/

/-- The complete lines of everything opened are those of one file after the other. -/
theorem linesInTurn_eq {disk : Disk} {start : Nat} {openings : List Opening}
    (htext : ∀ o ∈ openings, o.text = disk.held o.place)
    (hfirst : ∀ o ∈ openings.head?, o.start = start) (hlater : ∀ o ∈ openings.tail, o.start = 0) :
    openings.flatMap (fun o => (completeLines o.rest).map decodeLine) =
      disk.linesInTurn start (openings.map Opening.place) := by
  induction openings generalizing start with
  | nil => rfl
  | cons o openings ih =>
    rw [List.forall_mem_cons] at htext
    rw [List.flatMap_cons, List.map_cons, Disk.linesInTurn, Opening.rest, htext.1,
      hfirst o (by rw [List.head?_cons, Option.mem_some_iff])]
    rw [ih htext.2 (fun o' ho' => hlater o' (List.mem_of_mem_head? ho'))
      fun o' ho' => hlater o' (List.mem_of_mem_tail ho')]

theorem Rotated.text_eq (h : Rotated offset p) : ∀ o ∈ p.openings, o.text = p.disk.held o.place := by
  intro o ho
  rcases List.mem_append.mp ho with hpast | hcurrent
  · obtain ⟨q, hq, rfl⟩ := List.mem_map.mp hpast
    obtain ⟨id, hreplaced⟩ := h.past q hq
    rw [hreplaced.text_eq, hreplaced.place_eq, Disk.held]
  · rw [Option.mem_toList] at hcurrent
    obtain ⟨file, _, _, hreads⟩ := h.sound.reads_current hcurrent
    rw [hreads.text_eq (h.current o hcurrent).1, hreads.place_eq, Disk.held]

/-- The lines of everything that was given up, in full. -/
theorem Seen.past_lines (h : Seen offset p) :
    (p.past.map Prod.fst).flatMap Opening.lines =
      (p.past.map Prod.fst).flatMap fun o => (completeLines o.rest).map decodeLine := by
  refine List.flatMap_congr fun o ho => ?_
  obtain ⟨q, hq, rfl⟩ := List.mem_map.mp ho
  obtain ⟨id, hreplaced⟩ := h.rotated.past q hq
  rw [hreplaced.isRead.lines_eq, h.whole q hq]

/-- No line is lost of the files that were renamed away, and all come before those of the next. -/
structure LosesNoLine (offset : Nat) (p : FollowedPath) : Prop where
  /-- What is delivered is the lines of one file after the other, up to the file at the path. -/
  in_order : p.delivered <+: p.disk.linesInTurn offset (p.renamed.map Place.file ++ [p.disk.place])
  /-- When the follower has the file at the path open, the others are delivered in full. -/
  in_full : ∀ file, p.follower.openFile? = some file → p.disk.place = .file file.id →
    p.disk.linesInTurn offset (p.renamed.map Place.file) <+: p.delivered

/-- What was opened stood at the path one after the other. -/
theorem Seen.places_prefix (h : Seen offset p) :
    p.openings.map Opening.place <+: p.renamed.map Place.file ++ [p.disk.place] := by
  rw [openings, List.map_append, List.map_map]
  cases h.inTurn with
  | abreast renamed here =>
    rw [show p.past.map (Opening.place ∘ Prod.fst) = p.renamed.map Place.file from renamed,
      List.prefix_append_right_inj]
    cases hcurrent : p.current with
    | none => exact List.nil_prefix
    | some o =>
      rw [Option.toList_some, List.map_singleton, here o hcurrent]
  | behind o current away renamed whole =>
    rw [current, Option.toList_some, List.map_singleton]
    exact ⟨[p.disk.place], congrArg (· ++ _) renamed⟩

theorem Seen.losesNoLine (h : Seen offset p) : LosesNoLine offset p where
  in_order := by
    have hsound := h.rotated.sound
    obtain ⟨later, hlater⟩ := h.places_prefix
    rw [← hlater]
    refine List.IsPrefix.trans ?_ (p.disk.linesInTurn_prefix offset _ later)
    rw [← linesInTurn_eq h.rotated.text_eq hsound.first_start hsound.later_start,
      hsound.delivered_eq, openings, List.flatMap_append, List.flatMap_append, h.past_lines,
      List.prefix_append_right_inj]
    cases hcurrent : p.current with
    | none => exact List.prefix_rfl
    | some o =>
      rw [Option.toList_some, List.flatMap_singleton, List.flatMap_singleton]
      exact hsound.lines_prefix o (by simp [openings, hcurrent])
  in_full := by
    intro file hfile hplace
    have hsound := h.rotated.sound
    obtain ⟨o, taken, hcurrent, hreads⟩ := hsound.reads hfile
    have hopenings : p.openings = p.past.map Prod.fst ++ [o] := by
      rw [openings, hcurrent, Option.toList_some]
    have hplaces : p.renamed.map Place.file = (p.past.map Prod.fst).map Opening.place := by
      cases h.inTurn with
      | abreast renamed here => rw [List.map_map, ← renamed, Function.comp_def]
      | behind o' current away =>
        cases hcurrent.symm.trans current
        exact absurd (hreads.place_eq.trans hplace.symm) away
    have hpast : p.past.map Prod.fst <+: p.openings := hopenings ▸ List.prefix_append _ _
    have htail : (p.past.map Prod.fst).tail <+: p.openings.tail := by
      rw [← List.drop_one, ← List.drop_one]
      exact List.IsPrefix.drop hpast 1
    have hfirst : ∀ o ∈ (p.past.map Prod.fst).head?, o.start = offset := by
      intro o' ho'
      obtain ⟨later, hlater⟩ := List.head?_eq_some_iff.mp ho'
      refine hsound.first_start o' ?_
      rw [hopenings, hlater]
      rfl
    rw [hplaces, ← linesInTurn_eq (fun o' ho' => h.rotated.text_eq o' (hpast.subset ho')) hfirst
      fun o' ho' => hsound.later_start o' (htail.subset ho'), ← h.past_lines,
      hsound.delivered_eq, hopenings, List.flatMap_append]
    exact List.prefix_append _ _

/-- What comes of following a file that is replaced from time to time. -/
structure ReadsReplaced (offset : Nat) (p : FollowedPath) : Prop where
  /-- What is delivered is the lines of one file after the other. -/
  delivered_eq : p.delivered = p.openings.flatMap Opening.lines
  /-- Those of a file that was given up are the lines that were complete when the follower last came
  to its end.  It was renamed away then, and what was added to it later is not read. -/
  given_up : ∀ q ∈ p.past, ∃ id ∈ p.renamed, q.1.place = .file id ∧
    q.1.lines = (completeLines q.1.found).map decodeLine ∧
      q.1.found <+: (p.disk.contents id).drop q.1.start
  first_start : ∀ o ∈ p.openings.head?, o.start = offset
  later_start : ∀ o ∈ p.openings.tail, o.start = 0

/-- However additions and replacements fall between its steps, a follower delivers of each file that
it opened what was complete when it last came to its end, and nothing is lost if it sees each
replacement in time. -/
theorem run_readsReplaced (offset : Nat) (events : List PathEvent)
    (hok : (start offset).throughout rotatesOnly events = true) :
    ((start offset).run events).ReadsReplaced offset ∧
      ((start offset).throughout seesEach events = true →
        ((start offset).run events).LosesNoLine offset) := by
  have hrotated := run_rotated offset hok
  refine ⟨⟨hrotated.sound.delivered_eq, ?_, hrotated.sound.first_start, hrotated.sound.later_start⟩,
    fun hseen => (run_seen offset hseen).losesNoLine⟩
  intro q hq
  obtain ⟨id, hreplaced⟩ := hrotated.past q hq
  have hprefix := hreplaced.isRead.found_prefix
  rw [Opening.rest, hreplaced.text_eq] at hprefix
  exact ⟨id, hreplaced.mem_renamed, hreplaced.place_eq, hreplaced.isRead.lines_eq, hprefix⟩

/-- The follower's steps from a look at a new file with one line to the rest at its end. -/
def readOneLine : List PathEvent :=
  .pass Tail.pollInterval :: List.replicate 6 .follow

/-- A replacement while the follower is on its way through the file, and one while it rests. -/
theorem seenReplacements_readsReplaced :
    let events : List PathEvent :=
      [.append (Text.utf8Bytes "old\n"), .follow, .append (Text.utf8Bytes "late\n"), .follow,
        .rotate (Text.utf8Bytes "two\n")] ++ List.replicate 6 .follow ++ readOneLine ++
          [.rotate (Text.utf8Bytes "three\n")] ++ readOneLine
    (start 0).throughout rotatesOnly events = true ∧
      (start 0).throughout seesEach events = true ∧
      ((start 0).run events).delivered = ["old", "late", "two", "three"] ∧
      ((start 0).run events).ReadsReplaced 0 ∧ ((start 0).run events).LosesNoLine 0 :=
  ⟨by decide +kernel, by decide +kernel, by decide +kernel,
    (run_readsReplaced 0 _ (by decide +kernel)).1,
    (run_readsReplaced 0 _ (by decide +kernel)).2 (by decide +kernel)⟩

/-- A line that is added while the follower rests is lost with the file that is renamed away before
the next look, and so is a file that comes and goes between two looks. -/
theorem lateLine_lost :
    let events : List PathEvent :=
      [.append (Text.utf8Bytes "old\n")] ++ readOneLine ++
        [.append (Text.utf8Bytes "late\n"), .rotate (Text.utf8Bytes "two\n")] ++ readOneLine ++
          [.rotate (Text.utf8Bytes "three\n"), .rotate (Text.utf8Bytes "four\n")] ++ readOneLine
    let p := (start 0).run events
    (start 0).throughout rotatesOnly events = true ∧ p.delivered = ["old", "two", "four"] ∧
      p.disk.linesInTurn 0 (p.renamed.map Place.file) = ["old", "late", "two", "three"] ∧
      ¬ p.LosesNoLine 0 := by
  refine ⟨by decide +kernel, by decide +kernel, by decide +kernel, fun h => ?_⟩
  have hlost := h.in_order
  revert hlost
  decide +kernel

end FollowedPath

end FleetWatch
