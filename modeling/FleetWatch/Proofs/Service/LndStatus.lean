import FleetWatch.Proofs.Watch.HeightLines
import FleetWatch.Service.Probe
/-!
The readiness of lnd.

Lnd is ready when it has reached the height that its log told last, and while its log told none, it
is ready by its own word or by that of the watcher of its log.  Main statement: for any log there is
one height that counts, and what is shown follows from it (`lnd_showsHeight`).
-/

namespace FleetWatch

/-! ### The newest block in a log -/

/-- A line of a log, without the blanks at its ends, tells of a new block at a height. -/
def TellsBlock (line : String) (height : Nat) : Prop :=
  ToldBy newBlockForms (Text.trim line).toList (some ⟨.current, height⟩)

/-- The height of the newest block that a log tells of, if it could be read.  Lines that tell of no
block are passed over; a height of zero is none, and ends the search. -/
inductive NewestBlock : Except ContainerError (List String) → Option Nat → Prop
  | unread (fault : ContainerError) : NewestBlock (.error fault) none
  | untold {lines : List String} (untold : ∀ line ∈ lines, ∀ height, ¬ TellsBlock line height) :
    NewestBlock (.ok lines) none
  | zero (earlier : List String) {line : String} {later : List String} (tells : TellsBlock line 0)
    (newest : ∀ line ∈ later, ∀ height, ¬ TellsBlock line height) :
    NewestBlock (.ok (earlier ++ line :: later)) none
  | height (earlier : List String) {line : String} {later : List String} {height : Nat}
    (tells : TellsBlock line height) (positive : 0 < height)
    (newest : ∀ line ∈ later, ∀ height, ¬ TellsBlock line height) :
    NewestBlock (.ok (earlier ++ line :: later)) (some height)

/-- What a line is read as by the search for new blocks. -/
def readBlock? (line : String) : Option Reading :=
  PatternSet.newBlocks.read? (Text.trim line)

section Lines

variable {line : String} {lines : List String} {height : Nat}

theorem readBlock?_iff_toldBy (told : Option Reading) :
    readBlock? line = told ↔ ToldBy newBlockForms (Text.trim line).toList told :=
  read?_iff_toldBy isPlain_newBlockForms (Text.trim line) told

theorem readBlock?_eq_some_iff :
    readBlock? line = some ⟨.current, height⟩ ↔ TellsBlock line height :=
  readBlock?_iff_toldBy _

/-- Such a line tells nothing but a current height. -/
theorem tellsBlock_of_readBlock? {reading : Reading} (h : readBlock? line = some reading) :
    TellsBlock line reading.height := by
  have hkind : reading.kind = .current := by
    generalize htold : some reading = told at h
    cases (readBlock?_iff_toldBy told).mp h with
    | broken _ => cases htold
    | unmatched _ _ => cases htold
    | matched _ earlier later form run split _ _ =>
      obtain ⟨height, -, rfl⟩ := Option.map_eq_some_iff.mp htold.symm
      have hform : form ∈ newBlockForms := split ▸ List.mem_append_right _ List.mem_cons_self
      rw [List.mem_singleton.mp hform]
  rw [← readBlock?_eq_some_iff, h, ← hkind]

theorem readBlock?_eq_none_iff : readBlock? line = none ↔ ∀ height, ¬ TellsBlock line height := by
  constructor
  · intro h height tells
    cases h.symm.trans (readBlock?_eq_some_iff.mpr tells)
  · intro h
    rw [Option.eq_none_iff_forall_ne_some]
    exact fun reading hread => h reading.height (tellsBlock_of_readBlock? hread)

theorem newestRead_eq_none_iff :
    lines.reverse.findSome? readBlock? = none ↔
      ∀ line ∈ lines, ∀ height, ¬ TellsBlock line height := by
  simp only [List.findSome?_eq_none_iff, List.mem_reverse, readBlock?_eq_none_iff]

theorem newestRead_eq_some {reading : Reading}
    (h : lines.reverse.findSome? readBlock? = some reading) :
    ∃ earlier line later, lines = earlier ++ line :: later ∧ TellsBlock line reading.height ∧
      ∀ line ∈ later, ∀ height, ¬ TellsBlock line height := by
  obtain ⟨later, line, earlier, hlines, hread, hlater⟩ := List.findSome?_eq_some_iff.mp h
  refine ⟨earlier.reverse, line, later.reverse, ?_, tellsBlock_of_readBlock? hread, ?_⟩
  · rw [← List.reverse_reverse lines, hlines]
    simp
  · intro line hline
    exact readBlock?_eq_none_iff.mp (hlater line (List.mem_reverse.mp hline))

theorem newestRead_of_tells {earlier later : List String} (tells : TellsBlock line height)
    (newest : ∀ line ∈ later, ∀ height, ¬ TellsBlock line height) :
    (earlier ++ line :: later).reverse.findSome? readBlock? = some ⟨.current, height⟩ := by
  have hlater : later.reverse.findSome? readBlock? = none := newestRead_eq_none_iff.mpr newest
  rw [List.reverse_append, List.reverse_cons, List.append_assoc, List.findSome?_append, hlater,
    Option.none_or, List.singleton_append, List.findSome?_cons,
    readBlock?_eq_some_iff.mpr tells]

end Lines

theorem newestBlock_of_none {lines : List String}
    (h : lines.reverse.findSome? readBlock? = none) : Probe.newestBlock (.ok lines) = none :=
  congrArg (fun reading => (reading.map Reading.height).filter fun height => 0 < height) h

/-- A height that was found counts unless it is zero. -/
theorem newestBlock_of_some {lines : List String} {reading : Reading}
    (h : lines.reverse.findSome? readBlock? = some reading) :
    Probe.newestBlock (.ok lines) = if 0 < reading.height then some reading.height else none := by
  have hfilter :=
    congrArg (fun reading => (reading.map Reading.height).filter fun height => 0 < height) h
  refine Eq.trans hfilter ?_
  simp only [Option.map_some, Option.filter_some, decide_eq_true_eq]

/-- The height that is searched for is the newest block's. -/
theorem newestBlock_eq_iff {read : Except ContainerError (List String)} {logged : Option Nat} :
    Probe.newestBlock read = logged ↔ NewestBlock read logged := by
  constructor
  · rintro rfl
    cases read with
    | error fault => exact .unread fault
    | ok lines =>
      cases hread : lines.reverse.findSome? readBlock? with
      | none =>
        rw [newestBlock_of_none hread]
        exact .untold (newestRead_eq_none_iff.mp hread)
      | some reading =>
        rw [newestBlock_of_some hread]
        obtain ⟨earlier, line, later, rfl, tells, newest⟩ := newestRead_eq_some hread
        obtain hzero | hpositive := Nat.eq_zero_or_pos reading.height
        · rw [hzero] at tells ⊢
          exact .zero earlier tells newest
        · rw [if_pos hpositive]
          exact .height earlier tells hpositive newest
  · intro h
    cases h with
    | unread _ => rfl
    | untold untold => exact newestBlock_of_none (newestRead_eq_none_iff.mpr untold)
    | zero earlier tells newest =>
      rw [newestBlock_of_some (newestRead_of_tells tells newest)]
      rfl
    | height earlier tells positive newest =>
      rw [newestBlock_of_some (newestRead_of_tells tells newest)]
      exact if_pos positive

/-- A height that cannot be read is passed over, and one of zero is not. -/
example :
    Probe.newestBlock (.ok ["NTFN: New block: height=7, sha=a",
      "NTFN: New block: height=18446744073709551616, sha=b"]) = some 7 ∧
    Probe.newestBlock (.ok ["NTFN: New block: height=7, sha=a",
      "NTFN: New block: height=0, sha=b"]) = none := by
  decide +kernel

/-! ### What is shown -/

/-- What is shown of lnd by the height that its log told last, by its own answer, and by the
progress that the watcher of its log has seen. -/
structure ShowsHeight (info : Lnd.Info) (logged : Option Nat) (progress : Option SyncProgress)
    (text : String) : Prop where
  ready_iff : text = "Ready" ↔
    (∃ height, logged = some height ∧ info.blockHeight ≤ height) ∨
      (logged = none ∧ (info.syncedToChain ∨ ∃ p, progress = some p ∧ p.caughtUp))
  /-- Lnd's own word and the watcher's count for nothing once the log told a height. -/
  syncing_of : ∀ height, logged = some height → height < info.blockHeight →
    text = syncingText height info.blockHeight
  /-- Without a height the progress is shown, if there is any. -/
  progress_of : ∀ p, logged = none → text ≠ "Ready" → progress = some p → p.hasProgress →
    text = syncingText p.current p.total
  other_of : logged = none → text ≠ "Ready" → (∀ p, progress = some p → ¬ p.hasProgress) →
    text = "Syncing"

theorem syncingText_ne_ready (current total : Nat) : syncingText current total ≠ "Ready" := by
  intro h
  have hfirst := congrArg (fun s : String => s.toList.head?) h
  simp [syncingText] at hfirst

theorem lndText_logged (info : Lnd.Info) (height : Nat) (progress : Option SyncProgress) :
    ShowsHeight info (some height) progress (Probe.lndText info (some height) progress) := by
  by_cases hreached : info.blockHeight ≤ height
  · have htext : Probe.lndText info (some height) progress = "Ready" := if_pos hreached
    exact {
      ready_iff := iff_of_true htext (.inl ⟨height, rfl, hreached⟩)
      syncing_of := by
        rintro _ ⟨⟩ hless
        exact absurd hreached (Nat.not_le.mpr hless)
      progress_of := nofun
      other_of := nofun }
  · have htext : Probe.lndText info (some height) progress = syncingText height info.blockHeight :=
      if_neg hreached
    exact {
      ready_iff := by
        rw [htext]
        refine iff_of_false (syncingText_ne_ready _ _) ?_
        rintro (⟨_, ⟨⟩, hle⟩ | ⟨⟨⟩, -⟩)
        exact hreached hle
      syncing_of := by
        rintro _ ⟨⟩ -
        exact htext
      progress_of := nofun
      other_of := nofun }

/-- The watcher's progress, before it caught up, is what is shown while lnd is not ready. -/
theorem lndText_unready {info : Lnd.Info} {progress : Option SyncProgress}
    (hsynced : info.syncedToChain = false) (hcaught : ∀ p, progress = some p → p.caughtUp = false) :
    (∀ p, progress = some p → p.hasProgress → Probe.lndText info none progress = p.text) ∧
      ((∀ p, progress = some p → ¬ p.hasProgress) →
        Probe.lndText info none progress = "Syncing") := by
  cases progress with
  | none => simp [Probe.lndText, hsynced]
  | some p => simp +contextual [Probe.lndText, hsynced, hcaught p rfl]

theorem lndText_unlogged (info : Lnd.Info) (progress : Option SyncProgress) :
    ShowsHeight info none progress (Probe.lndText info none progress) := by
  by_cases hready : info.syncedToChain ∨ ∃ p, progress = some p ∧ p.caughtUp
  · have htext : Probe.lndText info none progress = "Ready" := by
      obtain hsynced | ⟨p, rfl, hcaught⟩ := hready
      · exact if_pos hsynced
      · simp [Probe.lndText, hcaught, StatusReport.readyText]
    exact {
      ready_iff := iff_of_true htext (.inr ⟨rfl, hready⟩)
      syncing_of := nofun
      progress_of := fun _ _ hnot => absurd htext hnot
      other_of := fun _ hnot => absurd htext hnot }
  · have hnot : info.syncedToChain = false ∧ ∀ p, progress = some p → p.caughtUp = false := by
      simpa using hready
    obtain ⟨hprogress, hother⟩ := lndText_unready hnot.1 hnot.2
    have hne : Probe.lndText info none progress ≠ "Ready" := by
      by_cases hhas : ∃ p, progress = some p ∧ p.hasProgress
      · obtain ⟨p, hp, hhas⟩ := hhas
        rw [hprogress p hp hhas]
        exact syncingText_ne_ready _ _
      · rw [hother fun p hp hhas' => hhas ⟨p, hp, hhas'⟩]
        decide
    exact {
      ready_iff := iff_of_false hne fun h => hready (h.resolve_left nofun).2
      syncing_of := nofun
      progress_of := fun p _ _ => hprogress p
      other_of := fun _ _ => hother }

theorem lndText_showsHeight (info : Lnd.Info) (logged : Option Nat)
    (progress : Option SyncProgress) :
    ShowsHeight info logged progress (Probe.lndText info logged progress) := by
  cases logged with
  | some height => exact lndText_logged info height progress
  | none => exact lndText_unlogged info progress

/-- For any log that was read or not there is one height that counts, and lnd is shown by it. -/
theorem lnd_showsHeight (read : Except ContainerError (List String)) (info : Lnd.Info)
    (progress : Option SyncProgress) :
    ∃ logged, (∀ other, NewestBlock read other ↔ other = logged) ∧
      ShowsHeight info logged progress
        (Probe.lnd info (Probe.newestBlock read) progress).text := by
  refine ⟨Probe.newestBlock read, fun other => ?_, lndText_showsHeight info _ progress⟩
  rw [← newestBlock_eq_iff, eq_comm]

end FleetWatch
