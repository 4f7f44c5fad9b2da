import FleetWatch.Command.Run
import FleetWatch.Proofs.Setup.CatchUp
import FleetWatch.Proofs.Setup.Steps
/-!
What a show of a bring-up prints.

There is the history that was asked for, and then the steps that the log is published as.  The
invariant splits both into what is printed and what is left: a show that has taken some of the live
steps is at the end of its history, and its next step is the one after those.  A show that is not
too far behind so prints a beginning of all there is, and all of it up to the end when it goes on by
itself.
-/

namespace FleetWatch

/-- What somebody shows of a log, with what is printed so far. -/
structure RecordedShow where
  view : SetupShow
  printed : List SetupMilestone := []

namespace RecordedShow

/-- What can happen while a bring-up is shown. -/
inductive Event where
  | log (event : FollowedLog.Event)
  /-- The first of the lines that wait are published, and the others go on waiting. -/
  | publishFirst (count : Nat)
  /-- The next step is printed if there is one, unless the show is done. -/
  | take

def on (r : RecordedShow) : Event → RecordedShow
  | .log event => { r with view := { r.view with log := r.view.log.on event } }
  | .publishFirst count =>
    { r with view := { r.view with log := r.view.log.publishFirst count } }
  | .take =>
    if r.view.isDone then r
    else
      match r.view.take? with
      | none => r
      | some (m, view) => { view, printed := r.printed ++ [m] }

/-- Several things that happen, in order. -/
def run (r : RecordedShow) (events : List Event) : RecordedShow :=
  events.foldl on r

/-- Everything that is added to the log. -/
def added (events : List Event) : List UInt8 :=
  events.flatMap fun
    | .log event => FollowedLog.added [event]
    | _ => []

/-- How many live steps were published and not taken yet. -/
def behind (r : RecordedShow) : Nat :=
  (r.view.log.broadcaster.map Broadcaster.nextSeq).getD 0 - r.view.subscription.next.getD 0

theorem run_concat (r : RecordedShow) (events : List Event) (event : Event) :
    r.run (events ++ [event]) = (r.run events).on event := by
  simp only [run, List.foldl_append, List.foldl_cons, List.foldl_nil]

/-- The steps that lines are published as after those before them. -/
def liveSteps (steps : List SetupMilestone) (lines : List String) : List SetupMilestone :=
  stepsFrom (steps.length + 1) (lines.filterMap readSetupLine)

/-- A show of `history` and of what is published after `steps`: the lines `handed` over were
published, and some of the steps that they tell were taken. -/
structure Sound (b : Broadcaster) (before : List UInt8) (steps history : List SetupMilestone)
    (r : RecordedShow) (handed : List String) (passed : Nat) : Prop where
  log : FollowedLog.Sound b before r.view.log handed
  room : r.view.log.follower.lines.items.length ≤ Tail.lineCapacity
  next_eq : r.view.subscription.next = some (steps.length + 1 + passed)
  passed_le : passed ≤ (liveSteps steps handed).length
  split_eq : r.printed ++ r.view.subscription.replayed =
    history ++ (liveSteps steps handed).take passed
  replayed_nil : passed ≠ 0 → r.view.subscription.replayed = []
  isDone_eq : r.view.isDone = r.printed.any SetupMilestone.isDone
  upToDone_eq : upToDone r.printed = r.printed

variable {b : Broadcaster} {before : List UInt8} {steps history : List SetupMilestone}
variable {r : RecordedShow} {handed : List String} {passed : Nat}

/-- What is published by now. -/
theorem Sound.accepted (h : Sound b before steps history r handed passed) (hopen : b.isOpen = true)
    (hsteps : b.Accepted steps) :
    ∃ now, r.view.log.broadcaster = some now ∧ now.Accepted (steps ++ liveSteps steps handed) :=
  ⟨_, h.log.published, (Broadcaster.publishAll_steps hopen _ hsteps).1⟩

theorem Sound.behind_eq (h : Sound b before steps history r handed passed) (hopen : b.isOpen = true)
    (hsteps : b.Accepted steps) : r.behind = (liveSteps steps handed).length - passed := by
  obtain ⟨now, hnow, haccepted⟩ := h.accepted hopen hsteps
  rw [behind, hnow, h.next_eq, Option.map_some, Option.getD_some, Option.getD_some,
    haccepted.nextSeq_eq, List.length_append]
  omega

/-! ### The log goes on -/

/-- What happens to the log leaves what is shown alone, and may add to what is to be shown. -/
theorem Sound.ofLog (h : Sound b before steps history r handed passed) {l : FollowedLog}
    {newly : List String} (hlog : FollowedLog.Sound b before l (handed ++ newly))
    (hroom : l.follower.lines.items.length ≤ Tail.lineCapacity) :
    Sound b before steps history { r with view := { r.view with log := l } } (handed ++ newly)
      passed := by
  have hlive : liveSteps steps handed <+: liveSteps steps (handed ++ newly) := by
    rw [liveSteps, liveSteps, List.filterMap_append]
    exact stepsFrom_prefix_of _ (List.prefix_append _ _)
  refine { h with log := hlog, room := hroom, passed_le := ?_, split_eq := ?_ }
  · exact Nat.le_trans h.passed_le hlive.length_le
  · obtain ⟨rest, hrest⟩ := hlive
    rw [← hrest, List.take_append_of_le_length h.passed_le]
    exact h.split_eq

theorem Sound.onLog (h : Sound b before steps history r handed passed) (hopen : b.isOpen = true)
    (event : FollowedLog.Event) :
    ∃ newly, Sound b before steps history (r.on (.log event)) (handed ++ newly) passed := by
  obtain ⟨newly, hlog⟩ := h.log.on hopen event
  exact ⟨newly, h.ofLog hlog (h.log.room_on hopen h.room event)⟩

theorem Sound.publishFirst (h : Sound b before steps history r handed passed)
    (hopen : b.isOpen = true) (count : Nat) :
    ∃ newly, Sound b before steps history (r.on (.publishFirst count)) (handed ++ newly) passed := by
  obtain ⟨heq, hlog⟩ := h.log.publishFirst hopen count
  refine ⟨_, h.ofLog hlog ?_⟩
  rw [heq]
  exact Nat.le_trans (List.drop_sublist _ _).length_le h.room

/-! ### Taking a step -/

/-- The next live step is the one after those taken, unless the show has fallen too far behind. -/
theorem Sound.nextLive?_eq (h : Sound b before steps history r handed passed)
    (hopen : b.isOpen = true) (hsteps : b.Accepted steps) (hnear : r.behind ≤ liveCapacity)
    {now : Broadcaster} (hnow : r.view.log.broadcaster = some now) :
    r.view.subscription.nextLive? now = ((liveSteps steps handed).drop passed).head? := by
  obtain ⟨b', hb', haccepted⟩ := h.accepted hopen hsteps
  obtain rfl := Option.some.inj (hnow.symm.trans hb')
  have hnumber : steps.length + 1 + passed = steps.length + passed + 1 := by omega
  have hkept : lastOf liveCapacity ((liveSteps steps handed).drop passed) =
      (liveSteps steps handed).drop passed := by
    apply lastOf_eq_self
    rw [List.length_drop]
    rwa [h.behind_eq hopen hsteps] at hnear
  rw [Subscription.nextLive?, h.next_eq, Option.bind_some, ← List.head?_filter, hnumber,
    haccepted.recent_eq, haccepted.numbered.filter_lastOf, List.drop_length_add_append, hkept]

/-- The show after a step was taken. -/
def afterTaking (r : RecordedShow) (m : SetupMilestone) (subscription : Subscription) :
    RecordedShow where
  view := { r.view with subscription, isDone := m.isDone }
  printed := r.printed ++ [m]

theorem Sound.afterTaking (h : Sound b before steps history r handed passed)
    (hgoing : r.view.isDone = false) {m : SetupMilestone} {subscription : Subscription}
    {passed' : Nat} (hnext : subscription.next = some (steps.length + 1 + passed'))
    (hle : passed' ≤ (liveSteps steps handed).length)
    (hsplit : r.printed ++ m :: subscription.replayed =
      history ++ (liveSteps steps handed).take passed')
    (hnil : passed' ≠ 0 → subscription.replayed = []) :
    Sound b before steps history (r.afterTaking m subscription) handed passed' := by
  rw [h.isDone_eq] at hgoing
  refine ⟨h.log, h.room, hnext, hle, ?_, hnil, ?_, upToDone_concat hgoing m⟩
  · rw [← hsplit]
    exact List.append_assoc _ _ _
  · rw [RecordedShow.afterTaking, List.any_append, hgoing, Bool.false_or, List.any_cons,
      List.any_nil, Bool.or_false]

/-- The next step is what is left of the history, and then the live step after those taken, unless
the show has fallen too far behind. -/
theorem Sound.take?_cases (h : Sound b before steps history r handed passed)
    (hopen : b.isOpen = true) (hsteps : b.Accepted steps) (hgoing : r.view.isDone = false)
    (hnear : r.view.subscription.replayed = [] → r.behind ≤ liveCapacity) :
    r.view.take? = none ∧ r.view.subscription.replayed = [] ∧
        passed = (liveSteps steps handed).length ∨
      ∃ m subscription passed', r.view.take? = some (m, (r.afterTaking m subscription).view) ∧
        Sound b before steps history (r.afterTaking m subscription) handed passed' ∧
        subscription.replayed = r.view.subscription.replayed.tail ∧ passed ≤ passed' ∧
        subscription.replayed.length + passed < r.view.subscription.replayed.length + passed' := by
  obtain ⟨now, hnow, haccepted⟩ := h.accepted hopen hsteps
  have hsplit := h.split_eq
  cases hreplayed : r.view.subscription.replayed with
  | cons m rest =>
    have hpassed : passed = 0 := by
      by_contra hne
      rw [h.replayed_nil hne] at hreplayed
      cases hreplayed
    rw [hreplayed] at hsplit
    refine Or.inr ⟨m, { r.view.subscription with replayed := rest }, passed, ?_,
      h.afterTaking hgoing h.next_eq h.passed_le hsplit (fun hne => absurd hpassed hne), rfl,
      Nat.le_refl _, ?_⟩
    · simp only [SetupShow.take?, hnow, Subscription.poll, hreplayed]
      rfl
    · exact Nat.add_lt_add_right (Nat.lt_succ_self _) _
  | nil =>
    have hlive := h.nextLive?_eq hopen hsteps (hnear hreplayed) hnow
    rw [hreplayed, List.append_nil] at hsplit
    cases hrest : (liveSteps steps handed).drop passed with
    | nil =>
      rw [hrest] at hlive
      have hle := List.drop_eq_nil_iff.1 hrest
      refine Or.inl ⟨?_, rfl, Nat.le_antisymm h.passed_le hle⟩
      simp only [SetupShow.take?, hnow, Subscription.poll, hreplayed, hlive, List.head?_nil]
      cases now.isOpen && r.view.subscription.next.isSome <;> rfl
    | cons m rest =>
      rw [hrest] at hlive
      have hlt : passed < (liveSteps steps handed).length := by
        have hlength := congrArg List.length hrest
        rw [List.length_drop, List.length_cons] at hlength
        omega
      have hseq : m.seq = steps.length + 1 + passed := by
        have hnumbered := (NumberedFrom.append_iff.1 haccepted.numbered).2.drop h.passed_le
        rw [hrest] at hnumbered
        rw [hnumbered.1, Nat.add_comm 1]
      have htake : (liveSteps steps handed).take (passed + 1) =
          (liveSteps steps handed).take passed ++ [m] := by
        rw [List.take_add, hrest, List.take_succ_cons, List.take_zero]
      refine Or.inr ⟨m, { r.view.subscription with next := some (m.seq + 1) }, passed + 1, ?_,
        h.afterTaking hgoing ?_ hlt ?_ (fun _ => hreplayed), hreplayed, Nat.le_succ _,
        ?_⟩
      · simp only [SetupShow.take?, hnow, Subscription.poll, hreplayed, hlive, List.head?_cons]
        rfl
      · rw [hseq]
        rfl
      · rw [htake, ← List.append_assoc, ← hsplit, hreplayed]
      · change r.view.subscription.replayed.length + passed < _
        rw [hreplayed]
        exact Nat.add_lt_add_left (Nat.lt_succ_self _) _

/-- A show that takes live steps is not too far behind. -/
def Near (r : RecordedShow) : Prop :=
  r.view.isDone = false → r.view.subscription.replayed = [] → r.behind ≤ liveCapacity

theorem Sound.on (h : Sound b before steps history r handed passed) (hopen : b.isOpen = true)
    (hsteps : b.Accepted steps) (hnear : r.Near) (event : Event) :
    ∃ newly passed', Sound b before steps history (r.on event) (handed ++ newly) passed' := by
  cases event with
  | log event =>
    obtain ⟨newly, hnext⟩ := h.onLog hopen event
    exact ⟨newly, passed, hnext⟩
  | publishFirst count =>
    obtain ⟨newly, hnext⟩ := h.publishFirst hopen count
    exact ⟨newly, passed, hnext⟩
  | take =>
    refine ⟨[], ?_⟩
    rw [List.append_nil, RecordedShow.on]
    cases hdone : r.view.isDone with
    | true => exact ⟨passed, h⟩
    | false =>
      rcases h.take?_cases hopen hsteps hdone (hnear hdone) with
        ⟨hnone, -, -⟩ | ⟨m, subscription, passed', hsome, hnext, -⟩
      · rw [hnone]
        exact ⟨passed, h⟩
      · rw [hsome]
        exact ⟨passed', hnext⟩

theorem Sound.run (h : Sound b before steps history r [] 0) (hopen : b.isOpen = true)
    (hsteps : b.Accepted steps) (events : List Event)
    (hnear : ∀ earlier handed passed, earlier <+: events →
      Sound b before steps history (r.run earlier) handed passed → (r.run earlier).Near) :
    ∃ handed passed, Sound b before steps history (r.run events) handed passed := by
  induction events using List.reverseRecOn with
  | nil => exact ⟨[], 0, h⟩
  | append_singleton events event ih =>
    have hbegun : events <+: events ++ [event] := List.prefix_append _ _
    obtain ⟨handed, passed, hsound⟩ := ih fun earlier handed passed hearlier =>
      hnear earlier handed passed (hearlier.trans hbegun)
    obtain ⟨newly, passed', hnext⟩ :=
      hsound.on hopen hsteps (hnear events handed passed hbegun hsound) event
    rw [run_concat]
    exact ⟨handed ++ newly, passed', hnext⟩

/-! ### Letting it go on -/

/-- A show that prints exactly some steps up to the end, and is done if these come to it. -/
structure PrintsOut (all : List SetupMilestone) (shown : List SetupMilestone × SetupShow)
    (printed : List SetupMilestone) : Prop where
  printed_eq : printed ++ shown.1 = upToDone all
  isDone_eq : shown.2.isDone = all.any SetupMilestone.isDone

theorem PrintsOut.cons {all printed : List SetupMilestone} {m : SetupMilestone}
    {shown : List SetupMilestone × SetupShow} (h : PrintsOut all shown (printed ++ [m])) :
    PrintsOut all (m :: shown.1, shown.2) printed where
  printed_eq := by
    rw [← h.printed_eq, List.append_assoc, List.singleton_append]
  isDone_eq := h.isDone_eq

theorem Sound.prefix_taken (h : Sound b before steps history r handed passed) :
    r.printed <+: history ++ (liveSteps steps handed).take passed :=
  h.split_eq ▸ List.prefix_append _ _

/-- What is printed begins all that there is to show. -/
theorem Sound.prefix_all (h : Sound b before steps history r handed passed)
    {all : List LineMatch} (hall : handed.filterMap readSetupLine <+: all) :
    r.printed <+: history ++ stepsFrom (steps.length + 1) all := by
  have hlive : (liveSteps steps handed).take passed <+: stepsFrom (steps.length + 1) all :=
    (List.take_prefix _ _).trans (stepsFrom_prefix_of _ hall)
  exact h.prefix_taken.trans ((List.prefix_append_right_inj history).2 hlive)

theorem Sound.printsOut_of_isDone (h : Sound b before steps history r handed passed)
    (hdone : r.view.isDone = true) {all : List SetupMilestone} (hall : r.printed <+: all) :
    PrintsOut all ([], r.view) r.printed where
  printed_eq := by
    rw [h.isDone_eq] at hdone
    rw [List.append_nil]
    exact (prefix_upToDone hall h.upToDone_eq).2 hdone
  isDone_eq := by
    rw [hdone]
    rw [h.isDone_eq] at hdone
    rw [← any_upToDone, ← (prefix_upToDone hall h.upToDone_eq).2 hdone, hdone]

/-- A show whose history comes to the end has some of it left until it is done. -/
theorem Sound.replayed_ne_nil (h : Sound b before steps history r handed passed)
    (hover : history.any SetupMilestone.isDone = true) (hgoing : r.view.isDone = false) :
    r.view.subscription.replayed ≠ [] := by
  intro hnil
  have hsplit := congrArg (List.any · SetupMilestone.isDone) h.split_eq
  simp only [hnil, List.append_nil, List.any_append, hover, Bool.true_or, ← h.isDone_eq,
    hgoing] at hsplit
  cases hsplit

/-- A show of a session that is over prints its history to the end, whatever becomes of the log. -/
theorem Sound.runUntil_over (hopen : b.isOpen = true) (hsteps : b.Accepted steps)
    (hover : history.any SetupMilestone.isDone = true) (fuel deadline : Nat)
    (h : Sound b before steps history r handed passed)
    (hfuel : r.view.subscription.replayed.length < fuel) :
    PrintsOut history (r.view.runUntil fuel deadline) r.printed := by
  induction fuel generalizing r passed with
  | zero => exact absurd hfuel (Nat.not_lt_zero _)
  | succ fuel ih =>
    unfold SetupShow.runUntil
    cases hdone : r.view.isDone with
    | true =>
      have hprints := h.printsOut_of_isDone hdone h.prefix_taken
      rw [if_pos rfl]
      exact ⟨hprints.printed_eq.trans (upToDone_append_of_any hover _), hdone.trans hover.symm⟩
    | false =>
      have hleft := h.replayed_ne_nil hover hdone
      rw [if_neg Bool.false_ne_true]
      rcases h.take?_cases hopen hsteps hdone fun hnil => absurd hnil hleft with
        ⟨-, hnil, -⟩ | ⟨m, subscription, passed', hsome, hnext, htail, -⟩
      · exact absurd hnil hleft
      · rw [hsome]
        refine PrintsOut.cons (ih hnext ?_)
        change subscription.replayed.length < fuel
        have hpos := List.length_pos_iff.2 hleft
        rw [htail, List.length_tail]
        omega

theorem Sound.passed_le_told (h : Sound b before steps history r handed passed)
    {followed : List UInt8} (hlog : r.view.log.disk.log = before ++ followed) :
    passed ≤ (logMatches followed).length := by
  have hle := h.passed_le
  rw [liveSteps, length_stepsFrom] at hle
  exact Nat.le_trans hle (h.log.told_prefix_of hlog).length_le

/-- A show that took everything is not too far behind after the next lines are handed over. -/
theorem Sound.behind_le_of_newly (hopen : b.isOpen = true) (hsteps : b.Accepted steps)
    {newly : List String} (h : Sound b before steps history r (handed ++ newly) passed)
    (hpassed : passed = (liveSteps steps handed).length) (hnewly : newly.length ≤ Tail.lineCapacity) :
    r.behind ≤ liveCapacity := by
  have htold := List.length_filterMap_le readSetupLine newly
  rw [h.behind_eq hopen hsteps, hpassed, liveSteps, liveSteps, length_stepsFrom, length_stepsFrom,
    List.filterMap_append, List.length_append, Nat.add_sub_cancel_left]
  exact Nat.le_trans htold hnewly

/-- A show that is at the end of the log and not done has printed everything. -/
theorem Sound.printsOut_of_rest (h : Sound b before steps history r handed passed)
    (hnil : r.view.subscription.replayed = [])
    (hpassed : passed = (liveSteps steps handed).length) {followed : List UInt8}
    (hhanded : handed = (completeLines followed).map decodeLine) (l : FollowedLog) :
    PrintsOut (history ++ stepsFrom (steps.length + 1) (logMatches followed))
      ([], { r.view with log := l }) r.printed := by
  have hlive : liveSteps steps handed = stepsFrom (steps.length + 1) (logMatches followed) := by
    rw [liveSteps, hhanded, List.filterMap_map]
    rfl
  have hprinted := h.split_eq
  rw [hnil, List.append_nil, hpassed, List.take_length, hlive] at hprinted
  rw [← hprinted]
  exact ⟨(List.append_nil _).trans h.upToDone_eq.symm, h.isDone_eq⟩

/-- A show that is not too far behind prints what the log tells, up to the end, if the log is left
alone for as long as a follower may wait. -/
theorem Sound.runUntil_all (hopen : b.isOpen = true) (hsteps : b.Accepted steps)
    {followed : List UInt8} {start deadline : Nat} (hlate : start + Tail.openRetryDelay ≤ deadline)
    (fuel : Nat) (h : Sound b before steps history r handed passed)
    (hlog : r.view.log.disk.log = before ++ followed)
    (hinformed : r.view.log.follower.Informed r.view.log.disk start)
    (hnow : r.view.log.now ≤ deadline) (hnear : r.view.isDone = false → r.behind ≤ liveCapacity)
    (hfuel : r.view.log.effort deadline + r.view.subscription.replayed.length +
      (logMatches followed).length < fuel + passed) :
    PrintsOut (history ++ stepsFrom (steps.length + 1) (logMatches followed))
      (r.view.runUntil fuel deadline) r.printed := by
  induction fuel generalizing r handed passed with
  | zero =>
    have hpassed := h.passed_le_told hlog
    omega
  | succ fuel ih =>
    unfold SetupShow.runUntil
    by_cases hdone : r.view.isDone = true
    · rw [if_pos hdone]
      exact h.printsOut_of_isDone hdone (h.prefix_all (h.log.told_prefix_of hlog))
    · rw [if_neg hdone]
      rw [Bool.not_eq_true] at hdone
      rcases h.take?_cases hopen hsteps hdone fun _ => hnear hdone with
        ⟨hnone, hnil, hpassed⟩ | ⟨m, subscription, passed', hsome, hnext, -, hle, hless⟩
      · rw [hnone]
        dsimp only
        cases hstep : r.view.log.step? with
        | some log =>
          obtain ⟨⟨newly, hnewly, hsound⟩, hinformed', hsame, hdisk, hless⟩ :=
            h.log.step hopen hinformed hnow hstep
          have hnext := h.ofLog hsound (h.log.room_step hopen h.room hstep)
          refine ih hnext (hdisk ▸ hlog) hinformed' (hsame ▸ hnow) (fun _ => ?_) ?_
          · exact hnext.behind_le_of_newly hopen hsteps hpassed (Nat.le_trans hnewly h.room)
          · change log.effort deadline + r.view.subscription.replayed.length + _ < _
            omega
        | none =>
          have hrest : (∀ t, r.view.log.follower.wake? = some t → deadline < t) →
              handed = (completeLines followed).map decodeLine := fun hwake =>
            h.log.handed_eq hlog hinformed hstep fun t ht => Nat.lt_of_le_of_lt hlate (hwake t ht)
          dsimp only
          cases hwake : r.view.log.follower.wake? with
          | none =>
            exact h.printsOut_of_rest hnil hpassed (hrest fun t ht => by
              rw [hwake] at ht
              cases ht) _
          | some t =>
            dsimp only
            by_cases hdue : t ≤ deadline
            · obtain ⟨hlater, hless⟩ := Tail.Follower.effort_lt_of_wake? deadline
                r.view.log.disk.log.length (h.log.quiet hstep).2 hwake
              have hlog' : FollowedLog.Sound b before { r.view.log with now := t } handed :=
                { h.log with timely := h.log.timely.mono (Nat.le_of_lt hlater) }
              rw [if_pos hdue]
              refine ih (r := { r with view := { r.view with log := { r.view.log with now := t } } })
                { h with log := hlog' } hlog hinformed hdue hnear ?_
              simp only [FollowedLog.effort] at hfuel ⊢
              omega
            · rw [if_neg hdue]
              exact h.printsOut_of_rest hnil hpassed (hrest fun t' ht => by
                rw [hwake] at ht
                cases ht
                exact Nat.lt_of_not_le hdue) _
      · rw [hsome]
        refine PrintsOut.cons (ih hnext hlog hinformed hnow (fun _ => ?_) ?_)
        · rw [hnext.behind_eq hopen hsteps]
          have hbehind := hnear hdone
          rw [h.behind_eq hopen hsteps] at hbehind
          omega
        · change r.view.log.effort deadline + subscription.replayed.length + _ < _
          omega

end RecordedShow

end FleetWatch
