import FleetWatch.Proofs.Rpc.Closing
import FleetWatch.Proofs.Rpc.Redial
/-!
What a dial loop shows when it is over.

A loop that waits for its container is turned away when it is cancelled, and also when the handle on
the container is.  In the second case it looks only at its own cancellation before it returns, so it
shows nothing of its end.  Main statement: a loop that is over has no client, and shows that it is
closed or gave up just if it did not go astray in this way, or has been closed since.
-/

namespace FleetWatch

/-- Only a waiter that is cancelled, or whose handle is, ends as cancelled. -/
theorem Waiter.cancelled_of_step? {want : Awaited} {w : Waiter} {isCancelled : Bool} {s s' : Site}
    (hstep : w.step? want isCancelled s = some (.cancelled, s')) :
    (isCancelled || s.handle.isCancelled) = true := by
  have hcheck : ∀ s, check want s ≠ .cancelled := by
    intro s hcancelled
    unfold check at hcancelled
    split at hcancelled
    · split at hcancelled <;> cases hcancelled
    · cases hcancelled
  unfold step? at hstep
  split at hstep
  · exact absurd (congrArg Prod.fst (Option.some.inj hstep)) (hcheck s)
  · cases hstep
  · split at hstep
    · assumption
    · split at hstep
      · exact absurd (congrArg Prod.fst (Option.some.inj hstep)) (hcheck s)
      · split at hstep
        · split at hstep
          · cases hstep
          · exact absurd (congrArg Prod.fst (Option.some.inj hstep)) (hcheck _)
        · cases hstep

namespace DialLoop

variable {policy : RetryPolicy} {l l' : DialLoop} {now : Nat} {e : DialEvent}

/-! ### The client of a loop that is over -/

theorem loop_run_start (policy : RetryPolicy) (events : List (Nat × DialEvent)) :
    ((WatchedLoop.start policy).run events).loop = ({ policy } : DialLoop).run events := by
  induction events using List.reverseRecOn with
  | nil => rfl
  | append_singleton events e ih =>
    rw [WatchedLoop.run_concat, run_concat, ← ih]
    rfl

/-- A loop that leaves without being cancelled has no client. -/
theorem client_run_of_leaving (policy : RetryPolicy) (events : List (Nat × DialEvent))
    (hphase : (({ policy } : DialLoop).run events).phase = .leaving)
    (hkept : (({ policy } : DialLoop).run events).isCancelled = false) :
    (({ policy } : DialLoop).run events).client = none := by
  have hsound := WatchedLoop.run_sound policy events
  rw [← loop_run_start] at hphase hkept ⊢
  exact ((hsound.ended (by rw [hphase]; rfl)).2 hkept).1

/-- A loop that is about to show its end, or is over, has let go of its client. -/
def HasLetGo (l : DialLoop) : Prop :=
  l.phase = .closing ∨ l.phase = .ended → l.client = none

theorem HasLetGo.turn (hgone : l.HasLetGo)
    (hleaving : l.phase = .leaving → l.isCancelled = false → l.client = none)
    (turn : l.Turn now e l') : l'.HasLetGo := by
  intro hover
  cases turn with
  | idle | cancel | showClosed => exact hgone hover
  | stop was kept => exact hleaving was kept
  | finish was => exact hgone (Or.inl was)
  | drop | invalidate | withdraw | close => rfl
  | _ => rcases hover with hover | hover <;> cases hover

/-! ### What a loop shows -/

/-- A loop shows that it is dialing while it loads and while it waits, unless it is cancelled. -/
def ShowsDialing (l : DialLoop) : Prop :=
  (l.phase = .loading ∨ ∃ w, l.phase = .waiting w) → l.isCancelled = false →
    ∃ attempt, l.state = .dialing attempt

theorem ShowsDialing.turn (hshows : l.ShowsDialing) (turn : l.Turn now e l') : l'.ShowsDialing := by
  intro hphase hkept
  cases turn with
  | idle | invalidate => exact hshows hphase hkept
  | attempt => exact ⟨_, rfl⟩
  | load was => exact hshows (Or.inl was) hkept
  | wait w _ was => exact hshows (Or.inr ⟨w, was⟩) hkept
  | withdraw cancelled | showClosed cancelled =>
    exact absurd (cancelled.symm.trans hkept) Bool.noConfusion
  | cancel | close => cases hkept
  | _ => simp at hphase

/-- A loop that leaves is cancelled or shows that it gave up, and one that is over shows its end. -/
structure SaysWhy (l : DialLoop) : Prop where
  leaving : l.phase = .leaving →
    l.isCancelled = true ∨ ∃ attempts, l.state = .permanentlyFailed attempts
  showsEnd : l.ShowsEnd

/-- A loop that leaves, or is over, and shows that it is dialing. -/
structure SlipsAway (l : DialLoop) : Prop where
  isOver : l.phase.isOver = true
  dialing : ∃ attempt, l.state = .dialing attempt

/-- The only way to leave without saying why is to be turned away. -/
theorem SaysWhy.turn (hwhy : l.SaysWhy)
    (hstays : ∀ w, l.phase = .waiting w → l'.phase ≠ .leaving) (turn : l.Turn now e l') :
    l'.SaysWhy := by
  cases turn with
  | idle | invalidate | withdraw => exact ⟨hwhy.leaving, hwhy.showsEnd⟩
  | quit _ cancelled | leave _ cancelled =>
    exact ⟨fun _ => Or.inl cancelled, fun h => absurd h DialPhase.noConfusion⟩
  | giveUp => exact ⟨fun _ => Or.inr ⟨_, rfl⟩, fun h => absurd h DialPhase.noConfusion⟩
  | turnAway w was => exact absurd rfl (hstays w was)
  | stop was kept =>
    refine ⟨fun h => absurd h DialPhase.noConfusion, fun _ => ?_⟩
    rcases hwhy.leaving was with hcancelled | hfailed
    · exact absurd (hcancelled.symm.trans kept) Bool.noConfusion
    · exact Or.inr hfailed
  | finish => exact ⟨fun h => absurd h DialPhase.noConfusion, fun _ => endState_cases l.state⟩
  | cancel => exact ⟨fun _ => Or.inl rfl, hwhy.showsEnd⟩
  | showClosed cancelled => exact ⟨fun _ => Or.inl cancelled, fun _ => Or.inl rfl⟩
  | close => exact ⟨fun _ => Or.inl rfl, fun _ => Or.inl rfl⟩
  | _ => exact ⟨fun h => absurd h DialPhase.noConfusion, fun h => absurd h DialPhase.noConfusion⟩

/-- A loop that slips away goes on to, unless it is closed. -/
theorem SlipsAway.turn (hslips : l.SlipsAway) (turn : l.Turn now e l') :
    l'.SlipsAway ∨ l'.state = .closed ∧ l'.SaysWhy := by
  obtain ⟨hover, attempt, hstate⟩ := hslips
  cases turn with
  | idle | invalidate | withdraw | cancel => exact Or.inl ⟨hover, attempt, hstate⟩
  | windUp | stop | drop => exact Or.inl ⟨rfl, attempt, hstate⟩
  | finish =>
    refine Or.inr ⟨?_, fun h => absurd h DialPhase.noConfusion, fun _ => endState_cases l.state⟩
    simp only [hstate, endState]
  | showClosed cancelled => exact Or.inr ⟨rfl, fun _ => Or.inl cancelled, fun _ => Or.inl rfl⟩
  | close => exact Or.inr ⟨rfl, fun _ => Or.inl rfl, fun _ => Or.inl rfl⟩
  -- Everything else happens only to a loop that has not left.
  | backOff _ was | giveUp _ was =>
    rcases was with was | ⟨due, was⟩ <;> rw [was] at hover <;> cases hover
  | leave was =>
    rcases was with ⟨due, was⟩ | was | ⟨due, was⟩ <;> rw [was] at hover <;> cases hover
  | start was | quit was | attempt was | load was | wait _ _ was | dial _ was | turnAway _ was
  | succeed _ was | publish was | announce was | redial was | rest _ was =>
    rw [was] at hover
    cases hover

/-- A loop goes from waiting to leaving only if it is turned away. -/
theorem Turn.away_or_stays (turn : l.Turn now e l') :
    e = .turnedAway ∧ (∃ w, l.phase = .waiting w) ∧ l' = { l with phase := .leaving } ∨
      ∀ w, l.phase = .waiting w → l'.phase ≠ .leaving := by
  cases turn with
  | turnAway w was => exact Or.inl ⟨rfl, ⟨w, was⟩, rfl⟩
  | idle | invalidate | cancel | withdraw | showClosed | close =>
    refine Or.inr fun w was hleaving => ?_
    cases was.symm.trans hleaving
  | quit was =>
    refine Or.inr fun w hwaiting _ => ?_
    cases was.symm.trans hwaiting
  | giveUp _ was =>
    refine Or.inr fun w hwaiting _ => ?_
    rcases was with was | ⟨due, was⟩ <;> cases was.symm.trans hwaiting
  | leave was =>
    refine Or.inr fun w hwaiting _ => ?_
    rcases was with ⟨due, was⟩ | was | ⟨due, was⟩ <;> cases was.symm.trans hwaiting
  | _ => exact Or.inr fun _ _ => DialPhase.noConfusion

/-- A loop is turned away only if it or the handle that it waits at is cancelled. -/
theorem cancelled_of_turnedAway {outcomes : Outcomes} {s s' : Site}
    (hnext : l.next? outcomes s = some (.turnedAway, s')) :
    (l.isCancelled || s.handle.isCancelled) = true := by
  cases hphase : l.phase with
  | waiting w =>
    simp only [next?, hphase] at hnext
    obtain ⟨⟨waited, after⟩, hstep, hevent⟩ := Option.map_eq_some_iff.mp hnext
    cases waited with
    | ready | again => cases hevent
    | cancelled => exact Waiter.cancelled_of_step? hstep
  | dialing | connected | backingOff => grind [next?]
  | _ => simp [next?, hphase] at hnext

end DialLoop

/-! ### Two ways to be turned away -/

/-- What can happen to a loop and to the handle that it waits at. -/
inductive GateEvent where
  | dialLoop (event : DialEvent)
  /-- Somebody cancels the handle. -/
  | cancelHandle

/-- A loop and the handle that it waits at. -/
structure GatedLoop where
  dialLoop : DialLoop
  handleIsCancelled : Bool := false
  /-- The loop was turned away when it was not cancelled itself, and has not been closed since. -/
  isAstray : Bool := false

namespace GatedLoop

def start (policy : RetryPolicy) : GatedLoop :=
  { dialLoop := { policy } }

/-- The loop becomes another one. -/
def moveTo (g : GatedLoop) (l : DialLoop) : GatedLoop :=
  let isAstray :=
    match g.dialLoop.phase, l.phase with
    | .waiting _, .leaving => !g.dialLoop.isCancelled
    | _, _ => g.isAstray && l.state != .closed
  { g with dialLoop := l, isAstray }

/-- What happens at a time.  A loop is turned away only if it or the handle is cancelled. -/
def on (g : GatedLoop) (now : Nat) : GateEvent → GatedLoop
  | .cancelHandle => { g with handleIsCancelled := true }
  | .dialLoop .turnedAway =>
    if g.dialLoop.isCancelled || g.handleIsCancelled then
      g.moveTo (g.dialLoop.on now .turnedAway)
    else g
  | .dialLoop e => g.moveTo (g.dialLoop.on now e)

/-- What happens at some times, in order. -/
def run (g : GatedLoop) (events : List (Nat × GateEvent)) : GatedLoop :=
  events.foldl (fun g e => g.on e.1 e.2) g

variable {policy : RetryPolicy} {g : GatedLoop} {l : DialLoop} {now : Nat} {e : DialEvent}

theorem run_concat (g : GatedLoop) (events : List (Nat × GateEvent)) (e : Nat × GateEvent) :
    g.run (events ++ [e]) = (g.run events).on e.1 e.2 := by
  simp only [run, List.foldl_append, List.foldl_cons, List.foldl_nil]

/-- The handle is cancelled, nothing happens, or something happens to the loop that can. -/
theorem on_cases (g : GatedLoop) (now : Nat) (event : GateEvent) :
    event = .cancelHandle ∧ g.on now event = { g with handleIsCancelled := true } ∨
      g.on now event = g ∨
      ∃ e, g.on now event = g.moveTo (g.dialLoop.on now e) ∧
        (e = .turnedAway → (g.dialLoop.isCancelled || g.handleIsCancelled) = true) := by
  cases event with
  | cancelHandle => exact Or.inl ⟨rfl, rfl⟩
  | dialLoop e =>
    cases e with
    | turnedAway =>
      by_cases hcancelled : (g.dialLoop.isCancelled || g.handleIsCancelled) = true
      · exact Or.inr (Or.inr ⟨.turnedAway, if_pos hcancelled, fun _ => hcancelled⟩)
      · exact Or.inr (Or.inl (if_neg hcancelled))
    | _ => exact Or.inr (Or.inr ⟨_, rfl, nofun⟩)

/-- Whatever a loop does by itself, at a handle that is cancelled just if this one is, can happen. -/
theorem on_of_next? {outcomes : DialLoop.Outcomes} {s s' : Site}
    (hnext : g.dialLoop.next? outcomes s = some (e, s'))
    (hhandle : s.handle.isCancelled = g.handleIsCancelled) :
    g.on now (.dialLoop e) = g.moveTo (g.dialLoop.on now e) := by
  cases e with
  | turnedAway =>
    have hcancelled := DialLoop.cancelled_of_turnedAway hnext
    rw [hhandle] at hcancelled
    rw [on, if_pos hcancelled]
  | _ => rfl

theorem isAstray_of_stays (hstays : ∀ w, g.dialLoop.phase = .waiting w → l.phase ≠ .leaving) :
    (g.moveTo l).isAstray = (g.isAstray && l.state != .closed) := by
  rw [moveTo]
  dsimp only
  split
  · next w hwaiting hleaving => exact absurd hleaving (hstays w hwaiting)
  · rfl

/-- What holds at every moment. -/
structure Sound (policy : RetryPolicy) (g : GatedLoop) : Prop where
  reached : ∃ events, g.dialLoop = ({ policy } : DialLoop).run events
  showsDialing : g.dialLoop.ShowsDialing
  hasLetGo : g.dialLoop.HasLetGo
  saysWhy : g.isAstray = false → g.dialLoop.SaysWhy
  slipsAway : g.isAstray = true → g.dialLoop.SlipsAway

/-- Whatever happens to a loop, it goes astray or says why it leaves. -/
theorem Sound.why_moveTo (hsound : Sound policy g) (turn : g.dialLoop.Turn now e l) :
    ((g.moveTo l).isAstray = false → l.SaysWhy) ∧ ((g.moveTo l).isAstray = true → l.SlipsAway) := by
  rcases turn.away_or_stays with ⟨_, ⟨w, was⟩, rfl⟩ | hstays
  · have hastray : (g.moveTo { g.dialLoop with phase := .leaving }).isAstray =
        !g.dialLoop.isCancelled := by
      simp only [GatedLoop.moveTo, was]
    rw [hastray]
    constructor
    · intro hcancelled
      rw [Bool.not_eq_false'] at hcancelled
      exact ⟨fun _ => Or.inl hcancelled, fun h => absurd h DialPhase.noConfusion⟩
    · intro hkept
      rw [Bool.not_eq_true'] at hkept
      exact ⟨rfl, hsound.showsDialing (Or.inr ⟨w, was⟩) hkept⟩
  · rw [isAstray_of_stays hstays]
    cases hastray : g.isAstray with
    | false =>
      exact ⟨fun _ => (hsound.saysWhy hastray).turn hstays turn, fun h => absurd h Bool.noConfusion⟩
    | true =>
      rcases (hsound.slipsAway hastray).turn turn with hslips | ⟨hclosed, hwhy⟩
      · refine ⟨fun hshown => ?_, fun _ => hslips⟩
        obtain ⟨attempt, hstate⟩ := hslips.dialing
        rw [hstate] at hshown
        cases hshown
      · refine ⟨fun _ => hwhy, fun hstill => ?_⟩
        rw [hclosed] at hstill
        cases hstill

theorem Sound.moveTo (hsound : Sound policy g) (now : Nat) (e : DialEvent) :
    Sound policy (g.moveTo (g.dialLoop.on now e)) := by
  have turn := g.dialLoop.on_turn now e
  obtain ⟨events, hreached⟩ := hsound.reached
  obtain ⟨hwhy, hslips⟩ := hsound.why_moveTo turn
  refine ⟨⟨events ++ [(now, e)], ?_⟩, hsound.showsDialing.turn turn, ?_, hwhy, hslips⟩
  · rw [DialLoop.run_concat, ← hreached]
    rfl
  · apply hsound.hasLetGo.turn ?_ turn
    rw [hreached]
    exact DialLoop.client_run_of_leaving policy events

theorem run_sound (policy : RetryPolicy) (events : List (Nat × GateEvent)) :
    Sound policy ((start policy).run events) := by
  induction events using List.reverseRecOn with
  | nil =>
    refine ⟨⟨[], rfl⟩, ?_, fun _ => rfl, ?_, fun h => absurd h Bool.noConfusion⟩
    · rintro (h | ⟨_, h⟩) <;> cases h
    · intro _
      exact ⟨fun h => absurd h DialPhase.noConfusion, fun h => absurd h DialPhase.noConfusion⟩
  | append_singleton events e ih =>
    rw [run_concat]
    rcases on_cases ((start policy).run events) e.1 e.2 with ⟨_, hhandle⟩ | hsame | ⟨e', hmove, _⟩
    · rw [hhandle]
      exact ⟨ih.reached, ih.showsDialing, ih.hasLetGo, ih.saysWhy, ih.slipsAway⟩
    · rw [hsame]
      exact ih
    · rw [hmove]
      exact ih.moveTo e.1 e'

/-! ### The end -/

/-- How a loop ends. -/
structure EndsAs (g : GatedLoop) : Prop where
  client : g.dialLoop.client = none
  /-- It says so if it did not go astray. -/
  shows_iff : (g.dialLoop.state = .closed ∨
    ∃ attempts, g.dialLoop.state = .permanentlyFailed attempts) ↔ g.isAstray = false
  /-- Otherwise it looks as if it were still coming up. -/
  noClientYet_iff : g.dialLoop.current = .error .noClientYet ↔ g.isAstray = true

/-- Whatever happens to a loop and to the handle that it waits at, once the loop is over it has no
client, and says that it is over unless the handle alone was cancelled while it waited. -/
theorem run_endsAs (policy : RetryPolicy) (events : List (Nat × GateEvent))
    (hended : ((start policy).run events).dialLoop.phase = .ended) :
    ((start policy).run events).EndsAs := by
  have hsound := run_sound policy events
  generalize (start policy).run events = g at hended hsound
  have hclient := hsound.hasLetGo (Or.inr hended)
  cases hastray : g.isAstray with
  | false =>
    have hshown := (hsound.saysWhy hastray).showsEnd hended
    refine ⟨hclient, iff_of_true hshown hastray, iff_of_false ?_ ?_⟩
    · intro hcurrent
      rw [DialLoop.current, hclient] at hcurrent
      rcases hshown with hclosed | ⟨attempts, hfailed⟩
      · rw [hclosed] at hcurrent
        cases hcurrent
      · rw [hfailed] at hcurrent
        cases hcurrent
    · rw [hastray]
      exact Bool.false_ne_true
  | true =>
    obtain ⟨attempt, hstate⟩ := (hsound.slipsAway hastray).dialing
    refine ⟨hclient, iff_of_false ?_ ?_, iff_of_true ?_ hastray⟩
    · rw [hstate]
      rintro (h | ⟨_, h⟩) <;> cases h
    · rw [hastray]
      exact Bool.false_ne_true.symm
    · rw [DialLoop.current, hclient, hstate]

/-- A loop that is closed while it waits. -/
theorem closedWaiting_endsAs :
    let events : List (Nat × GateEvent) :=
      [.proceed, .proceed, .loaded (.ok ()), .waited (.waiting 0 3000), .cancel, .turnedAway,
        .proceed, .proceed, .proceed].map fun e => (0, .dialLoop e)
    ((start {}).run events).dialLoop.phase = .ended ∧
      ((start {}).run events).dialLoop.state = .closed ∧ ((start {}).run events).EndsAs :=
  ⟨by decide, by decide, run_endsAs {} _ (by decide)⟩

/-- A loop whose handle is cancelled while it waits, and that goes on to show that it is dialing. -/
theorem not_showsEnd_of_handle : ¬ ∀ (policy : RetryPolicy) (events : List (Nat × GateEvent)),
    ((start policy).run events).dialLoop.phase = .ended →
      ((start policy).run events).dialLoop.client = none ∧
        (((start policy).run events).dialLoop.state = .closed ∨
          ∃ attempts, ((start policy).run events).dialLoop.state = .permanentlyFailed attempts) := by
  intro hall
  obtain ⟨_, hshown⟩ := hall {}
    [(0, .dialLoop .proceed), (0, .dialLoop .proceed), (0, .dialLoop (.loaded (.ok ()))),
      (0, .dialLoop (.waited (.waiting 0 3000))), (10, .cancelHandle), (10, .dialLoop .turnedAway),
      (10, .dialLoop .proceed)] rfl
  rcases hshown with hclosed | ⟨_, hfailed⟩
  · cases hclosed
  · cases hfailed

/-- A loop never goes astray where the handle is cancelled only once the loop is. -/
theorem isAstray_of_cancelled_first (policy : RetryPolicy) (events : List (Nat × GateEvent))
    (hfirst : ∀ before now after, events = before ++ (now, .cancelHandle) :: after →
      ((start policy).run before).dialLoop.isCancelled = true) :
    ((start policy).run events).isAstray = false ∧
      (((start policy).run events).handleIsCancelled = true →
        ((start policy).run events).dialLoop.isCancelled = true) := by
  induction events using List.reverseRecOn with
  | nil => exact ⟨rfl, nofun⟩
  | append_singleton events e ih =>
    obtain ⟨hastray, hhandle⟩ := ih fun before now after hevents =>
      hfirst before now (after ++ [e]) (by rw [hevents, List.append_assoc, List.cons_append])
    rw [run_concat]
    rcases on_cases ((start policy).run events) e.1 e.2 with ⟨hcancel, hon⟩ | hsame | ⟨e', hmove, haway⟩
    · rw [hon]
      exact ⟨hastray, fun _ => hfirst events e.1 [] (by rw [← hcancel])⟩
    · rw [hsame]
      exact ⟨hastray, hhandle⟩
    · rw [hmove]
      generalize (start policy).run events = g at hastray hhandle haway
      have turn := g.dialLoop.on_turn e.1 e'
      refine ⟨?_, fun hcancelled => turn.isCancelled (hhandle hcancelled)⟩
      rcases turn.away_or_stays with ⟨hturned, ⟨w, was⟩, hleft⟩ | hstays
      · have hcancelled : g.dialLoop.isCancelled = true := by
          rcases Bool.or_eq_true_iff.mp (haway hturned) with hown | hof
          · exact hown
          · exact hhandle hof
        simp only [GatedLoop.moveTo, hleft, was, hcancelled, Bool.not_true]
      · rw [isAstray_of_stays hstays, hastray, Bool.false_and]

end GatedLoop

end FleetWatch
