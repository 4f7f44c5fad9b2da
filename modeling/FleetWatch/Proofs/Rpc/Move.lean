import FleetWatch.Rpc.DialLoop
/-!
What an event does to a dial loop.

Of everything that can happen to a loop, only a few things matter to its client and to the stored
wake-up.  `DialLoop.on_move` sorts every event into one of them, so that what holds of every run is
proved by one case for each.
-/

namespace FleetWatch

namespace DialPhase

/-- On the way to a client. -/
def isAttempting : DialPhase → Bool
  | .starting | .opening | .loading | .waiting _ | .dialing _ | .publishing | .backingOff _ => true
  | _ => false

/-- A client was published, and the loop has not gone on. -/
def isServing : DialPhase → Bool
  | .announcing | .connected => true
  | _ => false

/-- The attempts are over. -/
def isOver : DialPhase → Bool
  | .leaving | .withdrawing | .closing | .ended => true
  | _ => false

theorem attempting_or_serving_or_over (p : DialPhase) :
    p.isAttempting = true ∨ p.isServing = true ∨ p.isOver = true := by
  cases p <;> simp [isAttempting, isServing, isOver]

theorem isServing_of_isAttempting {p : DialPhase} (h : p.isAttempting = true) :
    p.isServing = false := by
  cases p <;> first | rfl | cases h

theorem isOver_of_isAttempting {p : DialPhase} (h : p.isAttempting = true) :
    p.isOver = false := by
  cases p <;> first | rfl | cases h

theorem isOver_of_isServing {p : DialPhase} (h : p.isServing = true) : p.isOver = false := by
  cases p <;> first | rfl | cases h

theorem eq_of_isServing {p : DialPhase} (h : p.isServing = true) :
    p = .announcing ∨ p = .connected := by
  cases p <;> first | exact Or.inl rfl | exact Or.inr rfl | cases h

end DialPhase

/-- What an event means for the client of a loop. -/
inductive Bearing where
  /-- A dial made the next client. -/
  | makes
  /-- An invalidation takes the client away. -/
  | takes
  /-- Somebody closes the loop, and the client goes with it. -/
  | ends
  | neither
deriving Repr, DecidableEq

namespace DialLoop

/-- What an event means for the client. -/
def bearing (l : DialLoop) (event : DialEvent) : Bearing :=
  match event, l.phase, l.client with
  | .dialed (.ok _), .dialing _, _ => .makes
  | .invalidate, _, some _ => .takes
  | .close, _, _ => .ends
  | _, _, _ => .neither

theorem fail_cases (l : DialLoop) (now : Nat) :
    ((l.fail now).phase = .leaving ∨ ∃ due, (l.fail now).phase = .backingOff due) ∧
      (l.fail now).client = l.client ∧ (l.fail now).wakeUp = l.wakeUp ∧
      (l.fail now).isCancelled = l.isCancelled := by
  simp only [fail]
  split
  · split
    · exact ⟨Or.inl rfl, rfl, rfl, rfl⟩
    · exact ⟨Or.inr ⟨_, rfl⟩, rfl, rfl, rfl⟩
  · exact ⟨Or.inr ⟨_, rfl⟩, rfl, rfl, rfl⟩

/-- What an event does to a loop, as far as its client and its wake-up are concerned. -/
inductive Move (l : DialLoop) : Bearing → DialLoop → Prop where
  /-- The attempt goes on, or the next one starts, or there will be none. -/
  | attempt (l' : DialLoop) (was : l.phase.isAttempting = true)
    (is : l'.phase.isAttempting = true ∧ l'.phase ≠ .publishing ∨ l'.phase = .leaving)
    (client : l'.client = l.client) (wakeUp : l'.wakeUp = l.wakeUp)
    (isCancelled : l'.isCancelled = l.isCancelled) : Move l .neither l'
  | succeed (due : Nat) (was : l.phase = .dialing due) :
    Move l .makes { l with phase := .publishing, failures := 0 }
  | publish (was : l.phase = .publishing) :
    Move l .neither { l with phase := .announcing, client := some l.dials }
  | announce (was : l.phase = .announcing) :
    Move l .neither { l with phase := .connected, state := .connected }
  | redial (was : l.phase = .connected) (stored : l.wakeUp = true) :
    Move l .neither { l with phase := .starting, wakeUp := false }
  /-- A cancelled loop leaves its client, or a loop that left winds up. -/
  | windUp (l' : DialLoop)
    (was : l.phase = .connected ∧ l.isCancelled = true ∨ l.phase.isOver = true)
    (is : l'.phase.isOver = true)
    (client : l'.client = l.client ∨ l'.client = none)
    (wakeUp : l'.wakeUp = l.wakeUp) (isCancelled : l'.isCancelled = l.isCancelled) :
    Move l .neither l'
  /-- Somebody cancels the loop or goes on with closing it, or nothing happens. -/
  | outside (l' : DialLoop) (phase : l'.phase = l.phase)
    (client : l'.client = l.client ∨ l'.client = none ∧ l.isCancelled = true)
    (wakeUp : l'.wakeUp = l.wakeUp) (isCancelled : l.isCancelled = true → l'.isCancelled = true)
    (dials : l'.dials = l.dials) : Move l .neither l'
  | invalidate (id : Nat) (was : l.client = some id) :
    Move l .takes { l with client := none, wakeUp := true }
  | close : Move l .ends { l with isCancelled := true, client := none, state := .closed }

theorem Move.idle (l : DialLoop) : Move l .neither l :=
  .outside l rfl (Or.inl rfl) rfl id rfl

theorem fail_move (l : DialLoop) (now : Nat) (was : l.phase.isAttempting = true) :
    Move l .neither (l.fail now) := by
  obtain ⟨hphase, hclient, hwakeUp, hcancelled⟩ := l.fail_cases now
  refine .attempt _ was ?_ hclient hwakeUp hcancelled
  rcases hphase with hleaving | ⟨due, hbacking⟩
  · exact Or.inr hleaving
  · exact Or.inl ⟨by rw [hbacking]; rfl, by rw [hbacking]; exact DialPhase.noConfusion⟩

theorem proceed_move (l : DialLoop) : Move l .neither l.proceed := by
  cases hp : l.phase with
  | starting =>
    refine .attempt _ (by rw [hp]; rfl) ?_ (by simp [proceed, hp]) (by simp [proceed, hp])
      (by simp [proceed, hp])
    cases hc : l.isCancelled <;> simp [proceed, hp, hc, DialPhase.isAttempting]
  | opening =>
    exact .attempt _ (by rw [hp]; rfl) (by simp [proceed, hp, DialPhase.isAttempting])
      (by simp [proceed, hp]) (by simp [proceed, hp]) (by simp [proceed, hp])
  | publishing => simpa only [proceed, hp] using Move.publish hp
  | announcing => simpa only [proceed, hp] using Move.announce hp
  | leaving =>
    refine .windUp _ (Or.inr (by rw [hp]; rfl)) ?_ (by simp [proceed, hp]) (by simp [proceed, hp])
      (by simp [proceed, hp])
    cases hc : l.isCancelled <;> simp [proceed, hp, hc, DialPhase.isOver]
  | withdrawing =>
    exact .windUp _ (Or.inr (by rw [hp]; rfl)) (by simp [proceed, hp, DialPhase.isOver])
      (by simp [proceed, hp]) (by simp [proceed, hp]) (by simp [proceed, hp])
  | closing =>
    exact .windUp _ (Or.inr (by rw [hp]; rfl)) (by simp [proceed, hp, DialPhase.isOver])
      (by simp [proceed, hp]) (by simp [proceed, hp]) (by simp [proceed, hp])
  | _ => simpa only [proceed, hp] using Move.idle l

theorem withdraw_move (l : DialLoop) : Move l .neither l.withdraw := by
  unfold withdraw
  split
  · exact .outside _ rfl (Or.inr ⟨rfl, ‹_›⟩) rfl id rfl
  · exact .idle l

theorem showClosed_move (l : DialLoop) : Move l .neither l.showClosed := by
  unfold showClosed
  split
  · exact .outside _ rfl (Or.inl rfl) rfl id rfl
  · exact .idle l

theorem invalidate_move (l : DialLoop) : Move l (l.bearing .invalidate) l.invalidate := by
  cases hc : l.client with
  | none => simpa only [invalidate, bearing, hc] using Move.idle l
  | some id => simpa only [invalidate, bearing, hc] using Move.invalidate id hc

theorem noticedCancel_move (l : DialLoop)
    (was : l.phase.isAttempting = true ∨ l.phase = .connected) :
    Move l .neither (if l.isCancelled then { l with phase := .leaving } else l) := by
  split
  · rcases was with hattempting | hconnected
    · exact .attempt _ hattempting (Or.inr rfl) rfl rfl rfl
    · exact .windUp _ (Or.inl ⟨hconnected, ‹_›⟩) rfl (Or.inl rfl) rfl rfl
  · exact .idle l

/-- Every event is one of these moves. -/
theorem on_move (l : DialLoop) (now : Nat) (e : DialEvent) :
    Move l (l.bearing e) (l.on now e) := by
  cases e with
  | proceed => exact l.proceed_move
  | invalidate => exact l.invalidate_move
  | withdraw => exact l.withdraw_move
  | showClosed => exact l.showClosed_move
  | cancel => exact .outside _ rfl (Or.inl rfl) rfl (fun _ => rfl) rfl
  | close => exact .close
  | loaded result =>
    cases hp : l.phase with
    | loading =>
      cases result with
      | ok _ =>
        simp only [on, bearing, hp]
        exact .attempt _ (by rw [hp]; rfl) (Or.inl ⟨rfl, DialPhase.noConfusion⟩) rfl rfl rfl
      | error _ => simpa only [on, bearing, hp] using l.fail_move now (by rw [hp]; rfl)
    | _ => cases result <;> simpa only [on, bearing, hp] using Move.idle l
  | waited w =>
    cases hp : l.phase with
    | waiting _ =>
      simp only [on, bearing, hp]
      exact .attempt _ (by rw [hp]; rfl) (Or.inl ⟨rfl, DialPhase.noConfusion⟩) rfl rfl rfl
    | _ => simpa only [on, bearing, hp] using Move.idle l
  | admitted =>
    cases hp : l.phase with
    | waiting _ =>
      simp only [on, bearing, hp]
      exact .attempt _ (by rw [hp]; rfl) (Or.inl ⟨rfl, DialPhase.noConfusion⟩) rfl rfl rfl
    | _ => simpa only [on, bearing, hp] using Move.idle l
  | turnedAway =>
    cases hp : l.phase with
    | waiting _ =>
      simp only [on, bearing, hp]
      exact .attempt _ (by rw [hp]; rfl) (Or.inr rfl) rfl rfl rfl
    | _ => simpa only [on, bearing, hp] using Move.idle l
  | dialed result =>
    cases hp : l.phase with
    | dialing due =>
      cases result with
      | ok _ => simpa only [on, bearing, hp] using Move.succeed due hp
      | error _ => simpa only [on, bearing, hp] using l.fail_move now (by rw [hp]; rfl)
    | _ => cases result <;> simpa only [on, bearing, hp] using Move.idle l
  | timedOut =>
    cases hp : l.phase with
    | dialing _ => simpa only [on, bearing, hp] using l.fail_move now (by rw [hp]; rfl)
    | _ => simpa only [on, bearing, hp] using Move.idle l
  | rested =>
    cases hp : l.phase with
    | backingOff _ =>
      simp only [on, bearing, hp]
      exact .attempt _ (by rw [hp]; rfl) (Or.inl ⟨rfl, DialPhase.noConfusion⟩) rfl rfl rfl
    | _ => simpa only [on, bearing, hp] using Move.idle l
  | noticedInvalidation =>
    cases hp : l.phase with
    | connected =>
      simp only [on, bearing, hp]
      split
      · exact .redial hp ‹_›
      · exact .idle l
    | _ => simpa only [on, bearing, hp] using Move.idle l
  | noticedCancel =>
    cases hp : l.phase with
    | dialing _ =>
      simpa only [on, bearing, hp] using l.noticedCancel_move (Or.inl (by rw [hp]; rfl))
    | backingOff _ =>
      simpa only [on, bearing, hp] using l.noticedCancel_move (Or.inl (by rw [hp]; rfl))
    | connected => simpa only [on, bearing, hp] using l.noticedCancel_move (Or.inr hp)
    | _ => simpa only [on, bearing, hp] using Move.idle l

/-- A loop that waits for an invalidation and that nobody cancelled goes on only for the wake-up
that is stored. -/
theorem Move.of_connected {l l' : DialLoop} {bearing : Bearing} (move : Move l bearing l')
    (hconnected : l.phase = .connected) (hkept : l.isCancelled = false) :
    l'.phase = .connected ∨
      l.wakeUp = true ∧ l' = { l with phase := .starting, wakeUp := false } := by
  cases move with
  | attempt _ was is client wakeUp isCancelled => rw [hconnected] at was; cases was
  | succeed due was => rw [hconnected] at was; cases was
  | publish was => rw [hconnected] at was; cases was
  | announce was => exact Or.inl rfl
  | redial was stored => exact Or.inr ⟨stored, rfl⟩
  | windUp _ was is client wakeUp isCancelled =>
    rcases was with ⟨_, hcancelled⟩ | hover
    · exact absurd (hcancelled.symm.trans hkept) Bool.false_ne_true.symm
    · rw [hconnected] at hover
      cases hover
  | outside _ phase client wakeUp isCancelled dials => exact Or.inl (phase.trans hconnected)
  | invalidate id was => exact Or.inl hconnected
  | close => exact Or.inl hconnected

theorem eq_invalidate_of_takes {l : DialLoop} {e : DialEvent} (h : l.bearing e = .takes) :
    e = .invalidate := by
  unfold bearing at h
  split at h
  · cases h
  · rfl
  · cases h
  · cases h

theorem eq_close_of_ends {l : DialLoop} {e : DialEvent} (h : l.bearing e = .ends) :
    e = .close := by
  unfold bearing at h
  split at h
  · cases h
  · cases h
  · rfl
  · cases h

end DialLoop

end FleetWatch
