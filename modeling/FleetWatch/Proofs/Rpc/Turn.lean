import FleetWatch.Rpc.DialLoop
/-!
Everything that an event can do to a dial loop.

`DialLoop.on_turn` says it once, case by case: where the loop was, what had to hold, and what it is
afterwards.  What a step preserves is proved by going through these cases.
-/

namespace FleetWatch

namespace DialLoop

/-- Whether an event ends an attempt without a client: a load that fails, or a dial that fails or
takes too long. -/
def fails (l : DialLoop) (event : DialEvent) : Bool :=
  match event, l.phase with
  | .loaded (.error _), .loading => true
  | .dialed (.error _), .dialing _ => true
  | .timedOut, .dialing _ => true
  | _, _ => false

/-- What an event does to a loop at a time. -/
inductive Turn (l : DialLoop) (now : Nat) : DialEvent → DialLoop → Prop where
  /-- The event cannot happen now, or makes no difference. -/
  | idle (e : DialEvent) : Turn l now e l
  | start (was : l.phase = .starting) (kept : l.isCancelled = false) :
    Turn l now .proceed { l with phase := .opening }
  | quit (was : l.phase = .starting) (cancelled : l.isCancelled = true) :
    Turn l now .proceed { l with phase := .leaving }
  | attempt (was : l.phase = .opening) :
    Turn l now .proceed
      { l with phase := .loading, state := .dialing (l.failures + 1), loads := l.loads + 1 }
  | load (was : l.phase = .loading) :
    Turn l now (.loaded (.ok ())) { l with phase := .waiting .fresh }
  | wait (w w' : Waiter) (was : l.phase = .waiting w) :
    Turn l now (.waited w') { l with phase := .waiting w' }
  | dial (w : Waiter) (was : l.phase = .waiting w) :
    Turn l now .admitted
      { l with phase := .dialing (now + l.policy.connectTimeout), dials := l.dials + 1 }
  | turnAway (w : Waiter) (was : l.phase = .waiting w) :
    Turn l now .turnedAway { l with phase := .leaving }
  | succeed (due : Nat) (was : l.phase = .dialing due) :
    Turn l now (.dialed (.ok ())) { l with phase := .publishing, failures := 0 }
  /-- An attempt failed, and there will be another. -/
  | backOff (e : DialEvent) (was : l.phase = .loading ∨ ∃ due, l.phase = .dialing due)
    (isLeft : ∀ most, l.policy.maxAttempts = some most → l.failures + 1 < most)
    (failed : l.fails e = true) :
    Turn l now e
      { l with phase := .backingOff (now + l.policy.retryDelay), failures := l.failures + 1 }
  /-- An attempt failed, and it was the last one. -/
  | giveUp (e : DialEvent) (was : l.phase = .loading ∨ ∃ due, l.phase = .dialing due) (most : Nat)
    (ceiling : l.policy.maxAttempts = some most) (reached : most ≤ l.failures + 1)
    (failed : l.fails e = true) :
    Turn l now e
      { l with
        phase := .leaving
        failures := l.failures + 1
        state := .permanentlyFailed (l.failures + 1) }
  | publish (was : l.phase = .publishing) :
    Turn l now .proceed { l with phase := .announcing, client := some l.dials }
  | announce (was : l.phase = .announcing) :
    Turn l now .proceed { l with phase := .connected, state := .connected }
  | redial (was : l.phase = .connected) (stored : l.wakeUp = true) :
    Turn l now .noticedInvalidation { l with phase := .starting, wakeUp := false }
  | rest (due : Nat) (was : l.phase = .backingOff due) :
    Turn l now .rested { l with phase := .starting }
  | leave
    (was : (∃ due, l.phase = .dialing due) ∨ l.phase = .connected ∨ ∃ due, l.phase = .backingOff due)
    (cancelled : l.isCancelled = true) :
    Turn l now .noticedCancel { l with phase := .leaving }
  | windUp (was : l.phase = .leaving) (cancelled : l.isCancelled = true) :
    Turn l now .proceed { l with phase := .withdrawing }
  | stop (was : l.phase = .leaving) (kept : l.isCancelled = false) :
    Turn l now .proceed { l with phase := .ended }
  | drop (was : l.phase = .withdrawing) :
    Turn l now .proceed { l with phase := .closing, client := none }
  | finish (was : l.phase = .closing) :
    Turn l now .proceed { l with phase := .ended, state := endState l.state }
  | invalidate (id : Nat) (had : l.client = some id) :
    Turn l now .invalidate { l with client := none, wakeUp := true }
  | cancel : Turn l now .cancel { l with isCancelled := true }
  | withdraw (cancelled : l.isCancelled = true) : Turn l now .withdraw { l with client := none }
  | showClosed (cancelled : l.isCancelled = true) :
    Turn l now .showClosed { l with state := .closed }
  | close : Turn l now .close { l with isCancelled := true, client := none, state := .closed }

variable (l : DialLoop) (now : Nat)

/-- A loop whose attempt failed waits for the next one, or gives up at its ceiling. -/
theorem fail_outcome :
    (∀ most, l.policy.maxAttempts = some most → l.failures + 1 < most) ∧
        l.fail now =
          { l with phase := .backingOff (now + l.policy.retryDelay), failures := l.failures + 1 } ∨
      ∃ most, l.policy.maxAttempts = some most ∧ most ≤ l.failures + 1 ∧
        l.fail now =
          { l with
            phase := .leaving
            failures := l.failures + 1
            state := .permanentlyFailed (l.failures + 1) } := by
  unfold fail
  dsimp only
  split
  · next most ceiling =>
    split
    · next reached => exact Or.inr ⟨most, ceiling, reached, rfl⟩
    · next isLeft =>
      refine Or.inl ⟨fun most' hmost => ?_, rfl⟩
      rw [ceiling, Option.some.injEq] at hmost
      omega
  · next ceiling =>
    refine Or.inl ⟨fun most hmost => ?_, rfl⟩
    rw [ceiling] at hmost
    cases hmost

theorem fail_turn (e : DialEvent) (was : l.phase = .loading ∨ ∃ due, l.phase = .dialing due)
    (failed : l.fails e = true) : Turn l now e (l.fail now) := by
  rcases l.fail_outcome now with ⟨isLeft, hfail⟩ | ⟨most, ceiling, reached, hfail⟩
  · rw [hfail]
    exact .backOff e was isLeft failed
  · rw [hfail]
    exact .giveUp e was most ceiling reached failed

/-- An attempt fails while its credentials are loaded or while it dials. -/
theorem on_of_fails {l : DialLoop} {e : DialEvent} (failed : l.fails e = true) (now : Nat) :
    (l.phase = .loading ∨ ∃ due, l.phase = .dialing due) ∧ l.on now e = l.fail now := by
  unfold fails at failed
  split at failed
  · next hp => exact ⟨Or.inl hp, by simp only [on, hp]⟩
  · next due hp => exact ⟨Or.inr ⟨due, hp⟩, by simp only [on, hp]⟩
  · next due hp => exact ⟨Or.inr ⟨due, hp⟩, by simp only [on, hp]⟩
  · cases failed

theorem proceed_turn : Turn l now .proceed l.proceed := by
  cases hp : l.phase with
  | starting =>
    cases hc : l.isCancelled with
    | true => simpa [proceed, hp, hc] using Turn.quit hp hc
    | false => simpa [proceed, hp, hc] using Turn.start hp hc
  | opening => simpa only [proceed, hp] using Turn.attempt hp
  | publishing => simpa only [proceed, hp] using Turn.publish hp
  | announcing => simpa only [proceed, hp] using Turn.announce hp
  | leaving =>
    cases hc : l.isCancelled with
    | true => simpa [proceed, hp, hc] using Turn.windUp hp hc
    | false => simpa [proceed, hp, hc] using Turn.stop hp hc
  | withdrawing => simpa only [proceed, hp] using Turn.drop hp
  | closing => simpa only [proceed, hp] using Turn.finish hp
  | _ => simpa only [proceed, hp] using Turn.idle .proceed

theorem noticedCancel_turn
    (was : (∃ due, l.phase = .dialing due) ∨ l.phase = .connected ∨
      ∃ due, l.phase = .backingOff due) :
    Turn l now .noticedCancel (if l.isCancelled then { l with phase := .leaving } else l) := by
  split
  · exact .leave was ‹_›
  · exact .idle .noticedCancel

/-- Every event is one of these turns. -/
theorem on_turn (e : DialEvent) : Turn l now e (l.on now e) := by
  cases e with
  | proceed => exact l.proceed_turn now
  | cancel => exact .cancel
  | close => exact .close
  | invalidate =>
    cases hc : l.client with
    | none => simpa only [on, DialLoop.invalidate, hc] using Turn.idle .invalidate
    | some id => simpa only [on, DialLoop.invalidate, hc] using Turn.invalidate id hc
  | withdraw =>
    rw [on, DialLoop.withdraw]
    split
    · exact .withdraw ‹_›
    · exact .idle .withdraw
  | showClosed =>
    rw [on, DialLoop.showClosed]
    split
    · exact .showClosed ‹_›
    · exact .idle .showClosed
  | loaded result =>
    cases hp : l.phase with
    | loading =>
      cases result with
      | ok _ => simpa only [on, hp] using Turn.load hp
      | error e =>
        simpa only [on, hp] using
          l.fail_turn now (.loaded (.error e)) (Or.inl hp) (by simp only [fails, hp])
    | _ => cases result <;> simpa only [on, hp] using Turn.idle _
  | waited w' =>
    cases hp : l.phase with
    | waiting w => simpa only [on, hp] using Turn.wait w w' hp
    | _ => simpa only [on, hp] using Turn.idle _
  | admitted =>
    cases hp : l.phase with
    | waiting w => simpa only [on, hp] using Turn.dial w hp
    | _ => simpa only [on, hp] using Turn.idle _
  | turnedAway =>
    cases hp : l.phase with
    | waiting w => simpa only [on, hp] using Turn.turnAway w hp
    | _ => simpa only [on, hp] using Turn.idle _
  | dialed result =>
    cases hp : l.phase with
    | dialing due =>
      cases result with
      | ok _ => simpa only [on, hp] using Turn.succeed due hp
      | error e =>
        simpa only [on, hp] using
          l.fail_turn now (.dialed (.error e)) (Or.inr ⟨due, hp⟩) (by simp only [fails, hp])
    | _ => cases result <;> simpa only [on, hp] using Turn.idle _
  | timedOut =>
    cases hp : l.phase with
    | dialing due =>
      simpa only [on, hp] using
        l.fail_turn now .timedOut (Or.inr ⟨due, hp⟩) (by simp only [fails, hp])
    | _ => simpa only [on, hp] using Turn.idle _
  | rested =>
    cases hp : l.phase with
    | backingOff due => simpa only [on, hp] using Turn.rest due hp
    | _ => simpa only [on, hp] using Turn.idle _
  | noticedInvalidation =>
    cases hp : l.phase with
    | connected =>
      simp only [on, hp]
      split
      · exact .redial hp ‹_›
      · exact .idle _
    | _ => simpa only [on, hp] using Turn.idle _
  | noticedCancel =>
    cases hp : l.phase with
    | dialing due => simpa only [on, hp] using l.noticedCancel_turn now (Or.inl ⟨due, hp⟩)
    | connected => simpa only [on, hp] using l.noticedCancel_turn now (Or.inr (Or.inl hp))
    | backingOff due =>
      simpa only [on, hp] using l.noticedCancel_turn now (Or.inr (Or.inr ⟨due, hp⟩))
    | _ => simpa only [on, hp] using Turn.idle _

/-- A cancelled loop stays cancelled. -/
theorem Turn.isCancelled {l l' : DialLoop} {now : Nat} {e : DialEvent} (turn : l.Turn now e l')
    (h : l.isCancelled = true) : l'.isCancelled = true := by
  cases turn with
  | cancel => rfl
  | close => rfl
  | _ => exact h

end DialLoop

end FleetWatch
