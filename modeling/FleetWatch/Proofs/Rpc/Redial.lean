import FleetWatch.Proofs.Rpc.Move
import Mathlib.Data.List.Induction
/-!
Invalidations and redials.

Whatever happens to a dial loop and in whatever order, every invalidation that takes a client away
makes the loop dial again once, and nothing else does.  The invariant ties the client, the stored
wake-up and the loop's phase together: while a loop serves a client that nobody cancelled, either
the client is still there or the wake-up is stored.
-/

namespace FleetWatch

/-- A loop with a record of what happened to its client. -/
structure WatchedLoop where
  loop : DialLoop
  /-- The number of the latest dial that made a client. -/
  latest : Option Nat := none
  /-- How often the client went from absent to present. -/
  published : Nat := 0
  /-- How many invalidations took a client away. -/
  invalidated : Nat := 0
  /-- How often the loop went from its client to the next attempt. -/
  redialed : Nat := 0

namespace WatchedLoop

def start (policy : RetryPolicy) : WatchedLoop where
  loop := { policy }

/-- The record after the loop became another one. -/
def observe (w : WatchedLoop) (bearing : Bearing) (l : DialLoop) : WatchedLoop where
  loop := l
  latest := if bearing = .makes then some w.loop.dials else w.latest
  published :=
    if w.loop.client = none ∧ l.client ≠ none then w.published + 1 else w.published
  invalidated := if bearing = .takes then w.invalidated + 1 else w.invalidated
  redialed :=
    if w.loop.phase = .connected ∧ l.phase = .starting then w.redialed + 1 else w.redialed

def on (w : WatchedLoop) (now : Nat) (event : DialEvent) : WatchedLoop :=
  w.observe (w.loop.bearing event) (w.loop.on now event)

/-- What happens at some times, in order. -/
def run (w : WatchedLoop) (events : List (Nat × DialEvent)) : WatchedLoop :=
  events.foldl (fun w e => w.on e.1 e.2) w

theorem run_concat (w : WatchedLoop) (events : List (Nat × DialEvent)) (e : Nat × DialEvent) :
    w.run (events ++ [e]) = (w.run events).on e.1 e.2 := by
  simp only [run, List.foldl_append, List.foldl_cons, List.foldl_nil]

variable {w : WatchedLoop} {l : DialLoop}

theorem observe_quiet {bearing : Bearing} (hmakes : bearing ≠ .makes) (htakes : bearing ≠ .takes)
    (hclient : l.client = w.loop.client ∨ l.client = none)
    (hphase : w.loop.phase = .connected → l.phase ≠ .starting) :
    w.observe bearing l = { w with loop := l } := by
  have hpublished : ¬ (w.loop.client = none ∧ l.client ≠ none) := by
    rintro ⟨hnone, hsome⟩
    rcases hclient with hsame | hgone
    · exact hsome (hsame.trans hnone)
    · exact hsome hgone
  have hredialed : ¬ (w.loop.phase = .connected ∧ l.phase = .starting) := fun h => hphase h.1 h.2
  simp only [observe, if_neg hpublished, if_neg hredialed, if_neg hmakes, if_neg htakes]

theorem observe_neither (hclient : l.client = w.loop.client ∨ l.client = none)
    (hphase : w.loop.phase = .connected → l.phase ≠ .starting) :
    w.observe .neither l = { w with loop := l } :=
  observe_quiet Bearing.noConfusion Bearing.noConfusion hclient hphase

/-- What holds of a loop at every moment. -/
structure Sound (w : WatchedLoop) : Prop where
  invalidated_eq : w.invalidated = w.redialed + w.loop.wakeUp.toNat
  absent_of_wakeUp : w.loop.wakeUp = true → w.loop.client = none
  latest_of_client : ∀ id, w.loop.client = some id → w.latest = some id
  attempting : w.loop.phase.isAttempting = true →
    w.loop.client = none ∧ w.loop.wakeUp = false ∧ w.published = w.redialed
  publishing : w.loop.phase = .publishing → w.latest = some w.loop.dials
  serving : w.loop.phase.isServing = true →
    w.published = w.redialed + 1 ∧
      (w.loop.isCancelled = false → w.loop.client.isSome = true ∨ w.loop.wakeUp = true)
  ended : w.loop.phase.isOver = true →
    w.published ≤ w.redialed + 1 ∧
      (w.loop.isCancelled = false → w.loop.client = none ∧ w.loop.wakeUp = false)

theorem start_sound (policy : RetryPolicy) : (start policy).Sound where
  invalidated_eq := rfl
  absent_of_wakeUp _ := rfl
  latest_of_client _ h := by cases h
  attempting _ := ⟨rfl, rfl, rfl⟩
  publishing h := by cases h
  serving h := by cases h
  ended h := by cases h

theorem Sound.attempt (h : w.Sound) (was : w.loop.phase.isAttempting = true)
    (is : l.phase.isAttempting = true ∧ l.phase ≠ .publishing ∨ l.phase = .leaving)
    (client : l.client = w.loop.client) (wakeUp : l.wakeUp = w.loop.wakeUp) :
    Sound { w with loop := l } := by
  obtain ⟨hnone, hquiet, hcount⟩ := h.attempting was
  have habsent : l.client = none := client.trans hnone
  have hstored : l.wakeUp = false := wakeUp.trans hquiet
  refine ⟨?_, fun _ => habsent, ?_, fun _ => ⟨habsent, hstored, hcount⟩, ?_, ?_, ?_⟩
  · simpa only [wakeUp] using h.invalidated_eq
  · intro id hid
    exact h.latest_of_client id (client.symm.trans hid)
  · intro hpublishing
    rcases is with ⟨_, hother⟩ | hleaving
    · exact absurd hpublishing hother
    · exact absurd (hleaving.symm.trans hpublishing) DialPhase.noConfusion
  · intro hserving
    rcases is with ⟨hattempting, _⟩ | hleaving
    · rw [DialPhase.isServing_of_isAttempting hattempting] at hserving
      exact absurd hserving Bool.false_ne_true
    · rw [hleaving] at hserving
      exact absurd hserving Bool.false_ne_true
  · intro _
    exact ⟨by simp only [hcount]; omega, fun _ => ⟨habsent, hstored⟩⟩

theorem Sound.succeed (h : w.Sound) {due : Nat} (was : w.loop.phase = .dialing due) :
    (w.observe .makes { w.loop with phase := .publishing, failures := 0 }).Sound := by
  obtain ⟨hnone, hquiet, hcount⟩ := h.attempting (by rw [was]; rfl)
  have hsame : w.observe .makes { w.loop with phase := .publishing, failures := 0 } =
      { w with
        loop := { w.loop with phase := .publishing, failures := 0 }
        latest := some w.loop.dials } := by
    simp [observe, hnone, was]
  rw [hsame]
  exact {
    invalidated_eq := h.invalidated_eq
    absent_of_wakeUp := h.absent_of_wakeUp
    latest_of_client := fun id hid => absurd (hnone.symm.trans hid) (Option.some_ne_none id).symm
    attempting := fun _ => ⟨hnone, hquiet, hcount⟩
    publishing := fun _ => rfl
    serving := fun hserving => absurd hserving Bool.false_ne_true
    ended := fun hover => absurd hover Bool.false_ne_true }

theorem Sound.publish (h : w.Sound) (was : w.loop.phase = .publishing) :
    (w.observe .neither
      { w.loop with phase := .announcing, client := some w.loop.dials }).Sound := by
  obtain ⟨hnone, hquiet, hcount⟩ := h.attempting (by rw [was]; rfl)
  have hpublished : w.observe .neither
      { w.loop with phase := .announcing, client := some w.loop.dials } =
        { w with
          loop := { w.loop with phase := .announcing, client := some w.loop.dials }
          published := w.published + 1 } := by
    simp [observe, hnone]
  rw [hpublished]
  exact {
    invalidated_eq := h.invalidated_eq
    absent_of_wakeUp := fun hstored => absurd (hquiet.symm.trans hstored) Bool.false_ne_true
    latest_of_client := fun id hid => (h.publishing was).trans hid
    attempting := fun hattempting => absurd hattempting Bool.false_ne_true
    publishing := fun hpublishing => absurd hpublishing DialPhase.noConfusion
    serving := fun _ => ⟨congrArg (· + 1) hcount, fun _ => Or.inl rfl⟩
    ended := fun hover => absurd hover Bool.false_ne_true }

theorem Sound.announce (h : w.Sound) (was : w.loop.phase = .announcing) :
    Sound { w with loop := { w.loop with phase := .connected, state := .connected } } where
  invalidated_eq := h.invalidated_eq
  absent_of_wakeUp := h.absent_of_wakeUp
  latest_of_client := h.latest_of_client
  attempting hattempting := absurd hattempting Bool.false_ne_true
  publishing hpublishing := absurd hpublishing DialPhase.noConfusion
  serving _ := h.serving (by rw [was]; rfl)
  ended hover := absurd hover Bool.false_ne_true

theorem Sound.redial (h : w.Sound) (was : w.loop.phase = .connected)
    (stored : w.loop.wakeUp = true) :
    (w.observe .neither { w.loop with phase := .starting, wakeUp := false }).Sound := by
  have hnone := h.absent_of_wakeUp stored
  obtain ⟨hcount, _⟩ := h.serving (by rw [was]; rfl)
  have htaken := h.invalidated_eq
  rw [stored] at htaken
  have hredialed : w.observe .neither { w.loop with phase := .starting, wakeUp := false } =
      { w with
        loop := { w.loop with phase := .starting, wakeUp := false }
        redialed := w.redialed + 1 } := by
    simp [observe, hnone, was]
  rw [hredialed]
  exact {
    invalidated_eq := htaken
    absent_of_wakeUp := fun _ => hnone
    latest_of_client := h.latest_of_client
    attempting := fun _ => ⟨hnone, rfl, hcount⟩
    publishing := fun hpublishing => absurd hpublishing DialPhase.noConfusion
    serving := fun hserving => absurd hserving Bool.false_ne_true
    ended := fun hover => absurd hover Bool.false_ne_true }

/-- A loop that leaves its client or is over already has published what it redialed, or one more. -/
theorem Sound.over_of_leaving (h : w.Sound)
    (was : w.loop.phase = .connected ∧ w.loop.isCancelled = true ∨ w.loop.phase.isOver = true) :
    w.published ≤ w.redialed + 1 ∧
      (w.loop.isCancelled = false → w.loop.client = none ∧ w.loop.wakeUp = false) := by
  rcases was with ⟨hconnected, hcancelled⟩ | hover
  · have hserving := h.serving (by rw [hconnected]; rfl)
    refine ⟨Nat.le_of_eq hserving.1, fun hkept => ?_⟩
    exact absurd (hcancelled.symm.trans hkept) Bool.false_ne_true.symm
  · exact h.ended hover

/-- A client that a loop has after somebody took none or the client away was there before. -/
theorem had_of_has (client : l.client = w.loop.client ∨ l.client = none) (id : Nat)
    (hid : l.client = some id) : w.loop.client = some id := by
  rcases client with hsame | hnone
  · exact hsame.symm.trans hid
  · exact absurd (hnone.symm.trans hid) (Option.some_ne_none id).symm

theorem absent_of_absent (client : l.client = w.loop.client ∨ l.client = none)
    (hnone : w.loop.client = none) : l.client = none := by
  rcases client with hsame | hgone
  · exact hsame.trans hnone
  · exact hgone

theorem Sound.windUp (h : w.Sound)
    (was : w.loop.phase = .connected ∧ w.loop.isCancelled = true ∨ w.loop.phase.isOver = true)
    (is : l.phase.isOver = true) (client : l.client = w.loop.client ∨ l.client = none)
    (wakeUp : l.wakeUp = w.loop.wakeUp) (isCancelled : l.isCancelled = w.loop.isCancelled) :
    Sound { w with loop := l } := by
  obtain ⟨hcount, hgone⟩ := h.over_of_leaving was
  refine ⟨?_, ?_, ?_, ?_, ?_, ?_, ?_⟩
  · simpa only [wakeUp] using h.invalidated_eq
  · intro hstored
    exact absent_of_absent client (h.absent_of_wakeUp (wakeUp.symm.trans hstored))
  · exact fun id hid => h.latest_of_client id (had_of_has client id hid)
  · intro hattempting
    rw [DialPhase.isOver_of_isAttempting hattempting] at is
    exact absurd is Bool.false_ne_true
  · intro hpublishing
    simp only at hpublishing
    rw [hpublishing] at is
    exact absurd is Bool.false_ne_true
  · intro hserving
    rw [DialPhase.isOver_of_isServing hserving] at is
    exact absurd is Bool.false_ne_true
  · intro _
    refine ⟨hcount, fun hkept => ?_⟩
    obtain ⟨hnone, hquiet⟩ := hgone (isCancelled.symm.trans hkept)
    exact ⟨absent_of_absent client hnone, wakeUp.trans hquiet⟩

theorem Sound.outside (h : w.Sound) (phase : l.phase = w.loop.phase)
    (client : l.client = w.loop.client ∨ l.client = none ∧ l.isCancelled = true)
    (wakeUp : l.wakeUp = w.loop.wakeUp)
    (isCancelled : w.loop.isCancelled = true → l.isCancelled = true)
    (dials : l.dials = w.loop.dials) : Sound { w with loop := l } := by
  have hclient : l.client = w.loop.client ∨ l.client = none := client.imp id And.left
  have hkept : l.isCancelled = false → w.loop.isCancelled = false := by
    intro hl
    cases hw : w.loop.isCancelled with
    | false => rfl
    | true => exact absurd ((isCancelled hw).symm.trans hl) Bool.false_ne_true.symm
  refine ⟨?_, ?_, ?_, ?_, ?_, ?_, ?_⟩
  · simpa only [wakeUp] using h.invalidated_eq
  · intro hstored
    exact absent_of_absent hclient (h.absent_of_wakeUp (wakeUp.symm.trans hstored))
  · exact fun id hid => h.latest_of_client id (had_of_has hclient id hid)
  · intro hattempting
    obtain ⟨hnone, hquiet, hcount⟩ := h.attempting (phase ▸ hattempting)
    exact ⟨absent_of_absent hclient hnone, wakeUp.trans hquiet, hcount⟩
  · intro hpublishing
    simpa only [dials] using h.publishing (phase.symm.trans hpublishing)
  · intro hserving
    obtain ⟨hcount, hthere⟩ := h.serving (phase ▸ hserving)
    refine ⟨hcount, fun hl => ?_⟩
    rcases client with hsame | ⟨_, hcancelled⟩
    · simpa only [hsame, wakeUp] using hthere (hkept hl)
    · exact absurd (hcancelled.symm.trans hl) Bool.false_ne_true.symm
  · intro hover
    obtain ⟨hcount, hgone⟩ := h.ended (phase ▸ hover)
    refine ⟨hcount, fun hl => ?_⟩
    obtain ⟨hnone, hquiet⟩ := hgone (hkept hl)
    exact ⟨absent_of_absent hclient hnone, wakeUp.trans hquiet⟩

theorem Sound.invalidate (h : w.Sound) {id : Nat} (was : w.loop.client = some id) :
    (w.observe .takes { w.loop with client := none, wakeUp := true }).Sound := by
  have hquiet : w.loop.wakeUp = false := by
    cases hw : w.loop.wakeUp with
    | false => rfl
    | true => exact absurd ((h.absent_of_wakeUp hw).symm.trans was) (Option.some_ne_none id).symm
  have htaken : w.observe .takes { w.loop with client := none, wakeUp := true } =
      { w with
        loop := { w.loop with client := none, wakeUp := true }
        invalidated := w.invalidated + 1 } := by
    simp only [observe, was, reduceCtorEq, false_and, if_false, if_true, WatchedLoop.mk.injEq,
      true_and, ite_eq_right_iff, and_imp]
    intro hconnected hstarting
    exact absurd (hconnected.symm.trans hstarting) DialPhase.noConfusion
  have hcount := h.invalidated_eq
  rw [hquiet] at hcount
  rw [htaken]
  refine ⟨congrArg (· + 1) hcount, fun _ => rfl, ?_, ?_, h.publishing, ?_, ?_⟩
  · exact fun id hid => absurd hid (Option.some_ne_none id).symm
  · intro hattempting
    exact absurd ((h.attempting hattempting).1.symm.trans was) (Option.some_ne_none id).symm
  · exact fun hserving => ⟨(h.serving hserving).1, fun _ => Or.inr rfl⟩
  · intro hover
    refine ⟨(h.ended hover).1, fun hkept => ?_⟩
    exact absurd (((h.ended hover).2 hkept).1.symm.trans was) (Option.some_ne_none id).symm

/-- Every move keeps the invariant. -/
theorem Sound.observe {bearing : Bearing} (h : w.Sound) (move : w.loop.Move bearing l) :
    (w.observe bearing l).Sound := by
  cases move with
  | attempt _ was is client wakeUp isCancelled =>
    rw [observe_neither (Or.inl client) fun hconnected => by rw [hconnected] at was; cases was]
    exact h.attempt was is client wakeUp
  | succeed due was => exact h.succeed was
  | publish was => exact h.publish was
  | announce was =>
    have hquiet : w.observe .neither { w.loop with phase := .connected, state := .connected } =
        { w with loop := { w.loop with phase := .connected, state := .connected } } :=
      observe_neither (Or.inl rfl) fun _ => DialPhase.noConfusion
    rw [hquiet]
    exact h.announce was
  | redial was stored => exact h.redial was stored
  | windUp _ was is client wakeUp isCancelled =>
    rw [observe_neither client fun _ hstarting => by rw [hstarting] at is; cases is]
    exact h.windUp was is client wakeUp isCancelled
  | outside _ phase client wakeUp isCancelled dials =>
    rw [observe_neither (client.imp id And.left) fun hconnected hstarting => by
      rw [hstarting, hconnected] at phase; cases phase]
    exact h.outside phase (client.imp_right fun hgone => ⟨hgone.1, isCancelled hgone.2⟩) wakeUp
      isCancelled dials
  | invalidate id was => exact h.invalidate was
  | close =>
    have hquiet : w.observe .ends
        { w.loop with isCancelled := true, client := none, state := .closed } =
          { w with
            loop := { w.loop with isCancelled := true, client := none, state := .closed } } :=
      observe_quiet Bearing.noConfusion Bearing.noConfusion (Or.inr rfl)
        fun hconnected => by rw [hconnected]; exact DialPhase.noConfusion
    rw [hquiet]
    exact h.outside rfl (Or.inr ⟨rfl, rfl⟩) rfl (fun _ => rfl) rfl

theorem run_sound (policy : RetryPolicy) (events : List (Nat × DialEvent)) :
    ((start policy).run events).Sound := by
  induction events using List.reverseRecOn with
  | nil => exact start_sound policy
  | append_singleton events e ih =>
    rw [run_concat]
    exact ih.observe (DialLoop.on_move _ e.1 e.2)

theorem Sound.published_le (h : w.Sound) : w.published ≤ 1 + w.invalidated := by
  have hcount := h.invalidated_eq
  rcases w.loop.phase.attempting_or_serving_or_over with hattempting | hserving | hover
  · have := (h.attempting hattempting).2.2
    omega
  · have := (h.serving hserving).1
    omega
  · have := (h.ended hover).1
    omega

/-- A stored wake-up of a loop that nobody cancelled is one of a client that is being served. -/
theorem Sound.serving_of_wakeUp (h : w.Sound) (hkept : w.loop.isCancelled = false)
    (hstored : w.loop.wakeUp = true) : w.loop.phase = .announcing ∨ w.loop.phase = .connected := by
  rcases w.loop.phase.attempting_or_serving_or_over with hattempting | hserving | hover
  · exact absurd ((h.attempting hattempting).2.1.symm.trans hstored) Bool.false_ne_true
  · exact DialPhase.eq_of_isServing hserving
  · exact absurd (((h.ended hover).2 hkept).2.symm.trans hstored) Bool.false_ne_true

/-- Only an invalidation, a closing or a cancellation takes a client away, and none replaces it. -/
theorem Sound.client_kept {bearing : Bearing} (h : w.Sound) (move : w.loop.Move bearing l)
    {id : Nat} (hid : w.loop.client = some id) :
    l.client = some id ∨ l.client = none ∧
      (bearing = .takes ∨ bearing = .ends ∨ w.loop.isCancelled = true) := by
  have hthere : w.loop.phase.isAttempting ≠ true := by
    intro hattempting
    exact absurd ((h.attempting hattempting).1.symm.trans hid) (Option.some_ne_none id).symm
  cases move with
  | attempt _ was is client wakeUp isCancelled => exact absurd was hthere
  | succeed due was => exact Or.inl hid
  | publish was => exact absurd (by rw [was]; rfl) hthere
  | announce was => exact Or.inl hid
  | redial was stored => exact Or.inl hid
  | windUp _ was is client wakeUp isCancelled =>
    refine client.imp (·.trans hid) fun hnone => ⟨hnone, Or.inr (Or.inr ?_)⟩
    rcases was with ⟨_, hcancelled⟩ | hover
    · exact hcancelled
    · by_contra hkept
      have hgone := ((h.ended hover).2 (Bool.eq_false_iff.mpr hkept)).1
      exact absurd (hgone.symm.trans hid) (Option.some_ne_none id).symm
  | outside _ phase client wakeUp isCancelled dials =>
    exact client.imp (·.trans hid) fun hgone => ⟨hgone.1, Or.inr (Or.inr hgone.2)⟩
  | invalidate _ was => exact Or.inr ⟨rfl, Or.inl rfl⟩
  | close => exact Or.inr ⟨rfl, Or.inr (Or.inl rfl)⟩

/-- That a loop dials again once for every invalidation that takes its client away, and for
nothing else. -/
structure RedialsOnInvalidation (w : WatchedLoop) : Prop where
  /-- Nobody waits for an invalidation that has been. -/
  wait_has_client_or_wakeUp : w.loop.isCancelled = false → w.loop.phase = .connected →
    w.loop.client.isSome = true ∨ w.loop.wakeUp = true
  /-- Every invalidation that took a client away was followed by one redial, or will be. -/
  invalidated_eq : w.invalidated = w.redialed + if w.loop.wakeUp then 1 else 0
  /-- The loop goes by itself from a stored wake-up to the next attempt. -/
  redials : w.loop.isCancelled = false → w.loop.wakeUp = true → ∀ outcomes now s,
    w.loop.phase = .announcing ∧ w.loop.next? outcomes s = some (.proceed, s) ∧
        w.loop.on now .proceed = { w.loop with phase := .connected, state := .connected } ∨
      w.loop.phase = .connected ∧ w.loop.next? outcomes s = some (.noticedInvalidation, s) ∧
        w.loop.on now .noticedInvalidation =
          { w.loop with phase := .starting, wakeUp := false }
  /-- Nothing else makes it leave. -/
  stays : w.loop.isCancelled = false → w.loop.phase = .connected → ∀ now e,
    (w.loop.on now e).phase = .connected ∨
      w.loop.wakeUp = true ∧ w.loop.on now e = { w.loop with phase := .starting, wakeUp := false }
  invalidate_eq_self : w.loop.client = none → ∀ now, w.loop.on now .invalidate = w.loop
  published_le : w.published ≤ 1 + w.invalidated
  latest_of_current : ∀ id, w.loop.current = .ok id → w.latest = some id
  client_kept : ∀ now e id, w.loop.client = some id →
    (w.loop.on now e).client = some id ∨ (w.loop.on now e).client = none ∧
      (e = .invalidate ∨ e = .close ∨ w.loop.isCancelled = true)

/-- Whatever happens to a loop, in whatever order, it dials again for the invalidations that take
its client away. -/
theorem run_redialsOnInvalidation (policy : RetryPolicy) (events : List (Nat × DialEvent)) :
    RedialsOnInvalidation ((start policy).run events) := by
  generalize hw : (start policy).run events = w
  have h : w.Sound := hw ▸ run_sound policy events
  refine ⟨?_, ?_, ?_, ?_, ?_, h.published_le, ?_, ?_⟩
  · intro hkept hconnected
    exact (h.serving (by rw [hconnected]; rfl)).2 hkept
  · rw [h.invalidated_eq]
    cases w.loop.wakeUp <;> rfl
  · intro hkept hstored outcomes now s
    rcases h.serving_of_wakeUp hkept hstored with hannouncing | hconnected
    · refine Or.inl ⟨hannouncing, ?_, ?_⟩
      · simp only [DialLoop.next?, hannouncing]
      · simp only [DialLoop.on, DialLoop.proceed, hannouncing]
    · refine Or.inr ⟨hconnected, ?_, ?_⟩
      · simp only [DialLoop.next?, hconnected, hkept, hstored, if_true, Bool.false_eq_true, if_false]
      · simp only [DialLoop.on, hconnected, hstored, if_true]
  · intro hkept hconnected now e
    exact (w.loop.on_move now e).of_connected hconnected hkept
  · intro hnone now
    simp only [DialLoop.on, DialLoop.invalidate, hnone]
  · intro id hid
    refine h.latest_of_client id ?_
    unfold DialLoop.current at hid
    split at hid
    · simp_all
    all_goals cases hid
  · intro now e id hid
    rcases h.client_kept (w.loop.on_move now e) hid with hkept | ⟨hnone, hcause⟩
    · exact Or.inl hkept
    · refine Or.inr ⟨hnone, ?_⟩
      rcases hcause with htakes | hends | hcancelled
      · exact Or.inl (DialLoop.eq_invalidate_of_takes htakes)
      · exact Or.inr (Or.inl (DialLoop.eq_close_of_ends hends))
      · exact Or.inr (Or.inr hcancelled)

/-- The client is invalidated after it is published and before the loop waits for that. -/
example :
    let w := (start {}).run [(0, .proceed), (0, .proceed), (0, .loaded (.ok ())), (0, .admitted),
      (5, .dialed (.ok ())), (5, .proceed), (5, .invalidate), (6, .invalidate), (6, .proceed),
      (6, .noticedInvalidation), (6, .noticedInvalidation)]
    (w.loop.phase, w.published, w.invalidated, w.redialed) = (.starting, 1, 1, 1) := by
  decide

end WatchedLoop

end FleetWatch
