import FleetWatch.Proofs.Rpc.Closing
import FleetWatch.Proofs.Rpc.Move
/-!
How often a dial loop tries.

The tally of a loop notes every attempt that fails and every client that is published; nothing of it
is read off the loop's own counter.  Main statement: whatever happens, the number that a loop shows
with an attempt is one more than the failures in a row before it, the loop gives up just at the last
failure in a row that its ceiling allows, and a loop that gave up never loads or dials again
(`run_keepsCeiling`).
-/

namespace FleetWatch

/-- What counts for the ceiling. -/
inductive Mark where
  | failed
  | published
deriving Repr, DecidableEq

/-- How many attempts failed since the last client or the start. -/
def failuresInARow (marks : List Mark) : Nat :=
  (marks.reverse.takeWhile (· == .failed)).length

theorem failuresInARow_failed (marks : List Mark) :
    failuresInARow (marks ++ [.failed]) = failuresInARow marks + 1 := by
  rw [failuresInARow, List.reverse_concat]
  rfl

theorem failuresInARow_published (marks : List Mark) :
    failuresInARow (marks ++ [.published]) = 0 := by
  rw [failuresInARow, List.reverse_concat]
  rfl

/-- How many failures in a row the ceiling allows.  The last of them ends the loop, so it is at least
one. -/
def RetryPolicy.allowed? (policy : RetryPolicy) : Option Nat :=
  policy.maxAttempts.map fun most => max most 1

/-- Somebody shows that the loop is closed. -/
def DialEvent.closes : DialEvent → Bool
  | .showClosed | .close => true
  | _ => false

namespace DialLoop

variable {l l' : DialLoop} {now : Nat} {e : DialEvent}

/-- What an event means for the ceiling. -/
def mark? (l : DialLoop) (event : DialEvent) : Option Mark :=
  if l.fails event then some .failed
  else
    match event, l.phase with
    | .proceed, .publishing => some .published
    | _, _ => none

/-! ### One event -/

/-- A change of a loop that counts nothing. -/
structure Unmarked (l l' : DialLoop) : Prop where
  policy_eq : l'.policy = l.policy
  failures_eq : l'.phase ≠ .publishing → l.phase ≠ .publishing ∧ l'.failures = l.failures
  publishing : l'.phase = .publishing →
    l'.failures = 0 ∨ l.phase = .publishing ∧ l'.failures = l.failures
  isOver : l.phase.isOver = true → l'.phase.isOver = true
  isServing : l'.phase.isServing = true → l.phase.isServing = true
  gaveUp : ∀ n, l'.state = .permanentlyFailed n → l.state = .permanentlyFailed n
  /-- Only a loop that begins an attempt, with a load, shows the attempt's number. -/
  attempt : l'.state = .dialing (l.failures + 1) ∧ l.phase = .opening ∨
    l'.loads = l.loads ∧ ∀ k, l'.state = .dialing k → l.state = .dialing k

/-- A change that leaves the counter alone and shows no attempt. -/
theorem Unmarked.of_same (hpolicy : l'.policy = l.policy) (hfailures : l'.failures = l.failures)
    (hloads : l'.loads = l.loads) (hpublishing : l'.phase = .publishing ↔ l.phase = .publishing)
    (hover : l.phase.isOver = true → l'.phase.isOver = true)
    (hserving : l'.phase.isServing = true → l.phase.isServing = true)
    (hstate : l'.state = l.state ∨ l'.state = .connected ∨ l'.state = endState l.state ∨
      l'.state = .closed) : l.Unmarked l' where
  policy_eq := hpolicy
  failures_eq h := ⟨fun hwas => h (hpublishing.2 hwas), hfailures⟩
  publishing h := Or.inr ⟨hpublishing.1 h, hfailures⟩
  isOver := hover
  isServing := hserving
  gaveUp n h := by
    rcases hstate with hsame | hconnected | hend | hclosed
    · rwa [hsame] at h
    · rw [hconnected] at h; cases h
    · rw [hend] at h
      cases hs : l.state <;> rw [hs] at h <;> cases h
      rfl
    · rw [hclosed] at h; cases h
  attempt := by
    refine Or.inr ⟨hloads, fun k h => ?_⟩
    rcases hstate with hsame | hconnected | hend | hclosed
    · rwa [hsame] at h
    · rw [hconnected] at h; cases h
    · rw [hend] at h
      cases hs : l.state <;> rw [hs] at h <;> cases h
    · rw [hclosed] at h; cases h

/-- An event that counts nothing leaves the counter alone, but for a dial that made a client. -/
theorem Turn.unmarked (turn : l.Turn now e l') (hmark : l.mark? e = none) : l.Unmarked l' := by
  have hkept : l.fails e = false := by
    unfold mark? at hmark
    split at hmark
    · cases hmark
    · exact Bool.eq_false_iff.2 ‹_›
  cases turn with
  | idle | invalidate | cancel | withdraw =>
    exact .of_same rfl rfl rfl Iff.rfl id id (Or.inl rfl)
  | showClosed | close =>
    exact .of_same rfl rfl rfl Iff.rfl id id (Or.inr (Or.inr (Or.inr rfl)))
  | start was | load was | wait _ _ was | dial _ was | rest _ was | redial was =>
    exact .of_same rfl rfl rfl (by simp [was]) (by simp [was, DialPhase.isOver])
      (by simp [DialPhase.isServing]) (Or.inl rfl)
  | quit was | turnAway _ was | windUp was | stop was | drop was =>
    exact .of_same rfl rfl rfl (by simp [was]) (fun _ => rfl) (by simp [DialPhase.isServing])
      (Or.inl rfl)
  | leave was =>
    refine .of_same rfl rfl rfl ?_ (fun _ => rfl) (by simp [DialPhase.isServing]) (Or.inl rfl)
    rcases was with ⟨_, was⟩ | was | ⟨_, was⟩ <;> simp [was]
  | announce was =>
    exact .of_same rfl rfl rfl (by simp [was]) (by simp [was, DialPhase.isOver])
      (fun _ => by rw [was]; rfl) (Or.inr (Or.inl rfl))
  | finish was =>
    exact .of_same rfl rfl rfl (by simp [was]) (fun _ => rfl) (by simp [DialPhase.isServing])
      (Or.inr (Or.inr (Or.inl rfl)))
  | attempt was =>
    exact {
      policy_eq := rfl
      failures_eq := fun _ => ⟨by simp [was], rfl⟩
      publishing := fun h => DialPhase.noConfusion h
      isOver := by simp [was, DialPhase.isOver]
      isServing := by simp [DialPhase.isServing]
      gaveUp := fun _ h => RpcState.noConfusion h
      attempt := Or.inl ⟨rfl, was⟩ }
  | succeed due was =>
    exact {
      policy_eq := rfl
      failures_eq := fun h => absurd rfl h
      publishing := fun _ => Or.inl rfl
      isOver := by simp [was, DialPhase.isOver]
      isServing := by simp [DialPhase.isServing]
      gaveUp := fun _ h => h
      attempt := Or.inr ⟨rfl, fun _ h => h⟩ }
  -- What counts is a failure or a client that is published.
  | backOff e was isLeft failed | giveUp e was most ceiling reached failed =>
    exact absurd (hkept.symm.trans failed) Bool.noConfusion
  | publish was => simp [mark?, fails, was] at hmark

/-- Every event counts a failure, or publishes a client, or counts nothing. -/
theorem mark?_cases (l : DialLoop) (now : Nat) (e : DialEvent) :
    (l.mark? e = some .failed ∧ l.fails e = true ∧ l.on now e = l.fail now) ∨
      (l.mark? e = some .published ∧ l.phase = .publishing ∧
        l.on now e = { l with phase := .announcing, client := some l.dials }) ∨
      (l.mark? e = none ∧ l.fails e = false ∧ l.Unmarked (l.on now e)) := by
  cases hfails : l.fails e with
  | true =>
    refine Or.inl ⟨?_, rfl, (on_of_fails hfails now).2⟩
    unfold mark?
    rw [if_pos hfails]
  | false =>
    cases hmark : l.mark? e with
    | none => exact Or.inr (Or.inr ⟨rfl, rfl, (l.on_turn now e).unmarked hmark⟩)
    | some mark =>
      unfold mark? at hmark
      rw [hfails, if_neg Bool.false_ne_true] at hmark
      split at hmark
      · next hp =>
        cases hmark
        exact Or.inr (Or.inl ⟨rfl, hp, by simp only [on, proceed, hp]⟩)
      · cases hmark

/-- A loop with failures left gives up at the last one that its ceiling allows, and not before. -/
theorem fail_of_isLeft (isLeft : ∀ most, l.policy.allowed? = some most → l.failures < most)
    (now : Nat) :
    l.policy.allowed? = some (l.failures + 1) ∧
        l.fail now =
          { l with
            phase := .leaving
            failures := l.failures + 1
            state := .permanentlyFailed (l.failures + 1) } ∨
      (∀ most, l.policy.allowed? = some most → l.failures + 1 < most) ∧
        l.fail now =
          { l with
            phase := .backingOff (now + l.policy.retryDelay)
            failures := l.failures + 1 } := by
  simp only [RetryPolicy.allowed?, Option.map_eq_some_iff, forall_exists_index, and_imp] at isLeft ⊢
  rcases l.fail_outcome now with ⟨hmore, hfail⟩ | ⟨most, ceiling, reached, hfail⟩
  · refine Or.inr ⟨fun _ most ceiling hallowed => ?_, hfail⟩
    have := hmore most ceiling
    omega
  · refine Or.inl ⟨⟨most, ceiling, ?_⟩, hfail⟩
    have := isLeft _ most ceiling rfl
    omega

/-! ### A loop that is over -/

/-- A loop whose attempts are over goes on to its end, and shows nothing else unless somebody closes
it. -/
theorem Turn.over (turn : l.Turn now e l') (hover : l.phase.isOver = true) :
    l'.phase.isOver = true ∧ l'.loads = l.loads ∧ l'.dials = l.dials ∧
      (l'.state = l.state ∨ l'.state = endState l.state ∨ l'.state = .closed ∧ e.closes = true) := by
  cases turn with
  | idle | invalidate | cancel | withdraw => exact ⟨hover, rfl, rfl, Or.inl rfl⟩
  | windUp | stop | drop => exact ⟨rfl, rfl, rfl, Or.inl rfl⟩
  | finish => exact ⟨rfl, rfl, rfl, Or.inr (Or.inl rfl)⟩
  | showClosed | close => exact ⟨hover, rfl, rfl, Or.inr (Or.inr ⟨rfl, rfl⟩)⟩
  -- Everything else happens before the loop is over.
  | backOff _ was | giveUp _ was =>
    rcases was with was | ⟨_, was⟩ <;> rw [was] at hover <;> cases hover
  | leave was => rcases was with ⟨_, was⟩ | was | ⟨_, was⟩ <;> rw [was] at hover <;> cases hover
  | start was | quit was | attempt was | load was | wait _ _ was | dial _ was | turnAway _ was
  | succeed _ was | publish was | announce was | redial was | rest _ was =>
    rw [was] at hover
    cases hover

/-- A loop that gave up never loads or dials again, and says so until somebody closes it. -/
theorem run_of_gaveUp {n : Nat} (hover : l.phase.isOver = true)
    (hgaveUp : l.state = .permanentlyFailed n) (events : List (Nat × DialEvent)) :
    (l.run events).phase.isOver = true ∧ (l.run events).loads = l.loads ∧
      (l.run events).dials = l.dials ∧
      ((l.run events).state = .permanentlyFailed n ∨
        (l.run events).state = .closed ∧ ∃ e ∈ events, e.2.closes = true) := by
  induction events using List.reverseRecOn with
  | nil => exact ⟨hover, rfl, rfl, Or.inl hgaveUp⟩
  | append_singleton events e ih =>
    obtain ⟨hstill, hloads, hdials, hstate⟩ := ih
    obtain ⟨hnext, hnoLoad, hnoDial, hshown⟩ := (on_turn _ e.1 e.2).over hstill
    rw [run_concat]
    refine ⟨hnext, hnoLoad.trans hloads, hnoDial.trans hdials, ?_⟩
    rcases hstate with hsame | ⟨hclosed, earlier, hmem, hcloses⟩
    · rcases hshown with hshown | hshown | ⟨hshown, hcloses⟩
      · exact Or.inl (hshown.trans hsame)
      · exact Or.inl (by rw [hshown, hsame]; rfl)
      · exact Or.inr ⟨hshown, e, List.mem_append_right _ (List.mem_singleton.2 rfl), hcloses⟩
    · refine Or.inr ⟨?_, earlier, List.mem_append_left _ hmem, hcloses⟩
      rcases hshown with hshown | hshown | ⟨hshown, -⟩
      · exact hshown.trans hclosed
      · rw [hshown, hclosed]; rfl
      · exact hshown

end DialLoop

/-! ### The tally -/

/-- A loop with a tally of its failures and clients. -/
structure TalliedLoop where
  loop : DialLoop
  marks : List Mark := []

namespace TalliedLoop

def start (policy : RetryPolicy) : TalliedLoop where
  loop := { policy }

def on (t : TalliedLoop) (now : Nat) (event : DialEvent) : TalliedLoop where
  loop := t.loop.on now event
  marks := t.marks ++ (t.loop.mark? event).toList

/-- What happens at some times, in order. -/
def run (t : TalliedLoop) (events : List (Nat × DialEvent)) : TalliedLoop :=
  events.foldl (fun t e => t.on e.1 e.2) t

theorem run_concat (t : TalliedLoop) (events : List (Nat × DialEvent)) (e : Nat × DialEvent) :
    t.run (events ++ [e]) = (t.run events).on e.1 e.2 := by
  simp only [run, List.foldl_append, List.foldl_cons, List.foldl_nil]

theorem loop_run (t : TalliedLoop) (events : List (Nat × DialEvent)) :
    (t.run events).loop = t.loop.run events := by
  induction events using List.reverseRecOn with
  | nil => rfl
  | append_singleton events e ih => rw [run_concat, DialLoop.run_concat, on, ih]

variable {policy : RetryPolicy} {t : TalliedLoop}

/-- What holds of a loop and its tally at every moment. -/
structure Sound (policy : RetryPolicy) (t : TalliedLoop) : Prop where
  policy_eq : t.loop.policy = policy
  /-- The loop's counter is the tally's, but for a client that is not published yet. -/
  failures_eq : t.loop.phase ≠ .publishing → t.loop.failures = failuresInARow t.marks
  publishing : t.loop.phase = .publishing → t.loop.failures = 0
  atMost : ∀ most, policy.allowed? = some most → failuresInARow t.marks ≤ most
  isLeft : t.loop.phase.isOver = false →
    ∀ most, policy.allowed? = some most → failuresInARow t.marks < most
  serving : t.loop.phase.isServing = true → failuresInARow t.marks = 0
  gaveUp : ∀ n, t.loop.state = .permanentlyFailed n →
    t.loop.phase.isOver = true ∧ policy.allowed? = some n ∧ failuresInARow t.marks = n

theorem start_sound (policy : RetryPolicy) : (start policy).Sound policy where
  policy_eq := rfl
  failures_eq _ := rfl
  publishing h := by cases h
  atMost _ _ := Nat.zero_le _
  isLeft _ most hallowed := by
    obtain ⟨ceiling, -, rfl⟩ := Option.map_eq_some_iff.1 hallowed
    exact Nat.lt_of_lt_of_le Nat.zero_lt_one (Nat.le_max_right ceiling 1)
  serving h := by cases h
  gaveUp _ h := by cases h

/-- An attempt that fails: the loop's counter is the tally's, and failures are left. -/
theorem Sound.attempting (h : t.Sound policy) {e : DialEvent} (hfails : t.loop.fails e = true) :
    t.loop.failures = failuresInARow t.marks ∧
      ∀ most, t.loop.policy.allowed? = some most → t.loop.failures < most := by
  have hnot : t.loop.phase ≠ .publishing ∧ t.loop.phase.isOver = false := by
    rcases (DialLoop.on_of_fails hfails 0).1 with was | ⟨due, was⟩ <;> rw [was] <;>
      exact ⟨DialPhase.noConfusion, rfl⟩
  have hcount := h.failures_eq hnot.1
  rw [h.policy_eq, hcount]
  exact ⟨rfl, h.isLeft hnot.2⟩

theorem Sound.failed (h : t.Sound policy) {e : DialEvent} (hfails : t.loop.fails e = true)
    (now : Nat) : Sound policy ⟨t.loop.fail now, t.marks ++ [.failed]⟩ := by
  obtain ⟨hcount, hleft⟩ := h.attempting hfails
  have hnext := failuresInARow_failed t.marks
  rw [← hcount] at hnext
  have hisLeft := hleft
  rw [h.policy_eq] at hisLeft
  rcases t.loop.fail_of_isLeft hleft now with ⟨hlast, hfail⟩ | ⟨hmore, hfail⟩
  · rw [h.policy_eq] at hlast
    rw [hfail]
    exact {
      policy_eq := h.policy_eq
      failures_eq := fun _ => hnext.symm
      publishing := fun hp => DialPhase.noConfusion hp
      atMost := fun most hmost => by rw [hnext]; exact hisLeft most hmost
      isLeft := fun hp => Bool.noConfusion hp
      serving := fun hp => Bool.noConfusion hp
      gaveUp := fun n hn => by
        cases hn
        exact ⟨rfl, hlast, hnext⟩ }
  · rw [h.policy_eq] at hmore
    rw [hfail]
    refine {
      policy_eq := h.policy_eq
      failures_eq := fun _ => hnext.symm
      publishing := fun hp => DialPhase.noConfusion hp
      atMost := fun most hmost => by rw [hnext]; exact hisLeft most hmost
      isLeft := fun _ most hmost => by rw [hnext]; exact hmore most hmost
      serving := fun hp => Bool.noConfusion hp
      gaveUp := fun n hn => ?_ }
    -- A loop that shows that it gave up is over, so nothing fails any more.
    have hover := (h.gaveUp n hn).1
    rcases (DialLoop.on_of_fails hfails now).1 with was | ⟨due, was⟩ <;> rw [was] at hover <;>
      cases hover

theorem Sound.published (h : t.Sound policy) (was : t.loop.phase = .publishing) (id : Nat) :
    Sound policy ⟨{ t.loop with phase := .announcing, client := some id },
      t.marks ++ [.published]⟩ := by
  have hnone := failuresInARow_published t.marks
  refine {
    policy_eq := h.policy_eq
    failures_eq := fun _ => (h.publishing was).trans hnone.symm
    publishing := fun hp => DialPhase.noConfusion hp
    atMost := fun most _ => by rw [hnone]; exact Nat.zero_le most
    isLeft := fun _ most hmost => ?_
    serving := fun _ => hnone
    gaveUp := fun n hn => ?_ }
  · rw [hnone]
    exact Nat.lt_of_le_of_lt (Nat.zero_le _) (h.isLeft (by rw [was]; rfl) most hmost)
  · have hover := (h.gaveUp n hn).1
    rw [was] at hover
    cases hover

theorem Sound.unmarked (h : t.Sound policy) {l : DialLoop} (hsame : t.loop.Unmarked l) :
    Sound policy ⟨l, t.marks⟩ where
  policy_eq := hsame.policy_eq.trans h.policy_eq
  failures_eq hp := by
    obtain ⟨hnot, hfailures⟩ := hsame.failures_eq hp
    exact hfailures.trans (h.failures_eq hnot)
  publishing hp := by
    rcases hsame.publishing hp with hzero | ⟨was, hfailures⟩
    · exact hzero
    · exact hfailures.trans (h.publishing was)
  atMost := h.atMost
  isLeft hp := by
    apply h.isLeft
    rw [← Bool.not_eq_true] at hp ⊢
    exact fun hover => hp (hsame.isOver hover)
  serving hp := h.serving (hsame.isServing hp)
  gaveUp n hn := by
    obtain ⟨hover, hallowed, hcount⟩ := h.gaveUp n (hsame.gaveUp n hn)
    exact ⟨hsame.isOver hover, hallowed, hcount⟩

theorem Sound.on (h : t.Sound policy) (now : Nat) (e : DialEvent) :
    (t.on now e).Sound policy := by
  rcases t.loop.mark?_cases now e with ⟨hmark, hfails, hon⟩ | ⟨hmark, was, hon⟩ | ⟨hmark, -, hsame⟩
  · rw [TalliedLoop.on, hmark, hon]
    exact h.failed hfails now
  · rw [TalliedLoop.on, hmark, hon]
    exact h.published was _
  · rw [TalliedLoop.on, hmark, Option.toList_none, List.append_nil]
    exact h.unmarked hsame

theorem run_sound (policy : RetryPolicy) (events : List (Nat × DialEvent)) :
    ((start policy).run events).Sound policy := by
  induction events using List.reverseRecOn with
  | nil => exact start_sound policy
  | append_singleton events e ih =>
    rw [run_concat]
    exact ih.on e.1 e.2

/-- A loop tries as often as its policy allows. -/
structure KeepsCeiling (policy : RetryPolicy) (t : TalliedLoop) : Prop where
  /-- When an attempt comes to be shown, all the attempts that its number leaves out have failed in a
  row. -/
  shows : ∀ now e k, (t.on now e).loop.state = .dialing k → t.loop.state ≠ .dialing k →
    k = failuresInARow (t.on now e).marks + 1
  /-- A load begins an attempt that is shown. -/
  loads : ∀ now e, (t.on now e).loop.loads ≠ t.loop.loads →
    (t.on now e).loop.state = .dialing (failuresInARow (t.on now e).marks + 1)
  /-- The last failure in a row that is allowed makes the loop give up. -/
  gives_up : ∀ now e, t.loop.fails e = true →
    policy.allowed? = some (failuresInARow (t.on now e).marks) →
      (t.on now e).loop.state = .permanentlyFailed (failuresInARow (t.on now e).marks) ∧
        (t.on now e).loop.phase = .leaving
  /-- Any other failure is followed by the delay. -/
  goes_on : ∀ now e, t.loop.fails e = true →
    policy.allowed? ≠ some (failuresInARow (t.on now e).marks) →
      (t.on now e).loop.state = t.loop.state ∧
        (t.on now e).loop.phase = .backingOff (now + policy.retryDelay)
  atMost : ∀ most, policy.allowed? = some most → failuresInARow t.marks ≤ most
  /-- The loop does not give up otherwise, and never without a ceiling. -/
  gaveUp : ∀ n, t.loop.state = .permanentlyFailed n →
    policy.allowed? = some n ∧ failuresInARow t.marks = n
  /-- No failure counts any more against a loop that serves its client, so that it may fail again as
  often as at the start once the client is invalidated. -/
  serving : t.loop.phase.isServing = true → failuresInARow t.marks = 0
  /-- A loop that gave up never loads or dials again, and says so until somebody closes it. -/
  is_final : ∀ n, t.loop.state = .permanentlyFailed n → ∀ later,
    (t.run later).loop.loads = t.loop.loads ∧ (t.run later).loop.dials = t.loop.dials ∧
      ((t.run later).loop.state = .permanentlyFailed n ∨
        (t.run later).loop.state = .closed ∧ ∃ e ∈ later, e.2.closes = true)

/-- An attempt that fails: it is the last one just at the ceiling. -/
theorem Sound.failing (h : t.Sound policy) {e : DialEvent} (hfails : t.loop.fails e = true)
    (now : Nat) :
    policy.allowed? = some (failuresInARow (t.on now e).marks) ∧
        (t.on now e).loop.state = .permanentlyFailed (failuresInARow (t.on now e).marks) ∧
        (t.on now e).loop.phase = .leaving ∨
      policy.allowed? ≠ some (failuresInARow (t.on now e).marks) ∧
        (t.on now e).loop.state = t.loop.state ∧
        (t.on now e).loop.phase = .backingOff (now + policy.retryDelay) := by
  obtain ⟨hcount, hleft⟩ := h.attempting hfails
  have hmark : t.loop.mark? e = some .failed := if_pos hfails
  have hnext : failuresInARow (t.on now e).marks = t.loop.failures + 1 := by
    rw [TalliedLoop.on, hmark, hcount]
    exact failuresInARow_failed t.marks
  rw [hnext, TalliedLoop.on, (DialLoop.on_of_fails hfails now).2, ← h.policy_eq]
  rcases t.loop.fail_of_isLeft hleft now with ⟨hlast, hfail⟩ | ⟨hmore, hfail⟩
  · rw [hfail]
    exact Or.inl ⟨hlast, rfl, rfl⟩
  · rw [hfail]
    exact Or.inr ⟨fun hlast => Nat.lt_irrefl _ (hmore _ hlast), rfl, rfl⟩

/-- What comes to be shown with an attempt, and with a load. -/
theorem Sound.shown (h : t.Sound policy) (now : Nat) (e : DialEvent) :
    (t.on now e).loop.state = .dialing (failuresInARow (t.on now e).marks + 1) ∨
      (t.on now e).loop.loads = t.loop.loads ∧
        ∀ k, (t.on now e).loop.state = .dialing k → t.loop.state = .dialing k := by
  rcases t.loop.mark?_cases now e with ⟨-, hfails, hon⟩ | ⟨-, was, hon⟩ | ⟨hmark, -, hsame⟩
  · right
    rw [TalliedLoop.on, hon]
    rcases t.loop.fail_outcome now with ⟨-, hfail⟩ | ⟨most, -, -, hfail⟩ <;> rw [hfail]
    · exact ⟨rfl, fun _ hk => hk⟩
    · exact ⟨rfl, fun _ hk => RpcState.noConfusion hk⟩
  · rw [TalliedLoop.on, hon]
    exact Or.inr ⟨rfl, fun _ hk => hk⟩
  · rw [TalliedLoop.on, hmark, Option.toList_none, List.append_nil]
    rcases hsame.attempt with ⟨hstate, was⟩ | hquiet
    · rw [hstate, h.failures_eq (by rw [was]; exact DialPhase.noConfusion)]
      exact Or.inl rfl
    · exact Or.inr hquiet

/-- Whatever happens to a loop, it tries as often as its policy allows. -/
theorem run_keepsCeiling (policy : RetryPolicy) (events : List (Nat × DialEvent)) :
    KeepsCeiling policy ((start policy).run events) := by
  have h := run_sound policy events
  generalize (start policy).run events = t at h
  refine {
    shows := fun now e k hk hnot => ?_
    loads := fun now e hload => ?_
    gives_up := fun now e hfails hlast => ?_
    goes_on := fun now e hfails hmore => ?_
    atMost := h.atMost
    gaveUp := fun n hn => (h.gaveUp n hn).2
    serving := h.serving
    is_final := fun n hn later => ?_ }
  · rcases h.shown now e with hstate | ⟨-, hsame⟩
    · exact RpcState.dialing.inj (hk.symm.trans hstate)
    · exact absurd (hsame k hk) hnot
  · rcases h.shown now e with hstate | ⟨hsame, -⟩
    · exact hstate
    · exact absurd hsame hload
  · rcases h.failing hfails now with ⟨-, hgaveUp⟩ | ⟨hmore, -⟩
    · exact hgaveUp
    · exact absurd hlast hmore
  · rcases h.failing hfails now with ⟨hlast, -⟩ | ⟨-, hgoesOn⟩
    · exact absurd hlast hmore
    · exact hgoesOn
  · rw [loop_run]
    exact (DialLoop.run_of_gaveUp (h.gaveUp n hn).1 hn later).2

end TalliedLoop

end FleetWatch
