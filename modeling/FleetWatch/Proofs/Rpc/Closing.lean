import FleetWatch.Proofs.Rpc.Turn
import Mathlib.Data.List.Induction
/-!
Closing a dial loop.

Whoever closes a loop cancels it, withdraws its client and shows that it is closed, and other things
may happen in between.  That lasts if no attempt was in flight when the loop was cancelled.  An
attempt in flight does not ask whether the loop is cancelled before it shows what came of it, so it
may still show itself dialing, publish a client or give up for good.  Once the loop is over, its
client is gone either way.
-/

namespace FleetWatch

/-- An attempt is on its way from the loop's last look at its cancellation to what comes of it. -/
def DialPhase.isInFlight : DialPhase → Bool
  | .opening | .loading | .waiting _ | .dialing _ | .publishing | .announcing => true
  | _ => false

namespace DialLoop

variable {l : DialLoop}

/-- What happens at some times, in order. -/
def run (l : DialLoop) (events : List (Nat × DialEvent)) : DialLoop :=
  events.foldl (fun l e => l.on e.1 e.2) l

theorem run_append (l : DialLoop) (first rest : List (Nat × DialEvent)) :
    l.run (first ++ rest) = (l.run first).run rest :=
  List.foldl_append

theorem run_concat (l : DialLoop) (events : List (Nat × DialEvent)) (e : Nat × DialEvent) :
    l.run (events ++ [e]) = (l.run events).on e.1 e.2 :=
  l.run_append events [e]

/-- A cancelled loop without an attempt in flight. -/
structure Winding (l : DialLoop) : Prop where
  isCancelled : l.isCancelled = true
  quiet : l.phase.isInFlight = false

/-- A change of a loop that winds up: no client is published and nothing is shown but the end. -/
structure WindsTo (l l' : DialLoop) : Prop where
  winding : l'.Winding
  client : l'.client = l.client ∨ l'.client = none
  state : l'.state = l.state ∨ l'.state = endState l.state ∨ l'.state = .closed

theorem Winding.idle (h : l.Winding) : l.WindsTo l :=
  ⟨h, Or.inl rfl, Or.inl rfl⟩

theorem Winding.moveTo (h : l.Winding) {p : DialPhase} (hp : p.isInFlight = false) :
    l.WindsTo { l with phase := p } :=
  ⟨⟨h.isCancelled, hp⟩, Or.inl rfl, Or.inl rfl⟩

/-- Whatever happens to a loop that winds up, it goes on winding up. -/
theorem Winding.turn (h : l.Winding) {now : Nat} {e : DialEvent} {l' : DialLoop}
    (turn : l.Turn now e l') : l.WindsTo l' := by
  have hquiet := h.quiet
  cases turn with
  | idle => exact h.idle
  | start was kept | stop was kept =>
    exact absurd (h.isCancelled.symm.trans kept) Bool.false_ne_true.symm
  | quit | rest | leave | windUp => exact h.moveTo rfl
  | redial was stored => exact ⟨⟨h.isCancelled, rfl⟩, Or.inl rfl, Or.inl rfl⟩
  | drop was => exact ⟨⟨h.isCancelled, rfl⟩, Or.inr rfl, Or.inl rfl⟩
  | finish was => exact ⟨⟨h.isCancelled, rfl⟩, Or.inl rfl, Or.inr (Or.inl rfl)⟩
  | invalidate id had => exact ⟨⟨h.isCancelled, hquiet⟩, Or.inr rfl, Or.inl rfl⟩
  | cancel => exact ⟨⟨rfl, hquiet⟩, Or.inl rfl, Or.inl rfl⟩
  | withdraw => exact ⟨⟨h.isCancelled, hquiet⟩, Or.inr rfl, Or.inl rfl⟩
  | showClosed => exact ⟨⟨h.isCancelled, hquiet⟩, Or.inl rfl, Or.inr (Or.inr rfl)⟩
  | close => exact ⟨⟨rfl, hquiet⟩, Or.inr rfl, Or.inr (Or.inr rfl)⟩
  -- Everything else happens only to an attempt in flight.
  | backOff _ was | giveUp _ was =>
    rcases was with was | ⟨due, was⟩ <;> rw [was] at hquiet <;> cases hquiet
  | attempt was | load was | publish was | announce was | dial _ was | turnAway _ was
  | succeed _ was | wait _ _ was =>
    rw [was] at hquiet
    cases hquiet

theorem Winding.on (h : l.Winding) (now : Nat) (e : DialEvent) : l.WindsTo (l.on now e) :=
  h.turn (l.on_turn now e)

/-- Whatever happens to a loop that winds up in the course of a run, a client that is gone stays
gone, and a loop that is shown closed stays so. -/
theorem Winding.run (h : l.Winding) (events : List (Nat × DialEvent)) :
    (l.run events).Winding ∧ (l.client = none → (l.run events).client = none) ∧
      (l.state = .closed → (l.run events).state = .closed) := by
  induction events using List.reverseRecOn with
  | nil => exact ⟨h, id, id⟩
  | append_singleton events e ih =>
    obtain ⟨hwinding, hclient, hstate⟩ := ih
    have hnext := hwinding.on e.1 e.2
    rw [run_concat]
    refine ⟨hnext.winding, ?_, ?_⟩
    · intro hnone
      rcases hnext.client with hsame | hgone
      · exact hsame.trans (hclient hnone)
      · exact hgone
    · intro hclosed
      rcases hnext.state with hsame | hend | hshown
      · exact hsame.trans (hstate hclosed)
      · rw [hend, hstate hclosed]
        rfl
      · exact hshown

/-- How a loop is closed: it is cancelled, its client is withdrawn and it is shown closed, with other
things in between and after. -/
structure Closing where
  cancelAt : Nat := 0
  beforeWithdraw : List (Nat × DialEvent) := []
  withdrawAt : Nat := 0
  beforeShown : List (Nat × DialEvent) := []
  shownAt : Nat := 0
  after : List (Nat × DialEvent) := []

def close (l : DialLoop) (c : Closing) : DialLoop :=
  let cancelled := (l.on c.cancelAt .cancel).run c.beforeWithdraw
  let withdrawn := (cancelled.on c.withdrawAt .withdraw).run c.beforeShown
  (withdrawn.on c.shownAt .showClosed).run c.after

/-- A loop that shows that it is closed, and has no client for anybody. -/
def IsClosed (l : DialLoop) : Prop :=
  l.state = .closed ∧ l.current = .error .closed

theorem isClosed_iff : l.IsClosed ↔ l.state = .closed ∧ l.client = none := by
  unfold IsClosed current
  constructor
  · rintro ⟨hstate, hcurrent⟩
    refine ⟨hstate, ?_⟩
    rw [hstate] at hcurrent
    cases hclient : l.client with
    | none => rfl
    | some id => rw [hclient] at hcurrent; cases hcurrent
  · rintro ⟨hstate, hclient⟩
    rw [hstate, hclient]
    exact ⟨rfl, rfl⟩

theorem client_withdraw (h : l.isCancelled = true) (now : Nat) :
    (l.on now .withdraw).client = none := by
  simp only [on, withdraw, h, if_true]

theorem state_showClosed (h : l.isCancelled = true) (now : Nat) :
    (l.on now .showClosed).state = .closed := by
  simp only [on, showClosed, h, if_true]

theorem isClosed_close (h : l.phase.isInFlight = false) (c : Closing) : (l.close c).IsClosed := by
  have hcancelled : (l.on c.cancelAt .cancel).Winding := ⟨rfl, h⟩
  obtain ⟨hleft, -, -⟩ := hcancelled.run c.beforeWithdraw
  have hnone := client_withdraw hleft.isCancelled c.withdrawAt
  obtain ⟨hkept, hclient, -⟩ := (hleft.on c.withdrawAt .withdraw).winding.run c.beforeShown
  have hshow := hkept.on c.shownAt .showClosed
  obtain ⟨-, hgone, hclosed⟩ := hshow.winding.run c.after
  rw [isClosed_iff]
  constructor
  · apply hclosed
    exact state_showClosed hkept.isCancelled c.shownAt
  · apply hgone
    rcases hshow.client with hsame | hgone
    · exact hsame.trans (hclient hnone)
    · exact hgone

/-- A cancelled loop whose client was withdrawn: an attempt in flight may still publish one, but not
once the loop is about to show its end. -/
structure Withdrawn (l : DialLoop) : Prop where
  isCancelled : l.isCancelled = true
  gone : l.phase = .closing ∨ l.phase = .ended → l.client = none

theorem Withdrawn.turn (h : l.Withdrawn) {now : Nat} {e : DialEvent} {l' : DialLoop}
    (turn : l.Turn now e l') : l'.Withdrawn := by
  refine ⟨turn.isCancelled h.isCancelled, ?_⟩
  intro hover
  cases turn with
  | idle | cancel | showClosed => exact h.gone hover
  | stop was kept => exact absurd (h.isCancelled.symm.trans kept) Bool.false_ne_true.symm
  | finish was => exact h.gone (Or.inl was)
  | drop | invalidate | withdraw | close => rfl
  | _ => rcases hover with hover | hover <;> cases hover

/-- The loop is over, and says so. -/
def ShowsEnd (l : DialLoop) : Prop :=
  l.phase = .ended → l.state = .closed ∨ ∃ attempts, l.state = .permanentlyFailed attempts

theorem endState_cases (s : RpcState) :
    endState s = .closed ∨ ∃ attempts, endState s = .permanentlyFailed attempts := by
  cases s with
  | permanentlyFailed attempts => exact Or.inr ⟨attempts, rfl⟩
  | _ => exact Or.inl rfl

theorem ShowsEnd.turn (h : l.ShowsEnd) (hcancelled : l.isCancelled = true) {now : Nat}
    {e : DialEvent} {l' : DialLoop} (turn : l.Turn now e l') : l'.ShowsEnd := by
  intro hended
  cases turn with
  | idle | cancel | invalidate | withdraw => exact h hended
  | stop was kept => exact absurd (hcancelled.symm.trans kept) Bool.false_ne_true.symm
  | finish was => exact endState_cases l.state
  | showClosed | close => exact Or.inl rfl
  | _ => cases hended

theorem Withdrawn.run (h : l.Withdrawn) (events : List (Nat × DialEvent)) :
    (l.run events).Withdrawn ∧ (l.ShowsEnd → (l.run events).ShowsEnd) := by
  induction events using List.reverseRecOn with
  | nil => exact ⟨h, id⟩
  | append_singleton events e ih =>
    rw [run_concat]
    exact ⟨ih.1.turn (on_turn _ e.1 e.2),
      fun hshows => (ih.2 hshows).turn ih.1.isCancelled (on_turn _ e.1 e.2)⟩

theorem isCancelled_run (h : l.isCancelled = true) (events : List (Nat × DialEvent)) :
    (l.run events).isCancelled = true := by
  induction events using List.reverseRecOn with
  | nil => exact h
  | append_singleton events e ih =>
    rw [run_concat]
    exact (on_turn _ e.1 e.2).isCancelled ih

/-- Whatever was in flight when a loop was closed, once the loop is over it has no client and shows
that it is closed or gave up. -/
theorem close_over (l : DialLoop) (c : Closing) (hended : (l.close c).phase = .ended) :
    (l.close c).client = none ∧
      ((l.close c).state = .closed ∨ ∃ attempts, (l.close c).state = .permanentlyFailed attempts) := by
  have hcancelled : ((l.on c.cancelAt .cancel).run c.beforeWithdraw).isCancelled = true :=
    isCancelled_run rfl c.beforeWithdraw
  have hwithdrawn :
      (((l.on c.cancelAt .cancel).run c.beforeWithdraw).on c.withdrawAt .withdraw).Withdrawn :=
    ⟨(on_turn _ _ _).isCancelled hcancelled, fun _ => client_withdraw hcancelled c.withdrawAt⟩
  obtain ⟨hkept, -⟩ := hwithdrawn.run c.beforeShown
  have hshown := state_showClosed hkept.isCancelled c.shownAt
  obtain ⟨hlast, hshows⟩ := (hkept.turn (on_turn _ c.shownAt .showClosed)).run c.after
  constructor
  · exact hlast.gone (Or.inr hended)
  · apply hshows _ hended
    intro _
    exact Or.inl hshown

/-- What a loop may do next with an attempt in flight, up to its being connected. -/
def completion : DialPhase → List (Nat × DialEvent)
  | .opening =>
    [(0, .proceed), (0, .loaded (.ok ())), (0, .admitted), (0, .dialed (.ok ())), (0, .proceed),
     (0, .proceed)]
  | .loading =>
    [(0, .loaded (.ok ())), (0, .admitted), (0, .dialed (.ok ())), (0, .proceed), (0, .proceed)]
  | .waiting _ => [(0, .admitted), (0, .dialed (.ok ())), (0, .proceed), (0, .proceed)]
  | .dialing _ => [(0, .dialed (.ok ())), (0, .proceed), (0, .proceed)]
  | .publishing => [(0, .proceed), (0, .proceed)]
  | .announcing => [(0, .proceed)]
  | _ => []

theorem state_run_completion (h : l.phase.isInFlight = true) :
    (l.run (completion l.phase)).state = .connected := by
  cases hp : l.phase with
  | opening => simp [completion, run, on, proceed, hp]
  | loading => simp [completion, run, on, proceed, hp]
  | waiting w => simp [completion, run, on, proceed, hp]
  | dialing due => simp [completion, run, on, proceed, hp]
  | publishing => simp [completion, run, on, proceed, hp]
  | announcing => simp [completion, run, on, proceed, hp]
  | _ => rw [hp] at h; cases h

/-- A loop stays closed, whatever happens while it is closed and afterwards, just if no attempt was in
flight when it was cancelled. -/
theorem closed_for_good_iff (policy : RetryPolicy) (before : List (Nat × DialEvent)) :
    (∀ c : Closing, ((({ policy } : DialLoop).run before).close c).IsClosed) ↔
      (({ policy } : DialLoop).run before).phase.isInFlight = false := by
  generalize ({ policy } : DialLoop).run before = l
  constructor
  · intro hall
    by_contra hflight
    rw [Bool.not_eq_false] at hflight
    -- Nothing happens while the loop is being closed; the attempt succeeds afterwards.
    have hclosed := (hall { after := completion l.phase }).1
    have hconnected : (l.close { after := completion l.phase }).state = .connected :=
      state_run_completion (l := ((l.on 0 .cancel).on 0 .withdraw).on 0 .showClosed) hflight
    exact absurd (hclosed.symm.trans hconnected) RpcState.noConfusion
  · intro hquiet c
    exact isClosed_close hquiet c

/-- A load that fails for the last time makes a closed loop one that gave up. -/
theorem not_closed_for_good : ¬ ∀ (policy : RetryPolicy) before (c : Closing),
    ((({ policy } : DialLoop).run before).close c).IsClosed := by
  intro hall
  have hclosed := (hall { maxAttempts := some 1 } [(0, .proceed), (0, .proceed)]
    { after := [(0, .loaded (.error (.credentialsUnavailable "tls.cert does not exist yet")))] }).1
  exact absurd hclosed (by decide)

end DialLoop

end FleetWatch
