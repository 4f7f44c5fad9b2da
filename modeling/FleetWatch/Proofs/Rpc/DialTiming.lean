import FleetWatch.Fleet.Run
import FleetWatch.Proofs.Rpc.Turn
import Mathlib.Tactic.Ring
/-!
How long a dial loop takes.

A client works on its own at a container that was seen running.  Its backend fails the first loads,
lets the first dials hang and refuses the next ones.  Main statement: at every moment, whether there
is a client and whether the loop has given up is what the delays and timeouts of its attempts add up
to (`keepsTime`).
-/

namespace FleetWatch

/-- A client with nothing else at work: its container was seen running, and its backend fails the
first attempts. -/
structure LoneClient where
  fleet : Fleet
  handle : Handle
  seen : Snapshot
  isSeen : handle.snapshot = some seen
  isRunning : seen.state.isRunning = true
  policy : RetryPolicy
  retryDelay_pos : 1 ≤ policy.retryDelay
  connectTimeout_pos : 1 ≤ policy.connectTimeout
  failingLoads : Nat
  hangingDials : Nat
  refusedDials : Nat

namespace LoneClient

variable (c : LoneClient)

def dialer : Dialer :=
  .scripted c.failingLoads c.hangingDials c.refusedDials

/-- The fleet at a time, when the client's loop has come to be `l`. -/
def fleetAt (now : Nat) (l : DialLoop) : Fleet :=
  { c.fleet with
    now
    handles := [c.handle]
    clients := [{ handle := 0, it := { dialer := c.dialer, dialLoop := l } }]
    watchers := []
    followers := []
    waits := []
    sessions := []
    eventLoop := none }

/-- The loop is about to start. -/
def start : Fleet :=
  c.fleetAt c.fleet.now { policy := c.policy }

/-- The loop some time after its start. -/
def loopAfter (ms : Nat) : DialLoop :=
  ((c.start.elapse ms).client 0).dialLoop

/-- How many attempts fail before one succeeds. -/
def failures : Nat :=
  c.failingLoads + c.hangingDials + c.refusedDials

/-- How many of the first attempts are dials that hang. -/
def hangingAmong (attempts : Nat) : Nat :=
  min c.hangingDials (attempts - c.failingLoads)

/-! ### Steps -/

def outcomes : DialLoop.Outcomes :=
  c.dialer.outcomes c.fleet.fileAt c.fleet.network

def site (now : Nat) : Site :=
  { now, engine := c.fleet.engine, handle := c.handle }

variable {c : LoneClient} {now deadline : Nat} {l : DialLoop}

/-- A fleet with one client goes on as its client does. -/
theorem step?_fleetAt (now : Nat) (l : DialLoop) :
    (c.fleetAt now l).step? =
      (Client.step? { dialer := c.dialer, dialLoop := l } c.fleet.fileAt c.fleet.network
        (c.site now)).map fun (it, s) =>
          { c.fleetAt now l with
            engine := s.engine
            handles := [s.handle]
            clients := [{ handle := 0, it }] } := by
  have hsite : (c.fleetAt now l).site 0 = c.site now := rfl
  have hclients : (c.fleetAt now l).clients =
      [{ handle := 0, it := { dialer := c.dialer, dialLoop := l } }] := rfl
  have hfiles : (c.fleetAt now l).fileAt = c.fleet.fileAt := rfl
  have hnetwork : (c.fleetAt now l).network = c.fleet.network := rfl
  have hclient : (c.fleetAt now l).stepClient? (fun _ => true) =
      (Client.step? { dialer := c.dialer, dialLoop := l } c.fleet.fileAt c.fleet.network
        (c.site now)).map fun (it, s) =>
          { c.fleetAt now l with
            engine := s.engine
            handles := [s.handle]
            clients := [{ handle := 0, it }] } := by
    rw [Fleet.stepClient?, hclients, Fleet.firstStep?, Fleet.stepAt]
    simp only [hsite, hfiles, hnetwork, if_true]
    cases Client.step? { dialer := c.dialer, dialLoop := l } c.fleet.fileAt c.fleet.network
        (c.site now) with
    | none => rfl
    | some next => rfl
  rw [← hclient]
  cases hstep : (c.fleetAt now l).stepClient? fun _ => true with
  | none => simp only [Fleet.step?, hstep]; rfl
  | some next => simp only [Fleet.step?, hstep]; rfl

/-- A scripted backend asks for no credentials. -/
theorem credentialsAfter_eq (files : Files) (e : DialEvent) :
    Client.credentialsAfter { dialer := c.dialer, dialLoop := l } files e = .none := by
  unfold Client.credentialsAfter
  split
  · rw [dialer, Dialer.load]
    split <;> rfl
  · rfl

theorem step?_of_next {e : DialEvent}
    (hnext : l.next? c.outcomes (c.site now) = some (e, c.site now)) :
    (c.fleetAt now l).step? = some (c.fleetAt now (l.on now e)) := by
  rw [step?_fleetAt, Client.step?]
  change Option.map _ (Option.map _ (l.next? c.outcomes (c.site now))) = _
  rw [hnext, Option.map_some, Option.map_some]
  dsimp only
  rw [credentialsAfter_eq]
  rfl

theorem step?_of_rest (hnext : l.next? c.outcomes (c.site now) = none) :
    (c.fleetAt now l).step? = none := by
  rw [step?_fleetAt, Client.step?]
  change Option.map _ (Option.map _ (l.next? c.outcomes (c.site now))) = _
  rw [hnext]
  rfl

theorem nextWake?_fleetAt (now : Nat) (l : DialLoop) :
    (c.fleetAt now l).nextWake? = l.wake?.filter (now < ·) := by
  have hwakes : (c.fleetAt now l).wakes = l.wake?.toList := by
    cases hwake : l.wake? <;> simp [Fleet.wakes, fleetAt, hwake]
  rw [Fleet.nextWake?, hwakes]
  change (l.wake?.toList.filter (now < ·)).min? = _
  cases l.wake? with
  | none => rfl
  | some due => by_cases hlater : now < due <;> simp [Option.filter, hlater]

/-! ### Runs -/

/-- Up to a deadline, the loop comes from one time and state to another in so many steps. -/
def Leads (c : LoneClient) (deadline cost : Nat) (first last : Nat × DialLoop) : Prop :=
  ∀ fuel, Fleet.runUntil (fuel + cost) deadline (c.fleetAt first.1 first.2) =
    Fleet.runUntil fuel deadline (c.fleetAt last.1 last.2)

/-- Up to a deadline, the loop comes to rest as another one. -/
def Ends (c : LoneClient) (deadline cost : Nat) (first : Nat × DialLoop) (last : DialLoop) : Prop :=
  ∀ fuel, cost ≤ fuel →
    Fleet.runUntil fuel deadline (c.fleetAt first.1 first.2) = c.fleetAt deadline last

theorem Leads.trans {first second third : Nat × DialLoop} {m n : Nat}
    (hm : c.Leads deadline m first second) (hn : c.Leads deadline n second third) :
    c.Leads deadline (m + n) first third := by
  intro fuel
  rw [Nat.add_comm m n, ← Nat.add_assoc, hm, hn]

theorem Leads.ends {first second : Nat × DialLoop} {last : DialLoop} {m n : Nat}
    (hm : c.Leads deadline m first second) (hn : c.Ends deadline n second last) :
    c.Ends deadline (m + n) first last := by
  intro fuel hfuel
  obtain ⟨rest, rfl⟩ := Nat.exists_eq_add_of_le' (Nat.le_trans (Nat.le_add_right m n) hfuel)
  rw [hm, hn]
  omega

theorem Ends.mono {first : Nat × DialLoop} {last : DialLoop} {m n : Nat} (hle : m ≤ n)
    (hm : c.Ends deadline m first last) : c.Ends deadline n first last :=
  fun fuel hfuel => hm fuel (Nat.le_trans hle hfuel)

theorem leads_refl (p : Nat × DialLoop) : c.Leads deadline 0 p p :=
  fun _ => rfl

/-- One thing that the loop does by itself. -/
theorem leads_on {e : DialEvent} (hnext : l.next? c.outcomes (c.site now) = some (e, c.site now)) :
    c.Leads deadline 1 (now, l) (now, l.on now e) := by
  intro fuel
  rw [Fleet.runUntil, step?_of_next hnext]

/-- Waiting for the next moment at which the loop goes on. -/
theorem leads_wait {due : Nat} (hnext : l.next? c.outcomes (c.site now) = none)
    (hwake : l.wake? = some due) (hlater : now < due) (hdue : due ≤ deadline) :
    c.Leads deadline 1 (now, l) (due, l) := by
  intro fuel
  rw [Fleet.runUntil, step?_of_rest hnext]
  dsimp only
  rw [nextWake?_fleetAt, hwake, Option.filter_some, if_pos (decide_eq_true hlater)]
  dsimp only
  rw [if_pos hdue]
  rfl

/-- Nothing more happens up to the deadline. -/
theorem ends_of_rest (hnext : l.next? c.outcomes (c.site now) = none)
    (hwake : ∀ due, l.wake? = some due → deadline < due) : c.Ends deadline 1 (now, l) l := by
  intro fuel hfuel
  obtain ⟨fuel, rfl⟩ := Nat.exists_eq_add_of_le' hfuel
  rw [Fleet.runUntil, step?_of_rest hnext]
  dsimp only
  rw [nextWake?_fleetAt]
  cases hdue : l.wake? with
  | none => rfl
  | some due =>
    rw [Option.filter_some]
    by_cases hlater : now < due
    · rw [if_pos (decide_eq_true hlater)]
      dsimp only
      rw [if_neg (Nat.not_le_of_gt (hwake due hdue))]
      rfl
    · rw [if_neg (by rwa [decide_eq_true_eq])]
      rfl

/-! ### Attempts -/

/-- The loop after some attempts that all failed. -/
def tried (c : LoneClient) (attempts : Nat) (phase : DialPhase) : DialLoop where
  policy := c.policy
  phase := phase
  failures := attempts
  state := match attempts with
    | 0 => .uninitialized
    | attempts + 1 => .dialing (attempts + 1)
  loads := attempts
  dials := attempts - c.failingLoads

/-- The loop in the attempt after some that all failed. -/
def trying (c : LoneClient) (attempts dials : Nat) (phase : DialPhase) : DialLoop where
  policy := c.policy
  phase := phase
  failures := attempts
  state := .dialing (attempts + 1)
  loads := attempts + 1
  dials := dials

/-- How long the attempt after some others takes. -/
def takes (c : LoneClient) (attempts : Nat) : Nat :=
  if c.failingLoads ≤ attempts ∧ attempts < c.failingLoads + c.hangingDials then
    c.policy.connectTimeout
  else 0

/-- When the attempt after some others begins. -/
def begins (c : LoneClient) (attempts : Nat) : Nat :=
  attempts * c.policy.retryDelay + c.policy.connectTimeout * c.hangingAmong attempts

/-- Whether the ceiling lets the loop fail so often and try again. -/
def MayFail (c : LoneClient) (attempts : Nat) : Prop :=
  ∀ most, c.policy.maxAttempts = some most → attempts < most

variable {attempts : Nat}

theorem MayFail.mono {earlier : Nat} (hmay : c.MayFail attempts) (hle : earlier ≤ attempts) :
    c.MayFail earlier :=
  fun most hmost => Nat.lt_of_le_of_lt hle (hmay most hmost)

theorem begins_succ (attempts : Nat) :
    c.begins (attempts + 1) = c.begins attempts + c.takes attempts + c.policy.retryDelay := by
  have hhanging : c.policy.connectTimeout * c.hangingAmong (attempts + 1) =
      c.policy.connectTimeout * c.hangingAmong attempts + c.takes attempts := by
    unfold takes hangingAmong
    split
    · rw [← Nat.mul_succ]
      congr 1
      omega
    · rw [Nat.add_zero]
      congr 1
      omega
  rw [begins, begins, hhanging]
  ring

/-- A load begins an attempt. -/
theorem leads_load (now attempts : Nat) :
    c.Leads deadline 2 (now, c.tried attempts .starting)
      (now, c.trying attempts (attempts - c.failingLoads) .loading) :=
  Leads.trans (leads_on (e := .proceed) rfl) (leads_on (e := .proceed) rfl)

theorem load_eq (number : Nat) :
    c.outcomes.load number =
      if number ≤ c.failingLoads then
        .error (.credentialsUnavailable ("credential load " ++ toString number ++ " failed"))
      else .ok () := by
  change Except.map _ (Dialer.load _ _ (.scripted _ _ _)) = _
  rw [Dialer.load]
  split <;> rfl

theorem dial_eq (number : Nat) :
    c.outcomes.dial number =
      if number ≤ c.hangingDials then none
      else if number ≤ c.hangingDials + c.refusedDials then
        some (.error (.connectFailed "stub://backend"
          ("dial " ++ toString number ++ " refused")))
      else some (.ok ()) :=
  rfl

theorem leads_failedLoad (now dials : Nat) (hfails : attempts < c.failingLoads) :
    c.Leads deadline 1 (now, c.trying attempts dials .loading)
      (now, (c.trying attempts dials .loading).fail now) := by
  have hnext : (c.trying attempts dials .loading).next? c.outcomes (c.site now) =
      some (.loaded (c.outcomes.load (attempts + 1)), c.site now) := rfl
  rw [load_eq, if_pos (Nat.succ_le_of_lt hfails)] at hnext
  exact leads_on hnext

/-- The container is seen running at once, so a load that succeeds is followed by a dial. -/
theorem leads_dial (now dials : Nat) (hloads : c.failingLoads ≤ attempts) :
    c.Leads deadline 2 (now, c.trying attempts dials .loading)
      (now, c.trying attempts (dials + 1) (.dialing (now + c.policy.connectTimeout))) := by
  have hload : (c.trying attempts dials .loading).next? c.outcomes (c.site now) =
      some (.loaded (c.outcomes.load (attempts + 1)), c.site now) := rfl
  rw [load_eq, if_neg (Nat.not_le_of_gt (Nat.lt_succ_of_le hloads))] at hload
  have hadmitted : (c.trying attempts dials (.waiting .fresh)).next? c.outcomes (c.site now) =
      some (.admitted, c.site now) := by
    have hcheck : Waiter.check .running (c.site now) = .ready c.seen := by
      have hseen : (c.site now).handle.snapshot = some c.seen := c.isSeen
      rw [Waiter.check, hseen]
      exact if_pos c.isRunning
    simp only [DialLoop.next?, trying, Waiter.step?, hcheck, Option.map_some]
  exact (leads_on hload).trans (leads_on hadmitted)

theorem next?_hanging (now due : Nat) {dials : Nat} (hhangs : dials ≤ c.hangingDials) :
    (c.trying attempts dials (.dialing due)).next? c.outcomes (c.site now) =
      if due ≤ now then some (.timedOut, c.site now) else none := by
  have hdial : c.outcomes.dial dials = none := by rw [dial_eq, if_pos hhangs]
  simp only [DialLoop.next?, trying, Bool.false_eq_true, if_false, hdial]
  rfl

/-- A dial that hangs fails at the timeout. -/
theorem leads_timeout (now dials : Nat) (hhangs : dials ≤ c.hangingDials)
    (hdue : now + c.policy.connectTimeout ≤ deadline) :
    c.Leads deadline 2 (now, c.trying attempts dials (.dialing (now + c.policy.connectTimeout)))
      (now + c.policy.connectTimeout,
        (c.trying attempts dials .loading).fail (now + c.policy.connectTimeout)) := by
  have hpos := c.connectTimeout_pos
  refine Leads.trans (leads_wait ?_ rfl (by omega) hdue) (leads_on (e := .timedOut) ?_)
  · rw [next?_hanging _ _ hhangs, if_neg (by omega)]
  · rw [next?_hanging _ _ hhangs, if_pos (Nat.le_refl _)]

/-- A dial that does not hang ends at once. -/
theorem next?_dialing (now due : Nat) {dials : Nat} (hanswers : c.hangingDials < dials) :
    (c.trying attempts dials (.dialing due)).next? c.outcomes (c.site now) =
      some (.dialed (if dials ≤ c.hangingDials + c.refusedDials then
        .error (.connectFailed "stub://backend"
          ("dial " ++ toString dials ++ " refused"))
        else .ok ()), c.site now) := by
  have hdial : c.outcomes.dial dials = some (if dials ≤ c.hangingDials + c.refusedDials then
      .error (.connectFailed "stub://backend" ("dial " ++ toString dials ++ " refused"))
      else .ok ()) := by
    rw [dial_eq, if_neg (Nat.not_le_of_gt hanswers)]
    split <;> rfl
  simp only [DialLoop.next?, trying, Bool.false_eq_true, if_false, hdial]

theorem leads_refusedDial (now due dials : Nat) (hanswers : c.hangingDials < dials)
    (hrefused : dials ≤ c.hangingDials + c.refusedDials) :
    c.Leads deadline 1 (now, c.trying attempts dials (.dialing due))
      (now, (c.trying attempts dials .loading).fail now) := by
  apply leads_on (e := .dialed (.error _))
  rw [next?_dialing now due hanswers, if_pos hrefused]

theorem exists_leads_fail (now : Nat) (hfails : attempts < c.failures)
    (hdue : now + c.takes attempts ≤ deadline) :
    ∃ cost ≤ 6, c.Leads deadline cost (now, c.tried attempts .starting)
      (now + c.takes attempts,
        (c.trying attempts (attempts + 1 - c.failingLoads) .loading).fail
          (now + c.takes attempts)) := by
  have hload : c.Leads deadline 2 _ _ := leads_load now attempts
  by_cases hloads : c.failingLoads ≤ attempts
  · have hdial : c.Leads deadline 2 _ _ := leads_dial now (attempts - c.failingLoads) hloads
    rw [← Nat.sub_add_comm hloads] at hdial
    by_cases hhangs : attempts < c.failingLoads + c.hangingDials
    · have htakes : c.takes attempts = c.policy.connectTimeout := if_pos ⟨hloads, hhangs⟩
      rw [htakes] at hdue ⊢
      exact ⟨6, Nat.le_refl 6, (hload.trans hdial).trans (leads_timeout now _ (by omega) hdue)⟩
    · have htakes : c.takes attempts = 0 := if_neg fun h => hhangs h.2
      unfold failures at hfails
      rw [htakes, Nat.add_zero]
      exact ⟨5, by omega,
        (hload.trans hdial).trans (leads_refusedDial now _ _ (by omega) (by omega))⟩
  · have htakes : c.takes attempts = 0 := if_neg fun h => hloads h.1
    have hdials : attempts - c.failingLoads = attempts + 1 - c.failingLoads := by omega
    rw [htakes, Nat.add_zero]
    rw [hdials] at hload
    exact ⟨3, by omega, hload.trans (leads_failedLoad now _ (by omega))⟩

/-- A failure that is not the last one is followed by the delay. -/
theorem fail_trying (hmay : c.MayFail (attempts + 1)) (t : Nat) :
    (c.trying attempts (attempts + 1 - c.failingLoads) .loading).fail t =
      c.tried (attempts + 1) (.backingOff (t + c.policy.retryDelay)) := by
  rcases (c.trying attempts (attempts + 1 - c.failingLoads) .loading).fail_outcome t with
    ⟨-, hfail⟩ | ⟨most, ceiling, reached, -⟩
  · exact hfail
  · exact absurd (hmay most ceiling) (Nat.not_lt_of_ge reached)

/-- The last failure that the ceiling allows makes the loop give up. -/
theorem fail_trying_last (hlast : c.policy.maxAttempts = some (attempts + 1)) (t : Nat) :
    (c.trying attempts (attempts + 1 - c.failingLoads) .loading).fail t =
      { c.tried (attempts + 1) .leaving with state := .permanentlyFailed (attempts + 1) } := by
  rcases (c.trying attempts (attempts + 1 - c.failingLoads) .loading).fail_outcome t with
    ⟨hmore, -⟩ | ⟨most, ceiling, reached, hfail⟩
  · exact absurd (hmore _ hlast) (Nat.lt_irrefl _)
  · exact hfail

theorem next?_backingOff (attempts due t : Nat) :
    (c.tried attempts (.backingOff due)).next? c.outcomes (c.site t) =
      if due ≤ t then some (.rested, c.site t) else none :=
  rfl

/-- One attempt that fails, with the delay after it. -/
theorem exists_leads_next (now : Nat) (hfails : attempts < c.failures)
    (hmay : c.MayFail (attempts + 1))
    (hdue : now + c.takes attempts + c.policy.retryDelay ≤ deadline) :
    ∃ cost ≤ 8, c.Leads deadline cost (now, c.tried attempts .starting)
      (now + c.takes attempts + c.policy.retryDelay, c.tried (attempts + 1) .starting) := by
  have hpos := c.retryDelay_pos
  obtain ⟨cost, hcost, hfail⟩ : ∃ cost ≤ 6, c.Leads deadline cost _ _ :=
    exists_leads_fail now hfails (by omega)
  rw [fail_trying hmay] at hfail
  refine ⟨cost + (1 + 1), by omega, hfail.trans (Leads.trans (leads_wait ?_ rfl (by omega) hdue)
    (leads_on (e := .rested) ?_))⟩
  · rw [next?_backingOff, if_neg (by omega)]
  · rw [next?_backingOff, if_pos (Nat.le_refl _)]

/-- All the attempts that fail, one after the other. -/
theorem exists_leads_begins (now : Nat) (hfails : attempts ≤ c.failures)
    (hmay : c.MayFail attempts) (hdue : now + c.begins attempts ≤ deadline) :
    ∃ cost ≤ 8 * attempts, c.Leads deadline cost (now, c.tried 0 .starting)
      (now + c.begins attempts, c.tried attempts .starting) := by
  induction attempts with
  | zero =>
    refine ⟨0, Nat.le_refl 0, ?_⟩
    have hzero : c.begins 0 = 0 := by simp [begins, hangingAmong]
    rw [hzero]
    exact leads_refl _
  | succ attempts ih =>
    have hbegins := c.begins_succ attempts
    obtain ⟨cost, hcost, hleads⟩ := ih (by omega)
      (hmay.mono (Nat.le_succ attempts)) (by omega)
    obtain ⟨cost', hcost', hnext⟩ : ∃ cost ≤ 8, c.Leads deadline cost _ _ :=
      exists_leads_next (now + c.begins attempts) hfails hmay (by omega)
    refine ⟨cost + cost', by omega, ?_⟩
    rw [hbegins, ← Nat.add_assoc, ← Nat.add_assoc]
    exact hleads.trans hnext

/-! ### How a moment finds the loop -/

/-- An attempt that failed or still hangs leaves no client, and its number is shown. -/
theorem exists_ends_between (now : Nat) (hfails : attempts < c.failures) (hnow : now ≤ deadline)
    (hbefore : deadline < now + c.takes attempts ∨
      c.MayFail (attempts + 1) ∧ deadline < now + c.takes attempts + c.policy.retryDelay) :
    ∃ l : DialLoop, l.client = none ∧ l.state = .dialing (attempts + 1) ∧
      c.Ends deadline 8 (now, c.tried attempts .starting) l := by
  by_cases hhangs : deadline < now + c.takes attempts
  · -- Only a dial that hangs takes any time.
    have htakes : c.takes attempts = c.policy.connectTimeout ∧ c.failingLoads ≤ attempts ∧
        attempts < c.failingLoads + c.hangingDials := by
      unfold takes at hhangs ⊢
      split at hhangs
      · exact ⟨if_pos ‹_›, ‹_›⟩
      · omega
    obtain ⟨htimeout, hloads, hmore⟩ := htakes
    have hload : c.Leads deadline 2 _ _ := leads_load now attempts
    have hdial : c.Leads deadline 2 _ _ := leads_dial now (attempts - c.failingLoads) hloads
    have hpos := c.connectTimeout_pos
    refine ⟨_, ?_, ?_,
      ((hload.trans hdial).ends (ends_of_rest ?_ fun due hdue => ?_)).mono (by omega)⟩
    · rfl
    · rfl
    · rw [next?_hanging now _ (by omega), if_neg (by omega)]
    · cases hdue
      omega
  · obtain ⟨hmay, hlater⟩ := hbefore.resolve_left hhangs
    obtain ⟨cost, hcost, hfail⟩ : ∃ cost ≤ 6, c.Leads deadline cost _ _ :=
      exists_leads_fail now hfails (Nat.not_lt.1 hhangs)
    rw [fail_trying hmay] at hfail
    have hpos := c.retryDelay_pos
    refine ⟨_, ?_, ?_, (hfail.ends (ends_of_rest ?_ fun due hdue => ?_)).mono (by omega)⟩
    · rfl
    · rfl
    · rw [next?_backingOff, if_neg (by omega)]
    · cases hdue
      exact hlater

/-- The first attempt that does not fail publishes a client. -/
theorem ends_published (now : Nat) :
    c.Ends deadline 8 (now, c.tried c.failures .starting)
      { policy := c.policy
        phase := .connected
        state := .connected
        client := some (c.hangingDials + c.refusedDials + 1)
        loads := c.failures + 1
        dials := c.hangingDials + c.refusedDials + 1 } := by
  have hsub : c.failures - c.failingLoads = c.hangingDials + c.refusedDials := by
    unfold failures
    omega
  have hload : c.Leads deadline 2 _ _ := leads_load now c.failures
  rw [hsub] at hload
  have hdial : c.Leads deadline 2 (now, c.trying c.failures _ .loading) _ :=
    leads_dial now (c.hangingDials + c.refusedDials) (by unfold failures; omega)
  have hnext : (c.trying c.failures (c.hangingDials + c.refusedDials + 1)
      (.dialing (now + c.policy.connectTimeout))).next? c.outcomes (c.site now) =
        some (.dialed (.ok ()), c.site now) := by
    rw [next?_dialing _ _ (by omega), if_neg (by omega)]
  have hdialed : c.Leads deadline 1 _ _ := leads_on hnext
  have hpublished : c.Leads deadline 3 _ _ :=
    (hdialed.trans (leads_on (e := .proceed) rfl)).trans (leads_on (e := .proceed) rfl)
  exact ((hload.trans hdial).trans hpublished).ends (ends_of_rest rfl fun due hdue => by cases hdue)

/-- The last attempt that the ceiling allows is the loop's end. -/
theorem ends_gaveUp (now : Nat) (hfails : attempts < c.failures)
    (hlast : c.policy.maxAttempts = some (attempts + 1)) (hdue : now + c.takes attempts ≤ deadline) :
    c.Ends deadline 8 (now, c.tried attempts .starting)
      { c.tried (attempts + 1) .ended with state := .permanentlyFailed (attempts + 1) } := by
  obtain ⟨cost, hcost, hfail⟩ : ∃ cost ≤ 6, c.Leads deadline cost _ _ :=
    exists_leads_fail now hfails hdue
  rw [fail_trying_last hlast] at hfail
  have hstop : c.Leads deadline 1 (now + c.takes attempts,
      { c.tried (attempts + 1) .leaving with state := .permanentlyFailed (attempts + 1) }) _ :=
    leads_on (e := .proceed) rfl
  have hrest : c.Ends deadline 1 (now + c.takes attempts,
      { c.tried (attempts + 1) .ended with state := .permanentlyFailed (attempts + 1) }) _ :=
    ends_of_rest rfl fun due hdue => by cases hdue
  exact ((hfail.trans hstop).ends hrest).mono (by omega)

theorem le_stepBound (ms : Nat) : 8 * ms + 8 ≤ c.start.stepBound ms := by
  have hbound : c.start.stepBound ms = (ms + 4) * 3 * 8 + 3 * (c.start.backlog + 16) * 8 := rfl
  omega

/-- What the loop has come to, by how the attempt ends that began last. -/
theorem loopAfter_eq {ms : Nat} (hfails : attempts ≤ c.failures) (hmay : c.MayFail attempts)
    (hbegun : c.begins attempts ≤ ms)
    (hends : c.Ends (c.fleet.now + ms) 8
      (c.fleet.now + c.begins attempts, c.tried attempts .starting) l) :
    c.loopAfter ms = l := by
  have hstart : c.start = c.fleetAt c.fleet.now (c.tried 0 .starting) := by
    rw [start, tried, Nat.zero_sub]
  obtain ⟨cost, hcost, hleads⟩ : ∃ cost ≤ 8 * attempts, c.Leads (c.fleet.now + ms) cost _ _ :=
    exists_leads_begins c.fleet.now hfails hmay (Nat.add_le_add_left hbegun _)
  -- Every attempt but the last one has taken a millisecond or more.
  have hfuel : cost + 8 ≤ c.start.stepBound ms := by
    have hbound := le_stepBound (c := c) ms
    have hdelays : attempts * 1 ≤ attempts * c.policy.retryDelay :=
      Nat.mul_le_mul_left attempts c.retryDelay_pos
    unfold begins at hbegun
    omega
  have hrun : c.start.elapse ms = c.fleetAt (c.fleet.now + ms) l := by
    have hrunUntil := (hleads.ends hends) (c.start.stepBound ms) hfuel
    rw [← hstart] at hrunUntil
    exact hrunUntil
  rw [loopAfter, hrun]
  rfl

/-- At every moment before an attempt begins, some earlier attempt began last. -/
theorem exists_begun {ms : Nat} (hbefore : ms < c.begins attempts) :
    ∃ earlier < attempts, c.begins earlier ≤ ms ∧ ms < c.begins (earlier + 1) := by
  induction attempts with
  | zero => simp [begins, hangingAmong] at hbefore
  | succ attempts ih =>
    by_cases hlast : ms < c.begins attempts
    · obtain ⟨earlier, hlt, hbegun, hnext⟩ := ih hlast
      exact ⟨earlier, Nat.lt_succ_of_lt hlt, hbegun, hnext⟩
    · exact ⟨attempts, Nat.lt_succ_self attempts, Nat.not_lt.1 hlast, hbefore⟩

/-! ### The schedule -/

/-- How long it takes to a client. -/
def connectsAfter (c : LoneClient) : Nat :=
  (c.failingLoads + c.refusedDials) * c.policy.retryDelay +
    c.hangingDials * (c.policy.connectTimeout + c.policy.retryDelay)

/-- How long it takes to give up after so many attempts. -/
def givesUpAfter (c : LoneClient) (attempts : Nat) : Nat :=
  (attempts - 1) * c.policy.retryDelay + c.policy.connectTimeout * c.hangingAmong attempts

/-- The loop is on time. -/
structure KeepsTime (c : LoneClient) : Prop where
  /-- There is a client just when the attempts before it have failed. -/
  connects : c.MayFail c.failures → ∀ ms,
    (ms < c.connectsAfter → (c.loopAfter ms).current = .error .noClientYet) ∧
      (c.connectsAfter ≤ ms →
        (c.loopAfter ms).current = .ok (c.hangingDials + c.refusedDials + 1) ∧
        (c.loopAfter ms).loads = c.failingLoads + c.hangingDials + c.refusedDials + 1 ∧
        (c.loopAfter ms).dials = c.hangingDials + c.refusedDials + 1)
  /-- Under a ceiling that is reached first there is never a client. -/
  gives_up : ∀ most, c.policy.maxAttempts = some most → 1 ≤ most → most ≤ c.failures → ∀ ms,
    (c.loopAfter ms).client = none ∧
      (ms < c.givesUpAfter most → ∃ attempt, (c.loopAfter ms).state = .dialing attempt) ∧
      (c.givesUpAfter most ≤ ms →
        (c.loopAfter ms).state = .permanentlyFailed most ∧ (c.loopAfter ms).loads = most ∧
        (c.loopAfter ms).dials = most - c.failingLoads)

theorem begins_failures : c.begins c.failures = c.connectsAfter := by
  have hhanging : c.hangingAmong c.failures = c.hangingDials := by
    unfold hangingAmong failures
    omega
  rw [begins, hhanging, failures, connectsAfter]
  ring

theorem givesUpAfter_succ (attempts : Nat) :
    c.givesUpAfter (attempts + 1) = c.begins attempts + c.takes attempts := by
  have hbegins := c.begins_succ attempts
  have hlast : c.givesUpAfter (attempts + 1) + c.policy.retryDelay = c.begins (attempts + 1) := by
    rw [givesUpAfter, begins, Nat.add_sub_cancel]
    ring
  omega

/-- Up to a client or the end, an attempt is always shown. -/
theorem loopAfter_between {ms : Nat} (hfails : attempts < c.failures)
    (hmay : c.MayFail attempts) (hbegun : c.begins attempts ≤ ms)
    (hbefore : ms < c.begins attempts + c.takes attempts ∨
      c.MayFail (attempts + 1) ∧ ms < c.begins (attempts + 1)) :
    (c.loopAfter ms).client = none ∧ (c.loopAfter ms).state = .dialing (attempts + 1) := by
  have hbegins := c.begins_succ attempts
  obtain ⟨l, hclient, hstate, hends⟩ :=
    exists_ends_between (c.fleet.now + c.begins attempts) hfails
      (Nat.add_le_add_left hbegun c.fleet.now) (hbefore.imp (by omega) fun h => ⟨h.1, by omega⟩)
  rw [loopAfter_eq (Nat.le_of_lt hfails) hmay hbegun hends]
  exact ⟨hclient, hstate⟩

/-- However the loads and dials of a lone client come out, its loop is on time. -/
theorem keepsTime (c : LoneClient) : c.KeepsTime := by
  constructor
  · intro hmay ms
    constructor
    · intro hbefore
      rw [← begins_failures] at hbefore
      obtain ⟨attempts, hfails, hbegun, hnext⟩ := exists_begun hbefore
      obtain ⟨hclient, hstate⟩ := loopAfter_between hfails (hmay.mono (Nat.le_of_lt hfails)) hbegun
        (Or.inr ⟨hmay.mono hfails, hnext⟩)
      rw [DialLoop.current, hclient, hstate]
    · intro hafter
      rw [← begins_failures] at hafter
      rw [loopAfter_eq (Nat.le_refl _) hmay hafter (ends_published _)]
      exact ⟨rfl, rfl, rfl⟩
  · intro most ceiling hpos hreached ms
    obtain ⟨last, rfl⟩ := Nat.exists_eq_add_of_le' hpos
    have hmay : c.MayFail last := fun most hmost => by
      rw [ceiling, Option.some.injEq] at hmost
      omega
    have hlast := c.givesUpAfter_succ last
    by_cases hover : c.givesUpAfter (last + 1) ≤ ms
    · rw [loopAfter_eq (Nat.le_of_lt hreached) hmay (by omega)
        (ends_gaveUp _ hreached ceiling (by omega))]
      exact ⟨rfl, fun hbefore => absurd hover (Nat.not_le_of_gt hbefore), fun _ => ⟨rfl, rfl, rfl⟩⟩
    · have hshown : ∃ attempts, (c.loopAfter ms).client = none ∧
          (c.loopAfter ms).state = .dialing (attempts + 1) := by
        by_cases hbegun : c.begins last ≤ ms
        · exact ⟨last, loopAfter_between hreached hmay hbegun (Or.inl (by omega))⟩
        · obtain ⟨earlier, hlt, hbegun, hnext⟩ := exists_begun (Nat.lt_of_not_le hbegun)
          exact ⟨earlier, loopAfter_between (by omega) (hmay.mono (Nat.le_of_lt hlt)) hbegun
            (Or.inr ⟨hmay.mono hlt, hnext⟩)⟩
      obtain ⟨attempts, hclient, hstate⟩ := hshown
      exact ⟨hclient, fun _ => ⟨attempts + 1, hstate⟩, fun hafter => absurd hafter hover⟩

/-- A client whose first dial hangs. -/
def hangingOnce : LoneClient where
  fleet := default
  handle :=
    { name := "testnet_bitcoind_1"
      snapshot := some { (default : Snapshot) with state := .running } }
  seen := { (default : Snapshot) with state := .running }
  isSeen := rfl
  isRunning := rfl
  policy := {}
  retryDelay_pos := by decide
  connectTimeout_pos := by decide
  failingLoads := 0
  hangingDials := 1
  refusedDials := 0

theorem hangingOnce_keepsTime :
    (hangingOnce.loopAfter 5999).current = .error .noClientYet ∧
      (hangingOnce.loopAfter 6000).current = .ok 2 := by
  have hmay : hangingOnce.MayFail hangingOnce.failures := fun _ hmost => by cases hmost
  have hbefore := ((keepsTime hangingOnce).connects hmay 5999).1 (by decide)
  have hafter := ((keepsTime hangingOnce).connects hmay 6000).2 (by decide)
  exact ⟨hbefore, hafter.1⟩

end LoneClient

end FleetWatch
