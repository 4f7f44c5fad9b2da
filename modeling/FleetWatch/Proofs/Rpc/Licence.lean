import FleetWatch.Proofs.Container.FollowerTurn
import FleetWatch.Proofs.Rpc.LoopEnd
import FleetWatch.Proofs.Service.Reconnect
import FleetWatch.Rpc.Client
/-!
What a loop has in hand when it dials.

A loop goes on at a handle that others look through, forget and cancel at any time, and may itself be
invalidated and closed; a look of its own may be answered long after it was begun.  The record keeps
every load that gave credentials and every dial with what stood there when it was called.  Main
statement: each dial is called with the credentials of its own attempt, while the handle shows the
container running, no client is published and no other dial is under way (`run_dialsLicensed`).
-/

namespace FleetWatch

/-- A dial is under way. -/
def DialPhase.isDial : DialPhase → Bool
  | .dialing _ => true
  | _ => false

/-! ### A loop and its dials -/

/-- What a loop finds when it goes on: how its loads and dials come out, and the engine. -/
structure DialWorld (κ : Type) where
  load : Nat → Except RpcError κ
  dial : Nat → Option (Except RpcError Unit)
  engine : Engine

def DialWorld.outcomes {κ : Type} (world : DialWorld κ) : DialLoop.Outcomes where
  load n := (world.load n).map fun _ => ()
  dial := world.dial

/-- What others ask of a loop. -/
inductive DialRequest where
  | invalidate
  | cancel
  | withdraw
  | showClosed
  | close
deriving Repr, DecidableEq

def DialRequest.event : DialRequest → DialEvent
  | .invalidate => .invalidate
  | .cancel => .cancel
  | .withdraw => .withdraw
  | .showClosed => .showClosed
  | .close => .close

/-- What can happen to a loop and to the handle that it waits at. -/
inductive DialedEvent (κ : Type) where
  /-- The loop goes on, if it can.  A look that the engine does not answer is under way from then on. -/
  | goOn (world : DialWorld κ)
  /-- The look of the loop that is under way is answered. -/
  | answered (answer : Except ContainerError Snapshot)
  /-- A look that somebody else took is answered. -/
  | looked (answer : Except ContainerError Snapshot)
  /-- Somebody forgets the snapshot. -/
  | forget
  | cancelHandle
  | asked (request : DialRequest)
  | pass (ms : Nat)

/-- A call of the dialer, with what there was when it was made. -/
structure DialCall (κ : Type) where
  /-- The number of the latest load. -/
  load : Nat
  credentials : Option κ
  snapshot : Option Snapshot
  client : Option Nat
  /-- How many dials were under way. -/
  underWay : Nat

/-- A loop at a handle, with a record of its loads and dials. -/
structure DialedLoop (κ : Type) where
  now : Nat := 0
  dialLoop : DialLoop
  handle : Handle
  /-- What the latest load gave. -/
  credentials : Option κ := none
  /-- The loads that gave credentials, oldest first. -/
  granted : List (Nat × κ) := []
  calls : List (DialCall κ) := []
  /-- How many dials are over. -/
  ended : Nat := 0

namespace DialedLoop

variable {κ : Type}

def start (policy : RetryPolicy) (handle : Handle) : DialedLoop κ :=
  { dialLoop := { policy }, handle }

/-- The loop becomes another one. -/
def become (d : DialedLoop κ) (l : DialLoop) : DialedLoop κ :=
  { d with
    dialLoop := l
    ended := if d.dialLoop.phase.isDial && !l.phase.isDial then d.ended + 1 else d.ended }

def after (d : DialedLoop κ) (event : DialEvent) : DialedLoop κ :=
  d.become (d.dialLoop.on d.now event)

/-- The load gives credentials. -/
def grant (d : DialedLoop κ) (credentials : κ) : DialedLoop κ :=
  { d.after (.loaded (.ok ())) with
    credentials := some credentials
    granted := d.granted ++ [(d.dialLoop.loads, credentials)] }

/-- The loop dials. -/
def dial (d : DialedLoop κ) : DialedLoop κ :=
  { d.after .admitted with
    calls := d.calls ++
      [{ load := d.dialLoop.loads
         credentials := d.credentials
         snapshot := d.handle.snapshot
         client := d.dialLoop.client
         underWay := d.calls.length - d.ended }] }

/-- What the loop does is done, with these loads. -/
def record (d : DialedLoop κ) (load : Nat → Except RpcError κ) : DialEvent → DialedLoop κ
  | .loaded result =>
    match load d.dialLoop.loads with
    | .ok credentials => d.grant credentials
    | .error _ => d.after (.loaded result)
  | .admitted => d.dial
  | event => d.after event

/-- What happens does to a loop and its record. -/
def on (d : DialedLoop κ) : DialedEvent κ → DialedLoop κ
  | .goOn world =>
    match d.dialLoop.next? world.outcomes { now := d.now, engine := world.engine, handle := d.handle } with
    | some (event, site) => { d with handle := site.handle }.record world.load event
    | none => d
  | .answered answer =>
    match d.dialLoop.phase with
    | .waiting .stuck =>
      let d := { d with handle := (d.handle.observe answer).2 }
      match Waiter.check .running { now := d.now, engine := default, handle := d.handle } with
      | .ready _ => d.dial
      | .again w => d.after (.waited w)
      | .cancelled => d.after .turnedAway
    | _ => d
  | .looked answer => { d with handle := (d.handle.observe answer).2 }
  | .forget => { d with handle := d.handle.clear }
  | .cancelHandle => { d with handle := { d.handle with isCancelled := true } }
  | .asked request => d.after request.event
  | .pass ms => { d with now := d.now + ms }

/-- Several things that happen, in order. -/
def run (d : DialedLoop κ) (events : List (DialedEvent κ)) : DialedLoop κ :=
  events.foldl on d

theorem run_concat (d : DialedLoop κ) (events : List (DialedEvent κ)) (e : DialedEvent κ) :
    d.run (events ++ [e]) = (d.run events).on e := by
  simp only [run, List.foldl_append, List.foldl_cons, List.foldl_nil]

end DialedLoop

/-- What a look showed. -/
def Look.shown : Except ContainerError Snapshot → Option Snapshot
  | .ok s => some s
  | .error _ => none

/-- What a look may show that is answered by something that happens. -/
def DialedEvent.shown {κ : Type} (name : String) : DialedEvent κ → Option Snapshot
  | .goOn world =>
    match (world.engine.inspect name).1 with
    | .answer r => Look.shown r
    | .never => none
  | .answered r | .looked r => Look.shown r
  | _ => none

/-! ### What a handle shows -/

theorem DialLoop.handle_of_next? {l : DialLoop} {outcomes : DialLoop.Outcomes} {s s' : Site}
    {e : DialEvent} (hnext : l.next? outcomes s = some (e, s')) :
    s'.handle = s.handle ∨ ∃ r, (s.engine.inspect s.handle.name).1 = .answer r ∧
      s'.handle = (s.handle.observe r).2 := by
  cases hphase : l.phase with
  | waiting w =>
    simp only [next?, hphase] at hnext
    obtain ⟨⟨waited, after⟩, hstep, hevent⟩ := Option.map_eq_some_iff.mp hnext
    have hhandle := Waiter.handle_of_step? hstep
    cases waited <;> cases hevent <;> exact hhandle
  | dialing | connected | backingOff => grind [next?]
  | ended => simp only [next?, hphase, reduceCtorEq] at hnext
  | _ =>
    simp only [next?, hphase, Option.some.injEq, Prod.mk.injEq] at hnext
    exact Or.inl (hnext.2 ▸ rfl)

/-- A loop learns of a load only while it loads, and what the load gave. -/
theorem DialLoop.loading_of_next? {l : DialLoop} {outcomes : DialLoop.Outcomes} {s s' : Site}
    {result : Except RpcError Unit} (hnext : l.next? outcomes s = some (.loaded result, s')) :
    l.phase = .loading ∧ result = outcomes.load l.loads := by
  cases hphase : l.phase with
  | loading =>
    simp only [next?, hphase, Option.some.injEq, Prod.mk.injEq, DialEvent.loaded.injEq] at hnext
    exact ⟨rfl, hnext.1.symm⟩
  | waiting w =>
    simp only [next?, hphase] at hnext
    obtain ⟨⟨waited, after⟩, _, hevent⟩ := Option.map_eq_some_iff.mp hnext
    cases waited <;> cases hevent
  | dialing | connected | backingOff => grind [next?]
  | _ => simp [next?, hphase] at hnext

/-- A loop is admitted only while it waits. -/
theorem DialLoop.waiting_of_next? {l : DialLoop} {outcomes : DialLoop.Outcomes} {s s' : Site}
    (hnext : l.next? outcomes s = some (.admitted, s')) : ∃ w, l.phase = .waiting w := by
  cases hphase : l.phase with
  | waiting w => exact ⟨w, rfl⟩
  | dialing | connected | backingOff => grind [next?]
  | _ => simp [next?, hphase] at hnext

/-! ### The books of a loop -/

namespace DialLoop

variable {l l' : DialLoop} {now : Nat} {e : DialEvent}

/-- A change of a loop without credentials being loaded or a dial being called. -/
structure Quiet (l l' : DialLoop) : Prop where
  dials : l'.dials = l.dials
  loads_le : l.loads ≤ l'.loads
  loading : l'.phase = .loading → l.phase = .loading ∧ l'.loads = l.loads ∨ l.loads < l'.loads
  waiting : ∀ w, l'.phase = .waiting w → l'.loads = l.loads ∧ ∃ w, l.phase = .waiting w
  dialing : l'.phase.isDial = true → l.phase.isDial = true

/-- Credentials are loaded, a dial is called, or neither. -/
theorem Turn.load_or_dial_or_quiet (turn : l.Turn now e l') :
    e = .loaded (.ok ()) ∧ l.phase = .loading ∧ l' = { l with phase := .waiting .fresh } ∨
      (e = .admitted ∧ (∃ w, l.phase = .waiting w) ∧
        l' = { l with phase := .dialing (now + l.policy.connectTimeout), dials := l.dials + 1 }) ∨
      l.Quiet l' := by
  cases turn with
  | load was => exact Or.inl ⟨rfl, was, rfl⟩
  | dial w was => exact Or.inr (Or.inl ⟨rfl, ⟨w, was⟩, rfl⟩)
  | idle | invalidate | cancel | withdraw | showClosed | close =>
    exact Or.inr (Or.inr
      ⟨rfl, Nat.le_refl _, fun h => Or.inl ⟨h, rfl⟩, fun w h => ⟨rfl, w, h⟩, fun h => h⟩)
  | attempt =>
    exact Or.inr (Or.inr ⟨rfl, Nat.le_succ _, fun _ => Or.inr (Nat.lt_succ_self _), nofun, nofun⟩)
  | wait w _ was =>
    exact Or.inr (Or.inr ⟨rfl, Nat.le_refl _, nofun, fun _ _ => ⟨rfl, w, was⟩, nofun⟩)
  | _ => exact Or.inr (Or.inr ⟨rfl, Nat.le_refl _, nofun, nofun, nofun⟩)

end DialLoop

namespace DialedLoop

variable {κ : Type} {d : DialedLoop κ} {l : DialLoop}

/-- The numbers of the loads that gave credentials. -/
def loads (d : DialedLoop κ) : List Nat :=
  d.granted.map Prod.fst

/-- The numbers of the loads that the dials follow. -/
def spent (d : DialedLoop κ) : List Nat :=
  d.calls.map DialCall.load

/-- What the record of the loads and dials says is so. -/
structure Books (d : DialedLoop κ) : Prop where
  spent : d.spent.Sublist d.loads
  rising : d.loads.Pairwise (· < ·)
  loads_le : ∀ n ∈ d.loads, n ≤ d.dialLoop.loads
  loading : d.dialLoop.phase = .loading → ∀ n ∈ d.loads, n < d.dialLoop.loads
  /-- Credentials that no dial took yet are in hand while the loop waits. -/
  inHand : ∀ w, d.dialLoop.phase = .waiting w → ∃ earlier credentials,
    d.granted = earlier ++ [(d.dialLoop.loads, credentials)] ∧ d.credentials = some credentials ∧
      d.spent.Sublist (earlier.map Prod.fst)
  dials_eq : d.dialLoop.dials = d.calls.length
  ended_eq : d.calls.length = d.ended + d.dialLoop.phase.isDial.toNat

theorem ended_become (h : d.calls.length = d.ended + d.dialLoop.phase.isDial.toNat)
    (hdialing : l.phase.isDial = true → d.dialLoop.phase.isDial = true) :
    d.calls.length = (d.become l).ended + l.phase.isDial.toNat := by
  cases hwas : d.dialLoop.phase.isDial <;> cases his : l.phase.isDial
  all_goals simp_all [become]

theorem Books.quiet (h : d.Books) (hquiet : d.dialLoop.Quiet l) : (d.become l).Books where
  spent := h.spent
  rising := h.rising
  loads_le n hn := Nat.le_trans (h.loads_le n hn) hquiet.loads_le
  loading hphase n hn := by
    rcases hquiet.loading hphase with ⟨was, hsame⟩ | hmore
    · exact Nat.lt_of_lt_of_eq (h.loading was n hn) hsame.symm
    · exact Nat.lt_of_le_of_lt (h.loads_le n hn) hmore
  inHand w hphase := by
    obtain ⟨hsame, w', was⟩ := hquiet.waiting w hphase
    obtain ⟨earlier, credentials, hgranted, hcredentials, hspent⟩ := h.inHand w' was
    exact ⟨earlier, credentials, hsame.symm ▸ hgranted, hcredentials, hspent⟩
  dials_eq := hquiet.dials.trans h.dials_eq
  ended_eq := ended_become h.ended_eq hquiet.dialing

theorem Books.grant (h : d.Books) (was : d.dialLoop.phase = .loading) (credentials : κ) :
    (d.grant credentials).Books := by
  have hloop : (d.grant credentials).dialLoop = { d.dialLoop with phase := .waiting .fresh } := by
    simp only [DialedLoop.grant, after, become, DialLoop.on, was]
  have hloads : (d.grant credentials).loads = d.loads ++ [d.dialLoop.loads] := by
    simp only [DialedLoop.loads, DialedLoop.grant, List.map_append, List.map_cons, List.map_nil]
  have hless := h.loading was
  refine ⟨?_, ?_, ?_, ?_, ?_, ?_, ?_⟩
  · rw [hloads]
    exact h.spent.trans (List.sublist_append_left _ _)
  · rw [hloads]
    refine List.pairwise_append.mpr ⟨h.rising, List.pairwise_singleton _ _, fun n hn m hm => ?_⟩
    rw [List.mem_singleton.mp hm]
    exact hless n hn
  · rw [hloads, hloop]
    exact List.forall_mem_append.mpr ⟨h.loads_le, List.forall_mem_singleton.mpr (Nat.le_refl _)⟩
  · rw [hloop]
    exact fun h => absurd h DialPhase.noConfusion
  · rw [hloop]
    exact fun _ _ => ⟨d.granted, credentials, rfl, rfl, h.spent⟩
  · rw [hloop]
    exact h.dials_eq
  · refine ended_become h.ended_eq fun hdial => ?_
    simp [DialLoop.on, was, DialPhase.isDial] at hdial

/-- No dial is under way while the loop waits. -/
theorem Books.ended_eq_of_waiting (h : d.Books) {w : Waiter} (was : d.dialLoop.phase = .waiting w) :
    d.ended = d.calls.length := by
  have hended := h.ended_eq
  rw [was] at hended
  exact hended.symm

theorem Books.dial (h : d.Books) {w : Waiter} (was : d.dialLoop.phase = .waiting w) :
    d.dial.Books := by
  have hloop : d.dial.dialLoop =
      { d.dialLoop with
        phase := .dialing (d.now + d.dialLoop.policy.connectTimeout)
        dials := d.dialLoop.dials + 1 } := by
    simp only [DialedLoop.dial, after, become, DialLoop.on, was]
  have hspent : d.dial.spent = d.spent ++ [d.dialLoop.loads] := by
    simp only [DialedLoop.spent, DialedLoop.dial, List.map_append, List.map_cons, List.map_nil]
  obtain ⟨earlier, credentials, hgranted, _, hearlier⟩ := h.inHand w was
  refine ⟨?_, h.rising, ?_, ?_, ?_, ?_, ?_⟩
  · have hloads : d.dial.loads = earlier.map Prod.fst ++ [d.dialLoop.loads] := by
      simp only [DialedLoop.loads, DialedLoop.dial, after, become, hgranted, List.map_append,
        List.map_cons, List.map_nil]
    rw [hspent, hloads]
    exact hearlier.append (List.Sublist.refl _)
  · rw [hloop]
    exact h.loads_le
  · rw [hloop]
    exact fun h => absurd h DialPhase.noConfusion
  · rw [hloop]
    exact fun _ h => absurd h DialPhase.noConfusion
  · rw [hloop]
    simp only [DialedLoop.dial, List.length_append, List.length_singleton, h.dials_eq]
  · rw [hloop]
    have hended := h.ended_eq_of_waiting was
    simp [DialedLoop.dial, after, become, was, DialPhase.isDial, hended]

/-! ### Licensed dials -/

/-- What a dial is called with, and what there was when it was called. -/
structure IsLicensed (granted : List (Nat × κ)) (seen : List Snapshot) (c : DialCall κ) : Prop where
  /-- The handle showed the container running, and somebody had seen it so. -/
  running : ∃ s, c.snapshot = some s ∧ s.state.isRunning = true ∧ s ∈ seen
  /-- The latest load gave the credentials. -/
  credentials : ∃ credentials, c.credentials = some credentials ∧ (c.load, credentials) ∈ granted
  client : c.client = none
  alone : c.underWay = 0

/-- What holds of a loop and its record at every moment. -/
structure Sound (policy : RetryPolicy) (name : String) (seen : List Snapshot)
    (d : DialedLoop κ) : Prop where
  reached : ∃ events, d.dialLoop = ({ policy } : DialLoop).run events
  books : d.Books
  licensed : ∀ c ∈ d.calls, IsLicensed d.granted seen c
  name_eq : d.handle.name = name
  observed : ∀ s, d.handle.snapshot = some s → s ∈ seen

variable {policy : RetryPolicy} {name : String} {seen later : List Snapshot}

theorem IsLicensed.mono {granted granted' : List (Nat × κ)} {c : DialCall κ}
    (h : IsLicensed granted seen c) (hgranted : granted ⊆ granted') (hseen : seen ⊆ later) :
    IsLicensed granted' later c where
  running := by
    obtain ⟨s, hs, hrunning, hmem⟩ := h.running
    exact ⟨s, hs, hrunning, hseen hmem⟩
  credentials := by
    obtain ⟨credentials, hc, hmem⟩ := h.credentials
    exact ⟨credentials, hc, hgranted hmem⟩
  client := h.client
  alone := h.alone

/-- The handle shows something else, that was seen. -/
theorem Sound.handle (h : Sound policy name seen d) {handle : Handle} (hname : handle.name = name)
    (hseen : seen ⊆ later) (hobserved : ∀ s, handle.snapshot = some s → s ∈ later) :
    Sound policy name later { d with handle } where
  reached := h.reached
  books := ⟨h.books.spent, h.books.rising, h.books.loads_le, h.books.loading, h.books.inHand,
    h.books.dials_eq, h.books.ended_eq⟩
  licensed c hc := (h.licensed c hc).mono (List.Subset.refl _) hseen
  name_eq := hname
  observed := hobserved

theorem Sound.reached_on (h : Sound policy name seen d) (event : DialEvent) :
    ∃ events, d.dialLoop.on d.now event = ({ policy } : DialLoop).run events := by
  obtain ⟨events, hreached⟩ := h.reached
  exact ⟨events ++ [(d.now, event)], by rw [DialLoop.run_concat, ← hreached]⟩

theorem Sound.after (h : Sound policy name seen d) {event : DialEvent}
    (hquiet : d.dialLoop.Quiet (d.dialLoop.on d.now event)) :
    Sound policy name seen (d.after event) :=
  ⟨h.reached_on event, h.books.quiet hquiet, h.licensed, h.name_eq, h.observed⟩

theorem Sound.grant (h : Sound policy name seen d) (was : d.dialLoop.phase = .loading)
    (credentials : κ) : Sound policy name seen (d.grant credentials) where
  reached := h.reached_on (.loaded (.ok ()))
  books := h.books.grant was credentials
  licensed c hc := (h.licensed c hc).mono (List.subset_append_left _ _) (List.Subset.refl _)
  name_eq := h.name_eq
  observed := h.observed

/-- A loop that waits dials when the handle shows the container running. -/
theorem Sound.dial (h : Sound policy name seen d) {w : Waiter}
    (was : d.dialLoop.phase = .waiting w) (hrunning : d.handle.showsRunning = true) :
    Sound policy name seen d.dial where
  reached := h.reached_on .admitted
  books := h.books.dial was
  licensed := by
    refine List.forall_mem_append.mpr ⟨h.licensed, List.forall_mem_singleton.mpr ⟨?_, ?_, ?_, ?_⟩⟩
    · obtain ⟨s, hs, hstate⟩ := (Option.any_eq_true _ _).mp hrunning
      exact ⟨s, hs, hstate, h.observed s hs⟩
    · obtain ⟨earlier, credentials, hgranted, hcredentials, _⟩ := h.books.inHand w was
      exact ⟨credentials, hcredentials, by simp [DialedLoop.dial, DialedLoop.after, become, hgranted]⟩
    · obtain ⟨events, hreached⟩ := h.reached
      have hsound := WatchedLoop.run_sound policy events
      have hattempting := hsound.attempting
      rw [DialLoop.loop_run_start, ← hreached, was] at hattempting
      exact (hattempting rfl).1
    · exact Nat.sub_eq_zero_of_le (Nat.le_of_eq (h.books.ended_eq_of_waiting was).symm)
  name_eq := h.name_eq
  observed := h.observed

theorem quiet_of_ne {now : Nat} {event : DialEvent} (hload : event ≠ .loaded (.ok ()))
    (hdial : event ≠ .admitted) : l.Quiet (l.on now event) := by
  rcases (l.on_turn now event).load_or_dial_or_quiet with ⟨heq, _⟩ | ⟨heq, _⟩ | hquiet
  · exact absurd heq hload
  · exact absurd heq hdial
  · exact hquiet

/-- What a loop does by itself keeps everything as it should be. -/
theorem Sound.record (h : Sound policy name seen d) {load : Nat → Except RpcError κ}
    {event : DialEvent}
    (hloaded : ∀ result, event = .loaded result →
      d.dialLoop.phase = .loading ∧ result = (load d.dialLoop.loads).map fun _ => ())
    (hadmitted : event = .admitted →
      (∃ w, d.dialLoop.phase = .waiting w) ∧ d.handle.showsRunning = true) :
    Sound policy name seen (d.record load event) := by
  cases event with
  | loaded result =>
    obtain ⟨was, hresult⟩ := hloaded result rfl
    rw [DialedLoop.record]
    cases hload : load d.dialLoop.loads with
    | ok credentials => exact h.grant was credentials
    | error e =>
      rw [hload] at hresult
      subst hresult
      exact h.after (quiet_of_ne nofun nofun)
  | admitted =>
    obtain ⟨⟨w, was⟩, hrunning⟩ := hadmitted rfl
    exact h.dial was hrunning
  | _ => exact h.after (quiet_of_ne nofun nofun)

theorem Sound.mono (h : Sound policy name seen d) (hseen : seen ⊆ later) :
    Sound policy name later d :=
  h.handle h.name_eq hseen fun s hs => hseen (h.observed s hs)

/-- A look is answered. -/
theorem Sound.observe (h : Sound policy name seen d) (r : Except ContainerError Snapshot) :
    Sound policy name (seen ++ (Look.shown r).toList)
      { d with handle := (d.handle.observe r).2 } := by
  refine h.handle ((d.handle.name_observe r).trans h.name_eq) (List.subset_append_left _ _) ?_
  intro s hs
  rcases Handle.snapshot_observe hs with rfl | hbefore
  · exact List.mem_append_right _ (List.mem_singleton.mpr rfl)
  · exact List.mem_append_left _ (h.observed s hbefore)

theorem Sound.goOn (h : Sound policy name seen d) (world : DialWorld κ) :
    Sound policy name (seen ++ ((DialedEvent.goOn world).shown name).toList) (d.on (.goOn world)) := by
  rw [DialedLoop.on]
  split
  · next event site hnext =>
    have hsite : Sound policy name (seen ++ ((DialedEvent.goOn world).shown name).toList)
        { d with handle := site.handle } := by
      rcases DialLoop.handle_of_next? hnext with hsame | ⟨r, hanswer, hhandle⟩
      · rw [hsame]
        exact h.mono (List.subset_append_left _ _)
      · rw [h.name_eq] at hanswer
        rw [hhandle, DialedEvent.shown, hanswer]
        exact h.observe r
    refine hsite.record (fun result heq => ?_) fun heq => ?_
    · subst heq
      exact DialLoop.loading_of_next? hnext
    · subst heq
      exact ⟨DialLoop.waiting_of_next? hnext, DialLoop.showsRunning_of_admitted hnext⟩
  · exact h.mono (List.subset_append_left _ _)

/-- A look of the loop is answered, and the loop looks at what the handle shows then. -/
theorem Sound.answered (h : Sound policy name seen d) (r : Except ContainerError Snapshot) :
    Sound policy name (seen ++ (Look.shown r).toList) (d.on (.answered r)) := by
  rw [DialedLoop.on]
  split
  · next was =>
    have hobserved := h.observe r
    dsimp only
    split
    · next s hready =>
      obtain ⟨hshows, hrunning⟩ := Waiter.check_ready hready
      exact hobserved.dial was ((Option.any_eq_true _ _).mpr ⟨s, hshows, hrunning⟩)
    · exact hobserved.after (quiet_of_ne nofun nofun)
    · exact hobserved.after (quiet_of_ne nofun nofun)
  · exact h.mono (List.subset_append_left _ _)

theorem Sound.on (h : Sound policy name seen d) (e : DialedEvent κ) :
    Sound policy name (seen ++ (e.shown name).toList) (d.on e) := by
  cases e with
  | goOn world => exact h.goOn world
  | answered r => exact h.answered r
  | looked r => exact h.observe r
  | forget =>
    refine h.handle (d.handle.name_clear.trans h.name_eq) (List.subset_append_left _ _) ?_
    intro s hs
    cases d.handle.snapshot_clear.symm.trans hs
  | cancelHandle =>
    exact h.handle h.name_eq (List.subset_append_left _ _)
      fun s hs => List.mem_append_left _ (h.observed s hs)
  | asked request =>
    have hasked : Sound policy name seen (d.after request.event) := by
      cases request <;> exact h.after (quiet_of_ne nofun nofun)
    exact hasked.mono (List.subset_append_left _ _)
  | pass ms =>
    have hbooks := h.books
    exact Sound.mono ⟨h.reached, ⟨hbooks.spent, hbooks.rising, hbooks.loads_le, hbooks.loading,
      hbooks.inHand, hbooks.dials_eq, hbooks.ended_eq⟩, h.licensed, h.name_eq, h.observed⟩
      (List.subset_append_left _ _)

theorem start_sound (policy : RetryPolicy) (handle : Handle) :
    Sound policy handle.name handle.snapshot.toList (start policy handle : DialedLoop κ) where
  reached := ⟨[], rfl⟩
  books := ⟨List.Sublist.refl _, List.Pairwise.nil, nofun, nofun, nofun, rfl, rfl⟩
  licensed := nofun
  name_eq := rfl
  observed _ hs := Option.mem_toList.mpr hs

theorem run_sound (policy : RetryPolicy) (handle : Handle) (events : List (DialedEvent κ)) :
    Sound policy handle.name
      (handle.snapshot.toList ++ events.filterMap fun e => e.shown handle.name)
      ((start policy handle).run events) := by
  induction events using List.reverseRecOn with
  | nil =>
    rw [List.filterMap_nil, List.append_nil]
    exact start_sound policy handle
  | append_singleton events e ih =>
    have hlast := ih.on e
    rw [run_concat, List.filterMap_append, ← List.append_assoc]
    have hshown : [e].filterMap (fun e => e.shown handle.name) = (e.shown handle.name).toList := by
      cases hs : e.shown handle.name <;> simp [hs]
    rw [hshown]
    exact hlast

/-- That every dial of a loop is licensed. -/
structure DialsLicensed (seen : List Snapshot) (d : DialedLoop κ) : Prop where
  each : ∀ c ∈ d.calls, IsLicensed d.granted seen c
  /-- No two dials follow the same load, and no two loads have the same number. -/
  once : d.spent.Pairwise (· < ·) ∧ d.loads.Pairwise (· < ·)
  /-- The loop counts the dials, and there are no more of them than loads that gave credentials. -/
  dials_le : d.dialLoop.dials = d.calls.length ∧ d.dialLoop.dials ≤ d.granted.length

/-- Whatever happens to a loop and to the handle that it waits at, every dial is licensed. -/
theorem run_dialsLicensed (policy : RetryPolicy) (handle : Handle) (events : List (DialedEvent κ)) :
    ((start policy handle).run events).DialsLicensed
      (handle.snapshot.toList ++ events.filterMap fun e => e.shown handle.name) := by
  have hsound := run_sound policy handle events
  have hbooks := hsound.books
  refine ⟨hsound.licensed, ⟨hbooks.rising.sublist hbooks.spent, hbooks.rising⟩, hbooks.dials_eq, ?_⟩
  have hspent := hbooks.spent.length_le
  rw [hbooks.dials_eq]
  simpa only [spent, loads, List.length_map] using hspent

/-- A loop that finds its credentials and a running container dials. -/
example :
    let world : DialWorld Nat := { load := fun n => .ok n, dial := fun _ => none, engine := default }
    let handle : Handle := { name := "db", snapshot := some (StoppedService.seen .running) }
    (((start {} handle).run (List.replicate 4 (.goOn world))).calls.map fun c =>
      (c.load, c.credentials)) = [(1, some 1)] := rfl

end DialedLoop

/-! ### Clients -/

/-- What the loop of a client finds when it goes on. -/
def Client.world (c : Client) (files : Files) (net : Network) (engine : Engine) :
    DialWorld Credentials where
  load n := c.dialer.load files n
  dial n := c.dialer.dial net n
  engine := engine

namespace DialedLoop

/-- A record is that of a client and of its handle. -/
structure IsOf (d : DialedLoop Credentials) (c : Client) (handle : Handle) : Prop where
  dialLoop : d.dialLoop = c.dialLoop
  handle : d.handle = handle
  credentials : d.credentials.getD .none = c.credentials

/-- Whatever a client does by itself is in its record. -/
theorem IsOf.step {d : DialedLoop Credentials} {c c' : Client} {files : Files} {net : Network}
    {s s' : Site} (h : d.IsOf c s.handle) (hnow : d.now = s.now)
    (hstep : c.step? files net s = some (c', s')) :
    (d.on (.goOn (c.world files net s.engine))).IsOf c' s'.handle := by
  obtain ⟨⟨event, site⟩, hnext, heq⟩ := Option.map_eq_some_iff.mp hstep
  cases heq
  have hon : d.on (.goOn (c.world files net s.engine)) =
      { d with handle := s'.handle }.record (fun n => c.dialer.load files n) event := by
    have hsame : d.dialLoop.next? (c.world files net s.engine).outcomes
        { now := d.now, engine := s.engine, handle := d.handle } = some (event, s') := by
      rw [h.dialLoop, h.handle, hnow]
      exact hnext
    rw [DialedLoop.on]
    simp only [Client.world] at hsame ⊢
    rw [hsame]
  rw [hon]
  have hloop : d.dialLoop.on d.now event = c.dialLoop.on s.now event := by rw [h.dialLoop, hnow]
  cases event with
  | loaded result =>
    obtain ⟨_, hresult⟩ := DialLoop.loading_of_next? hnext
    have hload : (c.dialer.outcomes files net).load c.dialLoop.loads =
        (c.dialer.load files c.dialLoop.loads).map fun _ => () := rfl
    cases hgiven : c.dialer.load files c.dialLoop.loads with
    | ok credentials =>
      have hrecord : c.dialer.load files d.dialLoop.loads = .ok credentials := h.dialLoop ▸ hgiven
      rw [hload, hgiven] at hresult
      subst hresult
      simp only [DialedLoop.record, hrecord]
      refine ⟨hloop, rfl, ?_⟩
      simp only [DialedLoop.grant, Client.credentialsAfter, Except.map, hgiven, Except.toOption,
        Option.getD_some]
    | error e =>
      have hrecord : c.dialer.load files d.dialLoop.loads = .error e := h.dialLoop ▸ hgiven
      rw [hload, hgiven] at hresult
      subst hresult
      simp only [DialedLoop.record, hrecord]
      exact ⟨hloop, rfl, h.credentials⟩
  | _ => exact ⟨hloop, rfl, h.credentials⟩

/-- So is whatever others ask of it. -/
theorem IsOf.asked {d : DialedLoop Credentials} {c : Client} {handle : Handle}
    (h : d.IsOf c handle) (request : DialRequest) :
    (d.on (.asked request)).IsOf (c.on request.event) handle := by
  refine ⟨?_, h.handle, h.credentials⟩
  change d.dialLoop.on d.now request.event = c.dialLoop.on 0 request.event
  rw [h.dialLoop]
  cases request <;> rfl

end DialedLoop

end FleetWatch
