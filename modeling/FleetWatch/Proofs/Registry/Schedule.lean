import FleetWatch.Fleet.Control
import FleetWatch.Proofs.Registry.LoopTurn
import Mathlib.Algebra.Group.Nat.Defs
import Mathlib.Data.Nat.Basic
/-!
The schedule of the event loop.

The record of a loop says what became of every stream that it subscribed to, and how long it waited
since the last event.  Main statement: whatever else happens, and however its subscriptions come out,
the loop looks at every container once before it takes the first event of a stream, hands on every
event that it takes once and in the order of the stream, and doubles its delay from the first to the
longest until an event arrives.
-/

namespace FleetWatch

/-! ### What a stream yields -/

/-- The events that a stream yields one after the other, whatever becomes of the engine meanwhile,
and what is left of the stream then. -/
inductive Feed.Yields (feed : Feed EngineEvent) : List EngineEvent → Feed EngineEvent → Prop where
  | nothing : feed.Yields [] feed
  | next {events : List EngineEvent} {event : EngineEvent} {rest left : Feed EngineEvent}
      (engine : Engine) (before : feed.Yields events rest)
      (pulled : engine.pullEvent rest = (.item (.ok event), left)) :
    feed.Yields (events ++ [event]) left

/-- A stream that nothing is added to. -/
def Feed.IsStored (feed : Feed EngineEvent) : Prop :=
  ∀ source position, feed.rest ≠ .live source position

theorem Feed.items_of_pullEvent {feed rest : Feed EngineEvent} (hstored : feed.IsStored)
    {item : Except ContainerError EngineEvent} {engine : Engine}
    (hpull : engine.pullEvent feed = (.item item, rest)) :
    feed.items = item :: rest.items ∧ rest.rest = feed.rest := by
  obtain ⟨live, hlive⟩ : ∃ live, engine.pullEvent feed = feed.pull live := by
    cases engine with
    | memory engine => exact ⟨engine.liveEvent, rfl⟩
    | script => exact ⟨fun _ _ => (none, true), rfl⟩
  rw [hlive] at hpull
  exact items_of_pull hstored hpull

/-- What a stored stream yields is what it begins with. -/
theorem Feed.Yields.stored {feed rest : Feed EngineEvent} {events : List EngineEvent}
    (hyields : feed.Yields events rest) (hstored : feed.IsStored) :
    feed.items = events.map .ok ++ rest.items ∧ rest.rest = feed.rest := by
  induction hyields with
  | nothing => exact ⟨rfl, rfl⟩
  | next engine _ hpull ih =>
    obtain ⟨hitems, hrest⟩ := ih
    obtain ⟨hfirst, hleft⟩ :=
      items_of_pullEvent (fun source position => hrest ▸ hstored source position) hpull
    refine ⟨?_, hleft.trans hrest⟩
    rw [hitems, hfirst, List.map_append, List.append_assoc]
    rfl

/-! ### The delays -/

/-- The delay before a new subscription when there were so many since the last event. -/
def delayAfter (n : Nat) : Nat :=
  1000 * min (2 ^ n) 30

theorem delayAfter_succ (n : Nat) : delayAfter (n + 1) = min (delayAfter n * 2) longestDelay := by
  simp only [delayAfter, longestDelay, Nat.pow_succ]
  omega

theorem delayAfter_bounds (n : Nat) : firstDelay ≤ delayAfter n ∧ delayAfter n ≤ longestDelay := by
  have hpos : 0 < 2 ^ n := Nat.two_pow_pos n
  simp only [delayAfter, firstDelay, longestDelay]
  omega

/-! ### The record of a loop -/

/-- What became of a stream that the loop subscribed to. -/
structure StreamRecord where
  /-- The stream as it was opened. -/
  feed : Feed EngineEvent
  /-- How often all containers were looked at since. -/
  looks : Nat := 0
  received : List EngineEvent := []
  /-- The events that a service is done with. -/
  dispatched : List EngineEvent := []

/-- What became of a loop's subscriptions. -/
structure LoopRecord where
  /-- The streams, the latest first. -/
  streams : List StreamRecord := []
  /-- The delays since the last event, or since the start. -/
  delays : List Nat := []

namespace LoopRecord

def onLatest (r : LoopRecord) (change : StreamRecord → StreamRecord) : LoopRecord :=
  { r with streams := r.streams.modifyHead change }

/-- Records how long a loop is to wait. -/
def addDelay (r : LoopRecord) (now : Nat) (l : EventLoop) : LoopRecord :=
  { r with delays := r.delays ++ (l.wake?.map fun due => due - now).toList }

/-- The record after something happened to a loop. -/
def put (r : LoopRecord) (now : Nat) (l : EventLoop) (e : LoopEvent) : LoopRecord :=
  match e with
  | .subscribed (.ok feed) => { r with streams := { feed } :: r.streams }
  | .subscribed (.error _) => r.addDelay now (l.on now e)
  | .lost => r.addDelay now (l.on now e)
  | .refreshed => r.onLatest fun s => { s with looks := s.looks + 1 }
  | .arrived event _ =>
    { r.onLatest fun s => { s with received := s.received ++ [event] } with delays := [] }
  | .handled =>
    match l.phase with
    | .handling _ event => r.onLatest fun s => { s with dispatched := s.dispatched ++ [event] }
    | _ => r
  | _ => r

end LoopRecord

/-- A fleet with the record of its loop. -/
structure RecordedLoop where
  fleet : Fleet
  record : LoopRecord := {}

/-- Something happens, and is recorded if it happens to the loop. -/
inductive RecordedLoop.Step : RecordedLoop → RecordedLoop → Prop where
  | loop {f g : Fleet} {l : EventLoop} {e : LoopEvent} (r : LoopRecord)
      (hloop : f.eventLoop = some l) (happens : f.Happens (some e) g) :
    Step ⟨f, r⟩ ⟨g, r.put g.now l e⟩
  | others {f g : Fleet} (r : LoopRecord) (happens : f.Happens none g) : Step ⟨f, r⟩ ⟨g, r⟩

/-! ### The streams -/

/-- All containers were looked at since the stream was opened, and what it yielded since was handed
on.  `rest` is left of it. -/
structure StreamRecord.IsHeard (s : StreamRecord) (rest : Feed EngineEvent) : Prop where
  looked : s.looks = 1
  yields : s.feed.Yields s.received rest
  handedOn : s.dispatched = s.received

/-- The last event of the stream is still to be handed on. -/
structure StreamRecord.Holds (s : StreamRecord) (event : EngineEvent) (rest : Feed EngineEvent) :
    Prop where
  looked : s.looks = 1
  yields : s.feed.Yields s.received rest
  held : s.received = s.dispatched ++ [event]

/-- The loop has left the streams behind. -/
def AreLeft (streams : List StreamRecord) : Prop :=
  ∀ s ∈ streams, ∃ rest, s.IsHeard rest

theorem AreLeft.cons {s : StreamRecord} {past : List StreamRecord} {rest : Feed EngineEvent}
    (hleft : AreLeft past) (hheard : s.IsHeard rest) : AreLeft (s :: past) := by
  intro other hother
  rcases List.mem_cons.mp hother with rfl | hpast
  · exact ⟨rest, hheard⟩
  · exact hleft other hpast

/-- What is recorded of the streams of a loop, by its phase. -/
inductive Fits : List StreamRecord → EventPhase → Prop where
  | subscribing {streams} (left : AreLeft streams) : Fits streams .subscribing
  | refreshing {feed past} (left : AreLeft past) : Fits ({ feed } :: past) (.refreshing feed)
  | listening {s rest past} (heard : s.IsHeard rest) (left : AreLeft past) :
    Fits (s :: past) (.listening rest)
  | handling {s event rest past} (holds : s.Holds event rest) (left : AreLeft past) :
    Fits (s :: past) (.handling rest event)
  | backingOff {streams due} (left : AreLeft streams) : Fits streams (.backingOff due)
  | stalledLooking {feed past} (left : AreLeft past) : Fits ({ feed } :: past) .stalled
  | stalledHandling {s event rest past} (holds : s.Holds event rest) (left : AreLeft past) :
    Fits (s :: past) .stalled
  | stopped {streams} (left : AreLeft streams) : Fits streams .stopped

variable {f g after : Fleet} {l : EventLoop} {e : LoopEvent} {streams : List StreamRecord}
  {delays : List Nat}

/-- The record fits whatever the loop does next. -/
theorem Fits.turn (hfits : Fits streams l.phase) (hturn : f.LoopTurn l e after)
    (delays : List Nat) (now : Nat) :
    Fits (LoopRecord.put { streams, delays } now l e).streams (l.on now e).phase := by
  cases hturn with
  | subscribe was =>
    rw [was] at hfits
    cases hfits with
    | subscribing left =>
      cases f.engine.subscribe.1 with
      | ok feed =>
        simp only [LoopRecord.put, EventLoop.on, was]
        exact .refreshing left
      | error fault =>
        simp only [LoopRecord.put, EventLoop.on, was]
        exact .backingOff left
  | lookAtAll feed _ was =>
    rw [was] at hfits
    cases hfits with
    | refreshing left =>
      simp only [LoopRecord.put, EventLoop.on, was]
      exact .listening ⟨rfl, .nothing, rfl⟩ left
  | stallLooking feed _ was =>
    rw [was] at hfits
    cases hfits with
    | refreshing left =>
      simp only [LoopRecord.put, EventLoop.on, was]
      exact .stalledLooking left
  | receive feed rest event was pulled =>
    rw [was] at hfits
    cases hfits with
    | listening heard left =>
      simp only [LoopRecord.put, EventLoop.on, was]
      exact .handling
        ⟨heard.looked, .next f.engine heard.yields pulled, by rw [heard.handedOn]⟩ left
  | lose feed was =>
    rw [was] at hfits
    cases hfits with
    | listening heard left =>
      simp only [LoopRecord.put, EventLoop.on, was]
      exact .backingOff (left.cons heard)
  | dispatch feed event _ was =>
    rw [was] at hfits
    cases hfits with
    | handling holds left =>
      simp only [LoopRecord.put, EventLoop.on, was]
      exact .listening ⟨holds.looked, holds.yields, holds.held.symm⟩ left
  | stallDispatching feed event _ was =>
    rw [was] at hfits
    cases hfits with
    | handling holds left =>
      simp only [LoopRecord.put, EventLoop.on, was]
      exact .stalledHandling holds left
  | rest due was =>
    rw [was] at hfits
    cases hfits with
    | backingOff left =>
      simp only [LoopRecord.put, EventLoop.on, was]
      exact .subscribing left
  | stop was cancelled =>
    rcases was with was | ⟨feed, was⟩ | ⟨due, was⟩
    all_goals
      rw [was] at hfits
      simp only [LoopRecord.put, EventLoop.on, was, cancelled, if_true]
    · cases hfits with
      | subscribing left => exact .stopped left
    · cases hfits with
      | listening heard left => exact .stopped (left.cons heard)
    · cases hfits with
      | backingOff left => exact .stopped left

/-! ### The delays of a loop -/

/-- The loop neither waits nor has returned. -/
def EventPhase.isUnderWay : EventPhase → Bool
  | .backingOff _ | .stopped => false
  | _ => true

/-- Every delay is as long as it has to be, and so will the next one be. -/
structure Paced (l : EventLoop) (delays : List Nat) : Prop where
  past : ∀ (i d : Nat), delays[i]? = some d → d = delayAfter i
  next : l.phase.isUnderWay = true → l.delay = delayAfter delays.length
  current : ∀ due, l.phase = .backingOff due →
    ∃ n, delays.length = n + 1 ∧ l.delay = delayAfter n

theorem Paced.moveTo (hpaced : Paced l delays) (hwas : l.phase.isUnderWay = true)
    {phase : EventPhase} (hphase : phase.isUnderWay = true) :
    Paced { l with phase } delays where
  past := hpaced.past
  next _ := hpaced.next hwas
  current due hdue := by
    change phase = _ at hdue
    rw [hdue] at hphase
    cases hphase

theorem Paced.backOff (hpaced : Paced l delays) (hwas : l.phase.isUnderWay = true) (now : Nat) :
    Paced (l.backOff now) (delays ++ [l.delay]) where
  past i d hd := by
    rcases Nat.lt_trichotomy i delays.length with hlt | rfl | hgt
    · rw [List.getElem?_append_left hlt] at hd
      exact hpaced.past i d hd
    · rw [List.getElem?_concat_length] at hd
      cases hd
      exact hpaced.next hwas
    · rw [List.getElem?_eq_none (by rw [List.length_append]; exact hgt)] at hd
      cases hd
  next hnot := by cases hnot
  current due _ := ⟨delays.length, List.length_append, hpaced.next hwas⟩

theorem Paced.restart (phase : EventPhase) (hphase : phase.isUnderWay = true) :
    Paced { l with phase, delay := firstDelay } [] where
  past _ _ hd := by cases hd
  next _ := rfl
  current due hdue := by
    change phase = _ at hdue
    rw [hdue] at hphase
    cases hphase

/-- The delays are as they have to be whatever the loop does next. -/
theorem Paced.turn (hpaced : Paced l delays) (hturn : f.LoopTurn l e after)
    (streams : List StreamRecord) (now : Nat) :
    Paced (l.on now e) (LoopRecord.put { streams, delays } now l e).delays := by
  have hdelay : now + l.delay - now = l.delay := Nat.add_sub_cancel_left now l.delay
  cases hturn with
  | subscribe was =>
    cases f.engine.subscribe.1 with
    | ok feed =>
      simp only [LoopRecord.put, EventLoop.on, was]
      exact hpaced.moveTo (by rw [was]; rfl) rfl
    | error fault =>
      simp only [LoopRecord.put, LoopRecord.addDelay, EventLoop.on, was]
      simp only [EventLoop.wake?, EventLoop.backOff, Option.map_some, Option.toList_some, hdelay]
      exact hpaced.backOff (by rw [was]; rfl) now
  | lookAtAll _ _ was | stallLooking _ _ was | dispatch _ _ _ was | stallDispatching _ _ _ was =>
    simp only [LoopRecord.put, EventLoop.on, was]
    exact hpaced.moveTo (by rw [was]; rfl) rfl
  | receive _ _ _ was =>
    simp only [LoopRecord.put, EventLoop.on, was]
    exact .restart _ rfl
  | lose _ was =>
    simp only [LoopRecord.put, LoopRecord.addDelay, EventLoop.on, was]
    simp only [EventLoop.wake?, EventLoop.backOff, Option.map_some, Option.toList_some, hdelay]
    exact hpaced.backOff (by rw [was]; rfl) now
  | rest due was =>
    obtain ⟨n, hlength, hcurrent⟩ := hpaced.current due was
    simp only [LoopRecord.put, EventLoop.on, was]
    constructor
    · exact hpaced.past
    · intro _
      simp only [hlength, delayAfter_succ, hcurrent]
    · intro _ hdue
      cases hdue
  | stop was cancelled =>
    have hstopped : l.on now .noticedCancel = { l with phase := .stopped } := by
      rcases was with was | ⟨feed, was⟩ | ⟨due, was⟩ <;>
        simp only [EventLoop.on, was, cancelled, if_true]
    rw [hstopped]
    constructor
    · exact hpaced.past
    · intro hnot
      cases hnot
    · intro _ hdue
      cases hdue

/-! ### What the loop has to do next -/

/-- There is one thing that the loop of a fleet does next, and nothing else happens to it before but
that it is cancelled. -/
def Fleet.DoesNext (f g : Fleet) : Prop :=
  f.stepLoop? = some g ∧ ∀ e h, f.Happens (some e) h → e = .cancel ∨ h = g

theorem Fleet.doesNext_of_next (hloop : f.eventLoop = some l)
    (hnext : ∀ seesCancel,
      f.nextLoopEvent? { l with isCancelled := seesCancel } = some (e, after)) :
    f.DoesNext { after with eventLoop := some (l.on after.now e) } := by
  refine ⟨stepLoop?_eq hloop (hnext l.isCancelled), ?_⟩
  intro e' h happens
  cases happens with
  | loop seesCancel hloop' hsees hnext' =>
    cases Option.some.inj (hloop'.symm.trans hloop)
    rw [hnext seesCancel] at hnext'
    cases hnext'
    exact Or.inr rfl
  | cancel => exact Or.inl rfl

theorem Fleet.doesNext_of_refreshing {feed : Feed EngineEvent} (hloop : f.eventLoop = some l)
    (hphase : l.phase = .refreshing feed) :
    ∃ eventLoop, f.DoesNext { f.refreshAll.2 with eventLoop } :=
  ⟨_, doesNext_of_next hloop fun _ => nextLoopEvent?_of_refreshing hphase⟩

theorem Fleet.doesNext_of_handling {feed : Feed EngineEvent} {event : EngineEvent}
    (hloop : f.eventLoop = some l) (hphase : l.phase = .handling feed event) :
    ∃ eventLoop, f.DoesNext { (f.dispatch event).2 with eventLoop } :=
  ⟨_, doesNext_of_next hloop fun _ => nextLoopEvent?_of_handling hphase⟩

theorem Fleet.nextLoopEvent?_of_rested {due : Nat} (hphase : l.phase = .backingOff due)
    (hkept : l.isCancelled = false) (hdue : due ≤ f.now) :
    f.nextLoopEvent? l = some (.rested, f) := by
  simp only [nextLoopEvent?, hphase, hkept, hdue, Bool.false_eq_true, if_false, if_true]

/-! ### Every run -/

/-- The record of a loop fits its phase and its delay. -/
structure RecordedLoop.IsKept (r : RecordedLoop) (l : EventLoop) : Prop where
  loop : r.fleet.eventLoop = some l
  fits : Fits r.record.streams l.phase
  paced : Paced l r.record.delays

theorem RecordedLoop.IsKept.step {r r' : RecordedLoop} (hkept : r.IsKept l)
    (hstep : RecordedLoop.Step r r') : ∃ l', r'.IsKept l' := by
  cases hstep with
  | loop record hloop happens =>
    cases Option.some.inj (hkept.loop.symm.trans hloop)
    rcases happens.turn hloop with ⟨rfl, rfl⟩ | ⟨after, hturn, rfl⟩
    · exact ⟨_, rfl, hkept.fits, hkept.paced.past, hkept.paced.next, hkept.paced.current⟩
    · exact ⟨_, rfl, hkept.fits.turn hturn _ _, hkept.paced.turn hturn _ _⟩
  | others record happens =>
    cases happens with
    | others hsame => exact ⟨l, hsame.trans hkept.loop, hkept.fits, hkept.paced⟩

/-- What a loop does by itself is recorded. -/
theorem RecordedLoop.Step.of_next {r r' : RecordedLoop} (hloop : r.fleet.eventLoop = some l)
    (hnext : r.fleet.nextLoopEvent? l = some (e, after))
    (hfleet : r'.fleet = { after with eventLoop := some (l.on after.now e) })
    (hrecord : r'.record = r.record.put after.now l e) : Step r r' := by
  cases r'
  cases hfleet
  cases hrecord
  exact .loop r.record hloop (.loop l.isCancelled hloop id hnext)

theorem isKept_run {f : Fleet} {r : RecordedLoop}
    (hrun : Relation.ReflTransGen RecordedLoop.Step { fleet := f.startEventLoop } r) :
    ∃ l, r.IsKept l := by
  induction hrun with
  | refl =>
    refine ⟨{}, rfl, ?_, ?_⟩
    · exact .subscribing fun s hs => absurd hs List.not_mem_nil
    · exact Paced.restart (l := {}) .subscribing rfl
  | tail _ hstep ih =>
    obtain ⟨l, hkept⟩ := ih
    exact hkept.step hstep

/-- A loop, in a fleet, that keeps to its schedule. -/
structure IsScheduled (f : Fleet) (l : EventLoop) (r : LoopRecord) : Prop where
  /-- All containers were looked at once since a stream was opened; before that is done, nothing is
  taken from the stream. -/
  looked : ∀ s ∈ r.streams, s.looks = 1 ∨
    s.looks = 0 ∧ s.received = [] ∧ (l.phase = .refreshing s.feed ∨ l.phase = .stalled)
  /-- What is taken from a stream is what it yields, in order. -/
  inOrder : ∀ s ∈ r.streams, ∃ rest, s.feed.Yields s.received rest
  stored : ∀ s ∈ r.streams, s.feed.IsStored → s.received.map .ok <+: s.feed.items
  /-- Every event that was taken was handed on once and in order, but for one that is in hand. -/
  handedOn : ∀ s ∈ r.streams, s.dispatched = s.received ∨
    ∃ event, s.received = s.dispatched ++ [event] ∧
      ((∃ rest, l.phase = .handling rest event) ∨ l.phase = .stalled)
  /-- Every delay since the last event doubles the one before, up to the longest. -/
  delays : ∀ (i d : Nat), r.delays[i]? = some d → d = 1000 * min (2 ^ i) 30
  bounded : ∀ d ∈ r.delays, firstDelay ≤ d ∧ d ≤ longestDelay
  /-- A loop with a new stream looks at every container next. -/
  refreshes : ∀ feed, l.phase = .refreshing feed →
    ∃ eventLoop, f.DoesNext { f.refreshAll.2 with eventLoop }
  /-- A loop with an event in hand hands it on next. -/
  dispatches : ∀ rest event, l.phase = .handling rest event →
    ∃ eventLoop, f.DoesNext { (f.dispatch event).2 with eventLoop }
  /-- A loop that waits for a new subscription goes on when the delay is over, and before that only
  if it is cancelled. -/
  rests : ∀ due, l.phase = .backingOff due → ∀ e g, f.Happens (some e) g →
    due ≤ f.now ∨ e = .cancel ∨ l.isCancelled = true
  /-- Nothing but a delay, a silent stream or a look that is not answered keeps a loop from going on
  until it has returned. -/
  goesOn : f.stepLoop? = none → f.StandsStill l

/-- How far the loop has come with a stream. -/
inductive StreamRecord.Stage (s : StreamRecord) (phase : EventPhase) : Prop where
  | opened (looking : phase = .refreshing s.feed ∨ phase = .stalled)
      (untouched : s = { feed := s.feed })
  | heard (rest : Feed EngineEvent) (heard : s.IsHeard rest)
  | holding (event : EngineEvent) (rest : Feed EngineEvent)
      (handling : phase = .handling rest event ∨ phase = .stalled) (holds : s.Holds event rest)

theorem Fits.stage {phase : EventPhase} (hfits : Fits streams phase) {s : StreamRecord}
    (hs : s ∈ streams) : s.Stage phase := by
  have hpast : ∀ past, AreLeft past → s ∈ past → s.Stage phase := by
    intro past hleft hmem
    obtain ⟨rest, hheard⟩ := hleft s hmem
    exact .heard rest hheard
  cases hfits with
  | subscribing left | backingOff left | stopped left => exact hpast _ left hs
  | refreshing left =>
    rcases List.mem_cons.mp hs with rfl | hmem
    · exact .opened (Or.inl rfl) rfl
    · exact hpast _ left hmem
  | listening heard left =>
    rcases List.mem_cons.mp hs with rfl | hmem
    · exact .heard _ heard
    · exact hpast _ left hmem
  | handling holds left =>
    rcases List.mem_cons.mp hs with rfl | hmem
    · exact .holding _ _ (Or.inl rfl) holds
    · exact hpast _ left hmem
  | stalledLooking left =>
    rcases List.mem_cons.mp hs with rfl | hmem
    · exact .opened (Or.inr rfl) rfl
    · exact hpast _ left hmem
  | stalledHandling holds left =>
    rcases List.mem_cons.mp hs with rfl | hmem
    · exact .holding _ _ (Or.inr rfl) holds
    · exact hpast _ left hmem

/-- Whatever happens, the loop keeps to its schedule. -/
theorem run_isScheduled {f : Fleet} {r : RecordedLoop}
    (hrun : Relation.ReflTransGen RecordedLoop.Step { fleet := f.startEventLoop } r) :
    ∃ l, r.fleet.eventLoop = some l ∧ IsScheduled r.fleet l r.record := by
  obtain ⟨l, hloop, hfits, hpaced⟩ := isKept_run hrun
  have hyields : ∀ s ∈ r.record.streams, ∃ rest, s.feed.Yields s.received rest := by
    intro s hs
    cases hfits.stage hs with
    | opened _ untouched =>
      rw [untouched]
      exact ⟨s.feed, .nothing⟩
    | heard rest heard => exact ⟨rest, heard.yields⟩
    | holding _ rest _ holds => exact ⟨rest, holds.yields⟩
  refine ⟨l, hloop, ?_⟩
  constructor
  · intro s hs
    cases hfits.stage hs with
    | opened looking untouched =>
      refine Or.inr ⟨?_, ?_, looking⟩ <;> rw [untouched]
    | heard _ heard => exact Or.inl heard.looked
    | holding _ _ _ holds => exact Or.inl holds.looked
  · exact hyields
  · intro s hs hstored
    obtain ⟨rest, hrest⟩ := hyields s hs
    rw [(hrest.stored hstored).1]
    exact List.prefix_append _ _
  · intro s hs
    cases hfits.stage hs with
    | opened _ untouched =>
      apply Or.inl
      rw [untouched]
    | heard _ heard => exact Or.inl heard.handedOn
    | holding event rest handling holds =>
      exact Or.inr ⟨event, holds.held, handling.imp_left fun hphase => ⟨rest, hphase⟩⟩
  · exact hpaced.past
  · intro d hd
    obtain ⟨i, hi⟩ := List.mem_iff_getElem?.mp hd
    rw [hpaced.past i d hi]
    exact delayAfter_bounds i
  · intro feed hphase
    exact Fleet.doesNext_of_refreshing hloop hphase
  · intro rest event hphase
    exact Fleet.doesNext_of_handling hloop hphase
  · intro due hphase e g happens
    rcases happens.turn hloop with ⟨hcancel, _⟩ | ⟨after, hturn, _⟩
    · exact Or.inr (Or.inl hcancel)
    · cases hturn with
      | rest due' was rested =>
        cases hphase.symm.trans was
        exact Or.inl rested
      | stop _ cancelled => exact Or.inr (Or.inr cancelled)
      | subscribe was | lookAtAll _ _ was | stallLooking _ _ was | receive _ _ _ was | lose _ was
      | dispatch _ _ _ was | stallDispatching _ _ _ was => cases hphase.symm.trans was
  · intro hnone
    exact Fleet.standsStill_of_nextLoopEvent? ((Fleet.stepLoop?_eq_none_iff hloop).mp hnone)

/-! ### A loop whose first subscription fails -/

def hiccupEvent : EngineEvent :=
  { kind := .die, containerId := "1", containerName := none }

/-- What the second subscription yields: an event, and then the stream fails. -/
def hiccupFeed : Feed EngineEvent :=
  { items := [.ok hiccupEvent, .error (.engine "events" "connection reset")], rest := .over }

/-- What is left of it after the event. -/
def hiccupRest : Feed EngineEvent :=
  { hiccupFeed with items := hiccupFeed.items.drop 1 }

/-- A fleet some time after its loop was started, which has subscribed and looked so often. -/
def hiccupFleet (now subscriptions looks : Nat) (l : EventLoop) : Fleet :=
  { now
    engine := .script
      { wall := default, inspects := looks, eventSubscriptions := subscriptions
        eventReplies :=
          [.error (.engine "daemon hiccup"),
            .ok ([hiccupEvent], .failing (.engine "connection reset"))].drop subscriptions }
    handles := [{ name := "testnet_xud_1" }]
    services :=
      [{ descriptor :=
           { name := "xud", container := "testnet_xud_1", kind := .xud, rpc := { host := "xud" } }
         handle := 0 }]
    eventLoop := some l }

/-- The fleet before its second subscription. -/
def hiccupBefore (now subscriptions : Nat) (l : EventLoop) : RecordedLoop :=
  { fleet := hiccupFleet now subscriptions 0 l, record := { delays := [1000] } }

/-- The fleet after it. -/
def hiccupAfter (looks : Nat) (l : EventLoop) (received dispatched : List EngineEvent)
    (delays : List Nat) : RecordedLoop :=
  { fleet := hiccupFleet 1000 2 looks l
    record := { streams := [{ feed := hiccupFeed, looks, received, dispatched }], delays } }

def hiccupOver : RecordedLoop :=
  hiccupAfter 1 { phase := .backingOff 2000 } [hiccupEvent] [hiccupEvent] [1000]

/-- The loop waits, subscribes again, hears of an event, and waits anew. -/
theorem hiccup_run : Relation.ReflTransGen RecordedLoop.Step
    { fleet := (hiccupFleet 0 0 0 {}).startEventLoop } hiccupOver := by
  have hfailed : RecordedLoop.Step { fleet := (hiccupFleet 0 0 0 {}).startEventLoop }
      (hiccupBefore 0 1 { phase := .backingOff 1000 }) := .of_next rfl rfl rfl rfl
  have hwaited : (hiccupBefore 0 1 { phase := .backingOff 1000 }).Step
      (hiccupBefore 1000 1 { phase := .backingOff 1000 }) := .others _ (.others rfl)
  have hrested : (hiccupBefore 1000 1 { phase := .backingOff 1000 }).Step
      (hiccupBefore 1000 1 { delay := 2000 }) :=
    .of_next rfl (Fleet.nextLoopEvent?_of_rested rfl rfl (Nat.le_refl 1000)) rfl rfl
  have hopened : (hiccupBefore 1000 1 { delay := 2000 }).Step
      (hiccupAfter 0 { phase := .refreshing hiccupFeed, delay := 2000 } [] [] [1000]) :=
    .of_next rfl rfl rfl rfl
  have hlooked :
      (hiccupAfter 0 { phase := .refreshing hiccupFeed, delay := 2000 } [] [] [1000]).Step
        (hiccupAfter 1 { phase := .listening hiccupFeed, delay := 2000 } [] [] [1000]) :=
    .of_next rfl rfl rfl rfl
  have htaken :
      (hiccupAfter 1 { phase := .listening hiccupFeed, delay := 2000 } [] [] [1000]).Step
        (hiccupAfter 1 { phase := .handling hiccupRest hiccupEvent } [hiccupEvent] [] []) :=
    .of_next rfl rfl rfl rfl
  have hhanded :
      (hiccupAfter 1 { phase := .handling hiccupRest hiccupEvent } [hiccupEvent] [] []).Step
        (hiccupAfter 1 { phase := .listening hiccupRest } [hiccupEvent] [hiccupEvent] []) :=
    .of_next rfl rfl rfl rfl
  have hlost :
      (hiccupAfter 1 { phase := .listening hiccupRest } [hiccupEvent] [hiccupEvent] []).Step
        hiccupOver :=
    .of_next rfl rfl rfl rfl
  exact (((((((Relation.ReflTransGen.single hfailed).tail hwaited).tail hrested).tail hopened).tail
    hlooked).tail htaken).tail hhanded).tail hlost

theorem hiccup_isScheduled :
    Relation.ReflTransGen RecordedLoop.Step
      { fleet := (hiccupFleet 0 0 0 {}).startEventLoop } hiccupOver ∧
    ∃ l, hiccupOver.fleet.eventLoop = some l ∧
      IsScheduled hiccupOver.fleet l hiccupOver.record :=
  ⟨hiccup_run, run_isScheduled hiccup_run⟩

end FleetWatch
