import FleetWatch.Container.Engine
/-!
A handle on one container: what was last seen of it, and waiting for it.

The snapshot is what the last conclusive look showed.  A look that finds no container forgets the
snapshot; a look that fails in any other way leaves it alone.  Whoever waits for the container
notices every new snapshot and looks for itself every `observeInterval`.

Times are in milliseconds.
-/

namespace FleetWatch

/-- How often a waiter looks for itself. -/
def observeInterval : Nat := 3000

structure Handle where
  name : String
  snapshot : Option Snapshot := none
  /-- How often the snapshot was replaced or forgotten. -/
  version : Nat := 0
  /-- Everything that works on behalf of the handle is to stop. -/
  isCancelled : Bool := false
deriving Repr, DecidableEq, Inhabited

namespace Handle

def clear (h : Handle) : Handle :=
  match h.snapshot with
  | some _ => { h with snapshot := none, version := h.version + 1 }
  | none => h

/-- Takes in what an inspection showed. -/
def observe (h : Handle) :
    Except ContainerError Snapshot → Except ContainerError (Option Snapshot) × Handle
  | .ok s => (.ok (some s), { h with snapshot := some s, version := h.version + 1 })
  | .error e => if e.isNotFound then (.ok none, h.clear) else (.error e, h)

def stateOf : Option Snapshot → LifecycleState
  | some s => s.state
  | none => .missing

/-- A variable of the container, by what a look showed. -/
def variableOf (h : Handle) (key : String) :
    Except ContainerError (Option Snapshot) → Except ContainerError (Option String)
  | .ok (some seen) => .ok (seen.getenv key)
  | .ok none => .error (.notFound h.name)
  | .error e => .error e

end Handle

/-- A handle together with the engine behind it, at a time. -/
structure Site where
  now : Nat
  engine : Engine
  handle : Handle
deriving Inhabited

namespace Site

/-- Looks at the container.  `none` if the engine never answers. -/
def refresh (s : Site) : Option (Except ContainerError (Option Snapshot)) × Site :=
  match s.engine.inspect s.handle.name with
  | (.never, engine) => (none, { s with engine })
  | (.answer r, engine) =>
    let (result, handle) := s.handle.observe r
    (some result, { s with engine, handle })

/-- The container's state by a look of its own. -/
def status (s : Site) : Option (Except ContainerError LifecycleState) × Site :=
  let (r, s) := s.refresh
  (r.map fun r => r.map Handle.stateOf, s)

/-- A variable of the container.  A look is taken only if nothing was seen yet. -/
def getenv (s : Site) (key : String) : Option (Except ContainerError (Option String)) × Site :=
  match s.handle.snapshot with
  | some known => (some (.ok (known.getenv key)), s)
  | none =>
    let (r, after) := s.refresh
    (r.map (s.handle.variableOf key), after)

def openLog (s : Site) (request : LogRequest) : Except ContainerError (Feed String) × Site :=
  let (r, engine) := s.engine.logs s.handle.name request
  (r, { s with engine })

/-- Reads the container's log once. -/
def logs (s : Site) (since : LogSince) (tail : LogTail) :
    Except ContainerError (List String) × Site :=
  let (r, s) := s.openLog { since, tail, follow := false }
  (r.bind Feed.collect, s)

def exec (s : Site) (command : List String) : Except ContainerError ExecOutput × Site :=
  let (r, engine) := s.engine.exec s.handle.name command
  (r, { s with engine })

end Site

/-! ### Waiting -/

inductive Awaited where
  | observed
  | running
deriving Repr, DecidableEq, Inhabited

/-- Whether a snapshot is what is waited for. -/
def Awaited.accepts : Awaited → Snapshot → Bool
  | .observed, _ => true
  | .running, s => s.state.isRunning

/-- A waiter: the version it saw last, and when it looks for itself.  One whose look is never
answered waits for that answer alone. -/
inductive Waiter where
  | fresh
  | waiting (seen due : Nat)
  | stuck
deriving Repr, DecidableEq, Inhabited

/-- How a waiter goes on: it is done, or it waits on. -/
inductive Waited where
  | ready (s : Snapshot)
  | cancelled
  | again (w : Waiter)
deriving Repr, DecidableEq, Inhabited

namespace Waiter

/-- Looks at the snapshot, and starts to wait if it is not what is waited for. -/
def check (want : Awaited) (s : Site) : Waited :=
  match s.handle.snapshot with
  | some seen =>
    if want.accepts seen then .ready seen
    else .again (.waiting s.handle.version (s.now + observeInterval))
  | none => .again (.waiting s.handle.version (s.now + observeInterval))

/-- The next thing that a waiter does, or `none` while nothing happens. -/
def step? (want : Awaited) (w : Waiter) (isCancelled : Bool) (s : Site) :
    Option (Waited × Site) :=
  match w with
  | .fresh => some (check want s, s)
  | .stuck => none
  | .waiting seen due =>
    if isCancelled || s.handle.isCancelled then some (.cancelled, s)
    else if s.handle.version ≠ seen then some (check want s, s)
    else if due ≤ s.now then
      match s.refresh with
      | (none, s) => some (.again .stuck, s)
      | (some _, s) => some (check want s, s)
    else none

def wake? : Waiter → Option Nat
  | .waiting _ due => some due
  | _ => none

theorem check_ready {want : Awaited} {s : Site} {seen : Snapshot}
    (h : check want s = .ready seen) :
    s.handle.snapshot = some seen ∧ want.accepts seen = true := by
  unfold check at h
  split at h
  · split at h
    · cases h
      exact ⟨‹_›, ‹_›⟩
    · cases h
  · cases h

/-- A waiter is done when the handle shows what it waits for. -/
theorem step?_ready {want : Awaited} {w : Waiter} {isCancelled : Bool} {s s' : Site}
    {seen : Snapshot} (h : w.step? want isCancelled s = some (.ready seen, s')) :
    s'.handle.snapshot = some seen ∧ want.accepts seen = true := by
  unfold step? at h
  split at h
  · simp only [Option.some.injEq, Prod.mk.injEq] at h
    obtain ⟨hready, rfl⟩ := h
    exact check_ready hready
  · cases h
  · split at h
    · simp at h
    · split at h
      · simp only [Option.some.injEq, Prod.mk.injEq] at h
        obtain ⟨hready, rfl⟩ := h
        exact check_ready hready
      · split at h
        · split at h
          · simp at h
          · simp only [Option.some.injEq, Prod.mk.injEq] at h
            obtain ⟨hready, rfl⟩ := h
            exact check_ready hready
        · cases h

end Waiter

end FleetWatch
