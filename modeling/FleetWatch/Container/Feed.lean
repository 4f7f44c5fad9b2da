import FleetWatch.Container.State
import FleetWatch.Error
/-!
Answers of the container engine that take their time.

An engine may never answer a question.  A stream that it opens first yields the items that were
there and then ends, stays open in silence, or goes on with what is added later; an error among the
items is an item.
-/

namespace FleetWatch

/-- What becomes of a question to the engine. -/
inductive Reply (α : Type) where
  | answer (result : Except ContainerError α)
  | never
deriving Inhabited

/-- What follows the items of a stream that were there when it was opened.  `live` names what is
added to, and how much of it the stream has passed. -/
inductive FeedRest where
  | over
  | silent
  | live (source position : Nat)
deriving Repr, DecidableEq, Inhabited

structure Feed (α : Type) where
  items : List (Except ContainerError α)
  rest : FeedRest
deriving Inhabited

/-- What asking a stream for an item gives. -/
inductive Pull (α : Type) where
  | item (a : α)
  | pending
  | over
deriving Repr, DecidableEq, Inhabited

/-- The item of a growing list at a position, with the position after it.  Of the items not passed
yet only the last `capacity` can still be had. -/
def pullLive {α : Type} (capacity : Nat) (items : List α) (position : Nat) : Option (α × Nat) :=
  let position := max position (items.length - capacity)
  items[position]?.map fun a => (a, position + 1)

/-- Asks a stream for an item; `live` gives the items of a source and whether it is over. -/
def Feed.pull {α : Type} (f : Feed α)
    (live : Nat → Nat → Option (Except ContainerError α × Nat) × Bool) :
    Pull (Except ContainerError α) × Feed α :=
  match f.items with
  | a :: rest => (.item a, { f with items := rest })
  | [] =>
    match f.rest with
    | .over => (.over, f)
    | .silent => (.pending, f)
    | .live source position =>
      match live source position with
      | (some (a, next), _) => (.item a, { f with rest := .live source next })
      | (none, isOver) => (if isOver then .over else .pending, f)

/-- A stream that nothing is added to gives the items that it has left. -/
theorem Feed.items_of_pull {α : Type} {f rest : Feed α} {item : Except ContainerError α}
    {live : Nat → Nat → Option (Except ContainerError α × Nat) × Bool}
    (hrest : ∀ source position, f.rest ≠ .live source position)
    (h : f.pull live = (.item item, rest)) : f.items = item :: rest.items ∧ rest.rest = f.rest := by
  unfold pull at h
  split at h
  · next hitems =>
    cases h
    exact ⟨hitems, rfl⟩
  · split at h
    · cases h
    · cases h
    · next hlive => exact absurd hlive (hrest _ _)

/-- Such a stream has nothing to give just if no item is left. -/
theorem Feed.items_eq_nil_of_pull {α : Type} {f rest : Feed α}
    {live : Nat → Nat → Option (Except ContainerError α × Nat) × Bool}
    {pull : Pull (Except ContainerError α)} (hnone : ∀ item, pull ≠ .item item)
    (h : f.pull live = (pull, rest)) : f.items = [] := by
  unfold Feed.pull at h
  split at h
  · cases h
    exact absurd rfl (hnone _)
  · assumption

/-- The items of a stream that does not go on. -/
def Feed.collect {α : Type} (f : Feed α) : Except ContainerError (List α) :=
  f.items.mapM id

/-- The streams of an attached command: what it prints, and whether it reads what is written to
it. -/
structure Attachment where
  execId : String
  output : Feed (List UInt8)
  /-- What is written comes back as output. -/
  echoes : Bool
  inputClosed : Bool
deriving Inhabited

end FleetWatch
