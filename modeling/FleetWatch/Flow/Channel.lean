/-!
Channels with room for a fixed number of items.

A sender waits while a channel is full; a reader takes what is there.  An uninterrupted reading
takes at most `readBurst` items, so that no reader keeps the others from running; what is left is
there for the next reading.
-/

namespace FleetWatch

/-- How many items one uninterrupted reading takes. -/
def readBurst : Nat := 127

/-- What a reading gives: the items, and whether the stream was found to be over. -/
structure Batch (α : Type) where
  items : List α
  hasEnded : Bool
deriving Repr, DecidableEq, Inhabited

structure Channel (α : Type) where
  capacity : Nat
  items : List α := []
  /-- No more items will be sent. -/
  senderGone : Bool := false
  /-- Nobody will read any more. -/
  readerGone : Bool := false
deriving Repr, DecidableEq, Inhabited

namespace Channel

variable {α : Type}

/-- Whether an item can be sent without waiting. -/
def hasRoom (c : Channel α) : Bool :=
  c.items.length < c.capacity

/-- The channel with one more item. -/
def send (c : Channel α) (item : α) : Channel α :=
  { c with items := c.items ++ [item] }

def finish (c : Channel α) : Channel α :=
  { c with senderGone := true }

def drop (c : Channel α) : Channel α :=
  { c with readerGone := true }

/-- Takes what is there, up to `burst` items.  The end is seen only by a reading that is not cut
short. -/
def read (c : Channel α) (burst : Nat) : Batch α × Channel α :=
  ({ items := c.items.take burst, hasEnded := c.items.length < burst && c.senderGone },
   { c with items := c.items.drop burst })

end Channel

end FleetWatch
