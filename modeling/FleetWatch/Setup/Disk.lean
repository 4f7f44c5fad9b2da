import FleetWatch.Error
/-!
What stands at the path of a log that is written by others.

A file keeps its identity and its contents when it is renamed away or removed; whoever has it open
goes on reading it.  A file created in its place has an identity of its own.
-/

namespace FleetWatch

/-- What a path names. -/
inductive Place where
  | absent
  | directory
  | file (id : Nat)
deriving Repr, DecidableEq, Inhabited

/-- The path and every file that ever stood there. -/
structure Disk where
  place : Place := .absent
  files : List (Nat × List UInt8) := []
  nextId : Nat := 0
deriving Repr, DecidableEq, Inhabited

namespace Disk

def contents (d : Disk) (id : Nat) : List UInt8 :=
  ((d.files.find? fun f => f.1 == id).map Prod.snd).getD []

/-- The contents of the file at the path, or why there are none. -/
def read (d : Disk) : Except FileFault (List UInt8) :=
  match d.place with
  | .absent => .error .notFound
  | .directory => .error .isDirectory
  | .file id => .ok (d.contents id)

/-- Puts a new file at the path. -/
def create (d : Disk) (bytes : List UInt8) : Disk :=
  { place := .file d.nextId
    files := (d.nextId, bytes) :: d.files
    nextId := d.nextId + 1 }

/-- Gives a file other contents. -/
def setContents (d : Disk) (id : Nat) (bytes : List UInt8) : Disk :=
  { d with files := (id, bytes) :: d.files.filter fun f => f.1 != id }

/-- Replaces the contents of the file in place. -/
def write (d : Disk) (bytes : List UInt8) : Disk :=
  match d.place with
  | .absent => d.create bytes
  | .directory => d
  | .file id => d.setContents id bytes

def append (d : Disk) (bytes : List UInt8) : Disk :=
  match d.place with
  | .absent => d.create bytes
  | .directory => d
  | .file id => d.setContents id (d.contents id ++ bytes)

def remove (d : Disk) : Disk :=
  match d.place with
  | .file _ => { d with place := .absent }
  | _ => d

/-- Renames the file away and puts a new one in its place. -/
def rotate (d : Disk) (bytes : List UInt8) : Disk :=
  d.remove.create bytes

/-- Makes a directory at a path that names nothing. -/
def makeDirectory (d : Disk) : Disk :=
  match d.place with
  | .absent => { d with place := .directory }
  | _ => d

def removeDirectory (d : Disk) : Disk :=
  match d.place with
  | .directory => { d with place := .absent }
  | _ => d

end Disk

end FleetWatch
