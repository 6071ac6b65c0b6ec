import Intake.Error
import Intake.Keyed

/-!
# Files and directories

A disk is a tree of directories with files in them. A place on it is the list of names that leads to
it from the root; `nodes` holds what stands at each place but the root, which is always a directory.

A path is a text of names between slashes, read from the root. `.` and `..` are names with their
usual meaning. Going along a path needs a directory at every step but the last, and a name has at
most 255 octets. Operations run in `DiskM`: one that fails leaves what it did so far.
-/

namespace Intake

-- one equality of octets, whatever is imported beside
attribute [local instance (high)] ByteArray.instDecidableEq

/-- What stands at a place. -/
inductive Node where
  | directory
  | file (content : ByteArray)
deriving DecidableEq

/-- The names that lead to a place from the root. -/
abbrev Place := List String

/-- A tree of directories and files. -/
structure Disk where
  nodes : Keyed Node := .empty

/-- Work on a disk, which may meet a fault. -/
abbrev DiskM := ExceptT IoFault (StateM Disk)

namespace Disk

/-! ## Places -/

/-- The text that stands for a place among the nodes. No name holds a slash, so each place has its
own. -/
def placeKey (at_ : Place) : String := String.join (at_.map ("/" ++ ·))

/-- What stands at a place. -/
def node? (d : Disk) : Place → Option Node
  | [] => some .directory
  | at_ => d.nodes.get? (placeKey at_)

/-- The disk with something put at a place. -/
def put (d : Disk) (at_ : Place) (n : Node) : Disk := ⟨d.nodes.insert (placeKey at_) n⟩

/-- The disk without a place and all that is below it. -/
def remove (d : Disk) (at_ : Place) : Disk :=
  let key := placeKey at_
  ⟨d.nodes.keys.foldl
    (fun m k => if k = key ∨ (key ++ "/").isPrefixOf k then m.erase k else m) d.nodes⟩

/-- The names in a directory, in ascending order. -/
def namesIn (d : Disk) (at_ : Place) : List String :=
  let start := placeKey at_ ++ "/"
  d.nodes.keys.filterMap fun k =>
    if start.isPrefixOf k then
      let name := String.ofList (k.toList.drop start.length)
      if name.contains '/' then none else some name
    else none

/-! ## Paths -/

/-- The names between the slashes of a path. -/
def segments (path : String) : List String :=
  ((path.toList.splitOn '/').map String.ofList).filter (· ≠ "")

/-- The names of a path. -/
def namesOf (path : String) : Except IoFault (List String) :=
  if path.toList.contains (Char.ofNat 0) then .error .nulInName
  else if 4096 ≤ path.utf8ByteSize then .error .nameTooLong
  else .ok (segments path)

/-- Whether a path begins with a slash. -/
def startsAtRoot (path : String) : Bool := path.toList.head? == some '/'

/-- Whether a path ends in a slash. -/
def endsInSlash (path : String) : Bool := path.toList.getLast? == some '/'

/-- A path below another one; a path that starts at the root stays what it is. -/
def join (base path : String) : String :=
  if startsAtRoot path || base.isEmpty then path
  else if endsInSlash base then base ++ path
  else base ++ "/" ++ path

/-- The place that names lead to from a place where something stands. -/
def walk (d : Disk) (at_ : Place) : List String → Except IoFault Place
  | [] => .ok at_
  | name :: names =>
    match d.node? at_ with
    | none => .error .noSuchFile
    | some (.file _) => .error .notADirectory
    | some .directory =>
      if name = "." then d.walk at_ names
      else if name = ".." then d.walk at_.dropLast names
      else if 255 < name.utf8ByteSize then .error .nameTooLong
      -- what stands there may be a file, which is a fault only if the names go on
      else if (d.node? (at_ ++ [name])).isNone then .error .noSuchFile
      else d.walk (at_ ++ [name]) names

/-- The directory in which the last of some names stands, and that name; `none` if the last name is
not one of its own. -/
def parentOf (d : Disk) (names : List String) : Except IoFault (Option (Place × String)) :=
  match d.walk [] names.dropLast with
  | .error fault => .error fault
  | .ok outer =>
    if d.node? outer = some .directory then
      match names.getLast? with
      | none => .ok none
      | some name =>
        if name = "." ∨ name = ".." then .ok none
        else if 255 < name.utf8ByteSize then .error .nameTooLong
        else .ok (some (outer, name))
    else .error .notADirectory

/-- What a path leads to. A path that ends in a slash leads to nothing but a directory. -/
def stat (d : Disk) (path : String) : Except IoFault (Place × Node) := do
  if path.isEmpty then throw .noSuchFile
  let names ← namesOf path
  let at_ ← d.walk [] (if endsInSlash path then names ++ ["."] else names)
  match d.node? at_ with
  | some n => return (at_, n)
  | none => throw .noSuchFile

/-- Whether a path leads to a file. -/
def isFile (d : Disk) (path : String) : Bool :=
  match d.stat path with
  | .ok (_, .file _) => true
  | _ => false

/-- Whether a path leads to a directory. -/
def isDirectory (d : Disk) (path : String) : Bool :=
  match d.stat path with
  | .ok (_, .directory) => true
  | _ => false

/-! ## Directories -/

/-- Makes one directory in one that is there. -/
def makeDirectoryAt (names : List String) : DiskM Unit := do
  let d ← get
  match ← d.parentOf names with
  | none => throw .fileExists
  | some (outer, name) =>
    let here := outer ++ [name]
    if (d.node? here).isSome then throw .fileExists else set (d.put here .directory)

/-- Makes the directory at a path in one that is there. -/
def makeDirectory (path : String) : DiskM Unit := do
  if path.isEmpty then throw .noSuchFile
  makeDirectoryAt (← namesOf path)

/-- Whether names lead to a directory. -/
def isDirectoryAt (d : Disk) (names : List String) : Bool :=
  match d.walk [] names with
  | .ok at_ => d.node? at_ = some .directory
  | .error _ => false

/-- Makes a directory, and if it cannot be made for want of the one around it, makes that one
first by `outer`. A directory that is there already is no fault. -/
def makeWithin (names : List String) (outer : DiskM Unit) : DiskM Unit := do
  let unlessThere (fault : IoFault) : DiskM Unit := do
    if (← get).isDirectoryAt names then pure () else throw fault
  tryCatch (makeDirectoryAt names) fun
    | .noSuchFile => do
      outer
      tryCatch (makeDirectoryAt names) unlessThere
    | fault => unlessThere fault

/-- Makes the directories of a list of names that is given backwards, the outermost first. -/
def makeAllBackwards : List String → DiskM Unit
  | [] => pure ()
  | name :: outer => makeWithin (name :: outer).reverse (makeAllBackwards outer)

/-- Makes the directory at a path and those around it as far as they are not there. -/
def makeDirectories (path : String) : DiskM Unit := do
  if path.isEmpty then return
  let names ← namesOf path
  makeWithin names (makeAllBackwards (names.filter (· ≠ ".")).reverse.tail)

/-- The names in the directory at a path, in ascending order. -/
def list (path : String) : DiskM (List String) := do
  let d ← get
  match ← d.stat path with
  | (at_, .directory) => return d.namesIn at_
  | (_, .file _) => throw .notADirectory

/-! ## Files -/

/-- The content of the file at a path. -/
def content (path : String) : DiskM ByteArray := do
  match ← (← get).stat path with
  | (_, .file content) => return content
  | (_, .directory) => throw .isADirectory

/-- Writes a file at a path, over what it held. -/
def overwrite (path : String) (content : ByteArray) : DiskM Unit := do
  if path.isEmpty then throw .noSuchFile
  let d ← get
  match ← d.parentOf (← namesOf path) with
  | none => throw .isADirectory
  | some (outer, name) =>
    let here := outer ++ [name]
    if d.node? here = some .directory then throw .isADirectory else set (d.put here (.file content))

/-- Adds to the end of the file at a path. -/
def extend (path : String) (content : ByteArray) : DiskM Unit := do
  let d ← get
  match ← d.stat path with
  | (at_, .file old) => set (d.put at_ (.file (old ++ content)))
  | (_, .directory) => throw .isADirectory

/-- Removes what is at a path, if anything is. -/
def removePath (path : String) : DiskM Unit := do
  let d ← get
  let (at_, _) ← d.stat path
  set (d.remove at_)

end Disk

end Intake
