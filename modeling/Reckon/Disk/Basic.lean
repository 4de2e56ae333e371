/-!
# A working directory

The calculator reads its configuration, its input files and its history from the directory it
runs in, and writes configurations and history back. This module models that directory as
data: the files it holds, each under its path of components, and the directories made for them.
The directory's own absolute path is a parameter, so that paths reported in absolute form can
be built from it.

A path is walked component by component from the working directory: `.` stays, `..` goes up,
and every step must pass through a directory. The walk is what decides the error of a failed
operation, in the words the operating system uses: a missing step is `no such file or
directory`, a step through a file is `not a directory`, and reading or replacing a directory is
`is a directory`. The message names the operation and the path as it was given, as in
`open missing.yaml: no such file or directory`.
-/

namespace Reckon

/-- Why an operation on a path failed. -/
inductive Errno where
  | noEntry
  | notDirectory
  | isDirectory
  deriving DecidableEq, Repr

namespace Errno

/-- The words the operating system uses for the failure. -/
def text : Errno → String
  | .noEntry => "no such file or directory"
  | .notDirectory => "not a directory"
  | .isDirectory => "is a directory"

end Errno

/-- A working directory: its absolute path, its files under their component paths, and the
directories made inside it. -/
structure Disk where
  root : String
  files : List (List String × String)
  dirs : List (List String)
  deriving Inhabited

namespace Disk

/-! ### Paths -/

/-- The components of a path as given; empty components are dropped. -/
def components (p : String) : List String :=
  (p.splitOn "/").filter (· != "")

/-- An empty directory at `root`. -/
def empty (root : String) : Disk := ⟨root, [], []⟩

/-- What is at a component path: `some true` for a directory, `some false` for a file. -/
def kindAt (d : Disk) (parts : List String) : Option Bool :=
  if parts.isEmpty then some true
  else if d.files.any (·.1 == parts) then some false
  else if d.dirs.contains parts || d.files.any (fun f => parts.isPrefixOf f.1 && f.1 != parts) then
    some true
  else none

/-- Walks the components of a path from `here`, which is reversed. Every step must start
from a directory. -/
def walk (d : Disk) : List String → List String → Except Errno (List String)
  | here, [] => .ok here
  | here, c :: rest =>
    match d.kindAt here.reverse with
    | none => .error .noEntry
    | some false => .error .notDirectory
    | some true =>
      if c == "." then d.walk here rest
      else if c == ".." then
        match here with
        | [] => .error .noEntry
        | _ :: up => d.walk up rest
      else d.walk (c :: here) rest

/-- A path with the directory's own absolute path taken off its front. -/
def relative (d : Disk) (p : String) : String :=
  if p.startsWith (d.root ++ "/") then (p.drop (d.root.length + 1)).toString
  else if p == d.root then "" else p

/-- The component path a path names, relative to the working directory. An absolute path
names something inside only if it starts with the directory's own path. A path ending in `/`
must name a directory. -/
def locate (d : Disk) (p : String) : Except Errno (List String) := do
  if p.isEmpty then throw .noEntry
  let rel ←
    if p.startsWith "/" || p.startsWith d.root then
      if p == d.root || p.startsWith (d.root ++ "/") then pure (d.relative p)
      else throw .noEntry
    else pure p
  let parts := (← d.walk [] (components rel)).reverse
  if p.endsWith "/" && d.kindAt parts == some false then throw .notDirectory
  return parts

/-- The absolute, cleaned form of a path. -/
def absolute (d : Disk) (p : String) : String :=
  let rel := d.relative p
  let step := fun (acc : List String) (c : String) =>
    if c == "." then acc
    else if c == ".." then acc.drop 1
    else c :: acc
  let parts := ((components rel).foldl step []).reverse
  if parts.isEmpty then d.root else d.root ++ "/" ++ "/".intercalate parts

/-- The directory holding a path, in absolute form. -/
def directoryOf (d : Disk) (p : String) : String :=
  let abs := d.absolute p
  let parts := components (abs.drop (d.root.length)).toString
  if parts.isEmpty then d.root
  else
    let up := parts.dropLast
    if up.isEmpty then d.root else d.root ++ "/" ++ "/".intercalate up

/-! ### Reading and writing -/

/-- The text of a file, or why it cannot be read: `open` fails for a missing path, `read` for
a directory. -/
def read (d : Disk) (p : String) : Except String String :=
  match d.locate p with
  | .error e => .error ("open " ++ p ++ ": " ++ e.text)
  | .ok parts =>
    match d.kindAt parts with
    | none => .error ("open " ++ p ++ ": " ++ Errno.noEntry.text)
    | some true => .error ("read " ++ p ++ ": " ++ Errno.isDirectory.text)
    | some false =>
      match d.files.find? (·.1 == parts) with
      | some (_, text) => .ok text
      | none => .error ("open " ++ p ++ ": " ++ Errno.noEntry.text)

/-- Whether a file can be opened for reading, and why not. A directory opens. -/
def openable (d : Disk) (p : String) : Except String Unit :=
  match d.locate p with
  | .error e => .error ("open " ++ p ++ ": " ++ e.text)
  | .ok parts =>
    match d.kindAt parts with
    | none => .error ("open " ++ p ++ ": " ++ Errno.noEntry.text)
    | some _ => .ok ()

/-- Sets the text of the file at a component path, keeping the order of the others. -/
def put (d : Disk) (parts : List String) (text : String) : Disk :=
  if d.files.any (·.1 == parts) then
    { d with files := d.files.map fun f => if f.1 == parts then (parts, text) else f }
  else { d with files := d.files ++ [(parts, text)] }

/-- Creates or replaces a file. Its directory must exist, and the path must not be a
directory. -/
def write (d : Disk) (p : String) (text : String) : Except String Disk :=
  match d.locate p with
  | .error e => .error ("open " ++ p ++ ": " ++ e.text)
  | .ok parts =>
    match d.kindAt parts with
    | some true => .error ("open " ++ p ++ ": " ++ Errno.isDirectory.text)
    | _ => .ok (d.put parts text)

/-- Places a file, making the directories on its path. -/
def place (d : Disk) (p : String) (text : String) : Disk :=
  let parts := components (d.relative p)
  let ups := (List.range parts.length).map fun k => parts.take k
  let dirs := ups.filter fun u => !u.isEmpty && !d.dirs.contains u
  { d.put parts text with dirs := d.dirs ++ dirs }

/-- Removes a file, if there is one. -/
def remove (d : Disk) (p : String) : Disk :=
  match d.locate p with
  | .ok parts =>
    let dirs := if parts.length > 1 && !d.dirs.contains parts.dropLast then
      d.dirs ++ [parts.dropLast] else d.dirs
    { d with files := d.files.filter (·.1 != parts), dirs := dirs }
  | .error _ => d

/-- Whether nothing is at a path: opening it fails with `no such file or directory`. -/
def absent (d : Disk) (p : String) : Bool :=
  match d.locate p with
  | .error e => e == .noEntry
  | .ok parts => d.kindAt parts == none

/-- Whether a path names a directory. -/
def isDirectory (d : Disk) (p : String) : Bool :=
  match d.locate p with
  | .ok parts => d.kindAt parts == some true
  | .error _ => false

/-- Every file with its path relative to the working directory. -/
def listing (d : Disk) : List (String × String) :=
  d.files.map fun (parts, text) => ("/".intercalate parts, text)

end Disk

end Reckon
