import Reckon.Config.Yaml
import Reckon.Disk.Basic
import Reckon.Log.Basic

/-!
# Configuration files

A configuration is loaded from a file of the working directory and saved back to one. A file
that cannot be opened fails with the error of opening it; a file that cannot be read or does not
hold a configuration fails with `parsing <path>: ` and the reading error. Saving replaces the
whole file with the configuration's YAML.

A watcher follows one configuration file by watching its directory. Once started, every write
to the file loads it again after a short pause: a configuration that loads and whose rules all
compile is handed on and logged as `Configuration reloaded`; one that fails to load, or has a
rule that does not compile, is logged and dropped. Events for other files, removals, and
writes while the watcher is not watching are ignored. A watcher that has been stopped is
closed for good and cannot be started again.
-/

namespace Reckon

namespace Config

/-- The configuration in a file. -/
def load (d : Disk) (path : String) : Except String Config :=
  match d.openable path with
  | .error e => .error e
  | .ok () =>
    match d.read path with
    | .error e => .error ("parsing " ++ path ++ ": yaml: input error: " ++ e)
    | .ok text =>
      match ofYaml text with
      | .error e => .error ("parsing " ++ path ++ ": " ++ e)
      | .ok c => .ok c

/-- The configuration of a new session: from a file, or empty when no path is given. -/
def loadOrEmpty (d : Disk) (path : String) : Except String Config :=
  if path.isEmpty then .ok empty else load d path

/-- Writes a configuration to a file, replacing what was there. -/
def save (d : Disk) (path : String) (c : Config) : Except String Disk :=
  d.write path c.toYaml

end Config

/-- A configuration watcher: the absolute path of the file it follows, whether it is watching,
and whether it has been closed. -/
structure Watcher where
  path : String
  watching : Bool
  closed : Bool

namespace Watcher

/-- A watcher for a file, not yet started. -/
def create (d : Disk) (path : String) : Watcher := ⟨d.absolute path, false, false⟩

/-- Starts watching the file's directory. -/
def start (w : Watcher) (d : Disk) : Except String Watcher :=
  if w.watching then .error "already watching"
  else if w.closed then .error "fsnotify: watcher already closed"
  else
    match d.locate (d.directoryOf w.path) with
    | .error e => .error e.text
    | .ok parts =>
      match d.kindAt parts with
      | some true => .ok { w with watching := true }
      | some false => .error Errno.notDirectory.text
      | none => .error Errno.noEntry.text

/-- Stops watching; stopping a watcher that is not watching does nothing. -/
def stop (w : Watcher) : Watcher :=
  if w.watching then { w with watching := false, closed := true } else w

/-- What a change to the file at `path` brings: the configuration to hand on, if any, and the
log entries. -/
def changed (w : Watcher) (d : Disk) (path : String) : Option Config × List Log.Entry :=
  if !w.watching || d.absolute path != w.path then (none, [])
  else
    match Config.load d w.path with
    | .error e =>
      (none, [⟨.warn, "Error reloading configuration", [("path", .text w.path), ("error", .text e)]⟩])
    | .ok c =>
      match c.compileRules with
      | .error e =>
        (none, [⟨.warn, "Rejected configuration",
          [("path", .text w.path), ("error", .text e.message)]⟩])
      | .ok _ =>
        (some c, [⟨.info, "Configuration reloaded",
          [("path", .text w.path), ("rules", .int c.rules.length)]⟩])

end Watcher

end Reckon
