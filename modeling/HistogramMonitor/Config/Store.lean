import HistogramMonitor.Config.Document
import HistogramMonitor.Files.Tree

/-!
# Configurations in files

Loading and saving a configuration, and finding the directory of recorded replies that it names.
-/

namespace HistogramMonitor

/-- Why a configuration is of no use. -/
inductive ConfigError
  /-- there is nothing at this path, or not what should be there -/
  | absent (path : String)
  | file (e : FileError)
  /-- the text of the file is no configuration -/
  | document (reason : String)
  deriving DecidableEq, Repr

/-- The wording of an error. -/
def ConfigError.message : ConfigError → String
  | absent path =>
    s!"Failed to load configuration as file {Text.quoted path} does not exist"
  | file e => s!"Config failed due to IO error: {e.message}"
  | document reason => s!"Config failed to parse YAML: {reason}"

namespace Config

/-- The configuration in a file. -/
def load (t : Files) (path : String) : Except ConfigError Config :=
  if t.has path then
    match t.readText path with
    | .error e => .error (.file e)
    | .ok text =>
      match read text with
      | .error reason => .error (.document reason)
      | .ok c => .ok c
  else .error (.absent path)

/-- Writes a configuration to a file, in place of what was there. -/
def save (c : Config) (t : Files) (path : String) : Except ConfigError Files :=
  match t.write path (Utf8.ofString c.write) with
  | .error e => .error (.file e)
  | .ok t => .ok t

/-- The directory of recorded replies, if it exists. -/
def repliesDirectory (c : Config) (t : Files) : Except ConfigError String :=
  if t.isDirectory c.replies then .ok c.replies else .error (.absent c.replies)

end Config

end HistogramMonitor
