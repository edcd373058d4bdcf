import HistogramMonitor.Files.Tree
import HistogramMonitor.Json.Reader
import HistogramMonitor.Monitor.Action
import HistogramMonitor.Transport.Envelope

/-!
# Recorded replies

A backend that answers from files. Every histogram has a reply of its own, in a file named after it: with
percent signs for slashes, so that every name is a name of a file in the one directory, and with an ending
that tells replies from other files. The listing is made up from the names of the files, and a request to
clear changes nothing. As any backend does, this one cuts a reply to what the call allows.
-/

namespace HistogramMonitor

/-- The directory of recorded replies. -/
structure ReplyStore where
  directory : String
  deriving DecidableEq, Repr

namespace ReplyStore

/-! ## Names -/

/-- The ending of files that hold replies. -/
def ending : List Char := ".dqm".toList

/-- A text with one character in place of another. -/
def swap (a b : Char) (s : List Char) : List Char := s.map fun c => if c = a then b else c

/-- The file of a histogram. -/
def fileName (name : String) : String := String.ofList (swap '/' '%' name.toList ++ ending)

/-- The histogram of a file, if it holds a reply. -/
def nameOf? (file : String) : Option String :=
  let cs := file.toList
  let stem := cs.take (cs.length - ending.length)
  if !stem.isEmpty && stem ++ ending = cs then some (String.ofList (swap '%' '/' stem)) else none

/-- The path of a histogram's reply. -/
def path (s : ReplyStore) (name : String) : String := Path.join s.directory (fileName name)

/-! ## Recording -/

/-- Stores a whole reply, header included. -/
def record (s : ReplyStore) (name : String) (reply : Bytes) (t : Files) : Except FileError Files :=
  t.write (s.path name) reply

/-! ## Answering -/

/-- The reply of the histogram that some arguments name. -/
def histogramReply (s : ReplyStore) (t : Files) (args : String) : Except RpcError Bytes :=
  match Json.parse args with
  | .error reason => .error (.rejected reason)
  | .ok j =>
    match j.member? "name" with
    | some (.string name) =>
      if t.has (s.path name) then
        match t.read (s.path name) with
        | .ok b => .ok b
        | .error e => .error (.io e.message)
      else .error (.rejected s!"no histogram named {name}")
    | _ => .error (.rejected "histogram request without a name")

/-- Names in the order of their code points. -/
def sorted (names : List String) : List String := names.mergeSort fun a b => !decide (b < a)

/-- The listing of all recorded histograms. -/
def listReply (s : ReplyStore) (t : Files) : Except RpcError Bytes :=
  match t.names s.directory with
  | .error e => .error (.io e.message)
  | .ok files =>
    let names := sorted (files.filterMap nameOf?)
    .ok (Envelope.wrap Envelope.listType (Utf8.ofString ("\n".intercalate names)))

/-- What a call comes to, cut to what it allows, and what is logged about it. -/
def answer (s : ReplyStore) (t : Files) (c : Call) : Except RpcError Bytes × List LogLine :=
  if t.isDirectory s.directory then
    let cut := fun b : Bytes => match c.hint with
      | none => b
      | some n => b.take n
    if c.command = histogramCommand then (cut <$> s.histogramReply t c.args, [])
    else if c.command = listCommand then (cut <$> s.listReply t, [])
    else if c.command = clearCommand then
      (.ok [], [⟨.terminal, .info, s!"Replay ignores clear request for '{c.args}'"⟩])
    else (.error (.rejected s!"unknown command {c.command}"), [])
  else (.error (.unreachable c.program), [])

end ReplyStore

/-! ## The store as a backend -/

/-- Files and the time. -/
structure Site where
  files : Files := {}
  time : Instant := ⟨0⟩
  deriving Repr

/-- The surroundings of a monitor that works on recorded replies. -/
def ReplyStore.surroundings (s : ReplyStore) : Surroundings Site where
  answer site c :=
    match s.answer site.files c with
    | (.ok b, lines) => { reply := .bytes b, lines := lines, next := site }
    | (.error e, lines) => { reply := .failure e, lines := lines, next := site }
  now site := (site.time, site)

end HistogramMonitor
