import HistogramMonitor.Histogram.Wire
import HistogramMonitor.Json.Value
import HistogramMonitor.Monitor.Action
import HistogramMonitor.Text.Size
import HistogramMonitor.Transport.Envelope

/-!
# The client side of the backend's commands

Each reply is checked against the length that its header declares. One that was cut short is requested
once more, with a budget that fits what was declared, and never a third time: if it is still short, the
client says so and works with what has arrived.
-/

namespace HistogramMonitor.Client

variable {σ : Type}

/-! ## Arguments -/

/-- A list of runs. -/
def runsJson (runs : List UInt32) : Json := .array (runs.map fun r => .ofNat r.toNat)

/-- The arguments of a request for a histogram. -/
def histogramArgs (name : String) (runs : List UInt32) : String :=
  (Json.object [("name", .string name), ("runs", runsJson runs)]).text

/-- The arguments of a request for a listing. -/
def listArgs (runs : List UInt32) : String := (Json.object [("runs", runsJson runs)]).text

/-! ## Fetching -/

/-- The budget of a first request for a histogram. -/
def histogramBudget : Nat := 1048576

/-- The budget of a first request for a listing. -/
def listBudget : Nat := 2097152

/-- The header of a reply, with a warning if it is of another type than was asked for. -/
def check (reply : Bytes) (command : String) (expected : UInt32) :
    Action σ (Except TransportError Envelope) := do
  match Envelope.parse reply with
  | .error e => return .error e
  | .ok envelope =>
    if envelope.messageType ≠ expected then
      Action.diagnose .warn s!"{command} got unexpected message type '{envelope.typeText}'"
    return .ok envelope

/-- The second attempt at a reply that declares `declared` bytes. -/
def refetch (w : Surroundings σ) (c : Call) (declared : Nat) (expected : UInt32) :
    Action σ (Except TransportError Bytes) := do
  match ← Action.call w { c with hint := some declared } with
  | .error e => return .error (.rpc e)
  | .ok reply =>
    match ← check reply c.command expected with
    | .error e => return .error e
    | .ok envelope =>
      if envelope.truncated reply.length then
        Action.diagnose .warn <|
          s!"{c.command} reply of size {Text.binarySize envelope.declared.toNat} was still " ++
          s!"truncated to {Text.binarySize reply.length} after second attempt. " ++
          "Result may be incomplete."
      return .ok reply

/-- A whole reply, header included, after one call or two. -/
def fetch (w : Surroundings σ) (c : Call) (expected : UInt32) :
    Action σ (Except TransportError Bytes) := do
  match ← Action.call w c with
  | .error e => return .error (.rpc e)
  | .ok reply =>
    match ← check reply c.command expected with
    | .error e => return .error e
    | .ok envelope =>
      if envelope.truncated reply.length then
        Action.diagnose .warn <|
          s!"{c.command} reply of size {Text.binarySize envelope.declared.toNat} was " ++
          s!"truncated to {Text.binarySize reply.length}. " ++
          "Trying again with an adequate reply budget."
        refetch w c envelope.declared.toNat expected
      else return .ok reply

/-! ## Commands -/

/-- The histogram in a reply. -/
def histogramOf (reply : Bytes) : Except TransportError Snapshot :=
  match Snapshot.decode (reply.drop Envelope.size) with
  | .error e => .error (.decode e)
  | .ok h => .ok h

/-- The lines of a text: what stands between its newlines. -/
def lines (text : List Char) : List (List Char) :=
  text.foldr (fun c done =>
    if c = '\n' then [] :: done
    else match done with
      | [] => [[c]]
      | line :: rest => (c :: line) :: rest) [[]]

/-- The names in a listing; an empty payload holds none. -/
def namesOf (reply : Bytes) : Except TransportError (List String) :=
  let payload := reply.drop Envelope.size
  if payload.isEmpty then .ok []
  else match Utf8.decode payload with
    | .error f => .error (.listing f)
    | .ok text => .ok ((lines text).map String.ofList)

/-- Retrieves one histogram. -/
def retrieve (w : Surroundings σ) (name : String) (runs : List UInt32) (program : String) :
    Action σ (Except TransportError Snapshot) := do
  let c : Call := ⟨program, histogramCommand, histogramArgs name runs, some histogramBudget⟩
  match ← fetch w c Envelope.histogramType with
  | .error e => return .error e
  | .ok reply => return histogramOf reply

/-- Lists the names of all histograms. -/
def list (w : Surroundings σ) (runs : List UInt32) (program : String) :
    Action σ (Except TransportError (List String)) := do
  let c : Call := ⟨program, listCommand, listArgs runs, some listBudget⟩
  match ← fetch w c Envelope.listType with
  | .error e => return .error e
  | .ok reply => return namesOf reply

/-- Clears histograms: all of them with an empty selector, a collection, or one in a collection. -/
def clear (w : Surroundings σ) (selector program : String) :
    Action σ (Except TransportError Unit) := do
  match ← Action.call w ⟨program, clearCommand, selector, none⟩ with
  | .error e => return .error (.rpc e)
  | .ok _ =>
    Action.diagnose .debug s!"Cleared histograms matching '{selector}' in {program}"
    return .ok ()

end HistogramMonitor.Client
