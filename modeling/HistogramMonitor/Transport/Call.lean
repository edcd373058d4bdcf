import HistogramMonitor.Bytes

/-!
# Calls and replies

A call addresses one command to one backend program. What comes back is a byte string or an error; a
client that dies in the middle of a call takes the thread that made it down with it.
-/

namespace HistogramMonitor

/-- One request to a backend program. -/
structure Call where
  /-- the name of the program -/
  program : String
  command : String
  args : String
  /-- the largest reply that the backend may send; without one it decides by itself -/
  hint : Option Nat
  deriving DecidableEq, Repr

/-- Why a call brought no reply. -/
inductive RpcError
  | unreachable (program : String)
  | rejected (reason : String)
  | io (reason : String)
  deriving DecidableEq, Repr

/-- The wording of an error. -/
def RpcError.message : RpcError → String
  | unreachable p => s!"Backend program {p} could not be reached"
  | rejected r => s!"Backend rejected the call: {r}"
  | io r => s!"RPC call failed due to IO error: {r}"

/-- What a call comes to. -/
inductive Reply
  | bytes (b : Bytes)
  | failure (e : RpcError)
  /-- the client dies -/
  | death
  deriving DecidableEq, Repr

/-- The program that a backend goes by unless told otherwise. -/
def standardProgram : String := "ana"

/-- The command that asks for one histogram. -/
def histogramCommand : String := "dqm::histogram"

/-- The command that asks for the names of all histograms. -/
def listCommand : String := "dqm::list"

/-- The command that clears histograms. -/
def clearCommand : String := "dqm::clear"

end HistogramMonitor
