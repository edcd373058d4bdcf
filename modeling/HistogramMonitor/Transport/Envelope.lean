import HistogramMonitor.Histogram.Snapshot
import HistogramMonitor.Text.Utf8
import HistogramMonitor.Transport.Call

/-!
# Envelopes

Every reply begins with a header of eight bytes: the length of the whole message as the backend wrote it,
least significant byte first, and four characters that name its type. A reply with fewer bytes than its
header declares was cut short on the way.
-/

namespace HistogramMonitor

/-- Why a reply is of no use. -/
inductive TransportError
  | empty
  /-- too short for a header -/
  | noEnvelope (length : Nat)
  | rpc (e : RpcError)
  | decode (e : DecodeError)
  /-- a listing that is no text -/
  | listing (f : Utf8.Fault)
  deriving DecidableEq, Repr

/-- The wording of an error. -/
def TransportError.message : TransportError → String
  | empty => "Empty response"
  | noEnvelope n => s!"Reply of {n} bytes is too short to hold the transport header"
  | rpc e => s!"Transport failed due to RPC error: {e.message}"
  | decode e => s!"Transport failed due to histogram decode error: {e.message}"
  | listing f => s!"Transport received a histogram listing that is not valid UTF-8: {f.message}"

/-- The header of a reply. -/
structure Envelope where
  /-- the length of the whole message, header included -/
  declared : UInt32
  /-- four characters, read so that their order is kept -/
  messageType : UInt32
  deriving DecidableEq, Repr

namespace Envelope

/-- The bytes that a header takes. -/
def size : Nat := 8

/-- The type of a message that holds a histogram: the characters `hist`. -/
def histogramType : UInt32 := 0x68697374

/-- The type of a message that holds a listing: the characters `list`. -/
def listType : UInt32 := 0x6C697374

/-- The header of a reply. -/
def parse (reply : Bytes) : Except TransportError Envelope :=
  if reply.isEmpty then .error .empty
  else if reply.length < size then .error (.noEnvelope reply.length)
  else .ok
    { declared := UInt32.ofNat (Bytes.ofLittle (reply.take 4))
      messageType := UInt32.ofNat (Bytes.ofBig ((reply.drop 4).take 4)) }

/-- Whether a reply of which this many bytes arrived was cut short. -/
def truncated (e : Envelope) (received : Nat) : Bool := decide (received < e.declared.toNat)

/-- The header of a message of this type and length, as far as four bytes hold the length. -/
def header (messageType : UInt32) (length : Nat) : Bytes :=
  Bytes.little 4 length ++ Bytes.big 4 messageType.toNat

/-- A payload with a header in front that declares the full length. -/
def wrap (messageType : UInt32) (payload : Bytes) : Bytes :=
  header messageType (size + payload.length) ++ payload

/-- The type of a message as text. -/
def typeText (e : Envelope) : String := Utf8.lossy (Bytes.big 4 e.messageType.toNat)

end Envelope

end HistogramMonitor
