import HistogramMonitor.Bytes

/-!
# UTF-8

Reading UTF-8 and saying precisely where it fails. `Utf8.scalar` looks at the head of a byte string and
finds one of three things: a character, a maximal prefix that no continuation can complete, or a
sequence that is valid so far but cut off by the end. Everything else follows from it:

* `Utf8.decode` reads a whole byte string or reports the first fault and its position;
* `Utf8.lossy` puts one replacement character in place of each faulty prefix.
-/

namespace HistogramMonitor.Utf8

/-! ## The head of a byte string -/

/-- What stands at the head of a nonempty byte string. -/
inductive Head
  /-- a character, written with this many bytes after the first -/
  | char (c : Char) (more : Nat)
  /-- a prefix of this many bytes after the first that is not the start of any character -/
  | invalid (more : Nat)
  /-- the start of a character, cut off by the end -/
  | cut
  deriving Repr

/-- A byte that can only continue a character. -/
def continues (b : UInt8) : Bool := decide (0x80 ≤ b.toNat) && decide (b.toNat ≤ 0xbf)

/-- The payload of a continuation byte. -/
def payload (b : UInt8) : Nat := b.toNat % 64

/-- The bytes that may follow the first byte of a character of three bytes: no shorter form exists
and the result is no surrogate. -/
def secondOfThree (first second : UInt8) : Bool :=
  if first = 0xe0 then decide (0xa0 ≤ second.toNat) && decide (second.toNat ≤ 0xbf)
  else if first = 0xed then decide (0x80 ≤ second.toNat) && decide (second.toNat ≤ 0x9f)
  else continues second

/-- The bytes that may follow the first byte of a character of four bytes: no shorter form exists and
the result lies within the code space. -/
def secondOfFour (first second : UInt8) : Bool :=
  if first = 0xf0 then decide (0x90 ≤ second.toNat) && decide (second.toNat ≤ 0xbf)
  else if first = 0xf4 then decide (0x80 ≤ second.toNat) && decide (second.toNat ≤ 0x8f)
  else continues second

/-- The second byte of two. -/
def headOfTwo (first : UInt8) : Bytes → Head
  | [] => .cut
  | b :: _ =>
    if continues b then .char (Char.ofNat (first.toNat % 32 * 64 + payload b)) 1 else .invalid 0

/-- The second and third byte of three. -/
def headOfThree (first : UInt8) : Bytes → Head
  | [] => .cut
  | b :: bs =>
    if secondOfThree first b then
      match bs with
      | [] => .cut
      | c :: _ =>
        if continues c then
          .char (Char.ofNat (first.toNat % 16 * 4096 + payload b * 64 + payload c)) 2
        else .invalid 1
    else .invalid 0

/-- The second to fourth byte of four. -/
def headOfFour (first : UInt8) : Bytes → Head
  | [] => .cut
  | b :: bs =>
    if secondOfFour first b then
      match bs with
      | [] => .cut
      | c :: cs =>
        if continues c then
          match cs with
          | [] => .cut
          | d :: _ =>
            if continues d then
              .char (Char.ofNat (first.toNat % 8 * 262144 + payload b * 4096 + payload c * 64
                + payload d)) 3
            else .invalid 2
        else .invalid 1
    else .invalid 0

/-- What the byte string `first :: rest` starts with. -/
def scalar (first : UInt8) (rest : Bytes) : Head :=
  let n := first.toNat
  if n < 0x80 then .char (Char.ofNat n) 0
  else if n < 0xc2 then .invalid 0
  else if n < 0xe0 then headOfTwo first rest
  else if n < 0xf0 then headOfThree first rest
  else if n < 0xf5 then headOfFour first rest
  else .invalid 0

/-! ## Whole byte strings -/

/-- Where reading stopped. -/
structure Fault where
  /-- the length of the valid part before it -/
  index : Nat
  /-- the length of the faulty prefix, or none if the byte string ended inside a character -/
  length? : Option Nat
  deriving DecidableEq, Repr

/-- The wording of a fault. -/
def Fault.message (f : Fault) : String :=
  match f.length? with
  | some k => s!"invalid utf-8 sequence of {k} bytes from index {f.index}"
  | none => s!"incomplete utf-8 byte sequence from index {f.index}"

/-- Reads on from position `index`, the characters so far in reverse. -/
def decodeFrom (index : Nat) (done : List Char) : Bytes → Except Fault (List Char)
  | [] => .ok done.reverse
  | b :: bs =>
    match scalar b bs with
    | .char c more => decodeFrom (index + 1 + more) (c :: done) (bs.drop more)
    | .invalid more => .error ⟨index, some (1 + more)⟩
    | .cut => .error ⟨index, none⟩
  termination_by b => b.length
  decreasing_by simp only [List.length_drop, List.length_cons]; omega

/-- The characters of a byte string, or the first fault in it. -/
def decode (b : Bytes) : Except Fault (List Char) := decodeFrom 0 [] b

/-- Reads on, with a replacement character for each faulty prefix. -/
def lossyFrom (done : List Char) : Bytes → List Char
  | [] => done.reverse
  | b :: bs =>
    match scalar b bs with
    | .char c more => lossyFrom (c :: done) (bs.drop more)
    | .invalid more => lossyFrom ('\uFFFD' :: done) (bs.drop more)
    | .cut => ('\uFFFD' :: done).reverse
  termination_by b => b.length
  decreasing_by all_goals (simp only [List.length_drop, List.length_cons]; omega)

/-- The text of a byte string, faults replaced. -/
def lossy (b : Bytes) : String := String.ofList (lossyFrom [] b)

/-- The bytes of a text. -/
def encode (s : List Char) : Bytes := s.flatMap String.utf8EncodeChar

/-- The bytes of a string. -/
def ofString (s : String) : Bytes := encode s.toList

end HistogramMonitor.Utf8
