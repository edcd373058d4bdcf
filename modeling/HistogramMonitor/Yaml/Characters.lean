/-!
# Characters of YAML texts

Which characters may stand in a document, which of them are blanks, line ends or signs with a meaning of
their own, and which need no escape.
-/

namespace HistogramMonitor.Yaml

/-- A space or a tab. -/
def isBlank (c : Char) : Bool := c = ' ' || c = '\t'

/-- The end of a line, in a text whose line ends have been unified. -/
def isBreak (c : Char) : Bool := c = '\n' || c = '\u2028' || c = '\u2029'

/-- A blank or the end of a line. -/
def isWhite (c : Char) : Bool := isBlank c || isBreak c

/-- The characters that may stand in a document. -/
def isAllowed (c : Char) : Bool :=
  c = '\t' || c = '\n' || c = '\r' || c = '\u0085'
    || (0x20 ≤ c.toNat && c.toNat ≤ 0x7e)
    || (0xa0 ≤ c.toNat && c.toNat ≤ 0xd7ff)
    || (0xe000 ≤ c.toNat && c.toNat ≤ 0xfffd)
    || 0x10000 ≤ c.toNat

/-- The characters that need no escape inside double quotes. -/
def isPrintable (c : Char) : Bool :=
  c = '\n'
    || (0x20 ≤ c.toNat && c.toNat ≤ 0x7e)
    || (0xa0 ≤ c.toNat && c.toNat ≤ 0xd7ff)
    || (0xe000 ≤ c.toNat && c.toNat ≤ 0xfffd && c ≠ '\uFEFF')
    || 0x10000 ≤ c.toNat

/-- The signs that cannot open a plain scalar, whatever follows them. -/
def isIndicator (c : Char) : Bool :=
  ['#', ',', '[', ']', '\x7b', '\x7d', '&', '*', '!', '|', '>', '\'', '"', '%', '@', '\x60'].contains c

/-- The characters of a name. -/
def isNameChar (c : Char) : Bool := c.isAlphanum || c = '_' || c = '-'

/-- The one sign for a line end: a return, a return and a newline, and a next-line sign are all read as
newlines. -/
def unifyBreaks : List Char → List Char
  | '\r' :: '\n' :: rest => '\n' :: unifyBreaks rest
  | c :: rest => (if c = '\r' ∨ c = '\u0085' then '\n' else c) :: unifyBreaks rest
  | [] => []

end HistogramMonitor.Yaml
