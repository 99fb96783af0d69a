/-
# Characters and lines of TOML

What stands between the values of a document: blanks, comments and line ends.  A comment runs to the
end of its line and holds no control characters but tabs; a line ends with a line feed, which a
carriage return may precede, or with the text.

A position in a text is kept as the number of bytes that follow it, since that is known where the
position is met.
-/
import RequestQuery.Json.Reader

namespace RequestQuery.Toml

set_option autoImplicit false

/-! ## Positions -/

def bytesLeft : List Char → Nat
  | [] => 0
  | c :: cs => c.utf8Size + bytesLeft cs

/-- A stretch of a text; each end is the number of bytes that follow it. -/
structure Span where
  start : Nat
  stop : Nat
  deriving DecidableEq, Repr, Inhabited

/-- The stretch between what is left at its two ends. -/
def Span.between (start stop : List Char) : Span :=
  ⟨bytesLeft start, bytesLeft stop⟩

/-! ## Characters -/

def isSpace (c : Char) : Bool :=
  c = ' ' || c = '\t'

def isControl (c : Char) : Bool :=
  c.toNat < 0x20 || c.toNat = 0x7F

/-- A character that may stand in a comment, or in a string on one line. -/
def isPrintable (c : Char) : Bool :=
  c = '\t' || !isControl c

def isBareKeyChar (c : Char) : Bool :=
  c.isAlphanum || c = '-' || c = '_'

def skipSpace (cs : List Char) : List Char :=
  cs.dropWhile isSpace

/-! ## Lines -/

/-- The text after a line feed, with or without a carriage return before it. -/
def afterNewline? : List Char → Option (List Char)
  | '\n' :: rest => some rest
  | '\r' :: '\n' :: rest => some rest
  | _ => none

/-- The text after the end of a line or of everything. -/
def afterLineEnd? : List Char → Option (List Char)
  | [] => some []
  | cs => afterNewline? cs

/-- The rest of a line may hold blanks and a comment. -/
def endLine? (cs : List Char) : Option (List Char) :=
  match skipSpace cs with
  | '#' :: rest => afterLineEnd? (rest.dropWhile isPrintable)
  | rest => afterLineEnd? rest

/-- Blanks, line ends and comments between the parts of an array; a comment has to end. -/
def skipFiller? (inComment : Bool) : List Char → Option (List Char)
  | [] => if inComment then none else some []
  | '\n' :: rest => skipFiller? false rest
  | '\r' :: '\n' :: rest => skipFiller? false rest
  | c :: rest =>
      if inComment then (if isPrintable c then skipFiller? true rest else none)
      else if isSpace c then skipFiller? false rest
      else if c = '#' then skipFiller? true rest
      else some (c :: rest)

end RequestQuery.Toml
