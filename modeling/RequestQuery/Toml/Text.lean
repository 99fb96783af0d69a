/-
# Strings and keys of TOML

A string is basic, with escapes, or literal, without; each kind exists on one line and on several.
On several lines a newline right after the opening is dropped, carriage returns before line feeds are
dropped, up to two quotes may stand before the closing, and in a basic string a backslash at the end
of a line joins it with the next text.

A key is a path of bare words and one-line strings with dots between them.
-/
import RequestQuery.Toml.Scan

namespace RequestQuery.Toml

set_option autoImplicit false

/-! ## Escapes -/

/-- The character of an escape with one letter. -/
def simpleEscape? : Char → Option Char
  | '"' => some '"'
  | '\\' => some '\\'
  | 'b' => some '\x08'
  | 'f' => some '\x0C'
  | 'n' => some '\n'
  | 'r' => some '\r'
  | 't' => some '\t'
  | _ => none

/-- The character of an escape with hexadecimal digits. -/
def codePoint? (digits : List Char) : Option Char := do
  let values ← digits.mapM Json.Reader.hexDigit?
  let n := values.foldl (fun n d => n * 16 + d) 0
  if n.isValidChar then some (Char.ofNat n) else none

/-- Put a character in front of what a function has read. -/
def prepend (c : Char) (read : List Char × List Char) : List Char × List Char :=
  (c :: read.1, read.2)

/-! ## Strings on one line -/

/-- The rest of a basic string. -/
def basicTail? : List Char → Option (List Char × List Char)
  | [] => none
  | '"' :: rest => some ([], rest)
  | '\\' :: 'u' :: a :: b :: c :: d :: rest => do
      let read ← basicTail? rest
      let char ← codePoint? [a, b, c, d]
      pure (prepend char read)
  | '\\' :: 'U' :: a :: b :: c :: d :: e :: f :: g :: h :: rest => do
      let read ← basicTail? rest
      let char ← codePoint? [a, b, c, d, e, f, g, h]
      pure (prepend char read)
  | '\\' :: c :: rest => do
      let char ← simpleEscape? c
      let read ← basicTail? rest
      pure (prepend char read)
  | c :: rest =>
      if isPrintable c then (basicTail? rest).map (prepend c) else none

/-- The rest of a literal string. -/
def literalTail? : List Char → Option (List Char × List Char)
  | [] => none
  | '\'' :: rest => some ([], rest)
  | c :: rest => if isPrintable c then (literalTail? rest).map (prepend c) else none

/-! ## Strings on several lines -/

/-- Is there nothing but blanks up to the end of the line? -/
def lineIsBlank (cs : List Char) : Bool :=
  (afterNewline? (skipSpace cs)).isSome

/-- The rest of a basic string on several lines; `joining` says that a backslash has ended a line
and no text has come since. -/
def basicBlockTail? (joining : Bool) : List Char → Option (List Char × List Char)
  | [] => none
  | '"' :: '"' :: '"' :: '"' :: '"' :: rest => some (['"', '"'], rest)
  | '"' :: '"' :: '"' :: '"' :: rest => some (['"'], rest)
  | '"' :: '"' :: '"' :: rest => some ([], rest)
  | '\\' :: 'u' :: a :: b :: c :: d :: rest => do
      let read ← basicBlockTail? false rest
      let char ← codePoint? [a, b, c, d]
      pure (prepend char read)
  | '\\' :: 'U' :: a :: b :: c :: d :: e :: f :: g :: h :: rest => do
      let read ← basicBlockTail? false rest
      let char ← codePoint? [a, b, c, d, e, f, g, h]
      pure (prepend char read)
  | '\\' :: c :: rest =>
      match simpleEscape? c with
      | some char => (basicBlockTail? false rest).map (prepend char)
      | none => if lineIsBlank (c :: rest) then basicBlockTail? true rest else none
  | '\r' :: '\n' :: rest =>
      if joining then basicBlockTail? true rest
      else (basicBlockTail? false rest).map (prepend '\n')
  | c :: rest =>
      if joining ∧ (isSpace c ∨ c = '\n') then basicBlockTail? true rest
      else if c = '\n' ∨ isPrintable c then (basicBlockTail? false rest).map (prepend c)
      else none

/-- The rest of a literal string on several lines. -/
def literalBlockTail? : List Char → Option (List Char × List Char)
  | [] => none
  | '\'' :: '\'' :: '\'' :: '\'' :: '\'' :: rest => some (['\'', '\''], rest)
  | '\'' :: '\'' :: '\'' :: '\'' :: rest => some (['\''], rest)
  | '\'' :: '\'' :: '\'' :: rest => some ([], rest)
  | '\r' :: '\n' :: rest => (literalBlockTail? rest).map (prepend '\n')
  | c :: rest =>
      if c = '\n' ∨ isPrintable c then (literalBlockTail? rest).map (prepend c) else none

/-- The text after a newline, if there is one. -/
def dropNewline (cs : List Char) : List Char :=
  (afterNewline? cs).getD cs

/-- A string on one line. -/
def lineString? : List Char → Option (List Char × List Char)
  | '"' :: rest => basicTail? rest
  | '\'' :: rest => literalTail? rest
  | _ => none

def string? : List Char → Option (List Char × List Char)
  | '"' :: '"' :: '"' :: rest => basicBlockTail? false (dropNewline rest)
  | '\'' :: '\'' :: '\'' :: rest => literalBlockTail? (dropNewline rest)
  | cs => lineString? cs

/-! ## Keys -/

structure Key where
  name : String
  span : Span
  deriving Inhabited

def startsQuoted : List Char → Bool
  | '"' :: _ | '\'' :: _ => true
  | _ => false

/-- One segment of a key with the blanks around it. -/
def segment? (cs : List Char) : Option (Key × List Char) :=
  let start := skipSpace cs
  let read := if startsQuoted start then lineString? start
    else
      match start.takeWhile isBareKeyChar with
      | [] => none
      | word => some (word, start.dropWhile isBareKeyChar)
  read.map fun r =>
    ({ name := String.ofList r.1, span := Span.between start r.2 }, skipSpace r.2)

/-- The segments after the first one.  A dot that no segment follows is left where it is. -/
def moreSegments? : Nat → List Char → Option (List Key × List Char)
  | 0, cs => some ([], cs)
  | fuel + 1, '.' :: rest =>
      match segment? rest with
      | some (key, rest) => (moreSegments? fuel rest).map fun r => (key :: r.1, r.2)
      | none => if startsQuoted (skipSpace rest) then none else some ([], '.' :: rest)
  | _, cs => some ([], cs)

/-- The greatest depth of keys, arrays and inline tables. -/
def nestingLimit : Nat := 79

/-- A path of one or more segments: those before the last one, and the last one. -/
def keyPath? (cs : List Char) : Option (List Key × Key × List Char) := do
  let (first, rest) ← segment? cs
  let (more, rest) ← moreSegments? cs.length rest
  let keys := first :: more
  if nestingLimit < keys.length then none
  else pure (keys.dropLast, keys.getLast?.getD first, rest)

end RequestQuery.Toml
