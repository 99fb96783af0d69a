/-
# Reading TOML

A document is read line by line.  Each line is blank, opens a table or gives one value; what it adds
is put in place at once (`Assembly`), so the first line that breaks a rule ends the reading.  Arrays
and inline tables may be nested in each other up to a limit.

A header whose bracket is not closed after its key is told apart from all other faults of form.
-/
import RequestQuery.Toml.Document
import RequestQuery.Toml.Number

namespace RequestQuery.Toml

set_option autoImplicit false

/-! ## Values -/

/-- A scalar value. -/
def scalar? (cs : List Char) : Option (Value × List Char) :=
  match cs with
  | 't' :: 'r' :: 'u' :: 'e' :: rest => some (.bool true, rest)
  | 'f' :: 'a' :: 'l' :: 's' :: 'e' :: rest => some (.bool false, rest)
  | cs =>
      if startsQuoted cs then (string? cs).map fun r => (.string (String.ofList r.1), r.2)
      else
        match moment? cs with
        | some (s, rest) => some (.moment s, rest)
        | none =>
            match double? cs with
            | some (x, rest) => some (.double x, rest)
            | none => (integer? cs).map fun r => (.integer r.1, r.2)

mutual

/-- One value; `depth` more arrays and inline tables may be opened. -/
def value? : Nat → Nat → List Char → Option (Node × List Char)
  | 0, _, _ => none
  | fuel + 1, depth, cs => do
      let (value, rest) ←
        match cs, depth with
        | '[' :: _, 0 => none
        | '{' :: _, 0 => none
        | '[' :: rest, depth + 1 => do
            let rest ← skipFiller? false rest
            match rest with
            | ']' :: rest => some (.array [], rest)
            | rest => (items? fuel depth rest).map fun r => (.array r.1, r.2)
        | '{' :: rest, depth + 1 =>
            match skipSpace rest with
            | '}' :: rest => some (.table .inline [], rest)
            | rest => do
                let (pairs, rest) ← pairs? fuel depth rest
                let table ← Table.ofPairs? pairs
                some (table.toValue, rest)
        | cs, _ => scalar? cs
      pure (.at (some (Span.between cs rest)) value, rest)

/-- One or more items and the closing bracket; a comma may stand before it. -/
def items? : Nat → Nat → List Char → Option (List Node × List Char)
  | 0, _, _ => none
  | fuel + 1, depth, cs => do
      let (item, rest) ← value? fuel depth cs
      let rest ← skipFiller? false rest
      match rest with
      | ']' :: rest => pure ([item], rest)
      | ',' :: rest =>
          let rest ← skipFiller? false rest
          match rest with
          | ']' :: rest => pure ([item], rest)
          | rest =>
              let (more, rest) ← items? fuel depth rest
              pure (item :: more, rest)
      | _ => none

/-- One or more pairs and the closing brace. -/
def pairs? : Nat → Nat → List Char → Option (List (List Key × Key × Node) × List Char)
  | 0, _, _ => none
  | fuel + 1, depth, cs => do
      let (path, key, rest) ← keyPath? cs
      let rest ← after? '=' rest
      let (node, rest) ← value? fuel depth (skipSpace rest)
      match skipSpace rest with
      | '}' :: rest => pure ([(path, key, node)], rest)
      | ',' :: rest =>
          let (more, rest) ← pairs? fuel depth rest
          pure ((path, key, node) :: more, rest)
      | _ => none

end

/-! ## Lines -/

/-- What is wrong with the form of a document. -/
inductive FormError where
  /-- The closing bracket of a header is missing at a stretch of one character. -/
  | unclosedHeader (repeated : Bool) (span : Span)
  | malformed
  deriving DecidableEq, Repr

def FormError.message : FormError → String
  | .unclosedHeader false _ => "invalid table header\nexpected `.`, `]`"
  | .unclosedHeader true _ => "invalid table header\nexpected `.`, `]]`"
  | .malformed => "malformed document"

def FormError.span? : FormError → Option Span
  | .unclosedHeader _ span => some span
  | .malformed => none

/-- A result, or a document that is malformed. -/
def orMalformed {α : Type} : Option α → Except FormError α
  | some a => .ok a
  | none => .error .malformed

/-- A header without its opening brackets; `start` is where these stand. -/
def headerLine (start : List Char) (repeated : Bool) (cs : List Char) :
    Except FormError (Header × List Char) := do
  let (path, key, rest) ← orMalformed (keyPath? cs)
  let closed := if repeated then (after? ']' rest).bind (after? ']') else after? ']' rest
  match closed with
  | none => .error (.unclosedHeader repeated (Span.between rest (rest.drop 1)))
  | some closed =>
      let line ← orMalformed (endLine? closed)
      pure ({ path, key, span := Span.between start closed, repeated }, line)

/-- A key, an equals sign and a value. -/
def valueLine (cs : List Char) : Except FormError ((List Key × Key × Node) × List Char) :=
  orMalformed do
    let (path, key, rest) ← keyPath? cs
    let rest ← after? '=' rest
    let start := skipSpace rest
    let (node, rest) ← value? (2 * start.length + 2) nestingLimit start
    let line ← endLine? rest
    pure ((path, key, node), line)

/-- Read one line that starts without blanks, and put in place what it says. -/
def line (assembly : Assembly) (cs : List Char) : Except FormError (Assembly × List Char) :=
  match cs with
  | '[' :: '[' :: rest => do
      let (header, rest) ← headerLine cs true rest
      let assembly ← orMalformed (assembly.openTable? header)
      pure (assembly, rest)
  | '[' :: rest => do
      let (header, rest) ← headerLine cs false rest
      let assembly ← orMalformed (assembly.openTable? header)
      pure (assembly, rest)
  | '#' :: _ | '\n' :: _ | '\r' :: _ => do
      let rest ← orMalformed (endLine? cs)
      pure (assembly, rest)
  | cs => do
      let ((path, key, node), rest) ← valueLine cs
      let assembly ← orMalformed (assembly.addValue? path key node)
      pure (assembly, rest)

/-- Read all lines; every line takes at least one character. -/
def lines : Nat → Assembly → List Char → Except FormError Assembly
  | 0, assembly, _ => .ok assembly
  | fuel + 1, assembly, cs =>
      match skipSpace cs with
      | [] => .ok assembly
      | cs => do
          let (assembly, rest) ← line assembly cs
          lines fuel assembly rest

/-- The document of a text, which may start with a byte order mark. -/
def document (text : String) : Except FormError Entries := do
  let cs := match text.toList with
    | '\uFEFF' :: rest => rest
    | cs => cs
  let assembly ← lines (cs.length + 1) {} cs
  let root ← orMalformed assembly.close?
  pure root.entries

end RequestQuery.Toml
