/-
# Reports about a text

A report names the line and the column of a stretch of a text, shows the line, marks the stretch in
it with carets and says what is wrong.  Lines and columns count from one.  Columns count characters;
the marks count the bytes of the stretch, at least one and no more than the line has.
-/
import RequestQuery.Text.Blank
import RequestQuery.Text.Utf8
import RequestQuery.Toml.Scan

namespace RequestQuery.Toml

set_option autoImplicit false

/-- The bytes behind the last line feed. -/
def lastLine (bytes : List UInt8) : List UInt8 :=
  (bytes.reverse.takeWhile (· ≠ 0x0A)).reverse

/-- The line and the column of a byte, counted from zero.  A position behind the text counts from
the last byte. -/
def position (bytes : List UInt8) (index : Nat) : Nat × Nat :=
  if bytes.isEmpty then (0, index)
  else
    let inside := min index (bytes.length - 1)
    let before := bytes.take inside
    let start := inside - (lastLine before).length
    let line := before.count 0x0A
    let column := match Text.Utf8.decode? ((bytes.drop start).take (inside - start + 1)) with
      | some s => s.length - 1
      | none => inside - start
    (line, column + (index - inside))

def spaces (n : Nat) : String :=
  String.ofList (List.replicate n ' ')

/-- The report about a stretch of a text. -/
def report (source : String) (span : Span) (message : String) : String :=
  let bytes := Text.Utf8.encode source
  let start := bytes.length - span.start
  let stop := bytes.length - span.stop
  let (line, column) := position bytes start
  let number := Decimal.natural (line + 1)
  let gutter := spaces (number.length + 1)
  let content := (Text.splitOn '\n' source).getD line ""
  let marked := min (stop - start) (content.utf8ByteSize - column)
  "TOML parse error at line " ++ number ++ ", column " ++ Decimal.natural (column + 1) ++ "\n" ++
    gutter ++ "|\n" ++
    number ++ " | " ++ content ++ "\n" ++
    gutter ++ "|" ++ spaces (column + 1) ++
    String.ofList (List.replicate (max 1 marked) '^') ++ "\n" ++
    message ++ "\n"

/-- The report, or the message alone where there is no place to show. -/
def reportAt (source : String) (span : Option Span) (message : String) : String :=
  match span with
  | some span => report source span message
  | none => message ++ "\n"

end RequestQuery.Toml
