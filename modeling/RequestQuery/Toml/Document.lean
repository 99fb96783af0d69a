/-
# Documents of TOML

A document is a table of tables.  A table comes into being in one of four ways, and that decides
what may be added to it later: by a header of its own, implied by the header of a table inside it,
by a dotted key, or written inline.

* A header may name a table that is only implied so far; the table then moves to the end of its
  parent.  Any other table has one header at most.
* A dotted key may pass through tables that are implied or made by dotted keys, and it ends in one
  that dotted keys have made.
* A path that meets an array of tables goes on in the last of them.
* Inline tables and arrays are closed.

`Table.change?` follows a path under these rules, making the tables that are missing.
-/
import RequestQuery.Toml.Text

namespace RequestQuery.Toml

set_option autoImplicit false

/-! ## Values -/

inductive TableKind where
  | header
  | implied
  | dotted
  | inline
  deriving DecidableEq, Repr, Inhabited

mutual

inductive Value where
  | string (s : String)
  | integer (i : Int64)
  | double (x : Float)
  | bool (b : Bool)
  | moment (s : String)
  | array (items : List Node)
  | table (kind : TableKind) (entries : List (Key × Node))
  /-- The tables of repeated headers. -/
  | tables (items : List Node)

/-- A value and where it stands, if it stands in one place. -/
inductive Node where
  | at (span : Option Span) (value : Value)

end

instance : Inhabited Value := ⟨.bool false⟩

instance : Inhabited Node := ⟨.at none default⟩

def Node.span : Node → Option Span
  | .at span _ => span

def Node.value : Node → Value
  | .at _ value => value

abbrev Entries := List (Key × Node)

namespace Entries

def find? (entries : Entries) (name : String) : Option Node :=
  (List.find? (fun entry => entry.1.name = name) entries).map (·.2)

/-- Replace the value of a name that is there. -/
def replace (entries : Entries) (name : String) (node : Node) : Entries :=
  entries.map fun entry => if entry.1.name = name then (entry.1, node) else entry

def remove (entries : Entries) (name : String) : Entries :=
  entries.filter fun entry => entry.1.name ≠ name

end Entries

/-! ## Paths -/

structure Table where
  kind : TableKind
  entries : Entries

namespace Table

def toValue (table : Table) : Value :=
  .table table.kind table.entries

/-- May a path go on in a table of this kind? -/
def isPassable (byDottedKey : Bool) : TableKind → Bool
  | .header => !byDottedKey
  | .implied | .dotted => true
  | .inline => false

/-- The kind of a table that a path has to make on its way. -/
def madeKind (byDottedKey : Bool) : TableKind :=
  if byDottedKey then .dotted else .implied

/-- Change the table at the end of a path, and hand on what the change finds there. -/
def change? {α : Type} (byDottedKey : Bool) (f : Table → Option (α × Table)) :
    List Key → Table → Option (α × Table)
  | [], table => f table
  | key :: path, table =>
      match table.entries.find? key.name with
      | none => do
          let (found, made) ← change? byDottedKey f path ⟨madeKind byDottedKey, []⟩
          pure (found, { table with entries := table.entries ++ [(key, .at none made.toValue)] })
      | some (.at span (.table kind entries)) =>
          if isPassable byDottedKey kind then do
            let (found, changed) ← change? byDottedKey f path ⟨kind, entries⟩
            let node := Node.at span changed.toValue
            pure (found, { table with entries := table.entries.replace key.name node })
          else none
      | some (.at span (.tables items)) =>
          match items.getLast? with
          | some (.at last (.table kind entries)) => do
              let (found, changed) ← change? byDottedKey f path ⟨kind, entries⟩
              let items := items.dropLast ++ [.at last changed.toValue]
              let node := Node.at span (.tables items)
              pure (found, { table with entries := table.entries.replace key.name node })
          | _ => none
      | some _ => none

/-- Add an entry whose name is new. -/
def add? (key : Key) (node : Node) (table : Table) : Option (Unit × Table) :=
  match table.entries.find? key.name with
  | some _ => none
  | none => some ((), { table with entries := table.entries ++ [(key, node)] })

/-- Add the value of a dotted key: it goes into a table that dotted keys have made, or, with one
segment alone, into the table itself. -/
def addDotted? (path : List Key) (key : Key) (node : Node) (table : Table) : Option Table :=
  let place := fun (target : Table) =>
    if (target.kind == .dotted) == path.isEmpty then none else target.add? key node
  (change? true place path table).map (·.2)

/-- The table of the pairs between braces. -/
def ofPairs? (pairs : List (List Key × Key × Node)) : Option Table :=
  pairs.foldlM (fun table pair => table.addDotted? pair.1 pair.2.1 pair.2.2) ⟨.inline, []⟩

end Table

/-! ## Putting a document together -/

/-- A header that has opened a table; the stretch of the table starts with the header and reaches as
far as its last value. -/
structure Header where
  path : List Key
  key : Key
  span : Span
  /-- It is one of the headers that may be repeated. -/
  repeated : Bool

/-- A header whose table has got one more value. -/
def Header.upTo (header : Header) (node : Node) : Header :=
  match node.span with
  | some span => { header with span := ⟨header.span.start, span.stop⟩ }
  | none => header

/-- A document as far as it has been read: the finished tables and the one that is open.  The first
table of a document has no header. -/
structure Assembly where
  root : Table := ⟨.header, []⟩
  current : Table := ⟨.header, []⟩
  header : Option Header := none

namespace Assembly

/-- The stretch from the first node to the last one. -/
def stretch (nodes : List Node) : Option Span := do
  let first ← nodes.head?.bind Node.span
  let last ← nodes.getLast?.bind Node.span
  pure ⟨first.start, last.stop⟩

/-- Put a node at the end of the tables of a name. -/
def append? (key : Key) (node : Node) (table : Table) : Option (Unit × Table) :=
  match table.entries.find? key.name with
  | some (.at _ (.tables items)) =>
      let tables := Node.at (stretch (items ++ [node])) (.tables (items ++ [node]))
      some ((), { table with entries := table.entries.replace key.name tables })
  | _ => none

/-- The document with the open table put in its place. -/
def close? (assembly : Assembly) : Option Table :=
  match assembly.header with
  | none => some assembly.current
  | some header =>
      let node := Node.at (some header.span) assembly.current.toValue
      let place := if header.repeated then append? header.key node else Table.add? header.key node
      (assembly.root.change? false place header.path).map (·.2)

/-- Take the entries of an implied table out of its parent. -/
def takeImplied? (key : Key) (parent : Table) : Option (Entries × Table) :=
  match parent.entries.find? key.name with
  | none => some ([], parent)
  | some (.at _ (.table .implied entries)) =>
      some (entries, { parent with entries := parent.entries.remove key.name })
  | some _ => none

/-- Make room for one more table of a name. -/
def makeRoom? (key : Key) (parent : Table) : Option (Entries × Table) :=
  match parent.entries.find? key.name with
  | none =>
      some ([], { parent with entries := parent.entries ++ [(key, .at none (.tables []))] })
  | some (.at _ (.tables _)) => some ([], parent)
  | some _ => none

/-- Close the open table and open the one of a header. -/
def openTable? (assembly : Assembly) (header : Header) : Option Assembly := do
  let root ← assembly.close?
  let room := if header.repeated then makeRoom? header.key else takeImplied? header.key
  let (entries, root) ← root.change? false room header.path
  pure { root, current := ⟨.header, entries⟩, header := some header }

/-- Add a value to the open table. -/
def addValue? (assembly : Assembly) (path : List Key) (key : Key) (node : Node) :
    Option Assembly := do
  let current ← assembly.current.addDotted? path key node
  pure { assembly with current, header := assembly.header.map (·.upTo node) }

end Assembly

end RequestQuery.Toml
