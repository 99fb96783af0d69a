/-
# Records

A record is a row together with the records related to it.  It is written as one object in two
ways: `toFlatJson` lists the columns and then the relations, so a name that both have occurs twice;
`toJson` puts each relation in the place of the column of its name, if there is one.
-/
import RequestQuery.Json.Printer

namespace RequestQuery

set_option autoImplicit false

/-- The columns of a record by name. -/
abbrev Row := Json.Members

mutual

inductive Record where
  | of (fields : Json.Members) (relations : List (String × Related))

/-- What one record is related to under one name. -/
inductive Related where
  | many (records : List Record)
  | one (record : Option Record)

end

instance : Inhabited Record := ⟨.of [] []⟩

instance : Inhabited Related := ⟨.one none⟩

namespace Related

def toList : Related → List Record
  | .many records => records
  | .one record => record.toList

def size (related : Related) : Nat :=
  related.toList.length

def isEmpty (related : Related) : Bool :=
  related.toList.isEmpty

end Related

namespace Record

/-! ## Parts of a record -/

def ofRow (row : Row) : Record :=
  .of row []

def fields : Record → Row
  | .of fields _ => fields

def relations : Record → Ordered Related
  | .of _ relations => relations

def get? (record : Record) (column : String) : Option Json.Value :=
  record.fields.get? column

def string? (record : Record) (column : String) : Option String :=
  (record.get? column).bind Json.Value.string?

def int64? (record : Record) (column : String) : Option Int64 :=
  (record.get? column).bind Json.Value.int64?

def relation? (record : Record) (name : String) : Option Related :=
  record.relations.get? name

/-- The records of a relation that can have many. -/
def many (record : Record) (name : String) : List Record :=
  match record.relation? name with
  | some (.many records) => records
  | _ => []

/-- The record of a relation that can have one. -/
def one? (record : Record) (name : String) : Option Record :=
  match record.relation? name with
  | some (.one related) => related
  | _ => none

/-! ## Changing a record -/

def withRelation (record : Record) (name : String) (related : Related) : Record :=
  .of record.fields (record.relations.put name related)

/-- Leave out columns. -/
def without (record : Record) (columns : List String) : Record :=
  .of (columns.foldl Ordered.remove record.fields) record.relations

/-! ## Writing -/

mutual

/-- Each relation in the place of the column of its name. -/
def toJson : Record → Json.Value
  | .of fields relations => .object (placed fields relations)

def placed (fields : Json.Members) : List (String × Related) → Json.Members
  | [] => fields
  | (name, related) :: rest => placed (Ordered.put fields name (relatedToJson related)) rest

def relatedToJson : Related → Json.Value
  | .many records => .array (listToJson records)
  | .one none => .null
  | .one (some record) => toJson record

def listToJson : List Record → List Json.Value
  | [] => []
  | record :: rest => toJson record :: listToJson rest

end

mutual

/-- The columns and then the relations. -/
def toFlatJson : Record → Json.Value
  | .of fields relations => .object (fields ++ flatRelations relations)

def flatRelations : List (String × Related) → Json.Members
  | [] => []
  | (name, related) :: rest => (name, relatedToFlatJson related) :: flatRelations rest

def relatedToFlatJson : Related → Json.Value
  | .many records => .array (listToFlatJson records)
  | .one none => .null
  | .one (some record) => toFlatJson record

def listToFlatJson : List Record → List Json.Value
  | [] => []
  | record :: rest => toFlatJson record :: listToFlatJson rest

end

end Record

end RequestQuery
