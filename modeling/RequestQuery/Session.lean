/-
# Sessions

A session is a conversation with a store: it sends a statement, gets an answer or a failure, and
goes on from there.  It says nothing about the store, so one session can be played against any
list of replies (`Session.play`), and everything it sends is seen.  Sequencing is associative
(`bind_bind`), so how a session was put together does not matter.
-/
import RequestQuery.Record
import RequestQuery.Sql.Statement
import RequestQuery.Failure

namespace RequestQuery

set_option autoImplicit false

inductive Session (α : Type) where
  | done (result : Outcome α)
  /-- Ask for rows. -/
  | query (statement : Sql.Statement) (next : Outcome (List Row) → Session α)
  /-- Change records and learn how many. -/
  | execute (statement : Sql.Statement) (next : Outcome Nat → Session α)
  /-- Add a record and learn its row number. -/
  | insert (statement : Sql.Statement) (next : Outcome Int64 → Session α)

namespace Session

variable {α β : Type}

def bind (session : Session α) (next : α → Session β) : Session β :=
  match session with
  | .done (.ok a) => next a
  | .done (.error failure) => .done (.error failure)
  | .query statement cont => .query statement fun reply => bind (cont reply) next
  | .execute statement cont => .execute statement fun reply => bind (cont reply) next
  | .insert statement cont => .insert statement fun reply => bind (cont reply) next

instance : Monad Session where
  pure a := .done (.ok a)
  bind := bind

/-- A session that sends nothing. -/
def ofOutcome (outcome : Outcome α) : Session α :=
  .done outcome

def raise (cause : Failure.Cause) : Session α :=
  .done (Failure.raise cause)

/-- Ask for rows and hand them on. -/
def rows (statement : Sql.Statement) : Session (List Row) :=
  .query statement .done

def affected (statement : Sql.Statement) : Session Nat :=
  .execute statement .done

def rowNumber (statement : Sql.Statement) : Session Int64 :=
  .insert statement .done

/-- What is found, or a failure. -/
def found (cause : Failure.Cause) : Option α → Session α
  | some a => pure a
  | none => raise cause

/-! ## Laws of sequencing -/

theorem bind_done (session : Session α) : session.bind (fun a => .done (.ok a)) = session := by
  induction session with
  | done result => cases result <;> rfl
  | query statement cont ih => exact congrArg (query statement) (funext ih)
  | execute statement cont ih => exact congrArg (execute statement) (funext ih)
  | insert statement cont ih => exact congrArg (insert statement) (funext ih)

theorem bind_bind {γ : Type} (session : Session α) (f : α → Session β) (g : β → Session γ) :
    (session.bind f).bind g = session.bind fun a => (f a).bind g := by
  induction session with
  | done result => cases result <;> rfl
  | query statement cont ih => exact congrArg (query statement) (funext ih)
  | execute statement cont ih => exact congrArg (execute statement) (funext ih)
  | insert statement cont ih => exact congrArg (insert statement) (funext ih)

end Session

/-! ## Playing a session against replies -/

/-- The reply of a store to any statement; parts that a statement does not ask for are not
looked at. -/
structure Reply where
  rows : List Row := []
  affected : Nat := 0
  rowNumber : Int64 := 0
  failure : Option Failure := none

namespace Reply

/-- A part of a reply, unless it is a failure. -/
def answer {α : Type} (reply : Reply) (part : Reply → α) : Outcome α :=
  match reply.failure with
  | some failure => .error failure
  | none => .ok (part reply)

end Reply

inductive StatementKind where
  | query
  | execute
  | insert
  deriving DecidableEq, Repr

/-- A statement that was sent. -/
structure Sent where
  kind : StatementKind
  statement : Sql.Statement

/-- What became of a session: its result, what it sent, and the replies it did not use. -/
structure Transcript (α : Type) where
  result : Outcome α
  sent : List Sent
  unused : List Reply

namespace Session

variable {α : Type}

/-- The next reply; `silence` is the reply of a store that has none left. -/
def nextReply (silence : Reply) : List Reply → Reply × List Reply
  | [] => (silence, [])
  | reply :: rest => (reply, rest)

def play (silence : Reply) : Session α → List Reply → Transcript α
  | .done result, replies => { result, sent := [], unused := replies }
  | .query statement next, replies =>
      let (reply, rest) := nextReply silence replies
      let after := play silence (next (reply.answer (·.rows))) rest
      { after with sent := ⟨.query, statement⟩ :: after.sent }
  | .execute statement next, replies =>
      let (reply, rest) := nextReply silence replies
      let after := play silence (next (reply.answer (·.affected))) rest
      { after with sent := ⟨.execute, statement⟩ :: after.sent }
  | .insert statement next, replies =>
      let (reply, rest) := nextReply silence replies
      let after := play silence (next (reply.answer (·.rowNumber))) rest
      { after with sent := ⟨.insert, statement⟩ :: after.sent }

end Session

end RequestQuery
