/-
# Conversations

What a session says and hears is a list of exchanges.  `Runs` relates a session to the exchanges and
the result it can have, whatever the store answers; a play is one such run, with the replies for
answers (`runs_exchanges`).  A run of one session followed by another falls into a run of each
(`Runs.of_bind`), so conversations are taken apart as the sessions are put together.

`Sends` says that everything a session can ever send has some property; it needs no run at all.
Nor do `Steady`, which says that a session fails only where the store does, and `Stops`, which says
that it does fail there, at once and in the same way.  What a session with both has said up to a
failure is what it says at the beginning of a run without one (`Stops.cut_of_runs`).
-/
import RequestQuery.Session

namespace RequestQuery

set_option autoImplicit false

/-- A statement and what came back for it. -/
inductive Exchange where
  | query (statement : Sql.Statement) (answer : Outcome (List Row))
  | execute (statement : Sql.Statement) (answer : Outcome Nat)
  | insert (statement : Sql.Statement) (answer : Outcome Int64)

namespace Exchange

def sent : Exchange → Sent
  | .query statement _ => ⟨.query, statement⟩
  | .execute statement _ => ⟨.execute, statement⟩
  | .insert statement _ => ⟨.insert, statement⟩

/-- What came back is no failure. -/
def Answered : Exchange → Prop
  | .query _ answer => ∃ rows, answer = .ok rows
  | .execute _ answer => ∃ count, answer = .ok count
  | .insert _ answer => ∃ number, answer = .ok number

/-- The failure that came back. -/
def failure? : Exchange → Option Failure
  | .query _ (.error failure) | .execute _ (.error failure) | .insert _ (.error failure) =>
      some failure
  | _ => none

/-- What came back is the part of a reply that the statement asks for. -/
def AnsweredBy (reply : Reply) : Exchange → Prop
  | .query _ answer => answer = reply.answer (·.rows)
  | .execute _ answer => answer = reply.answer (·.affected)
  | .insert _ answer => answer = reply.answer (·.rowNumber)

theorem failure?_of_answeredBy {reply : Reply} {exchange : Exchange}
    (answered : exchange.AnsweredBy reply) : exchange.failure? = reply.failure := by
  cases exchange with
  | query statement answer | execute statement answer | insert statement answer =>
      rw [show answer = _ from answered, Reply.answer]
      cases reply.failure <;> rfl

theorem failure?_of_answered {exchange : Exchange} (answered : exchange.Answered) :
    exchange.failure? = none := by
  cases exchange with
  | query statement answer | execute statement answer | insert statement answer =>
      obtain ⟨part, rfl⟩ := answered
      rfl

end Exchange

namespace Session

variable {α β : Type}

/-- The exchanges of a session that is played against replies. -/
def exchanges (silence : Reply) : Session α → List Reply → List Exchange
  | .done _, _ => []
  | .query statement next, replies =>
      let (reply, rest) := nextReply silence replies
      let answer := reply.answer (·.rows)
      .query statement answer :: exchanges silence (next answer) rest
  | .execute statement next, replies =>
      let (reply, rest) := nextReply silence replies
      let answer := reply.answer (·.affected)
      .execute statement answer :: exchanges silence (next answer) rest
  | .insert statement next, replies =>
      let (reply, rest) := nextReply silence replies
      let answer := reply.answer (·.rowNumber)
      .insert statement answer :: exchanges silence (next answer) rest

/-- A session can have these exchanges and this result. -/
inductive Runs : Session α → List Exchange → Outcome α → Prop where
  | done (result : Outcome α) : Runs (.done result) [] result
  | query {statement : Sql.Statement} {next : Outcome (List Row) → Session α}
      {log : List Exchange} {result : Outcome α} (answer : Outcome (List Row))
      (after : Runs (next answer) log result) :
      Runs (.query statement next) (.query statement answer :: log) result
  | execute {statement : Sql.Statement} {next : Outcome Nat → Session α}
      {log : List Exchange} {result : Outcome α} (answer : Outcome Nat)
      (after : Runs (next answer) log result) :
      Runs (.execute statement next) (.execute statement answer :: log) result
  | insert {statement : Sql.Statement} {next : Outcome Int64 → Session α}
      {log : List Exchange} {result : Outcome α} (answer : Outcome Int64)
      (after : Runs (next answer) log result) :
      Runs (.insert statement next) (.insert statement answer :: log) result

/-! ## A play is a run -/

theorem sent_exchanges (silence : Reply) (session : Session α) (replies : List Reply) :
    (session.exchanges silence replies).map Exchange.sent =
      (session.play silence replies).sent := by
  induction session generalizing replies with
  | done result => rfl
  | query statement next ih | execute statement next ih | insert statement next ih =>
      simp only [exchanges, play, List.map_cons, ih]
      rfl

theorem runs_exchanges (silence : Reply) (session : Session α) (replies : List Reply) :
    session.Runs (session.exchanges silence replies) (session.play silence replies).result := by
  induction session generalizing replies with
  | done result => exact .done result
  | query statement next ih => exact .query _ (ih _ _)
  | execute statement next ih => exact .execute _ (ih _ _)
  | insert statement next ih => exact .insert _ (ih _ _)

/-- The answers of a play are the replies, each in its place. -/
theorem answeredBy_of_exchanges (silence : Reply) (session : Session α) (replies : List Reply) :
    ∀ {position : Nat} {exchange : Exchange},
      (session.exchanges silence replies)[position]? = some exchange →
        exchange.AnsweredBy (replies[position]?.getD silence) := by
  induction session generalizing replies with
  | done result => exact fun found => nomatch found
  | query statement next ih | execute statement next ih | insert statement next ih =>
      intro position exchange found
      have placed : (nextReply silence replies).1 = replies[0]?.getD silence ∧
          ∀ later : Nat, (nextReply silence replies).2[later]? = replies[later + 1]? := by
        cases replies with
        | nil => exact ⟨rfl, fun later => by simp [nextReply]⟩
        | cons reply rest => exact ⟨rfl, fun later => rfl⟩
      cases position with
      | zero =>
          cases found
          rw [← placed.1]
          rfl
      | succ later =>
          rw [← placed.2 later]
          exact ih _ _ found

/-! ## Runs of sessions in sequence -/

namespace Runs

variable {session : Session α} {next : α → Session β} {log : List Exchange}

/-- A failure ends the first session and the whole one; otherwise the second one goes on. -/
theorem of_bind {result : Outcome β} (run : (session >>= next).Runs log result) :
    (∃ failure, session.Runs log (.error failure) ∧ result = .error failure) ∨
      ∃ a before after, log = before ++ after ∧ session.Runs before (.ok a) ∧
        (next a).Runs after result := by
  change (session.bind next).Runs log result at run
  induction session generalizing log with
  | done made =>
      cases made with
      | error failure =>
          cases run
          exact .inl ⟨failure, .done _, rfl⟩
      | ok a => exact .inr ⟨a, [], log, rfl, .done _, run⟩
  | query statement cont ih =>
      cases run with
      | query answer after =>
          obtain ⟨failure, ended, same⟩ | ⟨a, front, back, rfl, first, second⟩ := ih answer after
          · exact .inl ⟨failure, .query answer ended, same⟩
          · exact .inr ⟨a, _ :: front, back, rfl, .query answer first, second⟩
  | execute statement cont ih =>
      cases run with
      | execute answer after =>
          obtain ⟨failure, ended, same⟩ | ⟨a, front, back, rfl, first, second⟩ := ih answer after
          · exact .inl ⟨failure, .execute answer ended, same⟩
          · exact .inr ⟨a, _ :: front, back, rfl, .execute answer first, second⟩
  | insert statement cont ih =>
      cases run with
      | insert answer after =>
          obtain ⟨failure, ended, same⟩ | ⟨a, front, back, rfl, first, second⟩ := ih answer after
          · exact .inl ⟨failure, .insert answer ended, same⟩
          · exact .inr ⟨a, _ :: front, back, rfl, .insert answer first, second⟩

theorem of_bind_ok {b : β} (run : (session >>= next).Runs log (.ok b)) :
    ∃ a before after, log = before ++ after ∧ session.Runs before (.ok a) ∧
      (next a).Runs after (.ok b) := by
  rcases of_bind run with ⟨failure, _, impossible⟩ | found
  · cases impossible
  · exact found

theorem of_pure {a : α} {result : Outcome α} (run : (pure a : Session α).Runs log result) :
    log = [] ∧ result = .ok a := by
  cases run
  exact ⟨rfl, rfl⟩

/-- Rows that were asked for came back. -/
theorem of_rows {statement : Sql.Statement} {rows : List Row}
    (run : (Session.rows statement).Runs log (.ok rows)) :
    log = [.query statement (.ok rows)] := by
  cases run with
  | query answer after =>
      cases after
      rfl

end Runs

/-! ## Everything a session can send -/

/-- Whatever comes back, only statements with this property are sent. -/
def Sends (P : Sent → Prop) : Session α → Prop
  | .done _ => True
  | .query statement next => P ⟨.query, statement⟩ ∧ ∀ answer, Sends P (next answer)
  | .execute statement next => P ⟨.execute, statement⟩ ∧ ∀ answer, Sends P (next answer)
  | .insert statement next => P ⟨.insert, statement⟩ ∧ ∀ answer, Sends P (next answer)

namespace Sends

variable {P : Sent → Prop}

theorem pure (a : α) : Sends P (Pure.pure a : Session α) := trivial

theorem ofOutcome (outcome : Outcome α) : Sends P (Session.ofOutcome outcome) := trivial

theorem rows {statement : Sql.Statement} (h : P ⟨.query, statement⟩) :
    Sends P (Session.rows statement) :=
  ⟨h, fun _ => trivial⟩

theorem bind {session : Session α} {next : α → Session β} (first : session.Sends P)
    (second : ∀ a, (next a).Sends P) : (session >>= next).Sends P := by
  change (session.bind next).Sends P
  induction session with
  | done made =>
      cases made with
      | error failure => trivial
      | ok a => exact second a
  | query statement cont ih | execute statement cont ih | insert statement cont ih =>
      exact ⟨first.1, fun answer => ih answer (first.2 answer)⟩

theorem foldlM {step : β → α → Session β} {items : List α}
    (h : ∀ b, ∀ item ∈ items, (step b item).Sends P) (b : β) :
    (items.foldlM step b).Sends P := by
  induction items generalizing b with
  | nil => trivial
  | cons item items ih =>
      rw [List.foldlM_cons]
      exact (h b item List.mem_cons_self).bind
        (ih fun b other member => h b other (List.mem_cons_of_mem item member))

theorem of_play {session : Session α} (h : session.Sends P) (silence : Reply)
    (replies : List Reply) : ∀ sent ∈ (session.play silence replies).sent, P sent := by
  induction session generalizing replies with
  | done result => exact fun _ member => absurd member List.not_mem_nil
  | query statement next ih | execute statement next ih | insert statement next ih =>
      intro sent member
      rcases List.mem_cons.1 member with rfl | member
      · exact h.1
      · exact ih _ (h.2 _) _ sent member

end Sends

/-! ## Sessions that fail only where the store does -/

/-- As long as everything is answered, the session goes on to a result. -/
def Steady : Session α → Prop
  | .done result => ∃ a, result = .ok a
  | .query _ next => ∀ rows, Steady (next (.ok rows))
  | .execute _ next => ∀ count, Steady (next (.ok count))
  | .insert _ next => ∀ number, Steady (next (.ok number))

namespace Steady

theorem pure (a : α) : Steady (Pure.pure a : Session α) := ⟨a, rfl⟩

theorem rows (statement : Sql.Statement) : Steady (Session.rows statement) :=
  fun rows => ⟨rows, rfl⟩

theorem bind {session : Session α} {next : α → Session β} (first : session.Steady)
    (second : ∀ a, (next a).Steady) : (session >>= next).Steady := by
  change (session.bind next).Steady
  induction session with
  | done made =>
      obtain ⟨a, rfl⟩ := first
      exact second a
  | query statement cont ih | execute statement cont ih | insert statement cont ih =>
      exact fun answer => ih _ (first answer)

theorem foldlM {ι : Type} {step : β → ι → Session β} (h : ∀ b item, (step b item).Steady)
    (items : List ι) (b : β) : (items.foldlM step b).Steady := by
  induction items generalizing b with
  | nil => exact pure b
  | cons item items ih =>
      rw [List.foldlM_cons]
      exact (h b item).bind ih

theorem result_of_runs {session : Session α} (steady : session.Steady) {log : List Exchange}
    {result : Outcome α} (run : session.Runs log result)
    (answered : ∀ exchange ∈ log, exchange.Answered) : ∃ a, result = .ok a := by
  induction run with
  | done => exact steady
  | query answer _ ih | execute answer _ ih | insert answer _ ih =>
      rw [List.forall_mem_cons] at answered
      obtain ⟨part, rfl⟩ := answered.1
      exact ih (steady part) answered.2

end Steady

/-! ## Sessions that end at the first failure -/

/-- A failure of the store is the end of the session and its result. -/
def Stops : Session α → Prop
  | .done _ => True
  | .query _ next =>
      (∀ failure, next (.error failure) = .done (.error failure)) ∧
        ∀ rows, Stops (next (.ok rows))
  | .execute _ next =>
      (∀ failure, next (.error failure) = .done (.error failure)) ∧
        ∀ count, Stops (next (.ok count))
  | .insert _ next =>
      (∀ failure, next (.error failure) = .done (.error failure)) ∧
        ∀ number, Stops (next (.ok number))

/-- A session that fails as the store does can be answered to its end. -/
theorem Steady.exists_runs {session : Session α} (steady : session.Steady) :
    ∃ log a, session.Runs log (.ok a) := by
  induction session with
  | done result =>
      obtain ⟨a, rfl⟩ := steady
      exact ⟨[], a, .done _⟩
  | query statement next ih =>
      obtain ⟨log, a, run⟩ := ih (.ok []) (steady [])
      exact ⟨_, a, .query _ run⟩
  | execute statement next ih =>
      obtain ⟨log, a, run⟩ := ih (.ok 0) (steady 0)
      exact ⟨_, a, .execute _ run⟩
  | insert statement next ih =>
      obtain ⟨log, a, run⟩ := ih (.ok 0) (steady 0)
      exact ⟨_, a, .insert _ run⟩

namespace Stops

theorem pure (a : α) : Stops (Pure.pure a : Session α) := trivial

theorem rows (statement : Sql.Statement) : Stops (Session.rows statement) :=
  ⟨fun _ => rfl, fun _ => trivial⟩

theorem bind {session : Session α} {next : α → Session β} (first : session.Stops)
    (second : ∀ a, (next a).Stops) : (session >>= next).Stops := by
  change (session.bind next).Stops
  induction session with
  | done made =>
      cases made with
      | error failure => trivial
      | ok a => exact second a
  | query statement cont ih | execute statement cont ih | insert statement cont ih =>
      refine ⟨fun failure => ?_, fun answer => ih _ (first.2 answer)⟩
      change (cont (.error failure)).bind next = _
      rw [first.1 failure]
      rfl

theorem foldlM {ι : Type} {step : β → ι → Session β} (h : ∀ b item, (step b item).Stops)
    (items : List ι) (b : β) : (items.foldlM step b).Stops := by
  induction items generalizing b with
  | nil => exact pure b
  | cons item items ih =>
      rw [List.foldlM_cons]
      exact (h b item).bind ih

/-- A failing exchange is the last one, and its failure is the result. -/
theorem last_of_failure {session : Session α} (stops : session.Stops) {log : List Exchange}
    {result : Outcome α} (run : session.Runs log result) {exchange : Exchange}
    (member : exchange ∈ log) {failure : Failure} (failed : exchange.failure? = some failure) :
    log.getLast? = some exchange ∧ result = .error failure := by
  induction run with
  | done result => cases member
  | query answer after ih | execute answer after ih | insert answer after ih =>
      cases answer with
      | error raised =>
          rw [stops.1 raised] at after
          cases after
          obtain rfl := List.mem_singleton.1 member
          cases failed
          exact ⟨rfl, rfl⟩
      | ok part =>
          rcases List.mem_cons.1 member with rfl | later
          · cases failed
          · obtain ⟨last, ended⟩ := ih (stops.2 part) later
            rw [List.getLast?_cons, last]
            exact ⟨rfl, ended⟩

/-- A run is cut at its failing exchange: that is its last one and gives the result, and up to there
the run is the beginning of one that succeeds. -/
structure Cut (session : Session α) (log : List Exchange) (result : Outcome α)
    (failure : Failure) : Prop where
  failed : result = .error failure
  beginning : ∃ front failing instead back a, log = front ++ [failing] ∧
    failing.failure? = some failure ∧ failing.sent = instead.sent ∧
      session.Runs (front ++ instead :: back) (.ok a)

section Cut

variable {session rest : Session α} {exchange : Exchange} {failure : Failure}

/-- An exchange that fails is cut at once; any answer in its place goes on to an end. -/
theorem Cut.at_failure {instead : Exchange} (steady : rest.Steady)
    (goesOn : ∀ {log : List Exchange} {a : α}, rest.Runs log (.ok a) →
      session.Runs (instead :: log) (.ok a))
    (why : exchange.failure? = some failure) (same : exchange.sent = instead.sent) :
    Cut session [exchange] (.error failure) failure := by
  obtain ⟨back, a, completed⟩ := steady.exists_runs
  exact ⟨rfl, [], exchange, instead, back, a, rfl, why, same, goesOn completed⟩

/-- What was said before stays said. -/
theorem Cut.later {log : List Exchange} {result : Outcome α}
    (goesOn : ∀ {log : List Exchange} {a : α}, rest.Runs log (.ok a) →
      session.Runs (exchange :: log) (.ok a))
    (cut : Cut rest log result failure) : Cut session (exchange :: log) result failure := by
  obtain ⟨failed, front, failing, instead, back, a, rfl, why, same, whole⟩ := cut
  exact ⟨failed, exchange :: front, failing, instead, back, a, rfl, why, same, goesOn whole⟩

end Cut

/-- **A run succeeds or is cut** at the first failure. -/
theorem cut_of_runs {session : Session α} (stops : session.Stops) (steady : session.Steady)
    {log : List Exchange} {result : Outcome α} (run : session.Runs log result) :
    (∃ a, result = .ok a) ∨ ∃ failure, Cut session log result failure := by
  induction run with
  | done result => exact .inl steady
  | @query statement _ _ _ answer after ih =>
      cases answer with
      | error failure =>
          rw [stops.1 failure] at after
          cases after
          exact .inr ⟨failure, .at_failure (steady []) (.query (.ok [])) rfl rfl⟩
      | ok rows =>
          rcases ih (stops.2 rows) (steady rows) with succeeds | ⟨failure, cut⟩
          · exact .inl succeeds
          · exact .inr ⟨failure, cut.later (.query (.ok rows))⟩
  | @execute statement _ _ _ answer after ih =>
      cases answer with
      | error failure =>
          rw [stops.1 failure] at after
          cases after
          exact .inr ⟨failure, .at_failure (steady 0) (.execute (.ok 0)) rfl rfl⟩
      | ok count =>
          rcases ih (stops.2 count) (steady count) with succeeds | ⟨failure, cut⟩
          · exact .inl succeeds
          · exact .inr ⟨failure, cut.later (.execute (.ok count))⟩
  | @insert statement _ _ _ answer after ih =>
      cases answer with
      | error failure =>
          rw [stops.1 failure] at after
          cases after
          exact .inr ⟨failure, .at_failure (steady 0) (.insert (.ok 0)) rfl rfl⟩
      | ok number =>
          rcases ih (stops.2 number) (steady number) with succeeds | ⟨failure, cut⟩
          · exact .inl succeeds
          · exact .inr ⟨failure, cut.later (.insert (.ok number))⟩

end Stops

end Session

end RequestQuery
