/-
# Connection pool

A pool hands out connections to at most `maxConnections` holders at a time: a get needs a permit,
and the permit is given back with the connection.  The connections of a database file are kept in a
queue while nobody holds them; a get takes the first one that has not expired, drops the expired
ones before it, and opens a new connection when none is left.  A database in memory has one
connection, which all holders share.

Gets and releases of several holders may interleave, so they are made of steps (`Pool.step?`), each
of which touches the permits or the queue once.  The time of a step comes from outside; a step that
looks at the time more than once may find a different time each time (`Clock`).  `get?` and `release`
are the runs of these steps when nobody else takes one in between.
-/
import RequestQuery.Duration
import RequestQuery.Store.Database

namespace RequestQuery.Store

set_option autoImplicit false

/-! ## Pools -/

structure PoolConfig where
  maxConnections : Nat := 5
  /-- How long a get waits for a permit. -/
  connectionTimeout : Option Duration := some (.seconds 30)
  /-- How long a connection may lie in the queue. -/
  idleTimeout : Option Duration := some (.seconds 300)
  /-- How long a connection may be used at all. -/
  maxLifetime : Option Duration := some (.seconds 1800)
  deriving DecidableEq, Repr, Inhabited

/-- A connection in the queue; times are in nanoseconds. -/
structure IdleConnection where
  connection : Nat
  createdAt : Nat
  lastUsed : Nat
  deriving DecidableEq, Repr, Inhabited

/-- How far a holder has come. -/
inductive Stage where
  | waiting
  /-- Has a permit and no connection. -/
  | granted
  /-- Has found the queue empty. -/
  | opening
  | holding (connection createdAt : Nat)
  /-- Has given the connection back and not yet the permit. -/
  | returned
  deriving DecidableEq, Repr, Inhabited

structure Pool where
  config : PoolConfig
  database : Database
  permits : Nat
  idle : List IdleConnection
  /-- The holders by number. -/
  holders : List (Nat × Stage)
  nextHolder : Nat
  nextConnection : Nat
  opens : Nat
  reuses : Nat
  expirations : Nat
  deriving Inhabited

/-- What a clock shows, reading after reading. -/
abbrev Clock := Nat → Nat

namespace Clock

/-- A clock that shows one time. -/
def stopped (now : Nat) : Clock :=
  fun _ => now

/-- A clock after its first readings. -/
def after (clock : Clock) (readings : Nat) : Clock :=
  fun n => clock (n + readings)

end Clock

/-- One step of a holder. -/
inductive PoolStep where
  /-- A new holder asks for a connection. -/
  | ask
  | grant (holder : Nat)
  | timeOut (holder : Nat)
  | take (holder : Nat) (clock : Clock)
  | opened (holder now : Nat)
  | openFailed (holder : Nat)
  | giveBack (holder now : Nat)
  | leave (holder : Nat)

namespace Pool

/-! ## Holders -/

def stage? (pool : Pool) (holder : Nat) : Option Stage :=
  pool.holders.lookup holder

def setStage (pool : Pool) (holder : Nat) (stage : Stage) : Pool :=
  { pool with
    holders := pool.holders.map fun entry =>
      if entry.1 = holder then (holder, stage) else entry }

def dismiss (pool : Pool) (holder : Nat) : Pool :=
  { pool with holders := pool.holders.filter fun entry => entry.1 ≠ holder }

/-! ## The queue -/

/-- Is more time gone than is allowed? -/
def isOver (limit : Option Duration) (since now : Nat) : Bool :=
  match limit with
  | some limit => limit.nanoseconds < now - since
  | none => false

/-- Is a connection too old, or has it lain in the queue for too long?  Each of the two is decided by
a reading of its own. -/
def isExpired (config : PoolConfig) (clock : Clock) (idle : IdleConnection) : Bool :=
  isOver config.maxLifetime idle.createdAt (clock 0) ||
    isOver config.idleTimeout idle.lastUsed (clock 1)

/-- A queue without the expired connections at its front. -/
def fresh (config : PoolConfig) (clock : Clock) : List IdleConnection → List IdleConnection
  | [] => []
  | first :: rest =>
      if isExpired config clock first then fresh config (clock.after 2) rest else first :: rest

/-! ## Steps -/

/-- The connection that all holders of a database in memory share. -/
def sharedConnection : Nat := 0

/-- A holder with a permit gets a connection or starts to open one. -/
def take (pool : Pool) (holder : Nat) (clock : Clock) : Pool :=
  if pool.database.location.isMemory then
    { pool.setStage holder (.holding sharedConnection (clock 0)) with reuses := pool.reuses + 1 }
  else
    let kept := fresh pool.config clock pool.idle
    let expirations := pool.expirations + (pool.idle.length - kept.length)
    match kept with
    | first :: rest =>
        { pool.setStage holder (.holding first.connection first.createdAt) with
          idle := rest
          reuses := pool.reuses + 1
          expirations }
    | [] => { pool.setStage holder .opening with idle := [], expirations }

def opened (pool : Pool) (holder now : Nat) : Pool :=
  { pool.setStage holder (.holding pool.nextConnection now) with
    nextConnection := pool.nextConnection + 1
    opens := pool.opens + 1 }

/-- The connection of a holder goes to the end of the queue, unless it is the shared one. -/
def giveBack (pool : Pool) (holder connection createdAt now : Nat) : Pool :=
  let pool := pool.setStage holder .returned
  if pool.database.location.isMemory then pool
  else { pool with idle := pool.idle ++ [{ connection, createdAt, lastUsed := now }] }

/-- A holder goes and its permit is free again. -/
def leave (pool : Pool) (holder : Nat) : Pool :=
  { pool.dismiss holder with permits := pool.permits + 1 }

def ask (pool : Pool) : Pool :=
  { pool with
    holders := pool.holders ++ [(pool.nextHolder, .waiting)]
    nextHolder := pool.nextHolder + 1 }

def grant (pool : Pool) (holder : Nat) : Pool :=
  { pool.setStage holder .granted with permits := pool.permits - 1 }

/-- The pool after a step, if the step is possible. -/
def step? (pool : Pool) : PoolStep → Option Pool
  | .ask => some pool.ask
  | .grant holder =>
      if pool.stage? holder = some .waiting ∧ 0 < pool.permits then some (pool.grant holder)
      else none
  | .timeOut holder =>
      if pool.stage? holder = some .waiting ∧ pool.config.connectionTimeout.isSome then
        some (pool.dismiss holder)
      else none
  | .take holder clock =>
      if pool.stage? holder = some .granted then some (pool.take holder clock) else none
  | .opened holder now =>
      if pool.stage? holder = some .opening then some (pool.opened holder now) else none
  | .openFailed holder =>
      if pool.stage? holder = some .opening then some (pool.leave holder) else none
  | .giveBack holder now =>
      match pool.stage? holder with
      | some (.holding connection createdAt) =>
          some (pool.giveBack holder connection createdAt now)
      | _ => none
  | .leave holder =>
      if pool.stage? holder = some .returned then some (pool.leave holder) else none

/-- The pool after steps, if each of them is possible. -/
def steps? (pool : Pool) (steps : List PoolStep) : Option Pool :=
  steps.foldlM step? pool

/-! ## Making a pool -/

/-- A pool whose first connection has been opened; a file keeps it in the queue. -/
def start (config : PoolConfig) (database : Database) (now : Nat) : Pool :=
  { config, database
    permits := config.maxConnections
    idle :=
      if database.location.isMemory then []
      else [{ connection := sharedConnection, createdAt := now, lastUsed := now }]
    holders := []
    nextHolder := 0
    nextConnection := sharedConnection + 1
    opens := 1
    reuses := 0
    expirations := 0 }

/-- Make a pool; `canOpen` says which files the surroundings can open. -/
def create (config : PoolConfig) (database : Database) (canOpen : String → Bool) (now : Nat) :
    Except Fault Pool :=
  if config.maxConnections = 0 then
    .error (.configuration "max_connections must be at least 1")
  else
    match database.location with
    | .memory => .ok (start config database now)
    | .file path =>
        if canOpen path then .ok (start config database now) else .error (.cannotOpen path)

/-! ## Undisturbed use -/

def timedOut (timeout : Duration) : Fault :=
  .pool ("timed out after " ++ timeout.text ++ " waiting for a connection")

/-- The holder number of a get that nobody disturbs, and the pool after it.  Without a free permit
it times out, and without a timeout either it never ends. -/
def get? (pool : Pool) (now : Nat) : Option (Except Fault Nat × Pool) :=
  if pool.permits = 0 then
    pool.config.connectionTimeout.map fun timeout => (.error (timedOut timeout), pool)
  else
    let holder := pool.nextHolder
    let taken := (pool.ask.grant holder).take holder (.stopped now)
    let served := if taken.stage? holder = some .opening then taken.opened holder now else taken
    some (.ok holder, served)

/-- A holder gives its connection and then its permit back. -/
def release (pool : Pool) (holder now : Nat) : Pool :=
  ((pool.steps? [.giveBack holder now, .leave holder]).getD pool)

/-- Can a connection be had and given back again? -/
def check (pool : Pool) (now : Nat) : Bool × Pool :=
  match pool.get? now with
  | some (.ok holder, served) => (true, served.release holder now)
  | _ => (false, pool)

end Pool

end RequestQuery.Store
