/-
# Permits and connections are conserved

However the steps of gets and releases interleave, and whatever the clocks show, a permit is either
free or has a holder, and a holder that failed or timed out has none (`Sound`).  For a file, every
connection that was ever opened lies in the queue, is in use, or was dropped as expired, and none of
them is in two places (`Accounted`).

The bound on live connections is kept nowhere.  It holds because a connection is opened only under a
permit and only when the queue was just found empty, and because a connection is back in the queue
before its permit is free again.  Both are read off the effects of single steps; `steps?_conserved`
then follows a run from its first pool to its last.
-/
import Mathlib.Data.List.Induction
import Mathlib.Data.List.Perm.Subperm
import RequestQuery.Proofs.Store.Holders

namespace RequestQuery.Store.Pool

set_option autoImplicit false

variable {pool after : Pool} {step : PoolStep}

/-! ## Permits -/

/-- Holders have numbers of their own, and each permit is free or has a holder. -/
structure Sound (config : PoolConfig) (database : Database) (pool : Pool) : Prop where
  sameConfig : pool.config = config
  sameDatabase : pool.database = database
  distinct : (pool.holders.map (·.1)).Nodup
  numbered : ∀ entry ∈ pool.holders, entry.1 < pool.nextHolder
  permits : pool.permits + pool.permitsHeld = config.maxConnections

section Permits

variable {config : PoolConfig} {database : Database}

theorem sound_start (config : PoolConfig) (database : Database) (now : Nat) :
    (start config database now).Sound config database where
  sameConfig := rfl
  sameDatabase := rfl
  distinct := List.nodup_nil
  numbered := nofun
  permits := rfl

theorem Sound.fresh (sound : pool.Sound config database) :
    ∀ entry ∈ pool.holders, entry.1 ≠ pool.nextHolder :=
  fun entry member => Nat.ne_of_lt (sound.numbered entry member)

theorem Sound.of_ask (sound : pool.Sound config database) : pool.ask.Sound config database where
  sameConfig := sound.sameConfig
  sameDatabase := sound.sameDatabase
  distinct := by
    rw [Pool.ask, List.map_append, List.nodup_append]
    refine ⟨sound.distinct, List.nodup_singleton _, ?_⟩
    intro number old other new same
    obtain ⟨entry, member, rfl⟩ := List.mem_map.1 old
    exact sound.fresh entry member (same.trans (List.mem_singleton.1 new))
  numbered := by
    intro entry member
    rcases List.mem_append.1 member with old | new
    · exact Nat.lt_succ_of_lt (sound.numbered entry old)
    · rw [List.mem_singleton.1 new]
      exact Nat.lt_succ_self pool.nextHolder
  permits := by
    have held : pool.ask.permitsHeld = pool.permitsHeld := by
      simp [permitsHeld, Pool.ask, List.countP_append]
    rw [held]
    exact sound.permits

section Turn

variable {holder : Nat} {before : Stage} {next : Option Stage} {rest : Pool}
  {front back : List (Nat × Stage)}

theorem Effect.unchanged (effect : pool.Effect step holder before next rest) :
    rest.config = pool.config ∧ rest.database = pool.database ∧
      rest.nextHolder = pool.nextHolder := by
  cases effect <;> exact ⟨rfl, rfl, rfl⟩

theorem Sound.of_turn (sound : pool.Sound config database)
    (turns : pool.Turns step after holder before next rest front back) :
    after.Sound config database := by
  obtain ⟨effect, place, apart, rfl⟩ := turns
  obtain ⟨sameConfig, sameDatabase, sameNumber⟩ := effect.unchanged
  have numbers := place ▸ numbers_placed before next
  refine ⟨sameConfig.trans sound.sameConfig, sameDatabase.trans sound.sameDatabase,
    sound.distinct.sublist numbers, ?_, ?_⟩
  · intro entry member
    obtain ⟨old, present, same⟩ := List.mem_map.1 (numbers.subset (List.mem_map_of_mem member))
    change entry.1 < rest.nextHolder
    rw [sameNumber, ← same]
    exact sound.numbered old present
  · have permits := sound.permits
    simp only [permitsHeld, place, countP_placed] at permits ⊢
    cases effect <;> simp at permits ⊢ <;> omega

end Turn

theorem Sound.of_step (sound : pool.Sound config database)
    (possible : pool.step? step = some after) : after.Sound config database := by
  obtain ⟨rfl, rfl⟩ | ⟨_, _, _, _, _, _, turns⟩ := step?_cases sound.distinct possible
  · exact sound.of_ask
  · exact sound.of_turn turns

end Permits

/-! ## Connections -/

/-- The connections that can still be used. -/
def connections (pool : Pool) : List Nat :=
  pool.idle.map (·.connection) ++ pool.checkedOut

/-- Every connection of a file is in one place, and there are no more than permits. -/
structure Accounted (pool : Pool) : Prop where
  within : pool.idle.length + pool.checkedOut.length + pool.beingOpened ≤
    pool.config.maxConnections
  opens : pool.opens = pool.idle.length + pool.checkedOut.length + pool.expirations
  once : pool.connections.Nodup
  made : ∀ connection ∈ pool.connections, connection < pool.nextConnection

section Connections

variable {config : PoolConfig} {database : Database} {holder : Nat} {before : Stage}
  {next : Option Stage} {rest : Pool} {front back : List (Nat × Stage)}

/-- A step leaves the connections where they are, moves them or drops them, or it opens one. -/
theorem connections_turn (file : pool.database.location.isMemory = false)
    (turns : pool.Turns step after holder before next rest front back) :
    (after.connections.Subperm pool.connections ∧ after.nextConnection = pool.nextConnection) ∨
      (after.connections.Perm (pool.nextConnection :: pool.connections) ∧
        after.nextConnection = pool.nextConnection + 1) := by
  obtain ⟨effect, place, apart, rfl⟩ := turns
  simp only [List.subperm_iff_count, List.perm_iff_count, connections, checkedOut, place,
    filterMap_placed, List.count_append]
  cases effect with
  | opened =>
      refine .inr ⟨fun connection => ?_, rfl⟩
      simp [List.count_cons]
      omega
  | share memory | keepShared memory => exact absurd (file.symm.trans memory) nofun
  | reuse _ split _ =>
      refine .inl ⟨fun connection => ?_, rfl⟩
      simp [split, List.count_cons]
      omega
  | startOpening _ =>
      refine .inl ⟨fun connection => ?_, rfl⟩
      simp
  | enqueue _ =>
      refine .inl ⟨fun connection => ?_, rfl⟩
      simp [List.count_cons]
      omega
  | grant _ | timeOut | openFailed | leave =>
      refine .inl ⟨fun connection => ?_, rfl⟩
      simp

theorem accounted_start (config : PoolConfig) (database : Database) (now : Nat)
    (file : database.location.isMemory = false) (positive : config.maxConnections ≠ 0) :
    (start config database now).Accounted := by
  have idle : (start config database now).idle =
      [{ connection := sharedConnection, createdAt := now, lastUsed := now }] := by
    simp [start, file]
  constructor <;> simp [start, file, connections, checkedOut, beingOpened]
  omega

theorem Accounted.of_ask (accounted : pool.Accounted) : pool.ask.Accounted := by
  have same : pool.ask.checkedOut = pool.checkedOut ∧ pool.ask.beingOpened = pool.beingOpened := by
    simp [checkedOut, beingOpened, Pool.ask, List.countP_append]
  have connections : pool.ask.connections = pool.connections :=
    congrArg (pool.idle.map (·.connection) ++ ·) same.1
  refine ⟨?_, ?_, ?_, ?_⟩
  · rw [same.1, same.2]
    exact accounted.within
  · rw [same.1]
    exact accounted.opens
  · rw [connections]
    exact accounted.once
  · rw [connections]
    exact accounted.made

theorem Accounted.of_turn (accounted : pool.Accounted) (sound : pool.Sound config database)
    (file : pool.database.location.isMemory = false)
    (turns : pool.Turns step after holder before next rest front back) : after.Accounted := by
  have moved := connections_turn file turns
  obtain ⟨effect, place, apart, rfl⟩ := turns
  refine ⟨?_, ?_, ?_, ?_⟩
  · have within := accounted.within
    -- Who opens a connection held a permit and used none.
    have held := length_connections_le (front ++ back)
    have permits := sound.permits
    rw [← sound.sameConfig] at permits
    simp only [checkedOut, beingOpened, permitsHeld, place, countP_placed, filterMap_placed,
      List.filterMap_append, List.length_append] at within permits held ⊢
    cases effect with
    | reuse _ split _ =>
        simp [split] at within ⊢
        omega
    | share memory | keepShared memory => exact absurd (file.symm.trans memory) nofun
    | _ =>
        simp at within permits held ⊢
        omega
  · have opens := accounted.opens
    simp only [checkedOut, place, filterMap_placed, List.length_append] at opens ⊢
    cases effect with
    | reuse _ split _ =>
        simp [split] at opens ⊢
        omega
    | share memory | keepShared memory => exact absurd (file.symm.trans memory) nofun
    | _ =>
        simp at opens ⊢
        omega
  · rcases moved with ⟨⟨kept, perm, sublist⟩, _⟩ | ⟨perm, _⟩
    · exact perm.nodup_iff.1 (accounted.once.sublist sublist)
    · refine perm.nodup_iff.2 (List.nodup_cons.2 ⟨fun member => ?_, accounted.once⟩)
      exact Nat.lt_irrefl _ (accounted.made _ member)
  · intro connection member
    rcases moved with ⟨subperm, same⟩ | ⟨perm, succ⟩
    · rw [same]
      exact accounted.made connection (subperm.subset member)
    · rw [succ]
      rcases List.mem_cons.1 (perm.mem_iff.1 member) with rfl | old
      · exact Nat.lt_succ_self _
      · exact Nat.lt_succ_of_lt (accounted.made connection old)

theorem Accounted.of_step (accounted : pool.Accounted) (sound : pool.Sound config database)
    (file : database.location.isMemory = false) (possible : pool.step? step = some after) :
    after.Accounted := by
  obtain ⟨rfl, rfl⟩ | ⟨_, _, _, _, _, _, turns⟩ := step?_cases sound.distinct possible
  · exact accounted.of_ask
  · exact accounted.of_turn sound (sound.sameDatabase ▸ file) turns

end Connections

/-! ## Single holders -/

section Holders

variable {config : PoolConfig} {database : Database}

theorem stage?_ask (pool : Pool) (holder : Nat) :
    pool.ask.stage? holder =
      (pool.stage? holder).or (if holder = pool.nextHolder then some .waiting else none) := by
  rw [stage?, Pool.ask, List.lookup_append, List.lookup_cons]
  by_cases same : holder = pool.nextHolder
  · simp [stage?, same]
  · simp [stage?, same, beq_false_of_ne same]

/-- What is true of the stage of a holder, and stays true whatever a step does to it, is true of it
after any step. -/
theorem settled_of_step (sound : pool.Sound config database)
    (possible : pool.step? step = some after) {P : Option Stage → Prop}
    (stays : ∀ {holder : Nat} {before : Stage} {next : Option Stage} {rest : Pool},
      pool.Effect step holder before next rest → P (some before) → P next)
    {holder : Nat} (known : holder < pool.nextHolder) (now : P (pool.stage? holder)) :
    holder < after.nextHolder ∧ P (after.stage? holder) := by
  obtain ⟨rfl, rfl⟩ | ⟨other, before, next, rest, front, back, effect, place, apart, rfl⟩ :=
    step?_cases sound.distinct possible
  · rw [stage?_ask, if_neg (Nat.ne_of_lt known), Option.or_none]
    exact ⟨Nat.lt_succ_of_lt known, now⟩
  · refine ⟨effect.unchanged.2.2 ▸ known, ?_⟩
    rw [stage?, place] at now
    change P ((placed front other next back).lookup holder)
    by_cases same : holder = other
    · subst same
      rw [lookup_placed apart] at now ⊢
      exact stays effect now
    · rwa [lookup_placed_of_ne same] at now ⊢

/-- Who is gone does not come back. -/
def Gone (pool : Pool) (holder : Nat) : Prop :=
  holder < pool.nextHolder ∧ pool.stage? holder = none

theorem Gone.of_step (sound : pool.Sound config database)
    (possible : pool.step? step = some after) {holder : Nat} (gone : pool.Gone holder) :
    after.Gone holder :=
  settled_of_step sound possible (P := (· = none)) (fun _ absent => nomatch absent) gone.1 gone.2

/-- Who fails to open a connection, or times out, is gone. -/
theorem gone_of_failure (sound : pool.Sound config database)
    (possible : pool.step? step = some after) {holder : Nat}
    (fails : step = .timeOut holder ∨ step = .openFailed holder) : after.Gone holder := by
  obtain ⟨rfl, rfl⟩ | ⟨other, before, next, rest, front, back, effect, place, apart, rfl⟩ :=
    step?_cases sound.distinct possible
  · rcases fails with same | same <;> cases same
  · have known : other < pool.nextHolder :=
      sound.numbered (other, before) (place ▸ by simp [placed])
    rcases fails with rfl | rfl <;> cases effect <;>
      exact ⟨known, lookup_placed apart none⟩

/-- A holder has got its connection, and may have given it back since. -/
def Served (pool : Pool) (holder : Nat) : Prop :=
  holder < pool.nextHolder ∧ ∀ stage ∈ pool.stage? holder, stage.isServed = true

theorem Served.of_step (sound : pool.Sound config database)
    (possible : pool.step? step = some after) {holder : Nat} (served : pool.Served holder) :
    after.Served holder := by
  refine settled_of_step sound possible (P := fun stage? => ∀ stage ∈ stage?, stage.isServed = true)
    (fun effect before => ?_) served.1 served.2
  have already := before _ rfl
  cases effect with
  | grant _ | timeOut | share _ | reuse _ _ _ | startOpening _ | opened | openFailed =>
      cases already
  | keepShared _ | enqueue _ =>
      rintro stage ⟨⟩
      rfl
  | leave => exact nofun

/-- What counts as a reuse or an opening hands out a connection for the first time. -/
theorem Effect.counts {holder : Nat} {before : Stage} {next : Option Stage} {rest : Pool}
    (effect : pool.Effect step holder before next rest) :
    rest.reuses + rest.opens =
        pool.reuses + pool.opens + (if (next.bind Stage.connection?).isSome then 1 else 0) ∧
      ((next.bind Stage.connection?).isSome = true →
        before.isServed = false ∧ ∀ stage ∈ next, stage.isServed = true) := by
  cases effect <;> simp [Stage.isServed] <;> omega

/-- **A step serves at most one holder**, and that one for the first time. -/
theorem serves_of_step (sound : pool.Sound config database)
    (possible : pool.step? step = some after) :
    (after.reuses + after.opens = pool.reuses + pool.opens ∧
        ∀ holder, (after.connectionOf? holder).isSome = true →
          (pool.connectionOf? holder).isSome = true) ∨
      (after.reuses + after.opens = pool.reuses + pool.opens + 1 ∧
        ∃ holder, ¬pool.Served holder ∧ after.Served holder ∧
          (after.connectionOf? holder).isSome = true ∧
            ∀ other, other ≠ holder → (after.connectionOf? other).isSome = true →
              (pool.connectionOf? other).isSome = true) := by
  obtain ⟨rfl, rfl⟩ | ⟨holder, before, next, rest, front, back, effect, place, apart, rfl⟩ :=
    step?_cases sound.distinct possible
  · refine .inl ⟨rfl, fun holder uses => ?_⟩
    rw [connectionOf?, stage?_ask] at uses
    rw [connectionOf?]
    cases present : pool.stage? holder with
    | some stage =>
        rw [present] at uses
        exact uses
    | none =>
        rw [present, Option.none_or] at uses
        split at uses <;> cases uses
  · obtain ⟨counted, first⟩ := effect.counts
    have stageAfter : ({ rest with holders := placed front holder next back } : Pool).stage? holder =
        next := lookup_placed apart next
    have stageBefore : pool.stage? holder = some before := by
      rw [stage?, place, lookup_placed apart]
    have others : ∀ other, other ≠ holder →
        ({ rest with holders := placed front holder next back } : Pool).stage? other =
          pool.stage? other := by
      intro other different
      rw [stage?, stage?, place, lookup_placed_of_ne different, lookup_placed_of_ne different]
    by_cases uses : (next.bind Stage.connection?).isSome = true
    · rw [if_pos uses] at counted
      obtain ⟨unserved, served⟩ := first uses
      refine .inr ⟨counted, holder, fun already => ?_, ⟨?_, ?_⟩, ?_, ?_⟩
      · rw [already.2 before stageBefore] at unserved
        cases unserved
      · change holder < rest.nextHolder
        rw [effect.unchanged.2.2]
        exact sound.numbered (holder, before) (place ▸ by simp [placed])
      · rwa [stageAfter]
      · rwa [connectionOf?, stageAfter]
      · intro other different used
        rwa [connectionOf?, others other different] at used
    · rw [if_neg uses] at counted
      refine .inl ⟨counted, fun other used => ?_⟩
      by_cases same : other = holder
      · rw [same, connectionOf?, stageAfter] at used
        exact absurd used uses
      · rwa [connectionOf?, others other same] at used

end Holders

/-! ## Runs -/

theorem steps?_concat {start : Pool} {steps : List PoolStep} :
    start.steps? (steps ++ [step]) = some after ↔
      ∃ mid, start.steps? steps = some mid ∧ mid.step? step = some after := by
  simp [steps?, List.foldlM_append, Option.bind_eq_some_iff]

/-- At some time of a run a holder has a connection in use: its get succeeds. -/
def Succeeds (start : Pool) (steps : List PoolStep) (holder : Nat) : Prop :=
  ∃ done mid, done <+: steps ∧ start.steps? done = some mid ∧
    (mid.connectionOf? holder).isSome = true

theorem succeeds_concat {start : Pool} {steps : List PoolStep}
    (ran : start.steps? (steps ++ [step]) = some after) (holder : Nat) :
    start.Succeeds (steps ++ [step]) holder ↔
      start.Succeeds steps holder ∨ (after.connectionOf? holder).isSome = true := by
  constructor
  · rintro ⟨done, mid, early, reached, uses⟩
    rcases List.prefix_concat_iff.1 early with rfl | earlier
    · exact .inr (Option.some.inj (ran.symm.trans reached) ▸ uses)
    · exact .inl ⟨done, mid, earlier, reached, uses⟩
  · rintro (⟨done, mid, early, reached, uses⟩ | uses)
    · exact ⟨done, mid, early.trans (List.prefix_append _ _), reached, uses⟩
    · exact ⟨_, after, List.prefix_rfl, ran, uses⟩

/-- The gets that succeed in a run, each of them once. -/
structure Successes (start : Pool) (steps : List PoolStep) (after : Pool) (gets : List Nat) :
    Prop where
  distinct : gets.Nodup
  succeed : ∀ holder, holder ∈ gets ↔ start.Succeeds steps holder
  served : ∀ holder ∈ gets, after.Served holder
  counted : after.reuses + after.opens = gets.length + 1

section Runs

variable {config : PoolConfig} {database : Database} {now : Nat} {steps : List PoolStep}

theorem sound_of_steps? (ran : (start config database now).steps? steps = some after) :
    after.Sound config database := by
  induction steps using List.reverseRecOn generalizing after with
  | nil =>
      cases ran
      exact sound_start config database now
  | append_singleton steps step ih =>
      obtain ⟨mid, reached, possible⟩ := steps?_concat.1 ran
      exact (ih reached).of_step possible

theorem accounted_of_steps? (file : database.location.isMemory = false)
    (positive : config.maxConnections ≠ 0)
    (ran : (start config database now).steps? steps = some after) : after.Accounted := by
  induction steps using List.reverseRecOn generalizing after with
  | nil =>
      cases ran
      exact accounted_start config database now file positive
  | append_singleton steps step ih =>
      obtain ⟨mid, reached, possible⟩ := steps?_concat.1 ran
      exact (ih reached).of_step (sound_of_steps? reached) file possible

theorem gone_of_steps? (ran : (start config database now).steps? steps = some after)
    {holder : Nat} (fails : .timeOut holder ∈ steps ∨ .openFailed holder ∈ steps) :
    after.Gone holder := by
  induction steps using List.reverseRecOn generalizing after with
  | nil => exact fails.elim nofun nofun
  | append_singleton steps step ih =>
      obtain ⟨mid, reached, possible⟩ := steps?_concat.1 ran
      have sound := sound_of_steps? reached
      simp only [List.mem_append, List.mem_singleton] at fails
      rcases fails with (earlier | last) | (earlier | last)
      · exact (ih reached (.inl earlier)).of_step sound possible
      · exact gone_of_failure sound possible (.inl last.symm)
      · exact (ih reached (.inr earlier)).of_step sound possible
      · exact gone_of_failure sound possible (.inr last.symm)

theorem successes_of_steps? (ran : (start config database now).steps? steps = some after) :
    ∃ gets, (start config database now).Successes steps after gets := by
  induction steps using List.reverseRecOn generalizing after with
  | nil =>
      cases ran
      refine ⟨[], List.nodup_nil, fun holder => ?_, nofun, rfl⟩
      refine iff_of_false List.not_mem_nil ?_
      rintro ⟨done, mid, early, reached, uses⟩
      rw [List.prefix_nil.1 early] at reached
      cases reached
      cases uses
  | append_singleton steps step ih =>
      obtain ⟨mid, reached, possible⟩ := steps?_concat.1 ran
      have sound := sound_of_steps? reached
      obtain ⟨gets, distinct, succeed, served, counted⟩ := ih reached
      have stillServed : ∀ holder ∈ gets, after.Served holder := fun holder member =>
        (served holder member).of_step sound possible
      have inUse : ∀ holder, (mid.connectionOf? holder).isSome = true → holder ∈ gets :=
        fun holder uses => (succeed holder).2 ⟨steps, mid, List.prefix_rfl, reached, uses⟩
      rcases serves_of_step sound possible with
        ⟨same, others⟩ | ⟨one, holder, unserved, nowServed, uses, others⟩
      · refine ⟨gets, distinct, fun holder => ?_, stillServed, same.trans counted⟩
        rw [succeeds_concat ran, ← succeed]
        exact ⟨.inl, fun either => either.elim id fun uses => inUse holder (others holder uses)⟩
      · refine ⟨gets ++ [holder], ?_, fun other => ?_, ?_, ?_⟩
        · refine List.nodup_append.2 ⟨distinct, List.nodup_singleton _, ?_⟩
          rintro early member late new rfl
          exact unserved (served early member |> (List.mem_singleton.1 new ▸ ·))
        · rw [succeeds_concat ran, ← succeed, List.mem_append, List.mem_singleton]
          constructor
          · rintro (early | rfl)
            · exact .inl early
            · exact .inr uses
          · rintro (early | used)
            · exact .inl early
            · by_cases same : other = holder
              · exact .inr same
              · exact .inl (inUse other (others other same used))
        · intro other member
          rcases List.mem_append.1 member with early | late
          · exact stillServed other early
          · rwa [List.mem_singleton.1 late]
        · rw [one, counted, List.length_append]
          rfl

end Runs

/-! ## Conservation -/

theorem create_eq_ok {config : PoolConfig} {database : Database} {canOpen : String → Bool}
    {now : Nat} (made : create config database canOpen now = .ok pool) :
    config.maxConnections ≠ 0 ∧ pool = start config database now := by
  unfold create at made
  by_cases none : config.maxConnections = 0
  · rw [if_pos none] at made
    cases made
  · rw [if_neg none] at made
    refine ⟨none, ?_⟩
    split at made
    · exact (Except.ok.inj made).symm
    · split at made
      · exact (Except.ok.inj made).symm
      · cases made

/-- Is a connection young enough at the two readings of the time by which it is judged? -/
def Usable (config : PoolConfig) (idle : IdleConnection) (lifetimeAt idleAt : Nat) : Prop :=
  (∀ limit ∈ config.maxLifetime, lifetimeAt - idle.createdAt ≤ limit.nanoseconds) ∧
    ∀ limit ∈ config.idleTimeout, idleAt - idle.lastUsed ≤ limit.nanoseconds

theorem usable_of_isExpired {config : PoolConfig} {clock : Clock} {idle : IdleConnection}
    (young : isExpired config clock idle = false) :
    Usable config idle (clock 0) (clock 1) := by
  obtain ⟨lifetime, lying⟩ := Bool.or_eq_false_iff.1 young
  have within : ∀ {limit : Option Duration} {since now : Nat}, isOver limit since now = false →
      ∀ duration ∈ limit, now - since ≤ duration.nanoseconds := by
    rintro limit since now notOver duration rfl
    exact Nat.not_lt.1 (of_decide_eq_false notOver)
  exact ⟨within lifetime, within lying⟩

/-- **A connection that is handed out again** came from the queue, and it had neither lived nor lain
there for too long when it was looked at. -/
theorem usable_of_take {config : PoolConfig} {database : Database} {taken : Pool}
    (sound : pool.Sound config database) (file : database.location.isMemory = false)
    {holder connection createdAt : Nat} {clock : Clock}
    (possible : pool.step? (.take holder clock) = some taken)
    (reused : taken.stage? holder = some (.holding connection createdAt)) :
    ∃ dropped idle rest, pool.idle = dropped ++ idle :: rest ∧
      idle.connection = connection ∧ idle.createdAt = createdAt ∧
        Usable config idle (clock (2 * dropped.length)) (clock (2 * dropped.length + 1)) := by
  obtain ⟨same, _⟩ | ⟨other, before, next, left, front, back, effect, place, apart, rfl⟩ :=
    step?_cases sound.distinct possible
  · cases same
  · have stageAfter : ({ left with holders := placed front other next back } : Pool).stage? other =
        next := lookup_placed apart next
    cases effect with
    | share memory =>
        rw [sound.sameDatabase, file] at memory
        cases memory
    | startOpening _ =>
        rw [stageAfter] at reused
        cases reused
    | @reuse _ _ dropped rest first _ split young =>
        rw [stageAfter] at reused
        cases reused
        refine ⟨dropped, first, rest, split, rfl, rfl, ?_⟩
        have usable := usable_of_isExpired young
        rw [sound.sameConfig] at usable
        simpa only [Clock.after, Nat.zero_add, Nat.add_comm 1] using usable

/-- **A pool conserves permits and connections.** -/
theorem steps?_conserved {config : PoolConfig} {database : Database} {canOpen : String → Bool}
    {now : Nat} (made : create config database canOpen now = .ok pool) {steps : List PoolStep}
    (ran : pool.steps? steps = some after) :
    after.permits + after.permitsHeld = config.maxConnections ∧
      (∀ holder, .timeOut holder ∈ steps ∨ .openFailed holder ∈ steps →
        after.stage? holder = none) ∧
      (∃ gets : List Nat, gets.Nodup ∧ (∀ holder, holder ∈ gets ↔ pool.Succeeds steps holder) ∧
        after.reuses + after.opens = gets.length + 1) ∧
      (database.location.isMemory = false →
        after.idle.length + after.checkedOut.length + after.beingOpened ≤ config.maxConnections ∧
        after.opens = after.idle.length + after.checkedOut.length + after.expirations ∧
        (after.idle.map (·.connection) ++ after.checkedOut).Nodup ∧
        ∀ (holder connection createdAt : Nat) (clock : Clock) (taken : Pool),
          after.step? (.take holder clock) = some taken →
          taken.stage? holder = some (.holding connection createdAt) →
          ∃ dropped idle rest, after.idle = dropped ++ idle :: rest ∧
            idle.connection = connection ∧ idle.createdAt = createdAt ∧
              Usable config idle (clock (2 * dropped.length))
                (clock (2 * dropped.length + 1))) := by
  obtain ⟨positive, rfl⟩ := create_eq_ok made
  have sound := sound_of_steps? ran
  obtain ⟨gets, successes⟩ := successes_of_steps? ran
  refine ⟨sound.permits, fun holder fails => (gone_of_steps? ran fails).2,
    ⟨gets, successes.distinct, successes.succeed, successes.counted⟩, fun file => ?_⟩
  have accounted := accounted_of_steps? file positive ran
  refine ⟨?_, accounted.opens, accounted.once, fun _ _ _ _ _ => usable_of_take sound file⟩
  rw [← sound.sameConfig]
  exact accounted.within

/-- At two permits a third get times out, and a fourth drops an expired connection and cannot open
another; a fifth is handed the connection that the second has given back. -/
theorem steps?_conserved_two_permits :
    let config : PoolConfig := { maxConnections := 2, idleTimeout := some ⟨10⟩ }
    let database : Database := { location := .file "posts.db" }
    let steps : List PoolStep :=
      [.ask, .ask, .ask, .grant 0, .take 0 (.stopped 5), .grant 1, .take 1 (.stopped 5), .timeOut 2,
        .opened 1 7, .giveBack 0 8, .leave 0, .ask, .grant 3, .take 3 (.stopped 20), .openFailed 3,
        .giveBack 1 21, .leave 1, .ask, .grant 4]
    let clock : Clock := (· + 25)
    ∃ pool after taken, create config database (fun _ => true) 0 = .ok pool ∧
      pool.steps? steps = some after ∧ after.permits + after.permitsHeld = 2 ∧
        after.stage? 2 = none ∧ after.stage? 3 = none ∧
          after.idle.length + after.checkedOut.length + after.beingOpened ≤ 2 ∧
            after.step? (.take 4 clock) = some taken ∧
              ∃ dropped idle rest, after.idle = dropped ++ idle :: rest ∧ idle.connection = 1 ∧
                Usable config idle (clock (2 * dropped.length))
                  (clock (2 * dropped.length + 1)) := by
  intro config database steps clock
  have made : create config database (fun _ => true) 0 = .ok (start config database 0) := rfl
  have reuses : ((start config database 0).steps? (steps ++ [.take 4 clock])).bind (·.stage? 4) =
      some (.holding 1 7) := by decide +kernel
  obtain ⟨taken, ran, reused⟩ := Option.bind_eq_some_iff.1 reuses
  obtain ⟨after, ran, possible⟩ := steps?_concat.1 ran
  obtain ⟨permits, gone, _, accounted⟩ := steps?_conserved made ran
  obtain ⟨within, _, _, usable⟩ := accounted rfl
  obtain ⟨dropped, idle, rest, split, same, _, young⟩ := usable _ _ _ _ _ possible reused
  exact ⟨_, after, taken, made, ran, permits, gone 2 (.inl (by simp [steps])),
    gone 3 (.inr (by simp [steps])), within, possible, dropped, idle, rest, split, same, young⟩

end RequestQuery.Store.Pool
