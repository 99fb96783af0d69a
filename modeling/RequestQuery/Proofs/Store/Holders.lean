/-
# Holders of a pool

A step of a pool either brings a new holder or is about one that is there.  `Effect` lists all that
a step of the second kind can do: the stage that its holder comes from, the stage that it goes to if
it stays, and what becomes of the permits, the queue and the counters.  `step?_cases` is the only
place where the steps themselves are opened; everything about them is read off `Effect`.
-/
import Mathlib.Data.List.Nodup
import RequestQuery.Store.Pool

namespace RequestQuery.Store

set_option autoImplicit false

/-! ## What a holder has -/

namespace Stage

def hasPermit : Stage → Bool
  | .waiting => false
  | .granted | .opening | .holding .. | .returned => true

def isOpening : Stage → Bool
  | .opening => true
  | _ => false

/-- Has a holder at this stage got its connection? -/
def isServed : Stage → Bool
  | .holding .. | .returned => true
  | _ => false

/-- The connection that a holder at this stage has in use. -/
def connection? : Stage → Option Nat
  | .holding connection _ => some connection
  | _ => none

@[simp] theorem hasPermit_waiting : Stage.waiting.hasPermit = false := rfl

@[simp] theorem hasPermit_granted : Stage.granted.hasPermit = true := rfl

@[simp] theorem hasPermit_opening : Stage.opening.hasPermit = true := rfl

@[simp] theorem hasPermit_holding (connection createdAt : Nat) :
    (Stage.holding connection createdAt).hasPermit = true := rfl

@[simp] theorem hasPermit_returned : Stage.returned.hasPermit = true := rfl

@[simp] theorem isOpening_waiting : Stage.waiting.isOpening = false := rfl

@[simp] theorem isOpening_granted : Stage.granted.isOpening = false := rfl

@[simp] theorem isOpening_opening : Stage.opening.isOpening = true := rfl

@[simp] theorem isOpening_holding (connection createdAt : Nat) :
    (Stage.holding connection createdAt).isOpening = false := rfl

@[simp] theorem isOpening_returned : Stage.returned.isOpening = false := rfl

@[simp] theorem connection?_waiting : Stage.waiting.connection? = none := rfl

@[simp] theorem connection?_granted : Stage.granted.connection? = none := rfl

@[simp] theorem connection?_opening : Stage.opening.connection? = none := rfl

@[simp] theorem connection?_holding (connection createdAt : Nat) :
    (Stage.holding connection createdAt).connection? = some connection := rfl

@[simp] theorem connection?_returned : Stage.returned.connection? = none := rfl

end Stage

namespace Pool

def permitsHeld (pool : Pool) : Nat :=
  pool.holders.countP fun entry => entry.2.hasPermit

/-- The connections that are in use. -/
def checkedOut (pool : Pool) : List Nat :=
  pool.holders.filterMap fun entry => entry.2.connection?

/-- How many holders are opening a connection. -/
def beingOpened (pool : Pool) : Nat :=
  pool.holders.countP fun entry => entry.2.isOpening

/-- The connection that a holder has in use. -/
def connectionOf? (pool : Pool) (holder : Nat) : Option Nat :=
  (pool.stage? holder).bind Stage.connection?

/-- A holder needs a permit for a connection that it uses or opens. -/
theorem length_connections_le (holders : List (Nat × Stage)) :
    (holders.filterMap fun entry => entry.2.connection?).length +
        (holders.countP fun entry => entry.2.isOpening) ≤
      holders.countP fun entry => entry.2.hasPermit := by
  induction holders with
  | nil => exact Nat.le_refl _
  | cons entry holders ih =>
      obtain ⟨number, stage⟩ := entry
      cases stage <;> simp [List.countP_cons, List.filterMap_cons] <;> omega

/-! ## The queue -/

/-- Only connections at the front of the queue are dropped, and the first one that is kept has not
expired by the readings it is looked at with. -/
theorem fresh_cases (config : PoolConfig) (clock : Clock) (idle : List IdleConnection) :
    fresh config clock idle = [] ∨
      ∃ dropped first rest, idle = dropped ++ first :: rest ∧
        fresh config clock idle = first :: rest ∧
          isExpired config (clock.after (2 * dropped.length)) first = false := by
  induction idle generalizing clock with
  | nil => exact .inl rfl
  | cons first rest ih =>
      rw [fresh]
      by_cases expired : isExpired config clock first = true
      · rw [if_pos expired]
        rcases ih (clock.after 2) with none | ⟨dropped, kept, others, split, found, young⟩
        · exact .inl none
        · refine .inr ⟨first :: dropped, kept, others, by rw [split]; rfl, found, ?_⟩
          have shifted : (clock.after 2).after (2 * dropped.length) =
              clock.after (2 * (first :: dropped).length) := by
            funext n
            simp only [Clock.after, List.length_cons]
            congr 1
          rwa [shifted] at young
      · rw [if_neg expired]
        refine .inr ⟨[], first, rest, rfl, rfl, ?_⟩
        exact Bool.eq_false_iff.2 expired

/-! ## Places of holders -/

/-- The other holders with one at a stage in its place among them, or with none there. -/
def placed (front : List (Nat × Stage)) (holder : Nat) (stage : Option Stage)
    (back : List (Nat × Stage)) : List (Nat × Stage) :=
  front ++ ((stage.map (holder, ·)).toList ++ back)

section Placed

variable {front back : List (Nat × Stage)} {holder : Nat}

theorem countP_placed (p : Stage → Bool) (stage : Option Stage) :
    (placed front holder stage back).countP (fun entry => p entry.2) =
      (front ++ back).countP (fun entry => p entry.2) + if stage.any p then 1 else 0 := by
  rw [placed, List.countP_append, List.countP_append, List.countP_append]
  cases stage with
  | none => simp
  | some stage =>
      by_cases counts : p stage = true
      · simp only [counts, Option.map_some, Option.toList_some, List.countP_singleton,
          Option.any_some]
        omega
      · simp [counts]

theorem filterMap_placed {α : Type} (f : Stage → Option α) (stage : Option Stage) :
    (placed front holder stage back).filterMap (fun entry => f entry.2) =
      front.filterMap (fun entry => f entry.2) ++
        ((stage.bind f).toList ++ back.filterMap fun entry => f entry.2) := by
  rw [placed, List.filterMap_append, List.filterMap_append]
  cases stage with
  | none => rfl
  | some stage => cases found : f stage <;> simp [found]

theorem numbers_placed (before : Stage) (next : Option Stage) :
    ((placed front holder next back).map (·.1)).Sublist
      ((placed front holder (some before) back).map (·.1)) := by
  cases next with
  | none => exact ((List.sublist_cons_self (holder, before) back).append_left front).map _
  | some stage => simp [placed]

variable (apart : ∀ entry ∈ front ++ back, entry.1 ≠ holder)

include apart

/-- The stage of a holder is what stands in its place. -/
theorem lookup_placed (stage : Option Stage) :
    (placed front holder stage back).lookup holder = stage := by
  have absent : ∀ entries : List (Nat × Stage), (∀ entry ∈ entries, entry.1 ≠ holder) →
      entries.lookup holder = none := fun entries apart =>
    List.lookup_eq_none_iff.2 fun entry member => bne_iff_ne.2 (apart entry member).symm
  have sides := List.forall_mem_append.1 apart
  rw [placed, List.lookup_append, List.lookup_append, absent front sides.1, absent back sides.2]
  cases stage with
  | none => rfl
  | some stage => simp

omit apart in
/-- The other holders are not looked for there. -/
theorem lookup_placed_of_ne {other : Nat} (different : other ≠ holder) (stage : Option Stage) :
    (placed front holder stage back).lookup other = (front ++ back).lookup other := by
  cases stage with
  | none => rfl
  | some stage =>
      have skipped : (other == holder) = false := beq_false_of_ne different
      simp [placed, List.lookup_append, List.lookup_cons, skipped]

theorem map_placed (stage other : Stage) :
    ((placed front holder (some stage) back).map fun entry =>
      if entry.1 = holder then (holder, other) else entry) =
        placed front holder (some other) back := by
  have unchanged : ∀ entries : List (Nat × Stage), (∀ entry ∈ entries, entry.1 ≠ holder) →
      (entries.map fun entry => if entry.1 = holder then (holder, other) else entry) =
        entries := by
    intro entries apart
    conv_rhs => rw [← List.map_id entries]
    exact List.map_congr_left fun entry member => if_neg (apart entry member)
  have sides := List.forall_mem_append.1 apart
  simp only [placed, List.map_append, unchanged front sides.1, unchanged back sides.2]
  simp

theorem filter_placed (stage : Stage) :
    ((placed front holder (some stage) back).filter fun entry => entry.1 ≠ holder) =
      placed front holder none back := by
  have kept : ∀ entries : List (Nat × Stage), (∀ entry ∈ entries, entry.1 ≠ holder) →
      (entries.filter fun entry => entry.1 ≠ holder) = entries := fun entries apart =>
    List.filter_eq_self.2 fun entry member => decide_eq_true (apart entry member)
  have sides := List.forall_mem_append.1 apart
  simp only [placed, List.filter_append, kept front sides.1, kept back sides.2]
  simp

end Placed

/-- Where holders have numbers of their own, each stands in one place, and what is set or taken away
is its entry there. -/
theorem exists_place {pool : Pool} (distinct : (pool.holders.map (·.1)).Nodup) {holder : Nat}
    {stage : Stage} (present : pool.stage? holder = some stage) :
    ∃ front back, pool.holders = placed front holder (some stage) back ∧
      (∀ entry ∈ front ++ back, entry.1 ≠ holder) ∧
        (∀ other, pool.setStage holder other =
          { pool with holders := placed front holder (some other) back }) ∧
          pool.dismiss holder = { pool with holders := placed front holder none back } := by
  obtain ⟨front, back, split, _⟩ := List.lookup_eq_some_iff.1 present
  have place : pool.holders = placed front holder (some stage) back := split
  have apart : ∀ entry ∈ front ++ back, entry.1 ≠ holder := by
    rw [split, List.map_append, List.map_cons, List.nodup_middle, List.nodup_cons,
      ← List.map_append] at distinct
    intro entry member same
    exact distinct.1 (List.mem_map.2 ⟨entry, member, same⟩)
  refine ⟨front, back, place, apart, fun other => ?_, ?_⟩
  · rw [setStage, place, map_placed apart]
  · rw [dismiss, place, filter_placed apart]

/-! ## What a step can do -/

/-- A step of a holder that is there, with the stages it leads from and to and the pool it leaves
behind; the holders in that pool are not up to date. -/
inductive Effect (pool : Pool) : PoolStep → Nat → Stage → Option Stage → Pool → Prop where
  | grant {holder : Nat} (free : 0 < pool.permits) :
      Effect pool (.grant holder) holder .waiting (some .granted)
        { pool with permits := pool.permits - 1 }
  | timeOut {holder : Nat} : Effect pool (.timeOut holder) holder .waiting none pool
  | share {holder : Nat} {clock : Clock} (memory : pool.database.location.isMemory = true) :
      Effect pool (.take holder clock) holder .granted
        (some (.holding sharedConnection (clock 0))) { pool with reuses := pool.reuses + 1 }
  | reuse {holder : Nat} {clock : Clock} {dropped rest : List IdleConnection}
      {first : IdleConnection} (file : pool.database.location.isMemory = false)
      (split : pool.idle = dropped ++ first :: rest)
      (young : isExpired pool.config (clock.after (2 * dropped.length)) first = false) :
      Effect pool (.take holder clock) holder .granted
        (some (.holding first.connection first.createdAt))
        { pool with
          idle := rest
          reuses := pool.reuses + 1
          expirations := pool.expirations + dropped.length }
  | startOpening {holder : Nat} {clock : Clock}
      (file : pool.database.location.isMemory = false) :
      Effect pool (.take holder clock) holder .granted (some .opening)
        { pool with idle := [], expirations := pool.expirations + pool.idle.length }
  | opened {holder now : Nat} :
      Effect pool (.opened holder now) holder .opening (some (.holding pool.nextConnection now))
        { pool with nextConnection := pool.nextConnection + 1, opens := pool.opens + 1 }
  | openFailed {holder : Nat} :
      Effect pool (.openFailed holder) holder .opening none
        { pool with permits := pool.permits + 1 }
  | keepShared {holder now connection createdAt : Nat}
      (memory : pool.database.location.isMemory = true) :
      Effect pool (.giveBack holder now) holder (.holding connection createdAt) (some .returned)
        pool
  | enqueue {holder now connection createdAt : Nat}
      (file : pool.database.location.isMemory = false) :
      Effect pool (.giveBack holder now) holder (.holding connection createdAt) (some .returned)
        { pool with idle := pool.idle ++ [{ connection, createdAt, lastUsed := now }] }
  | leave {holder : Nat} :
      Effect pool (.leave holder) holder .returned none { pool with permits := pool.permits + 1 }

/-- A step is about one holder and changes nothing in the places of the others. -/
structure Turns (pool : Pool) (step : PoolStep) (after : Pool) (holder : Nat) (before : Stage)
    (next : Option Stage) (rest : Pool) (front back : List (Nat × Stage)) : Prop where
  effect : pool.Effect step holder before next rest
  place : pool.holders = placed front holder (some before) back
  apart : ∀ entry ∈ front ++ back, entry.1 ≠ holder
  left : after = { rest with holders := placed front holder next back }

theorem effect_take {pool : Pool} (holder : Nat) (clock : Clock)
    {front back : List (Nat × Stage)}
    (set : ∀ other, pool.setStage holder other =
      { pool with holders := placed front holder (some other) back }) :
    ∃ next rest, pool.Effect (.take holder clock) holder .granted (some next) rest ∧
      pool.take holder clock =
        { rest with holders := placed front holder (some next) back } := by
  unfold take
  by_cases memory : pool.database.location.isMemory = true
  · rw [if_pos memory, set]
    exact ⟨_, _, .share memory, rfl⟩
  · rw [if_neg memory]
    have file := Bool.eq_false_iff.2 memory
    rcases fresh_cases pool.config clock pool.idle with
      none | ⟨dropped, first, rest, split, found, young⟩
    · rw [none]
      exact ⟨_, _, .startOpening file, by simp only [set, List.length_nil, Nat.sub_zero]⟩
    · rw [found]
      have gone : pool.idle.length - (first :: rest).length = dropped.length := by
        rw [split, List.length_append, Nat.add_sub_cancel]
      exact ⟨_, _, .reuse file split young, by simp only [set, gone]⟩

/-- **All that a step can do.** -/
theorem step?_cases {pool after : Pool} (distinct : (pool.holders.map (·.1)).Nodup)
    {step : PoolStep} (possible : pool.step? step = some after) :
    (step = .ask ∧ after = pool.ask) ∨
      ∃ holder before next rest front back,
        pool.Turns step after holder before next rest front back := by
  cases step with
  | ask => exact .inl ⟨rfl, (Option.some.inj possible).symm⟩
  | grant holder =>
      obtain ⟨⟨present, free⟩, made⟩ := Option.ite_none_right_eq_some.1 possible
      obtain ⟨front, back, place, apart, set, _⟩ := exists_place distinct present
      refine .inr ⟨_, _, _, _, front, back, .grant free, place, apart, ?_⟩
      rw [← Option.some.inj made, grant, set]
  | timeOut holder =>
      obtain ⟨⟨present, _⟩, made⟩ := Option.ite_none_right_eq_some.1 possible
      obtain ⟨front, back, place, apart, _, gone⟩ := exists_place distinct present
      refine .inr ⟨_, _, _, _, front, back, .timeOut, place, apart, ?_⟩
      rw [← Option.some.inj made, gone]
  | take holder clock =>
      obtain ⟨present, made⟩ := Option.ite_none_right_eq_some.1 possible
      obtain ⟨front, back, place, apart, set, _⟩ := exists_place distinct present
      obtain ⟨next, rest, effect, taken⟩ := effect_take holder clock set
      exact .inr ⟨_, _, _, _, front, back, effect, place, apart,
        (Option.some.inj made).symm.trans taken⟩
  | opened holder now =>
      obtain ⟨present, made⟩ := Option.ite_none_right_eq_some.1 possible
      obtain ⟨front, back, place, apart, set, _⟩ := exists_place distinct present
      refine .inr ⟨_, _, _, _, front, back, .opened, place, apart, ?_⟩
      rw [← Option.some.inj made, opened, set]
  | openFailed holder =>
      obtain ⟨present, made⟩ := Option.ite_none_right_eq_some.1 possible
      obtain ⟨front, back, place, apart, _, gone⟩ := exists_place distinct present
      refine .inr ⟨_, _, _, _, front, back, .openFailed, place, apart, ?_⟩
      rw [← Option.some.inj made, leave, gone]
  | giveBack holder now =>
      rw [step?] at possible
      split at possible
      next connection createdAt present =>
        obtain ⟨front, back, place, apart, set, _⟩ := exists_place distinct present
        by_cases memory : pool.database.location.isMemory = true
        · refine .inr ⟨_, _, _, _, front, back, .keepShared memory, place, apart, ?_⟩
          rw [← Option.some.inj possible, giveBack, set, if_pos memory]
        · refine .inr ⟨_, _, _, _, front, back, .enqueue (Bool.eq_false_iff.2 memory), place,
            apart, ?_⟩
          rw [← Option.some.inj possible, giveBack, set, if_neg memory]
      next => cases possible
  | leave holder =>
      obtain ⟨present, made⟩ := Option.ite_none_right_eq_some.1 possible
      obtain ⟨front, back, place, apart, _, gone⟩ := exists_place distinct present
      refine .inr ⟨_, _, _, _, front, back, .leave, place, apart, ?_⟩
      rw [← Option.some.inj made, leave, gone]

end Pool

end RequestQuery.Store
