/-
# Connections of one database

A pool hands one connection of a database in memory to everybody, and as many connections of a file
as there are permits.  Those find the same data only if their path names a file: an empty path and
the name of a database in memory give each connection a database of its own.

Which path an address leads to depends on its location (`Located`), and on the mode among its
options, which overrules the location wherever it stands (`location_of_ofAddress`).  Three spellings
of a location lead to a path that names no file (`unnamed`); each other one leads to memory or to a
file, or is refused (`named_atLocation`).  So the connections of an accepted address share one
database exactly if its location is none of the three or its mode is that of a database in memory
(`shares_of_ofAddress`).
-/
import RequestQuery.Proofs.Store.Conservation

namespace RequestQuery

set_option autoImplicit false

namespace Text

theorem afterPrefix?_eq_some_iff {start cs rest : List Char} :
    afterPrefix? start cs = some rest ↔ cs = start ++ rest := by
  induction start generalizing cs with
  | nil => simp [afterPrefix?]
  | cons p start ih =>
      cases cs with
      | nil => simp [afterPrefix?]
      | cons c cs =>
          by_cases same : p = c
          · simp [afterPrefix?, same, ih]
          · simp [afterPrefix?, same, Ne.symm same]

theorem afterPrefix?_eq_none_iff {start cs : List Char} :
    afterPrefix? start cs = none ↔ ¬start <+: cs := by
  rw [Option.eq_none_iff_forall_ne_some]
  refine ⟨fun never ⟨rest, same⟩ => never rest (afterPrefix?_eq_some_iff.2 same.symm), ?_⟩
  rintro absent rest found
  exact absent ⟨rest, (afterPrefix?_eq_some_iff.1 found).symm⟩

end Text

namespace Store

/-! ## Paths -/

/-- A database in memory, or a path that is neither empty nor the name of one in memory. -/
def Location.Named : Location → Prop
  | .memory => True
  | .file path => path ≠ "" ∧ path ≠ Location.memory.path

namespace Database

/-- The location and the options of an address. -/
def parts (address : String) : List Char × List Char :=
  (Text.cutChars '?' (Text.trimChars address.toList)).getD (Text.trimChars address.toList, [])

/-- The options of an address with their values. -/
def options (address : String) : List (String × String) :=
  optionPairs (parts address).2

/-- The locations that are taken for files although their path names none. -/
def unnamed : List (List Char) :=
  ["file:".toList, "file::memory:".toList, "sqlite://:memory:".toList]

section Addresses

variable {database after : Database}

theorem named_inFile {path : List Char} :
    (inFile (String.ofList path)).location.Named ↔ path ≠ [] ∧ path ≠ ":memory:".toList := by
  change String.ofList path ≠ "" ∧ String.ofList path ≠ ":memory:" ↔ _
  rw [ne_eq, ne_eq, ← String.toList_inj, ← String.toList_inj, String.toList_ofList]
  rfl

theorem inNamedFile_eq_ok_iff {path : List Char} :
    inNamedFile path = .ok database ↔ path ≠ [] ∧ database = inFile (String.ofList path) := by
  unfold inNamedFile
  cases path <;> simp [eq_comm]

/-- What a location is taken for. -/
inductive Located : List Char → Database → Prop where
  | memory {location : List Char}
      (name : location = "sqlite::memory:".toList ∨ location = ":memory:".toList) :
      Located location inMemory
  | authority {path : List Char} (nonempty : path ≠ []) :
      Located ("sqlite://".toList ++ path) (inFile (String.ofList path))
  | scheme {path : List Char} (nonempty : path ≠ []) (notMemory : path ≠ ":memory:".toList)
      (noAuthority : ¬"//".toList <+: path) :
      Located ("sqlite:".toList ++ path) (inFile (String.ofList path))
  | file {path : List Char} : Located ("file:".toList ++ path) (inFile (String.ofList path))
  | plain {location : List Char} (nonempty : location ≠ [])
      (notMemory : location ≠ ":memory:".toList)
      (noScheme : ¬"sqlite:".toList <+: location) (noFile : ¬"file:".toList <+: location) :
      Located location (inFile (String.ofList location))

theorem located_of_atLocation {location : List Char}
    (accepted : atLocation location = .ok database) : Located location database := by
  unfold atLocation at accepted
  split at accepted
  next memory =>
    rw [← Except.ok.inj accepted]
    exact .memory memory
  next notMemory =>
    split at accepted
    next path authority =>
      obtain ⟨nonempty, rfl⟩ := inNamedFile_eq_ok_iff.1 accepted
      rw [Text.afterPrefix?_eq_some_iff.1 authority]
      exact .authority nonempty
    next noAuthority =>
      split at accepted
      next path scheme =>
        obtain ⟨nonempty, rfl⟩ := inNamedFile_eq_ok_iff.1 accepted
        obtain rfl := Text.afterPrefix?_eq_some_iff.1 scheme
        refine .scheme nonempty ?_ ?_
        · rintro rfl
          exact notMemory (.inl rfl)
        · rintro ⟨rest, rfl⟩
          exact Text.afterPrefix?_eq_none_iff.1 noAuthority ⟨rest, rfl⟩
      next noScheme =>
        split at accepted
        next path file =>
          rw [← Except.ok.inj accepted, Text.afterPrefix?_eq_some_iff.1 file]
          exact .file
        next noFile =>
          split at accepted
          next => cases accepted
          next nonempty =>
            rw [← Except.ok.inj accepted]
            exact .plain (by simpa using nonempty) (fun same => notMemory (.inr same))
              (Text.afterPrefix?_eq_none_iff.1 noScheme) (Text.afterPrefix?_eq_none_iff.1 noFile)

/-- **A location that is accepted** is one of the three, or it leads to memory or to a file. -/
theorem named_atLocation {location : List Char} (accepted : atLocation location = .ok database) :
    database.location.Named ↔ location ∉ unnamed := by
  simp only [unnamed, List.mem_cons, List.not_mem_nil, or_false]
  cases located_of_atLocation accepted with
  | memory name => rcases name with rfl | rfl <;> simp [inMemory, Location.Named]
  | authority nonempty =>
      rw [named_inFile]
      simp [nonempty]
  | @scheme path nonempty notMemory noAuthority =>
      rw [named_inFile]
      refine iff_of_true ⟨nonempty, notMemory⟩ ?_
      rintro (same | same | same)
      · simp at same
      · simp at same
      · have whole : "sqlite:".toList ++ path = "sqlite:".toList ++ "//:memory:".toList := same
        exact noAuthority (List.append_cancel_left whole ▸ List.prefix_append _ _)
  | file =>
      rw [named_inFile]
      simp
  | plain nonempty notMemory noScheme noFile =>
      rw [named_inFile]
      refine iff_of_true ⟨nonempty, notMemory⟩ ?_
      rintro (rfl | rfl | rfl)
      · exact noFile (List.prefix_append _ [])
      · exact noFile (List.prefix_append _ _)
      · exact noScheme (List.prefix_append _ _)

theorem location_withOption {name value : String}
    (accepted : database.withOption name value = .ok after) :
    after.location =
      if (name, value) = ("mode", "memory") then .memory else database.location := by
  unfold withOption at accepted
  split at accepted
  · rw [← Except.ok.inj accepted]
    by_cases memory : value = "memory" <;> simp [memory]
  · rw [← Except.ok.inj accepted]
    simp
  · split at accepted
    · rw [← Except.ok.inj accepted]
      simp
    · cases accepted
  · split at accepted
    · rw [← Except.ok.inj accepted]
      simp
    · cases accepted
  next other _ _ _ =>
    rw [← Except.ok.inj accepted]
    simp [show name ≠ "mode" from other]

/-- The mode decides wherever it stands among the options. -/
theorem location_foldlM_withOption {options : List (String × String)}
    (accepted : options.foldlM (fun database option => database.withOption option.1 option.2)
      database = .ok after) :
    after.location =
      if ("mode", "memory") ∈ options then .memory else database.location := by
  induction options generalizing database with
  | nil =>
      cases accepted
      rfl
  | cons option options ih =>
      rw [List.foldlM_cons] at accepted
      cases first : database.withOption option.1 option.2 with
      | error fault =>
          rw [first] at accepted
          cases accepted
      | ok next =>
          rw [first] at accepted
          rw [ih accepted, location_withOption first]
          by_cases here : option = ("mode", "memory")
          · simp [here]
          · simp [here, Ne.symm here]

theorem location_of_ofAddress {address : String} (accepted : ofAddress address = .ok after) :
    ∃ database, atLocation (parts address).1 = .ok database ∧
      after.location =
        if ("mode", "memory") ∈ options address then .memory else database.location := by
  change (atLocation (parts address).1 >>= fun database => (options address).foldlM
    (fun database option => database.withOption option.1 option.2) database) = .ok after at accepted
  cases located : atLocation (parts address).1 with
  | error fault =>
      rw [located] at accepted
      cases accepted
  | ok database =>
      rw [located] at accepted
      exact ⟨database, rfl, location_foldlM_withOption accepted⟩

/-- **Where an accepted address leads.** -/
theorem named_of_ofAddress {address : String} (accepted : ofAddress address = .ok database) :
    database.location.Named ↔
      ((parts address).1 ∈ unnamed → ("mode", "memory") ∈ options address) := by
  obtain ⟨plain, located, same⟩ := location_of_ofAddress accepted
  have named := named_atLocation located
  rw [same]
  by_cases inMemory : ("mode", "memory") ∈ options address
  · simp [inMemory, Location.Named]
  · simp [inMemory, named]

end Addresses

end Database

/-! ## Pools -/

/-- At this stage a holder opens nothing, and uses no connection but the shared one. -/
def Stage.Shares : Stage → Prop
  | .opening => False
  | .holding connection _ => connection = Pool.sharedConnection
  | .waiting | .granted | .returned => True

theorem Stage.Shares.connection? {stage : Stage} (shares : stage.Shares) {connection : Nat}
    (uses : stage.connection? = some connection) : connection = Pool.sharedConnection := by
  cases stage with
  | holding other createdAt => exact (Option.some.inj uses).symm.trans shares
  | waiting | granted | opening | returned => cases uses

namespace Pool

variable {pool after : Pool} {step : PoolStep} {config : PoolConfig} {database : Database}

/-- There is no connection but the shared one, and nobody opens another. -/
structure Single (pool : Pool) : Prop where
  idle : pool.idle = []
  holders : ∀ entry ∈ pool.holders, entry.2.Shares

theorem Single.connections (single : pool.Single) {connection : Nat}
    (member : connection ∈ pool.connections) : connection = sharedConnection := by
  rw [Pool.connections, single.idle, List.map_nil, List.nil_append, checkedOut] at member
  obtain ⟨entry, present, uses⟩ := List.mem_filterMap.1 member
  exact Stage.Shares.connection? (single.holders entry present) uses

theorem single_start (config : PoolConfig) (now : Nat)
    (memory : database.location.isMemory = true) : (start config database now).Single where
  idle := if_pos memory
  holders := nofun

theorem Single.of_ask (single : pool.Single) : pool.ask.Single where
  idle := single.idle
  holders := by
    intro entry member
    rcases List.mem_append.1 member with old | new
    · exact single.holders entry old
    · rw [List.mem_singleton.1 new]
      trivial

/-- Of a database in memory a holder takes the shared connection. -/
theorem Effect.shares {holder : Nat} {before : Stage} {next : Option Stage} {rest : Pool}
    (effect : pool.Effect step holder before next rest)
    (memory : pool.database.location.isMemory = true) (shares : before.Shares) :
    rest.idle = pool.idle ∧ ∀ stage ∈ next, stage.Shares := by
  cases effect with
  | reuse file _ _ | startOpening file | enqueue file => exact absurd (file.symm.trans memory) nofun
  | opened => exact shares.elim
  | timeOut | openFailed | leave => exact ⟨rfl, nofun⟩
  | share _ =>
      refine ⟨rfl, ?_⟩
      rintro stage ⟨⟩
      rfl
  | grant _ | keepShared _ =>
      refine ⟨rfl, ?_⟩
      rintro stage ⟨⟩
      trivial

theorem Single.of_step (single : pool.Single) (sound : pool.Sound config database)
    (memory : database.location.isMemory = true) (possible : pool.step? step = some after) :
    after.Single := by
  obtain ⟨rfl, rfl⟩ | ⟨holder, before, next, rest, front, back, effect, place, apart, rfl⟩ :=
    step?_cases sound.distinct possible
  · exact single.of_ask
  · have known := single.holders
    rw [place] at known
    have own : before.Shares := known (holder, before) (by simp [placed])
    obtain ⟨sameIdle, shares⟩ := effect.shares (sound.sameDatabase ▸ memory) own
    refine ⟨sameIdle.trans single.idle, fun entry member => ?_⟩
    simp only [placed, List.mem_append, Option.mem_toList, Option.map_eq_some_iff] at member known
    rcases member with inFront | ⟨stage, stays, rfl⟩ | inBack
    · exact known entry (.inl inFront)
    · exact shares stage stays
    · exact known entry (.inr (.inr inBack))

theorem single_of_steps? {now : Nat} {steps : List PoolStep}
    (memory : database.location.isMemory = true)
    (ran : (start config database now).steps? steps = some after) : after.Single := by
  induction steps using List.reverseRecOn generalizing after with
  | nil =>
      cases ran
      exact single_start config now memory
  | append_singleton steps step ih =>
      obtain ⟨mid, reached, possible⟩ := steps?_concat.1 ran
      exact (ih reached).of_step (sound_of_steps? reached) memory possible

/-- Two connections of a pool are the same one, or each of them has opened the same file. -/
def Shares (pool : Pool) : Prop :=
  ∀ one ∈ pool.connections, ∀ other ∈ pool.connections, one ≠ other →
    pool.database.location.isMemory = false ∧ pool.database.location.Named

/-- Two holders of a pool at the same time. -/
def twoHolders : List PoolStep :=
  [.ask, .ask, .grant 0, .take 0 (.stopped 0), .grant 1, .take 1 (.stopped 0), .opened 1 0]

/-- The second holder of a file opens a connection of its own. -/
theorem connections_twoHolders {path : String} (file : database.location = .file path) :
    ∃ pool after, create { maxConnections := 2 } database (fun _ => true) 0 = .ok pool ∧
      pool.steps? twoHolders = some after ∧ after.database = database ∧
        after.checkedOut = [0, 1] := by
  obtain ⟨location, foreignKeys, busyTimeout, journalMode⟩ := database
  cases file
  exact ⟨_, _, rfl, rfl, rfl, rfl⟩

end Pool

namespace Database

variable {database : Database}

/-- However a pool for the database is used, its connections find the same data. -/
def Shares (database : Database) : Prop :=
  ∀ (config : PoolConfig) (canOpen : String → Bool) (now : Nat) (pool after : Pool)
    (steps : List PoolStep), Pool.create config database canOpen now = .ok pool →
      pool.steps? steps = some after → after.Shares

/-- **A database is shared exactly if it is in memory or its path names a file.** -/
theorem shares_iff_named : database.Shares ↔ database.location.Named := by
  constructor
  · intro shares
    cases location : database.location with
    | memory => trivial
    | file path =>
        obtain ⟨pool, after, made, ran, same, uses⟩ := Pool.connections_twoHolders location
        have members : 0 ∈ after.connections ∧ 1 ∈ after.connections := by
          simp [Pool.connections, uses]
        have apart := shares _ _ _ _ _ _ made ran 0 members.1 1 members.2 Nat.zero_ne_one
        rw [same, location] at apart
        exact apart.2
  · intro named config canOpen now pool after steps made ran one member other also apart
    obtain ⟨_, rfl⟩ := Pool.create_eq_ok made
    rw [(Pool.sound_of_steps? ran).sameDatabase]
    refine ⟨Bool.eq_false_iff.2 fun memory => apart ?_, named⟩
    have single := Pool.single_of_steps? memory ran
    rw [single.connections member, single.connections also]

/-- **Which addresses name a database that is shared.**  The path of an accepted address is that of
memory or names a file, and all connections of any pool for it find the same data, unless the
location is one of three spellings and no option makes it a database in memory. -/
theorem shares_of_ofAddress {address : String} (accepted : ofAddress address = .ok database) :
    (database.location.Named ↔
      ((parts address).1 ∈ unnamed → ("mode", "memory") ∈ options address)) ∧
      (database.Shares ↔
        ((parts address).1 ∈ unnamed → ("mode", "memory") ∈ options address)) :=
  ⟨named_of_ofAddress accepted, shares_iff_named.trans (named_of_ofAddress accepted)⟩

/-- The mode comes late and still decides. -/
theorem shares_of_ofAddress_mode :
    let address := "file::memory:?foreign_keys=0&mode=memory&busy_timeout=250"
    ∃ database, ofAddress address = .ok database ∧ database.location.Named ∧ database.Shares := by
  intro address
  have accepted : ofAddress address = .ok
      { location := .memory, foreignKeys := false, busyTimeout := some 250
        journalMode := .memory } := by decide +kernel
  have mode : ("mode", "memory") ∈ options address := by decide +kernel
  obtain ⟨named, shares⟩ := shares_of_ofAddress accepted
  exact ⟨_, accepted, named.2 fun _ => mode, shares.2 fun _ => mode⟩

/-- An address is accepted for a file although its path names none, and two holders of a pool for it
use two connections at the same time, each with a database of its own. -/
def Divided (address : String) : Prop :=
  ∃ database pool after, ofAddress address = .ok database ∧
    database.location.isMemory = false ∧ ¬database.location.Named ∧
      Pool.create { maxConnections := 2 } database (fun _ => true) 0 = .ok pool ∧
        pool.steps? Pool.twoHolders = some after ∧ after.checkedOut = [0, 1]

/-- An empty path, and the name of a database in memory behind each of two schemes. -/
theorem divided_unnamed :
    Divided "file:" ∧ Divided "file::memory:" ∧ Divided "sqlite://:memory:" := by
  refine ⟨⟨inFile "", _, _, by decide +kernel, rfl, ?_, rfl, rfl, rfl⟩,
    ⟨inFile ":memory:", _, _, by decide +kernel, rfl, ?_, rfl, rfl, rfl⟩,
    ⟨inFile ":memory:", _, _, by decide +kernel, rfl, ?_, rfl, rfl, rfl⟩⟩
  · exact fun named => named.1 rfl
  · exact fun named => named.2 rfl
  · exact fun named => named.2 rfl

end Database

end Store

end RequestQuery
