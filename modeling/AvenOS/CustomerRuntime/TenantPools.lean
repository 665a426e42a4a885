import AvenOS.Actors.Text
import AvenOS.Foundations.LabelledRun
import AvenOS.Foundations.StableSort

/-! # The pools of the tenants

A runtime keeps one pool of connections for each environment, database and routing generation that it serves. A call gives
up its turn wherever it awaits, and any other call may go on before it is resumed. -/
namespace AvenOS.CustomerRuntime
open LabelledRun

abbrev Text := List Char

def nul : Char := Char.ofNat 0

/-! ## Grants and pools -/

/-- What a pool is opened for, of a grant as its schema admits it. -/
structure TenantGrant where
  environmentId : Text
  databaseName : Text
  routingGeneration : ℕ
  componentRef : String
  environment_plain : nul ∉ environmentId
  database_plain : nul ∉ databaseName
  deriving DecidableEq

structure Installation where
  schema_version : ℕ
  migration_set_digest : String
  routing_generation : ℕ
  deriving DecidableEq, Repr

structure Component where
  minimumRuntimeSchemaVersion : ℕ
  maximumRuntimeSchemaVersion : ℕ
  migrationSetDigest : String
  deriving DecidableEq, Repr

structure PoolConfig where
  host : String
  port : ℕ
  ssl : Bool
  credentialRoot : String
  roleKind : Text
  roleSuffix : String
  componentRef : String
  searchPath : List String
  maxPools : Option ℕ
  maxConnectionsPerPool : Option ℕ
  idleMilliseconds : Option ℕ
  deriving DecidableEq, Repr

def PoolConfig.max (config : PoolConfig) : ℕ := config.maxPools.getD 8

/-- What the calls rely on and is not of this module: the pinned catalog, and the names and passwords of database roles. -/
structure TenantPlatform where
  catalog : String → Option Component
  databaseRoleName : Text → String → Except String String
  deriveDatabasePassword : String → Text → ℕ → Text → Except String String

structure PoolOptions where
  host : String
  port : ℕ
  database : Text
  user : String
  password : String
  ssl : Bool
  max : ℕ
  connectionTimeoutMillis : ℕ
  statement_timeout : ℕ
  options : String
  deriving DecidableEq, Repr

def searchName (name : String) : Bool :=
  match name.toList with
  | [] => false
  | first :: rest => first.isLower && rest.length ≤ 62 && rest.all fun c => c.isLower || c.isDigit || c == '_'

def searchPath (config : PoolConfig) : Except String String :=
  if config.searchPath.isEmpty || config.searchPath.any (fun name => !searchName name) then
    .error "tenant pool search path is invalid"
  else .ok (",".intercalate (config.searchPath ++ ["aven_platform", "pg_catalog"]))

def poolOptions (platform : TenantPlatform) (config : PoolConfig) (grant : TenantGrant) : Except String PoolOptions := do
  let user ← platform.databaseRoleName grant.environmentId config.roleSuffix
  let password ← platform.deriveDatabasePassword config.credentialRoot grant.environmentId grant.routingGeneration config.roleKind
  let path ← searchPath config
  return {
    host := config.host
    port := config.port
    database := grant.databaseName
    user := user
    password := password
    ssl := config.ssl
    max := config.maxConnectionsPerPool.getD 2
    connectionTimeoutMillis := 5000
    statement_timeout := 20000
    options := "-c search_path=" ++ path }

def poolKey (config : PoolConfig) (grant : TenantGrant) : Text :=
  grant.environmentId ++ nul :: (grant.databaseName ++ nul :: ((toString grant.routingGeneration).toList ++ nul :: config.roleKind))

def compatible (component : Component) (grant : TenantGrant) (installation : Installation) : Bool :=
  installation.routing_generation == grant.routingGeneration &&
    decide (component.minimumRuntimeSchemaVersion ≤ installation.schema_version) &&
    decide (installation.schema_version ≤ component.maximumRuntimeSchemaVersion) &&
    installation.migration_set_digest == component.migrationSetDigest

/-! ## The cache and the calls -/

structure TenantPool where
  id : ℕ
  grant : TenantGrant
  options : PoolOptions
  deriving DecidableEq

/-- An entry of the map. Entries have the places in which their keys came. -/
structure CachedPool where
  place : ℕ
  key : Text
  pool : TenantPool
  lastUsed : ℕ
  deriving DecidableEq

/-- Where a call awaits. -/
inductive Waiting where
  | evictingIdle (grant : TenantGrant) (now place : ℕ)
  | evicted (grant : TenantGrant) (now : ℕ)
  | evictingOldest (grant : TenantGrant) (now : ℕ)
  | opening (grant : TenantGrant) (now : ℕ) (pool : TenantPool)
  | discarding (pool : TenantPool)
  | invalidating (environmentId : Text) (place : ℕ) (found : List TenantPool)
  | closing
  | settled
  deriving DecidableEq

def Waiting.openingPool : Waiting → Option TenantPool
  | .opening _ _ pool => some pool
  | _ => none

/-- What is done with pools, in order. -/
inductive PoolEvent where
  | created (pool : TenantPool)
  | installed (pool : TenantPool) (installation : Installation)
  | returned (grant : TenantGrant) (pool : TenantPool)
  | ended (pool : TenantPool)
  | invalidated (environmentId : Text) (found : List TenantPool)
  deriving DecidableEq

structure PoolState where
  cache : List CachedPool
  /-- The places given so far. -/
  places : ℕ
  calls : List Waiting
  log : List PoolEvent
  deriving DecidableEq

def PoolState.start : PoolState := ⟨[], 0, [], []⟩

def PoolEvent.createdPool : PoolEvent → Option TenantPool
  | .created pool => some pool
  | _ => none

def PoolEvent.endedPool : PoolEvent → Option TenantPool
  | .ended pool => some pool
  | _ => none

namespace PoolState
variable (s : PoolState)

def created : List TenantPool := s.log.filterMap PoolEvent.createdPool

def ended : List TenantPool := s.log.filterMap PoolEvent.endedPool

def live : List TenantPool := s.created.filter fun pool => !s.ended.contains pool

def openingPools : List TenantPool := s.calls.filterMap Waiting.openingPool

def openPools (environmentId : Text) : List TenantPool :=
  s.live.filter fun pool => pool.grant.environmentId == environmentId && !s.openingPools.contains pool

def called : PoolState := { s with calls := s.calls ++ [.settled] }

def settle (call : ℕ) (waiting : Waiting) : PoolState := { s with calls := s.calls.set call waiting }

def record (event : PoolEvent) : PoolState := { s with log := s.log ++ [event] }

def dropEntry (entry : CachedPool) : PoolState :=
  { s with cache := s.cache.filter fun other => other.key != entry.key, log := s.log ++ [.ended entry.pool] }

def nextEntry (place : ℕ) (stops : CachedPool → Bool) : Option CachedPool :=
  s.cache.find? fun entry => decide (place ≤ entry.place) && stops entry

def idle (config : PoolConfig) (now : ℕ) (entry : CachedPool) : Bool := decide (entry.lastUsed + config.idleMilliseconds.getD 300000 ≤ now)

def evictIdle (config : PoolConfig) (call : ℕ) (grant : TenantGrant) (now place : ℕ) : PoolState :=
  match s.nextEntry place (idle config now) with
  | some entry => (s.dropEntry entry).settle call (.evictingIdle grant now (entry.place + 1))
  | none => s.settle call (.evicted grant now)

def oldest : Option CachedPool := (StableSort.sortBy (fun one other => compare one.lastUsed other.lastUsed) s.cache).head?

def openPool (platform : TenantPlatform) (config : PoolConfig) (call : ℕ) (grant : TenantGrant) (now : ℕ) : PoolState :=
  match poolOptions platform config grant with
  | .error _ => s.settle call .settled
  | .ok options =>
    let pool : TenantPool := ⟨s.created.length, grant, options⟩
    (s.record (.created pool)).settle call (.opening grant now pool)

def makeRoom (platform : TenantPlatform) (config : PoolConfig) (call : ℕ) (grant : TenantGrant) (now : ℕ) : PoolState :=
  if config.max ≤ s.cache.length then
    match s.oldest with
    | some entry => (s.dropEntry entry).settle call (.evictingOldest grant now)
    | none => s.settle call (.evictingOldest grant now)
  else s.openPool platform config call grant now

def returnPool (call : ℕ) (grant : TenantGrant) (pool : TenantPool) : PoolState :=
  (s.record (.returned grant pool)).settle call .settled

def touch (key : Text) (now : ℕ) : PoolState :=
  { s with cache := s.cache.map fun entry => if entry.key == key then { entry with lastUsed := now } else entry }

def lookUp (platform : TenantPlatform) (config : PoolConfig) (call : ℕ) (grant : TenantGrant) (now : ℕ) : PoolState :=
  let key := poolKey config grant
  match s.cache.find? fun entry => entry.key == key with
  | some entry => (s.touch key now).returnPool call grant entry.pool
  | none => s.makeRoom platform config call grant now

/-- `pools.set(key, …)`: an entry that is there keeps its place. -/
def setEntry (key : Text) (pool : TenantPool) (now : ℕ) : PoolState :=
  if s.cache.any fun entry => entry.key == key then
    { s with cache := s.cache.map fun entry =>
        if entry.key == key then { entry with pool := pool, lastUsed := now } else entry }
  else { s with cache := s.cache ++ [⟨s.places, key, pool, now⟩], places := s.places + 1 }

def answered (platform : TenantPlatform) (config : PoolConfig) (call : ℕ) (grant : TenantGrant) (now : ℕ) (pool : TenantPool)
    (row : Option Installation) : PoolState :=
  match row, platform.catalog config.componentRef with
  | some installation, some component =>
    if compatible component grant installation then
      ((s.record (.installed pool installation)).setEntry (poolKey config grant) pool now).returnPool call grant pool
    else (s.record (.ended pool)).settle call (.discarding pool)
  | _, _ => (s.record (.ended pool)).settle call (.discarding pool)

def ofEnvironment (environmentId : Text) (entry : CachedPool) : Bool := (environmentId ++ [nul]).isPrefixOf entry.key

def invalidate (call : ℕ) (environmentId : Text) (place : ℕ) (found : List TenantPool) : PoolState :=
  match s.nextEntry place (ofEnvironment environmentId) with
  | some entry => (s.dropEntry entry).settle call (.invalidating environmentId (entry.place + 1) found)
  | none => (s.record (.invalidated environmentId found)).settle call .settled

def close (call : ℕ) : PoolState :=
  ({ s with cache := [], log := s.log ++ s.cache.map fun entry => .ended entry.pool } : PoolState).settle call .closing

end PoolState

inductive PoolAction where
  | forGrant (grant : TenantGrant) (now : ℕ)
  | invalidate (environmentId : Text)
  | close
  /-- The promise that a call awaits is fulfilled, and the call goes on. -/
  | resume (call : ℕ)
  /-- It is rejected, and so is the call. -/
  | reject (call : ℕ)
  | answer (call : ℕ) (row : Option Installation)
  deriving DecidableEq

section Step
variable (platform : TenantPlatform) (config : PoolConfig)

def PoolState.step (s : PoolState) : PoolAction → Option PoolState
  | .forGrant grant now =>
    if grant.componentRef ≠ config.componentRef ∨ (platform.catalog config.componentRef).isNone then some s.called
    else some (s.called.evictIdle config s.calls.length grant now 0)
  | .invalidate environmentId =>
    some (s.called.invalidate s.calls.length environmentId 0 (s.openPools environmentId))
  | .close => some (s.called.close s.calls.length)
  | .resume call =>
    match s.calls[call]? with
    | some (.evictingIdle grant now place) => some (s.evictIdle config call grant now place)
    | some (.evicted grant now) => some (s.lookUp platform config call grant now)
    | some (.evictingOldest grant now) => some (s.makeRoom platform config call grant now)
    | some (.invalidating environmentId place found) => some (s.invalidate call environmentId place found)
    | some (.discarding _) | some .closing => some (s.settle call .settled)
    | some (.opening _ _ _) | some .settled | none => none
  | .reject call =>
    match s.calls[call]? with
    | some (.opening _ _ pool) => some ((s.record (.ended pool)).settle call (.discarding pool))
    | some (.evictingIdle _ _ _) | some (.evictingOldest _ _) | some (.invalidating _ _ _) | some (.discarding _)
    | some .closing => some (s.settle call .settled)
    | some (.evicted _ _) | some .settled | none => none
  | .answer call row =>
    match s.calls[call]? with
    | some (.opening grant now pool) => some (s.answered platform config call grant now pool row)
    | _ => none

/-! ## What holds of the pools -/

/-- A pool that was handed out for a grant was opened for what the grant names, with the options of the grant, after the
installation row had matched its generation, and has not been ended. -/
def ReturnedWell (config : PoolConfig) (before : List PoolEvent) (grant : TenantGrant) (pool : TenantPool) : Prop :=
  PoolEvent.created pool ∈ before ∧ poolOptions platform config grant = .ok pool.options ∧
    pool.grant.environmentId = grant.environmentId ∧ pool.grant.databaseName = grant.databaseName ∧
    pool.grant.routingGeneration = grant.routingGeneration ∧
    (∃ installation, PoolEvent.installed pool installation ∈ before ∧ installation.routing_generation = grant.routingGeneration) ∧
    PoolEvent.ended pool ∉ before

structure PoolState.Owned (s : PoolState) : Prop where
  returned : ∀ before after grant pool, s.log = before ++ PoolEvent.returned grant pool :: after →
    ReturnedWell platform config before grant pool
  once : s.ended.Nodup
  bounded : s.live.length ≤ config.max
  cached : ∀ pool ∈ s.live, pool ∈ s.openingPools ∨ ∃ entry ∈ s.cache, entry.pool = pool
  invalidated : ∀ environmentId found, PoolEvent.invalidated environmentId found ∈ s.log → ∀ pool ∈ found, pool ∈ s.ended
  closed : ∀ s', s.step platform config .close = some s' → ∀ pool ∈ s'.live, pool ∈ s'.openingPools

/-! ## When they are bounded and owned -/

/-- Before a pool is opened for a grant: no pool of its key is cached or being opened, and there is room beside the pools that
are. -/
def PoolState.opensAlone (s : PoolState) (config : PoolConfig) (grant : TenantGrant) : Bool :=
  !s.cache.any (fun entry => entry.key == poolKey config grant) &&
    !s.openingPools.any (fun pool => poolKey config pool.grant == poolKey config grant) &&
    decide (s.cache.length + s.openingPools.length < config.max)

def PoolState.alone (s : PoolState) : PoolAction → Bool
  | .resume call =>
    match s.calls[call]? with
    | some (.evicted grant _) =>
      s.cache.any (fun entry => entry.key == poolKey config grant) || decide (config.max ≤ s.cache.length) ||
        s.opensAlone config grant
    | some (.evictingOldest grant _) => decide (config.max ≤ s.cache.length) || s.opensAlone config grant
    | _ => true
  | _ => true

end Step

end AvenOS.CustomerRuntime
