import AvenOS.CustomerRuntime.TenantPools
import Mathlib.Data.List.Nodup
import Mathlib.Data.List.Perm.Basic

/-! # Bounded and owned pools

The pools that are live are those of the cache and those that some call is opening. A call that opens a pool alone keeps it
so; what is ended leaves both at once. -/
namespace AvenOS.CustomerRuntime
open LabelledRun

/-! ## Keys -/

theorem separator_inj {left left' right right' : Text} (hleft : nul ∉ left) (hleft' : nul ∉ left')
    (h : left ++ nul :: right = left' ++ nul :: right') : left = left' ∧ right = right' := by
  induction left generalizing left' with
  | nil =>
    cases left' with
    | nil => exact ⟨rfl, (List.cons.inj h).2⟩
    | cons c left' => exact absurd ((List.cons.inj h).1 ▸ List.mem_cons_self) hleft'
  | cons c left ih =>
    cases left' with
    | nil => exact absurd ((List.cons.inj h).1 ▸ List.mem_cons_self) hleft
    | cons c' left' =>
      obtain ⟨hc, hrest⟩ := List.cons.inj h
      obtain ⟨hsame, hright⟩ := ih (fun hmem => hleft (List.mem_cons_of_mem _ hmem))
        (fun hmem => hleft' (List.mem_cons_of_mem _ hmem)) hrest
      exact ⟨by rw [hc, hsame], hright⟩

theorem nul_notMem_toString (n : ℕ) : nul ∉ (toString n).toList := by
  intro hmem
  have hdigits : nul ∈ Nat.toDigits 10 n := by
    change nul ∈ (String.ofList (Nat.toDigits 10 n)).toList at hmem
    rwa [String.toList_ofList] at hmem
  exact absurd (Nat.isDigit_of_mem_toDigits (by decide) (by decide) hdigits) (by decide)

variable {grant grant' : TenantGrant}

theorem poolKey_inj {config : PoolConfig} (h : poolKey config grant = poolKey config grant') :
    grant.environmentId = grant'.environmentId ∧ grant.databaseName = grant'.databaseName ∧
      grant.routingGeneration = grant'.routingGeneration := by
  obtain ⟨henvironment, hrest⟩ := separator_inj grant.environment_plain grant'.environment_plain h
  obtain ⟨hdatabase, hrest⟩ := separator_inj grant.database_plain grant'.database_plain hrest
  obtain ⟨hgeneration, -⟩ := separator_inj (nul_notMem_toString _) (nul_notMem_toString _) hrest
  exact ⟨henvironment, hdatabase, Text.toString_nat_injective (String.toList_inj.mp hgeneration)⟩

theorem poolOptions_congr (platform : TenantPlatform) (config : PoolConfig)
    (henvironment : grant.environmentId = grant'.environmentId) (hdatabase : grant.databaseName = grant'.databaseName)
    (hrouting : grant.routingGeneration = grant'.routingGeneration) :
    poolOptions platform config grant = poolOptions platform config grant' := by
  rw [poolOptions, poolOptions, henvironment, hdatabase, hrouting]

/-! ## The pools of the calls -/

section Calls
variable {calls : List Waiting} {call : ℕ} {old : Waiting}

theorem opening_set (next : Waiting) (hcall : calls[call]? = some old) :
    (old.openingPool.toList ++ (calls.set call next).filterMap Waiting.openingPool).Perm
      (next.openingPool.toList ++ calls.filterMap Waiting.openingPool) := by
  induction calls generalizing call with
  | nil => cases hcall
  | cons first calls ih =>
    cases call with
    | zero =>
      cases hcall
      rw [List.set_cons_zero]
      cases hold : old.openingPool <;> cases hnext : next.openingPool <;>
        simp [hold, hnext, List.Perm.swap]
    | succ call =>
      rw [List.getElem?_cons_succ] at hcall
      rw [List.set_cons_succ, List.filterMap_cons, List.filterMap_cons]
      cases hfirst : first.openingPool with
      | none => exact ih hcall
      | some other =>
        refine (List.perm_middle.trans (List.Perm.cons other (ih hcall))).trans ?_
        exact List.perm_middle.symm

end Calls

/-! ## What every run keeps -/

namespace PoolState

def holders (s : PoolState) : List TenantPool := s.cache.map CachedPool.pool ++ s.openingPools

theorem mem_live {s : PoolState} {pool : TenantPool} : pool ∈ s.live ↔ pool ∈ s.created ∧ pool ∉ s.ended := by
  rw [live, List.mem_filter, Bool.not_eq_true', ← Bool.not_eq_true, List.contains_iff_mem]

structure Kept (platform : TenantPlatform) (config : PoolConfig) (s : PoolState) : Prop where
  ids : s.created.map TenantPool.id = List.range s.created.length
  options : ∀ pool ∈ s.created, poolOptions platform config pool.grant = .ok pool.options
  once : s.ended.Nodup
  known : ∀ pool ∈ s.ended, pool ∈ s.created
  held : s.holders.Perm s.live
  keys : (s.holders.map fun pool => poolKey config pool.grant).Nodup
  room : s.holders.length ≤ config.max
  cached : ∀ entry ∈ s.cache, entry.key = poolKey config entry.pool.grant ∧
    ∃ installation, .installed entry.pool installation ∈ s.log ∧
      installation.routing_generation = entry.pool.grant.routingGeneration
  places : (s.cache.map CachedPool.place).Pairwise (· < ·) ∧ ∀ entry ∈ s.cache, entry.place < s.places
  opening : ∀ grant now pool, .opening grant now pool ∈ s.calls → pool.grant = grant
  returned : ∀ before after grant pool, s.log = before ++ .returned grant pool :: after →
    ReturnedWell platform config before grant pool
  invalidating : ∀ environmentId place found, .invalidating environmentId place found ∈ s.calls → ∀ pool ∈ found,
    pool ∈ s.ended ∨ ∃ entry ∈ s.cache, entry.pool = pool ∧ place ≤ entry.place ∧ ofEnvironment environmentId entry = true
  invalidated : ∀ environmentId found, .invalidated environmentId found ∈ s.log → ∀ pool ∈ found, pool ∈ s.ended

section Kept
variable {platform : TenantPlatform} {config : PoolConfig} {s : PoolState}

theorem Kept.start : Kept platform config start where
  ids := rfl
  options := fun _ h => absurd h List.not_mem_nil
  once := List.nodup_nil
  known := fun _ h => absurd h List.not_mem_nil
  held := List.Perm.refl _
  keys := List.nodup_nil
  room := Nat.zero_le _
  cached := fun _ h => absurd h List.not_mem_nil
  places := ⟨List.Pairwise.nil, fun _ h => absurd h List.not_mem_nil⟩
  opening := fun _ _ _ h => absurd h List.not_mem_nil
  returned := fun _ _ _ _ h => absurd h.symm (List.append_ne_nil_of_right_ne_nil _ (List.cons_ne_nil _ _))
  invalidating := fun _ _ _ h => absurd h List.not_mem_nil
  invalidated := fun _ _ h => absurd h List.not_mem_nil

theorem Kept.nodup_live (h : Kept platform config s) : s.live.Nodup := by
  refine List.Nodup.filter _ (List.Nodup.of_map TenantPool.id ?_)
  rw [h.ids]
  exact List.nodup_range

theorem Kept.nodup_holders (h : Kept platform config s) : s.holders.Nodup := h.held.nodup_iff.mpr h.nodup_live

variable {entry : CachedPool} {next : Waiting}

theorem Kept.live_of_entry (h : Kept platform config s) (hentry : entry ∈ s.cache) : entry.pool ∈ s.live :=
  h.held.mem_iff.mp (List.mem_append_left _ (List.mem_map_of_mem hentry))

theorem Kept.entry_eq (h : Kept platform config s) {other : CachedPool} (hentry : entry ∈ s.cache) (hother : other ∈ s.cache)
    (hkey : entry.key = other.key) : entry = other := by
  have hkeys := h.keys
  rw [holders, List.map_append, List.map_map] at hkeys
  refine List.inj_on_of_nodup_map hkeys.of_append_left hentry hother ?_
  rw [Function.comp_apply, Function.comp_apply, ← (h.cached entry hentry).1, ← (h.cached other hother).1, hkey]

structure Ends (s s' : PoolState) (gone : List TenantPool) : Prop where
  created : s'.created = s.created
  ended : s'.ended = s.ended ++ gone
  held : s'.holders.Perm (s.holders.filter fun pool => !gone.contains pool)
  cache : ∀ entry ∈ s'.cache, ∃ old ∈ s.cache, entry.place = old.place ∧ entry.key = old.key ∧ entry.pool = old.pool
  stays : ∀ entry ∈ s.cache, entry.pool ∉ gone →
    ∃ kept ∈ s'.cache, kept.place = entry.place ∧ kept.key = entry.key ∧ kept.pool = entry.pool
  places : (s'.cache.map CachedPool.place).Sublist (s.cache.map CachedPool.place) ∧ s'.places = s.places

variable {s' : PoolState} {more : List PoolEvent} {calls : List Waiting} {call : ℕ} {old : Waiting}

theorem Kept.ends (h : Kept platform config s) (next : Waiting) {gone : List TenantPool} (hends : s.Ends s' gone)
    (hgone : gone.Nodup) (hlive : ∀ pool ∈ gone, pool ∈ s.live)
    (hcalls : ∀ waiting ∈ s'.calls, waiting ∈ s.calls ∨ waiting = next) (hnext : next.openingPool = none)
    (hinvalidating : ∀ environmentId place found, next = .invalidating environmentId place found → ∀ pool ∈ found,
      pool ∈ s'.ended ∨ ∃ entry ∈ s'.cache, entry.pool = pool ∧ place ≤ entry.place ∧ ofEnvironment environmentId entry = true)
    (hlog : s'.log = s.log ++ more)
    (hreturned : ∀ before after grant pool, s'.log = before ++ .returned grant pool :: after →
      ReturnedWell platform config before grant pool)
    (hinvalidated : ∀ environmentId found, .invalidated environmentId found ∈ more → ∀ pool ∈ found, pool ∈ s'.ended) :
    Kept platform config s' := by
  have hlive' : s'.live = s.live.filter fun pool => !gone.contains pool := by
    rw [live, live, hends.created, List.filter_filter]
    refine List.filter_congr fun pool _ => ?_
    rw [hends.ended, Bool.and_comm, ← Bool.not_or]
    congr 1
    rw [Bool.eq_iff_iff, Bool.or_eq_true, List.contains_iff_mem, List.contains_iff_mem, List.contains_iff_mem, List.mem_append]
  refine ⟨hends.created ▸ h.ids, hends.created ▸ h.options, ?_, fun pool hpool => ?_, ?_, ?_, ?_, fun entry hentry => ?_, ⟨?_, ?_⟩,
    fun grant now pool hcall => ?_, hreturned, fun environmentId place found hcall pool hpool => ?_,
    fun environmentId found hin pool hpool => ?_⟩
  · rw [hends.ended]
    refine List.Nodup.append h.once hgone fun pool hended hnew => ?_
    exact (mem_live.1 (hlive pool hnew)).2 hended
  · rw [hends.created]
    rcases List.mem_append.mp (hends.ended ▸ hpool) with hold | hnew
    · exact h.known pool hold
    · exact (mem_live.1 (hlive pool hnew)).1
  · rw [hlive']
    exact hends.held.trans (h.held.filter _)
  · exact (hends.held.map _).nodup_iff.mpr ((List.filter_sublist.map _).nodup h.keys)
  · exact hends.held.length_eq ▸ (List.length_filter_le _ _).trans h.room
  · obtain ⟨old, hold, -, hkey, hpool⟩ := hends.cache entry hentry
    obtain ⟨hsame, installation, hinstalled, hgeneration⟩ := h.cached old hold
    rw [hkey, hpool, hlog]
    exact ⟨hsame, installation, List.mem_append_left _ hinstalled, hgeneration⟩
  · exact h.places.1.sublist hends.places.1
  · intro entry hentry
    obtain ⟨old, hold, hplace, -, -⟩ := hends.cache entry hentry
    rw [hplace, hends.places.2]
    exact h.places.2 old hold
  · rcases hcalls _ hcall with hold | hnew
    · exact h.opening grant now pool hold
    · rw [← hnew] at hnext
      cases hnext
  · rcases hcalls _ hcall with hold | hnew
    · rcases h.invalidating environmentId place found hold pool hpool with hended | ⟨entry, hentry, rfl, hplace, henvironment⟩
      · exact .inl (hends.ended ▸ List.mem_append_left _ hended)
      · by_cases hin : entry.pool ∈ gone
        · exact .inl (hends.ended ▸ List.mem_append_right _ hin)
        · obtain ⟨kept, hkept, hsame, hkey, hpool'⟩ := hends.stays entry hentry hin
          exact .inr ⟨kept, hkept, hpool', hsame ▸ hplace, by rw [ofEnvironment, hkey]; exact henvironment⟩
    · exact hinvalidating environmentId place found hnew.symm pool hpool
  · rw [hlog] at hin
    rcases List.mem_append.mp hin with hold | hnew
    · exact hends.ended ▸ List.mem_append_left _ (h.invalidated environmentId found hold pool hpool)
    · exact hinvalidated environmentId found hnew pool hpool

theorem returned_append {log : List PoolEvent}
    (h : ∀ before after grant pool, log = before ++ .returned grant pool :: after → ReturnedWell platform config before grant pool)
    (hmore : ∀ grant pool, .returned grant pool ∉ more) :
    ∀ before after grant pool, log ++ more = before ++ .returned grant pool :: after →
      ReturnedWell platform config before grant pool := by
  intro before after grant pool hsplit
  rcases List.append_eq_append_iff.mp hsplit with ⟨rest, -, hrest⟩ | ⟨rest, hlog, hrest⟩
  · exact absurd (hrest ▸ List.mem_append_right _ List.mem_cons_self) (hmore grant pool)
  · cases rest with
    | nil =>
      have hin : PoolEvent.returned grant pool ∈ [] ++ more := hrest ▸ List.mem_cons_self
      exact absurd hin (hmore grant pool)
    | cons event rest =>
      obtain ⟨rfl, -⟩ := List.cons.inj hrest
      exact h before rest grant pool hlog

/-! ## What the parts of a call do -/

theorem opening_same (hcall : calls[call]? = some old) (hold : old.openingPool = none)
    (hnext : next.openingPool = none) :
    ((calls.set call next).filterMap Waiting.openingPool).Perm (calls.filterMap Waiting.openingPool) := by
  have hset := opening_set next hcall
  rw [hold, hnext] at hset
  exact hset

theorem mem_set {waiting : Waiting} (h : waiting ∈ calls.set call next) :
    waiting ∈ calls ∨ waiting = next := List.mem_or_eq_of_mem_set h

theorem filter_none {pools : List TenantPool} : (pools.filter fun pool => !([] : List TenantPool).contains pool) = pools :=
  List.filter_eq_self.mpr fun _ _ => rfl

theorem Ends.none {s : PoolState} (hcache : s'.cache.map (fun entry => (entry.place, entry.key, entry.pool)) =
      s.cache.map fun entry => (entry.place, entry.key, entry.pool)) (hplaces : s'.places = s.places)
    (hopening : s'.openingPools.Perm s.openingPools) (hcreated : s'.created = s.created) (hended : s'.ended = s.ended) :
    s.Ends s' [] := by
  have hpools : s'.cache.map CachedPool.pool = s.cache.map CachedPool.pool := by
    have hsame := congrArg (List.map fun parts : ℕ × Text × TenantPool => parts.2.2) hcache
    rwa [List.map_map, List.map_map] at hsame
  have hplace : s'.cache.map CachedPool.place = s.cache.map CachedPool.place := by
    have hsame := congrArg (List.map fun parts : ℕ × Text × TenantPool => parts.1) hcache
    rwa [List.map_map, List.map_map] at hsame
  refine ⟨hcreated, by rw [hended, List.append_nil], ?_, fun entry hentry => ?_, fun entry hentry _ => ?_,
    hplace ▸ List.Sublist.refl _, hplaces⟩
  · rw [filter_none, holders, holders, hpools]
    exact hopening.append_left _
  · have hin : (entry.place, entry.key, entry.pool) ∈ s.cache.map fun entry => (entry.place, entry.key, entry.pool) :=
      hcache ▸ List.mem_map_of_mem hentry
    obtain ⟨old, hold, hsame⟩ := List.mem_map.mp hin
    simp only [Prod.mk.injEq] at hsame
    exact ⟨old, hold, hsame.1.symm, hsame.2.1.symm, hsame.2.2.symm⟩
  · have hin : (entry.place, entry.key, entry.pool) ∈ s'.cache.map fun entry => (entry.place, entry.key, entry.pool) :=
      hcache ▸ List.mem_map_of_mem hentry
    obtain ⟨kept, hkept, hsame⟩ := List.mem_map.mp hin
    simp only [Prod.mk.injEq] at hsame
    exact ⟨kept, hkept, hsame.1, hsame.2.1, hsame.2.2⟩

theorem Kept.ends_drop (h : Kept platform config s) (hentry : entry ∈ s.cache) (hcall : s.calls[call]? = some old)
    (hold : old.openingPool = none) (hnext : next.openingPool = none) :
    s.Ends ((s.dropEntry entry).settle call next) [entry.pool] := by
  have hnodup := h.nodup_holders
  have hsame : ∀ other ∈ s.cache, (other.key != entry.key) = !([entry.pool].contains other.pool) := by
    intro other hother
    rw [bne, Bool.eq_iff_iff, Bool.not_eq_true', Bool.not_eq_true', beq_eq_false_iff_ne, ← Bool.not_eq_true, List.contains_iff_mem,
      List.mem_singleton]
    constructor
    · intro hkey hpool
      exact hkey (by rw [(h.cached other hother).1, (h.cached entry hentry).1, hpool])
    · intro hpool hkey
      exact hpool (congrArg CachedPool.pool (h.entry_eq hother hentry hkey))
  refine ⟨?_, ?_, ?_, fun other hother => ⟨other, List.mem_of_mem_filter hother, rfl, rfl, rfl⟩, fun other hother hstays => ?_,
    List.filter_sublist.map _, rfl⟩
  · simp [created, settle, dropEntry, PoolEvent.createdPool]
  · simp [ended, settle, dropEntry, PoolEvent.endedPool]
  · have hopening : (s.openingPools.filter fun pool => !([entry.pool].contains pool)) = s.openingPools := by
      refine List.filter_eq_self.mpr fun pool hpool => ?_
      rw [Bool.not_eq_true', ← Bool.not_eq_true, List.contains_iff_mem, List.mem_singleton]
      rintro rfl
      exact (List.nodup_append.mp hnodup).2.2 _ (List.mem_map_of_mem hentry) _ hpool rfl
    rw [holders, holders, List.filter_append, hopening, List.filter_map]
    refine List.Perm.append (List.Perm.of_eq ?_) (opening_same hcall hold hnext)
    exact congrArg (List.map CachedPool.pool) (List.filter_congr hsame)
  · refine ⟨other, List.mem_filter.mpr ⟨hother, ?_⟩, rfl, rfl, rfl⟩
    rw [hsame other hother, Bool.not_eq_true', ← Bool.not_eq_true, List.contains_iff_mem]
    exact hstays

theorem Kept.ends_discard (h : Kept platform config s) {now : ℕ} {grant : TenantGrant} {pool : TenantPool}
    (hcall : s.calls[call]? = some (.opening grant now pool)) :
    s.Ends ((s.record (.ended pool)).settle call (.discarding pool)) [pool] := by
  have hset := opening_set (.discarding pool) hcall
  have hopening : s.openingPools.Perm (pool :: (s.calls.set call (.discarding pool)).filterMap Waiting.openingPool) := hset.symm
  have hholders : s.holders.Perm
      (pool :: (s.cache.map CachedPool.pool ++ (s.calls.set call (.discarding pool)).filterMap Waiting.openingPool)) :=
    (hopening.append_left _).trans List.perm_middle
  obtain ⟨hfresh, hrest⟩ := List.nodup_cons.mp (hholders.nodup_iff.mp h.nodup_holders)
  refine ⟨?_, ?_, ?_, fun other hother => ⟨other, hother, rfl, rfl, rfl⟩, fun other hother _ => ⟨other, hother, rfl, rfl, rfl⟩,
    List.Sublist.refl _, rfl⟩
  · simp [created, settle, record, PoolEvent.createdPool]
  · simp [ended, settle, record, PoolEvent.endedPool]
  · refine List.Perm.symm ((hholders.filter _).trans ?_)
    rw [List.filter_cons_of_neg (by simp)]
    refine List.Perm.of_eq (List.filter_eq_self.mpr fun other hother => ?_)
    rw [Bool.not_eq_true', ← Bool.not_eq_true, List.contains_iff_mem, List.mem_singleton]
    rintro rfl
    exact hfresh hother

theorem Kept.ends_close (h : Kept platform config s) (hcall : s.calls[call]? = some old)
    (hold : old.openingPool = none) : s.Ends (s.close call) (s.cache.map CachedPool.pool) := by
  refine ⟨?_, ?_, ?_, fun _ hentry => absurd hentry List.not_mem_nil,
    fun entry hentry hstays => absurd (List.mem_map_of_mem hentry) hstays, List.nil_sublist _, rfl⟩
  · have hnone : (s.cache.map fun entry => PoolEvent.ended entry.pool).filterMap PoolEvent.createdPool = [] := by
      rw [List.filterMap_map]
      exact List.filterMap_eq_nil_iff.mpr fun _ _ => rfl
    rw [created, created, close, settle, List.filterMap_append, hnone, List.append_nil]
  · have hall : (s.cache.map fun entry => PoolEvent.ended entry.pool).filterMap PoolEvent.endedPool =
        s.cache.map CachedPool.pool := by
      rw [List.filterMap_map, ← List.filterMap_eq_map]
      rfl
    rw [ended, ended, close, settle, List.filterMap_append, hall]
  · have hcache : (s.cache.map CachedPool.pool).filter (fun pool => !(s.cache.map CachedPool.pool).contains pool) = [] := by
      refine List.filter_eq_nil_iff.mpr fun pool hpool => ?_
      rw [Bool.not_eq_true', ← Bool.not_eq_true, List.contains_iff_mem, not_not]
      exact hpool
    have hopening : s.openingPools.filter (fun pool => !(s.cache.map CachedPool.pool).contains pool) = s.openingPools := by
      refine List.filter_eq_self.mpr fun pool hpool => ?_
      rw [Bool.not_eq_true', ← Bool.not_eq_true, List.contains_iff_mem]
      exact fun hin => (List.nodup_append.mp h.nodup_holders).2.2 _ hin _ hpool rfl
    rw [holders, holders, List.filter_append, hcache, hopening]
    exact opening_same hcall hold rfl

/-! ## Steps that end pools, or none -/

section Parts
variable {call : ℕ} {old next : Waiting}

theorem Kept.settle (h : Kept platform config s) (hcall : s.calls[call]? = some old) (hold : old.openingPool = none)
    (hnext : next.openingPool = none) (hquiet : ∀ environmentId place found, next ≠ .invalidating environmentId place found) :
    Kept platform config (s.settle call next) := by
  refine h.ends _ (Ends.none rfl rfl (opening_same hcall hold hnext) rfl rfl) List.nodup_nil (fun _ hin => absurd hin List.not_mem_nil)
    (fun _ => mem_set) hnext (fun environmentId place found heq => absurd heq (hquiet environmentId place found))
    (List.append_nil _).symm h.returned fun _ _ hin => absurd hin List.not_mem_nil

theorem Kept.called (h : Kept platform config s) : Kept platform config s.called := by
  have hopening : s.called.openingPools = s.openingPools := by
    rw [openingPools, openingPools, PoolState.called, List.filterMap_append]
    exact List.append_nil _
  refine h.ends .settled (Ends.none rfl rfl (List.Perm.of_eq hopening) rfl rfl) List.nodup_nil
    (fun _ hin => absurd hin List.not_mem_nil) (fun waiting hin => ?_) rfl (fun _ _ _ heq => by cases heq)
    (List.append_nil _).symm h.returned fun _ _ hin => absurd hin List.not_mem_nil
  rcases List.mem_append.mp hin with hbefore | hnew
  · exact .inl hbefore
  · exact .inr (List.mem_singleton.mp hnew)

theorem called_call (s : PoolState) : s.called.calls[s.calls.length]? = some .settled := List.getElem?_concat_length

variable {entry : CachedPool} {grant : TenantGrant} {now place : ℕ} {pool : TenantPool}

theorem Kept.drop (h : Kept platform config s) (hentry : entry ∈ s.cache) (hcall : s.calls[call]? = some old)
    (hold : old.openingPool = none) (hnext : next.openingPool = none)
    (hinvalidating : ∀ environmentId place found, next = .invalidating environmentId place found → ∀ pool ∈ found,
      pool ∈ ((s.dropEntry entry).settle call next).ended ∨ ∃ other ∈ ((s.dropEntry entry).settle call next).cache,
        other.pool = pool ∧ place ≤ other.place ∧ ofEnvironment environmentId other = true) :
    Kept platform config ((s.dropEntry entry).settle call next) := by
  refine h.ends _ (h.ends_drop hentry hcall hold hnext) (List.nodup_singleton _) (fun pool hpool => ?_) (fun _ => mem_set) hnext
    hinvalidating rfl (returned_append h.returned fun _ _ hin => ?_) fun _ _ hin => ?_
  · rw [List.mem_singleton.mp hpool]
    exact h.live_of_entry hentry
  · cases List.mem_singleton.mp hin
  · cases List.mem_singleton.mp hin

theorem Kept.discard (h : Kept platform config s) (hcall : s.calls[call]? = some (.opening grant now pool)) :
    Kept platform config ((s.record (.ended pool)).settle call (.discarding pool)) := by
  have hopening : pool ∈ s.openingPools := List.mem_filterMap.mpr ⟨_, List.mem_of_getElem? hcall, rfl⟩
  refine h.ends (.discarding pool) (h.ends_discard hcall) (List.nodup_singleton _) (fun other hother => ?_)
    (fun _ => mem_set) rfl (fun _ _ _ heq => by cases heq) rfl (returned_append h.returned fun _ _ hin => ?_)
    fun _ _ hin => ?_
  · rw [List.mem_singleton.mp hother]
    exact h.held.mem_iff.mp (List.mem_append_right _ hopening)
  · cases List.mem_singleton.mp hin
  · cases List.mem_singleton.mp hin

theorem Kept.close (h : Kept platform config s) (hcall : s.calls[call]? = some old) (hold : old.openingPool = none) :
    Kept platform config (s.close call) := by
  have hnodup : (s.cache.map CachedPool.pool).Nodup := h.nodup_holders.of_append_left
  refine h.ends .closing (h.ends_close hcall hold) hnodup (fun pool hpool => ?_) (fun _ => mem_set) rfl
    (fun _ _ _ heq => by cases heq) rfl (returned_append h.returned fun _ _ hin => ?_) fun _ _ hin => ?_
  · obtain ⟨entry, hentry, rfl⟩ := List.mem_map.mp hpool
    exact h.live_of_entry hentry
  · obtain ⟨_, -, heq⟩ := List.mem_map.mp hin
    cases heq
  · obtain ⟨_, -, heq⟩ := List.mem_map.mp hin
    cases heq

theorem Kept.evictIdle (h : Kept platform config s) (hcall : s.calls[call]? = some old) (hold : old.openingPool = none)
    (grant : TenantGrant) (now place : ℕ) : Kept platform config (s.evictIdle config call grant now place) := by
  unfold PoolState.evictIdle
  cases hfound : s.nextEntry place (idle config now) with
  | some entry =>
    exact h.drop (List.mem_of_find?_eq_some hfound) hcall hold rfl fun _ _ _ heq => by cases heq
  | none => exact h.settle hcall hold rfl fun _ _ _ heq => by cases heq

/-! ## Invalidation -/

variable {stops : CachedPool → Bool} {environmentId : Text} {installation : Installation}

theorem Kept.next_some (h : Kept platform config s) (hfound : s.nextEntry place stops = some entry)
    {other : CachedPool} (hother : other ∈ s.cache) (hplace : place ≤ other.place) (hstops : stops other = true) :
    other = entry ∨ entry.place < other.place := by
  obtain ⟨-, before, after, hcache, hbefore⟩ := List.find?_eq_some_iff_append.mp hfound
  have hplaces := h.places.1
  rw [hcache, List.map_append, List.map_cons] at hplaces
  rw [hcache] at hother
  rcases List.mem_append.mp hother with hin | hin
  · have hno := hbefore other hin
    rw [Bool.not_eq_true', hstops, Bool.and_true, decide_eq_false_iff_not] at hno
    exact absurd hplace hno
  · rcases List.mem_cons.mp hin with heq | hin
    · exact .inl heq
    · exact .inr ((List.pairwise_cons.mp (List.pairwise_append.mp hplaces).2.1).1 _ (List.mem_map_of_mem hin))

theorem next_none (hfound : s.nextEntry place stops = none) (hentry : entry ∈ s.cache) (hplace : place ≤ entry.place) :
    stops entry ≠ true := by
  intro hstops
  have hno := List.find?_eq_none.mp hfound entry hentry
  rw [hstops, Bool.and_true, decide_eq_true_iff] at hno
  exact hno hplace

theorem Kept.invalidate (h : Kept platform config s) (hcall : s.calls[call]? = some old)
    (hold : old.openingPool = none) {found : List TenantPool}
    (hahead : ∀ pool ∈ found, pool ∈ s.ended ∨ ∃ entry ∈ s.cache, entry.pool = pool ∧ place ≤ entry.place ∧
      ofEnvironment environmentId entry = true) :
    Kept platform config (s.invalidate call environmentId place found) := by
  unfold PoolState.invalidate
  cases hfound : s.nextEntry place (ofEnvironment environmentId) with
  | some entry =>
    have hentry := List.mem_of_find?_eq_some hfound
    have hends := h.ends_drop hentry hcall hold (show Waiting.openingPool (.invalidating environmentId (entry.place + 1) found) = none from rfl)
    refine h.drop hentry hcall hold rfl fun _ _ _ heq pool hpool => ?_
    cases heq
    rw [hends.ended]
    rcases hahead pool hpool with hended | ⟨other, hother, rfl, hplace, henvironment⟩
    · exact .inl (List.mem_append_left _ hended)
    · by_cases hgone : other.pool ∈ [entry.pool]
      · exact .inl (List.mem_append_right _ hgone)
      · obtain ⟨kept, hkept, hsame, hkey, hpool'⟩ := hends.stays other hother hgone
        rcases h.next_some hfound hother hplace henvironment with heq | hlater
        · exact absurd (heq ▸ List.mem_singleton_self _) hgone
        · exact .inr ⟨kept, hkept, hpool', by rw [hsame]; exact hlater, by rw [ofEnvironment, hkey]; exact henvironment⟩
  | none =>
    have hended : ((s.record (.invalidated environmentId found)).settle call .settled).ended = s.ended := by
      simp [ended, PoolState.settle, record, PoolEvent.endedPool]
    refine h.ends .settled (Ends.none rfl rfl (opening_same hcall hold rfl)
      (by simp [created, PoolState.settle, record, PoolEvent.createdPool]) hended) List.nodup_nil
      (fun _ hin => absurd hin List.not_mem_nil) (fun _ => mem_set) rfl (fun _ _ _ heq => by cases heq) rfl
      (returned_append h.returned fun _ _ hin => ?_) fun environmentId' found' hin pool hpool => ?_
    · cases List.mem_singleton.mp hin
    · cases List.mem_singleton.mp hin
      rw [hended]
      rcases hahead pool hpool with hended | ⟨entry, hentry, -, hplace, henvironment⟩
      · exact hended
      · exact absurd henvironment (next_none hfound hentry hplace)

theorem Kept.open_cached (h : Kept platform config s) (hpool : pool ∈ s.openPools environmentId) :
    ∃ entry ∈ s.cache, entry.pool = pool ∧ 0 ≤ entry.place ∧ ofEnvironment environmentId entry = true := by
  obtain ⟨hlive, hopen⟩ := List.mem_filter.mp hpool
  rw [Bool.and_eq_true, beq_iff_eq, Bool.not_eq_true', ← Bool.not_eq_true, List.contains_iff_mem] at hopen
  rcases List.mem_append.mp (h.held.mem_iff.mpr hlive) with hcached | hopening
  · obtain ⟨entry, hentry, rfl⟩ := List.mem_map.mp hcached
    refine ⟨entry, hentry, rfl, Nat.zero_le _, ?_⟩
    rw [ofEnvironment, List.isPrefixOf_iff_prefix, (h.cached entry hentry).1, poolKey, hopen.1]
    exact ⟨_, by rw [List.append_assoc]; rfl⟩
  · exact absurd hopening hopen.2

/-! ## Returned pools -/

theorem returned_concat {log : List PoolEvent}
    (h : ∀ before after grant pool, log = before ++ .returned grant pool :: after → ReturnedWell platform config before grant pool) (hlast : ReturnedWell platform config log grant pool) :
    ∀ before after grant' pool', log ++ [.returned grant pool] = before ++ .returned grant' pool' :: after →
      ReturnedWell platform config before grant' pool' := by
  intro before after grant' pool' hsplit
  rcases concat_split hsplit with ⟨rfl, heq, -⟩ | ⟨rest, -, hlog⟩
  · cases heq
    exact hlast
  · exact h before rest grant' pool' hlog

theorem mem_created : pool ∈ s.created ↔ PoolEvent.created pool ∈ s.log := by
  rw [created, List.mem_filterMap]
  constructor
  · rintro ⟨event, hevent, hpool⟩
    cases event <;> cases hpool
    exact hevent
  · exact fun hevent => ⟨_, hevent, rfl⟩

theorem mem_ended : pool ∈ s.ended ↔ PoolEvent.ended pool ∈ s.log := by
  rw [ended, List.mem_filterMap]
  constructor
  · rintro ⟨event, hevent, hpool⟩
    cases event <;> cases hpool
    exact hevent
  · exact fun hevent => ⟨_, hevent, rfl⟩

theorem Kept.returnedWell (h : Kept platform config s) (hentry : entry ∈ s.cache)
    (hkey : entry.key = poolKey config grant) : ReturnedWell platform config s.log grant entry.pool := by
  obtain ⟨hsame, installation, hinstalled, hgeneration⟩ := h.cached entry hentry
  obtain ⟨henvironment, hdatabase, hrouting⟩ := poolKey_inj (hsame.symm.trans hkey)
  obtain ⟨hcreated, hended⟩ := mem_live.1 (h.live_of_entry hentry)
  have hoptions := poolOptions_congr platform config henvironment hdatabase hrouting
  exact ⟨mem_created.1 hcreated, hoptions ▸ h.options _ hcreated, henvironment, hdatabase, hrouting,
    ⟨installation, hinstalled, hgeneration.trans hrouting⟩, fun hin => hended (mem_ended.2 hin)⟩

theorem Kept.reuse (h : Kept platform config s) (hcall : s.calls[call]? = some old) (hold : old.openingPool = none) (hentry : entry ∈ s.cache) (hkey : entry.key = poolKey config grant) (now : ℕ) :
    Kept platform config ((s.touch (poolKey config grant) now).returnPool call grant entry.pool) := by
  refine h.ends .settled (Ends.none ?_ rfl (opening_same hcall hold rfl)
    (by simp [created, returnPool, touch, PoolState.settle, record, PoolEvent.createdPool])
    (by simp [ended, returnPool, touch, PoolState.settle, record, PoolEvent.endedPool])) List.nodup_nil
    (fun _ hin => absurd hin List.not_mem_nil) (fun _ => mem_set) rfl (fun _ _ _ heq => by cases heq) rfl
    (returned_concat h.returned (h.returnedWell hentry hkey)) fun _ _ hin => ?_
  · change (s.cache.map _).map _ = _
    rw [List.map_map]
    refine List.map_congr_left fun other _ => ?_
    rw [Function.comp_apply]
    split <;> rfl
  · cases List.mem_singleton.mp hin

/-! ## Opened pools -/

theorem Kept.fresh (h : Kept platform config s) (grant : TenantGrant) (options : PoolOptions) :
    (⟨s.created.length, grant, options⟩ : TenantPool) ∉ s.created := by
  intro hin
  have hid : s.created.length ∈ s.created.map TenantPool.id := List.mem_map_of_mem hin
  rw [h.ids, List.mem_range] at hid
  exact lt_irrefl _ hid

theorem opensAlone_spec (h : s.opensAlone config grant = true) : (∀ entry ∈ s.cache, entry.key ≠ poolKey config grant) ∧
      (∀ pool ∈ s.openingPools, poolKey config pool.grant ≠ poolKey config grant) ∧
      s.cache.length + s.openingPools.length < config.max := by
  rw [opensAlone, Bool.and_eq_true, Bool.and_eq_true, Bool.not_eq_true', Bool.not_eq_true', List.any_eq_false, List.any_eq_false,
    decide_eq_true_iff] at h
  exact ⟨fun entry hentry heq => h.1.1 entry hentry (beq_iff_eq.mpr heq),
    fun pool hpool heq => h.1.2 pool hpool (beq_iff_eq.mpr heq), h.2⟩

theorem Kept.openPool (h : Kept platform config s) (hcall : s.calls[call]? = some old) (hold : old.openingPool = none) (halone : s.opensAlone config grant = true) (now : ℕ) :
    Kept platform config (s.openPool platform config call grant now) := by
  unfold PoolState.openPool
  cases hoptions : poolOptions platform config grant with
  | error _ => exact h.settle hcall hold rfl fun _ _ _ heq => by cases heq
  | ok options =>
    obtain ⟨hcached, hopening, hroom⟩ := opensAlone_spec halone
    let pool : TenantPool := ⟨s.created.length, grant, options⟩
    let s' := (s.record (.created pool)).settle call (.opening grant now pool)
    have hfresh : pool ∉ s.created := h.fresh grant options
    have hcreated : s'.created = s.created ++ [pool] := by simp [s', created, PoolState.settle, record, PoolEvent.createdPool]
    have hended : s'.ended = s.ended := by simp [s', ended, PoolState.settle, record, PoolEvent.endedPool]
    have hset : s'.openingPools.Perm (pool :: s.openingPools) := by
      have hset := opening_set (.opening grant now pool) hcall
      rwa [hold] at hset
    have hholders : s'.holders.Perm (pool :: s.holders) := (hset.append_left _).trans List.perm_middle
    have hlive : s'.live = s.live ++ [pool] := by
      rw [live, hcreated, hended, List.filter_append, live]
      congr 1
      refine List.filter_eq_self.mpr fun other hother => ?_
      rw [List.mem_singleton.mp hother, Bool.not_eq_true', ← Bool.not_eq_true, List.contains_iff_mem]
      exact fun hin => hfresh (h.known pool hin)
    have hkeys : ∀ other ∈ s.holders, poolKey config other.grant ≠ poolKey config grant := by
      intro other hother
      rcases List.mem_append.mp hother with hin | hin
      · obtain ⟨entry, hentry, rfl⟩ := List.mem_map.mp hin
        exact (h.cached entry hentry).1 ▸ hcached entry hentry
      · exact hopening other hin
    refine ⟨?_, ?_, hended ▸ h.once, ?_, ?_, ?_, ?_, fun entry hentry => ?_, h.places, fun grant' now' pool' hin => ?_,
      returned_append h.returned fun _ _ hin => ?_, fun environmentId place found hin pool' hpool' => ?_,
      fun environmentId found hin pool' hpool' => ?_⟩
    · rw [hcreated, List.map_append, h.ids, List.length_append, List.length_singleton, List.range_succ]
      rfl
    · rw [hcreated]
      intro other hother
      rcases List.mem_append.mp hother with hin | hin
      · exact h.options other hin
      · rw [List.mem_singleton.mp hin]
        exact hoptions
    · rw [hcreated, hended]
      exact fun other hin => List.mem_append_left _ (h.known other hin)
    · rw [hlive]
      exact hholders.trans ((List.Perm.cons pool h.held).trans (List.perm_append_singleton pool s.live).symm)
    · refine (hholders.map _).nodup_iff.mpr (List.nodup_cons.mpr ⟨fun hin => ?_, h.keys⟩)
      obtain ⟨other, hother, hkey⟩ := List.mem_map.mp hin
      exact hkeys other hother hkey
    · rw [hholders.length_eq, List.length_cons, holders, List.length_append, List.length_map]
      exact hroom
    · obtain ⟨hkey, installation, hinstalled, hgeneration⟩ := h.cached entry hentry
      exact ⟨hkey, installation, List.mem_append_left _ hinstalled, hgeneration⟩
    · rcases mem_set hin with hbefore | hnew
      · exact h.opening grant' now' pool' hbefore
      · cases hnew
        rfl
    · cases List.mem_singleton.mp hin
    · rcases mem_set hin with hbefore | hnew
      · rw [hended]
        exact h.invalidating environmentId place found hbefore pool' hpool'
      · cases hnew
    · rw [hended]
      rcases List.mem_append.mp hin with hbefore | hnew
      · exact h.invalidated environmentId found hbefore pool' hpool'
      · cases List.mem_singleton.mp hnew

/-! ## Installed pools -/

theorem Kept.install (h : Kept platform config s) (hcall : s.calls[call]? = some (.opening grant now pool))
    (hgeneration : installation.routing_generation = grant.routingGeneration) : Kept platform config
      (((s.record (.installed pool installation)).setEntry (poolKey config grant) pool now).returnPool call grant pool) := by
  have hin : pool ∈ s.openingPools := List.mem_filterMap.mpr ⟨_, List.mem_of_getElem? hcall, rfl⟩
  have hgrant : pool.grant = grant := h.opening _ _ _ (List.mem_of_getElem? hcall)
  have hnew : (s.cache.any fun entry => entry.key == poolKey config grant) = false := by
    rw [List.any_eq_false]
    intro entry hentry hkey
    have hkeys := h.keys
    rw [holders, List.map_append] at hkeys
    refine (List.nodup_append.mp hkeys).2.2 _ (List.mem_map_of_mem (List.mem_map_of_mem hentry)) _ (List.mem_map_of_mem hin) ?_
    rw [← (h.cached entry hentry).1, beq_iff_eq.mp hkey, hgrant]
  rw [setEntry, if_neg (by rw [record, hnew]; exact Bool.false_ne_true)]
  let entry : CachedPool := ⟨s.places, poolKey config grant, pool, now⟩
  let s' : PoolState := ⟨s.cache ++ [entry], s.places + 1, s.calls.set call .settled,
    (s.log ++ [.installed pool installation]) ++ [.returned grant pool]⟩
  change Kept platform config s'
  have hcreated : s'.created = s.created := by simp [s', created, PoolEvent.createdPool]
  have hended : s'.ended = s.ended := by simp [s', ended, PoolEvent.endedPool]
  have hlive : s'.live = s.live := by rw [live, live, hcreated, hended]
  have hset : (pool :: s'.openingPools).Perm s.openingPools := opening_set .settled hcall
  have hholders : s'.holders.Perm s.holders := by
    rw [holders, holders, List.map_append, List.append_assoc]
    exact List.Perm.append_left _ hset
  have hold := h.held.mem_iff.mp (List.mem_append_right _ hin)
  have hlast : ReturnedWell platform config (s.log ++ [.installed pool installation]) grant pool := by
    obtain ⟨hpool, hopen⟩ := mem_live.1 hold
    refine ⟨List.mem_append_left _ (mem_created.1 hpool), hgrant ▸ h.options pool hpool, by rw [hgrant], by rw [hgrant], by rw [hgrant],
      ⟨installation, List.mem_append_right _ List.mem_cons_self, hgeneration⟩, fun hmem => ?_⟩
    rcases List.mem_append.mp hmem with hbefore | hnow
    · exact hopen (mem_ended.2 hbefore)
    · cases List.mem_singleton.mp hnow
  refine ⟨hcreated ▸ h.ids, hcreated ▸ h.options, hended ▸ h.once, ?_, hlive ▸ hholders.trans h.held,
    (hholders.map _).nodup_iff.mpr h.keys, hholders.length_eq ▸ h.room, fun other hother => ?_, ⟨?_, fun other hother => ?_⟩,
    fun grant' now' pool' hmem => ?_, returned_concat (returned_append h.returned fun _ _ hmem => ?_) hlast,
    fun environmentId place found hmem pool' hpool' => ?_, fun environmentId found hmem pool' hpool' => ?_⟩
  · rw [hcreated, hended]
    exact h.known
  · rcases List.mem_append.mp hother with hbefore | hnow
    · obtain ⟨hkey, installation', hinstalled, hsame⟩ := h.cached other hbefore
      exact ⟨hkey, installation', List.mem_append_left _ (List.mem_append_left _ hinstalled), hsame⟩
    · rw [List.mem_singleton.mp hnow]
      exact ⟨by rw [hgrant], installation, List.mem_append_left _ (List.mem_append_right _ List.mem_cons_self),
        by rw [hgrant]; exact hgeneration⟩
  · rw [List.map_append, List.pairwise_append]
    refine ⟨h.places.1, List.pairwise_singleton _ _, fun place hplace place' hplace' => ?_⟩
    obtain ⟨other, hother, rfl⟩ := List.mem_map.mp hplace
    rw [List.mem_singleton.mp hplace']
    exact h.places.2 other hother
  · rcases List.mem_append.mp hother with hbefore | hnow
    · exact Nat.lt_succ_of_lt (h.places.2 other hbefore)
    · rw [List.mem_singleton.mp hnow]
      exact Nat.lt_succ_self _
  · rcases mem_set hmem with hbefore | hnow
    · exact h.opening grant' now' pool' hbefore
    · cases hnow
  · cases List.mem_singleton.mp hmem
  · rcases mem_set hmem with hbefore | hnow
    · rw [hended]
      rcases h.invalidating environmentId place found hbefore pool' hpool' with hgone | ⟨other, hother, hrest⟩
      · exact .inl hgone
      · exact .inr ⟨other, List.mem_append_left _ hother, hrest⟩
    · cases hnow
  · rw [hended]
    rcases List.mem_append.mp hmem with hbefore | hnow
    · rcases List.mem_append.mp hbefore with hfirst | hthen
      · exact h.invalidated environmentId found hfirst pool' hpool'
      · cases List.mem_singleton.mp hthen
    · cases List.mem_singleton.mp hnow

theorem compatible_generation {component : Component} (h : compatible component grant installation = true) :
    installation.routing_generation = grant.routingGeneration := by
  rw [compatible, Bool.and_eq_true, Bool.and_eq_true, Bool.and_eq_true, beq_iff_eq] at h
  exact h.1.1.1

theorem Kept.answered (h : Kept platform config s)
    (hcall : s.calls[call]? = some (.opening grant now pool)) (row : Option Installation) :
    Kept platform config (s.answered platform config call grant now pool row) := by
  unfold PoolState.answered
  split
  · split
    · exact h.install hcall (compatible_generation ‹_›)
    · exact h.discard hcall
  · exact h.discard hcall

/-! ## The look at the cache -/

theorem Kept.makeRoom (h : Kept platform config s) (hcall : s.calls[call]? = some old) (hold : old.openingPool = none) (halone : (decide (config.max ≤ s.cache.length) || s.opensAlone config grant) = true) (now : ℕ) :
    Kept platform config (s.makeRoom platform config call grant now) := by
  unfold PoolState.makeRoom
  split
  · split
    · have hentry := List.mem_of_head? ‹s.oldest = some _›
      exact h.drop ((StableSort.sortBy_perm _ _).mem_iff.mp hentry) hcall hold rfl fun _ _ _ heq => by cases heq
    · exact h.settle hcall hold rfl fun _ _ _ heq => by cases heq
  · rw [Bool.or_eq_true, decide_eq_true_iff] at halone
    exact h.openPool hcall hold (halone.resolve_left ‹_›) now

theorem Kept.lookUp (h : Kept platform config s) (hcall : s.calls[call]? = some old) (hold : old.openingPool = none) (halone : (s.cache.any (fun entry => entry.key == poolKey config grant) ||
      decide (config.max ≤ s.cache.length) || s.opensAlone config grant) = true) (now : ℕ) :
    Kept platform config (s.lookUp platform config call grant now) := by
  unfold PoolState.lookUp
  dsimp only
  cases hfound : s.cache.find? fun entry => entry.key == poolKey config grant with
  | some entry =>
    have hkey := List.find?_some hfound
    exact h.reuse hcall hold (List.mem_of_find?_eq_some hfound) (beq_iff_eq.mp hkey) now
  | none =>
    have hnone : (s.cache.any fun entry => entry.key == poolKey config grant) = false :=
      List.any_eq_false.mpr (List.find?_eq_none.mp hfound)
    rw [hnone, Bool.false_or] at halone
    exact h.makeRoom hcall hold halone now

end Parts

end Kept

end PoolState

end AvenOS.CustomerRuntime
