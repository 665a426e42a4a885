import AvenOS.CustomerRuntime.PoolRun

/-! # Who owns the pools

Where every pool is opened alone, the pools that are live are at most so many as the configuration allows, and each of them
is in the cache or being opened. -/
namespace AvenOS.CustomerRuntime
open LabelledRun

namespace PoolState
section Steps
variable {platform : TenantPlatform} {config : PoolConfig} {s s' : PoolState}

/-! ## What every step keeps -/

variable {call : ℕ}

theorem Kept.resume (h : Kept platform config s) (halone : s.alone config (.resume call) = true)
    (hstep : s.step platform config (.resume call) = some s') : Kept platform config s' := by
  rw [alone] at halone
  rw [step] at hstep
  cases hcall : s.calls[call]? with
  | none =>
    rw [hcall] at hstep
    cases hstep
  | some waiting =>
    rw [hcall] at hstep halone
    cases waiting with
    | evictingIdle grant now place =>
      cases hstep
      exact h.evictIdle hcall rfl grant now place
    | evicted grant now =>
      cases hstep
      exact h.lookUp hcall rfl halone now
    | evictingOldest grant now =>
      cases hstep
      exact h.makeRoom hcall rfl halone now
    | invalidating environmentId place found =>
      cases hstep
      exact h.invalidate hcall rfl (h.invalidating environmentId place found (List.mem_of_getElem? hcall))
    | discarding pool =>
      cases hstep
      exact h.settle hcall rfl rfl fun _ _ _ heq => by cases heq
    | closing =>
      cases hstep
      exact h.settle hcall rfl rfl fun _ _ _ heq => by cases heq
    | opening grant now pool => cases hstep
    | settled => cases hstep

theorem Kept.reject (h : Kept platform config s) (hstep : s.step platform config (.reject call) = some s') :
    Kept platform config s' := by
  rw [step] at hstep
  cases hcall : s.calls[call]? with
  | none =>
    rw [hcall] at hstep
    cases hstep
  | some waiting =>
    rw [hcall] at hstep
    have hsettle : waiting.openingPool = none → s.settle call .settled = s' → Kept platform config s' := by
      rintro hnone rfl
      exact h.settle hcall hnone rfl fun _ _ _ heq => by cases heq
    cases waiting with
    | opening grant now pool =>
      cases hstep
      exact h.discard hcall
    | evicted grant now => cases hstep
    | settled => cases hstep
    | evictingIdle grant now place => exact hsettle rfl (Option.some.inj hstep)
    | evictingOldest grant now => exact hsettle rfl (Option.some.inj hstep)
    | invalidating environmentId place found => exact hsettle rfl (Option.some.inj hstep)
    | discarding pool => exact hsettle rfl (Option.some.inj hstep)
    | closing => exact hsettle rfl (Option.some.inj hstep)

theorem Kept.answer (h : Kept platform config s) {row : Option Installation}
    (hstep : s.step platform config (.answer call row) = some s') : Kept platform config s' := by
  rw [step] at hstep
  split at hstep
  · cases hstep
    exact h.answered ‹_› row
  · cases hstep

theorem Kept.step (h : Kept platform config s) {action : PoolAction} (halone : s.alone config action = true)
    (hstep : s.step platform config action = some s') : Kept platform config s' := by
  cases action with
  | forGrant grant now =>
    rw [PoolState.step] at hstep
    split at hstep
    · cases hstep
      exact h.called
    · cases hstep
      exact h.called.evictIdle (called_call s) rfl grant now 0
  | invalidate environmentId =>
    cases hstep
    exact h.called.invalidate (called_call s) rfl fun pool hpool => .inr (h.open_cached hpool)
  | close =>
    cases hstep
    exact h.called.close (called_call s) rfl
  | resume call => exact h.resume halone hstep
  | reject call => exact h.reject hstep
  | answer call row => exact h.answer hstep

/-! ## What is kept says who owns the pools -/

theorem Kept.owner (h : Kept platform config s) {pool : TenantPool} (hpool : pool ∈ s.live) :
    pool ∈ s.openingPools ∨ ∃ entry ∈ s.cache, entry.pool = pool := by
  rcases List.mem_append.mp (h.held.mem_iff.mpr hpool) with hcached | hopening
  · exact .inr (List.mem_map.mp hcached)
  · exact .inl hopening

theorem Kept.owned (h : Kept platform config s) : s.Owned platform config where
  returned := h.returned
  once := h.once
  bounded := h.held.length_eq ▸ h.room
  cached := fun _ => h.owner
  invalidated := h.invalidated
  closed := by
    intro s' hstep pool hpool
    have hkept : Kept platform config s' := h.step rfl hstep
    cases hstep
    exact (hkept.owner hpool).resolve_right fun ⟨_, hentry, _⟩ => absurd hentry List.not_mem_nil

end Steps
end PoolState

/-- In every run in which pools are opened alone, they are bounded and owned. -/
theorem pools_bounded_and_owned (platform : TenantPlatform) (config : PoolConfig) {actions : List PoolAction} {s : PoolState}
    (halone : along (PoolState.step platform config) (PoolState.alone config) PoolState.start actions = true)
    (hrun : run (PoolState.step platform config) PoolState.start actions = some s) : s.Owned platform config := by
  have hkept := along_invariant (I := PoolState.Kept platform config) (fun s action s' halone h hstep => h.step halone hstep) halone
    PoolState.Kept.start hrun
  exact hkept.owned

/-! ## Two requests for one tenant -/

def gatewayComponent : Component := ⟨1, 2, "sha256:migrations"⟩

def gatewayPlatform : TenantPlatform where
  catalog component := if component = "intents@1" then some gatewayComponent else none
  databaseRoleName environmentId suffix := .ok ("aven_" ++ String.ofList environmentId ++ suffix)
  deriveDatabasePassword root _ _ _ := .ok root

def gatewayConfig (maxPools : ℕ) : PoolConfig where
  host := "127.0.0.1"
  port := 5432
  ssl := false
  credentialRoot := "root"
  roleKind := "intents_runtime".toList
  roleSuffix := "_intents"
  componentRef := "intents@1"
  searchPath := ["aven_intents"]
  maxPools := some maxPools
  maxConnectionsPerPool := none
  idleMilliseconds := none

def tenantGrant (environmentId : Text) (generation : ℕ) (plain : nul ∉ environmentId) : TenantGrant :=
  ⟨environmentId, "tenant".toList, generation, "intents@1", plain, by decide⟩

def firstTenant : TenantGrant := tenantGrant "one".toList 3 (by decide)

def secondTenant : TenantGrant := tenantGrant "two".toList 1 (by decide)

def migrated (generation : ℕ) : Option Installation := some ⟨2, "sha256:migrations", generation⟩

def oneAfterTheOther : List PoolAction :=
  [.forGrant firstTenant 0, .resume 0, .answer 0 (migrated 3), .forGrant firstTenant 10, .resume 1, .forGrant secondTenant 20,
    .resume 2, .resume 2, .answer 2 (migrated 1), .invalidate "two".toList]

theorem pools_bounded_and_owned_of_two_tenants :
    ∃ s, run (PoolState.step gatewayPlatform (gatewayConfig 1)) PoolState.start oneAfterTheOther = some s ∧
      s.ended.length = 2 ∧ s.Owned gatewayPlatform (gatewayConfig 1) := by
  have hrun : (run (PoolState.step gatewayPlatform (gatewayConfig 1)) PoolState.start oneAfterTheOther).any
      (fun s => s.ended.length == 2) = true := by decide +kernel
  obtain ⟨s, hs, hended⟩ := (Option.any_eq_true _ _).mp hrun
  exact ⟨s, hs, beq_iff_eq.mp hended, pools_bounded_and_owned gatewayPlatform (gatewayConfig 1) (by decide +kernel) hs⟩

/-- Two requests for one tenant look at an empty cache before either of their pools is in it. -/
def bothAtOnce : List PoolAction :=
  [.forGrant firstTenant 0, .forGrant firstTenant 0, .resume 0, .resume 1, .answer 0 (migrated 3), .answer 1 (migrated 3)]

theorem second_pool_of_key_is_lost :
    ¬ ∀ (platform : TenantPlatform) (config : PoolConfig) (actions : List PoolAction) (s : PoolState),
      run (PoolState.step platform config) PoolState.start actions = some s → s.Owned platform config := by
  intro h
  have hrun : (run (PoolState.step gatewayPlatform (gatewayConfig 8)) PoolState.start bothAtOnce).any
      (fun s => s.live.any fun pool => !s.openingPools.contains pool && s.cache.all fun entry => entry.pool != pool) = true := by
    decide +kernel
  obtain ⟨s, hs, hlost⟩ := (Option.any_eq_true _ _).mp hrun
  obtain ⟨pool, hlive, hpool⟩ := List.any_eq_true.mp hlost
  rw [Bool.and_eq_true, Bool.not_eq_true', ← Bool.not_eq_true, List.contains_iff_mem, List.all_eq_true] at hpool
  rcases (h gatewayPlatform (gatewayConfig 8) bothAtOnce s hs).cached pool hlive with hopening | ⟨entry, hentry, heq⟩
  · exact hpool.1 hopening
  · exact (bne_iff_ne.mp (hpool.2 entry hentry)) heq

end AvenOS.CustomerRuntime
