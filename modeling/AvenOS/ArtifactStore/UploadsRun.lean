import AvenOS.ArtifactStore.PublishRun
import AvenOS.ArtifactStore.Uploads

/-! # What an upload does

One specification for the cleanup and one for `stage_upload`, each run alone. -/
namespace AvenOS.ArtifactStore
open Transactions

/-! ## Cleanup -/

/-- Claims and blobs that are left of others: claims go when they are stale, blobs when nothing refers to
them. -/
structure Cleaned (db last : Db) : Prop where
  frame : last = { db with claims := last.claims, blobs := last.blobs }
  claims : last.claims.Sublist db.claims
  blobs : last.blobs.Sublist db.blobs
  claim : ∀ claimId, last.claim? claimId = db.claim? claimId ∨
    last.claim? claimId = none ∧ ∃ row, db.claim? claimId = some row ∧ db.stale row
  blob : ∀ sha256, last.blob? sha256 = db.blob? sha256 ∨ last.blob? sha256 = none ∧ ¬last.blobUsed sha256

theorem Cleaned.refl (db : Db) : Cleaned db db :=
  ⟨rfl, List.Sublist.refl _, List.Sublist.refl _, fun _ => .inl rfl, fun _ => .inl rfl⟩

variable {db last : Db} {claimId : Uuid} {u : Unit}

variable {other : Db} {sha256 : String} {row : BlobRow} {now lifetime : Timestamp} {publisher : StablePublisher}
  {scopeId : Uuid} {declaration : UploadDeclaration} {bytes : ByteArray} {admission : UploadAdmission}
  {result : UploadClaimResult}

theorem stale_congr (h : other.clock = db.clock) (row : ClaimRow) : other.stale row ↔ db.stale row := by
  rw [Db.stale, Db.stale, h]

theorem blobUsed_sublist (hartifacts : other.artifacts = db.artifacts) (hclaims : other.claims.Sublist db.claims)
    (h : other.blobUsed sha256) : db.blobUsed sha256 := by
  rcases h with ⟨row, hrow, hblob⟩ | ⟨row, hrow, hblob⟩
  · exact .inl ⟨row, hartifacts ▸ hrow, hblob⟩
  · exact .inr ⟨row, hclaims.subset hrow, hblob⟩

theorem Cleaned.trans {next : Db} (h : Cleaned db next) (h' : Cleaned next last) : Cleaned db last := by
  have hclock : next.clock = db.clock := by rw [h.frame]
  have hartifacts : last.artifacts = next.artifacts := by rw [h'.frame]
  refine ⟨?_, h'.claims.trans h.claims, h'.blobs.trans h.blobs, fun claimId => ?_, fun sha256 => ?_⟩
  · rw [h'.frame, h.frame]
  · rcases h'.claim claimId with hsame | ⟨hnone, row, hrow, hstale⟩
    · rw [hsame]
      exact h.claim claimId
    · rcases h.claim claimId with hsame | ⟨hgone, -⟩
      · rw [hsame] at hrow
        exact .inr ⟨hnone, row, hrow, (stale_congr hclock row).mp hstale⟩
      · rw [hgone] at hrow
        cases hrow
  · rcases h'.blob sha256 with hsame | ⟨hnone, hunused⟩
    · rw [hsame]
      rcases h.blob sha256 with hsame' | ⟨hnone, hunused⟩
      · exact .inl hsame'
      · exact .inr ⟨hnone, fun hused => hunused (blobUsed_sublist hartifacts h'.claims hused)⟩
    · exact .inr ⟨hnone, hunused⟩

theorem find?_filter {α : Type} {rows : List α} {keep wanted : α → Bool}
    (h : ∀ row ∈ rows, wanted row = true → keep row = true) :
    (rows.filter keep).find? wanted = rows.find? wanted := by
  induction rows with
  | nil => rfl
  | cons row rows ih =>
    have hrest := ih fun other hother => h other (List.mem_cons_of_mem _ hother)
    cases hwanted : wanted row with
    | true =>
      rw [List.filter_cons_of_pos (h row List.mem_cons_self hwanted), List.find?_cons_of_pos hwanted,
        List.find?_cons_of_pos hwanted]
    | false =>
      rw [List.find?_cons_of_neg (by rw [hwanted]; decide), ← hrest, List.filter_cons]
      split_ifs
      · rw [List.find?_cons_of_neg (by rw [hwanted]; decide)]
      · rfl

theorem deleteStaleClaim_ok (h : (deleteStaleClaim claimId).run postgres db = .ok (u, last)) : Cleaned db last := by
  obtain ⟨-, hlast⟩ := Body.run_query_ok h
  rw [hlast]
  split_ifs with hstale
  · refine ⟨rfl, List.filter_sublist, List.Sublist.refl _, fun other => ?_, fun _ => .inl rfl⟩
    by_cases hsame : other = claimId
    · rw [hsame]
      right
      refine ⟨?_, ?_⟩
      · refine List.find?_eq_none.mpr fun row hrow hid => ?_
        have hkept := List.of_mem_filter hrow
        exact of_decide_eq_true hkept (of_decide_eq_true hid)
      · rw [Option.any_eq_true] at hstale
        obtain ⟨row, hrow, hdecide⟩ := hstale
        exact ⟨row, hrow, of_decide_eq_true hdecide⟩
    · left
      refine find?_filter fun row _ hid => ?_
      rw [of_decide_eq_true hid]
      exact decide_eq_true hsame
  · exact .refl db

theorem deleteUnusedBlob_ok (h : (deleteUnusedBlob sha256).run postgres db = .ok (u, last)) : Cleaned db last := by
  obtain ⟨hunused, hlast⟩ := Body.run_query_ok h
  rw [hlast]
  refine ⟨rfl, List.Sublist.refl _, List.filter_sublist, fun _ => .inl rfl, fun other => ?_⟩
  by_cases hsame : other = sha256
  · rw [hsame]
    right
    refine ⟨?_, unlessDb_ok.1 hunused⟩
    refine List.find?_eq_none.mpr fun row hrow hid => ?_
    have hkept := List.of_mem_filter hrow
    exact of_decide_eq_true hkept (of_decide_eq_true hid)
  · left
    refine find?_filter fun row _ hid => ?_
    rw [of_decide_eq_true hid]
    exact decide_eq_true hsame

theorem cleanupExpiredUploads_ok (h : cleanupExpiredUploads.run postgres db = .ok (u, last)) : Cleaned db last := by
  obtain ⟨claims, next₁, hselect, h₁⟩ := Body.run_bind_ok h
  obtain ⟨-, rfl⟩ := Body.run_select_ok hselect
  obtain ⟨_, next₂, hclaims, h₂⟩ := Body.run_bind_ok h₁
  obtain ⟨blobs, next₃, hselect', h₃⟩ := Body.run_bind_ok h₂
  obtain ⟨-, rfl⟩ := Body.run_select_ok hselect'
  have hfirst : Cleaned next₁ next₃ :=
    Body.run_forM_keeps (fun claimId _ db u next hrun hdb => hdb.trans (deleteStaleClaim_ok hrun)) hclaims (.refl _)
  exact Body.run_forM_keeps (fun sha256 _ db u next hrun hdb => hdb.trans (deleteUnusedBlob_ok hrun)) h₃ hfirst

/-! ## Staging -/

def stagedClaim (now : Timestamp) (publisher : StablePublisher) (scopeId claimId : Uuid)
    (declaration : UploadDeclaration) (lifetime : Timestamp) : ClaimRow where
  claimId := claimId
  scopeId := scopeId
  publisher := publisher
  blobSha256 := declaration.sha256
  blobLength := declaration.length.toNat
  declaredMediaType := declaration.declaredMediaType
  expiresAt := now + lifetime
  consumedPublicationId := none

def stagedBlob (declaration : UploadDeclaration) (bytes : ByteArray) : BlobRow where
  sha256 := declaration.sha256
  length := declaration.length.toNat
  bytes := bytes

/-- The blob is there once it is staged, and is the one that was sent. -/
structure Stored (declaration : UploadDeclaration) (bytes : ByteArray) (db last : Db) : Prop where
  frame : last = { db with blobs := last.blobs }
  blobs : db.blob? declaration.sha256 = none ∧ last.blobs = db.blobs ++ [stagedBlob declaration bytes] ∨
    last.blobs = db.blobs
  stored : ∃ row, last.blob? declaration.sha256 = some row ∧ row.length = declaration.length.toNat ∧
    row.bytes = bytes

/-- What `stage_upload` has done when it answers. -/
inductive Staged (now : Timestamp) (publisher : StablePublisher) (scopeId claimId : Uuid)
    (declaration : UploadDeclaration) (bytes : ByteArray) (lifetime : Timestamp) (admission : UploadAdmission)
    (cleaned : Db) : UploadClaimResult → Db → Prop
  | replayed {result : UploadClaimResult} {row : ClaimRow} (hrow : cleaned.claim? claimId = some row)
      (hreplay : replayUploadClaim now publisher scopeId claimId declaration row = .ok result) :
      Staged now publisher scopeId claimId declaration bytes lifetime admission cleaned result cleaned
  | claimed {result : UploadClaimResult} {stored : Db} (hnone : cleaned.claim? claimId = none)
      (hstored : Stored declaration bytes cleaned stored) (hfresh : result.replayed = false) :
      Staged now publisher scopeId claimId declaration bytes lifetime admission cleaned result
        (postgres.after [.insertClaim (stagedClaim now publisher scopeId claimId declaration lifetime)] stored)

theorem storedBlob_ok (h : storedBlob row db = .ok u) :
    ∃ stored, db.blob? row.sha256 = some stored ∧ stored.length = row.length ∧ stored.bytes = row.bytes := by
  obtain ⟨stored, hfound, hrest⟩ := ExceptLoop.bind_eq_ok h
  split_ifs at hrest with hsame
  exact ⟨stored, found_ok.1 hfound, hsame⟩

theorem insertBlobRow_ok (h : (insertBlobRow row).run postgres db = .ok (u, last)) :
    last = { db with blobs := last.blobs } ∧
      (db.blob? row.sha256 = none ∧ last.blobs = db.blobs ++ [row] ∨ last.blobs = db.blobs) := by
  obtain ⟨-, hlast⟩ := Body.run_query_ok h
  rw [hlast]
  cases hblob : db.blob? row.sha256 with
  | none => exact ⟨rfl, .inl ⟨rfl, rfl⟩⟩
  | some stored => exact ⟨rfl, .inr rfl⟩

theorem stageClaim_ok
    (h : (stageClaim now publisher scopeId claimId declaration bytes lifetime admission).run postgres db =
      .ok (result, last)) : result.replayed = false ∧ ∃ stored, Stored declaration bytes db stored ∧
        last = postgres.after [.insertClaim (stagedClaim now publisher scopeId claimId declaration lifetime)]
          stored := by
  obtain ⟨_, next₁, hadmit, h₁⟩ := Body.run_bind_ok h
  obtain ⟨_, before, hquota, h₂⟩ := Body.run_bind_ok hadmit
  obtain ⟨-, hbefore⟩ := Body.run_query_ok hquota
  obtain rfl : before = db := hbefore
  obtain ⟨_, before', hdeclared, h₃⟩ := Body.run_bind_ok h₂
  obtain ⟨-, rfl⟩ := run_ofExcept_ok hdeclared
  obtain ⟨-, rfl⟩ := Body.run_require_ok h₃
  obtain ⟨length, next₂, hlength, h₄⟩ := Body.run_bind_ok h₁
  obtain ⟨hi64, rfl⟩ := run_ofExcept_ok hlength
  obtain rfl := (toI64_ok hi64).1
  obtain ⟨_, next₃, hinsert, h₅⟩ := Body.run_bind_ok h₄
  obtain ⟨hframe, hblobs⟩ := insertBlobRow_ok hinsert
  obtain ⟨_, next₄, hselect, h₆⟩ := Body.run_bind_ok h₅
  obtain ⟨hstored, hnext₄⟩ := Body.run_query_ok hselect
  obtain rfl : next₄ = next₃ := hnext₄
  obtain ⟨_, next₅, hclaim, h₇⟩ := Body.run_bind_ok h₆
  obtain ⟨-, hnext₅⟩ := Body.run_query_ok hclaim
  cases h₇
  exact ⟨rfl, next₄, ⟨hframe, hblobs, storedBlob_ok hstored⟩, hnext₅⟩

theorem stageUpload_ok {sha256 : ByteArray → ByteArray}
    (h : (stageUpload sha256 now publisher scopeId claimId declaration bytes lifetime admission).run postgres db =
      .ok (result, last)) : bytes.size = declaration.length.toNat ∧ sha256Hex sha256 bytes = declaration.sha256 ∧
      ∃ cleaned, Cleaned db cleaned ∧
        Staged now publisher scopeId claimId declaration bytes lifetime admission cleaned result last := by
  obtain ⟨_, next₁, hdigest, h₁⟩ := Body.run_bind_ok h
  obtain ⟨⟨hsize, hsha⟩, rfl⟩ := Body.run_require_ok hdigest
  obtain ⟨_, next₂, hstore, h₂⟩ := Body.run_bind_ok h₁
  obtain ⟨-, rfl⟩ := assertStoreNormal_ok hstore
  obtain ⟨_, next₃, hlock, h₃⟩ := Body.run_bind_ok h₂
  obtain rfl := advisoryLock_ok hlock
  obtain ⟨_, cleaned, hcleanup, h₄⟩ := Body.run_bind_ok h₃
  obtain ⟨_, next₄, hscope, h₅⟩ := Body.run_bind_ok h₄
  obtain ⟨-, rfl⟩ := lockScope_ok hscope
  obtain ⟨row, next₅, hselect, h₆⟩ := Body.run_bind_ok h₅
  obtain ⟨rfl, rfl⟩ := Body.run_select_ok hselect
  refine ⟨hsize, hsha, next₅, cleanupExpiredUploads_ok hcleanup, ?_⟩
  cases hrow : next₅.claim? claimId with
  | some row =>
    rw [hrow] at h₆
    obtain ⟨hreplay, rfl⟩ := run_ofExcept_ok h₆
    exact .replayed hrow hreplay
  | none =>
    rw [hrow] at h₆
    obtain ⟨hfresh, stored, hstored, rfl⟩ := stageClaim_ok h₆
    exact .claimed hrow hstored hfresh

end AvenOS.ArtifactStore
