import AvenOS.Identity.OpenedAccounts

/-! # The requests that open an account

Each request, statement by statement: what it has seen of the account under its lock still holds when it commits. -/
namespace AvenOS.Identity
open Transactions

section Locked
variable {held more other : List Lock} {userId : String} {fact : Tables → Prop} {db : Tables}

/-- What is known of an account that is locked; one that does not exist is not. -/
def Locked (held : List Lock) (userId : String) (fact : Tables → Prop) (db : Tables) : Prop :=
  db.hasUser userId = true → .user userId ∈ held ∧ fact db

theorem keeps_locked (h : .user userId ∈ held → protocol.Keeps held fact) : protocol.Keeps held (Locked held userId fact) := by
  intro db next hdb hnext hothers hlocked huser
  have husers : next.hasUser userId = db.hasUser userId := by
    rw [Tables.hasUser, Tables.hasUser, hothers.users]
  obtain ⟨hheld, hfact⟩ := hlocked (husers ▸ huser)
  exact ⟨hheld, h hheld db next hdb hnext hothers hfact⟩

theorem apart_ne (h : engine.Apart held other) (hheld : .user userId ∈ held) {v : String} (hv : .user v ∈ other) :
    v ≠ userId := by
  rintro rfl
  exact h _ hheld _ hv rfl

theorem account_exists {rest : Except Refusal Unit} {b : Unit}
    (h : (if !db.hasUser userId then .error .unknownUser else rest) = .ok b) : db.hasUser userId = true := by
  by_contra habsent
  rw [if_pos (by simpa using habsent)] at h
  cases h

/-! ## Statements -/

variable {f : Unit → Transaction Answer} {call : Call} {made : List Change}

theorem guarantees_lockUser
    (h : ∀ held, Guarantees engine protocol (post call) (f ()) held [] (Locked held userId fun _ => True)) :
    Guarantees engine protocol (post call) (lockUser userId >>= f) [] [] fun _ => True := by
  refine Guarantees.query fun db _ _ b _ => ?_
  refine ⟨Locked _ userId fun _ => True, ?_, keeps_locked fun _ => Protocol.Keeps.trivial _, h _⟩
  intro huser
  show Lock.user userId ∈ [] ++ (if db.hasUser userId then [Lock.user userId] else []) ∧ True
  rw [huser]
  exact ⟨List.mem_singleton_self _, trivial⟩

theorem guarantees_checkDelivery {now : ℕ} {delivery : Option (List String)} (hkeeps : protocol.Keeps held fact)
    (h : Guarantees engine protocol (post call) (f ()) held made fact) :
    Guarantees engine protocol (post call) (checkDelivery userId now delivery >>= f) held made fact := by
  cases delivery with
  | none => exact h
  | some origins =>
    unfold checkDelivery
    rw [Body.bind_assoc]
    refine Guarantees.select fun db _ hdb => ⟨fact, hdb, hkeeps, ?_⟩
    rw [Body.bind_assoc]
    refine Guarantees.require fun _ => ?_
    rw [Body.bind_assoc]
    exact Guarantees.select fun db _ hdb => ⟨fact, hdb, hkeeps, Guarantees.require fun _ => h⟩

theorem guarantees_dropSetupSessions (hheld : .user userId ∈ held) (hkeeps : protocol.Keeps held fact)
    (hsessions : ∀ db, (engine.after made db).sessions = db.sessions)
    (h : ∀ ids, Guarantees engine protocol (post call) (f ()) held (made ++ [.dropSessions ids])
      fun db => fact db ∧ Covers userId ids db) :
    Guarantees engine protocol (post call) (dropSetupSessions userId >>= f) held made fact := by
  refine Guarantees.query fun db _ hdb b _ => ?_
  rw [List.append_nil]
  refine ⟨_, ⟨hdb, ?_⟩, keeps_and hkeeps (keeps_covers hheld), h ((engine.after made db).setupSessions userId)⟩
  intro session hmem hsetup
  exact mem_setupSessions (hsessions db ▸ hmem) hsetup

end Locked

/-! ## Commits -/

section Commits
variable {held other : List Lock} {userId : String} {db : Tables}

variable {answer : Answer} {ids : List String} {now : ℕ} {unlinks : List Change}

variable {call : Call} {session : SessionRow} {prfs : List String} {prfEnabled : Bool}

theorem commits_nothing (htells : Tells db db call answer) (hclosed : Closed db) :
    Commits engine protocol (post call) held [] answer db where
  inv := hclosed
  rely _ _ := ⟨rfl, fun _ h => h, fun _ _ h => h, fun _ _ => .inl rfl, fun _ _ _ h _ => h⟩
  post := ⟨htells, fun _ h => h⟩

theorem mem_dropped (h : session ∈ ((Change.dropSessions ids).apply db).sessions) :
    session ∈ db.sessions ∧ session.id ∉ ids := by
  obtain ⟨hmem, hkept⟩ := List.mem_filter.mp h
  exact ⟨hmem, by simpa using hkept⟩

theorem commits_issue {token : String} {delivery : Option (List String)} (link : SetupLink)
    (hclosed : Closed db) (hheld : .user link.userId ∈ held) (hnone : db.hasPasskey link.userId = false)
    (hcovers : Covers link.userId ids db) :
    Commits engine protocol (post (.issueSetupLink link.userId token now delivery)) held
      [.putLink link, .dropSessions ids] (.issued (some token)) db where
  inv := by
    refine ⟨single_putLink hclosed.single link, fun v hv => ?_, fun session hmem hash hhash => ?_⟩
    · have hne : link.userId ≠ v := by
        rintro rfl
        rw [show db.hasPasskey link.userId = true from hv] at hnone
        cases hnone
      obtain ⟨hlink, hsessions⟩ := hclosed.once v hv
      refine ⟨?_, fun session hmem => hsessions session (mem_dropped hmem).1⟩
      exact (link_putLink link).trans ((if_neg hne).trans hlink)
    · obtain ⟨hold, hkept⟩ := mem_dropped hmem
      have hne : link.userId ≠ session.userId := fun hsame =>
        hkept (hcovers session hold ⟨hsame.symm, by rw [hhash]; exact Option.some_ne_none _⟩)
      have hcurrent := hclosed.current session hold hash hhash
      show (((Change.putLink link).apply db).link? session.userId).map SetupLink.tokenHash = some hash
      rw [link_putLink, if_neg hne]
      exact hcurrent
  rely other hapart := by
    refine ⟨rfl, fun _ h => h, fun _ _ h => h, fun v hv => .inl ?_, fun v _ session hmem _ => (mem_dropped hmem).1⟩
    show (((Change.putLink link).apply db).link? v).map SetupLink.tokenHash = _
    rw [link_putLink, if_neg (apart_ne hapart hheld hv).symm]
    rfl
  post := ⟨hnone, fun _ h => h⟩

theorem commits_session (htells : Tells db ((Change.addSession session).apply db) call .session) (hclosed : Closed db)
    (hsetup : ∀ hash, session.setupTokenHash = some hash →
      .user session.userId ∈ held ∧ db.linkHash session.userId = some hash) :
    Commits engine protocol (post call) held [.addSession session] .session db where
  inv := by
    refine ⟨hclosed.single, fun v hv => ?_, fun row hmem hash hhash => ?_⟩
    · obtain ⟨hlink, hsessions⟩ := hclosed.once v hv
      refine ⟨hlink, fun row hmem hset => ?_⟩
      rcases List.mem_append.mp hmem with hold | hnew
      · exact hsessions row hold hset
      · rw [List.mem_singleton.mp hnew] at hset
        obtain ⟨hash, hhash⟩ := Option.ne_none_iff_exists'.mp hset.2
        have hnone := hclosed.noPasskey (hsetup hash hhash).2
        rw [hset.1, show db.hasPasskey v = true from hv] at hnone
        cases hnone
    · rcases List.mem_append.mp hmem with hold | hnew
      · exact hclosed.current row hold hash hhash
      · rw [List.mem_singleton.mp hnew] at hhash ⊢
        exact (hsetup hash hhash).2
  rely other hapart := by
    refine ⟨rfl, fun _ h => h, fun _ _ h => h, fun _ _ => .inl rfl, fun v hv row hmem hset => ?_⟩
    rcases List.mem_append.mp hmem with hold | hnew
    · exact hold
    · rw [List.mem_singleton.mp hnew] at hset
      obtain ⟨hash, hhash⟩ := Option.ne_none_iff_exists'.mp hset.2
      exact absurd hset.1.symm (apart_ne hapart (hsetup hash hhash).1 hv)
  post := ⟨htells, fun _ h => h⟩

theorem hasPasskey_inserted {passkey : Passkey} (ids : List String) (prfEnabled : Bool) (v : String) :
    ((Change.setPrf ids prfEnabled).apply ((Change.addPasskey passkey).apply db)).hasPasskey v =
      (db.hasPasskey v || passkey.userId == v) := by
  rw [hasPasskey_congr (setPrf_users ids prfEnabled), hasPasskey_addPasskey]

/-- What a transaction did to the links of an account: it deleted the one it saw, or saw none. -/
inductive Unlinks (userId : String) (db : Tables) : List Change → Prop
  | deleted : Unlinks userId db [.unlink userId]
  | nothing (h : db.link? userId = none) : Unlinks userId db []

theorem Unlinks.after (h : Unlinks userId db unlinks) {inner : Tables} (hlinks : inner.setupLinks = db.setupLinks) :
    (engine.after unlinks inner).users = inner.users ∧ (engine.after unlinks inner).sessions = inner.sessions ∧
      (engine.after unlinks inner).passkeys = inner.passkeys ∧
      ((engine.after unlinks inner).setupLinks.Sublist inner.setupLinks) ∧
      ∀ v, (engine.after unlinks inner).link? v = if userId = v then none else db.link? v := by
  have hfind : ∀ v, inner.link? v = db.link? v := fun v => by rw [Tables.link?, Tables.link?, hlinks]
  cases h with
  | deleted =>
    refine ⟨rfl, rfl, rfl, List.filter_sublist, fun v => ?_⟩
    show ((Change.unlink userId).apply inner).link? v = _
    rw [link_unlink, hfind]
  | nothing hnone =>
    refine ⟨rfl, rfl, rfl, List.Sublist.refl _, fun v => ?_⟩
    show inner.link? v = _
    rw [hfind]
    split
    next hsame => rw [← hsame, hnone]
    next => rfl

theorem commits_passkey {registration : Option Registration} (passkey : Passkey) {id credentialId : String}
    {bootstrap : Bool} (hclosed : Closed db) (hheld : .user passkey.userId ∈ held)
    (hunlinks : Unlinks passkey.userId db unlinks)
    (hbootstrap : bootstrap = true → db.hasPasskey passkey.userId = false) (hcovers : Covers passkey.userId ids db) :
    Commits engine protocol (post (.createPasskey registration id passkey.userId credentialId now)) held
      ([.addPasskey passkey, .setPrf prfs prfEnabled] ++ unlinks ++ [.dropSessions ids]) (.passkey bootstrap) db := by
  let inner := (Change.setPrf prfs prfEnabled).apply ((Change.addPasskey passkey).apply db)
  obtain ⟨husers, hsessions, hpasskeys, hlinks, hfind⟩ := hunlinks.after (show inner.setupLinks = db.setupLinks from rfl)
  have hafter : engine.after ([.addPasskey passkey, .setPrf prfs prfEnabled] ++ unlinks ++ [.dropSessions ids]) db =
      (Change.dropSessions ids).apply (engine.after unlinks inner) := by
    rw [Engine.after_append, Engine.after_append]
    rfl
  generalize engine.after unlinks inner = middle at husers hsessions hpasskeys hlinks hfind hafter
  have hpasskey : ∀ v, middle.hasPasskey v = (db.hasPasskey v || passkey.userId == v) := fun v => by
    rw [← hasPasskey_inserted prfs prfEnabled v]
    exact hasPasskey_congr (congrArg _ hpasskeys)
  have hold : ∀ session ∈ ((Change.dropSessions ids).apply middle).sessions, session ∈ db.sessions ∧ session.id ∉ ids := by
    intro session hmem
    obtain ⟨hmiddle, hkept⟩ := mem_dropped hmem
    exact ⟨hsessions ▸ hmiddle, hkept⟩
  have hgone : ∀ session ∈ ((Change.dropSessions ids).apply middle).sessions, ¬ session.SetsUp passkey.userId :=
    fun session hmem hset => (hold session hmem).2 (hcovers session (hold session hmem).1 hset)
  constructor
  · rw [hafter]
    refine ⟨hclosed.single.sublist hlinks, fun v hv => ?_, fun session hmem hash hhash => ?_⟩
    · have hcases : db.hasPasskey v = true ∨ passkey.userId = v := by
        have hboth := (hpasskey v).symm.trans hv
        simpa using hboth
      by_cases hsame : passkey.userId = v
      · subst hsame
        exact ⟨(hfind _).trans (if_pos rfl), hgone⟩
      · obtain ⟨hlink, hnone⟩ := hclosed.once v (hcases.resolve_right hsame)
        exact ⟨(hfind v).trans ((if_neg hsame).trans hlink), fun session hmem => hnone session (hold session hmem).1⟩
    · have hne : passkey.userId ≠ session.userId := fun hsame =>
        hgone session hmem ⟨hsame.symm, by rw [hhash]; exact Option.some_ne_none _⟩
      show (middle.link? session.userId).map SetupLink.tokenHash = some hash
      rw [hfind, if_neg hne]
      exact hclosed.current session (hold session hmem).1 hash hhash
  · intro other hapart
    rw [hafter]
    refine ⟨husers, fun v hv => ?_, fun v hv hafterv => ?_, fun v hv => .inl ?_,
      fun v _ session hmem _ => (hold session hmem).1⟩
    · exact (hpasskey v).trans (by rw [hv]; rfl)
    · have hboth := (hpasskey v).symm.trans hafterv
      rw [beq_eq_false_iff_ne.mpr (apart_ne hapart hheld hv).symm, Bool.or_false] at hboth
      exact hboth
    · show (middle.link? v).map SetupLink.tokenHash = _
      rw [hfind, if_neg (apart_ne hapart hheld hv).symm]
      rfl
  · rw [hafter]
    refine ⟨⟨(hpasskey _).trans (by simp), hbootstrap⟩, fun v hv => (hpasskey v).trans (by rw [hv]; rfl)⟩

theorem commits_finalize {requirePrf enabled : Bool} {credentialId : Option String} (hclosed : Closed db)
    (hunlinks : Unlinks userId db unlinks) (hregistered : db.hasPasskey userId = true) :
    Commits engine protocol (post (.finalize requirePrf userId credentialId prfEnabled)) held
      ([.setPrf prfs enabled] ++ unlinks) .done db := by
  let inner := (Change.setPrf prfs enabled).apply db
  obtain ⟨husers, hsessions, hpasskeys, hlinks, hfind⟩ := hunlinks.after (show inner.setupLinks = db.setupLinks from rfl)
  have hafter : engine.after ([.setPrf prfs enabled] ++ unlinks) db = engine.after unlinks inner := by
    rw [Engine.after_append]
    rfl
  generalize engine.after unlinks inner = last at husers hsessions hpasskeys hlinks hfind hafter
  have hpasskey : ∀ v, last.hasPasskey v = db.hasPasskey v := fun v =>
    (hasPasskey_congr (congrArg _ hpasskeys)).trans (hasPasskey_congr (setPrf_users prfs enabled))
  constructor
  · rw [hafter]
    refine ⟨hclosed.single.sublist hlinks, fun v hv => ?_, fun session hmem hash hhash => ?_⟩
    · obtain ⟨hlink, hnone⟩ := hclosed.once v ((hpasskey v).symm.trans hv)
      refine ⟨?_, fun session hmem => hnone session (hsessions ▸ hmem)⟩
      rw [hfind, hlink, ite_self]
    · have hmem' : session ∈ db.sessions := hsessions ▸ hmem
      -- A setup session of the account would mean that it has no passkey.
      have hne : userId ≠ session.userId := by
        rintro rfl
        have hnone := hclosed.noPasskey_of_setup hmem' ⟨rfl, by rw [hhash]; exact Option.some_ne_none _⟩
        rw [hregistered] at hnone
        cases hnone
      rw [Tables.linkHash, hfind, if_neg hne]
      exact hclosed.current session hmem' hash hhash
  · intro other _
    rw [hafter]
    refine ⟨husers, fun v hv => (hpasskey v).trans hv, fun v _ hv => (hpasskey v).symm.trans hv, fun v _ => ?_,
      fun v _ session hmem _ => hsessions ▸ hmem⟩
    by_cases hsame : userId = v
    · exact .inr (hsame ▸ hregistered)
    · refine .inl ?_
      rw [Tables.linkHash, hfind, if_neg hsame]
      rfl
  · rw [hafter]
    exact ⟨trivial, fun v hv => (hpasskey v).trans hv⟩

theorem commits_touch (htells : ∀ next, Tells db next call answer) (hclosed : Closed db) (touched : String) :
    Commits engine protocol (post call) held [.touch touched now] answer db where
  inv := by
    refine ⟨single_touch hclosed.single now, fun v hv => ?_, fun session hmem hash hhash => ?_⟩
    · obtain ⟨hlink, hnone⟩ := hclosed.once v hv
      refine ⟨Option.map_eq_none_iff.mp (?_ : ((Change.touch touched now).apply db).linkHash v = none), hnone⟩
      rw [linkHash_touch, Tables.linkHash, hlink]
      rfl
    · exact (linkHash_touch now).trans (hclosed.current session hmem hash hhash)
  rely _ _ := ⟨rfl, fun _ h => h, fun _ _ h => h, fun _ _ => .inl (linkHash_touch now), fun _ _ _ h _ => h⟩
  post := ⟨htells _, fun _ h => h⟩

theorem commits_end {id : String} (htells : ∀ next, Tells db next call answer) (hclosed : Closed db) :
    Commits engine protocol (post call) held [.dropSessions [id]] answer db where
  inv := by
    refine ⟨hclosed.single, fun v hv => ?_, fun session hmem hash hhash => ?_⟩
    · obtain ⟨hlink, hnone⟩ := hclosed.once v hv
      exact ⟨hlink, fun session hmem => hnone session (mem_dropped hmem).1⟩
    · exact hclosed.current session (mem_dropped hmem).1 hash hhash
  rely _ _ := ⟨rfl, fun _ h => h, fun _ _ h => h, fun _ _ => .inl rfl, fun _ _ _ h _ => (mem_dropped h).1⟩
  post := ⟨htells _, fun _ h => h⟩

end Commits

/-! ## Requests -/

section Requests
variable (sha256Hex : String → String) {held : List Lock} {made : List Change} {userId : String}

theorem issueSetupLink_guarantees (token : String) (now : ℕ) (delivery : Option (List String)) :
    Guarantees engine protocol (post (.issueSetupLink userId token now delivery))
      (issueSetupLink sha256Hex userId token now delivery) [] [] fun _ => True := by
  refine guarantees_lockUser fun held => Guarantees.select fun db _ hlocked => ?_
  show ∃ next : Tables → Prop, _ ∧ _ ∧ Guarantees _ _ _ (if db.hasPasskey userId = true then _ else _) _ _ next
  by_cases hregistered : db.hasPasskey userId = true
  · rw [if_pos hregistered]
    exact ⟨fun _ => True, trivial, Protocol.Keeps.trivial _, fun db hclosed _ => commits_nothing trivial hclosed⟩
  · rw [if_neg hregistered]
    have hkeeps : protocol.Keeps held (Locked held userId fun db => db.hasPasskey userId = false) :=
      keeps_locked keeps_noPasskey
    refine ⟨_, fun huser => ⟨(hlocked huser).1, by simpa using hregistered⟩, hkeeps, ?_⟩
    refine guarantees_checkDelivery hkeeps (Guarantees.query fun db _ hfact b hb => ?_)
    have huser : db.hasUser userId = true := account_exists hb
    obtain ⟨hheld, hnone⟩ := hfact huser
    have hheld' := List.mem_append_left [Lock.link userId, .tokenHash (sha256Hex token)] hheld
    refine ⟨fun db => db.hasPasskey userId = false, hnone, keeps_noPasskey hheld', ?_⟩
    refine guarantees_dropSetupSessions hheld' (keeps_noPasskey hheld') (fun _ => rfl) fun ids => ?_
    exact fun db hclosed hfact =>
      commits_issue ⟨userId, sha256Hex token, now, now + setupLinkSeconds, none⟩ hclosed hheld' hfact.1 hfact.2

theorem verifySetupLink_guarantees (token : String) (now : ℕ) :
    Guarantees engine protocol (post (.verifySetupLink token now)) (verifySetupLink sha256Hex token now) [] [] fun _ => True := by
  have hnothing : ∀ held, Guarantees engine protocol (post (.verifySetupLink token now))
      (.done (.verified none) : Transaction Answer) held [] fun _ => True :=
    fun held db hclosed _ => commits_nothing trivial hclosed
  unfold verifySetupLink
  split
  · exact hnothing _
  · refine Guarantees.select fun db _ _ => ⟨fun _ => True, trivial, Protocol.Keeps.trivial _, ?_⟩
    split
    · exact hnothing _
    next row _ =>
      refine Guarantees.select fun db _ _ => ⟨fun _ => True, trivial, Protocol.Keeps.trivial _, ?_⟩
      split
      · exact hnothing _
      · refine Guarantees.query fun db _ _ b _ => ⟨fun _ => True, trivial, Protocol.Keeps.trivial _, ?_⟩
        intro db' hclosed _
        by_cases hlink : (db.link? row.userId).isSome = true
        · have hchanges : (if (db.link? row.userId).isSome = true then [Change.touch row.userId now] else []) =
              [.touch row.userId now] := if_pos hlink
          show Commits _ _ _ _ ([] ++ if (db.link? row.userId).isSome = true then [Change.touch row.userId now] else []) _ _
          have htells : ∀ next, Tells db' next (.verifySetupLink token now) (.verified (some (row.userId, sha256Hex token))) :=
            fun _ => trivial
          rw [hchanges]
          exact commits_touch htells hclosed row.userId
        · show Commits _ _ _ _ ([] ++ if (db.link? row.userId).isSome = true then [Change.touch row.userId now] else []) _ _
          rw [if_neg hlink]
          exact commits_nothing trivial hclosed

variable {call : Call} {fact : Tables → Prop} {passkey : Passkey}

theorem insertSession_guarantees {session : SessionRow} (hkeeps : ∀ more, protocol.Keeps (held ++ more) fact)
    (h : ∀ more db, Closed db → db.hasUser session.userId = true → fact db →
      Commits engine protocol (post call) (held ++ more) [.addSession session] .session db) :
    Guarantees engine protocol (post call) (insertSession session >>= fun _ => pure .session) held [] fact := by
  refine Guarantees.query fun db _ hfact b hb => ?_
  have huser : db.hasUser session.userId = true := account_exists hb
  refine ⟨fun db => db.hasUser session.userId = true ∧ fact db, ⟨huser, hfact⟩, ?_, ?_⟩
  · exact keeps_and (keeps_users fun users => (users.any fun user => user.id == session.userId) = true) (hkeeps _)
  · exact fun db hclosed hboth => h _ db hclosed hboth.1 hboth.2

theorem createSetupSession_guarantees (id setupHash : String) (now : ℕ) :
    Guarantees engine protocol (post (.createSetupSession id userId setupHash now))
      (createSetupSession id userId setupHash now) [] [] fun _ => True := by
  refine guarantees_lockUser fun held => Guarantees.select fun db _ hlocked => ?_
  by_cases hpending : db.pending userId setupHash now = true
  · have hkeeps : ∀ more, protocol.Keeps (held ++ more) (Locked held userId fun db => db.linkHash userId = some setupHash) := by
      intro more db next hdb hnext hothers hfact huser
      have hmono : Locked (held ++ more) userId (fun db => db.linkHash userId = some setupHash) db := fun huser =>
        ⟨List.mem_append_left _ (hfact huser).1, (hfact huser).2⟩
      have hafter := keeps_locked (fun hheld => keeps_linkHash hheld) db next hdb hnext hothers hmono
      have husers : next.hasUser userId = db.hasUser userId := by
        rw [Tables.hasUser, Tables.hasUser, hothers.users]
      exact ⟨(hfact (husers ▸ huser)).1, (hafter huser).2⟩
    have hkeeps' := hkeeps []
    rw [List.append_nil] at hkeeps'
    refine ⟨_, fun huser => ⟨(hlocked huser).1, pending_linkHash hpending⟩, hkeeps', Guarantees.require fun _ => ?_⟩
    refine insertSession_guarantees hkeeps fun more db hclosed huser hfact => ?_
    obtain ⟨hheld, hlink⟩ := hfact huser
    refine commits_session (hclosed.noPasskey hlink) hclosed fun hash hhash => ?_
    cases hhash
    exact ⟨List.mem_append_left _ hheld, hlink⟩
  · refine ⟨fun _ => True, trivial, Protocol.Keeps.trivial _, ?_⟩
    exact Guarantees.require fun hpending' => absurd hpending' hpending

theorem createSession_guarantees (id : String) (expiresAt : ℕ) :
    Guarantees engine protocol (post (.createSession id userId expiresAt)) (createSession id userId expiresAt) [] []
      fun _ => True :=
  insertSession_guarantees (fun _ => Protocol.Keeps.trivial _) fun _ _ hclosed _ _ =>
    commits_session trivial hclosed fun hash hhash => by cases hhash

theorem guarantees_unlink {f : Unit → Transaction Answer} (hkeeps : ∀ more, protocol.Keeps (held ++ more) fact)
    (hnoLink : ∀ more, protocol.Keeps (held ++ more) fun db => fact db ∧ db.link? userId = none)
    (hlinks : ∀ db, (engine.after made db).setupLinks = db.setupLinks)
    (h : ∀ more unlinks, unlinks = [] ∨ unlinks = [.unlink userId] →
      protocol.Keeps (held ++ more) (fun db => fact db ∧ Unlinks userId db unlinks) → Guarantees engine protocol (post call) (f ()) (held ++ more) (made ++ unlinks)
        fun db => fact db ∧ Unlinks userId db unlinks) :
    Guarantees engine protocol (post call) (unlink userId >>= f) held made fact := by
  refine Guarantees.query fun db _ hfact b _ => ?_
  have hfind : (engine.after made db).link? userId = db.link? userId := by
    rw [Tables.link?, Tables.link?, hlinks]
  rw [hfind]
  by_cases hlink : (db.link? userId).isSome = true
  · rw [if_pos hlink, if_pos hlink]
    have hkept : protocol.Keeps (held ++ [Lock.link userId]) fun db => fact db ∧ Unlinks userId db [.unlink userId] :=
      fun db next hdb hnext hothers hboth => ⟨hkeeps _ db next hdb hnext hothers hboth.1, .deleted⟩
    exact ⟨_, ⟨hfact, .deleted⟩, hkept, h _ _ (.inr rfl) hkept⟩
  · rw [if_neg hlink, if_neg hlink]
    have hnone : db.link? userId = none := by simpa using hlink
    have hkept : protocol.Keeps (held ++ []) fun db => fact db ∧ Unlinks userId db [] := by
      intro db next hdb hnext hothers hboth
      have hnow : db.link? userId = none := by
        cases hboth.2 with
        | nothing hnone => exact hnone
      obtain ⟨hfact', hnone'⟩ := hnoLink [] db next hdb hnext hothers ⟨hboth.1, hnow⟩
      exact ⟨hfact', .nothing hnone'⟩
    exact ⟨_, ⟨hfact, .nothing hnone⟩, hkept, h _ _ (.inl rfl) hkept⟩

theorem guarantees_enrollingSession {registration : Registration} {now : ℕ} {f : Bool → Transaction Answer}
    (h : ∀ bootstrap, Guarantees engine protocol (post call) (f bootstrap) held []
      (Locked held userId fun db => bootstrap = true → db.hasPasskey userId = false)) :
    Guarantees engine protocol (post call) (enrollingSession registration userId now >>= f) held []
      (Locked held userId fun _ => True) := by
  unfold enrollingSession
  rw [Body.bind_assoc]
  refine Guarantees.query fun db hclosed hlocked session hsession => ?_
  rw [List.append_nil]
  have hfound : (db.session? registration.sessionId userId).filter (fun session => now < session.expiresAt) = some session := by
    split at hsession
    next found heq => exact heq.trans (congrArg some (Except.ok.inj hsession))
    next => cases hsession
  have hrow := List.find?_some (Option.filter_eq_some_iff.mp hfound).1
  have hmem := List.mem_of_find?_eq_some (Option.filter_eq_some_iff.mp hfound).1
  have huser : session.userId = userId := by simpa using (Bool.and_eq_true_iff.mp hrow).2
  have hkeeps : ∀ bootstrap : Bool, protocol.Keeps held
      (Locked held userId fun db => bootstrap = true → db.hasPasskey userId = false) := by
    intro bootstrap
    refine keeps_locked fun hheld db next hdb hnext hothers hnone hbootstrap => ?_
    exact keeps_noPasskey hheld db next hdb hnext hothers (hnone hbootstrap)
  cases hhash : session.setupTokenHash with
  | none =>
    refine ⟨_, fun hexists => ⟨(hlocked hexists).1, fun hfalse => by cases hfalse⟩, hkeeps false, h false⟩
  | some hash =>
    have hnone : db.hasPasskey userId = false :=
      hclosed.noPasskey_of_setup hmem ⟨huser, by rw [hhash]; exact Option.some_ne_none _⟩
    refine ⟨_, fun hexists => ⟨(hlocked hexists).1, fun _ => hnone⟩, hkeeps true, ?_⟩
    show Guarantees _ _ _ (((Body.select fun db : Tables => db.pending userId hash now) >>= fun pending =>
      (Body.require (pending = true) Refusal.linkUnavailable >>= fun _ => pure true)) >>= f) _ _ _
    rw [Body.bind_assoc]
    refine Guarantees.select fun db _ hdb => ⟨_, hdb, hkeeps true, ?_⟩
    rw [Body.bind_assoc]
    exact Guarantees.require fun _ => h true

theorem createPasskey_guarantees (registration : Option Registration) (id credentialId : String) (now : ℕ) :
    Guarantees engine protocol (post (.createPasskey registration id userId credentialId now))
      (createPasskey registration id userId credentialId now) [] [] fun _ => True := by
  refine guarantees_lockUser fun held => ?_
  split
  · exact Guarantees.fail _
  next registration' _ =>
    refine guarantees_enrollingSession fun bootstrap => Guarantees.query fun db _ hlocked b hb => ?_
    obtain ⟨hheld, hbootstrap⟩ := hlocked (account_exists hb)
    have hkeeps : ∀ {more : List Lock}, .user userId ∈ more →
        protocol.Keeps more fun db => bootstrap = true → db.hasPasskey userId = false :=
      fun hmore db next hdb hnext hothers hnone htrue => keeps_noPasskey hmore db next hdb hnext hothers (hnone htrue)
    have hheld₁ := List.mem_append_left [Lock.credential credentialId] hheld
    refine ⟨_, hbootstrap, hkeeps hheld₁, Guarantees.query fun db _ hfact b _ => ?_⟩
    have hheld₂ := List.mem_append_left [] hheld₁
    refine ⟨_, hfact, hkeeps hheld₂, ?_⟩
    refine guarantees_unlink (fun more => hkeeps (List.mem_append_left _ hheld₂))
      (fun more => keeps_and (hkeeps (List.mem_append_left _ hheld₂)) (keeps_noLink (List.mem_append_left _ hheld₂)))
      (fun _ => rfl) fun more unlinks hshape hkept => ?_
    have hheld₃ := List.mem_append_left more hheld₂
    refine guarantees_dropSetupSessions hheld₃ hkept ?_ fun ids => ?_
    · rcases hshape with rfl | rfl <;> exact fun _ => rfl
    · exact fun db hclosed hfact =>
        commits_passkey ⟨id, userId, credentialId, now, false⟩ hclosed hheld₃ hfact.1.2 hfact.1.1 hfact.2

theorem newest_mem {passkeys : List Passkey} (h : newest passkeys = some passkey) : passkey ∈ passkeys := by
  refine List.foldlRecOn passkeys _ (motive := fun best => ∀ found, best = some found → found ∈ passkeys)
    (fun _ hnone => by cases hnone) (fun best hbest first hfirst found hnext => ?_) passkey h
  split at hnext
  · exact Option.some.inj hnext ▸ hfirst
  · split at hnext
    · exact Option.some.inj hnext ▸ hfirst
    · exact hbest found hnext

theorem registered_hasPasskey {db : Tables} {credentialId : Option String}
    (h : registered db userId credentialId = some passkey) : db.hasPasskey userId = true := by
  have hmem : passkey ∈ db.passkeys ∧ passkey.userId = userId := by
    cases credentialId with
    | some credentialId =>
      have hboth := List.find?_some h
      exact ⟨List.mem_of_find?_eq_some h, by simpa using (Bool.and_eq_true_iff.mp hboth).1⟩
    | none =>
      obtain ⟨hmem, huser⟩ := List.mem_filter.mp (newest_mem h)
      exact ⟨hmem, by simpa using huser⟩
  exact List.any_eq_true.mpr ⟨passkey, hmem.1, by simpa using hmem.2⟩

theorem finalize_guarantees (requirePrf : Bool) (credentialId : Option String) (prfEnabled : Bool) :
    Guarantees engine protocol (post (.finalize requirePrf userId credentialId prfEnabled))
      (finalize requirePrf userId credentialId prfEnabled) [] [] fun _ => True := by
  refine Guarantees.query fun db _ _ passkey hpasskey => ?_
  have hregistered : registered db userId credentialId = some passkey := by
    split at hpasskey
    next found heq => exact heq.trans (congrArg some (Except.ok.inj hpasskey))
    next => cases hpasskey
  refine ⟨_, registered_hasPasskey hregistered, keeps_passkey, Guarantees.require fun _ => ?_⟩
  refine Guarantees.query fun db _ hfact b _ => ⟨_, hfact, keeps_passkey, ?_⟩
  refine guarantees_unlink (fun _ => keeps_passkey) (fun more db next _ hnext hothers hboth => ?_) (fun _ => rfl)
    fun more unlinks _ _ db hclosed hfact => commits_finalize hclosed hfact.2 hfact.1
  have hstill := hothers.passkeys userId hboth.1
  exact ⟨hstill, (hnext.once userId hstill).1⟩

theorem endSession_guarantees (id : String) :
    Guarantees engine protocol (post (.endSession id)) (endSession id) [] [] fun _ => True :=
  Guarantees.query fun _ _ _ _ _ => ⟨fun _ => True, trivial, Protocol.Keeps.trivial _,
    fun _ hclosed _ => commits_end (fun _ => trivial) hclosed⟩

theorem body_guarantees (call : Call) :
    Guarantees engine protocol (post call) (body sha256Hex call) [] [] fun _ => True := by
  cases call with
  | issueSetupLink userId token now delivery => exact issueSetupLink_guarantees sha256Hex token now delivery
  | verifySetupLink token now => exact verifySetupLink_guarantees sha256Hex token now
  | createSetupSession id userId setupHash now => exact createSetupSession_guarantees id setupHash now
  | createSession id userId expiresAt => exact createSession_guarantees id expiresAt
  | createPasskey registration id userId credentialId now => exact createPasskey_guarantees registration id credentialId now
  | finalize requirePrf userId credentialId prfEnabled => exact finalize_guarantees requirePrf credentialId prfEnabled
  | endSession id => exact endSession_guarantees id

end Requests

end AvenOS.Identity
