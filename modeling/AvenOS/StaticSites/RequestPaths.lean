import AvenOS.StaticSites.OwnBinding

/-! # Paths of requests

Which files of a site a request reaches: none outside its root and none that is hidden, the same one for every spelling of
a path, and every other file under its own path. -/
namespace AvenOS.StaticSites
open PosixPath

/-! ## The path of a file -/

/-- A name without separators that is not hidden. -/
def Plain (name : Text) : Prop := Visible name ∧ ∀ c ∈ name, c ≠ '/' ∧ c ≠ '\\'

def relativePath (names : Path) : Text := ['/'].intercalate names

variable {names : Path} {platform : SitePlatform} {disk : Path → Entry} {request : SiteRequest} {site : ActiveSite}

theorem relativePath_parts {p : Char → Bool} (hp : p '/' = true) (hnames : names ≠ [])
    (h : ∀ name ∈ names, ∀ c ∈ name, p c = false) : (relativePath names).splitOnP p = names := by
  induction names with
  | nil => exact absurd rfl hnames
  | cons name rest ih =>
    have hname := h name List.mem_cons_self
    cases rest with
    | nil =>
      rw [relativePath, List.intercalate_singleton]
      exact List.splitOnP_eq_singleton hname
    | cons next rest =>
      have hrest := ih (List.cons_ne_nil _ _) fun other hother => h other (List.mem_cons_of_mem _ hother)
      have hstep : relativePath (name :: next :: rest) = name ++ '/' :: relativePath (next :: rest) := by
        simp [relativePath]
      rw [hstep, List.splitOnP_append_cons_of_forall_mem hname '/' hp, hrest]

section
variable (hnames : names ≠ []) (h : ∀ name ∈ names, Plain name)
include hnames h

theorem relativePath_split : (relativePath names).splitOn '/' = names :=
  relativePath_parts (by decide) hnames fun name hname c hc => beq_eq_false_iff_ne.mpr ((h name hname).2 c hc).1

theorem relativePath_end : endsWithSeparator (relativePath names) = false := by
  refine beq_eq_false_iff_ne.mpr fun hlast => ?_
  obtain ⟨front, hfront⟩ := List.getLast?_eq_some_iff.mp hlast
  have hsplit := relativePath_split hnames h
  rw [hfront, List.splitOn_append_cons_self] at hsplit
  exact (h [] (hsplit ▸ List.mem_append_right _ List.mem_cons_self)).1.1 rfl

theorem relativePath_start : ∃ c rest, relativePath names = c :: rest ∧ c ≠ '.' ∧ c ≠ '/' ∧ c ≠ '\\' := by
  have hsplit := relativePath_split hnames h
  cases htext : relativePath names with
  | nil =>
    rw [htext] at hsplit
    exact absurd rfl (h [] (hsplit ▸ List.mem_singleton_self _)).1.1
  | cons c rest =>
    rw [htext, List.splitOn_cons_eq_if_modifyHead] at hsplit
    obtain ⟨first, more, hrest⟩ := List.exists_cons_of_ne_nil (List.splitOn_ne_nil '/' rest)
    split at hsplit
    · exact absurd rfl (h [] (hsplit ▸ List.mem_cons_self)).1.1
    · rw [hrest, List.modifyHead_cons] at hsplit
      obtain ⟨⟨-, hvisible⟩, hplain⟩ := h (c :: first) (hsplit ▸ List.mem_cons_self)
      exact ⟨c, rest, rfl, fun hdot => hvisible (hdot ▸ rfl), hplain c List.mem_cons_self⟩

theorem normalizeNames_keeps (allowAboveRoot : Bool) (start : Path) :
    normalizeNames allowAboveRoot start ((relativePath names).splitOn '/') = start ++ names := by
  obtain ⟨rest, hrest, -, hsame⟩ := normalizeNames_visible allowAboveRoot (fun name hname => (h name hname).1.2) start
  rw [relativePath_split hnames h, hrest, hsame fun name hname => (h name hname).1.1]

theorem normalize_path : normalize ('/' :: relativePath names) = '/' :: relativePath names := by
  obtain ⟨c, rest, htext, -⟩ := relativePath_start hnames h
  have hend : endsWithSeparator ('/' :: relativePath names) = false := by
    rw [endsWithSeparator, htext, List.getLast?_cons_cons, ← htext]
    exact relativePath_end hnames h
  have hsplit : ('/' :: relativePath names).splitOn '/' = [] :: (relativePath names).splitOn '/' :=
    List.splitOn_append_cons_self [] _
  have hkept : normalizeNames false [] (('/' :: relativePath names).splitOn '/') = names := by
    rw [hsplit]
    exact normalizeNames_keeps hnames h false []
  unfold PosixPath.normalize
  rw [show isAbsolute ('/' :: relativePath names) = true from rfl, hend, Bool.not_true, hkept]
  change (if _ then _ else if relativePath names = [] then _ else _) = _
  rw [if_neg (List.cons_ne_nil _ _), if_neg (htext ▸ List.cons_ne_nil _ _)]
  exact List.append_nil _

theorem join_path (root : Path) : join root (relativePath names) = root ++ names := by
  rw [join, normalizeNames_keeps hnames h, relativePath_end hnames h]
  exact List.append_nil _

theorem refusedPath_path : refusedPath (relativePath names) = false := by
  obtain ⟨c, rest, htext, hdot, -⟩ := relativePath_start hnames h
  have hparts : relativeParts (relativePath names) = names :=
    relativePath_parts (by decide) hnames fun name hname c hc => by simp [(h name hname).2 c hc]
  rw [refusedPath, hparts, Bool.or_eq_false_iff]
  refine ⟨?_, List.any_eq_false.mpr fun name hname hhead => (h name hname).1.2 (beq_iff_eq.mp hhead)⟩
  rw [htext, dotdot, List.isPrefixOf_cons_cons, beq_eq_false_iff_ne.mpr hdot.symm, Bool.false_and]

/-! ## Requests for it -/

theorem serveSite_path (hdecode : platform.decodeURIComponent request.pathname = some ('/' :: relativePath names))
    (hfile : disk (site.root ++ names) = .file) : ∃ headers,
    serveSite platform disk request site = .file (site.root ++ names) (request.method ≠ "HEAD") headers := by
  obtain ⟨c, rest, htext, -, hslash, hback⟩ := relativePath_start hnames h
  have hstrip : stripSeparators ('/' :: relativePath names) = relativePath names := by
    rw [stripSeparators, List.dropWhile_cons_of_pos (by decide), htext, List.dropWhile_cons_of_neg (by simp [hslash, hback])]
  have hfound : siteFile disk site.root (relativePath names) = some (site.root ++ names) := by
    unfold siteFile
    rw [if_neg (htext ▸ List.cons_ne_nil _ _)]
    dsimp only
    rw [join_path hnames h, hfile]
  refine ⟨fileHeaders platform (relativePath names) (site.root ++ names), ?_⟩
  unfold serveSite
  rw [hdecode]
  dsimp only
  rw [normalize_path hnames h, hstrip, refusedPath_path hnames h, hfound]
  simp only [Bool.false_eq_true, if_false, hfile, if_true]

end

def reservedPaths : List Text := ["/health/live".toList, "/health/ready".toList, "/internal/caddy/ask".toList]

theorem handle_unreserved {host : StaticSiteHost} (hreserved : request.pathname ∉ reservedPaths) :
    handle platform host disk request =
      if request.method ≠ "GET" ∧ request.method ≠ "HEAD" then .text 405 "Method not allowed"
      else ((requestHostname platform request).bind fun hostname => getActive hostname host.active).elim notFound
        (serveSite platform disk request) := by
  simp only [reservedPaths, List.mem_cons, List.not_mem_nil, or_false, not_or] at hreserved
  unfold handle
  rw [if_neg hreserved.1, if_neg hreserved.2.1, if_neg hreserved.2.2]
  split
  · rfl
  · cases (requestHostname platform request).bind fun hostname => getActive hostname host.active <;> rfl

/-- `encode` is a percent-encoding: each text is read back, and a path without escapes stands for itself. -/
structure PercentEncoding (platform : SitePlatform) (encode : Text → Text) : Prop where
  decoded : ∀ path, platform.decodeURIComponent (encode path) = some path
  plain : ∀ path ∈ reservedPaths, platform.decodeURIComponent path = some path

theorem requests_stay_inside (platform : SitePlatform) (encode : Text → Text) (hencode : PercentEncoding platform encode)
    (disk : Path → Entry) (hfolder : ∀ path, disk (path ++ [[]]) ≠ .file) (host : StaticSiteHost) (request : SiteRequest) :
    (∀ file withBody headers, handle platform host disk request = .file file withBody headers →
      ∃ site ∈ host.active, requestHostname platform request = some site.hostname ∧
        ∃ rest, file = site.root ++ rest ∧ ∀ name ∈ rest, name ≠ [] ∧ name ≠ dotdot ∧ name.head? ≠ some '.') ∧
    (∀ pathname path other, request.pathname ∉ reservedPaths → pathname ∉ reservedPaths →
      platform.decodeURIComponent request.pathname = some path → platform.decodeURIComponent pathname = some other →
      normalize path = normalize other →
        handle platform host disk { request with pathname } = handle platform host disk request) ∧
    ∀ hostname site names, requestHostname platform request = some hostname → getActive hostname host.active = some site →
      (request.method = "GET" ∨ request.method = "HEAD") → names ≠ [] → (∀ name ∈ names, Plain name) →
      '/' :: relativePath names ∉ reservedPaths → disk (site.root ++ names) = .file →
        ∃ headers, handle platform host disk { request with pathname := encode ('/' :: relativePath names) } =
          .file (site.root ++ names) (request.method ≠ "HEAD") headers := by
  refine ⟨fun file withBody headers hfile => ?_, fun pathname path other hreserved hreserved' hpath hother hsame => ?_,
    fun hostname site names hhostname hsite hmethod hnames hplain hreserved hfile => ?_⟩
  · obtain ⟨site, hsite, hhostname, hpresent, rest, hvisible, rfl | rfl⟩ := handle_file hfile
    · exact ⟨site, hsite, hhostname, rest, rfl, fun name hname =>
        ⟨(hvisible name hname).1, (hvisible name hname).inside.2, (hvisible name hname).2⟩⟩
    · exact absurd hpresent (hfolder _)
  · have hserve : serveSite platform disk { request with pathname } = serveSite platform disk request := by
      funext site
      unfold serveSite
      rw [hother, hpath]
      dsimp only
      rw [hsame]
    rw [handle_unreserved hreserved, handle_unreserved hreserved', hserve]
    rfl
  · have hspelled : encode ('/' :: relativePath names) ∉ reservedPaths := by
      intro hmem
      have hdecoded := hencode.decoded ('/' :: relativePath names)
      rw [hencode.plain _ hmem] at hdecoded
      exact hreserved (Option.some.inj hdecoded ▸ hmem)
    have hserved : ∃ headers, serveSite platform disk { request with pathname := encode ('/' :: relativePath names) } site =
        .file (site.root ++ names) (request.method ≠ "HEAD") headers :=
      serveSite_path hnames hplain (hencode.decoded _) hfile
    have hfound : ((requestHostname platform request).bind fun name => getActive name host.active) = some site := by
      rw [hhostname, Option.bind_some, hsite]
    rw [handle_unreserved hspelled, if_neg fun hneither => hmethod.elim hneither.1 hneither.2]
    exact hfound ▸ hserved

/-! ## Two requests -/

def customerSite : ActiveSite where
  binding := ⟨firstId, "www.customer.example", "first/site", "https://github.com/first/site.git", "main", "deploy/main", "dist",
    .txt, plainPlatform.sha256Hex "site-token-one", none, false⟩
  root := ["srv".toList, "site".toList]

def servingHost : StaticSiteHost := ⟨[customerSite], true, .idle⟩

def stylesheet : Path := ["assets".toList, "site.css".toList]

theorem plain_stylesheet : ∀ name ∈ stylesheet, Plain name := by
  simp [stylesheet, Plain, Visible]

theorem requests_stay_inside_stylesheet : ∃ headers,
    handle { plainPlatform with decodeURIComponent := some } servingHost
      (fun path => if path = customerSite.root ++ stylesheet then .file else .missing)
      { homepage with pathname := "/assets/site.css".toList } =
        .file (customerSite.root ++ stylesheet) (homepage.method ≠ "HEAD") headers := by
  have hall := requests_stay_inside { plainPlatform with decodeURIComponent := some } id ⟨fun _ => rfl, fun _ _ => rfl⟩
    (fun path => if path = customerSite.root ++ stylesheet then .file else .missing)
    (fun path hfile => by
      split at hfile
      · rename_i hpath
        have hlast := congrArg List.getLast? hpath
        rw [List.getLast?_concat] at hlast
        exact absurd hlast (by decide)
      · cases hfile) servingHost homepage
  exact hall.2.2 "www.customer.example" customerSite stylesheet (by decide +kernel) (by decide +kernel) (Or.inl rfl) (by decide)
    plain_stylesheet (by decide +kernel) (by decide +kernel)

/-- `/health/%6Cive` is the same path as `/health/live`, which is answered before it is decoded. -/
theorem reserved_path_spelled_otherwise :
    ¬ ∀ (platform : SitePlatform) (disk : Path → Entry) (host : StaticSiteHost) (request : SiteRequest) (pathname path other : Text),
      platform.decodeURIComponent request.pathname = some path → platform.decodeURIComponent pathname = some other →
      normalize path = normalize other →
        handle platform host disk { request with pathname } = handle platform host disk request := by
  intro h
  have hsame := h
    { plainPlatform with
      decodeURIComponent := fun text => some (if text = "/health/%6Cive".toList then "/health/live".toList else text) }
    (fun _ => .missing) servingHost { homepage with pathname := "/health/live".toList } "/health/%6Cive".toList
    "/health/live".toList "/health/live".toList (by decide +kernel) (by decide +kernel) rfl
  exact absurd hsame (by decide +kernel)

end AvenOS.StaticSites
