import AvenOS.Foundations.Utf8

/-! # The joined text of a document

`joinedText` gives a model the texts of the pages, up to a number of bytes. The page that does not fit is cut between two
bytes, and what the decoder makes of its part goes to the model. -/
namespace AvenOS.DocumentIngest
open Utf8

/-! ## Joining -/

def maxModelDocumentTextBytes : ℕ := 1950000

def newline : Point := 10

def blankLine : Text := [newline, newline]

/-- `text.slice(0, -1)`: of a pair of surrogates the first one stays. -/
def dropUnit (text : Text) : Text :=
  match text.reverse with
  | [] => []
  | c :: rest =>
    if 0x10000 ≤ c.val then rest.reverse ++ [Fin.ofNat _ (0xD800 + (c.val - 0x10000) / 0x400)] else rest.reverse

def units (text : Text) : ℕ := (text.map fun c => if 0x10000 ≤ c.val then 2 else 1).sum

def shorten (limit : ℕ) (before : Text) : ℕ → Text → Text
  | 0, tail => tail
  | rounds + 1, tail =>
    if tail ≠ [] ∧ limit < size (before ++ tail) then shorten limit before rounds (dropUnit tail) else tail

def joinPages (limit : ℕ) (joined : Text) : List Text → Text
  | [] => joined
  | page :: pages =>
    let before := joined ++ if joined = [] then [] else blankLine
    if limit ≤ size before then joined
    else if size page ≤ limit - size before then joinPages limit (before ++ page) pages
    else
      let tail := decode ((encode page).take (limit - size before))
      before ++ shorten limit before (units tail) tail

def joinedText (pages : List Text) : Text := joinPages maxModelDocumentTextBytes [] pages

/-! ## Truncation -/

def wholeText (pages : List Text) : Text := blankLine.intercalate pages

/-- A text that only leaves out the end. -/
structure Truncates (limit : ℕ) (pages : List Text) (result : Text) : Prop where
  bounded : size result ≤ limit
  isPrefix : result <+: wholeText pages
  whole : size (wholeText pages) ≤ limit → result = wholeText pages
  known : ∀ c ∈ result, c = newline ∨ ∃ page ∈ pages, c ∈ page

def cutPage (limit : ℕ) (used : ℕ) : List Text → Option (Text × ℕ)
  | [] => none
  | page :: pages =>
    let before := used + if used = 0 then 0 else 2
    if limit ≤ before then none
    else if size page ≤ limit - before then cutPage limit (before + size page) pages
    else some (page, limit - before)

/-- No surrogate without its partner is kept, no three bytes of a character of four, and no byte order mark at the front. -/
structure CleanCut (page : Text) (room : ℕ) : Prop where
  paired : ∀ c ∈ fitting room page, isSurrogate c = false
  unbroken : leftover room page ≠ 3
  unmarked : (fitting room page).head? = some byteOrderMark →
    leftover room page = 0 ∧ ∀ c ∈ fitting room page, c = byteOrderMark

/-- A page on its own may be empty; before others the first one is not. -/
def Leads (pages : List Text) : Prop := pages.length ≤ 1 ∨ pages.head? ≠ some []

/-- An empty page ends a text that fits exactly. -/
def AtBrim (limit : ℕ) (pages : List Text) : Prop :=
  2 ≤ pages.length ∧ pages.getLast? = some [] ∧ size (wholeText pages) = limit

/-! ## The page that is cut -/

def cutText (page : Text) (room : ℕ) : Text :=
  let kept := (fitting room page).map scalar
  withoutMark (kept ++
    if leftover room page = 0 then []
    else if leftover room page = 3 ∨ kept.head? = some byteOrderMark then [replacement]
    else [])

variable {limit room : ℕ} {before text page joined : Text} {pages : List Text}

theorem shorten_fits {tail : Text} (h : size (before ++ tail) ≤ limit) (rounds : ℕ) :
    shorten limit before rounds tail = tail := by
  cases rounds with
  | zero => rfl
  | succ rounds => rw [shorten, if_neg fun hlong => absurd h (not_le.mpr hlong.2)]

theorem dropUnit_replacement (text : Text) : dropUnit (text ++ [replacement]) = text := by
  rw [dropUnit, List.reverse_append]
  simp only [List.reverse_singleton, List.singleton_append]
  rw [if_neg (by decide), List.reverse_reverse]

theorem size_replacement : size [replacement] = 3 := by decide

theorem size_withoutMark (text : Text) : size (withoutMark text) ≤ size text := by
  cases text with
  | nil => exact le_refl _
  | cons c text =>
    rw [withoutMark]
    split
    · rw [size_cons]
      omega
    · exact le_refl _

theorem scalar_mark {c : Point} (h : scalar c = byteOrderMark) : c = byteOrderMark := by
  unfold scalar at h
  split at h
  · exact absurd h (by decide)
  · exact h

theorem withoutMark_of_head (h : text.head? ≠ some byteOrderMark) : withoutMark text = text := by
  cases text with
  | nil => rfl
  | cons c text => rw [withoutMark, if_neg fun hc => h (congrArg some hc)]

theorem head_kept (h : (text.map scalar).head? = some byteOrderMark) : text.head? = some byteOrderMark := by
  cases text with
  | nil => cases h
  | cons c text => exact congrArg some (scalar_mark (Option.some.inj h))

theorem leftover_lt (hlong : room < size page) : leftover room page < 4 := by
  obtain ⟨c, rest, -, hleft, -⟩ := decode_take hlong
  have hlength := encodePoint_length c
  omega

theorem decode_room (hlong : room < size page) : decode ((encode page).take room) =
      withoutMark ((fitting room page).map scalar ++ if leftover room page = 0 then [] else [replacement]) := by
  obtain ⟨c, rest, -, hleft, htake⟩ := decode_take hlong
  rw [decode, htake, decode_text]
  by_cases hzero : leftover room page = 0
  · rw [if_pos hzero, hzero]
    rfl
  · rw [if_neg hzero, decode_cut c (Nat.pos_of_ne_zero hzero) hleft]

theorem head_append_ne (h : text.head? ≠ some byteOrderMark) : (text ++ [replacement]).head? ≠ some byteOrderMark := by
  cases text with
  | nil => decide
  | cons c text => exact h

theorem size_stays (h : leftover room page = 3 ∨ ((fitting room page).map scalar).head? = some byteOrderMark) :
    size (withoutMark ((fitting room page).map scalar ++ [replacement])) ≤ size (fitting room page) + leftover room page := by
  rcases h with hthree | hmark
  · have hsize := size_withoutMark ((fitting room page).map scalar ++ [replacement])
    rw [size_append, size_scalar, size_replacement] at hsize
    omega
  · have hsame := size_scalar (fitting room page)
    generalize (fitting room page).map scalar = kept at *
    cases kept with
    | nil => cases hmark
    | cons c kept =>
      cases hmark
      have hthree : (encodePoint byteOrderMark).length = 3 := by decide
      rw [size_cons, hthree] at hsame
      rw [List.cons_append, withoutMark, if_pos rfl, size_append, size_replacement]
      omega

theorem shorten_decoded (hbefore : size before < limit) (hlong : limit - size before < size page) :
    shorten limit before (units (decode ((encode page).take (limit - size before))))
      (decode ((encode page).take (limit - size before))) = cutText page (limit - size before) := by
  have hleft := leftover_lt hlong
  have hkept := size_fitting (limit - size before) page
  rw [decode_room hlong, cutText]
  generalize hroom : limit - size before = room at *
  have hsum : size (fitting room page) + leftover room page = room := by
    rw [leftover]
    omega
  by_cases hzero : leftover room page = 0
  · simp only [if_pos hzero, List.append_nil]
    apply shorten_fits
    have hsize := size_withoutMark ((fitting room page).map scalar)
    rw [size_scalar] at hsize
    rw [size_append]
    omega
  · simp only [if_neg hzero]
    by_cases hstays : leftover room page = 3 ∨ ((fitting room page).map scalar).head? = some byteOrderMark
    · rw [if_pos hstays]
      apply shorten_fits
      have hstep := size_stays hstays
      rw [size_append]
      omega
    · rw [if_neg hstays, List.append_nil]
      push Not at hstays
      have hunits : units ((fitting room page).map scalar ++ [replacement]) =
          units ((fitting room page).map scalar) + 1 := by
        rw [units, List.map_append, List.sum_append]
        rfl
      have hlonger : limit < size (before ++ ((fitting room page).map scalar ++ [replacement])) := by
        rw [size_append, size_append, size_replacement, size_scalar]
        omega
      rw [withoutMark_of_head (head_append_ne hstays.2), withoutMark_of_head hstays.2, hunits, shorten,
        if_pos ⟨by simp, hlonger⟩, dropUnit_replacement]
      apply shorten_fits
      rw [size_append, size_scalar]
      omega

theorem size_cutText (page : Text) (room : ℕ) : size (cutText page room) ≤ room := by
  have hkept := size_fitting room page
  rw [cutText]
  by_cases hzero : leftover room page = 0
  · simp only [if_pos hzero, List.append_nil]
    have hsize := size_withoutMark ((fitting room page).map scalar)
    rw [size_scalar] at hsize
    omega
  · simp only [if_neg hzero]
    split
    · rename_i hstays
      have hstep := size_stays hstays
      rw [leftover] at hstep
      omega
    · have hsize := size_withoutMark ((fitting room page).map scalar ++ [])
      rw [List.append_nil, size_scalar] at hsize
      rw [List.append_nil]
      omega

/-! ## Where the cut is clean -/

theorem marks_of_prefix {kept rest ending : Text} (h : kept.map scalar ++ ending <+: byteOrderMark :: (kept ++ rest)) :
    (∀ c ∈ kept, c = byteOrderMark) ∧ (ending ≠ [] → ending.head? = some byteOrderMark) := by
  induction kept with
  | nil =>
    refine ⟨fun c hc => absurd hc List.not_mem_nil, fun hne => ?_⟩
    obtain ⟨c, ending, rfl⟩ := List.exists_cons_of_ne_nil hne
    exact congrArg some (List.cons_prefix_cons.mp h).1
  | cons c kept ih =>
    obtain ⟨hc, hrest⟩ := List.cons_prefix_cons.mp h
    have hmark := scalar_mark hc
    rw [List.cons_append, hmark] at hrest
    obtain ⟨hall, hending⟩ := ih hrest
    refine ⟨fun d hd => ?_, hending⟩
    rcases List.mem_cons.mp hd with rfl | hd
    · exact hmark
    · exact hall d hd

theorem scalar_eq {c : Point} : scalar c = c ↔ isSurrogate c = false := by
  constructor
  · intro h
    by_contra hsurrogate
    rw [scalar, if_pos (by simpa using hsurrogate)] at h
    rw [← h] at hsurrogate
    exact hsurrogate (by decide)
  · intro h
    rw [scalar, h]
    rfl

theorem map_scalar_eq : text.map scalar = text ↔ ∀ c ∈ text, isSurrogate c = false := by
  induction text with
  | nil => simp
  | cons c text ih => simp only [List.map_cons, List.cons.injEq, ih, scalar_eq, List.forall_mem_cons]

theorem withoutMark_marks (h : ∀ c ∈ text, c = byteOrderMark) : withoutMark text <+: text := by
  rw [List.eq_replicate_of_mem h]
  cases text with
  | nil => exact List.prefix_refl _
  | cons c text =>
    rw [List.length_cons, List.replicate_succ, withoutMark, if_pos rfl, ← List.replicate_succ, List.replicate_succ']
    exact List.prefix_append _ _

theorem cutText_prefix (hlong : room < size page) : cutText page room <+: page ↔ CleanCut page room := by
  obtain ⟨next, rest, hpage, hleft, -⟩ := decode_take hlong
  have hprefix := fitting_prefix room page
  constructor
  · intro h
    by_cases hmark : (fitting room page).head? = some byteOrderMark
    · obtain ⟨kept, hkept⟩ : ∃ kept, fitting room page = byteOrderMark :: kept := by
        cases hfitting : fitting room page with
        | nil =>
          rw [hfitting] at hmark
          cases hmark
        | cons c kept =>
          rw [hfitting] at hmark
          exact ⟨kept, by rw [Option.some.inj hmark]⟩
      have hscalar : (fitting room page).map scalar = byteOrderMark :: kept.map scalar := by
        rw [hkept, List.map_cons]
        rfl
      have hcut : cutText page room = kept.map scalar ++ if leftover room page = 0 then [] else [replacement] := by
        unfold cutText
        rw [hscalar]
        simp only [List.head?_cons, or_true, if_true, List.cons_append]
        rw [withoutMark, if_pos rfl]
      rw [hkept, List.cons_append] at hpage
      obtain ⟨more, hmore⟩ := h
      rw [hcut] at hmore
      obtain ⟨hall, hending⟩ := marks_of_prefix ⟨more, hmore.trans hpage⟩
      have hzero : leftover room page = 0 := by
        by_contra hne
        rw [if_neg hne] at hending
        exact absurd (hending (List.cons_ne_nil _ _)) (by decide)
      have hmarks : ∀ c ∈ fitting room page, c = byteOrderMark := by
        intro c hc
        rw [hkept] at hc
        rcases List.mem_cons.mp hc with rfl | hc
        · rfl
        · exact hall c hc
      refine ⟨fun c hc => ?_, by omega, fun _ => ⟨hzero, hmarks⟩⟩
      rw [hmarks c hc]
      rfl
    · have hhead : ((fitting room page).map scalar).head? ≠ some byteOrderMark := fun heq => hmark (head_kept heq)
      have hcut : cutText page room =
          (fitting room page).map scalar ++ if leftover room page = 3 then [replacement] else [] := by
        have hiff : (leftover room page = 3 ∨ ((fitting room page).map scalar).head? = some byteOrderMark) ↔
            leftover room page = 3 := or_iff_left hhead
        unfold cutText
        simp only [hiff]
        by_cases hthree : leftover room page = 3
        · rw [if_neg (by omega), if_pos hthree, withoutMark_of_head (head_append_ne hhead)]
        · simp only [if_neg hthree, ite_self, List.append_nil]
          exact withoutMark_of_head hhead
      obtain ⟨more, hmore⟩ := h
      rw [hcut, List.append_assoc] at hmore
      obtain ⟨hsame, hrest⟩ := List.append_inj (hmore.trans hpage) (List.length_map _)
      refine ⟨map_scalar_eq.mp hsame, fun hthree => ?_, fun heq => absurd heq hmark⟩
      rw [if_pos hthree] at hrest
      have hnext : next = replacement := (List.cons.inj hrest).1.symm
      have hlength : (encodePoint replacement).length = 3 := by decide
      rw [hnext, hlength] at hleft
      omega
  · intro hclean
    have hsame := map_scalar_eq.mpr hclean.paired
    unfold cutText
    rw [hsame]
    by_cases hmark : (fitting room page).head? = some byteOrderMark
    · obtain ⟨hzero, hall⟩ := hclean.unmarked hmark
      simp only [if_pos hzero, List.append_nil]
      exact (withoutMark_marks hall).trans hprefix
    · have hneither : ¬ (leftover room page = 3 ∨ (fitting room page).head? = some byteOrderMark) := by
        rintro (hthree | hhead)
        · exact hclean.unbroken hthree
        · exact hmark hhead
      simp only [if_neg hneither, ite_self, List.append_nil]
      rw [withoutMark_of_head hmark]
      exact hprefix

/-! ## The pages in order -/

def continued (joined : Text) (pages : List Text) : Text := joined ++ pages.flatMap fun page => blankLine ++ page

theorem continued_cons (joined page : Text) (pages : List Text) :
    continued joined (page :: pages) = continued (joined ++ blankLine ++ page) pages := by
  simp only [continued, List.flatMap_cons, List.append_assoc]

theorem continued_nil (joined : Text) : continued joined [] = joined := List.append_nil joined

theorem wholeText_cons (page : Text) (pages : List Text) : wholeText (page :: pages) = continued page pages := by
  induction pages generalizing page with
  | nil => simp [wholeText, continued]
  | cons next pages ih =>
    have hrest := ih next
    rw [wholeText, continued] at hrest
    rw [wholeText, continued, List.flatMap_cons, List.append_assoc, ← hrest]
    simp [List.intercalate]

theorem size_blankLine : size blankLine = 2 := by decide

theorem size_eq_zero : size text = 0 ↔ text = [] := by
  cases text with
  | nil => exact ⟨fun _ => rfl, fun _ => rfl⟩
  | cons c text =>
    have hlength := encodePoint_length c
    rw [size_cons]
    exact ⟨fun h => by omega, fun h => by cases h⟩

theorem size_continued (joined : Text) (pages : List Text) : size joined ≤ size (continued joined pages) := by
  rw [continued, size_append]
  omega

/-- Nothing is left out, or only the end. -/
structure Extends (limit : ℕ) (full result : Text) : Prop where
  isPrefix : result <+: full
  whole : size full ≤ limit → result = full

theorem length_withoutMark (text : Text) : (withoutMark text).length ≤ text.length := by
  cases text with
  | nil => exact le_refl _
  | cons c text =>
    rw [withoutMark]
    split
    · exact Nat.le_succ _
    · exact le_refl _

theorem length_cutText (hlong : room < size page) : (cutText page room).length ≤ page.length := by
  obtain ⟨next, rest, hpage, -, -⟩ := decode_take hlong
  have hlength := congrArg List.length hpage
  rw [List.length_append, List.length_cons] at hlength
  unfold cutText
  refine (length_withoutMark _).trans ?_
  rw [List.length_append, List.length_map]
  split_ifs
  · rw [List.length_nil]
    omega
  · rw [List.length_singleton]
    omega
  · rw [List.length_nil]
    omega

theorem extends_brim (pages : List Text) (hbrim : limit ≤ size joined + 2) :
    Extends limit (continued joined (page :: pages)) joined ↔
      ¬ ((page :: pages).getLast? = some [] ∧ size (continued joined (page :: pages)) = limit) := by
  have hsize := size_continued (joined ++ blankLine ++ page) pages
  rw [← continued_cons, size_append, size_append, size_blankLine] at hsize
  constructor
  · rintro hextends ⟨-, hfull⟩
    have hsame := hextends.whole hfull.le
    rw [← hsame] at hsize
    omega
  · intro hnot
    refine ⟨List.prefix_append _ _, fun hle => absurd ?_ hnot⟩
    have hpage : page = [] := size_eq_zero.1 (by omega)
    cases pages with
    | nil => exact ⟨by rw [hpage]; rfl, by omega⟩
    | cons next pages =>
      have hmore := size_continued (joined ++ blankLine ++ page ++ blankLine ++ next) pages
      rw [← continued_cons, ← continued_cons, size_append, size_append, size_append, size_append, size_blankLine] at hmore
      omega

theorem extends_cut (more : Text) (hbefore : size before < limit) (hlong : limit - size before < size page) :
    Extends limit (before ++ page ++ more) (before ++ cutText page (limit - size before)) ↔
      CleanCut page (limit - size before) := by
  rw [← cutText_prefix hlong]
  constructor
  · intro hextends
    have hprefix := hextends.isPrefix
    rw [List.append_assoc, List.prefix_append_right_inj] at hprefix
    exact List.prefix_of_prefix_length_le hprefix (List.prefix_append _ _) (length_cutText hlong)
  · intro hprefix
    refine ⟨?_, fun hle => ?_⟩
    · rw [List.append_assoc, List.prefix_append_right_inj]
      exact hprefix.trans (List.prefix_append _ _)
    · rw [size_append, size_append] at hle
      omega

theorem joinPages_extends (pages : List Text) (hjoined : joined ≠ []) :
    Extends limit (continued joined pages) (joinPages limit joined pages) ↔
      (∀ page room, cutPage limit (size joined) pages = some (page, room) → CleanCut page room) ∧
        ¬ (pages.getLast? = some [] ∧ size (continued joined pages) = limit) := by
  induction pages generalizing joined with
  | nil =>
    rw [joinPages, continued_nil]
    constructor
    · exact fun _ => ⟨fun _ _ h => (by cases h), fun h => (by cases h.1)⟩
    · exact fun _ => ⟨List.prefix_refl _, fun _ => rfl⟩
  | cons page pages ih =>
    have hused : size joined ≠ 0 := fun h => hjoined (size_eq_zero.1 h)
    have hbefore : size (joined ++ blankLine) = size joined + 2 := by rw [size_append, size_blankLine]
    rw [joinPages, cutPage, if_neg hjoined, if_neg hused]
    simp only [hbefore]
    by_cases hbrim : limit ≤ size joined + 2
    · rw [if_pos hbrim, if_pos hbrim, extends_brim pages hbrim]
      exact ⟨fun h => ⟨fun _ _ hcut => (by cases hcut), h⟩, fun h => h.2⟩
    · rw [if_neg hbrim, if_neg hbrim]
      have hsize : size (joined ++ blankLine ++ page) = size joined + 2 + size page := by rw [size_append, hbefore]
      by_cases hpage : size page ≤ limit - (size joined + 2)
      · have hne : joined ++ blankLine ++ page ≠ [] := by simp [hjoined]
        rw [if_pos hpage, if_pos hpage, continued_cons, ih hne, hsize]
        refine and_congr_right fun _ => not_congr ?_
        cases pages with
        | nil =>
          rw [continued_nil, hsize]
          constructor
          · exact fun h => (by cases h.1)
          · rintro ⟨hlast, hfull⟩
            have hempty : page = [] := Option.some.inj hlast
            rw [hempty] at hfull
            have hzero : size [] = 0 := rfl
            omega
        | cons next pages => rw [List.getLast?_cons_cons]
      · rw [if_neg hpage, if_neg hpage, continued_cons]
        have hcut : Extends limit (continued (joined ++ blankLine ++ page) pages)
            (joined ++ blankLine ++ cutText page (limit - size (joined ++ blankLine))) ↔
              CleanCut page (limit - size (joined ++ blankLine)) :=
          extends_cut _ (by omega) (by omega)
        have hlonger := size_continued (joined ++ blankLine ++ page) pages
        rw [← hbefore, shorten_decoded (by omega) (by omega), hcut]
        constructor
        · intro hclean
          refine ⟨fun other room hsame => ?_, fun h => ?_⟩
          · cases hsame
            exact hclean
          · omega
        · exact fun h => h.1 page _ rfl

theorem joinPages_size (pages : List Text) (hfits : size joined ≤ limit) :
    size (joinPages limit joined pages) ≤ limit := by
  induction pages generalizing joined with
  | nil => exact hfits
  | cons page pages ih =>
    rw [joinPages]
    generalize joined ++ (if joined = [] then [] else blankLine) = before
    by_cases hbrim : limit ≤ size before
    · rw [if_pos hbrim]
      exact hfits
    · rw [if_neg hbrim]
      by_cases hpage : size page ≤ limit - size before
      · rw [if_pos hpage]
        refine ih ?_
        rw [size_append]
        omega
      · have hcut := size_cutText page (limit - size before)
        rw [if_neg hpage]
        simp only [shorten_decoded (not_le.mp hbrim) (not_le.mp hpage), size_append]
        omega

theorem known_prefix {result : Text} (h : result <+: wholeText pages) :
    ∀ c ∈ result, c = newline ∨ ∃ page ∈ pages, c ∈ page := by
  intro c hc
  have hwhole := h.subset hc
  cases pages with
  | nil => cases hwhole
  | cons page pages =>
    rw [wholeText_cons, continued] at hwhole
    rcases List.mem_append.mp hwhole with hpage | hmore
    · exact .inr ⟨page, List.mem_cons_self, hpage⟩
    · obtain ⟨other, hother, hc⟩ := List.mem_flatMap.mp hmore
      rcases List.mem_append.mp hc with hblank | hc
      · refine .inl ?_
        rcases List.mem_cons.mp hblank with rfl | hblank
        · rfl
        · exact List.mem_singleton.mp hblank
      · exact .inr ⟨other, List.mem_cons_of_mem _ hother, hc⟩

theorem truncates_iff (pages : List Text) :
    Truncates limit pages (joinPages limit [] pages) ↔ Extends limit (wholeText pages) (joinPages limit [] pages) := by
  constructor
  · exact fun h => ⟨h.isPrefix, h.whole⟩
  · exact fun h => ⟨joinPages_size pages (Nat.zero_le _), h.isPrefix, h.whole, known_prefix h.isPrefix⟩

/-! ## Clean joins -/

structure JoinsCleanly (limit : ℕ) (pages : List Text) : Prop where
  leads : Leads pages
  clean : ∀ page room, cutPage limit 0 pages = some (page, room) → CleanCut page room
  brim : ¬ AtBrim limit pages

theorem joinPages_leads (hlimit : 0 < limit) (hleads : Leads pages) :
    Extends limit (wholeText pages) (joinPages limit [] pages) ↔
      (∀ page room, cutPage limit 0 pages = some (page, room) → CleanCut page room) ∧ ¬ AtBrim limit pages := by
  cases pages with
  | nil =>
    exact ⟨fun _ => ⟨fun _ _ h => (by cases h), fun h => absurd h.1 (by decide)⟩,
      fun _ => ⟨List.prefix_refl _, fun _ => rfl⟩⟩
  | cons page pages =>
    have hzero : size [] = 0 := rfl
    rw [joinPages, cutPage, wholeText_cons]
    simp only [if_true, List.append_nil, List.nil_append, hzero, Nat.sub_zero, if_neg (not_le.mpr hlimit), Nat.zero_add,
      Nat.add_zero]
    by_cases hpage : size page ≤ limit
    · rw [if_pos hpage, if_pos hpage]
      by_cases hempty : page = []
      · have hpages : pages = [] := by
          rcases hleads with hlength | hhead
          · exact List.eq_nil_of_length_eq_zero (by rw [List.length_cons] at hlength; omega)
          · exact absurd (congrArg some hempty) hhead
        rw [hpages, continued_nil, hempty]
        exact ⟨fun _ => ⟨fun _ _ h => (by cases h), fun h => absurd h.1 (by decide)⟩,
          fun _ => ⟨List.prefix_refl _, fun _ => rfl⟩⟩
      · rw [joinPages_extends pages hempty]
        refine and_congr_right fun _ => not_congr ?_
        rw [AtBrim, wholeText_cons]
        cases pages with
        | nil => exact ⟨fun h => (by cases h.1), fun h => absurd h.1 (by simp)⟩
        | cons next pages =>
          rw [List.getLast?_cons_cons]
          exact ⟨fun h => ⟨by simp, h⟩, fun h => h.2⟩
    · rw [if_neg hpage, if_neg hpage]
      have hbefore : size [] < limit := hlimit
      have hcut := extends_cut (pages.flatMap fun other => blankLine ++ other) hbefore (show limit - size [] < size page by
        rw [hzero]
        omega)
      have hshort := shorten_decoded hbefore (show limit - size [] < size page by
        rw [hzero]
        omega)
      have hlonger := size_continued page pages
      rw [hzero, Nat.sub_zero, List.nil_append, List.nil_append, ← continued] at hcut
      rw [hzero, Nat.sub_zero] at hshort
      rw [hshort, hcut]
      constructor
      · intro hclean
        refine ⟨fun other room hsame => ?_, fun h => ?_⟩
        · cases hsame
          exact hclean
        · have hfull := h.2.2
          rw [wholeText_cons] at hfull
          omega
      · exact fun h => h.1 page _ rfl

/-! ## Empty pages in front -/

def sizes (pages : List Text) : ℕ := (pages.map fun page => size page + 2).sum

theorem size_joinPages (pages : List Text) (joined : Text) :
    size (joinPages limit joined pages) + (if joined = [] ∧ pages ≠ [] then 2 else 0) ≤ size joined + sizes pages := by
  induction pages generalizing joined with
  | nil => simp [joinPages]
  | cons page pages ih =>
    have hsizes : sizes (page :: pages) = size page + 2 + sizes pages := by rw [sizes, List.map_cons, List.sum_cons, ← sizes]
    have hsep : size (if joined = [] then [] else blankLine) + (if joined = [] ∧ page :: pages ≠ [] then 2 else 0) = 2 := by
      by_cases hjoined : joined = []
      · simp [hjoined]
        rfl
      · simp [hjoined]
        rfl
    have hbefore := size_append joined (if joined = [] then [] else blankLine)
    rw [joinPages, hsizes]
    generalize joined ++ (if joined = [] then [] else blankLine) = before at *
    by_cases hbrim : limit ≤ size before
    · rw [if_pos hbrim]
      omega
    · rw [if_neg hbrim]
      by_cases hpage : size page ≤ limit - size before
      · have hrest := ih (before ++ page)
        rw [size_append] at hrest
        rw [if_pos hpage]
        omega
      · have hcut := size_cutText page (limit - size before)
        rw [if_neg hpage]
        simp only [shorten_decoded (not_le.mp hbrim) (not_le.mp hpage), size_append]
        omega

theorem size_flatMap (pages : List Text) : size (pages.flatMap fun page => blankLine ++ page) = sizes pages := by
  induction pages with
  | nil => rfl
  | cons page pages ih =>
    rw [List.flatMap_cons, size_append, size_append, size_blankLine, ih, sizes, sizes, List.map_cons, List.sum_cons]
    omega

theorem leads_of_extends (hlimit : 0 < limit) (hfits : size (wholeText pages) ≤ limit)
    (h : Extends limit (wholeText pages) (joinPages limit [] pages)) : Leads pages := by
  by_contra hnot
  rw [Leads, not_or, not_le, not_not] at hnot
  obtain ⟨hlength, hhead⟩ := hnot
  cases pages with
  | nil => cases hhead
  | cons page pages =>
    have hempty : page = [] := Option.some.inj hhead
    have hmore : pages ≠ [] := by
      rintro rfl
      exact absurd hlength (by simp)
    have hjoined : joinPages limit [] (page :: pages) = joinPages limit [] pages := by
      have hzero : size [] = 0 := rfl
      rw [joinPages, hempty]
      simp only [if_true, List.append_nil, hzero, if_neg (not_le.mpr hlimit), Nat.zero_le]
    have hwhole := h.whole hfits
    have hbound := @size_joinPages limit pages []
    rw [hjoined, wholeText_cons, continued, hempty, List.nil_append] at hwhole
    rw [hwhole, size_flatMap, if_pos ⟨rfl, hmore⟩] at hbound
    have hzero : size [] = 0 := rfl
    omega

/-- The joined text is a front of the whole text wherever it joins cleanly, and else only where empty pages lead and the
whole text does not fit. -/
theorem joinedText_truncates (pages : List Text) :
    (JoinsCleanly maxModelDocumentTextBytes pages → Truncates maxModelDocumentTextBytes pages (joinedText pages)) ∧
    (Leads pages ∨ size (wholeText pages) ≤ maxModelDocumentTextBytes →
      Truncates maxModelDocumentTextBytes pages (joinedText pages) → JoinsCleanly maxModelDocumentTextBytes pages) := by
  have hlimit : 0 < maxModelDocumentTextBytes := by decide
  rw [joinedText, truncates_iff]
  constructor
  · exact fun h => (joinPages_leads hlimit h.leads).mpr ⟨h.clean, h.brim⟩
  · intro hcase hextends
    have hleads : Leads pages := by
      rcases hcase with hleads | hfits
      · exact hleads
      · exact leads_of_extends hlimit hfits hextends
    obtain ⟨hclean, hbrim⟩ := (joinPages_leads hlimit hleads).mp hextends
    exact ⟨hleads, hclean, hbrim⟩

/-! ## Three bytes of four -/

def letter : Point := 0x61

def smile : Point := 0x1F600

theorem size_letters (n : ℕ) : size (List.replicate n letter) = n := by
  induction n with
  | zero => rfl
  | succ n ih =>
    have hone : (encodePoint letter).length = 1 := by decide
    rw [List.replicate_succ, size_cons, ih, hone, Nat.add_comm]

theorem fitting_letters (n : ℕ) : fitting (n + 3) (List.replicate n letter ++ [smile]) = List.replicate n letter := by
  have hone : (encodePoint letter).length = 1 := by decide
  have hfour : (encodePoint smile).length = 4 := by decide
  induction n with
  | zero => rw [List.replicate_zero, List.nil_append, fitting, if_neg (by omega)]
  | succ n ih =>
    rw [List.replicate_succ, List.cons_append, fitting, if_pos (by omega), hone, Nat.add_right_comm, Nat.add_sub_cancel, ih]

theorem smile_breaks {n : ℕ} (hn : n + 3 = limit) :
    ¬ Truncates limit [List.replicate n letter ++ [smile]] (joinPages limit [] [List.replicate n letter ++ [smile]]) := by
  have hfour : size [smile] = 4 := by decide
  have hsize : size (List.replicate n letter ++ [smile]) = n + 4 := by rw [size_append, size_letters, hfour]
  have hcut : cutPage limit 0 [List.replicate n letter ++ [smile]] = some (List.replicate n letter ++ [smile], limit) := by
    rw [cutPage]
    simp only [if_true, Nat.add_zero, Nat.sub_zero, hsize]
    rw [if_neg (by omega), if_neg (by omega)]
  rw [truncates_iff, joinPages_leads (by omega) (.inl (le_refl _))]
  rintro ⟨hclean, -⟩
  refine (hclean _ _ hcut).unbroken ?_
  rw [leftover, ← hn, fitting_letters, size_letters]
  omega

theorem broken_character_stays : ¬ ∀ pages, Truncates maxModelDocumentTextBytes pages (joinedText pages) := by
  intro hall
  exact smile_breaks (show 1949997 + 3 = maxModelDocumentTextBytes from rfl) (hall [List.replicate 1949997 letter ++ [smile]])

end AvenOS.DocumentIngest
