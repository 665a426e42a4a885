import Mathlib.Data.List.DropRight

/-! # Paths

A path is read name by name from the left. Empty names and single dots are skipped and two dots take the name before them
away. A path without two dots that is joined to a folder stays below the folder. -/
namespace AvenOS.PosixPath

abbrev Text := List Char

/-- A normalised absolute path as its names. An empty last name is a separator at its end. -/
abbrev Path := List Text

def dot : Text := ['.']

def dotdot : Text := ['.', '.']

def normalizeName (allowAboveRoot : Bool) (names : Path) (name : Text) : Path :=
  if name = [] ∨ name = dot then names
  else if name = dotdot then
    if names.getLast?.all (· == dotdot) then
      if allowAboveRoot then names ++ [dotdot] else names
    else names.dropLast
  else names ++ [name]

def normalizeNames (allowAboveRoot : Bool) (start names : Path) : Path := names.foldl (normalizeName allowAboveRoot) start

def isAbsolute (path : Text) : Bool := path.head? == some '/'

def endsWithSeparator (path : Text) : Bool := path.getLast? == some '/'

def normalize (path : Text) : Text :=
  let names := ['/'].intercalate (normalizeNames (!isAbsolute path) [] (path.splitOn '/'))
  if path = [] then dot
  else if names = [] then
    if isAbsolute path then ['/'] else if endsWithSeparator path then ['.', '/'] else dot
  else (if isAbsolute path then ['/'] else []) ++ names ++ if endsWithSeparator path then ['/'] else []

def join (root : Path) (relative : Text) : Path :=
  normalizeNames false root (relative.splitOn '/') ++ if endsWithSeparator relative then [[]] else []

/-- The extension of the last name: from its last dot on, unless that is its first character. -/
def extname (path : Path) : Text :=
  let name := (path.rdropWhile List.isEmpty).getLast?.getD []
  let stem := name.rdropWhile (· ≠ '.')
  if stem.length ≤ 1 then [] else '.' :: name.drop stem.length

/-- A name that stays in its folder. -/
def Inside (name : Text) : Prop := name ≠ dot ∧ name ≠ dotdot

/-- A name that is neither empty nor hidden. -/
def Visible (name : Text) : Prop := name ≠ [] ∧ name.head? ≠ some '.'

variable {name : Text} {p q : Char → Bool}

theorem Visible.inside (h : Visible name) : Inside name := ⟨fun hdot => h.2 (hdot ▸ rfl), fun hup => h.2 (hup ▸ rfl)⟩

theorem normalizeNames_visible (allowAboveRoot : Bool) {names : Path} (h : ∀ name ∈ names, name.head? ≠ some '.')
    (start : Path) : ∃ rest, normalizeNames allowAboveRoot start names = start ++ rest ∧ (∀ name ∈ rest, Visible name) ∧
      ((∀ name ∈ names, name ≠ []) → rest = names) := by
  induction names generalizing start with
  | nil => exact ⟨[], (List.append_nil _).symm, fun _ hname => absurd hname List.not_mem_nil, fun _ => rfl⟩
  | cons name names ih =>
    have hhead := h name List.mem_cons_self
    have hmore : ∀ other ∈ names, other.head? ≠ some '.' := fun other hother => h other (List.mem_cons_of_mem _ hother)
    rw [normalizeNames, List.foldl_cons, ← normalizeNames, normalizeName]
    by_cases hempty : name = []
    · rw [if_pos (.inl hempty)]
      obtain ⟨rest, hrest, hvisible, -⟩ := ih hmore start
      exact ⟨rest, hrest, hvisible, fun hall => absurd hempty (hall name List.mem_cons_self)⟩
    · have hinside := Visible.inside ⟨hempty, hhead⟩
      rw [if_neg (fun hskip => hskip.elim hempty hinside.1), if_neg hinside.2]
      obtain ⟨rest, hrest, hvisible, hsame⟩ := ih hmore (start ++ [name])
      refine ⟨name :: rest, by rw [hrest, List.append_assoc, List.singleton_append], fun other hother => ?_, fun hall => ?_⟩
      · rcases List.mem_cons.mp hother with rfl | hother
        · exact ⟨hempty, hhead⟩
        · exact hvisible other hother
      · rw [hsame fun other hother => hall other (List.mem_cons_of_mem _ hother)]

theorem join_visible {relative : Text} (h : ∀ name ∈ relative.splitOn '/', name.head? ≠ some '.') (root : Path) :
    ∃ rest, (∀ name ∈ rest, Visible name) ∧
      (join root relative = root ++ rest ∨ join root relative = root ++ rest ++ [[]]) := by
  obtain ⟨rest, hrest, hvisible, -⟩ := normalizeNames_visible false h root
  refine ⟨rest, hvisible, ?_⟩
  rw [join, hrest]
  split
  · exact .inr rfl
  · exact .inl (List.append_nil _)

/-! ## Splitting at more characters -/

theorem splitOnP_finer (hpq : ∀ c, p c = true → q c = true) (text : Text) :
    ∃ head tail head' tail', text.splitOnP p = head :: tail ∧ text.splitOnP q = head' :: tail' ∧
      (∀ c, head.head? = some c → q c = false → head'.head? = some c) ∧
      ∀ name ∈ tail, ∀ c, name.head? = some c → q c = false → ∃ part ∈ tail', part.head? = some c := by
  induction text with
  | nil =>
    exact ⟨[], [], [], [], rfl, rfl, fun c hc _ => hc, fun _ hname => absurd hname List.not_mem_nil⟩
  | cons a text ih =>
    obtain ⟨head, tail, head', tail', hp, hq, hhead, htail⟩ := ih
    rw [List.splitOnP_cons_eq_if_modifyHead, List.splitOnP_cons_eq_if_modifyHead, hp, hq]
    by_cases ha : q a = true
    · rw [if_pos ha]
      by_cases ha' : p a = true
      · rw [if_pos ha']
        refine ⟨_, _, _, _, rfl, rfl, fun c hc _ => hc, fun name hname c hc hplain => ?_⟩
        rcases List.mem_cons.mp hname with rfl | hname
        · exact ⟨head', List.mem_cons_self, hhead c hc hplain⟩
        · obtain ⟨part, hpart, hstart⟩ := htail name hname c hc hplain
          exact ⟨part, List.mem_cons_of_mem _ hpart, hstart⟩
      · rw [if_neg ha']
        refine ⟨_, _, _, _, rfl, rfl, fun c hc hplain => ?_, fun name hname c hc hplain => ?_⟩
        · cases hc
          rw [ha] at hplain
          cases hplain
        · obtain ⟨part, hpart, hstart⟩ := htail name hname c hc hplain
          exact ⟨part, List.mem_cons_of_mem _ hpart, hstart⟩
    · rw [if_neg ha, if_neg fun ha' => ha (hpq a ha')]
      exact ⟨_, _, _, _, rfl, rfl, fun c hc _ => hc, htail⟩

theorem head_splitOnP_finer (hpq : ∀ c, p c = true → q c = true) {text : Text} {c : Char}
    (hname : name ∈ text.splitOnP p) (hc : name.head? = some c) (hplain : q c = false) :
    ∃ part ∈ text.splitOnP q, part.head? = some c := by
  obtain ⟨head, tail, head', tail', hp, hq, hhead, htail⟩ := splitOnP_finer hpq text
  rw [hp] at hname
  rw [hq]
  rcases List.mem_cons.mp hname with rfl | hname
  · exact ⟨head', List.mem_cons_self, hhead c hc hplain⟩
  · obtain ⟨part, hpart, hstart⟩ := htail name hname c hc hplain
    exact ⟨part, List.mem_cons_of_mem _ hpart, hstart⟩

end AvenOS.PosixPath
