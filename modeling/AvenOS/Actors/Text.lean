import Mathlib.Data.List.DropRight
import Mathlib.Data.String.Basic

/-! # The string operations the actor core calls

`String.prototype.trim`, `indexOf`, `lastIndexOf`, `slice` and `split(',')` over the characters of a
string, and what splitting does to a text that was joined with `', '`. -/
namespace AvenOS.Text

/-- White space and line terminators of ECMAScript: what `trim` removes and `\s` matches. -/
def isSpace (c : Char) : Bool :=
  let n := c.toNat
  (0x9 ≤ n && n ≤ 0xD) || n == 0x20 || n == 0xA0 || n == 0x1680 || (0x2000 ≤ n && n ≤ 0x200A) ||
    n == 0x2028 || n == 0x2029 || n == 0x202F || n == 0x205F || n == 0x3000 || n == 0xFEFF

def trimChars (cs : List Char) : List Char := (cs.dropWhile isSpace).rdropWhile isSpace

def trim (s : String) : String := String.ofList (trimChars s.toList)

/-- `none` is the `-1` of the source. -/
def indexOf (c : Char) (cs : List Char) : Option ℕ := cs.findIdx? (· == c)

def lastIndexOf (c : Char) (cs : List Char) : ℤ :=
  match cs.reverse.findIdx? (· == c) with
  | none => -1
  | some i => (cs.length : ℤ) - 1 - i

/-- `slice(start, stop)`: a negative stop counts from the end. -/
def slice (cs : List Char) (start : ℕ) (stop : ℤ) : List Char :=
  (cs.take (if stop < 0 then cs.length + stop else stop).toNat).drop start

def pieces (cs : List Char) : List (List Char) := (cs.splitOn ',').map trimChars

/-- A text that is one piece of a list: trimmed, and without a comma. -/
def Clean (cs : List Char) : Prop := trimChars cs = cs ∧ ',' ∉ cs

/-! ## Trimming -/

variable {c x : Char} {cs : List Char}

theorem trimChars_cons_space (cs : List Char) (h : isSpace c = true) : trimChars (c :: cs) = trimChars cs := by
  unfold trimChars
  rw [List.dropWhile_cons_of_pos h]

theorem trimChars_append_space (cs : List Char) (h : isSpace c = true) : trimChars (cs ++ [c]) = trimChars cs := by
  induction cs with
  | nil => simp [trimChars, h]
  | cons d cs ih =>
    by_cases hd : isSpace d = true
    · rw [List.cons_append, trimChars_cons_space _ hd, trimChars_cons_space _ hd, ih]
    · unfold trimChars
      rw [List.cons_append, List.dropWhile_cons_of_neg hd, List.dropWhile_cons_of_neg hd,
        ← List.cons_append, List.rdropWhile_concat_pos _ _ _ h]

theorem trimChars_of_ends {d : Char} (cs : List Char) (hc : isSpace c = false)
    (hd : isSpace d = false) : trimChars (c :: (cs ++ [d])) = c :: (cs ++ [d]) := by
  unfold trimChars
  rw [List.dropWhile_cons_of_neg (by simp [hc]), ← List.cons_append, List.rdropWhile_concat_neg _ _ _ (by simp [hd])]

theorem trimChars_sublist (cs : List Char) : (trimChars cs).Sublist cs := by
  unfold trimChars
  exact (List.rdropWhile_prefix _ _).sublist.trans (List.dropWhile_sublist _)

theorem mem_of_mem_trimChars (h : c ∈ trimChars cs) : c ∈ cs := (trimChars_sublist cs).subset h

theorem trimChars_trimChars (cs : List Char) : trimChars (trimChars cs) = trimChars cs := by
  have hfront : (trimChars cs).dropWhile isSpace = trimChars cs := by
    unfold trimChars
    cases hx : (cs.dropWhile isSpace).rdropWhile isSpace with
    | nil => rfl
    | cons c rest =>
      have hpre : (c :: rest) <+: cs.dropWhile isSpace := hx ▸ List.rdropWhile_prefix _ _
      obtain ⟨tail, htail⟩ := hpre
      have hc : isSpace c = false := by
        have h := List.head?_dropWhile_not isSpace cs
        rw [← htail] at h
        simpa using h
      rw [List.dropWhile_cons_of_neg (by simp [hc])]
  calc
    trimChars (trimChars cs) = (trimChars cs).rdropWhile isSpace := by
      rw [trimChars, hfront]
    _ = trimChars cs := List.rdropWhile_idempotent _ _

theorem head_of_trimmed (h : trimChars (c :: cs) = c :: cs) : isSpace c = false := by
  by_contra hc
  rw [Bool.not_eq_false] at hc
  rw [trimChars_cons_space cs hc] at h
  have hle := (trimChars_sublist cs).length_le
  rw [h, List.length_cons] at hle
  omega

/-! ## Looking for a character -/

theorem indexOf_append_cons (rest : List Char) (h : c ∉ cs) : indexOf c (cs ++ c :: rest) = some cs.length := by
  unfold indexOf
  induction cs with
  | nil => simp [List.findIdx?_cons]
  | cons d cs ih =>
    have hd : d ≠ c := fun e => h (by simp [e])
    have hb : (d == c) = false := by simpa using hd
    rw [List.cons_append, List.findIdx?_cons, hb]
    simpa using ih (fun hm => h (List.mem_cons_of_mem d hm))

theorem indexOf_none : indexOf c cs = none ↔ c ∉ cs := by
  unfold indexOf
  rw [List.findIdx?_eq_none_iff]
  constructor
  · intro h hm
    simpa using h c hm
  · intro h d hd
    have hne : d ≠ c := fun e => h (e ▸ hd)
    simpa using hne

theorem indexOf_some_take {i : ℕ} (h : indexOf c cs = some i) : c ∉ cs.take i := by
  unfold indexOf at h
  rw [List.findIdx?_eq_some_iff_getElem] at h
  obtain ⟨hi, _, hbefore⟩ := h
  intro hm
  obtain ⟨j, hj, he⟩ := List.getElem_of_mem hm
  rw [List.length_take] at hj
  rw [List.getElem_take] at he
  have := hbefore j (by omega)
  simp [he] at this

theorem lastIndexOf_append (cs : List Char) (c : Char) : lastIndexOf c (cs ++ [c]) = cs.length := by
  simp [lastIndexOf, List.findIdx?_cons]

theorem slice_middle (front body : List Char) (back : List Char) :
    slice (front ++ body ++ back) front.length ((front ++ body).length : ℕ) = body := by
  unfold slice
  rw [if_neg (by omega), Int.toNat_natCast, List.take_left, List.drop_left]

/-! ## Splitting at commas -/

theorem splitOn_cons_ne (cs : List Char) (h : c ≠ ',') :
    (c :: cs).splitOn ',' = (cs.splitOn ',').modifyHead (List.cons c) := by
  have hb : (c == ',') = false := by simpa using h
  simp only [List.splitOn, List.splitOnP_cons_eq_if_modifyHead, hb]
  simp

theorem splitOn_cons_comma (cs : List Char) : (',' :: cs).splitOn ',' = [] :: cs.splitOn ',' := by
  simp [List.splitOn, List.splitOnP_cons_eq_if_modifyHead]

theorem pieces_cons_space (cs : List Char) (h : isSpace c = true) : pieces (c :: cs) = pieces cs := by
  have hne : c ≠ ',' := by
    rintro rfl
    exact absurd h (by decide)
  unfold pieces
  rw [splitOn_cons_ne _ hne]
  cases cs.splitOn ',' with
  | nil => rfl
  | cons p ps => simp [trimChars_cons_space p h]

theorem pieces_append_space (cs : List Char) (h : isSpace c = true) : pieces (cs ++ [c]) = pieces cs := by
  have hne : c ≠ ',' := by
    rintro rfl
    exact absurd h (by decide)
  have hsplit : ∀ cs : List Char, ∃ ps p, cs.splitOn ',' = ps ++ [p] ∧ (cs ++ [c]).splitOn ',' = ps ++ [p ++ [c]] := by
    intro cs
    induction cs with
    | nil =>
      refine ⟨[], [], rfl, ?_⟩
      rw [List.nil_append, splitOn_cons_ne _ hne]
      rfl
    | cons d cs ih =>
      obtain ⟨ps, p, h₁, h₂⟩ := ih
      by_cases hd : d = ','
      · subst hd
        refine ⟨[] :: ps, p, ?_, ?_⟩
        · rw [splitOn_cons_comma, h₁, List.cons_append]
        · rw [List.cons_append, splitOn_cons_comma, h₂, List.cons_append]
      · rw [List.cons_append, splitOn_cons_ne _ hd, splitOn_cons_ne _ hd, h₁, h₂]
        cases ps with
        | nil => exact ⟨[], d :: p, rfl, rfl⟩
        | cons q ps => exact ⟨(d :: q) :: ps, p, rfl, rfl⟩
  obtain ⟨ps, p, h₁, h₂⟩ := hsplit cs
  unfold pieces
  rw [h₁, h₂]
  simp [trimChars_append_space p h]

theorem pieces_dropWhile (cs : List Char) : pieces (cs.dropWhile isSpace) = pieces cs := by
  induction cs with
  | nil => rfl
  | cons c cs ih =>
    by_cases h : isSpace c = true
    · rw [List.dropWhile_cons_of_pos h, ih, pieces_cons_space _ h]
    · rw [List.dropWhile_cons_of_neg h]

theorem pieces_rdropWhile (cs : List Char) : pieces (cs.rdropWhile isSpace) = pieces cs := by
  induction cs using List.reverseRecOn with
  | nil => rfl
  | append_singleton cs c ih =>
    by_cases h : isSpace c = true
    · rw [List.rdropWhile_concat_pos _ _ _ h, ih, pieces_append_space _ h]
    · rw [List.rdropWhile_concat_neg _ _ _ h]

theorem pieces_trimChars (cs : List Char) : pieces (trimChars cs) = pieces cs := by
  unfold trimChars
  rw [pieces_rdropWhile, pieces_dropWhile]

theorem splitOn_no_comma (cs : List Char) : ∀ p ∈ cs.splitOn ',', ',' ∉ p := by
  induction cs with
  | nil => simp [List.splitOn]
  | cons c cs ih =>
    by_cases hc : c = ','
    · subst hc
      rw [splitOn_cons_comma]
      simpa using ih
    · rw [splitOn_cons_ne _ hc]
      cases h : cs.splitOn ',' with
      | nil => simp
      | cons p ps =>
        rw [h] at ih
        intro q hq
        rcases List.mem_cons.mp hq with rfl | hq
        · simpa [Ne.symm hc] using ih p (by simp)
        · exact ih q (List.mem_cons_of_mem _ hq)

theorem pieces_clean (cs : List Char) : ∀ p ∈ pieces cs, Clean p := by
  intro p hp
  obtain ⟨q, hq, rfl⟩ := List.mem_map.mp hp
  exact ⟨trimChars_trimChars q, fun h => splitOn_no_comma cs q hq (mem_of_mem_trimChars h)⟩

theorem splitOn_append_comma {a : List Char} (rest : List Char) (h : ',' ∉ a) :
    (a ++ ',' :: rest).splitOn ',' = a :: rest.splitOn ',' := by
  induction a with
  | nil => exact splitOn_cons_comma rest
  | cons c a ih =>
    have hc : c ≠ ',' := fun e => h (by simp [e])
    rw [List.cons_append, splitOn_cons_ne _ hc, ih (fun hm => h (List.mem_cons_of_mem c hm))]
    rfl

theorem pieces_join {args : List (List Char)} (hne : args ≠ []) (hclean : ∀ a ∈ args, Clean a) :
    pieces ([',', ' '].intercalate args) = args := by
  induction args with
  | nil => exact absurd rfl hne
  | cons a args ih =>
    have ha := hclean a (by simp)
    cases args with
    | nil =>
      have hs : a.splitOn ',' = [a] := by
        have h : ([','].intercalate [a]).splitOn ',' = [a] :=
          List.splitOn_intercalate ',' (by simpa using ha.2) (by simp)
        simpa using h
      simp [pieces, hs, ha.1]
    | cons b args =>
      have hrest := ih (by simp) (fun x hx => hclean x (List.mem_cons_of_mem a hx))
      have hjoin : [',', ' '].intercalate (a :: b :: args) = a ++ ',' :: ' ' :: [',', ' '].intercalate (b :: args) := by
        simp [List.intercalate]
      have hspace := pieces_cons_space ([',', ' '].intercalate (b :: args)) (c := ' ') (by decide)
      rw [hjoin]
      unfold pieces at hspace hrest ⊢
      rw [splitOn_append_comma _ ha.2, List.map_cons, hspace, hrest, ha.1]

variable {p : List Char} {sep : String} {l : List String}

theorem mem_of_mem_splitOn (hp : p ∈ cs.splitOn ',') (hx : x ∈ p) : x ∈ cs := by
  induction cs generalizing p with
  | nil =>
    have hnil : ([] : List Char).splitOn ',' = [[]] := by simp [List.splitOn]
    rw [hnil, List.mem_singleton] at hp
    rw [hp] at hx
    exact hx
  | cons c cs ih =>
    by_cases hc : c = ','
    · rw [hc, splitOn_cons_comma] at hp
      rcases List.mem_cons.mp hp with rfl | hp
      · cases hx
      · exact List.mem_cons_of_mem c (ih hp hx)
    · rw [splitOn_cons_ne _ hc] at hp
      cases hs : cs.splitOn ',' with
      | nil => simp [hs] at hp
      | cons q qs =>
        rw [hs] at hp ih
        rcases List.mem_cons.mp hp with rfl | hp
        · rcases List.mem_cons.mp hx with rfl | hx
          · exact List.mem_cons_self
          · exact List.mem_cons_of_mem c (ih List.mem_cons_self hx)
        · exact List.mem_cons_of_mem c (ih (List.mem_cons_of_mem q hp) hx)

theorem mem_of_mem_pieces (hp : p ∈ pieces cs) (hx : x ∈ p) : x ∈ cs := by
  obtain ⟨q, hq, rfl⟩ := List.mem_map.mp hp
  exact mem_of_mem_splitOn hq (mem_of_mem_trimChars hx)

theorem mem_of_mem_slice {start : ℕ} {stop : ℤ} (hx : x ∈ slice cs start stop) : x ∈ cs := by
  unfold slice at hx
  exact List.mem_of_mem_take (List.mem_of_mem_drop hx)

/-! ## Joined texts -/

theorem join_injective (hsep : sep.toList = [c]) {l' : List String} (hl : ∀ s ∈ l, c ∉ s.toList)
    (hl' : ∀ s ∈ l', c ∉ s.toList) (hne : l ≠ []) (hne' : l' ≠ []) (h : sep.intercalate l = sep.intercalate l') :
    l = l' := by
  have hsplit : ∀ k : List String, (∀ s ∈ k, c ∉ s.toList) → k ≠ [] →
      (sep.intercalate k).toList.splitOn c = k.map String.toList := by
    intro k hk hkne
    rw [String.toList_intercalate, hsep]
    refine List.splitOn_intercalate c ?_ (by simpa using hkne)
    intro cs hcs
    obtain ⟨s, hs, rfl⟩ := List.mem_map.mp hcs
    exact hk s hs
  have hmap : l.map String.toList = l'.map String.toList := by
    rw [← hsplit l hl hne, ← hsplit l' hl' hne', h]
  exact List.map_injective_iff.mpr (fun _ _ => String.toList_injective) hmap

theorem join_eq_empty (hl : ∀ s ∈ l, s ≠ "") (h : sep.intercalate l = "") : l = [] := by
  cases l with
  | nil => rfl
  | cons a rest =>
    have htext := congrArg String.toList h
    rw [String.toList_intercalate, List.map_cons] at htext
    have ha : a.toList = [] := by
      cases rest with
      | nil => simpa using htext
      | cons b rest =>
        rw [List.map_cons, List.intercalate_cons_cons] at htext
        exact (List.append_eq_nil_iff.mp (List.append_eq_nil_iff.mp htext).1).1
    exact absurd (String.toList_eq_nil_iff.mp ha) (hl a List.mem_cons_self)

theorem mem_intercalate {sep : List Char} {ls : List (List Char)}
    (h : c ∈ sep.intercalate ls) : c ∈ sep ∨ ∃ l ∈ ls, c ∈ l := by
  induction ls with
  | nil => cases h
  | cons l ls ih =>
    cases ls with
    | nil =>
      rw [List.intercalate_singleton] at h
      exact .inr ⟨l, List.mem_cons_self, h⟩
    | cons l' ls =>
      rw [List.intercalate_cons_cons, List.mem_append, List.mem_append] at h
      rcases h with (h | h) | h
      · exact .inr ⟨l, List.mem_cons_self, h⟩
      · exact .inl h
      · rcases ih h with hs | ⟨k, hk, hck⟩
        · exact .inl hs
        · exact .inr ⟨k, List.mem_cons_of_mem l hk, hck⟩

/-! ## Numbers in names -/

theorem toString_nat_injective : Function.Injective (fun n : ℕ => toString n) := by
  intro m n h
  have hdigits : Nat.toDigits 10 m = Nat.toDigits 10 n := by
    have hlists := congrArg String.toList h
    simpa [Nat.toString_eq_ofList_toDigits] using hlists
  have hvalue := congrArg (fun ds => Nat.ofDigitChars 10 ds 0) hdigits
  simpa [Nat.ofDigitChars_ten_toDigits] using hvalue

theorem mem_toString_nat {n : ℕ} (h : c ∈ (toString n).toList) : c.isDigit = true := by
  rw [Nat.toString_eq_ofList_toDigits, String.toList_ofList] at h
  exact Nat.isDigit_of_mem_toDigits (by decide) (by decide) h

end AvenOS.Text
