import Mathlib.Data.List.Forall2

/-! # Programs that call the outside

A traced program asks hosts it does not control. What a host answers, or throws, may depend on
everything that happened before, so a program is a function of the history of events, and a property
of all hosts is a property of the events a run appends. `Emits` is that property, `Yields` is about
the answer alone, and `Succeeds` says that there is one after any history, each with one rule for each
way to build a program. -/
namespace AvenOS.EffectTrace

/-- A program over events `E` that answers or throws, and the history it leaves. -/
def Traced (E ε α : Type) : Type := List E → Except ε α × List E

variable {E ε α β γ : Type}

namespace Traced

def pure (a : α) : Traced E ε α := fun history => (.ok a, history)

def throw (e : ε) : Traced E ε α := fun history => (.error e, history)

def bind (x : Traced E ε α) (f : α → Traced E ε β) : Traced E ε β := fun history =>
  match x history with
  | (.ok a, history) => f a history
  | (.error e, history) => (.error e, history)

instance : Monad (Traced E ε) where
  pure := Traced.pure
  bind := Traced.bind

/-- A computation that asks nobody. -/
def lift (x : Except ε α) : Traced E ε α := fun history => (x, history)

def ask (answer : List E → Except ε α) (event : Except ε α → E) : Traced E ε α := fun history =>
  (answer history, history ++ [event (answer history)])

/-- `try x finally cleanup`: a cleanup that throws replaces the outcome. -/
def ensuring (x : Traced E ε α) (cleanup : Traced E ε Unit) : Traced E ε α := fun history =>
  match x history with
  | (outcome, history) =>
    match cleanup history with
    | (.ok _, history) => (outcome, history)
    | (.error e, history) => (.error e, history)

/-- Programs one after another, whatever the others do. -/
def runAll : List (Traced E ε α) → List E → List (Except ε α) × List E
  | [], history => ([], history)
  | x :: xs, history =>
    let (r, history) := x history
    let (rs, history) := runAll xs history
    (r :: rs, history)

def answers (rs : List (Except ε α)) : List α :=
  rs.filterMap fun
    | .ok a => some a
    | .error _ => none

def errors (rs : List (Except ε α)) : List ε :=
  rs.filterMap fun
    | .ok _ => none
    | .error e => some e

def collect (earliest : Nat) (rs : List (Except ε α)) : Except ε (List α) :=
  match errors rs with
  | [] => .ok (answers rs)
  | e :: es => .error (((e :: es)[earliest]?).getD e)

/-- `Promise.all`: everything is started, and the earliest rejection is thrown. -/
def all (earliest : List E → Nat) (xs : List (Traced E ε α)) : Traced E ε (List α) := fun history =>
  match runAll xs history with
  | (rs, history) => (collect (earliest history) rs, history)

end Traced

/-! ## The events of a run -/

/-- After this history the program appends events, which with its outcome satisfy `Q`. -/
def Emits (x : Traced E ε α) (history : List E) (Q : Except ε α → List E → Prop) : Prop :=
  ∃ events, (x history).2 = history ++ events ∧ Q (x history).1 events

variable {history : List E} {x : Traced E ε α} {f : α → Traced E ε β}
  {P Q : Except ε α → List E → Prop} {R : Except ε β → List E → Prop}

theorem Emits.mono (h : Emits x history P) (hPQ : ∀ r events, P r events → Q r events) : Emits x history Q := by
  obtain ⟨events, hhistory, hP⟩ := h
  exact ⟨events, hhistory, hPQ _ _ hP⟩

variable {a : α} {e : ε} {r : Except ε α} {answer : List E → Except ε α} {event : Except ε α → E}
  {rs : List (Except ε α)} {program : β → Traced E ε α} {earliest : List E → Nat}

theorem emits_pure (h : Q (.ok a) []) : Emits (pure a) history Q := ⟨[], (List.append_nil history).symm, h⟩

theorem emits_throw (h : Q (.error e) []) : Emits (Traced.throw e) history Q := ⟨[], (List.append_nil history).symm, h⟩

theorem emits_lift (h : Q r []) : Emits (Traced.lift r) history Q := ⟨[], (List.append_nil history).symm, h⟩

theorem emits_ask (h : ∀ r, answer history = r → Q r [event r]) : Emits (Traced.ask answer event) history Q :=
  ⟨[event (answer history)], rfl, h _ rfl⟩

theorem Emits.bind (h : Emits x history P) (hok : ∀ a events, P (.ok a) events →
      Emits (f a) (history ++ events) fun r more => R r (events ++ more))
    (herror : ∀ e events, P (.error e) events → R (.error e) events) : Emits (x >>= f) history R := by
  obtain ⟨events, hhistory, hP⟩ := h
  unfold Emits
  change ∃ new, (Traced.bind x f history).2 = history ++ new ∧ R (Traced.bind x f history).1 new
  unfold Traced.bind
  rcases hx : x history with ⟨r, history'⟩
  rw [hx] at hhistory hP
  dsimp only at hhistory hP
  subst hhistory
  cases r with
  | ok a =>
    obtain ⟨more, hmore, hR⟩ := hok a events hP
    exact ⟨events ++ more, by rw [hmore, List.append_assoc], hR⟩
  | error e => exact ⟨events, rfl, herror e events hP⟩

theorem emits_lift_bind (hok : ∀ a, r = .ok a → Emits (f a) history R) (herror : ∀ e, r = .error e → R (.error e) []) :
    Emits (Traced.lift r >>= f) history R := by
  refine Emits.bind (P := fun r' events => r' = r ∧ events = []) (emits_lift ⟨rfl, rfl⟩) ?_ ?_
  · rintro a events ⟨hr, rfl⟩
    rw [List.append_nil]
    exact hok a hr.symm
  · rintro e events ⟨hr, rfl⟩
    exact herror e hr.symm

theorem emits_ask_bind (hok : ∀ a, Emits (f a) (history ++ [event (.ok a)]) fun r more => R r (event (.ok a) :: more))
    (herror : ∀ e, R (.error e) [event (.error e)]) : Emits (Traced.ask answer event >>= f) history R := by
  refine Emits.bind (P := fun r events => events = [event r]) (emits_ask fun _ _ => rfl) ?_ ?_
  · rintro a events rfl
    exact hok a
  · rintro e events rfl
    exact herror e

theorem Emits.ensuring {cleanup : Traced E ε Unit} (h : Emits x history P) (hcleanup : ∀ r events, P r events →
      Emits cleanup (history ++ events) fun c more =>
        (c = .ok () → Q r (events ++ more)) ∧ ∀ e, c = .error e → Q (.error e) (events ++ more)) :
    Emits (Traced.ensuring x cleanup) history Q := by
  obtain ⟨events, hhistory, hP⟩ := h
  unfold Emits Traced.ensuring
  rcases hx : x history with ⟨r, history'⟩
  rw [hx] at hhistory hP
  dsimp only at hhistory hP
  subst hhistory
  obtain ⟨more, hmore, hok, herror⟩ := hcleanup r events hP
  rcases hc : cleanup (history ++ events) with ⟨c, history''⟩
  rw [hc] at hmore hok herror
  dsimp only at hmore hok herror
  subst hmore
  simp only [hc]
  cases c with
  | ok _ => exact ⟨events ++ more, List.append_assoc _ _ _, hok rfl⟩
  | error e => exact ⟨events ++ more, List.append_assoc _ _ _, herror e rfl⟩

theorem collect_map_ok (earliest : Nat) (l : List α) : Traced.collect (ε := ε) earliest (l.map .ok) = .ok l := by
  have herrors : Traced.errors (l.map (Except.ok (ε := ε))) = [] := by
    simp [Traced.errors, List.filterMap_map]
  have hanswers : Traced.answers (l.map (Except.ok (ε := ε))) = l := by
    simp [Traced.answers, List.filterMap_map]
  unfold Traced.collect
  rw [herrors, hanswers]

variable {l : List α} {σ : Type} {body : σ → α → Traced E ε σ} {s : σ}

theorem collect_ok {earliest : Nat} (h : Traced.collect earliest rs = .ok l) : rs = l.map .ok := by
  unfold Traced.collect at h
  cases herrors : Traced.errors rs with
  | cons e es =>
    rw [herrors] at h
    cases h
  | nil =>
    rw [herrors] at h
    cases h
    induction rs with
    | nil => rfl
    | cons r rs ih =>
      cases r with
      | error e => cases herrors
      | ok a => exact congrArg _ (ih herrors)

theorem collect_error {earliest : Nat} (h : Traced.collect earliest rs = .error e) : .error e ∈ rs := by
  have hmem : ∀ e, e ∈ Traced.errors rs → .error e ∈ rs := by
    intro e he
    obtain ⟨r, hr, hre⟩ := List.mem_filterMap.mp he
    cases r with
    | ok a => cases hre
    | error e' =>
      cases hre
      exact hr
  unfold Traced.collect at h
  cases herrors : Traced.errors rs with
  | nil =>
    rw [herrors] at h
    cases h
  | cons first es =>
    rw [herrors] at h
    cases h
    rw [herrors] at hmem
    apply hmem
    cases hat : (first :: es)[earliest]? with
    | none => exact List.mem_cons_self
    | some e => exact List.mem_of_getElem? hat

theorem runAll_cons (x : Traced E ε α) (xs : List (Traced E ε α)) (history : List E) : Traced.runAll (x :: xs) history =
      ((x history).1 :: (Traced.runAll xs (x history).2).1, (Traced.runAll xs (x history).2).2) := rfl

theorem emits_all {l : List β} {Q : β → Except ε α → List E → Prop}
    (heach : ∀ b ∈ l, ∀ history, Emits (program b) history (Q b)) :
    Emits (Traced.all earliest (l.map program)) history fun r events => ∃ parts : List (Except ε α × List E),
        List.Forall₂ (fun b part => Q b part.1 part.2) l parts ∧ events = (parts.map Prod.snd).flatten ∧
        (∀ answers, r = .ok answers → parts.map Prod.fst = answers.map .ok) ∧
        (∀ answers, parts.map Prod.fst = answers.map .ok → r = .ok answers) ∧
        ∀ e, r = .error e → .error e ∈ parts.map Prod.fst := by
  have hrun : ∀ history, ∃ parts : List (Except ε α × List E), List.Forall₂ (fun b part => Q b part.1 part.2) l parts ∧
      Traced.runAll (l.map program) history = (parts.map Prod.fst, history ++ (parts.map Prod.snd).flatten) := by
    induction l with
    | nil => exact fun history => ⟨[], .nil, by simp [Traced.runAll]⟩
    | cons b l ih =>
      intro history
      obtain ⟨events, hevents, hQ⟩ := heach b List.mem_cons_self history
      obtain ⟨parts, hparts, hrest⟩ := ih (fun b hb => heach b (List.mem_cons_of_mem _ hb)) (history ++ events)
      refine ⟨((program b history).1, events) :: parts, .cons hQ hparts, ?_⟩
      rw [List.map_cons, runAll_cons, hevents, hrest]
      simp [List.append_assoc]
  obtain ⟨parts, hparts, hrun⟩ := hrun history
  refine ⟨(parts.map Prod.snd).flatten, ?_, parts, hparts, rfl, ?_, ?_, ?_⟩
  · simp only [Traced.all, hrun]
  · intro answers h
    simp only [Traced.all, hrun] at h
    exact collect_ok h
  · intro answers h
    simp only [Traced.all, hrun, h]
    exact collect_map_ok _ _
  · intro e h
    simp only [Traced.all, hrun] at h
    exact collect_error h

theorem emits_all_ok {l : List β} {S : E → Prop} {T : List E → β → α → Prop}
    (hgrow : ∀ events more b a, T events b a → events ⊆ more → T more b a)
    (heach : ∀ b ∈ l, ∀ history, Emits (program b) history fun r events =>
      (∀ e ∈ events, S e) ∧ ∀ a, r = .ok a → T events b a) :
    Emits (Traced.all earliest (l.map program)) history fun r events =>
      (∀ e ∈ events, S e) ∧ ∀ answers, r = .ok answers → List.Forall₂ (T events) l answers := by
  refine (emits_all heach).mono ?_
  rintro r events ⟨parts, hparts, rfl, hok, -, -⟩
  constructor
  · clear hok
    induction hparts with
    | nil => simp
    | cons hpart _ ih =>
      intro e he
      rw [List.map_cons, List.flatten_cons, List.mem_append] at he
      exact he.elim (hpart.1 e) (ih (fun b hb => heach b (List.mem_cons_of_mem _ hb)) e)
  · intro answers hr
    have hall := hok answers hr
    clear hok hr
    have hsub : ∀ part ∈ parts, part.2 ⊆ (parts.map Prod.snd).flatten := fun part hpart e he =>
      List.mem_flatten.mpr ⟨part.2, List.mem_map_of_mem hpart, he⟩
    revert hsub
    generalize (parts.map Prod.snd).flatten = total
    intro hsub
    induction hparts generalizing answers with
    | nil =>
      cases answers with
      | nil => exact .nil
      | cons _ _ => cases hall
    | cons hpart _ ih =>
      cases answers with
      | nil => cases hall
      | cons a answers =>
        rw [List.map_cons, List.map_cons, List.cons.injEq] at hall
        exact .cons (hgrow _ _ _ _ (hpart.2 a hall.1) (hsub _ List.mem_cons_self))
          (ih (fun b hb => heach b (List.mem_cons_of_mem _ hb)) answers hall.2
            fun part hp => hsub part (List.mem_cons_of_mem _ hp))

theorem emits_foldlM {I : List α → σ → List E → Prop}
    {R : Except ε σ → List E → Prop} {done : List α} {before : List E}
    (hstart : I done s before)
    (hround : ∀ done' s before a rest, done ++ l = done' ++ a :: rest → I done' s before →
      Emits (body s a) (history ++ before) fun r events =>
        match r with
        | .ok s' => I (done' ++ [a]) s' (before ++ events)
        | .error e => R (.error e) (before ++ events))
    (hend : ∀ s before, I (done ++ l) s before → R (.ok s) before) :
    Emits (l.foldlM body s) (history ++ before) fun r events => R r (before ++ events) := by
  induction l generalizing s done before with
  | nil =>
    refine emits_pure ?_
    rw [List.append_nil]
    exact hend s before (by rw [List.append_nil]; exact hstart)
  | cons a l ih =>
    rw [List.foldlM_cons]
    have hsplit : done ++ a :: l = (done ++ [a]) ++ l := by simp
    refine (hround done s before a l rfl hstart).bind ?_ ?_
    · intro s' events hI
      have hrest := ih hI (fun done' s before b rest hl => hround done' s before b rest (hsplit ▸ hl))
        fun s before hs => hend s before (hsplit ▸ hs)
      rw [List.append_assoc]
      exact hrest.mono fun r more hR => by rwa [List.append_assoc] at hR
    · intro e events hR
      exact hR

theorem emits_loop {I : List α → σ → List E → Prop} {R : Except ε σ → List E → Prop} (hstart : I [] s [])
    (hround : ∀ done s before a rest, l = done ++ a :: rest → I done s before →
      Emits (body s a) (history ++ before) fun r events =>
        match r with
        | .ok s' => I (done ++ [a]) s' (before ++ events)
        | .error e => R (.error e) (before ++ events))
    (hend : ∀ s before, I l s before → R (.ok s) before) :
    Emits (l.foldlM body s) history R := by
  have hloop := emits_foldlM (R := R) hstart hround hend
  rwa [List.append_nil] at hloop

theorem bind_run (x : Traced E ε α) (f : α → Traced E ε β) (history : List E) : (x >>= f) history = match x history with
      | (.ok a, history) => f a history
      | (.error e, history) => (.error e, history) := rfl

theorem foldlM_snoc_run {s' : σ} {history' : List E} (h : l.foldlM body s history = (.ok s', history')) :
    (l ++ [a]).foldlM body s history = body s' a history' := by
  induction l generalizing s history with
  | nil =>
    cases h
    rw [List.nil_append, List.foldlM_cons, bind_run]
    rcases body s' a history' with ⟨r, history''⟩
    cases r <;> rfl
  | cons b l ih =>
    rw [List.foldlM_cons, bind_run] at h
    rw [List.cons_append, List.foldlM_cons, bind_run]
    rcases hb : body s b history with ⟨r, history''⟩
    rw [hb] at h
    cases r with
    | ok s'' => exact ih h
    | error e => cases h

theorem Emits.outcome (h : Emits x history Q) :
    Emits x history fun r events => Q r events ∧ x history = (r, history ++ events) := by
  obtain ⟨events, hhistory, hQ⟩ := h
  exact ⟨events, hhistory, hQ, Prod.ext rfl hhistory⟩

/-! ## Answers, whatever happens -/

/-- If the program answers, its answer satisfies `A`. -/
def Yields (x : Traced E ε α) (A : α → Prop) : Prop :=
  ∀ history a history', x history = (.ok a, history') → A a

section Yields
variable {A : α → Prop} {B : β → Prop}

theorem yields_pure {a : α} (h : A a) : Yields (pure a : Traced E ε α) A := by
  intro history a' history' hrun
  cases hrun
  exact h

theorem yields_lift {r : Except ε α} (h : ∀ a, r = .ok a → A a) : Yields (Traced.lift r : Traced E ε α) A := by
  intro history a history' hrun
  exact h a (congrArg Prod.fst hrun)

theorem yields_any (x : Traced E ε α) : Yields x fun _ => True := fun _ _ _ _ => trivial

theorem Yields.bind (hx : Yields x A) (hf : ∀ a, A a → Yields (f a) B) : Yields (x >>= f) B := by
  intro history b history' hrun
  rw [bind_run] at hrun
  rcases hx' : x history with ⟨r, history''⟩
  rw [hx'] at hrun
  cases r with
  | error e => cases hrun
  | ok a => exact hf a (hx _ _ _ hx') _ _ _ hrun

theorem yields_loop {σ : Type} {body : σ → α → Traced E ε σ} {I : σ → Prop} {l : List α} {s : σ}
    (hstart : I s) (hround : ∀ s, ∀ a ∈ l, I s → Yields (body s a) I) : Yields (l.foldlM body s) I := by
  induction l generalizing s with
  | nil => exact yields_pure hstart
  | cons a l ih =>
    rw [List.foldlM_cons]
    exact (hround s a List.mem_cons_self hstart).bind fun s' hs' =>
      ih hs' fun s b hb => hround s b (List.mem_cons_of_mem a hb)

end Yields

/-! ## Programs that succeed -/

/-- After any history the program answers, and its answer satisfies `A`. -/
def Succeeds (x : Traced E ε α) (A : α → Prop) : Prop :=
  ∀ history, ∃ a history', x history = (.ok a, history') ∧ A a

/-- After any history there is a budget from which on the program answers with a result. -/
def SucceedsEventually (x : Nat → Traced E ε (Option α)) (A : α → Prop) : Prop :=
  ∀ history, ∃ enough, ∀ budget ≥ enough, ∃ a history', x budget history = (.ok (some a), history') ∧
    A a

section Succeeds
variable {A : α → Prop} {B : β → Prop}

theorem succeeds_pure {a : α} (h : A a) : Succeeds (pure a : Traced E ε α) A := fun history => ⟨a, history, rfl, h⟩

theorem succeeds_lift {r : Except ε α} {a : α} (hr : r = .ok a) (h : A a) : Succeeds (Traced.lift r : Traced E ε α) A :=
  fun history => ⟨a, history, by rw [hr]; rfl, h⟩

theorem succeeds_ask {answer : List E → Except ε α} {event : Except ε α → E}
    (h : ∀ history, ∃ a, answer history = .ok a ∧ A a) : Succeeds (Traced.ask answer event) A := by
  intro history
  obtain ⟨a, ha, hA⟩ := h history
  exact ⟨a, _, by rw [Traced.ask, ha], hA⟩

theorem Succeeds.bind (hx : Succeeds x A) (hf : ∀ a, A a → Succeeds (f a) B) : Succeeds (x >>= f) B := by
  intro history
  obtain ⟨a, history', hrun, hA⟩ := hx history
  obtain ⟨b, history'', hrun', hB⟩ := hf a hA history'
  exact ⟨b, history'', by rw [bind_run, hrun]; exact hrun', hB⟩

theorem Succeeds.bind_eventually {f : Nat → α → Traced E ε (Option β)} (hx : Succeeds x A)
    (hf : ∀ a, A a → SucceedsEventually (fun budget => f budget a) B) :
    SucceedsEventually (fun budget => x >>= f budget) B := by
  intro history
  obtain ⟨a, history', hrun, hA⟩ := hx history
  obtain ⟨enough, henough⟩ := hf a hA history'
  refine ⟨enough, fun budget hbudget => ?_⟩
  obtain ⟨b, history'', hrun', hB⟩ := henough budget hbudget
  exact ⟨b, history'', by simp only [bind_run, hrun, hrun'], hB⟩

theorem eventually_pure {result : Nat → Option α} (h : ∃ enough, ∀ budget ≥ enough, (result budget).isSome = true) :
    SucceedsEventually (fun budget => (pure (result budget) : Traced E ε (Option α))) fun _ => True := by
  obtain ⟨enough, henough⟩ := h
  refine fun history => ⟨enough, fun budget hbudget => ?_⟩
  obtain ⟨a, ha⟩ := Option.isSome_iff_exists.mp (henough budget hbudget)
  exact ⟨a, history, congrArg (fun r => (Except.ok r, history)) ha, trivial⟩

theorem SucceedsEventually.map_some {x : Nat → Traced E ε (Option α)} {g : α → β}
    (hx : SucceedsEventually x A) (hg : ∀ a, A a → B (g a)) :
    SucceedsEventually (fun budget => x budget >>= fun a => pure (a.map g)) B := by
  intro history
  obtain ⟨enough, henough⟩ := hx history
  refine ⟨enough, fun budget hbudget => ?_⟩
  obtain ⟨a, history', hrun, hA⟩ := henough budget hbudget
  exact ⟨g a, history', by simp only [bind_run, hrun]; rfl, hg a hA⟩

theorem Succeeds.emits (hx : Succeeds x A) (h : Emits x history Q) :
    Emits x history fun r events => ∃ a, r = .ok a ∧ A a ∧ Q r events := by
  obtain ⟨a, history', hrun, hA⟩ := hx history
  obtain ⟨events, hevents, hQ⟩ := h
  exact ⟨events, hevents, a, by rw [hrun], hA, hQ⟩

theorem Succeeds.ensuring {cleanup : Traced E ε Unit} (hx : Succeeds x A)
    (hcleanup : Succeeds cleanup fun _ => True) : Succeeds (Traced.ensuring x cleanup) A := by
  intro history
  obtain ⟨a, history', hrun, hA⟩ := hx history
  obtain ⟨_, history'', hrun', -⟩ := hcleanup history'
  exact ⟨a, history'', by simp only [Traced.ensuring, hrun, hrun'], hA⟩

theorem succeeds_all {program : β → Traced E ε α} {earliest : List E → Nat} {l : List β}
    {T : β → α → Prop} (heach : ∀ b ∈ l, Succeeds (program b) (T b)) :
    Succeeds (Traced.all earliest (l.map program)) (List.Forall₂ T l) := by
  have hrun : ∀ history, ∃ answers history', Traced.runAll (l.map program) history = (answers.map .ok, history') ∧
        List.Forall₂ T l answers := by
    induction l with
    | nil => exact fun history => ⟨[], history, rfl, .nil⟩
    | cons b l ih =>
      intro history
      obtain ⟨a, history', hb, hT⟩ := heach b List.mem_cons_self history
      obtain ⟨answers, history'', hl, hall⟩ := ih (fun b hb => heach b (List.mem_cons_of_mem _ hb)) history'
      exact ⟨a :: answers, history'', by rw [List.map_cons, runAll_cons, hb, hl]; rfl, .cons hT hall⟩
  intro history
  obtain ⟨answers, history', hanswers, hall⟩ := hrun history
  exact ⟨answers, history', by simp only [Traced.all, hanswers, collect_map_ok], hall⟩

theorem succeeds_loop {σ : Type} {body : σ → α → Traced E ε σ} {I : List α → σ → Prop}
    {l : List α} {s : σ} (hstart : I [] s) (hround : ∀ done s a rest, l = done ++ a :: rest → I done s →
      Succeeds (body s a) (I (done ++ [a]))) : Succeeds (l.foldlM body s) (I l) := by
  have hgeneral : ∀ done s rest, l = done ++ rest → I done s → Succeeds (rest.foldlM body s) (I l) := by
    intro done s rest hl hI
    induction rest generalizing done s with
    | nil =>
      rw [List.append_nil] at hl
      exact succeeds_pure (hl ▸ hI)
    | cons a rest ih =>
      rw [List.foldlM_cons]
      exact (hround done s a rest hl hI).bind fun s' hs' => ih (done ++ [a]) s' (by simpa using hl) hs'
  exact hgeneral [] s l rfl hstart

end Succeeds

end AvenOS.EffectTrace
