import AvenOS.Actors.PlanExecutor
import AvenOS.Actors.ExecutorSafety

/-! # A step with a host that behaves

The slots of a capability that take what its contract says, the values that publications add, and
the promises of a host: with them the executor resolves the inputs of a planned step, and the actor
of its factory leaves drafts of all planned outputs. -/
namespace AvenOS.Actors
open EffectTrace ExceptLoop Text

/-! ## Well-formed slots -/

/-- A slot that takes every value of its contract, with the schema of the contract's functor. -/
structure WellFormedSlot (schemaOf : String → String) (slot : CapabilitySlot) (p : Predicate) :
    Prop where
  single : slot.cardinality = .one
  schema : slot.schema = some (schemaOf (parseTerm p).functor)
  schema_ne : schemaOf (parseTerm p).functor ≠ ""
  nonblank : trim p ≠ ""
  accepts : ∀ q, unifiable p q = true → unifiable slot.predicate q = true
  named : slot.name ≠ "__proto__"

/-- Every predicate of the contract has its slot. -/
structure WellFormedSlots (schemaOf : String → String) (capability : Capability) : Prop where
  inputs : ∃ slots, capability.inputSlots = some slots ∧
    List.Forall₂ (WellFormedSlot schemaOf) slots capability.requires
  outputs : ∃ slots, capability.outputSlots = some slots ∧
    List.Forall₂ (WellFormedSlot schemaOf) slots capability.produces

def PortableValue (value : JsValue) : Prop := ∀ path, assertPortableRunValue value path = .ok ()

/-- An artifact that stands for a fact. -/
structure Commits (schemaOf : String → String) (artifact : RuntimeArtifact) (p : Predicate) :
    Prop where
  proves : ∀ q, unifiable q p = true → unifiable q artifact.predicate = true
  schema : artifact.schema = schemaOf (parseTerm p).functor
  portable : PortableValue artifact.value

theorem demand_true {condition : Bool} {complaint : String} (h : condition = true) :
    demand condition complaint = .ok () := by
  rw [h]
  rfl

theorem forall₂_getElem? {α β : Type} {R : α → β → Prop} {l : List α} {l' : List β}
    (h : List.Forall₂ R l l') {i : ℕ} {b : β} (hb : l'[i]? = some b) : ∃ a, l[i]? = some a ∧ R a b := by
  induction h generalizing i with
  | nil => cases hb
  | cons hab _ ih =>
    cases i with
    | zero =>
      cases hb
      exact ⟨_, rfl, hab⟩
    | succ i => exact ih hb

section Slots
variable {schemaOf : String → String} {slots : List CapabilitySlot} {predicates : List Predicate}

theorem WellFormedSlot.valid {slot : CapabilitySlot} {p : Predicate}
    (h : WellFormedSlot schemaOf slot p) (kind : String) : validateDeclaredSlot kind slot p = .ok () := by
  have hp : p ≠ "" := by
    rintro rfl
    exact h.nonblank (by decide)
  unfold validateDeclaredSlot
  rw [demand_true (by simp [h.single]), demand_true (by simp [h.schema, truthy, h.schema_ne]),
    demand_true (by simp [hp, h.accepts p (unifiable_self p)])]
  rfl

theorem validateDeclaredSlots_ok (kind : String) (h : List.Forall₂ (WellFormedSlot schemaOf) slots predicates) :
    validateDeclaredSlots kind (some slots) predicates = .ok () := by
  unfold validateDeclaredSlots
  dsimp only
  rw [demand_true (by simp [h.length_eq])]
  exact forM_all_ok fun pair hpair => (List.forall₂_zip h hpair).valid kind

variable {artifacts : List RuntimeArtifact}

variable {inputs : List PlanValue} {capability : Capability}

theorem forall₂_fits (hslots : List.Forall₂ (WellFormedSlot schemaOf) slots predicates)
    (haccepted : List.Forall₂ (fun p (v : PlanValue) => unifiable p v.predicate = true) predicates inputs)
    (hcommitted : List.Forall₂ (fun (v : PlanValue) artifact => Commits schemaOf artifact v.predicate)
      inputs artifacts) : List.Forall₂ (fun (slot : CapabilitySlot) (artifact : RuntimeArtifact) =>
      truthy slot.schema = some artifact.schema ∧
        unifiable slot.predicate artifact.predicate = true) slots artifacts := by
  induction hslots generalizing inputs artifacts with
  | nil =>
    cases haccepted
    cases hcommitted
    exact .nil
  | @cons slot p slots predicates hslot _ ih =>
    cases haccepted with
    | @cons _ v _ inputs hv haccepted =>
      cases hcommitted with
      | @cons _ artifact _ artifacts hartifact hcommitted =>
        refine .cons ⟨?_, hartifact.proves _ (hslot.accepts _ hv)⟩ (ih haccepted hcommitted)
        obtain ⟨σ, hσ⟩ := unifiable_iff.1 hv
        rw [hartifact.schema, ← hσ.1, hslot.schema]
        simp [truthy, hslot.schema_ne]

theorem validateSlots_ok (hslots : List.Forall₂ (WellFormedSlot schemaOf) slots predicates)
    (haccepted : List.Forall₂ (fun p (v : PlanValue) => unifiable p v.predicate = true) predicates inputs)
    (hcommitted : List.Forall₂ (fun (v : PlanValue) artifact => Commits schemaOf artifact v.predicate)
      inputs artifacts) : validateSlots "input" (some slots) predicates artifacts = .ok () := by
  unfold validateSlots
  rw [validateDeclaredSlots_ok "input" hslots]
  refine forM_all_ok fun pair hpair => ?_
  obtain ⟨slot, hslot, hschema, hunify⟩ := forall₂_getElem?
    (forall₂_fits hslots haccepted hcommitted) (List.mem_zipIdx_iff_getElem?.mp hpair)
  simp only [Option.getD_some, hslot, validateSlot]
  rw [demand_true (by simp [hschema]), demand_true hunify]
  rfl

theorem bindInputs_ok (hslots : capability.inputSlots = some slots) (hlength : slots.length = artifacts.length) :
    ∃ inputs, bindInputs capability artifacts = .ok inputs ∧ ∀ input ∈ inputs,
      (∃ slot ∈ slots, input.slot = slot.name) ∧ input.artifact ∈ artifacts := by
  have hbind : ∀ slot ∈ slots.zipIdx, ∃ input, bindInput capability artifacts slot = .ok input ∧
      ((∃ slot ∈ slots, input.slot = slot.name) ∧ input.artifact ∈ artifacts) := by
    rintro ⟨slot, index⟩ hslot
    have hat := List.mem_zipIdx_iff_getElem?.mp hslot
    have hlt : index < artifacts.length := by
      rw [← hlength]
      exact (List.getElem?_eq_some_iff.mp hat).1
    refine ⟨⟨slot.name, slot.role.getD slot.name, artifacts[index]⟩, ?_,
      ⟨slot, List.mem_of_getElem? hat, rfl⟩, List.getElem_mem hlt⟩
    simp only [bindInput, List.getElem?_eq_getElem hlt]
  obtain ⟨inputs, hinputs, hall⟩ := mapM_all_ok hbind
  refine ⟨inputs, by rw [bindInputs, hslots]; exact hinputs, fun input hinput => ?_⟩
  obtain ⟨index, hindex⟩ := List.mem_iff_getElem?.mp hinput
  obtain ⟨slot, -, hok⟩ := forall₂_getElem? hall hindex
  exact hok

def DraftFor (schemaOf : String → String) (draft : RuntimeOutputDraft) (v : PlanValue) : Prop :=
  draft.predicate = v.predicate ∧ draft.schema = schemaOf (parseTerm v.predicate).functor

theorem outputDrafts_ok {step : PhysicalPlanStep} {result : ActorStepResult}
    (hdeclared : capability.outputSlots = some slots)
    (hslots : List.Forall₂ (WellFormedSlot schemaOf) slots capability.produces)
    (hproduced : List.Forall₂ (fun p (v : PlanValue) =>
      (parseTerm v.predicate).functor = (parseTerm p).functor ∧ (trim p ≠ "" → v.predicate ≠ ""))
      capability.produces step.outputs)
    (hcovered : ∀ slot ∈ slots, ∃ value, result.outputs.lookup slot.name = some value)
    (hknown : ∀ field ∈ result.outputs, ∃ slot ∈ slots, slot.name = field.1) :
    ∃ drafts, outputDrafts capability step result = .ok drafts ∧
      List.Forall₂ (DraftFor schemaOf) drafts step.outputs := by
  have hdraft : ∀ slot ∈ slots.zipIdx, ∃ draft, outputDraft capability step result slot = .ok draft ∧
      ∃ v, step.outputs[slot.2]? = some v ∧ DraftFor schemaOf draft v := by
    rintro ⟨slot, index⟩ hmem
    have hslot := List.mem_zipIdx_iff_getElem?.mp hmem
    obtain ⟨p, hp, hwell⟩ := forall₂_getElem? hslots.flip hslot
    obtain ⟨v, hv, hfunctor, hne⟩ := forall₂_getElem? hproduced.flip hp
    obtain ⟨value, hvalue⟩ := hcovered slot (List.mem_of_getElem? hslot)
    have hown : (result.outputs.any fun field => field.1 == slot.name) = true :=
      List.any_eq_true.mpr ⟨_, mem_of_lookup hvalue, by simp⟩
    refine ⟨⟨slot.name, slot.role.getD slot.name, v.predicate, schemaOf (parseTerm p).functor,
      valueAt result.outputs slot.name⟩, ?_, v, hv, rfl, by rw [hfunctor]⟩
    have hpredicate : truthy (step.outputs[index]?.map PlanValue.predicate) = some v.predicate := by
      simp [hv, truthy, hne hwell.nonblank]
    have hschema : truthy slot.schema = some (schemaOf (parseTerm p).functor) := by
      have hslot_schema : slot.schema = some (schemaOf (parseTerm p).functor) := hwell.schema
      simp [hslot_schema, truthy, hwell.schema_ne]
    unfold outputDraft
    rw [demand_true (by simp [hasName, hown])]
    simp only [hpredicate, hschema]
    rfl
  obtain ⟨drafts, hdrafts, hall⟩ := mapM_all_ok hdraft
  refine ⟨drafts, ?_, ?_⟩
  · have hnone : (result.outputs.find? fun field => !slots.any fun slot => slot.name == field.1) =
        none := by
      refine List.find?_eq_none.mpr fun field hfield => ?_
      obtain ⟨slot, hslot, hname⟩ := hknown field hfield
      have hany : (slots.any fun slot => slot.name == field.1) = true :=
        List.any_eq_true.mpr ⟨slot, hslot, by simp [hname]⟩
      simp [hany]
    unfold outputDrafts
    rw [hdeclared, validateDeclaredSlots_ok "output" hslots]
    simp only [Option.getD_some, hnone]
    exact hdrafts
  · have hlength : drafts.length = step.outputs.length := by
      rw [← hall.length_eq, List.length_zipIdx, hslots.length_eq, hproduced.length_eq]
    refine List.forall₂_iff_get.mpr ⟨hlength, fun i h₁ h₂ => ?_⟩
    obtain ⟨⟨slot, index⟩, hslot, v, hv, hdraft⟩ := forall₂_getElem? hall (List.getElem?_eq_getElem h₁)
    rw [List.getElem?_zipIdx] at hslot
    obtain ⟨_, -, hpair⟩ := Option.map_eq_some_iff.mp hslot
    obtain ⟨rfl, rfl⟩ := Prod.mk.inj hpair
    rw [Nat.zero_add, List.getElem?_eq_getElem h₂] at hv
    cases hv
    exact hdraft

end Slots

/-! ## Published values -/

variable {α : Type} {record : List (String × α)} {name : String}

variable {other : String} {value : α} {more : List (String × α)} {inputs : List RuntimeInputBinding}

theorem lookup_replace : (record.map fun field => if field.1 == name then (name, value) else field).lookup other =
      if other = name then (record.lookup name).map fun _ => value else record.lookup other := by
  induction record with
  | nil => simp
  | cons field record ih =>
    rw [List.map_cons, List.lookup_cons, ih]
    grind

theorem lookup_isSome_of_any : (record.lookup name).isSome = record.any fun field => field.1 == name := by
  induction record with
  | nil => rfl
  | cons field record ih =>
    rw [List.lookup_cons, List.any_cons, ← ih, Bool.beq_comm]
    cases field.1 == name <;> rfl

theorem lookup_assign : (assign record name value).lookup other =
      if other = name then some value else record.lookup other := by
  unfold assign
  rw [← lookup_isSome_of_any]
  cases hlookup : record.lookup name with
  | none =>
    rw [Option.isSome_none, if_neg Bool.false_ne_true, List.lookup_append, List.lookup_cons]
    grind
  | some old =>
    rw [Option.isSome_some, if_pos rfl, lookup_replace, hlookup]
    rfl

theorem lookup_spread_of_notMem (h : name ∉ more.map Prod.fst) :
    (spread record more).lookup name = record.lookup name := by
  unfold spread
  induction more generalizing record with
  | nil => rfl
  | cons field more ih =>
    rw [List.map_cons, List.mem_cons, not_or] at h
    rw [List.foldl_cons, ih h.2, lookup_assign, if_neg h.1]

theorem lookup_spread_of_mem {field : String × α} (hnodup : (more.map Prod.fst).Nodup) (h : field ∈ more) :
    (spread record more).lookup field.1 = some field.2 := by
  induction more generalizing record with
  | nil => cases h
  | cons first more ih =>
    rw [List.map_cons, List.nodup_cons] at hnodup
    rcases List.mem_cons.mp h with rfl | h
    · have hrest : (spread (assign record field.1 field.2) more).lookup field.1 = some field.2 := by
        rw [lookup_spread_of_notMem hnodup.1, lookup_assign, if_pos rfl]
      exact hrest
    · exact ih hnodup.2 h

structure Publishes (draft : RuntimeOutputDraft) (artifact : RuntimeArtifact) : Prop where
  proves : ∀ q, unifiable q draft.predicate = true → unifiable q artifact.predicate = true
  schema : artifact.schema = draft.schema
  portable : PortableValue artifact.value

def Resolvable (schemaOf : String → String) (done : List PhysicalPlanStep) (values : Values) :
    Prop :=
  ∀ step ∈ done, ∀ output v, step.outputs[output]? = some v → ∃ artifact,
    values.lookup (stepValueKey step.id output) = some artifact ∧
      Commits schemaOf artifact v.predicate

/-- The entries a publication adds. -/
def publishedValues (step : PhysicalPlanStep) (publication : List RuntimeArtifact) : Values :=
  (publication.zip step.outputs).zipIdx.map fun output =>
    (stepValueKey step.id output.2, output.1.1)

section Publish
variable {schemaOf : String → String} {step : PhysicalPlanStep} {done : List PhysicalPlanStep}
  {drafts : List RuntimeOutputDraft} {publication : List RuntimeArtifact} {values : Values}

theorem publishedValues_nodup : ((publishedValues step publication).map Prod.fst).Nodup := by
  have hkeys : (publishedValues step publication).map Prod.fst =
      ((publication.zip step.outputs).zipIdx.map Prod.snd).map (stepValueKey step.id) := by
    rw [publishedValues, List.map_map, List.map_map]
    rfl
  rw [hkeys, List.zipIdx_map_snd]
  exact (List.nodup_range' 1).map fun m n h => (stepValueKey_injective h).2

theorem admitPublication_ok (hdrafts : List.Forall₂ (DraftFor schemaOf) drafts step.outputs)
    (hpublication : List.Forall₂ Publishes drafts publication) :
    admitPublication step drafts values publication = .ok (spread values (publishedValues step publication)) := by
  unfold admitPublication
  rw [demand_true (by simp [← hpublication.length_eq, hdrafts.length_eq])]
  have hround : ∀ values, ∀ output ∈ (publication.zip step.outputs).zipIdx, True →
      admitOutput step drafts values output =
        .ok (assign values (stepValueKey step.id output.2) output.1.1) ∧ True := by
    rintro values ⟨⟨artifact, planned⟩, index⟩ hmem -
    refine ⟨?_, trivial⟩
    obtain ⟨hartifact, hplanned⟩ := List.getElem?_zip_eq_some.mp (List.mem_zipIdx_iff_getElem?.mp hmem)
    obtain ⟨draft, hdraft, hpublishes⟩ := forall₂_getElem? hpublication hartifact
    obtain ⟨draft', hdraft', hfor⟩ := forall₂_getElem? hdrafts hplanned
    rw [hdraft] at hdraft'
    cases hdraft'
    have hproves : unifiable planned.predicate artifact.predicate = true :=
      hpublishes.proves _ (hfor.1 ▸ unifiable_self _)
    unfold admitOutput
    dsimp only at hdraft ⊢
    rw [hdraft, hpublishes.portable]
    simp only [assertPublishedOutput]
    rw [demand_true hproves, demand_true (decide_eq_true hpublishes.schema)]
    rfl
  have hloop := foldlM_all_ok (P := fun _ => True) hround (b := values) trivial
  refine hloop.trans ?_
  rw [spread, publishedValues, List.foldl_map]

theorem Resolvable.published (h : Resolvable schemaOf done values) (hfresh : step.id ∉ done.map fun step => step.id)
    (hdrafts : List.Forall₂ (DraftFor schemaOf) drafts step.outputs)
    (hpublication : List.Forall₂ Publishes drafts publication) :
    Resolvable schemaOf (done ++ [step]) (spread values (publishedValues step publication)) := by
  intro earlier hearlier output v hv
  rcases List.mem_append.mp hearlier with hearlier | hearlier
  · obtain ⟨artifact, hlookup, hcommits⟩ := h earlier hearlier output v hv
    refine ⟨artifact, ?_, hcommits⟩
    rw [lookup_spread_of_notMem, hlookup]
    intro hkey
    simp only [publishedValues, List.map_map, List.mem_map] at hkey
    obtain ⟨added, -, hadded⟩ := hkey
    exact hfresh (List.mem_map.mpr ⟨earlier, hearlier, (stepValueKey_injective hadded).1.symm⟩)
  · rw [List.mem_singleton.mp hearlier] at hv ⊢
    obtain ⟨draft, hdraft, hfor⟩ := forall₂_getElem? hdrafts hv
    obtain ⟨artifact, hartifact, hpublishes⟩ := forall₂_getElem? hpublication.flip hdraft
    refine ⟨artifact, ?_, ⟨hfor.1 ▸ hpublishes.proves, hpublishes.schema.trans hfor.2, hpublishes.portable⟩⟩
    have hmem : (stepValueKey step.id output, artifact) ∈ publishedValues step publication :=
      List.mem_map.mpr ⟨((artifact, v), output), List.mem_zipIdx_iff_getElem?.mpr
        (List.getElem?_zip_eq_some.mpr ⟨hartifact, hv⟩), rfl⟩
    exact lookup_spread_of_mem publishedValues_nodup hmem

end Publish

/-! ## Portable payloads -/

theorem portable_text (value : String) : PortableValue (.str value) := fun _ => rfl

theorem portable_number (value : ℚ) : PortableValue (.num value) := fun _ => rfl

theorem portable_obj {fields : Record} (h : ∀ field ∈ fields, PortableValue field.2) : PortableValue (.obj fields) := by
  intro path
  unfold assertPortableRunValue
  induction fields with
  | nil => rfl
  | cons field fields ih =>
    have hfield : assertPortableField field path = .ok () := by
      obtain ⟨key, item⟩ := field
      exact h (key, item) List.mem_cons_self _
    unfold assertPortableFields
    rw [hfield]
    exact ih fun field hfield => h field (List.mem_cons_of_mem _ hfield)

theorem portable_artifact {artifact : RuntimeArtifact}
    (h : PortableValue artifact.value) : PortableValue artifact.portable := by
  refine portable_obj ?_
  simp only [List.forall_mem_cons]
  exact ⟨portable_text _, portable_text _, portable_text _, portable_text _, portable_number _,
    portable_text _, h, List.forall_mem_nil _⟩

theorem mem_boundInputs {entry : String × RuntimeArtifact} (h : entry ∈ boundInputs inputs) :
    ∃ input ∈ inputs, entry = (input.slot, input.artifact) := by
  unfold boundInputs at h
  have hgeneral : ∀ (inputs : List RuntimeInputBinding) (bound : List (String × RuntimeArtifact)),
      entry ∈ inputs.foldl (fun bound input => assign bound input.slot input.artifact) bound →
        entry ∈ bound ∨ ∃ input ∈ inputs, entry = (input.slot, input.artifact) := by
    intro inputs
    induction inputs with
    | nil => exact fun bound h => .inl h
    | cons input inputs ih =>
      intro bound h
      rcases ih _ h with h | ⟨later, hlater, hentry⟩
      · rcases mem_assign h with h | h
        · exact .inr ⟨input, List.mem_cons_self, h⟩
        · exact .inl h
      · exact .inr ⟨later, List.mem_cons_of_mem _ hlater, hentry⟩
  exact (hgeneral inputs [] h).resolve_left List.not_mem_nil

theorem portable_payload {request : PhysicalProgramExecutionRequest} {step : PhysicalPlanStep}
    {configuration : Record}
    (hinputs : ∀ input ∈ inputs, input.slot ≠ "__proto__" ∧ PortableValue input.artifact.value)
    (hparameters : PortableValue (.obj (request.parameters.getD [])))
    (hconfiguration : PortableValue (.obj configuration)) :
    PortableValue (stepPayload request step inputs configuration).portable := by
  have hbound : PortableValue (portableInputs (boundInputs inputs)) := by
    unfold portableInputs
    have hproto : ((boundInputs inputs).any fun input => input.1 == "__proto__") = false := by
      refine List.any_eq_false.mpr fun entry hentry => ?_
      obtain ⟨input, hinput, rfl⟩ := mem_boundInputs hentry
      simpa using (hinputs input hinput).1
    rw [hproto]
    refine portable_obj fun field hfield => ?_
    obtain ⟨entry, hentry, rfl⟩ := List.mem_map.mp hfield
    obtain ⟨input, hinput, rfl⟩ := mem_boundInputs hentry
    exact portable_artifact (hinputs input hinput).2
  refine portable_obj ?_
  simp only [List.forall_mem_cons]
  exact ⟨portable_text _, portable_text _, portable_text _, hbound, hparameters, hconfiguration, List.forall_mem_nil _⟩

/-! ## Hosts that behave -/

/-- An answer of an actor that fills exactly the output slots. -/
def Fills (capability : Capability) (response : HandlerResult) : Prop :=
  ∃ candidate outputs warnings, response.record = .ok (.obj candidate) ∧
    candidate.lookup "ok" = some (.bool true) ∧ candidate.lookup "outputs" = some (.obj outputs) ∧
    stepWarnings (candidate.lookup "warnings") = .ok warnings ∧ PortableValue (.obj candidate) ∧
    ∀ slots, capability.outputSlots = some slots →
      (∀ slot ∈ slots, ∃ value, outputs.lookup slot.name = some value) ∧
      ∀ field ∈ outputs, ∃ slot ∈ slots, slot.name = field.1

/-- What the host promises for a program, whatever happened before. -/
structure HostBehaves (schemaOf : String → String) (host : RuntimeHost)
    (registry : ActorRegistrySnapshot) (ingredients : List Ingredient) (program : PhysicalProgram) :
    Prop where
  decide : ∀ history query, query.action = .spawn ∨ query.action = .invoke →
    ∃ decision, host.decide history query = .ok (.allow decision)
  resolveFactory : ∀ history, ∀ step ∈ program.steps, ∀ offerId factoryId configuration,
    step.target.placement = .factory offerId factoryId configuration →
      ∃ offer, host.resolveFactory history factoryId = .ok (some offer) ∧ offer.offerId = offerId
  assess : ∀ history query, ∃ admission, host.assess history query = .ok (.admitted admission) ∧
    query.requestedCapabilities ⊆ admission.grantedCapabilities ∧
    PortableValue (.obj admission.normalizedConfiguration)
  spawn : ∀ history query admission, ∀ step ∈ program.steps, ∀ offerId factoryId configuration,
    step.target.placement = .factory offerId factoryId configuration → query.offerId = offerId →
      query.requestedCapabilities = [step.capability] →
        ∃ spawned, host.spawn history query admission = .ok spawned ∧
          spawned.advertisement.definitionRef = step.target.definitionRef ∧
          spawned.advertisement.executionEnvironment = program.executionEnvironment ∧
          step.capability ∈ spawned.advertisement.capabilityIds
  deliver : ∀ history actor payload, ∀ definition ∈ registry.definitions,
    ∀ capability ∈ definition.capabilities, payload.capabilityId = capability.id →
      ∀ method, ∃ response, host.deliver history actor method payload = .ok response ∧
        Fills capability response
  release : ∀ history actor, host.release history actor = .ok ()
  resolve : ∀ history, ∀ ingredient ∈ ingredients, ∀ artifactId,
    truthy ingredient.artifactId = some artifactId →
      ∃ artifact, host.resolve history artifactId ingredient.predicate = .ok (some artifact) ∧
        Commits schemaOf artifact ingredient.predicate
  publish : ∀ history publication, ∃ artifacts, host.publish history publication = .ok artifacts ∧
    List.Forall₂ Publishes publication.outputs artifacts

theorem parseActorStepResult_ok {text : JsValue → String} {response : HandlerResult}
    {candidate outputs : Record} {warnings : List String} (hrecord : response.record = .ok (.obj candidate))
    (hok : candidate.lookup "ok" = some (.bool true))
    (houtputs : candidate.lookup "outputs" = some (.obj outputs))
    (hwarnings : stepWarnings (candidate.lookup "warnings") = .ok warnings)
    (hportable : PortableValue (.obj candidate)) :
    parseActorStepResult text response = .ok ⟨outputs, warnings⟩ := by
  unfold parseActorStepResult
  rw [hrecord]
  simp only [bind, Except.bind, hok, houtputs, hwarnings, hportable "$"]
  rfl

section Step
variable {schemaOf : String → String} {host : RuntimeHost} {registry : ActorRegistrySnapshot}
  {ingredients : List Ingredient} {request : PhysicalProgramExecutionRequest}
  {step : PhysicalPlanStep} {inputs : List RuntimeInputBinding} {capability : Capability}

theorem succeeds_check {check : Except String Unit} (h : check = .ok ()) :
    Succeeds (Traced.lift check : Run Unit) fun _ => True := succeeds_lift h trivial

section
variable (hhost : HostBehaves schemaOf host registry ingredients request.program)
include hhost

theorem askAllowed_succeeds
    {query : ActorAuthorizationRequest} (h : query.action = .spawn ∨ query.action = .invoke)
    (refusal : String) : Succeeds (askAllowed host query refusal) fun _ => True := by
  unfold askAllowed
  refine (succeeds_ask (A := fun decision => ∃ allowed, decision = .allow allowed) fun history => ?_).bind ?_
  · obtain ⟨decision, hdecision⟩ := hhost.decide history query h
    exact ⟨_, hdecision, decision, rfl⟩
  · rintro _ ⟨decision, rfl⟩
    exact succeeds_pure trivial

variable (hparameters : PortableValue (.obj (request.parameters.getD [])))
  {definition : ActorDefinition} (hdefinition : definition ∈ registry.definitions)
  (hcapability : capability ∈ definition.capabilities)
  (hwell : WellFormedSlots schemaOf capability) (hid : step.capability = capability.id)
  (hproduced : List.Forall₂ (fun p (v : PlanValue) =>
      (parseTerm v.predicate).functor = (parseTerm p).functor ∧ (trim p ≠ "" → v.predicate ≠ ""))
      capability.produces step.outputs)
  (hinputs : ∀ input ∈ inputs, input.slot ≠ "__proto__" ∧ PortableValue input.artifact.value)
include hparameters hdefinition hcapability hwell hid hproduced hinputs

theorem invokeSpawned_succeeds
    {admission : ActorAdmission} (hconfiguration : PortableValue (.obj admission.normalizedConfiguration))
    {spawned : SpawnedActor} (hdefined : spawned.advertisement.definitionRef = step.target.definitionRef)
    (henvironment : spawned.advertisement.executionEnvironment = request.program.executionEnvironment)
    (hadvertised : step.capability ∈ spawned.advertisement.capabilityIds) (decisions : List String) :
    Succeeds (invokeSpawned host request step inputs capability admission decisions spawned)
      fun outputs => List.Forall₂ (DraftFor schemaOf) outputs.drafts step.outputs := by
  obtain ⟨slots, hslots, hfit⟩ := hwell.outputs
  unfold invokeSpawned
  refine (succeeds_check (demand_true ?_)).bind fun _ _ => ?_
  · simp [hdefined, henvironment, hadvertised]
  refine (askAllowed_succeeds hhost (.inr rfl) _).bind fun decision _ => ?_
  refine (succeeds_check (portable_payload hinputs hparameters hconfiguration "$")).bind fun _ _ => ?_
  refine (succeeds_ask fun history =>
    hhost.deliver history spawned _ definition hdefinition capability hcapability hid step.method).bind
      fun response hfills => ?_
  obtain ⟨candidate, outputs, warnings, hrecord, hok, houtputs, hwarnings, hportable, hcovers⟩ := hfills
  obtain ⟨hcovered, hknown⟩ := hcovers slots hslots
  refine (succeeds_lift (A := fun result => result.outputs = outputs)
    (parseActorStepResult_ok hrecord hok houtputs hwarnings hportable) rfl).bind ?_
  rintro result rfl
  obtain ⟨drafts, hdrafts, hfor⟩ := outputDrafts_ok hslots hfit hproduced hcovered hknown
  refine (succeeds_lift (A := fun drafts => List.Forall₂ (DraftFor schemaOf) drafts step.outputs)
    hdrafts hfor).bind fun drafts hfor => ?_
  exact succeeds_pure hfor

theorem executeFactoryStep_succeeds (hstep : step ∈ request.program.steps)
    {offerId factoryId : String} {configuration : Record}
    (hfactory : step.target.placement = .factory offerId factoryId configuration)
    (decisions : List String) : Succeeds (executeFactoryStep host request step inputs capability decisions)
      fun outputs => List.Forall₂ (DraftFor schemaOf) outputs.drafts step.outputs := by
  unfold executeFactoryStep
  simp only [hfactory]
  refine (succeeds_ask (A := fun offer => ∃ promised : ActorFactoryOffer, offer = some promised ∧
    promised.offerId = offerId) fun history => ?_).bind ?_
  · obtain ⟨offer, hoffer, hpromised⟩ :=
      hhost.resolveFactory history step hstep offerId factoryId configuration hfactory
    exact ⟨some offer, hoffer, offer, rfl, hpromised⟩
  rintro _ ⟨offer, rfl, hpromised⟩
  refine (succeeds_check (demand_true (by simp [hpromised]))).bind fun _ _ => ?_
  refine (askAllowed_succeeds hhost (.inl rfl) _).bind fun decision _ => ?_
  refine Succeeds.bind (A := fun admission =>
    PortableValue (.obj admission.normalizedConfiguration)) ?_ fun admission hconfiguration => ?_
  · unfold askAdmitted
    refine (succeeds_ask (A := fun answer => ∃ admission, answer = .admitted admission ∧
      step.capability ∈ admission.grantedCapabilities ∧
        PortableValue (.obj admission.normalizedConfiguration)) fun history => ?_).bind ?_
    · obtain ⟨admission, hadmission, hgranted, hportable⟩ := hhost.assess history
        (spawnRequest request step inputs offerId (spread configuration (decision.forcedConfiguration.getD [])))
      exact ⟨_, hadmission, admission, rfl, hgranted (by simp [spawnRequest]), hportable⟩
    · rintro _ ⟨admission, rfl, hgranted, hportable⟩
      refine (succeeds_check (demand_true (by simpa using hgranted))).bind fun _ _ => ?_
      exact succeeds_pure hportable
  refine (succeeds_ask fun history => hhost.spawn history _ admission step hstep offerId factoryId
    configuration hfactory rfl rfl).bind fun spawned hspawned => ?_
  obtain ⟨hdefined, henvironment, hadvertised⟩ := hspawned
  exact (invokeSpawned_succeeds hhost hparameters hdefinition hcapability hwell hid hproduced hinputs
    hconfiguration hdefined henvironment hadvertised _).ensuring
      (succeeds_ask fun history => ⟨(), hhost.release history spawned, trivial⟩)

end

end Step

/-! ## Resolving inputs -/

def Durable (v : PlanValue) : Prop :=
  ∀ artifactId, v.source = .ingredient artifactId → (truthy artifactId).isSome = true

theorem truthy_truthy (text : Option String) : truthy (truthy text) = truthy text := by
  simp [truthy, Option.filter_filter]

section Resolve
variable {schemaOf : String → String} {host : RuntimeHost} {registry : ActorRegistrySnapshot}
  {ingredients : List Ingredient} {program : PhysicalProgram} {done : List PhysicalPlanStep}
  {values : Values}

theorem resolveValue_succeeds (hhost : HostBehaves schemaOf host registry ingredients program)
    (hvalues : Resolvable schemaOf done values) {v : PlanValue}
    (hsupplied : v ∈ ingredients.map ingredientValue ∨ ∃ earlier ∈ done, ∃ output, v.source = .step earlier.id output ∧
        earlier.outputs[output]? = some v) (hdurable : Durable v) :
    Succeeds (resolveValue host values v) fun artifact => Commits schemaOf artifact v.predicate := by
  unfold resolveValue
  rcases hsupplied with hv | ⟨earlier, hearlier, output, hsource, hat⟩
  · obtain ⟨ingredient, hingredient, rfl⟩ := List.mem_map.mp hv
    have hsome := hdurable (truthy ingredient.artifactId) rfl
    rw [truthy_truthy] at hsome
    obtain ⟨artifactId, hid⟩ := Option.isSome_iff_exists.mp hsome
    have hsource : truthy (truthy ingredient.artifactId) = some artifactId := by
      rw [truthy_truthy, hid]
    simp only [ingredientValue, hsource]
    refine (succeeds_ask (A := fun answer => ∃ artifact, answer = some artifact ∧
      Commits schemaOf artifact ingredient.predicate) fun history => ?_).bind ?_
    · obtain ⟨artifact, hartifact, hcommits⟩ := hhost.resolve history ingredient hingredient artifactId hid
      exact ⟨_, hartifact, artifact, rfl, hcommits⟩
    · rintro _ ⟨artifact, rfl, hcommits⟩
      refine (succeeds_check (demand_true ?_)).bind fun _ _ => succeeds_pure hcommits
      exact hcommits.proves _ (unifiable_self _)
  · obtain ⟨artifact, hlookup, hcommits⟩ := hvalues earlier hearlier output v hat
    simp only [hsource, hlookup]
    exact succeeds_pure hcommits

theorem resolveValues_succeeds (hhost : HostBehaves schemaOf host registry ingredients program)
    (hvalues : Resolvable schemaOf done values) {inputs : List PlanValue}
    (hsupplied : ∀ v ∈ inputs, v ∈ ingredients.map ingredientValue ∨
      ∃ earlier ∈ done, ∃ output, v.source = .step earlier.id output ∧
        earlier.outputs[output]? = some v) (hdurable : ∀ v ∈ inputs, Durable v) :
    Succeeds (resolveValues host values inputs) (List.Forall₂
      (fun v artifact => Commits schemaOf artifact v.predicate) inputs) :=
  succeeds_all fun v hv => resolveValue_succeeds hhost hvalues (hsupplied v hv) (hdurable v hv)

end Resolve

end AvenOS.Actors
