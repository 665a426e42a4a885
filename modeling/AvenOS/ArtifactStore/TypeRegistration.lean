import AvenOS.ArtifactStore.OwnClaims

/-! # Registered types

`TypeCatalog::from_definitions` compiles the payload schemas of its definitions and filters all their schemas for
features of the profile that are forbidden. The schemas of reference attributes are compiled when they are used,
and the filter looks at every member, not only at the keywords. -/
namespace AvenOS.ArtifactStore

/-! ## Schemas -/

/-- `jsonschema::validator_for`: a schema becomes a check of values, or does not compile. -/
abbrev SchemaCompiler := CanonicalValue → Except String (CanonicalValue → Option String)

def SchemaCompiler.validator (compiler : SchemaCompiler) : SchemaValidator := fun schema value =>
  match compiler schema with
  | .error text => .error (.schema text)
  | .ok check =>
    match check value with
    | none => .ok ()
    | some text => .error (.value text)

def forbiddenKeywords : List String := ["$dynamicRef", "$recursiveRef", "$anchor", "$dynamicAnchor"]

def isLocal (reference : String) : Bool := "#/$defs/".toList.isPrefixOf reference.toList

def checkReference (key : String) (value : CanonicalTree) : Except CoreError Unit :=
  if key = "$ref" then
    match value with
    | .string reference =>
      refuseWhen (isLocal reference = false) (.invalidType ("external or unsupported $ref " ++ reference))
    | _ => .error (.invalidType "$ref must be a string")
  else .ok ()

mutual

def rejectForbiddenSchemaFeatures : CanonicalTree → Except CoreError Unit
  | .object members => rejectMembers members
  | .array values => rejectEach values
  | _ => .ok ()

def rejectMembers : List (String × CanonicalTree) → Except CoreError Unit
  | [] => .ok ()
  | (key, value) :: members => do
    refuseWhen (key ∈ forbiddenKeywords) (.invalidType ("schema keyword " ++ key ++ " is forbidden in v1"))
    checkReference key value
    rejectForbiddenSchemaFeatures value
    rejectMembers members

def rejectEach : List CanonicalTree → Except CoreError Unit
  | [] => .ok ()
  | value :: values => do
    rejectForbiddenSchemaFeatures value
    rejectEach values

end

/-! ## Registration -/

def validateRules : List Role → List ReferenceRule → Except CoreError Unit
  | _, [] => .ok ()
  | roles, rule :: rules => do
    refuseWhen (rule.role ∈ roles) (.invalidType ("duplicate reference role " ++ rule.role.value))
    refuseWhen (rule.maximum < rule.minimum)
      (.invalidType ("reference role " ++ rule.role.value ++ " has minimum greater than maximum"))
    refuseWhen (rule.attributesSchema.tree.isObject = false)
      (.invalidType ("reference role " ++ rule.role.value ++ " attributes schema must be an object"))
    rejectForbiddenSchemaFeatures rule.attributesSchema.tree
    validateRules (rule.role :: roles) rules

def compiled (compiler : SchemaCompiler) (schema : CanonicalValue) : Except CoreError Unit :=
  match compiler schema with
  | .ok _ => .ok ()
  | .error text => .error (.invalidType text)

def validateTypeDefinition (compiler : SchemaCompiler) (definition : TypeDefinition) : Except CoreError Unit := do
  refuseWhen (definition.version = 0) (.invalidType "version must be positive")
  refuseWhen (definition.schemaProfileId ≠ "artifact-json-schema-profile-v1")
    (.invalidType ("unsupported schema profile " ++ definition.schemaProfileId))
  refuseWhen (definition.payloadSchema.tree.isObject = false) (.invalidType "payload schema root must be an object")
  rejectForbiddenSchemaFeatures definition.payloadSchema.tree
  compiled compiler definition.payloadSchema
  validateRules [] definition.referenceRules
  refuseWhen (definition.blobPolicy = .required ∧ definition.typeKey.value = "core.bundle")
    (.invalidType "core.bundle cannot require a blob")

/-- The loop of `from_definitions`, with what is registered already. -/
def fromDefinitions (compiler : SchemaCompiler) (sha256 : ByteArray → ByteArray) :
    List RegisteredTypeDefinition → List TypeDefinition → Except CoreError TypeCatalog
  | types, [] => .ok ⟨types⟩
  | types, definition :: definitions => do
    validateTypeDefinition compiler definition
    let digest ← (typeDefinitionDigest sha256 definition).mapError CoreError.digest
    refuseWhen ((TypeCatalog.get ⟨types⟩ definition.typeKey definition.version).isSome = true)
      (.invalidType ("duplicate definition " ++ definition.typeKey.value ++ "@" ++ toString definition.version))
    fromDefinitions compiler sha256 (types ++ [⟨definition, digest⟩]) definitions

/-! ## Keywords -/

inductive Place
  | schema
  | named
  | data
deriving DecidableEq, Repr

def placeOf (keyword : String) : Place :=
  if keyword ∈ ["additionalProperties", "allOf", "anyOf", "contains", "contentSchema", "else", "if", "items", "not", "oneOf",
      "prefixItems", "propertyNames", "then", "unevaluatedItems", "unevaluatedProperties"] then .schema
  else if keyword ∈ ["$defs", "dependentSchemas", "patternProperties", "properties"] then .named
  else .data

def forbiddenMember (key : String) (value : CanonicalTree) : Bool :=
  decide (key ∈ forbiddenKeywords) || key == "$ref" &&
    match value with
    | .string reference => !isLocal reference
    | _ => true

mutual

def occurs : CanonicalTree → Bool
  | .object members => occursMembers members
  | .array values => occursEach values
  | _ => false

def occursMembers : List (String × CanonicalTree) → Bool
  | [] => false
  | (key, value) :: members => forbiddenMember key value || occurs value || occursMembers members

def occursEach : List CanonicalTree → Bool
  | [] => false
  | value :: values => occurs value || occursEach values

end

mutual

def occursAsKeyword : Place → CanonicalTree → Bool
  | .schema, .object members => keywordMembers members
  | .schema, .array values => keywordEach values
  | .named, .object members => namedMembers members
  | _, _ => false

def keywordMembers : List (String × CanonicalTree) → Bool
  | [] => false
  | (key, value) :: members => forbiddenMember key value || occursAsKeyword (placeOf key) value || keywordMembers members

def namedMembers : List (String × CanonicalTree) → Bool
  | [] => false
  | (_, value) :: members => occursAsKeyword .schema value || namedMembers members

def keywordEach : List CanonicalTree → Bool
  | [] => false
  | value :: values => occursAsKeyword .schema value || keywordEach values

end

mutual

def occursElsewhere : Place → CanonicalTree → Bool
  | .schema, .object members => elsewhereMembers members
  | .schema, .array values => elsewhereEach values
  | .named, .object members => elsewhereNamed members
  | _, tree => occurs tree

def elsewhereMembers : List (String × CanonicalTree) → Bool
  | [] => false
  | (key, value) :: members => occursElsewhere (placeOf key) value || elsewhereMembers members

def elsewhereNamed : List (String × CanonicalTree) → Bool
  | [] => false
  | (key, value) :: members => forbiddenMember key value || occursElsewhere .schema value || elsewhereNamed members

def elsewhereEach : List CanonicalTree → Bool
  | [] => false
  | value :: values => occursElsewhere .schema value || elsewhereEach values

end

mutual

theorem occurs_places (place : Place) (tree : CanonicalTree) :
    occurs tree = (occursAsKeyword place tree || occursElsewhere place tree) := by
  cases tree with
  | object members =>
    cases place with
    | schema => exact occurs_members members
    | named => exact occurs_named members
    | data => rfl
  | array values =>
    cases place with
    | schema => exact occurs_each values
    | named => rfl
    | data => rfl
  | _ => cases place <;> rfl

theorem occurs_members (members : List (String × CanonicalTree)) :
    occursMembers members = (keywordMembers members || elsewhereMembers members) := by
  rcases members with - | ⟨⟨key, value⟩, members⟩
  · rfl
  · rw [occursMembers, keywordMembers, elsewhereMembers, occurs_places (placeOf key) value, occurs_members members]
    ac_rfl

theorem occurs_named (members : List (String × CanonicalTree)) :
    occursMembers members = (namedMembers members || elsewhereNamed members) := by
  rcases members with - | ⟨⟨key, value⟩, members⟩
  · rfl
  · rw [occursMembers, namedMembers, elsewhereNamed, occurs_places .schema value, occurs_named members]
    ac_rfl

theorem occurs_each (values : List CanonicalTree) : occursEach values = (keywordEach values || elsewhereEach values) := by
  cases values with
  | nil => rfl
  | cons value values =>
    rw [occursEach, keywordEach, elsewhereEach, occurs_places .schema value, occurs_each values]
    ac_rfl

end

/-! ## What is rejected -/

theorem next_ok {first second : Except CoreError Unit} :
    (first >>= fun _ => second) = .ok () ↔ first = .ok () ∧ second = .ok () := by
  cases first with
  | error error => simp [bind, Except.bind]
  | ok value => simp [bind, Except.bind]

theorem checkMember_ok {key : String} {value : CanonicalTree} {error : CoreError} :
    (refuseWhen (key ∈ forbiddenKeywords) error = .ok () ∧ checkReference key value = .ok ()) ↔
      forbiddenMember key value = false := by
  rw [refuseWhen_ok]
  unfold checkReference forbiddenMember
  by_cases href : key = "$ref"
  · rw [if_pos href, beq_iff_eq.mpr href]
    cases value <;> simp [refuseWhen_ok]
  · rw [if_neg href, beq_eq_false_iff_ne.mpr href]
    simp

mutual

theorem reject_ok (tree : CanonicalTree) : rejectForbiddenSchemaFeatures tree = .ok () ↔ occurs tree = false := by
  cases tree with
  | object members => exact rejectMembers_ok members
  | array values => exact rejectEach_ok values
  | _ => simp [rejectForbiddenSchemaFeatures, occurs]

theorem rejectMembers_ok (members : List (String × CanonicalTree)) :
    rejectMembers members = .ok () ↔ occursMembers members = false := by
  rcases members with - | ⟨⟨key, value⟩, members⟩
  · simp [rejectMembers, occursMembers]
  · rw [rejectMembers, next_ok, next_ok, next_ok, reject_ok value, rejectMembers_ok members, occursMembers, ← and_assoc,
      checkMember_ok]
    simp [and_assoc]

theorem rejectEach_ok (values : List CanonicalTree) : rejectEach values = .ok () ↔ occursEach values = false := by
  cases values with
  | nil => simp [rejectEach, occursEach]
  | cons value values =>
    rw [rejectEach, next_ok, reject_ok value, rejectEach_ok values, occursEach]
    simp

end

theorem reject_error (tree : CanonicalTree) :
    (∃ error, rejectForbiddenSchemaFeatures tree = .error error) ↔ occurs tree = true := by
  have hok := reject_ok tree
  cases hreject : rejectForbiddenSchemaFeatures tree with
  | ok value =>
    rw [hok.1 hreject]
    simp
  | error error =>
    have hoccurs : occurs tree ≠ false := fun h => by
      rw [hok.2 h] at hreject
      cases hreject
    simp [Bool.eq_true_of_not_eq_false hoccurs]

/-! ## What is registered -/

section Registered
variable {compiler : SchemaCompiler} {sha256 : ByteArray → ByteArray}

theorem validateRules_distinct {roles : List Role} {rules : List ReferenceRule} (h : validateRules roles rules = .ok ()) :
    (∀ rule ∈ rules, rule.role ∉ roles) ∧ (rules.map ReferenceRule.role).Nodup := by
  induction rules generalizing roles with
  | nil => simp
  | cons rule rules ih =>
    rw [validateRules, next_ok, refuseWhen_ok, next_ok, next_ok, next_ok] at h
    obtain ⟨hnew, -, -, -, hrest⟩ := h
    obtain ⟨hothers, hnodup⟩ := ih hrest
    refine ⟨fun other hother => ?_, ?_⟩
    · rcases List.mem_cons.mp hother with rfl | hother
      · exact hnew
      · exact fun hmem => hothers other hother (List.mem_cons_of_mem _ hmem)
    · rw [List.map_cons, List.nodup_cons]
      refine ⟨fun hmem => ?_, hnodup⟩
      obtain ⟨other, hother, hrole⟩ := List.mem_map.mp hmem
      exact hothers other hother (hrole ▸ List.mem_cons_self)

variable {definition : TypeDefinition}

theorem rule?_mem (h : validateRules [] definition.referenceRules = .ok ()) {rule : ReferenceRule}
    (hrule : rule ∈ definition.referenceRules) : definition.rule? rule.role = some rule := by
  have hnodup := (validateRules_distinct h).2
  rw [TypeDefinition.rule?]
  cases hfound : definition.referenceRules.find? fun other => other.role = rule.role with
  | none =>
    have hnone := List.find?_eq_none.mp hfound rule hrule
    simp at hnone
  | some other =>
    have hrole : other.role = rule.role := by simpa using List.find?_some hfound
    rw [List.inj_on_of_nodup_map hnodup (List.mem_of_find?_eq_some hfound) hrule hrole]

theorem validateTypeDefinition_ok (h : validateTypeDefinition compiler definition = .ok ()) :
    (∃ check, compiler definition.payloadSchema = .ok check) ∧ validateRules [] definition.referenceRules = .ok () := by
  rw [validateTypeDefinition, next_ok, next_ok, next_ok, next_ok, next_ok, next_ok] at h
  obtain ⟨-, -, -, -, hcompiled, hrules, -⟩ := h
  refine ⟨?_, hrules⟩
  unfold compiled at hcompiled
  split at hcompiled
  · rename_i check hcheck
    exact ⟨check, hcheck⟩
  · cases hcompiled

theorem fromDefinitions_ok {types : List RegisteredTypeDefinition} {definitions : List TypeDefinition}
    {catalog : TypeCatalog} (h : fromDefinitions compiler sha256 types definitions = .ok catalog) :
    catalog.types.map RegisteredTypeDefinition.definition = types.map RegisteredTypeDefinition.definition ++ definitions ∧
      ∀ definition ∈ definitions, validateTypeDefinition compiler definition = .ok () := by
  induction definitions generalizing types with
  | nil =>
    cases h
    simp
  | cons definition definitions ih =>
    rw [fromDefinitions] at h
    obtain ⟨⟨⟩, hvalid, h⟩ := ExceptLoop.bind_eq_ok h
    obtain ⟨digest, -, h⟩ := ExceptLoop.bind_eq_ok h
    obtain ⟨⟨⟩, -, h⟩ := ExceptLoop.bind_eq_ok h
    obtain ⟨htypes, hrest⟩ := ih h
    refine ⟨by rw [htypes, List.map_append, List.append_assoc]; rfl, fun other hother => ?_⟩
    rcases List.mem_cons.mp hother with rfl | hother
    · exact hvalid
    · exact hrest other hother

theorem validateAgainst_usable (registered : RegisteredTypeDefinition) (origin : String) (schema : CanonicalValue) :
    (∀ value text, validateAgainst compiler.validator registered origin schema value ≠ .error (.invalidType text)) ↔
      ∃ check, compiler schema = .ok check := by
  cases hcompiler : compiler schema with
  | ok check =>
    refine ⟨fun _ => ⟨check, rfl⟩, fun _ value text h => ?_⟩
    unfold validateAgainst at h
    split at h
    · cases h
    · rename_i fault hfault
      rw [SchemaCompiler.validator, hcompiler] at hfault
      cases hcheck : check value with
      | none => simp [hcheck] at hfault
      | some detail =>
        simp only [hcheck, Except.error.injEq] at hfault
        rw [← hfault] at h
        cases h
  | error text =>
    refine ⟨fun h => absurd ?_ (h schema text), by simp⟩
    have hfault : compiler.validator schema schema = .error (.schema text) := by rw [SchemaCompiler.validator, hcompiler]
    rw [validateAgainst, hfault]
    rfl

theorem validateAttributes_usable {registered : RegisteredTypeDefinition}
    (h : validateRules [] registered.definition.referenceRules = .ok ()) :
    (∀ role attributes text, validateAttributes compiler.validator registered role attributes ≠ .error (.invalidType text)) ↔
      ∀ rule ∈ registered.definition.referenceRules, ∃ check, compiler rule.attributesSchema = .ok check := by
  constructor
  · intro husable rule hrule
    refine (validateAgainst_usable registered ("reference role " ++ rule.role.value ++ ": ") rule.attributesSchema).1
      fun value text herror => husable rule.role value text ?_
    rw [validateAttributes, rule?_mem h hrule]
    exact herror
  · intro hcompile role attributes text herror
    rw [validateAttributes] at herror
    cases hrule : registered.definition.rule? role with
    | none =>
      rw [hrule] at herror
      cases herror
    | some rule =>
      rw [hrule] at herror
      exact (validateAgainst_usable registered _ rule.attributesSchema).2
        (hcompile rule (List.mem_of_find?_eq_some hrule)) attributes text herror

end Registered

/-- Registered types are usable where the schemas of their attributes compile, and the filter is exact where a name
that is forbidden is not only the name of a property. -/
theorem registered_types_usable (compiler : SchemaCompiler) (sha256 : ByteArray → ByteArray) :
    (∀ definitions catalog, fromDefinitions compiler sha256 [] definitions = .ok catalog →
      ((∀ registered ∈ catalog.types,
          (∀ payload text, validatePayload compiler.validator registered payload ≠ .error (.invalidType text)) ∧
            ∀ role attributes text,
              validateAttributes compiler.validator registered role attributes ≠ .error (.invalidType text)) ↔
        ∀ definition ∈ definitions, ∀ rule ∈ definition.referenceRules, ∃ check, compiler rule.attributesSchema = .ok check)) ∧
      ∀ schema : CanonicalValue,
        (((∃ error, rejectForbiddenSchemaFeatures schema.tree = .error error) ↔ occursAsKeyword .schema schema.tree = true) ↔
          (occursElsewhere .schema schema.tree = true → occursAsKeyword .schema schema.tree = true)) := by
  constructor
  · intro definitions catalog h
    obtain ⟨htypes, hvalid⟩ := fromDefinitions_ok h
    rw [List.map_nil, List.nil_append] at htypes
    have hmem : ∀ registered ∈ catalog.types, registered.definition ∈ definitions := fun registered hregistered =>
      htypes ▸ List.mem_map_of_mem hregistered
    constructor
    · intro husable definition hdefinition
      obtain ⟨registered, hregistered, rfl⟩ := List.mem_map.mp (htypes.symm ▸ hdefinition)
      have hrules := (validateTypeDefinition_ok (hvalid _ hdefinition)).2
      exact (validateAttributes_usable hrules).1 (husable registered hregistered).2
    · intro hcompile registered hregistered
      obtain ⟨hpayload, hrules⟩ := validateTypeDefinition_ok (hvalid _ (hmem registered hregistered))
      exact ⟨(validateAgainst_usable registered "" _).2 hpayload,
        (validateAttributes_usable hrules).2 (hcompile _ (hmem registered hregistered))⟩
  · intro schema
    rw [reject_error, occurs_places .schema schema.tree]
    cases occursAsKeyword .schema schema.tree <;> cases occursElsewhere .schema schema.tree <;> simp

/-! ## A schema of attributes that does not compile -/

/-- A validator that only knows that a type has a name. -/
def typeCompiler : SchemaCompiler := fun schema =>
  match schema.tree with
  | .object (("type", .integer _) :: _) => .error "5 is not of type string"
  | _ => .ok fun _ => none

def linkRule : ReferenceRule where
  role := ⟨"link", by decide⟩
  minimum := 0
  maximum := 1
  allowedTargetTypes := .any
  attributesSchema := ⟨.object [("type", .integer 5)], ⟨List.pairwise_singleton _ _, trivial, trivial⟩⟩

def linkDefinition : TypeDefinition where
  typeKey := noteType
  version := 1
  schemaProfileId := "artifact-json-schema-profile-v1"
  payloadSchema := emptyValue
  blobPolicy := .optional
  referenceRules := [linkRule]

def anchorSchema : CanonicalValue :=
  ⟨.object [("properties", .object [("$anchor", .object [])])],
    ⟨List.pairwise_singleton _ _, ⟨List.pairwise_singleton _ _, ⟨List.Pairwise.nil, trivial⟩, trivial⟩, trivial⟩⟩

theorem registered_type_unusable :
    (¬ ∀ (compiler : SchemaCompiler) (sha256 : ByteArray → ByteArray) (definitions : List TypeDefinition) (catalog : TypeCatalog),
      fromDefinitions compiler sha256 [] definitions = .ok catalog → ∀ registered ∈ catalog.types, ∀ role attributes text,
        validateAttributes compiler.validator registered role attributes ≠ .error (.invalidType text)) ∧
      ¬ ∀ schema : CanonicalValue,
        (∃ error, rejectForbiddenSchemaFeatures schema.tree = .error error) ↔ occursAsKeyword .schema schema.tree = true := by
  constructor
  · intro hall
    have hcheck : (validateTypeDefinition typeCompiler linkDefinition).toBool = true ∧ linkDefinition.serialize.depth ≤ recursionLimit ∧
        linkDefinition.serialize.parsed.any CanonicalTree.isObject = true := by decide +kernel
    have hvalid : validateTypeDefinition typeCompiler linkDefinition = .ok () := by
      cases hresult : validateTypeDefinition typeCompiler linkDefinition with
      | ok _ => rfl
      | error _ =>
        rw [hresult] at hcheck
        cases hcheck.1
    obtain ⟨value, hvalue⟩ := canonicalFrom_total hcheck.2.1 hcheck.2.2
    have hdigest : typeDefinitionDigest id linkDefinition = .ok (domainHash id typeDomain value) := by
      rw [typeDefinitionDigest, hvalue]
      rfl
    have hregistered : fromDefinitions typeCompiler id [] [linkDefinition] =
        .ok ⟨[⟨linkDefinition, domainHash id typeDomain value⟩]⟩ := by
      rw [fromDefinitions, hvalid, hdigest]
      rfl
    exact hall typeCompiler id [linkDefinition] _ hregistered _ List.mem_cons_self linkRule.role linkDefinition.payloadSchema _ rfl
  · intro hall
    have hkeyword : occursAsKeyword .schema anchorSchema.tree = false := by decide
    have hoccurs : occurs anchorSchema.tree = true := by decide
    have h := (hall anchorSchema).1 ((reject_error _).2 hoccurs)
    rw [hkeyword] at h
    cases h

end AvenOS.ArtifactStore
