import AvenOS.Actors.Matching

/-! # The observation solver

`compileObservationOperations`, `solveObservedFrontier` and `executeObservedProgram` of
`observation-solver.ts`. A run asks its port for one receipt at a time and computes the ready frontier anew
after each; what a value holds is left to the host, the solver reads the members of a sealed collection only. -/
namespace AvenOS.Actors
open Text StableSort

/-- What the solver reads of a value. -/
class FactValue (V : Type) where
  /-- `assertPortableRunValue`. -/
  portable : V → Except String Unit
  /-- The array under `members`; a member that is no text is `none`. -/
  members : V → Option (List (Option String))

/-- A grounded observation. -/
structure SolverFact (V : Type) where
  id : String
  predicate : Predicate
  value : V
deriving DecidableEq

structure SolverGather where
  name : String
  /-- Index of the requirement whose value is a sealed collection. -/
  collection : ℕ
  /-- A variable of `predicate` that stands for each declared member. -/
  member : String
  predicate : Predicate
deriving DecidableEq

structure SolverOperation extends Capability where
  gathers : Option (List SolverGather)
  /-- Failures are observations too, but only these declared facts may follow them. -/
  failureProduces : Option (List Predicate)
deriving DecidableEq

structure SolverInvocation (V : Type) where
  id : String
  operation : String
  bindings : Bindings
  inputs : List (SolverFact V)
  gathers : List (String × List (SolverFact V))
deriving DecidableEq

inductive ReceiptState
  | succeeded
  | failed
  | other (text : String)
deriving DecidableEq, Repr

structure SolverReceipt (V : Type) where
  invocationId : String
  operation : String
  state : ReceiptState
  facts : List (SolverFact V)
  error : Option String
deriving DecidableEq

inductive ObservationError
  | duplicateOperation (id : String)
  | invalidCost (id : String)
  | unsupportedPredicate (predicate : Predicate)
  | duplicateGather (name : String)
  | gatherWithoutCollection (name : String)
  | gatherUnbound (name : String)
  | gatherCaptures (name : String)
  | duplicateFactOccurrence
  | invalidSealedCollection (operation gather : String)
  | duplicateCollectionMember (operation gather : String)
  | ambiguousCollectionMember (operation gather member : String)
  | ungroundedObservation (predicate : Predicate)
  | unportable (complaint : String)
  | conflictingFact (id : String)
  | foreignReceipt
  | undeclaredObservation (operation : String) (predicate : Predicate)
  /-- What the port threw. -/
  | port (complaint : String)
deriving DecidableEq, Repr

def ObservationError.message : ObservationError → String
  | .duplicateOperation id => s!"duplicate operation {id}"
  | .invalidCost id => s!"invalid operation cost {id}"
  | .unsupportedPredicate predicate => s!"unsupported predicate syntax: {predicate}"
  | .duplicateGather name => s!"duplicate gather {name}"
  | .gatherWithoutCollection name => s!"gather {name} has no collection requirement"
  | .gatherUnbound name => s!"gather {name} must bind its member variable"
  | .gatherCaptures name => s!"gather {name} captures a requirement variable"
  | .duplicateFactOccurrence => "duplicate fact occurrence identity"
  | .invalidSealedCollection operation gather => s!"invalid sealed collection for {operation}:{gather}"
  | .duplicateCollectionMember operation gather => s!"duplicate collection member for {operation}:{gather}"
  | .ambiguousCollectionMember operation gather member =>
    s!"ambiguous collection member {operation}:{gather}:{member}"
  | .ungroundedObservation predicate => s!"observation is not grounded: {predicate}"
  | .unportable complaint => complaint
  | .conflictingFact id => s!"conflicting fact occurrence {id}"
  | .foreignReceipt => "receipt does not belong to the admitted invocation"
  | .undeclaredObservation operation predicate =>
    s!"{operation} published an undeclared observation: {predicate}"
  | .port complaint => complaint

inductive FrontierError
  | searchLimit
  | thrown (error : ObservationError)
deriving DecidableEq, Repr

/-- What a bound invocation is hashed from. -/
structure InvocationSeed where
  runId : String
  operation : String
  inputs : List String
  gathers : List (String × List String)
deriving DecidableEq, Repr

structure SolverPlatform extends Locale where
  solverIdentity : InvocationSeed → String

/-! ## Predicates of a contract -/

def isNameChar (c : Char) : Bool := c.isAlphanum || c == '_' || c == '.' || c == '-'

def isArgumentChar (c : Char) : Bool := c.isAlphanum || c == '_' || c == ':' || c == '.' || c == '/' || c == '-'

def isArgument (piece : List Char) : Bool := !piece.isEmpty && piece.all isArgumentChar

/-- `validatePredicate`: a name, and arguments between parentheses if there are any. -/
def supportedPredicate (predicate : Predicate) : Bool :=
  match predicate.toList with
  | [] => false
  | first :: rest =>
    first.isAlpha &&
      match rest.dropWhile isNameChar with
      | [] => true
      | '(' :: body =>
        match body.getLast? with
        | some ')' => (pieces body.dropLast).all isArgument
        | _ => false
      | _ => false

/-! ## The compiler of the ready-frontier contract -/

def costOf (operation : SolverOperation) : ℚ := operation.cost.getD 1

def checkGather (operation : SolverOperation) (names : List String) (gather : SolverGather) :
    Except ObservationError (List String) :=
  if gather.name ∈ names then .error (.duplicateGather gather.name)
  else if (operation.requires[gather.collection]?).isNone then .error (.gatherWithoutCollection gather.name)
  else if ¬ supportedPredicate gather.predicate then .error (.unsupportedPredicate gather.predicate)
  else if gather.member = "_" ∨ ¬ isVariable gather.member ∨ gather.member ∉ (parseTerm gather.predicate).args then
    .error (.gatherUnbound gather.name)
  else if operation.requires.any fun predicate => gather.member ∈ (parseTerm predicate).args then
    .error (.gatherCaptures gather.name)
  else .ok (gather.name :: names)

/-- The predicates a contract writes. -/
def SolverOperation.predicates (operation : SolverOperation) : List Predicate :=
  operation.requires ++ operation.produces ++ operation.failureProduces.getD []

def checkOperation (ids : List String) (operation : SolverOperation) :
    Except ObservationError (List String) :=
  if operation.id ∈ ids then .error (.duplicateOperation operation.id)
  else if costOf operation < 0 then .error (.invalidCost operation.id)
  else
    match operation.predicates.find? fun predicate => !supportedPredicate predicate with
    | some predicate => .error (.unsupportedPredicate predicate)
    | none => ((operation.gathers.getD []).foldlM (checkGather operation) []).map fun _ => operation.id :: ids

def byCost (locale : Locale) (a b : SolverOperation) : Ordering :=
  (compare (costOf a) (costOf b)).then (locale.localeCompare a.id b.id)

def compileObservationOperations (locale : Locale) (operations : List SolverOperation) :
    Except ObservationError (List SolverOperation) :=
  (operations.foldlM checkOperation []).map fun _ => sortBy (byCost locale) operations

/-! ## The ready frontier -/

section Frontier
variable {V : Type} [FactValue V]

def SolverFact.planValue (fact : SolverFact V) : PlanValue :=
  ⟨fact.predicate, .ingredient (some fact.id)⟩

/-- `byId.get(ingredientId(value))`. -/
def factOf (facts : List (SolverFact V)) (value : PlanValue) : Option (SolverFact V) :=
  match value.source with
  | .ingredient (some id) => facts.find? fun fact => fact.id == id
  | _ => none

def factsOf (facts : List (SolverFact V)) (m : RequirementMatch) : List (SolverFact V) :=
  m.inputs.filterMap (factOf facts)

def memberQuery (gather : SolverGather) (bindings : Bindings) (member : String) : Predicate :=
  substitute gather.predicate ((gather.member, member) :: bindings)

def gatherMember (facts : List (SolverFact V)) (operation : SolverOperation) (gather : SolverGather)
    (bindings : Bindings) (member : String) : Except ObservationError (Option (SolverFact V)) :=
  match matchRequirements [memberQuery gather bindings member] (facts.map SolverFact.planValue) with
  | [] => .ok none
  | [found] => .ok (factsOf facts found).head?
  | _ => .error (.ambiguousCollectionMember operation.id gather.name member)

def gatherMembers (facts : List (SolverFact V)) (operation : SolverOperation) (gather : SolverGather)
    (bindings : Bindings) : List String → Except ObservationError (Option (List (SolverFact V)))
  | [] => .ok (some [])
  | member :: rest =>
    match gatherMember facts operation gather bindings member with
    | .error e => .error e
    | .ok none => .ok none
    | .ok (some fact) => (gatherMembers facts operation gather bindings rest).map (Option.map (fact :: ·))

def sealedMembers (operation : SolverOperation) (gather : SolverGather) (inputs : List (SolverFact V)) :
    Except ObservationError (List String) :=
  match (inputs[gather.collection]?).bind fun fact => FactValue.members fact.value with
  | none => .error (.invalidSealedCollection operation.id gather.name)
  | some members =>
    if members.any fun member => member.all isVariable then
      .error (.invalidSealedCollection operation.id gather.name)
    else if ¬ members.reduceOption.Nodup then .error (.duplicateCollectionMember operation.id gather.name)
    else .ok members.reduceOption

/-- `none` when a member is still missing. -/
def gatherAll (facts : List (SolverFact V)) (operation : SolverOperation) (bindings : Bindings)
    (inputs : List (SolverFact V)) :
    List SolverGather → Except ObservationError (Option (List (String × List (SolverFact V))))
  | [] => .ok (some [])
  | gather :: rest =>
    match (sealedMembers operation gather inputs).bind (gatherMembers facts operation gather bindings) with
    | .error e => .error e
    | .ok none => .ok none
    | .ok (some gathered) =>
      (gatherAll facts operation bindings inputs rest).map (Option.map ((gather.name, gathered) :: ·))

def invocationSeed (runId : String) (operation : SolverOperation) (inputs : List (SolverFact V))
    (gathers : List (String × List (SolverFact V))) : InvocationSeed where
  runId := runId
  operation := operation.id
  inputs := inputs.map SolverFact.id
  gathers := gathers.map fun gather => (gather.1, gather.2.map SolverFact.id)

def readyInvocation (platform : SolverPlatform) (runId : String) (facts : List (SolverFact V))
    (operation : SolverOperation) (m : RequirementMatch) :
    Except ObservationError (Option (SolverInvocation V)) :=
  (gatherAll facts operation m.bindings (factsOf facts m) (operation.gathers.getD [])).map
    (Option.map fun gathers => {
      id := platform.solverIdentity (invocationSeed runId operation (factsOf facts m) gathers)
      operation := operation.id
      bindings := m.bindings
      inputs := factsOf facts m
      gathers := gathers })

def operationFrontier (platform : SolverPlatform) (runId : String) (facts : List (SolverFact V))
    (maxSearchAttempts : Limit) (operation : SolverOperation) :
    Except FrontierError (List (SolverInvocation V)) :=
  if operation.available = some false then .ok []
  else
    match matchRequirementsWith ⟨maxSearchAttempts, ⊤⟩ operation.requires (facts.map SolverFact.planValue) with
    | .error _ => .error .searchLimit
    | .ok found =>
      match found.mapM (readyInvocation platform runId facts operation) with
      | .error e => .error (.thrown e)
      | .ok ready => .ok ready.reduceOption

def solveObservedFrontier (platform : SolverPlatform) (runId : String) (operations : List SolverOperation)
    (facts : List (SolverFact V)) (maxSearchAttempts : Limit) :
    Except FrontierError (List (SolverInvocation V)) :=
  if ¬ (facts.map SolverFact.id).Nodup then .error (.thrown .duplicateFactOccurrence)
  else (operations.mapM (operationFrontier platform runId facts maxSearchAttempts)).map List.flatten

end Frontier

/-! ## A run -/

inductive Completion
  | goalOnly
  | saturate
deriving DecidableEq, Repr

/-- The options of `executeObservedProgram`, without its port and its signal. -/
structure ObservedProgram (V : Type) where
  runId : String
  operations : List SolverOperation
  ingredients : List (SolverFact V)
  goals : Option (List Predicate)
  completion : Option Completion
  maxInvocations : Option Limit
  maxSearchAttempts : Option Limit
  allowEffects : Option Bool

inductive RunState
  | complete
  | partly
  | noRoute
  | limit
  | cancelled
deriving DecidableEq, Repr

structure ObservationRunResult (V : Type) where
  state : RunState
  facts : List (SolverFact V)
  receipts : List (SolverReceipt V)
  goalsSatisfied : Bool
deriving DecidableEq

/-- What a run has gathered at the head of its loop. -/
structure Observed (V : Type) where
  /-- The map of facts, in the order of their insertion. -/
  facts : List (SolverFact V)
  /-- What `onReceipt` was called with. -/
  accepted : List (SolverInvocation V × SolverReceipt V)
  completed : List String
deriving DecidableEq

def Observed.receipts {V : Type} (s : Observed V) : List (SolverReceipt V) := s.accepted.map Prod.snd

/-- What the head of the loop decides. -/
inductive Turn (V : Type)
  | ended (result : ObservationRunResult V)
  | threw (error : ObservationError)
  | call (invocation : SolverInvocation V)

section Run
variable {V : Type} [FactValue V] [DecidableEq V]

def admittedMode (program : ObservedProgram V) (operation : SolverOperation) : Bool :=
  if operation.mode = some .effect then program.allowEffects == some true
  else operation.mode != some .stream && operation.mode != some .view

def admittedOperations (locale : Locale) (program : ObservedProgram V) :
    Except ObservationError (List SolverOperation) :=
  (compileObservationOperations locale program.operations).map (List.filter (admittedMode program))

def admitFact (facts : List (SolverFact V)) (fact : SolverFact V) :
    Except ObservationError (List (SolverFact V)) :=
  if ¬ supportedPredicate fact.predicate then .error (.unsupportedPredicate fact.predicate)
  else if fact.id = "" ∨ (parseTerm fact.predicate).args.any isVariable then
    .error (.ungroundedObservation fact.predicate)
  else
    match FactValue.portable fact.value with
    | .error complaint => .error (.unportable complaint)
    | .ok _ =>
      match facts.find? fun other => other.id == fact.id with
      | none => .ok (facts ++ [fact])
      | some existing => if existing = fact then .ok facts else .error (.conflictingFact fact.id)

def goalsSatisfied (program : ObservedProgram V) (facts : List (SolverFact V)) : Bool :=
  match matchRequirementsWith ⟨⊤, 1⟩ (program.goals.getD []) (facts.map SolverFact.planValue) with
  | .ok found => !found.isEmpty
  | .error _ => false

def Observed.result (program : ObservedProgram V) (s : Observed V) (state : RunState) :
    ObservationRunResult V where
  state := state
  facts := s.facts
  receipts := s.receipts
  goalsSatisfied := goalsSatisfied program s.facts

/-- The state of a run whose ready invocations are all completed. -/
def exhausted (program : ObservedProgram V) (s : Observed V) : RunState :=
  if ¬ goalsSatisfied program s.facts then .noRoute
  else if s.receipts.any fun receipt => receipt.state = .failed then .partly
  else .complete

def turn (platform : SolverPlatform) (program : ObservedProgram V) (operations : List SolverOperation)
    (aborted : Bool) (s : Observed V) : Turn V :=
  if aborted then .ended (s.result program .cancelled)
  else if program.completion = some .goalOnly ∧ goalsSatisfied program s.facts then
    .ended (s.result program .complete)
  else
    match solveObservedFrontier platform program.runId operations s.facts
        (program.maxSearchAttempts.getD 100000) with
    | .error .searchLimit => .ended (s.result program .limit)
    | .error (.thrown e) => .threw e
    | .ok frontier =>
      match frontier.find? fun candidate => candidate.id ∉ s.completed with
      | none => .ended (s.result program (exhausted program s))
      | some invocation =>
        if program.maxInvocations.getD 1024 ≤ s.accepted.length then .ended (s.result program .limit)
        else .call invocation

/-- The frontier a round looks at. -/
abbrev frontierAt (platform : SolverPlatform) (program : ObservedProgram V) (operations : List SolverOperation)
    (s : Observed V) : Except FrontierError (List (SolverInvocation V)) :=
  solveObservedFrontier platform program.runId operations s.facts (program.maxSearchAttempts.getD 100000)

def declared (operations : List SolverOperation) (invocation : SolverInvocation V)
    (receipt : SolverReceipt V) : List Predicate :=
  match operations.find? fun candidate => candidate.id == invocation.operation with
  | none => []
  | some operation =>
    if receipt.state = .failed then operation.failureProduces.getD [] else operation.produces

def isDeclared (operations : List SolverOperation) (invocation : SolverInvocation V)
    (receipt : SolverReceipt V) (fact : SolverFact V) : Bool :=
  (declared operations invocation receipt).any fun predicate =>
    !(matchRequirements [substitute predicate invocation.bindings] [fact.planValue]).isEmpty

def belongs (invocation : SolverInvocation V) (receipt : SolverReceipt V) : Prop :=
  receipt.invocationId = invocation.id ∧ receipt.operation = invocation.operation ∧
    (receipt.state = .succeeded ∨ receipt.state = .failed)

instance (invocation : SolverInvocation V) (receipt : SolverReceipt V) : Decidable (belongs invocation receipt) := by
  unfold belongs
  infer_instance

def accept (operations : List SolverOperation) (s : Observed V) (invocation : SolverInvocation V)
    (receipt : SolverReceipt V) : Except ObservationError (Observed V) :=
  if ¬ belongs invocation receipt then .error .foreignReceipt
  else
    match receipt.facts.find? fun fact => !isDeclared operations invocation receipt fact with
    | some fact => .error (.undeclaredObservation invocation.operation fact.predicate)
    | none =>
      (receipt.facts.foldlM admitFact s.facts).map fun facts =>
        ⟨facts, s.accepted ++ [(invocation, receipt)], invocation.id :: s.completed⟩

/-- The host behind a run: what it looks up, what it invokes, and the signal. -/
structure ObservationExecutionPort (V Host : Type) where
  lookup : SolverInvocation V → Host → Except String (Option (SolverReceipt V)) × Host
  invoke : SolverInvocation V → Host → Except String (SolverReceipt V) × Host
  aborted : Host → Bool

variable {Host : Type}

/-- `(await port.lookup(invocation)) ?? (await port.invoke(invocation))`. -/
def ObservationExecutionPort.call (port : ObservationExecutionPort V Host) (invocation : SolverInvocation V)
    (host : Host) : Except String (SolverReceipt V) × Host :=
  match port.lookup invocation host with
  | (.error complaint, host) => (.error complaint, host)
  | (.ok (some receipt), host) => (.ok receipt, host)
  | (.ok none, host) => port.invoke invocation host

abbrev Outcome (V : Type) := Except ObservationError (ObservationRunResult V)

/-- The loop on a budget of rounds, `none` when it is spent. -/
def observe (platform : SolverPlatform) (program : ObservedProgram V) (operations : List SolverOperation)
    (port : ObservationExecutionPort V Host) : ℕ → Observed V → Host → Option (Outcome V × Host)
  | 0, _, _ => none
  | budget + 1, s, host =>
    match turn platform program operations (port.aborted host) s with
    | .ended result => some (.ok result, host)
    | .threw e => some (.error e, host)
    | .call invocation =>
      match port.call invocation host with
      | (.error complaint, host) => some (.error (.port complaint), host)
      | (.ok receipt, host) =>
        match accept operations s invocation receipt with
        | .error e => some (.error e, host)
        | .ok s => observe platform program operations port budget s host

def executeObservedProgram (platform : SolverPlatform) (program : ObservedProgram V)
    (port : ObservationExecutionPort V Host) (budget : ℕ) (host : Host) : Option (Outcome V × Host) :=
  match admittedOperations platform.toLocale program with
  | .error e => some (.error e, host)
  | .ok operations =>
    match program.ingredients.foldlM admitFact [] with
    | .error e => some (.error e, host)
    | .ok facts => observe platform program operations port budget ⟨facts, [], []⟩ host

end Run

end AvenOS.Actors
