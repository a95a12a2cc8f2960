import EntityGen.Emit.EndpointFile
import EntityGen.Emit.Settings

/-!
# The response handler

Locally created entities get their remote identifiers when the responses to
their writes arrive. The handler routes a response to the merge function of
its entity, which updates the local entities or rolls them back. Functions
complete through a closure, or are asynchronous and awaited.
-/

namespace EntityGen.Emit

open Code
open Schema (Descriptions Endpoint Entity)

def responseHandlerType : TypeName :=
  { name := "CoreManagerContainerClientQueueResponseHandler" }

def containerType : TypeName := { name := "CoreManagerContainer" }

/-- An entity whose identifiers are merged, and the first endpoint that writes it. -/
structure MergeTarget where
  entity : Entity
  endpoint : Endpoint

/-- Only remote entities with identity that change on the client are merged. -/
def needsMerging (e : Entity) : Bool :=
  e.isMutable && e.isRemote && !e.hasVoidIdentifier

def mergeTarget (d : Descriptions) (e : Entity) : Except Error MergeTarget :=
  match d.endpointsWriting e.name with
  | endpoint :: _ => .ok { entity := e, endpoint }
  | [] => .error (.missingWritePayload e.name)

def mergeTargets (d : Descriptions) : Except Error (List MergeTarget) :=
  (d.entities.filter needsMerging).mapM (mergeTarget d)

/-! ## Names and types -/

def mergeName (t : MergeTarget) : String :=
  "merge" ++ Text.pascalCase t.entity.name ++ Text.pascalCase t.endpoint.name ++ "Update"

def rollbackName (e : Entity) : String := "rollback" ++ Text.pascalCase e.name

def managerName (e : Entity) : String := memberName e.name ++ "Manager"

def containerManager (e : Entity) : Expr := .member (.name "container") (managerName e)

def queuingType : TypeName := { name := "APIClientQueuing" }

def resultType : TypeName :=
  { name := "APIClientQueueResult", parameters := [.data, { name := "APIError" }] }

def completionType : TypeName := { name := "() -> Void" }

/-! ## Completion -/

def completion : Expr := .name "completion"

/-- The function with the parameter or the mark by which it completes. -/
def Concurrency.completing (c : Concurrency) (f : Function) : Function :=
  match c with
  | .structured => { f with isAsync := true }
  | .futures =>
    { f with
      parameters := f.parameters ++
        [{ name := "completion", type := completionType, isEscaping := true }] }

/-- A call of a function that completes, as the last thing done. -/
def Concurrency.handOn (c : Concurrency) (function : String) (arguments : List Argument) : Item :=
  match c with
  | .structured => .expr (.awaiting (.call (.name function) arguments))
  | .futures =>
    .expr (.call (.name function) (arguments ++ [.labelled "completion" completion]))

def Concurrency.complete (c : Concurrency) : List Item :=
  match c with
  | .structured => []
  | .futures => [.expr completion.callEmpty]

/-! ## All elements of a sequence -/

def taskGroup (sequence : Expr) (parameters : List String) (work : List Item) : List Item :=
  let task := (Expr.member (.name "group") "addTask").callClosure [] work
  let each := (Expr.member sequence "forEach").callClosure parameters [.expr task]
  [.expr (.awaiting (.call (.name "withTaskGroup")
    [.labelled "of" (.type TypeName.void.metatype),
     .unlabelled (.closure ["group"] [.expr each])]))]

def dispatchGroup (sequence : Expr) (parameters : List String) (work : List Item) : List Item :=
  let group := Expr.name "group"
  [.constant "group" (TypeName.construct { name := "DispatchGroup" } []),
   .expr ((Expr.member sequence "forEach").callClosure parameters
     (.expr (group.method "enter" []) :: work)),
   .expr (group.method "notify"
     [.labelled "queue" (.dot "main"), .labelled "execute" completion])]

/-- Runs an operation whose result does not matter, as a task or until it leaves the group. -/
def Concurrency.store (c : Concurrency) (operation : Expr) : Item :=
  match c with
  | .structured => .assign (.name "_") (.tryOptional (.awaiting operation))
  | .futures =>
    .expr ((Expr.member operation "onComplete").callClosure ["_"]
      [.expr ((Expr.name "group").method "leave" [])])

def Concurrency.notify (c : Concurrency) (call : Expr) : Item :=
  match c with
  | .structured => .expr (.awaiting call)
  | .futures => .expr call

def Concurrency.forAll (c : Concurrency) (sequence : Expr) (parameters : List String)
    (work : List Item) : List Item :=
  match c with
  | .structured => taskGroup sequence parameters work
  | .futures => dispatchGroup sequence parameters work

/-! ## Dispatch -/

def dispatchCase (c : Concurrency) (t : MergeTarget) : SwitchCase :=
  { pattern := .value (.member (.type (identifierType t.entity)) "entityTypeUID")
    body := [c.handOn (mergeName t)
      [.unlabelled (.name "result"),
       .labelled "localEntities" ((Expr.name "request").method "localEntities"
         [.labelled "of" (.type (entityType t.entity.name).metatype)]),
       .labelled "clientQueue" (.name "clientQueue")]] }

/-- Routes a response to the merge function of the entity it was issued for. -/
def dispatchFunction (c : Concurrency) (targets : List MergeTarget) : Function :=
  c.completing
    { kind := .named "clientQueue"
      parameters :=
        [{ label := some "_", name := "clientQueue", type := queuingType },
         { label := some "didReceiveResponse", name := "result", type := resultType },
         { label := some "for", name := "request", type := { name := "APIClientQueueRequest" } }]
      body := [.switch (.member (.name "request") "entityTypeUID")
        (targets.map (dispatchCase c) ++ [{ pattern := .default, body := c.complete }])] }

/-! ## Merge -/

def containerGuard (c : Concurrency) : Item :=
  .guard [.binding "container" (.name "container")] (c.complete ++ [.returns none])

def handOnRollback (c : Concurrency) (e : Entity) : Item :=
  c.handOn (rollbackName e)
    [.unlabelled (.name "localEntities"), .labelled "container" (.name "container")]

def decodedPayload (t : MergeTarget) : Expr :=
  .tryThrowing ((Expr.name "decoder").method "decode"
    [.unlabelled (.type (endpointPayloadType t.endpoint.name .write).metatype),
     .labelled "from" (.member (.name "response") "data")])

def fromPayload (e : Entity) (payload : Expr) : Expr :=
  (entityType e.name).construct [.labelled "payload" payload]

def remoteEntities (t : MergeTarget) : Expr :=
  let payload := Expr.name "payload"
  if t.endpoint.write.all fun p => p.layout = .single then
    .array [fromPayload t.entity (.member payload "entity")]
  else
    (Expr.member (.member payload "entities") "map").callClosure []
      [.expr (fromPayload t.entity (.name "$0"))]

/-- Gives a local entity the identifier of its remote counterpart. -/
def mergeWork (c : Concurrency) (e : Entity) : List Item :=
  let localIdentifier := Expr.member (.name "localEntity") "identifier"
  let remote := Expr.name "remoteEntity"
  [.expr (localIdentifier.method "update" [.labelled "with" (.member remote "identifier")]),
   c.notify ((Expr.name "clientQueue").method "merge" [.labelled "with" localIdentifier]),
   c.store ((containerManager e).method "setAndUpdateIdentifierInLocalStores"
     [.unlabelled remote])]

def decodingFailure (e : Entity) : Item :=
  .expr ((Expr.name "Logger").method "log"
    [.unlabelled (.dot "error"),
     .unlabelled (.string (responseHandlerType.name ++ ": Could not decode "
       ++ Text.pascalCase e.name ++ " write payload")),
     .labelled "error" (.name "error")])

def mergeOfResponse (c : Concurrency) (t : MergeTarget) : Item :=
  let pairs := Expr.call (.name "zip")
    [.unlabelled (.name "localEntities"), .unlabelled (.name "remoteEntities")]
  .doCatch
    ([.constant "payload" (decodedPayload t), .constant "remoteEntities" (remoteEntities t)]
      ++ c.forAll pairs ["localEntity", "remoteEntity"] (mergeWork c t.entity))
    [{ body := [decodingFailure t.entity, handOnRollback c t.entity] }]

def mergeFunction (c : Concurrency) (t : MergeTarget) : Function :=
  let rollback := handOnRollback c t.entity
  c.completing
    { kind := .named (mergeName t), access := .privateAccess
      parameters :=
        [{ label := some "_", name := "result", type := resultType },
         { name := "localEntities", type := (entityType t.entity.name).array },
         { name := "clientQueue", type := queuingType }]
      body :=
        [containerGuard c,
         .switch (.name "result")
          [{ pattern := .bindings "success" ["response"], body := [mergeOfResponse c t] },
           { pattern := .tag "aborted", body := [rollback] },
           { pattern := .tag "failure", body := [rollback] }]] }

/-! ## Rollback -/

/-- Takes the local entities out of the stores again. -/
def rollbackFunction (c : Concurrency) (e : Entity) : Function :=
  let remove := (containerManager e).method "removeFromLocalStores"
    [.unlabelled (.member (.name "localEntity") "identifier")]
  c.completing
    { kind := .named (rollbackName e), access := .privateAccess
      parameters :=
        [{ label := some "_", name := "localEntities", type := (entityType e.name).array },
         { name := "container", type := containerType }]
      body := c.forAll (.name "localEntities") ["localEntity"] [c.store remove] }

/-! ## File -/

def targetGroups (c : Concurrency) (t : MergeTarget) : List (List Item) :=
  [[.comment (.mark (Text.pascalCase t.entity.name))],
   [.function (mergeFunction c t)],
   [.function (rollbackFunction c t.entity)]]

def responseHandler (c : Concurrency) (targets : List MergeTarget) : TypeDecl :=
  let container : Code.Property :=
    { var := Variable.withWeak { name := "container", type := some containerType.optional } true }
  let decoder : Code.Property :=
    { var := { name := "decoder" }, access := .privateAccess
      value := some (TypeName.construct { name := "JSONDecoder" } []) }
  { name := responseHandlerType, kind := .classType true
    inherited := [{ name := "APIClientQueueResponseHandler" }]
    body := Item.grouped
      ([[], [.property container], [.property decoder], [.function (dispatchFunction c targets)]]
        ++ targets.flatMap (targetGroups c) ++ [[]]) }

def responseHandlerFile (d : Descriptions) (settings : Settings) :
    Except Error (Option SourceFile) := do
  let targets ← mergeTargets d
  if targets.isEmpty then return none
  return some ((emittedFile responseHandlerType.name).adding
    [.type (responseHandler settings.concurrency targets)])

end EntityGen.Emit
