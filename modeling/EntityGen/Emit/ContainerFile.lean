import EntityGen.Emit.ResponseHandlerFile

/-!
# The container of managers

The container holds a manager for each entity and a queue for each queue name,
and registers the response handler with every queue if there is one.
-/

namespace EntityGen.Emit

open Code
open Schema (Descriptions Entity)

/-- The names of the client queues in order of first use. -/
def queueNames (d : Descriptions) : List String :=
  addAllDistinct [] (d.entities.map (·.queueName))

def queueVariable (queue : String) : String := Text.camelCase queue ++ "ClientQueue"

def queueType : TypeName := { name := "APIClientQueue" }
def managerType : TypeName := { name := "CoreManager" }

def privateProperty (name : String) (value : Expr) : Item :=
  .property { var := { name }, access := .privateAccess, value := some value }

def queueProperty (queue : String) : Item :=
  .property
    { var := { name := queueVariable queue, type := some queueType }, access := .privateAccess }

def managerProperty (e : Entity) : Item :=
  constantProperty (managerName e) { managerType with parameters := [entityType e.name] }

def subscriptions : Signals → Item
  | .combine =>
    .property
      { var := { name := "cancellables", isImmutable := false }, access := .privateAccess
        value := some (TypeName.construct
          { name := "Set", parameters := [{ name := "AnyCancellable" }] } []) }
  | .reactiveKit =>
    privateProperty "disposeBag" (TypeName.construct { name := "DisposeBag" } [])

def queueAssignment (queue : String) : Item :=
  .assign (.name (queueVariable queue)) ((Expr.type queueType).method "clientQueue"
    [.labelled "for" (.string queue), .labelled "client" (.name "client")])

def managerAssignment (e : Entity) : Item :=
  .assign (.name (managerName e)) (managerType.construct
    [.labelled "stores" ((Expr.type (entityType e.name)).method "stores"
      [.labelled "with" (.name "client"),
       .labelled "clientQueue" (.name (queueVariable e.queueName)),
       .labelled "coreDataManager" (.name "coreDataManager")])])

def handlerRegistration (queues : List String) : List Item :=
  queues.map (fun queue => .expr ((Expr.name (queueVariable queue)).method "register"
    [.unlabelled (.name "responseHandler")]))
  ++ [.assign (.member (.name "responseHandler") "container") .selfRef]

def containerInitializer (d : Descriptions) (handlesResponses : Bool) : Function :=
  let queues := queueNames d
  { kind := .initializer false false, access := .publicAccess
    parameters :=
      [{ name := "client", type := { name := "APIClient" } },
       { name := "coreDataManager", type := { name := "CoreDataManager" } }]
    body := queues.map queueAssignment ++ d.entities.map managerAssignment
      ++ if handlesResponses then handlerRegistration queues else [] }

def containerClass (d : Descriptions) (settings : Settings) (handlesResponses : Bool) : TypeDecl :=
  { name := containerType, kind := .classType true, access := .publicAccess
    body := Item.grouped
      ([(queueNames d).map queueProperty]
        ++ (if handlesResponses then
              [[privateProperty "responseHandler" (responseHandlerType.construct [])]]
            else [])
        ++ [d.entities.map managerProperty,
            [subscriptions settings.signals],
            [.function (containerInitializer d handlesResponses)]]) }

def containerFile (d : Descriptions) (settings : Settings) : Except Error SourceFile := do
  let targets ← mergeTargets d
  return ((emittedFile containerType.name).importing [settings.signals.module]).adding
    [.type (containerClass d settings !targets.isEmpty)]

end EntityGen.Emit
