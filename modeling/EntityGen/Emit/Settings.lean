/-!
# Settings of a generation run
-/

namespace EntityGen.Emit

inductive RecordNaming where
  | current
  | legacy
  deriving DecidableEq, Repr

inductive Concurrency where
  | futures
  | structured
  deriving DecidableEq, Repr

inductive Signals where
  | reactiveKit
  | combine
  deriving DecidableEq, Repr

def Signals.module : Signals → String
  | .reactiveKit => "ReactiveKit"
  | .combine => "Combine"

/-- Without a version of the app, the descriptions' version stands for it. -/
structure Settings where
  naming : RecordNaming := .current
  concurrency : Concurrency := .structured
  signals : Signals := .combine
  appVersion : Option String := none
  moduleName : String := "App"
  deriving DecidableEq, Repr

end EntityGen.Emit
