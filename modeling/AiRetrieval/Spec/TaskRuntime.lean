import AiRetrieval.Spec.CanonicalValues
import AiRetrieval.Spec.TaskParser

/-! `TaskRuntime.resolve` of `tasks/runtime.py`: the definition that is bound to an invocation
before it is packed. -/

namespace AiRetrieval

structure ResolvedTask.Fields where
  definition : TaskDefinition
  invocation : TaskInvocation

def ResolvedTask.postInit (r : ResolvedTask.Fields) : Except PyError Unit :=
  require (r.definition.function = r.invocation.val.function)
    (.valueError "resolved task definition and invocation functions must match")

abbrev ResolvedTask := Checked ResolvedTask.postInit

abbrev TaskDefinitionLookup := TaskFunction → String → Option TaskDefinition

/-- `tuple(dict.fromkeys(values))`. -/
def fromKeys (values : List String) : List String :=
  values.foldl (fun added value => if value ∈ added then added else added ++ [value]) []

namespace TaskRuntime

def fail {α : Type} (stage : TaskFailureStage) (code : TaskFailureCode) (ruleIds : List String)
    (details : FrozenMapping) : Except PyError (Except TaskFailure α) := do
  return .error (← Checked.make TaskFailure.postInit ⟨stage, code, ruleIds, details⟩)

def resolutionFailure {α : Type} (code : TaskFailureCode) (ruleId reason : String)
    (function : TaskFunction) (boundVersion requestedVersion : Option String := none) :
    Except PyError (Except TaskFailure α) :=
  fail .resolution code [ruleId]
    ((boundVersion.map fun version => ("bound_version", FrozenValue.str version)).toList ++
      [("function", .str function.value), ("reason", .str reason)] ++
      (requestedVersion.map fun version => ("requested_version", FrozenValue.str version)).toList)

def boundVersion (bindings : FrozenMapping) (function : TaskFunction) : Option String :=
  match FrozenMapping.get bindings function.value with
  | some (.str version) => if blank version then none else some version
  | _ => none

def resolve (registry : TaskDefinitionLookup) (invocation : TaskInvocation)
    (context : ExecutionContext) : Except PyError (Except TaskFailure ResolvedTask) :=
  let function := invocation.val.function
  match FrozenMapping.get context.configuration.content "task_definitions" with
  | none => resolutionFailure .taskDefinitionUnavailable "task_definition.binding"
      "binding_missing" function
  | some (.mapping bindings) =>
    match boundVersion bindings function with
    | none =>
      let reason := match FrozenMapping.get bindings function.value with
        | none | some .none => "binding_missing"
        | some _ => "binding_malformed"
      resolutionFailure .taskDefinitionUnavailable "task_definition.binding" reason function
    | some version =>
      let requested := invocation.val.requestedDefinitionVersion
      if requested.any (· ≠ version) then
        resolutionFailure .taskDefinitionIncompatible "task_definition.requested_version"
          "requested_version_mismatch" function (some version) requested
      else match registry function version with
        | none => resolutionFailure .taskDefinitionUnavailable "task_definition.available"
            "definition_unavailable" function (some version)
        | some definition =>
          if definition.function ≠ function ∨ definition.version ≠ version then
            resolutionFailure .taskDefinitionIncompatible "task_definition.compatible"
              "resolved_definition_mismatch" function (some version)
          else .ok <$> Checked.make ResolvedTask.postInit ⟨definition, invocation⟩
  | some _ => resolutionFailure .taskDefinitionUnavailable "task_definition.binding"
      "binding_malformed" function

end TaskRuntime

end AiRetrieval
