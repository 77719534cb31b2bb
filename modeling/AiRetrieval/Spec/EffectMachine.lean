import AiRetrieval.Spec.Effects
import AiRetrieval.Spec.StoreMachine

/-! Runs of the effect recovery coordinator over one world: `execute` calls run to
completion one after another, with any calls of the durable work repository between
them. -/

namespace AiRetrieval

inductive EffectCall where
  | execute (request : EffectRequest) (context : ExecutionContext)
  | work (call : StoreCall)

inductive EffectReply where
  | recovery (result : EffectRecoveryResult)
  | work (reply : StoreReply)

def EffectCall.action (env : Environment) : EffectCall → Action EffectReply
  | .execute request context => .recovery <$> EffectRecoveryCoordinator.execute env request context
  | .work call => .work <$> Action.onStore call.program

def effectMachine (env : Environment) : Machine EffectCall (Except PyError EffectReply) World :=
  fun call w => (call.action env).exec w

abbrev EffectTransition := Transition EffectCall (Except PyError EffectReply) World

end AiRetrieval
