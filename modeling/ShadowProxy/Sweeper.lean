import ShadowProxy.Deployment

/-! The periodic reconciler and the requeue at startup. -/

namespace ShadowProxy

open Effects

def forEach {α : Type} (f : α → Program Unit) : List α → Program Unit
  | [] => return
  | x :: xs => do
    f x
    forEach f xs

namespace Sweeper

def stalePatch (now : DateTime) : FinalizePatch where
  candidateStatus := .timeoutStale
  verdict := .candidateError
  reasons := ["timeout_stale"]
  evaluatedAt := some now

def runOnce (dep : Deployment) : Program ℕ := do
  let staleIds ← perform (.findStale dep.config.store.staleThreshold 1000)
  if List.isEmpty staleIds then return 0
  let now ← perform .now
  forEach (fun requestId => perform (.finalize requestId (stalePatch now))) staleIds
  return List.length staleIds

end Sweeper

def requeueAllUnfinished (limit : ℕ := 10000) : Program ℕ := do
  let ids ← perform (.findAllUnfinished limit)
  forEach (fun requestId => do let _ ← perform (.enqueue requestId)) ids
  return List.length ids

end ShadowProxy
