import Multio.Action.Aggregate

namespace Multio.Server
open Multio.Action

structure ServerState where
  mappings : Mappings := ∅
  aggregate : Aggregate := {}

structure DispatchContext extends AggregateContext where
  /-- The parser of metadata texts. -/
  parse : String → Except Exception BaseMetadata
  /-- What masks, parametrizations and synchronizations do. -/
  other : ServerState → Message → Except Exception ServerState

variable (ctx : DispatchContext)

def handle (s : ServerState) (msg : Message) : Except Exception (ServerState × List Message) :=
  match msg.tag with
  | .domain => do
    let mappings ← Mappings.add ctx.toContext s.mappings msg
    .ok ({ s with mappings }, [])
  | .mask | .parametrization | .synchronization => do
    let s ← ctx.other s msg
    .ok (s, [])
  | _ => do
    let (aggregate, out) ← Aggregate.executeImpl ctx.toAggregateContext s.mappings ctx.parse
      s.aggregate msg
    .ok ({ s with aggregate }, out)

/-- The messages of the dispatch queue in turn, with what each of them makes go out. -/
def dispatch : ServerState → List Message → Except Exception (ServerState × List (List Message))
  | s, [] => .ok (s, [])
  | s, msg :: msgs => do
    let (s, out) ← handle ctx s msg
    let (s, outs) ← dispatch s msgs
    .ok (s, out :: outs)

theorem dispatch_append {s s' s'' : ServerState} {ms ms' : List Message}
    {outs outs' : List (List Message)} (h : dispatch ctx s ms = .ok (s', outs))
    (h' : dispatch ctx s' ms' = .ok (s'', outs')) :
    dispatch ctx s (ms ++ ms') = .ok (s'', outs ++ outs') := by
  induction ms generalizing s outs with
  | nil =>
    obtain ⟨rfl, rfl⟩ := Prod.mk.inj (Except.ok.inj h)
    exact h'
  | cons m ms ih =>
    rw [dispatch] at h
    cases hm : handle ctx s m with
    | error e =>
      rw [hm] at h
      cases h
    | ok r =>
      rw [hm, Exception.ok_bind] at h
      cases hr : dispatch ctx r.1 ms with
      | error e =>
        simp only [hr, Exception.error_bind] at h
        cases h
      | ok r' =>
        simp only [hr, Exception.ok_bind] at h
        obtain ⟨rfl, rfl⟩ := Prod.mk.inj (Except.ok.inj h)
        rw [List.cons_append, dispatch, hm, Exception.ok_bind]
        simp only [ih hr, Exception.ok_bind]
        rfl

end Multio.Server
