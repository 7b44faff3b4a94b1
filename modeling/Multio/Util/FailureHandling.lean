import Multio.Lib.Loops
import Multio.Message.Message

namespace Multio.FailureHandling
open Lib

inductive Failure
  | thrown (e : Exception)
  | failureAware (what : String)
  | withNested (what : String) (nested : Failure)

/-- `OnPlanError` and `OnActionError`. -/
inductive OnError
  | propagate | recover
  deriving DecidableEq, Repr

def OnError.toString : OnError → String
  | .propagate => "propagate"
  | .recover => "recover"

structure RetryOptions where
  maxRetries : ℤ := 0
  deriving Repr

structure DefaultFailureOptions where
  retryOptions : Option RetryOptions := none
  deriving Repr

structure RetryState where
  countRetries : ℤ := 0
  deriving Repr

structure DefaultFailureState where
  retryState : Option RetryState := none
  deriving Repr

/-- What the key `on-error` may map to. -/
inductive OnErrorConfig
  | text (tag : String)
  | object (type : Option String) (maxRetries : Option ℤ)

def lower (str : String) : String := str.map Char.toLower

def parseErrorTag (str : String) : Option OnError :=
  [OnError.propagate, .recover].find? fun tag => lower tag.toString = lower str

def parseDefaultFailureOptions (maxRetries : Option ℤ) : DefaultFailureOptions :=
  { retryOptions := maxRetries.map fun n => { maxRetries := n } }

structure FailureAware where
  componentName : String
  peerTag : String
  parsedOnErrTag : OnError := .propagate
  options : DefaultFailureOptions := {}

/-- The constructor; a component may have no key `on-error`. -/
def FailureAware.make (componentName peerTag : String) :
    Option OnErrorConfig → Except Failure FailureAware
  | none => .ok { componentName, peerTag }
  | some (.text tag) =>
    match parseErrorTag tag with
    | some parsedOnErrTag => .ok { componentName, peerTag, parsedOnErrTag }
    | none => .error (.failureAware ("Unsupported value \"" ++ tag ++ "\" for key \"on-error\" " ++
        "for FailureAware configuration for component " ++ componentName))
  | some (.object none _) =>
    .error (.withNested ("FailureAware configuration for component " ++ componentName ++
      " described by key \"on-error\" is supposed to map to a string or an configuration object " ++
      "with key \"type\"") (.thrown (.outOfRange "type")))
  | some (.object (some tag) maxRetries) =>
    -- in an object, a tag that is not known stands for the default
    .ok { componentName, peerTag, parsedOnErrTag := (parseErrorTag tag).getD .propagate,
          options := parseDefaultFailureOptions maxRetries }

inductive FailureHandlerResponse
  | rethrow | ignore | retry
  deriving DecidableEq, Repr

structure FailureContext where
  eptr : Failure
  context : String

/-- `handleFailure`: the state may be changed. -/
abbrev FailureHandler : Type :=
  OnError → FailureContext → DefaultFailureState → FailureHandlerResponse × DefaultFailureState

/-- What the callable owns and refers to, and the state of the handler. -/
structure LoopState (γ : Type) where
  closure : γ
  state : DefaultFailureState := {}

variable {γ : Type} (f : FailureAware) (handleFailure : FailureHandler)
  (callable : γ → γ × Except Failure Unit) (contextString : γ → Except Failure String)

def FailureAware.describe (context : String) : String :=
  "FailureAware<" ++ f.componentName ++ "> with behaviour \"" ++ f.parsedOnErrTag.toString ++
    "\" on " ++ f.peerTag ++ " for context: [\n" ++ context ++ "\n]"

/-- One iteration. An exception of `contextString` leaves the `catch` block that calls it. -/
def FailureAware.attempt (s : LoopState γ) :
    LoopStep (LoopState γ) (γ × Except Failure Unit) :=
  match callable s.closure with
  | (closure, .ok ()) => .leave (closure, .ok ())
  | (closure, .error e) =>
    match contextString closure with
    | .error e' => .leave (closure, .error e')
    | .ok context =>
      let what := f.describe context
      match handleFailure f.parsedOnErrTag { eptr := e, context := what } s.state with
      | (.retry, state) => .again { closure, state }
      | (.rethrow, _) => .leave (closure, .error (.withNested what e))
      | (.ignore, _) => .leave (closure, .ok ())

/-- In at most `fuel` attempts; with the states in which they begin. -/
def FailureAware.withFailureHandling (fuel : ℕ) (closure : γ) :
    Option (List (LoopState γ) × γ × Except Failure Unit) :=
  doWhile (f.attempt handleFailure callable contextString) fuel { closure }

section Attempt

variable {f handleFailure callable contextString} {s : LoopState γ} {closure : γ}

theorem attempt_ok (h : callable s.closure = (closure, .ok ())) :
    f.attempt handleFailure callable contextString s = .leave (closure, .ok ()) := by
  rw [FailureAware.attempt, h]

theorem attempt_context_error {e e' : Failure} (h : callable s.closure = (closure, .error e))
    (hcontext : contextString closure = .error e') :
    f.attempt handleFailure callable contextString s = .leave (closure, .error e') := by
  rw [FailureAware.attempt, h]
  simp only [hcontext]

theorem attempt_rethrow {e : Failure} {context : String}
    (h : callable s.closure = (closure, .error e)) (hcontext : contextString closure = .ok context)
    (hhandle : (handleFailure f.parsedOnErrTag
      { eptr := e, context := f.describe context } s.state).1 = .rethrow) :
    f.attempt handleFailure callable contextString s =
      .leave (closure, .error (.withNested (f.describe context) e)) := by
  rw [FailureAware.attempt, h]
  simp only [hcontext]
  split
  · exact absurd (hhandle.symm.trans (congrArg Prod.fst ‹_›)) (by simp)
  · rfl
  · exact absurd (hhandle.symm.trans (congrArg Prod.fst ‹_›)) (by simp)

theorem attempt_retry {e : Failure} {context : String} {state : DefaultFailureState}
    (h : callable s.closure = (closure, .error e)) (hcontext : contextString closure = .ok context)
    (hhandle : handleFailure f.parsedOnErrTag
      { eptr := e, context := f.describe context } s.state = (.retry, state)) :
    f.attempt handleFailure callable contextString s = .again { closure, state } := by
  rw [FailureAware.attempt, h]
  simp only [hcontext, hhandle]

end Attempt

end Multio.FailureHandling
