import Multio.Util.FailureHandling

namespace Multio.FailureHandling
open Lib

/-- The message that a callable owns: moved away once it has been passed on. -/
inductive MessageObject
  | holding (msg : Message)
  | movedFrom

/-- What runs of a chain change, and what the texts about failures read of it. -/
structure Environment (σ : Type) where
  /-- The field id, or the metadata printed as far as they are still there. -/
  fieldId : σ → String
  parametrization : σ → String

/-- What is done with a message that is moved in, in a state of the actions of the chain. -/
abbrev Chain (σ : Type) : Type := σ → MessageObject → σ × Except Failure Unit

structure Plan (σ : Type) where
  failureAware : FailureAware
  name : String
  /-- `root_->execute`. -/
  root : Chain σ

structure Action (σ : Type) where
  failureAware : FailureAware
  print : String
  executeImpl : Chain σ

structure Closure (σ : Type) where
  msg : MessageObject
  actions : σ

variable {σ : Type}

/-- `chain(std::move(msg))`. -/
def moveTo (chain : Chain σ) (closure : Closure σ) : Closure σ × Except Failure Unit :=
  let result := chain closure.actions closure.msg
  ({ msg := .movedFrom, actions := result.1 }, result.2)

/-- `LogMessage::print` of the log of a message. -/
def printLogMessage (msg : Message) (fieldId : String) : Except Failure String :=
  match tag2str msg.tag with
  | .error e => .error (.thrown e)
  | .ok tag =>
    .ok ("Message(version=1, tag=" ++ tag ++ ", source=" ++ msg.source.print ++
      ", destination=" ++ msg.destination.print ++ ", metadata=" ++ fieldId ++ ", payload-size=" ++
      toString msg.size ++ ")")

/-- Both handlers: neither the options nor the state are looked at. -/
def retryToRecover : FailureHandler := fun tag _ state =>
  if tag = .recover then (.retry, state) else (.rethrow, state)

namespace Plan

def handleFailure : FailureHandler := retryToRecover

def contextString (env : Environment σ) (p : Plan σ) (msg : Message) (closure : Closure σ) :
    Except Failure String := do
  let lmsg ← printLogMessage msg (env.fieldId closure.actions)
  .ok ("Plan \"" ++ p.name ++ "\" with Message: " ++ lmsg ++ "\nParametrization: " ++
    env.parametrization closure.actions ++ "\n")

def process (env : Environment σ) (p : Plan σ) (fuel : ℕ) (msg : Message) (actions : σ) :
    Option (List (LoopState (Closure σ)) × Closure σ × Except Failure Unit) :=
  p.failureAware.withFailureHandling handleFailure (moveTo p.root) (p.contextString env msg) fuel
    { msg := .holding msg, actions }

end Plan

namespace Action

def handleFailure : FailureHandler := retryToRecover

def contextString (env : Environment σ) (a : Action σ) (msg : Message) (closure : Closure σ) :
    Except Failure String := do
  let lmsg ← printLogMessage msg (env.fieldId closure.actions)
  .ok (a.print ++ " with Message: " ++ lmsg)

def execute (env : Environment σ) (a : Action σ) (fuel : ℕ) (msg : Message) (actions : σ) :
    Option (List (LoopState (Closure σ)) × Closure σ × Except Failure Unit) :=
  a.failureAware.withFailureHandling handleFailure (moveTo a.executeImpl) (a.contextString env msg)
    fuel { msg := .holding msg, actions }

end Action

inductive Component (σ : Type)
  | plan (p : Plan σ)
  | action (a : Action σ)

namespace Component

def failureAware : Component σ → FailureAware
  | plan p => p.failureAware
  | action a => a.failureAware

def chain : Component σ → Chain σ
  | plan p => p.root
  | action a => a.executeImpl

def contextString (env : Environment σ) : Component σ → Message → Closure σ → Except Failure String
  | plan p => p.contextString env
  | action a => a.contextString env

/-- `process` of a plan and `execute` of an action. -/
def run (env : Environment σ) : Component σ → ℕ → Message → σ →
    Option (List (LoopState (Closure σ)) × Closure σ × Except Failure Unit)
  | plan p => p.process env
  | action a => a.execute env

variable {env : Environment σ} {c : Component σ}

def body (env : Environment σ) (c : Component σ) (msg : Message) :
    LoopState (Closure σ) → LoopStep (LoopState (Closure σ)) (Closure σ × Except Failure Unit) :=
  c.failureAware.attempt retryToRecover (moveTo c.chain) (c.contextString env msg)

theorem run_eq (env : Environment σ) (c : Component σ) (fuel : ℕ) (msg : Message) (actions : σ) :
    c.run env fuel msg actions =
      doWhile (c.body env msg) fuel { closure := { msg := .holding msg, actions } } := by
  cases c <;> rfl

/-- The text of a failure can be made of every message but those of the tag `Grib`. -/
theorem contextString_eq_ok (env : Environment σ) (c : Component σ) {msg : Message}
    (htag : msg.tag ≠ .grib) (closure : Closure σ) :
    ∃ context, c.contextString env msg closure = .ok context := by
  have hprint : ∃ tag, tag2str msg.tag = .ok tag := by
    cases h : msg.tag with
    | grib => exact absurd h htag
    | _ => exact ⟨_, rfl⟩
  obtain ⟨tag, hprint⟩ := hprint
  cases c with
  | plan p =>
    simp only [contextString, Plan.contextString, printLogMessage, hprint]
    exact ⟨_, rfl⟩
  | action a =>
    simp only [contextString, Action.contextString, printLogMessage, hprint]
    exact ⟨_, rfl⟩

theorem contextString_grib (env : Environment σ) (c : Component σ) {msg : Message}
    (htag : msg.tag = .grib) (closure : Closure σ) :
    c.contextString env msg closure = .error (.thrown (.assertionFailed "tstr != m.end()")) := by
  cases c with
  | plan p =>
    simp only [contextString, Plan.contextString, printLogMessage, htag]
    rfl
  | action a =>
    simp only [contextString, Action.contextString, printLogMessage, htag]
    rfl

section

variable {msg : Message} {s : LoopState (Closure σ)} {actions : σ} {e : Failure}

theorem body_ok (h : c.chain s.closure.actions s.closure.msg = (actions, .ok ())) :
    c.body env msg s = .leave ({ msg := .movedFrom, actions }, .ok ()) := by
  apply attempt_ok
  simp only [moveTo, h]

theorem body_grib (htag : msg.tag = .grib)
    (h : c.chain s.closure.actions s.closure.msg = (actions, .error e)) :
    c.body env msg s = .leave ({ msg := .movedFrom, actions },
      .error (.thrown (.assertionFailed "tstr != m.end()"))) := by
  apply attempt_context_error (e := e)
  · simp only [moveTo, h]
  · exact contextString_grib env c htag _

variable (env) in
theorem body_propagate (htag : msg.tag ≠ .grib)
    (hpropagate : c.failureAware.parsedOnErrTag = .propagate)
    (h : c.chain s.closure.actions s.closure.msg = (actions, .error e)) :
    ∃ what, c.body env msg s =
      .leave ({ msg := .movedFrom, actions }, .error (.withNested what e)) := by
  obtain ⟨context, hcontext⟩ :=
    contextString_eq_ok env c htag { msg := .movedFrom, actions }
  refine ⟨c.failureAware.describe context, attempt_rethrow ?_ hcontext ?_⟩
  · simp only [moveTo, h]
  · rw [retryToRecover, hpropagate]
    rfl

theorem body_recover (htag : msg.tag ≠ .grib) (hrecover : c.failureAware.parsedOnErrTag = .recover)
    (h : c.chain s.closure.actions s.closure.msg = (actions, .error e)) :
    c.body env msg s = .again { closure := { msg := .movedFrom, actions }, state := s.state } := by
  obtain ⟨context, hcontext⟩ :=
    contextString_eq_ok env c htag { msg := .movedFrom, actions }
  apply attempt_retry (e := e) _ hcontext
  · rw [retryToRecover, hrecover]
    rfl
  · simp only [moveTo, h]

end

/-- How often the chain may run: no retry for `propagate`, or without a number of them. -/
def allowedRuns (c : Component σ) : ℕ :=
  match c.failureAware.parsedOnErrTag with
  | .propagate => 1
  | .recover => (c.failureAware.options.retryOptions.elim 0 RetryOptions.maxRetries).toNat + 1

/-- What the last run of the chain comes to. A failure is rethrown; recovery may ignore it. -/
def Concludes (c : Component σ) (last result : Except Failure Unit) : Prop :=
  match last with
  | .ok () => result = .ok ()
  | .error e => (c.failureAware.parsedOnErrTag = .recover ∧ result = .ok ()) ∨
      ∃ what, result = .error (.withNested what e)

/-- The chain runs no more often than is allowed, always with the original message, and what the
last run comes to is reported. -/
def Recovers (env : Environment σ) (c : Component σ) (msg : Message) (actions : σ) : Prop :=
  ∃ fuel attempts result, c.run env fuel msg actions = some (attempts, result) ∧
    attempts.length ≤ c.allowedRuns ∧
    (∀ s ∈ attempts, s.closure.msg = .holding msg) ∧
    ∀ s ∈ attempts.getLast?, c.Concludes (c.chain s.closure.actions s.closure.msg).2 result.2

theorem one_le_allowedRuns (c : Component σ) : 1 ≤ c.allowedRuns := by
  rw [allowedRuns]
  split
  · exact Nat.le_refl 1
  · exact Nat.le_add_left 1 _

theorem recovers_of_leave {msg : Message} {actions : σ} {result : Closure σ × Except Failure Unit}
    (h : c.body env msg { closure := { msg := .holding msg, actions } } = .leave result)
    (hconcludes : c.Concludes (c.chain actions (.holding msg)).2 result.2) :
    c.Recovers env msg actions := by
  refine ⟨1, [{ closure := { msg := .holding msg, actions } }], result, ?_,
    c.one_le_allowedRuns, ?_, ?_⟩
  · rw [run_eq]
    exact doWhile_of_loops (.leave h)
  · intro s hs
    rw [List.mem_singleton.mp hs]
  · intro s hs
    cases hs
    exact hconcludes

/-- Failures are recovered from as promised only where there are none to recover from. -/
theorem recovers_iff (env : Environment σ) (c : Component σ) (msg : Message) (actions : σ) :
    c.Recovers env msg actions ↔
      (c.chain actions (.holding msg)).2 = .ok () ∨
        c.failureAware.parsedOnErrTag = .propagate ∧ msg.tag ≠ .grib := by
  obtain ⟨after, hchain⟩ : ∃ after, (c.chain actions (.holding msg)).1 = after := ⟨_, rfl⟩
  cases hresult : (c.chain actions (.holding msg)).2 with
  | ok u =>
    refine iff_of_true ?_ (.inl rfl)
    have hended : c.chain actions (.holding msg) = (after, .ok ()) := Prod.ext hchain hresult
    apply recovers_of_leave (body_ok hended)
    rw [hresult]
    rfl
  | error e =>
    have hfailed : c.chain actions (.holding msg) = (after, .error e) := Prod.ext hchain hresult
    by_cases htag : msg.tag = .grib
    · -- the text about the failure cannot be made, and another exception takes its place
      refine iff_of_false ?_ (by simp [htag])
      rintro ⟨fuel, attempts, result, hrun, -, -, hlast⟩
      rw [run_eq] at hrun
      have hleave := (loops_of_doWhile hrun).eq_of_leave (body_grib htag hfailed)
      rw [hleave.1, hleave.2] at hlast
      have hconcludes := hlast { closure := { msg := .holding msg, actions } } rfl
      rw [hfailed] at hconcludes
      simp [Concludes] at hconcludes
    · cases honerror : c.failureAware.parsedOnErrTag with
      | propagate =>
        refine iff_of_true ?_ (.inr ⟨rfl, htag⟩)
        obtain ⟨what, hleave⟩ := body_propagate env htag honerror
          (s := { closure := { msg := .holding msg, actions } }) hfailed
        apply recovers_of_leave hleave
        rw [hfailed]
        exact .inr ⟨what, rfl⟩
      | recover =>
        -- the second attempt is given a message that has been moved away
        refine iff_of_false ?_ (by simp)
        rintro ⟨fuel, attempts, result, hrun, -, horiginal, -⟩
        rw [run_eq] at hrun
        have hagain := (loops_of_doWhile hrun).mem_of_again (body_recover htag honerror hfailed)
        cases horiginal _ hagain

/-- Where a chain fails on what is left of a message, recovery goes on for ever. -/
theorem run_eq_none {msg : Message} (htag : msg.tag ≠ .grib)
    (hrecover : c.failureAware.parsedOnErrTag = .recover) {actions : σ}
    (hfirst : ∃ e, (c.chain actions (.holding msg)).2 = .error e)
    (hmoved : ∀ actions, ∃ e, (c.chain actions .movedFrom).2 = .error e) (fuel : ℕ) :
    c.run env fuel msg actions = none := by
  rw [run_eq]
  apply doWhile_eq_none (p := fun s => ∃ e, (c.chain s.closure.actions s.closure.msg).2 = .error e)
  · rintro s ⟨e, he⟩
    exact ⟨_, body_recover htag hrecover (Prod.ext rfl he), hmoved _⟩
  · exact hfirst

end Component

def quietEnvironment : Environment Unit where
  fieldId _ := ""
  parametrization _ := ""

/-- A plan whose action always fails, and that is to be retried once. -/
def failingPlan : Component Unit :=
  .plan
    { failureAware :=
        { componentName := "Plan"
          peerTag := "server"
          parsedOnErrTag := .recover
          options := { retryOptions := some { maxRetries := 1 } } }
      name := "archive"
      root := fun actions _ => (actions, .error (.thrown (.seriousBug "sink"))) }

def plainField : Message where
  header :=
    { tag := .field, source := {}, destination := {}, metadata := { bucketCount := 1 } }

/-- One retry is allowed; the plan is retried without end. -/
theorem recovers_failingPlan :
    (failingPlan.failureAware.parsedOnErrTag = .recover ∧ failingPlan.allowedRuns = 2) ∧
      (∀ fuel, failingPlan.run quietEnvironment fuel plainField () = none) ∧
      ¬ failingPlan.Recovers quietEnvironment plainField () := by
  have hendless : ∀ fuel, failingPlan.run quietEnvironment fuel plainField () = none :=
    Component.run_eq_none (by decide) rfl ⟨_, rfl⟩ fun _ => ⟨_, rfl⟩
  refine ⟨⟨rfl, rfl⟩, hendless, ?_⟩
  rintro ⟨fuel, attempts, result, hrun, -⟩
  cases (hendless fuel).symm.trans hrun

end Multio.FailureHandling
