import Multio.Message.MatcherSemantics
import Multio.Message.Parametrization

namespace Multio.Server.Client
open Config Exception Lib

/-- What an action other than `select` passes on, with the metadata of fields as they are. -/
structure Forwarding where
  apply : Message → Message
  tag_apply : ∀ msg, msg.tag = .field → (apply msg).tag = .field
  metadata_apply : ∀ msg, msg.tag = .field → (apply msg).metadata = msg.metadata

/-- An action with the ones behind it; the last one is not chained. -/
inductive Action
  | select (selectors_ : MatchReduce) (next_ : Action)
  | forward (impl : Forwarding) (next_ : Action)
  | last

namespace Action

/-- `execute`, with the message that comes to the last action. -/
def execute (ctx : MatchContext) : Action → Message → Except Exception (Option Message)
  | select selectors_ next_, msg => do
    if msg.tag = .flush ∨ msg.tag = .notification then next_.execute ctx msg
    else if ← selectors_.matches ctx msg.metadata then next_.execute ctx msg
    else .ok none
  | forward impl next_, msg => next_.execute ctx (impl.apply msg)
  | last, msg => .ok (some msg)

def matchedFields (selectors : MatchReduce) : Action → MatchReduce
  | select selectors_ _ => selectors.extend selectors_.toElem
  | forward _ next_ => next_.matchedFields selectors
  | last => selectors

/-- What the select actions of a chain match, from the first to the last. -/
def selects : Action → List MatchReduce
  | select selectors_ next_ => selectors_ :: next_.selects
  | forward _ next_ => next_.selects
  | last => []

end Action

inductive ActionConfig (C : Type)
  | select (cfg : C)
  | chained (impl : Forwarding)
  | last

structure PlanConfig (C : Type) where
  name : String
  actions : List (ActionConfig C)

structure Plan where
  name : String
  root_ : Action

def Plan.process (ctx : MatchContext) (plan : Plan) (msg : Message) :
    Except Exception (Option Message) :=
  plan.root_.execute ctx msg

section

variable {C : Type} (R : ConfigurationReader C) (policy : HashPolicy String)

/-- The first of the actions, each of which is the `next` of the one before. -/
def buildActions : List (ActionConfig C) → Except Exception Action
  | [] => .error (.assertionFailed "compConf.parsedConfig().has(\"next\")")
  | .select cfg :: next => do
    let next_ ← buildActions next
    let selectors_ ← MatchReduce.construct R policy cfg .none true
    .ok (.select selectors_ next_)
  | .chained impl :: next => do
    let next_ ← buildActions next
    .ok (.forward impl next_)
  | .last :: _ => .ok .last

def Plan.construct (cfg : PlanConfig C) : Except Exception Plan := do
  if cfg.actions.isEmpty then
    .error (.userError ("Plan config must define at least one action. Plan: " ++ cfg.name))
  else
    let root_ ← buildActions R policy cfg.actions
    .ok { name := cfg.name, root_ }

/-- The plans, and the selectors that are extended by each of them. -/
def Plan.makePlans : List (PlanConfig C) → MatchReduce → Except Exception (List Plan × MatchReduce)
  | [], selectors => .ok ([], selectors)
  | cfg :: cfgs, selectors => do
    let plan ← Plan.construct R policy cfg
    let made ← Plan.makePlans cfgs (plan.root_.matchedFields selectors)
    .ok (plan :: made.1, made.2)

end

structure MultioClient where
  plans_ : List Plan
  activeSelectors_ : MatchReduce

structure ClientContext extends MatchContext where
  policy : HashPolicy String
  /-- What a stream shows of a value. -/
  print : MetadataValue → String

def ClientContext.parametrizationContext (ctx : ClientContext) : ParametrizationContext where
  policy := ctx.policy
  print := ctx.print

/-- The loop over the names of the plans, with those that came before. -/
def checkPlanNames : List String → List Plan → Except Exception Unit
  | _, [] => .ok ()
  | planNames, plan :: plans =>
    if plan.name ∈ planNames then
      .error (.userError ("Plan names must be unique. The plan with name  \"" ++ plan.name ++
        "\" already exists"))
    else checkPlanNames (plan.name :: planNames) plans

namespace MultioClient

def construct {C : Type} (R : ConfigurationReader C) (ctx : ClientContext)
    (cfgs : List (PlanConfig C)) : Except Exception MultioClient := do
  let made ← Plan.makePlans R ctx.policy cfgs { reduce := .or, predicate := .none }
  checkPlanNames [] made.1
  .ok { plans_ := made.1, activeSelectors_ := made.2 }

variable (ctx : ClientContext) (client : MultioClient)

def withPlanName (plan : Plan) (msg : Message) : Message :=
  { msg with
    header := { msg.header with
      metadata := msg.metadata.set ctx.policy "clientPlanName" (.string plan.name)
      fieldId_ := none } }

/-- `dispatch`, with what comes to the last action of each plan. -/
def dispatch (msg : Message) : Except Exception (List (Option Message)) :=
  match msg.tag with
  | .flush => client.plans_.mapM fun plan =>
      plan.process ctx.toMatchContext (withPlanName ctx plan msg)
  | .parametrization =>
    match Parametrization.updateMessage ctx.parametrizationContext ctx.parametrization msg with
    | (.error e, _) => .error e
    | (.ok (), parametrization) =>
      client.plans_.mapM fun plan => plan.process { ctx.toMatchContext with parametrization } msg
  | _ => client.plans_.mapM fun plan => plan.process ctx.toMatchContext msg

def isFieldMatched (metadata : BaseMetadata) : Except Exception Bool :=
  client.activeSelectors_.matches ctx.toMatchContext metadata

end MultioClient

section

variable {ctx : MatchContext}

theorem Action.execute_eq_some_iff (a : Action) {msg : Message} (htag : msg.tag = .field) :
    (∃ out, a.execute ctx msg = .ok (some out)) ↔
      ∀ s ∈ a.selects, s.matches ctx msg.metadata = .ok true := by
  induction a generalizing msg with
  | select selectors_ next_ ih =>
    have hpass : ¬ (msg.tag = .flush ∨ msg.tag = .notification) := by simp [htag]
    rw [execute, if_neg hpass, selects, List.forall_mem_cons, ← ih htag]
    cases hmatch : selectors_.matches ctx msg.metadata with
    | error e => simp [bind, Except.bind]
    | ok b =>
      rw [ok_bind]
      cases b <;> simp
  | forward impl next_ ih =>
    rw [execute, selects, ih (impl.tag_apply msg htag), impl.metadata_apply msg htag]
  | last => simp [execute, selects]

theorem Action.matchedFields_eq (a : Action) (selectors : MatchReduce) :
    a.matchedFields selectors =
      { selectors with
        matchers := selectors.matchers ++ (a.selects.take 1).map MatchReduce.toElem } := by
  induction a with
  | select selectors_ next_ ih => simp [matchedFields, selects, MatchReduce.extend]
  | forward impl next_ ih => rw [matchedFields, selects, ih]
  | last => simp [matchedFields, selects]

/-- A disjunction that gives a result is true if one of its elements is. -/
theorem matchesList_or {md : BaseMetadata} {es : List Elem} {b : Bool}
    (h : Elem.matchesList ctx md .or es = .ok b) :
    b = true ↔ ∃ e ∈ es, e.matches ctx md = .ok true := by
  induction es with
  | nil =>
    rw [Elem.matchesList] at h
    cases h
    simp
  | cons e es ih =>
    rw [Elem.matchesList] at h
    obtain ⟨b', hb', h⟩ := bind_eq_ok_iff.mp h
    cases b' with
    | true =>
      cases h
      simp [hb']
    | false =>
      rw [ih h]
      simp [hb']

end

section

variable {C : Type} {R : ConfigurationReader C} {ctx : ClientContext}

def firstSelects (plans : List Plan) : List MatchReduce :=
  plans.flatMap fun plan => plan.root_.selects.take 1

theorem makePlans_spec {policy : HashPolicy String} {cfgs : List (PlanConfig C)}
    {selectors : MatchReduce} {made : List Plan × MatchReduce}
    (h : Plan.makePlans R policy cfgs selectors = .ok made) :
    made.2 = { selectors with
      matchers := selectors.matchers ++ (firstSelects made.1).map MatchReduce.toElem } := by
  induction cfgs generalizing selectors made with
  | nil =>
    cases h
    simp [firstSelects]
  | cons cfg cfgs ih =>
    obtain ⟨plan, -, h⟩ := bind_eq_ok_iff.mp h
    obtain ⟨rest, hrest, h⟩ := bind_eq_ok_iff.mp h
    cases h
    rw [ih hrest, Action.matchedFields_eq]
    simp [firstSelects]

variable {cfgs : List (PlanConfig C)} {client : MultioClient} {md : BaseMetadata}

/-- A client accepts the fields that the first select action of some plan matches. -/
theorem isFieldMatched_eq_true_iff (hclient : MultioClient.construct R ctx cfgs = .ok client)
    {accepted : Bool} (h : client.isFieldMatched ctx md = .ok accepted) :
    accepted = true ↔
      ∃ s ∈ firstSelects client.plans_, s.matches ctx.toMatchContext md = .ok true := by
  obtain ⟨made, hmade, hclient⟩ := bind_eq_ok_iff.mp hclient
  obtain ⟨-, -, hclient⟩ := bind_eq_ok_iff.mp hclient
  cases hclient
  rw [MultioClient.isFieldMatched, makePlans_spec hmade] at h
  obtain ⟨res, hres, h⟩ := bind_eq_ok_iff.mp h
  cases h
  have hor := matchesList_or hres
  simpa [MatchReduce.matches_toElem, Predicate.apply] using hor

/-- A message that asks for the field with these metadata to be taken. -/
def IsFieldOf (md : BaseMetadata) (msg : Message) : Prop := msg.tag = .field ∧ msg.metadata = md

/-- What some plan takes, and what comes to the end of some plan, the client has accepted. -/
structure Agrees (ctx : ClientContext) (client : MultioClient) (md : BaseMetadata) : Prop where
  plans : ∀ msg, IsFieldOf md msg → ∀ plan ∈ client.plans_,
    (∃ out, plan.process ctx.toMatchContext msg = .ok (some out)) →
      client.isFieldMatched ctx md = .ok true
  dispatch : ∀ msg, IsFieldOf md msg → ∀ outs, client.dispatch ctx msg = .ok outs →
    (∃ out, some out ∈ outs) → client.isFieldMatched ctx md = .ok true

theorem exists_process_of_dispatch {msg : Message} (htag : msg.tag = .field)
    {outs : List (Option Message)} (h : client.dispatch ctx msg = .ok outs) {out : Message}
    (hout : some out ∈ outs) :
    ∃ plan ∈ client.plans_, plan.process ctx.toMatchContext msg = .ok (some out) := by
  rw [MultioClient.dispatch, htag] at h
  have hall := mapM_eq_ok_iff.mp h
  obtain ⟨i, hi⟩ := List.get_of_mem hout
  have hlt : i.1 < client.plans_.length := i.2.trans_eq hall.length_eq.symm
  refine ⟨client.plans_.get ⟨i.1, hlt⟩, List.get_mem _ _, ?_⟩
  rw [hall.get hlt i.2, ← hi]

theorem matches_of_process {plan : Plan} (hplan : plan ∈ client.plans_) {msg out : Message}
    (hmsg : IsFieldOf md msg) (h : plan.process ctx.toMatchContext msg = .ok (some out))
    (hselects : plan.root_.selects ≠ []) :
    ∃ s ∈ firstSelects client.plans_, s.matches ctx.toMatchContext md = .ok true := by
  obtain ⟨htag, rfl⟩ := hmsg
  have hall := (plan.root_.execute_eq_some_iff htag).mp ⟨out, h⟩
  obtain ⟨s, rest, hs⟩ := List.exists_cons_of_ne_nil hselects
  refine ⟨s, List.mem_flatMap.mpr ⟨plan, hplan, ?_⟩, hall s ?_⟩
  · simp [hs]
  · simp [hs]

/-- The answer of a client agrees with its plans if every plan has a select action, or if the
first one of some plan matches the field. -/
theorem fieldAcceptance_iff {C : Type} (R : ConfigurationReader C) (ctx : ClientContext)
    (cfgs : List (PlanConfig C)) (client : MultioClient)
    (hclient : MultioClient.construct R ctx cfgs = .ok client) (md : BaseMetadata)
    (hquery : ∃ accepted, client.isFieldMatched ctx md = .ok accepted) :
    Agrees ctx client md ↔
      (∀ plan ∈ client.plans_, plan.root_.selects ≠ []) ∨
        ∃ s ∈ firstSelects client.plans_, s.matches ctx.toMatchContext md = .ok true := by
  obtain ⟨accepted, haccepted⟩ := hquery
  have hiff := isFieldMatched_eq_true_iff hclient haccepted
  constructor
  · intro hagrees
    by_cases hall : ∀ plan ∈ client.plans_, plan.root_.selects ≠ []
    · exact Or.inl hall
    · -- a plan without a select action takes the field
      push Not at hall
      obtain ⟨plan, hplan, hnone⟩ := hall
      let msg : Message := { header := { tag := .field, source := {}, destination := {},
                                         metadata := md } }
      have htrue := hagrees.plans msg ⟨rfl, rfl⟩ plan hplan
        ((plan.root_.execute_eq_some_iff rfl).mpr (by simp [hnone]))
      rw [haccepted] at htrue
      exact Or.inr (hiff.mp (Except.ok.inj htrue))
  · intro hcond
    have hplans : ∀ msg, IsFieldOf md msg → ∀ plan ∈ client.plans_,
        (∃ out, plan.process ctx.toMatchContext msg = .ok (some out)) →
          client.isFieldMatched ctx md = .ok true := by
      rintro msg hmsg plan hplan ⟨out, hout⟩
      rw [haccepted]
      congr 1
      apply hiff.mpr
      rcases hcond with hall | hsome
      · exact matches_of_process hplan hmsg hout (hall plan hplan)
      · exact hsome
    refine ⟨hplans, ?_⟩
    rintro msg hmsg outs houts ⟨out, hout⟩
    -- what comes out has come through a plan, whose first select has matched
    obtain ⟨plan, hplan, hprocess⟩ := exists_process_of_dispatch hmsg.1 houts hout
    exact hplans msg hmsg plan hplan ⟨out, hprocess⟩

end

def quietContext : ClientContext where
  parametrization := { bucketCount := 541 }
  toString _ := ""
  printValues _ := ""
  policy := { hash := String.length, nextBucketCount := fun _ => 541 }
  print _ := ""

/-- A `print` action passes messages on as they are. -/
def printing : Forwarding where
  apply msg := msg
  tag_apply _ htag := htag
  metadata_apply _ _ := rfl

def namedA : BaseMetadata := { bucketCount := 541, nodes := [("name", .string "a")] }

/-- The fields named `a` are written. -/
def writesNamedA : PlanConfig ConfigTree where
  name := "write-a"
  actions := [.chained printing,
    .select (.map [("match", .map [("name", .list [.string "a"])])]), .last]

def selectsNamedA : MatchReduce where
  matchers := [.matchKeys { predicate := .none, enforceSameKeyTypes := true,
                            matcher := [("name", [.string "a"])] }]
  reduce := .or
  predicate := .none

def clientOfNamedA : MultioClient where
  plans_ := [⟨"write-a", .forward printing (.select selectsNamedA .last)⟩]
  activeSelectors_ := { matchers := [selectsNamedA.toElem], reduce := .or, predicate := .none }

theorem fieldAcceptance_iff_namedA : Agrees quietContext clientOfNamedA namedA := by
  have hselect : MatchReduce.construct ConfigTree.reader quietContext.policy
      (.map [("match", .map [("name", .list [.string "a"])])]) .none true = .ok selectsNamedA := by
    rw [MatchReduce.construct_eq]
    rfl
  have hconstruct : MultioClient.construct ConfigTree.reader quietContext [writesNamedA] =
      .ok clientOfNamedA := by
    simp only [MultioClient.construct, Plan.makePlans, Plan.construct, writesNamedA, buildActions,
      hselect]
    rfl
  apply (fieldAcceptance_iff ConfigTree.reader quietContext [writesNamedA] clientOfNamedA
    hconstruct namedA ⟨true, rfl⟩).mpr
  left
  simp [clientOfNamedA, Action.selects]

def writesAll : PlanConfig ConfigTree where
  name := "write-all"
  actions := [.chained printing, .last]

/-- The only plan of the client takes the field, and the client does not accept it. -/
theorem takes_unaccepted :
    ∃ client, MultioClient.construct ConfigTree.reader quietContext [writesAll] = .ok client ∧
      (∃ msg out, IsFieldOf namedA msg ∧ client.dispatch quietContext msg = .ok [some out]) ∧
      client.isFieldMatched quietContext namedA = .ok false ∧
      ¬ Agrees quietContext client namedA := by
  let msg : Message := { header := { tag := .field, source := {}, destination := {},
                                     metadata := namedA } }
  refine ⟨⟨[⟨"write-all", .forward printing .last⟩], { reduce := .or, predicate := .none }⟩, rfl,
    ⟨msg, msg, ⟨rfl, rfl⟩, rfl⟩, rfl, ?_⟩
  intro hagrees
  have haccepted := hagrees.dispatch msg ⟨rfl, rfl⟩ [some msg] rfl ⟨msg, List.mem_singleton_self _⟩
  exact Bool.false_ne_true (Except.ok.inj haccepted)

end Multio.Server.Client
