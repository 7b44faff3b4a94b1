import Multio.Domain.DomainConsistency

namespace Multio
open Exception Lib

def Exception.Thrown (e : Exception) : Prop := ∀ what, e ≠ .undefinedBehaviour what

instance (e : Exception) : Decidable e.Thrown :=
  match e with
  | .undefinedBehaviour what => .isFalse fun h => h what rfl
  | .assertionFailed _ | .seriousBug _ | .userError _ | .notImplemented _ | .outOfRange _
  | .badAlloc | .dataModelling _ | .metadata _ | .metadataKey _ _ | .metadataMissingKey _
  | .metadataWrongType _ _ | .metadataWrongTypeKey _ | .transport _ | .maskCompression _
  | .lengthError _ | .badValue _ | .invalidArgument _ | .terminate =>
    .isTrue fun _ h => by cases h

namespace Mappings

/-- `isComplete` of the map of a name. -/
def isComplete (m : Mappings) (name : String) : Except Exception Bool := do
  let d ← m.get name
  d.isComplete

variable (ctx : Context)

/-- The message has left nothing behind: the mappings are as before, and after any further calls
every query answers as if it had not been added. -/
structure NeverArrived (m : Mappings) (msg : Message) : Prop where
  unchanged : m.afterAdd ctx msg = m
  get_eq : ∀ (calls : List Call) name, (calls.foldl (step ctx) (m.afterAdd ctx msg)).get name =
    (calls.foldl (step ctx) m).get name
  isComplete_eq : ∀ (calls : List Call) name, (calls.foldl (step ctx) (m.afterAdd ctx msg)).isComplete name =
    (calls.foldl (step ctx) m).isComplete name

def NameSettled (m : Mappings) (msg : Message) : Prop :=
  match msg.name ctx with
  | .ok name => (m.find? name).isSome
  | .error _ => True

variable {ctx} {m : Mappings} {msg : Message}

theorem NeverArrived.of_unchanged (h : m.afterAdd ctx msg = m) : m.NeverArrived ctx msg where
  unchanged := h
  get_eq := by
    intro calls name
    rw [h]
  isComplete_eq := by
    intro calls name
    rw [h]

theorem afterAdd_of_throw {e : Exception} (hthrow : m.add ctx msg = .error e) {name : String}
    (hname : msg.name ctx = .ok name) :
    m.afterAdd ctx msg = m.insert name ((m.find? name).getD {}) := by
  rw [afterAdd, hthrow]
  simp only [hname]

/-- A call of `add` that throws leaves nothing behind exactly when the message's name cannot be
read or had a map before. -/
theorem add_atomic_iff {e : Exception} (hthrow : m.add ctx msg = .error e) (_ : e.Thrown) :
    m.NeverArrived ctx msg ↔ m.NameSettled ctx msg := by
  rw [NameSettled]
  cases hname : msg.name ctx with
  | error err =>
    refine ⟨fun _ => trivial, fun _ => NeverArrived.of_unchanged ?_⟩
    rw [afterAdd, hthrow]
    simp only [hname]
  | ok name =>
    have hafter := afterAdd_of_throw hthrow hname
    simp only
    cases hfind : m.find? name with
    | none =>
      constructor
      · intro harrived
        -- the new entry is found where there was none
        have hnew : (m.insert name ((m.find? name).getD {})).find? name =
            some ((m.find? name).getD {}) := by
          rw [OrderedMap.find?_insert, if_pos rfl]
        rw [← hafter, harrived.unchanged, hfind] at hnew
        cases hnew
      · intro hsome
        cases hsome
    | some d =>
      refine ⟨fun _ => rfl, fun _ => NeverArrived.of_unchanged ?_⟩
      rw [hafter, hfind]
      exact OrderedMap.insert_of_find? hfind

def silentContext : Context where
  parametrization := { bucketCount := 541 }
  toString _ := ""

def meshDomain : Message where
  header := { tag := .domain, source := { group := "c", id := 0 }, destination := {},
              metadata := { bucketCount := 541,
                            nodes := [("name", .string "grid"),
                                      ("representation", .string "mesh")] } }

def refusal : Exception := .assertionFailed "Unsupported domain representation mesh"

/-- With a map for the name, also one without parts, nothing is left behind. -/
theorem add_atomic_iff_two :
    NeverArrived silentContext ((∅ : Mappings).insert "grid" {}) meshDomain ↔
      NameSettled silentContext ((∅ : Mappings).insert "grid" {}) meshDomain :=
  add_atomic_iff (e := refusal) rfl (by decide)

/-- The first query for the name is refused; behind the message it reads the first part of a map
that has none. -/
theorem refused_domain_stays :
    (∅ : Mappings).add silentContext meshDomain = .error refusal ∧
      (∅ : Mappings).isComplete "grid" =
        .error (.assertionFailed "Cannot find domainMaps for grid") ∧
      ((∅ : Mappings).afterAdd silentContext meshDomain).isComplete "grid" =
        .error (.undefinedBehaviour "dereferenced end iterator") ∧
      ¬NeverArrived silentContext ∅ meshDomain := by
  have hbefore : (∅ : Mappings).isComplete "grid" =
      .error (.assertionFailed "Cannot find domainMaps for grid") := rfl
  have hafter : ((∅ : Mappings).afterAdd silentContext meshDomain).isComplete "grid" =
      .error (.undefinedBehaviour "dereferenced end iterator") := rfl
  refine ⟨rfl, hbefore, hafter, ?_⟩
  intro harrived
  rw [harrived.unchanged, hbefore] at hafter
  cases hafter

end Mappings
end Multio
