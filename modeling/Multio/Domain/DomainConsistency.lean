import Multio.Domain.Mappings
import Multio.Domain.DomainScatter
import Multio.Lib.FiniteSets
import Mathlib.Algebra.BigOperators.Ring.Finset
import Mathlib.Data.Int.ConditionallyCompleteOrder
import Mathlib.Data.Int.Interval

namespace Multio
open Exception Lib

/-- One point of the loops of `collectIndicesImpl`. -/
def Structured.collectPoint (s : Structured) (j : ℤ) (glIndices : Finset ℤ) (i : ℤ) :
    Except Exception (Finset ℤ) :=
  if inRange i 0 s.ni && inRange j 0 s.nj then do
    let gidx ← s.globalIndex i j
    assert (gidx ∉ glIndices) "glIndices.find(gidx) == std::end(glIndices)"
    .ok (insert gidx glIndices)
  else .ok glIndices

def Structured.collectRow (s : Structured) (glIndices : Finset ℤ) (j : ℤ) :
    Except Exception (Finset ℤ) := do
  let is ← loopRange s.dataIbegin s.dataNi
  is.foldlM (s.collectPoint j) glIndices

def mismatch : Exception := .seriousBug "Mismatch between sizes of index map and local field"

def Structured.collectIndices (s : Structured) (precision : PrecisionTag) (payload : List UInt8)
    (glIndices : Finset ℤ) : Except Exception (Finset ℤ) := do
  let gridSize ← int32 (s.niGlobal * s.njGlobal)
  assert (glIndices.card < gridSize % 2 ^ 64) "glIndices.size() < ni_global * nj_global"
  let dataSize ← int32 (s.dataNi * s.dataNj)
  if ((payload.length / precision.size : ℕ) : ℤ) ≠ dataSize then .error mismatch
  else do
    let js ← loopRange s.dataJbegin s.dataNj
    js.foldlM s.collectRow glIndices

/-- `msg` is the local message, whose payload has to fit the part. -/
def Domain.collectIndices (ctx : Context) (d : Domain) (msg : Message)
    (glIndices : Finset ℤ) : Except Exception (Finset ℤ) := do
  let precision ← msg.precision ctx
  match d with
  | .unstructured definition _ =>
    if msg.size / precision.size ≠ definition.length then .error mismatch
    else .ok (definition.foldl (fun gl idx => insert idx gl) glIndices)
  | .structured s => s.collectIndices precision msg.payload glIndices

namespace Mappings

variable (ctx : Context)

def collectLocal (m : Mappings) (glIndices : Finset ℤ) (msg : Message) :
    Except Exception (Finset ℤ) := do
  let domainMap ← m.get (← msg.domain ctx)
  let domain ← domainMap.at_ msg.source
  domain.collectIndices ctx msg glIndices

def checkDomainConsistency (m : Mappings) (localDomains : List Message) :
    Except Exception Mappings :=
  match localDomains.getLast? with
  | none => .error (.undefinedBehaviour "back of an empty vector")
  | some last => do
    let name ← last.domain ctx
    let domainMap ← m.get name
    if domainMap.consistent then .ok m
    else do
      -- unique indices are counted; whether they lie within the field is not looked at
      let globalIndices ← localDomains.foldlM (m.collectLocal ctx) ∅
      let globalSize ← last.globalSize ctx
      if (globalIndices.card : ℤ) ≠ globalSize % 2 ^ 64 then
        .error (.seriousBug ("Number of inserted unique indices: " ++
          toString globalIndices.card ++ " (expected " ++ toString (globalSize % 2 ^ 64) ++ ")"))
      else .ok (m.insert name { domainMap with consistent := true })

inductive Call
  | add (msg : Message)
  | checkDomainConsistency (localDomains : List Message)

/-- What `add` leaves behind: the name has an entry also when it throws. -/
def afterAdd (m : Mappings) (msg : Message) : Mappings :=
  match m.add ctx msg with
  | .ok m' => m'
  | .error _ =>
    match msg.name ctx with
    | .ok name => m.insert name ((m.find? name).getD {})
    | .error _ => m

/-- The mappings after a call, which leaves the flags as they are when it throws. -/
def step (m : Mappings) : Call → Mappings
  | .add msg => m.afterAdd ctx msg
  | .checkDomainConsistency localDomains =>
    match m.checkDomainConsistency ctx localDomains with
    | .ok m' => m'
    | .error _ => m

def run (calls : List Call) : Mappings := calls.foldl (step ctx) ∅

end Mappings

def Domain.globalSize : Domain → ℤ
  | .unstructured _ globalSize => globalSize
  | .structured s => s.niGlobal * s.njGlobal

def Structured.pointIndices (s : Structured) (j i : ℤ) : List ℤ :=
  if inRange i 0 s.ni && inRange j 0 s.nj then [(s.jbegin + j) * s.niGlobal + (s.ibegin + i)]
  else []

def dataRange (low n : ℤ) : List ℤ := (List.range n.toNat).map fun (k : ℕ) => low + k

def Structured.indices (s : Structured) : List ℤ :=
  (dataRange s.dataJbegin s.dataNj).flatMap fun j =>
    (dataRange s.dataIbegin s.dataNi).flatMap fun i => s.pointIndices j i

def Domain.indices : Domain → List ℤ
  | .unstructured definition _ => definition
  | .structured s => s.indices

def DomainMap.partIndices (dm : DomainMap) (p : Peer) : Finset ℤ :=
  ((dm.domainMap.find? p).map fun d => d.indices.toFinset).getD ∅

/-- The index sets of the parts are disjoint and their union is that of the field. -/
structure DomainMap.Tiles (dm : DomainMap) : Prop where
  disjoint : ∀ p ∈ dm.domainMap.keys, ∀ q ∈ dm.domainMap.keys, p ≠ q →
    Disjoint (dm.partIndices p) (dm.partIndices q)
  covers : ∀ p d, dm.domainMap.find? p = some d →
    dm.domainMap.keys.biUnion dm.partIndices = Finset.Ico 0 d.globalSize

def Mappings.FlagsTile (m : Mappings) : Prop :=
  ∀ name dm, m.find? name = some dm → dm.consistent = true → dm.Tiles

theorem foldl_insert (xs : List ℤ) (gl : Finset ℤ) :
    xs.foldl (fun gl x => insert x gl) gl = gl ∪ xs.toFinset := by
  induction xs generalizing gl with
  | nil => simp
  | cons x xs ih =>
    rw [List.foldl_cons, ih, List.toFinset_cons, Finset.insert_union, Finset.union_insert]

theorem foldlM_union {β : Type} {f : Finset ℤ → β → Except Exception (Finset ℤ)} {g : β → List ℤ}
    (hf : ∀ x gl gl', f gl x = .ok gl' → gl' = gl ∪ (g x).toFinset) {xs : List β}
    {gl gl' : Finset ℤ} (h : xs.foldlM f gl = .ok gl') : gl' = gl ∪ (xs.flatMap g).toFinset := by
  induction xs generalizing gl with
  | nil =>
    cases h
    simp
  | cons x xs ih =>
    rw [List.foldlM_cons] at h
    obtain ⟨gl₁, hx, hrest⟩ := bind_eq_ok_iff.mp h
    rw [ih hrest, hf x gl gl₁ hx, List.flatMap_cons, List.toFinset_append, Finset.union_assoc]

namespace Structured

variable {s : Structured} {gl gl' : Finset ℤ}

theorem collectPoint_ok {j i : ℤ} (h : s.collectPoint j gl i = .ok gl') :
    gl' = gl ∪ (s.pointIndices j i).toFinset := by
  unfold collectPoint at h
  unfold pointIndices
  split_ifs at h ⊢ with hin
  · obtain ⟨gidx, hgidx, h⟩ := bind_eq_ok_iff.mp h
    obtain ⟨-, -, h⟩ := bind_eq_ok_iff.mp h
    cases h
    rw [eq_of_globalIndex hgidx, List.toFinset_cons, List.toFinset_nil, insert_empty_eq,
      Finset.union_comm]
    rfl
  · cases h
    simp

theorem collectIndices_ok {precision : PrecisionTag} {payload : List UInt8}
    (h : s.collectIndices precision payload gl = .ok gl') : gl' = gl ∪ s.indices.toFinset := by
  obtain ⟨gridSize, -, h⟩ := bind_eq_ok_iff.mp h
  obtain ⟨-, -, h⟩ := bind_eq_ok_iff.mp h
  obtain ⟨dataSize, -, h⟩ := bind_eq_ok_iff.mp h
  split_ifs at h
  obtain ⟨js, hjs, h⟩ := bind_eq_ok_iff.mp h
  rw [eq_of_loopRange hjs] at h
  apply foldlM_union _ h
  intro j gl gl' hrow
  obtain ⟨is, his, hrow⟩ := bind_eq_ok_iff.mp hrow
  rw [eq_of_loopRange his] at hrow
  exact foldlM_union (fun i gl gl' hpoint => collectPoint_ok hpoint) hrow

end Structured

theorem Domain.collectIndices_ok {ctx : Context} {d : Domain} {msg : Message}
    {gl gl' : Finset ℤ} (h : d.collectIndices ctx msg gl = .ok gl') :
    gl' = gl ∪ d.indices.toFinset := by
  obtain ⟨precision, -, h⟩ := bind_eq_ok_iff.mp h
  cases d with
  | unstructured definition globalSize =>
    dsimp only at h
    split_ifs at h
    cases h
    exact foldl_insert definition gl
  | structured s => exact Structured.collectIndices_ok h

/-- The parts of a map fit a field of `n` values, and only their messages are checked. -/
structure DomainMap.FitsField (dm : DomainMap) (n : ℤ) : Prop where
  int64 : n < 2 ^ 63
  globalSize : ∀ p d, dm.domainMap.find? p = some d → d.globalSize = n
  inRange : ∀ p ∈ dm.domainMap.keys, ∀ g ∈ dm.partIndices p, 0 ≤ g ∧ g < n
  sum_card : ∑ p ∈ dm.domainMap.keys, ((dm.partIndices p).card : ℤ) = n

/-- What a call that flags a map, or adds to a flagged one, has to meet. -/
def Mappings.Admissible (ctx : Context) (m : Mappings) : Call → Prop
  | .add msg => ∀ name dm domain, msg.name ctx = .ok name → m.find? name = some dm →
      dm.consistent = true → dm.domainMap.contains msg.source = false →
      makeDomain ctx msg = .ok domain →
      domain.indices = [] ∧
        ∃ p d, dm.domainMap.find? p = some d ∧ d.globalSize = domain.globalSize
  | .checkDomainConsistency localDomains => (m.checkDomainConsistency ctx localDomains).isOk →
      ∀ last name dm n, localDomains.getLast? = some last → last.domain ctx = .ok name →
      m.find? name = some dm → dm.consistent = false → last.globalSize ctx = .ok n →
      dm.FitsField n ∧ ∀ msg ∈ localDomains, msg.domain ctx = .ok name

theorem DomainMap.partIndices_of_find {dm : DomainMap} {p : Peer} {d : Domain}
    (h : dm.domainMap.find? p = some d) : dm.partIndices p = d.indices.toFinset := by
  rw [partIndices, h]
  rfl

/-- Parts that fit a field tile it when there are as many indices as values. -/
theorem DomainMap.FitsField.tiles {dm : DomainMap} {n : ℤ} (h : dm.FitsField n)
    (hcard : n ≤ (dm.domainMap.keys.biUnion dm.partIndices).card) : dm.Tiles := by
  have hsum : (∑ p ∈ dm.domainMap.keys, (dm.partIndices p).card : ℕ) = n := by
    rw [← h.sum_card, Nat.cast_sum]
  have hle := Finset.card_biUnion_le (s := dm.domainMap.keys) (t := dm.partIndices)
  constructor
  · exact disjoint_of_sum_card_le (by omega)
  · intro p d hp
    rw [h.globalSize p d hp]
    refine biUnion_eq_of_card_le ?_ fun p hp g hg => Finset.mem_Ico.mpr (h.inRange p hp g hg)
    rw [Int.card_Ico, sub_zero]
    omega

namespace Mappings

variable {ctx : Context} {m m' : Mappings}

theorem get_eq_ok_iff {name : String} {dm : DomainMap} :
    m.get name = .ok dm ↔ m.find? name = some dm := by
  unfold get
  cases m.find? name <;> simp

theorem collected_subset {name : String} {dm : DomainMap} (hdm : m.find? name = some dm)
    {msgs : List Message} (hname : ∀ msg ∈ msgs, msg.domain ctx = .ok name) {gl gl' : Finset ℤ}
    (h : msgs.foldlM (m.collectLocal ctx) gl = .ok gl') :
    gl' ⊆ gl ∪ dm.domainMap.keys.biUnion dm.partIndices := by
  induction msgs generalizing gl with
  | nil =>
    cases h
    exact Finset.subset_union_left
  | cons msg msgs ih =>
    rw [List.forall_mem_cons] at hname
    rw [List.foldlM_cons] at h
    obtain ⟨gl₁, hmsg, hrest⟩ := bind_eq_ok_iff.mp h
    rw [collectLocal, hname.1, ok_bind, get_eq_ok_iff.mpr hdm, ok_bind] at hmsg
    obtain ⟨d, hd, hcollect⟩ := bind_eq_ok_iff.mp hmsg
    have hfind : dm.domainMap.find? msg.source = some d := by
      rw [DomainMap.at_] at hd
      cases hp : dm.domainMap.find? msg.source with
      | none => rw [hp] at hd; cases hd
      | some d' => rw [hp] at hd; cases hd; rfl
    have hpart : d.indices.toFinset ⊆ dm.domainMap.keys.biUnion dm.partIndices := by
      rw [← DomainMap.partIndices_of_find hfind]
      exact Finset.subset_biUnion_of_mem _ (OrderedMap.mem_keys.mpr ⟨d, hfind⟩)
    refine (ih hname.2 hrest).trans ?_
    rw [Domain.collectIndices_ok hcollect]
    exact Finset.union_subset (Finset.union_subset_union_right hpart) Finset.subset_union_right

/-- A check that succeeds leaves the mappings alone or flags the map of the last message. -/
theorem checkDomainConsistency_cases {localDomains : List Message}
    (h : m.checkDomainConsistency ctx localDomains = .ok m') :
    m' = m ∨ ∃ last name dm n gl, localDomains.getLast? = some last ∧
      last.domain ctx = .ok name ∧ m.find? name = some dm ∧ dm.consistent = false ∧
      last.globalSize ctx = .ok n ∧ localDomains.foldlM (m.collectLocal ctx) ∅ = .ok gl ∧
      (gl.card : ℤ) = n % 2 ^ 64 ∧ m' = m.insert name { dm with consistent := true } := by
  unfold checkDomainConsistency at h
  split at h
  · cases h
  next last hlast =>
    obtain ⟨name, hname, h⟩ := bind_eq_ok_iff.mp h
    obtain ⟨dm, hdm, h⟩ := bind_eq_ok_iff.mp h
    split_ifs at h with hconsistent
    · cases h
      exact .inl rfl
    · obtain ⟨gl, hgl, h⟩ := bind_eq_ok_iff.mp h
      obtain ⟨n, hn, h⟩ := bind_eq_ok_iff.mp h
      split_ifs at h with hcard
      cases h
      exact .inr ⟨last, name, dm, n, gl, hlast, hname, get_eq_ok_iff.mp hdm,
        Bool.eq_false_of_not_eq_true hconsistent, hn, hgl, not_not.mp hcard, rfl⟩

/-- What `add` leaves behind: at most an entry for the name, with the parts it had or one more. -/
theorem afterAdd_cases (ctx : Context) (m : Mappings) (msg : Message) :
    m.afterAdd ctx msg = m ∨ ∃ name, msg.name ctx = .ok name ∧
      (m.afterAdd ctx msg = m.insert name ((m.find? name).getD {}) ∨
        ∃ domain, ((m.find? name).getD {}).domainMap.contains msg.source = false ∧
          makeDomain ctx msg = .ok domain ∧
          m.afterAdd ctx msg = m.insert name
            { (m.find? name).getD {} with
              domainMap := ((m.find? name).getD {}).domainMap.emplace msg.source domain }) := by
  unfold afterAdd add
  cases hname : msg.name ctx with
  | error e => exact .inl rfl
  | ok name =>
    refine .inr ⟨name, rfl, ?_⟩
    rw [ok_bind]
    dsimp only
    cases hcontains : ((m.find? name).getD {}).domainMap.contains msg.source with
    | true => exact .inl rfl
    | false =>
      rw [if_neg Bool.false_ne_true]
      cases hdomain : makeDomain ctx msg with
      | error e => exact .inl rfl
      | ok domain => exact .inr ⟨domain, rfl, rfl, rfl⟩

theorem FlagsTile.insert (hm : m.FlagsTile) {name : String} {dm : DomainMap}
    (hdm : dm.consistent = true → dm.Tiles) : FlagsTile (m.insert name dm) := by
  intro name' dm' hfind hconsistent
  rw [OrderedMap.find?_insert] at hfind
  split_ifs at hfind with hname
  · cases hfind
    exact hdm hconsistent
  · exact hm name' dm' hfind hconsistent

theorem tiles_emplace {dm : DomainMap} (hdm : dm.Tiles) {peer : Peer} {domain : Domain}
    (hcontains : dm.domainMap.contains peer = false) (hempty : domain.indices = [])
    (hsize : ∃ p d, dm.domainMap.find? p = some d ∧ d.globalSize = domain.globalSize) :
    DomainMap.Tiles { dm with domainMap := dm.domainMap.emplace peer domain } := by
  have hnone : dm.domainMap.find? peer = none := OrderedMap.not_contains_iff.mp hcontains
  rw [OrderedMap.emplace_of_none domain hnone]
  set dm' : DomainMap := { dm with domainMap := dm.domainMap.insert peer domain } with hdm'
  have hold : ∀ p ≠ peer, dm'.partIndices p = dm.partIndices p := by
    intro p hp
    rw [DomainMap.partIndices, DomainMap.partIndices, OrderedMap.find?_insert, if_neg hp]
  have hnew : dm'.partIndices peer = ∅ := by
    rw [DomainMap.partIndices, OrderedMap.find?_insert, if_pos rfl, Option.map_some, hempty]
    rfl
  have hmem : ∀ p ∈ dm'.domainMap.keys, p ≠ peer → p ∈ dm.domainMap.keys := by
    intro p hp hne
    rw [OrderedMap.keys_insert] at hp
    exact (Finset.mem_insert.mp hp).resolve_left hne
  -- the part that joins has no indices, so the union stays what it was
  have hunion : dm'.domainMap.keys.biUnion dm'.partIndices =
      dm.domainMap.keys.biUnion dm.partIndices := by
    have hkeys : dm'.domainMap.keys = insert peer dm.domainMap.keys := OrderedMap.keys_insert ..
    have hout : peer ∉ dm.domainMap.keys := by
      rw [OrderedMap.mem_keys, hnone]
      simp
    rw [hkeys, Finset.biUnion_insert, hnew, Finset.empty_union]
    apply Finset.biUnion_congr rfl
    intro p hp
    exact hold p fun heq => hout (heq ▸ hp)
  constructor
  · intro p hp q hq hne
    by_cases hp' : p = peer
    · rw [hp', hnew]
      exact Finset.disjoint_empty_left _
    by_cases hq' : q = peer
    · rw [hq', hnew]
      exact Finset.disjoint_empty_right _
    · rw [hold p hp', hold q hq']
      exact hdm.disjoint p (hmem p hp hp') q (hmem q hq hq') hne
  · intro p d hp
    rw [hunion]
    rw [OrderedMap.find?_insert] at hp
    split_ifs at hp with hpeer
    · cases hp
      obtain ⟨p', d', hp', hsize'⟩ := hsize
      rw [← hsize']
      exact hdm.covers p' d' hp'
    · exact hdm.covers p d hp

theorem afterAdd_flagsTile (hm : m.FlagsTile) {msg : Message}
    (hcall : m.Admissible ctx (.add msg)) : (m.afterAdd ctx msg).FlagsTile := by
  rcases m.afterAdd_cases ctx msg with h | ⟨name, hname, h | ⟨domain, hpeer, hdomain, h⟩⟩
  · rw [h]
    exact hm
  · rw [h]
    apply hm.insert
    intro hconsistent
    cases hfind : m.find? name with
    | none => rw [hfind] at hconsistent; cases hconsistent
    | some dm =>
      rw [hfind] at hconsistent
      exact hm name dm hfind hconsistent
  · rw [h]
    apply hm.insert
    intro hconsistent
    cases hfind : m.find? name with
    | none => rw [hfind] at hconsistent; cases hconsistent
    | some dm =>
      rw [hfind] at hconsistent hpeer
      obtain ⟨hempty, hsize⟩ := hcall name dm domain hname hfind hconsistent hpeer hdomain
      exact tiles_emplace (hm name dm hfind hconsistent) hpeer hempty hsize

theorem checkDomainConsistency_flagsTile (hm : m.FlagsTile) {localDomains : List Message}
    (hcall : m.Admissible ctx (.checkDomainConsistency localDomains))
    (h : m.checkDomainConsistency ctx localDomains = .ok m') : m'.FlagsTile := by
  have hok : (m.checkDomainConsistency ctx localDomains).isOk := by
    rw [h]
    rfl
  rcases checkDomainConsistency_cases h with
    rfl | ⟨last, name, dm, n, gl, hlast, hname, hfind, hconsistent, hn, hgl, hcard, rfl⟩
  · exact hm
  · obtain ⟨hfits, hnames⟩ := hcall hok last name dm n hlast hname hfind hconsistent hn
    have hsub := collected_subset hfind hnames hgl
    rw [Finset.empty_union] at hsub
    have hle := Finset.card_le_card hsub
    have hpos : 0 ≤ n := by
      rw [← hfits.sum_card]
      exact Finset.sum_nonneg fun p _ => Int.natCast_nonneg _
    have hint := hfits.int64
    rw [Int.emod_eq_of_lt hpos (by omega)] at hcard
    have htiles : dm.Tiles := hfits.tiles (by omega)
    exact hm.insert fun _ => ⟨htiles.disjoint, htiles.covers⟩

theorem step_flagsTile (hm : m.FlagsTile) {call : Call} (hcall : m.Admissible ctx call) :
    (m.step ctx call).FlagsTile := by
  cases call with
  | add msg => exact afterAdd_flagsTile hm hcall
  | checkDomainConsistency localDomains =>
    unfold step
    dsimp only
    cases h : m.checkDomainConsistency ctx localDomains with
    | error e => exact hm
    | ok m' => exact checkDomainConsistency_flagsTile hm hcall h

/-- In every run of admissible calls, the parts of the flagged maps tile their field in every
state that is reached. -/
theorem consistent_maps_tile (ctx : Context) (calls : List Call)
    (hcalls : ∀ pre call post, calls = pre ++ call :: post → (run ctx pre).Admissible ctx call) :
    ∀ pre, pre <+: calls → (run ctx pre).FlagsTile := by
  intro pre hpre
  induction pre using List.reverseRecOn with
  | nil =>
    intro name dm hfind
    cases hfind
  | append_singleton pre call ih =>
    obtain ⟨post, hpost⟩ := hpre
    rw [run, List.foldl_append]
    rw [List.append_assoc, List.singleton_append] at hpost
    exact step_flagsTile (ih ⟨_, hpost⟩) (hcalls pre call post hpost.symm)

def indexContext : Context where
  parametrization := { bucketCount := 541 }
  toString _ := "f"

def indexMessage (i : ℕ) (index : UInt8) : Message where
  header := { tag := .domain, source := { group := "c", id := i }, destination := {},
              metadata := { bucketCount := 541,
                            nodes := [("name", .string "grid"),
                                      ("representation", .string "unstructured"),
                                      ("misc-globalSize", .int64 2)] } }
  payload := [index, 0, 0, 0]

def localField (i : ℕ) : Message where
  header := { tag := .field, source := { group := "c", id := i }, destination := {},
              metadata := { bucketCount := 541,
                            nodes := [("domain", .string "grid"),
                                      ("misc-precision", .string "single"),
                                      ("misc-globalSize", .int64 2)] } }
  payload := [0, 0, 0, 0]

def indexCalls (second : UInt8) : List Call :=
  [.add (indexMessage 0 0), .add (indexMessage 1 second),
    .checkDomainConsistency [localField 0, localField 1]]

def indexMap (second : UInt8) (consistent : Bool) : DomainMap where
  domainMap := ((∅ : OrderedMap Peer Domain).insert { group := "c", id := 0 }
    (.unstructured [0] 2)).insert { group := "c", id := 1 } (.unstructured [second.toNat] 2)
  consistent

theorem mem_indexMap {second : UInt8} {consistent : Bool} {p : Peer}
    (hp : p ∈ (indexMap second consistent).domainMap.keys) :
    p = { group := "c", id := 0 } ∨ p = { group := "c", id := 1 } := by
  rw [indexMap, OrderedMap.keys_insert, OrderedMap.keys_insert] at hp
  simp only [Finset.mem_insert] at hp
  rcases hp with hp | hp | hp
  · exact .inr hp
  · exact .inl hp
  · exact absurd hp (Finset.notMem_empty p)

theorem indexMap_fitsField : (indexMap 1 false).FitsField 2 where
  int64 := by decide
  globalSize p d hp := by
    rcases mem_indexMap (OrderedMap.mem_keys.mpr ⟨d, hp⟩) with rfl | rfl <;> cases hp <;> rfl
  inRange p hp := by rcases mem_indexMap hp with rfl | rfl <;> decide
  sum_card := by decide

theorem consistent_maps_tile_two : ∃ dm, (run indexContext (indexCalls 1)).find? "grid" = some dm ∧
    dm.consistent = true ∧ dm.Tiles := by
  refine ⟨indexMap 1 true, rfl, rfl, consistent_maps_tile indexContext (indexCalls 1) ?_ _
    (List.prefix_refl _) "grid" _ rfl rfl⟩
  rintro (_ | ⟨c₀, _ | ⟨c₁, _ | ⟨c₂, pre⟩⟩⟩) call post h
  · obtain ⟨rfl, -⟩ := List.cons.inj h
    intro name dm domain _ hfind
    cases hfind
  · obtain ⟨rfl, hrest⟩ := List.cons.inj h
    obtain ⟨rfl, -⟩ := List.cons.inj hrest
    intro name dm domain hname hfind hconsistent
    obtain rfl := Except.ok.inj hname
    cases hfind
    cases hconsistent
  · obtain ⟨rfl, hrest⟩ := List.cons.inj h
    obtain ⟨rfl, hrest'⟩ := List.cons.inj hrest
    obtain ⟨rfl, -⟩ := List.cons.inj hrest'
    intro _ last name dm n hlast hname hfind _ hn
    cases hlast
    cases hname
    cases hfind
    cases hn
    refine ⟨indexMap_fitsField, ?_⟩
    simp only [List.mem_cons, List.not_mem_nil, or_false]
    rintro msg (rfl | rfl) <;> rfl
  · simp [indexCalls] at h

theorem stray_index_is_consistent : ¬ (run indexContext (indexCalls 7)).FlagsTile := by
  intro h
  have hcovers := (h "grid" (indexMap 7 true) rfl rfl).covers { group := "c", id := 0 }
    (.unstructured [0] 2) rfl
  revert hcovers
  decide

end Mappings
end Multio
