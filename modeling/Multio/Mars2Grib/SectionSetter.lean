import Mathlib.Data.List.Basic

namespace Multio.Mars2Grib

/-- `DynSectionSetter::Config`. -/
structure SectionInfo where
  registerPrepare : Bool
  registerAllocate : Bool
  registerPreset : Bool
  registerRuntime : Bool
  registerCheck : Bool
  deriving DecidableEq, Repr

/-- A setter; `Keys` are the records that its methods are passed. What is not implemented does
nothing. -/
structure DynSectionSetter (Handle Keys ε : Type) where
  sectionInfo : SectionInfo
  prepare : Handle → Keys → Except ε Handle := fun h _ => .ok h
  allocate : Handle → Keys → Except ε Handle := fun h _ => .ok h
  preset : Handle → Keys → Except ε Handle := fun h _ => .ok h
  runtime : Handle → Keys → Except ε Handle := fun h _ => .ok h
  check : Handle → Keys → Except ε Unit := fun _ _ => .ok ()

structure SectionCollector (Handle Keys ε : Type) where
  prepare_ : List (DynSectionSetter Handle Keys ε) := []
  allocate_ : List (DynSectionSetter Handle Keys ε) := []
  preset_ : List (DynSectionSetter Handle Keys ε) := []
  runtime_ : List (DynSectionSetter Handle Keys ε) := []
  check_ : List (DynSectionSetter Handle Keys ε) := []

namespace SectionCollector

variable {Handle Keys ε : Type}

def add (c : SectionCollector Handle Keys ε) (sect : DynSectionSetter Handle Keys ε) :
    SectionCollector Handle Keys ε :=
  let config := sect.sectionInfo
  { prepare_ := if config.registerPrepare then c.prepare_ ++ [sect] else c.prepare_
    allocate_ := if config.registerAllocate then c.allocate_ ++ [sect] else c.allocate_
    preset_ := if config.registerPreset then c.preset_ ++ [sect] else c.preset_
    runtime_ := if config.registerRuntime then c.runtime_ ++ [sect] else c.runtime_
    check_ := if config.registerCheck then c.check_ ++ [sect] else c.check_ }

/-- A collector to which the setters have been added one after the other. -/
def ofSections (sections : List (DynSectionSetter Handle Keys ε)) :
    SectionCollector Handle Keys ε :=
  sections.foldl add {}

variable (c : SectionCollector Handle Keys ε) (keys : Keys)

def prepare (h : Handle) : Except ε Handle := c.prepare_.foldlM (fun h s => s.prepare h keys) h

def allocate (h : Handle) : Except ε Handle := c.allocate_.foldlM (fun h s => s.allocate h keys) h

def preset (h : Handle) : Except ε Handle := c.preset_.foldlM (fun h s => s.preset h keys) h

def runtime (h : Handle) : Except ε Handle := c.runtime_.foldlM (fun h s => s.runtime h keys) h

def called (call : DynSectionSetter Handle Keys ε → Except ε Unit) :
    List (DynSectionSetter Handle Keys ε) → List (DynSectionSetter Handle Keys ε) × Except ε Unit
  | [] => ([], .ok ())
  | s :: sections =>
    match call s with
    | .error e => ([s], .error e)
    | .ok () =>
      let (calls, result) := called call sections
      (s :: calls, result)

/-- The loop goes over the setters that are registered for `runtime`. -/
def check (h : Handle) : List (DynSectionSetter Handle Keys ε) × Except ε Unit :=
  called (fun s => s.check h keys) c.runtime_

variable {c keys}

theorem called_of_ok {call : DynSectionSetter Handle Keys ε → Except ε Unit}
    {sections : List (DynSectionSetter Handle Keys ε)}
    (h : (called call sections).2 = .ok ()) : (called call sections).1 = sections := by
  induction sections with
  | nil => rfl
  | cons s sections ih =>
    rw [called] at h ⊢
    split at h
    · cases h
    · exact congrArg (s :: ·) (ih h)

theorem foldl_add_runtime (sections : List (DynSectionSetter Handle Keys ε)) :
    (sections.foldl add c).runtime_ =
      c.runtime_ ++ sections.filter (·.sectionInfo.registerRuntime) := by
  induction sections generalizing c with
  | nil => simp
  | cons s sections ih =>
    rw [List.foldl_cons, ih, List.filter_cons]
    cases hs : s.sectionInfo.registerRuntime <;> simp [add, hs]

theorem foldl_add_check (sections : List (DynSectionSetter Handle Keys ε)) :
    (sections.foldl add c).check_ =
      c.check_ ++ sections.filter (·.sectionInfo.registerCheck) := by
  induction sections generalizing c with
  | nil => simp
  | cons s sections ih =>
    rw [List.foldl_cons, ih, List.filter_cons]
    cases hs : s.sectionInfo.registerCheck <;> simp [add, hs]

/-- When no setter throws, `check` is called on those that are registered for it just when they
are the ones that are registered for `runtime`. -/
theorem check_calls_iff {sections : List (DynSectionSetter Handle Keys ε)} {h : Handle}
    (hok : ((ofSections sections).check keys h).2 = .ok ()) :
    ((ofSections sections).check keys h).1 = (ofSections sections).check_ ↔
      ∀ s ∈ sections, s.sectionInfo.registerRuntime = s.sectionInfo.registerCheck := by
  have hcalls : ((ofSections sections).check keys h).1 = (ofSections sections).runtime_ :=
    called_of_ok hok
  rw [hcalls, ofSections, foldl_add_runtime, foldl_add_check, List.nil_append, List.nil_append]
  constructor
  · intro heq s hs
    have hmem : s ∈ sections.filter (·.sectionInfo.registerRuntime) ↔
        s ∈ sections.filter (·.sectionInfo.registerCheck) := by rw [heq]
    rw [List.mem_filter, List.mem_filter, and_iff_right hs, and_iff_right hs] at hmem
    exact Bool.eq_iff_iff.mpr hmem
  · intro hall
    exact List.filter_congr hall

end SectionCollector
end Multio.Mars2Grib
