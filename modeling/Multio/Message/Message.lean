import Multio.Message.Metadata
import Mathlib.Order.Lattice
import Mathlib.Order.Lex
import Mathlib.Data.Prod.Lex
import Mathlib.Data.String.Basic

namespace Multio
open Lib

structure Peer where
  group : String := "null"
  id : ℕ := 2 ^ 64 - 1
  deriving Repr

/-- `operator<`: by id, then by group. -/
def Peer.toKey (p : Peer) : ℕ ×ₗ String := toLex (p.id, p.group)

theorem Peer.toKey_injective : Function.Injective Peer.toKey := by
  intro p q h
  have h' : (p.id, p.group) = (q.id, q.group) := toLex.injective h
  obtain ⟨g, i⟩ := p
  obtain ⟨g', i'⟩ := q
  simp only [Prod.mk.injEq] at h'
  rw [h'.1, h'.2]

def Peer.print (p : Peer) : String :=
  "Peer(group=" ++ p.group ++ ",id=" ++ toString p.id ++ ")"

instance : LinearOrder Peer := LinearOrder.lift' Peer.toKey Peer.toKey_injective

inductive Tag
  | empty | «open» | close | grib | domain | mask | field | flush | notification
  | parametrization | synchronization
  deriving DecidableEq, Repr

/-- `tag2str`: the table has no entry for `Grib`. -/
def tag2str : Tag → Except Exception String
  | .empty => .ok "Empty"
  | .open => .ok "Open"
  | .close => .ok "Close"
  | .grib => .error (.assertionFailed "tstr != m.end()")
  | .domain => .ok "Domain"
  | .mask => .ok "Mask"
  | .field => .ok "Field"
  | .flush => .ok "Flush"
  | .notification => .ok "Notification"
  | .parametrization => .ok "Parametrization"
  | .synchronization => .ok "Synchronization"

inductive PrecisionTag
  | float
  | double
  deriving DecidableEq, Repr

/-- `sizeof` of the precision's type. -/
def PrecisionTag.size : PrecisionTag → ℕ
  | .float => 4
  | .double => 8

def decodePrecisionTag : String → Except Exception PrecisionTag
  | "single" => .ok .float
  | "double" => .ok .double
  | "misc-single" => .ok .float
  | "misc-double" => .ok .double
  | _ => .error (.outOfRange "map::at")

structure Context where
  parametrization : BaseMetadata
  /-- `BaseMetadata::toString`, the text that the JSON printer makes of the metadata. -/
  toString : BaseMetadata → String

/-- A header; `fieldId` is set once it has been computed or received. -/
structure Header where
  tag : Tag
  source : Peer
  destination : Peer
  metadata : BaseMetadata
  fieldId_ : Option String := none

namespace Header

variable (ctx : Context)

def fieldId (h : Header) : String := h.fieldId_.getD (ctx.toString h.metadata)

def required {α : Type} (getter : MetadataValue → Except Exception α) (h : Header) (k : String) :
    Except Exception α := do
  match ← Metadata.getOpt getter ctx.parametrization h.metadata k with
  | some v => .ok v
  | none => .error (.metadataMissingKey k)

def name (h : Header) : Except Exception String := h.required ctx MetadataValue.getString "name"

def category (h : Header) : Except Exception String :=
  h.required ctx MetadataValue.getString "category"

def globalSize (h : Header) : Except Exception ℤ :=
  h.required ctx MetadataValue.getInt64 "misc-globalSize"

def domain (h : Header) : Except Exception String := h.required ctx MetadataValue.getString "domain"

def precision (h : Header) : Except Exception PrecisionTag := do
  decodePrecisionTag (← h.required ctx MetadataValue.getString "misc-precision")

end Header

structure Message where
  header : Header
  payload : List UInt8 := []

namespace Message

def tag (m : Message) : Tag := m.header.tag
def source (m : Message) : Peer := m.header.source
def destination (m : Message) : Peer := m.header.destination
def metadata (m : Message) : BaseMetadata := m.header.metadata
def size (m : Message) : ℕ := m.payload.length
def fieldId (ctx : Context) (m : Message) : String := m.header.fieldId ctx
def name (ctx : Context) (m : Message) : Except Exception String := m.header.name ctx
def globalSize (ctx : Context) (m : Message) : Except Exception ℤ := m.header.globalSize ctx
def domain (ctx : Context) (m : Message) : Except Exception String := m.header.domain ctx

def precision (ctx : Context) (m : Message) : Except Exception PrecisionTag :=
  m.header.precision ctx

def print (ctx : Context) (m : Message) : Except Exception String := do
  let tag ← tag2str m.tag
  .ok ("Message(version=1, tag=" ++ tag ++ ", source=" ++ m.source.print ++ ", destination=" ++
    m.destination.print ++ ", metadata=" ++ m.fieldId ctx ++ ", payload-size=" ++
    toString m.size ++ ")")

end Message
end Multio
