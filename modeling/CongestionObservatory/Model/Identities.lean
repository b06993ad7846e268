import CongestionObservatory.Core.Name
import CongestionObservatory.Core.Hash
import Mathlib.Data.Prod.Lex

/-!
# `CongestionObservatory.Model.Identities`: typed identities

Each kind of object has its own identity type (`model/identities.hpp`). A derived object, an
evidence record or an episode, is identified by a 128-bit digest. `EvidenceSubject` is the
object an observation is about.
-/

set_option autoImplicit false

namespace CongestionObservatory

open Lib

inductive NodeTag
inductive PortTag
inductive LinkTag
inductive QueueTag
inductive BufferTag
inductive PathTag
inductive FlowTag
inductive SourceTag
inductive TenantTag
inductive ClassTag
inductive TopologyTag
inductive EvidenceTag
inductive EpisodeTag
inductive GroupTag

abbrev NodeId := EntityId NodeTag
abbrev PortId := EntityId PortTag
abbrev LinkId := EntityId LinkTag
abbrev QueueId := EntityId QueueTag
abbrev BufferId := EntityId BufferTag
abbrev PathId := EntityId PathTag
abbrev FlowId := EntityId FlowTag
abbrev SourceId := EntityId SourceTag
abbrev TenantId := EntityId TenantTag
abbrev ClassId := EntityId ClassTag
abbrev TopologyId := EntityId TopologyTag

/-- `DigestId<Tag>`: the digest of an object's identity-bearing fields. -/
structure DigestId (Tag : Type) where
  word0 : UInt64
  word1 : UInt64
  deriving DecidableEq, Repr

namespace DigestId

variable {Tag : Type}

/-- The two words in the order they are compared. -/
def digest (id : DigestId Tag) : UInt64 ×ₗ UInt64 := toLex (id.word0, id.word1)

theorem digest_injective : Function.Injective fun id : DigestId Tag => id.digest := by
  rintro ⟨a, b⟩ ⟨c, d⟩ h
  cases h
  rfl

/-- The order of the identities: the first word decides, then the second. -/
instance : LinearOrder (DigestId Tag) := LinearOrder.lift' DigestId.digest digest_injective

/-- `DigestId::from_digest`. -/
def fromDigest (digest : UInt64 × UInt64) : DigestId Tag := ⟨digest.1, digest.2⟩

/-- The default identity. -/
def default : DigestId Tag := ⟨0, 0⟩

/-- `DigestId::valid`. -/
def valid (id : DigestId Tag) : Bool := id.word0 != 0 || id.word1 != 0

/-- `DigestId::str`. -/
def str (id : DigestId Tag) : Text := toHex id.word0 ++ toHex id.word1

/-- `DigestId::kHexLength`. -/
def kHexLength : Nat := 32

/-- The value of a digit of `DigestId::parse`. -/
def hexNibble (c : UInt8) : Option UInt64 :=
  if 0x30 ≤ c ∧ c ≤ 0x39 then some (c - 0x30).toUInt64
  else if 0x61 ≤ c ∧ c ≤ 0x66 then some (c - 0x61 + 10).toUInt64
  else none

/-- The loop of `DigestId::parse` over the digits of one word. -/
def hexWord (value : UInt64) : Text → Result UInt64
  | [] => .ok value
  | c :: rest =>
    match hexNibble c with
    | none => .error (makeError .invalidArgument "digest id must be lower case hexadecimal")
    | some nibble => hexWord ((value <<< 4) ||| nibble) rest

/-- `DigestId::parse`: the first sixteen digits are the first word. -/
def parse (hex : Text) : Result (DigestId Tag) := do
  failIf (hex.length ≠ kHexLength)
    (makeError .invalidArgument "digest id must be 32 hex characters")
  let word0 ← hexWord 0 (hex.take 16)
  let word1 ← hexWord 0 (hex.drop 16)
  pure (fromDigest (word0, word1))

end DigestId

abbrev EvidenceId := DigestId EvidenceTag
abbrev EpisodeId := DigestId EpisodeTag
abbrev GroupId := DigestId GroupTag

/-- `SubjectKind`. -/
inductive SubjectKind where
  | none
  | node
  | port
  | link
  | queue
  | buffer
  | path
  | flow
  | tenant
  | «class»
  | source
  | topology
  deriving DecidableEq, Repr

namespace SubjectKind

/-- The number of the kind, part of the canonical encodings. -/
def toUInt8 : SubjectKind → UInt8
  | none => 0
  | node => 1
  | port => 2
  | link => 3
  | queue => 4
  | buffer => 5
  | path => 6
  | flow => 7
  | tenant => 8
  | «class» => 9
  | source => 10
  | topology => 11

/-- `to_string(SubjectKind)`. -/
def toText : SubjectKind → Text
  | none => ascii "none"
  | node => ascii "node"
  | port => ascii "port"
  | link => ascii "link"
  | queue => ascii "queue"
  | buffer => ascii "buffer"
  | path => ascii "path"
  | flow => ascii "flow"
  | tenant => ascii "tenant"
  | «class» => ascii "class"
  | source => ascii "source"
  | topology => ascii "topology"

end SubjectKind

/-- `EvidenceSubject`: nothing, or the identity of one object. -/
inductive EvidenceSubject where
  | none
  | node (id : NodeId)
  | port (id : PortId)
  | link (id : LinkId)
  | queue (id : QueueId)
  | buffer (id : BufferId)
  | path (id : PathId)
  | flow (id : FlowId)
  | tenant (id : TenantId)
  | class (id : ClassId)
  | source (id : SourceId)
  | topology (id : TopologyId)
  deriving DecidableEq

namespace EvidenceSubject

instance : Inhabited EvidenceSubject := ⟨none⟩

/-- `EvidenceSubject::kind`. -/
def kind : EvidenceSubject → SubjectKind
  | none => .none
  | node _ => .node
  | port _ => .port
  | link _ => .link
  | queue _ => .queue
  | buffer _ => .buffer
  | path _ => .path
  | flow _ => .flow
  | tenant _ => .tenant
  | «class» _ => .«class»
  | source _ => .source
  | topology _ => .topology

/-- `EvidenceSubject::valid`. -/
def valid (s : EvidenceSubject) : Bool := s.kind != .none

/-- The name of the object. -/
def nameText : EvidenceSubject → Text
  | none => []
  | node id => id.str
  | port id => id.str
  | link id => id.str
  | queue id => id.str
  | buffer id => id.str
  | path id => id.str
  | flow id => id.str
  | tenant id => id.str
  | «class» id => id.str
  | source id => id.str
  | topology id => id.str

/-- `EvidenceSubject::str`: the kind and the name, as in `link:leaf1-uplink`. -/
def str (s : EvidenceSubject) : Text := s.kind.toText ++ ascii ":" ++ s.nameText

/-- What the subject order compares: the kind number, then the rendering. -/
def orderKey (s : EvidenceSubject) : UInt8 ×ₗ Text := toLex (s.kind.toUInt8, s.str)

/-- A subject is determined by its kind and its name. -/
theorem eq_of_kind_nameText {s t : EvidenceSubject} (hk : s.kind = t.kind)
    (hn : s.nameText = t.nameText) : s = t := by
  have hid : ∀ {Tag : Type} {a b : EntityId Tag}, a.str = b.str → a = b := fun h =>
    EntityId.name_injective (Name.str_injective h)
  cases s <;> cases t <;> cases hk <;> first | rfl | exact congrArg _ (hid hn)

theorem toUInt8_injective : Function.Injective SubjectKind.toUInt8 := by
  intro a b h
  cases a <;> cases b <;> first | rfl | exact absurd h (by decide)

/-- Equal order keys are equal subjects, so the equality of the source (neither is less) is
equality. -/
theorem orderKey_injective : Function.Injective orderKey := by
  intro s t h
  have hpair : (s.kind.toUInt8, s.str) = (t.kind.toUInt8, t.str) := h
  have hk : s.kind = t.kind := toUInt8_injective (Prod.ext_iff.mp hpair).1
  have hs : s.str = t.str := (Prod.ext_iff.mp hpair).2
  refine eq_of_kind_nameText hk ?_
  rw [str, str, hk] at hs
  exact List.append_cancel_left hs

instance : LinearOrder EvidenceSubject := LinearOrder.lift' orderKey orderKey_injective

/-- `operator<` of the subjects. -/
def less (s t : EvidenceSubject) : Bool :=
  if s.kind.toUInt8 ≠ t.kind.toUInt8 then s.kind.toUInt8 < t.kind.toUInt8 else s.str < t.str

/-- `operator==` of the subjects. -/
def equal (s t : EvidenceSubject) : Bool := !less s t && !less t s

end EvidenceSubject

/-- `parse_subject_id`. -/
def parseSubjectId {Tag : Type} (wrap : EntityId Tag → EvidenceSubject) (kindLabel : String)
    (nameText : Text) : Result EvidenceSubject :=
  match (EntityId.parse nameText : Result (EntityId Tag)) with
  | .error _ =>
    .error (makeError .invalidArgument ("invalid " ++ kindLabel ++ " identity") nameText)
  | .ok id => .ok (wrap id)

/-- The part of `parse_subject` after the text is split: the kind decides what the name names. -/
def parseSubjectKind (kindText nameText : Text) : Result EvidenceSubject :=
  if kindText = ascii "node" then parseSubjectId .node "node" nameText
  else if kindText = ascii "port" then parseSubjectId .port "port" nameText
  else if kindText = ascii "link" then parseSubjectId .link "link" nameText
  else if kindText = ascii "queue" then parseSubjectId .queue "queue" nameText
  else if kindText = ascii "buffer" then parseSubjectId .buffer "buffer" nameText
  else if kindText = ascii "path" then parseSubjectId .path "path" nameText
  else if kindText = ascii "flow" then parseSubjectId .flow "flow" nameText
  else if kindText = ascii "tenant" then parseSubjectId .tenant "tenant" nameText
  else if kindText = ascii "class" then parseSubjectId .class "class" nameText
  else if kindText = ascii "source" then parseSubjectId .source "source" nameText
  else if kindText = ascii "topology" then parseSubjectId .topology "topology" nameText
  else .error (makeError .unsupported "unknown subject kind" kindText)

/-- `parse_subject`: the text is split at its first colon. -/
def parseSubject (text : Text) : Result EvidenceSubject :=
  let malformed := makeError .invalidArgument "subject must be written as kind:name" text
  match text.findIdx? (· == 0x3a) with
  | none => .error malformed
  | some separator =>
    if separator = 0 ∨ separator + 1 ≥ text.length then .error malformed
    else parseSubjectKind (text.take separator) (text.drop (separator + 1))

end CongestionObservatory
