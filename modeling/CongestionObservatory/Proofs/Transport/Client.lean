import CongestionObservatory.Proofs.Core.JsonRoundTrip
import CongestionObservatory.Proofs.Transport.Message
import CongestionObservatory.Transport.Client

/-!
# `CongestionObservatory.Proofs.Transport.Client`: what a client asks and reports

The dialogue of `push_records` asks for a welcome, sends the records one by one and says goodbye
(`asked_pushRecords`). It quits at the first exchange that fails and behind the goodbye
(`quits_pushRecords`). When it returns a result, every record was acknowledged, and the result
lists and counts what the acknowledgements say (`ListsAcks`).

An acknowledgement is read as the four fields that the client looks at (`readAck_encode`).
-/

set_option autoImplicit false

namespace CongestionObservatory

open Lib

/-! ### The dialogue of a push -/

/-- A reply behind which a client makes no other exchange: an error, or whatever answers its
goodbye. -/
def Final (request : Request) (reply : Result Text) : Prop :=
  request.expected = .bye ∨ ∃ e, reply = .error e

/-- The request of a greeting. -/
def helloRequest (config : IngestClientConfig) : Request :=
  { type := .hello, payload := encodeHelloJson config.clientId, expected := .welcome }

/-- The request that sends a record. -/
def ingestRequest (record : EvidenceRecord) : Request :=
  { type := .ingest, payload := encodeIngestJson record, expected := .ingestAck }

/-- The goodbye. -/
def byeRequest : Request := { type := .bye, payload := [], expected := .bye }

/-- What a push goes on with behind an acknowledgement. -/
def afterAck (limits : Limits) (result : IngestClientResult) (rest : List EvidenceRecord) :
    Result Text → Client (Result IngestClientResult)
  | .error e => .done (.error e)
  | .ok response =>
    match readAck limits response with
    | .error e => .done (.error e)
    | .ok outcome => pushLoop limits (result.add outcome) rest

theorem pushLoop_nil (limits : Limits) (result : IngestClientResult) :
    pushLoop limits result [] = .call byeRequest fun _ => .done (.ok result) := rfl

theorem pushLoop_cons (limits : Limits) (result : IngestClientResult) (record : EvidenceRecord)
    (rest : List EvidenceRecord) :
    pushLoop limits result (record :: rest)
      = .call (ingestRequest record) (afterAck limits result rest) := by
  rw [pushLoop]
  show Dialogue.call (ingestRequest record) _ = _
  congr 1

/-- What a push goes on with behind the welcome. -/
def afterWelcome (config : IngestClientConfig) (records : List EvidenceRecord) :
    Result Text → Client (Result IngestClientResult)
  | .error e => .done (.error e)
  | .ok response =>
    match readWelcome config.limits response with
    | .error e => .done (.error e)
    | .ok version => pushLoop config.limits { serverVersion := version } records

theorem pushRecords_eq (config : IngestClientConfig) (records : List EvidenceRecord) :
    pushRecords config records = .call (helloRequest config) (afterWelcome config records) := by
  show Dialogue.call (helloRequest config) _ = _
  congr 1
  funext reply
  cases reply with
  | error e => rfl
  | ok response =>
      simp only [afterWelcome]
      cases hwelcome : readWelcome config.limits response with
      | error e =>
          show (match readWelcome config.limits response with | .error e => _ | .ok version => _) = _
          rw [hwelcome]
          rfl
      | ok version =>
          show (match readWelcome config.limits response with | .error e => _ | .ok version => _) = _
          rw [hwelcome]

theorem quits_pushLoop (limits : Limits) (result : IngestClientResult)
    (records : List EvidenceRecord) : (pushLoop limits result records).Quits Final := by
  induction records generalizing result with
  | nil =>
      rw [pushLoop_nil]
      exact fun _ => ⟨fun _ => ⟨_, rfl⟩, trivial⟩
  | cons record rest ih =>
      rw [pushLoop_cons]
      intro reply
      cases reply with
      | error e => exact ⟨fun _ => ⟨_, rfl⟩, trivial⟩
      | ok response =>
          refine ⟨fun hfinal => ?_, ?_⟩
          · rcases hfinal with hbye | ⟨e, he⟩
            · cases hbye
            · cases he
          · simp only [afterAck]
            cases readAck limits response with
            | error e => trivial
            | ok outcome => exact ih _

theorem quits_pushRecords (config : IngestClientConfig) (records : List EvidenceRecord) :
    (pushRecords config records).Quits Final := by
  rw [pushRecords_eq]
  intro reply
  cases reply with
  | error e => exact ⟨fun _ => ⟨_, rfl⟩, trivial⟩
  | ok response =>
      refine ⟨fun hfinal => ?_, ?_⟩
      · rcases hfinal with hbye | ⟨e, he⟩
        · cases hbye
        · cases he
      · simp only [afterWelcome]
        cases readWelcome config.limits response with
        | error e => trivial
        | ok version => exact quits_pushLoop _ _ _

theorem asked_pushLoop (limits : Limits) (result : IngestClientResult)
    (records : List EvidenceRecord) (replies : List (Result Text)) :
    (pushLoop limits result records).asked replies <+: records.map ingestRequest ++ [byeRequest] := by
  induction records generalizing result replies with
  | nil =>
      rw [pushLoop_nil]
      cases replies with
      | nil => exact List.nil_prefix
      | cons reply replies =>
          rw [Dialogue.asked, Dialogue.asked_done]
          exact List.prefix_rfl
  | cons record rest ih =>
      rw [pushLoop_cons]
      cases replies with
      | nil => exact List.nil_prefix
      | cons reply replies =>
          rw [Dialogue.asked, List.map_cons, List.cons_append, List.prefix_cons_inj]
          cases reply with
          | error e =>
              rw [afterAck, Dialogue.asked_done]
              exact List.nil_prefix
          | ok response =>
              simp only [afterAck]
              cases readAck limits response with
              | error e =>
                  rw [Dialogue.asked_done]
                  exact List.nil_prefix
              | ok outcome => exact ih _ replies

theorem asked_pushRecords (config : IngestClientConfig) (records : List EvidenceRecord)
    (replies : List (Result Text)) :
    (pushRecords config records).asked replies
      <+: helloRequest config :: (records.map ingestRequest ++ [byeRequest]) := by
  rw [pushRecords_eq]
  cases replies with
  | nil => exact List.nil_prefix
  | cons reply replies =>
      rw [Dialogue.asked, List.prefix_cons_inj]
      cases reply with
      | error e =>
          rw [afterWelcome, Dialogue.asked_done]
          exact List.nil_prefix
      | ok response =>
          simp only [afterWelcome]
          cases readWelcome config.limits response with
          | error e =>
              rw [Dialogue.asked_done]
              exact List.nil_prefix
          | ok version => exact asked_pushLoop _ _ records replies

/-! ### The result of a push -/

/-- The result lists what the acknowledgements say, and counts them. -/
structure ListsAcks (limits : Limits) (acks : List Text) (result : IngestClientResult) : Prop where
  outcomes : List.Forall₂ (fun ack outcome => readAck limits ack = .ok outcome) acks
    result.outcomes
  sent : result.recordsSent = UInt64.ofNat acks.length
  accepted : result.recordsAccepted = UInt64.ofNat (result.outcomes.countP IngestOutcome.stored)
  rejected : result.recordsRejected
    = UInt64.ofNat (result.outcomes.countP fun outcome => !outcome.stored)

theorem listsAcks_nil (limits : Limits) (version : Text) :
    ListsAcks limits [] { serverVersion := version } where
  outcomes := .nil
  sent := rfl
  accepted := rfl
  rejected := rfl

/-- One more acknowledgement. -/
theorem ListsAcks.add {limits : Limits} {acks : List Text} {result : IngestClientResult}
    (h : ListsAcks limits acks result) {ack : Text} {outcome : IngestOutcome}
    (hread : readAck limits ack = .ok outcome) :
    ListsAcks limits (acks ++ [ack]) (result.add outcome) where
  outcomes := List.rel_append h.outcomes (.cons hread .nil)
  sent := by
    show result.recordsSent + 1 = _
    rw [h.sent, List.length_append, List.length_singleton, UInt64.ofNat_add]
    rfl
  accepted := by
    show (if outcome.stored then result.recordsAccepted + 1 else result.recordsAccepted)
      = UInt64.ofNat ((result.outcomes ++ [outcome]).countP IngestOutcome.stored)
    rw [List.countP_append, List.countP_singleton, h.accepted]
    split
    · rw [UInt64.ofNat_add]
      rfl
    · rfl
  rejected := by
    show (if outcome.stored then result.recordsRejected else result.recordsRejected + 1)
      = UInt64.ofNat ((result.outcomes ++ [outcome]).countP fun outcome => !outcome.stored)
    rw [List.countP_append, List.countP_singleton, h.rejected]
    cases outcome.stored with
    | true => rfl
    | false =>
        rw [UInt64.ofNat_add]
        rfl

/-- A loop that returned a result got one acknowledgement for each record, and one more reply. -/
theorem returned_pushLoop {limits : Limits} {result final : IngestClientResult}
    {records : List EvidenceRecord} {replies : List (Result Text)} {before : List Text}
    (h : (pushLoop limits result records).after replies = .done (.ok final))
    (hresult : ListsAcks limits before result) :
    ∃ acks last extra, replies = acks.map .ok ++ last :: extra ∧ acks.length = records.length ∧
      ListsAcks limits (before ++ acks) final := by
  induction records generalizing result replies before with
  | nil =>
      rw [pushLoop_nil] at h
      cases replies with
      | nil => cases h
      | cons last extra =>
          rw [Dialogue.after, Dialogue.after_done] at h
          obtain rfl : result = final := Except.ok.inj (Dialogue.done.inj h)
          exact ⟨[], last, extra, rfl, rfl, by rwa [List.append_nil]⟩
  | cons record rest ih =>
      rw [pushLoop_cons] at h
      cases replies with
      | nil => cases h
      | cons reply replies =>
          rw [Dialogue.after] at h
          cases reply with
          | error e =>
              rw [afterAck, Dialogue.after_done] at h
              cases h
          | ok response =>
              simp only [afterAck] at h
              cases hread : readAck limits response with
              | error e =>
                  rw [hread, Dialogue.after_done] at h
                  cases h
              | ok outcome =>
                  rw [hread] at h
                  obtain ⟨acks, last, extra, rfl, hlength, hfinal⟩ := ih h (hresult.add hread)
                  refine ⟨response :: acks, last, extra, rfl, by simp [hlength], ?_⟩
                  rwa [List.append_assoc] at hfinal

theorem returned_pushRecords {config : IngestClientConfig} {result : IngestClientResult}
    {records : List EvidenceRecord} {replies : List (Result Text)}
    (h : (pushRecords config records).after replies = .done (.ok result)) :
    ∃ welcome acks last extra, replies = .ok welcome :: (acks.map .ok ++ last :: extra) ∧
      acks.length = records.length ∧ ListsAcks config.limits acks result := by
  rw [pushRecords_eq] at h
  cases replies with
  | nil => cases h
  | cons reply replies =>
      rw [Dialogue.after] at h
      cases reply with
      | error e =>
          rw [afterWelcome, Dialogue.after_done] at h
          cases h
      | ok response =>
          simp only [afterWelcome] at h
          cases hread : readWelcome config.limits response with
          | error e =>
              rw [hread, Dialogue.after_done] at h
              cases h
          | ok version =>
              rw [hread] at h
              obtain ⟨acks, last, extra, rfl, hlength, hreports⟩ :=
                returned_pushLoop h (listsAcks_nil config.limits version)
              exact ⟨response, acks, last, extra, rfl, hlength, hreports⟩

/-! ### Acknowledgements -/

/-- The members of an acknowledgement. -/
def ackMembers (outcome : IngestOutcome) : List (Text × JsonValue) :=
  [(ascii "accepted", .bool outcome.stored), (ascii "evidence_id", .string outcome.id.str),
    (ascii "fence", .string outcome.fence.toText),
    (ascii "freshness", .string outcome.freshness.toText),
    (ascii "detail", .string outcome.detail), (ascii "evicted", .int (Int64.ofNat outcome.evicted)),
    (ascii "liveness_reset", .bool outcome.livenessReset),
    (ascii "sequence_gap", .bool outcome.sequenceGap)]

theorem nodup_ackMembers (outcome : IngestOutcome) :
    (JsonObject.keys (ackMembers outcome)).Nodup := by
  have hkeys : JsonObject.keys (ackMembers outcome) = JsonObject.keys (ackMembers {}) := rfl
  rw [hkeys]
  decide +kernel

theorem encodeIngestAckJson_eq (outcome : IngestOutcome) :
    encodeIngestAckJson outcome = (JsonValue.object (ackMembers outcome)).dump 0 :=
  congrArg (fun members => (JsonValue.object members).dump 0)
    (JsonObject.ofMembers_spec (nodup_ackMembers outcome)).1

/-- The part of an outcome that a client reads in its acknowledgement. -/
def IngestOutcome.reported (outcome : IngestOutcome) : IngestOutcome :=
  { id := outcome.id
    stored := outcome.stored
    fence := outcome.fence
    detail := outcome.detail }

/-- A decision is found under its name. -/
theorem fenceNamed_toText (decision : FenceDecision) :
    fenceNamed decision.toText = some decision := by
  cases decision <;> decide +kernel

/-- **An acknowledgement is read as the outcome it was made of**, if the client reads it at all:
if its bounds admit the length, the two levels and the nine values of the document. -/
theorem readAck_encode {limits : Limits} {outcome found : IngestOutcome} :
    readAck limits (encodeIngestAckJson outcome) = .ok found ↔
      (encodeIngestAckJson outcome).length ≤ limits.maxDocumentBytes ∧ 1 < limits.jsonLevels ∧
        9 ≤ limits.maxJsonNodes ∧ found = outcome.reported := by
  have hplain : (JsonValue.object (ackMembers outcome)).Plain := by
    refine ⟨nodup_ackMembers outcome, JsonValue.plainMembers_iff.mpr ?_⟩
    simp only [ackMembers, List.forall_mem_cons]
    exact ⟨trivial, trivial, trivial, trivial, trivial, trivial, trivial, trivial,
      fun _ h => absurd h List.not_mem_nil⟩
  have hparse : ∀ v, parseJson (encodeIngestAckJson outcome) limits = .ok v ↔
      v = .object (ackMembers outcome) ∧
        (encodeIngestAckJson outcome).length ≤ limits.maxDocumentBytes ∧ 1 < limits.jsonLevels ∧
        9 ≤ limits.maxJsonNodes := by
    intro v
    have hlevel : (JsonValue.object (ackMembers outcome)).depth = 1 := rfl
    rw [encodeIngestAckJson_eq]
    exact parseJson_dump_iff hplain (by omega)
  -- What the client makes of the document, once it is parsed.
  have hread : parseJson (encodeIngestAckJson outcome) limits = .ok (.object (ackMembers outcome)) →
      readAck limits (encodeIngestAckJson outcome) = .ok outcome.reported := by
    intro hdocument
    have hmember : ∀ member ∈ ackMembers outcome,
        (JsonValue.object (ackMembers outcome)).member member.1 = some member.2 :=
      fun member hmem => JsonValue.member_of_mem (nodup_ackMembers outcome) hmem
    have haccepted : _ = some (JsonValue.bool outcome.stored) :=
      hmember (ascii "accepted", _) List.mem_cons_self
    have hid : _ = some (JsonValue.string outcome.id.str) :=
      hmember (ascii "evidence_id", _) (.tail _ List.mem_cons_self)
    have hfence : _ = some (JsonValue.string outcome.fence.toText) :=
      hmember (ascii "fence", _) (.tail _ (.tail _ List.mem_cons_self))
    have hdetail : _ = some (JsonValue.string outcome.detail) :=
      hmember (ascii "detail", _) (.tail _ (.tail _ (.tail _ (.tail _ List.mem_cons_self))))
    rw [readAck, hdocument, ok_bind]
    simp only [haccepted, hid, hfence, hdetail, JsonValue.asBool, JsonValue.asString,
      DigestId.parse_str, fenceNamed_toText]
    rfl
  constructor
  · intro h
    obtain ⟨v, hdocument, -⟩ := bind_eq_ok.mp h
    obtain ⟨rfl, hbytes, hdepth, hnodes⟩ := (hparse v).mp hdocument
    rw [hread hdocument] at h
    exact ⟨hbytes, hdepth, hnodes, (Except.ok.inj h).symm⟩
  · rintro ⟨hbytes, hdepth, hnodes, rfl⟩
    exact hread ((hparse _).mpr ⟨rfl, hbytes, hdepth, hnodes⟩)

end CongestionObservatory
