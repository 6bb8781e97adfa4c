import Mathlib
import ZeroTrustFL.Coordinator.Audit

/-!
# The audit chain

The hash chain of audit records and the table that stores it: the chain part of `audit.go`,
`audit_verify.go` and `postgres_audit.go` of `pkg/coordinator`.  The canonical JSON encoding of hash
envelopes is a parameter.
-/

namespace ZeroTrustFL

def maxAuditExportRows : ℤ := 10000

structure AuditRecord where
  sequence : ℤ
  eventID : String
  event : AuditEvent
  previousHash : String
  eventHash : String
deriving DecidableEq

structure AuditHashEnvelope where
  sequence : ℤ
  eventID : String
  previousHash : String
  event : AuditEvent
deriving DecidableEq

/-! ## Hashes of records -/

/-- An event with the normalised time of occurrence. -/
def AuditEvent.normalized (event : AuditEvent) : AuditEvent :=
  { event with occurredAt := normalizeAuditTime event.occurredAt }

def canonicalAuditEvent (event : AuditEvent) : Except String AuditEvent :=
  match validateAuditEvent event.normalized with
  | .error e => .error e
  | .ok () => .ok event.normalized

def auditEventID (sequence : ℤ) : String :=
  "audit-" ++ .ofList (if sequence < 0 then '-' :: zeroPadded 19 sequence.natAbs
    else zeroPadded 20 sequence.natAbs)

section

variable (json : AuditHashEnvelope → Bytes)

def auditRecordHash (sequence : ℤ) (eventID : String) (previousHash : Bytes) (event : AuditEvent) :
    Except String Bytes :=
  if sequence ≤ 0 then .error "audit sequence must be positive"
  else if eventID ≠ auditEventID sequence then
    .error ("audit event ID " ++ quote eventID ++ s!" does not match sequence {sequence}")
  else if previousHash.length ≠ 0 ∧ previousHash.length ≠ 32 then
    .error "audit previous hash must be empty or 32 bytes"
  else
    match canonicalAuditEvent event with
    | .error e => .error e
    | .ok canonicalEvent =>
      .ok (sha256 (json {
        sequence := sequence
        eventID := eventID
        previousHash := hexEncode previousHash
        event := canonicalEvent }))

/-! ## Verification -/

def decodeAuditHash (value : String) (allowEmpty : Bool) : Except String Bytes :=
  if value = "" then
    if allowEmpty then .ok [] else .error "hash is required"
  else if value ≠ toLower value then .error "hash must use lowercase hex"
  else
    match hexDecode value.toList with
    | none => .error "hash must encode exactly 32 bytes"
    | some decoded =>
      if decoded.length ≠ 32 then .error "hash must encode exactly 32 bytes" else .ok decoded

/-- What the verification of a chain expects of the next record. -/
structure AuditExpectation where
  previous : Bytes
  sequence : ℤ
deriving DecidableEq

/-- One round of the loop of `verifyAuditRecords`. -/
def verifyAuditRecord (expected : AuditExpectation) (record : AuditRecord) :
    Except String AuditExpectation :=
  if record.sequence ≠ expected.sequence then
    .error s!"audit sequence discontinuity: got {record.sequence}, want {expected.sequence}"
  else if record.eventID ≠ auditEventID record.sequence then
    .error ("audit event ID " ++ quote record.eventID ++
      s!" does not match sequence {record.sequence}")
  else
    match decodeAuditHash record.previousHash true with
    | .error e => .error (s!"decode audit previous hash at sequence {record.sequence}: " ++ e)
    | .ok storedPrevious =>
      if storedPrevious ≠ expected.previous then
        .error s!"audit previous-hash link mismatch at sequence {record.sequence}"
      else
        match decodeAuditHash record.eventHash false with
        | .error e => .error (s!"decode audit event hash at sequence {record.sequence}: " ++ e)
        | .ok storedHash =>
          match auditRecordHash json record.sequence record.eventID storedPrevious record.event with
          | .error e => .error (s!"validate audit record {record.sequence}: " ++ e)
          | .ok calculated =>
            if storedHash ≠ calculated then
              .error s!"audit event hash mismatch at sequence {record.sequence}"
            else .ok { previous := storedHash, sequence := expected.sequence + 1 }

def verifyAuditRecords (records : List AuditRecord) (previousHash : Bytes) (previousSequence : ℤ) :
    Except String Unit :=
  if previousSequence < 0 then .error "audit previous sequence must not be negative"
  else if previousHash.length ≠ 0 ∧ previousHash.length ≠ 32 then
    .error "audit previous hash must be empty or 32 bytes"
  else
    match records.foldlM (verifyAuditRecord json)
        { previous := previousHash, sequence := previousSequence + 1 } with
    | .error e => .error e
    | .ok _ => .ok ()

/-- The exported `VerifyAuditRecords`: a complete chain begins at sequence 1. -/
def verifyCompleteAuditRecords (records : List AuditRecord) : Except String Unit :=
  verifyAuditRecords json records [] 0

/-- `DecodeAuditNDJSON` on the records that have been decoded, with the default limit. -/
def decodeAuditNDJSON (records : List AuditRecord) : Except String (List AuditRecord) :=
  if maxAuditExportRows < records.length then
    .error s!"audit NDJSON contains more than {maxAuditExportRows} records"
  else
    match verifyCompleteAuditRecords json records with
    | .error e => .error ("verify audit NDJSON chain: " ++ e)
    | .ok () => .ok records

end

/-! ## The table -/

def AuditEventType.name : AuditEventType → String
  | stateInitialized => "coordinator.state.initialized"
  | stateRecovered => "coordinator.state.recovered"
  | nodeRegistered => "node.registered"
  | leaseRenewed => "node.lease.renewed"
  | updateAccepted => "model.update.accepted"
  | roundAggregated => "model.round.aggregated"
  | credentialRotated => "registration.credential.rotated"
  | registrationRevoked => "registration.revoked"
  | unsupported name => name

/-- A row of `ztfl_audit_events`; `payload` is `none` where the column does not decode. -/
structure AuditRow where
  sequence : ℤ
  eventID : String
  occurredAt : ℤ
  eventType : AuditEventType
  payload : Option AuditEvent
  previousHash : Option Bytes
  eventHash : Bytes
deriving DecidableEq

/-- The column checks of the table. -/
def AuditRow.Checked (row : AuditRow) : Prop :=
  0 < row.sequence ∧ (∀ hash ∈ row.previousHash, hash.length = 32) ∧ row.eventHash.length = 32

instance (row : AuditRow) : Decidable row.Checked := by
  unfold AuditRow.Checked
  infer_instance

/-- The table `ztfl_audit_events`, its rows in the order of the primary key. -/
structure AuditTable where
  rows : List AuditRow
  ordered : rows.Pairwise fun a b => a.sequence < b.sequence
  checked : ∀ row ∈ rows, row.Checked
  eventIDs : (rows.map AuditRow.eventID).Nodup
  eventHashes : (rows.map AuditRow.eventHash).Nodup

namespace AuditTable

def empty : AuditTable where
  rows := []
  ordered := List.Pairwise.nil
  checked := by simp
  eventIDs := List.nodup_nil
  eventHashes := List.nodup_nil

/-- What the constraints of the table ask of a row above all stored ones. -/
def Admits (table : AuditTable) (row : AuditRow) : Prop :=
  (∀ stored ∈ table.rows, stored.sequence < row.sequence) ∧ row.Checked ∧
    row.eventID ∉ table.rows.map AuditRow.eventID ∧
    row.eventHash ∉ table.rows.map AuditRow.eventHash

instance (table : AuditTable) (row : AuditRow) : Decidable (table.Admits row) := by
  unfold Admits
  infer_instance

/-- The table with one more row at its end. -/
def push (table : AuditTable) (row : AuditRow) (h : table.Admits row) : AuditTable where
  rows := table.rows ++ [row]
  ordered := by
    refine List.pairwise_append.2 ⟨table.ordered, List.pairwise_singleton _ _, ?_⟩
    intro stored hstored last hlast
    rw [List.mem_singleton.1 hlast]
    exact h.1 stored hstored
  checked := by
    intro stored hstored
    rcases List.mem_append.1 hstored with hstored | hstored
    · exact table.checked stored hstored
    · rw [List.mem_singleton.1 hstored]
      exact h.2.1
  eventIDs := by
    rw [List.map_append, List.map_singleton]
    exact List.concat_eq_append ▸ table.eventIDs.concat h.2.2.1
  eventHashes := by
    rw [List.map_append, List.map_singleton]
    exact List.concat_eq_append ▸ table.eventHashes.concat h.2.2.2

/-- An `INSERT` above the head of the chain. -/
def insert (table : AuditTable) (row : AuditRow) : Except String AuditTable :=
  if h : table.Admits row then .ok (table.push row h)
  else .error "new row violates a constraint of ztfl_audit_events"

end AuditTable

/-- The table inside the transaction with the head of the chain. -/
structure AuditAppend where
  table : AuditTable
  lastSequence : ℤ
  previousHash : Bytes

/-- The row that records an event after a head. -/
def auditRow (sequence : ℤ) (previousHash eventHash : Bytes) (event : AuditEvent) : AuditRow where
  sequence := sequence
  eventID := auditEventID sequence
  occurredAt := event.occurredAt
  eventType := event.type
  payload := some event
  previousHash := if 0 < previousHash.length then some previousHash else none
  eventHash := eventHash

section

variable (json : AuditHashEnvelope → Bytes)

/-- One round of the loop of `appendAuditEventsTx`. -/
def appendAuditEvent (state : AuditAppend) (rawEvent : AuditEvent × ℕ) :
    Except String AuditAppend :=
  match canonicalAuditEvent rawEvent.1 with
  | .error e => .error (s!"canonicalize audit event {rawEvent.2}: " ++ e)
  | .ok event =>
    let sequence := state.lastSequence + 1
    match auditRecordHash json sequence (auditEventID sequence) state.previousHash event with
    | .error e => .error (s!"hash audit event {rawEvent.2}: " ++ e)
    | .ok eventHash =>
      match state.table.insert (auditRow sequence state.previousHash eventHash event) with
      | .error e => .error ("append PostgreSQL audit event " ++ event.type.name ++ ": " ++ e)
      | .ok table => .ok { table, lastSequence := sequence, previousHash := eventHash }

/-- The head of the stored chain. -/
def AuditTable.head (table : AuditTable) : AuditAppend where
  table := table
  lastSequence := (table.rows.getLast?.map AuditRow.sequence).getD 0
  previousHash := (table.rows.getLast?.map AuditRow.eventHash).getD []

def appendAuditEventsTx (table : AuditTable) (events : List AuditEvent) :
    Except String AuditTable :=
  match events.zipIdx.foldlM (appendAuditEvent json) table.head with
  | .error e => .error e
  | .ok state => .ok state.table

/-! ## Reading -/

def scanAuditRecord (row : AuditRow) : Except String AuditRecord :=
  match row.payload with
  | none => .error s!"decode PostgreSQL audit payload at sequence {row.sequence}"
  | some event =>
    if event.occurredAt ≠ row.occurredAt then
      .error s!"audit occurred_at column disagrees with payload at sequence {row.sequence}"
    else if event.type ≠ row.eventType then
      .error s!"audit event_type column disagrees with payload at sequence {row.sequence}"
    else if row.eventHash.length ≠ 32 ∨
        (row.previousHash.getD []).length ≠ 0 ∧ (row.previousHash.getD []).length ≠ 32 then
      .error s!"audit hash length is invalid at sequence {row.sequence}"
    else
      .ok {
        sequence := row.sequence
        eventID := row.eventID
        event := event
        previousHash := hexEncode (row.previousHash.getD [])
        eventHash := hexEncode row.eventHash }

/-- `SELECT … WHERE sequence = $1`. -/
def AuditTable.find (table : AuditTable) (sequence : ℤ) : Option AuditRow :=
  table.rows.find? fun row => row.sequence = sequence

def readAuditRecord (table : AuditTable) (sequence : ℤ) : Except String AuditRecord :=
  match table.find sequence with
  | none => .error s!"audit sequence {sequence} does not exist"
  | some row => scanAuditRecord row

/-- The hash before a page: that of the cursor's record, which is verified against its own
predecessor. -/
def readAuditCursor (table : AuditTable) (afterSequence : ℤ) : Except String Bytes :=
  match readAuditRecord table afterSequence with
  | .error e => .error (s!"read audit cursor {afterSequence}: " ++ e)
  | .ok cursor =>
    let verified (cursorPrevious : Bytes) : Except String Bytes :=
      match verifyAuditRecords json [cursor] cursorPrevious (afterSequence - 1) with
      | .error e => .error ("verify audit cursor: " ++ e)
      | .ok () =>
        match hexDecode cursor.eventHash.toList with
        | none => .error "decode verified audit cursor hash"
        | some hash => .ok hash
    if 1 < afterSequence then
      match table.find (afterSequence - 1) with
      | none => .error s!"audit chain is missing sequence {afterSequence - 1}"
      | some row => verified row.eventHash
    else verified []

/-- The rows of a page, in sequence order. -/
def AuditTable.page (table : AuditTable) (afterSequence limit : ℤ) : List AuditRow :=
  (table.rows.filter fun row => afterSequence < row.sequence).take limit.toNat

def readAuditEvents (table : AuditTable) (afterSequence limit : ℤ) :
    Except String (List AuditRecord) :=
  if afterSequence < 0 then .error "audit cursor must not be negative"
  else
    let limit := if limit ≤ 0 then 1000 else limit
    if maxAuditExportRows < limit then
      .error s!"audit export limit exceeds {maxAuditExportRows} rows"
    else
      match if 0 < afterSequence then readAuditCursor json table afterSequence else .ok [] with
      | .error e => .error e
      | .ok previousHash =>
        match (table.page afterSequence limit).mapM scanAuditRecord with
        | .error e => .error e
        | .ok records =>
          match verifyAuditRecords json records previousHash afterSequence with
          | .error e => .error ("verify PostgreSQL audit chain: " ++ e)
          | .ok () => .ok records

end

end ZeroTrustFL
