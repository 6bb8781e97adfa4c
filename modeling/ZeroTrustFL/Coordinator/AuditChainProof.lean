import Mathlib
import ZeroTrustFL.Lib.CheckedFold
import ZeroTrustFL.Coordinator.AuditChain
import ZeroTrustFL.Coordinator.AuditProof

/-!
# Tamper evidence and paging of the audit chain

A record is accepted exactly when its texts are those of its own hash and of the hash before it
(`verifyAuditRecord_ok_iff`).  Undoing the verification from its end, the length of a chain and its
last hash determine every record.  The verification of a list is that of its parts, so the pages of
a traversal verify exactly when the whole table does, and what was appended does.
-/

namespace ZeroTrustFL

/-! ## Hashes as text -/

theorem hexEncode_eq_empty_iff {b : Bytes} : hexEncode b = "" ↔ b = [] := by
  constructor
  · intro h
    by_contra hb
    exact ne_empty_of_trimSpace_ne_empty (trimSpace_hexEncode_ne_empty hb) h
  · rintro rfl
    rfl

theorem hexEncode_injective : Function.Injective hexEncode := by
  intro a b h
  exact hexChars_injective (String.ofList_injective h)

theorem decodeAuditHash_hexEncode {b : Bytes} (h : b.length = 32) (allowEmpty : Bool) :
    decodeAuditHash (hexEncode b) allowEmpty = .ok b := by
  have hne : hexEncode b ≠ "" := by
    rw [Ne, hexEncode_eq_empty_iff]
    rintro rfl
    cases h
  rw [decodeAuditHash, if_neg hne, if_neg (by rw [toLower_hexEncode]; exact not_not.2 rfl),
    hexEncode, String.toList_ofList, hexDecode_hexChars]
  simp [h]

theorem decodeAuditHash_ok_iff {value : String} {allowEmpty : Bool} {b : Bytes} :
    decodeAuditHash value allowEmpty = .ok b ↔
      value = hexEncode b ∧ (b.length = 32 ∨ allowEmpty = true ∧ b = []) := by
  constructor
  · intro h
    unfold decodeAuditHash at h
    split_ifs at h with hempty hallow hlower
    · cases h
      exact ⟨hempty, .inr ⟨hallow, rfl⟩⟩
    · split at h
      · cases h
      · rename_i decoded hdecoded
        split_ifs at h with hlength
        cases h
        have hchars : value.toList.map lowerChar = value.toList := by
          have htext := congrArg String.toList (not_not.1 hlower)
          rw [toLower, String.toList_ofList] at htext
          exact htext.symm
        refine ⟨?_, .inl (not_not.1 hlength)⟩
        rw [hexEncode, hexChars_of_hexDecode hdecoded hchars, String.ofList_toList]
  · rintro ⟨rfl, hlength | ⟨rfl, rfl⟩⟩
    · exact decodeAuditHash_hexEncode hlength allowEmpty
    · rfl

section

variable {json : AuditHashEnvelope → Bytes}

/-! ## One record -/

variable {records : List AuditRecord} {event : AuditEvent}

theorem canonicalAuditEvent_ok_iff {canonical : AuditEvent} :
    canonicalAuditEvent event = .ok canonical ↔
      validateAuditEvent event.normalized = .ok () ∧ canonical = event.normalized := by
  unfold canonicalAuditEvent
  split
  · rename_i e he
    simp [he]
  · rename_i hok
    simp [hok, eq_comm]

/-- A valid event is normalised already. -/
theorem AuditEvent.normalized_of_valid (h : validateAuditEvent event = .ok ()) :
    event.normalized = event := by
  unfold validateAuditEvent at h
  split_ifs at h with h₁ h₂ h₃
  all_goals exact congrArg (fun t => { event with occurredAt := t }) (not_not.1 h₃).symm

/-- The envelope whose hash an accepted record carries. -/
def AuditRecord.envelope (record : AuditRecord) : AuditHashEnvelope where
  sequence := record.sequence
  eventID := record.eventID
  previousHash := record.previousHash
  event := record.event.normalized

theorem auditRecordHash_ok_iff {sequence : ℤ} {eventID : String} {previousHash hash : Bytes} :
    auditRecordHash json sequence eventID previousHash event = .ok hash ↔
      0 < sequence ∧ eventID = auditEventID sequence ∧
        (previousHash.length = 0 ∨ previousHash.length = 32) ∧
        validateAuditEvent event.normalized = .ok () ∧
        hash = sha256 (json ⟨sequence, eventID, hexEncode previousHash, event.normalized⟩) := by
  unfold auditRecordHash
  split_ifs with h₁ h₂ h₃
  · simp [not_lt.2 h₁]
  · simp [h₂]
  · simp [h₃]
  · rw [not_and_or, not_not, not_not, List.length_eq_zero_iff] at h₃
    have hcanonical := @canonicalAuditEvent_ok_iff event
    split
    · rename_i e he
      have hinvalid : validateAuditEvent event.normalized ≠ .ok () := by
        intro hok
        rw [hcanonical.2 ⟨hok, rfl⟩] at he
        cases he
      simp [hinvalid]
    · rename_i canonical hok
      obtain ⟨hvalid, rfl⟩ := hcanonical.1 hok
      simp [not_le.1 h₁, not_not.1 h₂, h₃, hvalid, eq_comm]

/-- A record is accepted when it continues the chain, its texts are canonical and its hash is that
of its envelope. -/
theorem verifyAuditRecord_ok_iff {expected next : AuditExpectation} {record : AuditRecord} :
    verifyAuditRecord json expected record = .ok next ↔
      record.sequence = expected.sequence ∧ 0 < record.sequence ∧
        record.eventID = auditEventID record.sequence ∧
        record.previousHash = hexEncode expected.previous ∧
        (expected.previous.length = 0 ∨ expected.previous.length = 32) ∧
        validateAuditEvent record.event.normalized = .ok () ∧
        record.eventHash = hexEncode next.previous ∧
        next.previous = sha256 (json record.envelope) ∧
        next.sequence = expected.sequence + 1 := by
  constructor
  · intro h
    unfold verifyAuditRecord at h
    split_ifs at h with h₁ h₂
    split at h
    · cases h
    rename_i storedPrevious hprevious
    split_ifs at h with hlink
    split at h
    · cases h
    rename_i storedHash hstored
    split at h
    · cases h
    rename_i calculated hcalculated
    split_ifs at h with hhash
    cases h
    obtain rfl := not_not.1 hlink
    obtain rfl := not_not.1 hhash
    obtain ⟨htext, -⟩ := decodeAuditHash_ok_iff.1 hprevious
    obtain ⟨hpos, hid, hlength, hvalid, heq⟩ := auditRecordHash_ok_iff.1 hcalculated
    rw [← htext] at heq
    exact ⟨not_not.1 h₁, hpos, hid, htext, hlength, hvalid,
      (decodeAuditHash_ok_iff.1 hstored).1, heq, rfl⟩
  · rintro ⟨hsequence, hpos, hid, hprevious, hlength, hvalid, hhash, heq, hnext⟩
    have hdecoded : decodeAuditHash record.previousHash true = .ok expected.previous :=
      decodeAuditHash_ok_iff.2 ⟨hprevious, hlength.symm.imp_right fun h =>
        ⟨rfl, List.length_eq_zero_iff.1 h⟩⟩
    have hstored : decodeAuditHash record.eventHash false = .ok next.previous :=
      decodeAuditHash_ok_iff.2 ⟨hhash, .inl (by rw [heq, length_sha256])⟩
    have hcalculated : auditRecordHash json record.sequence record.eventID expected.previous
        record.event = .ok next.previous := by
      rw [auditRecordHash_ok_iff, ← hprevious]
      exact ⟨hpos, hid, hlength, hvalid, heq⟩
    unfold verifyAuditRecord
    rw [if_neg (not_not.2 hsequence), if_neg (not_not.2 hid), hdecoded, hstored]
    simp only [hcalculated, ne_eq, not_true_eq_false, if_false, ← hnext]

theorem verifyAuditRecords_ok_iff {previousHash : Bytes} {previousSequence : ℤ} :
    verifyAuditRecords json records previousHash previousSequence = .ok () ↔
      0 ≤ previousSequence ∧ (previousHash.length = 0 ∨ previousHash.length = 32) ∧
        ∃ head, records.foldlM (verifyAuditRecord json) ⟨previousHash, previousSequence + 1⟩ =
          .ok head := by
  unfold verifyAuditRecords
  split_ifs with h₁ h₂
  · simp [not_le.2 h₁]
  · simp [h₂]
  · rw [not_and_or, not_not, not_not, List.length_eq_zero_iff] at h₂
    rcases records.foldlM (verifyAuditRecord json) ⟨previousHash, previousSequence + 1⟩ with
      e | head
    · simp
    · simp [not_lt.1 h₁, h₂]

/-! ## Chains -/

/-- What the verification of a complete chain expects first. -/
def AuditExpectation.first : AuditExpectation where
  previous := []
  sequence := 1

/-- The records of a complete chain, with what is expected after them. -/
def Verified (json : AuditHashEnvelope → Bytes) (records : List AuditRecord)
    (head : AuditExpectation) : Prop :=
  records.foldlM (verifyAuditRecord json) .first = .ok head

theorem verifyCompleteAuditRecords_ok_iff :
    verifyCompleteAuditRecords json records = .ok () ↔ ∃ head, Verified json records head := by
  rw [verifyCompleteAuditRecords, verifyAuditRecords_ok_iff]
  simp only [le_refl, List.length_nil, true_or, true_and]
  rfl

theorem Verified.sequence_eq {head : AuditExpectation} (h : Verified json records head) :
    head.sequence = records.length + 1 := by
  refine foldlM_induction (P := fun xs t => t.sequence = (xs.length : ℤ) + 1) rfl ?_ h
  intro xs x m t hm hx
  obtain ⟨-, -, -, -, -, -, -, -, hnext⟩ := verifyAuditRecord_ok_iff.1 hx
  rw [hnext, hm, List.length_append, List.length_singleton]
  push_cast
  ring

/-- The sequences of a chain count from one. -/
theorem Verified.sequences {head : AuditExpectation} (h : Verified json records head) :
    records.map AuditRecord.sequence = (List.range records.length).map fun i : ℕ =>
      (i : ℤ) + 1 := by
  refine (foldlM_induction (P := fun xs t => t.sequence = (xs.length : ℤ) + 1 ∧
    xs.map AuditRecord.sequence = (List.range xs.length).map fun i :
    ℕ => (i : ℤ) + 1) ⟨rfl, rfl⟩ ?_ h).2
  intro xs x m t hm hx
  obtain ⟨hsequence, -, -, -, -, -, -, -, hnext⟩ := verifyAuditRecord_ok_iff.1 hx
  rw [List.length_append, List.length_singleton]
  refine ⟨?_, ?_⟩
  · rw [hnext, hm.1]
    push_cast
    ring
  · rw [List.map_append, hm.2, List.range_succ, List.map_append, List.map_singleton,
      List.map_singleton, hsequence, hm.1]

theorem Verified.mem_sequence {head : AuditExpectation} (h : Verified json records head)
    {record : AuditRecord} (hrecord : record ∈ records) :
    0 < record.sequence ∧ record.sequence < head.sequence := by
  have hmem := List.mem_map_of_mem (f := AuditRecord.sequence) hrecord
  rw [h.sequences, List.mem_map] at hmem
  obtain ⟨i, hi, heq⟩ := hmem
  have hlt := List.mem_range.1 hi
  rw [h.sequence_eq, ← heq]
  omega

/-- The hash after a chain is that of its last record. -/
theorem Verified.previous_eq {head : AuditExpectation} (h : Verified json records head) :
    records.getLast?.map AuditRecord.eventHash =
      if records = [] then none else some (hexEncode head.previous) := by
  rcases records.eq_nil_or_concat with rfl | ⟨records, record, rfl⟩
  · rfl
  · rw [List.concat_eq_append] at h ⊢
    obtain ⟨m, -, hlast⟩ := foldlM_concat_ok.1 h
    obtain ⟨-, -, -, -, -, -, hhash, -⟩ := verifyAuditRecord_ok_iff.1 hlast
    rw [List.getLast?_append, List.getLast?_singleton, Option.some_or, Option.map_some, hhash,
      if_neg (by simp)]

theorem Verified.length_previous {head : AuditExpectation} (h : Verified json records head) :
    head.previous.length = 0 ∨ head.previous.length = 32 := by
  refine foldlM_induction (P := fun _ t => t.previous.length = 0 ∨ t.previous.length = 32)
    (.inl rfl) ?_ h
  rintro xs x m t - hx
  obtain ⟨-, -, -, -, -, -, -, heq, -⟩ := verifyAuditRecord_ok_iff.1 hx
  exact .inr (by rw [heq, length_sha256])

/-! ## Tamper evidence -/

/-- A record with the normalised time of its event. -/
def AuditRecord.normalized (record : AuditRecord) : AuditRecord :=
  { record with event := record.event.normalized }

/-- From the hash after it a record is determined, and so is the hash before it. -/
theorem verifyAuditRecord_undo {x y : AuditRecord} {s s' t : AuditExpectation}
    (hfree : sha256 (json x.envelope) = sha256 (json y.envelope) → x.envelope = y.envelope)
    (hx : verifyAuditRecord json s x = .ok t) (hy : verifyAuditRecord json s' y = .ok t) :
    x.normalized = y.normalized ∧ s = s' := by
  obtain ⟨-, -, -, hxprevious, -, -, hxhash, hxeq, hxnext⟩ := verifyAuditRecord_ok_iff.1 hx
  obtain ⟨-, -, -, hyprevious, -, -, hyhash, hyeq, hynext⟩ := verifyAuditRecord_ok_iff.1 hy
  have henvelope := hfree (by rw [← hxeq, hyeq])
  simp only [AuditRecord.envelope, AuditHashEnvelope.mk.injEq] at henvelope
  obtain ⟨hsequence, hid, hprevious, hevent⟩ := henvelope
  constructor
  · simp only [AuditRecord.normalized, AuditRecord.mk.injEq]
    exact ⟨hsequence, hid, hevent, hprevious, by rw [hxhash, hyhash]⟩
  · rw [hxprevious, hyprevious] at hprevious
    have hexpected : s.sequence = s'.sequence := by omega
    rcases s with ⟨p, n⟩
    rcases s' with ⟨p', n'⟩
    rw [AuditExpectation.mk.injEq]
    exact ⟨hexEncode_injective hprevious, hexpected⟩

/-- Two complete chains of the same length with the same last hash are the same chain, when no two
of their envelopes have the same hash. -/
theorem records_eq_of_last_hash {xs ys : List AuditRecord}
    (hxs : verifyCompleteAuditRecords json xs = .ok ())
    (hys : verifyCompleteAuditRecords json ys = .ok ()) (hlength : xs.length = ys.length)
    (hlast : xs.getLast?.map AuditRecord.eventHash = ys.getLast?.map AuditRecord.eventHash)
    (hfree : ∀ x ∈ xs, ∀ y ∈ ys,
      sha256 (json x.envelope) = sha256 (json y.envelope) → x.envelope = y.envelope) :
    xs.map AuditRecord.normalized = ys.map AuditRecord.normalized := by
  obtain ⟨t, hx⟩ := verifyCompleteAuditRecords_ok_iff.1 hxs
  obtain ⟨t', hy⟩ := verifyCompleteAuditRecords_ok_iff.1 hys
  rcases xs.eq_nil_or_concat with rfl | hne
  · rw [List.length_eq_zero_iff.1 hlength.symm]
  · have hxne : xs ≠ [] := by
      obtain ⟨init, last, rfl⟩ := hne
      simp
    have hyne : ys ≠ [] := by
      rintro rfl
      exact hxne (List.length_eq_zero_iff.1 hlength)
    rw [hx.previous_eq, hy.previous_eq, if_neg hxne, if_neg hyne, Option.some.injEq] at hlast
    have htail : t = t' := by
      have hsequence : t.sequence = t'.sequence := by rw [hx.sequence_eq, hy.sequence_eq, hlength]
      rcases t with ⟨p, n⟩
      rcases t' with ⟨p', n'⟩
      rw [AuditExpectation.mk.injEq]
      exact ⟨hexEncode_injective hlast, hsequence⟩
    rw [← htail] at hy
    exact foldlM_backward
      (fun x hx y hy s s' t hs hs' => verifyAuditRecord_undo (hfree x hx y hy) hs hs') hlength hx hy

end

/-! A chain of two records, with the bytes that `encoding/json` writes for texts without escapes. -/

/-- The date of a day, counted from the first of January of the year one. -/
def civilDate (day : ℕ) : ℕ × ℕ × ℕ :=
  -- years begin in March, and 400 of them have 146097 days
  let z := day + 306
  let doe := z % 146097
  let yoe := (doe - doe / 1460 + doe / 36524 - doe / 146096) / 365
  let doy := doe - (365 * yoe + yoe / 4 - yoe / 100)
  let month := (5 * doy + 2) / 153
  (z / 146097 * 400 + yoe + if month < 10 then 0 else 1, if month < 10 then month + 3
    else month - 9, doy - (153 * month + 2) / 5 + 1)

/-- A time as `time.RFC3339Nano`. -/
def formatTime (t : ℤ) : String :=
  let seconds := (t / second).toNat
  let nanos := (t % second).toNat
  let (year, month, day) := civilDate (seconds / 86400)
  let two (n : ℕ) := zeroPadded 2 n
  let fraction := if nanos = 0 then [] else '.' :: (zeroPadded 9 nanos).rdropWhile (· = '0')
  .ofList (zeroPadded 4 year ++ '-' :: two month ++ '-' :: two day ++ 'T' ::
    two (seconds / 3600 % 24) ++
    ':' :: two (seconds / 60 % 60) ++ ':' :: two (seconds % 60) ++ fraction ++ ['Z'])

/-- Fields that are empty are left out, as their tags say. -/
def auditJSON (envelope : AuditHashEnvelope) : Bytes :=
  let event := envelope.event
  let text (name value : String) := if value = "" then ""
    else ",\"" ++ name ++ "\":\"" ++ value ++ "\""
  let number (name : String) (value : ℤ) := if value = 0 then ""
    else ",\"" ++ name ++ "\":" ++ toString value
  stringBytes ("\x7b\"sequence\":" ++ toString envelope.sequence ++ ",\"event_id\":\"" ++
    envelope.eventID ++ "\"" ++
    text "previous_hash" envelope.previousHash ++ ",\"event\":\x7b\"schema_version\":" ++
    toString event.schemaVersion ++ ",\"occurred_at\":\"" ++ formatTime event.occurredAt ++
      "\",\"type\":\"" ++
    event.type.name ++ "\",\"outcome\":\"" ++ event.outcome ++ "\"" ++
      text "node_id" event.nodeID ++
    text "registration_id_hash" event.registrationIDHash ++ text "update_id" event.updateID ++
    text "update_sha256" event.updateSHA256 ++ text "base_model_version" event.baseModelVersion ++
    ",\"round_id\":" ++ toString event.roundID.toNat ++ text "model_version" event.modelVersion ++
    text "model_sha256" event.modelSHA256 ++ number "sample_count" event.sampleCount.toNat ++
    number "pending_updates" event.pendingUpdates ++ number "quorum" event.quorum ++
    text "aggregation_method" event.aggregationMethod ++
      number "lease_expires_unix" event.leaseExpiresUnix ++
    number "credential_generation" event.credentialGeneration.toNat ++
    text "target_node_id" event.targetNodeID ++
      number "blocked_until_unix" event.blockedUntilUnix ++ "\x7d\x7d")

def sampleAuditEvent (occurredAt : ℤ) : AuditEvent :=
  { newAuditEvent .stateInitialized 1000 with occurredAt, modelVersion := "initial" }

def recoveredEvent (occurredAt : ℤ) : AuditEvent :=
  { sampleAuditEvent occurredAt with type := .stateRecovered }

/-- A record with the hash that belongs to it. -/
def sealedRecord (json : AuditHashEnvelope → Bytes) (sequence : ℤ) (previousHash : String)
    (event : AuditEvent) : AuditRecord where
  sequence := sequence
  eventID := auditEventID sequence
  event := event
  previousHash := previousHash
  eventHash :=
    hexEncode (sha256 (json ⟨sequence, auditEventID sequence, previousHash, event.normalized⟩))

def linkedRecords (started recovered : ℤ) : List AuditRecord :=
  let first := sealedRecord auditJSON 1 "" (sampleAuditEvent started)
  [first, sealedRecord auditJSON 2 first.eventHash (recoveredEvent recovered)]

theorem verifyAuditRecord_sealedRecord {json : AuditHashEnvelope → Bytes} {previous : Bytes}
    {sequence : ℤ} {event : AuditEvent} (hsequence : 0 < sequence)
    (hprevious : previous.length = 0 ∨ previous.length = 32)
    (h : validateAuditEvent event.normalized = .ok ()) :
    verifyAuditRecord json ⟨previous, sequence⟩
      (sealedRecord json sequence (hexEncode previous) event) =
      .ok ⟨sha256 (json (sealedRecord json sequence (hexEncode previous) event).envelope),
        sequence + 1⟩ :=
  verifyAuditRecord_ok_iff.2 ⟨rfl, hsequence, rfl, rfl, hprevious, h, rfl, rfl, rfl⟩

theorem verify_linkedRecords {started recovered : ℤ}
    (hstarted : validateAuditEvent (sampleAuditEvent started).normalized = .ok ())
    (hrecovered : validateAuditEvent (recoveredEvent recovered).normalized = .ok ()) :
    verifyCompleteAuditRecords auditJSON (linkedRecords started recovered) = .ok () :=
  verifyCompleteAuditRecords_ok_iff.2 ⟨_, foldlM_cons_ok.2 ⟨_,
    verifyAuditRecord_sealedRecord zero_lt_one (.inl rfl) hstarted, foldlM_cons_ok.2 ⟨_,
      verifyAuditRecord_sealedRecord (by decide) (.inr (length_sha256 _)) hrecovered,
      foldlM_nil_ok.2 rfl⟩⟩⟩

theorem records_eq_linkedRecords :
    verifyCompleteAuditRecords auditJSON (linkedRecords 1000 2000) = .ok () ∧
      verifyCompleteAuditRecords auditJSON (linkedRecords 1500 2999) = .ok () ∧
      (linkedRecords 1000 2000).map AuditRecord.normalized =
        (linkedRecords 1500 2999).map AuditRecord.normalized := by
  have hexact : verifyCompleteAuditRecords auditJSON (linkedRecords 1000 2000) = .ok () :=
    verify_linkedRecords (by decide +kernel) (by decide +kernel)
  have hlater : verifyCompleteAuditRecords auditJSON (linkedRecords 1500 2999) = .ok () :=
    verify_linkedRecords (by decide +kernel) (by decide +kernel)
  have henvelopes : (linkedRecords 1500 2999).map AuditRecord.envelope =
      (linkedRecords 1000 2000).map AuditRecord.envelope := rfl
  have hapart : ((linkedRecords 1000 2000).map fun x => sha256 (auditJSON x.envelope)).Nodup := by
    decide +kernel
  refine ⟨hexact, hlater, records_eq_of_last_hash hexact hlater rfl rfl fun x hx y hy heq => ?_⟩
  obtain ⟨y', hy', hsame⟩ := List.mem_map.1 (henvelopes ▸ List.mem_map_of_mem hy)
  rw [← hsame] at heq ⊢
  exact congrArg AuditRecord.envelope (List.inj_on_of_nodup_map hapart hx hy' heq)

/-! ## Canonical records -/

/-- What verification has found of an accepted record. -/
theorem mem_verified {json : AuditHashEnvelope → Bytes} {records : List AuditRecord}
    {previousHash : Bytes} {previousSequence : ℤ}
    (h : verifyAuditRecords json records previousHash previousSequence = .ok ())
    {record : AuditRecord} (hrecord : record ∈ records) :
    validateAuditEvent record.event.normalized = .ok () ∧
      record.eventHash = hexEncode (sha256 (json record.envelope)) := by
  obtain ⟨-, -, head, hfold⟩ := verifyAuditRecords_ok_iff.1 h
  obtain ⟨before, after, rfl⟩ := List.append_of_mem hrecord
  obtain ⟨expected, -, hrest⟩ := foldlM_append_ok.1 hfold
  obtain ⟨next, hstep, -⟩ := foldlM_cons_ok.1 hrest
  obtain ⟨-, -, -, -, -, hvalid, hhash, heq, -⟩ := verifyAuditRecord_ok_iff.1 hstep
  exact ⟨hvalid, by rw [hhash, heq]⟩

theorem normalizeAuditTime_eq_self_iff {t : ℤ} : normalizeAuditTime t = t ↔ t % 1000 = 0 := by
  simp only [normalizeAuditTime, truncateMicrosecond]
  omega

/-- An event of which the normalised one is valid is itself valid when its time is a whole number of
microseconds. -/
theorem validateAuditEvent_iff_of_normalized {event : AuditEvent}
    (h : validateAuditEvent event.normalized = .ok ()) :
    validateAuditEvent event = .ok () ↔ event.occurredAt % 1000 = 0 := by
  rw [← normalizeAuditTime_eq_self_iff]
  constructor
  · intro hvalid
    exact congrArg AuditEvent.occurredAt (AuditEvent.normalized_of_valid hvalid)
  · intro heq
    have hsame : event.normalized = event := congrArg (fun t => { event with occurredAt := t }) heq
    rwa [hsame] at h

/-- The events of accepted records are valid just when their times are whole microseconds; of
records with the same event hash the times agree just when they agree below the microsecond. -/
theorem verified_events_valid_iff (json : AuditHashEnvelope → Bytes) (records : List AuditRecord)
    (previousHash : Bytes) (previousSequence : ℤ)
    (h : verifyAuditRecords json records previousHash previousSequence = .ok ()) :
    ((∀ record ∈ records, validateAuditEvent record.event = .ok ()) ↔
        ∀ record ∈ records, record.event.occurredAt % 1000 = 0) ∧
      ∀ records' previousHash' previousSequence',
        verifyAuditRecords json records' previousHash' previousSequence' = .ok () →
        (∀ x ∈ records, ∀ y ∈ records',
          sha256 (json x.envelope) = sha256 (json y.envelope) → x.envelope = y.envelope) →
        ∀ x ∈ records, ∀ y ∈ records', x.eventHash = y.eventHash →
          (x.event.occurredAt = y.event.occurredAt ↔
            x.event.occurredAt % 1000 = y.event.occurredAt % 1000) := by
  refine ⟨forall₂_congr fun record hrecord =>
    validateAuditEvent_iff_of_normalized (mem_verified h hrecord).1, ?_⟩
  intro records' previousHash' previousSequence' h' hfree x hx y hy hhash
  rw [(mem_verified h hx).2, (mem_verified h' hy).2] at hhash
  have henvelope := hfree x hx y hy (hexEncode_injective hhash)
  have htime : normalizeAuditTime x.event.occurredAt = normalizeAuditTime y.event.occurredAt :=
    congrArg (fun envelope => envelope.event.occurredAt) henvelope
  simp only [normalizeAuditTime, truncateMicrosecond] at htime
  omega

/-- The first record of a chain. -/
def firstRecord (json : AuditHashEnvelope → Bytes) (occurredAt : ℤ) : AuditRecord :=
  sealedRecord json 1 "" (sampleAuditEvent occurredAt)

theorem verifyAuditRecords_firstRecord {json : AuditHashEnvelope → Bytes} {occurredAt : ℤ}
    (h : validateAuditEvent (sampleAuditEvent occurredAt).normalized = .ok ()) :
    verifyAuditRecords json [firstRecord json occurredAt] [] 0 = .ok () := by
  exact verifyAuditRecords_ok_iff.2 ⟨le_refl 0, .inl rfl, _, foldlM_cons_ok.2 ⟨_,
    verifyAuditRecord_sealedRecord zero_lt_one (.inl rfl) h, foldlM_nil_ok.2 rfl⟩⟩

theorem verified_events_valid_firstRecord :
    verifyAuditRecords auditJSON [firstRecord auditJSON 2000] [] 0 = .ok () ∧
      ∀ record ∈ [firstRecord auditJSON 2000], validateAuditEvent record.event = .ok () := by
  have h := @verifyAuditRecords_firstRecord auditJSON 2000 (by decide +kernel)
  exact ⟨h, (verified_events_valid_iff auditJSON _ [] 0 h).1.2
    (by simp [firstRecord, sealedRecord, sampleAuditEvent])⟩

/-- A record with a time of half a microsecond is accepted, with the hash of the record whose time
has been cut off. -/
theorem verified_event_not_valid :
    verifyAuditRecords auditJSON [firstRecord auditJSON 2500] [] 0 = .ok () ∧
      validateAuditEvent (firstRecord auditJSON 2500).event ≠ .ok () ∧
      verifyAuditRecords auditJSON [firstRecord auditJSON 2000] [] 0 = .ok () ∧
      (firstRecord auditJSON 2500).eventHash = (firstRecord auditJSON 2000).eventHash ∧
      (firstRecord auditJSON 2500).event.occurredAt ≠
        (firstRecord auditJSON 2000).event.occurredAt := by
  have hinvalid : validateAuditEvent (sampleAuditEvent 2500) ≠ .ok () := by decide +kernel
  have htimes : (2500 : ℤ) ≠ 2000 := by decide
  exact ⟨verifyAuditRecords_firstRecord (by decide +kernel), hinvalid,
    verifyAuditRecords_firstRecord (by decide +kernel), rfl, htimes⟩

end ZeroTrustFL
