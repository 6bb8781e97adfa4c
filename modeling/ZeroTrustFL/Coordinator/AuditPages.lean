import Mathlib
import ZeroTrustFL.Coordinator.AuditChainProof

/-!
# Appending to the audit table and reading it in pages

The verification of a chain is compositional, so a page is verified from its cursor exactly as the
complete chain is at that place.  `readAuditEvents_of_verified` says what one page is once
everything before it is verified; the traversal follows by induction on its pages.
-/

namespace ZeroTrustFL

/-! ## The table -/

namespace AuditTable

theorem eq_of_sequence_eq (table : AuditTable) {a b : AuditRow} (ha : a ∈ table.rows)
    (hb : b ∈ table.rows) (h : a.sequence = b.sequence) : a = b := by
  have hnodup : (table.rows.map AuditRow.sequence).Nodup :=
    List.pairwise_map.2 (table.ordered.imp fun hlt => ne_of_lt hlt)
  exact List.inj_on_of_nodup_map hnodup ha hb h

theorem find_of_mem (table : AuditTable) {row : AuditRow} (h : row ∈ table.rows) :
    table.find row.sequence = some row := by
  unfold find
  rcases hfound : table.rows.find? fun stored => stored.sequence = row.sequence with _ | stored
  · have hnone := List.find?_eq_none.1 hfound row h
    simp at hnone
  · have hsequence : stored.sequence = row.sequence := by simpa using List.find?_some hfound
    rw [hfound, table.eq_of_sequence_eq (List.mem_of_find?_eq_some hfound) h hsequence]

end AuditTable

theorem scanAuditRecord_ok_iff {row : AuditRow} {record : AuditRecord} :
    scanAuditRecord row = .ok record ↔
      row.payload = some record.event ∧ record.event.occurredAt = row.occurredAt ∧
        record.event.type = row.eventType ∧ row.eventHash.length = 32 ∧
        ((row.previousHash.getD []).length = 0 ∨ (row.previousHash.getD []).length = 32) ∧
        record.sequence = row.sequence ∧ record.eventID = row.eventID ∧
        record.previousHash = hexEncode (row.previousHash.getD []) ∧
        record.eventHash = hexEncode row.eventHash := by
  constructor
  · intro h
    unfold scanAuditRecord at h
    split at h
    · cases h
    · rename_i event hpayload
      split_ifs at h with h₁ h₂ h₃
      cases h
      rw [not_or, not_and_or, not_not, not_not, not_not] at h₃
      exact ⟨hpayload, not_not.1 h₁, not_not.1 h₂, h₃.1, h₃.2, rfl, rfl, rfl, rfl⟩
  · rintro ⟨hpayload, htime, htype, hhash, hprevious, h₁, h₂, h₃, h₄⟩
    unfold scanAuditRecord
    have hlength : ¬ (row.eventHash.length ≠ 32 ∨
        (row.previousHash.getD []).length ≠ 0 ∧ (row.previousHash.getD []).length ≠ 32) := by
      rw [not_or, not_and_or, not_not, not_not, not_not]
      exact ⟨hhash, hprevious⟩
    rw [hpayload]
    simp only [if_neg (not_not.2 htime), if_neg (not_not.2 htype), if_neg hlength, Except.ok.injEq]
    rw [← h₁, ← h₂, ← h₃, ← h₄]

/-- Rows and the records they are read as. -/
def Scanned (rows : List AuditRow) (records : List AuditRecord) : Prop :=
  List.Forall₂ (fun row record => scanAuditRecord row = .ok record) rows records

theorem Scanned.map_sequence {rows : List AuditRow} {records : List AuditRecord}
    (h : Scanned rows records) :
    rows.map AuditRow.sequence = records.map AuditRecord.sequence := by
  induction h with
  | nil => rfl
  | cons hhead _ ih =>
    obtain ⟨-, -, -, -, -, hsequence, -⟩ := scanAuditRecord_ok_iff.1 hhead
    rw [List.map_cons, List.map_cons, ih, hsequence]

theorem Scanned.append {rows rows' : List AuditRow} {records records' : List AuditRecord}
    (h : Scanned rows records) (h' : Scanned rows' records') :
    Scanned (rows ++ rows') (records ++ records') :=
  List.rel_append h h'

/-- The last record is read from the last row. -/
theorem Scanned.concat_right {rows : List AuditRow} {records : List AuditRecord}
    {record : AuditRecord} (h : Scanned rows (records ++ [record])) :
    ∃ before row, rows = before ++ [row] ∧ Scanned before records ∧
      scanAuditRecord row = .ok record := by
  have hinit := List.forall₂_take_append rows records [record] h
  have hlast := List.forall₂_drop_append rows records [record] h
  obtain ⟨row, tail, hrow, htail, hdrop⟩ := List.forall₂_cons_right_iff.1 hlast
  rw [List.forall₂_nil_right_iff] at htail
  subst htail
  exact ⟨rows.take records.length, row, by rw [← hdrop, List.take_append_drop], hinit, hrow⟩

section

variable {json : AuditHashEnvelope → Bytes} {table : AuditTable} {read rest : List AuditRow}
  {records : List AuditRecord} {head : AuditExpectation}

/-! ## One page -/

/-- The rows beyond a verified beginning of the table are those with a larger sequence. -/
theorem filter_of_verified (hrows : table.rows = read ++ rest) (hscan : Scanned read records)
    (hverified : Verified json records head) :
    (table.rows.filter fun row => (records.length : ℤ) < row.sequence) = rest := by
  have hsequence (row : AuditRow) (hrow : row ∈ read) : row.sequence ≤ records.length := by
    have hmem := List.mem_map_of_mem (f := AuditRow.sequence) hrow
    rw [hscan.map_sequence, List.mem_map] at hmem
    obtain ⟨record, hrecord, heq⟩ := hmem
    have hlt := (hverified.mem_sequence hrecord).2
    rw [hverified.sequence_eq] at hlt
    omega
  have hrest (row : AuditRow) (hrow : row ∈ rest) : (records.length : ℤ) < row.sequence := by
    rcases records.eq_nil_or_concat with rfl | ⟨init, last, rfl⟩
    · exact (table.checked row (by rw [hrows]; exact List.mem_append_right _ hrow)).1
    · have hlast : ((init.concat last).length : ℤ) ∈ read.map AuditRow.sequence := by
        rw [hscan.map_sequence, hverified.sequences]
        exact List.mem_map.2 ⟨init.length, by simp, by simp⟩
      obtain ⟨stored, hstored, heq⟩ := List.mem_map.1 hlast
      rw [← heq]
      exact (List.pairwise_append.1 (hrows ▸ table.ordered)).2.2 stored hstored row hrow
  rw [hrows, List.filter_append, List.filter_eq_nil_iff.2, List.filter_eq_self.2, List.nil_append]
  · intro row hrow
    simpa using hrest row hrow
  · intro row hrow
    simpa using hsequence row hrow

/-- The last row of a verified beginning passes as a cursor. -/
theorem readAuditCursor_of_verified (hrows : table.rows = read ++ rest)
    (hscan : Scanned read records) (hverified : Verified json records head) (hne : records ≠ []) :
    readAuditCursor json table records.length = .ok head.previous := by
  rcases records.eq_nil_or_concat with rfl | ⟨init, record, rfl⟩
  · exact absurd rfl hne
  rw [List.concat_eq_append] at hscan hverified ⊢
  obtain ⟨before, row, rfl, hbefore, hrow⟩ := hscan.concat_right
  obtain ⟨m, hinit, hstep⟩ := foldlM_concat_ok.1 hverified
  obtain ⟨hsequence, hpos, -, -, -, -, hhash, -⟩ := verifyAuditRecord_ok_iff.1 hstep
  have hcount : (((init ++ [record]).length : ℕ) : ℤ) = m.sequence := by
    rw [Verified.sequence_eq hinit, List.length_append, List.length_singleton]
    push_cast
    ring
  have hfind : table.find m.sequence = some row := by
    obtain ⟨-, -, -, -, -, hscanned, -⟩ := scanAuditRecord_ok_iff.1 hrow
    rw [← hsequence, hscanned]
    exact table.find_of_mem (by rw [hrows]; simp)
  have hverify : verifyAuditRecords json [record] m.previous (m.sequence - 1) = .ok () := by
    rw [verifyAuditRecords_ok_iff, sub_add_cancel]
    exact ⟨by rw [← hsequence]; omega, Verified.length_previous hinit, head,
      foldlM_cons_ok.2 ⟨head, hstep, foldlM_nil_ok.2 rfl⟩⟩
  have hdecode : hexDecode record.eventHash.toList = some head.previous := by
    rw [hhash, hexEncode, String.toList_ofList, hexDecode_hexChars]
  rw [hcount, readAuditCursor, readAuditRecord, hfind]
  simp only [hrow]
  rcases init.eq_nil_or_concat with rfl | ⟨init, last, rfl⟩
  · -- The first row of the table has no predecessor.
    obtain rfl : AuditExpectation.first = m := foldlM_nil_ok.1 hinit
    rw [if_neg (by decide)]
    simp only [show AuditExpectation.first.previous = [] from rfl] at hverify
    simp only [hverify, hdecode]
  · rw [List.concat_eq_append] at hbefore hinit hcount
    obtain ⟨older, stored, rfl, -, hstored⟩ := hbefore.concat_right
    obtain ⟨m', hinit', hstep'⟩ := foldlM_concat_ok.1 hinit
    obtain ⟨hsequence', -, -, -, -, -, hhash', -, hnext⟩ := verifyAuditRecord_ok_iff.1 hstep'
    obtain ⟨-, -, -, -, -, hscanned, -, -, htext⟩ := scanAuditRecord_ok_iff.1 hstored
    have hpredecessor : table.find (m.sequence - 1) = some stored := by
      rw [hnext, add_sub_cancel_right, ← hsequence', hscanned]
      exact table.find_of_mem (by rw [hrows]; simp)
    have hprevious : stored.eventHash = m.previous :=
      hexEncode_injective (by rw [← htext, hhash'])
    rw [if_pos (by rw [← hcount, List.length_append, List.length_append]; simp), hpredecessor]
    simp only [hprevious, hverify, hdecode]

/-- A page that follows a verified beginning is read and verified from there. -/
theorem readAuditEvents_of_verified (hrows : table.rows = read ++ rest)
    (hscan : Scanned read records) (hverified : Verified json records head)
    {remaining : List AuditRecord} (hrest : Scanned rest remaining) {limit : ℕ}
    (hlimit : 1 ≤ limit ∧ limit ≤ 10000) {page : List AuditRecord} :
    readAuditEvents json table records.length limit = .ok page ↔
      page = remaining.take limit ∧
        ∃ next, (remaining.take limit).foldlM (verifyAuditRecord json) head = .ok next := by
  have hcursor : (if 0 < (records.length : ℤ) then readAuditCursor json table records.length
      else .ok []) = .ok head.previous := by
    split_ifs with hpos
    · exact readAuditCursor_of_verified hrows hscan hverified (by rintro rfl; simp at hpos)
    · obtain rfl : records = [] := List.length_eq_zero_iff.1 (by omega)
      rw [← foldlM_nil_ok.1 hverified]
      rfl
  have hpage : table.page records.length limit = rest.take limit := by
    rw [AuditTable.page, filter_of_verified hrows hscan hverified, Int.toNat_natCast]
  have hmap : (rest.take limit).mapM scanAuditRecord = .ok (remaining.take limit) :=
    mapM_ok_iff.2 (List.forall₂_take limit hrest)
  have hverify : verifyAuditRecords json (remaining.take limit) head.previous records.length =
      .ok () ↔
      ∃ next, (remaining.take limit).foldlM (verifyAuditRecord json) head = .ok next := by
    rw [verifyAuditRecords_ok_iff, ← hverified.sequence_eq]
    simp only [Int.natCast_nonneg, hverified.length_previous, true_and]
  unfold readAuditEvents
  rw [if_neg (by omega)]
  simp only [if_neg (show ¬ (limit : ℤ) ≤ 0 by omega)]
  rw [if_neg (by rw [maxAuditExportRows]; omega), hcursor, hpage, hmap, ← hverify]
  simp only
  split
  · rename_i e he
    simp [he]
  · rename_i hok
    simp [hok, eq_comm]

/-! ## Traversals -/

end

/-- Pages read one after the other, each after the last sequence of the one before. -/
def traverseAuditEvents (json : AuditHashEnvelope → Bytes) (table : AuditTable) :
    ℤ → List ℕ → Except String (List (List AuditRecord))
  | _, [] => .ok []
  | afterSequence, limit :: limits =>
    match readAuditEvents json table afterSequence limit with
    | .error e => .error e
    | .ok page =>
      let cursor := (page.getLast?.map AuditRecord.sequence).getD afterSequence
      match traverseAuditEvents json table cursor limits with
      | .error e => .error e
      | .ok pages => .ok (page :: pages)

section

variable {json : AuditHashEnvelope → Bytes} {table : AuditTable} {records : List AuditRecord}
  {event : AuditEvent}

/-- The cursor after a page counts the records read so far. -/
theorem cursor_of_verified {page : List AuditRecord} {head next : AuditExpectation}
    (hverified : Verified json records head)
    (hpage : page.foldlM (verifyAuditRecord json) head = .ok next) :
    (page.getLast?.map AuditRecord.sequence).getD (records.length : ℤ) =
      (records ++ page).length := by
  rcases page.eq_nil_or_concat with rfl | ⟨init, last, rfl⟩
  · simp
  · rw [List.concat_eq_append] at hpage ⊢
    obtain ⟨m, hinit, hlast⟩ := foldlM_concat_ok.1 hpage
    have hverified' : Verified json (records ++ init) m :=
      foldlM_append_ok.2 ⟨head, hverified, hinit⟩
    obtain ⟨hsequence, -⟩ := verifyAuditRecord_ok_iff.1 hlast
    rw [List.getLast?_append, List.getLast?_singleton, Option.some_or, Option.map_some,
      Option.getD_some, hsequence, hverified'.sequence_eq]
    simp only [List.length_append, List.length_singleton]
    push_cast
    ring

/-- A traversal succeeds exactly when the records it covers are verified, and then reads them. -/
theorem traverseAuditEvents_ok_iff {limits : List ℕ}
    (hlimits : ∀ limit ∈ limits, 1 ≤ limit ∧ limit ≤ 10000) {read rest : List AuditRow}
    {remaining : List AuditRecord} {head : AuditExpectation} (hrows : table.rows = read ++ rest)
    (hscan : Scanned read records) (hverified : Verified json records head)
    (hrest : Scanned rest remaining) :
    (∀ pages, traverseAuditEvents json table records.length limits = .ok pages →
      pages.flatten = remaining.take limits.sum) ∧
    ((∃ pages, traverseAuditEvents json table records.length limits = .ok pages) ↔
      ∃ next, (remaining.take limits.sum).foldlM (verifyAuditRecord json) head = .ok next) := by
  induction limits generalizing read rest records remaining head with
  | nil =>
    simp [traverseAuditEvents, pure, Except.pure]
  | cons limit limits ih =>
    have hlimit := hlimits limit List.mem_cons_self
    have hread := @readAuditEvents_of_verified json table read rest records head hrows
      hscan hverified remaining hrest limit hlimit
    rw [List.sum_cons, List.take_add]
    simp only [foldlM_append_ok]
    rcases hpage : (remaining.take limit).foldlM (verifyAuditRecord json) head with e | next
    · -- The page does not verify, and neither does what contains it.
      have hnone (pages : List (List AuditRecord)) :
          traverseAuditEvents json table records.length (limit :: limits) ≠ .ok pages := by
        rw [traverseAuditEvents]
        split
        · rintro ⟨⟩
        · rename_i page hok
          obtain ⟨-, next, hnext⟩ := hread.1 hok
          rw [hpage] at hnext
          cases hnext
      refine ⟨fun pages hpages => absurd hpages (hnone pages), ?_⟩
      simp [hnone]
    · have hok := hread.2 ⟨rfl, next, hpage⟩
      have hcursor := cursor_of_verified hverified hpage
      have hrows' : table.rows = (read ++ rest.take limit) ++ rest.drop limit := by
        rw [hrows, List.append_assoc, List.take_append_drop]
      have hverified' : Verified json (records ++ remaining.take limit) next :=
        foldlM_append_ok.2 ⟨head, hverified, hpage⟩
      obtain ⟨hflat, hiff⟩ := ih (fun l hl => hlimits l (List.mem_cons_of_mem _ hl)) hrows'
        (hscan.append (List.forall₂_take limit hrest)) hverified' (List.forall₂_drop limit hrest)
      simp only [traverseAuditEvents, hok, hcursor]
      constructor
      · intro pages hpages
        split at hpages
        · cases hpages
        · rename_i tail htail
          cases hpages
          rw [List.flatten_cons, hflat tail htail]
      · simp only [Except.ok.injEq, exists_eq_left', ← hiff]
        rcases traverseAuditEvents json table _ limits with e | tail
        · simp
        · simp

/-! ## Appending -/

/-- The rows of a table form a complete chain. -/
structure Chained (json : AuditHashEnvelope → Bytes) (table : AuditTable)
    (records : List AuditRecord) (head : AuditExpectation) : Prop where
  scanned : Scanned table.rows records
  verified : Verified json records head

theorem chained_empty : Chained json .empty [] .first where
  scanned := List.Forall₂.nil
  verified := rfl

/-- The head that the writer reads is where the verification ends. -/
theorem Chained.head_eq {head : AuditExpectation} (h : Chained json table records head) :
    table.head = { table, lastSequence := head.sequence - 1, previousHash := head.previous } := by
  obtain ⟨hscan, hverified⟩ := h
  unfold AuditTable.head
  rcases records.eq_nil_or_concat with rfl | ⟨init, record, rfl⟩
  · obtain rfl := foldlM_nil_ok.1 hverified
    rw [List.forall₂_nil_right_iff.1 hscan]
    rfl
  · rw [List.concat_eq_append] at hscan hverified
    obtain ⟨before, row, hrows, -, hrow⟩ := hscan.concat_right
    obtain ⟨m, hinit, hstep⟩ := foldlM_concat_ok.1 hverified
    obtain ⟨hsequence, -, -, -, -, -, hhash, -, hnext⟩ := verifyAuditRecord_ok_iff.1 hstep
    obtain ⟨-, -, -, -, -, hscanned, -, -, htext⟩ := scanAuditRecord_ok_iff.1 hrow
    have hprevious : row.eventHash = head.previous := hexEncode_injective (by rw [← htext, hhash])
    have hlast : row.sequence = head.sequence - 1 := by rw [← hscanned, hsequence, hnext]; ring
    rw [hrows, List.getLast?_append, List.getLast?_singleton, Option.some_or, Option.map_some,
      Option.map_some, Option.getD_some, Option.getD_some, hprevious, hlast]

/-- The record that is read back for an appended event. -/
def appendedRecord (head : AuditExpectation) (hash : Bytes) (event : AuditEvent) : AuditRecord where
  sequence := head.sequence
  eventID := auditEventID head.sequence
  event := event
  previousHash := hexEncode head.previous
  eventHash := hexEncode hash

theorem scanAuditRecord_auditRow {head : AuditExpectation} {hash : Bytes} (hhash : hash.length = 32)
    (hprevious : head.previous.length = 0 ∨ head.previous.length = 32) :
    scanAuditRecord (auditRow head.sequence head.previous hash event) =
      .ok (appendedRecord head hash event) := by
  have hstored : (auditRow head.sequence head.previous hash event).previousHash.getD [] =
      head.previous := by
    unfold auditRow
    split_ifs with hpos
    · rfl
    · exact (List.length_eq_zero_iff.1 (by omega)).symm
  rw [scanAuditRecord_ok_iff, hstored]
  exact ⟨rfl, rfl, rfl, hhash, hprevious, rfl, rfl, rfl, rfl⟩

/-- An appended event extends the chain by its record. -/
theorem appendAuditEvent_chained {head : AuditExpectation} {raw : AuditEvent × ℕ}
    {state : AuditAppend} (h : Chained json table records head)
    (hok : appendAuditEvent json
      { table, lastSequence := head.sequence - 1, previousHash := head.previous } raw = .ok state) :
    ∃ hash, Chained json state.table (records ++ [appendedRecord head hash raw.1.normalized])
      ⟨hash, head.sequence + 1⟩ ∧
      state = { state with lastSequence := head.sequence + 1 - 1, previousHash := hash } := by
  unfold appendAuditEvent at hok
  split at hok
  · cases hok
  rename_i event hevent
  obtain ⟨hvalid, rfl⟩ := canonicalAuditEvent_ok_iff.1 hevent
  simp only [sub_add_cancel] at hok
  split at hok
  · cases hok
  rename_i hash hhash
  unfold AuditTable.insert at hok
  by_cases hadmits : table.Admits (auditRow head.sequence head.previous hash raw.1.normalized)
  · rw [dif_pos hadmits] at hok
    cases hok
    obtain ⟨hpos, -, hlength, hvalid', heq⟩ := auditRecordHash_ok_iff.1 hhash
    have hscan := @scanAuditRecord_auditRow raw.1.normalized head hash
      (by rw [heq, length_sha256]) hlength
    refine ⟨hash, ⟨h.scanned.append (List.Forall₂.cons hscan List.Forall₂.nil), ?_⟩, ?_⟩
    · refine foldlM_concat_ok.2 ⟨head, h.verified, verifyAuditRecord_ok_iff.2 ?_⟩
      exact ⟨rfl, hpos, rfl, rfl, hlength, hvalid', rfl, heq, rfl⟩
    · simp
  · rw [dif_neg hadmits] at hok
    cases hok

theorem appendAuditEvents_chained {raws : List (AuditEvent × ℕ)} {head : AuditExpectation}
    {state : AuditAppend} (h : Chained json table records head)
    (hok : raws.foldlM (appendAuditEvent json)
      { table, lastSequence := head.sequence - 1, previousHash := head.previous } = .ok state) :
    ∃ more next, Chained json state.table (records ++ more) next ∧
      more.map AuditRecord.event = raws.map fun raw => raw.1.normalized := by
  induction raws generalizing table records head with
  | nil =>
    obtain rfl := foldlM_nil_ok.1 hok
    exact ⟨[], head, by simpa using h, rfl⟩
  | cons raw raws ih =>
    obtain ⟨m, hm, hrest⟩ := foldlM_cons_ok.1 hok
    obtain ⟨hash, hchain, hstate⟩ := appendAuditEvent_chained h hm
    rw [hstate] at hrest
    obtain ⟨more, next, hmore, hevents⟩ := ih hchain hrest
    refine ⟨appendedRecord head hash raw.1.normalized :: more, next, ?_, ?_⟩
    · simpa using hmore
    · rw [List.map_cons, hevents, List.map_cons]
      rfl

/-- A batch of valid events extends the chain by their records. -/
theorem appendAuditEventsTx_chained {head : AuditExpectation} {events : List AuditEvent}
    {table' : AuditTable} (h : Chained json table records head)
    (hvalid : ∀ event ∈ events, validateAuditEvent event = .ok ())
    (hok : appendAuditEventsTx json table events = .ok table') :
    ∃ more next, Chained json table' (records ++ more) next ∧
      more.map AuditRecord.event = events := by
  unfold appendAuditEventsTx at hok
  rw [h.head_eq] at hok
  split at hok
  · cases hok
  rename_i state hstate
  cases hok
  obtain ⟨more, next, hmore, hevents⟩ := appendAuditEvents_chained h hstate
  refine ⟨more, next, hmore, ?_⟩
  calc more.map AuditRecord.event
      = (events.zipIdx.map Prod.fst).map AuditEvent.normalized := by
        rw [hevents, List.map_map]
        rfl
    _ = events.map AuditEvent.normalized := by rw [List.zipIdx_map_fst]
    _ = events.map id :=
        List.map_congr_left fun event hevent => AuditEvent.normalized_of_valid (hvalid event hevent)
    _ = events := List.map_id events

theorem auditEventID_inj {m n : ℤ} (hm : 0 < m) (hn : 0 < n) (h : auditEventID m = auditEventID n) :
    m = n := by
  unfold auditEventID at h
  rw [if_neg (by omega), if_neg (by omega), String.append_right_inj] at h
  have habs := zeroPadded_injective 20 (String.ofList_injective h)
  omega

theorem Verified.eventID_eq {head : AuditExpectation} (h : Verified json records head) :
    ∀ record ∈ records, record.eventID = auditEventID record.sequence := by
  refine foldlM_induction (P := fun xs _ => ∀ record ∈ xs,
    record.eventID = auditEventID record.sequence) (by simp) ?_ h
  intro xs x m t hxs hx record hrecord
  rcases List.mem_append.1 hrecord with hrecord | hrecord
  · exact hxs record hrecord
  · rw [List.mem_singleton.1 hrecord]
    exact (verifyAuditRecord_ok_iff.1 hx).2.2.1

theorem Scanned.exists_record {rows : List AuditRow} (h : Scanned rows records) {row : AuditRow}
    (hrow : row ∈ rows) : ∃ record ∈ records, scanAuditRecord row = .ok record := by
  induction h with
  | nil => cases hrow
  | cons hhead _ ih =>
    rcases List.mem_cons.1 hrow with rfl | hrow
    · exact ⟨_, List.mem_cons_self, hhead⟩
    · obtain ⟨record, hrecord, hscan⟩ := ih hrow
      exact ⟨record, List.mem_cons_of_mem _ hrecord, hscan⟩

/-- The constraints of the table admit the next row unless its hash is a stored one. -/
theorem Chained.admits {head : AuditExpectation} (h : Chained json table records head)
    {hash : Bytes} (hhash : hash.length = 32) (hfresh : hash ∉ table.rows.map AuditRow.eventHash) :
    table.Admits (auditRow head.sequence head.previous hash event) := by
  have hpos : 0 < head.sequence := by rw [h.verified.sequence_eq]; omega
  refine ⟨?_, ⟨hpos, ?_, hhash⟩, ?_, hfresh⟩
  · intro stored hstored
    obtain ⟨record, hrecord, hscan⟩ := h.scanned.exists_record hstored
    obtain ⟨-, -, -, -, -, hsequence, -⟩ := scanAuditRecord_ok_iff.1 hscan
    rw [← hsequence]
    exact (h.verified.mem_sequence hrecord).2
  · intro previous hprevious
    unfold auditRow at hprevious
    split_ifs at hprevious with hlength
    · cases hprevious
      exact h.verified.length_previous.resolve_left (by omega)
    · cases hprevious
  · rw [List.mem_map]
    rintro ⟨stored, hstored, heq⟩
    obtain ⟨record, hrecord, hscan⟩ := h.scanned.exists_record hstored
    obtain ⟨-, -, -, -, -, -, hid, -⟩ := scanAuditRecord_ok_iff.1 hscan
    obtain ⟨hpos', hlt⟩ := h.verified.mem_sequence hrecord
    rw [← hid, h.verified.eventID_eq record hrecord] at heq
    have hsame := auditEventID_inj hpos' hpos heq
    omega

/-- A valid event is appended unless the hash of its record is a stored one. -/
theorem appendAuditEvent_succeeds {head : AuditExpectation} (h : Chained json table records head)
    (hvalid : validateAuditEvent event = .ok ())
    (hfresh : sha256 (json (appendedRecord head [] event).envelope) ∉
      table.rows.map AuditRow.eventHash)
    (index : ℕ) :
    ∃ state, appendAuditEvent json
      { table, lastSequence := head.sequence - 1, previousHash := head.previous } (event, index) =
        .ok state := by
  have hnormal := AuditEvent.normalized_of_valid hvalid
  have hpos : 0 < head.sequence := by rw [h.verified.sequence_eq]; omega
  have hcanonical : canonicalAuditEvent event = .ok event :=
    canonicalAuditEvent_ok_iff.2 ⟨by rw [hnormal]; exact hvalid, hnormal.symm⟩
  have hhash : auditRecordHash json head.sequence (auditEventID head.sequence) head.previous event =
      .ok (sha256 (json (appendedRecord head [] event).envelope)) :=
    auditRecordHash_ok_iff.2
      ⟨hpos, rfl, h.verified.length_previous, by rw [hnormal]; exact hvalid, rfl⟩
  have hadmits := @Chained.admits _ _ _ event _ h _ (length_sha256 _) hfresh
  unfold appendAuditEvent AuditTable.insert
  simp only [hcanonical, sub_add_cancel, hhash, dif_pos hadmits]
  exact ⟨_, rfl⟩

/-- Batches of valid events leave a table whose chain records them. -/
theorem chained_of_batches {batches : List (List AuditEvent)}
    (hvalid : ∀ batch ∈ batches, ∀ event ∈ batch, validateAuditEvent event = .ok ())
    (hok : batches.foldlM (appendAuditEventsTx json) .empty = .ok table) :
    ∃ records head, Chained json table records head ∧
      records.map AuditRecord.event = batches.flatten := by
  refine foldlM_induction (P := fun batches table =>
    (∀ batch ∈ batches, ∀ event ∈ batch, validateAuditEvent event = .ok ()) →
      ∃ records head, Chained json table records head ∧
        records.map AuditRecord.event = batches.flatten) ?_ ?_ hok hvalid
  · intro _
    exact ⟨[], .first, chained_empty, rfl⟩
  · intro batches batch middle table ih hstep hvalid
    obtain ⟨records, head, hchain, hevents⟩ :=
      ih fun batch hbatch => hvalid batch (List.mem_append_left _ hbatch)
    obtain ⟨more, next, hmore, hevents'⟩ :=
      appendAuditEventsTx_chained hchain (hvalid batch (by simp)) hstep
    refine ⟨records ++ more, next, hmore, ?_⟩
    rw [List.map_append, hevents, hevents', List.flatten_append, List.flatten_singleton]

end

/-- Appended batches of valid events are stored under the sequences from one on, and every traversal
in pages succeeds and reads them back in order.  A traversal of any readable table that covers it
succeeds exactly when the whole table is a verified chain. -/
theorem audit_pages_agree (json : AuditHashEnvelope → Bytes) :
    (∀ (batches : List (List AuditEvent)) (table : AuditTable),
      (∀ batch ∈ batches, ∀ event ∈ batch, validateAuditEvent event = .ok ()) →
      batches.foldlM (appendAuditEventsTx json) AuditTable.empty = .ok table →
      table.rows.map AuditRow.sequence =
        (List.range batches.flatten.length).map (fun i : ℕ => (i : ℤ) + 1) ∧
      ∀ limits : List ℕ, (∀ limit ∈ limits, 1 ≤ limit ∧ limit ≤ 10000) →
        ∃ pages, traverseAuditEvents json table 0 limits = .ok pages ∧
          pages.flatten.map AuditRecord.event = batches.flatten.take limits.sum) ∧
    ∀ (table : AuditTable) (records : List AuditRecord) (limits : List ℕ),
      table.rows.mapM scanAuditRecord = .ok records →
      (∀ limit ∈ limits, 1 ≤ limit ∧ limit ≤ 10000) → records.length ≤ limits.sum →
      ((∃ pages, traverseAuditEvents json table 0 limits = .ok pages) ↔
        verifyAuditRecords json records [] 0 = .ok ()) := by
  -- A traversal starts with nothing read and the whole table ahead.
  have hstart (table : AuditTable) (records : List AuditRecord) (limits : List ℕ)
      (hscan : Scanned table.rows records) (hlimits : ∀ limit ∈ limits, 1 ≤ limit ∧
        limit ≤ 10000) :=
    @traverseAuditEvents_ok_iff json table [] limits hlimits [] table.rows records .first rfl
      List.Forall₂.nil rfl hscan
  constructor
  · intro batches table hvalid hok
    obtain ⟨records, head, hchain, hevents⟩ := chained_of_batches hvalid hok
    refine ⟨?_, ?_⟩
    · rw [hchain.scanned.map_sequence, hchain.verified.sequences, ← hevents, List.length_map]
    · intro limits hlimits
      obtain ⟨hflat, hiff⟩ := hstart table records limits hchain.scanned hlimits
      obtain ⟨pages, hpages⟩ := hiff.2 (foldlM_take_ok hchain.verified limits.sum)
      refine ⟨pages, hpages, ?_⟩
      rw [hflat pages hpages, List.map_take, hevents]
  · intro table records limits hscan hlimits hcover
    obtain ⟨-, hiff⟩ := hstart table records limits (mapM_ok_iff.1 hscan) hlimits
    rw [List.take_of_length_le hcover] at hiff
    exact hiff.trans verifyCompleteAuditRecords_ok_iff.symm

def sampleBatches : List (List AuditEvent) :=
  [[sampleAuditEvent 1000], [sampleAuditEvent 3000, sampleAuditEvent 2000]]

theorem audit_pages_agree_sampleBatches : ∃ table pages,
    sampleBatches.foldlM (appendAuditEventsTx auditJSON) AuditTable.empty = .ok table ∧
      traverseAuditEvents auditJSON table 0 [2, 1] = .ok pages ∧
      pages.flatten.map AuditRecord.event = sampleBatches.flatten := by
  have hvalid : ∀ batch ∈ sampleBatches, ∀ event ∈ batch, validateAuditEvent event = .ok () := by
    decide +kernel
  have happended : (sampleBatches.foldlM (appendAuditEventsTx auditJSON) .empty).toBool = true := by
    decide +kernel
  rcases hok : sampleBatches.foldlM (appendAuditEventsTx auditJSON) .empty with e | table
  · rw [hok] at happended
    cases happended
  · obtain ⟨-, hpages⟩ := (audit_pages_agree auditJSON).1 sampleBatches table hvalid hok
    obtain ⟨pages, htraverse, hevents⟩ := hpages [2, 1] (by decide)
    exact ⟨table, pages, rfl, htraverse, hevents⟩

end ZeroTrustFL
