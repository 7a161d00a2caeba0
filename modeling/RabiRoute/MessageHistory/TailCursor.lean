import RabiRoute.MessageHistory.TailScan

/-!
# Cursors and what they stand for

A cursor describes the bytes before it: a scan that is resumed there goes on as a scan from the start would.
-/

namespace RabiRoute.MessageHistory

variable {ρ : Type} {x : Formats ρ} {identity epoch : JsString} {s s' : Scan ρ} {before : List (Nat × ρ)}

/-! ## Scans from the start -/

/-- The scan of some bytes from the start. -/
def scanned (x : Formats ρ) (bytes : Bytes) : Scan ρ := feed x [] [] 0 bytes (Scan.resume none)

def keys (rows : List (MessageHistoryTailRow ρ)) : List (Nat × ρ) := rows.map MessageHistoryTailRow.key

theorem keys_append (rows rows' : List (MessageHistoryTailRow ρ)) : keys (rows ++ rows') = keys rows ++ keys rows' :=
  List.map_append

/-- What `consume` leaves alone. -/
theorem consume_fields (x : Formats ρ) (identity epoch : JsString) (s : Scan ρ) (text : Option JsString) (atLineBoundary : Bool) :
    (s.consume x identity epoch text atLineBoundary).lineHash = s.lineHash ∧
      (s.consume x identity epoch text atLineBoundary).hash = s.hash ∧
      (s.consume x identity epoch text atLineBoundary).confirmed = s.confirmed := by
  unfold Scan.consume
  split
  · exact ⟨rfl, rfl, rfl⟩
  · split
    · exact ⟨rfl, rfl, rfl⟩
    · split <;> exact ⟨rfl, rfl, rfl⟩

theorem line_fields (x : Formats ρ) (identity epoch : JsString) (s : Scan ρ) (part : Bytes) (confirmed : Nat) :
    (s.line x identity epoch part confirmed).lineHash = s.lineHash ++ part ∧
      (s.line x identity epoch part confirmed).hash = s.lineHash ++ part ∧
      (s.line x identity epoch part confirmed).confirmed = confirmed ∧
      (s.line x identity epoch part confirmed).pending = .empty := by
  obtain ⟨hline, hhash, hconfirmed⟩ := consume_fields x identity epoch
    { s.take part with hash := (s.take part).lineHash, confirmed } ((s.take part).pending.text x) true
  exact ⟨hline, hhash, hconfirmed, rfl⟩

theorem lineHash_feed (offset : Nat) (bytes : Bytes) (s : Scan ρ) :
    (feed x identity epoch offset bytes s).lineHash = s.lineHash ++ bytes := by
  induction bytes generalizing offset s with
  | nil => exact (List.append_nil _).symm
  | cons u bytes ih =>
    rw [feed]
    split
    · rw [ih, (line_fields x identity epoch s [u] (offset + 1)).1, List.append_assoc]
      rfl
    · rw [ih]
      exact List.append_assoc ..

theorem scanned_append (a b : Bytes) : scanned x (a ++ b) = feed x [] [] a.length b (scanned x a) := by
  unfold scanned
  rw [feed_append, Nat.zero_add]

/-- Rows are numbered one after another. -/
def Numbered (s : Scan ρ) : Prop :=
  s.rows.map (·.position) = List.range s.records

theorem numbered_consume (h : Numbered s) (text : Option JsString) (atLineBoundary : Bool) :
    Numbered (s.consume x identity epoch text atLineBoundary) := by
  unfold Scan.consume
  split
  · exact h
  · split
    · exact h
    · split
      · show (s.rows ++ [_]).map (fun row : MessageHistoryTailRow ρ => row.position) = List.range (s.records + 1)
        rw [List.map_append, List.range_succ, h]
        rfl
      · exact h

theorem numbered_feed (offset : Nat) (bytes : Bytes) (h : Numbered s) :
    Numbered (feed x identity epoch offset bytes s) := by
  induction bytes generalizing offset s with
  | nil => exact h
  | cons u bytes ih =>
    rw [feed]
    split
    · apply ih
      have hended : Numbered { s.take [u] with hash := (s.take [u]).lineHash, confirmed := offset + 1 } := h
      exact numbered_consume hended _ _
    · exact ih _ h

theorem numbered_finish (accept : AcceptFinalRecord) (limit : Nat) (h : Numbered s) :
    Numbered (s.finish x identity epoch accept limit).1 := by
  unfold Scan.finish
  split
  · have hended : Numbered { s with hash := s.lineHash, confirmed := limit } := h
    exact numbered_consume hended _ _
  · exact h

theorem numbered_scanned (bytes : Bytes) : Numbered (scanned x bytes) := numbered_feed 0 bytes rfl

theorem Numbered.length (h : Numbered s) : s.rows.length = s.records := by
  have hlength := congrArg List.length h
  rwa [List.length_map, List.length_range] at hlength

/-! ## Cursors -/

/-- The bytes before a cursor, and their rows. -/
structure Describes (x : Formats ρ) (cursor : MessageHistoryCursor) (rows : List (Nat × ρ)) (bytes : Bytes) : Prop where
  offset : cursor.offset = bytes.length
  hash : cursor.prefixHash = x.sha256 bytes
  same : Same rows (Scan.resume (some (bytes, cursor))) (scanned x bytes)

theorem Describes.length {cursor : MessageHistoryCursor} {bytes : Bytes} (h : Describes x cursor before bytes) :
    before.length = cursor.records := by
  have hrows := congrArg List.length h.same.rows
  rw [List.length_map, (numbered_scanned bytes).length, h.same.records] at hrows
  rw [List.length_append] at hrows
  exact hrows.symm

/-- A scan whose last byte ends a line. -/
theorem describes_cursor (identity epoch : JsString) (hsame : Same before s (scanned x s.lineHash)) (hpending : s.pending = .empty)
    (hhash : s.hash = s.lineHash) (hconfirmed : s.confirmed = s.lineHash.length) (atLineBoundary : Bool) :
    Describes x (s.cursor x identity epoch atLineBoundary) (before ++ keys s.rows) s.lineHash where
  offset := hconfirmed
  hash := congrArg x.sha256 hhash
  same :=
    { hash := hsame.hash.trans hhash
      lineHash := hsame.lineHash
      confirmed := hsame.confirmed
      records := hsame.records
      pending := hsame.pending.trans hpending
      issues := hsame.issues
      issueSamples := hsame.issueSamples
      rows := hsame.rows.trans (List.append_nil _).symm }

/-- The checkpoints of some rows can be resumed. -/
def Resumable (x : Formats ρ) (rows : List (Nat × ρ)) (cursor : MessageHistoryCursor) : Prop :=
  cursor.atLineBoundary = true → ∃ bytes, Describes x cursor (rows.take cursor.records) bytes

theorem Describes.resumable {cursor : MessageHistoryCursor} {bytes : Bytes} (h : Describes x cursor before bytes) :
    Resumable x before cursor := by
  intro _
  refine ⟨bytes, ?_⟩
  rw [← h.length, List.take_length]
  exact h

theorem Resumable.append {cursor : MessageHistoryCursor} {rows : List (Nat × ρ)} (h : Resumable x rows cursor)
    (more : List (Nat × ρ)) : Resumable x (rows ++ more) cursor := by
  intro hboundary
  obtain ⟨bytes, hdescribes⟩ := h hboundary
  refine ⟨bytes, ?_⟩
  have hlength := hdescribes.length
  rw [List.length_take] at hlength
  rw [List.take_append_of_le_length (by omega)]
  exact hdescribes

theorem Resumable.pending {cursor : MessageHistoryCursor} {rows : List (Nat × ρ)} (h : Resumable x rows cursor)
    (pending : Nat) : Resumable x rows { cursor with pendingBytes := some pending } := by
  intro hboundary
  obtain ⟨bytes, hdescribes⟩ := h hboundary
  exact ⟨bytes, hdescribes.offset, hdescribes.hash, hdescribes.same⟩

/-- The checkpoints of the rows that come after `before`. -/
structure Checked (x : Formats ρ) (before : List (Nat × ρ)) (rows : List (MessageHistoryTailRow ρ)) : Prop where
  resumable : ∀ row ∈ rows, ∀ c, row.checkpoint = some c → Resumable x (before ++ keys rows) c
  counted : ∀ row ∈ rows, ∀ c, row.checkpoint = some c → c.records = row.position + 1

theorem checked_nil : Checked x before [] := ⟨fun _ hrow => (by cases hrow), fun _ hrow => (by cases hrow)⟩

theorem Checked.append {rows : List (MessageHistoryTailRow ρ)} {row : MessageHistoryTailRow ρ}
    (h : Checked x before rows)
    (hrow : ∀ c, row.checkpoint = some c → c.records = row.position + 1 ∧ Resumable x (before ++ keys (rows ++ [row])) c) :
    Checked x before (rows ++ [row]) where
  resumable := by
    intro other hother c hc
    rcases List.mem_append.mp hother with hold | hnew
    · rw [keys_append, ← List.append_assoc]
      exact (h.resumable other hold c hc).append _
    · cases List.mem_singleton.mp hnew
      exact (hrow c hc).2
  counted := by
    intro other hother c hc
    rcases List.mem_append.mp hother with hold | hnew
    · exact h.counted other hold c hc
    · cases List.mem_singleton.mp hnew
      exact (hrow c hc).1

/-- A scan after the rows `before`, of which so many bytes were read. -/
structure Tracks (x : Formats ρ) (identity epoch : JsString) (before : List (Nat × ρ)) (offset : Nat) (s : Scan ρ) :
    Prop where
  same : Same before s (scanned x s.lineHash)
  offset : s.lineHash.length = offset
  cursor : Describes x (s.cursor x identity epoch true) (before ++ keys s.rows) s.hash
  checked : Checked x before s.rows

theorem tracks_resume {cursor : MessageHistoryCursor} {bytes : Bytes} (h : Describes x cursor before bytes) :
    Tracks x identity epoch before cursor.offset (Scan.resume (some (bytes, cursor))) where
  same := h.same
  offset := h.offset.symm
  cursor :=
    { offset := h.offset
      hash := rfl
      same := by
        show Same (before ++ keys []) _ _
        rw [show before ++ keys [] = before from List.append_nil _]
        exact h.same }
  checked := checked_nil

theorem same_refl (s : Scan ρ) (h : s.rows = []) : Same [] s s := ⟨rfl, rfl, rfl, rfl, rfl, rfl, rfl, by rw [h]; rfl⟩

theorem tracks_start : Tracks x identity epoch [] 0 (Scan.resume none) where
  same := same_refl _ rfl
  offset := rfl
  cursor := ⟨rfl, rfl, same_refl _ rfl⟩
  checked := checked_nil

/-- What a text adds: no row, or a row that is numbered, whose checkpoint is the cursor after it. -/
theorem consume_rows (x : Formats ρ) (identity epoch : JsString) (s : Scan ρ) (text : Option JsString)
    (atLineBoundary : Bool) :
    (s.consume x identity epoch text atLineBoundary).rows = s.rows ∨
      ∃ row, (s.consume x identity epoch text atLineBoundary).rows = s.rows ++ [row] ∧
        ∀ c, row.checkpoint = some c → c.records = row.position + 1 ∧
          c = (s.consume x identity epoch text atLineBoundary).cursor x identity epoch atLineBoundary := by
  unfold Scan.consume
  split
  · exact .inl rfl
  · split
    · exact .inl rfl
    · split
      · refine .inr ⟨_, rfl, fun c hc => ?_⟩
        obtain ⟨-, heq⟩ := Option.ite_none_right_eq_some.mp hc
        cases heq
        exact ⟨rfl, rfl⟩
      · exact .inl rfl

theorem Tracks.take {offset : Nat} (h : Tracks x identity epoch before offset s) {b : UInt8} (hb : b ≠ 10) :
    Tracks x identity epoch before (offset + 1) (s.take [b]) where
  same := by
    show Same before (s.take [b]) (scanned x (s.lineHash ++ [b]))
    rw [scanned_append, feed_unbroken _ [b] (by simpa using hb.symm)]
    exact h.same.take [b]
  offset := by
    show (s.lineHash ++ [b]).length = offset + 1
    rw [List.length_append, h.offset]
    rfl
  cursor := h.cursor
  checked := h.checked

theorem Tracks.line {offset : Nat} (h : Tracks x identity epoch before offset s) :
    Tracks x identity epoch before (offset + 1) (s.line x identity epoch [10] (offset + 1)) := by
  obtain ⟨hlineHash, hhash, hconfirmed, hpending⟩ := line_fields x identity epoch s [10] (offset + 1)
  have hlength : (s.lineHash ++ [10]).length = offset + 1 := by
    rw [List.length_append, h.offset]
    rfl
  have hsame : Same before (s.line x identity epoch [10] (offset + 1))
      (scanned x (s.line x identity epoch [10] (offset + 1)).lineHash) := by
    rw [hlineHash, scanned_append, show ([10] : Bytes) = [] ++ [10] from rfl,
      feed_line _ [] (List.not_mem_nil), h.offset]
    exact h.same.line _ _
  have hcursor := describes_cursor identity epoch hsame hpending (hhash.trans hlineHash.symm)
    (by rw [hconfirmed, hlineHash, hlength]) true
  refine ⟨hsame, hlineHash ▸ hlength, ?_, ?_⟩
  · rw [hhash, ← hlineHash]
    exact hcursor
  · rcases consume_rows x identity epoch { s.take [10] with hash := (s.take [10]).lineHash, confirmed := offset + 1 }
      ((s.take [10]).pending.text x) true with hsame | ⟨row, hrows, hrow⟩
    · show Checked x before (Scan.consume x _ identity epoch _ true).rows
      rw [hsame]
      exact h.checked
    · have hline : (s.line x identity epoch [10] (offset + 1)).rows = s.rows ++ [row] := hrows
      rw [hline]
      apply h.checked.append
      intro c hc
      obtain ⟨hcounted, hceq⟩ := hrow c hc
      rw [hceq, ← hline]
      exact ⟨hceq ▸ hcounted, hcursor.resumable⟩

theorem Tracks.feed {offset : Nat} (bytes : Bytes) (h : Tracks x identity epoch before offset s) :
    Tracks x identity epoch before (offset + bytes.length) (feed x identity epoch offset bytes s) := by
  induction bytes generalizing offset s with
  | nil => exact h
  | cons u bytes ih =>
    rw [MessageHistory.feed, List.length_cons, show offset + (bytes.length + 1) = offset + 1 + bytes.length by omega]
    split
    · rename_i hten
      cases hten
      exact ih h.line
    · rename_i hten
      exact ih (h.take hten)

end RabiRoute.MessageHistory
