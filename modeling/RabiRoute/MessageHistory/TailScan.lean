import RabiRoute.MessageHistory.Tail

/-!
# The scan, one byte after another

Chunks do not matter: a scan is that of its bytes.  `Same` compares a scan that was resumed at a cursor with one
from the start of the file.
-/

namespace RabiRoute.MessageHistory

variable {ρ : Type} {x : Formats ρ} {identity epoch identity' epoch' : JsString} {s s' : Scan ρ}

/-! ## Bytes -/

theorem RecordBuffer.append_append (buffer : RecordBuffer) (a b : Bytes) :
    buffer.append (a ++ b) = (buffer.append a).append b := by
  ext1
  · show buffer.bytes + (a ++ b).length = buffer.bytes + a.length + b.length
    rw [List.length_append, Nat.add_assoc]
  · show (if buffer.bytes + (a ++ b).length ≤ messageHistoryIndexRecordBytes then buffer.chunks ++ (a ++ b) else []) =
      if buffer.bytes + a.length + b.length ≤ messageHistoryIndexRecordBytes then
        (if buffer.bytes + a.length ≤ messageHistoryIndexRecordBytes then buffer.chunks ++ a else []) ++ b else []
    rw [List.length_append, ← Nat.add_assoc]
    by_cases hlong : buffer.bytes + a.length + b.length ≤ messageHistoryIndexRecordBytes
    · rw [if_pos hlong, if_pos hlong, if_pos (by omega), List.append_assoc]
    · rw [if_neg hlong, if_neg hlong]

theorem RecordBuffer.append_nil (buffer : RecordBuffer) : buffer.append [] = buffer := by
  ext1
  · rfl
  · show (if buffer.bytes + 0 ≤ messageHistoryIndexRecordBytes then buffer.chunks ++ [] else []) = _
    by_cases hlong : buffer.bytes ≤ messageHistoryIndexRecordBytes
    · rw [Nat.add_zero, if_pos hlong, List.append_nil]
    · rw [Nat.add_zero, if_neg hlong, buffer.bounded (Nat.not_le.mp hlong)]

theorem Scan.take_append (s : Scan ρ) (a b : Bytes) : s.take (a ++ b) = (s.take a).take b := by
  unfold Scan.take
  rw [RecordBuffer.append_append, List.append_assoc]

theorem Scan.take_nil (s : Scan ρ) : s.take [] = s := by
  unfold Scan.take
  rw [RecordBuffer.append_nil, List.append_nil]

theorem Scan.line_append (s : Scan ρ) (a b : Bytes) (confirmed : Nat) :
    s.line x identity epoch (a ++ b) confirmed = (s.take a).line x identity epoch b confirmed := by
  unfold Scan.line
  rw [Scan.take_append]

/-- The scan of the bytes that come after so many others. -/
def feed (x : Formats ρ) (identity epoch : JsString) : Nat → Bytes → Scan ρ → Scan ρ
  | _, [], s => s
  | offset, b :: rest, s =>
    if b = 10 then feed x identity epoch (offset + 1) rest (s.line x identity epoch [b] (offset + 1))
    else feed x identity epoch (offset + 1) rest (s.take [b])

theorem feed_append (offset : Nat) (a b : Bytes) (s : Scan ρ) :
    feed x identity epoch offset (a ++ b) s =
      feed x identity epoch (offset + a.length) b (feed x identity epoch offset a s) := by
  induction a generalizing offset s with
  | nil => rfl
  | cons u a ih =>
    rw [List.cons_append, feed, feed, List.length_cons, show offset + (a.length + 1) = offset + 1 + a.length by omega]
    split
    · exact ih _ _
    · exact ih _ _

theorem feed_unbroken (offset : Nat) (l : Bytes) (hl : 10 ∉ l) (s : Scan ρ) :
    feed x identity epoch offset l s = s.take l := by
  induction l generalizing offset s with
  | nil => exact s.take_nil.symm
  | cons u l ih =>
    have hu : u ≠ 10 := fun h => hl (h ▸ List.mem_cons_self)
    rw [feed, if_neg hu, ih _ (fun h => hl (List.mem_cons_of_mem _ h)), ← Scan.take_append]
    rfl

theorem feed_line (offset : Nat) (l : Bytes) (hl : 10 ∉ l) (s : Scan ρ) :
    feed x identity epoch offset (l ++ [10]) s =
      s.line x identity epoch (l ++ [10]) (offset + (l ++ [10]).length) := by
  rw [feed_append, feed_unbroken offset l hl, feed, if_pos rfl, feed, Scan.line_append, List.length_append]
  rfl

/-! ## Chunks -/

theorem splitLine_none {chunk : Bytes} (h : splitLine chunk = none) : 10 ∉ chunk := by
  unfold splitLine at h
  rw [Option.map_eq_none_iff, List.findIdx?_eq_none_iff] at h
  intro hmem
  have := h 10 hmem
  cases this

theorem splitLine_some {chunk part rest : Bytes} (h : splitLine chunk = some (part, rest)) :
    ∃ l, 10 ∉ l ∧ part = l ++ [10] ∧ chunk = part ++ rest := by
  obtain ⟨place, hplace, heq⟩ := Option.map_eq_some_iff.mp h
  cases heq
  obtain ⟨hlt, hten, hbefore⟩ := List.findIdx?_eq_some_iff_getElem.mp hplace
  have hget : chunk[place] = 10 := eq_of_beq hten
  refine ⟨chunk.take place, ?_, ?_, (List.take_append_drop _ _).symm⟩
  · intro hmem
    obtain ⟨i, hi, hget'⟩ := List.getElem_of_mem hmem
    rw [List.length_take] at hi
    rw [List.getElem_take] at hget'
    apply hbefore i (by omega)
    rw [hget']
    rfl
  · rw [List.take_add_one, List.getElem?_eq_getElem hlt, hget]
    rfl

theorem readChunk_eq (fuel offset : Nat) (chunk : Bytes) (s : Scan ρ) (hfuel : chunk.length < fuel) :
    readChunk x identity epoch fuel offset chunk s = feed x identity epoch offset chunk s := by
  induction fuel generalizing offset chunk s with
  | zero => omega
  | succ fuel ih =>
    rw [readChunk]
    cases hsplit : splitLine chunk with
    | none => exact (feed_unbroken offset chunk (splitLine_none hsplit) s).symm
    | some parts =>
      obtain ⟨part, rest⟩ := parts
      obtain ⟨l, hl, rfl, rfl⟩ := splitLine_some hsplit
      have hshort : rest.length < fuel := by
        rw [List.length_append, List.length_append, List.length_singleton] at hfuel
        omega
      dsimp only
      rw [ih _ rest _ hshort, feed_append, feed_line offset l hl]

theorem readChunks_eq (fuel offset : Nat) (bytes : Bytes) (s : Scan ρ) (hfuel : bytes.length < fuel) :
    readChunks x identity epoch fuel offset bytes s = feed x identity epoch offset bytes s := by
  induction fuel generalizing offset bytes s with
  | zero => omega
  | succ fuel ih =>
    rw [readChunks]
    cases bytes with
    | nil => rfl
    | cons u bytes =>
      have hshort : ((u :: bytes).drop chunkBytes).length < fuel := by
        rw [List.length_drop, List.length_cons, chunkBytes]
        rw [List.length_cons] at hfuel
        omega
      rw [if_neg (by simp)]
      dsimp only
      rw [ih _ _ _ hshort, readChunk_eq _ _ _ _ (Nat.lt_succ_self _), ← feed_append, List.take_append_drop]

/-! ## Two scans of the same lines -/

def MessageHistoryTailRow.key (row : MessageHistoryTailRow ρ) : Nat × ρ := (row.position, row.record)

/-- The second scan has what the first one has, and rows that the first one does not have. -/
structure Same (before : List (Nat × ρ)) (s s' : Scan ρ) : Prop where
  hash : s'.hash = s.hash
  lineHash : s'.lineHash = s.lineHash
  confirmed : s'.confirmed = s.confirmed
  records : s'.records = s.records
  pending : s'.pending = s.pending
  issues : s'.issues = s.issues
  issueSamples : s'.issueSamples = s.issueSamples
  rows : s'.rows.map MessageHistoryTailRow.key = before ++ s.rows.map MessageHistoryTailRow.key

variable {before : List (Nat × ρ)}

theorem Same.take (h : Same before s s') (part : Bytes) : Same before (s.take part) (s'.take part) :=
  { h with
    lineHash := congrArg (· ++ part) h.lineHash
    pending := congrArg (RecordBuffer.append · part) h.pending }

theorem Same.issue (h : Same before s s') (reason : RecordIssue) : Same before (s.issue reason) (s'.issue reason) :=
  { h with
    issues := congrArg (Issues.add · reason) h.issues
    issueSamples := by
      unfold Scan.issue
      dsimp only
      rw [h.issueSamples, h.confirmed, h.pending] }

theorem Same.addRow (h : Same before s s') (atLineBoundary : Bool) (record : ρ) :
    Same before (s.addRow x identity epoch atLineBoundary record)
      (s'.addRow x identity' epoch' atLineBoundary record) :=
  { h with
    records := congrArg (· + 1) h.records
    rows := by
      show (s'.rows ++ [_]).map _ = before ++ (s.rows ++ [_]).map _
      rw [List.map_append, List.map_append, h.rows, List.append_assoc]
      show before ++ (_ ++ [(s'.records, record)]) = before ++ (_ ++ [(s.records, record)])
      rw [h.records] }

theorem Same.consume (h : Same before s s') (text : Option JsString) (atLineBoundary : Bool) :
    Same before (s.consume x identity epoch text atLineBoundary)
      (s'.consume x identity' epoch' text atLineBoundary) := by
  unfold Scan.consume
  cases text with
  | none => exact h.issue .oversized
  | some text =>
    dsimp only
    split
    · exact h
    · cases readLine x text with
      | ok record => exact h.addRow atLineBoundary record
      | error reason => exact h.issue reason

theorem Same.line (h : Same before s s') (part : Bytes) (confirmed : Nat) :
    Same before (s.line x identity epoch part confirmed) (s'.line x identity' epoch' part confirmed) := by
  have htaken := h.take part
  have hended : Same before { s.take part with hash := (s.take part).lineHash, confirmed }
      { s'.take part with hash := (s'.take part).lineHash, confirmed } :=
    { htaken with hash := htaken.lineHash, confirmed := rfl }
  have hconsumed : Same before (Scan.consume x _ identity epoch (((s.take part).pending).text x) true)
      (Scan.consume x _ identity' epoch' (((s.take part).pending).text x) true) := hended.consume _ _
  have htext : ((s'.take part).pending).text x = ((s.take part).pending).text x := by rw [htaken.pending]
  unfold Scan.line
  dsimp only
  rw [htext]
  exact { hconsumed with pending := rfl }

theorem Same.finish (h : Same before s s') (accept : AcceptFinalRecord) (limit : Nat) :
    Same before (s.finish x identity epoch accept limit).1 (s'.finish x identity' epoch' accept limit).1 ∧
      (s'.finish x identity' epoch' accept limit).2 = (s.finish x identity epoch accept limit).2 := by
  have haccept : acceptsFinal x accept s'.pending = acceptsFinal x accept s.pending := by rw [h.pending]
  have htext : s'.pending.text x = s.pending.text x := by rw [h.pending]
  unfold Scan.finish
  rw [haccept]
  split
  · have hended : Same before { s with hash := s.lineHash, confirmed := limit }
        { s' with hash := s'.lineHash, confirmed := limit } :=
      { h with hash := h.lineHash, confirmed := rfl }
    have hconsumed : Same before (Scan.consume x _ identity epoch (s.pending.text x) false)
        (Scan.consume x _ identity' epoch' (s.pending.text x) false) := hended.consume _ _
    dsimp only
    rw [htext]
    exact ⟨{ hconsumed with pending := rfl }, rfl⟩
  · exact ⟨h, rfl⟩

end RabiRoute.MessageHistory
