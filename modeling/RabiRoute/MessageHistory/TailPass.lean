import RabiRoute.MessageHistory.TailCursor

/-!
# One read against a fresh one

A read that was resumed, over whatever prefix its hash stands for, finds what a read from the start of the same
bytes finds, and that is the records of their lines.
-/

namespace RabiRoute.MessageHistory

variable {ρ : Type} {x : Formats ρ} {identity epoch : JsString} {s : Scan ρ} {before : List (Nat × ρ)}

/-! ## The records of some bytes -/

/-- The lines that end, and what comes after them. -/
def linesOf : Bytes → List Bytes × Bytes
  | [] => ([], [])
  | b :: rest =>
    if b = 10 then ([b] :: (linesOf rest).1, (linesOf rest).2)
    else
      match (linesOf rest).1 with
      | [] => ([], b :: (linesOf rest).2)
      | l :: lines => ((b :: l) :: lines, (linesOf rest).2)

def recordOf (x : Formats ρ) (line : Bytes) : Option ρ :=
  ((RecordBuffer.empty.append line).text x).bind (normalizedLine x)

/-- Each line counts once, and the last record counts where it is accepted. -/
def historyRecords (x : Formats ρ) (accept : AcceptFinalRecord) (bytes : Bytes) : List ρ :=
  (linesOf bytes).1.filterMap (recordOf x) ++
    if acceptsFinal x accept (RecordBuffer.empty.append (linesOf bytes).2) then
      (recordOf x (linesOf bytes).2).toList
    else []

theorem linesOf_parts (bytes : Bytes) :
    bytes = (linesOf bytes).1.flatten ++ (linesOf bytes).2 ∧ 10 ∉ (linesOf bytes).2 ∧
      ∀ line ∈ (linesOf bytes).1, ∃ l, 10 ∉ l ∧ line = l ++ [10] := by
  induction bytes with
  | nil => exact ⟨rfl, List.not_mem_nil, fun _ h => by cases h⟩
  | cons b rest ih =>
    obtain ⟨hparts, hlast, hlines⟩ := ih
    unfold linesOf
    split
    · rename_i hten
      cases hten
      refine ⟨congrArg ((10 : UInt8) :: ·) hparts, hlast, fun line hline => ?_⟩
      rcases List.mem_cons.mp hline with rfl | hline
      · exact ⟨[], List.not_mem_nil, rfl⟩
      · exact hlines line hline
    · rename_i hten
      have hb : (10 : UInt8) ≠ b := fun h => hten h.symm
      split
      · rename_i hnone
        rw [hnone] at hparts
        refine ⟨congrArg (b :: ·) hparts, ?_, fun _ h => by cases h⟩
        exact fun h => (List.mem_cons.mp h).elim hb hlast
      · rename_i l lines hsome
        rw [hsome] at hparts hlines
        refine ⟨congrArg (b :: ·) hparts, hlast, fun line hline => ?_⟩
        rcases List.mem_cons.mp hline with rfl | hline
        · obtain ⟨l', hl', rfl⟩ := hlines l List.mem_cons_self
          exact ⟨b :: l', fun h => (List.mem_cons.mp h).elim hb hl', rfl⟩
        · exact hlines line (List.mem_cons_of_mem _ hline)

/-- The records that were found. -/
def Scan.found (s : Scan ρ) : List ρ := s.rows.map (·.record)

theorem consume_found (x : Formats ρ) (identity epoch : JsString) (s : Scan ρ) (text : Option JsString)
    (atLineBoundary : Bool) :
    (s.consume x identity epoch text atLineBoundary).found = s.found ++ (text.bind (normalizedLine x)).toList := by
  unfold Scan.consume
  cases text with
  | none => exact (List.append_nil _).symm
  | some text =>
    show (if text.isEmpty then s else _).found = s.found ++ (readLine x text).toOption.toList
    split
    · rename_i hempty
      cases List.isEmpty_iff.mp hempty
      exact (List.append_nil _).symm
    · cases readLine x text with
      | ok record => exact List.map_append
      | error reason => exact (List.append_nil _).symm

theorem line_found (hpending : s.pending = .empty) (line : Bytes) (confirmed : Nat) :
    (s.line x identity epoch line confirmed).found = s.found ++ (recordOf x line).toList := by
  have hfound := consume_found x identity epoch
    { s.take line with hash := (s.take line).lineHash, confirmed } ((s.take line).pending.text x) true
  unfold recordOf
  rw [← hpending]
  exact hfound

/-- The scan of whole lines, and of what comes after them. -/
theorem feed_found (x : Formats ρ) (identity epoch : JsString) (lines : List Bytes) (last : Bytes) (offset : Nat)
    (s : Scan ρ) (hpending : s.pending = .empty)
    (hlines : ∀ line ∈ lines, ∃ l, 10 ∉ l ∧ line = l ++ [10]) (hlast : 10 ∉ last) :
    (feed x identity epoch offset (lines.flatten ++ last) s).found = s.found ++ lines.filterMap (recordOf x) ∧
      (feed x identity epoch offset (lines.flatten ++ last) s).pending = RecordBuffer.empty.append last := by
  induction lines generalizing offset s with
  | nil =>
    rw [List.flatten_nil, List.nil_append, feed_unbroken offset last hlast]
    exact ⟨(List.append_nil _).symm, congrArg (RecordBuffer.append · last) hpending⟩
  | cons line lines ih =>
    obtain ⟨l, hl, hline⟩ := hlines line List.mem_cons_self
    have hrest := ih (offset + line.length) (s.line x identity epoch line (offset + line.length)) rfl
      (fun line h => hlines line (List.mem_cons_of_mem _ h))
    have hfeed : feed x identity epoch offset ((line :: lines).flatten ++ last) s =
        feed x identity epoch (offset + line.length) (lines.flatten ++ last)
          (s.line x identity epoch line (offset + line.length)) := by
      rw [List.flatten_cons, List.append_assoc, feed_append, hline, feed_line offset l hl]
    rw [hfeed, hrest.1, line_found hpending, List.filterMap_cons, List.append_assoc]
    refine ⟨?_, hrest.2⟩
    cases recordOf x line with
    | none => rfl
    | some record => rfl

/-! ## Fresh scans -/

def freshScan (x : Formats ρ) (bytes : Bytes) (accept : AcceptFinalRecord) : Scan ρ :=
  ((scanned x bytes).finish x [] [] accept bytes.length).1

theorem freshScan_numbered (bytes : Bytes) (accept : AcceptFinalRecord) : Numbered (freshScan x bytes accept) :=
  numbered_finish accept bytes.length (numbered_scanned bytes)

theorem finish_found (x : Formats ρ) (identity epoch : JsString) (accept : AcceptFinalRecord) (limit : Nat)
    (s : Scan ρ) :
    (s.finish x identity epoch accept limit).1.found = s.found ++
      if acceptsFinal x accept s.pending then ((s.pending.text x).bind (normalizedLine x)).toList else [] := by
  unfold Scan.finish
  split
  · exact consume_found x identity epoch { s with hash := s.lineHash, confirmed := limit } (s.pending.text x) false
  · exact (List.append_nil _).symm

theorem freshScan_found (bytes : Bytes) (accept : AcceptFinalRecord) :
    (freshScan x bytes accept).found = historyRecords x accept bytes := by
  obtain ⟨hparts, hlast, hlines⟩ := linesOf_parts bytes
  have hscan := feed_found x [] [] (linesOf bytes).1 (linesOf bytes).2 0 (Scan.resume none) rfl hlines hlast
  rw [← hparts] at hscan
  unfold freshScan scanned historyRecords
  rw [finish_found, hscan.1, hscan.2]
  rfl

/-! ## A pass -/

/-- Where a pass starts: what it takes for the bytes before it, and their rows. -/
inductive Starts (x : Formats ρ) : List (Nat × ρ) → Bytes → Option (Bytes × MessageHistoryCursor) → Prop
  | fresh : Starts x [] [] none
  | resumed {before : List (Nat × ρ)} {bytes : Bytes} {cursor : MessageHistoryCursor}
      (h : Describes x cursor before bytes) : Starts x before bytes (some (bytes, cursor))

/-- A result is that of `bytes`, with the rows that came before. -/
structure Genuine (x : Formats ρ) (accept : AcceptFinalRecord) (before : List (Nat × ρ)) (bytes : Bytes)
    (result : TailResult ρ) : Prop where
  length : result.snapshot.bytes = bytes.length
  hash : result.snapshot.hash = x.sha256 bytes
  rows : before ++ keys result.rows = keys (freshScan x bytes accept).rows
  records : result.cursor.records = (freshScan x bytes accept).records
  issues : result.cursor.issues = (freshScan x bytes accept).issues
  resumable : Resumable x (before ++ keys result.rows) result.cursor
  checked : Checked x before result.rows

theorem Starts.tracks {bytes : Bytes} {start : Option (Bytes × MessageHistoryCursor)} (identity epoch : JsString)
    (h : Starts x before bytes start) :
    Tracks x identity epoch before bytes.length (Scan.resume start) ∧ (Scan.resume (ρ := ρ) start).lineHash = bytes ∧
      (start.map (·.2.offset)).getD 0 = bytes.length := by
  cases h with
  | fresh => exact ⟨tracks_start, rfl, rfl⟩
  | resumed hcursor =>
    refine ⟨?_, rfl, hcursor.offset⟩
    rw [← hcursor.offset]
    exact tracks_resume hcursor

theorem Tracks.finish {offset : Nat} (h : Tracks x identity epoch before offset s) (accept : AcceptFinalRecord) :
    Same before (s.finish x identity epoch accept offset).1 (freshScan x s.lineHash accept) ∧
      (s.finish x identity epoch accept offset).1.lineHash = s.lineHash ∧
      Resumable x (before ++ keys (s.finish x identity epoch accept offset).1.rows)
        ((s.finish x identity epoch accept offset).1.cursor x identity epoch
          (s.finish x identity epoch accept offset).2) ∧
      Checked x before (s.finish x identity epoch accept offset).1.rows := by
  have hsame : Same before (s.finish x identity epoch accept offset).1 (freshScan x s.lineHash accept) := by
    unfold freshScan
    rw [h.offset]
    exact (h.same.finish accept offset).1
  refine ⟨hsame, ?_⟩
  unfold Scan.finish
  split
  · refine ⟨(consume_fields x identity epoch _ _ _).1, fun hboundary => (by cases hboundary), ?_⟩
    rcases consume_rows x identity epoch { s with hash := s.lineHash, confirmed := offset } (s.pending.text x) false
      with hrows | ⟨row, hrows, hrow⟩
    · show Checked x before (Scan.consume x _ identity epoch _ false).rows
      rw [hrows]
      exact h.checked
    · show Checked x before (Scan.consume x _ identity epoch _ false).rows
      rw [hrows]
      apply h.checked.append
      intro c hc
      obtain ⟨hcounted, hceq⟩ := hrow c hc
      refine ⟨hcounted, fun hboundary => ?_⟩
      rw [hceq] at hboundary
      cases hboundary
  · exact ⟨rfl, h.cursor.resumable, h.checked⟩

theorem readPass_genuine {bytes : Bytes} {start : Option (Bytes × MessageHistoryCursor)} (f : HistoryFile) (limit : Nat)
    (accept : AcceptFinalRecord) (epoch : JsString) (h : Starts x before bytes start) (hbefore : bytes.length ≤ limit)
    (hlimit : limit ≤ f.bytes.length) :
    Genuine x accept before (bytes ++ (f.bytes.take limit).drop bytes.length)
      (readPass x f limit accept epoch start).1 := by
  obtain ⟨htracks, hlineHash, hoffset⟩ := h.tracks f.identity ((start.map (·.2.epoch)).getD epoch)
  have hlength : bytes.length + ((f.bytes.take limit).drop bytes.length).length = limit := by
    rw [List.length_drop, List.length_take]
    omega
  have hfed := htracks.feed ((f.bytes.take limit).drop bytes.length)
  rw [hlength] at hfed
  obtain ⟨hsame, hkept, hresumable, hchecked⟩ := hfed.finish accept
  rw [lineHash_feed, hlineHash] at hsame hkept
  unfold readPass
  dsimp only
  rw [hoffset, readChunks_eq _ _ _ _ (Nat.lt_succ_self _)]
  exact
    { length := (by rw [List.length_append, hlength])
      hash := congrArg x.sha256 hkept
      rows := hsame.rows.symm
      records := hsame.records.symm
      issues := hsame.issues.symm
      resumable := hresumable.pending _
      checked := hchecked }

/-! ## A read -/

/-- The cursor may be continued after these rows. -/
def Continues (x : Formats ρ) (rows : List (Nat × ρ)) (cursor : MessageHistoryCursor) : Prop :=
  cursor.atLineBoundary = true → ∃ bytes, Describes x cursor rows bytes

theorem appendsTo_starts (f : HistoryFile) (limit : Nat) (cached : Option Bytes)
    {previous : Option MessageHistoryCursor} {rows : List (Nat × ρ)} (hsha : Function.Injective x.sha256)
    (hprevious : ∀ c, previous = some c → Continues x rows c) :
    ∃ bytes, Starts x (if (appendsTo x f limit cached previous).isNone then [] else rows) bytes
      (appendsTo x f limit cached previous) ∧ bytes.length ≤ limit := by
  cases hstart : appendsTo x f limit cached previous with
  | none => exact ⟨[], .fresh, Nat.zero_le _⟩
  | some start =>
    obtain ⟨c, hc, hstarts⟩ := Option.bind_eq_some_iff.mp hstart
    obtain ⟨hmay, hstarts⟩ := Option.ite_none_right_eq_some.mp hstarts
    obtain ⟨hhash, heq⟩ := Option.ite_none_right_eq_some.mp hstarts
    cases heq
    obtain ⟨-, -, hoffset, hboundary⟩ := of_decide_eq_true hmay
    obtain ⟨bytes, hdescribes⟩ := hprevious c hc hboundary
    refine ⟨bytes, ?_, hdescribes.offset ▸ hoffset⟩
    rw [hsha (hhash.trans hdescribes.hash)]
    exact .resumed hdescribes

theorem readLimit_le {f : HistoryFile} {stamp : Option ExpectedStamp} {limit : Nat} (h : readLimit f stamp = some limit) :
    limit ≤ f.bytes.length := by
  unfold readLimit at h
  split at h
  · cases h
    exact Nat.le_refl _
  · obtain ⟨hle, h⟩ := Option.ite_none_left_eq_some.mp h
    obtain ⟨-, h⟩ := Option.ite_none_left_eq_some.mp h
    obtain ⟨-, h⟩ := Option.ite_none_left_eq_some.mp h
    cases h
    exact Nat.not_lt.mp hle
  · cases h

/-- What a result stands for, after these rows unless it was a reset. -/
def Stands (x : Formats ρ) (accept : AcceptFinalRecord) (rows : List (Nat × ρ)) (result : TailResult ρ) : Prop :=
  ∃ bytes, Genuine x accept (if result.reset then [] else rows) bytes result ∧
    (result.snapshot.identity = js "missing" → bytes = [])

theorem readAndRemember_stands {f : HistoryFile} {limit : Nat} {r : Request} {cached : Option Bytes} {reuse : Bool}
    {entry : Option PrefixEntry} {rows : List (Nat × ρ)} (hsha : Function.Injective x.sha256)
    (hprevious : ∀ c, r.previous = some c → Continues x rows c) (hlimit : limit ≤ f.bytes.length) :
    Stands x r.acceptFinalRecord rows (readAndRemember x f limit r cached reuse entry).1 := by
  obtain ⟨bytes, hstarts, hbefore⟩ := appendsTo_starts f limit cached hsha hprevious
  exact ⟨_, readPass_genuine f limit r.acceptFinalRecord r.epoch hstarts hbefore hlimit, fun h => absurd h f.present⟩

theorem missingResult_stands (accept : AcceptFinalRecord) (epoch : JsString) (rows : List (Nat × ρ)) :
    Stands x accept rows (missingResult x epoch) :=
  ⟨[],
    { length := rfl
      hash := rfl
      rows := rfl
      records := rfl
      issues := rfl
      resumable := fun _ => ⟨[], rfl, rfl, same_refl _ rfl⟩
      checked := checked_nil },
    fun _ => rfl⟩

/-- Whatever is remembered of the file, a result stands for some bytes, which its snapshot names. -/
theorem readMessageHistoryTail_stands {file : Option HistoryFile} {r : Request} {entry : Option PrefixEntry}
    {rows : List (Nat × ρ)} {result : TailResult ρ} (hsha : Function.Injective x.sha256)
    (hprevious : ∀ c, r.previous = some c → Continues x rows c)
    (h : (readMessageHistoryTail x file r entry).1 = some result) : Stands x r.acceptFinalRecord rows result := by
  unfold readMessageHistoryTail at h
  cases file with
  | none =>
    dsimp only at h
    split at h
    · cases h
      exact missingResult_stands _ _ _
    · cases h
      exact missingResult_stands _ _ _
    · cases h
      exact missingResult_stands _ _ _
    · cases h
  | some f =>
    dsimp only at h
    split at h
    · cases h
    · rename_i limit hlimit
      split at h
      · split at h
        · cases h
          exact readAndRemember_stands hsha hprevious (readLimit_le hlimit)
        · cases h
          exact readAndRemember_stands hsha hprevious (readLimit_le hlimit)
      · cases h
        exact readAndRemember_stands hsha hprevious (readLimit_le hlimit)

end RabiRoute.MessageHistory
