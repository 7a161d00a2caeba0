import Mathlib.Logic.Relation
import RabiRoute.MessageHistory.TailPass

/-!
# Published reads of a changing file

The file changes between the calls.  A read continues at a cursor or at a checkpoint of a published result, and is
published itself once its snapshot was verified.
-/

namespace RabiRoute.MessageHistory

variable {ρ : Type} {x : Formats ρ}

/-! ## Runs -/

/-- A result, with the rows that were kept when it was read. -/
structure Publication (ρ : Type) where
  accept : AcceptFinalRecord
  base : List (MessageHistoryTailRow ρ)
  result : TailResult ρ

/-- The rows since the last reset. -/
def Publication.rows (p : Publication ρ) : List (MessageHistoryTailRow ρ) := p.base ++ p.result.rows

/-- `bytes` are what the snapshot names, as they were when it was verified. -/
structure Published (ρ : Type) extends Publication ρ where
  bytes : Bytes

structure History (ρ : Type) where
  file : Option HistoryFile
  entry : Option PrefixEntry
  proposals : List (Publication ρ)
  published : List (Published ρ)

namespace History

def initial (file : Option HistoryFile) : History ρ := ⟨file, none, [], []⟩

/-- A read, where `rows` are those of its cursor. -/
def read (x : Formats ρ) (h : History ρ) (r : Request) (rows : List (MessageHistoryTailRow ρ)) : History ρ :=
  let read := readMessageHistoryTail x h.file r h.entry
  { h with
    entry := read.2
    proposals :=
      match read.1 with
      | none => h.proposals
      | some result => ⟨r.acceptFinalRecord, if result.reset then [] else rows, result⟩ :: h.proposals }

def verify (x : Formats ρ) (h : History ρ) (p : Publication ρ) : History ρ :=
  let verification := verifyMessageHistoryPrefix x h.file p.result.snapshot h.entry
  { h with
    entry := verification.2
    published :=
      if verification.1 then
        ⟨p, ((h.file.map (·.bytes)).getD []).take p.result.snapshot.bytes⟩ :: h.published
      else h.published }

end History

/-- Where a read may go on, and the rows before it. -/
inductive Source (published : List (Published ρ)) :
    Option MessageHistoryCursor → List (MessageHistoryTailRow ρ) → Prop
  | none : Source published none []
  | cursor {p : Published ρ} (hp : p ∈ published) : Source published (some p.result.cursor) p.rows
  | checkpoint {p : Published ρ} {before after : List (MessageHistoryTailRow ρ)} {row : MessageHistoryTailRow ρ}
      {c : MessageHistoryCursor} (hp : p ∈ published) (hrows : p.rows = before ++ row :: after)
      (hc : row.checkpoint = some c) : Source published (some c) (before ++ [row])

inductive Step (x : Formats ρ) : History ρ → History ρ → Prop
  /-- An append, a truncation, a rewrite, a replacement or a removal. -/
  | change (h : History ρ) (file : Option HistoryFile) : Step x h { h with file }
  /-- Sixteen other files were remembered. -/
  | forget (h : History ρ) : Step x h { h with entry := none }
  | read (h : History ρ) (r : Request) {rows : List (MessageHistoryTailRow ρ)}
      (hsource : Source h.published r.previous rows) : Step x h (h.read x r rows)
  | verify (h : History ρ) {p : Publication ρ} (hp : p ∈ h.proposals) : Step x h (h.verify x p)

/-- A read of the file as if it had never been read before. -/
def freshRead (x : Formats ρ) (f : HistoryFile) (accept : AcceptFinalRecord) (epoch : JsString) :
    Option (TailResult ρ) :=
  (readMessageHistoryTail x (some f) ⟨none, none, accept, false, epoch⟩ none).1

/-! ## Rows and their positions -/

theorem keys_positions {rows rows' : List (MessageHistoryTailRow ρ)} (h : keys rows = keys rows') :
    rows.map (·.position) = rows'.map (·.position) ∧ rows.map (·.record) = rows'.map (·.record) := by
  have hfst := congrArg (List.map Prod.fst) h
  have hsnd := congrArg (List.map Prod.snd) h
  unfold keys at hfst hsnd
  rw [List.map_map, List.map_map] at hfst hsnd
  exact ⟨hfst, hsnd⟩

theorem Checked.concat {rows rows' : List (MessageHistoryTailRow ρ)} (h : Checked x [] rows)
    (h' : Checked x (keys rows) rows') : Checked x [] (rows ++ rows') where
  resumable := by
    intro row hrow c hc
    show Resumable x (keys (rows ++ rows')) c
    rw [keys_append]
    rcases List.mem_append.mp hrow with hrow | hrow
    · exact (h.resumable row hrow c hc).append _
    · exact h'.resumable row hrow c hc
  counted := by
    intro row hrow c hc
    rcases List.mem_append.mp hrow with hrow | hrow
    · exact h.counted row hrow c hc
    · exact h'.counted row hrow c hc

theorem position_of_numbered {rows : List (MessageHistoryTailRow ρ)} {row : MessageHistoryTailRow ρ} {i : Nat}
    (hnumbered : rows.map (·.position) = List.range rows.length) (hrow : rows[i]? = some row) : row.position = i := by
  have hlt := (List.getElem?_eq_some_iff.mp hrow).1
  have hat : (rows.map (·.position))[i]? = some row.position := by rw [List.getElem?_map, hrow]; rfl
  rw [hnumbered, List.getElem?_range hlt] at hat
  exact (Option.some.inj hat).symm

/-- A checkpoint counts the rows up to its own. -/
theorem records_le_of_mem {rows after : List (MessageHistoryTailRow ρ)} {row : MessageHistoryTailRow ρ}
    {c : MessageHistoryCursor} (hchecked : Checked x [] (rows ++ after))
    (hnumbered : (rows ++ after).map (·.position) = List.range (rows ++ after).length) (hrow : row ∈ rows)
    (hc : row.checkpoint = some c) : c.records ≤ rows.length := by
  obtain ⟨i, hi, hget⟩ := List.getElem_of_mem hrow
  have hat : (rows ++ after)[i]? = some row := by
    rw [List.getElem?_append_left hi, List.getElem?_eq_getElem hi, hget]
  rw [hchecked.counted row (List.mem_append_left _ hrow) c hc, position_of_numbered hnumbered hat]
  exact hi

theorem Checked.left {rows after : List (MessageHistoryTailRow ρ)} (h : Checked x [] (rows ++ after))
    (hnumbered : (rows ++ after).map (·.position) = List.range (rows ++ after).length) : Checked x [] rows where
  resumable := by
    intro row hrow c hc hboundary
    obtain ⟨bytes, hdescribes⟩ := h.resumable row (List.mem_append_left _ hrow) c hc hboundary
    have hle := records_le_of_mem h hnumbered hrow hc
    refine ⟨bytes, ?_⟩
    rw [List.nil_append, keys_append,
      List.take_append_of_le_length (by unfold keys; rw [List.length_map]; exact hle)] at hdescribes
    exact hdescribes
  counted := fun row hrow => h.counted row (List.mem_append_left _ hrow)

/-! ## What was proposed, and what was published -/

/-- A publication is that of `bytes`. -/
structure Good (x : Formats ρ) (p : Publication ρ) (bytes : Bytes) : Prop where
  genuine : Genuine x p.accept (keys p.base) bytes p.result
  checked : Checked x [] p.rows
  missing : p.result.snapshot.identity = js "missing" → bytes = []

variable {p : Publication ρ} {bytes : Bytes}

theorem Good.keys_rows (h : Good x p bytes) : keys p.rows = keys (freshScan x bytes p.accept).rows :=
  (keys_append _ _).trans h.genuine.rows

theorem Good.numbered (h : Good x p bytes) : p.rows.map (·.position) = List.range p.result.cursor.records := by
  rw [(keys_positions h.keys_rows).1, h.genuine.records]
  exact freshScan_numbered bytes p.accept

theorem Good.length_rows (h : Good x p bytes) : p.rows.length = p.result.cursor.records := by
  have hlength := congrArg List.length h.numbered
  rwa [List.length_map, List.length_range] at hlength

structure Invariant (x : Formats ρ) (h : History ρ) : Prop where
  proposals : ∀ p ∈ h.proposals, ∃ bytes, Good x p bytes
  published : ∀ p ∈ h.published, Good x p.toPublication p.bytes

theorem source_sound {published : List (Published ρ)} {previous : Option MessageHistoryCursor} {rows : List
    (MessageHistoryTailRow ρ)} (hpublished : ∀ p ∈ published, Good x p.toPublication p.bytes) (hsource : Source
    published previous rows) : (∀ c, previous = some c → Continues x (keys rows) c) ∧ Checked x [] rows := by
  cases hsource with
  | none => exact ⟨fun c hc => (by cases hc), checked_nil⟩
  | cursor hp =>
    rename_i p
    have hgood := hpublished p hp
    refine ⟨fun c hc hboundary => ?_, hgood.checked⟩
    cases hc
    obtain ⟨bytes, hdescribes⟩ := hgood.genuine.resumable hboundary
    refine ⟨bytes, ?_⟩
    rw [← keys_append, ← hgood.length_rows,
      List.take_of_length_le (by unfold keys; rw [List.length_map]; exact Nat.le_refl _)] at hdescribes
    exact hdescribes
  | checkpoint hp hrows hc =>
    rename_i p before after row c
    have hgood := hpublished p hp
    have hsplit : p.rows = (before ++ [row]) ++ after := by rw [hrows, List.append_assoc]; rfl
    have hnumbered := hgood.numbered
    rw [← hgood.length_rows, hsplit] at hnumbered
    have hchecked : Checked x [] ((before ++ [row]) ++ after) := hsplit ▸ hgood.checked
    have hleft := hchecked.left hnumbered
    have hat : ((before ++ [row]) ++ after)[before.length]? = some row := by
      rw [List.append_assoc, List.getElem?_append_right (Nat.le_refl _), Nat.sub_self]
      rfl
    have hrecords : c.records = (keys (before ++ [row])).length := by
      rw [hleft.counted row (by simp) c hc, position_of_numbered hnumbered hat]
      unfold keys
      rw [List.length_map, List.length_append]
      rfl
    refine ⟨fun c' hc' hboundary => ?_, hleft⟩
    cases hc'
    obtain ⟨bytes, hdescribes⟩ := hleft.resumable row (by simp) c hc hboundary
    refine ⟨bytes, ?_⟩
    rw [List.nil_append, hrecords, List.take_length] at hdescribes
    exact hdescribes

theorem good_read {r : Request} {file : Option HistoryFile} {entry : Option PrefixEntry}
    {rows : List (MessageHistoryTailRow ρ)} {result : TailResult ρ} (hsha : Function.Injective x.sha256)
    (hprevious : ∀ c, r.previous = some c → Continues x (keys rows) c) (hchecked : Checked x [] rows)
    (hresult : (readMessageHistoryTail x file r entry).1 = some result) :
    ∃ bytes, Good x ⟨r.acceptFinalRecord, if result.reset then [] else rows, result⟩ bytes := by
  obtain ⟨bytes, hgenuine, hmissing⟩ := readMessageHistoryTail_stands hsha hprevious hresult
  have hbase : (if result.reset then [] else keys rows) = keys (if result.reset then [] else rows) := by
    split <;> rfl
  rw [hbase] at hgenuine
  refine ⟨bytes, hgenuine, Checked.concat ?_ hgenuine.checked, hmissing⟩
  show Checked x [] (if result.reset then [] else rows)
  split
  · exact checked_nil
  · exact hchecked

/-- A snapshot that was verified is that of the bytes in the file. -/
theorem verified_bytes {h : History ρ} (hsha : Function.Injective x.sha256) (hgood : Good x p bytes)
    (hvalid : (verifyMessageHistoryPrefix x h.file p.result.snapshot h.entry).1 = true) :
    ((h.file.map (·.bytes)).getD []).take p.result.snapshot.bytes = bytes := by
  unfold verifyMessageHistoryPrefix at hvalid
  cases hfile : h.file with
  | none =>
    rw [hfile] at hvalid
    rw [hgood.missing (of_decide_eq_true hvalid)]
    exact List.take_nil
  | some f =>
    rw [hfile] at hvalid
    obtain ⟨-, -, hhash⟩ := of_decide_eq_true hvalid
    exact hsha (hhash.trans hgood.genuine.hash)

theorem invariant_step {h h' : History ρ} (hsha : Function.Injective x.sha256) (hinv : Invariant x h)
    (hstep : Step x h h') : Invariant x h' := by
  cases hstep with
  | change file => exact ⟨hinv.proposals, hinv.published⟩
  | forget => exact ⟨hinv.proposals, hinv.published⟩
  | read r hsource =>
    rename_i rows
    obtain ⟨hprevious, hchecked⟩ := source_sound hinv.published hsource
    refine ⟨?_, hinv.published⟩
    unfold History.read
    dsimp only
    split
    · exact hinv.proposals
    · rename_i result hresult
      intro p hp
      rcases List.mem_cons.mp hp with rfl | hp
      · exact good_read hsha hprevious hchecked hresult
      · exact hinv.proposals p hp
  | verify hp =>
    rename_i p
    obtain ⟨bytes, hgood⟩ := hinv.proposals p hp
    refine ⟨hinv.proposals, ?_⟩
    unfold History.verify
    dsimp only
    split
    · rename_i hvalid
      intro q hq
      rcases List.mem_cons.mp hq with rfl | hq
      · show Good x p _
        rw [verified_bytes hsha hgood hvalid]
        exact hgood
      · exact hinv.published q hq
    · exact hinv.published

theorem invariant_run {file : Option HistoryFile} {h : History ρ} (hsha : Function.Injective x.sha256)
    (hrun : Relation.ReflTransGen (Step x) (History.initial file) h) : Invariant x h := by
  induction hrun with
  | refl => exact ⟨fun p hp => (by cases hp), fun p hp => (by cases hp)⟩
  | tail _ hstep ih => exact invariant_step hsha ih hstep

/-! ## The rows of a publication -/

theorem freshRead_eq (x : Formats ρ) (f : HistoryFile) (accept : AcceptFinalRecord) (epoch : JsString) :
    ∃ fresh, freshRead x f accept epoch = some fresh ∧ keys fresh.rows = keys (freshScan x f.bytes accept).rows ∧
      fresh.cursor.records = (freshScan x f.bytes accept).records ∧
      fresh.cursor.issues = (freshScan x f.bytes accept).issues := by
  have hgenuine := readPass_genuine f f.bytes.length accept epoch (Starts.fresh (x := x)) (Nat.zero_le _) (Nat.le_refl _)
  rw [List.length_nil, List.drop_zero, List.nil_append, List.take_length] at hgenuine
  exact ⟨_, rfl, hgenuine.rows, hgenuine.records, hgenuine.issues⟩

/-- Bytes are their own hash, and a record is how many members it has. -/
def lengths : Formats Nat where
  utf8 bytes := bytes.map (·.toUInt16)
  normalizeStored members := some members.length
  sha256 bytes := bytes.map (·.toUInt16)

theorem lengths_sha256 : Function.Injective lengths.sha256 := by
  apply List.map_injective_iff.mpr
  intro a b hab
  have hnat := congrArg UInt16.toNat hab
  rw [UInt8.toNat_toUInt16, UInt8.toNat_toUInt16] at hnat
  exact UInt8.toNat_inj.mp hnat

def oneLine : HistoryFile := ⟨js "1:2", by decide, [123, 125, 10], js "3"⟩

/-- A second line, and a part of a third one. -/
def twoLines : HistoryFile := ⟨js "1:2", by decide, [123, 125, 10, 123, 125, 10, 123], js "4"⟩

def readOnce : History Nat := (History.initial (some oneLine)).read lengths ⟨none, none, .never, true, js "e"⟩ []

def firstProposal : Publication Nat := readOnce.proposals.get ⟨0, by decide⟩

def publishedOnce : History Nat := readOnce.verify lengths firstProposal

def firstPublished : Published Nat := publishedOnce.published.get ⟨0, by decide⟩

def readTwice : History Nat :=
  History.read lengths { publishedOnce with file := some twoLines }
    ⟨some firstPublished.result.cursor, none, .never, true, js "f"⟩ firstPublished.rows

def secondProposal : Publication Nat := readTwice.proposals.get ⟨0, by decide⟩

def publishedTwice : History Nat := readTwice.verify lengths secondProposal

def secondPublished : Published Nat := publishedTwice.published.get ⟨0, by decide⟩

theorem publishedTwice_run : Relation.ReflTransGen (Step lengths) (History.initial (some oneLine)) publishedTwice := by
  have hread : Step lengths (History.initial (some oneLine)) readOnce := .read _ _ .none
  have hverify : Step lengths readOnce publishedOnce := .verify _ (List.get_mem ..)
  have hchange : Step lengths publishedOnce { publishedOnce with file := some twoLines } := .change _ _
  have hagain : Step lengths { publishedOnce with file := some twoLines } readTwice :=
    .read _ _ (.cursor (List.get_mem ..))
  have hlast : Step lengths readTwice publishedTwice := .verify _ (List.get_mem ..)
  exact ((((Relation.ReflTransGen.single hread).tail hverify).tail hchange).tail hagain).tail hlast

end RabiRoute.MessageHistory
