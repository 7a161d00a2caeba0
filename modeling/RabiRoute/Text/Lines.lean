import RabiRoute.Text.Utf8

/-!
# The lines of bytes

`lines` cuts a text at its line feeds, each with the carriage return before it.  `linesFrom` finds the same lines in
the bytes of a text that is not decoded yet, and where each begins.  What stands before a cut decides nothing about
the lines that begin behind it.
-/

namespace Text

/-- `split(/\r?\n/)` -/
def lines : List UInt16 → List (List UInt16)
  | [] => [[]]
  | u :: rest =>
    if u = 10 then [] :: lines rest
    else if u = 13 ∧ rest.head? = some 10 then lines rest
    else (lines rest).modifyHead (u :: ·)

/-- A line without the carriage return at its end. -/
def chomp (line : List UInt16) : List UInt16 := if line.getLast? = some 13 then line.dropLast else line

theorem chomp_cons_cons (u v : UInt16) (rest : List UInt16) : chomp (u :: v :: rest) = u :: chomp (v :: rest) := by
  unfold chomp
  rw [List.getLast?_cons_cons, List.dropLast_cons_cons]
  split <;> rfl

theorem lines_of_not_mem {text : List UInt16} (h : 10 ∉ text) : lines text = [text] := by
  induction text with
  | nil => rfl
  | cons u rest ih =>
    have hu : u ≠ 10 := fun heq => h (heq ▸ List.mem_cons_self)
    have hrest : 10 ∉ rest := fun hmem => h (List.mem_cons_of_mem u hmem)
    have hpair : ¬(u = 13 ∧ rest.head? = some 10) := fun hcr => hrest (List.mem_of_head? hcr.2)
    rw [lines, if_neg hu, if_neg hpair, ih hrest]
    rfl

/-- The first line feed ends the first line. -/
theorem lines_append {line : List UInt16} (h : 10 ∉ line) (rest : List UInt16) :
    lines (line ++ 10 :: rest) = chomp line :: lines rest := by
  induction line with
  | nil => rfl
  | cons u line ih =>
    have hu : u ≠ 10 := fun heq => h (heq ▸ List.mem_cons_self)
    have hline : 10 ∉ line := fun hmem => h (List.mem_cons_of_mem u hmem)
    rw [List.cons_append, lines, if_neg hu, ih hline]
    cases line with
    | nil =>
      by_cases hcr : u = 13
      · rw [if_pos ⟨hcr, rfl⟩, hcr]
        rfl
      · rw [if_neg (fun hpair => hcr hpair.1)]
        unfold chomp
        rw [List.getLast?_singleton, if_neg (fun heq => hcr (Option.some.inj heq))]
        rfl
    | cons v line =>
      have hv : v ≠ 10 := fun heq => hline (heq ▸ List.mem_cons_self)
      rw [if_neg (fun hpair => hv (Option.some.inj hpair.2)), chomp_cons_cons]
      rfl

/-! ## Lines in bytes -/

/-- A line of a file. -/
structure FileLine where
  /-- The offset of its first byte. -/
  start : Nat
  text : List UInt16

/-- The lines of the rest of a file, of whose current line, which began at `start`, the bytes `pending` are read. -/
def linesFrom (start : Nat) (pending : List UInt8) : List UInt8 → List FileLine
  | [] => [⟨start, Utf8.decode pending⟩]
  | b :: rest =>
    if b = 10 then ⟨start, chomp (Utf8.decode pending)⟩ :: linesFrom (start + pending.length + 1) [] rest
    else linesFrom start (pending ++ [b]) rest

def fileLines (file : List UInt8) : List FileLine := linesFrom 0 [] file

/-- Decoding first, or finding the lines first, makes no difference. -/
theorem linesFrom_text (start : Nat) {pending : List UInt8} (hpending : 10 ∉ pending) (rest : List UInt8) :
    (linesFrom start pending rest).map FileLine.text = lines (Utf8.decode (pending ++ rest)) := by
  induction rest generalizing start pending with
  | nil =>
    rw [List.append_nil, lines_of_not_mem (Utf8.lineFeed_not_mem_decode hpending)]
    rfl
  | cons b rest ih =>
    unfold linesFrom
    split
    · rename_i hb
      rw [hb, Utf8.decode_lineFeed, lines_append (Utf8.lineFeed_not_mem_decode hpending), List.map_cons,
        ih _ List.not_mem_nil, List.nil_append]
    · rename_i hb
      have hmore : 10 ∉ pending ++ [b] := by
        intro hmem
        rcases List.mem_append.mp hmem with hin | hin
        · exact hpending hin
        · exact hb (List.mem_singleton.mp hin).symm
      rw [ih _ hmore, List.append_assoc, List.singleton_append]

theorem fileLines_text (file : List UInt8) : (fileLines file).map FileLine.text = lines (Utf8.decode file) :=
  linesFrom_text 0 List.not_mem_nil file

/-- The lines after the current one depend on its end, not on where it began. -/
theorem tail_linesFrom {start other : Nat} {pending more : List UInt8} (h : start + pending.length = other +
    more.length) (rest : List UInt8) : (linesFrom start pending rest).tail = (linesFrom other more rest).tail := by
  induction rest generalizing start other pending more with
  | nil => rfl
  | cons b rest ih =>
    unfold linesFrom
    split
    · rw [List.tail_cons, List.tail_cons, h]
    · apply ih
      rw [List.length_append, List.length_append, ← Nat.add_assoc, ← Nat.add_assoc, h]

/-- The current line comes first, and the others begin behind what is read. -/
theorem linesFrom_start (start : Nat) (pending rest : List UInt8) :
    ∃ text more, linesFrom start pending rest = ⟨start, text⟩ :: more ∧
      ∀ line ∈ more, start + pending.length < line.start := by
  induction rest generalizing start pending with
  | nil => exact ⟨_, [], rfl, fun line hline => absurd hline List.not_mem_nil⟩
  | cons b rest ih =>
    unfold linesFrom
    split
    · refine ⟨_, _, rfl, fun line hline => ?_⟩
      obtain ⟨text, more, heq, hmore⟩ := ih (start + pending.length + 1) []
      rw [heq] at hline
      rcases List.mem_cons.mp hline with rfl | hlater
      · exact Nat.lt_succ_self _
      · exact Nat.lt_trans (Nat.lt_succ_self _) (hmore line hlater)
    · obtain ⟨text, more, heq, hmore⟩ := ih start (pending ++ [b])
      refine ⟨text, more, heq, fun line hline => ?_⟩
      have hlater := hmore line hline
      rw [List.length_append, List.length_singleton] at hlater
      omega

theorem filter_linesFrom (start : Nat) (pending rest : List UInt8) :
    (linesFrom start pending rest).filter (start + pending.length < ·.start) =
      (linesFrom start pending rest).tail := by
  obtain ⟨text, more, heq, hmore⟩ := linesFrom_start start pending rest
  rw [heq, List.filter_cons_of_neg, List.tail_cons, List.filter_eq_self]
  · intro line hline
    exact decide_eq_true (hmore line hline)
  · simp only [decide_eq_true_eq]
    omega

/-- The lines that begin behind a cut are those that a reader of the bytes after the cut finds after its first. -/
theorem filter_linesFrom_append (start : Nat) (pending before after : List UInt8) :
    (linesFrom start pending (before ++ after)).filter (start + pending.length + before.length < ·.start) =
      (linesFrom (start + pending.length + before.length) [] after).tail := by
  induction before generalizing start pending with
  | nil =>
    rw [List.nil_append, List.length_nil, Nat.add_zero, filter_linesFrom]
    exact tail_linesFrom (by rw [List.length_nil, Nat.add_zero]) after
  | cons b before ih =>
    rw [List.cons_append, linesFrom]
    split
    · have hhere := ih (start + pending.length + 1) []
      rw [List.filter_cons_of_neg (by simp only [decide_eq_true_eq]; omega)]
      rw [List.length_nil, Nat.add_zero] at hhere
      rw [List.length_cons, ← Nat.add_assoc, Nat.add_right_comm _ before.length]
      exact hhere
    · have hhere := ih start (pending ++ [b])
      rw [List.length_append, List.length_singleton] at hhere
      rw [List.length_cons, show start + pending.length + (before.length + 1) =
        start + (pending.length + 1) + before.length by omega]
      exact hhere

/-- `file.drop cut` read on its own, without its first line. -/
theorem filter_fileLines (file : List UInt8) {cut : Nat} (hcut : cut ≤ file.length) :
    ((fileLines file).filter (cut < ·.start)).map FileLine.text = (lines (Utf8.decode (file.drop cut))).tail := by
  have hcutLine := filter_linesFrom_append 0 [] (file.take cut) (file.drop cut)
  rw [List.take_append_drop, List.length_take_of_le hcut, List.length_nil, Nat.zero_add] at hcutLine
  rw [fileLines, hcutLine, List.map_tail, linesFrom_text _ List.not_mem_nil, List.nil_append]

theorem linesFrom_sorted (start : Nat) (pending rest : List UInt8) :
    (linesFrom start pending rest).Pairwise (·.start < ·.start) := by
  induction rest generalizing start pending with
  | nil => exact List.pairwise_singleton _ _
  | cons b rest ih =>
    unfold linesFrom
    split
    · refine List.pairwise_cons.mpr ⟨fun line hline => ?_, ih _ []⟩
      obtain ⟨text, more, heq, hmore⟩ := linesFrom_start (start + pending.length + 1) [] rest
      rw [heq] at hline
      rcases List.mem_cons.mp hline with rfl | hlater
      · show start < start + pending.length + 1
        omega
      · have := hmore line hlater
        show start < line.start
        omega
    · exact ih start _

end Text
