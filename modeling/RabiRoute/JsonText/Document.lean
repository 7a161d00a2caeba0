import RabiRoute.JsonText.Parse

/-!
# `JSON.stringify` of records of strings

What is written is read back: `parse_stringify`.
-/

namespace RabiRoute.JsonText

/-- A value that is made of strings and records only. -/
inductive Document where
  | text (text : JsString)
  | record (fields : List (JsString × Document))

/-! ## Strings -/

/-- The digit of a number below 16. -/
def hexDigit (n : Nat) : UInt16 := if n < 10 then UInt16.ofNat (48 + n) else UInt16.ofNat (87 + n)

def hexEscape (u : UInt16) : JsString :=
  [92, 117, hexDigit (u.toNat / 4096), hexDigit (u.toNat / 256 % 16), hexDigit (u.toNat / 16 % 16),
    hexDigit (u.toNat % 16)]

def escapeUnit (u : UInt16) : JsString :=
  if u = 34 then [92, 34]
  else if u = 92 then [92, 92]
  else if u = 8 then [92, 98]
  else if u = 12 then [92, 102]
  else if u = 10 then [92, 110]
  else if u = 13 then [92, 114]
  else if u = 9 then [92, 116]
  else if u < 32 then hexEscape u
  else [u]

def isLead (u : UInt16) : Bool := 0xD800 ≤ u && u ≤ 0xDBFF

def isTrail (u : UInt16) : Bool := 0xDC00 ≤ u && u ≤ 0xDFFF

/-- Surrogates stay as they are in pairs only. -/
def escapeUnits : JsString → JsString
  | [] => []
  | [u] => if isLead u || isTrail u then hexEscape u else escapeUnit u
  | u :: v :: rest =>
    if isLead u && isTrail v then u :: v :: escapeUnits rest
    else (if isLead u || isTrail u then hexEscape u else escapeUnit u) ++ escapeUnits (v :: rest)

def quote (text : JsString) : JsString := 34 :: (escapeUnits text ++ [34])

/-! ## Records -/

mutual

def write (indent : JsString) : Document → JsString
  | .text text => quote text
  | .record [] => [123, 125]
  | .record (field :: fields) =>
    123 :: (writeFields (indent ++ js "  ") (field :: fields) ++ (10 :: indent ++ [125]))

def writeFields (indent : JsString) : List (JsString × Document) → JsString
  | [] => []
  | [(name, document)] => 10 :: indent ++ (quote name ++ (js ": " ++ write indent document))
  | (name, document) :: field :: fields =>
    10 :: indent ++ (quote name ++ (js ": " ++ write indent document)) ++ (44 :: writeFields indent (field :: fields))

end

/-- `JSON.stringify(document, null, 2)` -/
def stringify (document : Document) : JsString := write [] document

mutual

/-- The document as `JSON.parse` answers it. -/
def Document.value : Document → Value
  | .text text => .string text
  | .record fields => .object (fieldValues fields)

def fieldValues : List (JsString × Document) → List (JsString × Value)
  | [] => []
  | (name, document) :: fields => (name, document.value) :: fieldValues fields

end

/-! ## Strings are read back -/

theorem hexValue_hexDigit : ∀ n < 16, hexValue (hexDigit n) = some n := by
  decide

theorem hexUnit_digits (u : UInt16) : hexUnit (hexDigit (u.toNat / 4096)) (hexDigit (u.toNat / 256 % 16))
    (hexDigit (u.toNat / 16 % 16)) (hexDigit (u.toNat % 16)) = some u := by
  have hu : u.toNat < 65536 := u.toNat_lt
  unfold hexUnit
  rw [hexValue_hexDigit _ (by omega), hexValue_hexDigit _ (by omega), hexValue_hexDigit _ (by omega),
    hexValue_hexDigit _ (by omega)]
  show some (UInt16.ofNat _) = some u
  have hsum : u.toNat / 4096 * 4096 + u.toNat / 256 % 16 * 256 + u.toNat / 16 % 16 * 16 + u.toNat % 16 = u.toNat := by
    omega
  rw [hsum, UInt16.ofNat_toNat]

theorem stringBody_hexEscape (u : UInt16) (rest : JsString) :
    stringBody (hexEscape u ++ rest) = push (some u) (stringBody rest) := by
  rw [← hexUnit_digits u, stringBody.eq_def]
  rfl

theorem stringBody_close (rest : JsString) : stringBody (34 :: rest) = some ([], rest) := by
  rw [stringBody.eq_def]
  rfl

/-- A code unit that a backslash stands for. -/
theorem stringBody_escaped {e u : UInt16} (he : e ≠ 117) (h : escapedUnit e = some u) (rest : JsString) :
    stringBody (92 :: e :: rest) = push (some u) (stringBody rest) := by
  rw [stringBody.eq_def, ← h]
  dsimp only
  rw [if_neg (by decide), if_pos rfl, if_neg he]

theorem stringBody_plain {u : UInt16} (h34 : u ≠ 34) (h92 : u ≠ 92) (h32 : ¬u < 32) (rest : JsString) :
    stringBody (u :: rest) = push (some u) (stringBody rest) := by
  rw [stringBody.eq_def]
  dsimp only
  rw [if_neg h34, if_neg h92, if_neg h32]

theorem stringBody_escapeUnit (u : UInt16) (rest : JsString) :
    stringBody (escapeUnit u ++ rest) = push (some u) (stringBody rest) := by
  unfold escapeUnit
  by_cases h34 : u = 34
  · rw [if_pos h34, h34]
    exact stringBody_escaped (by decide) rfl rest
  by_cases h92 : u = 92
  · rw [if_neg h34, if_pos h92, h92]
    exact stringBody_escaped (by decide) rfl rest
  rw [if_neg h34, if_neg h92]
  -- the five control units that have a short escape
  by_cases h8 : u = 8
  · rw [if_pos h8, h8]
    exact stringBody_escaped (by decide) rfl rest
  by_cases h12 : u = 12
  · rw [if_neg h8, if_pos h12, h12]
    exact stringBody_escaped (by decide) rfl rest
  by_cases h10 : u = 10
  · rw [if_neg h8, if_neg h12, if_pos h10, h10]
    exact stringBody_escaped (by decide) rfl rest
  by_cases h13 : u = 13
  · rw [if_neg h8, if_neg h12, if_neg h10, if_pos h13, h13]
    exact stringBody_escaped (by decide) rfl rest
  by_cases h9 : u = 9
  · rw [if_neg h8, if_neg h12, if_neg h10, if_neg h13, if_pos h9, h9]
    exact stringBody_escaped (by decide) rfl rest
  rw [if_neg h8, if_neg h12, if_neg h10, if_neg h13, if_neg h9]
  split
  case isTrue => exact stringBody_hexEscape u rest
  case isFalse h32 => exact stringBody_plain h34 h92 h32 rest

theorem isLead_plain {u : UInt16} (h : isLead u = true ∨ isTrail u = true) : u ≠ 34 ∧ u ≠ 92 ∧ ¬u < 32 := by
  have hbig : 0xD800 ≤ u := by
    simp only [isLead, isTrail, Bool.and_eq_true, decide_eq_true_eq] at h
    rcases h with h | h
    · exact h.1
    · exact UInt16.le_trans (by decide) h.1
  refine ⟨?_, ?_, ?_⟩
  · intro heq
    rw [heq] at hbig
    exact absurd hbig (by decide)
  · intro heq
    rw [heq] at hbig
    exact absurd hbig (by decide)
  · intro hless
    have hcontra := UInt16.lt_of_le_of_lt hbig hless
    exact absurd hcontra (by decide)

theorem stringBody_escapeUnits (text rest : JsString) :
    stringBody (escapeUnits text ++ 34 :: rest) = some (text, rest) := by
  have hone (u : UInt16) (rest : JsString) :
      stringBody ((if (isLead u || isTrail u) = true then hexEscape u else escapeUnit u) ++ rest) =
        push (some u) (stringBody rest) := by
    split
    case isTrue => exact stringBody_hexEscape u rest
    case isFalse => exact stringBody_escapeUnit u rest
  fun_induction escapeUnits text with
  | case1 => exact stringBody_close rest
  | case2 u h =>
    rw [stringBody_hexEscape, stringBody_close]
    rfl
  | case3 u h =>
    rw [stringBody_escapeUnit, stringBody_close]
    rfl
  | case4 u v text hpair ih =>
    rw [Bool.and_eq_true] at hpair
    obtain ⟨h34, h92, h32⟩ := isLead_plain (.inl hpair.1)
    obtain ⟨h34', h92', h32'⟩ := isLead_plain (.inr hpair.2)
    show stringBody (u :: v :: (escapeUnits text ++ 34 :: rest)) = _
    rw [stringBody_plain h34 h92 h32, stringBody_plain h34' h92' h32', ih]
    rfl
  | case5 u v text hpair ih =>
    rw [List.append_assoc, hone, ih]
    rfl

theorem stringBody_quote (text rest : JsString) : (expect 34 (quote text ++ rest)).bind stringBody = some (text, rest) := by
  show stringBody (escapeUnits text ++ [34] ++ rest) = _
  rw [List.append_assoc]
  exact stringBody_escapeUnits text rest

/-! ## Records are read back -/

mutual

def Document.size : Document → Nat
  | .text _ => 1
  | .record fields => 1 + fieldsSize fields

def fieldsSize : List (JsString × Document) → Nat
  | [] => 0
  | (_, document) :: fields => 1 + document.size + fieldsSize fields

end

/-- Blank code units only. -/
def Blank (text : JsString) : Prop := ∀ u ∈ text, isBlank u = true

theorem skipBlanks_append {text rest : JsString} (h : Blank text) : skipBlanks (text ++ rest) = skipBlanks rest := by
  unfold skipBlanks
  rw [List.dropWhile_append, List.dropWhile_eq_nil_iff.mpr h]
  rfl

theorem skipBlanks_cons {u : UInt16} {rest : JsString} (h : isBlank u = false) :
    skipBlanks (u :: rest) = u :: rest := by
  unfold skipBlanks
  rw [List.dropWhile_cons_of_neg (by simpa using h)]

theorem blank_indent {indent : JsString} (h : Blank indent) : Blank (indent ++ js "  ") := by
  intro u hu
  rcases List.mem_append.mp hu with hold | hnew
  · exact h u hold
  · have hspaces : ∀ u ∈ js "  ", isBlank u = true := JsString.forall_of_all (by decide)
    exact hspaces u hnew

theorem blank_break {indent : JsString} (h : Blank indent) : Blank (10 :: indent) :=
  List.forall_mem_cons.mpr ⟨rfl, h⟩

theorem expect_self (u : UInt16) (rest : JsString) : expect u (u :: rest) = some rest := by
  show (if u = u then some rest else none) = _
  rw [if_pos rfl]

theorem expect_ne {u v : UInt16} (h : v ≠ u) (rest : JsString) : expect u (v :: rest) = none := by
  show (if v = u then some rest else none) = _
  rw [if_neg h]

/-- The first code unit of a document that is written. -/
theorem write_head (indent : JsString) (document : Document) :
    ∃ u rest, write indent document = u :: rest ∧ isBlank u = false := by
  cases document with
  | text text => exact ⟨34, _, write.eq_1 indent text, rfl⟩
  | record fields =>
    cases fields with
    | nil => exact ⟨123, [125], write.eq_2 indent, rfl⟩
    | cons field fields => exact ⟨123, _, write.eq_3 indent field fields, rfl⟩

theorem skipBlanks_write (indent rest : JsString) (document : Document) :
    skipBlanks (write indent document ++ rest) = write indent document ++ rest := by
  obtain ⟨u, tail, heq, hblank⟩ := write_head indent document
  rw [heq]
  exact skipBlanks_cons hblank

/-- A name and the colon after it are read back, whatever blanks stand before. -/
theorem name_read {blanks : JsString} (h : Blank blanks) (name rest : JsString) :
    (expect 34 (skipBlanks (blanks ++ (quote name ++ rest)))).bind stringBody = some (name, rest) := by
  rw [skipBlanks_append h]
  show (expect 34 (skipBlanks (34 :: (escapeUnits name ++ [34] ++ rest)))).bind stringBody = _
  rw [skipBlanks_cons rfl]
  exact stringBody_quote name rest

theorem write_record (indent rest : JsString) (field : JsString × Document) (fields : List (JsString × Document)) :
    write indent (.record (field :: fields)) ++ rest =
      123 :: (writeFields (indent ++ js "  ") (field :: fields) ++ (10 :: indent ++ 125 :: rest)) := by
  rw [write]
  show 123 :: (writeFields _ _ ++ (10 :: indent ++ [125]) ++ rest) = _
  rw [List.append_assoc, List.append_assoc]
  rfl

/-- Fields do not start with the end of their record. -/
theorem expect_fields (indent : JsString) (field : JsString × Document) (fields : List (JsString × Document))
    (rest : JsString) (h : Blank indent) : expect 125 (skipBlanks (writeFields indent (field :: fields) ++ rest)) = none := by
  have hname (more : JsString) : expect 125 (skipBlanks (10 :: indent ++ (quote field.1 ++ more))) = none := by
    rw [skipBlanks_append (blank_break h)]
    show expect 125 (skipBlanks (34 :: (escapeUnits field.1 ++ [34] ++ more))) = none
    rw [skipBlanks_cons rfl]
    exact expect_ne (by decide) _
  cases fields with
  | nil =>
    rw [writeFields, List.append_assoc, List.append_assoc]
    exact hname _
  | cons next fields =>
    rw [writeFields, List.append_assoc, List.append_assoc, List.append_assoc]
    exact hname _

theorem value_blank (bound : Nat) (text : JsString) : value bound (32 :: text) = value bound text := by
  cases bound with
  | zero => rw [value, value]
  | succ bound =>
    rw [value, value]
    rfl

/-- An object that has members. -/
theorem value_members {bound : Nat} {text rest : JsString} (h : skipBlanks text = 123 :: rest)
    (hopen : expect 125 (skipBlanks rest) = none) :
    value (bound + 1) text = (members bound rest).map fun read => (.object read.1, read.2) := by
  rw [value, h]
  dsimp only
  rw [if_neg (by decide), if_pos rfl, hopen]

/-- One member that is read, and what follows its value. -/
theorem members_first {bound : Nat} {text rest after : JsString} {name : JsString} {v : Value}
    (hname : (expect 34 (skipBlanks text)).bind stringBody = some (name, 58 :: rest))
    (hvalue : value bound rest = some (v, after)) :
    members (bound + 1) text = (expect 44 (skipBlanks after)).elim
      ((expect 125 (skipBlanks after)).map fun rest => ([(name, v)], rest))
      fun rest => (members bound rest).map fun read => ((name, v) :: read.1, read.2) := by
  rw [members, hname]
  dsimp only
  rw [skipBlanks_cons rfl, expect_self, Option.bind_some, hvalue]
  cases hcomma : expect 44 (skipBlanks after) with
  | none =>
    dsimp only
    rw [hcomma]
    rfl
  | some rest =>
    dsimp only
    rw [hcomma]
    rfl

mutual

theorem value_write : ∀ (document : Document) (indent rest : JsString) (bound : Nat), Blank indent →
    document.size ≤ bound → value bound (write indent document ++ rest) = some (document.value, rest)
  | .text text, indent, rest, bound, _, hbound => by
      rw [Document.size] at hbound
      obtain ⟨b, rfl⟩ : ∃ b, bound = b + 1 := ⟨bound - 1, by omega⟩
      rw [value, skipBlanks_write, write]
      show (stringBody (escapeUnits text ++ [34] ++ rest)).map _ = _
      rw [List.append_assoc, show [34] ++ rest = 34 :: rest from rfl, stringBody_escapeUnits]
      rfl
  | .record [], indent, rest, bound, _, hbound => by
      rw [Document.size] at hbound
      obtain ⟨b, rfl⟩ : ∃ b, bound = b + 1 := ⟨bound - 1, by omega⟩
      rw [value, skipBlanks_write, write]
      rfl
  | .record (field :: fields), indent, rest, bound, hindent, hbound => by
      rw [Document.size] at hbound
      obtain ⟨b, rfl⟩ : ∃ b, bound = b + 1 := ⟨bound - 1, by omega⟩
      have hmembers := members_write field fields (indent ++ js "  ") (10 :: indent) rest b (blank_indent hindent)
        (blank_break hindent) (by omega)
      have hopen := expect_fields (indent ++ js "  ") field fields (10 :: indent ++ 125 :: rest)
        (blank_indent hindent)
      have hread : value (b + 1) (write indent (.record (field :: fields)) ++ rest) = _ :=
        value_members ((skipBlanks_write indent rest _).trans (write_record indent rest field fields)) hopen
      rw [hread, hmembers, Document.value]
      rfl

theorem members_write : ∀ (field : JsString × Document) (fields : List (JsString × Document))
    (indent close rest : JsString) (bound : Nat), Blank indent → Blank close →
    fieldsSize (field :: fields) ≤ bound →
    members bound (writeFields indent (field :: fields) ++ (close ++ 125 :: rest)) =
      some (fieldValues (field :: fields), rest)
  | (name, document), [], indent, close, rest, bound, hindent, hclose, hbound => by
      rw [fieldsSize] at hbound
      obtain ⟨b, rfl⟩ : ∃ b, bound = b + 1 := ⟨bound - 1, by omega⟩
      have hvalue := value_write document indent (close ++ 125 :: rest) b hindent (by omega)
      have hread := members_first
        (name_read (blank_break hindent) name
          (58 :: 32 :: (write indent document ++ (close ++ 125 :: rest))))
        ((value_blank b _).trans hvalue)
      rw [skipBlanks_append hclose, skipBlanks_cons rfl, expect_ne (by decide), expect_self] at hread
      rw [writeFields]
      rw [List.append_assoc, List.append_assoc, List.append_assoc]
      exact hread
  | (name, document), next :: fields, indent, close, rest, bound, hindent, hclose, hbound => by
      rw [fieldsSize] at hbound
      obtain ⟨b, rfl⟩ : ∃ b, bound = b + 1 := ⟨bound - 1, by omega⟩
      have hvalue := value_write document indent
        (44 :: (writeFields indent (next :: fields) ++ (close ++ 125 :: rest))) b hindent (by omega)
      have hrest := members_write next fields indent close rest b hindent hclose (by omega)
      have hread := members_first
        (name_read (blank_break hindent) name
          (58 :: 32 :: (write indent document ++
            (44 :: (writeFields indent (next :: fields) ++ (close ++ 125 :: rest))))))
        ((value_blank b _).trans hvalue)
      rw [skipBlanks_cons rfl, expect_self, Option.elim_some, hrest] at hread
      rw [writeFields]
      rw [List.append_assoc, List.append_assoc, List.append_assoc, List.append_assoc]
      exact hread

end

mutual

theorem size_le_length : ∀ (document : Document) (indent : JsString), document.size ≤ (write indent document).length
  | .text text, indent => by
      rw [Document.size, write, quote, List.length_cons]
      exact Nat.succ_pos _
  | .record [], indent => by
      rw [Document.size, fieldsSize, write]
      decide
  | .record (field :: fields), indent => by
      have hfields := fieldsSize_le_length (field :: fields) (indent ++ js "  ")
      rw [Document.size, write, List.length_cons, List.length_append]
      omega

theorem fieldsSize_le_length : ∀ (fields : List (JsString × Document)) (indent : JsString),
    fieldsSize fields ≤ (writeFields indent fields).length
  | [], indent => by
      rw [fieldsSize]
      exact Nat.zero_le _
  | [(name, document)], indent => by
      have hdocument := size_le_length document indent
      rw [fieldsSize, fieldsSize, writeFields]
      simp only [List.length_append, List.length_cons]
      omega
  | (name, document) :: field :: fields, indent => by
      have hdocument := size_le_length document indent
      have hfields := fieldsSize_le_length (field :: fields) indent
      rw [fieldsSize, writeFields]
      simp only [List.length_append, List.length_cons]
      omega

end

/-- What `JSON.stringify` writes, `JSON.parse` reads. -/
theorem parse_stringify (document : Document) : parse (stringify document) = some document.value := by
  have hblank : Blank [] := fun _ h => absurd h List.not_mem_nil
  have hread := value_write document [] [] ((stringify document).length + 1) hblank
    (Nat.le_succ_of_le (size_le_length document []))
  rw [List.append_nil] at hread
  unfold parse
  rw [show value _ (stringify document) = _ from hread]
  rfl

end RabiRoute.JsonText
