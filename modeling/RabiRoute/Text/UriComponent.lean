import RabiRoute.JsonText.Document

/-!
# `encodeURIComponent` and `decodeURIComponent`

Both as ECMAScript has them, the first for a string of one character, as `Array.from` gives them.  A text
that is put together from pieces which are each read as one character is read as these characters.
-/

namespace RabiRoute.UriComponent

open JsonText (hexDigit hexValue hexValue_hexDigit)

/-! ## Characters -/

def isHighSurrogate (u : UInt16) : Bool := 0xD800 ≤ u && u ≤ 0xDBFF
def isLowSurrogate (u : UInt16) : Bool := 0xDC00 ≤ u && u ≤ 0xDFFF

/-- What the iterator of a string gives: a character, or a surrogate without its partner. -/
inductive Character where
  | scalar (c : Char)
  | lone (u : UInt16)
deriving DecidableEq

def Character.units : Character → JsString
  | .scalar c => codeUnits c
  | .lone u => [u]

/-- A code unit that stands alone. -/
def single (u : UInt16) : Character :=
  if isHighSurrogate u || isLowSurrogate u then .lone u else .scalar (Char.ofNat u.toNat)

def pair (high low : UInt16) : Character :=
  .scalar (Char.ofNat (0x10000 + (high.toNat - 0xD800) * 0x400 + (low.toNat - 0xDC00)))

/-- `Array.from(value)` -/
def characters : JsString → List Character
  | [] => []
  | [u] => [single u]
  | u :: v :: rest =>
    if isHighSurrogate u && isLowSurrogate v then pair u v :: characters rest
    else single u :: characters (v :: rest)

theorem toNat_ofNat {n : Nat} (h : n.isValidChar) : (Char.ofNat n).toNat = n := by
  unfold Char.ofNat
  rw [dif_pos h]
  rfl

theorem units_single (u : UInt16) : (single u).units = [u] := by
  have hu := u.toNat_lt
  unfold single
  split
  · rfl
  · rename_i h
    have hvalid : u.toNat.isValidChar := by
      simp only [isHighSurrogate, isLowSurrogate, Bool.or_eq_true, Bool.and_eq_true, decide_eq_true_eq,
        UInt16.le_iff_toNat_le] at h
      simp only [Nat.isValidChar]
      simp at h
      omega
    show codeUnits _ = [u]
    unfold codeUnits
    rw [toNat_ofNat hvalid, if_pos (by omega)]
    show [UInt16.ofNat u.toNat] = [u]
    rw [UInt16.ofNat_toNat]

theorem units_pair {high low : UInt16} (h : (isHighSurrogate high && isLowSurrogate low) = true) :
    (pair high low).units = [high, low] := by
  simp only [isHighSurrogate, isLowSurrogate, Bool.and_eq_true, decide_eq_true_eq, UInt16.le_iff_toNat_le] at h
  simp at h
  have hvalid : (0x10000 + (high.toNat - 0xD800) * 0x400 + (low.toNat - 0xDC00)).isValidChar := by
    simp only [Nat.isValidChar]
    omega
  show codeUnits _ = [high, low]
  unfold codeUnits
  rw [toNat_ofNat hvalid, if_neg (by omega)]
  have hhigh : 0xD800 + (0x10000 + (high.toNat - 0xD800) * 0x400 + (low.toNat - 0xDC00) - 0x10000) / 0x400 =
      high.toNat := by omega
  have hlow : 0xDC00 + (0x10000 + (high.toNat - 0xD800) * 0x400 + (low.toNat - 0xDC00) - 0x10000) % 0x400 =
      low.toNat := by omega
  rw [hhigh, hlow]
  show [UInt16.ofNat _, UInt16.ofNat _] = _
  rw [UInt16.ofNat_toNat, UInt16.ofNat_toNat]

/-- The characters of a string are the string. -/
theorem units_characters (s : JsString) : (characters s).flatMap Character.units = s := by
  induction s using characters.induct with
  | case1 => rfl
  | case2 u => rw [characters, List.flatMap_singleton, units_single]
  | case3 u v rest h ih => rw [characters, if_pos h, List.flatMap_cons, units_pair h, ih]; rfl
  | case4 u v rest h ih => rw [characters, if_neg h, List.flatMap_cons, units_single, ih]; rfl

theorem characters_cons {u : UInt16} (hu : isHighSurrogate u = false) (rest : JsString) :
    characters (u :: rest) = single u :: characters rest := by
  cases rest with
  | nil => rfl
  | cons v rest => rw [characters, hu, Bool.false_and, if_neg Bool.false_ne_true]

/-- A character is read back from its code units. -/
theorem characters_codeUnits (c : Char) (rest : JsString) :
    characters (codeUnits c ++ rest) = .scalar c :: characters rest := by
  have hvalid : c.toNat.isValidChar := c.valid
  simp only [Nat.isValidChar] at hvalid
  unfold codeUnits
  split
  · rename_i hsmall
    have hunit : c.toNat.toUInt16.toNat = c.toNat := UInt16.toNat_ofNat_of_lt (by simp only [UInt16.size]; omega)
    have hhigh : isHighSurrogate c.toNat.toUInt16 = false := by
      simp only [isHighSurrogate, Bool.and_eq_false_iff, decide_eq_false_iff_not, UInt16.le_iff_toNat_le, hunit]
      simp
      omega
    have hlow : isLowSurrogate c.toNat.toUInt16 = false := by
      simp only [isLowSurrogate, Bool.and_eq_false_iff, decide_eq_false_iff_not, UInt16.le_iff_toNat_le, hunit]
      simp
      omega
    rw [List.singleton_append, characters_cons hhigh]
    unfold single
    rw [hhigh, hlow, hunit, Char.ofNat_toNat]
    rfl
  · rename_i hlarge
    have hhigh : (0xD800 + (c.toNat - 0x10000) / 0x400).toUInt16.toNat = 0xD800 + (c.toNat - 0x10000) / 0x400 :=
      UInt16.toNat_ofNat_of_lt (by simp only [UInt16.size]; omega)
    have hlow : (0xDC00 + (c.toNat - 0x10000) % 0x400).toUInt16.toNat = 0xDC00 + (c.toNat - 0x10000) % 0x400 :=
      UInt16.toNat_ofNat_of_lt (by simp only [UInt16.size]; omega)
    have hpair : (isHighSurrogate (0xD800 + (c.toNat - 0x10000) / 0x400).toUInt16 &&
        isLowSurrogate (0xDC00 + (c.toNat - 0x10000) % 0x400).toUInt16) = true := by
      simp only [isHighSurrogate, isLowSurrogate, Bool.and_eq_true, decide_eq_true_eq, UInt16.le_iff_toNat_le,
        hhigh, hlow]
      simp
      omega
    show characters (_ :: _ :: rest) = _
    rw [characters, if_pos hpair]
    unfold pair
    rw [hhigh, hlow, show 0x10000 + (0xD800 + (c.toNat - 0x10000) / 0x400 - 0xD800) * 0x400 +
      (0xDC00 + (c.toNat - 0x10000) % 0x400 - 0xDC00) = c.toNat by omega, Char.ofNat_toNat]

theorem characters_flatMap (l : List Char) : characters (l.flatMap codeUnits) = l.map .scalar := by
  induction l with
  | nil => rfl
  | cons c l ih => rw [List.flatMap_cons, characters_codeUnits, ih, List.map_cons]

theorem mem_characters {s : JsString} {character : Character} (h : character ∈ characters s) :
    (∃ u, character = single u) ∨
      ∃ high low, (isHighSurrogate high && isLowSurrogate low) = true ∧ character = pair high low := by
  induction s using characters.induct with
  | case1 => cases h
  | case2 u =>
    rw [characters, List.mem_singleton] at h
    exact .inl ⟨u, h⟩
  | case3 u v rest hpair ih =>
    rw [characters, if_pos hpair] at h
    cases List.mem_cons.mp h with
    | inl h => exact .inr ⟨u, v, hpair, h⟩
    | inr h => exact ih h
  | case4 u v rest hpair ih =>
    rw [characters, if_neg hpair] at h
    cases List.mem_cons.mp h with
    | inl h => exact .inl ⟨u, h⟩
    | inr h => exact ih h

/-! ## Encoding -/

/-- The upper-case digit of a number below 16. -/
def upperDigit (n : Nat) : UInt16 := if n < 10 then UInt16.ofNat (48 + n) else UInt16.ofNat (55 + n)

/-- An octet as an escape, with digits of either case. -/
def escaped (digit : Nat → UInt16) (b : UInt8) : JsString := [37, digit (b.toNat / 16), digit (b.toNat % 16)]

/-- The characters that are not escaped. -/
def unreserved (c : Char) : Bool :=
  decide (65 ≤ c.toNat ∧ c.toNat ≤ 90) || decide (97 ≤ c.toNat ∧ c.toNat ≤ 122) ||
    decide (48 ≤ c.toNat ∧ c.toNat ≤ 57) || "-_.!~*'()".toList.contains c

/-- `encodeURIComponent(character)`; `none` where it throws. -/
def encodeURIComponent : Character → Option JsString
  | .lone _ => none
  | .scalar c =>
    if unreserved c then some (codeUnits c) else some ((String.utf8EncodeChar c).flatMap (escaped upperDigit))

/-! ## Decoding -/

/-- The octet of an escape. -/
def octet : JsString → Option (UInt8 × JsString)
  | p :: high :: low :: rest => do
      guard (p = 37)
      let high ← hexValue high
      let low ← hexValue low
      return (UInt8.ofNat (high * 16 + low), rest)
  | _ => none

def octets : Nat → JsString → Option (List UInt8 × JsString)
  | 0, s => some ([], s)
  | n + 1, s => do
      let (b, rest) ← octet s
      let (more, rest) ← octets n rest
      return (b :: more, rest)

/-- The number of octets of a character, by the leading ones of the first. -/
def octetCount (b : UInt8) : Option Nat :=
  if b.toNat < 0x80 then some 1
  else if b.toNat < 0xC0 then none
  else if b.toNat < 0xE0 then some 2
  else if b.toNat < 0xF0 then some 3
  else if b.toNat < 0xF8 then some 4
  else none

/-- One round of the loop of `decodeURIComponent`. -/
def nextCharacter : JsString → Option (JsString × JsString)
  | [] => none
  | u :: rest =>
    if u = 37 then do
      let (first, _) ← octet (u :: rest)
      let count ← octetCount first
      let (bytes, rest) ← octets count (u :: rest)
      let c ← bytes.toByteArray.utf8DecodeChar? 0
      return (codeUnits c, rest)
    else some ([u], rest)

/-- So many rounds at most; a round takes a code unit at least. -/
def decodeRounds : Nat → JsString → Option JsString
  | _, [] => some []
  | 0, _ :: _ => none
  | rounds + 1, u :: rest => do
      let (character, rest) ← nextCharacter (u :: rest)
      let more ← decodeRounds rounds rest
      return character ++ more

/-- `decodeURIComponent(text)`; `none` where it throws. -/
def decodeURIComponent (text : JsString) : Option JsString := decodeRounds text.length text

/-! ## Reading pieces -/

/-- Before any text, the piece is read as the character. -/
def Reads (piece : JsString) (c : Char) : Prop :=
  piece ≠ [] ∧ ∀ rest, nextCharacter (piece ++ rest) = some (codeUnits c, rest)

theorem reads_plain {u : UInt16} {c : Char} (hc : codeUnits c = [u]) (hu : u ≠ 37) : Reads [u] c := by
  refine ⟨List.cons_ne_nil u [], fun rest => ?_⟩
  show (if u = 37 then _ else some ([u], rest)) = _
  rw [if_neg hu, hc]

section Escapes

variable {digit : Nat → UInt16} (hdigit : ∀ n < 16, hexValue (digit n) = some n)
include hdigit

theorem octet_escaped (b : UInt8) (rest : JsString) : octet (escaped digit b ++ rest) = some (b, rest) := by
  have hb := b.toNat_lt
  show (do
    guard ((37 : UInt16) = 37)
    let high ← hexValue (digit (b.toNat / 16))
    let low ← hexValue (digit (b.toNat % 16))
    return (UInt8.ofNat (high * 16 + low), rest) : Option _) = _
  rw [hdigit _ (by omega), hdigit _ (by omega)]
  show some (UInt8.ofNat (b.toNat / 16 * 16 + b.toNat % 16), rest) = some (b, rest)
  rw [Nat.div_add_mod', UInt8.ofNat_toNat]

theorem octets_escaped (bytes : List UInt8) (rest : JsString) :
    octets bytes.length (bytes.flatMap (escaped digit) ++ rest) = some (bytes, rest) := by
  induction bytes with
  | nil => rfl
  | cons b bytes ih =>
    rw [List.flatMap_cons, List.append_assoc, List.length_cons]
    unfold octets
    rw [octet_escaped hdigit]
    show (octets bytes.length _ >>= fun r => some (b :: r.1, r.2)) = _
    rw [ih]
    rfl

end Escapes

theorem nextCharacter_escape {s rest after : JsString} {first : UInt8} {count : Nat} {bytes : List UInt8}
    {c : Char} (hfirst : octet (37 :: s) = some (first, after)) (hcount : octetCount first = some count)
    (hbytes : octets count (37 :: s) = some (bytes, rest)) (hchar : bytes.toByteArray.utf8DecodeChar? 0 = some c) :
    nextCharacter (37 :: s) = some (codeUnits c, rest) := by
  simp only [nextCharacter, if_true, hfirst, hcount, hbytes, hchar, Option.bind_eq_bind, Option.bind_some,
    Option.pure_def]

theorem octetCount_utf8EncodeChar (c : Char) : ∃ first more,
    String.utf8EncodeChar c = first :: more ∧ octetCount first = some (more.length + 1) := by
  unfold String.utf8EncodeChar octetCount
  simp only
  split
  · exact ⟨_, _, rfl, by rw [UInt8.toNat_ofNat', if_pos (by omega)]; rfl⟩
  split
  · exact ⟨_, _, rfl, by
      rw [UInt8.toNat_ofNat', if_neg (by omega), if_neg (by omega), if_pos (by omega)]; rfl⟩
  split
  · exact ⟨_, _, rfl, by
      rw [UInt8.toNat_ofNat', if_neg (by omega), if_neg (by omega), if_neg (by omega), if_pos (by omega)]; rfl⟩
  · exact ⟨_, _, rfl, by
      rw [UInt8.toNat_ofNat', if_neg (by omega), if_neg (by omega), if_neg (by omega), if_neg (by omega),
        if_pos (by omega)]; rfl⟩

theorem reads_escaped {digit : Nat → UInt16} (hdigit : ∀ n < 16, hexValue (digit n) = some n) (c : Char) :
    Reads ((String.utf8EncodeChar c).flatMap (escaped digit)) c := by
  obtain ⟨first, more, hbytes, hcount⟩ := octetCount_utf8EncodeChar c
  have hpiece : (String.utf8EncodeChar c).flatMap (escaped digit) =
      37 :: digit (first.toNat / 16) :: digit (first.toNat % 16) :: more.flatMap (escaped digit) := by
    rw [hbytes]
    rfl
  refine ⟨by rw [hpiece]; exact List.cons_ne_nil _ _, fun rest => ?_⟩
  have hoctets := octets_escaped hdigit (String.utf8EncodeChar c) rest
  have hoctet := octet_escaped hdigit first (more.flatMap (escaped digit) ++ rest)
  have hchar : (String.utf8EncodeChar c).toByteArray.utf8DecodeChar? 0 = some c := by
    have h := ByteArray.utf8DecodeChar?_utf8EncodeChar_append (b := ByteArray.empty) (c := c)
    rwa [ByteArray.append_empty] at h
  have hlength : (String.utf8EncodeChar c).length = more.length + 1 := by rw [hbytes]; rfl
  rw [hlength] at hoctets
  rw [hpiece] at hoctets ⊢
  exact nextCharacter_escape hoctet hcount hoctets hchar

/-- Pieces are read one after another. -/
theorem decodeRounds_pieces {pieces : List JsString} {chars : List Char} (h : List.Forall₂ Reads pieces chars) :
    ∀ {rounds : Nat}, pieces.flatten.length ≤ rounds →
      decodeRounds rounds pieces.flatten = some (chars.flatMap codeUnits) := by
  induction h with
  | nil => intro rounds _; cases rounds <;> rfl
  | @cons piece c pieces chars hpiece _ ih =>
    intro rounds hrounds
    obtain ⟨hne, hread⟩ := hpiece
    cases piece with
    | nil => exact absurd rfl hne
    | cons u piece =>
      rw [List.flatten_cons, List.length_append, List.length_cons] at hrounds
      cases rounds with
      | zero => omega
      | succ rounds =>
        rw [List.flatten_cons, List.flatMap_cons, List.cons_append]
        unfold decodeRounds
        rw [← List.cons_append, hread]
        show (decodeRounds rounds pieces.flatten >>= _) = _
        rw [ih (by omega)]
        rfl

theorem decodeURIComponent_pieces {pieces : List JsString} {chars : List Char} (h : List.Forall₂ Reads pieces chars) :
    decodeURIComponent pieces.flatten = some (chars.flatMap codeUnits) :=
  decodeRounds_pieces h (Nat.le_refl _)

/-- What is no escape stays as it is. -/
theorem decodeURIComponent_append {plain rest text : JsString} (hplain : 37 ∉ plain) (h : decodeURIComponent (plain ++
    rest) = some text) : ∃ more, text = plain ++ more ∧ decodeURIComponent rest = some more := by
  induction plain generalizing text with
  | nil => exact ⟨text, rfl, h⟩
  | cons u plain ih =>
    obtain ⟨hu, hplain⟩ := not_or.mp (List.mem_cons.not.mp hplain)
    have hnext : nextCharacter (u :: (plain ++ rest)) = some ([u], plain ++ rest) := by
      show (if u = 37 then _ else some ([u], plain ++ rest)) = _
      rw [if_neg (fun hu' => hu hu'.symm)]
    unfold decodeURIComponent at h
    rw [List.cons_append, List.length_cons] at h
    unfold decodeRounds at h
    rw [hnext] at h
    obtain ⟨tail, htail, htext⟩ := Option.bind_eq_some_iff.mp (show (decodeRounds _ _ >>= _) = _ from h)
    obtain ⟨more, hmore, hrest⟩ := ih hplain htail
    exact ⟨more, by rw [← Option.some.inj htext, hmore]; rfl, hrest⟩

end RabiRoute.UriComponent
