import RabiRoute.JsonText.Document

/-!
# `JSON.stringify` of plain data

Data of flags, natural numbers, strings, lists and records, and the text that `JSON.stringify` makes of it.
-/

namespace RabiRoute.JsonText

inductive Data where
  | flag (b : Bool)
  | number (n : Nat)
  | string (text : JsString)
  | list (items : List Data)
  | record (fields : List (JsString × Data))

/-- A value that `JSON.parse` can answer.  Zero has two forms. -/
inductive Json where
  | null
  | bool (b : Bool)
  | number (value : ℚ)
  | minusZero
  | string (text : JsString)
  | array (items : List Json)
  | object (fields : List (JsString × Json))

def unit (c : Char) : UInt16 := c.toNat.toUInt16

def decimal (n : Nat) : JsString := (Nat.toDigits 10 n).map unit

namespace Data

mutual

/-- `JSON.stringify(data)` -/
def write : Data → JsString
  | .flag true => js "true"
  | .flag false => js "false"
  | .number n => decimal n
  | .string text => quote text
  | .list [] => [91, 93]
  | .list (item :: items) => 91 :: (item.write ++ writeItems items)
  | .record [] => [123, 125]
  | .record (field :: fields) => 123 :: (quote field.1 ++ 58 :: (field.2.write ++ writeFields fields))

/-- The items after the first one. -/
def writeItems : List Data → JsString
  | [] => [93]
  | item :: items => 44 :: (item.write ++ writeItems items)

/-- The fields after the first one. -/
def writeFields : List (JsString × Data) → JsString
  | [] => [125]
  | field :: fields => 44 :: (quote field.1 ++ 58 :: (field.2.write ++ writeFields fields))

end

mutual

/-- The data as `JSON.parse` answers it. -/
def json : Data → Json
  | .flag b => .bool b
  | .number n => .number n
  | .string text => .string text
  | .list items => .array (jsonItems items)
  | .record fields => .object (jsonFields fields)

def jsonItems : List Data → List Json
  | [] => []
  | item :: items => item.json :: jsonItems items

def jsonFields : List (JsString × Data) → List (JsString × Json)
  | [] => []
  | field :: fields => (field.1, field.2.json) :: jsonFields fields

end

/-! ## Numbers and strings -/

def charOf (u : UInt16) : Char := Char.ofNat u.toNat

theorem digit_range {c : Char} (h : c.isDigit = true) : 48 ≤ c.toNat ∧ c.toNat ≤ 57 := by
  unfold Char.isDigit at h
  simp only [Bool.and_eq_true, decide_eq_true_eq, UInt32.le_iff_toNat_le] at h
  exact h

theorem toNat_unit {c : Char} (h : c.isDigit = true) : (unit c).toNat = c.toNat := by
  have hrange := digit_range h
  show c.toNat % 65536 = c.toNat
  omega

theorem charOf_unit {c : Char} (h : c.isDigit = true) : charOf (unit c) = c := by
  unfold charOf
  rw [toNat_unit h, Char.ofNat_toNat]

theorem isDigit_unit {c : Char} (h : c.isDigit = true) : isDigit (unit c) = true := by
  have hrange := digit_range h
  unfold isDigit
  simp only [Bool.and_eq_true, decide_eq_true_eq, UInt16.le_iff_toNat_le, toNat_unit h]
  exact hrange

theorem isDigit_of_mem_toDigits {n : Nat} {c : Char} (h : c ∈ Nat.toDigits 10 n) : c.isDigit = true :=
  Nat.isDigit_of_mem_toDigits (by decide) (by decide) h

theorem isDigit_of_mem_decimal {n : Nat} {u : UInt16} (h : u ∈ decimal n) : isDigit u = true := by
  obtain ⟨c, hc, heq⟩ := List.mem_map.mp h
  exact heq ▸ isDigit_unit (isDigit_of_mem_toDigits hc)

theorem decimal_ne_nil (n : Nat) : decimal n ≠ [] := by
  unfold decimal
  rw [ne_eq, List.map_eq_nil_iff]
  exact Nat.toDigits_ne_nil

theorem decimal_inj {n n' : Nat} (h : decimal n = decimal n') : n = n' := by
  have hback : ∀ m, (decimal m).map charOf = Nat.toDigits 10 m := by
    intro m
    unfold decimal
    rw [List.map_map]
    conv_rhs => rw [← List.map_id (Nat.toDigits 10 m)]
    exact List.map_congr_left fun c hc => charOf_unit (isDigit_of_mem_toDigits hc)
  rw [← Nat.ofDigitChars_ten_toDigits (n := n), ← Nat.ofDigitChars_ten_toDigits (n := n'), ← hback, ← hback, h]

/-- What may follow a number. -/
def Ends (rest : JsString) : Prop := ∀ u ∈ rest.head?, isDigit u = false

theorem quote_append {text text' rest rest' : JsString} (h : quote text ++ rest = quote text' ++ rest') :
    text = text' ∧ rest = rest' := by
  have hread := stringBody_quote text rest
  rw [h, stringBody_quote] at hread
  have hpair := Option.some.inj hread
  exact ⟨(congrArg Prod.fst hpair).symm, (congrArg Prod.snd hpair).symm⟩

/-! ## The canonical text -/

def sortFields (fields : List (JsString × Data)) : List (JsString × Data) :=
  fields.insertionSort fun field field' ↦ field.1 ≤ field'.1

mutual

/-- The fields of each record in the order of their names. -/
def sorted : Data → Data
  | .list items => .list (sortedItems items)
  | .record fields => .record (sortFields (sortedFields fields))
  | .flag b => .flag b
  | .number n => .number n
  | .string text => .string text

def sortedItems : List Data → List Data
  | [] => []
  | item :: items => item.sorted :: sortedItems items

def sortedFields : List (JsString × Data) → List (JsString × Data)
  | [] => []
  | field :: fields => (field.1, field.2.sorted) :: sortedFields fields

end

/-- `canonical(data)` -/
def canonical (data : Data) : JsString := data.sorted.write

end Data

end RabiRoute.JsonText
