import RabiRoute.Shared.JsString

/-!
# `JSON.parse`

The reader works on code units.  It keeps of a number only that there is one, and the members of an
object as they are written; a lookup takes the last member of a name, as an object of JavaScript does.
-/

namespace RabiRoute.JsonText

inductive Value where
  | null
  | bool (b : Bool)
  | number
  | string (text : JsString)
  | array (items : List Value)
  | object (members : List (JsString × Value))

/-- A property of a value; only objects have any of the names that the sources ask for. -/
def Value.get (name : JsString) : Value → Option Value
  | .object members => (members.reverse.find? fun m ↦ decide (m.1 = name)).map Prod.snd
  | _ => none

/-- The text of a value, where `typeof` is `"string"`. -/
def Value.text : Value → Option JsString
  | .string text => some text
  | _ => none

/-! ## Tokens -/

def isBlank (u : UInt16) : Bool := u == 32 || u == 9 || u == 10 || u == 13

def skipBlanks (text : JsString) : JsString := text.dropWhile isBlank

def expect (u : UInt16) : JsString → Option JsString
  | [] => none
  | v :: rest => if v = u then some rest else none

def isDigit (u : UInt16) : Bool := 48 ≤ u && u ≤ 57

/-- One or more digits. -/
def digits : JsString → Option JsString
  | [] => none
  | u :: rest => if isDigit u then some (rest.dropWhile isDigit) else none

/-- What follows a number; `none` where there is none. -/
def number (text : JsString) : Option JsString := do
  let text := (expect 45 text).getD text
  let text ← match expect 48 text with
    | some rest => some rest
    | none => digits text
  let text ← match expect 46 text with
    | some rest => digits rest
    | none => some text
  match (expect 101 text).orElse fun _ ↦ expect 69 text with
    | some rest => digits (((expect 43 rest).orElse fun _ ↦ expect 45 rest).getD rest)
    | none => some text

def hexValue (u : UInt16) : Option Nat :=
  if 48 ≤ u ∧ u ≤ 57 then some (u.toNat - 48)
  else if 97 ≤ u ∧ u ≤ 102 then some (u.toNat - 87)
  else if 65 ≤ u ∧ u ≤ 70 then some (u.toNat - 55)
  else none

def hexUnit (a b c d : UInt16) : Option UInt16 := do
  let a ← hexValue a
  let b ← hexValue b
  let c ← hexValue c
  let d ← hexValue d
  return UInt16.ofNat (a * 4096 + b * 256 + c * 16 + d)

/-- The code unit that a backslash and this code unit stand for. -/
def escapedUnit (u : UInt16) : Option UInt16 :=
  if u = 34 ∨ u = 92 ∨ u = 47 then some u
  else if u = 98 then some 8
  else if u = 102 then some 12
  else if u = 110 then some 10
  else if u = 114 then some 13
  else if u = 116 then some 9
  else none

/-- Put a code unit in front of a string that was read. -/
def push (u : Option UInt16) (read : Option (JsString × JsString)) : Option (JsString × JsString) :=
  match u, read with
  | some u, some (text, rest) => some (u :: text, rest)
  | _, _ => none

/-- What follows the opening quote of a string. -/
def stringBody : JsString → Option (JsString × JsString)
  | [] => none
  | u :: rest =>
    if u = 34 then some ([], rest)
    else if u = 92 then
      match rest with
      | [] => none
      | e :: rest =>
        if e = 117 then
          match rest with
          | a :: b :: c :: d :: rest => push (hexUnit a b c d) (stringBody rest)
          | _ => none
        else push (escapedUnit e) (stringBody rest)
    else if u < 32 then none
    else push (some u) (stringBody rest)

/-! ## Values -/

-- each call spends one unit of the bound and reads at least one code unit
mutual

def value : Nat → JsString → Option (Value × JsString)
  | 0, _ => none
  | bound + 1, text =>
    match skipBlanks text with
    | [] => none
    | u :: rest =>
      if u = 34 then (stringBody rest).map fun read ↦ (.string read.1, read.2)
      else if u = 123 then
        match expect 125 (skipBlanks rest) with
        | some rest => some (.object [], rest)
        | none => (members bound rest).map fun read ↦ (.object read.1, read.2)
      else if u = 91 then
        match expect 93 (skipBlanks rest) with
        | some rest => some (.array [], rest)
        | none => (items bound rest).map fun read ↦ (.array read.1, read.2)
      else if js "true" <+: u :: rest then some (.bool true, rest.drop 3)
      else if js "false" <+: u :: rest then some (.bool false, rest.drop 4)
      else if js "null" <+: u :: rest then some (.null, rest.drop 3)
      else (number (u :: rest)).map fun rest ↦ (.number, rest)

def members : Nat → JsString → Option (List (JsString × Value) × JsString)
  | 0, _ => none
  | bound + 1, text =>
    match (expect 34 (skipBlanks text)).bind stringBody with
    | none => none
    | some (name, rest) =>
      match (expect 58 (skipBlanks rest)).bind (value bound) with
      | none => none
      | some (v, rest) =>
        match expect 44 (skipBlanks rest) with
        | some rest => (members bound rest).map fun read ↦ ((name, v) :: read.1, read.2)
        | none => (expect 125 (skipBlanks rest)).map fun rest ↦ ([(name, v)], rest)

def items : Nat → JsString → Option (List Value × JsString)
  | 0, _ => none
  | bound + 1, text =>
    match value bound text with
    | none => none
    | some (v, rest) =>
      match expect 44 (skipBlanks rest) with
      | some rest => (items bound rest).map fun read ↦ (v :: read.1, read.2)
      | none => (expect 93 (skipBlanks rest)).map fun rest ↦ ([v], rest)

end

/-- `JSON.parse`; `none` is a `SyntaxError`. -/
def parse (text : JsString) : Option Value :=
  match value (text.length + 1) text with
  | some (v, rest) => if (skipBlanks rest).isEmpty then some v else none
  | none => none

end RabiRoute.JsonText
