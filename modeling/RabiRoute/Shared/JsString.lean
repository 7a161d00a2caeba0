import Mathlib.Algebra.BigOperators.Group.Finset.Piecewise
import Mathlib.Algebra.Order.BigOperators.Group.Finset
import Mathlib.Algebra.Order.Field.Rat
import Mathlib.Data.List.Sort
import Mathlib.Data.List.TakeWhile
import Mathlib.Tactic.Common

/-!
# JavaScript strings

A string is its list of UTF-16 code units, which is what `length`, `slice` and `trim` count.
-/

namespace RabiRoute

abbrev JsString := List UInt16

instance : LawfulBEq JsString := inferInstance

/-- The code units of a character. -/
def codeUnits (c : Char) : JsString :=
  if c.toNat < 0x10000 then [c.toNat.toUInt16]
  else [(0xD800 + (c.toNat - 0x10000) / 0x400).toUInt16, (0xDC00 + (c.toNat - 0x10000) % 0x400).toUInt16]

def js (text : String) : JsString := text.toList.flatMap codeUnits

namespace JsString

/-- The code units that `trim` removes: white space and line terminators. -/
def isWhitespace (u : UInt16) : Bool :=
  (9 ≤ u && u ≤ 13) || u == 0x20 || u == 0xA0 || u == 0x1680 || (0x2000 ≤ u && u ≤ 0x200A) ||
    u == 0x2028 || u == 0x2029 || u == 0x202F || u == 0x205F || u == 0x3000 || u == 0xFEFF

def trimStart (s : JsString) : JsString := s.dropWhile isWhitespace

def trimEnd (s : JsString) : JsString := (s.reverse.dropWhile isWhitespace).reverse

def trim (s : JsString) : JsString := trimEnd (trimStart s)

/-- The lower case of a code unit of ASCII. -/
def lower (u : UInt16) : UInt16 := if 65 ≤ u ∧ u ≤ 90 then u + 32 else u

/-- A property of every code unit of a fixed text is decided over the text, not over all code units. -/
theorem forall_of_all {p : UInt16 → Prop} [DecidablePred p] {text : JsString}
    (h : text.all (fun u => decide (p u)) = true) : ∀ u ∈ text, p u :=
  fun u hu => of_decide_eq_true (List.all_eq_true.mp h u hu)

end JsString

end RabiRoute
