import Mathlib.Data.List.Basic
import Mathlib.Data.Nat.Bitwise
import Mathlib.Tactic.Common

/-!
# A filter of bits

Keys set bits in a list of bytes; a key all of whose bits are set may be one of them, any other is not.
-/

namespace Collections.BitFilter

/-- `bits[position >> 3] |= 1 << (position & 7)` -/
def setBit (bits : List Nat) (position : Nat) : List Nat := bits.modify (position / 8) (· ||| 1 <<< (position % 8))

def hasBit (bits : List Nat) (position : Nat) : Bool := (bits.getD (position / 8) 0).testBit (position % 8)

def setBits (bits positions : List Nat) : List Nat := positions.foldl setBit bits

variable {bits positions : List Nat} {position other : Nat}

@[simp] theorem length_setBit : (setBit bits position).length = bits.length := by
  unfold setBit
  exact List.length_modify ..

@[simp] theorem length_setBits : (setBits bits positions).length = bits.length := by
  induction positions generalizing bits with
  | nil => rfl
  | cons position positions ih =>
    show (setBits (setBit bits position) positions).length = bits.length
    rw [ih, length_setBit]

theorem hasBit_setBit (h : position < 8 * bits.length) : hasBit (setBit bits position) position = true := by
  have hlt : position / 8 < bits.length := by omega
  unfold hasBit setBit
  rw [List.getD_eq_getElem?_getD, List.getElem?_modify_eq, List.getElem?_eq_getElem hlt]
  simp [Nat.testBit_or, Nat.testBit_shiftLeft]

theorem hasBit_of_hasBit (h : hasBit bits other = true) : hasBit (setBit bits position) other = true := by
  unfold hasBit setBit at *
  rw [List.getD_eq_getElem?_getD] at *
  rw [List.getElem?_modify]
  split
  · cases hbyte : bits[other / 8]? with
    | none =>
      rw [hbyte] at h
      simp at h
    | some byte =>
      rw [hbyte] at h
      show (byte ||| 1 <<< (position % 8)).testBit (other % 8) = true
      change byte.testBit (other % 8) = true at h
      rw [Nat.testBit_or, h]
      rfl
  · simpa using h

theorem hasBit_setBits_of_hasBit (h : hasBit bits other = true) : hasBit (setBits bits positions) other = true := by
  induction positions generalizing bits with
  | nil => exact h
  | cons position positions ih => exact ih (hasBit_of_hasBit h)

theorem hasBit_setBits (hmem : position ∈ positions) (h : position < 8 * bits.length) :
    hasBit (setBits bits positions) position = true := by
  induction positions generalizing bits with
  | nil => cases hmem
  | cons first positions ih =>
    show hasBit (setBits (setBit bits first) positions) position = true
    cases List.mem_cons.mp hmem with
    | inl heq =>
      rw [heq] at h ⊢
      exact hasBit_setBits_of_hasBit (hasBit_setBit h)
    | inr hin => exact ih hin (by rw [length_setBit]; exact h)

end Collections.BitFilter
