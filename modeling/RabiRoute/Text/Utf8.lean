import Mathlib.Algebra.Group.Nat.Defs
import Mathlib.Tactic.Common

/-!
# Decoding UTF-8

`decode` reads bytes as a decoder does that never fails: a sequence that is cut short, or a byte that starts none,
becomes U+FFFD.  A line feed is read as itself wherever it stands, so bytes can be decoded line by line.
-/

namespace Text.Utf8

/-- A sequence that has begun. -/
structure Partial where
  /-- The bytes that are still to come. -/
  needed : Nat
  /-- What the next byte may be. -/
  lower : Nat
  upper : Nat
  codePoint : Nat
  begun : 0 < needed
  continues : 128 ≤ lower ∧ upper < 192
  wide : 128 ≤ (codePoint * 64 + (lower - 128)) * 64 ^ (needed - 1)
  small : (codePoint + 1) * 64 ^ needed ≤ 2 ^ 21

/-- The code units of a code point. -/
def codeUnits (codePoint : Nat) : List UInt16 :=
  if codePoint < 0x10000 then [UInt16.ofNat codePoint]
  else [UInt16.ofNat (0xD800 + (codePoint - 0x10000) / 0x400), UInt16.ofNat (0xDC00 + (codePoint - 0x10000) % 0x400)]

/-- A byte between two characters. -/
def first (b : Nat) : List UInt16 × Option Partial :=
  if b < 0x80 then ([UInt16.ofNat b], none)
  else if h2 : 0xC2 ≤ b ∧ b ≤ 0xDF then
    ([], some ⟨1, 0x80, 0xBF, b - 0xC0, by omega, by omega, by omega, by omega⟩)
  else if h3 : 0xE0 ≤ b ∧ b ≤ 0xEF then
    ([], some ⟨2, if b = 0xE0 then 0xA0 else 0x80, if b = 0xED then 0x9F else 0xBF, b - 0xE0, by omega,
      by split <;> split <;> omega, by split <;> omega, by omega⟩)
  else if h4 : 0xF0 ≤ b ∧ b ≤ 0xF4 then
    ([], some ⟨3, if b = 0xF0 then 0x90 else 0x80, if b = 0xF4 then 0x8F else 0xBF, b - 0xF0, by omega,
      by split <;> split <;> omega, by split <;> omega, by omega⟩)
  else ([0xFFFD], none)

theorem Partial.wide_next (p : Partial) {b : Nat} (hb : p.lower ≤ b) (hmore : p.needed ≠ 1) :
    128 ≤ ((p.codePoint * 64 + (b - 128)) * 64 + (0x80 - 128)) * 64 ^ (p.needed - 1 - 1) := by
  have hbegun := p.begun
  obtain ⟨k, hk⟩ : ∃ k, p.needed = k + 2 := ⟨p.needed - 2, by omega⟩
  have hwide := p.wide
  rw [hk, show k + 2 - 1 = k + 1 by omega, Nat.pow_succ, Nat.mul_comm (64 ^ k), ← Nat.mul_assoc] at hwide
  rw [hk, show k + 2 - 1 - 1 = k by omega, Nat.sub_self, Nat.add_zero]
  exact Nat.le_trans hwide (Nat.mul_le_mul_right _ (by omega))

theorem Partial.small_next (p : Partial) {b : Nat} (hb : b ≤ p.upper) :
    (p.codePoint * 64 + (b - 128) + 1) * 64 ^ (p.needed - 1) ≤ 2 ^ 21 := by
  have hbegun := p.begun
  have hupper := p.continues.2
  have hsmall := p.small
  rw [show p.needed = p.needed - 1 + 1 by omega, Nat.pow_succ, Nat.mul_comm _ 64, ← Nat.mul_assoc] at hsmall
  exact Nat.le_trans (Nat.mul_le_mul_right _ (by omega)) hsmall

/-- A whole sequence is never a code point of one byte. -/
theorem Partial.wide_last (p : Partial) {b : Nat} (hb : p.lower ≤ b) (hlast : p.needed = 1) :
    128 ≤ p.codePoint * 64 + (b - 128) := by
  have hwide := p.wide
  rw [hlast, Nat.sub_self, Nat.pow_zero, Nat.mul_one] at hwide
  exact Nat.le_trans hwide (Nat.add_le_add_left (Nat.sub_le_sub_right hb 128) _)

theorem Partial.small_last (p : Partial) {b : Nat} (hb : b ≤ p.upper) (hlast : p.needed = 1) :
    p.codePoint * 64 + (b - 128) < 2 ^ 21 := by
  have hsmall := p.small_next hb
  rw [hlast, Nat.sub_self, Nat.pow_zero, Nat.mul_one] at hsmall
  exact hsmall

/-- The sequence after one of the bytes that it needs. -/
def Partial.continue (p : Partial) (b : Nat) (h : p.lower ≤ b ∧ b ≤ p.upper) : List UInt16 × Option Partial :=
  if hlast : p.needed = 1 then (codeUnits (p.codePoint * 64 + (b - 128)), none)
  else
    ([], some ⟨p.needed - 1, 0x80, 0xBF, p.codePoint * 64 + (b - 128), Nat.sub_pos_of_lt (by have := p.begun; omega),
      by omega, p.wide_next h.1 hlast, p.small_next h.2⟩)

/-- A byte: what it completes, and the sequence that it leaves. -/
def next (state : Option Partial) (b : Nat) : List UInt16 × Option Partial :=
  match state with
  | none => first b
  | some p => if h : p.lower ≤ b ∧ b ≤ p.upper then p.continue b h else (0xFFFD :: (first b).1, (first b).2)

def decodeFrom (state : Option Partial) : List UInt8 → List UInt16
  | [] => if state.isSome then [0xFFFD] else []
  | b :: rest => (next state b.toNat).1 ++ decodeFrom (next state b.toNat).2 rest

/-- `toString("utf8")` -/
def decode (bytes : List UInt8) : List UInt16 := decodeFrom none bytes

example : decode [0x61, 0xC3, 0xA9, 0xF0, 0x9F, 0x98, 0x80] = [0x61, 0xE9, 0xD83D, 0xDE00] := rfl

example : decode [0xE0, 0x80, 0xC3, 0x0A, 0xED, 0xA0] = [0xFFFD, 0xFFFD, 0xFFFD, 0x0A, 0xFFFD, 0xFFFD] := rfl

/-! ## Line feeds -/

theorem next_lineFeed (state : Option Partial) : next state 10 = (decodeFrom state [] ++ [10], none) := by
  cases state with
  | none => rfl
  | some p =>
    have hlower := p.continues.1
    unfold next
    dsimp only
    rw [dif_neg (by omega)]
    rfl

/-- A line feed ends whatever has begun. -/
theorem decodeFrom_lineFeed (state : Option Partial) (a b : List UInt8) :
    decodeFrom state (a ++ 10 :: b) = decodeFrom state a ++ 10 :: decode b := by
  induction a generalizing state with
  | nil =>
    show (next state 10).1 ++ decodeFrom (next state 10).2 b = decodeFrom state [] ++ 10 :: decode b
    rw [next_lineFeed, List.append_assoc]
    rfl
  | cons u a ih => rw [List.cons_append, decodeFrom, ih, decodeFrom, List.append_assoc]

theorem decode_lineFeed (a b : List UInt8) : decode (a ++ 10 :: b) = decode a ++ 10 :: decode b :=
  decodeFrom_lineFeed none a b

theorem ofNat_ne_lineFeed {n : Nat} (hn : n ≠ 10) (hlt : n < 65536) : (10 : UInt16) ≠ UInt16.ofNat n := by
  intro heq
  have hnat : 10 = n % 65536 := congrArg UInt16.toNat heq
  omega

theorem codeUnits_ne_lineFeed {codePoint : Nat} (hwide : 128 ≤ codePoint) (hsmall : codePoint < 2 ^ 21) :
    10 ∉ codeUnits codePoint := by
  unfold codeUnits
  split
  · rename_i hlt
    intro hmem
    exact ofNat_ne_lineFeed (by omega) hlt (List.mem_singleton.mp hmem)
  · intro hmem
    rcases List.mem_cons.mp hmem with hhigh | hlow
    · exact ofNat_ne_lineFeed (by omega) (by omega) hhigh
    · exact ofNat_ne_lineFeed (by omega) (by omega) (List.mem_singleton.mp hlow)

theorem first_ne_lineFeed {b : Nat} (hb : b ≠ 10) (hbyte : b < 256) : 10 ∉ (first b).1 := by
  unfold first
  split
  · intro hmem
    exact ofNat_ne_lineFeed hb (by omega) (List.mem_singleton.mp hmem)
  · split
    · exact List.not_mem_nil
    · split
      · exact List.not_mem_nil
      · split
        · exact List.not_mem_nil
        · decide

theorem next_ne_lineFeed (state : Option Partial) {b : Nat} (hb : b ≠ 10) (hbyte : b < 256) :
    10 ∉ (next state b).1 := by
  cases state with
  | none => exact first_ne_lineFeed hb hbyte
  | some p =>
    unfold next
    dsimp only
    split
    · rename_i h
      unfold Partial.continue
      split
      · rename_i hlast
        dsimp only
        exact codeUnits_ne_lineFeed (p.wide_last h.1 hlast) (p.small_last h.2 hlast)
      · exact List.not_mem_nil
    · intro hmem
      rcases List.mem_cons.mp hmem with hmark | hfirst
      · cases hmark
      · exact first_ne_lineFeed hb hbyte hfirst

/-- Only a line feed is read as one. -/
theorem lineFeed_not_mem_decodeFrom (state : Option Partial) (bytes : List UInt8) (h : 10 ∉ bytes) :
    10 ∉ decodeFrom state bytes := by
  induction bytes generalizing state with
  | nil =>
    unfold decodeFrom
    split
    · decide
    · exact List.not_mem_nil
  | cons b rest ih =>
    have hb : b.toNat ≠ 10 := by
      intro heq
      have hfeed : b = 10 := UInt8.toNat_inj.mp heq
      exact h (hfeed ▸ List.mem_cons_self)
    rw [decodeFrom]
    intro hmem
    rcases List.mem_append.mp hmem with hnext | hrest
    · exact next_ne_lineFeed state hb b.toNat_lt hnext
    · exact ih _ (fun hin => h (List.mem_cons_of_mem _ hin)) hrest

theorem lineFeed_not_mem_decode {bytes : List UInt8} (h : 10 ∉ bytes) : 10 ∉ decode bytes :=
  lineFeed_not_mem_decodeFrom none bytes h

end Text.Utf8
