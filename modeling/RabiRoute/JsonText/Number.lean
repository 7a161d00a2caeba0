import RabiRoute.JsonText.Data

/-!
# The text of a number

`Number::toString` chooses the fewest digits `s` and a place `n` of the point such that the number is the one nearest
to `0.s * 10 ^ n`, and then one of four forms.  The forms can be told apart: the digits and the point come back.
-/

namespace RabiRoute.JsonText

open Data (Ends charOf charOf_unit isDigit_of_mem_toDigits isDigit_of_mem_decimal decimal_ne_nil decimal_inj)

/-- The digits of a number that is not zero, and the place of its point before or behind them. -/
structure Digits where
  negative : Bool
  significand : Nat
  point : Int
  /-- Fewer digits would do otherwise. -/
  trimmed : significand % 10 ≠ 0

inductive Numeral where
  | zero
  | digits (d : Digits)

/-! ## The four forms -/

/-- What stands before the point and behind it, and the exponent. -/
structure Parts where
  whole : JsString
  fraction : JsString
  exponent : Option Int

def exponentText (e : Int) : JsString := (if e < 0 then 45 else 43) :: decimal e.natAbs

def Parts.text (p : Parts) : JsString :=
  p.whole ++ ((if p.fraction = [] then [] else 46 :: p.fraction) ++
    p.exponent.elim [] fun e ↦ 101 :: exponentText e)

def Digits.parts (d : Digits) : Parts :=
  let s := decimal d.significand
  let n := d.point
  if s.length ≤ n ∧ n ≤ 21 then ⟨s ++ List.replicate (n - s.length).toNat 48, [], none⟩
  else if 0 < n ∧ n ≤ 21 then ⟨s.take n.toNat, s.drop n.toNat, none⟩
  else if -6 < n ∧ n ≤ 0 then ⟨[48], List.replicate (-n).toNat 48 ++ s, none⟩
  else ⟨s.take 1, s.drop 1, some (n - 1)⟩

/-- `Number::toString` -/
def Numeral.text : Numeral → JsString
  | .zero => [48]
  | .digits d => if d.negative then 45 :: d.parts.text else d.parts.text

/-! ## The parts come back -/

/-- Digits everywhere, and at least one before the point. -/
structure Parts.Plain (p : Parts) : Prop where
  whole : ∀ u ∈ p.whole, isDigit u = true
  fraction : ∀ u ∈ p.fraction, isDigit u = true
  nonempty : p.whole ≠ []

theorem takeWhile_digits {text rest : JsString} (h : ∀ u ∈ text, isDigit u = true) (hends : Ends rest) :
    (text ++ rest).takeWhile isDigit = text := by
  rw [List.takeWhile_append_of_pos h]
  cases rest with
  | nil => rw [List.takeWhile_nil, List.append_nil]
  | cons u rest => rw [List.takeWhile_cons_of_neg (by rw [hends u rfl]; exact Bool.false_ne_true), List.append_nil]

theorem digits_span {text text' rest rest' : JsString} (h : ∀ u ∈ text, isDigit u = true)
    (h' : ∀ u ∈ text', isDigit u = true) (hends : Ends rest) (hends' : Ends rest')
    (heq : text ++ rest = text' ++ rest') : text = text' ∧ rest = rest' := by
  have htext : text = text' := by rw [← takeWhile_digits h hends, heq, takeWhile_digits h' hends']
  rw [htext] at heq
  exact ⟨htext, List.append_cancel_left heq⟩

theorem exponentText_inj {e e' : Int} (h : exponentText e = exponentText e') : e = e' := by
  unfold exponentText at h
  obtain ⟨hsign, habs⟩ := List.cons.inj h
  have habs := decimal_inj habs
  by_cases he : e < 0
  · by_cases he' : e' < 0
    · omega
    · rw [if_pos he, if_neg he'] at hsign
      exact absurd hsign (by decide)
  · by_cases he' : e' < 0
    · rw [if_neg he, if_pos he'] at hsign
      exact absurd hsign (by decide)
    · omega

def exponentPart (exponent : Option Int) : JsString := exponent.elim [] fun e ↦ 101 :: exponentText e

theorem exponentPart_inj {x x' : Option Int} (h : exponentPart x = exponentPart x') : x = x' := by
  cases x with
  | none =>
    cases x' with
    | none => rfl
    | some e' => cases h
  | some e =>
    cases x' with
    | none => cases h
    | some e' => exact congrArg some (exponentText_inj (List.cons.inj h).2)

theorem ends_exponentPart (x : Option Int) : Ends (exponentPart x) := by
  intro u hu
  cases x with
  | none => cases hu
  | some e =>
    cases hu
    decide

theorem ends_fraction (text : JsString) (x : Option Int) :
    Ends ((if text = [] then [] else 46 :: text) ++ exponentPart x) := by
  by_cases h : text = []
  · rw [if_pos h, List.nil_append]
    exact ends_exponentPart x
  · rw [if_neg h]
    intro u hu
    cases hu
    decide

theorem fraction_ne {text : JsString} {x x' : Option Int} : exponentPart x ≠ 46 :: text ++ exponentPart x' := by
  intro h
  cases x with
  | none => cases h
  | some e => exact absurd (List.cons.inj h).1 (by decide)

theorem Parts.text_inj {p p' : Parts} (hp : p.Plain) (hp' : p'.Plain) (h : p.text = p'.text) : p = p' := by
  obtain ⟨hwhole, hrest⟩ := digits_span hp.whole hp'.whole (ends_fraction _ _) (ends_fraction _ _) h
  have hboth : p.fraction = p'.fraction ∧ exponentPart p.exponent = exponentPart p'.exponent := by
    by_cases hf : p.fraction = []
    · rw [if_pos hf, List.nil_append] at hrest
      by_cases hf' : p'.fraction = []
      · rw [if_pos hf', List.nil_append] at hrest
        exact ⟨hf.trans hf'.symm, hrest⟩
      · rw [if_neg hf'] at hrest
        exact absurd hrest fraction_ne
    · rw [if_neg hf] at hrest
      by_cases hf' : p'.fraction = []
      · rw [if_pos hf', List.nil_append] at hrest
        exact absurd hrest.symm fraction_ne
      · rw [if_neg hf'] at hrest
        exact digits_span hp.fraction hp'.fraction (ends_exponentPart _) (ends_exponentPart _) (List.cons.inj hrest).2
  cases p
  cases p'
  simp only [Parts.mk.injEq]
  exact ⟨hwhole, hboth.1, exponentPart_inj hboth.2⟩

/-! ## The digits come back -/

/-- The number that digits are read as. -/
def natOf (text : JsString) : Nat := Nat.ofDigitChars 10 (text.map charOf) 0

theorem natOf_decimal (n : Nat) : natOf (decimal n) = n := by
  unfold natOf decimal
  have hback : ((Nat.toDigits 10 n).map unit).map charOf = Nat.toDigits 10 n := by
    rw [List.map_map]
    conv_rhs => rw [← List.map_id (Nat.toDigits 10 n)]
    exact List.map_congr_left fun c hc => charOf_unit (isDigit_of_mem_toDigits hc)
  rw [hback]
  exact Nat.ofDigitChars_ten_toDigits

theorem map_zeros (m : Nat) : (List.replicate m (48 : UInt16)).map charOf = List.replicate m '0' := by
  rw [List.map_replicate]
  rfl

theorem natOf_append_zeros (text : JsString) (m : Nat) : natOf (text ++ List.replicate m 48) = natOf text * 10 ^ m := by
  unfold natOf
  rw [List.map_append, map_zeros, Nat.ofDigitChars_append, Nat.ofDigitChars_replicate_zero, Nat.mul_comm]

theorem natOf_zeros_append (text : JsString) (m : Nat) : natOf (48 :: (List.replicate m 48 ++ text)) = natOf text := by
  have hzeros : 48 :: (List.replicate m 48 ++ text) = List.replicate (m + 1) 48 ++ text := by
    rw [List.replicate_succ, List.cons_append]
  unfold natOf
  rw [hzeros, List.map_append, map_zeros, Nat.ofDigitChars_append, Nat.ofDigitChars_replicate_zero, Nat.mul_zero]

/-- Where the point stands behind all digits that are written. -/
def Parts.scale (p : Parts) : Int := p.exponent.getD 0 - p.fraction.length

def Digits.scale (d : Digits) : Int := d.point - (decimal d.significand).length

/-- All digits that are written are the significand and zeros behind it. -/
theorem Digits.parts_value (d : Digits) :
    ∃ m : Nat, natOf (d.parts.whole ++ d.parts.fraction) = d.significand * 10 ^ m ∧ m + d.parts.scale = d.scale := by
  have hnone : (Option.none : Option Int).getD 0 = 0 := rfl
  unfold Digits.parts Parts.scale Digits.scale
  dsimp only
  split
  case isTrue h =>
    refine ⟨(d.point - (decimal d.significand).length).toNat, ?_, ?_⟩
    · rw [List.append_nil, natOf_append_zeros, natOf_decimal]
    · rw [hnone, List.length_nil]
      omega
  case isFalse h =>
    split
    case isTrue h' =>
      refine ⟨0, ?_, ?_⟩
      · rw [List.take_append_drop, natOf_decimal, Nat.pow_zero, Nat.mul_one]
      · rw [hnone, List.length_drop]
        omega
    case isFalse =>
      split
      case isTrue h'' =>
        refine ⟨0, ?_, ?_⟩
        · rw [List.singleton_append, natOf_zeros_append, natOf_decimal, Nat.pow_zero, Nat.mul_one]
        · rw [hnone, List.length_append, List.length_replicate]
          omega
      case isFalse =>
        have hpos : 0 < (decimal d.significand).length := List.length_pos_iff.mpr (decimal_ne_nil _)
        refine ⟨0, ?_, ?_⟩
        · rw [List.take_append_drop, natOf_decimal, Nat.pow_zero, Nat.mul_one]
        · rw [List.length_drop, Option.getD_some]
          omega

theorem Digits.plain_parts (d : Digits) : d.parts.Plain := by
  have hdigit : ∀ u ∈ decimal d.significand, isDigit u = true := fun u hu => isDigit_of_mem_decimal hu
  have hzero : ∀ m : Nat, ∀ u ∈ List.replicate m (48 : UInt16), isDigit u = true := by
    intro m u hu
    rw [List.eq_of_mem_replicate hu]
    decide
  have hne := decimal_ne_nil d.significand
  have htake : ∀ m : Nat, 0 < m → (decimal d.significand).take m ≠ [] := by
    intro m hm h
    rcases List.take_eq_nil_iff.mp h with h | h
    · omega
    · exact hne h
  unfold Digits.parts
  dsimp only
  split
  · refine ⟨fun u hu => ?_, fun u hu => absurd hu List.not_mem_nil, List.append_ne_nil_of_left_ne_nil hne _⟩
    exact (List.mem_append.mp hu).elim (hdigit u) (hzero _ u)
  · split
    case isTrue h =>
      exact ⟨fun u hu => hdigit u (List.mem_of_mem_take hu), fun u hu => hdigit u (List.mem_of_mem_drop hu),
        htake _ (by omega)⟩
    case isFalse =>
      split
      · refine ⟨fun u hu => ?_, fun u hu => (List.mem_append.mp hu).elim (hzero _ u) (hdigit u), List.cons_ne_nil _ _⟩
        rw [List.mem_singleton.mp hu]
        decide
      · exact ⟨fun u hu => hdigit u (List.mem_of_mem_take hu), fun u hu => hdigit u (List.mem_of_mem_drop hu),
          htake 1 (by decide)⟩

theorem trimmed_inj {s s' m m' : Nat} (hs : s % 10 ≠ 0) (hs' : s' % 10 ≠ 0) (h : s * 10 ^ m = s' * 10 ^ m') :
    s = s' ∧ m = m' := by
  induction m generalizing m' with
  | zero =>
    cases m' with
    | zero =>
      rw [Nat.pow_zero, Nat.mul_one, Nat.mul_one] at h
      exact ⟨h, rfl⟩
    | succ m' =>
      rw [Nat.pow_zero, Nat.mul_one, Nat.pow_succ, ← Nat.mul_assoc] at h
      omega
  | succ m ih =>
    rw [Nat.pow_succ, ← Nat.mul_assoc] at h
    cases m' with
    | zero =>
      rw [Nat.pow_zero, Nat.mul_one] at h
      omega
    | succ m' =>
      rw [Nat.pow_succ, ← Nat.mul_assoc] at h
      have hrest := ih (Nat.eq_of_mul_eq_mul_right (by decide) h)
      exact ⟨hrest.1, congrArg Nat.succ hrest.2⟩

theorem Digits.parts_inj {d d' : Digits} (hsign : d.negative = d'.negative) (h : d.parts = d'.parts) : d = d' := by
  obtain ⟨m, hvalue, hscale⟩ := d.parts_value
  obtain ⟨m', hvalue', hscale'⟩ := d'.parts_value
  rw [← h] at hvalue' hscale'
  obtain ⟨hs, hm⟩ := trimmed_inj d.trimmed d'.trimmed (hvalue.symm.trans hvalue')
  have hpoint : d.point = d'.point := by
    unfold Digits.scale at hscale hscale'
    rw [hs] at hscale
    omega
  cases d
  cases d'
  simp only [Digits.mk.injEq]
  exact ⟨hsign, hs, hpoint⟩

/-! ## Different numbers have different texts -/

theorem Parts.text_head {p : Parts} (h : p.Plain) : ∃ u rest, p.text = u :: rest ∧ isDigit u = true := by
  cases hw : p.whole with
  | nil => exact absurd hw h.nonempty
  | cons u rest =>
    have hu : isDigit u = true := h.whole u (by rw [hw]; exact List.mem_cons_self)
    unfold Parts.text
    rw [hw, List.cons_append]
    exact ⟨u, _, rfl, hu⟩

theorem Parts.text_ne_minus {p : Parts} (h : p.Plain) (text : JsString) : p.text ≠ 45 :: text := by
  intro heq
  obtain ⟨u, rest, hu, hdigit⟩ := Parts.text_head h
  rw [hu] at heq
  rw [(List.cons.inj heq).1] at hdigit
  exact absurd hdigit (by decide)

theorem Digits.text_ne_zero (d : Digits) : d.parts.text ≠ [48] := by
  intro h
  have hzero : Parts.Plain ⟨[48], [], none⟩ :=
    ⟨fun u hu => by rw [List.mem_singleton.mp hu]; decide, fun u hu => absurd hu List.not_mem_nil, List.cons_ne_nil _ _⟩
  have hparts : d.parts = ⟨[48], [], none⟩ := Parts.text_inj d.plain_parts hzero h
  obtain ⟨m, hvalue, -⟩ := d.parts_value
  rw [hparts] at hvalue
  have hprod : d.significand * 10 ^ m = 0 := hvalue.symm.trans (by decide)
  have hs : d.significand = 0 := (Nat.mul_eq_zero.mp hprod).resolve_right (Nat.ne_of_gt (Nat.pow_pos (by decide)))
  exact d.trimmed (by rw [hs])

theorem text_negative {d : Digits} (h : d.negative = true) : Numeral.text (.digits d) = 45 :: d.parts.text := if_pos h

theorem text_positive {d : Digits} (h : d.negative = false) : Numeral.text (.digits d) = d.parts.text :=
  if_neg (by rw [h]; exact Bool.false_ne_true)

theorem Numeral.text_inj {x x' : Numeral} (h : x.text = x'.text) : x = x' := by
  have hnonzero : ∀ d : Digits, Numeral.text (.digits d) ≠ [48] := by
    intro d hd
    cases hs : d.negative with
    | true =>
      rw [text_negative hs] at hd
      exact absurd (List.cons.inj hd).1 (by decide)
    | false =>
      rw [text_positive hs] at hd
      exact d.text_ne_zero hd
  cases x with
  | zero =>
    cases x' with
    | zero => rfl
    | digits d' => exact absurd h.symm (hnonzero d')
  | digits d =>
    cases x' with
    | zero => exact absurd h (hnonzero d)
    | digits d' =>
      have hback : d.parts.text = d'.parts.text → d.negative = d'.negative →
          Numeral.digits d = Numeral.digits d' :=
        fun htext hsign =>
          congrArg _ (Digits.parts_inj hsign (Parts.text_inj d.plain_parts d'.plain_parts htext))
      cases hs : d.negative with
      | true =>
        cases hs' : d'.negative with
        | true =>
          rw [text_negative hs, text_negative hs'] at h
          exact hback (List.cons.inj h).2 (hs.trans hs'.symm)
        | false =>
          rw [text_negative hs, text_positive hs'] at h
          exact absurd h.symm (Parts.text_ne_minus d'.plain_parts _)
      | false =>
        cases hs' : d'.negative with
        | true =>
          rw [text_positive hs, text_negative hs'] at h
          exact absurd h (Parts.text_ne_minus d.plain_parts _)
        | false =>
          rw [text_positive hs, text_positive hs'] at h
          exact hback h (hs.trans hs'.symm)

/-! ## The alphabet -/

/-- The code units of a number. -/
def isNumeric (u : UInt16) : Bool := isDigit u || u == 43 || u == 45 || u == 46 || u == 101

theorem isNumeric_of_isDigit {u : UInt16} (h : isDigit u = true) : isNumeric u = true := by
  unfold isNumeric
  rw [h]
  rfl

theorem isNumeric_exponentPart (x : Option Int) : ∀ u ∈ exponentPart x, isNumeric u = true := by
  intro u hu
  cases x with
  | none => cases hu
  | some e =>
    rcases List.mem_cons.mp hu with rfl | hu
    · decide
    · rcases List.mem_cons.mp hu with rfl | hu
      · by_cases he : e < 0
        · rw [if_pos he]
          decide
        · rw [if_neg he]
          decide
      · exact isNumeric_of_isDigit (isDigit_of_mem_decimal hu)

theorem Parts.text_numeric {p : Parts} (h : p.Plain) : ∀ u ∈ p.text, isNumeric u = true := by
  intro u hu
  rcases List.mem_append.mp hu with hwhole | hrest
  · exact isNumeric_of_isDigit (h.whole u hwhole)
  · rcases List.mem_append.mp hrest with hfraction | hexponent
    · by_cases hf : p.fraction = []
      · rw [if_pos hf] at hfraction
        cases hfraction
      · rw [if_neg hf] at hfraction
        rcases List.mem_cons.mp hfraction with rfl | hu
        · decide
        · exact isNumeric_of_isDigit (h.fraction u hu)
    · exact isNumeric_exponentPart p.exponent u hexponent

theorem Numeral.text_numeric (x : Numeral) : ∀ u ∈ x.text, isNumeric u = true := by
  cases x with
  | zero =>
    intro u hu
    rw [List.mem_singleton.mp hu]
    decide
  | digits d =>
    cases hs : d.negative with
    | true =>
      rw [text_negative hs]
      intro u hu
      rcases List.mem_cons.mp hu with rfl | hu
      · decide
      · exact Parts.text_numeric d.plain_parts u hu
    | false =>
      rw [text_positive hs]
      exact Parts.text_numeric d.plain_parts

theorem Numeral.text_ne_nil (x : Numeral) : x.text ≠ [] := by
  cases x with
  | zero => exact List.cons_ne_nil _ _
  | digits d =>
    obtain ⟨u, rest, htext, -⟩ := Parts.text_head d.plain_parts
    cases hs : d.negative with
    | true =>
      rw [text_negative hs]
      exact List.cons_ne_nil _ _
    | false =>
      rw [text_positive hs, htext]
      exact List.cons_ne_nil _ _

/-- A type of numbers up to `===`: the digits that `Number::toString` chooses are those of the number. -/
structure NumberFormat (ν : Type) where
  numeral : ν → Numeral
  value : Numeral → ν
  value_numeral : ∀ x, value (numeral x) = x

/-- `JSON.stringify` of a number. -/
def NumberFormat.text {ν : Type} (format : NumberFormat ν) (x : ν) : JsString := (format.numeral x).text

theorem NumberFormat.text_numeric {ν : Type} (format : NumberFormat ν) (x : ν) :
    ∀ u ∈ format.text x, isNumeric u = true :=
  Numeral.text_numeric _

theorem NumberFormat.text_inj {ν : Type} {format : NumberFormat ν} {x x' : ν} (h : format.text x = format.text x') :
    x = x' := by
  rw [← format.value_numeral x, ← format.value_numeral x', Numeral.text_inj h]

example : Numeral.text (.digits ⟨true, 123, 2, by decide⟩) = js "-12.3" := by decide

example : Numeral.text (.digits ⟨false, 15, 22, by decide⟩) = js "1.5e+21" := by decide

end RabiRoute.JsonText
