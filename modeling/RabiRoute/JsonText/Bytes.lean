import RabiRoute.JsonText.Tree
import RabiRoute.PluginStorage.TreeDigest
import RabiRoute.Text.UriComponent

/-!
# The bytes of a JSON text

A text becomes bytes as UTF-8, and a surrogate that stands alone becomes U+FFFD.  The texts of JSON values have no such
surrogate, because strings escape it, so their bytes tell them.
-/

namespace RabiRoute.JsonText

open PluginStorage (utf8EncodeChar_append)
open UriComponent (Character characters characters_flatMap units_single units_pair single pair)

def characterBytes : Character → List UInt8
  | .scalar c => String.utf8EncodeChar c
  | .lone _ => String.utf8EncodeChar '\uFFFD'

/-- The bytes that `update(text, "utf8")` gives to a digest. -/
def bytes (text : JsString) : List UInt8 := (characters text).flatMap characterBytes

/-- Every surrogate stands in a pair. -/
def WellFormed (text : JsString) : Prop := ∃ cs : List Char, text = cs.flatMap codeUnits

theorem utf8_inj {cs cs' : List Char} (h : cs.flatMap String.utf8EncodeChar = cs'.flatMap String.utf8EncodeChar) :
    cs = cs' := by
  have hne : ∀ (c : Char) (rest : List UInt8), String.utf8EncodeChar c ++ rest ≠ [] := by
    intro c rest hnil
    have hlength := congrArg List.length (List.append_eq_nil_iff.mp hnil).1
    rw [String.length_utf8EncodeChar] at hlength
    exact absurd hlength (Nat.ne_of_gt (Char.utf8Size_pos c))
  induction cs generalizing cs' with
  | nil =>
    cases cs' with
    | nil => rfl
    | cons c' cs' => exact absurd h.symm (hne c' _)
  | cons c cs ih =>
    cases cs' with
    | nil => exact absurd h (hne c _)
    | cons c' cs' =>
      obtain ⟨hc, hrest⟩ := utf8EncodeChar_append h
      rw [hc, ih hrest]

theorem bytes_flatMap (cs : List Char) : bytes (cs.flatMap codeUnits) = cs.flatMap String.utf8EncodeChar := by
  unfold bytes
  rw [characters_flatMap, List.flatMap_map]
  rfl

theorem bytes_inj {text text' : JsString} (h : WellFormed text) (h' : WellFormed text')
    (heq : bytes text = bytes text') : text = text' := by
  obtain ⟨cs, rfl⟩ := h
  obtain ⟨cs', rfl⟩ := h'
  rw [bytes_flatMap, bytes_flatMap] at heq
  rw [utf8_inj heq]

/-! ## JSON texts are well formed -/

theorem WellFormed.nil : WellFormed [] := ⟨[], rfl⟩

theorem WellFormed.append {a b : JsString} (ha : WellFormed a) (hb : WellFormed b) : WellFormed (a ++ b) := by
  obtain ⟨cs, rfl⟩ := ha
  obtain ⟨cs', rfl⟩ := hb
  exact ⟨cs ++ cs', List.flatMap_append.symm⟩

theorem WellFormed.unit {u : UInt16} (h : (isLead u || isTrail u) = false) : WellFormed [u] := by
  have hsingle : single u = .scalar (Char.ofNat u.toNat) := if_neg (by
    show ¬ (isLead u || isTrail u) = true
    rw [h]
    exact Bool.false_ne_true)
  have hunits := units_single u
  rw [hsingle] at hunits
  exact ⟨[Char.ofNat u.toNat], by rw [List.flatMap_singleton]; exact hunits.symm⟩

theorem WellFormed.pair {u v : UInt16} (h : (isLead u && isTrail v) = true) : WellFormed [u, v] :=
  ⟨[_], by rw [List.flatMap_singleton]; exact (units_pair h).symm⟩

theorem WellFormed.cons {u : UInt16} {rest : JsString} (h : (isLead u || isTrail u) = false)
    (hrest : WellFormed rest) : WellFormed (u :: rest) :=
  (WellFormed.unit h).append hrest

theorem wellFormed_of_all {text : JsString} (h : ∀ u ∈ text, (isLead u || isTrail u) = false) : WellFormed text := by
  induction text with
  | nil => exact .nil
  | cons u text ih =>
    exact .cons (h u List.mem_cons_self) (ih fun v hv => h v (List.mem_cons_of_mem _ hv))

theorem plain_hexDigit : ∀ n < 16, (isLead (hexDigit n) || isTrail (hexDigit n)) = false := by
  decide

theorem wellFormed_hexEscape (u : UInt16) : WellFormed (hexEscape u) := by
  have hu : u.toNat < 65536 := u.toNat_lt
  apply wellFormed_of_all
  intro x hx
  simp only [hexEscape, List.mem_cons, List.not_mem_nil, or_false] at hx
  rcases hx with rfl | rfl | rfl | rfl | rfl | rfl
  · decide
  · decide
  · exact plain_hexDigit _ (by omega)
  · exact plain_hexDigit _ (by omega)
  · exact plain_hexDigit _ (by omega)
  · exact plain_hexDigit _ (by omega)

theorem wellFormed_escapeUnit {u : UInt16} (h : (isLead u || isTrail u) = false) : WellFormed (escapeUnit u) := by
  have htwo : ∀ v : UInt16, (isLead v || isTrail v) = false → WellFormed [92, v] :=
    fun v hv => .cons (by decide) (.unit hv)
  unfold escapeUnit
  repeat' split
  case isTrue => exact htwo _ (by decide)
  case isTrue => exact htwo _ (by decide)
  case isTrue => exact htwo _ (by decide)
  case isTrue => exact htwo _ (by decide)
  case isTrue => exact htwo _ (by decide)
  case isTrue => exact htwo _ (by decide)
  case isTrue => exact htwo _ (by decide)
  case isTrue => exact wellFormed_hexEscape u
  case isFalse => exact .unit h

theorem wellFormed_escaped (u : UInt16) :
    WellFormed (if (isLead u || isTrail u) = true then hexEscape u else escapeUnit u) := by
  split
  case isTrue => exact wellFormed_hexEscape u
  case isFalse h => exact wellFormed_escapeUnit (Bool.eq_false_iff.mpr h)

theorem wellFormed_escapeUnits (text : JsString) : WellFormed (escapeUnits text) := by
  fun_induction escapeUnits text with
  | case1 => exact .nil
  | case2 u h => exact wellFormed_hexEscape u
  | case3 u h => exact wellFormed_escapeUnit (Bool.eq_false_iff.mpr h)
  | case4 u v rest h ih => exact (WellFormed.pair h).append ih
  | case5 u v rest h ih => exact (wellFormed_escaped u).append ih

theorem wellFormed_quote (text : JsString) : WellFormed (quote text) :=
  .cons (by decide) ((wellFormed_escapeUnits text).append (.unit (by decide)))

theorem wellFormed_join {texts : List JsString} (h : ∀ text ∈ texts, WellFormed text) : WellFormed (join texts) := by
  have htail : ∀ rest : List JsString, (∀ text ∈ rest, WellFormed text) →
      WellFormed (rest.flatMap fun t => 44 :: t) := by
    intro rest hrest
    induction rest with
    | nil => exact .nil
    | cons text rest ih =>
      rw [List.flatMap_cons]
      exact (WellFormed.cons (by decide) (hrest text List.mem_cons_self)).append
        (ih fun t ht => hrest t (List.mem_cons_of_mem _ ht))
  cases texts with
  | nil => exact .nil
  | cons text texts =>
    exact (h text List.mem_cons_self).append (htail texts fun t ht => h t (List.mem_cons_of_mem _ ht))

theorem plain_of_isNumeric {u : UInt16} (h : isNumeric u = true) : (isLead u || isTrail u) = false := by
  have hlt : u.toNat < 0xD800 := by
    unfold isNumeric isDigit at h
    simp only [Bool.or_eq_true, Bool.and_eq_true, decide_eq_true_eq, beq_iff_eq, UInt16.le_iff_toNat_le] at h
    rcases h with (((⟨-, h⟩ | rfl) | rfl) | rfl) | rfl
    · exact Nat.lt_of_le_of_lt h (by decide)
    · decide
    · decide
    · decide
    · decide
  unfold isLead isTrail
  simp only [Bool.or_eq_false_iff, Bool.and_eq_false_iff, decide_eq_false_iff_not, UInt16.le_iff_toNat_le]
  exact ⟨.inl (Nat.not_le.mpr hlt), .inl (Nat.not_le.mpr (Nat.lt_trans hlt (by decide)))⟩

namespace JsonTree

variable {ν : Type} (format : NumberFormat ν) (arrange : List JsString → List JsString)

theorem wellFormed_property {key : JsString} {texts : List (JsString × JsString)}
    (h : ∀ field ∈ texts, WellFormed field.2) : WellFormed ((property key texts).getD []) := by
  cases hp : property key texts with
  | none => exact .nil
  | some text => exact h (key, text) (mem_of_property hp)

mutual

theorem wellFormed_render : ∀ t : JsonTree ν, WellFormed (t.render format arrange)
  | .null => by
      rw [render]
      exact wellFormed_of_all (JsString.forall_of_all (by decide))
  | .bool true => by
      rw [render]
      exact wellFormed_of_all (JsString.forall_of_all (by decide))
  | .bool false => by
      rw [render]
      exact wellFormed_of_all (JsString.forall_of_all (by decide))
  | .number x => by
      rw [render]
      exact wellFormed_of_all fun u hu => plain_of_isNumeric (format.text_numeric x u hu)
  | .string text => by
      rw [render]
      exact wellFormed_quote text
  | .array items => by
      rw [render]
      exact .cons (by decide) ((wellFormed_join (wellFormed_renderItems items)).append (.unit (by decide)))
  | .object fields => by
      rw [render]
      refine .cons (by decide) (WellFormed.append (wellFormed_join fun text htext => ?_) (.unit (by decide)))
      obtain ⟨key, -, rfl⟩ := List.mem_map.mp htext
      exact (wellFormed_quote key).append
        (.cons (by decide) (wellFormed_property (wellFormed_renderFields fields)))

theorem wellFormed_renderItems : ∀ items : List (JsonTree ν), ∀ text ∈ renderItems format arrange items, WellFormed text
  | [] => by
      rw [renderItems]
      exact fun _ h => absurd h List.not_mem_nil
  | item :: items => by
      rw [renderItems]
      exact List.forall_mem_cons.mpr ⟨wellFormed_render item, wellFormed_renderItems items⟩

theorem wellFormed_renderFields : ∀ fields : List (JsString × JsonTree ν),
    ∀ field ∈ renderFields format arrange fields, WellFormed field.2
  | [] => by
      rw [renderFields]
      exact fun _ h => absurd h List.not_mem_nil
  | field :: fields => by
      rw [renderFields]
      exact List.forall_mem_cons.mpr ⟨wellFormed_render field.2, wellFormed_renderFields fields⟩

end

end JsonTree

end RabiRoute.JsonText
