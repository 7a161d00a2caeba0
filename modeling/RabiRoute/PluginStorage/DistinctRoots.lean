import RabiRoute.PluginStorage.Roots

/-!
# The folders of two plugins never coincide

A component is read back as its id, and so is its lower case; nothing of it is a separator, and its end is
neither a dot nor a space.
-/

namespace RabiRoute.PluginStorage

set_option maxRecDepth 8000

open UriComponent
open JsonText (hexValue_hexDigit)

/-! ## The parts of a component -/

/-- The code units of components. -/
def partUnits : JsString := js "abcdefghijklmnopqrstuvwxyz0123456789-_.!~'()%ABCDEF"

/-- What stands for a character, in a component and in its lower case. -/
structure Stands (part : JsString) (c : Char) : Prop where
  reads : Reads part c
  lower : Reads (part.map JsString.lower) c
  units : ∀ u ∈ part, u ∈ partUnits

theorem stands_escaped {digit : Nat → UInt16} (hdigit : ∀ n < 16, JsonText.hexValue (digit n) = some n)
    (hlower : ∀ n < 16, JsonText.hexValue (JsString.lower (digit n)) = some n) (hunits : ∀ n < 16, digit n ∈ partUnits)
    (c : Char) : Stands ((String.utf8EncodeChar c).flatMap (escaped digit)) c where
  reads := reads_escaped hdigit c
  lower := by
    rw [List.map_flatMap]
    have hpiece : Reads ((String.utf8EncodeChar c).flatMap (escaped fun n => JsString.lower (digit n))) c :=
      reads_escaped hlower c
    exact hpiece
  units := by
    intro u hu
    obtain ⟨b, -, hu⟩ := List.mem_flatMap.mp hu
    have hb := b.toNat_lt
    have h37 : (37 : UInt16) ∈ partUnits := by decide
    cases hu with
    | head => exact h37
    | tail _ hu =>
      cases hu with
      | head => exact hunits _ (by omega)
      | tail _ hu => exact List.mem_singleton.mp hu ▸ hunits _ (by omega)

theorem stands_upperDigit (c : Char) : Stands ((String.utf8EncodeChar c).flatMap (escaped upperDigit)) c :=
  stands_escaped (by decide) (by decide) (by decide) c

theorem stands_hexDigit (c : Char) : Stands ((String.utf8EncodeChar c).flatMap (escaped JsonText.hexDigit)) c :=
  stands_escaped (by decide +kernel) (by decide +kernel) (by decide +kernel) c

/-- The escape that `component` writes itself is that of the only octet. -/
theorem escapedUnit_ascii : ∀ n < 128, 16 ≤ n → escapedUnit (single (UInt16.ofNat n)) =
    (String.utf8EncodeChar (Char.ofNat n)).flatMap (escaped JsonText.hexDigit) := by
  decide +kernel

theorem single_ascii : ∀ n < 128, single (UInt16.ofNat n) = .scalar (Char.ofNat n) := by
  decide +kernel

/-- A character that stays as it is. -/
theorem plain_ascii : ∀ n < 128, (unreserved (Char.ofNat n) && !decide (65 ≤ n ∧ n ≤ 90) && n != 42) = true →
    codeUnits (Char.ofNat n) = [UInt16.ofNat n] ∧ UInt16.ofNat n ≠ 37 ∧
      JsString.lower (UInt16.ofNat n) = UInt16.ofNat n ∧ UInt16.ofNat n ∈ partUnits := by
  decide +kernel

theorem unreserved_ascii {c : Char} (h : unreserved c = true) : c.toNat < 128 := by
  simp only [unreserved, Bool.or_eq_true, decide_eq_true_eq, List.contains_iff_mem] at h
  obtain ((h | h) | h) | h := h
  · omega
  · omega
  · omega
  · have hall : ("-_.!~*'()".toList.all fun c => decide (c.toNat < 128)) = true := by decide
    exact of_decide_eq_true (List.all_eq_true.mp hall c h)

theorem stands_plain {c : Char} (hc : unreserved c = true) (hupper : ¬(65 ≤ c.toNat ∧ c.toNat ≤ 90))
    (hstar : c.toNat ≠ 42) : Stands (codeUnits c) c := by
  have hplain := plain_ascii c.toNat (unreserved_ascii hc)
  rw [Char.ofNat_toNat] at hplain
  obtain ⟨hunits, hpercent, hlower, hmem⟩ := hplain (by simp [hc, hupper, hstar])
  have hreads := reads_plain hunits hpercent
  rw [hunits]
  refine ⟨hreads, ?_, fun u hu => List.mem_singleton.mp hu ▸ hmem⟩
  rw [List.map_singleton, hlower]
  exact hreads

/-! ## Which characters are escaped -/

/-- A reserved id begins with a letter of one of the names. -/
theorem isReserved_head {value : JsString} (h : isReserved value = true) :
    ∃ u rest, value = u :: rest ∧ 16 ≤ u.toNat ∧ u.toNat < 128 := by
  obtain ⟨name, hname, hvalue⟩ := List.any_eq_true.mp h
  have hnames : ∀ name ∈ reservedNames, ∃ u ∈ js "cpanl", name.head? = some u := by decide
  obtain ⟨x, hx, hhead⟩ := hnames name hname
  obtain ⟨tail, rfl⟩ := List.head?_eq_some_iff.mp hhead
  have htake := of_decide_eq_true (Bool.and_eq_true_iff.mp hvalue).1
  cases value with
  | nil => cases htake
  | cons u rest =>
    have hu : JsString.lower u = x := (List.cons.inj htake).1
    have hletters : ∀ x ∈ js "cpanl", 97 ≤ x.toNat ∧ x.toNat ≤ 122 := JsString.forall_of_all (by decide)
    have hx := hletters x hx
    refine ⟨u, rest, rfl, ?_⟩
    subst hu
    unfold JsString.lower at hx
    split at hx
    · rename_i hupper
      have h1 := UInt16.le_iff_toNat_le.mp hupper.1
      have h2 := UInt16.le_iff_toNat_le.mp hupper.2
      have h65 : (65 : UInt16).toNat = 65 := rfl
      have h90 : (90 : UInt16).toNat = 90 := rfl
      omega
    · omega

theorem isHighSurrogate_ascii {u : UInt16} (h : u.toNat < 128) : isHighSurrogate u = false := by
  unfold isHighSurrogate
  rw [Bool.and_eq_false_iff]
  left
  rw [decide_eq_false_iff_not, UInt16.le_iff_toNat_le]
  show ¬0xD800 ≤ u.toNat
  omega

/-- What `component` escapes itself is one code unit of ASCII. -/
theorem isEscaped_ascii {value : JsString} {character : Character} {index : Nat}
    (hmem : (character, index) ∈ (characters value).zipIdx) (h : isEscaped value character index = true) :
    ∃ u, character = single u ∧ 16 ≤ u.toNat ∧ u.toNat < 128 := by
  obtain ⟨hindex, hcharacter⟩ := List.mem_zipIdx' hmem
  have hkind := mem_characters (hcharacter ▸ List.getElem_mem hindex)
  have hunits {u : UInt16} (hu : character.units = [u]) : character = single u := by
    cases hkind with
    | inl hsingle =>
      obtain ⟨v, rfl⟩ := hsingle
      rw [units_single] at hu
      rw [(List.cons.inj hu).1]
    | inr hpair =>
      obtain ⟨high, low, hpair, rfl⟩ := hpair
      rw [units_pair hpair] at hu
      cases hu
  unfold isEscaped at h
  simp only [Bool.or_eq_true, Bool.and_eq_true, beq_iff_eq] at h
  obtain ((h | h) | h) | h := h
  · -- a letter of upper case
    cases hkind with
    | inl hsingle =>
      obtain ⟨u, rfl⟩ := hsingle
      rw [units_single, List.all_cons, List.all_nil, Bool.and_true, Bool.and_eq_true, decide_eq_true_eq,
        decide_eq_true_eq, UInt16.le_iff_toNat_le, UInt16.le_iff_toNat_le] at h
      have h65 : (65 : UInt16).toNat = 65 := rfl
      have h90 : (90 : UInt16).toNat = 90 := rfl
      exact ⟨u, rfl, by omega, by omega⟩
    | inr hpair =>
      obtain ⟨high, low, hpair, rfl⟩ := hpair
      rw [units_pair hpair, List.all_cons, Bool.and_eq_true, Bool.and_eq_true, decide_eq_true_eq,
        decide_eq_true_eq, UInt16.le_iff_toNat_le, UInt16.le_iff_toNat_le] at h
      have h90 : (90 : UInt16).toNat = 90 := rfl
      have hhigh := isHighSurrogate_ascii (u := high) (by omega)
      rw [hhigh, Bool.false_and] at hpair
      cases hpair
  · exact ⟨42, hunits h, by decide, by decide⟩
  · exact ⟨46, hunits h.1, by decide, by decide⟩
  · -- the first character of a reserved id
    obtain ⟨u, rest, rfl, hlow, hhigh⟩ := isReserved_head h.1
    obtain rfl := h.2
    refine ⟨u, ?_, hlow, hhigh⟩
    rw [hcharacter]
    simp only [characters_cons (isHighSurrogate_ascii hhigh), List.getElem_cons_zero]

theorem part_stands {value piece : JsString} {character : Character} {index : Nat}
    (hmem : (character, index) ∈ (characters value).zipIdx) (h : part value character index = .ok piece) :
    ∃ c, character = .scalar c ∧ Stands piece c := by
  unfold part at h
  split at h
  · rename_i hescaped
    obtain ⟨u, rfl, hlow, hhigh⟩ := isEscaped_ascii hmem hescaped
    have hsingle := single_ascii u.toNat hhigh
    have hunit := escapedUnit_ascii u.toNat hhigh hlow
    rw [UInt16.ofNat_toNat] at hsingle hunit
    refine ⟨_, hsingle, ?_⟩
    rw [← Except.ok.inj h, hunit]
    exact stands_hexDigit _
  · rename_i hescaped
    cases character with
    | lone u => cases h
    | scalar c =>
      refine ⟨c, rfl, ?_⟩
      simp only [encodeURIComponent] at h
      by_cases hc : unreserved c = true
      · rw [if_pos hc] at h
        rw [← Except.ok.inj h]
        have hascii := unreserved_ascii hc
        have hunits : codeUnits c = [UInt16.ofNat c.toNat] := by
          unfold codeUnits
          rw [if_pos (by omega)]
        have hnat : (UInt16.ofNat c.toNat).toNat = c.toNat := by
          rw [UInt16.toNat_ofNat', Nat.mod_eq_of_lt (by omega)]
        simp only [isEscaped, Bool.or_eq_true, not_or, Character.units, hunits] at hescaped
        apply stands_plain hc
        · intro hupper
          apply hescaped.1.1.1
          rw [List.all_cons, List.all_nil, Bool.and_true, Bool.and_eq_true, decide_eq_true_eq,
            decide_eq_true_eq, UInt16.le_iff_toNat_le, UInt16.le_iff_toNat_le, hnat]
          exact hupper
        · intro hstar
          apply hescaped.1.1.2
          rw [hstar]
          rfl
      · rw [if_neg hc] at h
        exact Except.ok.inj h ▸ stands_upperDigit c

/-! ## Components -/

section Components

variable {value name : JsString}

/-- The parts of a component, one for each character of the id. -/
theorem component_parts (h : component value = .ok name) : ∃ parts, name = parts.flatten ∧
    List.Forall₂ (fun x piece => part value x.1 x.2 = .ok piece) (characters value).zipIdx parts := by
  unfold component at h
  split at h
  · cases h
  · obtain ⟨parts, hparts, h⟩ := Fallible.bind_ok.mp h
    exact ⟨parts, (Except.ok.inj h).symm, Fallible.mapM_ok hparts⟩

theorem component_stands (h : component value = .ok name) : ∃ parts chars,
    name = parts.flatten ∧ value = chars.flatMap codeUnits ∧ List.Forall₂ Stands parts chars := by
  obtain ⟨parts, hname, hparts⟩ := component_parts h
  have hchars : ∀ {xs : List (Character × Nat)} {parts : List JsString}, (∀ x ∈ xs, x ∈ (characters value).zipIdx) →
      List.Forall₂ (fun x piece => part value x.1 x.2 = .ok piece) xs parts →
      ∃ chars, xs.flatMap (fun x => x.1.units) = chars.flatMap codeUnits ∧ List.Forall₂ Stands parts chars := by
    intro xs parts hxs hparts
    induction hparts with
    | nil => exact ⟨[], rfl, .nil⟩
    | @cons x piece xs parts hpiece _ ih =>
      obtain ⟨c, hc, hstands⟩ := part_stands (hxs x List.mem_cons_self) hpiece
      obtain ⟨chars, hunits, hrest⟩ := ih fun y hy => hxs y (List.mem_cons_of_mem x hy)
      refine ⟨c :: chars, ?_, .cons hstands hrest⟩
      rw [List.flatMap_cons, List.flatMap_cons, hunits, hc]
      rfl
  obtain ⟨chars, hunits, hstands⟩ := hchars (fun x hx => hx) hparts
  refine ⟨parts, chars, hname, ?_, hstands⟩
  rw [← hunits, ← List.flatMap_map Prod.fst, List.zipIdx_map_fst, units_characters]

/-- A component is read back as its id. -/
theorem decode_component (h : component value = .ok name) : decodeURIComponent name = some value := by
  obtain ⟨parts, chars, rfl, rfl, hstands⟩ := component_stands h
  exact decodeURIComponent_pieces (hstands.imp fun _ _ hpart => hpart.reads)

/-- And so is its lower case. -/
theorem decode_component_lower (h : component value = .ok name) :
    decodeURIComponent (name.map JsString.lower) = some value := by
  obtain ⟨parts, chars, rfl, rfl, hstands⟩ := component_stands h
  rw [List.map_flatten]
  refine decodeURIComponent_pieces ?_
  rw [List.forall₂_map_left_iff]
  exact hstands.imp fun _ _ hpart => hpart.lower

theorem component_units (h : component value = .ok name) : ∀ u ∈ name, u ∈ partUnits := by
  obtain ⟨parts, chars, rfl, -, hstands⟩ := component_stands h
  intro u hu
  obtain ⟨piece, hpiece, hu⟩ := List.mem_flatten.mp hu
  obtain ⟨i, hi, rfl⟩ := List.getElem_of_mem hpiece
  exact (hstands.get hi (hstands.length_eq ▸ hi)).units u hu

theorem component_ne_nil (h : component value = .ok name) : name ≠ [] := by
  rintro rfl
  have hread := decode_component h
  have hempty : decodeURIComponent [] = some [] := rfl
  obtain rfl := Option.some.inj (hread.symm.trans hempty)
  cases h

theorem not_mem_escaped {digit : Nat → UInt16} (hdigit : ∀ n < 16, digit n ≠ 46) (bytes : List UInt8) :
    46 ∉ bytes.flatMap (escaped digit) := by
  intro hmem
  obtain ⟨b, -, hb⟩ := List.mem_flatMap.mp hmem
  have hlt := b.toNat_lt
  have h46 : (46 : UInt16) ≠ 37 := by decide
  have hhigh := hdigit (b.toNat / 16) (by omega)
  have hlow := hdigit (b.toNat % 16) (by omega)
  simp only [escaped, List.mem_cons, List.not_mem_nil, or_false] at hb
  obtain hb | hb | hb := hb
  · exact h46 hb
  · exact hhigh hb.symm
  · exact hlow hb.symm

/-- The dots at the end of an id are escaped. -/
theorem part_getLast? {characters' : List Character} {character : Character} {piece : JsString}
    (hvalue : characters value = characters' ++ [character])
    (h : part value character characters'.length = .ok piece) : 46 ∉ piece.getLast? := by
  have hmem : (character, characters'.length) ∈ (characters value).zipIdx := by
    rw [hvalue, List.zipIdx_append]
    apply List.mem_append_right
    rw [List.zipIdx_singleton, Nat.zero_add]
    exact List.mem_singleton.mpr rfl
  obtain ⟨c, rfl, -⟩ := part_stands hmem h
  intro hlast
  have hlast := List.mem_of_getLast? hlast
  unfold part at h
  split at h
  · rename_i hescaped
    obtain ⟨u, hu, hlow, hhigh⟩ := isEscaped_ascii hmem hescaped
    have hunit := escapedUnit_ascii u.toNat hhigh hlow
    rw [UInt16.ofNat_toNat, ← hu] at hunit
    rw [← Except.ok.inj h, hunit] at hlast
    exact not_mem_escaped (by decide) _ hlast
  · rename_i hescaped
    simp only [encodeURIComponent] at h
    by_cases hc : unreserved c = true
    · rw [if_pos hc] at h
      rw [← Except.ok.inj h] at hlast
      have hascii := unreserved_ascii hc
      have hunits : codeUnits c = [UInt16.ofNat c.toNat] := by
        unfold codeUnits
        rw [if_pos (by omega)]
      rw [hunits] at hlast
      have hdot : codeUnits c = [46] := by rw [hunits, List.mem_singleton.mp hlast]
      -- then the id ends with a dot
      have hend : value = characters'.flatMap Character.units ++ [46] := by
        rw [← units_characters value, hvalue, List.flatMap_append, List.flatMap_singleton]
        exact congrArg _ hdot
      have hdots : 0 < trailingDots value := by
        unfold trailingDots
        rw [hend, List.reverse_append, List.reverse_singleton, List.singleton_append, List.takeWhile_cons]
        exact Nat.succ_pos _
      apply hescaped
      unfold isEscaped
      rw [hvalue, List.length_append, List.length_singleton]
      simp only [Bool.or_eq_true, Bool.and_eq_true, beq_iff_eq, decide_eq_true_eq]
      exact .inl (.inr ⟨hdot, by omega⟩)
    · rw [if_neg hc] at h
      rw [← Except.ok.inj h] at hlast
      exact not_mem_escaped (by decide) _ hlast

theorem component_getLast? (h : component value = .ok name) : 46 ∉ name.getLast? := by
  obtain ⟨parts, hname, hparts⟩ := component_parts h
  have hne := component_ne_nil h
  cases (characters value).eq_nil_or_concat with
  | inl hnil =>
    rw [hnil] at hparts
    cases hparts
    exact absurd hname hne
  | inr hconcat =>
    obtain ⟨characters', character, hvalue⟩ := hconcat
    have hvalue : characters value = characters' ++ [character] := hvalue.trans List.concat_eq_append
    rw [hvalue, List.zipIdx_append, List.zipIdx_singleton, Nat.zero_add] at hparts
    have hlast := List.forall₂_reverse_iff.mpr hparts
    rw [List.reverse_append, List.reverse_singleton, List.singleton_append] at hlast
    obtain ⟨piece, before, hpiece, -, hreverse⟩ := List.forall₂_cons_left_iff.mp hlast
    have hname : name = before.reverse.flatten ++ piece := by
      rw [hname, ← List.reverse_reverse parts, hreverse, List.reverse_cons, List.flatten_append, List.flatten_singleton]
    have hmem : (character, characters'.length) ∈ (characters value).zipIdx := by
      rw [hvalue, List.zipIdx_append, List.zipIdx_singleton, Nat.zero_add]
      exact List.mem_append_right _ (List.mem_singleton.mpr rfl)
    obtain ⟨c, -, hstands⟩ := part_stands hmem hpiece
    rw [hname, List.getLast?_append_of_ne_nil _ hstands.reads.1]
    exact part_getLast? hvalue hpiece

/-- Where an id is reserved, its component begins with an escape. -/
theorem component_head? (h : component value = .ok name) (hreserved : isReserved value = true) :
    name.head? = some 37 := by
  obtain ⟨parts, rfl, hparts⟩ := component_parts h
  obtain ⟨u, rest, rfl, hlow, hhigh⟩ := isReserved_head hreserved
  rw [characters_cons (isHighSurrogate_ascii hhigh), List.zipIdx_cons] at hparts
  cases hparts with
  | cons hpiece _ =>
    have hescaped : isEscaped (u :: rest) (single u) 0 = true := by
      unfold isEscaped
      rw [hreserved]
      exact Bool.or_true _
    unfold part at hpiece
    rw [if_pos hescaped] at hpiece
    rw [← Except.ok.inj hpiece]
    rfl

/-- A component whose name before the first dot is a device has it from its id, which is then reserved. -/
theorem not_isDeviceName (h : component value = .ok name) : isDeviceName name = false := by
  rw [Bool.eq_false_iff]
  intro hdevice
  have hunits := component_units h
  let device := (name.takeWhile (· != 46)).map JsString.lower
  have hstrip : stripEnd device = device := by
    apply List.rdropWhile_eq_self_iff.mpr
    intro hne hend
    obtain ⟨u, hu, hlower⟩ := List.mem_map.mp (List.getLast_mem hne)
    have hdot : (u != 46) = true := (List.all_eq_true.mp (List.all_takeWhile (p := (· != 46)))) u hu
    have hend' : ∀ u ∈ partUnits, u != 46 → ¬(JsString.lower u == 46 || JsString.lower u == 32) = true :=
      JsString.forall_of_all (by decide)
    rw [← hlower] at hend
    exact hend' u (hunits u (List.takeWhile_subset _ hu)) hdot hend
  have hmem : device ∈ reservedNames := by
    have hdevice := List.contains_iff_mem.mp hdevice
    rwa [hstrip] at hdevice
  have hplain : ∀ name ∈ reservedNames, 37 ∉ name ∧ name ≠ [] ∧ name.map JsString.lower = name := by decide
  obtain ⟨hpercent, hne, hlower⟩ := hplain device hmem
  have hname : name.map JsString.lower = device ++ (name.dropWhile (· != 46)).map JsString.lower := by
    rw [← List.map_append, List.takeWhile_append_dropWhile]
  obtain ⟨more, hvalue, hmore⟩ := decodeURIComponent_append hpercent (hname ▸ decode_component_lower h)
  have hreserved : isReserved value = true := by
    unfold isReserved
    refine List.any_eq_true.mpr ⟨device, hmem, ?_⟩
    rw [hvalue, List.take_left, List.drop_left, hlower, decide_eq_true rfl, Bool.true_and]
    cases hrest : name.dropWhile (· != 46) with
    | nil =>
      rw [hrest] at hmore
      rw [← Option.some.inj hmore]
      rfl
    | cons u rest =>
      have hu : u = 46 := by
        have hne : name.dropWhile (· != 46) ≠ [] := by
          rw [hrest]
          exact List.cons_ne_nil u rest
        have hhead := List.head_dropWhile_not (fun u : UInt16 => u != 46) hne
        simpa only [hrest, List.head_cons, bne_eq_false_iff_eq] using hhead
      rw [hrest, hu, List.map_cons] at hmore
      have h46 : (37 : UInt16) ∉ [JsString.lower 46] := by decide
      obtain ⟨tail, htail, -⟩ := decodeURIComponent_append h46 hmore
      rw [htail]
      rfl
  -- so the component begins with an escape, which the device does not
  cases hdev : device with
  | nil => exact hne hdev
  | cons x rest =>
    have hhead := component_head? h hreserved
    have hhead' : (name.map JsString.lower).head? = some x := by rw [hname, hdev]; rfl
    rw [List.head?_map, hhead] at hhead'
    apply hpercent
    rw [hdev, ← Option.some.inj hhead']
    exact List.mem_cons_self

theorem component_isSegment (platform : Platform) (h : component value = .ok name) : IsSegment platform name where
  plain := by
    have hplain : ∀ u ∈ partUnits,
        Platform.posix.isSeparator u = false ∧ Platform.win32.isSeparator u = false :=
      JsString.forall_of_all (by decide)
    intro u hu
    cases platform with
    | posix => exact (hplain u (component_units h u hu)).1
    | win32 => exact (hplain u (component_units h u hu)).2
  ne_nil := component_ne_nil h
  ne_dot := fun hdot => component_getLast? h (hdot ▸ rfl)
  ne_dots := fun hdots => component_getLast? h (hdots ▸ rfl)

theorem folded_component (lowerCase : LowerCase) (h : component value = .ok name) :
    stripEnd (lowerCase.apply name) = name.map JsString.lower := by
  have hunits := component_units h
  have hascii : ∀ u ∈ partUnits, u < 128 := JsString.forall_of_all (by decide)
  rw [lowerCase.ascii fun u hu => hascii u (hunits u hu)]
  apply List.rdropWhile_eq_self_iff.mpr
  intro hne hend
  have hlast := component_getLast? h
  have hname := component_ne_nil h
  rw [List.getLast_map] at hend
  rw [List.getLast?_eq_getLast_of_ne_nil hname] at hlast
  have hends : ∀ u ∈ partUnits, u ≠ 46 → ¬(JsString.lower u == 46 || JsString.lower u == 32) = true :=
    JsString.forall_of_all (by decide)
  exact hends _ (hunits _ (List.getLast_mem hname)) (fun hdot => hlast (congrArg some hdot)) hend

/-- Components that differ in case only are those of one id. -/
theorem component_lower_inj {value' name' : JsString} (h : component value = .ok name) (h' : component value' = .ok
    name') (hname : name.map JsString.lower = name'.map JsString.lower) : value = value' :=
  Option.some.inj ((decode_component_lower h).symm.trans ((congrArg _ hname).trans (decode_component_lower h')))

end Components

/-! ## Paths -/

/-- `path.join` puts segments below the path. -/
theorem join_segments {platform : Platform} (path : Path) {segments : List JsString}
    (h : ∀ segment ∈ segments, IsSegment platform segment) :
    path.join platform segments = { path with folders := path.folders ++ segments } := by
  have hfolders : ∀ folders, (segments.flatMap (List.splitOnP platform.isSeparator)).foldl enter folders =
      folders ++ segments := by
    induction segments with
    | nil => intro folders; exact (List.append_nil folders).symm
    | cons segment segments ih =>
      intro folders
      have hsegment := h segment List.mem_cons_self
      rw [List.flatMap_cons, List.splitOnP_eq_singleton hsegment.plain, List.singleton_append, List.foldl_cons,
        ih fun other hother => h other (List.mem_cons_of_mem segment hother)]
      unfold enter
      rw [if_neg (not_or.mpr ⟨hsegment.ne_nil, hsegment.ne_dot⟩), if_neg hsegment.ne_dots, List.append_assoc,
        List.singleton_append]
  unfold Path.join
  rw [hfolders]

/-- A name of small letters. -/
theorem isSegment_letters (platform : Platform) {name : JsString} (hne : name ≠ [])
    (h : name.all (fun u => decide (97 ≤ u)) = true) : IsSegment platform name where
  plain := by
    intro u hu
    have hletter : 97 ≤ u := of_decide_eq_true (List.all_eq_true.mp h u hu)
    have hne : ∀ v : UInt16, v < 97 → (u == v) = false := by
      intro v hv
      rw [beq_eq_false_iff_ne]
      rintro rfl
      exact absurd hletter (UInt16.not_le.mpr hv)
    cases platform with
    | posix => exact hne 47 (by decide)
    | win32 => exact Bool.or_eq_false_iff.mpr ⟨hne 47 (by decide), hne 92 (by decide)⟩
  ne_nil := hne
  ne_dot := by
    rintro rfl
    exact absurd h (by decide)
  ne_dots := by
    rintro rfl
    exact absurd h (by decide)

theorem isSegment_data (platform : Platform) : IsSegment platform (js "data") :=
  isSegment_letters platform (by decide) (by decide)

theorem isSegment_plugins (platform : Platform) : IsSegment platform (js "plugins") :=
  isSegment_letters platform (by decide) (by decide)

theorem isSegment_instances (platform : Platform) : IsSegment platform (js "instances") :=
  isSegment_letters platform (by decide) (by decide)

/-- The folders of a root, below the state root. -/
def rootFolders (name : JsString) (instanceName : Option JsString) : List JsString :=
  js "data" :: js "plugins" :: name :: (instanceName.elim [] fun instanceName ↦ [js "instances", instanceName])

/-- What the components of a root are, and where they stand. -/
def RootOf (stateRoot : Path) (pluginId : JsString) (instanceId : Option JsString) (root : Path) : Prop :=
  ∃ name instanceName, component pluginId = .ok name ∧
    Option.Rel (fun id name ↦ component id = .ok name) instanceId instanceName ∧
    root = { stateRoot with folders := stateRoot.folders ++ rootFolders name instanceName }

theorem pluginStorageRoot_ok {platform : Platform} {stateRoot root : Path} {pluginId : JsString}
    {instanceId : Option JsString} (h : pluginStorageRoot platform stateRoot pluginId instanceId = .ok root) :
    RootOf stateRoot pluginId instanceId root := by
  unfold pluginStorageRoot at h
  obtain ⟨name, hname, h⟩ := Fallible.bind_ok.mp h
  have hroot : stateRoot.join platform [js "data", js "plugins", name] =
      { stateRoot with folders := stateRoot.folders ++ [js "data", js "plugins", name] } := by
    apply join_segments
    intro segment hsegment
    simp only [List.mem_cons, List.not_mem_nil, or_false] at hsegment
    obtain rfl | rfl | rfl := hsegment
    · exact isSegment_data platform
    · exact isSegment_plugins platform
    · exact component_isSegment platform hname
  cases instanceId with
  | none => exact ⟨name, none, hname, .none, (Except.ok.inj h).symm.trans hroot⟩
  | some instanceId =>
    obtain ⟨instanceName, hinstance, h⟩ := Fallible.bind_ok.mp h
    refine ⟨name, some instanceName, hname, .some hinstance, ?_⟩
    rw [← Except.ok.inj h, hroot, join_segments]
    · show Path.mk _ (stateRoot.folders ++ _ ++ _) = Path.mk _ _
      rw [List.append_assoc]
      rfl
    · intro segment hsegment
      cases List.mem_pair.mp hsegment with
      | inl hfixed => exact hfixed ▸ isSegment_instances platform
      | inr hlast => exact hlast ▸ component_isSegment platform hinstance

/-! ## Distinct roots -/

/-- Where a text ends before a separator, it is the text up to the first one. -/
theorem append_separated_inj {sep : UInt16} {a a' : JsString} {rest rest' : List JsString} (ha : sep ∉ a)
    (ha' : sep ∉ a') (h : a ++ rest.flatMap (sep :: ·) = a' ++ rest'.flatMap (sep :: ·)) :
    a = a' ∧ rest.flatMap (sep :: ·) = rest'.flatMap (sep :: ·) := by
  have htake {a : JsString} {rest : List JsString} (ha : sep ∉ a) :
      (a ++ rest.flatMap (sep :: ·)).takeWhile (· != sep) = a := by
    have hall : ∀ u ∈ a, (u != sep) = true := fun u hu => bne_iff_ne.mpr fun heq => ha (heq ▸ hu)
    rw [List.takeWhile_append_of_pos hall]
    cases rest with
    | nil => exact List.append_nil a
    | cons part rest =>
      rw [List.flatMap_cons, List.cons_append, List.takeWhile_cons, bne_self_eq_false, if_neg Bool.false_ne_true,
        List.append_nil]
  have haa : a = a' := by rw [← htake ha, h, htake ha']
  subst haa
  exact ⟨rfl, List.append_cancel_left h⟩

theorem separator_not_mem {value name : JsString} (platform : Platform) (h : component value = .ok name) :
    platform.separator ∉ name.map JsString.lower := by
  intro hmem
  obtain ⟨u, hu, hlower⟩ := List.mem_map.mp hmem
  have hseps : ∀ u ∈ partUnits, JsString.lower u ≠ Platform.posix.separator ∧
      JsString.lower u ≠ Platform.win32.separator := JsString.forall_of_all (by decide)
  cases platform with
  | posix => exact (hseps u (component_units h u hu)).1 hlower
  | win32 => exact (hseps u (component_units h u hu)).2 hlower

/-- The folded folders below the component of the plugin. -/
def instanceFolders (lowerCase : LowerCase) (instanceName : Option JsString) : List JsString :=
  instanceName.elim [] fun instanceName ↦
    [stripEnd (lowerCase.apply (js "instances")), instanceName.map JsString.lower]

/-- The folded text of a root: what all roots begin with, and the components. -/
theorem folded_text (platform : Platform) (lowerCase : LowerCase) (stateRoot : Path) :
    ∃ start : JsString, ∀ {pluginId : JsString} {instanceId : Option JsString} {name : JsString}
      {instanceName : Option JsString}, component pluginId = .ok name →
      Option.Rel (fun id name => component id = .ok name) instanceId instanceName →
      (Path.folded lowerCase { stateRoot with folders := stateRoot.folders ++ rootFolders name instanceName }).text
          platform =
        start ++ (name.map JsString.lower ++
          (instanceFolders lowerCase instanceName).flatMap (platform.separator :: ·)) := by
  let fold := fun folder => stripEnd (lowerCase.apply folder)
  refine ⟨lowerCase.apply stateRoot.volume ++
    ((stateRoot.folders.map fold ++ [fold (js "data"), fold (js "plugins")]).flatMap (platform.separator :: ·) ++
      [platform.separator]), ?_⟩
  intro pluginId instanceId name instanceName hname hinstance
  have hfolders : (stateRoot.folders ++ rootFolders name instanceName).map fold =
      stateRoot.folders.map fold ++ [fold (js "data"), fold (js "plugins")] ++
        name.map JsString.lower :: instanceFolders lowerCase instanceName := by
    have hrest : (rootFolders name instanceName).map fold = fold (js "data") :: fold (js "plugins") ::
        name.map JsString.lower :: instanceFolders lowerCase instanceName := by
      rw [← folded_component lowerCase hname]
      cases hinstance with
      | none => rfl
      | some hinstance =>
        show _ = _ :: _ :: _ :: [_, _]
        rw [← folded_component lowerCase hinstance]
        rfl
    rw [List.map_append, hrest, List.append_assoc]
    rfl
  show lowerCase.apply stateRoot.volume ++ ((stateRoot.folders ++ _).map fold).flatMap _ = _
  rw [hfolders, List.flatMap_append, List.flatMap_cons]
  simp only [List.append_assoc, List.cons_append, List.nil_append]

theorem roots_differ {platform : Platform} (lowerCase : LowerCase) {stateRoot root root' : Path} {pluginId pluginId' :
    JsString} {instanceId instanceId' : Option JsString} (h : RootOf stateRoot pluginId instanceId root) (h' : RootOf
    stateRoot pluginId' instanceId' root') (hroots : (root.folded lowerCase).text platform = (root'.folded
    lowerCase).text platform) : (pluginId, instanceId) = (pluginId', instanceId') := by
  obtain ⟨name, instanceName, hname, hinstance, rfl⟩ := h
  obtain ⟨name', instanceName', hname', hinstance', rfl⟩ := h'
  obtain ⟨start, htext⟩ := folded_text platform lowerCase stateRoot
  rw [htext hname hinstance, htext hname' hinstance'] at hroots
  obtain ⟨hlower, hrest⟩ := append_separated_inj (separator_not_mem platform hname)
    (separator_not_mem platform hname') (List.append_cancel_left hroots)
  have hplugin := component_lower_inj hname hname' hlower
  cases hinstance with
  | none =>
    cases hinstance' with
    | none => rw [hplugin]
    | some hinstance' => cases hrest
  | @some instanceId instanceName hinstance =>
    cases hinstance' with
    | none => cases hrest
    | @some instanceId' instanceName' hinstance' =>
      have hlast : platform.separator :: instanceName.map JsString.lower ++ [] =
          platform.separator :: instanceName'.map JsString.lower ++ [] :=
        List.append_cancel_left (List.cons.inj hrest).2
      rw [List.append_nil, List.append_nil] at hlast
      rw [hplugin, component_lower_inj hinstance hinstance' (List.cons.inj hlast).2]

/-- Two roots differ whatever a file system does to the case of letters and to the dots and spaces at the end of
a name, and each component is a folder name that is read back as its id. -/
theorem plugin_roots_distinct (platform : Platform) (lowerCase : LowerCase) (stateRoot : Path)
    {pluginId pluginId' : JsString} {instanceId instanceId' : Option JsString} {root root' : Path}
    (h : pluginStorageRoot platform stateRoot pluginId instanceId = .ok root)
    (h' : pluginStorageRoot platform stateRoot pluginId' instanceId' = .ok root') :
    ((pluginId, instanceId) ≠ (pluginId', instanceId') →
      (root.folded lowerCase).text platform ≠ (root'.folded lowerCase).text platform) ∧
    RootOf stateRoot pluginId instanceId root ∧
    ∀ id name, component id = .ok name → IsSegment .posix name ∧ IsSegment .win32 name ∧
      isDeviceName name = false ∧ decodeURIComponent name = some id :=
  ⟨fun hne hroots ↦ hne (roots_differ lowerCase (pluginStorageRoot_ok h) (pluginStorageRoot_ok h') hroots),
    pluginStorageRoot_ok h,
    fun _ _ hname ↦ ⟨component_isSegment .posix hname, component_isSegment .win32 hname, not_isDeviceName hname,
      decode_component hname⟩⟩

/-- The case of an id that only the case of a letter tells from the other. -/
theorem plugin_roots_distinct_instances :
    (Path.folded ⟨List.map JsString.lower, fun _ ↦ rfl⟩ ⟨js "C:", [js "state", js "data", js "plugins", js "io.owner",
        js "instances", js "manager%3Afirst"]⟩).text .win32 ≠
      (Path.folded ⟨List.map JsString.lower, fun _ ↦ rfl⟩ ⟨js "C:", [js "state", js "data", js "plugins", js "io.owner",
        js "instances", js "manager%3A%46irst"]⟩).text .win32 := by
  have h : pluginStorageRoot .win32 ⟨js "C:", [js "state"]⟩ (js "io.owner") (some (js "manager:first")) =
      .ok ⟨js "C:", [js "state", js "data", js "plugins", js "io.owner", js "instances", js "manager%3Afirst"]⟩ := by
    decide +kernel
  have h' : pluginStorageRoot .win32 ⟨js "C:", [js "state"]⟩ (js "io.owner") (some (js "manager:First")) =
      .ok ⟨js "C:", [js "state", js "data", js "plugins", js "io.owner", js "instances", js "manager%3A%46irst"]⟩ := by
    decide +kernel
  exact (plugin_roots_distinct .win32 ⟨List.map JsString.lower, fun _ ↦ rfl⟩ _ h h').1 (by decide +kernel)

end RabiRoute.PluginStorage
