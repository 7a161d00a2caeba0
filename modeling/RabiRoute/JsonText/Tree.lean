import RabiRoute.JsonText.Number

/-!
# The text of a JSON value

`JSON.stringify` without white space, with an order that is put on the keys of each object.  Whatever the order, the
text tells the value up to the order of keys: each part of the text can be told from what follows it.
-/

namespace RabiRoute.JsonText

open Data (quote_append)

inductive JsonTree (ν : Type) where
  | null
  | bool (b : Bool)
  | number (x : ν)
  | string (text : JsString)
  | array (items : List (JsonTree ν))
  | object (fields : List (JsString × JsonTree ν))

variable {ν : Type} {format : NumberFormat ν} {arrange : List JsString → List JsString}

/-! ## The text -/

/-- `texts.join(",")` -/
def join : List JsString → JsString
  | [] => []
  | text :: texts => text ++ texts.flatMap fun t ↦ 44 :: t

/-- `record[key]` for a key of the record. -/
def property {α : Type} (key : JsString) : List (JsString × α) → Option α
  | [] => none
  | field :: fields => if field.1 = key then some field.2 else property key fields

def fieldText (key text : JsString) : JsString := quote key ++ 58 :: text

namespace JsonTree

mutual

/-- The text of a value; `arrange` orders the keys of an object. -/
def render (format : NumberFormat ν) (arrange : List JsString → List JsString) : JsonTree ν → JsString
  | .null => js "null"
  | .bool true => js "true"
  | .bool false => js "false"
  | .number x => format.text x
  | .string text => quote text
  | .array items => 91 :: (join (renderItems format arrange items) ++ [93])
  | .object fields =>
    123 :: (join ((arrange (fields.map Prod.fst)).map fun key ↦
      fieldText key ((property key (renderFields format arrange fields)).getD [])) ++ [125])

def renderItems (format : NumberFormat ν) (arrange : List JsString → List JsString) : List (JsonTree ν) → List JsString
  | [] => []
  | item :: items => item.render format arrange :: renderItems format arrange items

def renderFields (format : NumberFormat ν) (arrange : List JsString → List JsString) :
    List (JsString × JsonTree ν) → List (JsString × JsString)
  | [] => []
  | field :: fields => (field.1, field.2.render format arrange) :: renderFields format arrange fields

end

/-- `JSON.stringify(value)` -/
def stringify (format : NumberFormat ν) : JsonTree ν → JsString := render format id

theorem renderItems_eq (items : List (JsonTree ν)) :
    renderItems format arrange items = items.map (render format arrange) := by
  induction items with
  | nil => rw [renderItems, List.map_nil]
  | cons item items ih => rw [renderItems, List.map_cons, ih]

theorem property_renderFields (key : JsString) (fields : List (JsString × JsonTree ν)) :
    property key (renderFields format arrange fields) = (property key fields).map (render format arrange) := by
  induction fields with
  | nil =>
    rw [renderFields]
    rfl
  | cons field fields ih =>
    rw [renderFields, property, property]
    by_cases hkey : field.1 = key
    · rw [if_pos hkey, if_pos hkey]
      rfl
    · rw [if_neg hkey, if_neg hkey]
      exact ih

/-! ## Values that are the same -/

/-- No object has a key twice. -/
inductive Proper : JsonTree ν → Prop where
  | null : Proper .null
  | bool (b : Bool) : Proper (.bool b)
  | number (x : ν) : Proper (.number x)
  | string (text : JsString) : Proper (.string text)
  | array (items : List (JsonTree ν)) : (∀ item ∈ items, Proper item) → Proper (.array items)
  | object (fields : List (JsString × JsonTree ν)) : (fields.map Prod.fst).Nodup →
      (∀ field ∈ fields, Proper field.2) → Proper (.object fields)

/-- A value as `JSON.parse` answers it. -/
abbrev JsonValue (ν : Type) := { t : JsonTree ν // t.Proper }

/-- Equal up to the order of object keys. -/
inductive Same : JsonTree ν → JsonTree ν → Prop where
  | null : Same .null .null
  | bool (b : Bool) : Same (.bool b) (.bool b)
  | number (x : ν) : Same (.number x) (.number x)
  | string (text : JsString) : Same (.string text) (.string text)
  | array (items items' : List (JsonTree ν)) : items.length = items'.length →
      (∀ (i : Nat) (v v' : JsonTree ν), items[i]? = some v → items'[i]? = some v' → Same v v') →
      Same (.array items) (.array items')
  | object (fields fields' : List (JsString × JsonTree ν)) :
      (∀ key, key ∈ fields.map Prod.fst ↔ key ∈ fields'.map Prod.fst) →
      (∀ key v v', (key, v) ∈ fields → (key, v') ∈ fields' → Same v v') →
      Same (.object fields) (.object fields')

theorem Same.symm {t t' : JsonTree ν} (h : Same t t') : Same t' t := by
  induction h with
  | null => exact .null
  | bool b => exact .bool b
  | number x => exact .number x
  | string text => exact .string text
  | array items items' hlength _ ih =>
    exact .array items' items hlength.symm fun i v v' hv hv' => ih i v' v hv' hv
  | object fields fields' hkeys _ ih =>
    exact .object fields' fields (fun key => (hkeys key).symm) fun key v v' hv hv' => ih key v' v hv' hv

end JsonTree

section Property

variable {α : Type} {key : JsString} {fields : List (JsString × α)} {v : α}

theorem mem_of_property (h : property key fields = some v) : (key, v) ∈ fields := by
  induction fields with
  | nil => cases h
  | cons field fields ih =>
    rw [property] at h
    by_cases hkey : field.1 = key
    · rw [if_pos hkey] at h
      cases h
      exact hkey ▸ List.mem_cons_self
    · rw [if_neg hkey] at h
      exact List.mem_cons_of_mem _ (ih h)

theorem exists_property (h : key ∈ fields.map Prod.fst) : ∃ v, property key fields = some v := by
  induction fields with
  | nil => cases h
  | cons field fields ih =>
    rw [property]
    by_cases hkey : field.1 = key
    · exact ⟨field.2, if_pos hkey⟩
    · rw [if_neg hkey]
      exact ih ((List.mem_cons.mp h).resolve_left fun heq => hkey heq.symm)

/-- A key that occurs once has one value. -/
theorem property_eq (hnodup : (fields.map Prod.fst).Nodup) (h : (key, v) ∈ fields) : property key fields = some v := by
  obtain ⟨u, hu⟩ := exists_property (List.mem_map.mpr ⟨(key, v), h, rfl⟩)
  have hsame : (key, u) = (key, v) := List.inj_on_of_nodup_map hnodup (mem_of_property hu) h rfl
  rw [hu, (Prod.mk.inj hsame).2]

end Property

/-! ## Texts that are told from what follows them -/

/-- What may follow a value. -/
def Closed (rest : JsString) : Prop := ∀ u ∈ rest.head?, isNumeric u = false

/-- The two texts, whatever follows them, are the same only if `P` holds. -/
def Reads (P : Prop) (text text' : JsString) : Prop :=
  ∀ rest rest', Closed rest → Closed rest' → text ++ rest = text' ++ rest' → P ∧ rest = rest'

theorem Reads.mono {P Q : Prop} {text text' : JsString} (h : Reads P text text') (hpq : P → Q) :
    Reads Q text text' := by
  intro rest rest' hc hc' heq
  obtain ⟨hp, hrest⟩ := h rest rest' hc hc' heq
  exact ⟨hpq hp, hrest⟩

theorem reads_quote (text text' : JsString) : Reads (text = text') (quote text) (quote text') :=
  fun _ _ _ _ h => quote_append h

theorem reads_number (x x' : ν) : Reads (x = x') (format.text x) (format.text x') := by
  have hspan : ∀ y rest, Closed rest → (format.text y ++ rest).takeWhile isNumeric = format.text y := by
    intro y rest hc
    rw [List.takeWhile_append_of_pos (format.text_numeric y)]
    cases rest with
    | nil => rw [List.takeWhile_nil, List.append_nil]
    | cons u rest => rw [List.takeWhile_cons_of_neg (by rw [hc u rfl]; exact Bool.false_ne_true), List.append_nil]
  intro rest rest' hc hc' h
  have htext : format.text x = format.text x' := by rw [← hspan x rest hc, h, hspan x' rest' hc']
  rw [htext] at h
  exact ⟨NumberFormat.text_inj htext, List.append_cancel_left h⟩

theorem reads_field {P : Prop} {key key' text text' : JsString} (h : Reads P text text') :
    Reads (key = key' ∧ P) (fieldText key text) (fieldText key' text') := by
  intro rest rest' hc hc' heq
  unfold fieldText at heq
  rw [List.append_assoc, List.append_assoc] at heq
  obtain ⟨hkey, hvalue⟩ := quote_append heq
  obtain ⟨hp, hrest⟩ := h rest rest' hc hc' (List.cons.inj hvalue).2
  exact ⟨⟨hkey, hp⟩, hrest⟩

/-- The text starts with a code unit that closes nothing. -/
def Opens (text : JsString) : Prop := ∃ u rest, text = u :: rest ∧ u ≠ 93 ∧ u ≠ 125

section Join

variable {α β : Type} {R : α → β → Prop} {w : α → JsString} {w' : β → JsString} {close : UInt16}

theorem closed_tail (hclose : isNumeric close = false) (texts : List JsString) (rest : JsString) :
    Closed ((texts.flatMap fun t => 44 :: t) ++ close :: rest) := by
  intro u hu
  cases texts with
  | nil =>
    cases hu
    exact hclose
  | cons text texts =>
    cases hu
    decide

theorem reads_tail (hclose : isNumeric close = false) (hne : close ≠ 44) {as : List α} {bs : List β}
    (h : ∀ a ∈ as, ∀ b ∈ bs, Reads (R a b) (w a) (w' b)) {rest rest' : JsString}
    (heq : ((as.map w).flatMap fun t => 44 :: t) ++ close :: rest =
      ((bs.map w').flatMap fun t => 44 :: t) ++ close :: rest') : List.Forall₂ R as bs ∧ rest = rest' := by
  induction as generalizing bs with
  | nil =>
    cases bs with
    | nil => exact ⟨.nil, (List.cons.inj heq).2⟩
    | cons b bs => exact absurd (List.cons.inj heq).1 hne
  | cons a as ih =>
    cases bs with
    | nil => exact absurd (List.cons.inj heq).1.symm hne
    | cons b bs =>
      simp only [List.map_cons, List.flatMap_cons, List.cons_append, List.append_assoc] at heq
      obtain ⟨hab, htail⟩ := h a List.mem_cons_self b List.mem_cons_self _ _ (closed_tail hclose _ _)
        (closed_tail hclose _ _) (List.cons.inj heq).2
      obtain ⟨hall, hrest⟩ :=
        ih (fun x hx y hy => h x (List.mem_cons_of_mem _ hx) y (List.mem_cons_of_mem _ hy)) htail
      exact ⟨.cons hab hall, hrest⟩

theorem opens_ne {text : JsString} (h : Opens text) (hclose : close = 93 ∨ close = 125) (rest rest' : JsString) :
    text ++ rest ≠ close :: rest' := by
  intro heq
  obtain ⟨u, tail, rfl, harray, hobject⟩ := h
  have hu := (List.cons.inj heq).1
  rcases hclose with rfl | rfl
  · exact harray hu
  · exact hobject hu

theorem reads_join (hclose : close = 93 ∨ close = 125) {as : List α} {bs : List β} (hopens : ∀ a ∈ as, Opens (w a))
    (hopens' : ∀ b ∈ bs, Opens (w' b)) (h : ∀ a ∈ as, ∀ b ∈ bs, Reads (R a b) (w a) (w' b)) {rest rest' : JsString} (heq
    : join (as.map w) ++ close :: rest = join (bs.map w') ++ close :: rest') : List.Forall₂ R as bs ∧ rest = rest' := by
  have hnumeric : isNumeric close = false := by rcases hclose with rfl | rfl <;> decide
  have hne : close ≠ 44 := by rcases hclose with rfl | rfl <;> decide
  cases as with
  | nil =>
    cases bs with
    | nil => exact ⟨.nil, (List.cons.inj heq).2⟩
    | cons b bs =>
      rw [List.map_cons, join, List.append_assoc] at heq
      exact absurd heq.symm (opens_ne (hopens' b List.mem_cons_self) hclose _ _)
  | cons a as =>
    cases bs with
    | nil =>
      rw [List.map_cons, join, List.append_assoc] at heq
      exact absurd heq (opens_ne (hopens a List.mem_cons_self) hclose _ _)
    | cons b bs =>
      rw [List.map_cons, List.map_cons, join, join, List.append_assoc, List.append_assoc] at heq
      obtain ⟨hab, htail⟩ := h a List.mem_cons_self b List.mem_cons_self _ _ (closed_tail hnumeric _ _)
        (closed_tail hnumeric _ _) heq
      obtain ⟨hall, hrest⟩ := reads_tail hnumeric hne
        (fun x hx y hy => h x (List.mem_cons_of_mem _ hx) y (List.mem_cons_of_mem _ hy)) htail
      exact ⟨.cons hab hall, hrest⟩

end Join

/-! ## The first unit -/

namespace JsonTree

def kind : JsonTree ν → Nat
  | .bool true => 0
  | .bool false => 1
  | .number _ => 2
  | .string _ => 3
  | .array _ => 4
  | .object _ => 5
  | .null => 6

def kindOf (u : UInt16) : Nat :=
  if u = 116 then 0 else if u = 102 then 1 else if isNumeric u then 2 else if u = 34 then 3 else if u = 91 then 4
  else if u = 123 then 5 else if u = 110 then 6 else 7

theorem render_head (format : NumberFormat ν) (arrange : List JsString → List JsString) (t : JsonTree ν) :
    ∃ u rest, t.render format arrange = u :: rest ∧ kindOf u = t.kind := by
  cases t with
  | null =>
    rw [render]
    exact ⟨110, js "ull", by decide, show kindOf 110 = 6 by decide⟩
  | bool b =>
    cases b with
    | true =>
      rw [render]
      exact ⟨116, js "rue", by decide, show kindOf 116 = 0 by decide⟩
    | false =>
      rw [render]
      exact ⟨102, js "alse", by decide, show kindOf 102 = 1 by decide⟩
  | number x =>
    rw [render]
    cases htext : format.text x with
    | nil => exact absurd htext (Numeral.text_ne_nil _)
    | cons u rest =>
      have hu : isNumeric u = true := format.text_numeric x u (by rw [htext]; exact List.mem_cons_self)
      refine ⟨u, rest, rfl, ?_⟩
      unfold kindOf
      rw [if_neg, if_neg, if_pos hu]
      · rfl
      · rintro rfl
        cases hu
      · rintro rfl
        cases hu
  | string text =>
    rw [render]
    exact ⟨_, _, rfl, show kindOf 34 = 3 by decide⟩
  | array items =>
    rw [render]
    exact ⟨_, _, rfl, show kindOf 91 = 4 by decide⟩
  | object fields =>
    rw [render]
    exact ⟨_, _, rfl, show kindOf 123 = 5 by decide⟩

theorem kind_eq {t t' : JsonTree ν} {rest rest' : JsString}
    (h : t.render format arrange ++ rest = t'.render format arrange ++ rest') : t.kind = t'.kind := by
  obtain ⟨u, tail, hrender, hkind⟩ := render_head format arrange t
  obtain ⟨u', tail', hrender', hkind'⟩ := render_head format arrange t'
  rw [hrender, hrender', List.cons_append, List.cons_append] at h
  rw [← hkind, ← hkind', (List.cons.inj h).1]

theorem opens_render (t : JsonTree ν) : Opens (t.render format arrange) := by
  obtain ⟨u, rest, hrender, hkind⟩ := render_head format arrange t
  have hlt : t.kind < 7 := by
    unfold kind
    split <;> decide
  refine ⟨u, rest, hrender, ?_, ?_⟩
  · rintro rfl
    rw [← hkind] at hlt
    exact absurd hlt (by decide)
  · rintro rfl
    rw [← hkind] at hlt
    exact absurd hlt (by decide)

theorem opens_field (key text : JsString) : Opens (fieldText key text) :=
  ⟨34, _, rfl, by decide, by decide⟩

/-! ## Unique readability -/

/-- The value of a key of the record, and its text. -/
theorem lookup_text (format : NumberFormat ν) (arrange : List JsString → List JsString) {key : JsString}
    {fields : List (JsString × JsonTree ν)} (h : key ∈ fields.map Prod.fst) :
    ∃ v, property key fields = some v ∧
      (property key (renderFields format arrange fields)).getD [] = v.render format arrange := by
  obtain ⟨v, hv⟩ := exists_property h
  refine ⟨v, hv, ?_⟩
  rw [property_renderFields, hv]
  rfl

/-- A text tells its value up to the order of keys. -/
theorem reads_render (harrange : ∀ keys, (arrange keys).Perm keys) {t t' : JsonTree ν} (ht : t.Proper)
    (ht' : t'.Proper) : Reads (Same t t') (t.render format arrange) (t'.render format arrange) := by
  induction ht generalizing t' with
  | null =>
    intro rest rest' _ _ h
    have hkind := kind_eq h
    cases t' with
    | null => exact ⟨.null, List.append_cancel_left h⟩
    | bool b' => cases b' <;> cases hkind
    | _ => cases hkind
  | bool b =>
    intro rest rest' _ _ h
    have hkind := kind_eq h
    cases t' with
    | bool b' =>
      cases b <;> cases b'
      · exact ⟨.bool _, List.append_cancel_left h⟩
      · cases hkind
      · cases hkind
      · exact ⟨.bool _, List.append_cancel_left h⟩
    | _ => cases b <;> cases hkind
  | number x =>
    intro rest rest' hc hc' h
    have hkind := kind_eq h
    cases t' with
    | number x' =>
      rw [render, render] at h
      exact (reads_number x x').mono (fun heq => heq ▸ Same.number x) rest rest' hc hc' h
    | bool b' => cases b' <;> cases hkind
    | _ => cases hkind
  | string text =>
    intro rest rest' hc hc' h
    have hkind := kind_eq h
    cases t' with
    | string text' =>
      rw [render, render] at h
      exact (reads_quote text text').mono (fun heq => heq ▸ Same.string text) rest rest' hc hc' h
    | bool b' => cases b' <;> cases hkind
    | _ => cases hkind
  | array items _ ih =>
    intro rest rest' hc hc' h
    have hkind := kind_eq h
    cases t' with
    | array items' =>
      cases ht' with
      | array _ hitems' =>
        rw [render, render, renderItems_eq, renderItems_eq, List.cons_append, List.cons_append,
          List.append_assoc, List.append_assoc] at h
        obtain ⟨hall, hrest⟩ := reads_join (.inl rfl) (fun a _ => opens_render a) (fun b _ => opens_render b)
          (fun a ha b hb => ih a ha (hitems' b hb)) (List.cons.inj h).2
        refine ⟨.array items items' hall.length_eq fun i v v' hv hv' => ?_, hrest⟩
        obtain ⟨hi, rfl⟩ := List.getElem?_eq_some_iff.mp hv
        obtain ⟨hi', rfl⟩ := List.getElem?_eq_some_iff.mp hv'
        exact List.Forall₂.get hall hi hi'
    | bool b' => cases b' <;> cases hkind
    | _ => cases hkind
  | object fields hnodup _ ih =>
    intro rest rest' hc hc' h
    have hkind := kind_eq h
    cases t' with
    | object fields' =>
      cases ht' with
      | object _ hnodup' hfields' =>
        rw [render, render, List.cons_append, List.cons_append, List.append_assoc, List.append_assoc] at h
        -- Two keys at one place are the same key, with the same value.
        have hfield : ∀ key ∈ arrange (fields.map Prod.fst), ∀ key' ∈ arrange (fields'.map Prod.fst),
            Reads (key = key' ∧ ∀ v v', (key, v) ∈ fields → (key', v') ∈ fields' → Same v v')
              (fieldText key ((property key (renderFields format arrange fields)).getD []))
              (fieldText key' ((property key' (renderFields format arrange fields')).getD [])) := by
          intro key hkey key' hkey'
          obtain ⟨v, hv, htext⟩ := lookup_text format arrange
            ((harrange _).mem_iff.mp hkey)
          obtain ⟨v', hv', htext'⟩ := lookup_text format arrange
            ((harrange _).mem_iff.mp hkey')
          rw [htext, htext']
          apply (reads_field (ih (key, v) (mem_of_property hv)
            (hfields' (key', v') (mem_of_property hv')))).mono
          rintro ⟨heq, hsame⟩
          refine ⟨heq, fun u u' hu hu' => ?_⟩
          rw [property_eq hnodup hu] at hv
          rw [property_eq hnodup' hu'] at hv'
          cases hv
          cases hv'
          exact hsame
        obtain ⟨hall, hrest⟩ := reads_join (.inr rfl) (fun key _ => opens_field key _)
          (fun key _ => opens_field key _) hfield (List.cons.inj h).2
        refine ⟨?_, hrest⟩
        have hkeys : arrange (fields.map Prod.fst) = arrange (fields'.map Prod.fst) :=
          List.forall₂_eq_eq_eq ▸ hall.imp fun _ _ h => h.1
        have hmem : ∀ key, key ∈ fields.map Prod.fst ↔ key ∈ fields'.map Prod.fst := by
          intro key
          rw [← (harrange _).mem_iff, hkeys, (harrange _).mem_iff]
        refine .object fields fields' hmem fun key v v' hv hv' => ?_
        have hkey : key ∈ arrange (fields.map Prod.fst) :=
          (harrange _).mem_iff.mpr (List.mem_map.mpr ⟨(key, v), hv, rfl⟩)
        obtain ⟨i, hi, rfl⟩ := List.getElem_of_mem hkey
        have hi' : i < (arrange (fields'.map Prod.fst)).length := hkeys ▸ hi
        have hat := List.Forall₂.get hall hi hi'
        exact hat.2 v v' hv (hat.1 ▸ hv')
    | bool b' => cases b' <;> cases hkind
    | _ => cases hkind

theorem same_of_render (harrange : ∀ keys, (arrange keys).Perm keys) {t t' : JsonTree ν} (ht : t.Proper)
    (ht' : t'.Proper) (h : t.render format arrange = t'.render format arrange) : Same t t' := by
  have hnil : Closed [] := fun u hu => by cases hu
  exact (reads_render harrange ht ht' [] [] hnil hnil (by rw [h])).1

end JsonTree

end RabiRoute.JsonText
