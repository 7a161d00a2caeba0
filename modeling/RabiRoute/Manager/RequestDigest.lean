import RabiRoute.JsonText.Tree

/-!
# The digest text of a payload

`stableJson`: the keys of each object are sorted by their code units, so the text does not depend on the order in
which they stand, and it tells everything else.
-/

namespace RabiRoute.RequestDigest

open JsonText JsonText.JsonTree

variable {ν : Type} {format : NumberFormat ν}

/-- `Object.keys(record).sort()` -/
def sortKeys (keys : List JsString) : List JsString := keys.insertionSort (· ≤ ·)

/-- `stableJson(value)` -/
def stableJson (format : NumberFormat ν) (value : JsonTree ν) : JsString := value.render format sortKeys

theorem sortKeys_perm (keys : List JsString) : (sortKeys keys).Perm keys := List.perm_insertionSort _ keys

theorem sortKeys_congr {keys keys' : List JsString} (h : keys.Perm keys') : sortKeys keys = sortKeys keys' := by
  have hle : Std.Antisymm fun a b : JsString => a ≤ b := ⟨fun _ _ hab hba => Std.le_antisymm hab hba⟩
  have hperm : (sortKeys keys).Perm (sortKeys keys') :=
    ((sortKeys_perm keys).trans h).trans (sortKeys_perm keys').symm
  exact hperm.eq_of_pairwise' (List.pairwise_insertionSort _ keys) (List.pairwise_insertionSort _ keys')

/-- The order of keys does not count. -/
theorem stableJson_congr {t t' : JsonTree ν} (h : Same t t') (ht : t.Proper) (ht' : t'.Proper) :
    stableJson format t = stableJson format t' := by
  unfold stableJson
  induction h with
  | null | bool | number | string => rfl
  | array items items' hlength _ ih =>
    cases ht with
    | array _ hitems =>
      cases ht' with
      | array _ hitems' =>
        have htexts : items.map (render format sortKeys) = items'.map (render format sortKeys) := by
          apply List.ext_getElem (by rw [List.length_map, List.length_map, hlength])
          intro i hi hi'
          rw [List.length_map] at hi hi'
          rw [List.getElem_map, List.getElem_map]
          exact ih i _ _ (List.getElem?_eq_getElem hi) (List.getElem?_eq_getElem hi')
            (hitems _ (List.getElem_mem hi)) (hitems' _ (List.getElem_mem hi'))
        rw [render, render, renderItems_eq, renderItems_eq, htexts]
  | object fields fields' hkeys _ ih =>
    cases ht with
    | object _ hnodup hfields =>
      cases ht' with
      | object _ hnodup' hfields' =>
        have hperm : (fields.map Prod.fst).Perm (fields'.map Prod.fst) :=
          (List.perm_ext_iff_of_nodup hnodup hnodup').mpr hkeys
        rw [render, render, sortKeys_congr hperm]
        have htexts : ∀ key ∈ sortKeys (fields'.map Prod.fst),
            fieldText key ((property key (renderFields format sortKeys fields)).getD []) =
              fieldText key ((property key (renderFields format sortKeys fields')).getD []) := by
          intro key hkey
          have hmem := (sortKeys_perm _).mem_iff.mp hkey
          obtain ⟨v, hv, htext⟩ := lookup_text format sortKeys ((hkeys key).mpr hmem)
          obtain ⟨v', hv', htext'⟩ := lookup_text format sortKeys hmem
          have hvm := mem_of_property hv
          have hvm' := mem_of_property hv'
          rw [htext, htext', ih key v v' hvm hvm' (hfields _ hvm) (hfields' _ hvm')]
        rw [List.map_congr_left htexts]

/-- Two payloads have the same digest text exactly when they are equal up to the order of object keys. -/
theorem stableJson_canonical (format : NumberFormat ν) (a b : JsonValue ν) :
    stableJson format a.1 = stableJson format b.1 ↔ Same a.1 b.1 :=
  ⟨same_of_render sortKeys_perm a.2 b.2, fun h ↦ stableJson_congr h a.2 b.2⟩

example : stableJson ⟨id, id, fun _ ↦ rfl⟩ (.object [(js "b", .array [.null, .number .zero]), (js "a", .object [])]) =
    js "\x7b\"a\":\x7b\x7d,\"b\":[null,0]\x7d" := by decide

end RabiRoute.RequestDigest
