import RabiRoute.Shared.JsString

/-!
# Cleaned texts

`cleanText` trims and then cuts.  The cut can leave white space at the end, so a text that was
cleaned once may change when it is cleaned again.
-/

namespace RabiRoute

/-- `cleanText(value, maxLength)`; `none` is `undefined`. -/
def cleanText (maxLength : Nat) (value : Option JsString) : Option JsString :=
  let text := JsString.trim (value.getD [])
  if text.isEmpty then none else some (text.take maxLength)

/-- `slice(-n)` -/
def sliceLast {α : Type} (n : Nat) (l : List α) : List α := l.drop (l.length - n)

/-- `stringList(value, maxItems)` -/
def stringList (maxItems : Nat) (value : List JsString) : List JsString :=
  sliceLast maxItems ((value.map JsString.trim).filter fun item ↦ !item.isEmpty)

/-! ## Texts that are trimmed -/

namespace JsString

/-- A text that does not start with white space. -/
def Headed (s : JsString) : Prop := ∀ u t, s = u :: t → isWhitespace u = false

theorem headed_trimStart (s : JsString) : Headed (trimStart s) := by
  intro u t h
  have hhead := List.head?_dropWhile_not isWhitespace s
  unfold trimStart at h
  rw [h] at hhead
  exact hhead

theorem Headed.trimStart {s : JsString} (h : Headed s) : trimStart s = s := by
  cases s with
  | nil => rfl
  | cons u t => simp [JsString.trimStart, h u t rfl]

theorem trimEnd_isPrefix (s : JsString) : trimEnd s <+: s := by
  unfold trimEnd
  have hsuffix : s.reverse.dropWhile isWhitespace <:+ s.reverse := List.dropWhile_suffix _
  exact List.reverse_suffix.mp (by simpa using hsuffix)

theorem Headed.of_isPrefix {s t : JsString} (h : Headed t) (hst : s <+: t) : Headed s := by
  rintro u v rfl
  obtain ⟨w, rfl⟩ := hst
  exact h u (v ++ w) rfl

theorem headed_trim (s : JsString) : Headed (trim s) := (headed_trimStart s).of_isPrefix (trimEnd_isPrefix _)

theorem trimEnd_trimEnd (s : JsString) : trimEnd (trimEnd s) = trimEnd s := by
  have h : Headed (s.reverse.dropWhile isWhitespace) := headed_trimStart s.reverse
  unfold trimEnd
  rw [List.reverse_reverse]
  exact congrArg List.reverse h.trimStart

@[simp] theorem trim_trim (s : JsString) : trim (trim s) = trim s := by
  have hstart : trimStart (trim s) = trim s := (headed_trim s).trimStart
  rw [trim, hstart, trim, trimEnd_trimEnd]

/-- A text without white space. -/
theorem trim_plain {t : JsString} (h : ∀ u ∈ t, isWhitespace u = false) : trim t = t := by
  have hdrop : ∀ {t : JsString}, (∀ u ∈ t, isWhitespace u = false) → t.dropWhile isWhitespace = t := by
    intro t h
    cases t with
    | nil => rfl
    | cons u t => exact List.dropWhile_cons_of_neg (by rw [h u List.mem_cons_self]; exact Bool.false_ne_true)
  unfold trim trimStart trimEnd
  rw [hdrop h, hdrop fun u hu => h u (List.mem_reverse.mp hu), List.reverse_reverse]

/-- A text that starts with something else than white space keeps that when it is trimmed. -/
theorem Headed.trim_ne_nil {s : JsString} (h : Headed s) (hs : s ≠ []) : trim s ≠ [] := by
  cases s with
  | nil => exact absurd rfl hs
  | cons u t =>
    unfold trim
    rw [h.trimStart]
    intro hnil
    have hall := List.dropWhile_eq_nil_iff.mp (List.reverse_eq_nil_iff.mp hnil) u (by simp)
    rw [h u t rfl] at hall
    cases hall

end JsString

theorem cleanText_eq_some {n : Nat} {value : Option JsString} {text : JsString} (h : cleanText n value = some text) :
    JsString.trim (value.getD []) ≠ [] ∧ text = (JsString.trim (value.getD [])).take n := by
  unfold cleanText at h
  dsimp only at h
  split at h
  · cases h
  case isFalse hne => exact ⟨by simpa using hne, (Option.some.inj h).symm⟩

/-- A cleaned text is still a text when it is cleaned again. -/
theorem cleanText_again {n m : Nat} {value : Option JsString} {text : JsString} (hn : 0 < n)
    (h : cleanText n value = some text) : (cleanText m (some text)).isSome = true := by
  obtain ⟨hne, rfl⟩ := cleanText_eq_some h
  have hheaded : JsString.Headed ((JsString.trim (value.getD [])).take n) :=
    (JsString.headed_trim _).of_isPrefix (List.take_prefix n _)
  have htake : (JsString.trim (value.getD [])).take n ≠ [] := by
    rw [ne_eq, List.take_eq_nil_iff, not_or]
    exact ⟨Nat.ne_of_gt hn, hne⟩
  have htrim := hheaded.trim_ne_nil htake
  unfold cleanText
  dsimp only
  rw [if_neg (by simpa using htrim)]
  rfl

theorem sliceLast_of_le {α : Type} {n : Nat} {l : List α} (h : l.length ≤ n) : sliceLast n l = l := by
  unfold sliceLast
  rw [Nat.sub_eq_zero_of_le h, List.drop_zero]

theorem length_sliceLast {α : Type} (n : Nat) (l : List α) : (sliceLast n l).length ≤ n := by
  unfold sliceLast
  rw [List.length_drop]
  omega

theorem mem_stringList {n : Nat} {value : List JsString} {item : JsString} (h : item ∈ stringList n value) :
    JsString.trim item = item ∧ item ≠ [] := by
  obtain ⟨hmem, hne⟩ := List.mem_filter.mp (List.mem_of_mem_drop h)
  obtain ⟨text, -, rfl⟩ := List.mem_map.mp hmem
  exact ⟨JsString.trim_trim text, by simpa using hne⟩

/-- A list of texts that was cleaned once does not change any more. -/
theorem stringList_again (n : Nat) (value : List JsString) :
    stringList n (stringList n value) = stringList n value := by
  have hmap : (stringList n value).map JsString.trim = stringList n value :=
    (List.map_congr_left fun item hitem => (mem_stringList hitem).1).trans (List.map_id _)
  have hfilter : (stringList n value).filter (fun item => !item.isEmpty) = stringList n value :=
    List.filter_eq_self.mpr fun item hitem => by simpa using (mem_stringList hitem).2
  show sliceLast n (((stringList n value).map JsString.trim).filter fun item => !item.isEmpty) = _
  rw [hmap, hfilter]
  exact sliceLast_of_le (length_sliceLast n _)

end RabiRoute
