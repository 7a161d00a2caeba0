import Mathlib.Data.List.DropRight
import RabiRoute.Shared.CleanText
import RabiRoute.Text.Split
import RabiRoute.Text.UriComponent

/-!
# The names of routes

`sanitizeConfigName` makes the name of a route's folder of any text.  A config name is a text that it leaves as it is,
and everything that it gives is one.
-/

namespace RabiRoute.RouteNames

open UriComponent (Character characters)

/-- The class `[\p{L}\p{N}]`.  It has the letters and digits of ASCII and no white space. -/
structure Letters where
  isLetter : Char → Bool
  ascii : ∀ c : Char, c.isAlphanum = true → isLetter c = true
  visible : ∀ c, isLetter c = true → ∀ u ∈ codeUnits c, JsString.isWhitespace u = false

/-- Keeps the items for which `keep` gives something, and puts `mark` for each run of others.  `inside` says that a
run has begun. -/
def replaceRuns {α β : Type} (keep : α → Option β) (mark : β) : Bool → List α → List β
  | _, [] => []
  | inside, a :: rest =>
    match keep a with
    | some b => b :: replaceRuns keep mark false rest
    | none => if inside then replaceRuns keep mark true rest else mark :: replaceRuns keep mark true rest

def isDash (c : Char) : Bool := c = '-' || c = '_'

def notHyphen (c : Char) : Option Char := if c = '-' then none else some c

section

variable (letters : Letters)

/-- `[\p{L}\p{N}_-]` -/
def isWord (c : Char) : Bool := letters.isLetter c || isDash c

def wordOf : Character → Option Char
  | .scalar c => if isWord letters c then some c else none
  | .lone _ => none

/-- The characters of a name, without the hyphens and underscores at its ends. -/
def nameChars (value : JsString) : List Char :=
  let replaced := replaceRuns (wordOf letters) '-' false (characters value.trim)
  ((replaceRuns notHyphen '-' false replaced).dropWhile isDash).rdropWhile isDash

def sanitizeConfigName (value : JsString) : JsString := (nameChars letters value).flatMap codeUnits

def sanitizeRoleId (raw : JsString) : JsString :=
  let value := raw.trim
  if (characters value).all fun c ↦ (wordOf letters c).isSome then value else []

/-- `a || b`, for texts. -/
def orText (a b : JsString) : JsString := if a = [] then b else a

def routeRuntimeId (configName : JsString) : JsString := orText (sanitizeConfigName letters configName) (js "default")

structure RouteRuntimeParts where
  roleId : JsString
  configName : JsString

def routeRuntimeParts (id : JsString) : RouteRuntimeParts :=
  let runtimeId := id.trim
  match Text.split (js "__") runtimeId with
  | roleId :: second :: rest =>
    ⟨sanitizeRoleId letters roleId,
      orText (sanitizeConfigName letters ((js "__").intercalate (second :: rest))) (js "default")⟩
  | _ => ⟨[], orText (sanitizeConfigName letters runtimeId) (js "default")⟩

structure RouteIdentityInput where
  id : JsString
  agentRoleId : Option JsString := none
  configName : Option JsString := none
  fallbackRoleId : Option JsString := none
  fallbackConfigName : Option JsString := none

structure RouteIdentity extends RouteRuntimeParts where
  runtimeId : JsString

def resolveRouteIdentity (input : RouteIdentityInput) : RouteIdentity :=
  let parts := routeRuntimeParts letters input.id
  let roleId :=
    match input.agentRoleId with
    | some agentRoleId => sanitizeRoleId letters agentRoleId
    | none => orText parts.roleId (sanitizeRoleId letters (input.fallbackRoleId.getD []))
  let configName :=
    orText (sanitizeConfigName letters (input.configName.getD []))
      (orText (if input.id.trim = [] then [] else parts.configName)
        (orText (sanitizeConfigName letters (input.fallbackConfigName.getD [])) (js "default")))
  ⟨⟨roleId, configName⟩, routeRuntimeId letters configName⟩

/-- A text that names a config. -/
def IsConfigName (name : JsString) : Prop := sanitizeConfigName letters name = name ∧ name ≠ []

end

variable {letters : Letters}

/-! ## Replacing runs -/

section

variable {α β : Type} {keep : α → Option β} {mark : β}

/-- The marks of two runs do not meet. -/
theorem isChain_replaceRuns (hkeep : ∀ a, keep a ≠ some mark) (inside : Bool) (l : List α) :
    ((replaceRuns keep mark inside l).IsChain fun a b => ¬(a = mark ∧ b = mark)) ∧
      (inside = true → (replaceRuns keep mark inside l).head? ≠ some mark) := by
  induction l generalizing inside with
  | nil => exact ⟨.nil, fun _ h => by cases h⟩
  | cons a l ih =>
    unfold replaceRuns
    cases ha : keep a with
    | some b =>
      have hb : b ≠ mark := fun h => hkeep a (h ▸ ha)
      refine ⟨?_, fun _ h => hb (Option.some.inj h)⟩
      exact List.isChain_cons.mpr ⟨fun c _ h => hb h.1, (ih false).1⟩
    | none =>
      cases inside with
      | true => exact ⟨(ih true).1, fun _ => (ih true).2 rfl⟩
      | false =>
        refine ⟨List.isChain_cons.mpr ⟨fun c hc h => ?_, (ih true).1⟩, fun h => by cases h⟩
        exact (ih true).2 rfl (h.2 ▸ hc)

theorem mem_replaceRuns {inside : Bool} {l : List α} {b : β} (h : b ∈ replaceRuns keep mark inside l) :
    b = mark ∨ ∃ a ∈ l, keep a = some b := by
  induction l generalizing inside with
  | nil => cases h
  | cons a l ih =>
    have hlater : ∀ {inside}, b ∈ replaceRuns keep mark inside l → b = mark ∨ ∃ x ∈ a :: l, keep x = some b := by
      intro inside h
      rcases ih h with h | ⟨x, hx, hkeep⟩
      · exact .inl h
      · exact .inr ⟨x, List.mem_cons_of_mem a hx, hkeep⟩
    unfold replaceRuns at h
    cases ha : keep a with
    | some c =>
      rw [ha] at h
      rcases List.mem_cons.mp h with rfl | h
      · exact .inr ⟨a, List.mem_cons_self, ha⟩
      · exact hlater h
    | none =>
      rw [ha] at h
      cases inside with
      | true => exact hlater h
      | false =>
        rcases List.mem_cons.mp h with h | h
        · exact .inl h
        · exact hlater h

/-- Where everything is kept, nothing is replaced. -/
theorem replaceRuns_map {f : β → α} {l : List β} (h : ∀ b ∈ l, keep (f b) = some b) :
    replaceRuns keep mark false (l.map f) = l := by
  induction l with
  | nil => rfl
  | cons b l ih =>
    rw [List.map_cons, replaceRuns, h b List.mem_cons_self]
    exact congrArg (b :: ·) (ih fun c hc => h c (List.mem_cons_of_mem b hc))

end

/-- Single hyphens are left alone. -/
theorem replaceRuns_hyphens {inside : Bool} {l : List Char} (hchain : l.IsChain fun a b => ¬(a = '-' ∧ b = '-'))
    (hhead : inside = true → l.head? ≠ some '-') : replaceRuns notHyphen '-' inside l = l := by
  induction l generalizing inside with
  | nil => rfl
  | cons c l ih =>
    obtain ⟨hnext, hrest⟩ := List.isChain_cons.mp hchain
    unfold replaceRuns
    by_cases hc : c = '-'
    · have hout : inside = false := by
        cases inside with
        | true => exact absurd (congrArg some hc) (hhead rfl)
        | false => rfl
      have hkeep : notHyphen c = none := if_pos hc
      rw [hkeep, hout]
      show '-' :: replaceRuns notHyphen '-' true l = c :: l
      rw [ih hrest fun _ hl => hnext '-' hl ⟨hc, rfl⟩, hc]
    · have hkeep : notHyphen c = some c := if_neg hc
      rw [hkeep]
      show c :: replaceRuns notHyphen '-' false l = c :: l
      rw [ih hrest fun h => by cases h]

/-! ## Clean names -/

/-- The characters of a config name. -/
structure Clean (letters : Letters) (l : List Char) : Prop where
  words : ∀ c ∈ l, isWord letters c = true
  single : l.IsChain fun a b ↦ ¬(a = '-' ∧ b = '-')
  first : ∀ c, l.head? = some c → isDash c = false
  last : ∀ c, l.getLast? = some c → isDash c = false

theorem clean_nameChars (value : JsString) : Clean letters (nameChars letters value) := by
  have hpart : nameChars letters value <:+: replaceRuns notHyphen '-' false
      (replaceRuns (wordOf letters) '-' false (characters value.trim)) :=
    (List.rdropWhile_prefix _ _).isInfix.trans (List.dropWhile_suffix _).isInfix
  constructor
  · intro c hc
    rcases mem_replaceRuns (hpart.subset hc) with rfl | ⟨d, hd, hkeep⟩
    · exact Bool.or_eq_true_iff.mpr (.inr rfl)
    · obtain rfl : d = c := by
        unfold notHyphen at hkeep
        split at hkeep
        · cases hkeep
        · exact Option.some.inj hkeep
      rcases mem_replaceRuns hd with rfl | ⟨character, -, hword⟩
      · exact Bool.or_eq_true_iff.mpr (.inr rfl)
      · cases character with
        | lone u => cases hword
        | scalar c =>
          unfold wordOf at hword
          dsimp only at hword
          split at hword
          · exact Option.some.inj hword ▸ ‹_›
          · cases hword
  · have hkeep : ∀ c, notHyphen c ≠ some '-' := by
      intro c
      unfold notHyphen
      split
      · exact fun h => by cases h
      · exact fun h => absurd (Option.some.inj h) ‹_›
    obtain ⟨before, after, hsplit⟩ := hpart
    have hall := (isChain_replaceRuns hkeep false (replaceRuns (wordOf letters) '-' false (characters value.trim))).1
    rw [← hsplit] at hall
    exact hall.left_of_append.right_of_append
  · intro c hc
    have hfirst := List.head?_dropWhile_not isDash (replaceRuns notHyphen '-' false
      (replaceRuns (wordOf letters) '-' false (characters value.trim)))
    obtain ⟨rest, hrest⟩ := List.rdropWhile_prefix isDash ((replaceRuns notHyphen '-' false
      (replaceRuns (wordOf letters) '-' false (characters value.trim))).dropWhile isDash)
    rw [← hrest, List.head?_append, show List.head? (List.rdropWhile _ _) = some c from hc] at hfirst
    exact hfirst
  · intro c hc
    by_contra hdash
    rw [Bool.not_eq_false] at hdash
    have hne : nameChars letters value ≠ [] := by
      intro hnil
      rw [hnil] at hc
      cases hc
    refine List.rdropWhile_last_not isDash _ hne ?_
    rw [List.getLast?_eq_getLast_of_ne_nil hne] at hc
    exact Option.some.inj hc ▸ hdash

theorem Clean.visible {l : List Char} (h : Clean letters l) :
    ∀ u ∈ l.flatMap codeUnits, JsString.isWhitespace u = false := by
  intro u hu
  obtain ⟨c, hc, huc⟩ := List.mem_flatMap.mp hu
  rcases Bool.or_eq_true_iff.mp (h.words c hc) with hletter | hdash
  · exact letters.visible c hletter u huc
  · have hmark : c = '-' ∨ c = '_' := by
      rcases Bool.or_eq_true_iff.mp hdash with h | h
      · exact .inl (of_decide_eq_true h)
      · exact .inr (of_decide_eq_true h)
    have hmarks : ∀ u ∈ codeUnits '-' ++ codeUnits '_', JsString.isWhitespace u = false :=
      JsString.forall_of_all (by decide)
    rcases hmark with rfl | rfl
    · exact hmarks u (List.mem_append_left _ huc)
    · exact hmarks u (List.mem_append_right _ huc)

theorem Clean.wordOf {l : List Char} (h : Clean letters l) (c : Char) (hc : c ∈ l) :
    wordOf letters (.scalar c) = some c :=
  if_pos (h.words c hc)

/-- A clean name is read as it stands. -/
theorem Clean.nameChars {l : List Char} (h : Clean letters l) : nameChars letters (l.flatMap codeUnits) = l := by
  unfold RouteNames.nameChars
  dsimp only
  rw [JsString.trim_plain h.visible, UriComponent.characters_flatMap, replaceRuns_map h.wordOf,
    replaceRuns_hyphens h.single fun hinside => by cases hinside]
  have hdrop : l.dropWhile isDash = l := by
    cases l with
    | nil => rfl
    | cons c l => rw [List.dropWhile_cons_of_neg (by rw [h.first c rfl]; exact Bool.false_ne_true)]
  rw [hdrop, List.rdropWhile_eq_self_iff]
  intro hne
  rw [h.last _ (List.getLast?_eq_getLast_of_ne_nil hne)]
  exact Bool.false_ne_true

theorem Clean.isConfigName {l : List Char} (h : Clean letters l) (hne : l.flatMap codeUnits ≠ []) :
    IsConfigName letters (l.flatMap codeUnits) := by
  refine ⟨?_, hne⟩
  unfold sanitizeConfigName
  rw [h.nameChars]

theorem isConfigName_sanitize {value : JsString} (hne : sanitizeConfigName letters value ≠ []) :
    IsConfigName letters (sanitizeConfigName letters value) :=
  (clean_nameChars value).isConfigName hne

theorem isConfigName_default : IsConfigName letters (js "default") := by
  refine Clean.isConfigName ⟨fun c hc => ?_, by decide, ?_, ?_⟩ (by decide)
  · have hall : "default".toList.all Char.isAlphanum = true := by decide
    exact Bool.or_eq_true_iff.mpr (.inl (letters.ascii c (List.all_eq_true.mp hall c hc)))
  · intro c hc
    obtain rfl := Option.some.inj hc
    decide
  · intro c hc
    obtain rfl := Option.some.inj hc
    decide

theorem IsConfigName.orText {a b : JsString} (ha : a ≠ [] → IsConfigName letters a) (hb : IsConfigName letters b) :
    IsConfigName letters (orText a b) := by
  unfold RouteNames.orText
  split
  · exact hb
  · exact ha ‹_›

theorem isConfigName_runtimeParts (id : JsString) : IsConfigName letters (routeRuntimeParts letters id).configName := by
  have hname : ∀ value, IsConfigName letters (orText (sanitizeConfigName letters value) (js "default")) :=
    fun value => .orText isConfigName_sanitize isConfigName_default
  unfold routeRuntimeParts
  dsimp only
  rcases Text.split (js "__") id.trim with _ | ⟨roleId, _ | ⟨second, rest⟩⟩
  · dsimp only
    exact hname id.trim
  · dsimp only
    exact hname id.trim
  · dsimp only
    exact hname ((js "__").intercalate (second :: rest))

/-- **Every route resolves to a config name.** -/
theorem isConfigName_resolve (input : RouteIdentityInput) :
    IsConfigName letters (resolveRouteIdentity letters input).configName := by
  refine .orText isConfigName_sanitize (.orText ?_ (.orText isConfigName_sanitize isConfigName_default))
  split
  · exact fun h => absurd rfl h
  · exact fun _ => isConfigName_runtimeParts input.id

/-- The folder of a config is among those that the repository looks at. -/
theorem IsConfigName.sanitizeRoleId {name : JsString} (h : IsConfigName letters name) :
    sanitizeRoleId letters name = name := by
  have hclean : Clean letters (RouteNames.nameChars letters name) := clean_nameChars name
  have hname : name = (RouteNames.nameChars letters name).flatMap codeUnits := h.1.symm
  unfold RouteNames.sanitizeRoleId
  dsimp only
  rw [hname, JsString.trim_plain hclean.visible, UriComponent.characters_flatMap, if_pos]
  refine List.all_eq_true.mpr fun c hc => ?_
  obtain ⟨d, hd, rfl⟩ := List.mem_map.mp hc
  rw [hclean.wordOf d hd]
  rfl

end RabiRoute.RouteNames
