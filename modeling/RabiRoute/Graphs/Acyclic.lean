import Mathlib.Data.Fintype.Card
import Mathlib.Data.Set.Finite.List
import Mathlib.Logic.Relation

/-!
# Relations without cycles
-/

namespace Graphs

open Relation

variable {α : Type} {R S : α → α → Prop} {a b : α}

/-- No member depends on itself over any number of steps. -/
def Acyclic (R : α → α → Prop) : Prop := ∀ a, ¬TransGen R a a

theorem Acyclic.mono (h : Acyclic R) (hsub : ∀ a b, S a b → R a b) : Acyclic S :=
  fun a hcycle => h a (TransGen.mono hsub a a hcycle)

/-- A path from inside a region that its steps do not leave, where each step is one of another relation. -/
theorem path_within {P : α → Prop} (h : ∀ a b, P a → R a b → P b ∧ S a b) (ha : P a) (hab : TransGen R a b) :
    P b ∧ TransGen S a b := by
  induction hab with
  | single hstep => exact ⟨(h _ _ ha hstep).1, .single (h _ _ ha hstep).2⟩
  | tail _ hstep ih => exact ⟨(h _ _ ih.1 hstep).1, ih.2.tail (h _ _ ih.1 hstep).2⟩

/-- The relation with one more pair. -/
def AddedEdge (R : α → α → Prop) (a b : α) (x y : α) : Prop := R x y ∨ (x = a ∧ y = b)

/-- A path that may use the new pair either does without it or runs through it. -/
theorem addedEdge_path {x y : α} (h : TransGen (AddedEdge R a b) x y) (hback : ¬ReflTransGen R b a) :
    TransGen R x y ∨ (ReflTransGen R x a ∧ ReflTransGen R b y) := by
  induction h with
  | single hstep =>
    rcases hstep with hold | ⟨rfl, rfl⟩
    · exact .inl (.single hold)
    · exact .inr ⟨.refl, .refl⟩
  | tail _ hstep ih =>
    rcases hstep with hold | ⟨rfl, rfl⟩
    · rcases ih with hpath | ⟨hto, hfrom⟩
      · exact .inl (hpath.tail hold)
      · exact .inr ⟨hto, hfrom.tail hold⟩
    · rcases ih with hpath | ⟨-, hfrom⟩
      · exact .inr ⟨hpath.to_reflTransGen, .refl⟩
      · exact absurd hfrom hback

/-- A pair whose target does not lead back to its source closes no cycle. -/
theorem Acyclic.addedEdge (h : Acyclic R) (hback : ¬ReflTransGen R b a) : Acyclic (AddedEdge R a b) := by
  intro x hcycle
  rcases addedEdge_path hcycle hback with hpath | ⟨hto, hfrom⟩
  · exact h x hpath
  · exact hback (hfrom.trans hto)

/-- Among finitely many nodes one depends on none of them. -/
theorem Acyclic.exists_sink (h : Acyclic R) {nodes : List α} (hne : nodes ≠ []) : ∃ a ∈ nodes, ∀ b ∈ nodes, ¬R a b := by
  let below (x y : {x // x ∈ nodes}) : Prop := TransGen R y.1 x.1
  have hfinite : Finite {x // x ∈ nodes} := List.finite_toSet nodes
  have htrans : IsTrans {x // x ∈ nodes} below := ⟨fun _ _ _ hxy hyz => hyz.trans hxy⟩
  have hirrefl : Std.Irrefl below := ⟨fun x => h x.1⟩
  have hwf : WellFounded below := Finite.wellFounded_of_trans_of_irrefl below
  obtain ⟨a, ha⟩ := List.exists_mem_of_ne_nil nodes hne
  obtain ⟨m, -, hmin⟩ := hwf.has_min Set.univ ⟨⟨a, ha⟩, trivial⟩
  exact ⟨m.1, m.2, fun b hb hstep => hmin ⟨b, hb⟩ trivial (.single hstep)⟩

/-- A relation whose sources are all accessible against its direction has no cycle. -/
theorem acyclic_of_acc (h : ∀ a b, R a b → Acc (fun y x => R x y) a) : Acyclic R := by
  intro a hcycle
  obtain ⟨b, hstep, -⟩ := TransGen.head'_iff.mp hcycle
  have hacc := h a b hstep
  clear hstep b
  induction hacc with
  | intro x _ ih =>
    obtain ⟨y, hxy, hyx⟩ := TransGen.head'_iff.mp hcycle
    exact ih y hxy (TransGen.tail' hyx hxy)

end Graphs
