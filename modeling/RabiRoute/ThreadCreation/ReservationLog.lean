import RabiRoute.ThreadCreation.ReservationRuns

/-!
# The log of the creations

Where every `create()` finds the one before it released, each is justified by the one before it.
-/

namespace RabiRoute.ThreadCreation

/-- Every `create()` is of a new call, and finds the one before it released. -/
def LogOk : List LogEvent → Prop
  | [] => True
  | .attempt t :: log => LogOk log ∧ t ∉ attempts log ∧ ∀ last, (attempts log).head? = some last → Released log last
  | .notStarted _ :: log => LogOk log
  | .foundMissing _ :: log => LogOk log

/-! ## Attempts -/

@[simp] theorem attempts_attempt (t : CallId) (log : List LogEvent) :
    attempts (.attempt t :: log) = t :: attempts log := rfl

@[simp] theorem attempts_notStarted (t : CallId) (log : List LogEvent) :
    attempts (.notStarted t :: log) = attempts log := rfl

@[simp] theorem attempts_foundMissing (t : CallId) (log : List LogEvent) :
    attempts (.foundMissing t :: log) = attempts log := rfl

theorem attempts_append (later earlier : List LogEvent) : attempts (later ++ earlier) = attempts later ++ attempts earlier :=
  List.filterMap_append

theorem Released.append {log : List LogEvent} {t : CallId} (h : Released log t) (more : List LogEvent) :
    Released (more ++ log) t := h.imp (List.mem_append_right more) (List.mem_append_right more)

theorem LogOk.suffix {later earlier : List LogEvent} (h : LogOk (later ++ earlier)) : LogOk earlier := by
  induction later with
  | nil => exact h
  | cons event later ih =>
    cases event with
    | attempt t => exact ih h.1
    | notStarted t => exact ih h
    | foundMissing t => exact ih h

theorem LogOk.nodup {log : List LogEvent} (h : LogOk log) : (attempts log).Nodup := by
  induction log with
  | nil => exact List.nodup_nil
  | cons event log ih =>
    cases event with
    | attempt t => exact List.nodup_cons.mpr ⟨h.2.1, ih h.1⟩
    | notStarted t => exact ih h
    | foundMissing t => exact ih h

/-! ## Reasons -/

/-- The item after this one. -/
def following : List CallId → CallId → CallId
  | x :: y :: rest, t => if x = t then y else following (y :: rest) t
  | _, t => t

theorem following_eq {before rest : List CallId} {t u : CallId} (h : (before ++ t :: u :: rest).Nodup) :
    following (before ++ t :: u :: rest) t = u := by
  induction before with
  | nil => exact if_pos rfl
  | cons x before ih =>
    have hx : x ≠ t := by
      rintro rfl
      exact (List.nodup_cons.mp h).1 (List.mem_append_right before List.mem_cons_self)
    cases before with
    | nil => exact (if_neg hx).trans (ih (List.nodup_cons.mp h).2)
    | cons y before => exact (if_neg hx).trans (ih (List.nodup_cons.mp h).2)

theorem LogOk.justified {log : List LogEvent} (h : LogOk log) : Justified log := by
  have hnodup := h.nodup
  refine ⟨following (attempts log), ?_, ?_⟩
  · intro later t earlier hlog hne
    cases hearlier : attempts earlier with
    | nil => exact absurd hearlier hne
    | cons last rest =>
      have hattempts : attempts log = attempts later ++ t :: last :: rest := by
        rw [hlog, attempts_append, attempts_attempt, hearlier]
      rw [hattempts] at hnodup ⊢
      rw [following_eq hnodup]
      rw [hlog] at h
      exact ⟨List.mem_cons_self, h.suffix.2.2 last (by rw [hearlier]; rfl)⟩
  · intro later t between u earlier hlog hne
    cases hearlier : attempts earlier with
    | nil => exact absurd hearlier hne
    | cons last rest =>
      have hattempts : attempts log = attempts later ++ t :: (attempts between ++ u :: last :: rest) := by
        rw [hlog, attempts_append, attempts_attempt, attempts_append, attempts_attempt, hearlier]
      rw [hattempts] at hnodup ⊢
      have hu : following (attempts later ++ t :: (attempts between ++ u :: last :: rest)) u = last := by
        have hcut : attempts later ++ t :: (attempts between ++ u :: last :: rest) =
            (attempts later ++ t :: attempts between) ++ u :: last :: rest := by simp
        rw [hcut] at hnodup ⊢
        exact following_eq hnodup
      rw [hu]
      -- the reason of the later attempt comes before the last one of the earlier
      cases hbetween : attempts between with
      | nil =>
        rw [hbetween] at hnodup
        rw [List.nil_append] at hnodup ⊢
        rw [following_eq hnodup]
        rintro rfl
        have htail := (List.nodup_append.mp hnodup).2.1
        exact (List.nodup_cons.mp (List.nodup_cons.mp htail).2).1 List.mem_cons_self
      | cons next more =>
        rw [hbetween] at hnodup
        rw [List.cons_append] at hnodup ⊢
        rw [following_eq hnodup]
        rintro rfl
        have htail := (List.nodup_append.mp hnodup).2.1
        refine (List.nodup_cons.mp (List.nodup_cons.mp htail).2).1 ?_
        exact List.mem_append_right more (List.mem_cons_of_mem u List.mem_cons_self)

end RabiRoute.ThreadCreation
