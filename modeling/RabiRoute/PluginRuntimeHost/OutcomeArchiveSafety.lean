import RabiRoute.PluginRuntimeHost.OutcomeEvents
import RabiRoute.PluginRuntimeHost.OutcomeReads

/-!
# What the archive keeps

In every run first facts stay.  Where no read makes an old record hot, an observation that was answered for is in
the file, and in every read that begins later.
-/

namespace RabiRoute.PluginRuntimeHost

open Transitions
open Relation (ReflTransGen)

section

variable {hotLimit : Nat} {fresh : Prop} {a a' : Archive}

theorem sound_initial (files : OutcomeKey → File) : Sound (initial files) where
  pending _ _ h := nomatch h
  busy _ _ h := nomatch h
  new _ _ := rfl
  files key d hd := by
    unfold initial at hd
    dsimp only at hd
    split at hd
    · cases hd
      exact le_rfl
    · next hfile => exact absurd hd (hfile d)
  hot _ _ h := nomatch h
  cold _ _ _ h := nomatch h

theorem keepsFirsts_trans {a₁ a₂ a₃ : Archive} (h : KeepsFirsts a₁ a₂) (h' : KeepsFirsts a₂ a₃) : KeepsFirsts a₁ a₃ := by
  intro key record hrecord
  obtain ⟨mid, hmid, hsame⟩ := h key record hrecord
  obtain ⟨last, hlast, hsame'⟩ := h' key mid hmid
  exact ⟨last, hlast, hsame.trans hsame'⟩

theorem sound_effects (h : Sound a) (heffects : ReflTransGen (Effect hotLimit fresh) a a') :
    Sound a' ∧ KeepsFirsts a a' := by
  induction heffects with
  | refl => exact ⟨h, fun key record hrecord => ⟨record, hrecord, rfl, rfl⟩⟩
  | tail _ heffect ih => exact ⟨heffect.sound ih.1, keepsFirsts_trans ih.2 heffect.keepsFirsts⟩

/-! ## Runs -/

theorem effects_of_step (h : Sound a) {event : Event} {u : Unit} (hstep : (system hotLimit).step event a = some (u, a'))
    (hfresh : fresh → Current event a) : ReflTransGen (Effect hotLimit fresh) a a' := by
  obtain ⟨next, hnext, heq⟩ := Option.map_eq_some_iff.mp hstep
  cases heq
  exact step_effects h hnext hfresh

theorem sound_step (h : Sound a) {event : Event} {u : Unit} (hstep : (system hotLimit).step event a = some (u, a')) :
    Sound a' ∧ KeepsFirsts a a' := by
  have heffects : ReflTransGen (Effect hotLimit False) a a' := effects_of_step h hstep nofun
  exact sound_effects h heffects

theorem sound_reached {files : OutcomeKey → File} (h : (system hotLimit).Reach (initial files) a) : Sound a :=
  h.invariant (sound_initial files) fun _ _ _ _ hsound _ hstep =>
    (sound_step hsound hstep).1

theorem firsts_kept (h : Sound a) (h' : (system hotLimit).Reach a a') : KeepsFirsts a a' := by
  have hboth : Sound a' ∧ KeepsFirsts a a' := by
    apply h'.invariant (And.intro h fun key record hrecord => ⟨record, hrecord, rfl, rfl⟩)
    intro event mid u next hmid _ hstep
    obtain ⟨hsound, hkeeps⟩ := sound_step hmid.1 hstep
    exact ⟨hsound, keepsFirsts_trans hmid.2 hkeeps⟩
  exact hboth.2

/-- What holds in every state of a run where no old record gets hot. -/
structure Kept (a : Archive) : Prop where
  sound : Sound a
  settled : Settled a
  answered : Answered a

theorem kept_initial (files : OutcomeKey → File) : Kept (initial files) := by
  refine ⟨sound_initial files, ⟨(fun _ _ _ hhot => nomatch hhot), fun key d hpending hd j hj hcount => ?_⟩,
    ⟨(fun _ _ _ hpromise => nomatch hpromise), fun key i hresolved => ?_⟩⟩
  · replace hcount : j ≤ 0 := hcount
    omega
  · obtain ⟨hpos, hle, -⟩ := hresolved
    replace hle : i ≤ 0 := hle
    omega

theorem Effect.kept (h : Kept a) (heffect : Effect hotLimit True a a') : Kept a' :=
  ⟨heffect.sound h.sound, heffect.settled h.settled,
    ⟨heffect.promised h.sound h.answered, heffect.inFile h.sound h.settled h.answered⟩⟩

/-- Effects serve a read that began when the promise was resolved. -/
theorem served_effects {key : OutcomeKey} {i : Nat} {r : ReadId} (h : Kept a) (hresolved : Resolved a key i)
    (hread : ReadOk a key i (a.reads r)) (heffects : ReflTransGen (Effect hotLimit True) a a') :
    Kept a' ∧ Resolved a' key i ∧ ReadOk a' key i (a'.reads r) := by
  induction heffects with
  | refl => exact ⟨h, hresolved, hread⟩
  | tail _ heffect ih =>
    obtain ⟨hkept, hresolved, hread⟩ := ih
    exact ⟨heffect.kept hkept, heffect.resolved hkept.sound hresolved,
      heffect.reads hkept.sound hkept.settled hkept.answered hresolved hread⟩

theorem kept_effects (h : Kept a) (heffects : ReflTransGen (Effect hotLimit True) a a') : Kept a' := by
  induction heffects with
  | refl => exact h
  | tail _ heffect ih => exact heffect.kept ih

theorem kept_reached {files : OutcomeKey → File} (h : (system hotLimit).ReachUnder Current (initial files) a) :
    Kept a :=
  h.invariant (kept_initial files) fun _ _ _ _ hkept hok hstep =>
    kept_effects hkept (effects_of_step hkept.sound hstep fun _ => hok)

end

/-! ## An acknowledgement -/

def sampleKey : OutcomeKey where
  identity :=
    { applicationGenerationId := js "generation-1", managerInstanceId := js "manager-1", activationId := js "activation-1"
      instanceId := js "instance-1", pluginId := js "plugin-1", version := js "1.0.0", revision := js "1"
      host := js "desktop" }
  requestId := js "request-1"

/-- An uncertain outcome whose response was so delivered. -/
def sampleReceipt (responseDelivery : String) : Receipt where
  fields := [(js "status", .text (js "unknown")), (js "uncertaintyObserved", .boolean true),
    (js "responseDelivery", .text (js responseDelivery))]

/-- An observation and what writes it. -/
def writtenOnce : List Event :=
  [.observe sampleKey [] (sampleReceipt "queued"), .resume 0 true, .sampleFirst 0, .resumeFirst 0 true, .resume 0 true,
    .resume 0 true, .resume 0 true, .resume 0 true, .resume 0 true, .resume 0 true, .observeClose 0, .resume 0 true,
    .land 0, .resume 0 true, .resume 0 true]

/-- No read of a cold file goes on. -/
def noColdRead : Event → Archive → Prop
  | .resumeRead _ _, _ => False
  | _, _ => True

instance (event : Event) (a : Archive) : Decidable (noColdRead event a) := by
  cases event <;> unfold noColdRead <;> infer_instance

theorem current_of_noColdRead (event : Event) (a : Archive) (h : noColdRead event a) : Current event a := by
  cases event with
  | resumeRead r ok => exact h.elim
  | _ => trivial

def File.archived : File → Option ArchivedOutcome
  | .stored record => some record
  | _ => none

end RabiRoute.PluginRuntimeHost
