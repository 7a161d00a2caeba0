import RabiRoute.AgentRequests.EndpointTransportReceipts

/-!
# What interrupted transport calls keep

No call loses or replaces a stored receipt, wherever its process dies.  A receipt can still be written
unless a death inside an earlier `writeReceipt` left its `.receipt` file.
-/

open Interleave Interleave.Program Interleave.Killable Transitions.System

namespace RabiRoute.AgentRequests

theorem sameAgentEndpoint_refl (endpoint : AgentRequestEndpoint) : sameAgentEndpoint endpoint endpoint = true := by
  simp [sameAgentEndpoint]

theorem sameAgentEndpoint_symm {left right : AgentRequestEndpoint} (h : sameAgentEndpoint left right = true) :
    sameAgentEndpoint right left = true := by
  simp only [sameAgentEndpoint, Bool.and_eq_true, Bool.or_eq_true, decide_eq_true_eq] at h ⊢
  obtain ⟨⟨⟨⟨⟨⟨⟨⟨hkind, hmanager⟩, howner⟩, hinstance⟩, hnode⟩, hagent⟩, hprovider⟩, hsession⟩, hincarnation⟩ := h
  exact ⟨⟨⟨⟨⟨⟨⟨⟨hkind.symm, hmanager.symm⟩, howner.symm⟩, hinstance.symm⟩, hnode.symm⟩, hagent.imp And.symm Eq.symm⟩,
    hprovider.symm⟩, hsession.symm⟩, hincarnation.symm⟩

theorem sameAgentEndpoint_trans {a b c : AgentRequestEndpoint} (h : sameAgentEndpoint a b = true)
    (h' : sameAgentEndpoint b c = true) : sameAgentEndpoint a c = true := by
  simp only [sameAgentEndpoint, Bool.and_eq_true, Bool.or_eq_true, decide_eq_true_eq] at h h' ⊢
  obtain ⟨⟨⟨⟨⟨⟨⟨⟨hkind, hmanager⟩, howner⟩, hinstance⟩, hnode⟩, hagent⟩, hprovider⟩, hsession⟩, hincarnation⟩ := h
  obtain ⟨⟨⟨⟨⟨⟨⟨⟨hkind', hmanager'⟩, howner'⟩, hinstance'⟩, hnode'⟩, hagent'⟩, hprovider'⟩, hsession'⟩,
    hincarnation'⟩ := h'
  refine ⟨⟨⟨⟨⟨⟨⟨⟨hkind.trans hkind', hmanager.trans hmanager'⟩, howner.trans howner'⟩, hinstance.trans hinstance'⟩,
    hnode.trans hnode'⟩, ?_⟩, hprovider.trans hprovider'⟩, hsession.trans hsession'⟩,
    hincarnation.trans hincarnation'⟩
  rcases hagent with ⟨ha, hb⟩ | hagent
  · exact .inl ⟨ha, hkind'.symm.trans hb⟩
  · rcases hagent' with ⟨hb, hc⟩ | hagent'
    · exact .inl ⟨hkind.trans hb, hc⟩
    · exact .inr (hagent.trans hagent')

namespace EndpointTransport

/-- The delivery that the evidence was made for. -/
def TransportEvidence.delivery (value : TransportEvidence) : NativeOwnerDeliveryEvidence where
  deliveryId := value.deliveryId
  generation := value.generation
  target := value.target
  promptHash := value.promptHash
  executionOptionsHash := value.executionOptionsHash

/-- Later evidence of the same attempt: a receipt stays. -/
structure TransportEvidence.Continues (value value' : TransportEvidence) : Prop where
  delivery : value'.delivery = value.delivery
  receipt : ∀ receipt, value.receipt = some receipt → value'.receipt = some receipt

variable {Name : Type} {sha256 : JsString → Name} {parses : JsString → Bool}
  {delivery delivery' : NativeOwnerDeliveryEvidence} {receipt : EndpointDeliveryReceipt}
  {value value' : TransportEvidence}

/-! ## One delivery -/

/-- Two deliveries with the identity that the evidence compares. -/
structure SameDelivery (delivery delivery' : NativeOwnerDeliveryEvidence) : Prop where
  deliveryId : delivery.deliveryId = delivery'.deliveryId
  generation : delivery.generation = delivery'.generation
  promptHash : delivery.promptHash = delivery'.promptHash
  executionOptionsHash : delivery.executionOptionsHash = delivery'.executionOptionsHash
  target : sameAgentEndpoint delivery.target delivery'.target = true

theorem identifies_iff : value.identifies delivery = true ↔ SameDelivery value.delivery delivery := by
  simp only [TransportEvidence.identifies, Bool.and_eq_true, decide_eq_true_eq]
  exact ⟨fun ⟨⟨⟨⟨hid, hgeneration⟩, hprompt⟩, hoptions⟩, htarget⟩ => ⟨hid, hgeneration, hprompt, hoptions, htarget⟩,
    fun h => ⟨⟨⟨⟨h.deliveryId, h.generation⟩, h.promptHash⟩, h.executionOptionsHash⟩, h.target⟩⟩

theorem SameDelivery.symm (h : SameDelivery delivery delivery') : SameDelivery delivery' delivery :=
  ⟨h.deliveryId.symm, h.generation.symm, h.promptHash.symm, h.executionOptionsHash.symm,
    sameAgentEndpoint_symm h.target⟩

/-- The check of a receipt looks at the identity of the delivery only. -/
theorem SameDelivery.validates (h : SameDelivery delivery delivery') (hreceipt : validateEndpointReceipt delivery
    receipt = true) : validateEndpointReceipt delivery' receipt = true := by
  simp only [validateEndpointReceipt, Bool.and_eq_true, decide_eq_true_eq] at hreceipt ⊢
  obtain ⟨⟨⟨⟨⟨⟨⟨haccepted, hid⟩, hgeneration⟩, hprompt⟩, hoptions⟩, hendpoint⟩, haction⟩, htransport⟩ := hreceipt
  exact ⟨⟨⟨⟨⟨⟨⟨haccepted, hid.trans h.deliveryId⟩, hgeneration.trans h.generation⟩, hprompt.trans h.promptHash⟩,
    hoptions.trans h.executionOptionsHash⟩, sameAgentEndpoint_trans hendpoint h.target⟩, haction⟩, htransport⟩

/-- A receipt that the delivery admits. -/
def acceptance (delivery : NativeOwnerDeliveryEvidence) : EndpointDeliveryReceipt where
  deliveryId := delivery.deliveryId
  generation := delivery.generation
  endpoint := delivery.target
  promptHash := delivery.promptHash
  executionOptionsHash := delivery.executionOptionsHash
  accepted := true
  action := js "send"
  transport := js "desktop"

theorem acceptance_valid : validateEndpointReceipt delivery (acceptance delivery) = true := by
  have haction : (js "send").isEmpty = false := by decide
  have htransport : (js "desktop").isEmpty = false := by decide
  simp [validateEndpointReceipt, acceptance, sameAgentEndpoint_refl, haction, htransport]

/-! ## What the evidence is -/

/-- The evidence of a file that the ledger wrote. -/
structure Sound (sha256 : JsString → Name) (parses : JsString → Bool) (id : Name) (value : TransportEvidence) :
    Prop where
  name : sha256 value.deliveryId = id
  receipt : ∀ receipt, value.receipt = some receipt → validateEndpointReceipt value.delivery receipt = true
  proof : value.proves parses = true

theorem checkEvidence_ok (h : checkEvidence parses delivery value = .ok value') :
    value' = value ∧ SameDelivery value.delivery delivery := by
  unfold checkEvidence at h
  split at h
  · cases h
  · next hidentifies =>
      split at h
      · cases h
      · split at h
        · cases h
        · cases h
          exact ⟨rfl, identifies_iff.mp (by simpa using hidentifies)⟩

theorem Sound.checkEvidence {id : Name} (h : Sound sha256 parses id value) (hsame : SameDelivery value.delivery
    delivery) : checkEvidence parses delivery value = .ok value := by
  have hreceipt : value.receipt.any (!validateEndpointReceipt delivery ·) = false := by
    cases hr : value.receipt with
    | none => rfl
    | some receipt => simp [hsame.validates (h.receipt receipt hr)]
  unfold EndpointTransport.checkEvidence
  rw [identifies_iff.mpr hsame, hreceipt, h.proof]
  rfl

/-! ## What the directory keeps -/

structure Valid (sha256 : JsString → Name) (parses : JsString → Bool) (s : Directory Name) : Prop where
  made : ∀ id, (s.file (.json id)).isSome = true → s.made = true
  sound : ∀ id value, s.file (.json id) = some (.evidence value) → Sound sha256 parses id value

theorem Valid.made_of_file {s : Directory Name} {contents : Contents} (h : Valid sha256 parses s)
    (hfile : s.file (file sha256 delivery) = some contents) : s.made = true :=
  h.made (sha256 delivery.deliveryId) (Option.isSome_iff_exists.mpr ⟨contents, hfile⟩)

theorem initial_valid : Valid sha256 parses (initial : Directory Name) :=
  ⟨fun _ h => (by cases h), fun _ _ h => by cases h⟩

/-- What a call keeps of the directory that it met. -/
structure Kept (sha256 : JsString → Name) (parses : JsString → Bool) (s₀ s : Directory Name) : Prop where
  valid : Valid sha256 parses s
  continues : ∀ id value, s₀.file (.json id) = some (.evidence value) →
    ∃ value', s.file (.json id) = some (.evidence value') ∧ value.Continues value'

variable {s s₀ s' : Directory Name}

theorem Valid.kept (h : Valid sha256 parses s) : Kept sha256 parses s s :=
  ⟨h, fun _ value hvalue => ⟨value, hvalue, rfl, fun _ hr => hr⟩⟩

theorem Kept.trans (h : Kept sha256 parses s₀ s) (h' : Kept sha256 parses s s') : Kept sha256 parses s₀ s' := by
  refine ⟨h'.valid, fun id value hvalue => ?_⟩
  obtain ⟨value₁, hvalue₁, hcontinues₁⟩ := h.continues id value hvalue
  obtain ⟨value₂, hvalue₂, hcontinues₂⟩ := h'.continues id value₁ hvalue₁
  exact ⟨value₂, hvalue₂, hcontinues₂.delivery.trans hcontinues₁.delivery,
    fun receipt hr => hcontinues₂.receipt receipt (hcontinues₁.receipt receipt hr)⟩

/-- The evidence alone counts. -/
theorem Kept.congr (h : Kept sha256 parses s₀ s) (hmade : s.made = true → s'.made = true)
    (hfile : ∀ id, s'.file (.json id) = s.file (.json id)) : Kept sha256 parses s₀ s' := by
  refine ⟨⟨fun id hid => ?_, fun id value hvalue => ?_⟩, fun id value hvalue => ?_⟩
  · rw [hfile] at hid
    exact hmade (h.valid.made id hid)
  · rw [hfile] at hvalue
    exact h.valid.sound id value hvalue
  · rw [hfile]
    exact h.continues id value hvalue

/-- What a call that writes no receipt keeps. -/
structure Untouched (sha256 : JsString → Name) (parses : JsString → Bool) (s₀ s : Directory Name) : Prop where
  kept : Kept sha256 parses s₀ s
  receipts : ∀ id, s.file (.receipt id) = s₀.file (.receipt id)

theorem Valid.untouched (h : Valid sha256 parses s) : Untouched sha256 parses s s := ⟨h.kept, fun _ => rfl⟩

theorem sound_consumed {drawn : Drawn} {id : Name} (h : Sound sha256 parses id value) (hreceipt : value.receipt = none)
    : Sound sha256 parses id (consumed delivery value drawn) :=
  ⟨h.name, fun receipt hr => (by cases hreceipt.symm.trans hr), rfl⟩

theorem sound_reserved {drawn : Drawn} : Sound sha256 parses (sha256 delivery.deliveryId) (reserved delivery drawn) :=
  ⟨rfl, fun _ h => (by cases h), rfl⟩

section Files

variable [DecidableEq Name]

@[simp] theorem set_file (p q : Path Name) (contents : Option Contents) :
    (s.set p contents).file q = if q = p then contents else s.file q := rfl

theorem set_set (p : Path Name) (contents contents' : Option Contents) :
    (s.set p contents).set p contents' = s.set p contents' := by
  unfold Directory.set
  congr 1
  funext q
  by_cases hq : q = p
  · rw [if_pos hq, if_pos hq]
  · rw [if_neg hq, if_neg hq]
    exact if_neg hq

/-- Other files than the evidence may change. -/
theorem Kept.setOther (h : Kept sha256 parses s₀ s) {p : Path Name} (hp : ∀ id, .json id ≠ p)
    (contents : Option Contents) : Kept sha256 parses s₀ (s.set p contents) :=
  h.congr (fun h => h) fun id => if_neg (hp id)

/-- New evidence, where there was none or where it continues the old. -/
theorem Kept.setJson (h : Kept sha256 parses s₀ s) (hmade : s.made = true) {id : Name} {contents : Contents}
    (hsound : ∀ value, contents = .evidence value → Sound sha256 parses id value)
    (hold : ∀ value, s₀.file (.json id) = some (.evidence value) →
      ∃ value', contents = .evidence value' ∧ value.Continues value') :
    Kept sha256 parses s₀ (s.set (.json id) (some contents)) := by
  refine ⟨⟨fun _ _ => hmade, fun id' value hvalue => ?_⟩, fun id' value hvalue => ?_⟩
  · rw [set_file] at hvalue
    split at hvalue
    · next heq =>
        cases heq
        exact hsound value (Option.some.inj hvalue)
    · exact h.valid.sound id' value hvalue
  · rw [set_file]
    split
    · next heq =>
        cases heq
        obtain ⟨value', hvalue', hcontinues⟩ := hold value hvalue
        exact ⟨value', congrArg some hvalue', hcontinues⟩
    · exact h.continues id' value hvalue

/-! ## Single steps -/

abbrev Keeps {α : Type} (P : Directory Name → Prop) (Q : Except TransportError α → Directory Name → Prop)
    (p : Prog Name α) (s : Directory Name) : Prop :=
  (machine Name).Keeps P Q p s

variable {α β : Type} {P : Directory Name → Prop} {Q : Except TransportError α → Directory Name → Prop}
  {p q : Path Name}

/-- A command, with what each death inside it leaves. -/
theorem keeps_sys {c : Cmd Name} {Q : Except TransportError c.Val → Directory Name → Prop} (hP : P s) (htear : ∀ x s₁,
    tear c x s = some s₁ → P s₁) (hP' : P (exec c s).2) (hQ : Q (exec c s).1 (exec c s).2) : Keeps P Q (sys c) s := by
  refine keeps_step hP htear ?_
  have hexec : (machine Name).exec c s = exec c s := rfl
  rw [hexec]
  cases hr : (exec c s).1 with
  | ok v => exact keeps_ret hP' (hr ▸ hQ)
  | error e => exact keeps_raise hP' (hr ▸ hQ)

/-- The answers and the states of a command that no death tears. -/
theorem keeps_whole {c : Cmd Name} (hP : P s) (htear : ∀ x, tear c x s = none) (hP' : P (exec c s).2) :
    Keeps P (fun outcome s' => outcome = (exec c s).1 ∧ s' = (exec c s).2) (sys c) s :=
  keeps_sys hP (fun x s₁ h => absurd ((htear x).symm.trans h) (Option.some_ne_none s₁).symm) hP' ⟨rfl, rfl⟩

/-- The new file is written, or it cannot be created. -/
def Written (p : Path Name) (value : TransportEvidence) (s : Directory Name) (outcome : Except TransportError Unit)
    (s' : Directory Name) : Prop :=
  (outcome = .ok () ∧ s.made = true ∧ s.file p = none ∧ s' = s.set p (some (.evidence value))) ∨
    ∃ e, outcome = .error e ∧ s' = s

theorem exec_openNew_cases (p : Path Name) (s : Directory Name) :
    (s.made = true ∧ s.file p = none ∧ exec (.openNew p) s = (.ok (), s.set p (some .unfinished))) ∨
      ∃ e, exec (.openNew p) s = (.error e, s) := by
  simp only [exec]
  split
  · exact .inr ⟨_, rfl⟩
  · next hmade =>
      split
      · exact .inr ⟨_, rfl⟩
      · next hfile => exact .inl ⟨by simpa using hmade, by simpa using hfile, rfl⟩

theorem keeps_writeNew {value : TransportEvidence} (hP : P s)
    (hnew : s.made = true → s.file p = none → ∀ contents, contents = .unfinished ∨ contents = .evidence value →
      P (s.set p (some contents))) : Keeps P (Written p value s) (writeNew p value) s := by
  rcases exec_openNew_cases p s with ⟨hmade, hfile, hexec⟩ | ⟨e, hexec⟩
  · have hunfinished := hnew hmade hfile .unfinished (.inl rfl)
    have hwritten := hnew hmade hfile (.evidence value) (.inr rfl)
    refine (keeps_whole hP (fun _ => rfl) (hexec ▸ hunfinished)).bind (fun _ s₁ _ h => ?_) fun e _ _ h => ?_
    · rw [h.2, hexec]
      have hwrite : Keeps P (fun outcome s' => outcome = .ok () ∧ s' = s.set p (some (.evidence value)))
          (sys (.write p value)) (s.set p (some .unfinished)) := by
        refine keeps_sys hunfinished (fun _ s₂ htear => ?_) ?_ ⟨rfl, set_set _ _ _⟩
        · cases htear
          rw [set_set]
          exact hunfinished
        · show P ((s.set p (some .unfinished)).set p (some (.evidence value)))
          rw [set_set]
          exact hwritten
      have hbody := hwrite.bind (f := fun _ => sys (.fsync p))
        (Q := fun outcome s' => outcome = .ok () ∧ s' = s.set p (some (.evidence value)))
        (fun _ s₂ hP₂ h => keeps_sys hP₂ (fun _ _ h => by cases h) hP₂ ⟨rfl, h.2⟩) fun e _ _ h => by cases h.1
      refine hbody.handle (fun _ s₂ hP₂ h => ?_) fun e s₂ _ h => by cases h.1
      refine (keeps_whole (c := .close p) hP₂ (fun _ => rfl) hP₂).bind (fun _ s₃ hP₃ h₃ => ?_)
        fun e _ _ h₃ => by cases h₃.1
      exact keeps_ret hP₃ (.inl ⟨rfl, hmade, hfile, h₃.2.trans h.2⟩)
    · cases h.1.trans (congrArg Prod.fst hexec)
  · refine (keeps_whole hP (fun _ => rfl) (hexec ▸ hP)).bind (fun _ _ _ h => ?_) fun e' s' _ h => ?_
    · cases h.1.trans (congrArg Prod.fst hexec)
    · exact .inr ⟨e', rfl, h.2.trans (congrArg Prod.snd hexec)⟩

/-- `P` is about the evidence files and the other receipts, so that the temporaries may change. -/
structure Indifferent (P : Directory Name → Prop) : Prop where
  made : ∀ s, P s → P { s with made := true }
  temporary : ∀ s uuid contents, P s → P (s.set (.temporary uuid) contents)

theorem keeps_atomicWriteFileSync {uuid : Nat} {value : TransportEvidence} (hindifferent : Indifferent P) (hP : P s)
    (hvalue : ∀ s, s.made = true → P s → P (s.set p (some (.evidence value)))) :
    Keeps P (fun _ _ => True) (atomicWriteFileSync p uuid value) s := by
  have hstat : Keeps P (fun _ _ => True) ((sys (.stat p)).attempt fun _ => pure ()) s :=
    (keeps_whole (c := .stat p) hP (fun _ => rfl) hP).handle (fun _ _ hP₁ _ => keeps_ret hP₁ trivial)
      fun _ _ hP₁ _ => keeps_ret hP₁ trivial
  refine hstat.bind (fun _ s₁ hP₁ _ => ?_) fun _ _ _ _ => trivial
  · have hP₂ := hindifferent.made s₁ hP₁
    refine (keeps_whole (c := .mkdir) hP₁ (fun _ => rfl) hP₂).bind (fun _ s₂ _ h₂ => ?_) fun _ _ _ _ => trivial
    rw [h₂.2]
    have hcleanup : ∀ {s'}, P s' → Keeps P (fun (_ : Except TransportError Unit) _ => True)
        (do if ← sys (.exists (.temporary uuid)) then sys (.unlink (.temporary uuid)) else pure ()) s' := by
      intro s' hP'
      refine (keeps_whole (c := .exists (.temporary uuid)) hP' (fun _ => rfl) hP').bind (fun there s₃ hP₃ _ => ?_)
        fun _ _ _ _ => trivial
      split
      · refine keeps_sys hP₃ (fun _ _ h => by cases h) ?_ trivial
        simp only [exec]
        split
        · exact hindifferent.temporary s₃ uuid none hP₃
        · exact hP₃
      · exact keeps_ret hP₃ trivial
    have hwrite : Keeps P (Written (.temporary uuid) value _) (writeNew (.temporary uuid) value) _ :=
      keeps_writeNew hP₂ fun _ _ contents _ => hindifferent.temporary _ uuid (some contents) hP₂
    have hrename : Keeps P (fun _ _ => True) (do
        writeNew (.temporary uuid) value
        sys (.rename (.temporary uuid) p)) _ := hwrite.bind (fun _ s₃ hP₃ hwritten => ?_) fun _ _ _ _ => trivial
    refine hrename.handle
      (fun _ _ hP₃ _ => (hcleanup hP₃).bind (fun _ _ hP₄ _ => keeps_ret hP₄ trivial) fun _ _ _ _ => trivial)
      fun _ _ hP₃ _ => (hcleanup hP₃).bind (fun _ _ hP₄ _ => keeps_raise hP₄ trivial) fun _ _ _ _ => trivial
    rcases hwritten with ⟨-, hmade, -, rfl⟩ | ⟨e, he, -⟩
    · refine keeps_sys hP₃ (fun _ _ h => by cases h) ?_ trivial
      simp only [exec, set_file, if_true, Option.elim_some]
      exact hvalue _ hmade (hindifferent.temporary _ uuid none hP₃)
    · cases he

/-! ## The calls -/

/-- What `read` has seen when it answers. -/
structure ReadBack (sha256 : JsString → Name) (delivery : NativeOwnerDeliveryEvidence) (s : Directory Name)
    (outcome : Except TransportError (Option TransportEvidence)) : Prop where
  absent : outcome = .ok none → s.file (file sha256 delivery) = none
  found : ∀ value, outcome = .ok (some value) →
    s.file (file sha256 delivery) = some (.evidence value) ∧ SameDelivery value.delivery delivery

/-- `read` is one look at the file. -/
theorem read_step (sha256 : JsString → Name) (parses : JsString → Bool) (delivery : NativeOwnerDeliveryEvidence)
    (s : Directory Name) : ∃ k, read sha256 parses delivery = .step (.readFile (file sha256 delivery)) k ∧
      ((∃ original, k (exec (.readFile (file sha256 delivery)) s).1 = .ret original ∧
        ReadBack sha256 delivery s (.ok original)) ∨
      ∃ e, k (exec (.readFile (file sha256 delivery)) s).1 = .raise e) := by
  refine ⟨_, rfl, ?_⟩
  simp only [exec]
  cases hfile : s.file (file sha256 delivery) with
  | none => exact .inl ⟨none, rfl, fun _ => hfile, fun _ h => (by cases h)⟩
  | some contents =>
    cases contents with
    | unfinished => exact .inr ⟨_, rfl⟩
    | evidence value =>
      cases hchecked : checkEvidence parses delivery value with
      | error e =>
        exact .inr ⟨e, by simp [hchecked]⟩
      | ok value' =>
        obtain ⟨rfl, hsame⟩ := checkEvidence_ok hchecked
        refine .inl ⟨some value', by simp [hchecked], fun h => (by cases h), fun value h => ?_⟩
        cases h
        exact ⟨hfile, hsame⟩

theorem keeps_read (hP : P s) :
    Keeps P (fun outcome s' => ReadBack sha256 delivery s outcome ∧ s' = s) (read sha256 parses delivery) s := by
  obtain ⟨k, hk, hanswer⟩ := read_step sha256 parses delivery s
  rw [hk]
  refine keeps_step hP (fun _ _ h => by cases h) ?_
  show Keeps P _ (k (exec (.readFile (file sha256 delivery)) s).1) s
  rcases hanswer with ⟨original, heq, hread⟩ | ⟨e, heq⟩
  · rw [heq]
    exact keeps_ret hP ⟨hread, rfl⟩
  · rw [heq]
    exact keeps_raise hP ⟨⟨fun h => (by cases h), fun _ h => (by cases h)⟩, rfl⟩

theorem untouched_indifferent : Indifferent (Untouched sha256 parses s₀) where
  made _ h := ⟨h.kept.congr (fun _ => rfl) fun _ => rfl, h.receipts⟩
  temporary _ _ contents h :=
    ⟨h.kept.setOther (fun _ h => (by cases h)) contents, fun id => by simpa using h.receipts id⟩

theorem Untouched.setJson (h : Untouched sha256 parses s₀ s) (hmade : s.made = true) {id : Name} {contents : Contents}
    (hsound : ∀ value, contents = .evidence value → Sound sha256 parses id value)
    (hold : ∀ value, s₀.file (.json id) = some (.evidence value) →
      ∃ value', contents = .evidence value' ∧ value.Continues value') :
    Untouched sha256 parses s₀ (s.set (.json id) (some contents)) :=
  ⟨h.kept.setJson hmade hsound hold, fun id' => by simpa using h.receipts id'⟩

theorem keeps_consumeNoFrameProof {drawn : Drawn} (h : Untouched sha256 parses s₀ s) (hfile : s₀.file (file sha256
    delivery) = some (.evidence value)) (hsound : Sound sha256 parses (sha256 delivery.deliveryId) value) : Keeps
    (Untouched sha256 parses s₀) (fun _ _ => True) (consumeNoFrameProof sha256 parses delivery value drawn) s := by
  unfold consumeNoFrameProof
  split
  · exact keeps_ret h trivial
  · next hactive =>
      split
      · exact keeps_raise h trivial
      · split
        · exact keeps_ret h trivial
        · have hreceipt : value.receipt = none := by simp_all
          refine (keeps_atomicWriteFileSync untouched_indifferent h fun s₁ hmade h₁ => ?_).bind
            (fun _ _ h₂ _ => keeps_ret h₂ trivial) fun _ _ _ _ => trivial
          refine h₁.setJson hmade (fun value' hvalue' => ?_) fun value' hvalue' => ?_
          · cases hvalue'
            exact sound_consumed hsound hreceipt
          · cases Option.some.inj (hfile.symm.trans hvalue')
            exact ⟨_, rfl, rfl, fun _ hr => by cases hreceipt.symm.trans hr⟩

theorem keeps_beginAttempt {drawn : Drawn} (h : Valid sha256 parses s) :
    Keeps (Untouched sha256 parses s) (fun _ _ => True) (beginAttempt sha256 parses delivery drawn) s := by
  refine (keeps_read h.untouched).bind (fun original s₁ h₁ hread => ?_) fun _ _ _ _ => trivial
  obtain ⟨hread, rfl⟩ := hread
  cases original with
  | some original =>
    obtain ⟨hfile, -⟩ := hread.found original rfl
    exact keeps_consumeNoFrameProof h₁ hfile (h.sound _ _ hfile)
  | none =>
    have hreserve :
        Keeps (Untouched sha256 parses s₁) (fun _ _ => True) (reserveAttempt sha256 delivery drawn) s₁ := by
      refine (keeps_whole (c := .mkdir) h₁ (fun _ => rfl) (untouched_indifferent.made s₁ h₁)).bind
        (fun _ s₂ h₂ _ => ?_) fun _ _ _ _ => trivial
      refine (keeps_writeNew h₂ fun hmade _ contents hcontents => ?_).bind
        (fun _ _ h₃ _ => keeps_ret h₃ trivial) fun _ _ _ _ => trivial
      refine h₂.setJson hmade (fun value hvalue => ?_) fun value hvalue => ?_
      · rcases hcontents with rfl | rfl
        · cases hvalue
        · cases hvalue
          exact sound_reserved
      · cases (hread.absent rfl).symm.trans hvalue
    refine hreserve.handle (fun _ _ h₂ _ => keeps_ret h₂ trivial) fun e s₂ h₂ _ => ?_
    split
    · exact (keeps_read h₂).bind (fun _ _ h₃ _ => keeps_ret h₃ trivial) fun _ _ _ _ => trivial
    · exact keeps_raise h₂ trivial

theorem keeps_writeNotSent {trusted : Bool} {drawn : Drawn} (h : Valid sha256 parses s) (hnow : parses drawn.now = true)
    : Keeps (Untouched sha256 parses s) (fun _ _ => True) (writeNotSent sha256 parses delivery trusted drawn) s := by
  unfold writeNotSent
  split
  · exact keeps_raise h.untouched trivial
  · refine (keeps_read h.untouched).bind (fun original s₁ h₁ hread => ?_) fun _ _ _ _ => trivial
    obtain ⟨hread, rfl⟩ := hread
    cases original with
    | none => exact keeps_raise h₁ trivial
    | some original =>
      obtain ⟨hfile, -⟩ := hread.found original rfl
      have hsound := h.sound _ _ hfile
      split
      · next heq =>
          cases heq
      · next original' heq =>
          cases heq
          split
          · exact keeps_raise h₁ trivial
          · next hactive =>
              split
              · exact keeps_ret h₁ trivial
              · simp only [Bool.or_eq_true, not_or, Bool.not_eq_true, Bool.not_eq_false'] at hactive
                obtain ⟨⟨⟨hattempt, hreceipt⟩, -⟩, -⟩ := hactive
                have hnone : original.receipt = none := by simpa using hreceipt
                refine keeps_atomicWriteFileSync untouched_indifferent h₁ fun s₂ hmade h₂ => ?_
                refine h₂.setJson hmade (fun value hvalue => ?_) fun value hvalue => ?_
                · cases hvalue
                  refine ⟨hsound.name, fun receipt hr => (by cases hnone.symm.trans hr), ?_⟩
                  cases hid : original.attemptId with
                  | none =>
                    rw [hid] at hattempt
                    cases hattempt
                  | some attemptId =>
                    rw [hid] at hattempt
                    simp [TransportEvidence.proves, hattempt, hnow]
                · cases Option.some.inj (hfile.symm.trans hvalue)
                  exact ⟨_, rfl, rfl, fun _ hr => by cases hnone.symm.trans hr⟩

theorem keeps_writeReceipt (h : Valid sha256 parses s) :
    Keeps (Kept sha256 parses s) (fun _ _ => True) (writeReceipt sha256 parses delivery receipt) s := by
  unfold writeReceipt
  split
  · exact keeps_raise h.kept trivial
  · next hvalid =>
      refine (keeps_read h.kept).bind (fun original s₁ h₁ hread => ?_) fun _ _ _ _ => trivial
      obtain ⟨hread, rfl⟩ := hread
      cases original with
      | none => exact keeps_raise h₁ trivial
      | some original =>
        obtain ⟨hfile, hsame⟩ := hread.found original rfl
        have hsound := h.sound _ _ hfile
        simp only
        split
        · exact keeps_ret h₁ trivial
        · next hreceipt =>
            have hnone : original.receipt = none := by simpa using hreceipt
            refine (keeps_writeNew h₁ fun _ _ contents _ => h₁.setOther (fun _ h => by cases h) _).bind
              (fun _ s₂ h₂ hwritten => ?_) fun _ _ _ _ => trivial
            rcases hwritten with ⟨-, hmade, -, rfl⟩ | ⟨e, he, -⟩
            · refine keeps_sys h₂ (fun _ _ h => by cases h) ?_ trivial
              simp only [exec, set_file, if_true, Option.elim_some]
              refine (h₂.setOther (fun _ h => by cases h) none).setJson hmade (fun value hvalue => ?_)
                fun value hvalue => ?_
              · cases hvalue
                refine ⟨hsound.name, fun receipt' hr => ?_, hsound.proof⟩
                cases hr
                exact hsame.symm.validates (by simpa using hvalid)
              · cases Option.some.inj (hfile.symm.trans hvalue)
                exact ⟨_, rfl, rfl, fun _ hr => by cases hnone.symm.trans hr⟩
            · cases he

/-! ## Where a death leaves the temporary -/

/-- The bytes are on their way to the file of the delivery. -/
abbrev publish (sha256 : JsString → Name) (delivery : NativeOwnerDeliveryEvidence) (value : TransportEvidence) :
    Prog Name Unit := do
  writeNew (.receipt (sha256 delivery.deliveryId)) value
  sys (.rename (.receipt (sha256 delivery.deliveryId)) (file sha256 delivery))

theorem stop_ret {n : Nat} {x : Option Unit} {a : α}
    (h : (machine Name).stop n x (.ret a : Prog Name α) s = some s') : s' = s := by
  cases n with
  | zero =>
    cases x with
    | none => exact (Option.some.inj h).symm
    | some x => cases h
  | succ n => cases h

theorem stop_raise {n : Nat} {x : Option Unit} {e : TransportError}
    (h : (machine Name).stop n x (.raise e : Prog Name α) s = some s') : s' = s := by
  cases n with
  | zero =>
    cases x with
    | none => exact (Option.some.inj h).symm
    | some x => cases h
  | succ n => cases h

/-- A death before a command that is not torn leaves the state. -/
theorem stop_zero {x : Option Unit} {c : Cmd Name} {k : c.Response → Prog Name α} (htear : ∀ x, tear c x s = none)
    (h : (machine Name).stop 0 x (.step c k) s = some s') : s' = s := by
  cases x with
  | none => exact (Option.some.inj h).symm
  | some x => cases (htear x).symm.trans h

theorem set_none {p : Path Name} (h : s.file p = none) : s.set p none = s := by
  unfold Directory.set
  congr 1
  funext q
  by_cases hq : q = p
  · rw [if_pos hq, hq, h]
  · rw [if_neg hq]

theorem exec_openNew (hmade : s.made = true) (hfile : s.file p = none) :
    exec (.openNew p) s = (.ok (), s.set p (some .unfinished)) := by
  simp only [exec, hmade, hfile, Bool.not_true, Bool.false_eq_true, if_false, Option.isSome_none]

/-- The files when the receipt is in place. -/
def published (sha256 : JsString → Name) (delivery : NativeOwnerDeliveryEvidence) (value : TransportEvidence)
    (s : Directory Name) : Directory Name :=
  s.set (file sha256 delivery) (some (.evidence value))

theorem exec_rename (hfile : s.file q = none) (contents : Contents) :
    exec (.rename q p) (s.set q (some contents)) = (.ok (), s.set p (some contents)) := by
  simp only [exec, set_file, if_true, Option.elim_some, set_set, set_none hfile]

theorem run_sys {c : Cmd Name} {v : c.Val} {f : c.Val → Prog Name α} {g : TransportError → Prog Name α}
    (hexec : exec c s = (.ok v, s')) : ((sys c).handle f g).run exec s = (f v).run exec s' := by
  show (Program.handle _ f g).run exec (exec c s).2 = _
  rw [hexec]
  rfl

theorem stop_sys {c : Cmd Name} {v : c.Val} {f : c.Val → Prog Name α} {g : TransportError → Prog Name α} {n : Nat}
    {x : Option Unit} (hexec : exec c s = (.ok v, s')) :
    (machine Name).stop (n + 1) x ((sys c).handle f g) s = (machine Name).stop n x (f v) s' := by
  show (machine Name).stop n x (Program.handle _ f g) (exec c s).2 = _
  rw [show (machine Name).exec c s = exec c s from rfl, hexec]
  rfl

theorem run_publish (hmade : s.made = true) (hfree : s.file (.receipt (sha256 delivery.deliveryId)) = none) :
    (publish sha256 delivery value).run exec s = (.ok (), published sha256 delivery value s) := by
  simp only [publish, writeNew, Program.ensure, Program.bind, bind_eq, handle_handle]
  rw [run_sys (exec_openNew hmade hfree), run_sys rfl, run_sys rfl]
  simp only [handle_ret]
  rw [run_sys rfl, set_set, ← bind_pure (sys _), bind_eq]
  exact run_sys (exec_rename hfree _)

/-- The temporary is gone, or never there, unless the death is between its creation and its renaming. -/
theorem stop_publish {n : Nat} {x : Option Unit} (hmade : s.made = true) (hfree : s.file (.receipt (sha256
    delivery.deliveryId)) = none) (hn : n < 1 ∨ 4 < n) (h : (machine Name).stop n x (publish sha256 delivery value) s =
    some s') : s' = s ∨ s' = published sha256 delivery value s := by
  rcases hn with hn | hn
  · have hzero : n = 0 := by omega
    subst hzero
    exact .inl (stop_zero (fun _ => rfl) h)
  · obtain ⟨m, rfl⟩ : ∃ m, n = m + 5 := ⟨n - 5, by omega⟩
    right
    simp only [publish, writeNew, Program.ensure, Program.bind, bind_eq, handle_handle] at h
    rw [stop_sys (exec_openNew hmade hfree), stop_sys rfl, stop_sys rfl] at h
    simp only [handle_ret] at h
    rw [stop_sys rfl, set_set, ← bind_pure (sys _), bind_eq, stop_sys (exec_rename hfree _)] at h
    exact stop_ret h

/-- A death behind the look at the file. -/
theorem stop_read {n : Nat} {x : Option Unit} {k : Option TransportEvidence → Prog Name α}
    (h : (machine Name).stop n x (read sha256 parses delivery >>= k) s = some s') :
    s' = s ∨ ∃ m original, n = m + 1 ∧ ReadBack sha256 delivery s (.ok original) ∧
      (machine Name).stop m x (k original) s = some s' := by
  obtain ⟨k', hk, hanswer⟩ := read_step sha256 parses delivery s
  rw [hk, bind_eq] at h
  cases n with
  | zero => exact .inl (stop_zero (fun _ => rfl) h)
  | succ m =>
    replace h :
        (machine Name).stop m x ((k' (exec (.readFile (file sha256 delivery)) s).1).handle k raise) s = some s' := h
    rcases hanswer with ⟨original, heq, hread⟩ | ⟨e, heq⟩
    · rw [heq] at h
      exact .inr ⟨m, original, rfl, hread, h⟩
    · rw [heq] at h
      exact .inl (stop_raise h)

/-- A spared death leaves no temporary. -/
theorem stop_writeReceipt {n : Nat} {x : Option Unit} (hvalid : Valid sha256 parses s) (hfree : ∀ id, s.file (.receipt
    id) = none) (hn : n < 2 ∨ 5 < n) (h : (machine Name).stop n x (writeReceipt sha256 parses delivery receipt) s = some
    s') (id : Name) : s'.file (.receipt id) = none := by
  unfold writeReceipt at h
  split at h
  · rw [stop_raise h]
    exact hfree id
  · rcases stop_read h with rfl | ⟨m, original, rfl, hread, hstop⟩
    · exact hfree id
    · cases original with
      | none =>
        rw [stop_raise hstop]
        exact hfree id
      | some original =>
        obtain ⟨hfile, -⟩ := hread.found original rfl
        simp only at hstop
        split at hstop
        · rw [stop_ret hstop]
          exact hfree id
        · rcases stop_publish (hvalid.made_of_file hfile) (hfree _) (by omega) hstop with rfl | rfl
          · exact hfree id
          · simpa [published, file] using hfree id

theorem run_read (s : Directory Name) (k : Option TransportEvidence → Prog Name α) :
    ((read sha256 parses delivery >>= k).run exec s).2 = s ∨ ∃ original, ReadBack sha256 delivery s (.ok original) ∧
      (read sha256 parses delivery >>= k).run exec s = (k original).run exec s := by
  obtain ⟨k', hk, hanswer⟩ := read_step sha256 parses delivery s
  rw [hk, bind_eq]
  show (((k' (exec (.readFile (file sha256 delivery)) s).1).handle k raise).run exec s).2 = s ∨ ∃ original, _ ∧
    ((k' (exec (.readFile (file sha256 delivery)) s).1).handle k raise).run exec s = _
  rcases hanswer with ⟨original, heq, hread⟩ | ⟨e, heq⟩
  · rw [heq]
    exact .inr ⟨original, hread, rfl⟩
  · rw [heq]
    exact .inl rfl

/-- A call that comes to its end leaves no temporary. -/
theorem run_writeReceipt (hvalid : Valid sha256 parses s) (hfree : ∀ id, s.file (.receipt id) = none) (id : Name) :
    ((writeReceipt sha256 parses delivery receipt).run exec s).2.file (.receipt id) = none := by
  unfold writeReceipt
  split
  · exact hfree id
  · rcases run_read s _ with hsame | ⟨original, hread, hrun⟩
    · rw [hsame]
      exact hfree id
    · rw [hrun]
      cases original with
      | none => exact hfree id
      | some original =>
        obtain ⟨hfile, -⟩ := hread.found original rfl
        simp only
        split
        · exact hfree id
        · rw [run_publish (hvalid.made_of_file hfile) (hfree _)]
          simpa [published, file] using hfree id

/-! ## Runs -/

theorem keeps_program {call : Call} (h : Valid sha256 parses s) (hnow : ∀ drawn ∈ call.drawn, parses drawn.now = true) :
    Keeps (Kept sha256 parses s) (fun _ _ => True) (call.program sha256 parses delivery) s := by
  cases call with
  | beginAttempt drawn =>
    exact ((keeps_beginAttempt h).mono (fun _ h => h.kept) fun _ _ h => h).bind
      (fun _ _ h' _ => keeps_ret h' trivial) fun _ _ _ _ => trivial
  | writeNotSent trusted drawn =>
    exact ((keeps_writeNotSent h (hnow drawn rfl)).mono (fun _ h => h.kept) fun _ _ h => h).bind
      (fun _ _ h' _ => keeps_ret h' trivial) fun _ _ _ _ => trivial
  | writeReceipt receipt =>
    exact (keeps_writeReceipt h).bind (fun _ _ h' _ => keeps_ret h' trivial) fun _ _ _ _ => trivial

/-- No process dies between the creation of the temporary of a receipt and its renaming. -/
def Spared (run : Run) (_ : Directory Name) : Prop :=
  match run with
  | .killed _ (.writeReceipt _) operations _ => operations < 2 ∨ 5 < operations
  | _ => True

theorem now_of_step {run : Run} {a : Option (Except TransportError (Option Bool))}
    (h : (runs sha256 parses).step run s = some (a, s')) : ∀ drawn ∈ run.call.drawn, parses drawn.now = true := by
  intro drawn hdrawn
  simp only [runs] at h
  split at h
  · cases h
  · next hnow =>
      rw [Option.mem_def.mp hdrawn] at hnow
      simpa using hnow

theorem step_kept {run : Run} {a : Option (Except TransportError (Option Bool))} (h : Valid sha256 parses s)
    (hstep : (runs sha256 parses).step run s = some (a, s')) : Kept sha256 parses s s' := by
  have hkeeps : ∀ delivery, Keeps (Kept sha256 parses s) (fun _ _ => True)
      (run.call.program sha256 parses delivery) s := fun _ => keeps_program h (now_of_step hstep)
  simp only [runs] at hstep
  split at hstep
  · cases hstep
  · cases run with
    | complete delivery call =>
      cases hstep
      exact (hkeeps delivery).run.1
    | killed delivery call operations torn =>
      obtain ⟨s₁, hstop, heq⟩ := Option.map_eq_some_iff.mp hstep
      cases heq
      exact (hkeeps delivery).stop hstop

theorem step_free {run : Run} {a : Option (Except TransportError (Option Bool))} (h : Valid sha256 parses s)
    (hfree : ∀ id, s.file (.receipt id) = none) (hspared : Spared run s)
    (hstep : (runs sha256 parses).step run s = some (a, s')) (id : Name) : s'.file (.receipt id) = none := by
  have hnow := now_of_step hstep
  simp only [runs] at hstep
  split at hstep
  · cases hstep
  · cases run with
    | complete delivery call =>
      cases hstep
      cases call with
      | beginAttempt drawn =>
        simp only [Call.program, run_bind_pure]
        exact ((keeps_beginAttempt h).run.1.receipts id).trans (hfree id)
      | writeNotSent trusted drawn =>
        simp only [Call.program, run_bind_pure]
        exact ((keeps_writeNotSent h (hnow drawn rfl)).run.1.receipts id).trans (hfree id)
      | writeReceipt receipt =>
        simp only [Call.program, run_bind_pure]
        exact run_writeReceipt h hfree id
    | killed delivery call operations torn =>
      obtain ⟨s₁, hstop, heq⟩ := Option.map_eq_some_iff.mp hstep
      cases heq
      cases call with
      | beginAttempt drawn =>
        rw [Call.program, stop_bind_pure] at hstop
        exact (((keeps_beginAttempt h).stop hstop).receipts id).trans (hfree id)
      | writeNotSent trusted drawn =>
        rw [Call.program, stop_bind_pure] at hstop
        exact (((keeps_writeNotSent h (hnow drawn rfl)).stop hstop).receipts id).trans (hfree id)
      | writeReceipt receipt =>
        rw [Call.program, stop_bind_pure] at hstop
        exact stop_writeReceipt h hfree hspared hstop id

/-! ## A receipt that is still to come -/

/-- The attempt of the delivery is in its file. -/
def Reserved (sha256 : JsString → Name) (delivery : NativeOwnerDeliveryEvidence) (s : Directory Name) : Prop :=
  ∃ value, s.file (file sha256 delivery) = some (.evidence value) ∧ value.identifies delivery = true

/-- `readReceipt` answers this, and changes nothing. -/
def Stores (sha256 : JsString → Name) (parses : JsString → Bool) (delivery : NativeOwnerDeliveryEvidence)
    (receipt : Option EndpointDeliveryReceipt) (s : Directory Name) : Prop :=
  (readReceipt sha256 parses delivery).run exec s = (.ok receipt, s)

/-- Every receipt that is valid for the delivery can be written, and is then read back unless one was stored. -/
def TakesReceipts (sha256 : JsString → Name) (parses : JsString → Bool) (delivery : NativeOwnerDeliveryEvidence)
    (s : Directory Name) : Prop :=
  ∀ receipt, validateEndpointReceipt delivery receipt = true →
    ∃ s' stored, Stores sha256 parses delivery stored s ∧
      (runs sha256 parses).step (.complete delivery (.writeReceipt receipt)) s = some (some (.ok none), s') ∧
      Stores sha256 parses delivery (some (stored.getD receipt)) s'

theorem run_read_found (h : Valid sha256 parses s) (hfile : s.file (file sha256 delivery) = some (.evidence value))
    (hsame : SameDelivery value.delivery delivery) :
    (read sha256 parses delivery).run exec s = (.ok (some value), s) := by
  have hchecked := (h.sound _ _ hfile).checkEvidence hsame
  simp [read, readText, sys, performOrThrow, perform, Program.handle, exec, hfile, hchecked]

theorem stores_of_file (h : Valid sha256 parses s) (hfile : s.file (file sha256 delivery) = some (.evidence value))
    (hsame : SameDelivery value.delivery delivery) : Stores sha256 parses delivery value.receipt s := by
  unfold Stores readReceipt
  rw [run_bind_pure, run_read_found h hfile hsame]
  rfl

theorem Stores.unique {receipt receipt' : Option EndpointDeliveryReceipt} (h : Stores sha256 parses delivery receipt s)
    (h' : Stores sha256 parses delivery receipt' s) : receipt = receipt' :=
  Except.ok.inj (congrArg Prod.fst (h.symm.trans h'))

theorem step_writeReceipt (s : Directory Name) :
    (runs sha256 parses).step (.complete delivery (.writeReceipt receipt)) s = some (some (((writeReceipt sha256 parses delivery receipt).run exec s).1.map fun _ => none),
      ((writeReceipt sha256 parses delivery receipt).run exec s).2) := by
  simp only [runs, Run.call, Call.drawn, Call.program, run_bind_pure, Option.any_none, Bool.false_eq_true, if_false]

/-- Behind the checks of `writeReceipt`. -/
theorem run_writeReceipt_found (h : Valid sha256 parses s)
    (hfile : s.file (file sha256 delivery) = some (.evidence value)) (hsame : SameDelivery value.delivery delivery)
    (hreceipt : validateEndpointReceipt delivery receipt = true) :
    (writeReceipt sha256 parses delivery receipt).run exec s =
      if value.receipt.isSome then (.ok (), s)
      else (publish sha256 delivery { value with receipt := some receipt }).run exec s := by
  unfold writeReceipt
  rw [if_neg (by simp [hreceipt]), bind_eq, run_handle, run_read_found h hfile hsame]
  simp only
  split <;> rfl

theorem run_publish_occupied (hmade : s.made = true) (hleft : s.file (.receipt (sha256 delivery.deliveryId)) ≠ none) :
    (publish sha256 delivery value).run exec s = (.error .occupied, s) := by
  have hsome := Option.isSome_iff_ne_none.mpr hleft
  simp [publish, writeNew, sys, performOrThrow, perform, Program.handle, exec, hmade, hsome]

/-- A receipt can be written exactly when no earlier one has left its temporary, or when one is stored. -/
theorem takesReceipts_iff (h : Valid sha256 parses s) (hreserved : Reserved sha256 delivery s) :
    TakesReceipts sha256 parses delivery s ↔
      s.file (.receipt (sha256 delivery.deliveryId)) = none ∨
        ∃ stored, Stores sha256 parses delivery (some stored) s := by
  obtain ⟨value, hfile, hidentifies⟩ := hreserved
  have hsame := identifies_iff.mp hidentifies
  have hstores := stores_of_file h hfile hsame
  have hmade := h.made_of_file hfile
  constructor
  · intro htakes
    by_contra hneither
    rw [not_or] at hneither
    have hnone : value.receipt = none := by
      cases hr : value.receipt with
      | none => rfl
      | some stored => exact absurd ⟨stored, hr ▸ hstores⟩ hneither.2
    obtain ⟨s', stored, -, hstep, -⟩ := htakes (acceptance delivery) acceptance_valid
    rw [step_writeReceipt, run_writeReceipt_found h hfile hsame acceptance_valid, hnone, Option.isSome_none,
      if_neg Bool.false_ne_true, run_publish_occupied hmade hneither.1] at hstep
    cases hstep
  · intro hcase receipt hreceipt
    cases hr : value.receipt with
    | some stored =>
      rw [hr] at hstores
      refine ⟨s, some stored, hstores, ?_, hstores⟩
      rw [step_writeReceipt, run_writeReceipt_found h hfile hsame hreceipt, hr, Option.isSome_some, if_pos rfl]
      rfl
    | none =>
      rw [hr] at hstores
      have hfree : s.file (.receipt (sha256 delivery.deliveryId)) = none := by
        rcases hcase with hfree | ⟨stored, hstored⟩
        · exact hfree
        · cases hstores.unique hstored
      have hstep : (runs sha256 parses).step (.complete delivery (.writeReceipt receipt)) s =
          some (some (.ok none), published sha256 delivery { value with receipt := some receipt } s) := by
        rw [step_writeReceipt, run_writeReceipt_found h hfile hsame hreceipt, hr, Option.isSome_none,
          if_neg Bool.false_ne_true, run_publish hmade hfree]
        rfl
      exact ⟨_, none, hstores, hstep, stores_of_file (step_kept h hstep).valid (if_pos rfl) hsame⟩

theorem reach_kept (h : Valid sha256 parses s) (hreach : (runs sha256 parses).Reach s s') : Kept sha256 parses s s' :=
  hreach.invariant h.kept fun _ _ _ _ hkept _ hstep => hkept.trans (step_kept hkept.valid hstep)

/-- Over every sequence of calls, any of them killed at any moment: what `readReceipt` has found it finds in every
later state; a later receipt can be written exactly when no temporary is left or one is stored; and none is left
when no death falls between the creation and the renaming of a temporary. -/
theorem receipts_survive (sha256 : JsString → Name) (parses : JsString → Bool) :
    (∀ s, (runs sha256 parses).Reach initial s → ∀ delivery, Reserved sha256 delivery s →
      (TakesReceipts sha256 parses delivery s ↔
        s.file (.receipt (sha256 delivery.deliveryId)) = none ∨
          ∃ stored, Stores sha256 parses delivery (some stored) s) ∧
      ∀ s', (runs sha256 parses).Reach s s' → Reserved sha256 delivery s' ∧
        ∀ stored, Stores sha256 parses delivery (some stored) s → Stores sha256 parses delivery (some stored) s') ∧
    ∀ s, (runs sha256 parses).ReachUnder Spared initial s → ∀ delivery, Reserved sha256 delivery s →
      TakesReceipts sha256 parses delivery s := by
  constructor
  · intro s hreach delivery hreserved
    have hvalid := (reach_kept initial_valid hreach).valid
    refine ⟨takesReceipts_iff hvalid hreserved, fun s' hlater ↦ ?_⟩
    obtain ⟨value, hfile, hidentifies⟩ := hreserved
    have hsame := identifies_iff.mp hidentifies
    have hkept := reach_kept hvalid hlater
    obtain ⟨value', hfile', hcontinues⟩ := hkept.continues _ value hfile
    have hsame' : SameDelivery value'.delivery delivery := hcontinues.delivery ▸ hsame
    refine ⟨⟨value', hfile', identifies_iff.mpr hsame'⟩, fun stored hstored ↦ ?_⟩
    have hreceipt := hcontinues.receipt stored ((stores_of_file hvalid hfile hsame).unique hstored)
    exact hreceipt ▸ stores_of_file hkept.valid hfile' hsame'
  · intro s hreach delivery hreserved
    have hinvariant := hreach.invariant
      (P := fun s ↦ Valid sha256 parses s ∧ ∀ id, s.file (.receipt id) = none)
      ⟨initial_valid, fun _ ↦ rfl⟩ fun _ _ _ _ h hspared hstep ↦
        ⟨(step_kept h.1 hstep).valid, step_free h.1 h.2 hspared hstep⟩
    exact (takesReceipts_iff hinvariant.1 hreserved).mpr (.inl (hinvariant.2 _))

end Files

/-! ## A death inside `writeReceipt` -/

section Death

def desktop : AgentRequestEndpoint where
  kind := .local_
  managerInstanceId := js "m"
  agentId := js "a"
  provider := js "codex"
  sessionId := js "s"
  authorizationIncarnation := js "i"

def sent : NativeOwnerDeliveryEvidence where
  deliveryId := js "d"
  generation := js "g"
  target := desktop
  promptHash := js "p"
  executionOptionsHash := js "o"
  dispatchAttemptId := some (js "1")

def firstAttempt : Run := .complete sent (.beginAttempt ⟨js "u", 0, js "now"⟩)

/-- The process dies when it has created the temporary. -/
def killedReceipt : Run := .killed sent (.writeReceipt (acceptance sent)) 2 none

/-- A reserved attempt takes its receipt. -/
theorem receipts_survive_spared :
    ∃ s, (runs id fun _ ↦ true).ReachUnder Spared initial s ∧ TakesReceipts id (fun _ ↦ true) sent s := by
  have hreach : (runs id fun _ ↦ true).ReachUnder Spared initial _ := .next firstAttempt _ .refl trivial rfl
  exact ⟨_, hreach, (receipts_survive id fun _ ↦ true).2 _ hreach sent ⟨_, rfl, by decide⟩⟩

/-- Every later `writeReceipt` finds the temporary that a killed one has left. -/
theorem killed_writeReceipt :
    ∃ s, (runs id fun _ ↦ true).Reach initial s ∧ Reserved id sent s ∧ ¬TakesReceipts id (fun _ ↦ true) sent s := by
  have hreach : (runs id fun _ ↦ true).Reach initial _ :=
    .next killedReceipt _ (.next firstAttempt _ .refl trivial rfl) trivial rfl
  refine ⟨_, hreach, ⟨_, rfl, by decide⟩, fun htakes ↦ ?_⟩
  obtain ⟨s', stored, -, hstep, -⟩ := htakes (acceptance sent) acceptance_valid
  have hanswer : Option.map Prod.fst _ = some (some (Except.ok none)) := congrArg (Option.map Prod.fst) hstep
  rw [step_writeReceipt] at hanswer
  exact absurd hanswer (by decide)

end Death

end EndpointTransport

end RabiRoute.AgentRequests
