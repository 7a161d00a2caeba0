import RabiRoute.Shared.KeyedAsyncLock

/-!
# The calls of a key take turns

A call leaves its place behind the tail of the call before it only after that call has finished.  By induction on
the calls of a key everything before a call that has left its place has finished; the map names the last
unfinished call.
-/

namespace RabiRoute.KeyedAsyncLock

open Collections Transitions

variable {calls : List Call} {tails : InsertionMap JsString Nat} {s : State} {i j p : Nat} {c c' d : Call}
  {jobs : List Job} {job : Job} {k : JsString}

/-! ## Lookups -/

theorem lookup_set (h : calls[i]? = some c) : (calls.set i c')[j]? = if j = i then some c' else calls[j]? := by
  have hi : i < calls.length := (List.getElem?_eq_some_iff.mp h).1
  rw [List.getElem?_set]
  by_cases hji : j = i
  · rw [if_pos hji.symm, if_pos hji, if_pos (hji ▸ hi)]
  · rw [if_neg (Ne.symm hji), if_neg hji]

theorem lookup_snoc : (calls ++ [c])[j]? = if j = calls.length then some c else calls[j]? := by
  by_cases hj : j = calls.length
  · rw [if_pos hj, hj, List.getElem?_append_right (Nat.le_refl _), Nat.sub_self]
    rfl
  · rw [if_neg hj]
    by_cases hlt : j < calls.length
    · exact List.getElem?_append_left hlt
    · rw [List.getElem?_eq_none (by rw [List.length_append]; simp only [List.length_singleton]; omega),
        List.getElem?_eq_none (by omega)]

theorem lookup_lt (h : calls[i]? = some c) : i < calls.length := (List.getElem?_eq_some_iff.mp h).1

theorem isPending_some : isPending calls (some p) = true ↔ ∃ c, calls[p]? = some c ∧ c.tail ≠ .resolved := by
  unfold isPending
  rw [Option.any_eq_true]
  constructor
  · rintro ⟨c, hc, ht⟩
    exact ⟨c, hc, of_decide_eq_true ht⟩
  · rintro ⟨c, hc, ht⟩
    exact ⟨c, hc, decide_eq_true ht⟩

/-! ## The order of the calls of a key -/

/-- What the stages of one call have to do with each other. -/
structure StagesOk (c : Call) : Prop where
  together : c.tail = .blocked ↔ c.phase = .blocked
  adopted : c.tail = .adopted → c.phase ≠ .finished
  released : c.tail = .settling ∨ c.tail = .resolved → c.phase = .finished
  operation : c.operation.isSome = true ↔ c.phase = .settled ∨ c.phase = .finished
  result : c.result = if c.phase = .finished then c.operation else none

/-- `p` is the last call of the key before `j`. -/
structure LastBefore (calls : List Call) (p j : Nat) (k : JsString) : Prop where
  lt : p < j
  key : ∃ c, calls[p]? = some c ∧ c.key = k
  last : ∀ (i : Nat) (c : Call), calls[i]? = some c → c.key = k → i < j → i ≤ p

/-- The calls of a key are chained in their order. -/
structure Chained (calls : List Call) : Prop where
  stages : ∀ (i : Nat) (c : Call), calls[i]? = some c → StagesOk c
  previous : ∀ (j : Nat) (d : Call) (p : Nat), calls[j]? = some d → d.previous = some p →
    LastBefore calls p j d.key
  pending : ∀ (j : Nat) (d : Call), calls[j]? = some d → d.phase = .blocked → isPending calls d.previous = true
  finished : ∀ (i j : Nat) (c d : Call), calls[i]? = some c → calls[j]? = some d → c.key = d.key → i < j →
    d.phase ≠ .blocked → c.phase = .finished

/-- The map names the last call of a key unless that call has finished. -/
structure Mapped (tails : InsertionMap JsString Nat) (calls : List Call) : Prop where
  named : ∀ k i, tails.get? k = some i → ∃ c, calls[i]? = some c ∧ c.key = k ∧ c.phase ≠ .finished ∧
    ∀ (j : Nat) (d : Call), calls[j]? = some d → d.key = k → j ≤ i
  unnamed : ∀ k, tails.get? k = none → ∀ (i : Nat) (c : Call), calls[i]? = some c → c.key = k →
    c.phase = .finished

/-- A stage waits for this job. -/
def Needs (calls : List Call) : Job → Prop
  | .tail i => ∃ c, calls[i]? = some c ∧ c.tail.isQueued = true
  | .body i => ∃ c, calls[i]? = some c ∧ c.phase.isQueued = true

structure Sound (s : State) : Prop where
  chained : Chained s.calls
  mapped : Mapped s.tails s.calls
  queued : ∀ job, Needs s.calls job → job ∈ s.queue

/-! ## One call goes on -/

/-- What the step of one call keeps of it. -/
structure Same (c c' : Call) : Prop where
  key : c'.key = c.key
  previous : c'.previous = c.previous

theorem LastBefore.congr {R : List Call} {q m : Nat} (h : LastBefore calls q m k)
    (hkeys : R.map Call.key = calls.map Call.key) : LastBefore R q m k := by
  have hat : ∀ l : Nat, (R[l]?).map Call.key = (calls[l]?).map Call.key := by
    intro l
    rw [← List.getElem?_map, ← List.getElem?_map, hkeys]
  refine ⟨h.lt, ?_, fun l e he hk hl => ?_⟩
  · obtain ⟨e, he, hk⟩ := h.key
    have hq := hat q
    rw [he] at hq
    obtain ⟨d, hd, hdk⟩ := Option.map_eq_some_iff.mp hq
    exact ⟨d, hd, hdk.trans hk⟩
  · have hq := (hat l).symm
    rw [he] at hq
    obtain ⟨d, hd, hdk⟩ := Option.map_eq_some_iff.mp hq
    exact h.last l d hd (hdk.trans hk) hl

theorem map_set_of_eq {β : Type} (f : Call → β) (hi : calls[i]? = some c) (hf : f c' = f c) :
    (calls.set i c').map f = calls.map f := by
  apply List.ext_getElem?
  intro j
  rw [List.getElem?_map, List.getElem?_map, lookup_set hi]
  by_cases hj : j = i
  · rw [if_pos hj, hj, hi]
    exact congrArg some hf
  · rw [if_neg hj]

theorem isPending_set (hi : calls[i]? = some c) (ht : c'.tail ≠ .resolved) {q : Option Nat}
    (h : isPending calls q = true) : isPending (calls.set i c') q = true := by
  cases q with
  | none => exact h
  | some p =>
    obtain ⟨e, he, hte⟩ := isPending_some.mp h
    apply isPending_some.mpr
    rw [lookup_set hi]
    by_cases hp : p = i
    · exact ⟨c', if_pos hp, ht⟩
    · exact ⟨e, (if_neg hp).trans he, hte⟩

/-- One call goes on, its tail not yet resolved. -/
theorem Chained.set (h : Chained calls) (hi : calls[i]? = some c) (hc : Same c c') (hok : StagesOk c')
    (hleft : c.phase ≠ .blocked) (hkept : c.phase = .finished → c'.phase = .finished)
    (ht : c'.tail ≠ .resolved) (hphase : c'.phase ≠ .blocked) : Chained (calls.set i c') := by
  constructor
  · intro j d hd
    rw [lookup_set hi] at hd
    by_cases hj : j = i
    · rw [if_pos hj] at hd
      cases hd
      exact hok
    · rw [if_neg hj] at hd
      exact h.stages j d hd
  · intro j d p hd hp
    rw [lookup_set hi] at hd
    by_cases hj : j = i
    · rw [if_pos hj] at hd
      cases hd
      rw [hc.previous] at hp
      rw [hc.key]
      exact hj ▸ (h.previous i c p hi hp).congr (map_set_of_eq _ hi hc.key)
    · rw [if_neg hj] at hd
      exact (h.previous j d p hd hp).congr (map_set_of_eq _ hi hc.key)
  · intro j d hd hblocked
    rw [lookup_set hi] at hd
    by_cases hj : j = i
    · rw [if_pos hj] at hd
      cases hd
      exact absurd hblocked hphase
    · rw [if_neg hj] at hd
      exact isPending_set hi ht (h.pending j d hd hblocked)
  · intro l j e d he hd hk hlt hblocked
    rw [lookup_set hi] at he hd
    by_cases hj : j = i
    · rw [if_pos hj] at hd
      cases hd
      rw [if_neg (by omega)] at he
      exact h.finished l i e c he hi (hk.trans hc.key) (hj ▸ hlt) hleft
    · rw [if_neg hj] at hd
      by_cases hl : l = i
      · rw [if_pos hl] at he
        cases he
        exact hkept (h.finished i j c d hi hd (hc.key.symm.trans hk) (hl ▸ hlt) hblocked)
      · rw [if_neg hl] at he
        exact h.finished l j e d he hd hk hlt hblocked

/-- The last call of a key stays the last. -/
theorem named_set (hi : calls[i]? = some c) (hc : Same c c') {m : Nat} (h : ∀ (j : Nat) (d : Call), calls[j]? = some d →
    d.key = k → j ≤ m) : ∀ (j : Nat) (d : Call), (calls.set i c')[j]? = some d → d.key = k → j ≤ m := by
  intro j d hd hk
  rw [lookup_set hi] at hd
  by_cases hj : j = i
  · rw [if_pos hj] at hd
    cases hd
    exact hj ▸ h i c hi (hc.key.symm.trans hk)
  · rw [if_neg hj] at hd
    exact h j d hd hk

/-- What the map has to know of a call. -/
def mark (c : Call) : JsString × Bool := (c.key, decide (c.phase = .finished))

theorem Mapped.congr {R : List Call} (h : Mapped tails calls) (hmarks : R.map mark = calls.map mark) :
    Mapped tails R := by
  have hat : ∀ l : Nat, (R[l]?).map mark = (calls[l]?).map mark := by
    intro l
    rw [← List.getElem?_map, ← List.getElem?_map, hmarks]
  have hback : ∀ (l : Nat) (d : Call), R[l]? = some d → ∃ e, calls[l]? = some e ∧ mark e = mark d := by
    intro l d hd
    have hl := hat l
    rw [hd] at hl
    exact Option.map_eq_some_iff.mp hl.symm
  constructor
  · intro k m hm
    obtain ⟨e, he, hk, hopen, hlast⟩ := h.named k m hm
    have hm' := hat m
    rw [he] at hm'
    obtain ⟨d, hd, hmark⟩ := Option.map_eq_some_iff.mp hm'
    obtain ⟨hkey, hfin⟩ := Prod.mk.inj hmark
    refine ⟨d, hd, hkey.trans hk, fun hf => hopen (decide_eq_decide.mp hfin |>.mp hf), fun j g hg hgk => ?_⟩
    obtain ⟨g', hg', hmark'⟩ := hback j g hg
    exact hlast j g' hg' ((Prod.mk.inj hmark').1.trans hgk)
  · intro k hk j d hd hdk
    obtain ⟨e, he, hmark⟩ := hback j d hd
    obtain ⟨hkey, hfin⟩ := Prod.mk.inj hmark
    exact (decide_eq_decide.mp hfin).mp (h.unnamed k hk j e he (hkey.trans hdk))

/-- A call finishes, and the entry of its key goes if it is its own. -/
theorem Mapped.finish (h : Mapped tails calls) (hchain : Chained calls) (hi : calls[i]? = some c) (hc : Same c c')
    (hleft : c.phase ≠ .blocked) (hphase : c'.phase = .finished) :
    Mapped (if tails.get? c.key = some i then tails.erase c.key else tails) (calls.set i c') := by
  have hset : ∀ (j : Nat) (d : Call), (calls.set i c')[j]? = some d →
      (∃ e, calls[j]? = some e ∧ (e.phase = .finished → d.phase = .finished) ∧ d.key = e.key) := by
    intro j d hd
    rw [lookup_set hi] at hd
    by_cases hj : j = i
    · rw [if_pos hj] at hd
      cases hd
      exact ⟨c, hj ▸ hi, fun _ => hphase, hc.key⟩
    · rw [if_neg hj] at hd
      exact ⟨d, hd, id, rfl⟩
  constructor
  · intro k m hm
    have hold : tails.get? k = some m ∧ m ≠ i := by
      by_cases hown : tails.get? c.key = some i
      · rw [if_pos hown, InsertionMap.get?_erase] at hm
        by_cases hk : k = c.key
        · rw [if_pos hk] at hm
          cases hm
        · rw [if_neg hk] at hm
          refine ⟨hm, fun hmi => hk ?_⟩
          obtain ⟨e, he, hek, -⟩ := h.named k m hm
          rw [hmi, hi] at he
          cases he
          exact hek.symm
      · rw [if_neg hown] at hm
        refine ⟨hm, fun hmi => hown ?_⟩
        obtain ⟨e, he, hek, -⟩ := h.named k m hm
        rw [hmi, hi] at he
        cases he
        rw [hek, ← hmi]
        exact hm
    obtain ⟨e, he, hek, hopen, hlast⟩ := h.named k m hold.1
    rw [lookup_set hi, if_neg hold.2]
    exact ⟨e, he, hek, hopen, named_set hi hc hlast⟩
  · intro k hk j d hd hdk
    obtain ⟨e, he, hfin, hkey⟩ := hset j d hd
    by_cases hown : tails.get? c.key = some i
    · rw [if_pos hown, InsertionMap.get?_erase] at hk
      by_cases hck : k = c.key
      · -- Every call of the key is `i` or comes before it.
        obtain ⟨-, -, -, -, hlast⟩ := h.named _ _ hown
        have hle := hlast j e he (hkey.symm.trans (hdk.trans hck))
        by_cases hj : j = i
        · rw [lookup_set hi, if_pos hj] at hd
          cases hd
          exact hphase
        · exact hfin (hchain.finished j i e c he hi (hkey.symm.trans (hdk.trans hck)) (by omega) hleft)
      · rw [if_neg hck] at hk
        exact hfin (h.unnamed k hk j e he (hkey.symm.trans hdk))
    · rw [if_neg hown] at hk
      exact hfin (h.unnamed k hk j e he (hkey.symm.trans hdk))

/-- A step of call `i` needs no job of another call. -/
theorem needs_set (hi : calls[i]? = some c) (h : Needs (calls.set i c') job) :
    Needs calls job ∧ job ≠ .tail i ∧ job ≠ .body i ∨ job = .tail i ∧ c'.tail.isQueued = true ∨
      job = .body i ∧ c'.phase.isQueued = true := by
  cases job with
  | tail j =>
    obtain ⟨d, hd, hq⟩ := h
    rw [lookup_set hi] at hd
    by_cases hj : j = i
    · rw [if_pos hj] at hd
      cases hd
      exact .inr (.inl ⟨congrArg Job.tail hj, hq⟩)
    · rw [if_neg hj] at hd
      exact .inl ⟨⟨d, hd, hq⟩, fun h => hj (Job.tail.inj h), Job.noConfusion⟩
  | body j =>
    obtain ⟨d, hd, hq⟩ := h
    rw [lookup_set hi] at hd
    by_cases hj : j = i
    · rw [if_pos hj] at hd
      cases hd
      exact .inr (.inr ⟨congrArg Job.body hj, hq⟩)
    · rw [if_neg hj] at hd
      exact .inl ⟨⟨d, hd, hq⟩, Job.noConfusion, fun h => hj (Job.body.inj h)⟩

/-! ## The jobs of a tail and of a body -/

/-- The state after a job has left the queue and before it has run. -/
structure Popped (s : State) (job : Job) : Prop where
  chained : Chained s.calls
  mapped : Mapped s.tails s.calls
  queued : ∀ job', Needs s.calls job' → job' = job ∨ job' ∈ s.queue

theorem Sound.popped {rest : List Job} (h : Sound s) (hq : s.queue = job :: rest) :
    Popped { s with queue := rest } job := by
  refine ⟨h.chained, h.mapped, fun job' hn => ?_⟩
  have hmem := h.queued job' hn
  rw [hq] at hmem
  exact List.mem_cons.mp hmem

theorem Sound.unpopped (h : Sound s) : Popped s job :=
  ⟨h.chained, h.mapped, fun job' hn => .inr (h.queued job' hn)⟩

/-- The jobs that the next stages of call `i` wait for are queued. -/
theorem Popped.queue_set (h : Popped s job) (hjob : job = .tail i ∨ job = .body i) (hi : s.calls[i]? = some c) (htail :
    c'.tail.isQueued = true → Job.tail i ∈ s.queue ++ jobs) (hbody : c'.phase.isQueued = true → Job.body i ∈ s.queue ++
    jobs) : ∀ job', Needs (s.calls.set i c') job' → job' ∈ s.queue ++ jobs := by
  intro job' hn
  rcases needs_set hi hn with ⟨hold, hnt, hnb⟩ | ⟨rfl, hq⟩ | ⟨rfl, hq⟩
  · rcases h.queued job' hold with rfl | hmem
    · rcases hjob with rfl | rfl
      · exact absurd rfl hnt
      · exact absurd rfl hnb
    · exact List.mem_append_left _ hmem
  · exact htail hq
  · exact hbody hq

theorem Popped.put (h : Popped s job) (hjob : job = .tail i ∨ job = .body i) (hi : s.calls[i]? = some c) (hc : Same c
    c') (hok : StagesOk c') (hleft : c.phase ≠ .blocked) (ht : c'.tail ≠ .resolved) (hphase : c'.phase ≠ .blocked) (hfin
    : c'.phase = .finished ↔ c.phase = .finished) (htail : c'.tail.isQueued = true → Job.tail i ∈ s.queue ++ jobs)
    (hbody : c'.phase.isQueued = true → Job.body i ∈ s.queue ++ jobs) : Sound (s.put i c' jobs) := by
  have hmark : mark c' = mark c := congrArg₂ Prod.mk hc.key (decide_eq_decide.mpr hfin)
  exact ⟨h.chained.set hi hc hok hleft hfin.mpr ht hphase, h.mapped.congr (map_set_of_eq _ hi hmark),
    h.queue_set hjob hi htail hbody⟩

theorem Popped.body_queued (h : Popped s (.tail i)) (hi : s.calls[i]? = some c) (hq : c.phase.isQueued = true) :
    Job.body i ∈ s.queue ++ jobs :=
  List.mem_append_left _ ((h.queued (.body i) ⟨c, hi, hq⟩).resolve_left Job.noConfusion)

theorem Popped.tail_queued (h : Popped s (.body i)) (hi : s.calls[i]? = some c) (hq : c.tail.isQueued = true) :
    Job.tail i ∈ s.queue ++ jobs :=
  List.mem_append_left _ ((h.queued (.tail i) ⟨c, hi, hq⟩).resolve_left Job.noConfusion)

theorem StagesOk.setTail {t : Tail} (h : StagesOk c) (hleft : c.phase ≠ .blocked) (ht : t ≠ .blocked)
    (hadopted : t = .adopted → c.phase ≠ .finished) (hreleased : t = .settling ∨ t = .resolved → c.phase = .finished) :
    StagesOk { c with tail := t } :=
  ⟨⟨fun hb => absurd hb ht, fun hb => absurd hb hleft⟩, hadopted, hreleased, h.operation, h.result⟩

/-- The body goes on before `operation` has settled. -/
theorem StagesOk.setPhase {ph : Phase} (h : StagesOk c) (hleft : c.phase ≠ .blocked) (hph : ph ≠ .blocked)
    (hbefore : c.phase ≠ .settled ∧ c.phase ≠ .finished) (hopen : ph ≠ .settled ∧ ph ≠ .finished) :
    StagesOk { c with phase := ph } := by
  have hnone : ¬ c.operation.isSome = true := fun hsome => (h.operation.mp hsome).elim hbefore.1 hbefore.2
  have hresult := h.result
  rw [if_neg hbefore.2] at hresult
  refine ⟨⟨fun hb => absurd (h.together.mp hb) hleft, fun hb => absurd hb hph⟩, fun _ => hopen.2,
    fun ht => absurd (h.released ht) hbefore.2, ⟨fun hsome => absurd hsome hnone, ?_⟩, ?_⟩
  · rintro (hs | hf)
    · exact absurd hs hopen.1
    · exact absurd hf hopen.2
  · exact hresult.trans (if_neg hopen.2).symm

/-- What call `i` is after `release()`. -/
def released (c : Call) : Call :=
  { c with
    phase := .finished, result := c.operation
    tail := if c.tail = .adopted then .settling else c.tail }

theorem finish_eq : s.finish i c =
    { calls := s.calls.set i (released c)
      tails := if s.tails.get? c.key = some i then s.tails.erase c.key else s.tails
      queue := s.queue ++ if c.tail = .adopted then [.tail i] else [] } := by
  unfold State.finish released State.put
  by_cases ht : c.tail = .adopted
  · simp only [if_pos ht]
    split
    · rfl
    · rfl
  · simp only [if_neg ht]
    split
    · rfl
    · rfl

/-- The `finally` block of a call whose `operation` has been called. -/
theorem Popped.finish (h : Popped s (.body i)) (hi : s.calls[i]? = some c) (hc : Same c c')
    (htail : c'.tail = c.tail) (hleft : c.phase ≠ .blocked) (hopen : c.phase ≠ .finished)
    (hoperation : c'.operation.isSome = true) : Sound (s.finish i c') := by
  have hok := h.chained.stages i c hi
  have hsame : Same c (released c') := ⟨hc.key, hc.previous⟩
  have hnotBlocked : c.tail ≠ .blocked := fun hb => hleft (hok.together.mp hb)
  have hnotResolved : c.tail ≠ .resolved := fun hr => hopen (hok.released (.inr hr))
  have ht : (released c').tail = if c.tail = .adopted then .settling else c.tail := by
    unfold released
    rw [htail]
  have hadopted : (released c').tail ≠ .adopted := by
    rw [ht]
    split
    · exact Tail.noConfusion
    · assumption
  have hstages : StagesOk (released c') := by
    refine ⟨⟨fun hb => ?_, Phase.noConfusion⟩, fun ha => absurd ha hadopted, fun _ => rfl,
      ⟨fun _ => .inr rfl, fun _ => hoperation⟩, (if_pos rfl).symm⟩
    rw [ht] at hb
    split at hb
    · cases hb
    · exact absurd hb hnotBlocked
  have hset := h.chained.set hi hsame hstages hleft (fun _ => rfl) (by
    rw [ht]
    split
    · exact Tail.noConfusion
    · exact hnotResolved) Phase.noConfusion
  rw [finish_eq, htail, hc.key]
  refine ⟨hset, h.mapped.finish h.chained hi hsame hleft rfl, ?_⟩
  refine h.queue_set (.inr rfl) hi (fun hq => ?_) (fun hq => Bool.noConfusion hq)
  by_cases ha : c.tail = .adopted
  · rw [if_pos ha]
    exact List.mem_append_right _ (List.mem_singleton_self _)
  · rw [ht, if_neg ha] at hq
    exact h.tail_queued hi hq

theorem Popped.unchanged (h : Popped s job) (hn : ¬ Needs s.calls job) : Sound s :=
  ⟨h.chained, h.mapped, fun job' hn' => (h.queued job' hn').resolve_left fun heq => hn (heq ▸ hn')⟩

/-- The body goes on before `operation` is called. -/
theorem Popped.putPhase {ph : Phase} (h : Popped s (.body i)) (hi : s.calls[i]? = some c)
    (hbefore : c.phase = .catching ∨ c.phase = .resuming) (hph : ph = .resuming ∨ ph = .running)
    (hjobs : ph.isQueued = true → Job.body i ∈ s.queue ++ jobs) : Sound (s.put i { c with phase := ph } jobs) := by
  have hok := h.chained.stages i c hi
  have hleft : c.phase ≠ .blocked := by
    rcases hbefore with hp | hp <;> rw [hp] <;> exact Phase.noConfusion
  have hopen : c.phase ≠ .settled ∧ c.phase ≠ .finished := by
    rcases hbefore with hp | hp <;> rw [hp] <;> exact ⟨Phase.noConfusion, Phase.noConfusion⟩
  have hph' : ph ≠ .blocked ∧ ph ≠ .settled ∧ ph ≠ .finished := by
    rcases hph with rfl | rfl <;> exact ⟨Phase.noConfusion, Phase.noConfusion, Phase.noConfusion⟩
  have hstages : StagesOk { c with phase := ph } := hok.setPhase hleft hph'.1 hopen hph'.2
  exact h.put (.inr rfl) hi ⟨rfl, rfl⟩ hstages hleft (fun ht => hopen.2 (hok.released (.inr ht))) hph'.1
    (iff_of_false hph'.2.2 hopen.2) (fun hq => h.tail_queued hi hq) hjobs

/-- `operation` is called, or its promise settles. -/
theorem Popped.bodyJob (h : Popped s (.body i)) (hi : s.calls[i]? = some c) : Sound (s.bodyJob i c) := by
  have hok := h.chained.stages i c hi
  have hidle : c.phase.isQueued = false → Sound s := by
    intro hq
    apply h.unchanged
    rintro ⟨d, hd, hdq⟩
    rw [hi] at hd
    cases hd
    rw [hq] at hdq
    cases hdq
  unfold State.bodyJob
  split
  case h_1 hp =>
    apply h.putPhase hi (.inl hp) (.inl rfl)
    exact fun _ => List.mem_append_right _ (List.mem_singleton_self _)
  case h_2 hp =>
    apply h.putPhase hi (.inr hp) (.inr rfl)
    exact fun hq => Bool.noConfusion hq
  case h_3 hp =>
    apply h.finish hi ⟨rfl, rfl⟩ rfl
    · rw [hp]; exact Phase.noConfusion
    · rw [hp]; exact Phase.noConfusion
    · exact hok.operation.mpr (.inl hp)
  case h_4 hp => exact hidle (by rw [hp]; rfl)
  case h_5 hp => exact hidle (by rw [hp]; rfl)
  case h_6 hp => exact hidle (by rw [hp]; rfl)

/-! ## A tail resolves -/

/-- The calls after the tail of call `i` has resolved. -/
def wake (i : Nat) (d : Call) : Call :=
  if State.waitsFor i d then { d with tail := .catching, phase := .catching } else d

theorem waitsFor_iff : State.waitsFor i d = true ↔ d.previous = some i ∧ d.phase = .blocked := decide_eq_true_iff

theorem wake_key : (wake i d).key = d.key := by
  unfold wake
  split <;> rfl

theorem wake_previous : (wake i d).previous = d.previous := by
  unfold wake
  split <;> rfl

theorem wake_of_ne (h : d.phase ≠ .blocked) : wake i d = d :=
  if_neg fun hw => h (waitsFor_iff.mp hw).2

theorem wake_finished : (wake i d).phase = .finished ↔ d.phase = .finished := by
  by_cases hb : d.phase = .blocked
  · refine iff_of_false ?_ (by rw [hb]; exact Phase.noConfusion)
    unfold wake
    split
    · exact Phase.noConfusion
    · rw [hb]
      exact Phase.noConfusion
  · rw [wake_of_ne hb]

theorem wake_tail (h : d.tail ≠ .resolved) : (wake i d).tail ≠ .resolved := by
  unfold wake
  split
  · exact Tail.noConfusion
  · exact h

theorem StagesOk.wake (h : StagesOk d) : StagesOk (wake i d) := by
  by_cases hw : State.waitsFor i d = true
  · have hp := (waitsFor_iff.mp hw).2
    have hnone : ¬ d.operation.isSome = true := by
      rw [h.operation, hp]
      exact fun h => h.elim Phase.noConfusion Phase.noConfusion
    have hresult := h.result
    rw [hp, if_neg Phase.noConfusion] at hresult
    unfold KeyedAsyncLock.wake
    rw [if_pos hw]
    exact ⟨⟨Tail.noConfusion, Phase.noConfusion⟩, Tail.noConfusion, fun h => h.elim Tail.noConfusion Tail.noConfusion,
      ⟨fun hs => absurd hs hnone, fun h => h.elim Phase.noConfusion Phase.noConfusion⟩,
      hresult.trans (if_neg Phase.noConfusion).symm⟩
  · unfold KeyedAsyncLock.wake
    rw [if_neg hw]
    exact h

/-- Where a call of the new list comes from. -/
theorem lookup_woken (hi : calls[i]? = some c) (hfin : c.phase = .finished)
    (hd : ((calls.set i { c with tail := .resolved }).map (wake i))[j]? = some d) :
    j = i ∧ d = { c with tail := .resolved } ∨ j ≠ i ∧ ∃ e, calls[j]? = some e ∧ d = wake i e := by
  rw [List.getElem?_map] at hd
  obtain ⟨e, he, rfl⟩ := Option.map_eq_some_iff.mp hd
  rw [lookup_set hi] at he
  by_cases hj : j = i
  · rw [if_pos hj] at he
    cases he
    exact .inl ⟨hj, wake_of_ne (by rw [hfin]; exact Phase.noConfusion)⟩
  · rw [if_neg hj] at he
    exact .inr ⟨hj, e, he, rfl⟩

theorem Chained.resolve (h : Chained calls) (hi : calls[i]? = some c) (hfin : c.phase = .finished) :
    Chained ((calls.set i { c with tail := .resolved }).map (wake i)) := by
  have hleft : c.phase ≠ .blocked := by rw [hfin]; exact Phase.noConfusion
  have hkeys : ((calls.set i { c with tail := .resolved }).map (wake i)).map Call.key = calls.map Call.key := by
    rw [List.map_map, show Call.key ∘ wake i = Call.key from funext fun _ => wake_key]
    exact map_set_of_eq _ hi rfl
  constructor
  · intro j d hd
    rcases lookup_woken hi hfin hd with ⟨-, rfl⟩ | ⟨-, e, he, rfl⟩
    · exact (h.stages i c hi).setTail hleft Tail.noConfusion Tail.noConfusion fun _ => hfin
    · exact (h.stages j e he).wake
  · intro j d p hd hp
    rcases lookup_woken hi hfin hd with ⟨rfl, rfl⟩ | ⟨-, e, he, rfl⟩
    · exact (h.previous j c p hi hp).congr hkeys
    · rw [wake_previous] at hp
      rw [wake_key]
      exact (h.previous j e p he hp).congr hkeys
  · intro j d hd hblocked
    rcases lookup_woken hi hfin hd with ⟨-, rfl⟩ | ⟨-, e, he, rfl⟩
    · exact absurd hblocked hleft
    · by_cases hw : State.waitsFor i e = true
      · rw [wake, if_pos hw] at hblocked
        cases hblocked
      · rw [wake, if_neg hw] at hblocked
        rw [wake_previous]
        have hpending := h.pending j e he hblocked
        cases hp : e.previous with
        | none =>
          rw [hp] at hpending
          cases hpending
        | some q =>
          rw [hp] at hpending
          obtain ⟨f, hf, hft⟩ := isPending_some.mp hpending
          have hq : q ≠ i := fun hqi => hw (waitsFor_iff.mpr ⟨hqi ▸ hp, hblocked⟩)
          refine isPending_some.mpr ⟨wake i f, ?_, wake_tail hft⟩
          rw [List.getElem?_map, lookup_set hi, if_neg hq, hf]
          rfl
  · intro l j e d he hd hk hlt hblocked
    -- Everything before a call that waits for `i` is `i` or comes before it.
    have hold : ∀ f, calls[l]? = some f → l ≠ i → f.phase = .finished := by
      intro f hf hli
      have hfe : e = wake i f := by
        rcases lookup_woken hi hfin he with ⟨hl, -⟩ | ⟨-, g, hg, rfl⟩
        · exact absurd hl hli
        · rw [hf] at hg
          cases hg
          rfl
      have hfk : f.key = d.key := by rw [← hk, hfe, wake_key]
      rcases lookup_woken hi hfin hd with ⟨rfl, rfl⟩ | ⟨-, g, hg, rfl⟩
      · exact h.finished l j f c hf hi hfk hlt hleft
      · rw [wake_key] at hfk
        by_cases hw : State.waitsFor i g = true
        · have hlast := h.previous j g i hg (waitsFor_iff.mp hw).1
          obtain ⟨c', hc', hck⟩ := hlast.key
          rw [hi] at hc'
          cases hc'
          have hle := hlast.last l f hf hfk hlt
          exact h.finished l i f c hf hi (hfk.trans hck.symm) (by omega) hleft
        · rw [wake, if_neg hw] at hblocked
          exact h.finished l j f g hf hg hfk hlt hblocked
    rcases lookup_woken hi hfin he with ⟨-, rfl⟩ | ⟨hl, f, hf, rfl⟩
    · exact hfin
    · exact wake_finished.mpr (hold f hf hl)

theorem resolveTail_eq : s.resolveTail i c =
    { calls := (s.calls.set i { c with tail := .resolved }).map (wake i)
      tails := s.tails
      queue := s.queue ++ [] ++ (((s.calls.set i { c with tail := .resolved }).zipIdx.filter
        fun e => State.waitsFor i e.1).flatMap fun e => [.tail e.2, .body e.2]) } := rfl

/-- What is chained to the tail of call `i` is queued. -/
theorem followers_queued {R : List Call} (hd : R[j]? = some d) (hw : State.waitsFor i d = true) :
    Job.tail j ∈ ((R.zipIdx.filter fun e => State.waitsFor i e.1).flatMap fun e => [Job.tail e.2, Job.body e.2]) ∧
    Job.body j ∈ ((R.zipIdx.filter fun e => State.waitsFor i e.1).flatMap fun e => [Job.tail e.2, Job.body e.2]) := by
  have hmem : (d, j) ∈ R.zipIdx.filter fun e => State.waitsFor i e.1 :=
    List.mem_filter.mpr ⟨List.mem_zipIdx_iff_getElem?.mpr hd, hw⟩
  exact ⟨List.mem_flatMap.mpr ⟨_, hmem, List.mem_cons_self⟩,
    List.mem_flatMap.mpr ⟨_, hmem, List.mem_cons_of_mem _ List.mem_cons_self⟩⟩

theorem Popped.resolveTail (h : Popped s (.tail i)) (hi : s.calls[i]? = some c) (hfin : c.phase = .finished) :
    Sound (s.resolveTail i c) := by
  rw [resolveTail_eq]
  have hmark : ((s.calls.set i { c with tail := .resolved }).map (wake i)).map mark = s.calls.map mark := by
    have hwake : mark ∘ wake i = mark :=
      funext fun d => congrArg₂ Prod.mk wake_key (decide_eq_decide.mpr wake_finished)
    rw [List.map_map, hwake]
    exact map_set_of_eq _ hi rfl
  refine ⟨h.chained.resolve hi hfin, h.mapped.congr hmark, fun job hn => ?_⟩
  have hfollow : ∀ j e, j ≠ i → s.calls[j]? = some e →
      (s.calls.set i { c with tail := .resolved })[j]? = some e := by
    intro j e hj he
    rw [lookup_set hi, if_neg hj, he]
  cases job with
  | tail j =>
    obtain ⟨d, hd, hq⟩ := hn
    rcases lookup_woken hi hfin hd with ⟨-, rfl⟩ | ⟨hj, e, he, rfl⟩
    · cases hq
    · by_cases hw : State.waitsFor i e = true
      · exact List.mem_append_right _ (followers_queued (hfollow j e hj he) hw).1
      · rw [wake, if_neg hw] at hq
        rcases h.queued (.tail j) ⟨e, he, hq⟩ with heq | hmem
        · exact absurd (Job.tail.inj heq) hj
        · exact List.mem_append_left _ (List.mem_append_left _ hmem)
  | body j =>
    obtain ⟨d, hd, hq⟩ := hn
    rcases lookup_woken hi hfin hd with ⟨-, rfl⟩ | ⟨hj, e, he, rfl⟩
    · rw [hfin] at hq
      cases hq
    · by_cases hw : State.waitsFor i e = true
      · exact List.mem_append_right _ (followers_queued (hfollow j e hj he) hw).2
      · rw [wake, if_neg hw] at hq
        rcases h.queued (.body j) ⟨e, he, hq⟩ with heq | hmem
        · cases heq
        · exact List.mem_append_left _ (List.mem_append_left _ hmem)

/-- The tail goes on and does not resolve. -/
theorem Popped.putTail {t : Tail} (h : Popped s (.tail i)) (hi : s.calls[i]? = some c) (hleft : c.tail ≠ .blocked)
    (ht : t ≠ .blocked ∧ t ≠ .resolved) (hadopted : t = .adopted → c.phase ≠ .finished)
    (hsettling : t = .settling → c.phase = .finished) (hjobs : t.isQueued = true → Job.tail i ∈ s.queue ++ jobs) :
    Sound (s.put i { c with tail := t } jobs) := by
  have hok := h.chained.stages i c hi
  have hphase : c.phase ≠ .blocked := fun hb => hleft (hok.together.mpr hb)
  have hstages : StagesOk { c with tail := t } :=
    hok.setTail hphase ht.1 hadopted fun hs => hs.elim hsettling fun hr => absurd hr ht.2
  exact h.put (.inl rfl) hi ⟨rfl, rfl⟩ hstages hphase ht.2 hphase Iff.rfl hjobs fun hq => h.body_queued hi hq

theorem Popped.tailJob (h : Popped s (.tail i)) (hi : s.calls[i]? = some c) : Sound (s.tailJob i c) := by
  have hok := h.chained.stages i c hi
  have hidle : c.tail.isQueued = false → Sound s := by
    intro hq
    apply h.unchanged
    rintro ⟨d, hd, hdq⟩
    rw [hi] at hd
    cases hd
    rw [hq] at hdq
    cases hdq
  have hlast : Job.tail i ∈ s.queue ++ [Job.tail i] := List.mem_append_right _ (List.mem_singleton_self _)
  unfold State.tailJob
  split
  case h_1 ht =>
    apply h.putTail hi (by rw [ht]; exact Tail.noConfusion) ⟨Tail.noConfusion, Tail.noConfusion⟩ Tail.noConfusion
      Tail.noConfusion
    exact fun _ => hlast
  case h_2 ht =>
    apply h.putTail hi (by rw [ht]; exact Tail.noConfusion) ⟨Tail.noConfusion, Tail.noConfusion⟩ Tail.noConfusion
      Tail.noConfusion
    exact fun _ => hlast
  case h_3 ht =>
    have hleft : c.tail ≠ .blocked := by rw [ht]; exact Tail.noConfusion
    split
    case isTrue hfin =>
      exact h.putTail hi hleft ⟨Tail.noConfusion, Tail.noConfusion⟩ Tail.noConfusion (fun _ => hfin) fun _ => hlast
    case isFalse hopen =>
      exact h.putTail hi hleft ⟨Tail.noConfusion, Tail.noConfusion⟩ (fun _ => hopen) Tail.noConfusion
        fun hq => Bool.noConfusion hq
  case h_4 ht => exact h.resolveTail hi (hok.released (.inl ht))
  case h_5 ht => exact hidle (by rw [ht]; rfl)
  case h_6 ht => exact hidle (by rw [ht]; rfl)
  case h_7 ht => exact hidle (by rw [ht]; rfl)

/-! ## The other events -/

theorem Sound.settle {o : Outcome} {s' : State} (h : Sound s) (hs : s.settle i o = some s') : Sound s' := by
  obtain ⟨c, hi, hc⟩ := Option.bind_eq_some_iff.mp hs
  split at hc
  case isFalse => cases hc
  case isTrue hrunning =>
    cases hc
    have hok := h.chained.stages i c hi
    have hleft : c.phase ≠ .blocked := by rw [hrunning]; exact Phase.noConfusion
    have hopen : c.phase ≠ .finished := by rw [hrunning]; exact Phase.noConfusion
    have hresult := hok.result
    rw [if_neg hopen] at hresult
    have hstages : StagesOk { c with phase := .settled, operation := some o } :=
      ⟨⟨fun hb => absurd (hok.together.mp hb) hleft, Phase.noConfusion⟩, fun _ => Phase.noConfusion,
        fun ht => absurd (hok.released ht) hopen, ⟨fun _ => .inl rfl, fun _ => rfl⟩,
        hresult.trans (if_neg Phase.noConfusion).symm⟩
    exact h.unpopped.put (.inr rfl) hi ⟨rfl, rfl⟩ hstages hleft (fun ht => hopen (hok.released (.inr ht)))
      Phase.noConfusion (iff_of_false Phase.noConfusion hopen) (fun hq => h.unpopped.tail_queued hi hq)
      fun _ => List.mem_append_right _ (List.mem_singleton_self _)

theorem Sound.throws {s' : State} (h : Sound s) (hs : s.throws i = some s') : Sound s' := by
  obtain ⟨c, hi, hc⟩ := Option.bind_eq_some_iff.mp hs
  split at hc
  case isFalse => cases hc
  case isTrue hrunning =>
    cases hc
    have hsame : Same c { c with operation := some .rejected } := ⟨rfl, rfl⟩
    apply h.unpopped.finish hi hsame rfl
    · rw [hrunning]; exact Phase.noConfusion
    · rw [hrunning]; exact Phase.noConfusion
    · rfl

theorem Sound.microtask {s' : State} (h : Sound s) (hs : s.microtask = some s') : Sound s' := by
  unfold State.microtask at hs
  split at hs
  case h_1 => cases hs
  case h_2 job rest hq =>
    cases hs
    have hpopped := h.popped hq
    cases job with
    | tail i =>
      show Sound ((s.calls[i]?).elim _ _)
      cases hi : s.calls[i]? with
      | none =>
        apply hpopped.unchanged
        rintro ⟨c, hc, -⟩
        rw [hi] at hc
        cases hc
      | some c => exact hpopped.tailJob hi
    | body i =>
      show Sound ((s.calls[i]?).elim _ _)
      cases hi : s.calls[i]? with
      | none =>
        apply hpopped.unchanged
        rintro ⟨c, hc, -⟩
        rw [hi] at hc
        cases hc
      | some c => exact hpopped.bodyJob hi

/-- A call arrives behind the last call of its key. -/
theorem Sound.snoc (jobs : List Job) (h : Sound s) (hnew : c.previous = s.tails.get? c.key) (hok : StagesOk c)
    (hopen : c.phase ≠ .finished) (hpending : c.phase = .blocked ↔ isPending s.calls c.previous = true)
    (hjobs : c.phase ≠ .blocked → Job.tail s.calls.length ∈ jobs ∧ Job.body s.calls.length ∈ jobs)
    (hblocked : c.phase = .blocked → c.tail.isQueued = false) :
    Sound { calls := s.calls ++ [c], tails := s.tails.set c.key s.calls.length, queue := s.queue ++ jobs } := by
  have hlast : ∀ p, c.previous = some p → ∃ e, s.calls[p]? = some e ∧ e.key = c.key ∧ e.phase ≠ .finished ∧
      ∀ (j : Nat) (d : Call), s.calls[j]? = some d → d.key = c.key → j ≤ p :=
    fun p hp => h.mapped.named c.key p (hnew ▸ hp)
  have hold : ∀ (j : Nat) (d : Call), s.calls[j]? = some d → (s.calls ++ [c])[j]? = some d := by
    intro j d hd
    rw [lookup_snoc, if_neg (Nat.ne_of_lt (lookup_lt hd)), hd]
  -- Nothing of the key is open when the new call finds no pending promise.
  have hfree : c.phase ≠ .blocked → ∀ (j : Nat) (d : Call), s.calls[j]? = some d → d.key = c.key →
      d.phase = .finished := by
    intro hb j d hd hk
    cases hp : c.previous with
    | none => exact h.mapped.unnamed c.key (hnew.symm.trans hp) j d hd hk
    | some p =>
      obtain ⟨e, he, -, heopen, -⟩ := hlast p hp
      have hresolved : e.tail = .resolved := by
        by_contra ht
        exact hb (hpending.mpr (hp ▸ isPending_some.mpr ⟨e, he, ht⟩))
      exact absurd ((h.chained.stages p e he).released (.inr hresolved)) heopen
  have hchained : Chained (s.calls ++ [c]) := by
    have hbefore : ∀ p m key, m ≤ s.calls.length → LastBefore s.calls p m key →
        LastBefore (s.calls ++ [c]) p m key := by
      intro p m key hm hl
      refine ⟨hl.lt, ?_, fun l e he hk hlt => ?_⟩
      · obtain ⟨e, he, hk⟩ := hl.key
        exact ⟨e, hold p e he, hk⟩
      · rw [lookup_snoc, if_neg (by omega)] at he
        exact hl.last l e he hk hlt
    constructor
    · intro j d hd
      rw [lookup_snoc] at hd
      split at hd
      · cases hd
        exact hok
      · exact h.chained.stages j d hd
    · intro j d p hd hp
      rw [lookup_snoc] at hd
      split at hd
      case isTrue hj =>
        cases hd
        obtain ⟨e, he, hk, -, hle⟩ := hlast p hp
        exact hbefore p j c.key (Nat.le_of_eq hj)
          ⟨hj ▸ lookup_lt he, ⟨e, he, hk⟩, fun l f hf hfk _ => hle l f hf hfk⟩
      case isFalse =>
        exact hbefore p j d.key (Nat.le_of_lt (lookup_lt hd)) (h.chained.previous j d p hd hp)
    · intro j d hd hb
      have hkeep : ∀ q, isPending s.calls q = true → isPending (s.calls ++ [c]) q = true := by
        intro q hq
        cases q with
        | none => exact hq
        | some p =>
          obtain ⟨e, he, ht⟩ := isPending_some.mp hq
          exact isPending_some.mpr ⟨e, hold p e he, ht⟩
      rw [lookup_snoc] at hd
      split at hd
      · cases hd
        exact hkeep _ (hpending.mp hb)
      · exact hkeep _ (h.chained.pending j d hd hb)
    · intro l j e d he hd hk hlt hb
      rw [lookup_snoc] at he hd
      split at hd
      case isTrue hj =>
        cases hd
        rw [if_neg (by omega)] at he
        exact hfree hb l e he hk
      case isFalse =>
        have hjlt := lookup_lt hd
        rw [if_neg (by omega)] at he
        exact h.chained.finished l j e d he hd hk hlt hb
  refine ⟨hchained, ⟨fun k m hm => ?_, fun k hk j d hd hdk => ?_⟩, fun job hn => ?_⟩
  · dsimp only at hm ⊢
    rw [InsertionMap.get?_set] at hm
    split at hm
    case isTrue hk =>
      cases hm
      refine ⟨c, by rw [lookup_snoc, if_pos rfl], hk.symm, hopen, fun j d hd _ => ?_⟩
      rw [lookup_snoc] at hd
      split at hd
      · omega
      · exact Nat.le_of_lt (lookup_lt hd)
    case isFalse hk =>
      obtain ⟨e, he, hek, heopen, hle⟩ := h.mapped.named k m hm
      refine ⟨e, hold m e he, hek, heopen, fun j d hd hdk => ?_⟩
      rw [lookup_snoc] at hd
      split at hd
      · cases hd
        exact absurd hdk.symm hk
      · exact hle j d hd hdk
  · dsimp only at hk hd
    rw [InsertionMap.get?_set] at hk
    split at hk
    case isTrue => cases hk
    case isFalse hne =>
      rw [lookup_snoc] at hd
      split at hd
      · cases hd
        exact absurd hdk.symm hne
      · exact h.mapped.unnamed k hk j d hd hdk
  · dsimp only at hn ⊢
    cases job with
    | tail j =>
      obtain ⟨d, hd, hq⟩ := hn
      rw [lookup_snoc] at hd
      split at hd
      case isTrue hj =>
        cases hd
        rw [hj]
        have hb : c.phase ≠ .blocked := by
          intro hb
          rw [hblocked hb] at hq
          cases hq
        exact List.mem_append_right _ (hjobs hb).1
      case isFalse => exact List.mem_append_left _ (h.queued _ ⟨d, hd, hq⟩)
    | body j =>
      obtain ⟨d, hd, hq⟩ := hn
      rw [lookup_snoc] at hd
      split at hd
      case isTrue hj =>
        cases hd
        rw [hj]
        have hb : c.phase ≠ .blocked := by
          intro hb
          rw [hb] at hq
          cases hq
        exact List.mem_append_right _ (hjobs hb).2
      case isFalse => exact List.mem_append_left _ (h.queued _ ⟨d, hd, hq⟩)

theorem Sound.enter (h : Sound s) (key : JsString) : Sound (s.enter key) := by
  have hadopted : ∀ t : Tail, t = .blocked ∨ t = .catching → t = .adopted → False := by
    rintro t (rfl | rfl) ht <;> cases ht
  unfold State.enter
  dsimp only
  split
  case isTrue hp =>
    have hstages : StagesOk ⟨key, s.tails.get? key, .blocked, .blocked, none, none⟩ :=
      ⟨Iff.intro (fun _ => rfl) (fun _ => rfl), Tail.noConfusion, fun h => h.elim Tail.noConfusion Tail.noConfusion,
        ⟨Bool.noConfusion, fun h => h.elim Phase.noConfusion Phase.noConfusion⟩, rfl⟩
    have hnext := h.snoc [] rfl hstages Phase.noConfusion (iff_of_true rfl hp) (fun hb => absurd rfl hb)
      fun _ => rfl
    rwa [List.append_nil] at hnext
  case isFalse hp =>
    have hstages : StagesOk ⟨key, s.tails.get? key, .catching, .catching, none, none⟩ :=
      ⟨⟨Tail.noConfusion, Phase.noConfusion⟩, Tail.noConfusion, fun h => h.elim Tail.noConfusion Tail.noConfusion,
        ⟨Bool.noConfusion, fun h => h.elim Phase.noConfusion Phase.noConfusion⟩, rfl⟩
    exact h.snoc _ rfl hstages Phase.noConfusion (iff_of_false Phase.noConfusion hp)
      (fun _ => ⟨List.mem_cons_self, List.mem_cons_of_mem _ List.mem_cons_self⟩) Phase.noConfusion

theorem sound_empty : Sound State.empty := by
  have hnone : ∀ (i : Nat) (c : Call), State.empty.calls[i]? ≠ some c := by
    intro i c h
    cases h
  refine ⟨⟨fun i c h => absurd h (hnone i c), fun j d _ h => absurd h (hnone j d), fun j d h => absurd h (hnone j d),
    fun i _ c _ h => absurd h (hnone i c)⟩, ⟨fun k i h => ?_, fun _ _ i c h => absurd h (hnone i c)⟩, fun job hn => ?_⟩
  · rw [show State.empty.tails.get? k = none from InsertionMap.get?_empty] at h
    cases h
  · cases job with
    | tail i => exact absurd hn.choose_spec.1 (hnone i _)
    | body i => exact absurd hn.choose_spec.1 (hnone i _)

theorem Sound.step {e : Event} {s' : State} (h : Sound s) (hs : e.next s = some s') : Sound s' := by
  cases e with
  | run key =>
    cases hs
    exact h.enter key
  | settle i o => exact h.settle hs
  | throws i => exact h.throws hs
  | microtask => exact h.microtask hs

theorem sound_reached (h : keyedAsyncLock.Reach .empty s) : Sound s := by
  refine h.invariant sound_empty fun e t _ t' ht _ hstep => ?_
  obtain ⟨t'', hnext, heq⟩ := Option.map_eq_some_iff.mp hstep
  cases heq
  exact ht.step hnext

end RabiRoute.KeyedAsyncLock
