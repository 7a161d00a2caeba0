import RabiRoute.PeerTunnel.Session

/-!
# The credit of the streams of one session

Each stream has two accounts in its session: what it may send with the data in flight, and what it
has not credited with the credit in flight.  `Kept` says what a turn of the session does to them:
only a frame that is received adds to an account, and the accounts of a destroyed stream shrink.
-/

open Collections

namespace RabiRoute.PeerTunnel

/-! ## Bytes in flight -/

namespace Frame

def dataBytes (id : JsString) (f : Frame) : Nat :=
  if f.type = .data ∧ f.id = id then f.data.getD 0 else 0

def creditBytes (id : JsString) (f : Frame) : Nat :=
  if f.type = .window ∧ f.id = id then (f.bytes.getD 0).toNat else 0

/-- What a stream sends: data that fill at most a frame, and a positive credit. -/
structure Honest (f : Frame) : Prop where
  data : f.type = .data → ∃ n, f.data = some n ∧ 0 < n ∧ n ≤ dataFrameBytes
  window : f.type = .window → ∃ n : Nat, f.bytes = some (n : Int) ∧ 0 < n

theorem honest_of_ne {f : Frame} (hdata : f.type ≠ .data) (hwindow : f.type ≠ .window) : f.Honest :=
  ⟨fun h => absurd h hdata, fun h => absurd h hwindow⟩

variable {f : Frame} {id : JsString}

theorem dataBytes_of_type (h : f.type ≠ .data) : f.dataBytes id = 0 := if_neg fun h' => h h'.1

theorem creditBytes_of_type (h : f.type ≠ .window) : f.creditBytes id = 0 := if_neg fun h' => h h'.1

theorem dataBytes_of_id (h : id ≠ f.id) : f.dataBytes id = 0 := if_neg fun h' => h h'.2.symm

theorem creditBytes_of_id (h : id ≠ f.id) : f.creditBytes id = 0 := if_neg fun h' => h h'.2.symm

end Frame

def dataBytes (id : JsString) (fs : List Frame) : Nat := (fs.map (Frame.dataBytes id)).sum

def creditBytes (id : JsString) (fs : List Frame) : Nat := (fs.map (Frame.creditBytes id)).sum

section

variable {id j : JsString} {f : Frame} {fs gs : List Frame} {n : Nat}

@[simp] theorem dataBytes_nil : dataBytes id [] = 0 := rfl

@[simp] theorem creditBytes_nil : creditBytes id [] = 0 := rfl

@[simp] theorem dataBytes_cons : dataBytes id (f :: fs) = f.dataBytes id + dataBytes id fs := by
  simp only [dataBytes, List.map_cons, List.sum_cons]

@[simp] theorem creditBytes_cons : creditBytes id (f :: fs) = f.creditBytes id + creditBytes id fs := by
  simp only [creditBytes, List.map_cons, List.sum_cons]

@[simp] theorem dataBytes_append : dataBytes id (fs ++ gs) = dataBytes id fs + dataBytes id gs := by
  simp only [dataBytes, List.map_append, List.sum_append]

@[simp] theorem creditBytes_append : creditBytes id (fs ++ gs) = creditBytes id fs + creditBytes id gs := by
  simp only [creditBytes, List.map_append, List.sum_append]

theorem dataBytes_eq_zero (h : ∀ f ∈ fs, f.dataBytes id = 0) : dataBytes id fs = 0 := by
  rw [dataBytes, List.sum_eq_zero]
  intro n hn
  obtain ⟨f, hf, rfl⟩ := List.mem_map.mp hn
  exact h f hf

theorem creditBytes_eq_zero (h : ∀ f ∈ fs, f.creditBytes id = 0) : creditBytes id fs = 0 := by
  rw [creditBytes, List.sum_eq_zero]
  intro n hn
  obtain ⟨f, hf, rfl⟩ := List.mem_map.mp hn
  exact h f hf

@[simp] theorem dataFrame_dataBytes : (dataFrame id n).dataBytes id = n := if_pos ⟨rfl, rfl⟩

@[simp] theorem windowFrame_creditBytes : (windowFrame id n).creditBytes id = n := if_pos ⟨rfl, rfl⟩

@[simp] theorem dataFrame_creditBytes : (dataFrame j n).creditBytes id = 0 :=
  if_neg fun h => by cases h.1

@[simp] theorem windowFrame_dataBytes : (windowFrame j n).dataBytes id = 0 :=
  if_neg fun h => by cases h.1

theorem dataFrame_honest (hpos : 0 < n) (hle : n ≤ dataFrameBytes) : (dataFrame id n).Honest :=
  ⟨fun _ => ⟨n, rfl, hpos, hle⟩, fun h => by cases h⟩

theorem windowFrame_honest (hpos : 0 < n) : (windowFrame id n).Honest :=
  ⟨fun h => (by cases h), fun _ => ⟨n, rfl, hpos⟩⟩

end

/-! ## What a turn keeps -/

namespace TunnelSession

def pending (s : TunnelSession) : List Frame := s.serial.map Job.frame

/-- `Sound` holds at every state of a session: a stream counts uncredited bytes only while its
buffer is full. -/
structure Sound (s : TunnelSession) : Prop where
  closed : s.closed = true → ∀ id, s.streams.get? id = none
  full : ∀ id stream, s.streams.get? id = some stream →
    stream.uncredited = 0 ∨ streamWindowBytes ≤ stream.readableLength
  jobs : ∀ job ∈ s.serial, job.authorize ≠ .callback

/-- From `s` with the frames `fs` in flight to `s'` with `fs'`, having received `got`. -/
structure Kept (ids : List JsString) (got : List Frame) (s : TunnelSession) (fs : List Frame)
    (s' : TunnelSession) (fs' : List Frame) : Prop where
  live : ∀ id x', s'.streams.get? id = some x' → ∃ x, s.streams.get? id = some x ∧
    x'.credit + dataBytes id fs' = x.credit + dataBytes id fs + creditBytes id got ∧
    x'.uncredited + creditBytes id fs' = x.uncredited + creditBytes id fs + dataBytes id got
  gone : ∀ id, s'.streams.get? id = none →
    dataBytes id fs' ≤ dataBytes id fs ∧ creditBytes id fs' ≤ creditBytes id fs
  frames : ∃ old new, old.Sublist fs ∧ fs' = old ++ new ∧
    ∀ f ∈ new, f.type ≠ .open_ ∧ f.Honest ∧ f.id ∈ ids

/-- A frame that a turn adds for the stream `id`. -/
structure Added (ids : List JsString) (id : JsString) (f : Frame) : Prop where
  id_eq : f.id = id
  ne_open : f.type ≠ .open_
  honest : f.Honest
  known : f.id ∈ ids

section

variable {ids : List JsString} {got fs fs' new : List Frame} {s s' : TunnelSession} {id : JsString}
  {x x' : TunnelStream} {f : Frame}

theorem Added.frames (h : ∀ f ∈ new, Added ids id f) (hfs : fs' = fs ++ new) :
    ∃ old new', old.Sublist fs ∧ fs' = old ++ new' ∧
      ∀ f ∈ new', f.type ≠ .open_ ∧ f.Honest ∧ f.id ∈ ids :=
  ⟨fs, new, .refl _, hfs, fun f hf => ⟨(h f hf).ne_open, (h f hf).honest, (h f hf).known⟩⟩

theorem Added.dataBytes_eq_zero {j : JsString} (h : ∀ f ∈ new, Added ids id f) (hj : j ≠ id) : dataBytes j new = 0 :=
  PeerTunnel.dataBytes_eq_zero fun f hf => Frame.dataBytes_of_id ((h f hf).id_eq ▸ hj)

theorem Added.creditBytes_eq_zero {j : JsString} (h : ∀ f ∈ new, Added ids id f) (hj : j ≠ id) :
    creditBytes j new = 0 :=
  PeerTunnel.creditBytes_eq_zero fun f hf => Frame.creditBytes_of_id ((h f hf).id_eq ▸ hj)

/-- A turn that writes one stream and sends frames of that stream. -/
theorem Kept.update (hx : s.streams.get? id = some x) (hs : s'.streams = s.streams.set id x')
    (hfs : fs' = fs ++ new) (hnew : ∀ f ∈ new, Added ids id f)
    (hgot : ∀ f ∈ got, f.id = id) (hdata : x'.credit + dataBytes id new = x.credit + creditBytes id got)
    (hcredit : x'.uncredited + creditBytes id new = x.uncredited + dataBytes id got) :
    Kept ids got s fs s' fs' where
  live j y' hy' := by
    subst hfs
    rw [hs, InsertionMap.get?_set] at hy'
    simp only [dataBytes_append, creditBytes_append]
    by_cases hj : j = id
    · subst hj
      rw [if_pos rfl, Option.some.injEq] at hy'
      subst hy'
      exact ⟨x, hx, by omega, by omega⟩
    · rw [if_neg hj] at hy'
      refine ⟨y', hy', ?_, ?_⟩
      · rw [Added.dataBytes_eq_zero hnew hj, PeerTunnel.creditBytes_eq_zero fun f hf =>
          Frame.creditBytes_of_id (hgot f hf ▸ hj)]
        omega
      · rw [Added.creditBytes_eq_zero hnew hj, PeerTunnel.dataBytes_eq_zero fun f hf =>
          Frame.dataBytes_of_id (hgot f hf ▸ hj)]
        omega
  gone j hj := by
    subst hfs
    simp only [dataBytes_append, creditBytes_append]
    have hne : j ≠ id := by
      rintro rfl
      rw [hs, InsertionMap.get?_set_self] at hj
      cases hj
    rw [Added.dataBytes_eq_zero hnew hne, Added.creditBytes_eq_zero hnew hne]
    exact ⟨(Nat.add_zero _).le, (Nat.add_zero _).le⟩
  frames := Added.frames hnew hfs

/-- A turn that leaves the streams and sends nothing that counts. -/
theorem Kept.same (hs : s'.streams = s.streams) (hfs : fs' = fs ++ new) (hnew : ∀ f ∈ new, Added ids id f) (hdata : ∀ f
    ∈ new, f.type ≠ .data) (hwindow : ∀ f ∈ new, f.type ≠ .window) (hgot : ∀ j x, s.streams.get? j = some x → dataBytes
    j got = 0 ∧ creditBytes j got = 0) : Kept ids got s fs s' fs' := by
  have hzero : ∀ j, dataBytes j new = 0 ∧ creditBytes j new = 0 := fun j =>
    ⟨PeerTunnel.dataBytes_eq_zero fun f hf => Frame.dataBytes_of_type (hdata f hf),
      PeerTunnel.creditBytes_eq_zero fun f hf => Frame.creditBytes_of_type (hwindow f hf)⟩
  subst hfs
  refine ⟨fun j y' hy' => ?_, fun j _ => ?_, Added.frames hnew rfl⟩
  · rw [hs] at hy'
    obtain ⟨hd, hc⟩ := hgot j y' hy'
    refine ⟨y', hy', ?_, ?_⟩ <;> simp only [dataBytes_append, creditBytes_append, hzero j, hd, hc] <;> rfl
  · simp only [dataBytes_append, creditBytes_append, hzero j]
    exact ⟨(Nat.add_zero _).le, (Nat.add_zero _).le⟩

theorem added_nil (ids : List JsString) : ∀ f ∈ [], Added ids [] f := fun f hf => by cases hf

theorem Kept.idle (hs : s'.streams = s.streams) (hgot : ∀ j x, s.streams.get? j = some x → dataBytes j got = 0 ∧
    creditBytes j got = 0) : Kept ids got s fs s' fs :=
  .same hs (List.append_nil _).symm (added_nil ids) (fun f hf => by cases hf)
    (fun f hf => by cases hf) hgot

/-- A turn that destroys a stream. -/
theorem Kept.erase (hs : s'.streams = s.streams.erase id) (hfs : fs' = fs ++ new) (hnew : ∀ f ∈ new, Added ids id f)
    (hdata : ∀ f ∈ new, f.type ≠ .data) (hwindow : ∀ f ∈ new, f.type ≠ .window) (hgot : ∀ f ∈ got, f.id = id) : Kept ids
    got s fs s' fs' := by
  have hzero : ∀ j, dataBytes j new = 0 ∧ creditBytes j new = 0 := fun j =>
    ⟨PeerTunnel.dataBytes_eq_zero fun f hf => Frame.dataBytes_of_type (hdata f hf),
      PeerTunnel.creditBytes_eq_zero fun f hf => Frame.creditBytes_of_type (hwindow f hf)⟩
  subst hfs
  refine ⟨fun j y' hy' => ?_, fun j _ => ?_, Added.frames hnew rfl⟩
  · rw [hs, InsertionMap.get?_erase] at hy'
    split at hy'
    · cases hy'
    · case isFalse hj =>
      have hd : dataBytes j got = 0 := PeerTunnel.dataBytes_eq_zero fun f hf => Frame.dataBytes_of_id (hgot f hf ▸ hj)
      have hc : creditBytes j got = 0 :=
        PeerTunnel.creditBytes_eq_zero fun f hf => Frame.creditBytes_of_id (hgot f hf ▸ hj)
      refine ⟨y', hy', ?_, ?_⟩ <;> simp only [dataBytes_append, creditBytes_append, hzero j, hd, hc] <;> rfl
  · simp only [dataBytes_append, creditBytes_append, hzero j]
    exact ⟨(Nat.add_zero _).le, (Nat.add_zero _).le⟩

theorem dataBytes_le_of_sublist {gs : List Frame} (h : gs.Sublist fs) :
    dataBytes id gs ≤ dataBytes id fs := (h.map _).sum_le_sum fun _ _ => Nat.zero_le _

theorem creditBytes_le_of_sublist {gs : List Frame} (h : gs.Sublist fs) :
    creditBytes id gs ≤ creditBytes id fs := (h.map _).sum_le_sum fun _ _ => Nat.zero_le _

/-- A turn after which no stream is left. -/
theorem Kept.closed {fs' : List Frame} (hs : ∀ id, s'.streams.get? id = none) (hfs : fs'.Sublist fs) :
    Kept ids got s fs s' fs' where
  live id x' hx' := by rw [hs id] at hx'; cases hx'
  gone id _ := ⟨dataBytes_le_of_sublist hfs, creditBytes_le_of_sublist hfs⟩
  frames := ⟨fs', [], hfs, (List.append_nil _).symm, fun f hf => by cases hf⟩

end

/-! ## Sending and destroying -/

section

variable {s : TunnelSession} {f : Frame} {a : Authorize} {id : JsString} {x : TunnelStream}

@[simp] theorem streams_send : (s.send f a).streams = s.streams := by
  unfold send
  split <;> rfl

@[simp] theorem closed_send : (s.send f a).closed = s.closed := by
  unfold send
  split <;> rfl

theorem pending_send (h : s.closed = false) : (s.send f a).pending = s.pending ++ [f] := by
  simp only [send, h, Bool.false_eq_true, if_false, pending, List.map_append, List.map_cons, List.map_nil]

@[simp] theorem streams_setStream : (s.setStream id x).streams = s.streams.set id x := rfl

@[simp] theorem closed_setStream : (s.setStream id x).closed = s.closed := rfl

@[simp] theorem pending_setStream : (s.setStream id x).pending = s.pending := rfl

theorem Sound.open_of_stream (h : s.Sound) (hx : s.streams.get? id = some x) : s.closed = false := by
  cases hc : s.closed with
  | false => rfl
  | true => rw [h.closed hc id] at hx; cases hx

theorem Sound.send (h : s.Sound) (ha : a ≠ .callback) : (s.send f a).Sound where
  closed := by simpa only [closed_send, streams_send] using h.closed
  full := by simpa only [streams_send] using h.full
  jobs job hjob := by
    unfold TunnelSession.send at hjob
    split at hjob
    · exact h.jobs job hjob
    · rcases List.mem_append.mp hjob with hold | hnew
      · exact h.jobs job hold
      · rw [List.mem_singleton.mp hnew]
        exact ha

theorem Sound.setStream (h : s.Sound) (hopen : s.closed = false)
    (hfull : x.uncredited = 0 ∨ streamWindowBytes ≤ x.readableLength) : (s.setStream id x).Sound where
  closed hc := by rw [closed_setStream, hopen] at hc; cases hc
  full j y hy := by
    rw [streams_setStream, InsertionMap.get?_set] at hy
    split at hy
    · exact Option.some.inj hy ▸ hfull
    · exact h.full j y hy
  jobs := h.jobs

theorem Sound.erase (h : s.Sound) : ({ s with streams := s.streams.erase id } : TunnelSession).Sound where
  closed hc j := by rw [InsertionMap.get?_erase]; split; exacts [rfl, h.closed hc j]
  full j y hy := by
    rw [InsertionMap.get?_erase] at hy
    split at hy
    · cases hy
    · exact h.full j y hy
  jobs := h.jobs

theorem Sound.close (h : s.Sound) : s.close.Sound where
  closed _ _ := rfl
  full _ _ hy := by cases hy
  jobs := h.jobs

theorem Sound.destroy (h : s.Sound) : (s.destroy id).Sound := by
  unfold TunnelSession.destroy
  split
  · exact h
  · dsimp only
    split
    · exact h.erase.send (by decide)
    · exact h.erase

theorem get?_destroy_self : (s.destroy id).streams.get? id = none := by
  unfold destroy
  split
  · assumption
  · dsimp only
    split
    · rw [streams_send, InsertionMap.get?_erase, if_pos rfl]
    · rw [InsertionMap.get?_erase, if_pos rfl]

end

/-! ## The turns -/

section

variable {ids : List JsString} {got fs fs' : List Frame} {s s' : TunnelSession} {id : JsString}
  {x x' : TunnelStream} {f : Frame} {out : Option Frame}

theorem Kept.prepend (ws : List Frame) (h : Kept ids got s fs s' fs') :
    Kept ids got s (ws ++ fs) s' (ws ++ fs') where
  live j y hy := by
    obtain ⟨x, hx, hdata, hcredit⟩ := h.live j y hy
    refine ⟨x, hx, ?_, ?_⟩ <;> simp only [dataBytes_append, creditBytes_append] <;> omega
  gone j hj := by
    have := h.gone j hj
    simp only [dataBytes_append, creditBytes_append]
    omega
  frames := by
    obtain ⟨old, new, hold, rfl, hnew⟩ := h.frames
    exact ⟨ws ++ old, new, hold.append_left ws, (List.append_assoc ..).symm, hnew⟩

theorem Added.singleton (hne : f.type ≠ .open_) (hf : f.Honest) (hid : f.id ∈ ids) : ∀ g ∈ [f], Added ids f.id g := by
  intro g hg
  obtain rfl := List.mem_singleton.mp hg
  exact ⟨rfl, hne, hf, hid⟩

/-- A turn that writes a stream and leaves its accounts. -/
theorem kept_setStream (hx : s.streams.get? id = some x) (hcredit : x'.credit = x.credit) (huncredited : x'.uncredited =
    x.uncredited) : Kept ids [] s s.pending (s.setStream id x') (s.setStream id x').pending :=
  .update hx rfl (List.append_nil _).symm (fun f hf => by cases hf) (fun f hf => by cases hf)
    (by simp [hcredit]) (by simp [huncredited])

/-- A turn that sends a frame which moves no bytes. -/
theorem kept_send {a : Authorize} (hopen : s.closed = false) (hid : f.id ∈ ids) (hne : f.type ≠ .open_) (hdata : f.type
    ≠ .data) (hwindow : f.type ≠ .window) : Kept ids [] s s.pending (s.send f a) (s.send f a).pending :=
  .same streams_send (pending_send hopen) (Added.singleton hne (Frame.honest_of_ne hdata hwindow) hid)
    (by simpa using hdata) (by simpa using hwindow) fun _ _ _ => ⟨rfl, rfl⟩

theorem kept_destroy (hs : s.Sound) (hx : s.streams.get? id = some x) (hid : id ∈ ids) (hgot : ∀ f ∈ got, f.id = id) :
    Kept ids got s s.pending (s.destroy id) (s.destroy id).pending := by
  unfold destroy
  rw [hx]
  dsimp only
  split
  · exact .erase streams_send (pending_send (hs.open_of_stream hx))
      (Added.singleton (f := { type := .reset, id }) (by simp)
        (Frame.honest_of_ne (by simp) (by simp)) hid) (by simp) (by simp) hgot
  · exact .erase rfl (List.append_nil _).symm (fun f hf => by cases hf) (fun f hf => by cases hf)
      (fun f hf => by cases hf) hgot

theorem kept_close : Kept ids got s s.pending s.close s.close.pending :=
  .closed (fun _ => rfl) (.refl _)

theorem kept_read (hs : s.Sound) (hx : s.streams.get? id = some x) (hid : id ∈ ids) (hcredit : x'.credit = x.credit)
    (huncredited : x'.uncredited = x.uncredited) : Kept ids [] s s.pending (s.read id x') (s.read id x').pending := by
  unfold read
  split
  · exact kept_setStream hx hcredit huncredited
  · case isFalse hne =>
    refine .update hx streams_send (pending_send (hs.open_of_stream hx))
      (Added.singleton (f := windowFrame id x'.uncredited) (by simp [windowFrame])
        (windowFrame_honest (by omega)) hid) (fun f hf => by cases hf) ?_ ?_
    · simp [hcredit, windowFrame_dataBytes]
    · simp [huncredited]

theorem kept_consume {length : Nat} (hs : s.Sound) (hx : s.streams.get? id = some x) (hid : id ∈ ids) :
    Kept ids [] s s.pending (s.consume id length x) (s.consume id length x).pending := by
  unfold consume
  dsimp only
  split
  · exact kept_read hs hx hid rfl rfl
  · exact kept_setStream hx rfl rfl

theorem kept_writeTurn {rest : Nat} (hs : s.Sound) (hx : s.streams.get? id = some x) (hid : id ∈ ids) (hcredit : rest =
    0 ∨ x.credit ≠ 0) : Kept ids [] s s.pending (s.writeTurn id rest x) (s.writeTurn id rest x).pending := by
  unfold writeTurn
  split
  · exact kept_setStream hx rfl rfl
  · case isFalse hrest =>
    dsimp only
    have hpos : 0 < min dataFrameBytes (min x.credit rest) := by
      have : 0 < dataFrameBytes := by decide
      omega
    refine .update hx streams_send (pending_send (hs.open_of_stream hx))
      (Added.singleton (f := dataFrame id (min dataFrameBytes (min x.credit rest)))
        (by simp [dataFrame]) (dataFrame_honest hpos (Nat.min_le_left ..)) hid)
      (fun f hf => by cases hf) ?_ ?_
    · simp only [dataBytes_cons, dataBytes_nil, dataFrame_dataBytes, creditBytes_nil]
      omega
    · simp

theorem kept_final (hs : s.Sound) (hx : s.streams.get? id = some x) (hid : id ∈ ids)
    (hcredit : x'.credit = x.credit) (huncredited : x'.uncredited = x.uncredited) :
    Kept ids [] s s.pending ((s.setStream id x').send { type := .end_, id } .writing)
      ((s.setStream id x').send { type := .end_, id } .writing).pending :=
  .update hx streams_send (pending_send (hs.open_of_stream hx))
    (Added.singleton (f := { type := .end_, id }) (by simp)
      (Frame.honest_of_ne (by simp) (by simp)) hid) (fun f hf => by cases hf)
    (by simp [hcredit, Frame.dataBytes]) (by simp [huncredited, Frame.creditBytes])

theorem kept_onSent (ids : List JsString) (s : TunnelSession) (job : Job) : Kept ids [] s s.pending (s.onSent job) (s.onSent job).pending := by
  unfold onSent
  split
  case h_1 hx _ _ => exact kept_setStream hx rfl rfl
  case h_2 hx _ _ => exact kept_setStream hx rfl rfl
  case h_3 => exact .idle rfl fun _ _ _ => ⟨rfl, rfl⟩

/-- A rejected send leaves the queue with its frame, and its stream is destroyed. -/
theorem kept_rejected {job : Job} {serial : List Job} (hs : s.Sound) (hserial : s.serial = job :: serial)
    (hknown : ∀ id x, s.streams.get? id = some x → id ∈ ids)
    (hauthorize : job.authorize ≠ .none) :
    Kept ids [] s s.pending ({ s with serial }.onRejected job) ({ s with serial }.onRejected job).pending := by
  have hrejected : ({ s with serial } : TunnelSession).onRejected job =
      ({ s with serial } : TunnelSession).destroy job.frame.id := by
    have hcallback := hs.jobs job (hserial ▸ List.mem_cons_self ..)
    unfold onRejected
    split <;> simp_all
  have hrest : ({ s with serial } : TunnelSession).Sound :=
    ⟨hs.closed, hs.full, fun j hj => hs.jobs j (hserial ▸ List.mem_cons_of_mem _ hj)⟩
  have hpending : s.pending = job.frame :: serial.map Job.frame := by rw [pending, hserial]; rfl
  have hzero : ∀ j, j ≠ job.frame.id → job.frame.dataBytes j = 0 ∧ job.frame.creditBytes j = 0 :=
    fun j hj => ⟨Frame.dataBytes_of_id hj, Frame.creditBytes_of_id hj⟩
  rw [hrejected, hpending]
  -- the destroyed stream takes the accounts with it that the dropped frame belongs to
  have hkept : Kept ids [] { s with serial } (serial.map Job.frame)
      (({ s with serial } : TunnelSession).destroy job.frame.id)
      (({ s with serial } : TunnelSession).destroy job.frame.id).pending := by
    cases hx : s.streams.get? job.frame.id with
    | some x => exact kept_destroy hrest hx (hknown _ x hx) fun f hf => by cases hf
    | none =>
      have hsame : ({ s with serial } : TunnelSession).destroy job.frame.id = { s with serial } := by
        unfold destroy
        rw [hx]
      rw [hsame]
      exact .idle rfl fun _ _ _ => ⟨rfl, rfl⟩
  refine ⟨fun j y hy => ?_, fun j hj => ?_, ?_⟩
  · have hne : j ≠ job.frame.id := by
      rintro rfl
      rw [get?_destroy_self] at hy
      cases hy
    obtain ⟨x, hx, hdata, hcredit⟩ := hkept.live j y hy
    refine ⟨x, hx, ?_, ?_⟩ <;> simp only [dataBytes_cons, creditBytes_cons, hzero j hne] <;> omega
  · have := hkept.gone j hj
    simp only [dataBytes_cons, creditBytes_cons]
    omega
  · obtain ⟨old, new, hold, hfs, hnew⟩ := hkept.frames
    exact ⟨old, new, hold.cons _, hfs, hnew⟩

/-! ## Receiving -/

theorem receiveData_kept {n : Nat} (hs : s.Sound) (hx : s.streams.get? f.id = some x) (hid : f.id ∈ ids)
    (htype : f.type = .data) (hdata : f.data = some n) (hpos : 0 < n)
    (h : s.receiveData f.id x n = some s') : Kept ids [f] s s.pending s' s'.pending := by
  obtain ⟨length, -, rfl⟩ := Option.map_eq_some_iff.mp h
  have hgot : ∀ g ∈ [f], g.id = f.id := by simp
  have hbytes : dataBytes f.id [f] = n := by simp [Frame.dataBytes, htype, hdata]
  have hcredit : creditBytes f.id [f] = 0 := by simp [Frame.creditBytes, htype]
  split
  · exact kept_destroy hs hx hid hgot
  · split
    · exact .update hx streams_send (pending_send (hs.open_of_stream hx))
        (Added.singleton (f := windowFrame f.id n) (by simp [windowFrame]) (windowFrame_honest hpos) hid)
        hgot (by simp [hcredit]) (by simp [hbytes])
    · exact .update hx rfl (List.append_nil _).symm (fun g hg => by cases hg) hgot (by simp [hcredit])
        (by simp [hbytes])

theorem admits_le {n length : Nat} (h : x.admits n = some length) : x.readableLength ≤ length := by
  unfold TunnelStream.admits at h
  split at h
  · cases h
  · exact Option.some.inj h ▸ Nat.le_add_right ..

theorem replenish_credit {bytes : Option Int} (h : x.replenish bytes = some x') :
    x'.credit = x.credit + (bytes.getD 0).toNat ∧ x'.uncredited = x.uncredited ∧
      x'.readableLength = x.readableLength := by
  cases bytes with
  | none => cases h
  | some bytes =>
    simp only [TunnelStream.replenish] at h
    split at h
    · cases h
    · case isFalse hbytes =>
      rw [Option.some.injEq] at h
      subst h
      refine ⟨?_, rfl, rfl⟩
      show ((x.credit : Int) + bytes).toNat = x.credit + bytes.toNat
      omega

theorem receiveOnStream_kept (hs : s.Sound) (hx : s.streams.get? f.id = some x) (hid : f.id ∈ ids)
    (hf : f.Honest) (h : s.receiveOnStream f x = some s') : Kept ids [f] s s.pending s' s'.pending := by
  have hgot : ∀ g ∈ [f], g.id = f.id := by simp
  unfold receiveOnStream at h
  split at h
  case h_1 htype =>
    split at h
    · rw [Option.some.injEq] at h
      subst h
      exact .update hx rfl (List.append_nil _).symm (fun g hg => by cases hg) hgot
        (by simp [Frame.creditBytes, htype]) (by simp [Frame.dataBytes, htype])
    · cases h
  case h_2 htype =>
    obtain ⟨n, hn, hpos, -⟩ := hf.data htype
    rw [hn] at h
    dsimp only at h
    split at h
    · cases h
    · exact receiveData_kept hs hx hid htype hn hpos h
  case h_3 htype =>
    rw [Option.some.injEq] at h
    subst h
    exact .update hx rfl (List.append_nil _).symm (fun g hg => by cases hg) hgot
      (by simp [Frame.creditBytes, htype]) (by simp [Frame.dataBytes, htype])
  case h_4 htype =>
    obtain ⟨x', hx', rfl⟩ := Option.map_eq_some_iff.mp h
    obtain ⟨hcredit, huncredited, -⟩ := replenish_credit hx'
    exact .update hx rfl (List.append_nil _).symm (fun g hg => by cases hg) hgot
      (by simp [Frame.creditBytes, htype, hcredit]) (by simp [Frame.dataBytes, htype, huncredited])
  case h_5 htype =>
    rw [Option.some.injEq] at h
    subst h
    exact .erase rfl (List.append_nil _).symm (fun g hg => by cases hg) (fun g hg => by cases hg)
      (fun g hg => by cases hg) hgot
  case h_6 => cases h

/-- What a session does with a frame that opens no stream. -/
theorem receive_kept (hs : s.Sound) (hid : f.id ∈ ids) (hf : f.Honest) (hne : f.type ≠ .open_) :
    Kept ids [f] s s.pending (s.receive f) (s.receive f).pending := by
  unfold receive
  split
  case isTrue hc => exact .closed (hs.closed hc) (.refl _)
  case isFalse hc =>
    have hopen : s.closed = false := by simpa using hc
    split
    case h_1 => exact kept_close
    case h_2 s' h =>
      unfold accept at h
      split at h
      · cases h
      · split at h
        case h_1 htype =>
          rw [Option.some.injEq] at h
          subst h
          refine .same streams_send (pending_send hopen) (Added.singleton (f := { type := .pong, id := f.id })
            (by simp) (Frame.honest_of_ne (by simp) (by simp)) hid) (by simp) (by simp) fun j _ _ => ?_
          simp [Frame.dataBytes, Frame.creditBytes, htype]
        case h_2 htype =>
          rw [Option.some.injEq] at h
          subst h
          refine .idle rfl fun j _ _ => ?_
          simp [Frame.dataBytes, Frame.creditBytes, htype]
        case h_3 htype => exact absurd htype hne
        case h_4 =>
          split at h
          case h_1 hx =>
            rw [Option.some.injEq] at h
            subst h
            refine .idle rfl fun j y hy => ?_
            have hj : j ≠ f.id := by
              rintro rfl
              rw [hx] at hy
              cases hy
            simp [Frame.dataBytes_of_id hj, Frame.creditBytes_of_id hj]
          case h_2 hx => exact receiveOnStream_kept hs hx hid hf h

/-- A frame that opens a stream closes the session, or the stream is new. -/
theorem receive_open (htype : f.type = .open_) : s.receive f = s.close ∨
    (s.closed = true ∧ s.receive f = s) ∨
      (s.streams.get? f.id = none ∧ s.receive f = s.setStream f.id {}) := by
  unfold receive
  split
  case isTrue hc => exact .inr (.inl ⟨hc, rfl⟩)
  case isFalse hc =>
    split
    case h_1 => exact .inl rfl
    case h_2 s' h =>
      simp only [accept, htype] at h
      split at h
      · cases h
      · split at h
        · cases h
        · case isFalse hguard =>
          simp only [Bool.or_eq_true, not_or, Bool.not_eq_true, Option.isSome_eq_false_iff,
            Option.isNone_iff_eq_none] at hguard
          rw [Option.some.injEq] at h
          exact .inr (.inr ⟨hguard.1.2, h.symm⟩)

/-! ## The turns that the owner of a session takes -/

theorem step_open (h : s.step (.open_ id) = some (out, s')) : s.closed = false ∧ out = none ∧
    s' = (s.setStream id {}).send { type := .open_, id, request := true } .opening := by
  obtain ⟨t, ht, hout⟩ := Option.map_eq_some_iff.mp h
  obtain ⟨rfl, rfl⟩ := Prod.mk.inj hout
  unfold «open» at ht
  split at ht
  · cases ht
  · case isFalse hguard =>
    simp only [Bool.or_eq_true, not_or, Bool.not_eq_true] at hguard
    rw [Option.some.injEq] at ht
    exact ⟨hguard.1.1, rfl, ht.symm⟩

theorem dispatch_kept {authorized encoded : Bool} (hs : s.Sound) (hknown : ∀ id x, s.streams.get? id = some x → id ∈
    ids) (h : s.dispatch authorized encoded = some (out, s')) : Kept ids [] s s.pending s' (out.toList ++ s'.pending) :=
    by
  unfold dispatch at h
  split at h
  case h_2 => cases h
  case h_1 job serial hsending hserial =>
    have hpending : s.pending = job.frame :: serial.map Job.frame := by rw [pending, hserial]; rfl
    have hrest : (serial.map Job.frame).Sublist s.pending := hpending ▸ List.sublist_cons_self ..
    dsimp only at h
    split at h
    case isTrue hc =>
      obtain ⟨rfl, rfl⟩ := Prod.mk.inj (Option.some.inj h)
      exact .closed (hs.closed hc) hrest
    case isFalse =>
      split at h
      case isTrue hrejects =>
        obtain ⟨rfl, rfl⟩ := Prod.mk.inj (Option.some.inj h)
        exact kept_rejected hs hserial hknown fun hnone => by simp [rejects, hnone] at hrejects
      case isFalse =>
        split at h <;> obtain ⟨rfl, rfl⟩ := Prod.mk.inj (Option.some.inj h)
        · show Kept ids [] s s.pending _ (job.frame :: serial.map Job.frame)
          rw [hpending]
          exact .idle rfl fun _ _ _ => ⟨rfl, rfl⟩
        · exact .closed (fun _ => rfl) hrest

theorem step_kept {e : Event} (hs : s.Sound) (hknown : ∀ id x, s.streams.get? id = some x → id ∈ ids)
    (hopen : ∀ id, e ≠ .open_ id) (hping : ∀ id, e = .ping id → id ∈ ids)
    (h : s.step e = some (out, s')) : Kept ids [] s s.pending s' (out.toList ++ s'.pending) := by
  cases e with
  | open_ id => exact absurd rfl (hopen id)
  | reply id =>
    simp only [step] at h
    split at h
    · case isTrue hx =>
      obtain ⟨x, hx⟩ := Option.isSome_iff_exists.mp hx
      obtain ⟨rfl, rfl⟩ := Prod.mk.inj (Option.some.inj h)
      exact kept_send (hs.open_of_stream hx) (hknown id x hx) (by simp) (by simp) (by simp)
    · cases h
  | write id length =>
    obtain ⟨x, hx, h⟩ := Option.bind_eq_some_iff.mp h
    split at h
    · obtain ⟨rfl, rfl⟩ := Prod.mk.inj (Option.some.inj h)
      exact kept_setStream hx rfl rfl
    · cases h
  | writeTurn id =>
    obtain ⟨x, hx, h⟩ := Option.bind_eq_some_iff.mp h
    split at h
    · split at h
      · case isTrue hcredit =>
        obtain ⟨rfl, rfl⟩ := Prod.mk.inj (Option.some.inj h)
        exact kept_writeTurn hs hx (hknown id x hx) hcredit.2
      · cases h
    · cases h
  | final id =>
    obtain ⟨x, hx, h⟩ := Option.bind_eq_some_iff.mp h
    split at h
    · obtain ⟨rfl, rfl⟩ := Prod.mk.inj (Option.some.inj h)
      exact kept_final hs hx (hknown id x hx) rfl rfl
    · cases h
  | consume id length =>
    obtain ⟨x, hx, h⟩ := Option.bind_eq_some_iff.mp h
    split at h
    · obtain ⟨rfl, rfl⟩ := Prod.mk.inj (Option.some.inj h)
      exact kept_consume hs hx (hknown id x hx)
    · cases h
  | read id =>
    obtain ⟨x, hx, h⟩ := Option.bind_eq_some_iff.mp h
    split at h
    · obtain ⟨rfl, rfl⟩ := Prod.mk.inj (Option.some.inj h)
      exact kept_read hs hx (hknown id x hx) rfl rfl
    · cases h
  | endRead id =>
    obtain ⟨x, hx, h⟩ := Option.bind_eq_some_iff.mp h
    split at h
    · obtain ⟨rfl, rfl⟩ := Prod.mk.inj (Option.some.inj h)
      exact kept_setStream hx rfl rfl
    · cases h
  | destroy id =>
    simp only [step] at h
    split at h
    · case isTrue hx =>
      obtain ⟨x, hx⟩ := Option.isSome_iff_exists.mp hx
      obtain ⟨rfl, rfl⟩ := Prod.mk.inj (Option.some.inj h)
      exact kept_destroy hs hx (hknown id x hx) fun f hf => by cases hf
    · cases h
  | ping id =>
    obtain ⟨t, ht, hout⟩ := Option.map_eq_some_iff.mp h
    obtain ⟨rfl, rfl⟩ := Prod.mk.inj hout
    unfold ping at ht
    split at ht
    · cases ht
    · case isFalse hguard =>
      simp only [Bool.or_eq_true, not_or, Bool.not_eq_true] at hguard
      rw [Option.some.injEq] at ht
      subst ht
      exact .same streams_send (pending_send hguard.1)
        (Added.singleton (f := { type := .ping, id }) (by simp)
          (Frame.honest_of_ne (by simp) (by simp)) (hping id rfl)) (by simp) (by simp)
        fun _ _ _ => ⟨rfl, rfl⟩
  | dispatch authorized encoded => exact dispatch_kept hs hknown h
  | sent ok =>
    obtain ⟨t, ht, hout⟩ := Option.map_eq_some_iff.mp h
    obtain ⟨rfl, rfl⟩ := Prod.mk.inj hout
    obtain ⟨job, -, rfl⟩ := Option.map_eq_some_iff.mp ht
    dsimp only
    split
    · have hkept := kept_onSent ids { s with sending := none } job
      exact ⟨hkept.live, hkept.gone, hkept.frames⟩
    · exact .closed (fun _ => rfl) (.refl _)
  | close =>
    obtain ⟨rfl, rfl⟩ := Prod.mk.inj (Option.some.inj h)
    exact kept_close

/-! ## Every turn leaves a sound session -/

theorem Sound.read (hs : s.Sound) (hx : s.streams.get? id = some x) : (s.read id x').Sound := by
  unfold TunnelSession.read
  split
  · case isTrue hzero => exact hs.setStream (hs.open_of_stream hx) (.inl hzero)
  · exact (hs.setStream (hs.open_of_stream hx) (.inl rfl)).send (by decide)

/-- A turn that leaves what is not credited in a buffer which does not shrink. -/
theorem Sound.update (hs : s.Sound) (hx : s.streams.get? id = some x) (huncredited : x'.uncredited = x.uncredited)
    (hlength : x.readableLength ≤ x'.readableLength) : (s.setStream id x').Sound := by
  refine hs.setStream (hs.open_of_stream hx) ?_
  rw [huncredited]
  exact (hs.full id x hx).imp_right fun h => h.trans hlength

theorem Sound.receive (hs : s.Sound) : (s.receive f).Sound := by
  unfold TunnelSession.receive
  split
  · exact hs
  case isFalse hc =>
    have hopen : s.closed = false := by simpa using hc
    split
    · exact hs.close
    case h_2 s' h =>
      unfold accept at h
      split at h
      · cases h
      split at h
      · rw [← Option.some.inj h]
        exact hs.send (by decide)
      · exact Option.some.inj h ▸ ⟨hs.closed, hs.full, hs.jobs⟩
      · split at h
        · cases h
        · exact Option.some.inj h ▸ hs.setStream hopen (.inl rfl)
      · split at h
        · exact Option.some.inj h ▸ hs
        · case h_2 x hx =>
          unfold receiveOnStream at h
          split at h
          · split at h
            · exact Option.some.inj h ▸ hs.update hx rfl le_rfl
            · cases h
          · split at h
            · cases h
            · split at h
              · cases h
              · obtain ⟨length, hadmit, rfl⟩ := Option.map_eq_some_iff.mp h
                have hlength : x.readableLength ≤ length := admits_le hadmit
                split
                · exact hs.destroy
                · split
                  · refine Sound.send ?_ (by decide)
                    exact hs.update hx rfl hlength
                  · case isFalse hge => exact hs.setStream hopen (.inr (not_lt.mp hge))
          · exact Option.some.inj h ▸ hs.update hx rfl le_rfl
          · obtain ⟨x', hx', rfl⟩ := Option.map_eq_some_iff.mp h
            obtain ⟨-, huncredited, hlength⟩ := replenish_credit hx'
            exact hs.update hx huncredited hlength.ge
          · exact Option.some.inj h ▸ hs.erase
          · cases h

theorem Sound.onRejected {job : Job} (hs : s.Sound) : (s.onRejected job).Sound := by
  unfold TunnelSession.onRejected
  split
  · exact hs
  · exact hs
  · exact hs.destroy
  · exact hs.destroy

theorem Sound.onSent {job : Job} (hs : s.Sound) : (s.onSent job).Sound := by
  unfold TunnelSession.onSent
  split
  case h_1 hx _ _ => exact hs.update hx rfl le_rfl
  case h_2 hx _ _ => exact hs.update hx rfl le_rfl
  case h_3 => exact hs

theorem Sound.dispatch {authorized encoded : Bool} (hs : s.Sound)
    (h : s.dispatch authorized encoded = some (out, s')) : s'.Sound := by
  unfold TunnelSession.dispatch at h
  split at h
  case h_2 => cases h
  case h_1 job serial hsending hserial =>
    have hrest : ({ s with serial } : TunnelSession).Sound :=
      ⟨hs.closed, hs.full, fun j hj => hs.jobs j (hserial ▸ List.mem_cons_of_mem _ hj)⟩
    dsimp only at h
    split at h
    · exact (Prod.mk.inj (Option.some.inj h)).2 ▸ hrest
    · split at h
      · exact (Prod.mk.inj (Option.some.inj h)).2 ▸ hrest.onRejected
      · split at h
        · exact (Prod.mk.inj (Option.some.inj h)).2 ▸ ⟨hrest.closed, hrest.full, hrest.jobs⟩
        · exact (Prod.mk.inj (Option.some.inj h)).2 ▸ hrest.close

theorem Sound.step {e : Event} (hs : s.Sound) (h : s.step e = some (out, s')) : s'.Sound := by
  cases e with
  | open_ id =>
    obtain ⟨hopen, -, rfl⟩ := step_open h
    exact (hs.setStream hopen (.inl rfl)).send (by decide)
  | reply id =>
    simp only [TunnelSession.step] at h
    split at h
    · rw [← (Prod.mk.inj (Option.some.inj h)).2]
      exact hs.send (by decide)
    · cases h
  | write id length | endRead id =>
    obtain ⟨x, hx, h⟩ := Option.bind_eq_some_iff.mp h
    split at h
    · exact (Prod.mk.inj (Option.some.inj h)).2 ▸ hs.update hx rfl le_rfl
    · cases h
  | writeTurn id =>
    obtain ⟨x, hx, h⟩ := Option.bind_eq_some_iff.mp h
    split at h
    · split at h
      · obtain ⟨rfl, rfl⟩ := Prod.mk.inj (Option.some.inj h)
        unfold TunnelSession.writeTurn
        split
        · exact hs.update hx rfl le_rfl
        · refine Sound.send ?_ (by decide)
          exact hs.update hx rfl le_rfl
      · cases h
    · cases h
  | final id =>
    obtain ⟨x, hx, h⟩ := Option.bind_eq_some_iff.mp h
    split at h
    · rw [← (Prod.mk.inj (Option.some.inj h)).2]
      refine Sound.send ?_ (by decide)
      exact hs.update hx rfl le_rfl
    · cases h
  | consume id length =>
    obtain ⟨x, hx, h⟩ := Option.bind_eq_some_iff.mp h
    split at h
    · obtain ⟨rfl, rfl⟩ := Prod.mk.inj (Option.some.inj h)
      unfold TunnelSession.consume
      dsimp only
      split
      · exact hs.read hx
      · case isFalse hge => exact hs.setStream (hs.open_of_stream hx) (.inr (not_lt.mp hge))
    · cases h
  | read id =>
    obtain ⟨x, hx, h⟩ := Option.bind_eq_some_iff.mp h
    split at h
    · exact (Prod.mk.inj (Option.some.inj h)).2 ▸ hs.read hx
    · cases h
  | destroy id =>
    simp only [TunnelSession.step] at h
    split at h
    · exact (Prod.mk.inj (Option.some.inj h)).2 ▸ hs.destroy
    · cases h
  | ping id =>
    obtain ⟨t, ht, hout⟩ := Option.map_eq_some_iff.mp h
    obtain ⟨rfl, rfl⟩ := Prod.mk.inj hout
    unfold TunnelSession.ping at ht
    split at ht
    · cases ht
    · rw [← Option.some.inj ht]
      exact Sound.send ⟨hs.closed, hs.full, hs.jobs⟩ (by decide)
  | dispatch authorized encoded => exact hs.dispatch h
  | sent ok =>
    obtain ⟨t, ht, hout⟩ := Option.map_eq_some_iff.mp h
    obtain ⟨rfl, rfl⟩ := Prod.mk.inj hout
    obtain ⟨job, -, rfl⟩ := Option.map_eq_some_iff.mp ht
    have hrest : ({ s with sending := none } : TunnelSession).Sound := ⟨hs.closed, hs.full, hs.jobs⟩
    dsimp only
    split
    · exact hrest.onSent
    · exact hrest.close
  | close => exact (Prod.mk.inj (Option.some.inj h)).2 ▸ hs.close

end

end TunnelSession

end RabiRoute.PeerTunnel
