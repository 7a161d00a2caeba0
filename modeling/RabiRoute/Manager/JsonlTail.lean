import Mathlib.Data.ENat.Lattice
import RabiRoute.Shared.JsString
import RabiRoute.Text.Lines

/-!
# The tail of a JSONL file

`readJsonlTail` reads a window at the end of a file, drops the line that touches the cut, and reads a larger window
until there are enough lines.  Whatever the window was, the rows are the last lines of the file.
-/

namespace RabiRoute.JsonlTail

open Text (FileLine fileLines lines)

/-- A number other than `NaN`. -/
inductive Number where
  | negativeInfinity
  | finite (value : Rat)
  | infinity

/-- `Math.max(0, Math.floor(x))` -/
def Number.floor : Number → ℕ∞
  | .negativeInfinity => 0
  | .finite value => (value.floor.toNat : Nat)
  | .infinity => ⊤

structure JsonlTailOptions where
  initialBytes : Option Number := none
  maxBytes : Option Number := none

/-- `Math.max(a, b)` -/
def larger (a b : ℕ∞) : ℕ∞ := WithTop.map₂ max a b

/-- `Math.min(size, a)` -/
def atMost (size : Nat) (a : ℕ∞) : Nat := (ENat.map (min size) a).untopD size

/-- `Math.max(4 * 1024, Math.floor(options.initialBytes ?? 64 * 1024))` -/
def JsonlTailOptions.initial (options : JsonlTailOptions) : ℕ∞ :=
  larger (4 * 1024 : Nat) (options.initialBytes.getD (.finite (64 * 1024))).floor

/-- `Math.max(initialBytes, Math.floor(options.maxBytes ?? 1024 * 1024))` -/
def JsonlTailOptions.maximum (options : JsonlTailOptions) : ℕ∞ :=
  larger options.initial (options.maxBytes.getD (.finite (1024 * 1024))).floor

/-- `lines.slice(-requested)` -/
def lastLines (requested : ℕ∞) (l : List JsString) : List JsString := l.drop ((l.length : ℕ∞) - requested).toNat

/-- A row: what `JSON.parse` made of a line, or the line. -/
inductive Row (ν : Type) where
  | parsed (value : ν)
  | rawLine (line : JsString)

section

variable {ν : Type} (parse : JsString → Option ν)

def row (line : JsString) : Row ν :=
  match parse line with
  | some value => .parsed value
  | none => .rawLine line

/-- The lines of the bytes from `start` on that are not empty, without the line that touches the cut. -/
def windowLines (file : List UInt8) (start : Nat) : List JsString :=
  let found := lines (Text.Utf8.decode (file.drop start))
  (if 0 < start then found.tail else found).filter (· ≠ [])

/-- The next window, and why it is larger. -/
def moreBytes (size : Nat) (maxBytes : ℕ∞) (bytes : Nat) : Nat := min size (atMost (bytes * 4) maxBytes)

theorem larger_eq_max (a b : ℕ∞) : larger a b = max a b := by
  unfold larger
  cases a with
  | top => exact (top_sup_eq b).symm
  | coe a =>
    cases b with
    | top => exact (sup_top_eq (a : ℕ∞)).symm
    | coe b => exact Nat.mono_cast.map_max

theorem atMost_cast (size : Nat) (a : ℕ∞) : (atMost size a : ℕ∞) = min (size : ℕ∞) a := by
  unfold atMost
  cases a with
  | top => exact (min_top_right (size : ℕ∞)).symm
  | coe a => exact Nat.mono_cast.map_min

theorem moreBytes_cast (size : Nat) (maxBytes : ℕ∞) (bytes : Nat) :
    (moreBytes size maxBytes bytes : ℕ∞) = min (size : ℕ∞) (min maxBytes (bytes * 4 : Nat)) := by
  unfold moreBytes
  rw [Nat.mono_cast.map_min, atMost_cast, min_comm maxBytes]

theorem moreBytes_lt {size bytes : Nat} {maxBytes : ℕ∞} (hbytes : 0 < bytes) (hsize : size - bytes ≠ 0)
    (hmax : ¬maxBytes ≤ bytes) : bytes < moreBytes size maxBytes bytes := by
  rw [← ENat.natCast_lt_natCast, moreBytes_cast]
  refine lt_min (ENat.natCast_lt_natCast.mpr (by omega)) (lt_min (not_le.mp hmax) (ENat.natCast_lt_natCast.mpr (by omega)))

/-- The loop of `readJsonlTail`, with the window `bytes`. -/
def readLines (file : List UInt8) (requested maxBytes : ℕ∞) (bytes : Nat) (hbytes : 0 < bytes) : List JsString :=
  let start := file.length - bytes
  let found := windowLines file start
  if hstop : requested ≤ found.length ∨ start = 0 ∨ maxBytes ≤ bytes then found
  else
    have hmore := moreBytes_lt hbytes (fun h ↦ hstop (.inr (.inl h))) (fun h ↦ hstop (.inr (.inr h)))
    readLines file requested maxBytes (moreBytes file.length maxBytes bytes) (hbytes.trans hmore)
termination_by file.length - bytes
decreasing_by omega

theorem initial_pos (options : JsonlTailOptions) {size : Nat} (hsize : size ≠ 0) : 0 < atMost size options.initial := by
  unfold JsonlTailOptions.initial
  rw [← ENat.natCast_lt_natCast, atMost_cast, larger_eq_max]
  refine lt_min ?_ (lt_max_of_lt_left ?_)
  · exact_mod_cast Nat.pos_of_ne_zero hsize
  · exact_mod_cast (by decide : 0 < 4 * 1024)

/-- `readJsonlTail`; `none` is a path where no file is. -/
def readJsonlTail (file : Option (List UInt8)) (limit : Number) (options : JsonlTailOptions) : List (Row ν) :=
  let requested := limit.floor
  if requested = 0 then []
  else
    match file with
    | none => []
    | some file =>
      if hsize : file.length = 0 then []
      else
        let bytes := atMost file.length options.initial
        (lastLines requested (readLines file requested options.maximum bytes (initial_pos options hsize))).map (row parse)

/-! ## Windows -/

/-- The lines of a whole file that are not empty. -/
def fullLines (file : List UInt8) : List FileLine := (fileLines file).filter (·.text ≠ [])

theorem fullLines_text (file : List UInt8) :
    (fullLines file).map FileLine.text = (lines (Text.Utf8.decode file)).filter (· ≠ []) := by
  rw [← Text.fileLines_text, List.filter_map]
  rfl

theorem windowLines_zero (file : List UInt8) : windowLines file 0 = (fullLines file).map FileLine.text := by
  rw [fullLines_text]
  rfl

theorem windowLines_pos (file : List UInt8) {start : Nat} (hpos : 0 < start) (hstart : start ≤ file.length) :
    windowLines file start = ((fullLines file).filter (start < ·.start)).map FileLine.text := by
  unfold windowLines fullLines
  dsimp only
  rw [if_pos hpos, ← Text.filter_fileLines file hstart, List.filter_map, List.filter_filter, List.filter_filter]
  congr 1
  apply List.filter_congr
  intro line _
  exact Bool.and_comm _ _

theorem fullLines_sorted (file : List UInt8) : (fullLines file).Pairwise (·.start < ·.start) :=
  (Text.linesFrom_sorted 0 [] file).filter _

/-- The lines behind a cut are the last ones. -/
theorem filter_suffix {l : List FileLine} (h : l.Pairwise (·.start < ·.start)) (cut : Nat) :
    l.filter (cut < ·.start) <:+ l := by
  induction l with
  | nil => exact List.suffix_rfl
  | cons line rest ih =>
    obtain ⟨hfirst, hrest⟩ := List.pairwise_cons.mp h
    by_cases hline : cut < line.start
    · have hall : ∀ other ∈ line :: rest, decide (cut < other.start) = true := by
        intro other hother
        rcases List.mem_cons.mp hother with rfl | hlater
        · exact decide_eq_true hline
        · exact decide_eq_true (hline.trans (hfirst other hlater))
      rw [List.filter_eq_self.mpr hall]
    · rw [List.filter_cons_of_neg (by rwa [decide_eq_true_eq])]
      exact (ih hrest).trans (List.suffix_cons line rest)

theorem lastLines_of_length_le {requested : ℕ∞} {l : List JsString} (h : (l.length : ℕ∞) ≤ requested) :
    lastLines requested l = l := by
  unfold lastLines
  rw [tsub_eq_zero_of_le h]
  rfl

/-- A window with enough lines has the last lines of the file. -/
theorem lastLines_suffix {requested : ℕ∞} {s l : List JsString} (hsuffix : s <:+ l) (h : requested ≤ s.length) :
    lastLines requested s = lastLines requested l := by
  obtain ⟨before, rfl⟩ := hsuffix
  have hfinite : requested ≠ ⊤ := ne_top_of_le_ne_top (ENat.natCast_ne_top _) h
  have hn : requested.toNat ≤ s.length := ENat.toNat_le_of_le_natCast h
  unfold lastLines
  rw [ENat.toNat_sub hfinite, ENat.toNat_sub hfinite, ENat.toNat_natCast, ENat.toNat_natCast, List.length_append,
    Nat.add_sub_assoc hn, List.drop_append, List.drop_eq_nil_of_le (Nat.le_add_right _ _), Nat.add_sub_cancel_left,
    List.nil_append]

/-! ## The loop -/

/-- Why the loop of `readJsonlTail` stops. -/
theorem readLines_window (file : List UInt8) (requested maxBytes : ℕ∞) (bytes : Nat) (hbytes : 0 < bytes)
    (hmax : bytes ≤ maxBytes) :
    ∃ window : Nat, readLines file requested maxBytes bytes hbytes = windowLines file (file.length - window) ∧
      0 < window ∧ window ≤ maxBytes ∧
      (requested ≤ (windowLines file (file.length - window)).length ∨ file.length ≤ window ∨ maxBytes ≤ window) := by
  fun_induction readLines file requested maxBytes bytes hbytes with
  | case1 bytes hbytes start found hstop =>
    refine ⟨bytes, rfl, hbytes, hmax, ?_⟩
    rcases hstop with henough | hwhole | hmost
    · exact .inl henough
    · exact .inr (.inl (Nat.le_of_sub_eq_zero hwhole))
    · exact .inr (.inr hmost)
  | case2 bytes hbytes start found hstop hmore ih =>
    apply ih
    rw [moreBytes_cast]
    exact (min_le_right _ _).trans (min_le_left _ _)

/-- The lines that lie in the last `maxBytes` bytes, other than the one that touches the cut. -/
def linesInside (file : List UInt8) (maxBytes : ℕ∞) : List FileLine :=
  (fullLines file).filter fun line ↦ (file.length : ℕ∞) < line.start + maxBytes

theorem windowLines_suffix (file : List UInt8) {start : Nat} (hstart : start ≤ file.length) :
    windowLines file start <:+ (fullLines file).map FileLine.text := by
  rcases Nat.eq_zero_or_pos start with rfl | hpos
  · rw [windowLines_zero]
  · rw [windowLines_pos file hpos hstart]
    exact (filter_suffix (fullLines_sorted file) start).map _

/-- A window within the last `maxBytes` bytes has lines of these bytes only. -/
theorem length_windowLines_le (file : List UInt8) {maxBytes : ℕ∞} {window : Nat} (hmax : window ≤ maxBytes) (hcut :
    window < file.length) : (windowLines file (file.length - window)).length ≤ (linesInside file maxBytes).length := by
  rw [windowLines_pos file (by omega) (Nat.sub_le _ _), List.length_map]
  apply List.Sublist.length_le
  apply List.monotone_filter_right
  intro line hline
  rw [decide_eq_true_eq] at hline ⊢
  have hsum : (file.length : ℕ∞) < (line.start + window : Nat) := by exact_mod_cast (by omega)
  rw [Nat.cast_add] at hsum
  exact hsum.trans_le (add_le_add_right hmax _)

/-- The largest window. -/
theorem windowLines_maximum (file : List UInt8) {window : Nat} (hcut : window < file.length) :
    windowLines file (file.length - window) = (linesInside file window).map FileLine.text := by
  rw [windowLines_pos file (by omega) (Nat.sub_le _ _)]
  congr 1
  apply List.filter_congr
  intro line _
  rw [decide_eq_decide, ← Nat.cast_add, ENat.natCast_lt_natCast]
  omega

/-- What the loop has found, cut to what was asked for. -/
theorem lastLines_readLines (file : List UInt8) (requested maxBytes : ℕ∞) (bytes : Nat) (hbytes : 0 < bytes)
    (hmax : bytes ≤ maxBytes) :
    lastLines requested (readLines file requested maxBytes bytes hbytes) =
      if (file.length : ℕ∞) ≤ maxBytes ∨ requested ≤ (linesInside file maxBytes).length then
        lastLines requested ((fullLines file).map FileLine.text)
      else (linesInside file maxBytes).map FileLine.text := by
  obtain ⟨window, hfound, hpos, hwindow, hstop⟩ := readLines_window file requested maxBytes bytes hbytes hmax
  have hsuffix := windowLines_suffix file (Nat.sub_le file.length window)
  rw [hfound]
  by_cases hwhole : file.length ≤ window
  · -- the window is the whole file
    rw [if_pos (.inl ((Nat.cast_le.mpr hwhole).trans hwindow)), Nat.sub_eq_zero_of_le hwhole, windowLines_zero]
  · have hcut : window < file.length := Nat.lt_of_not_le hwhole
    by_cases henough : requested ≤ (windowLines file (file.length - window)).length
    · -- a window with enough lines has no more than the largest one
      have hinside := henough.trans (Nat.cast_le.mpr (length_windowLines_le file hwindow hcut))
      rw [if_pos (.inr hinside)]
      exact lastLines_suffix hsuffix henough
    · -- the largest window
      have hmost : maxBytes = window := le_antisymm ((hstop.resolve_left henough).resolve_left hwhole) hwindow
      subst hmost
      have hlines := windowLines_maximum file hcut
      have hfew : ¬requested ≤ (linesInside file window).length := by rwa [hlines, List.length_map] at henough
      rw [if_neg, hlines, lastLines_of_length_le]
      · rw [List.length_map]
        exact (not_le.mp hfew).le
      · rintro (hsize | hinside)
        · exact hwhole (Nat.cast_le.mp hsize)
        · exact hfew hinside

/-- **The tail agrees with a full read.**  The rows are the last lines of the whole file, unless too few lines lie in
its last `maxBytes` bytes; then they are these lines. -/
theorem readJsonlTail_agrees (file : List UInt8) (limit : Number) (options : JsonlTailOptions) :
    readJsonlTail parse (some file) limit options =
      (if (file.length : ℕ∞) ≤ options.maximum ∨ limit.floor ≤ (linesInside file options.maximum).length then
        lastLines limit.floor ((lines (Text.Utf8.decode file)).filter (· ≠ []))
      else (linesInside file options.maximum).map FileLine.text).map (row parse) := by
  unfold readJsonlTail
  dsimp only
  by_cases hnone : limit.floor = 0
  · rw [if_pos hnone, if_pos (.inr (hnone ▸ zero_le)), hnone]
    unfold lastLines
    rw [tsub_zero, ENat.toNat_natCast, List.drop_length, List.map_nil]
  · rw [if_neg hnone]
    by_cases hsize : file.length = 0
    · obtain rfl := List.eq_nil_of_length_eq_zero hsize
      rw [dif_pos List.length_nil, if_pos (.inl zero_le)]
      unfold lastLines
      exact (congrArg (List.map (row parse)) List.drop_nil).symm
    · rw [dif_neg hsize, lastLines_readLines, fullLines_text]
      unfold JsonlTailOptions.maximum
      rw [atMost_cast, larger_eq_max]
      exact (min_le_right _ _).trans (le_max_left _ _)

end

end RabiRoute.JsonlTail
