import RabiRoute.PluginStorage.Tree

/-!
# A digest names one tree

The bytes that `digestTree` takes can be read back: each header is a JSON array, a file gives its size, and
the entries of a directory end where a path does not lie beneath it.
-/

namespace RabiRoute.PluginStorage

/-! ## UTF-8 -/

theorem utf8EncodeChar_append {c d : Char} {x y : List UInt8}
    (h : String.utf8EncodeChar c ++ x = String.utf8EncodeChar d ++ y) : c = d ∧ x = y := by
  have hdecode : some c = some d := by
    rw [← ByteArray.utf8DecodeChar?_utf8EncodeChar_append (b := x.toByteArray),
      ← ByteArray.utf8DecodeChar?_utf8EncodeChar_append (b := y.toByteArray), ← List.toByteArray_append,
      ← List.toByteArray_append, h]
  cases hdecode
  exact ⟨rfl, List.append_cancel_left h⟩

/-- Of two texts whose bytes go on alike, one begins with the other. -/
theorem utf8_append {a b : List Char} {x y : List UInt8} (h : utf8 a ++ x = utf8 b ++ y) :
    (∃ m, b = a ++ m ∧ x = utf8 m ++ y) ∨ ∃ m, a = b ++ m ∧ y = utf8 m ++ x := by
  induction a generalizing b with
  | nil => exact .inl ⟨b, rfl, h⟩
  | cons c a ih =>
    cases b with
    | nil => exact .inr ⟨c :: a, rfl, h.symm⟩
    | cons d b =>
      unfold utf8 at h
      rw [List.flatMap_cons, List.flatMap_cons, List.append_assoc, List.append_assoc] at h
      obtain ⟨rfl, hrest⟩ := utf8EncodeChar_append h
      rcases ih hrest with ⟨m, rfl, hx⟩ | ⟨m, rfl, hy⟩
      · exact .inl ⟨m, rfl, hx⟩
      · exact .inr ⟨m, rfl, hy⟩

theorem utf8_ne_nil {c : Char} {text : List Char} : utf8 (c :: text) ≠ [] := by
  intro h
  unfold utf8 at h
  rw [List.flatMap_cons] at h
  exact String.utf8EncodeChar_ne_nil (List.append_eq_nil_iff.mp h).1

/-! ## Strings in JSON -/

def hexValue (c : Char) : Nat := if c.toNat < 58 then c.toNat - 48 else c.toNat - 87

theorem hexValue_hexDigit {n : Nat} (h : n < 16) : hexValue (hexDigit n) = n :=
  (by decide : ∀ n : Fin 16, hexValue (hexDigit n) = n) ⟨n, h⟩

/-- What a character after a backslash stands for. -/
def unescaped (c : Char) : Char :=
  if c = 'b' then Char.ofNat 8
  else if c = 'f' then Char.ofNat 12
  else if c = 'n' then Char.ofNat 10
  else if c = 'r' then Char.ofNat 13
  else if c = 't' then Char.ofNat 9
  else c

/-- The first character of a JSON string, and what follows it. -/
def readChar : List Char → Option (Char × List Char)
  | [] => none
  | c :: rest =>
    if c = '\\' then
      match rest with
      | 'u' :: _ :: _ :: high :: low :: rest => some (Char.ofNat (16 * hexValue high + hexValue low), rest)
      | d :: rest => some (unescaped d, rest)
      | [] => none
    else some (c, rest)

theorem ofNat_toNat {c : Char} {n : Nat} (h : c.toNat = n) : Char.ofNat n = c := by
  rw [← h, Char.ofNat_toNat]

theorem readChar_escape (c : Char) (rest : List Char) : readChar (escape c ++ rest) = some (c, rest) := by
  unfold escape
  split
  · next h => exact congrArg (fun c => some (c, rest)) h.symm
  · split
    · next h => exact congrArg (fun c => some (c, rest)) h.symm
    · next hback =>
        split
        · next h => exact congrArg (fun c => some (c, rest)) (ofNat_toNat h)
        · split
          · next h => exact congrArg (fun c => some (c, rest)) (ofNat_toNat h)
          · split
            · next h => exact congrArg (fun c => some (c, rest)) (ofNat_toNat h)
            · split
              · next h => exact congrArg (fun c => some (c, rest)) (ofNat_toNat h)
              · split
                · next h => exact congrArg (fun c => some (c, rest)) (ofNat_toNat h)
                · split
                  · next h =>
                      show some (Char.ofNat (16 * hexValue (hexDigit (c.toNat / 16)) +
                        hexValue (hexDigit (c.toNat % 16))), rest) = some (c, rest)
                      rw [hexValue_hexDigit (by omega), hexValue_hexDigit (by omega), ofNat_toNat (c := c) (by omega)]
                  · exact if_neg hback

theorem escape_append {c d : Char} {x y : List Char} (h : escape c ++ x = escape d ++ y) : c = d ∧ x = y := by
  have hread : some (c, x) = some (d, y) := by
    rw [← readChar_escape, ← readChar_escape, h]
  cases hread
  exact ⟨rfl, rfl⟩

/-- A character never begins like the end of the string. -/
theorem escape_ne_quote {c : Char} {x y : List Char} : escape c ++ x ≠ '"' :: y := by
  intro h
  have hread : readChar (escape c ++ x) = some (c, x) := readChar_escape c x
  rw [h] at hread
  have hc : '"' = c := congrArg Prod.fst (Option.some.inj hread)
  rw [← hc] at h
  cases h

theorem quote_append {a b x y : List Char} (h : quote a ++ x = quote b ++ y) : a = b ∧ x = y := by
  unfold quote at h
  rw [List.cons_append, List.cons_append, List.append_assoc, List.append_assoc] at h
  replace h := (List.cons.inj h).2
  induction a generalizing b with
  | nil =>
    cases b with
    | nil => exact ⟨rfl, (List.cons.inj h).2⟩
    | cons d b =>
      rw [List.flatMap_cons, List.append_assoc] at h
      exact absurd h.symm escape_ne_quote
  | cons c a ih =>
    cases b with
    | nil =>
      rw [List.flatMap_cons, List.append_assoc] at h
      exact absurd h escape_ne_quote
    | cons d b =>
      rw [List.flatMap_cons, List.flatMap_cons, List.append_assoc, List.append_assoc] at h
      obtain ⟨rfl, hrest⟩ := escape_append h
      obtain ⟨rfl, hxy⟩ := ih hrest
      exact ⟨rfl, hxy⟩

/-! ## Headers -/

theorem digits_append {n m : Nat} {x y : List Char}
    (h : Nat.toDigits 10 n ++ ']' :: x = Nat.toDigits 10 m ++ ']' :: y) : n = m ∧ x = y := by
  have hdigit : ∀ k, ∀ c ∈ Nat.toDigits 10 k, c ≠ ']' := by
    intro k c hc heq
    have hd := Nat.isDigit_of_mem_toDigits (by decide) (by decide) hc
    rw [heq] at hd
    cases hd
  have htake : ∀ k (z : List Char), (Nat.toDigits 10 k ++ ']' :: z).takeWhile (· ≠ ']') = Nat.toDigits 10 k := by
    intro k z
    rw [List.takeWhile_append_of_pos fun c hc => decide_eq_true (hdigit k c hc)]
    simp
  have hnm : Nat.toDigits 10 n = Nat.toDigits 10 m := by
    rw [← htake n x, h, htake m y]
  have hn : n = m := by
    rw [← Nat.ofDigitChars_toDigits (b := 10) (n := n) (by decide) (by decide), hnm,
      Nat.ofDigitChars_toDigits (by decide) (by decide)]
  rw [hnm] at h
  exact ⟨hn, (List.cons.inj (List.append_cancel_left h)).2⟩

theorem toDigits_head (n : Nat) : ∃ c rest, Nat.toDigits 10 n = c :: rest ∧ c ≠ '"' := by
  cases h : Nat.toDigits 10 n with
  | nil => exact absurd h (Nat.toDigits_ne_nil)
  | cons c rest =>
    refine ⟨c, rest, rfl, ?_⟩
    have hd := Nat.isDigit_of_mem_toDigits (b := 10) (n := n) (c := c) (by decide) (by decide)
      (h ▸ List.mem_cons_self)
    rintro rfl
    cases hd

theorem quote_ne_digits {a x y : List Char} {n : Nat} : quote a ++ x ≠ Nat.toDigits 10 n ++ y := by
  intro h
  obtain ⟨c, rest, hdigits, hc⟩ := toDigits_head n
  rw [hdigits] at h
  exact hc (List.cons.inj h).1.symm

/-- The rest of a header, to its closing bracket. -/
theorem tail_append {h h' : Header} {x y : List Char} (heq : h.tail ++ ']' :: x = h'.tail ++ ']' :: y) :
    h = h' ∧ x = y := by
  cases h with
  | link target =>
    cases h' with
    | link target' =>
      unfold Header.tail at heq
      rw [List.append_assoc, List.append_assoc] at heq
      obtain ⟨-, hrest⟩ := quote_append heq
      obtain ⟨rfl, hxy⟩ := quote_append (List.cons.inj hrest).2
      exact ⟨rfl, (List.cons.inj hxy).2⟩
    | directory =>
      unfold Header.tail at heq
      rw [List.append_assoc] at heq
      obtain ⟨hname, -⟩ := quote_append heq
      exact absurd hname (by decide)
    | file size =>
      unfold Header.tail at heq
      rw [List.append_assoc] at heq
      exact absurd heq quote_ne_digits
  | directory =>
    cases h' with
    | link target' =>
      unfold Header.tail at heq
      rw [List.append_assoc] at heq
      obtain ⟨hname, -⟩ := quote_append heq
      exact absurd hname (by decide)
    | directory => exact ⟨rfl, (List.cons.inj (List.append_cancel_left heq)).2⟩
    | file size => exact absurd heq quote_ne_digits
  | file size =>
    cases h' with
    | link target' =>
      unfold Header.tail at heq
      rw [List.append_assoc (quote _)] at heq
      exact absurd heq.symm quote_ne_digits
    | directory => exact absurd heq.symm quote_ne_digits
    | file size' =>
      obtain ⟨rfl, hxy⟩ := digits_append heq
      exact ⟨rfl, hxy⟩

theorem header_append {r r' x y : List Char} {h h' : Header} (heq : h.text r ++ x = h'.text r' ++ y) :
    r = r' ∧ h = h' ∧ x = y := by
  unfold Header.text at heq
  simp only [List.cons_append, List.append_assoc, List.nil_append] at heq
  obtain ⟨rfl, hrest⟩ := quote_append (List.cons.inj heq).2
  obtain ⟨rfl, hxy⟩ := tail_append (List.cons.inj hrest).2
  exact ⟨rfl, rfl, hxy⟩

/-- The first header in a stream of bytes is one header only. -/
theorem header_bytes {r r' : List Char} {h h' : Header} {x y : List UInt8}
    (heq : utf8 (h.text r) ++ x = utf8 (h'.text r') ++ y) : r = r' ∧ h = h' ∧ x = y := by
  rcases utf8_append heq with ⟨m, hm, hx⟩ | ⟨m, hm, hy⟩
  · obtain ⟨hr, hh, hnil⟩ := header_append (x := m) (y := []) (by rw [← hm, List.append_nil])
    rw [hnil] at hx
    exact ⟨hr, hh, hx⟩
  · obtain ⟨hr, hh, hnil⟩ := header_append (x := []) (y := m) (by rw [← hm, List.append_nil])
    rw [← hnil] at hy
    exact ⟨hr, hh, hy.symm⟩

/-! ## Paths -/

def pathText (path : List Name) : List Char := ['/'].intercalate (path.map Name.text)

theorem intercalate_append {sep last : List Char} : ∀ {parts : List (List Char)}, parts ≠ [] →
    sep.intercalate (parts ++ [last]) = sep.intercalate parts ++ sep ++ last
  | [], h => absurd rfl h
  | [part], _ => by simp [List.intercalate]
  | part :: next :: parts, _ => by
      have ih : sep.intercalate (next :: parts ++ [last]) = sep.intercalate (next :: parts) ++ sep ++ last :=
        intercalate_append (by simp)
      simp only [List.intercalate, List.cons_append, List.intersperse_cons_cons, List.flatten_cons,
        List.append_assoc] at ih ⊢
      rw [ih]

theorem pathText_ne_nil {path : List Name} (h : path ≠ []) : pathText path ≠ [] := by
  cases path with
  | nil => exact absurd rfl h
  | cons name rest =>
    intro hnil
    unfold pathText at hnil
    cases rest with
    | nil => exact name.ne_nil (by simpa [List.intercalate] using hnil)
    | cons next rest =>
      rw [List.map_cons, List.map_cons, List.intercalate, List.intersperse_cons_cons, List.flatten_cons] at hnil
      exact name.ne_nil (List.append_eq_nil_iff.mp hnil).1

theorem join_pathText (path : List Name) (name : Name) : join (pathText path) name = pathText (path ++ [name]) := by
  unfold join
  by_cases hpath : path = []
  · rw [hpath]
    simp [pathText, List.intercalate]
  · rw [if_neg (pathText_ne_nil hpath)]
    unfold pathText
    rw [List.map_append, List.map_singleton, intercalate_append (by simpa using hpath), List.append_assoc]
    rfl

theorem name_ext {a b : Name} (h : a.text = b.text) : a = b := by
  cases a
  cases b
  cases h
  rfl

theorem pathText_injective {path path' : List Name} (h : pathText path = pathText path') : path = path' := by
  by_cases hpath : path = []
  · by_contra hne
    exact pathText_ne_nil (fun h' => hne (hpath.trans h'.symm)) (h.symm.trans (by rw [hpath]; rfl))
  · have hpath' : path' ≠ [] := by
      rintro rfl
      exact pathText_ne_nil hpath h
    have hsplit : ∀ q : List Name, q ≠ [] → (pathText q).splitOn '/' = q.map Name.text := by
      intro q hq
      refine List.splitOn_intercalate '/' (fun text ht => ?_) (by simpa using hq)
      obtain ⟨name, -, rfl⟩ := List.mem_map.mp ht
      exact name.plain
    have htexts : path.map Name.text = path'.map Name.text := by
      rw [← hsplit path hpath, h, hsplit path' hpath']
    exact (List.map_inj_right fun _ _ => name_ext).mp htexts

/-! ## Trees -/

def Beneath (path path' : List Name) : Prop := ∃ name rest, path' = path ++ name :: rest

/-- The bytes do not go on with a node beneath the path. -/
def Outside (path : List Name) (x : List UInt8) : Prop :=
  x = [] ∨ ∃ path' h more, x = utf8 (Header.text (pathText path') h) ++ more ∧ ¬Beneath path path'

theorem Outside.deeper {path : List Name} {x : List UInt8} (h : Outside path x) (name : Name) :
    Outside (path ++ [name]) x := by
  rcases h with rfl | ⟨path', header, more, rfl, hnot⟩
  · exact .inl rfl
  · refine .inr ⟨path', header, more, rfl, fun hbeneath => hnot ?_⟩
    obtain ⟨next, rest, rfl⟩ := hbeneath
    exact ⟨name, next :: rest, by rw [List.append_assoc, List.singleton_append]⟩

theorem stream_header {tree : Tree} (h : tree.supported = true) (relative : List Char) :
    ∃ header body, tree.stream relative = utf8 (Header.text relative header) ++ body := by
  cases tree with
  | file bytes => exact ⟨_, _, rfl⟩
  | link target => exact ⟨_, [], (List.append_nil _).symm⟩
  | special => cases h
  | dir entries => exact ⟨_, _, rfl⟩

/-- What follows an entry of a directory is not beneath that entry. -/
theorem outside_entries {entries : Entries} {path : List Name} {x : List UInt8} (h : entries.supported = true)
    (hx : Outside path x) (name : Name) : Outside (path ++ [name]) (entries.stream (pathText path) ++ x) := by
  cases entries with
  | nil => exact hx.deeper name
  | cons next tree rest =>
    have htree : tree.supported = true := (Bool.and_eq_true_iff.mp h).1
    obtain ⟨header, body, hbody⟩ := stream_header htree (pathText (path ++ [next]))
    refine .inr ⟨path ++ [next], header, body ++ rest.stream (pathText path) ++ x, ?_, ?_⟩
    · rw [Entries.stream, join_pathText, hbody, List.append_assoc, List.append_assoc, List.append_assoc]
    · rintro ⟨m, more, hm⟩
      have hlength := congrArg List.length hm
      simp at hlength

/-- A directory that has ended does not go on with an entry. -/
theorem not_outside {entries : Entries} {name : Name} {tree : Tree} {path : List Name} {x y : List UInt8}
    (h : tree.supported = true) (hx : Outside path x)
    (heq : x = (Entries.cons name tree entries).stream (pathText path) ++ y) : False := by
  obtain ⟨header, body, hbody⟩ := stream_header h (pathText (path ++ [name]))
  rw [Entries.stream, join_pathText, hbody] at heq
  rcases hx with rfl | ⟨path', header', more, rfl, hnot⟩
  · rw [List.append_assoc, List.append_assoc] at heq
    exact utf8_ne_nil (List.append_eq_nil_iff.mp heq.symm).1
  · rw [List.append_assoc, List.append_assoc] at heq
    obtain ⟨hpath, -, -⟩ := header_bytes heq
    exact hnot ⟨name, [], pathText_injective hpath⟩

mutual

/-- A tree is read back from its bytes, whatever follows outside its path. -/
theorem tree_append : ∀ (tree tree' : Tree) (path : List Name) (x y : List UInt8), tree.supported = true →
    tree'.supported = true → Outside path x → Outside path y →
    tree.stream (pathText path) ++ x = tree'.stream (pathText path) ++ y → tree = tree' ∧ x = y
  | .file bytes, .file bytes', path, x, y, _, _, _, _, heq => by
      rw [Tree.stream, Tree.stream, List.append_assoc, List.append_assoc] at heq
      obtain ⟨-, hsize, hrest⟩ := header_bytes heq
      obtain ⟨hbytes, hxy⟩ := List.append_inj hrest (Header.file.inj hsize)
      exact ⟨congrArg Tree.file hbytes, hxy⟩
  | .link target, .link target', path, x, y, _, _, _, _, heq => by
      obtain ⟨-, htarget, hrest⟩ := header_bytes heq
      exact ⟨congrArg Tree.link (Header.link.inj htarget), hrest⟩
  | .dir entries, .dir entries', path, x, y, h, h', hx, hy, heq => by
      rw [Tree.stream, Tree.stream, List.append_assoc, List.append_assoc] at heq
      obtain ⟨-, -, hrest⟩ := header_bytes heq
      obtain ⟨hentries, hxy⟩ := entries_append entries entries' path x y h h' hx hy hrest
      exact ⟨congrArg Tree.dir hentries, hxy⟩
  | .file bytes, .link target, path, x, y, _, _, _, _, heq => by
      rw [Tree.stream, Tree.stream, List.append_assoc] at heq
      cases (header_bytes heq).2.1
  | .file bytes, .dir entries, path, x, y, _, _, _, _, heq => by
      rw [Tree.stream, Tree.stream, List.append_assoc, List.append_assoc] at heq
      cases (header_bytes heq).2.1
  | .link target, .file bytes, path, x, y, _, _, _, _, heq => by
      rw [Tree.stream, Tree.stream, List.append_assoc (utf8 _) bytes] at heq
      cases (header_bytes heq).2.1
  | .link target, .dir entries, path, x, y, _, _, _, _, heq => by
      rw [Tree.stream, Tree.stream, List.append_assoc (utf8 _) (Entries.stream _ _)] at heq
      cases (header_bytes heq).2.1
  | .dir entries, .file bytes, path, x, y, _, _, _, _, heq => by
      rw [Tree.stream, Tree.stream, List.append_assoc, List.append_assoc] at heq
      cases (header_bytes heq).2.1
  | .dir entries, .link target, path, x, y, _, _, _, _, heq => by
      rw [Tree.stream, Tree.stream, List.append_assoc] at heq
      cases (header_bytes heq).2.1
  | .special, _, _, _, _, h, _, _, _, _ => by cases h
  | .file _, .special, _, _, _, _, h', _, _, _ => by cases h'
  | .link _, .special, _, _, _, _, h', _, _, _ => by cases h'
  | .dir _, .special, _, _, _, _, h', _, _, _ => by cases h'

theorem entries_append : ∀ (entries entries' : Entries) (path : List Name) (x y : List UInt8),
    entries.supported = true → entries'.supported = true → Outside path x → Outside path y →
    entries.stream (pathText path) ++ x = entries'.stream (pathText path) ++ y → entries = entries' ∧ x = y
  | .nil, .nil, _, _, _, _, _, _, _, heq => ⟨rfl, heq⟩
  | .nil, .cons name tree rest, path, x, y, _, h', hx, _, heq =>
    (not_outside (Bool.and_eq_true_iff.mp h').1 hx heq).elim
  | .cons name tree rest, .nil, path, x, y, h, _, _, hy, heq =>
    (not_outside (Bool.and_eq_true_iff.mp h).1 hy heq.symm).elim
  | .cons name tree rest, .cons name' tree' rest', path, x, y, h, h', hx, hy, heq => by
      obtain ⟨htree, hrest⟩ := Bool.and_eq_true_iff.mp h
      obtain ⟨htree', hrest'⟩ := Bool.and_eq_true_iff.mp h'
      rw [Entries.stream, Entries.stream, join_pathText, join_pathText, List.append_assoc, List.append_assoc] at heq
      have hname : name = name' := by
        obtain ⟨header, body, hbody⟩ := stream_header htree (pathText (path ++ [name]))
        obtain ⟨header', body', hbody'⟩ := stream_header htree' (pathText (path ++ [name']))
        rw [hbody, hbody', List.append_assoc, List.append_assoc] at heq
        have hpaths := pathText_injective (header_bytes heq).1
        exact List.singleton_inj.mp (List.append_cancel_left hpaths)
      subst hname
      obtain ⟨rfl, htail⟩ := tree_append tree tree' (path ++ [name]) _ _ htree htree'
        (outside_entries hrest hx name) (outside_entries hrest' hy name) heq
      obtain ⟨rfl, hxy⟩ := entries_append rest rest' path x y hrest hrest' hx hy htail
      exact ⟨rfl, hxy⟩

end

theorem digestTree_injective {Digest : Type} {sha256 : List UInt8 → Digest} (hsha : Function.Injective sha256)
    {tree tree' : Tree} {digest : Digest} (h : digestTree sha256 tree = some digest)
    (h' : digestTree sha256 tree' = some digest) : tree = tree' := by
  unfold digestTree at h h'
  split at h
  · next hs =>
      split at h'
      · next hs' =>
          have hstream := hsha ((Option.some.inj h).trans (Option.some.inj h').symm)
          exact (tree_append tree tree' [] [] [] hs hs' (.inl rfl) (.inl rfl)
            (congrArg (· ++ []) hstream)).1
      · cases h'
  · cases h

end RabiRoute.PluginStorage
