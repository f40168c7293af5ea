import Cove.Python.Basic

/-!
# The Python text semantics `strip_ffi_duplicates.py` relies on

`str.startswith`, `str.strip()`, `str.count` of one character, `re.match` on the
patterns the script uses, and the lines of a file in text mode. A file is its decoded
contents. Reading translates `\r\n` and a lone `\r` to `\n` (universal newlines), and
`readlines` splits after each `\n`; writing puts each `\n` back as it is, as on POSIX.
Writing what was read gives back the contents with their newlines translated, and
reading what was written gives back the lines, for every list of lines of the shape
`readlines` returns (`IsLines`), a shape every sublist keeps.
-/

namespace Python

/-- `s.startswith(prefix)`. -/
def startsWith (s pre : String) : Bool := pre.data.isPrefixOf s.data

/-- `s.strip()`: the code points `str.isspace` holds of, dropped from both ends. -/
def strStrip (s : String) : String :=
  ⟨((s.data.dropWhile isSpace).reverse.dropWhile isSpace).reverse⟩

/-- `s.count(c)` for a string `c` of one code point. -/
def strCount (s : String) (c : Char) : Nat := s.data.count c

theorem dropWhile_append_of_head {α : Type} {f : α → Bool} (ys : List α) {zs : List α}
    (hz : ∀ z ∈ zs.head?, f z = false) : (ys ++ zs).dropWhile f = ys.dropWhile f ++ zs := by
  rw [List.dropWhile_append]
  split
  · rename_i h
    rw [List.isEmpty_iff.mp h, List.nil_append]
    cases zs with
    | nil => rfl
    | cons z zs => exact List.dropWhile_cons_of_neg (by simp [hz z rfl])
  · rfl

/-- `strip()` stops at the first and the last code point that is not a space, so a
nonempty prefix with no space survives it. -/
theorem prefix_strStrip {p : List Char} {s : String} (hp : p <+: s.data) (hne : p ≠ [])
    (hsp : ∀ c ∈ p, isSpace c = false) : p <+: (strStrip s).data := by
  obtain ⟨r, hr⟩ := hp
  obtain ⟨c, p', rfl⟩ := List.exists_cons_of_ne_nil hne
  have hlast : ∀ z ∈ (c :: p').reverse.head?, isSpace z = false := fun z hz =>
    hsp z (List.mem_reverse.mp (List.mem_of_mem_head? hz))
  have hfront : (c :: p' ++ r).dropWhile isSpace = c :: p' ++ r :=
    List.dropWhile_cons_of_neg (by simp [hsp c (List.mem_cons_self c p')])
  show c :: p' <+: ((s.data.dropWhile isSpace).reverse.dropWhile isSpace).reverse
  rw [← hr, hfront, List.reverse_append, dropWhile_append_of_head _ hlast, List.reverse_append,
    List.reverse_reverse]
  exact List.prefix_append _ _

/-! ### `re.match` on anchored literal patterns -/

/-- The code points with a meaning of their own in a regular expression. -/
def reSpecial (c : Char) : Bool :=
  ['.', '^', '$', '*', '+', '?', '\x7b', '\x7d', '[', ']', '\\', '|', '(', ')'].elem c

/-- The text a pattern of literal code points matches, a special one escaped by a
backslash; `none` for a pattern with any other construct. -/
def reLiteral : List Char → Option (List Char)
  | [] => some []
  | '\\' :: c :: cs => if reSpecial c then (reLiteral cs).map (c :: ·) else none
  | c :: cs => if reSpecial c then none else (reLiteral cs).map (c :: ·)

/-- The text of a pattern made of a `^` anchor and literal code points. -/
def anchoredText (pattern : String) : Option (List Char) :=
  match pattern.data with
  | '^' :: cs => reLiteral cs
  | _ => none

/-- A pattern made of a `^` anchor and literal code points, with the text it matches. -/
structure AnchoredPattern where
  pattern : String
  text : List Char
  parses : anchoredText pattern = some text

/-- The pattern `pattern`, known to be an anchor and literal code points. -/
def AnchoredPattern.of (pattern : String) (h : (anchoredText pattern).isSome) :
    AnchoredPattern :=
  ⟨pattern, (anchoredText pattern).get h, Option.eq_some_of_isSome h⟩

/-- `re.match(p.pattern, s)` is not `None`: `re.match` tries a pattern at the start of
`s` only, so an anchored literal pattern matches when its text begins `s`. -/
def AnchoredPattern.matches (p : AnchoredPattern) (s : String) : Bool :=
  p.text.isPrefixOf s.data

/-! ### Files in text mode -/

/-- Universal newlines on reading: `\r\n` and a lone `\r` each become `\n`. -/
def translateNewlines : List Char → List Char
  | '\r' :: '\n' :: cs => '\n' :: translateNewlines cs
  | '\r' :: cs => '\n' :: translateNewlines cs
  | c :: cs => c :: translateNewlines cs
  | [] => []

/-- The lines of a text whose newlines are `\n`, each with its `\n`, and what follows the
last `\n` as a line of its own; `line` is the pending line, reversed. -/
def splitLines : List Char → List Char → List String
  | [], [] => []
  | [], line => [⟨line.reverse⟩]
  | c :: cs, line =>
    if c = '\n' then ⟨(c :: line).reverse⟩ :: splitLines cs [] else splitLines cs (c :: line)

/-- `f.readlines()` on a file opened with `open(path, 'r')` whose decoded contents are
`contents`. -/
def readlines (contents : String) : List String :=
  splitLines (translateNewlines contents.data) []

/-- The contents `f.writelines(lines)` leaves in a file opened with `open(path, 'w')`: the
lines one after the other. -/
def writelines (lines : List String) : String := ⟨(lines.map String.data).flatten⟩

/-- A line as `readlines` returns it: not empty, no `\r`, and no `\n` before its end. -/
def IsLine (l : String) : Prop := l.data ≠ [] ∧ '\r' ∉ l.data ∧ '\n' ∉ l.data.dropLast

/-- Lines as `readlines` returns them: each one a line, each but the last ending in `\n`. -/
def IsLines : List String → Prop
  | [] => True
  | l :: ls => IsLine l ∧ (ls ≠ [] → l.data.getLast? = some '\n') ∧ IsLines ls

theorem not_mem_translateNewlines (cs : List Char) : '\r' ∉ translateNewlines cs := by
  induction cs using translateNewlines.induct with
  | case1 cs ih => simp [translateNewlines, ih]
  | case2 cs h ih => rw [translateNewlines.eq_2 cs h]; simp [ih]
  | case3 c cs h hc ih =>
    rw [translateNewlines.eq_3 c cs h hc, List.mem_cons, not_or]
    exact ⟨fun e => hc e.symm, ih⟩
  | case4 => simp [translateNewlines]

theorem translateNewlines_of_not_mem : ∀ {cs : List Char}, '\r' ∉ cs → translateNewlines cs = cs
  | [], _ => rfl
  | c :: cs, h => by
    have hc : c ≠ '\r' := fun e => h (e ▸ List.mem_cons_self c cs)
    rw [translateNewlines.eq_3 c cs (fun _ e => absurd e hc) hc,
      translateNewlines_of_not_mem fun h' => h (List.mem_cons_of_mem c h')]

/-- A run of code points with no `\n` is carried over whole into the pending line. -/
theorem splitLines_append {cs : List Char} (h : '\n' ∉ cs) (rest line : List Char) :
    splitLines (cs ++ rest) line = splitLines rest (cs.reverse ++ line) := by
  induction cs generalizing line with
  | nil => rfl
  | cons c cs ih =>
    rw [List.cons_append, splitLines,
      if_neg (show c ≠ '\n' from fun e => h (e ▸ List.mem_cons_self c cs)),
      ih fun h' => h (List.mem_cons_of_mem c h'), List.reverse_cons, List.append_assoc,
      List.singleton_append]

theorem flatten_splitLines : ∀ cs line : List Char,
    ((splitLines cs line).map String.data).flatten = line.reverse ++ cs
  | [], [] => rfl
  | [], c :: line => by rw [splitLines.eq_2 _ (List.cons_ne_nil c line)]; simp
  | c :: cs, line => by
    rw [splitLines]
    split
    · simp [flatten_splitLines cs []]
    · simp [flatten_splitLines cs (c :: line)]

theorem isLines_splitLines : ∀ {cs line : List Char}, '\r' ∉ cs → '\r' ∉ line → '\n' ∉ line →
    IsLines (splitLines cs line)
  | [], [], _, _, _ => trivial
  | [], c :: line, _, hr, hn => by
    rw [splitLines.eq_2 _ (List.cons_ne_nil c line)]
    exact ⟨⟨by simp, fun h => hr (List.mem_reverse.mp h),
      fun h => hn (List.mem_reverse.mp (List.mem_of_mem_dropLast h))⟩,
      fun h => absurd rfl h, trivial⟩
  | c :: cs, line, hcs, hr, hn => by
    have hcs' : '\r' ∉ cs := fun h => hcs (List.mem_cons_of_mem c h)
    have hc : c ≠ '\r' := fun e => hcs (e ▸ List.mem_cons_self c cs)
    rw [splitLines]
    split
    · rename_i hnl
      subst hnl
      refine ⟨⟨by simp, by simpa using hr, by simpa using hn⟩, fun _ => by simp,
        isLines_splitLines hcs' (List.not_mem_nil _) (List.not_mem_nil _)⟩
    · exact isLines_splitLines hcs' (by simp [hr, Ne.symm hc]) (by simp [hn, Ne.symm ‹c ≠ '\n'›])

theorem IsLines.isLine : ∀ {ls : List String}, IsLines ls → ∀ l ∈ ls, IsLine l
  | [], _ => fun _ h => nomatch h
  | _ :: _, ⟨hl, _, h⟩ => List.forall_mem_cons.mpr ⟨hl, h.isLine⟩

/-- Deleting lines keeps the shape `readlines` returns. -/
theorem IsLines.sublist {l₁ l₂ : List String} (hs : List.Sublist l₁ l₂) (h : IsLines l₂) :
    IsLines l₁ := by
  induction hs with
  | slnil => exact h
  | cons _ _ ih => exact ih h.2.2
  | cons₂ _ hs ih =>
    exact ⟨h.1, fun hne => h.2.1 fun e => hne (List.sublist_nil.mp (e ▸ hs)), ih h.2.2⟩

theorem splitLines_flatten : ∀ {ls : List String}, IsLines ls →
    splitLines (ls.map String.data).flatten [] = ls
  | [], _ => rfl
  | l :: ls, ⟨⟨hne, _, hn⟩, hlast, h⟩ => by
    have hl := (List.dropLast_concat_getLast hne).symm
    rw [hl, List.dropLast_concat] at hn
    simp only [List.map_cons, List.flatten_cons]
    rw [hl, List.append_assoc, List.singleton_append, splitLines_append hn, List.append_nil,
      splitLines]
    have hl' : (⟨(l.data.getLast hne :: l.data.dropLast.reverse).reverse⟩ : String) = l :=
      String.ext (by rw [List.reverse_cons, List.reverse_reverse, ← hl])
    split
    · rw [splitLines_flatten h, hl']
    · rename_i hc
      obtain rfl : ls = [] := by
        by_contra hls
        have := hlast hls
        rw [List.getLast?_eq_getLast _ hne, Option.some.injEq] at this
        exact hc this
      rw [List.map_nil, List.flatten_nil, splitLines.eq_2 _ (List.cons_ne_nil _ _), hl']

/-- Writing what was read gives back the contents, with their newlines translated. -/
theorem writelines_readlines (contents : String) :
    writelines (readlines contents) = ⟨translateNewlines contents.data⟩ := by
  rw [writelines, readlines, flatten_splitLines]
  rfl

theorem isLines_readlines (contents : String) : IsLines (readlines contents) :=
  isLines_splitLines (not_mem_translateNewlines _) (List.not_mem_nil _) (List.not_mem_nil _)

theorem not_mem_writelines {ls : List String} (h : IsLines ls) : '\r' ∉ (writelines ls).data := by
  intro hmem
  obtain ⟨_, hx, hr⟩ := List.mem_flatten.mp hmem
  obtain ⟨l, hl, rfl⟩ := List.mem_map.mp hx
  exact (h.isLine l hl).2.1 hr

/-- Reading what was written gives back the lines. -/
theorem readlines_writelines {ls : List String} (h : IsLines ls) :
    readlines (writelines ls) = ls := by
  rw [readlines, translateNewlines_of_not_mem (not_mem_writelines h)]
  exact splitLines_flatten h

theorem length_writelines_le {l₁ l₂ : List String} (hs : List.Sublist l₁ l₂) :
    (writelines l₁).data.length ≤ (writelines l₂).data.length := by
  induction hs with
  | slnil => exact le_rfl
  | cons a _ ih | cons₂ a _ ih =>
    simp only [writelines, List.map_cons, List.flatten_cons, List.length_append] at ih ⊢
    omega

/-- Deleting a line of the shape `readlines` returns changes what is written. -/
theorem eq_of_writelines_eq {l₁ l₂ : List String} (hs : List.Sublist l₁ l₂) (h : IsLines l₂)
    (heq : writelines l₁ = writelines l₂) : l₁ = l₂ := by
  induction hs with
  | slnil => rfl
  | @cons l₁ l₂ a hs _ =>
    have hle := length_writelines_le hs
    have hlen := congrArg (fun s : String => s.data.length) heq
    have ha : 0 < a.data.length := List.length_pos.mpr h.1.1
    simp only [writelines, List.map_cons, List.flatten_cons, List.length_append] at hlen hle
    omega
  | cons₂ a _ ih =>
    exact congrArg (a :: ·)
      (ih h.2.2 (String.ext (List.append_cancel_left (congrArg String.data heq))))

end Python
