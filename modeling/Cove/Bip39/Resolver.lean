import Cove.Bip39.Wordlist

/-!
# The prefix-indexed resolver `get_word_index`

`get_word_index` is modelled over any word list and prefix table, so that what
it needs of `wordlist_en` and `_lookup` is stated once, as `WellIndexed`. Under
those four facts the scan that starts where the table points agrees, on every
string, with a search of the whole list (`getWordIndexIn_eq_naiveIndex`).
Python's `assert` runs only when `__debug__` holds, so the model takes that
flag as an argument: `debug = false` is `python -O`.
-/

namespace Bip39

open Python

/-- `word == w or word == w[:4]`: `word` spells `w` out or abbreviates it. -/
def Matches (word w : String) : Prop := word = w ∨ word = sliceTo w 4

instance (word w : String) : Decidable (Matches word w) :=
  inferInstanceAs (Decidable (_ ∨ _))

/-- The loop over `enumerate(wordlist_en[start_index:], start=start_index)`: a match
returns its index, and a change of first letter breaks to `raise ValueError(word)`. -/
def scan (word : String) : Nat → List String → Except PyExc Nat
  | _, [] => .error (.valueError word)
  | i, w :: ws =>
    if Matches word w then .ok i else do
      let a ← firstChar w
      let b ← firstChar word
      if a ≠ b then .error (.valueError word) else scan word (i + 1) ws

/-- The `try` block: the length `assert`, then `_lookup[word[:2]]`. -/
def lookupStart (table : List (String × Nat)) (debug : Bool) (word : String) :
    Except PyExc Nat := do
  if debug ∧ ¬(3 ≤ word.length ∧ word.length ≤ 8) then throw .assertionError
  dictGet table (sliceTo word 2)

/-- `get_word_index(word)` over the word list `words` and the prefix table `table`. -/
def getWordIndexIn (words : List String) (table : List (String × Nat)) (debug : Bool)
    (word : String) : Except PyExc Nat :=
  match lookupStart table debug word with
  | .ok start => scan word start (words.drop start)
  | .error (.keyError _) | .error .assertionError => .error (.valueError word)
  | .error e => .error e

/-- `get_word_index(word)`, reading the module's `wordlist_en` and `_lookup`. -/
def getWordIndex (debug : Bool) (word : String) : Except PyExc Nat :=
  getWordIndexIn wordlistEn lookup debug word

/-- The search the table speeds up: the first word of the whole list that `word`
spells out or abbreviates. -/
def naiveIndex (words : List String) (word : String) : Except PyExc Nat :=
  match words.findIdx? (fun w => decide (Matches word w)) with
  | some i => .ok i
  | none => .error (.valueError word)

/-- What the resolver needs of its data. Every word has 3 to 8 letters and the
four-letter abbreviations are distinct; the table sends the two-letter prefix of
each word to a start at or before it, from which every word up to it shares its
first letter; the empty string is not a key. -/
structure WellIndexed (words : List String) (table : List (String × Nat)) : Prop where
  length_bounds : ∀ w ∈ words, 3 ≤ w.length ∧ w.length ≤ 8
  abbrev_nodup : (words.map (sliceTo · 4)).Nodup
  run_start : ∀ j (hj : j < words.length), ∃ start,
    table.lookup (sliceTo words[j] 2) = some start ∧ start ≤ j ∧
      ∀ m (hm : m ≤ j), start ≤ m → firstChar words[m] = firstChar words[j]
  empty_absent : table.lookup "" = none

/-- A word list with its prefix table, carrying the facts the resolver relies on. -/
structure Dictionary where
  words : List String
  table : List (String × Nat)
  wellIndexed : WellIndexed words table

namespace Matches

variable {word w : String}

theorem sliceTo_four (h : Matches word w) : sliceTo word 4 = sliceTo w 4 := by
  rcases h with rfl | rfl
  · rfl
  · exact sliceTo_sliceTo w le_rfl

theorem sliceTo_two (h : Matches word w) : sliceTo word 2 = sliceTo w 2 := by
  rw [← sliceTo_sliceTo word (by omega : 2 ≤ 4), h.sliceTo_four, sliceTo_sliceTo w (by omega)]

theorem firstChar_eq (h : Matches word w) : firstChar word = firstChar w := by
  rw [← firstChar_sliceTo word (by omega : 0 < 2), h.sliceTo_two, firstChar_sliceTo w (by omega)]

theorem length_bounds (h : Matches word w) (hw : 3 ≤ w.length ∧ w.length ≤ 8) :
    3 ≤ word.length ∧ word.length ≤ 8 := by
  rcases h with rfl | rfl
  · exact hw
  · simp only [length_sliceTo]
    omega

end Matches

theorem scan_eq_ok {word : String} {c : Char} (hc : firstChar word = .ok c) :
    ∀ (ws : List String) (i m : Nat) (hm : m < ws.length), Matches word ws[m] →
      (∀ k (hk : k < m), ¬Matches word ws[k] ∧ firstChar ws[k] = .ok c) →
      scan word i ws = .ok (i + m)
  | [], _, _, hm, _, _ => absurd hm (Nat.not_lt_zero _)
  | w :: ws, i, 0, _, hmatch, _ => if_pos hmatch
  | w :: ws, i, m + 1, hm, hmatch, before => by
    obtain ⟨hw, hwc⟩ : ¬Matches word w ∧ firstChar w = .ok c := before 0 (Nat.succ_pos m)
    have rest := scan_eq_ok hc ws (i + 1) m (by simpa using hm) hmatch
      (fun k hk => before (k + 1) (by omega))
    rw [show i + (m + 1) = i + 1 + m by omega, ← rest]
    simp only [scan, if_neg hw, hwc, hc, ok_bind, ne_eq, not_true_eq_false, if_false]

theorem scan_eq_error {word : String} {c : Char} (hc : firstChar word = .ok c) :
    ∀ (ws : List String) (i : Nat), (∀ w ∈ ws, ¬Matches word w ∧ ∃ a, firstChar w = .ok a) →
      scan word i ws = .error (.valueError word)
  | [], _, _ => rfl
  | w :: ws, i, h => by
    obtain ⟨hw, a, ha⟩ := h w (List.mem_cons_self w ws)
    have rest := scan_eq_error hc ws (i + 1) (fun v hv => h v (List.mem_cons_of_mem w hv))
    simp only [scan, if_neg hw, ha, hc, ok_bind]
    split <;> simp [rest]

theorem lookupStart_eq (table : List (String × Nat)) (debug : Bool) (word : String) :
    lookupStart table debug word =
      if debug ∧ ¬(3 ≤ word.length ∧ word.length ≤ 8) then .error .assertionError
      else dictGet table (sliceTo word 2) := by
  unfold lookupStart
  split <;> rfl

theorem lookupStart_error {table : List (String × Nat)} {debug : Bool} {word : String}
    {e : PyExc} (h : lookupStart table debug word = .error e) :
    e = .assertionError ∨ e = .keyError (sliceTo word 2) := by
  rw [lookupStart_eq] at h
  unfold dictGet at h
  split at h
  · exact .inl (Except.error.inj h).symm
  · split at h <;> simp_all

theorem lookupStart_eq_ok {table : List (String × Nat)} {debug : Bool} {word : String}
    {start : Nat} (h : lookupStart table debug word = .ok start) :
    table.lookup (sliceTo word 2) = some start := by
  rw [lookupStart_eq] at h
  unfold dictGet at h
  split at h
  · cases h
  · split at h <;> simp_all

namespace Dictionary

variable (d : Dictionary)

theorem length_bounds_getElem {j : Nat} (hj : j < d.words.length) :
    3 ≤ d.words[j].length ∧ d.words[j].length ≤ 8 :=
  d.wellIndexed.length_bounds _ (List.getElem_mem hj)

/-- Distinct abbreviations leave at most one index that a string can name. -/
theorem index_unique {word : String} {i j : Nat} (hi : i < d.words.length)
    (hj : j < d.words.length) (hmi : Matches word d.words[i]) (hmj : Matches word d.words[j]) :
    i = j :=
  (@List.Nodup.getElem_inj_iff _ _ d.wellIndexed.abbrev_nodup i (by simpa using hi) j
    (by simpa using hj)).mp (by simp only [List.getElem_map, ← hmi.sliceTo_four, hmj.sliceTo_four])

/-- A string that names no word is refused with `ValueError(word)`. -/
theorem getWordIndexIn_of_forall_not_matches {word : String}
    (h : ∀ w ∈ d.words, ¬Matches word w) (debug : Bool) :
    getWordIndexIn d.words d.table debug word = .error (.valueError word) := by
  unfold getWordIndexIn
  split
  · rename_i start hstart
    have hword : 0 < word.length := by
      by_contra hzero
      have hdata : word.data = [] := List.length_eq_zero.mp (Nat.eq_zero_of_not_pos hzero)
      have hempty : sliceTo word 2 = "" := String.ext (by simp [hdata])
      have := lookupStart_eq_ok hstart
      rw [hempty, d.wellIndexed.empty_absent] at this
      cases this
    obtain ⟨c, hc⟩ := firstChar_ok_of_length hword
    refine scan_eq_error hc _ _ fun w hw => ⟨h w (List.mem_of_mem_drop hw), ?_⟩
    have := d.wellIndexed.length_bounds w (List.mem_of_mem_drop hw)
    exact firstChar_ok_of_length (by omega)
  · rfl
  · rfl
  · rename_i e hne₁ hne₂ he
    rcases lookupStart_error he with rfl | rfl
    · exact absurd rfl hne₂
    · exact absurd rfl (hne₁ _)

/-- The first word a string names is found by the scan from the table's start. -/
theorem getWordIndexIn_of_first_match {word : String} {j : Nat} (hj : j < d.words.length)
    (hm : Matches word d.words[j]) (hfirst : ∀ k (hk : k < j), ¬Matches word d.words[k])
    (debug : Bool) : getWordIndexIn d.words d.table debug word = .ok j := by
  obtain ⟨start, hlook, hle, hrun⟩ := d.wellIndexed.run_start j hj
  have hbounds := hm.length_bounds (d.length_bounds_getElem hj)
  have hstart : lookupStart d.table debug word = .ok start := by
    rw [lookupStart_eq, if_neg (fun h => h.2 hbounds), hm.sliceTo_two]
    simp [dictGet, hlook]
  obtain ⟨c, hc⟩ := firstChar_ok_of_length (by omega : 0 < word.length)
  have hjc : firstChar d.words[j] = .ok c := hm.firstChar_eq ▸ hc
  have hscan := scan_eq_ok hc (d.words.drop start) start (j - start) (by simp; omega)
    (by simpa [Nat.add_sub_cancel' hle] using hm)
    (fun k hk => by
      simp only [List.getElem_drop]
      exact ⟨hfirst _ (by omega), (hrun _ (by omega) (by omega)).trans hjc⟩)
  simp only [getWordIndexIn, hstart, hscan, Nat.add_sub_cancel' hle]

/-- The resolver agrees with the search of the whole list on every string. -/
theorem getWordIndexIn_eq_naiveIndex (debug : Bool) (word : String) :
    getWordIndexIn d.words d.table debug word = naiveIndex d.words word := by
  unfold naiveIndex
  split
  · rename_i j hfind
    obtain ⟨hj, hm, hfirst⟩ := List.findIdx?_eq_some_iff_getElem.mp hfind
    exact d.getWordIndexIn_of_first_match hj (by simpa using hm)
      (fun k hk => by simpa using hfirst k hk) debug
  · rename_i hfind
    exact d.getWordIndexIn_of_forall_not_matches
      (fun w hw => by simpa using List.findIdx?_eq_none_iff.mp hfind w hw) debug

end Dictionary

end Bip39
