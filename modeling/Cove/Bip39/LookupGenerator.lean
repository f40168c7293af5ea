import Cove.Bip39.English

/-!
# The generator of `_lookup`

The string literal after `wordlist_en` keeps the loop that built `_lookup`: over
`enumerate(wordlist_en)` it inserts each word's first letter and first two letters,
each only if it is not a key yet. On any list of nonempty words it builds the table
that sends each one- or two-letter string to the first word that begins with it
(`buildLookup_eq`), and `w[0]` raises `IndexError` at an empty word. On every list
whose words have 3 to 8 letters and whose four-letter abbreviations strictly increase
in Python's order on strings, that table makes the list `WellIndexed`, so that
`get_word_index` over the list and its table agrees with the search of the whole list
(`getWordIndexIn_buildLookup`): the table may be regenerated for another sorted list.
Python's order is weaker than the zero-padded numeric code that `checkFrom` certifies
for the English list, which refuses `'abc'` before `'abc\0'`.
-/

namespace Bip39

open Python

/-- The first word of `words` that begins with `k`, for the one- and two-letter keys. -/
def firstWithPrefix (words : List String) (k : String) : Option Nat :=
  if k.length = 1 ∨ k.length = 2 then words.findIdx? fun w => sliceTo w k.length == k else none

/-- `lookup[k] = idx` when `k not in lookup`: a new key goes to the end of the dict. -/
def insertKey (lookup : List (String × Nat)) (k : String) (idx : Nat) : List (String × Nat) :=
  if (lookup.lookup k).isNone then lookup ++ [(k, idx)] else lookup

/-- One round of the generator's loop, on the word `w` at index `idx`; `w[0]` raises
`IndexError` on an empty word. The branch `if 0 and w[0:3] not in lookup` never runs. -/
def insertPrefixes (lookup : List (String × Nat)) :
    Nat × String → Except PyExc (List (String × Nat))
  | (idx, w) => do
    let c ← firstChar w
    pure (insertKey (insertKey lookup (String.singleton c) idx) (sliceTo w 2) idx)

/-- The generator kept in the string literal after `wordlist_en`: the dict `lookup` it
builds and prints as `_lookup`. -/
def buildLookup (words : List String) : Except PyExc (List (String × Nat)) :=
  words.enum.foldlM insertPrefixes []

theorem lookup_insertKey (t : List (String × Nat)) (k k' : String) (v : Nat) :
    (insertKey t k v).lookup k' = (t.lookup k').or (if k' = k then some v else none) := by
  unfold insertKey
  split
  · rw [List.lookup_append]
    by_cases h : k' = k
    · simp [List.lookup, h]
    · simp [List.lookup, h, beq_false_of_ne h]
  · rename_i hk
    by_cases h : k' = k
    · subst h
      cases hl : t.lookup k' with
      | none => simp [hl] at hk
      | some v' => rfl
    · simp [h]

/-- The first word with a given prefix, in a list extended by one word. -/
theorem firstWithPrefix_append_singleton (pre : List String) (w k : String) :
    firstWithPrefix (pre ++ [w]) k = (firstWithPrefix pre k).or
      (if (k.length = 1 ∨ k.length = 2) ∧ sliceTo w k.length = k then some pre.length
        else none) := by
  unfold firstWithPrefix
  split
  · rw [List.findIdx?_append]
    by_cases h : sliceTo w k.length = k <;> simp [*]
  · simp [*]

theorem sliceTo_length_sliceTo (w : String) (n : Nat) :
    sliceTo w (sliceTo w n).length = sliceTo w n :=
  congrArg String.mk (by
    show w.data.take (w.data.take n).length = w.data.take n
    rw [List.length_take]
    rcases Nat.le_total n w.data.length with h | h
    · rw [Nat.min_eq_left h]
    · rw [Nat.min_eq_right h, List.take_length, List.take_of_length_le h])

/-- What the two insertions of a round add at a key: the word's index, when the key is a
one- or two-letter prefix of the word. -/
theorem prefixEntry_eq {w k : String} (hw : w ≠ "") (n : Nat) :
    (if k = sliceTo w 1 then some n else none).or (if k = sliceTo w 2 then some n else none) =
      if (k.length = 1 ∨ k.length = 2) ∧ sliceTo w k.length = k then some n else none := by
  have hpos : 0 < w.length := by
    rcases w with ⟨_ | ⟨c, cs⟩⟩
    · exact absurd rfl hw
    · exact Nat.succ_pos _
  by_cases h1 : k = sliceTo w 1
  · subst h1
    rw [if_pos rfl, if_pos (show _ ∧ _ from
      ⟨.inl (by rw [length_sliceTo]; omega), sliceTo_length_sliceTo w 1⟩)]
    rfl
  · by_cases h2 : k = sliceTo w 2
    · subst h2
      rw [if_neg h1, if_pos rfl, if_pos (show _ ∧ _ from
        ⟨by rw [length_sliceTo]; omega, sliceTo_length_sliceTo w 2⟩)]
      rfl
    · rw [if_neg h1, if_neg h2, if_neg]
      · rfl
      · rintro ⟨hl | hl, he⟩
        · rw [hl] at he; exact h1 he.symm
        · rw [hl] at he; exact h2 he.symm

/-- A round on a nonempty word inserts its first letter and its first two letters. -/
theorem insertPrefixes_of_ne {w : String} (hw : w ≠ "") (lookup : List (String × Nat))
    (idx : Nat) : insertPrefixes lookup (idx, w) =
      .ok (insertKey (insertKey lookup (sliceTo w 1) idx) (sliceTo w 2) idx) := by
  rcases w with ⟨_ | ⟨c, cs⟩⟩
  · exact absurd rfl hw
  · rfl

/-- After a round on `w`, the table gives for every key the first word of `pre ++ [w]`
that begins with it. -/
theorem lookup_insertPrefixes {w : String} (hw : w ≠ "") {lookup : List (String × Nat)}
    {pre : List String} (hl : ∀ k, lookup.lookup k = firstWithPrefix pre k) (k : String) :
    (insertKey (insertKey lookup (sliceTo w 1) pre.length) (sliceTo w 2) pre.length).lookup k =
      firstWithPrefix (pre ++ [w]) k := by
  rw [lookup_insertKey, lookup_insertKey, hl, firstWithPrefix_append_singleton, Option.or_assoc,
    prefixEntry_eq hw]

theorem foldlM_insertPrefixes : ∀ (ws pre : List String) (acc : List (String × Nat)),
    "" ∉ ws → (∀ k, acc.lookup k = firstWithPrefix pre k) →
      ∃ t, (ws.enumFrom pre.length).foldlM insertPrefixes acc = .ok t ∧
        ∀ k, t.lookup k = firstWithPrefix (pre ++ ws) k
  | [], _, acc, _, hacc => ⟨acc, rfl, by simpa using hacc⟩
  | w :: ws, pre, acc, hne, hacc => by
    have hw : w ≠ "" := fun h => hne (h ▸ List.mem_cons_self w ws)
    obtain ⟨t, ht, hlk⟩ := foldlM_insertPrefixes ws (pre ++ [w]) _
      (fun h => hne (List.mem_cons_of_mem w h)) (lookup_insertPrefixes hw hacc)
    refine ⟨t, ?_, by simpa using hlk⟩
    rw [List.enumFrom_cons, List.foldlM_cons, insertPrefixes_of_ne hw, ok_bind]
    simpa using ht

theorem foldlM_insertPrefixes_error : ∀ (ws : List String) (n : Nat) (acc : List (String × Nat)),
    "" ∈ ws → (ws.enumFrom n).foldlM insertPrefixes acc = .error .indexError
  | [], _, _, h => absurd h (List.not_mem_nil _)
  | w :: ws, n, acc, h => by
    rw [List.enumFrom_cons, List.foldlM_cons]
    by_cases hw : w = ""
    · subst hw
      rfl
    · rw [insertPrefixes_of_ne hw, ok_bind]
      exact foldlM_insertPrefixes_error ws (n + 1) _ (List.mem_of_ne_of_mem (Ne.symm hw) h)

theorem firstWithPrefix_nil (k : String) : firstWithPrefix [] k = none := by
  unfold firstWithPrefix
  split <;> rfl

theorem buildLookup_ok {words : List String} (h : "" ∉ words) :
    ∃ table, buildLookup words = .ok table ∧ ∀ k, table.lookup k = firstWithPrefix words k :=
  foldlM_insertPrefixes words [] [] h fun k => (firstWithPrefix_nil k).symm

/-- The generator sends each one- or two-letter string to the first word that begins with
it, and has no other key; on a list with an empty word, `w[0]` raises `IndexError`. -/
theorem buildLookup_eq (words : List String) :
    ("" ∈ words → buildLookup words = .error .indexError) ∧
      ("" ∉ words → ∃ table, buildLookup words = .ok table ∧
        ∀ k, table.lookup k = firstWithPrefix words k) :=
  ⟨foldlM_insertPrefixes_error words 0 [], buildLookup_ok⟩

/-! ### Sorted lists -/

section Sorted

variable {words : List String} (hlen : ∀ w ∈ words, 3 ≤ w.length ∧ w.length ≤ 8)
  (hsorted : (words.map (sliceTo · 4)).Chain' (· < ·))
include hsorted

/-- Along a sorted list the abbreviations do not decrease. -/
theorem sliceTo_le_of_le {a b : Nat} (ha : a < words.length) (hb : b < words.length)
    (hab : a ≤ b) : sliceTo words[a] 4 ≤ sliceTo words[b] 4 := by
  rcases Nat.lt_or_eq_of_le hab with hlt | rfl
  · have := List.pairwise_iff_getElem.mp (List.chain'_iff_pairwise.mp hsorted) a b
      (by simpa using ha) (by simpa using hb) hlt
    simpa using this.le
  · exact le_rfl

include hlen

/-- In a sorted list a word between two words with one first letter has that letter too:
the first letter of a word is the first letter of its abbreviation, and Python's order
compares first letters first. -/
theorem firstChar_between {s m j : Nat} (hsm : s ≤ m) (hmj : m ≤ j) (hj : j < words.length)
    (hsj : firstChar words[s] = firstChar words[j]) :
    firstChar words[m] = firstChar words[j] := by
  have hchar : ∀ i (hi : i < words.length),
      ∃ c, firstChar words[i] = .ok c ∧ firstChar (sliceTo words[i] 4) = .ok c := by
    intro i hi
    have hb := hlen _ (List.getElem_mem hi)
    obtain ⟨c, hc⟩ := firstChar_ok_of_length (show 0 < words[i].length by omega)
    exact ⟨c, hc, (firstChar_sliceTo _ (by omega)).trans hc⟩
  obtain ⟨cs, hs, hs4⟩ := hchar s (by omega)
  obtain ⟨cm, hm, hm4⟩ := hchar m (by omega)
  obtain ⟨cj, hj', hj4⟩ := hchar j hj
  have hle₁ : cs ≤ cm := firstChar_le_of_le hs4 hm4 (sliceTo_le_of_le hsorted _ _ hsm)
  have hle₂ : cm ≤ cj := firstChar_le_of_le hm4 hj4 (sliceTo_le_of_le hsorted _ hj hmj)
  rw [hs, hj', Except.ok.injEq] at hsj
  rw [hm, hj', le_antisymm hle₂ (hsj ▸ hle₁)]

/-- A table that gives the first word with each one- or two-letter prefix makes a sorted
list well indexed. -/
theorem wellIndexed_of_lookup {table : List (String × Nat)}
    (htab : ∀ k, table.lookup k = firstWithPrefix words k) : WellIndexed words table where
  length_bounds := hlen
  abbrev_nodup := (List.chain'_iff_pairwise.mp hsorted).nodup
  run_start j hj := by
    have hb := hlen _ (List.getElem_mem hj)
    have hk : (sliceTo words[j] 2).length = 2 := by rw [length_sliceTo]; omega
    have hsome : (words.findIdx? fun w => sliceTo w 2 == sliceTo words[j] 2).isSome := by
      rw [List.findIdx?_isSome, List.any_eq_true]
      exact ⟨words[j], List.getElem_mem hj, beq_self_eq_true _⟩
    obtain ⟨s, hs⟩ := Option.isSome_iff_exists.mp hsome
    obtain ⟨hsl, hsj, hbefore⟩ := List.findIdx?_eq_some_iff_getElem.mp hs
    have hle : s ≤ j := Nat.le_of_not_lt fun hlt => by simpa using hbefore j hlt
    have hfirst : firstChar words[s] = firstChar words[j] := by
      rw [← firstChar_sliceTo _ Nat.two_pos, beq_iff_eq.mp hsj, firstChar_sliceTo _ Nat.two_pos]
    refine ⟨s, ?_, hle, fun m hm hsm => firstChar_between hlen hsorted hsm hm hj hfirst⟩
    rw [htab, firstWithPrefix, if_pos (.inr hk), hk, hs]
  empty_absent := by rw [htab]; rfl

end Sorted

/-- For every word list whose words have 3 to 8 letters and whose four-letter
abbreviations strictly increase in Python's order on strings, the generator builds a
table, and `get_word_index` over the list and that table agrees with the search of the
whole list on every string, with the `assert` or without it: the table may be
regenerated for another sorted list. -/
theorem getWordIndexIn_buildLookup (words : List String)
    (hlen : ∀ w ∈ words, 3 ≤ w.length ∧ w.length ≤ 8)
    (hsorted : (words.map (sliceTo · 4)).Chain' (· < ·)) :
    ∃ table, buildLookup words = .ok table ∧
      ∀ debug s, getWordIndexIn words table debug s = naiveIndex words s := by
  have hne : "" ∉ words := fun hw => by simpa using hlen _ hw
  obtain ⟨table, ht, hlk⟩ := buildLookup_ok hne
  let d : Dictionary := ⟨words, table, wellIndexed_of_lookup hlen hsorted hlk⟩
  exact ⟨table, ht, d.getWordIndexIn_eq_naiveIndex⟩

theorem getWordIndexIn_buildLookup_nul :
    (∀ w ∈ ["abc", "abc\x00", "able", "zoo"], 3 ≤ w.length ∧ w.length ≤ 8) ∧
      (["abc", "abc\x00", "able", "zoo"].map (sliceTo · 4)).Chain' (· < ·) ∧
      ∃ table, buildLookup ["abc", "abc\x00", "able", "zoo"] = .ok table ∧
        ∀ debug s, getWordIndexIn ["abc", "abc\x00", "able", "zoo"] table debug s =
          naiveIndex ["abc", "abc\x00", "able", "zoo"] s := by
  have hlen : ∀ w ∈ ["abc", "abc\x00", "able", "zoo"], 3 ≤ w.length ∧ w.length ≤ 8 := by
    decide
  have hsorted : (["abc", "abc\x00", "able", "zoo"].map (sliceTo · 4)).Chain' (· < ·) := by
    simp only [List.map, List.chain'_cons, List.chain'_singleton, String.lt_iff_toList_lt,
      and_true]
    decide
  exact ⟨hlen, hsorted, getWordIndexIn_buildLookup _ hlen hsorted⟩

end Bip39
