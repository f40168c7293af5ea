import Cove.Bip39.Resolver

/-!
# The English constants satisfy `WellIndexed`

Two walks over `wordlist_en` certify what the resolver needs of the data. `checkFrom`
checks each word's length and that the numeric codes of the four-letter abbreviations
strictly increase. `tableFrom` rebuilds `_lookup` as the generator kept in the source
builds it: each one- and two-letter prefix, at the first word that has it, in order.
`decide` runs both walks one block of 256 words at a time, so that each block's
evaluation is a declaration of its own, and checks that the codes of the table's keys
strictly increase, so that no key is repeated.

From the rebuilt table every word lies in a run of its two-letter prefix that starts
where the table points (`run_start_of_tableFrom`), which with the lengths and the
distinct abbreviations is `WellIndexed wordlistEn lookup` (`wellIndexed_english`).
-/

namespace Bip39

open Python

/-- A numeric code of a string's first code points, padded with zeros to four. -/
def abbrevCode (s : String) : Nat :=
  ((s.data.map Char.toNat ++ [0, 0, 0, 0]).take 4).foldl (fun acc d => acc * 0x110000 + d) 0

/-- The length bounds of `w`, and its abbreviation's code above `prev`'s. -/
def wordCheck (prev : Option String) (w : String) : Bool :=
  (3 ≤ w.length && w.length ≤ 8) &&
    prev.all (fun p => abbrevCode (sliceTo p 4) < abbrevCode (sliceTo w 4))

/-- `wordCheck` on every word of `ws`, each after the one before it. -/
def checkFrom : Option String → List String → Bool
  | _, [] => true
  | prev, w :: ws => wordCheck prev w && checkFrom (some w) ws

/-- The codes of consecutive keys strictly increase. -/
def keysAscend : List String → Bool
  | k :: k' :: ks => abbrevCode k < abbrevCode k' && keysAscend (k' :: ks)
  | _ => true

/-- The entries the table gains at the word `w` of index `j` after the word `prev`: its
one- and two-letter prefixes, each where it differs from `prev`'s. -/
def newEntries (prev : Option String) (j : Nat) (w : String) : List (String × Nat) :=
  ([1, 2].filter fun n => prev.map (sliceTo · n) != some (sliceTo w n)).map
    fun n => (sliceTo w n, j)

/-- The prefix table of the words `ws`, the first at index `j` after the word `prev`. -/
def tableFrom : Option String → Nat → List String → List (String × Nat)
  | _, _, [] => []
  | prev, j, w :: ws => newEntries prev j w ++ tableFrom (some w) (j + 1) ws

theorem checkFrom_append {prev : Option String} {l₁ l₂ : List String}
    (h₁ : checkFrom prev l₁ = true) (hne : l₁ ≠ []) (h₂ : checkFrom l₁.getLast? l₂ = true) :
    checkFrom prev (l₁ ++ l₂) = true := by
  induction l₁ generalizing prev with
  | nil => exact absurd rfl hne
  | cons w ws ih =>
    simp only [checkFrom, Bool.and_eq_true] at h₁ ⊢
    refine ⟨h₁.1, ?_⟩
    cases ws with
    | nil => simpa using h₂
    | cons v vs => exact ih h₁.2 (List.cons_ne_nil v vs) (by simpa using h₂)

theorem tableFrom_append {prev : Option String} {j j' : Nat} {l₁ l₂ : List String}
    {t₁ t₂ : List (String × Nat)} (h₁ : tableFrom prev j l₁ = t₁) (hne : l₁ ≠ [])
    (hlen : j + l₁.length = j') (h₂ : tableFrom l₁.getLast? j' l₂ = t₂) :
    tableFrom prev j (l₁ ++ l₂) = t₁ ++ t₂ := by
  subst h₁ h₂ hlen
  induction l₁ generalizing prev j with
  | nil => exact absurd rfl hne
  | cons w ws ih =>
    cases ws with
    | nil => simp [tableFrom]
    | cons v vs =>
      rw [List.cons_append, tableFrom, tableFrom, List.append_assoc,
        ih (List.cons_ne_nil v vs)]
      simp [Nat.add_assoc, Nat.add_comm 1]

theorem wordCheck_getElem {prev : Option String} {ws : List String}
    (h : checkFrom prev ws = true) (m : Nat) (hm : m < ws.length) :
    wordCheck ((prev :: ws.map some).getD m none) ws[m] = true := by
  induction ws generalizing prev m with
  | nil => exact absurd hm (Nat.not_lt_zero m)
  | cons w ws ih =>
    simp only [checkFrom, Bool.and_eq_true] at h
    cases m with
    | zero => exact h.1
    | succ m =>
      have := ih h.2 m (by simpa using hm)
      cases m <;> simpa using this

theorem chain'_abbrevCode {prev : Option String} {ws : List String}
    (h : checkFrom prev ws = true) :
    ((prev.toList ++ ws).map fun w => abbrevCode (sliceTo w 4)).Chain' (· < ·) := by
  induction ws generalizing prev with
  | nil => cases prev <;> simp
  | cons w ws ih =>
    simp only [checkFrom, wordCheck, Bool.and_eq_true] at h
    have rest := ih h.2
    cases prev with
    | none => simpa using rest
    | some p => simpa using List.Chain'.cons (by simpa using h.1.2) rest

theorem chain'_of_keysAscend : ∀ {ks : List String}, keysAscend ks = true →
    (ks.map abbrevCode).Chain' (· < ·)
  | [], _ => List.chain'_nil
  | [_], _ => List.chain'_singleton _
  | _ :: _ :: _, h => by
    simp only [keysAscend, Bool.and_eq_true, decide_eq_true_eq] at h
    exact List.Chain'.cons h.1 (chain'_of_keysAscend h.2)

theorem nodup_of_keysAscend {ks : List String} (h : keysAscend ks = true) : ks.Nodup :=
  List.Nodup.of_map abbrevCode (List.chain'_iff_pairwise.mp (chain'_of_keysAscend h)).nodup

theorem mem_newEntries {prev : Option String} {j : Nat} {w k : String} {v : Nat} :
    (k, v) ∈ newEntries prev j w ↔
      v = j ∧ ∃ n ∈ [1, 2], prev.map (sliceTo · n) ≠ some (sliceTo w n) ∧ k = sliceTo w n := by
  simp only [newEntries, List.mem_map, List.mem_filter, bne_iff_ne, ne_eq, Prod.mk.injEq]
  constructor
  · rintro ⟨n, ⟨hn, hne⟩, rfl, rfl⟩
    exact ⟨rfl, n, hn, hne, rfl⟩
  · rintro ⟨rfl, n, hn, hne, rfl⟩
    exact ⟨n, ⟨hn, hne⟩, rfl, rfl⟩

/-- Every entry of the table is a one- or two-letter prefix of a word, at its index. -/
theorem mem_tableFrom {prev : Option String} {j : Nat} {ws : List String} {k : String} {v : Nat}
    (h : (k, v) ∈ tableFrom prev j ws) :
    ∃ m, ∃ hm : m < ws.length, v = j + m ∧ ∃ n ∈ [1, 2], k = sliceTo ws[m] n := by
  induction ws generalizing prev j with
  | nil => nomatch h
  | cons w ws ih =>
    rcases List.mem_append.mp h with h | h
    · obtain ⟨rfl, n, hn, -, rfl⟩ := mem_newEntries.mp h
      exact ⟨0, Nat.succ_pos _, rfl, n, hn, rfl⟩
    · obtain ⟨m, hm, rfl, n, hn, rfl⟩ := ih h
      exact ⟨m + 1, Nat.succ_lt_succ hm, by omega, n, hn, rfl⟩

/-- A word whose `n`-letter prefix differs from the word before it adds that prefix. -/
theorem mem_tableFrom_of_ne {prev : Option String} {j : Nat} {ws : List String} {m n : Nat}
    (hm : m < ws.length) (hn : n ∈ [1, 2])
    (hne : ((prev :: ws.map some).getD m none).map (sliceTo · n) ≠ some (sliceTo ws[m] n)) :
    (sliceTo ws[m] n, j + m) ∈ tableFrom prev j ws := by
  induction ws generalizing prev j m with
  | nil => exact absurd hm (Nat.not_lt_zero m)
  | cons w ws ih =>
    refine List.mem_append.mpr ?_
    cases m with
    | zero => exact .inl (mem_newEntries.mpr ⟨rfl, n, hn, hne, rfl⟩)
    | succ m =>
      have hm' : m < ws.length := Nat.lt_of_succ_lt_succ hm
      have : (sliceTo ws[m] n, j + 1 + m) ∈ tableFrom (some w) (j + 1) ws :=
        ih hm' (by simpa using hne)
      exact .inr (by rwa [Nat.add_assoc, Nat.add_comm 1] at this)

theorem length_bounds_of_checkFrom {words : List String} (h : checkFrom none words = true) :
    ∀ w ∈ words, 3 ≤ w.length ∧ w.length ≤ 8 := by
  intro w hw
  obtain ⟨m, hm, rfl⟩ := List.getElem_of_mem hw
  have := wordCheck_getElem h m hm
  simp only [wordCheck, Bool.and_eq_true, decide_eq_true_eq] at this
  exact this.1

theorem lookup_eq_some_of_mem {table : List (String × Nat)} (hnd : (table.map Prod.fst).Nodup)
    {k : String} {v : Nat} (h : (k, v) ∈ table) : table.lookup k = some v := by
  induction table with
  | nil => nomatch h
  | cons e table ih =>
    obtain ⟨k', v'⟩ := e
    rw [List.map_cons, List.nodup_cons] at hnd
    rcases List.mem_cons.mp h with heq | hmem
    · cases heq
      exact List.lookup_cons_self
    · have hne : k ≠ k' := by
        rintro rfl
        have := List.mem_map_of_mem Prod.fst hmem
        exact hnd.1 this
      simp only [List.lookup_cons, beq_false_of_ne hne, ih hnd.2 hmem]

theorem mem_of_lookup_eq_some {table : List (String × Nat)} {k : String} {v : Nat}
    (h : table.lookup k = some v) : (k, v) ∈ table := by
  obtain ⟨l₁, l₂, rfl, -⟩ := List.lookup_eq_some_iff.mp h
  simp

section Table

variable {words : List String} {table : List (String × Nat)}

/-- Every index lies in a run of one `n`-letter prefix, whose start the table records. -/
theorem exists_run_start {n : Nat} (hn : n ∈ [1, 2]) {i : Nat} (hi : i < words.length) :
    ∃ s ≤ i, (sliceTo words[i] n, s) ∈ tableFrom none 0 words ∧
      ∀ m (hm : m ≤ i), s ≤ m → sliceTo words[m] n = sliceTo words[i] n := by
  induction i with
  | zero =>
    have h0 : (sliceTo words[0] n, 0 + 0) ∈ tableFrom none 0 words :=
      mem_tableFrom_of_ne hi hn (by simp)
    exact ⟨0, le_rfl, h0, fun m hm _ => by simp only [Nat.le_zero.mp hm]⟩
  | succ i ih =>
    by_cases hp : sliceTo words[i] n = sliceTo words[i + 1] n
    · obtain ⟨s, hs, hmem, hrun⟩ := ih (by omega)
      refine ⟨s, by omega, hp ▸ hmem, fun m hm hsm => ?_⟩
      rcases Nat.lt_or_ge m (i + 1) with hlt | hge
      · exact (hrun m (by omega) hsm).trans hp
      · simp only [show m = i + 1 by omega]
    · have h1 : (sliceTo words[i + 1] n, 0 + (i + 1)) ∈ tableFrom none 0 words :=
        mem_tableFrom_of_ne hi hn (by simpa [List.getElem?_eq_getElem (Nat.lt_of_succ_lt hi)])
      exact ⟨i + 1, le_rfl, by simpa using h1, fun m hm hsm => by
        simp only [show m = i + 1 by omega]⟩

variable (htab : tableFrom none 0 words = table) (hnd : (table.map Prod.fst).Nodup)
include htab hnd

/-- The table sends the two-letter prefix of each word to the start of its run. -/
theorem run_start_of_tableFrom (j : Nat) (hj : j < words.length) :
    ∃ start, table.lookup (sliceTo words[j] 2) = some start ∧ start ≤ j ∧
      ∀ m (hm : m ≤ j), start ≤ m → firstChar words[m] = firstChar words[j] := by
  obtain ⟨s, hs, hmem, hrun⟩ := exists_run_start (by decide : 2 ∈ [1, 2]) hj
  refine ⟨s, lookup_eq_some_of_mem hnd (htab ▸ hmem), hs, fun m hm hsm => ?_⟩
  rw [← firstChar_sliceTo _ Nat.zero_lt_two, hrun m hm hsm, firstChar_sliceTo _ Nat.zero_lt_two]

end Table

theorem wellIndexed_of_certificate {words : List String} {table : List (String × Nat)}
    (hcheck : checkFrom none words = true) (htab : tableFrom none 0 words = table)
    (hkeys : keysAscend (table.map Prod.fst) = true) : WellIndexed words table where
  length_bounds := length_bounds_of_checkFrom hcheck
  abbrev_nodup := by
    have hchain : ((words.map (sliceTo · 4)).map abbrevCode).Chain' (· < ·) := by
      simpa using chain'_abbrevCode hcheck
    exact List.Nodup.of_map abbrevCode (List.chain'_iff_pairwise.mp hchain).nodup
  run_start := run_start_of_tableFrom htab (nodup_of_keysAscend hkeys)
  empty_absent := by
    cases h : table.lookup "" with
    | none => rfl
    | some v =>
      obtain ⟨m, hm, -, n, hn, hk⟩ := mem_tableFrom (htab ▸ mem_of_lookup_eq_some h)
      have hb := length_bounds_of_checkFrom hcheck _ (List.getElem_mem hm)
      have hl := congrArg String.length hk
      simp only [List.mem_cons, List.mem_singleton, List.not_mem_nil, or_false] at hn
      rw [length_sliceTo] at hl
      change 0 = _ at hl
      omega

set_option maxRecDepth 4000 in
theorem block0_certified : checkFrom none block0 = true ∧
    tableFrom none 0 block0 = lookup.take 30 := by decide

set_option maxRecDepth 4000 in
theorem block1_certified : checkFrom block0.getLast? block1 = true ∧
    tableFrom block0.getLast? 256 block1 = (lookup.drop 30).take 12 := by decide

set_option maxRecDepth 4000 in
theorem block2_certified : checkFrom block1.getLast? block2 = true ∧
    tableFrom block1.getLast? 512 block2 = (lookup.drop 42).take 33 := by decide

set_option maxRecDepth 4000 in
theorem block3_certified : checkFrom block2.getLast? block3 = true ∧
    tableFrom block2.getLast? 768 block3 = (lookup.drop 75).take 39 := by decide

set_option maxRecDepth 4000 in
theorem block4_certified : checkFrom block3.getLast? block4 = true ∧
    tableFrom block3.getLast? 1024 block4 = (lookup.drop 114).take 40 := by decide

set_option maxRecDepth 4000 in
theorem block5_certified : checkFrom block4.getLast? block5 = true ∧
    tableFrom block4.getLast? 1280 block5 = (lookup.drop 154).take 19 := by decide

set_option maxRecDepth 4000 in
theorem block6_certified : checkFrom block5.getLast? block6 = true ∧
    tableFrom block5.getLast? 1536 block6 = (lookup.drop 173).take 19 := by decide

set_option maxRecDepth 4000 in
theorem block7_certified : checkFrom block6.getLast? block7 = true ∧
    tableFrom block6.getLast? 1792 block7 = lookup.drop 192 := by decide

set_option maxRecDepth 20000 in
theorem checkFrom_wordlistEn : checkFrom none wordlistEn = true := by
  simp only [wordlistEn, List.append_assoc]
  exact checkFrom_append block0_certified.1 (by decide) <|
    checkFrom_append block1_certified.1 (by decide) <|
    checkFrom_append block2_certified.1 (by decide) <|
    checkFrom_append block3_certified.1 (by decide) <|
    checkFrom_append block4_certified.1 (by decide) <|
    checkFrom_append block5_certified.1 (by decide) <|
    checkFrom_append block6_certified.1 (by decide) block7_certified.1

set_option maxRecDepth 20000 in
theorem tableFrom_wordlistEn : tableFrom none 0 wordlistEn = lookup := by
  simp only [wordlistEn, List.append_assoc]
  rw [tableFrom_append block0_certified.2 (by decide) (by decide) <|
    tableFrom_append block1_certified.2 (by decide) (by decide) <|
    tableFrom_append block2_certified.2 (by decide) (by decide) <|
    tableFrom_append block3_certified.2 (by decide) (by decide) <|
    tableFrom_append block4_certified.2 (by decide) (by decide) <|
    tableFrom_append block5_certified.2 (by decide) (by decide) <|
    tableFrom_append block6_certified.2 (by decide) (by decide) block7_certified.2]
  decide

theorem keysAscend_lookup : keysAscend (lookup.map Prod.fst) = true := by decide

theorem wellIndexed_english : WellIndexed wordlistEn lookup :=
  wellIndexed_of_certificate checkFrom_wordlistEn tableFrom_wordlistEn keysAscend_lookup

/-- The English word list with `_lookup`. -/
def english : Dictionary := ⟨wordlistEn, lookup, wellIndexed_english⟩

set_option maxRecDepth 4000 in
theorem length_wordlistEn : wordlistEn.length = 2048 := by
  simp only [wordlistEn, List.length_append]
  rfl

end Bip39
