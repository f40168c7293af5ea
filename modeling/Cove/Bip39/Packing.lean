import Cove.Bip39.WordIndex

/-!
# Phrase packing: `_split_lookup`

`_split_lookup` resolves the tokens in order and appends each index to an
integer as an 11-bit field, most significant first. The loop is `packIndices`
run over the resolved indices; below `2 ^ 11` each step is `rv * 2 ^ 11 + idx`,
so the result is the base-`2 ^ 11` numeral of the index list: it is below
`2 ^ (11 * n)`, each field is read back by a shift and a mask, and two lists of
one length pack to one integer only when they are equal. A token that does not
resolve stops the loop with its `ValueError`. On phrases of dictionary words the
packing is a bijection onto the integers below `2 ^ (11 * n)`.
-/

namespace Bip39

open Python

/-- The argument of `_split_lookup`: a `str`, or any other sequence of tokens. -/
inductive Phrase where
  | str (s : String)
  | seq (tokens : List String)

/-- `phrase.split()` for a `str`, the tokens themselves otherwise. -/
def Phrase.words : Phrase → List String
  | .str s => strSplit s
  | .seq tokens => tokens

/-- `rv = (rv << 11) | idx`. -/
def packStep (rv idx : Nat) : Nat := (rv <<< 11) ||| idx

/-- `_split_lookup(phrase)`: the number of tokens and their packed indices. -/
def splitLookup (debug : Bool) (phrase : Phrase) : Except PyExc (Nat × Nat) := do
  let words := phrase.words
  let rv ← words.foldlM (fun rv w => do
    let idx ← getWordIndex debug w
    pure (packStep rv idx)) 0
  pure (words.length, rv)

/-- The loop of `_split_lookup` on indices already resolved. -/
def packIndices (ids : List Nat) : Nat := ids.foldl packStep 0

theorem packStep_eq {idx : Nat} (rv : Nat) (h : idx < 2 ^ 11) :
    packStep rv idx = rv * 2 ^ 11 + idx :=
  shiftLeft_or_of_lt rv h

theorem foldlM_packStep (f : String → Except PyExc Nat) :
    ∀ (t : List String) (acc : Nat),
      t.foldlM (fun rv w => do let idx ← f w; pure (packStep rv idx)) acc =
        (t.mapM f).map (·.foldl packStep acc)
  | [], _ => rfl
  | w :: t, acc => by
    simp only [List.foldlM_cons, List.mapM_cons]
    cases f w with
    | error e => rfl
    | ok i =>
      have ih := foldlM_packStep f t (packStep acc i)
      simp only [ok_bind, pure_eq_ok] at ih ⊢
      rw [ih]
      cases t.mapM f <;> rfl

theorem splitLookup_seq (debug : Bool) (t : List String) :
    splitLookup debug (.seq t) =
      (t.mapM (getWordIndex debug)).map fun ids => (t.length, packIndices ids) := by
  simp only [splitLookup, Phrase.words, foldlM_packStep, packIndices]
  cases t.mapM (getWordIndex debug) <;> rfl

section Numeral

variable {ids : List Nat}

theorem foldl_packStep (h : ∀ i ∈ ids, i < 2 ^ 11) (acc : Nat) :
    ids.foldl packStep acc = acc * 2 ^ (11 * ids.length) + packIndices ids := by
  induction ids generalizing acc with
  | nil => simp [packIndices]
  | cons i is ih =>
    have hi : i < 2 ^ 11 := h i (List.mem_cons_self i is)
    have his := ih fun j hj => h j (List.mem_cons_of_mem i hj)
    show is.foldl packStep (packStep acc i) = _ + is.foldl packStep (packStep 0 i)
    rw [his, his, packStep_eq _ hi, packStep_eq 0 hi, List.length_cons]
    ring

theorem packIndices_cons {i : Nat} (h : ∀ j ∈ i :: ids, j < 2 ^ 11) :
    packIndices (i :: ids) = i * 2 ^ (11 * ids.length) + packIndices ids := by
  show ids.foldl packStep (packStep 0 i) = _
  rw [foldl_packStep (fun j hj => h j (List.mem_cons_of_mem i hj)),
    packStep_eq 0 (h i (List.mem_cons_self i ids)), Nat.zero_mul, Nat.zero_add]

theorem packIndices_lt (h : ∀ i ∈ ids, i < 2 ^ 11) : packIndices ids < 2 ^ (11 * ids.length) := by
  induction ids with
  | nil => simp [packIndices]
  | cons i is ih =>
    have hi := h i (List.mem_cons_self i is)
    have hlt := ih fun j hj => h j (List.mem_cons_of_mem i hj)
    rw [packIndices_cons h]
    calc i * 2 ^ (11 * is.length) + packIndices is < (i + 1) * 2 ^ (11 * is.length) := by
          rw [Nat.succ_mul i]; exact Nat.add_lt_add_left hlt _
      _ ≤ 2 ^ 11 * 2 ^ (11 * is.length) := Nat.mul_le_mul_right _ hi
      _ = 2 ^ (11 * (i :: is).length) := by rw [← Nat.pow_add, List.length_cons]; ring_nf

theorem packIndices_eq_sum (h : ∀ i ∈ ids, i < 2 ^ 11) :
    packIndices ids = ∑ k : Fin ids.length, ids[k] * 2 ^ (11 * (ids.length - 1 - k)) := by
  induction ids with
  | nil => simp [packIndices]
  | cons i is ih =>
    rw [packIndices_cons h, ih fun j hj => h j (List.mem_cons_of_mem i hj)]
    erw [Fin.sum_univ_succ]
    simp only [List.length_cons, Fin.val_zero, Fin.val_succ, List.getElem_cons_zero,
      List.getElem_cons_succ, Nat.add_sub_cancel, Nat.sub_zero]
    congr 1
    refine Finset.sum_congr rfl fun k _ => ?_
    congr 3
    omega

/-- The 11-bit field `k` of a packed list, read back by a shift and a mask. -/
theorem packIndices_field (h : ∀ i ∈ ids, i < 2 ^ 11) (k : Nat) (hk : k < ids.length) :
    (packIndices ids >>> (11 * (ids.length - 1 - k))) &&& 0x7FF = ids[k] := by
  rw [Nat.shiftRight_eq_div_pow, show (0x7FF : Nat) = 2 ^ 11 - 1 from rfl,
    Nat.and_pow_two_sub_one_eq_mod]
  induction ids generalizing k with
  | nil => exact absurd hk (Nat.not_lt_zero k)
  | cons i is ih =>
    have hi := h i (List.mem_cons_self i is)
    have his : ∀ j ∈ is, j < 2 ^ 11 := fun j hj => h j (List.mem_cons_of_mem i hj)
    have hlt := packIndices_lt his
    rw [packIndices_cons h]
    cases k with
    | zero =>
      simp only [List.length_cons, Nat.add_sub_cancel, Nat.sub_zero, List.getElem_cons_zero]
      rw [Nat.mul_comm, Nat.mul_add_div (Nat.two_pow_pos _), Nat.div_eq_of_lt hlt, Nat.add_zero,
        Nat.mod_eq_of_lt hi]
    | succ k =>
      have hk' : k < is.length := by simpa using hk
      have hsplit : 11 * is.length = 11 * (k + 1) + 11 * (is.length - 1 - k) := by omega
      simp only [List.length_cons, Nat.add_sub_cancel, List.getElem_cons_succ]
      rw [show is.length - (k + 1) = is.length - 1 - k by omega, hsplit, Nat.pow_add,
        ← Nat.mul_assoc, Nat.add_comm, Nat.add_mul_div_right _ _ (Nat.two_pow_pos _),
        show 11 * (k + 1) = 11 * k + 11 by ring, Nat.pow_add, ← Nat.mul_assoc,
        Nat.add_mul_mod_self_right]
      exact ih his k hk'

theorem packIndices_inj {ids' : List Nat} (h : ∀ i ∈ ids, i < 2 ^ 11)
    (h' : ∀ i ∈ ids', i < 2 ^ 11) (hlen : ids.length = ids'.length)
    (hpack : packIndices ids = packIndices ids') : ids = ids' :=
  List.ext_getElem hlen fun k hk hk' => by
    rw [← packIndices_field h k hk, ← packIndices_field h' k hk', hpack, hlen]

theorem packIndices_append_singleton {j : Nat} (h : j < 2 ^ 11) :
    packIndices (ids ++ [j]) = packIndices ids * 2 ^ 11 + j := by
  rw [packIndices, List.foldl_append, List.foldl_cons, List.foldl_nil, packStep_eq _ h]
  rfl

/-- Every integer below `2 ^ (11 * n)` is the packing of `n` indices. -/
theorem exists_packIndices_eq : ∀ (n v : Nat), v < 2 ^ (11 * n) →
    ∃ ids : List Nat, ids.length = n ∧ (∀ i ∈ ids, i < 2 ^ 11) ∧ packIndices ids = v
  | 0, v, hv => by
    have hv0 : v = 0 := by simpa using hv
    exact ⟨[], rfl, List.forall_mem_nil _, hv0 ▸ rfl⟩
  | n + 1, v, hv => by
    have hdiv : v / 2 ^ 11 < 2 ^ (11 * n) := by
      rwa [Nat.div_lt_iff_lt_mul (Nat.two_pow_pos 11), ← Nat.pow_add]
    obtain ⟨ids, hlen, hlt, hpack⟩ := exists_packIndices_eq n (v / 2 ^ 11) hdiv
    have hmod : v % 2 ^ 11 < 2 ^ 11 := Nat.mod_lt _ (Nat.two_pow_pos 11)
    refine ⟨ids ++ [v % 2 ^ 11], by simp [hlen], fun i hi => ?_, ?_⟩
    · rcases List.mem_append.mp hi with hi | hi
      · exact hlt i hi
      · exact List.mem_singleton.mp hi ▸ hmod
    · rw [packIndices_append_singleton hmod, hpack, Nat.div_add_mod']

end Numeral

/-! ### Phrases whose tokens resolve -/

variable {debug : Bool}

/-- The tokens of `t` resolve, in order, to the indices `ids`. -/
abbrev Resolves (debug : Bool) (t : List String) (ids : List Nat) : Prop :=
  List.Forall₂ (fun w i => getWordIndex debug w = .ok i) t ids

theorem Resolves.lt {t : List String} {ids : List Nat} (h : Resolves debug t ids) :
    ∀ i ∈ ids, i < 2 ^ 11 := by
  induction h with
  | nil => exact fun _ h => nomatch h
  | cons hw _ ih => exact List.forall_mem_cons.mpr ⟨getWordIndex_lt hw, ih⟩

theorem Resolves.packIndices_lt {t : List String} {ids : List Nat} (h : Resolves debug t ids) :
    packIndices ids < 2 ^ (11 * t.length) :=
  h.length_eq ▸ Bip39.packIndices_lt h.lt

theorem Resolves.getElem {t : List String} {ids : List Nat} (h : Resolves debug t ids) (k : Nat)
    (hk : k < t.length) (hk' : k < ids.length) : getWordIndex debug t[k] = .ok ids[k] :=
  h.get hk hk'

theorem exists_resolves {t : List String} (h : ∀ w ∈ t, ∃ i, getWordIndex debug w = .ok i) :
    ∃ ids, Resolves debug t ids := by
  cases hm : t.mapM (getWordIndex debug) with
  | error e =>
    obtain ⟨w, hw, he⟩ := mapM_eq_error hm
    obtain ⟨i, hi⟩ := h w hw
    exact absurd (he.symm.trans hi) (fun h => nomatch h)
  | ok ids => exact ⟨ids, (mapM_eq_ok_iff t ids).mp hm⟩

theorem splitLookup_seq_of_resolves {t : List String} {ids : List Nat} (h : Resolves debug t ids) :
    splitLookup debug (.seq t) = .ok (t.length, packIndices ids) := by
  rw [splitLookup_seq, (mapM_eq_ok_iff t ids).mpr h]
  rfl

theorem resolves_of_splitLookup_seq {t : List String} {n v : Nat}
    (h : splitLookup debug (.seq t) = .ok (n, v)) :
    ∃ ids, Resolves debug t ids ∧ v = packIndices ids := by
  rw [splitLookup_seq] at h
  cases hm : t.mapM (getWordIndex debug) with
  | error e => rw [hm] at h; nomatch h
  | ok ids =>
    rw [hm] at h
    exact ⟨ids, (mapM_eq_ok_iff t ids).mp hm, (congrArg Prod.snd (Except.ok.inj h)).symm⟩

/-- Two phrases whose tokens pairwise resolve alike give `_split_lookup` one result. -/
theorem splitLookup_seq_congr {t' t : List String}
    (h : List.Forall₂ (fun w' w => getWordIndex debug w' = getWordIndex debug w) t' t) :
    splitLookup debug (.seq t') = splitLookup debug (.seq t) := by
  rw [splitLookup_seq, splitLookup_seq, mapM_eq_of_forall₂ h, h.length_eq]

/-- A token that does not resolve makes `_split_lookup` raise its `ValueError`. -/
theorem splitLookup_seq_of_mapM_error {t : List String} {e : PyExc}
    (h : t.mapM (getWordIndex debug) = .error e) :
    ∃ w ∈ t, getWordIndex debug w = .error (.valueError w) ∧
      splitLookup debug (.seq t) = .error (.valueError w) := by
  obtain ⟨w, hw, he⟩ := mapM_eq_error h
  obtain rfl := getWordIndex_error he
  exact ⟨w, hw, he, by rw [splitLookup_seq, h]; rfl⟩

/-- `_split_lookup` raises the `ValueError` of the first token that does not resolve. -/
theorem splitLookup_first_error {pre post : List String} {w : String}
    (hpre : ∀ v ∈ pre, ∃ i, getWordIndex debug v = .ok i)
    (hw : ∀ i, getWordIndex debug w ≠ .ok i) :
    splitLookup debug (.seq (pre ++ w :: post)) = .error (.valueError w) := by
  obtain ⟨ids, h⟩ := exists_resolves hpre
  have hwe : getWordIndex debug w = .error (.valueError w) := by
    cases hg : getWordIndex debug w with
    | ok i => exact absurd hg (hw i)
    | error e => rw [getWordIndex_error hg]
  rw [splitLookup_seq, List.mapM_append, (mapM_eq_ok_iff pre ids).mpr h, List.mapM_cons, hwe]
  rfl

/-- Two phrases of one length that resolve pack to one integer exactly when their
tokens resolve to the same indices. -/
theorem packIndices_eq_iff {t t' : List String} {ids ids' : List Nat} (hlen : t'.length = t.length)
    (h : Resolves debug t ids) (h' : Resolves debug t' ids') :
    packIndices ids = packIndices ids' ↔ ∀ k (hk : k < t.length) (hk' : k < t'.length),
      getWordIndex debug t[k] = getWordIndex debug t'[k] := by
  have hl := h.length_eq
  have hl' := h'.length_eq
  have hids : ids.length = ids'.length := by omega
  constructor
  · intro hpack k hk hk'
    obtain rfl := packIndices_inj h.lt h'.lt hids hpack
    rw [h.getElem k hk (by omega), h'.getElem k hk' (by omega)]
  · intro hsame
    refine congrArg packIndices (List.ext_getElem hids fun k hk hk' => ?_)
    simpa only [h.getElem k (by omega) hk, h'.getElem k (by omega) hk', Except.ok.injEq] using
      hsame k (by omega) (by omega)

/-- `_split_lookup` is an exact 11-bit big-endian encoding: it raises `ValueError` at a
token that does not resolve, and otherwise returns the number of tokens and the
base-`2 ^ 11` numeral of their indices, each read back by a shift and a mask. Two
phrases of one length pack to one integer only when their tokens resolve alike, and a
`str` is read as its `split()`. -/
theorem splitLookup_encoding (debug : Bool) (t : List String) :
    ((∃ w ∈ t, getWordIndex debug w = .error (.valueError w) ∧
        splitLookup debug (.seq t) = .error (.valueError w)) ∨
      ∃ ids, Resolves debug t ids ∧ ∃ v, splitLookup debug (.seq t) = .ok (t.length, v) ∧
        v = ∑ k : Fin ids.length, ids[k] * 2 ^ (11 * (t.length - 1 - k)) ∧
        v < 2 ^ (11 * t.length) ∧
        ∀ k (hk : k < ids.length), (v >>> (11 * (t.length - 1 - k))) &&& 0x7FF = ids[k]) ∧
    (∀ (t' : List String) (v v' : Nat), t'.length = t.length →
      splitLookup debug (.seq t) = .ok (t.length, v) →
      splitLookup debug (.seq t') = .ok (t.length, v') →
      (v = v' ↔ ∀ k (hk : k < t.length) (hk' : k < t'.length),
        getWordIndex debug t[k] = getWordIndex debug t'[k])) ∧
    ∀ s, splitLookup debug (.str s) = splitLookup debug (.seq (strSplit s)) := by
  refine ⟨?_, fun t' v v' hlen hv hv' => ?_, fun _ => rfl⟩
  · cases hm : t.mapM (getWordIndex debug) with
    | error e => exact .inl (splitLookup_seq_of_mapM_error hm)
    | ok ids =>
      have h : Resolves debug t ids := (mapM_eq_ok_iff t ids).mp hm
      have hlen := h.length_eq
      refine .inr ⟨ids, h, _, splitLookup_seq_of_resolves h, ?_, ?_, fun k hk => ?_⟩
      · rw [hlen]; exact packIndices_eq_sum h.lt
      · rw [hlen]; exact packIndices_lt h.lt
      · rw [hlen]; exact packIndices_field h.lt k hk
  · obtain ⟨ids, h, rfl⟩ := resolves_of_splitLookup_seq hv
    obtain ⟨ids', h', rfl⟩ := resolves_of_splitLookup_seq hv'
    exact packIndices_eq_iff hlen h h'

/-- Every integer below `2 ^ (11 * n)` is the packing of a phrase of `n` dictionary words. -/
theorem exists_words_splitLookup {n v : Nat} (hv : v < 2 ^ (11 * n)) :
    ∃ t : List String, t.length = n ∧ (∀ w ∈ t, w ∈ wordlistEn) ∧
      splitLookup debug (.seq t) = .ok (n, v) := by
  obtain ⟨ids, hlen, hlt, rfl⟩ := exists_packIndices_eq n v hv
  have hb : ∀ i ∈ ids, i < wordlistEn.length := fun i hi => length_wordlistEn ▸ hlt i hi
  have h : Resolves debug (ids.map (wordlistEn.getD · "")) ids :=
    List.forall₂_map_left_iff.mpr <| List.forall₂_same.mpr fun i hi => by
      rw [List.getD_eq_getElem _ _ (hb i hi)]
      exact getWordIndex_getElem debug (hb i hi)
  refine ⟨ids.map (wordlistEn.getD · ""), by rw [List.length_map, hlen], fun w hw => ?_, ?_⟩
  · obtain ⟨i, hi, rfl⟩ := List.mem_map.mp hw
    show wordlistEn.getD i "" ∈ wordlistEn
    rw [List.getD_eq_getElem _ _ (hb i hi)]
    exact List.getElem_mem _
  · rw [splitLookup_seq_of_resolves h, List.length_map, hlen]

/-- Two phrases of dictionary words of one length that pack alike are equal. -/
theorem eq_of_splitLookup_words {t t' : List String} {n v : Nat} (ht : ∀ w ∈ t, w ∈ wordlistEn)
    (ht' : ∀ w ∈ t', w ∈ wordlistEn) (hn : t.length = n) (hn' : t'.length = n)
    (hv : splitLookup debug (.seq t) = .ok (n, v))
    (hv' : splitLookup debug (.seq t') = .ok (n, v)) : t = t' := by
  obtain ⟨ids, h, rfl⟩ := resolves_of_splitLookup_seq hv
  obtain ⟨ids', h', hpack⟩ := resolves_of_splitLookup_seq hv'
  have hlen : t.length = t'.length := hn.trans hn'.symm
  have hsame := (packIndices_eq_iff hlen.symm h h').mp hpack
  refine List.ext_getElem hlen fun k hk hk' => ?_
  have hi := h.getElem k hk (h.length_eq ▸ hk)
  obtain ⟨_, hw⟩ := getElem_of_getWordIndex (ht _ (List.getElem_mem hk)) hi
  obtain ⟨_, hw'⟩ :=
    getElem_of_getWordIndex (ht' _ (List.getElem_mem hk')) ((hsame k hk hk').symm.trans hi)
  exact hw.symm.trans hw'

/-- On phrases of dictionary words `_split_lookup` is a bijection between the `n`-word
phrases and the integers below `2 ^ (11 * n)`: every such integer is the packing of one
phrase, and of only one. -/
theorem splitLookup_words_bijective (debug : Bool) (n : Nat) :
    (∀ v < 2 ^ (11 * n), ∃ t : List String, t.length = n ∧ (∀ w ∈ t, w ∈ wordlistEn) ∧
      splitLookup debug (.seq t) = .ok (n, v)) ∧
    ∀ t t' : List String, (∀ w ∈ t, w ∈ wordlistEn) → (∀ w ∈ t', w ∈ wordlistEn) →
      t.length = n → t'.length = n → ∀ v, splitLookup debug (.seq t) = .ok (n, v) →
        splitLookup debug (.seq t') = .ok (n, v) → t = t' :=
  ⟨fun _ hv => exists_words_splitLookup hv,
    fun _ _ ht ht' hn hn' _ hv hv' => eq_of_splitLookup_words ht ht' hn hn' hv hv'⟩

end Bip39
