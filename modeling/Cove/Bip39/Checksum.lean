import Cove.Bip39.Packing

/-!
# Guessing the last word: `a2b_words_guess`

A phrase of 11, 14, 17, 20 or 23 words is one word short of a BIP39 phrase. The last
word carries `11 - c` more bits of entropy and the `c` checksum bits, the top bits of
the first byte of the hash of the entropy. The guesser tries every value `i` of the
missing entropy bits and yields the word whose index is `i` followed by those checksum
bits. The hash is a parameter: any function whose digest has a first byte.

On every such phrase whose tokens resolve, the loop neither overflows `to_bytes` nor
reads past the word list, and it yields, in increasing index, exactly the words that
complete the phrase to one whose checksum holds (`a2bWordsGuess_exact`).
-/

namespace Bip39

open Python

/-- A hash as the guesser uses `sha256(bits).digest()`: bytes to a digest that has a
first byte. -/
structure HashFn where
  digest : List UInt8 → List UInt8
  digest_ne_nil : ∀ bits, digest bits ≠ []

/-- One round of the loop: `rv = prv | i`, the first byte of the hash of its `width`
bytes, and the word at `(i << chk_w) + chk`. -/
def guessWord (sha256 : List UInt8 → List UInt8) (chkW width prv i : Nat) :
    Except PyExc String := do
  let rv := prv ||| i
  let bits ← toBytes rv width
  let digest ← getItem (sha256 bits) 0
  let chk := digest.toNat >>> (8 - chkW)
  getItem wordlistEn ((i <<< chkW) + chk)

/-- `list(a2b_words_guess(phrase))`, with `sha256(bits).digest()` read as `sha256 bits`.
The `print` of `chk_w, width, prv` is left out. -/
def a2bWordsGuess (debug : Bool) (sha256 : List UInt8 → List UInt8) (phrase : Phrase) :
    Except PyExc (List String) := do
  let (num, rv) ← splitLookup debug phrase
  if num ∉ [11, 14, 17, 20, 23] then
    pure []
  else
    let chkW := (num + 1) / 3
    let width := ((num + 1) * 11 - chkW) / 8
    let prv := rv <<< (11 - chkW)
    (List.range (1 <<< (11 - chkW))).mapM (guessWord sha256 chkW width prv)

/-- The BIP39 checksum rule for an `m`-word phrase packed as `V`: with `c = m / 3` and
`W = (11 * m - c) / 8`, the low `c` bits of `V` are the top `c` bits of the first byte
of the hash of `(V >> c).to_bytes(W, 'big')`. -/
def ChecksumValid (sha256 : List UInt8 → List UInt8) (m V : Nat) : Prop :=
  ∃ bits, toBytes (V >>> (m / 3)) ((11 * m - m / 3) / 8) = .ok bits ∧
    ∃ b, (sha256 bits)[0]? = some b ∧ V % 2 ^ (m / 3) = b.toNat >>> (8 - m / 3)

/-- The top `c` bits of the first digest byte of the entropy `e` of `W` bytes. -/
def checksumBits (sha256 : List UInt8 → List UInt8) (c W e : Nat) : Nat :=
  ((sha256 (bigEndian e W)).headD 0).toNat >>> (8 - c)

/-- The index the loop reads in round `i` after the packed prefix `rv`: the bits of `i`,
then the checksum bits of the entropy `rv` followed by `i`. -/
def guessIndex (sha256 : List UInt8 → List UInt8) (c W rv i : Nat) : Nat :=
  i * 2 ^ c + checksumBits sha256 c W (rv * 2 ^ (11 - c) + i)

/-- The indices of all rounds. -/
def guessIndices (sha256 : List UInt8 → List UInt8) (c W rv : Nat) : List Nat :=
  (List.range (2 ^ (11 - c))).map (guessIndex sha256 c W rv)

/-! ### Arithmetic of one round -/

theorem byte_shiftRight_lt (b : UInt8) (c : Nat) : b.toNat >>> (8 - c) < 2 ^ c := by
  rw [Nat.shiftRight_eq_div_pow, Nat.div_lt_iff_lt_mul (Nat.two_pow_pos _), ← Nat.pow_add]
  calc b.toNat < 2 ^ 8 := b.toNat_lt_size
    _ ≤ 2 ^ (c + (8 - c)) := Nat.pow_le_pow_right Nat.two_pos (by omega)

theorem checksumBits_lt (sha256 : List UInt8 → List UInt8) (c W e : Nat) :
    checksumBits sha256 c W e < 2 ^ c :=
  byte_shiftRight_lt _ c

/-- `(i << c) + x` stays below `2 ^ 11` while `i` has `11 - c` bits and `x` has `c`. -/
theorem shiftLeft_add_lt {c i x : Nat} (hc : c ≤ 11) (hi : i < 2 ^ (11 - c)) (hx : x < 2 ^ c) :
    (i <<< c) + x < 2 ^ 11 := by
  rw [Nat.shiftLeft_eq]
  calc i * 2 ^ c + x < (i + 1) * 2 ^ c := by rw [Nat.succ_mul i]; exact Nat.add_lt_add_left hx _
    _ ≤ 2 ^ (11 - c) * 2 ^ c := Nat.mul_le_mul_right _ hi
    _ = 2 ^ 11 := by rw [← Nat.pow_add, Nat.sub_add_cancel hc]

/-- The entropy of a phrase of `n` words and `11 - c` more bits fills `W` bytes. -/
theorem entropy_lt {n c W rv i : Nat} (hrv : rv < 2 ^ (11 * n)) (hi : i < 2 ^ (11 - c))
    (hW : 8 * W = 11 * n + (11 - c)) : rv * 2 ^ (11 - c) + i < 256 ^ W :=
  calc rv * 2 ^ (11 - c) + i < (rv + 1) * 2 ^ (11 - c) := by
        rw [Nat.succ_mul rv]; exact Nat.add_lt_add_left hi _
    _ ≤ 2 ^ (11 * n) * 2 ^ (11 - c) := Nat.mul_le_mul_right _ hrv
    _ = 256 ^ W := by rw [← Nat.pow_add, ← hW, Nat.pow_mul]

/-- The five lengths the guesser handles: at most 8 checksum bits, and `W` bytes hold
the entropy of the phrase and of the missing word exactly. -/
theorem params_of_mem {n : Nat} (hn : n ∈ [11, 14, 17, 20, 23]) :
    (n + 1) / 3 ≤ 8 ∧ 8 * ((11 * (n + 1) - (n + 1) / 3) / 8) = 11 * n + (11 - (n + 1) / 3) := by
  simp only [List.mem_cons, List.mem_singleton, List.not_mem_nil, or_false] at hn
  rcases hn with rfl | rfl | rfl | rfl | rfl <;> decide

/-- `V` with the index `j` appended, shifted right past `c` checksum bits: the entropy. -/
theorem shiftRight_append {rv j c : Nat} (hc : c ≤ 11) :
    (rv * 2 ^ 11 + j) >>> c = rv * 2 ^ (11 - c) + j / 2 ^ c := by
  rw [Nat.shiftRight_eq_div_pow, ← Nat.sub_add_cancel hc, Nat.pow_add, ← Nat.mul_assoc,
    Nat.add_comm, Nat.add_mul_div_right _ _ (Nat.two_pow_pos c), Nat.add_comm,
    Nat.sub_add_cancel hc]

/-- The high `11 - c` bits of an 11-bit index. -/
theorem div_two_pow_lt {j c : Nat} (hc : c ≤ 11) (hj : j < 2 ^ 11) : j / 2 ^ c < 2 ^ (11 - c) :=
  (Nat.div_lt_iff_lt_mul (Nat.two_pow_pos c)).mpr (by rwa [← Nat.pow_add, Nat.sub_add_cancel hc])

theorem mod_append {rv j c : Nat} (hc : c ≤ 11) : (rv * 2 ^ 11 + j) % 2 ^ c = j % 2 ^ c := by
  rw [← Nat.sub_add_cancel hc, Nat.pow_add, ← Nat.mul_assoc, Nat.add_comm,
    Nat.add_mul_mod_self_right]

/-! ### The loop -/

section Loop

variable {sha256 : List UInt8 → List UInt8} {H : HashFn} {c W rv : Nat}

theorem guessIndex_lt (hc : c ≤ 11) {i : Nat} (hi : i < 2 ^ (11 - c)) :
    guessIndex sha256 c W rv i < 2 ^ 11 := by
  have := shiftLeft_add_lt hc hi (checksumBits_lt sha256 c W (rv * 2 ^ (11 - c) + i))
  rwa [Nat.shiftLeft_eq] at this

theorem guessIndices_lt (hc : c ≤ 11) :
    ∀ j ∈ guessIndices sha256 c W rv, j < wordlistEn.length := by
  simp only [guessIndices, List.mem_map, List.mem_range, length_wordlistEn]
  rintro _ ⟨i, hi, rfl⟩
  exact guessIndex_lt hc hi

/-- The rounds read strictly increasing indices: round `i` reads in the `i`-th block of
`2 ^ c` indices. -/
theorem guessIndices_sorted : (guessIndices sha256 c W rv).Sorted (· < ·) :=
  List.pairwise_map.mpr <| (List.pairwise_lt_range _).imp fun {a b} hab =>
    calc guessIndex sha256 c W rv a < (a + 1) * 2 ^ c := by
          rw [guessIndex, Nat.succ_mul a]; exact Nat.add_lt_add_left (checksumBits_lt ..) _
      _ ≤ b * 2 ^ c := Nat.mul_le_mul_right _ hab
      _ ≤ guessIndex sha256 c W rv b := Nat.le_add_right _ _

/-- An index is read by some round exactly when its low `c` bits are the checksum bits of
the entropy its high bits complete. -/
theorem mem_guessIndices_iff (hc : c ≤ 11) {j : Nat} (hj : j < 2 ^ 11) :
    j ∈ guessIndices sha256 c W rv ↔
      j % 2 ^ c = checksumBits sha256 c W (rv * 2 ^ (11 - c) + j / 2 ^ c) := by
  simp only [guessIndices, List.mem_map, List.mem_range]
  constructor
  · rintro ⟨i, -, rfl⟩
    have hx := checksumBits_lt sha256 c W (rv * 2 ^ (11 - c) + i)
    have hdiv : guessIndex sha256 c W rv i / 2 ^ c = i := by
      rw [guessIndex, Nat.add_comm, Nat.add_mul_div_right _ _ (Nat.two_pow_pos c),
        Nat.div_eq_of_lt hx, Nat.zero_add]
    rw [hdiv, guessIndex, Nat.add_comm, Nat.add_mul_mod_self_right, Nat.mod_eq_of_lt hx]
  · intro h
    exact ⟨j / 2 ^ c, div_two_pow_lt hc hj, by rw [guessIndex, ← h, Nat.mul_comm, Nat.div_add_mod]⟩

/-- A round reads the word at `guessIndex`, with no exception on the way. -/
theorem guessWord_eq (hc : c ≤ 11) {i : Nat} (hi : i < 2 ^ (11 - c))
    (hfit : rv * 2 ^ (11 - c) + i < 256 ^ W) :
    guessWord H.digest c W (rv <<< (11 - c)) i =
      .ok (wordlistEn.getD (guessIndex H.digest c W rv i) "") := by
  obtain ⟨b, bs, hb⟩ :=
    List.exists_cons_of_ne_nil (H.digest_ne_nil (bigEndian (rv * 2 ^ (11 - c) + i) W))
  have hidx : guessIndex H.digest c W rv i < wordlistEn.length :=
    length_wordlistEn ▸ guessIndex_lt hc hi
  rw [List.getD_eq_getElem _ _ hidx, ← getItem_of_lt wordlistEn hidx]
  simp only [guessWord, shiftLeft_or_of_lt rv hi, toBytes_of_lt hfit, ok_bind, hb,
    getItem_cons_zero, guessIndex, checksumBits, List.headD_cons, Nat.shiftLeft_eq i c]

/-- The loop after the prefix `rv` raises nothing and yields the words at `guessIndices`. -/
theorem guessLoop_eq (hc : c ≤ 11) (hfit : ∀ i < 2 ^ (11 - c), rv * 2 ^ (11 - c) + i < 256 ^ W) :
    (List.range (1 <<< (11 - c))).mapM (guessWord H.digest c W (rv <<< (11 - c))) =
      .ok ((guessIndices H.digest c W rv).map (wordlistEn.getD · "")) := by
  rw [Nat.one_shiftLeft, guessIndices, List.map_map]
  exact mapM_eq_ok_map fun i hi =>
    guessWord_eq hc (List.mem_range.mp hi) (hfit i (List.mem_range.mp hi))

end Loop

/-! ### Words at distinct indices -/

section Words

variable {js : List Nat} (hjs : ∀ j ∈ js, j < wordlistEn.length)
include hjs

theorem forall₂_getD :
    List.Forall₂ (fun w j => wordlistEn[j]? = some w) (js.map (wordlistEn.getD · "")) js :=
  List.forall₂_map_left_iff.mpr <| List.forall₂_same.mpr fun j hj => by
    rw [List.getD_eq_getElem _ _ (hjs j hj), List.getElem?_eq_getElem (hjs j hj)]

theorem nodup_map_getD (hnd : js.Nodup) : (js.map (wordlistEn.getD · "")).Nodup :=
  hnd.map_on fun x hx y hy h => by
    rw [List.getD_eq_getElem _ _ (hjs x hx), List.getD_eq_getElem _ _ (hjs y hy)] at h
    exact nodup_wordlistEn.getElem_inj_iff.mp h

theorem getElem_mem_map_getD_iff {j : Nat} (hj : j < wordlistEn.length) :
    wordlistEn[j] ∈ js.map (wordlistEn.getD · "") ↔ j ∈ js := by
  rw [List.mem_map]
  constructor
  · rintro ⟨j', hj', heq⟩
    rw [List.getD_eq_getElem _ _ (hjs j' hj')] at heq
    exact nodup_wordlistEn.getElem_inj_iff.mp heq ▸ hj'
  · exact fun h => ⟨j, h, List.getD_eq_getElem _ _ hj⟩

end Words

/-! ### The checksum rule -/

/-- While the entropy fits its bytes, the checksum rule compares the low bits of `V` with
`checksumBits`. -/
theorem checksumValid_iff {H : HashFn} {m V : Nat}
    (hfit : V >>> (m / 3) < 256 ^ ((11 * m - m / 3) / 8)) :
    ChecksumValid H.digest m V ↔
      V % 2 ^ (m / 3) = checksumBits H.digest (m / 3) ((11 * m - m / 3) / 8) (V >>> (m / 3)) := by
  obtain ⟨b, bs, hb⟩ := List.exists_cons_of_ne_nil
    (H.digest_ne_nil (bigEndian (V >>> (m / 3)) ((11 * m - m / 3) / 8)))
  simp only [ChecksumValid, toBytes_of_lt hfit, Except.ok.injEq, exists_eq_left', hb,
    List.getElem?_cons_zero, Option.some.injEq, checksumBits, List.headD_cons]

/-- A phrase of one of the five lengths, completed by the word at index `j`, passes the
checksum exactly when the loop reads `j`. -/
theorem checksumValid_append_iff {H : HashFn} {n rv j : Nat} (hn : n ∈ [11, 14, 17, 20, 23])
    (hrv : rv < 2 ^ (11 * n)) (hj : j < 2 ^ 11) :
    ChecksumValid H.digest (n + 1) (rv * 2 ^ 11 + j) ↔
      j ∈ guessIndices H.digest ((n + 1) / 3) ((11 * (n + 1) - (n + 1) / 3) / 8) rv := by
  obtain ⟨hc, hW⟩ := params_of_mem hn
  have hfit := entropy_lt hrv (div_two_pow_lt (by omega) hj) hW
  rw [← shiftRight_append (by omega)] at hfit
  rw [checksumValid_iff hfit, shiftRight_append (by omega), mod_append (by omega),
    mem_guessIndices_iff (by omega) hj]

/-! ### `a2b_words_guess` on a phrase whose tokens resolve -/

section Phrase

variable {debug : Bool} {t : List String} {ids : List Nat}

theorem splitLookup_append (h : Resolves debug t ids) {j : Nat} (hj : j < wordlistEn.length) :
    splitLookup debug (.seq (t ++ [wordlistEn[j]])) =
      .ok (t.length + 1, packIndices ids * 2 ^ 11 + j) := by
  have happ : Resolves debug (t ++ [wordlistEn[j]]) (ids ++ [j]) :=
    List.rel_append h (.cons (getWordIndex_getElem debug hj) .nil)
  rw [splitLookup_seq_of_resolves happ, List.length_append, List.length_singleton,
    packIndices_append_singleton (hj.trans_eq length_wordlistEn)]

theorem a2bWordsGuess_of_not_mem {sha256 : List UInt8 → List UInt8} (h : Resolves debug t ids)
    (hn : t.length ∉ [11, 14, 17, 20, 23]) : a2bWordsGuess debug sha256 (.seq t) = .ok [] := by
  simp only [a2bWordsGuess, splitLookup_seq_of_resolves h, ok_bind, if_pos hn, pure_eq_ok]

theorem a2bWordsGuess_of_mem {H : HashFn} (h : Resolves debug t ids)
    (hn : t.length ∈ [11, 14, 17, 20, 23]) :
    a2bWordsGuess debug H.digest (.seq t) = .ok ((guessIndices H.digest ((t.length + 1) / 3)
      ((11 * (t.length + 1) - (t.length + 1) / 3) / 8) (packIndices ids)).map
        (wordlistEn.getD · "")) := by
  obtain ⟨hc, hW⟩ := params_of_mem hn
  have hrv := h.packIndices_lt
  simp only [a2bWordsGuess, splitLookup_seq_of_resolves h, ok_bind, hn, not_true_eq_false,
    if_false, Nat.mul_comm (t.length + 1) 11]
  exact guessLoop_eq (by omega) fun i hi => entropy_lt hrv hi hW

end Phrase

/-- `a2b_words_guess` is sound and complete for every hash. On a phrase of 11, 14, 17, 20
or 23 tokens that all resolve it raises nothing: every entropy it serialises fits its `W`
bytes, and every index it reads is below 2048. It yields `2 ^ (11 - c)` distinct words in
increasing index, and a word of the list is among them exactly when the phrase it
completes passes the checksum. On any other length it yields nothing. -/
theorem a2bWordsGuess_exact (debug : Bool) (H : HashFn) (t : List String)
    (ht : ∀ w ∈ t, ∃ i, getWordIndex debug w = .ok i) :
    (t.length ∈ [11, 14, 17, 20, 23] →
      let c := (t.length + 1) / 3
      let W := (11 * (t.length + 1) - c) / 8
      ∃ rv ws, splitLookup debug (.seq t) = .ok (t.length, rv) ∧
        a2bWordsGuess debug H.digest (.seq t) = .ok ws ∧
        (∀ i < 2 ^ (11 - c), (rv <<< (11 - c)) ||| i < 256 ^ W ∧
          ∀ b : UInt8, (i <<< c) + (b.toNat >>> (8 - c)) < 2048) ∧
        ws.length = 2 ^ (11 - c) ∧ ws.Nodup ∧
        (∃ js : List Nat, js.Sorted (· < ·) ∧
          List.Forall₂ (fun w j => wordlistEn[j]? = some w) ws js) ∧
        ∀ j (hj : j < wordlistEn.length), wordlistEn[j] ∈ ws ↔
          ∃ V, splitLookup debug (.seq (t ++ [wordlistEn[j]])) = .ok (t.length + 1, V) ∧
            ChecksumValid H.digest (t.length + 1) V) ∧
    (t.length ∉ [11, 14, 17, 20, 23] → a2bWordsGuess debug H.digest (.seq t) = .ok []) := by
  obtain ⟨ids, h⟩ := exists_resolves ht
  refine ⟨fun hn => ?_, a2bWordsGuess_of_not_mem h⟩
  obtain ⟨hc, hW⟩ := params_of_mem hn
  have hrv := h.packIndices_lt
  have hjs : ∀ j ∈ guessIndices H.digest ((t.length + 1) / 3)
      ((11 * (t.length + 1) - (t.length + 1) / 3) / 8) (packIndices ids), j < wordlistEn.length :=
    guessIndices_lt (by omega)
  refine ⟨packIndices ids, _, splitLookup_seq_of_resolves h, a2bWordsGuess_of_mem h hn,
    fun i hi => ⟨?_, fun b => shiftLeft_add_lt (by omega) hi (byte_shiftRight_lt b _)⟩,
    by simp [guessIndices], nodup_map_getD hjs guessIndices_sorted.nodup,
    ⟨_, guessIndices_sorted, forall₂_getD hjs⟩, fun j hj => ?_⟩
  · rw [shiftLeft_or_of_lt _ hi]
    exact entropy_lt hrv hi hW
  · rw [getElem_mem_map_getD_iff hjs hj, splitLookup_append h hj,
      ← checksumValid_append_iff hn hrv (hj.trans_eq length_wordlistEn)]
    simp only [Except.ok.injEq, Prod.mk.injEq, true_and, exists_eq_left']

theorem a2bWordsGuess_exact_abandon :
    (∀ w ∈ List.replicate 11 "abandon", ∃ i, getWordIndex true w = .ok i) ∧
      ∃ ws, a2bWordsGuess true (fun _ => [0]) (.seq (List.replicate 11 "abandon")) = .ok ws ∧
        ws.length = 128 ∧ ws.Nodup := by
  have ht : ∀ w ∈ List.replicate 11 "abandon", ∃ i, getWordIndex true w = .ok i := by
    intro w hw
    rw [List.eq_of_mem_replicate hw]
    exact ⟨0, getWordIndex_getElem true
      (show 0 < wordlistEn.length by rw [length_wordlistEn]; decide)⟩
  obtain ⟨rv, ws, -, hws, -, hlen, hnd, -⟩ :=
    (a2bWordsGuess_exact true ⟨fun _ => [0], fun _ => List.cons_ne_nil _ _⟩ _ ht).1 (by decide)
  exact ⟨ht, ws, hws, hlen, hnd⟩

/-- `a2b_words_guess` raises the `ValueError` of the first token of the phrase that does
not resolve, whatever the hash, as `_split_lookup` does. -/
theorem a2bWordsGuess_first_error (debug : Bool) (pre : List String) (w : String)
    (post : List String) (hpre : ∀ v ∈ pre, ∃ i, getWordIndex debug v = .ok i)
    (hw : ∀ i, getWordIndex debug w ≠ .ok i) :
    splitLookup debug (.seq (pre ++ w :: post)) = .error (.valueError w) ∧
      ∀ sha256, a2bWordsGuess debug sha256 (.seq (pre ++ w :: post)) = .error (.valueError w) := by
  have h : splitLookup debug (.seq (pre ++ w :: post)) = .error (.valueError w) :=
    splitLookup_first_error hpre hw
  exact ⟨h, fun sha256 => by rw [a2bWordsGuess, h]; rfl⟩

theorem a2bWordsGuess_first_error_xyz :
    (∀ v ∈ ["abandon"], ∃ i, getWordIndex true v = .ok i) ∧
      (∀ i, getWordIndex true "xyz" ≠ .ok i) ∧
      a2bWordsGuess true (fun _ => [0]) (.seq (["abandon"] ++ "xyz" :: ["zoo"])) =
        .error (.valueError "xyz") := by
  have hpre : ∀ v ∈ ["abandon"], ∃ i, getWordIndex true v = .ok i := by
    intro v hv
    rw [List.mem_singleton.mp hv]
    exact ⟨0, getWordIndex_getElem true
      (show 0 < wordlistEn.length by rw [length_wordlistEn]; decide)⟩
  have hw : ∀ i, getWordIndex true "xyz" ≠ .ok i := fun i h =>
    nomatch (rfl : getWordIndex true "xyz" = .error (.valueError "xyz")).symm.trans h
  exact ⟨hpre, hw, (a2bWordsGuess_first_error true ["abandon"] "xyz" ["zoo"] hpre hw).2 _⟩

/-- The words of the `__main__` block. -/
def demoWords : List String :=
  ["wrap", "jar", "physical", "abuse", "minimum", "sand", "hair", "pet", "address", "alley",
    "fashion", "thank", "duck", "sound", "budget", "spell", "flush", "knock", "source", "novel",
    "mixed", "detect", "tackle"]

/-- The `__main__` block joins its words with spaces before it calls `_split_lookup` and
`a2b_words_guess`: on tokens that are nonempty and hold no whitespace, the joined string
gives what the list gives. -/
theorem a2bWordsGuess_strJoin (debug : Bool) (sha256 : List UInt8 → List UInt8)
    (t : List String) (ht : ∀ w ∈ t, w ≠ "" ∧ ∀ c ∈ w.data, isSpace c = false) :
    splitLookup debug (.str (strJoin " " t)) = splitLookup debug (.seq t) ∧
      a2bWordsGuess debug sha256 (.str (strJoin " " t)) = a2bWordsGuess debug sha256 (.seq t) := by
  have h : splitLookup debug (.str (strJoin " " t)) = splitLookup debug (.seq t) := by
    show splitLookup debug (.seq (strSplit (strJoin " " t))) = _
    rw [strSplit_strJoin ht]
  exact ⟨h, by rw [a2bWordsGuess, a2bWordsGuess, h]⟩

theorem a2bWordsGuess_strJoin_demo :
    (∀ w ∈ demoWords, w ≠ "" ∧ ∀ c ∈ w.data, isSpace c = false) ∧
      a2bWordsGuess true (fun _ => [0]) (.str (strJoin " " demoWords)) =
        a2bWordsGuess true (fun _ => [0]) (.seq demoWords) := by
  have ht : ∀ w ∈ demoWords, w ≠ "" ∧ ∀ c ∈ w.data, isSpace c = false := by decide
  exact ⟨ht, (a2bWordsGuess_strJoin true (fun _ => [0]) demoWords ht).2⟩

/-- A phrase may give each dictionary word in full or by its first four letters, as
`get_word_index` allows: `_split_lookup` and `a2b_words_guess` give the same result
either way. -/
theorem a2bWordsGuess_abbrev (debug : Bool) (sha256 : List UInt8 → List UInt8)
    {t' t : List String} (ht : ∀ w ∈ t, w ∈ wordlistEn) (hm : List.Forall₂ Matches t' t) :
    splitLookup debug (.seq t') = splitLookup debug (.seq t) ∧
      a2bWordsGuess debug sha256 (.seq t') = a2bWordsGuess debug sha256 (.seq t) := by
  have h : splitLookup debug (.seq t') = splitLookup debug (.seq t) :=
    splitLookup_seq_congr (((List.forall₂_and_left t t').mpr ⟨ht, hm.flip⟩).imp
      fun _ _ hw => getWordIndex_matches hw.1 hw.2).flip
  exact ⟨h, by rw [a2bWordsGuess, a2bWordsGuess, h]⟩

theorem a2bWordsGuess_abbrev_aban :
    (∀ w ∈ ["abandon", "ability", "able"], w ∈ wordlistEn) ∧
      List.Forall₂ Matches ["aban", "abil", "able"] ["abandon", "ability", "able"] ∧
      a2bWordsGuess true (fun _ => [0]) (.seq ["aban", "abil", "able"]) =
        a2bWordsGuess true (fun _ => [0]) (.seq ["abandon", "ability", "able"]) := by
  have ht : ∀ w ∈ ["abandon", "ability", "able"], w ∈ wordlistEn := by decide
  have hm : List.Forall₂ Matches ["aban", "abil", "able"] ["abandon", "ability", "able"] := by
    decide
  exact ⟨ht, hm, (a2bWordsGuess_abbrev true (fun _ => [0]) ht hm).2⟩

end Bip39
