import Cove.Bip39.English

/-!
# `get_word_index` on the English list

On `wordlist_en` and `_lookup` the resolver returns, for every string, the one
index whose word the string spells out or abbreviates, and otherwise raises
`ValueError` carrying the string, with the `assert` or without it.
-/

namespace Bip39

open Python

/-- `s == wordlist_en[i] or s == wordlist_en[i][:4]`. -/
def MatchesIndex (s : String) (i : Nat) : Prop := ∃ w, wordlistEn[i]? = some w ∧ Matches s w

theorem matchesIndex_iff {s : String} {i : Nat} :
    MatchesIndex s i ↔ ∃ h : i < wordlistEn.length, Matches s wordlistEn[i] := by
  simp only [MatchesIndex, List.getElem?_eq_some_iff]
  exact ⟨fun ⟨_, ⟨h, rfl⟩, hm⟩ => ⟨h, hm⟩, fun ⟨h, hm⟩ => ⟨_, ⟨h, rfl⟩, hm⟩⟩

theorem matchesIndex_unique {s : String} {i j : Nat} (hi : MatchesIndex s i)
    (hj : MatchesIndex s j) : i = j := by
  obtain ⟨hi, hmi⟩ := matchesIndex_iff.mp hi
  obtain ⟨hj, hmj⟩ := matchesIndex_iff.mp hj
  exact english.index_unique hi hj hmi hmj

theorem getWordIndex_eq_naiveIndex (debug : Bool) (s : String) :
    getWordIndex debug s = naiveIndex wordlistEn s :=
  english.getWordIndexIn_eq_naiveIndex debug s

theorem getWordIndex_eq_ok_iff {debug : Bool} {s : String} {i : Nat} :
    getWordIndex debug s = .ok i ↔ MatchesIndex s i := by
  rw [getWordIndex_eq_naiveIndex, naiveIndex]
  split
  · rename_i j hfind
    obtain ⟨hj, hm, -⟩ := List.findIdx?_eq_some_iff_getElem.mp hfind
    have hj' : MatchesIndex s j := matchesIndex_iff.mpr ⟨hj, by simpa using hm⟩
    exact ⟨fun h => Except.ok.inj h ▸ hj', fun hi => matchesIndex_unique hj' hi ▸ rfl⟩
  · rename_i hfind
    refine ⟨fun h => (nomatch h), fun hi => ?_⟩
    obtain ⟨hlt, hm⟩ := matchesIndex_iff.mp hi
    simpa [hm] using List.findIdx?_eq_none_iff.mp hfind _ (List.getElem_mem hlt)

theorem getWordIndex_error {debug : Bool} {s : String} {e : PyExc}
    (h : getWordIndex debug s = .error e) : e = .valueError s := by
  rw [getWordIndex_eq_naiveIndex, naiveIndex] at h
  split at h
  · cases h
  · exact (Except.error.inj h).symm

theorem getWordIndex_lt {debug : Bool} {s : String} {i : Nat}
    (h : getWordIndex debug s = .ok i) : i < 2048 := by
  obtain ⟨hi, -⟩ := matchesIndex_iff.mp (getWordIndex_eq_ok_iff.mp h)
  rwa [length_wordlistEn] at hi

theorem getWordIndex_getElem (debug : Bool) {j : Nat} (hj : j < wordlistEn.length) :
    getWordIndex debug wordlistEn[j] = .ok j :=
  getWordIndex_eq_ok_iff.mpr (matchesIndex_iff.mpr ⟨hj, .inl rfl⟩)

theorem nodup_wordlistEn : wordlistEn.Nodup :=
  List.Nodup.of_map _ english.wellIndexed.abbrev_nodup

/-- A word of the list resolves only to its own index. -/
theorem getElem_of_getWordIndex {debug : Bool} {w : String} {i : Nat} (hw : w ∈ wordlistEn)
    (h : getWordIndex debug w = .ok i) : ∃ hi : i < wordlistEn.length, wordlistEn[i] = w := by
  obtain ⟨j, hj, rfl⟩ := List.getElem_of_mem hw
  obtain rfl : j = i := Except.ok.inj ((getWordIndex_getElem debug hj).symm.trans h)
  exact ⟨hj, rfl⟩

/-- A string that spells out or abbreviates a word of the list resolves as the word does. -/
theorem getWordIndex_matches {debug : Bool} {s w : String} (hw : w ∈ wordlistEn)
    (h : Matches s w) : getWordIndex debug s = getWordIndex debug w := by
  obtain ⟨j, hj, rfl⟩ := List.getElem_of_mem hw
  rw [getWordIndex_getElem debug hj]
  exact getWordIndex_eq_ok_iff.mpr (matchesIndex_iff.mpr ⟨hj, h⟩)

/-- The resolver is exact on every string, with the `assert` or without it. -/
theorem getWordIndex_iff_unique (debug : Bool) (s : String) :
    (∀ i, getWordIndex debug s = .ok i ↔
      i < 2048 ∧ MatchesIndex s i ∧ ∀ j < 2048, MatchesIndex s j → j = i) ∧
    ((∃ e, getWordIndex debug s = .error e) ↔
      ¬∃ i < 2048, MatchesIndex s i ∧ ∀ j < 2048, MatchesIndex s j → j = i) ∧
    ∀ e, getWordIndex debug s = .error e → e = .valueError s := by
  have hok : ∀ i, getWordIndex debug s = .ok i ↔
      i < 2048 ∧ MatchesIndex s i ∧ ∀ j < 2048, MatchesIndex s j → j = i := fun i =>
    ⟨fun h => ⟨getWordIndex_lt h, getWordIndex_eq_ok_iff.mp h,
        fun _ _ hj => matchesIndex_unique hj (getWordIndex_eq_ok_iff.mp h)⟩,
      fun h => getWordIndex_eq_ok_iff.mpr h.2.1⟩
  refine ⟨hok, ⟨fun ⟨e, he⟩ ⟨i, hi⟩ => (nomatch he.symm.trans ((hok i).mpr hi)), fun hnone => ?_⟩,
    fun _ => getWordIndex_error⟩
  cases h : getWordIndex debug s with
  | error e => exact ⟨e, rfl⟩
  | ok i => exact absurd ⟨i, (hok i).mp h⟩ hnone

end Bip39
