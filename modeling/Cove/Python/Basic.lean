import Mathlib

/-!
# The Python semantics the repository's scripts rely on

A `str` is a `String`, read as its sequence of code points, and Python's order on
strings is the order of `String` (code point by code point); an `int` is a `Nat`
(every integer of `bip39.py` is nonnegative); `bytes` is a `List UInt8`. A raised
exception is the `error` branch of `Except PyExc`, and only the exceptions
`bip39.py` can raise or catch are named.
-/

namespace Python

/-- The exceptions `bip39.py` raises or catches, with the argument they carry. -/
inductive PyExc where
  | valueError (word : String)
  | keyError (key : String)
  | assertionError
  | indexError
  | overflowError
  deriving DecidableEq, Repr

@[simp] theorem pure_eq_ok {α : Type} (a : α) : (pure a : Except PyExc α) = .ok a := rfl

@[simp] theorem ok_bind {α β : Type} (a : α) (f : α → Except PyExc β) :
    (Except.ok a >>= f) = f a := rfl

@[simp] theorem error_bind {α β : Type} (e : PyExc) (f : α → Except PyExc β) :
    (Except.error e >>= f) = .error e := rfl

/-- `s[:n]`: the first `n` code points of `s`. -/
def sliceTo (s : String) (n : Nat) : String := ⟨s.data.take n⟩

@[simp] theorem data_sliceTo (s : String) (n : Nat) : (sliceTo s n).data = s.data.take n := rfl

@[simp] theorem length_sliceTo (s : String) (n : Nat) :
    (sliceTo s n).length = min n s.length := List.length_take ..

theorem sliceTo_sliceTo (s : String) {m n : Nat} (h : n ≤ m) :
    sliceTo (sliceTo s m) n = sliceTo s n := by
  simp only [sliceTo, List.take_take, Nat.min_eq_left h]

/-- `s[0]`, or `IndexError` on the empty string. -/
def firstChar (s : String) : Except PyExc Char :=
  match s.data with
  | c :: _ => .ok c
  | [] => .error .indexError

theorem firstChar_sliceTo (s : String) {n : Nat} (h : 0 < n) :
    firstChar (sliceTo s n) = firstChar s := by
  obtain ⟨n, rfl⟩ := Nat.exists_eq_add_of_lt h
  obtain ⟨_ | ⟨c, cs⟩⟩ := s <;> rfl

theorem firstChar_ok_of_length {s : String} (h : 0 < s.length) : ∃ c, firstChar s = .ok c := by
  obtain ⟨_ | ⟨c, cs⟩⟩ := s
  · exact absurd h (Nat.lt_irrefl 0)
  · exact ⟨c, rfl⟩

/-- Python's order on strings compares the first code points first. -/
theorem firstChar_le_of_le {x y : String} {c d : Char} (hx : firstChar x = .ok c)
    (hy : firstChar y = .ok d) (h : x ≤ y) : c ≤ d := by
  obtain ⟨_ | ⟨c', cs⟩⟩ := x
  · nomatch hx
  obtain ⟨_ | ⟨d', ds⟩⟩ := y
  · nomatch hy
  obtain rfl := Except.ok.inj hx
  obtain rfl := Except.ok.inj hy
  exact not_lt.mp fun hdc => not_lt.mpr h (String.lt_iff_toList_lt.mpr (List.Lex.rel hdc))

/-- `xs[i]` on a tuple or on `bytes`, or `IndexError` past the end. -/
def getItem {α : Type} (xs : List α) (i : Nat) : Except PyExc α :=
  match xs[i]? with
  | some x => .ok x
  | none => .error .indexError

theorem getItem_of_lt {α : Type} (xs : List α) {i : Nat} (h : i < xs.length) :
    getItem xs i = .ok xs[i] := by
  simp [getItem, List.getElem?_eq_getElem h]

@[simp] theorem getItem_cons_zero {α : Type} (x : α) (xs : List α) :
    getItem (x :: xs) 0 = .ok x :=
  getItem_of_lt (x :: xs) (Nat.succ_pos _)

/-- `d[k]` on a `dict` literal, kept as its list of entries. -/
def dictGet (d : List (String × Nat)) (k : String) : Except PyExc Nat :=
  match d.lookup k with
  | some v => .ok v
  | none => .error (.keyError k)

/-! A `for` loop whose body may raise is `List.mapM` in `Except`: it stops at the first
exception, and otherwise every item gave its result. -/

theorem mapM_eq_ok_iff {α β : Type} {f : α → Except PyExc β} :
    ∀ (xs : List α) (ys : List β),
      xs.mapM f = .ok ys ↔ List.Forall₂ (fun x y => f x = .ok y) xs ys
  | [], ys => by
    rw [List.mapM_nil, pure_eq_ok, List.forall₂_nil_left_iff, Except.ok.injEq, eq_comm]
  | x :: xs, ys => by
    simp only [List.mapM_cons, List.forall₂_cons_left_iff, ← mapM_eq_ok_iff xs]
    cases f x <;> cases xs.mapM f <;> simp [eq_comm]

theorem mapM_eq_error {α β : Type} {f : α → Except PyExc β} {e : PyExc} :
    ∀ {xs : List α}, xs.mapM f = .error e → ∃ x ∈ xs, f x = .error e
  | [], h => nomatch h
  | x :: xs, h => by
    rw [List.mapM_cons] at h
    cases hx : f x with
    | error e' =>
      simp only [hx, error_bind, Except.error.injEq] at h
      exact ⟨x, List.mem_cons_self x xs, h ▸ hx⟩
    | ok y =>
      cases hs : xs.mapM f with
      | error e' =>
        rw [hx, hs] at h
        obtain ⟨z, hz, hfz⟩ := mapM_eq_error (hs.trans h)
        exact ⟨z, List.mem_cons_of_mem x hz, hfz⟩
      | ok zs => rw [hx, hs] at h; nomatch h

theorem mapM_eq_ok_map {α β : Type} {f : α → Except PyExc β} {g : α → β} {xs : List α}
    (h : ∀ x ∈ xs, f x = .ok (g x)) : xs.mapM f = .ok (xs.map g) :=
  (mapM_eq_ok_iff xs _).mpr (List.forall₂_map_right_iff.mpr (List.forall₂_same.mpr h))

/-- Two loops over items that pairwise give the same result give the same result. -/
theorem mapM_eq_of_forall₂ {α β : Type} {f : α → Except PyExc β} {xs ys : List α}
    (h : List.Forall₂ (fun x y => f x = f y) xs ys) : xs.mapM f = ys.mapM f := by
  induction h with
  | nil => rfl
  | cons hxy _ ih => rw [List.mapM_cons, List.mapM_cons, hxy, ih]

/-- `str.isspace` on one code point: the separators of `str.split()`. -/
def isSpace (c : Char) : Bool :=
  let n := c.toNat
  (0x09 ≤ n && n ≤ 0x0d) || (0x1c ≤ n && n ≤ 0x20) || n == 0x85 || n == 0xa0 ||
    n == 0x1680 || (0x2000 ≤ n && n ≤ 0x200a) || n == 0x2028 || n == 0x2029 ||
    n == 0x202f || n == 0x205f || n == 0x3000

/-- The maximal runs of non-space code points; `run` is the pending run, reversed. -/
def splitRuns : List Char → List Char → List String
  | [], run => if run.isEmpty then [] else [⟨run.reverse⟩]
  | c :: cs, run =>
    if isSpace c then
      if run.isEmpty then splitRuns cs [] else ⟨run.reverse⟩ :: splitRuns cs []
    else splitRuns cs (c :: run)

/-- `s.split()` with no separator. -/
def strSplit (s : String) : List String := splitRuns s.data []

/-- `sep.join(ws)`. -/
def strJoin (sep : String) : List String → String
  | [] => ""
  | [w] => w
  | w :: w' :: ws => w ++ sep ++ strJoin sep (w' :: ws)

/-- A run of non-space code points is carried over whole into the pending run. -/
theorem splitRuns_append {cs : List Char} (h : ∀ c ∈ cs, isSpace c = false)
    (rest run : List Char) : splitRuns (cs ++ rest) run = splitRuns rest (cs.reverse ++ run) := by
  induction cs generalizing run with
  | nil => rfl
  | cons c cs ih =>
    rw [List.cons_append, splitRuns, if_neg (by simp [h c (List.mem_cons_self c cs)]),
      ih (fun d hd => h d (List.mem_cons_of_mem c hd)), List.reverse_cons, List.append_assoc,
      List.singleton_append]

/-- `split()` undoes `" ".join` on tokens that are nonempty and hold no whitespace. -/
theorem strSplit_strJoin : ∀ {ws : List String},
    (∀ w ∈ ws, w ≠ "" ∧ ∀ c ∈ w.data, isSpace c = false) → strSplit (strJoin " " ws) = ws
  | [], _ => rfl
  | [w], h => by
    obtain ⟨hne, hw⟩ := h w (List.mem_singleton_self w)
    have hdata : w.data ≠ [] := fun hd => hne (String.ext hd)
    rw [strSplit, strJoin, ← List.append_nil w.data, splitRuns_append hw, List.append_nil,
      splitRuns, if_neg (by simpa using hdata), List.reverse_reverse]
  | w :: w' :: ws, h => by
    obtain ⟨hne, hw⟩ := h w (List.mem_cons_self w _)
    have hdata : w.data ≠ [] := fun hd => hne (String.ext hd)
    have rest := strSplit_strJoin fun v hv => h v (List.mem_cons_of_mem w hv)
    rw [strSplit] at rest ⊢
    rw [strJoin, String.data_append, String.data_append, List.append_assoc,
      splitRuns_append hw, List.append_nil, show " ".data = [' '] from rfl,
      List.singleton_append, splitRuns, if_pos (by decide), if_neg (by simpa using hdata),
      List.reverse_reverse, rest]

example : strSplit " wrap\tjar\n  physical " = ["wrap", "jar", "physical"] := by decide

/-- The `length` low bytes of `n`, most significant first. -/
def bigEndian (n length : Nat) : List UInt8 :=
  (List.range length).reverse.map fun k => UInt8.ofNat (n / 256 ^ k)

/-- `n.to_bytes(length, 'big')`, or `OverflowError` when `n` needs more bytes. -/
def toBytes (n length : Nat) : Except PyExc (List UInt8) :=
  if n < 256 ^ length then .ok (bigEndian n length) else .error .overflowError

theorem toBytes_of_lt {n length : Nat} (h : n < 256 ^ length) :
    toBytes n length = .ok (bigEndian n length) :=
  if_pos h

/-- `(a << k) | b` is `a * 2 ^ k + b` while `b` fits in the `k` bits the shift frees. -/
theorem shiftLeft_or_of_lt (a : Nat) {b k : Nat} (h : b < 2 ^ k) :
    (a <<< k) ||| b = a * 2 ^ k + b := by
  rw [Nat.shiftLeft_eq, Nat.mul_comm, Nat.mul_add_lt_is_or h]

end Python
