import Cove.Python.Text

/-!
# `strip_ffi_duplicates.py`: removing the FFI blocks of generated Kotlin

`process_file` reads a file's lines and runs a loop over them with two variables, the
flag `skip_until_brace_closes` and the counter `brace_depth`. A `package` or `import`
line is always kept. Any other line whose stripped text begins with one of the patterns
of `should_skip_block` opens a block, unless one is open already; a block lasts until
the count of `{` minus `}` over its lines comes back to `0` or below, and every line of
it but its `package` and `import` lines is dropped. The file is then rewritten with the
lines kept.

Over every run the flag says exactly whether the depth is positive
(`skipUntilBraceCloses_eq_decide`). The script only deletes lines, keeps every `package`
and `import` line, and leaves no line that opens a block. A block is removed as a unit:
the lines around it are processed as if it were not there (`processLines_block`). An
opener whose own braces leave the depth at `0` or below, as when its `{` stands on the next
line, ends its block on that same line: only the opener is dropped, and the body after it
is processed as ordinary lines (`processLines_opener_closed`). A file
is left as it is exactly when it has no `\r` and no line that opens a block. The
`__main__` block rewrites the files named on the command line in turn and stops at the
first that does not exist; running it a second time changes nothing.
-/

namespace StripFfiDuplicates

open Python

/-- The patterns of `should_skip_block`, in the source's order. -/
def skipPatterns : List AnchoredPattern := [
  .of "^@Structure\\.FieldOrder" (by decide),
  .of "^open class RustBuffer" (by decide),
  .of "^class RustBufferByReference" (by decide),
  .of "^internal class RustBufferByReference" (by decide),
  .of "^object FfiConverter" (by decide),
  .of "^internal object FfiConverter" (by decide),
  .of "^class UniffiRustCallStatus" (by decide),
  .of "^internal class UniffiRustCallStatus" (by decide),
  .of "^internal object UniffiLib" (by decide),
  .of "^object UniffiLib" (by decide),
  .of "^object UniffiWithHandle" (by decide),
  .of "^internal object UniffiWithHandle" (by decide),
  .of "^private object UniffiHandleMap" (by decide),
  .of "^object FfiConverterString" (by decide),
  .of "^internal object FfiConverterString" (by decide)]

/-- `should_skip_block(line)`: a pattern of the list matches at the start of `line`. -/
def shouldSkipBlock (line : String) : Bool := skipPatterns.any fun p => p.matches line

/-- `line.startswith('package ') or line.startswith('import ')`. -/
def isHeader (line : String) : Bool := startsWith line "package " || startsWith line "import "

/-- `line.count('{') - line.count('}')`. -/
def braceDelta (line : String) : Int := (strCount line '{' : Int) - strCount line '}'

/-- The variables of the loop of `process_file`. -/
structure Loop where
  outputLines : List String
  skipUntilBraceCloses : Bool
  braceDepth : Int

/-- The variables before the first line. -/
def Loop.init : Loop := ⟨[], false, 0⟩

/-- One round of the loop of `process_file`, on `line`. -/
def step (s : Loop) (line : String) : Loop :=
  if isHeader line then { s with outputLines := s.outputLines ++ [line] }
  else
    let s := if !s.skipUntilBraceCloses && shouldSkipBlock (strStrip line) then
      { s with skipUntilBraceCloses := true, braceDepth := 0 } else s
    if s.skipUntilBraceCloses then
      let s := { s with braceDepth := s.braceDepth + braceDelta line }
      if s.braceDepth ≤ 0 then { s with skipUntilBraceCloses := false } else s
    else { s with outputLines := s.outputLines ++ [line] }

/-- The loop of `process_file` over `lines`: the lines it writes back. -/
def processLines (lines : List String) : List String := (lines.foldl step .init).outputLines

/-- What `process_file` writes back over a file whose decoded contents are `contents`. -/
def processContents (contents : String) : String := writelines (processLines (readlines contents))

/-! ### One round of the loop -/

section Step

variable {s : Loop} {line : String}

/-- Whether a round keeps its line: a `package` or `import` line always, another line when
no block is open and the line opens none. -/
def keeps (s : Loop) (line : String) : Bool :=
  isHeader line || !s.skipUntilBraceCloses && !shouldSkipBlock (strStrip line)

/-- The flag of a state is `brace_depth > 0`. -/
def Consistent (s : Loop) : Prop := s.skipUntilBraceCloses = decide (0 < s.braceDepth)

/-- Two states agree when their flags agree, and their depths too while a block is open. -/
def Agree (s t : Loop) : Prop :=
  s.skipUntilBraceCloses = t.skipUntilBraceCloses ∧
    (s.skipUntilBraceCloses = true → s.braceDepth = t.braceDepth)

theorem step_of_isHeader (h : isHeader line = true) :
    step s line = { s with outputLines := s.outputLines ++ [line] } := if_pos h

/-- Inside a block a line moves the depth by its braces, and the block ends once the depth
is at most `0`. -/
theorem step_of_skipping (h : isHeader line = false) (hs : s.skipUntilBraceCloses = true) :
    step s line = { s with
      skipUntilBraceCloses := decide (0 < s.braceDepth + braceDelta line)
      braceDepth := s.braceDepth + braceDelta line } := by
  simp only [step, h, hs, Bool.false_eq_true, if_false, Bool.not_true, Bool.false_and, if_true]
  split <;> simp_all [not_le]

/-- Outside a block a line that opens one starts it at depth `0`, then counts its braces. -/
theorem step_of_opens (h : isHeader line = false) (hs : s.skipUntilBraceCloses = false)
    (ho : shouldSkipBlock (strStrip line) = true) :
    step s line = { s with
      skipUntilBraceCloses := decide (0 < braceDelta line)
      braceDepth := braceDelta line } := by
  simp only [step, h, hs, ho, Bool.false_eq_true, if_false, Bool.not_false, Bool.and_self, if_true,
    Int.zero_add]
  split <;> simp_all [not_le]

theorem step_of_keeps (h : isHeader line = false) (hs : s.skipUntilBraceCloses = false)
    (ho : shouldSkipBlock (strStrip line) = false) :
    step s line = { s with outputLines := s.outputLines ++ [line] } := by
  simp [step, h, hs, ho]

theorem outputLines_step (s : Loop) (line : String) :
    (step s line).outputLines =
      if keeps s line then s.outputLines ++ [line] else s.outputLines := by
  cases h : isHeader line
  · cases hs : s.skipUntilBraceCloses
    · cases ho : shouldSkipBlock (strStrip line)
      · simp [keeps, h, hs, ho, step_of_keeps h hs ho]
      · simp [keeps, h, hs, ho, step_of_opens h hs ho]
    · simp [keeps, h, hs, step_of_skipping h hs]
  · simp [keeps, h, step_of_isHeader h]

theorem consistent_step (hs : Consistent s) (line : String) : Consistent (step s line) := by
  cases h : isHeader line
  · cases hk : s.skipUntilBraceCloses
    · cases ho : shouldSkipBlock (strStrip line)
      · rw [step_of_keeps h hk ho]; exact hs
      · rw [step_of_opens h hk ho]; rfl
    · rw [step_of_skipping h hk]; rfl
  · rw [step_of_isHeader h]; exact hs

/-- Outside a block the depth is never read: states that agree take the same round. -/
theorem agree_step {t : Loop} (h : Agree s t) (line : String) :
    Agree (step s line) (step t line) := by
  obtain ⟨hf, hd⟩ := h
  cases hh : isHeader line
  · cases hs : s.skipUntilBraceCloses
    · have ht : t.skipUntilBraceCloses = false := hf ▸ hs
      cases ho : shouldSkipBlock (strStrip line)
      · rw [step_of_keeps hh hs ho, step_of_keeps hh ht ho]; exact ⟨hf, hd⟩
      · rw [step_of_opens hh hs ho, step_of_opens hh ht ho]; exact ⟨rfl, fun _ => rfl⟩
    · have ht : t.skipUntilBraceCloses = true := hf ▸ hs
      rw [step_of_skipping hh hs, step_of_skipping hh ht, hd hs]; exact ⟨rfl, fun _ => rfl⟩
  · rw [step_of_isHeader hh, step_of_isHeader hh]; exact ⟨hf, hd⟩

/-- A `package` or `import` line never opens a block: its stripped text begins with
`package` or `import`, and every pattern disagrees with both words. -/
theorem shouldSkipBlock_of_isHeader (h : isHeader line = true) :
    shouldSkipBlock (strStrip line) = false := by
  have hwords : ∀ w ∈ ["package".data, "import".data], w ≠ [] ∧ (∀ c ∈ w, isSpace c = false) ∧
      ∀ p ∈ skipPatterns, ¬p.text <+: w ∧ ¬w <+: p.text := by decide
  obtain ⟨w, hw, hline⟩ : ∃ w ∈ ["package".data, "import".data], w <+: line.data := by
    simp only [isHeader, startsWith, Bool.or_eq_true, List.isPrefixOf_iff_prefix] at h
    rcases h with h | h
    · exact ⟨_, List.mem_cons_self _ _, (List.prefix_append _ [' ']).trans h⟩
    · exact ⟨_, List.mem_cons_of_mem _ (List.mem_singleton_self _),
        (List.prefix_append _ [' ']).trans h⟩
  obtain ⟨hne, hsp, hpat⟩ := hwords w hw
  have hpre := prefix_strStrip hline hne hsp
  rw [shouldSkipBlock, List.any_eq_false]
  intro p hp hm
  rw [AnchoredPattern.matches, List.isPrefixOf_iff_prefix] at hm
  exact (List.prefix_or_prefix_of_prefix hm hpre).elim (hpat p hp).1 (hpat p hp).2

theorem not_shouldSkipBlock_of_keeps (h : keeps s line = true) :
    shouldSkipBlock (strStrip line) = false := by
  cases hh : isHeader line
  · simp_all [keeps]
  · exact shouldSkipBlock_of_isHeader hh

end Step

/-! ### Whole runs -/

theorem consistent_foldl {s : Loop} (hs : Consistent s) :
    ∀ lines : List String, Consistent (lines.foldl step s)
  | [] => hs
  | l :: ls => consistent_foldl (consistent_step hs l) ls

/-- In every state the loop reaches, `skip_until_brace_closes` is `brace_depth > 0`. -/
theorem skipUntilBraceCloses_eq_decide (lines : List String) :
    (lines.foldl step .init).skipUntilBraceCloses =
      decide (0 < (lines.foldl step .init).braceDepth) :=
  consistent_foldl (show Consistent .init from rfl) lines

/-- A run appends to the output lines it starts with: a sublist of its lines with every
`package` and `import` line. -/
theorem foldl_outputLines (s : Loop) : ∀ lines : List String, ∃ kept,
    (lines.foldl step s).outputLines = s.outputLines ++ kept ∧ List.Sublist kept lines ∧
      kept.filter isHeader = lines.filter isHeader
  | [] => ⟨[], (List.append_nil _).symm, .slnil, rfl⟩
  | l :: ls => by
    obtain ⟨kept, h, hs, hf⟩ := foldl_outputLines (step s l) ls
    rw [List.foldl_cons, h, outputLines_step]
    by_cases hk : keeps s l = true
    · exact ⟨l :: kept, by simp [hk], hs.cons₂ l, by simp [List.filter_cons, hf]⟩
    · have hh : isHeader l = false := by simp_all [keeps]
      exact ⟨kept, by simp [hk], hs.cons l, by simp [List.filter_cons, hh, hf]⟩

theorem sublist_processLines (lines : List String) : List.Sublist (processLines lines) lines := by
  obtain ⟨kept, h, hs, -⟩ := foldl_outputLines .init lines
  rw [processLines, h]
  exact hs

/-- The script only deletes lines, and it keeps every `package` and `import` line. -/
theorem processLines_sublist (lines : List String) :
    List.Sublist (processLines lines) lines ∧
      (processLines lines).filter isHeader = lines.filter isHeader := by
  obtain ⟨kept, h, hs, hf⟩ := foldl_outputLines .init lines
  rw [processLines, h]
  exact ⟨hs, hf⟩

theorem foldl_not_shouldSkipBlock {s : Loop}
    (hs : ∀ l ∈ s.outputLines, shouldSkipBlock (strStrip l) = false) :
    ∀ lines : List String, ∀ l ∈ (lines.foldl step s).outputLines,
      shouldSkipBlock (strStrip l) = false
  | [] => hs
  | l :: ls => by
    refine foldl_not_shouldSkipBlock ?_ ls
    rw [outputLines_step]
    split
    · exact List.forall_mem_append.mpr
        ⟨hs, List.forall_mem_singleton.mpr (not_shouldSkipBlock_of_keeps ‹_›)⟩
    · exact hs

/-- No line the script writes back opens a block. -/
theorem processLines_not_shouldSkipBlock (lines : List String) :
    ¬∃ l ∈ processLines lines, shouldSkipBlock (strStrip l) = true := fun ⟨l, hl, hs⟩ => by
  rw [foldl_not_shouldSkipBlock (fun _ h => absurd h (List.not_mem_nil _)) lines l hl] at hs
  exact Bool.false_ne_true hs

/-- With the flag down and no line that opens a block, every line is kept. -/
theorem foldl_of_not_shouldSkipBlock (s : Loop) (hs : s.skipUntilBraceCloses = false) :
    ∀ lines : List String, (∀ l ∈ lines, shouldSkipBlock (strStrip l) = false) →
      (lines.foldl step s).outputLines = s.outputLines ++ lines
  | [], _ => (List.append_nil _).symm
  | l :: ls, h => by
    have hl := h l (List.mem_cons_self l ls)
    have hstep : step s l = { s with outputLines := s.outputLines ++ [l] } := by
      cases hh : isHeader l
      · exact step_of_keeps hh hs hl
      · exact step_of_isHeader hh
    rw [List.foldl_cons, hstep,
      foldl_of_not_shouldSkipBlock { s with outputLines := s.outputLines ++ [l] } hs ls
        fun l' hl' => h l' (List.mem_cons_of_mem l hl')]
    simp

theorem processLines_eq_self_iff {lines : List String} :
    processLines lines = lines ↔ ∀ l ∈ lines, shouldSkipBlock (strStrip l) = false :=
  ⟨fun h l hl =>
      foldl_not_shouldSkipBlock (fun _ h => absurd h (List.not_mem_nil _)) lines l (h.symm ▸ hl),
    fun h => (foldl_of_not_shouldSkipBlock .init rfl lines h).trans (List.nil_append _)⟩

theorem processLines_processLines (lines : List String) :
    processLines (processLines lines) = processLines lines :=
  processLines_eq_self_iff.mpr
    (foldl_not_shouldSkipBlock (fun _ h => absurd h (List.not_mem_nil _)) lines)

/-- States that agree append the same lines over any run. -/
theorem foldl_agree : ∀ (lines : List String) (s t : Loop), Agree s t → ∃ kept,
    (lines.foldl step s).outputLines = s.outputLines ++ kept ∧
      (lines.foldl step t).outputLines = t.outputLines ++ kept
  | [], _, _, _ => ⟨[], (List.append_nil _).symm, (List.append_nil _).symm⟩
  | l :: ls, s, t, h => by
    obtain ⟨kept, hs, ht⟩ := foldl_agree ls _ _ (agree_step h l)
    rw [List.foldl_cons, List.foldl_cons, hs, ht, outputLines_step, outputLines_step,
      show keeps t l = keeps s l by simp [keeps, h.1]]
    split
    · exact ⟨l :: kept, by simp, by simp⟩
    · exact ⟨kept, rfl, rfl⟩

/-- Once no block is open, the rest of the file is processed as if it started there. -/
theorem foldl_of_not_skipping (s : Loop) (hs : s.skipUntilBraceCloses = false)
    (lines : List String) :
    (lines.foldl step s).outputLines = s.outputLines ++ processLines lines := by
  obtain ⟨kept, h, hi⟩ :=
    foldl_agree lines s .init ⟨hs, fun h => absurd (hs.symm.trans h) (by decide)⟩
  rw [h, processLines, hi]
  rfl

/-! ### Blocks -/

/-- The depth after `line` inside a block: `package` and `import` lines do not count. -/
def nextDepth (d : Int) (line : String) : Int := if isHeader line then d else d + braceDelta line

/-- Every line of `body` is reached with the block still open, from depth `d`. -/
def StaysOpen : Int → List String → Prop
  | _, [] => True
  | d, l :: ls => 0 < d ∧ StaysOpen (nextDepth d l) ls

instance decidableStaysOpen : ∀ (d : Int) (body : List String), Decidable (StaysOpen d body)
  | _, [] => inferInstanceAs (Decidable True)
  | d, l :: ls =>
    have := decidableStaysOpen (nextDepth d l) ls
    inferInstanceAs (Decidable (0 < d ∧ StaysOpen (nextDepth d l) ls))

/-- A round while a block is open keeps only a `package` or `import` line and moves the
depth by the line's braces. -/
theorem step_of_inside {s : Loop} (hs : Consistent s) (hpos : 0 < s.braceDepth) (line : String) :
    step s line = { s with
      outputLines := s.outputLines ++ if isHeader line then [line] else []
      skipUntilBraceCloses := decide (0 < nextDepth s.braceDepth line)
      braceDepth := nextDepth s.braceDepth line } := by
  have hskip : s.skipUntilBraceCloses = true := by simpa [Consistent, hpos] using hs
  cases hh : isHeader line
  · simp [step_of_skipping hh hskip, nextDepth, hh]
  · simp [step_of_isHeader hh, nextDepth, hh, hskip, hpos]

/-- Over lines it stays open for, a block keeps only their `package` and `import` lines,
and its depth moves by their braces. -/
theorem foldl_of_staysOpen (body : List String) : ∀ s : Loop, Consistent s →
    StaysOpen s.braceDepth body →
      body.foldl step s = { s with
        outputLines := s.outputLines ++ body.filter isHeader
        skipUntilBraceCloses := decide (0 < body.foldl nextDepth s.braceDepth)
        braceDepth := body.foldl nextDepth s.braceDepth } := by
  induction body with
  | nil => rintro ⟨_, _, _⟩ hs -; simp_all [Consistent]
  | cons l ls ih =>
    rintro s hs ⟨hpos, hrest⟩
    rw [List.foldl_cons, step_of_inside hs hpos, ih]
    · cases hh : isHeader l <;> simp [List.filter_cons, hh]
    · rfl
    · exact hrest

/-- A block is removed as a unit. After lines `pre` that leave no block open, a line that
opens one and lines `body` over which it stays open: of the block only the `package` and
`import` lines of `body` are kept, and once its braces close, the lines `post` after it
are processed as if the file started there. -/
theorem processLines_block (pre body : List String) (opener : String)
    (hpre : (pre.foldl step .init).skipUntilBraceCloses = false)
    (hopen : isHeader opener = false) (hskip : shouldSkipBlock (strStrip opener) = true)
    (hbody : StaysOpen (braceDelta opener) body) :
    processLines (pre ++ opener :: body) = processLines pre ++ body.filter isHeader ∧
      (body.foldl nextDepth (braceDelta opener) ≤ 0 → ∀ post : List String,
        processLines (pre ++ opener :: body ++ post) =
          processLines pre ++ body.filter isHeader ++ processLines post) := by
  have hopened := @step_of_opens (pre.foldl step .init) opener hopen hpre hskip
  have hrun := foldl_of_staysOpen body (step (pre.foldl step .init) opener)
    (by rw [hopened]; rfl) (by rw [hopened]; exact hbody)
  rw [hopened] at hrun
  have hblock : (pre ++ opener :: body).foldl step .init =
      body.foldl step (step (pre.foldl step .init) opener) := by
    rw [List.foldl_append, List.foldl_cons]
  refine ⟨by rw [processLines, hblock, hopened, hrun]; rfl, fun hclose post => ?_⟩
  rw [processLines, List.foldl_append, hblock, hopened, hrun, foldl_of_not_skipping _
    (decide_eq_false (not_lt.mpr hclose))]
  rfl

theorem processLines_block_ffiConverter :
    (["package uniffi.cove\n"].foldl step .init).skipUntilBraceCloses = false ∧
      isHeader "object FfiConverterString \x7b\n" = false ∧
      shouldSkipBlock (strStrip "object FfiConverterString \x7b\n") = true ∧
      StaysOpen (braceDelta "object FfiConverterString \x7b\n") ["  fun lift() = 0\n", "\x7d\n"] ∧
      ["  fun lift() = 0\n", "\x7d\n"].foldl nextDepth
        (braceDelta "object FfiConverterString \x7b\n") ≤ 0 ∧
      processLines (["package uniffi.cove\n"] ++ "object FfiConverterString \x7b\n" ::
        ["  fun lift() = 0\n", "\x7d\n"] ++ ["data class Fee(val sats: Long)\n"]) =
        ["package uniffi.cove\n", "data class Fee(val sats: Long)\n"] := by
  have hpre : (["package uniffi.cove\n"].foldl step .init).skipUntilBraceCloses = false := by
    decide
  have hopen : isHeader "object FfiConverterString \x7b\n" = false := by decide
  have hskip : shouldSkipBlock (strStrip "object FfiConverterString \x7b\n") = true := by decide
  have hbody : StaysOpen (braceDelta "object FfiConverterString \x7b\n")
      ["  fun lift() = 0\n", "\x7d\n"] := by decide
  have hclose : ["  fun lift() = 0\n", "\x7d\n"].foldl nextDepth
      (braceDelta "object FfiConverterString \x7b\n") ≤ 0 := by decide
  refine ⟨hpre, hopen, hskip, hbody, hclose, ?_⟩
  rw [(processLines_block _ _ _ hpre hopen hskip hbody).2 hclose]
  decide

/-- An opener whose own braces do not leave the depth positive ends its block on its own
line: only the opener is dropped, and the lines after it are processed as if the file
started there. -/
theorem processLines_opener_closed (pre post : List String) (opener : String)
    (hpre : (pre.foldl step .init).skipUntilBraceCloses = false)
    (hopen : isHeader opener = false) (hskip : shouldSkipBlock (strStrip opener) = true)
    (hclosed : braceDelta opener ≤ 0) :
    processLines (pre ++ opener :: post) = processLines pre ++ processLines post := by
  rw [processLines, List.foldl_append, List.foldl_cons, step_of_opens hopen hpre hskip,
    foldl_of_not_skipping _ (decide_eq_false (not_lt.mpr hclosed))]
  rfl

theorem processLines_opener_closed_nextLine :
    (["package uniffi.cove\n"].foldl step .init).skipUntilBraceCloses = false ∧
      isHeader "object FfiConverterFoo\n" = false ∧
      shouldSkipBlock (strStrip "object FfiConverterFoo\n") = true ∧
      braceDelta "object FfiConverterFoo\n" ≤ 0 ∧
      processLines (["package uniffi.cove\n"] ++ "object FfiConverterFoo\n" ::
        ["\x7b\n", "  fun lift() = 0\n", "\x7d\n"]) =
        ["package uniffi.cove\n", "\x7b\n", "  fun lift() = 0\n", "\x7d\n"] := by
  have hpre : (["package uniffi.cove\n"].foldl step .init).skipUntilBraceCloses = false := by
    decide
  have hopen : isHeader "object FfiConverterFoo\n" = false := by decide
  have hskip : shouldSkipBlock (strStrip "object FfiConverterFoo\n") = true := by decide
  have hclosed : braceDelta "object FfiConverterFoo\n" ≤ 0 := by decide
  refine ⟨hpre, hopen, hskip, hclosed, ?_⟩
  rw [processLines_opener_closed _ _ _ hpre hopen hskip hclosed]
  decide

/-! ### Files -/

theorem isLines_processLines (contents : String) : IsLines (processLines (readlines contents)) :=
  (isLines_readlines contents).sublist (sublist_processLines _)

theorem processContents_processContents (contents : String) :
    processContents (processContents contents) = processContents contents := by
  unfold processContents
  rw [readlines_writelines (isLines_processLines contents), processLines_processLines]

/-- The script leaves a file as it is exactly when the file has no `\r` and no line that
opens a block. -/
theorem processContents_eq_self_iff (contents : String) :
    processContents contents = contents ↔
      '\r' ∉ contents.data ∧ ∀ l ∈ readlines contents, shouldSkipBlock (strStrip l) = false := by
  constructor
  · intro h
    have hcr : '\r' ∉ contents.data := by
      rw [← h]
      exact not_mem_writelines (isLines_processLines contents)
    refine ⟨hcr, processLines_eq_self_iff.mp (eq_of_writelines_eq (sublist_processLines _)
      (isLines_readlines contents) ?_)⟩
    rw [writelines_readlines, translateNewlines_of_not_mem hcr]
    exact h
  · rintro ⟨hcr, hl⟩
    rw [processContents, processLines_eq_self_iff.mpr hl, writelines_readlines,
      translateNewlines_of_not_mem hcr]

/-! ### The command line -/

/-- The exceptions of the `__main__` block: `open` on a path that names no file, and
`sys.exit`. -/
inductive ScriptExc where
  | fileNotFoundError (path : String)
  | systemExit (code : Nat)
  deriving DecidableEq, Repr

/-- The files the script can open: the decoded contents at each path that names one. -/
abbrev Files := String → Option String

/-- `process_file(input_path)`: `open(input_path, 'r')` raises when no file is there, and
otherwise the file is rewritten with the lines the loop keeps. -/
def processFile (inputPath : String) : EStateM ScriptExc Files Unit := fun files =>
  match files inputPath with
  | some contents => .ok () (Function.update files inputPath (some (processContents contents)))
  | none => .error (.fileNotFoundError inputPath) files

/-- The `__main__` block on `sys.argv`: with no file named it exits with status 1, and
otherwise it processes the files in turn. Its messages are not modelled. -/
def main (argv : List String) : EStateM ScriptExc Files Unit :=
  if argv.length < 2 then throw (.systemExit 1) else argv.tail.forM processFile

/-- The files after each path of `paths` that names one is rewritten once. -/
def rewriteAll (paths : List String) (files : Files) : Files := fun p =>
  if p ∈ paths then (files p).map processContents else files p

/-- What the loop of the `__main__` block does over `paths`: the files are rewritten up to
the first path that names none, where `FileNotFoundError` is raised. -/
def loopSpec (paths : List String) (files : Files) : EStateM.Result ScriptExc Files Unit :=
  match paths.dropWhile fun p => (files p).isSome with
  | [] => .ok () (rewriteAll paths files)
  | p :: _ =>
    .error (.fileNotFoundError p) (rewriteAll (paths.takeWhile fun p => (files p).isSome) files)

/-- The files after a run, whether it returned or raised. -/
def filesAfter : EStateM.Result ScriptExc Files Unit → Files
  | .ok _ files | .error _ files => files

section Files

variable {files : Files} {q : String} {contents : String}

theorem rewriteAll_nil (files : Files) : rewriteAll [] files = files := rfl

theorem isSome_rewriteAll (paths : List String) (files : Files) (p : String) :
    (rewriteAll paths files p).isSome = (files p).isSome := by
  unfold rewriteAll
  split <;> simp

/-- A file named twice is rewritten as if named once. -/
theorem rewriteAll_update (paths : List String) (hq : files q = some contents) :
    rewriteAll paths (Function.update files q (some (processContents contents))) =
      rewriteAll (q :: paths) files := by
  funext p
  by_cases hp : p = q
  · subst hp
    simp [rewriteAll, hq, processContents_processContents]
  · simp [rewriteAll, hp]

theorem rewriteAll_rewriteAll (paths : List String) (files : Files) :
    rewriteAll paths (rewriteAll paths files) = rewriteAll paths files := by
  funext p
  by_cases hp : p ∈ paths
  · cases hf : files p <;> simp [rewriteAll, hp, hf, processContents_processContents]
  · simp [rewriteAll, hp]

/-- The loop of the `__main__` block meets `loopSpec` on every list of paths. -/
theorem forM_processFile : ∀ (paths : List String) (files : Files),
    paths.forM processFile files = loopSpec paths files
  | [], files => rfl
  | q :: qs, files => by
    cases hq : files q with
    | none =>
      show EStateM.bind (processFile q) _ files = _
      simp [EStateM.bind, processFile, hq, loopSpec, rewriteAll_nil]
    | some c =>
      have hpres : (fun p => (Function.update files q (some (processContents c)) p).isSome) =
          fun p => (files p).isSome := by
        funext p
        by_cases hp : p = q
        · subst hp; simp [hq]
        · simp [hp]
      have ih := forM_processFile qs (Function.update files q (some (processContents c)))
      show EStateM.bind (processFile q) _ files = _
      simp only [EStateM.bind, processFile, hq]
      rw [ih, loopSpec, loopSpec, hpres, List.dropWhile_cons, List.takeWhile_cons, hq]
      simp only [Option.isSome_some, if_true]
      split <;> simp [rewriteAll_update _ hq]

/-- A second pass of the loop over the files the first left behaves as the first did. -/
theorem loopSpec_filesAfter (paths : List String) (files : Files) :
    loopSpec paths (filesAfter (loopSpec paths files)) = loopSpec paths files := by
  have hpres : (fun p => (filesAfter (loopSpec paths files) p).isSome) =
      fun p => (files p).isSome := by
    funext p
    unfold loopSpec
    split <;> exact isSome_rewriteAll _ _ p
  unfold loopSpec at hpres ⊢
  rw [hpres]
  split
  · rename_i h; simp only [h, filesAfter, rewriteAll_rewriteAll]
  · rename_i h; simp only [h, filesAfter, rewriteAll_rewriteAll]

end Files

/-- The `__main__` block: with fewer than two arguments it exits with status 1 and
touches no file; otherwise it rewrites the named files in order, each once however often
it is named, and at the first path that names no file it raises `FileNotFoundError` with
the files before it rewritten and the rest untouched. -/
theorem main_eq (argv : List String) (files : Files) :
    main argv files =
      if argv.length < 2 then .error (.systemExit 1) files else loopSpec argv.tail files := by
  unfold main
  split
  · rfl
  · exact forM_processFile argv.tail files

/-- Running the script a second time on the same command line changes nothing: it returns
or raises as the first run did, and leaves the files as the first run left them. -/
theorem main_main (argv : List String) (files : Files) :
    main argv (filesAfter (main argv files)) = main argv files := by
  unfold main
  split
  · rfl
  · rw [forM_processFile, forM_processFile, loopSpec_filesAfter]

end StripFfiDuplicates
