import SnippetAudit.Finding.Scan

/-!
What the scans look at: the lines of the text with their numbers, each with the lines around it
(`mem_numberedLines`). A text has no bug exactly if no line of it matches a pattern
(`bugs_eq_nil_iff`).
-/

namespace SnippetAudit.Finding

open Text

/-- A line stands behind as many lines as its place says. -/
theorem getElem?_eq_some_iff_append {α : Type} {ls : List α} {i : Nat} {line : α} :
    ls[i]? = some line ↔ ∃ pre post, ls = pre ++ line :: post ∧ pre.length = i := by
  constructor
  · intro h
    obtain ⟨inside, rfl⟩ := List.getElem?_eq_some_iff.mp h
    refine ⟨ls.take i, ls.drop (i + 1), ?_, ?_⟩
    · rw [← List.drop_eq_getElem_cons inside, List.take_append_drop]
    · rw [List.length_take, Nat.min_eq_left (Nat.le_of_lt inside)]
  · rintro ⟨pre, post, rfl, rfl⟩
    simp

/-- **A line has the number one behind the count of the lines above it.** -/
theorem mem_numberedLines {code line : String} {number : Nat} :
    (number, line) ∈ numberedLines code ↔
      ∃ pre post, lines code = pre ++ line :: post ∧ number = pre.length + 1 := by
  rw [numberedLines, List.mem_map]
  constructor
  · rintro ⟨⟨l, i⟩, mem, same⟩
    obtain ⟨rfl, rfl⟩ := Prod.mk.inj same
    obtain ⟨pre, post, cut, rfl⟩ :=
      getElem?_eq_some_iff_append.mp (List.mk_mem_zipIdx_iff_getElem?.mp mem)
    exact ⟨pre, post, cut, rfl⟩
  · rintro ⟨pre, post, cut, rfl⟩
    refine ⟨(line, pre.length), ?_, rfl⟩
    rw [List.mk_mem_zipIdx_iff_getElem?]
    exact getElem?_eq_some_iff_append.mpr ⟨pre, post, cut, rfl⟩

theorem getElem?_numberedLines (code : String) (i : Nat) :
    (numberedLines code)[i]? = (lines code)[i]?.map fun line => (i + 1, line) := by
  rw [numberedLines, List.getElem?_map, List.getElem?_zipIdx, Option.map_map, Nat.zero_add]
  rfl

theorem map_snd_numberedLines (code : String) : (numberedLines code).map Prod.snd = lines code := by
  refine List.ext_getElem? fun i => ?_
  rw [List.getElem?_map, getElem?_numberedLines, Option.map_map]
  exact Option.map_id'

/-- What stands above a line with its number are as many lines as the number says. -/
theorem numberedLines_eq_append {code line : String} {number : Nat} {above below : List (Nat × String)}
    (cut : numberedLines code = above ++ (number, line) :: below) :
    lines code = above.map Prod.snd ++ line :: below.map Prod.snd ∧ number = above.length + 1 := by
  constructor
  · rw [← map_snd_numberedLines, cut, List.map_append, List.map_cons]
  · have here : (numberedLines code)[above.length]? = some (number, line) := by
      rw [cut]
      simp
    rw [getElem?_numberedLines] at here
    obtain ⟨_, -, same⟩ := Option.map_eq_some_iff.mp here
    exact (Prod.mk.inj same).1.symm

/-- A line has no bug if and only if it matches no pattern for bugs. -/
theorem bugsOnLine_eq_nil_iff {language : Language} {number : Nat} {line : String} :
    bugsOnLine language number line = [] ↔
      ∀ p ∈ bugPatterns language, occurs p.matcher line.toList = false := by
  rw [bugsOnLine, List.filterMap_eq_nil_iff]
  refine forall₂_congr fun p _ => ?_
  cases occurs p.matcher line.toList <;> simp

/-- A text has no bug if and only if none of its lines matches a pattern for bugs. -/
theorem bugs_eq_nil_iff {code : String} {language : Language} :
    bugs code language = [] ↔
      ∀ line ∈ lines code, ∀ p ∈ bugPatterns language, occurs p.matcher line.toList = false := by
  rw [bugs, List.flatMap_eq_nil_iff]
  constructor
  · intro h line mem
    obtain ⟨pre, post, cut⟩ := List.append_of_mem mem
    exact bugsOnLine_eq_nil_iff.mp (h _ (mem_numberedLines.mpr ⟨pre, post, cut, rfl⟩))
  · rintro h ⟨number, line⟩ mem
    obtain ⟨pre, post, cut, -⟩ := mem_numberedLines.mp mem
    exact bugsOnLine_eq_nil_iff.mpr (h line (by rw [cut]; simp))

/-- There is no bug in the empty text. -/
theorem bugs_empty (language : Language) : bugs "" language = [] := by
  rw [bugs_eq_nil_iff]
  intro line mem p _
  obtain rfl : line = "" := by simpa [lines, splitAt] using mem
  simp [occurs, occursFrom]

end SnippetAudit.Finding
