import Mathlib.Data.List.Forall2
import Mathlib.Data.List.TakeWhile
import Statechart.Proofs.PageText
import Statechart.Proofs.Trimming

/-!
# Re-indenting a text

A text that is put on a page loses the indentation that its lines have in common. Indentation is
counted in bytes, and lines may begin with white space of any kind; still, more spaces and tabs in
front of every line add as many bytes to each indentation, so to the smallest one, and are cut off
with it. What is left does not depend on how far the text was indented to begin with.
-/

namespace Statechart.Text

variable {c : Char} {cs t u line rest out pre : List Char} {ls : List (List Char)}
  {drop : Char → Bool} {n k : Nat}

/-! ## Bytes -/

/-- The bytes of a character come before those of the rest. -/
@[simp] theorem byteLength_cons (c : Char) (cs : List Char) :
    byteLength (c :: cs) = c.utf8Size + byteLength cs := rfl

/-- The bytes of two texts. -/
@[simp] theorem byteLength_append (t u : List Char) :
    byteLength (t ++ u) = byteLength t + byteLength u := by
  induction t with
  | nil => simp [byteLength]
  | cons c t ih => rw [List.cons_append, byteLength_cons, ih, byteLength_cons, Nat.add_assoc]

/-- Only the empty text has no bytes. -/
theorem byteLength_eq_zero_iff : byteLength t = 0 ↔ t = [] := by
  cases t with
  | nil => simp [byteLength]
  | cons c t =>
    have := c.utf8Size_pos
    simp only [byteLength_cons, reduceCtorEq, iff_false]
    omega

/-- A text without its first `n` bytes is what follows a start of so many bytes. -/
theorem dropBytes_eq_some_iff : dropBytes n cs = some rest ↔
    ∃ start, cs = start ++ rest ∧ byteLength start = n := by
  fun_induction dropBytes n cs with
  | case1 cs =>
    constructor
    · rintro ⟨⟩
      exact ⟨[], rfl, rfl⟩
    · rintro ⟨start, rfl, hbytes⟩
      rw [byteLength_eq_zero_iff.mp hbytes, List.nil_append]
  | case2 n =>
    constructor
    · rintro ⟨⟩
    · rintro ⟨start, hcs, hbytes⟩
      obtain ⟨rfl, -⟩ := List.append_eq_nil_iff.mp hcs.symm
      simp [byteLength] at hbytes
  | case3 n c cs hle ih =>
    rw [ih]
    constructor
    · rintro ⟨start, rfl, hbytes⟩
      refine ⟨c :: start, rfl, ?_⟩
      rw [byteLength_cons, hbytes, Nat.add_sub_of_le hle]
    · rintro ⟨start, hcs, hbytes⟩
      cases start with
      | nil => simp [byteLength] at hbytes
      | cons d start =>
        obtain ⟨rfl, rfl⟩ := List.cons.inj hcs
        rw [byteLength_cons] at hbytes
        exact ⟨start, rfl, by omega⟩
  | case4 n c cs hlt =>
    constructor
    · rintro ⟨⟩
    · rintro ⟨start, hcs, hbytes⟩
      cases start with
      | nil => simp [byteLength] at hbytes
      | cons d start =>
        obtain ⟨rfl, rfl⟩ := List.cons.inj hcs
        rw [byteLength_cons] at hbytes
        omega

/-- Of two starts of a text, the one with fewer bytes starts the other. -/
theorem prefix_of_byteLength_le {start : List Char} (ht : t <+: cs) (hstart : start <+: cs)
    (hle : byteLength start ≤ byteLength t) : start <+: t := by
  rcases List.prefix_or_prefix_of_prefix hstart ht with h | ⟨more, rfl⟩
  · exact h
  · rw [byteLength_append] at hle
    have hmore : byteLength more = 0 := by omega
    exact ⟨[], by rw [byteLength_eq_zero_iff.mp hmore, List.append_nil, List.append_nil]⟩

/-- Behind a part of its indentation, a line that is not blank is not blank either. -/
theorem not_isBlank_of_dropBytes (hline : isBlank line = false) (hn : n ≤ indentBytes line)
    (h : dropBytes n line = some rest) : isBlank rest = false := by
  obtain ⟨start, rfl, rfl⟩ := dropBytes_eq_some_iff.mp h
  have hstart : start <+: (start ++ rest).takeWhile isWhite :=
    prefix_of_byteLength_le (List.takeWhile_prefix _) (List.prefix_append start rest) hn
  have hwhite : isBlank start :=
    List.all_eq_true.mpr fun c hc => List.mem_takeWhile_imp (hstart.subset hc)
  simpa [isBlank, List.all_append, show start.all isWhite = true from hwhite] using hline

/-! ## Trimming -/

/-- Nothing is left of a text at its end exactly if it is blank. -/
theorem trimEnd_eq_nil_iff : trimEnd cs = [] ↔ isBlank cs := by
  simp [trimEnd, isBlank, List.dropWhile_eq_nil_iff]

/-- What is left of a text at its end was there before. -/
theorem mem_of_mem_trimEnd (h : c ∈ trimEnd cs) : c ∈ cs := by
  rw [trimEnd, List.mem_reverse] at h
  exact List.mem_reverse.mp ((List.dropWhile_sublist isWhite).mem h)

/-! ## Lines -/

/-- Lines have no line feed in them. -/
theorem not_mem_of_mem_linesAfter (hcs : '\n' ∉ cs) (h : line ∈ linesAfter cs t) : '\n' ∉ line := by
  induction t generalizing cs with
  | nil =>
    rw [linesAfter] at h
    split at h
    · simp at h
    · rw [List.mem_singleton.mp h, List.mem_reverse]
      exact hcs
  | cons c t ih =>
    rw [linesAfter] at h
    split at h
    · rcases List.mem_cons.mp h with rfl | h
      · unfold closeLine
        split <;> simp_all
      · exact ih List.not_mem_nil h
    · next hc => exact ih (by simpa [hcs] using Ne.symm (by simpa using hc)) h

/-- Induction over the lines of a text: the last one has no line feed in it, and any other is
followed by one. -/
theorem line_induction {motive : List Char → Prop} (last : ∀ t, '\n' ∉ t → motive t)
    (line : ∀ t u, '\n' ∉ t → motive u → motive (t ++ '\n' :: u)) (cs : List Char) : motive cs := by
  induction hlength : cs.length using Nat.strongRecOn generalizing cs with
  | ind length ih =>
    subst hlength
    by_cases hmem : '\n' ∈ cs
    · obtain ⟨t, u, rfl, ht⟩ := List.eq_append_cons_of_mem hmem
      have hshorter : u.length < (t ++ '\n' :: u).length := by
        simp only [List.length_append, List.length_cons]
        omega
      exact line t u ht (ih u.length hshorter u rfl)
    · exact last cs hmem

/-- A text without line feeds is one line. -/
theorem splitOn_of_unbroken (h : '\n' ∉ cs) : cs.splitOn '\n' = [cs] := by
  rw [List.splitOn_eq_splitOnP]
  refine List.splitOnP_eq_singleton fun c hc => ?_
  simpa using fun hc' : c = '\n' => h (hc' ▸ hc)

/-- The parts between line feeds have none. -/
theorem not_mem_of_mem_splitOn (h : line ∈ cs.splitOn '\n') : '\n' ∉ line := by
  induction cs using line_induction with
  | last t ht =>
    rw [splitOn_of_unbroken ht] at h
    rw [List.mem_singleton.mp h]
    exact ht
  | line t u ht ih =>
    rw [List.splitOn_append_cons_self, splitOn_of_unbroken ht] at h
    rcases List.mem_cons.mp h with rfl | h
    · exact ht
    · exact ih h

/-- Reading on up to a line feed. -/
theorem linesAfter_append (h : '\n' ∉ t) (acc u : List Char) :
    linesAfter acc (t ++ u) = linesAfter (t.reverse ++ acc) u := by
  induction t generalizing acc with
  | nil => rfl
  | cons c t ih =>
    rw [List.mem_cons, not_or] at h
    rw [List.cons_append, linesAfter, if_neg (by simpa using Ne.symm h.1), ih h.2,
      List.reverse_cons, List.append_assoc, List.singleton_append]

/-- Without carriage returns, the lines of a text are the parts between its line feeds, unless there
is one at its end. -/
theorem lines_eq_splitOn (hcs : '\r' ∉ cs) (hne : cs ≠ []) (hlast : cs.getLast? ≠ some '\n') :
    lines cs = cs.splitOn '\n' := by
  induction cs using line_induction with
  | last t ht =>
    rw [splitOn_of_unbroken ht, lines, ← List.append_nil t, linesAfter_append ht]
    simp [linesAfter, hne]
  | line t u ht ih =>
    have hu : u ≠ [] := by
      rintro rfl
      simp at hlast
    rw [List.mem_append, List.mem_cons, not_or, not_or] at hcs
    rw [List.getLast?_append_of_ne_nil t (List.cons_ne_nil _ u),
      List.getLast?_cons_of_ne_nil hu] at hlast
    have hclose : closeLine t.reverse = t := by
      unfold closeLine
      split
      · next hreverse => exact absurd (List.mem_reverse.mp (hreverse ▸ List.mem_cons_self)) hcs.1
      · exact List.reverse_reverse t
    rw [List.splitOn_append_cons_self, splitOn_of_unbroken ht, ← ih hcs.2.2 hu hlast, lines,
      linesAfter_append ht, List.append_nil, linesAfter, if_pos (by rfl), hclose]
    rfl

/-! ## Indentation in front of every line -/

/-- The line with the indentation in front of it, unless it is blank. -/
def indentLine (pre line : List Char) : List Char := if isBlank line then line else pre ++ line

/-- The text with the indentation in front of each of its lines that is not blank. -/
def reindent (pre cs : List Char) : List Char :=
  ['\n'].intercalate ((cs.splitOn '\n').map (indentLine pre))

/-- Nothing is put in front of nothing. -/
@[simp] theorem reindent_nil (pre : List Char) : reindent pre [] = [] := rfl

/-- A text without line feeds is re-indented as a line. -/
theorem reindent_of_unbroken (h : '\n' ∉ cs) : reindent pre cs = indentLine pre cs := by
  rw [reindent, splitOn_of_unbroken h, List.map_singleton, List.intercalate_singleton]

/-- Texts with a separator between them, in two parts. -/
theorem intercalate_append (sep : List Char) {ls ls' : List (List Char)} (h : ls ≠ [])
    (h' : ls' ≠ []) :
    sep.intercalate (ls ++ ls') = sep.intercalate ls ++ (sep ++ sep.intercalate ls') := by
  induction ls with
  | nil => exact absurd rfl h
  | cons line ls ih =>
    rw [List.cons_append,
      List.intercalate_cons_of_ne_nil (List.append_ne_nil_of_right_ne_nil ls h')]
    cases ls with
    | nil => simp
    | cons second ls =>
      rw [ih (List.cons_ne_nil second ls),
        List.intercalate_cons_of_ne_nil (List.cons_ne_nil second ls)]
      simp only [List.append_assoc]

/-- Texts with a line feed between them are re-indented each by itself. -/
theorem reindent_append_newline (pre t u : List Char) :
    reindent pre (t ++ '\n' :: u) = reindent pre t ++ '\n' :: reindent pre u := by
  have hne (cs : List Char) : (cs.splitOn '\n').map (indentLine pre) ≠ [] := by
    simp [List.splitOn_ne_nil]
  rw [reindent, List.splitOn_append_cons_self, List.map_append,
    intercalate_append _ (hne t) (hne u)]
  rfl

/-- Line feeds around a text stay around it. -/
theorem reindent_around (ht : ∀ c ∈ t, c = '\n') (hu : ∀ c ∈ u, c = '\n') (pre cs : List Char) :
    reindent pre (t ++ cs ++ u) = t ++ reindent pre cs ++ u := by
  have hstart (cs : List Char) : reindent pre (t ++ cs) = t ++ reindent pre cs := by
    induction t with
    | nil => rfl
    | cons c t ih =>
      obtain ⟨rfl, hrest⟩ := List.forall_mem_cons.mp ht
      have hcons := reindent_append_newline pre [] (t ++ cs)
      rw [ih hrest] at hcons
      exact hcons
  have hend (cs : List Char) : reindent pre (cs ++ u) = reindent pre cs ++ u := by
    induction u generalizing cs with
    | nil => simp
    | cons c u ih =>
      obtain ⟨rfl, hrest⟩ := List.forall_mem_cons.mp hu
      have hcons := ih hrest (cs ++ ['\n'])
      rw [reindent_append_newline, reindent_nil] at hcons
      simpa using hcons
  rw [List.append_assoc, hstart, hend, List.append_assoc]

/-- A line with indentation in front of it ends as before. -/
theorem getLast?_indentLine (pre line : List Char) :
    (indentLine pre line).getLast? = line.getLast? := by
  unfold indentLine
  split
  · rfl
  · next hblank =>
    refine List.getLast?_append_of_ne_nil pre ?_
    rintro rfl
    exact hblank rfl

/-- A line with indentation in front of it begins with the indentation, or as before. -/
theorem mem_head?_indentLine (h : c ∈ (indentLine pre line).head?) : c ∈ pre ∨ c ∈ line.head? := by
  unfold indentLine at h
  split at h
  · exact .inr h
  · cases pre with
    | nil => exact .inr h
    | cons d pre => exact .inl (by simp [Option.some.inj h])

/-- A re-indented text ends as before. -/
theorem getLast?_reindent (pre cs : List Char) : (reindent pre cs).getLast? = cs.getLast? := by
  by_cases hmem : '\n' ∈ cs.reverse
  · obtain ⟨u, t, hcs, hu⟩ := List.eq_append_cons_of_mem hmem
    have hcs' : cs = t.reverse ++ '\n' :: u.reverse := by
      rw [← List.reverse_reverse cs, hcs]
      simp
    have hlast : reindent pre u.reverse = indentLine pre u.reverse :=
      reindent_of_unbroken (by simpa using hu)
    rw [hcs', reindent_append_newline, hlast]
    simp only [List.getLast?_append, List.getLast?_cons, getLast?_indentLine, Option.some_or]
  · rw [reindent_of_unbroken (by simpa using hmem), getLast?_indentLine]

/-- A re-indented text begins with the indentation, or as before. -/
theorem mem_head?_reindent (h : c ∈ (reindent pre cs).head?) : c ∈ pre ∨ c ∈ cs.head? := by
  by_cases hmem : '\n' ∈ cs
  · obtain ⟨t, u, rfl, ht⟩ := List.eq_append_cons_of_mem hmem
    rw [reindent_append_newline, reindent_of_unbroken ht, List.head?_append] at h
    rw [List.head?_append]
    cases hhead : (indentLine pre t).head? with
    | some d =>
      obtain rfl : d = c := by simpa [hhead] using h
      rcases mem_head?_indentLine hhead with hpre | ht'
      · exact .inl hpre
      · exact .inr (by simp [Option.mem_def.mp ht'])
    | none =>
      obtain rfl : t = [] := by
        by_contra hne
        have hlast := getLast?_indentLine pre t
        rw [List.head?_eq_none_iff.mp hhead] at hlast
        exact hne (List.getLast?_eq_none_iff.mp hlast.symm)
      rw [hhead] at h
      exact .inr h
  · rw [reindent_of_unbroken hmem] at h
    exact mem_head?_indentLine h

/-- A text that is trimmed is so with indentation in front of its lines that is not dropped. -/
theorem isTrimmed_reindent (hpre : ∀ c ∈ pre, drop c = false) (h : IsTrimmed drop cs) :
    IsTrimmed drop (reindent pre cs) := by
  refine ⟨fun c hc => ?_, ?_⟩
  · rcases mem_head?_reindent hc with hmem | hhead
    · exact hpre c hmem
    · exact h.1 c hhead
  · rw [getLast?_reindent]
    exact h.2

/-- What a re-indented text is made of. -/
theorem mem_reindent (h : c ∈ reindent pre cs) : c ∈ pre ∨ c ∈ cs := by
  have hline {line : List Char} (h : c ∈ indentLine pre line) : c ∈ pre ∨ c ∈ line := by
    unfold indentLine at h
    split at h
    · exact .inr h
    · exact List.mem_append.mp h
  induction cs using line_induction with
  | last t ht =>
    rw [reindent_of_unbroken ht] at h
    exact hline h
  | line t u ht ih =>
    rw [reindent_append_newline, reindent_of_unbroken ht, List.mem_append, List.mem_cons] at h
    rw [List.mem_append, List.mem_cons]
    rcases h with h | h | h
    · exact (hline h).imp_right .inl
    · exact .inr (.inr (.inl h))
    · exact (ih h).imp_right fun hu => .inr (.inr hu)

/-- The parts of a re-indented text between its line feeds are the re-indented ones. -/
theorem splitOn_reindent (hpre : '\n' ∉ pre) (cs : List Char) :
    (reindent pre cs).splitOn '\n' = (cs.splitOn '\n').map (indentLine pre) := by
  refine List.splitOn_intercalate '\n' ?_ (by simp [List.splitOn_ne_nil])
  intro line hline
  obtain ⟨line', hline', rfl⟩ := List.mem_map.mp hline
  have hunbroken := not_mem_of_mem_splitOn hline'
  unfold indentLine
  split
  · exact hunbroken
  · exact List.not_mem_append hpre hunbroken

/-- Spaces and tabs. -/
def IsMargin (pre : List Char) : Prop := ∀ c ∈ pre, c = ' ' ∨ c = '\t'

instance : DecidablePred IsMargin := fun pre => List.decidableBAll _ pre

/-- A margin has no part of a line break in it. -/
theorem IsMargin.isBreak (h : IsMargin pre) (hc : c ∈ pre) : (c == '\n' || c == '\r') = false := by
  rcases h c hc with rfl | rfl <;> decide

/-- A margin is white space. -/
theorem IsMargin.isWhite (h : IsMargin pre) (hc : c ∈ pre) : isWhite c := by
  rcases h c hc with rfl | rfl <;> decide

/-- Without carriage returns, the lines of a text without line breaks around it are the parts
between its line feeds; an empty text has none. -/
theorem lines_trimBreaks (hcs : '\r' ∉ cs) :
    lines (trimBreaks cs) = if trimBreaks cs = [] then [] else (trimBreaks cs).splitOn '\n' := by
  obtain ⟨t, u, htext, htrim, -, -⟩ := exists_eq_trimBy (fun c => c == '\n' || c == '\r') cs
  split
  · next hnil => rw [hnil]; rfl
  · next hne =>
    refine lines_eq_splitOn (fun hmem => hcs ?_) hne fun hlast => ?_
    · rw [htext]
      exact List.mem_append_left u (List.mem_append_right t hmem)
    · exact absurd (htrim.2 '\n' hlast) (by decide)

/-- Line breaks around a text are around it with a margin in front of its lines. -/
theorem trimBreaks_reindent (hpre : IsMargin pre) (hcs : '\r' ∉ cs) :
    trimBreaks (reindent pre cs) = reindent pre (trimBreaks cs) := by
  obtain ⟨t, u, htext, htrim, ht, hu⟩ := exists_eq_trimBy (fun c => c == '\n' || c == '\r') cs
  change cs = t ++ trimBreaks cs ++ u at htext
  change IsTrimmed _ (trimBreaks cs) at htrim
  have hfeed {c : Char} (hbreak : c == '\n' || c == '\r') (hc : c ∈ cs) : c = '\n' := by
    rcases Bool.or_eq_true_iff.mp hbreak with h | h
    · exact beq_iff_eq.mp h
    · exact absurd (beq_iff_eq.mp h ▸ hc) hcs
  have hstart : ∀ c ∈ t, c = '\n' := fun c hc => hfeed (ht c hc) (by rw [htext]; simp [hc])
  have hend : ∀ c ∈ u, c = '\n' := fun c hc => hfeed (hu c hc) (by rw [htext]; simp [hc])
  have haround : reindent pre cs = t ++ reindent pre (trimBreaks cs) ++ u := by
    conv => lhs; rw [htext]
    exact reindent_around hstart hend pre _
  rw [haround]
  exact trimBy_eq (isTrimmed_reindent (fun c => hpre.isBreak) htrim) ht hu

/-- The lines of a text with a margin in front of them are its lines with the margin
in front of each. -/
theorem lines_reindent (hpre : IsMargin pre) (hcs : '\r' ∉ cs) :
    lines (trimBreaks (reindent pre cs)) = (lines (trimBreaks cs)).map (indentLine pre) := by
  have hreturn : '\r' ∉ reindent pre cs := by
    intro hmem
    rcases mem_reindent hmem with h | h
    · exact absurd (hpre.isBreak h) (by decide)
    · exact hcs h
  have hfeed : '\n' ∉ pre := fun hmem => absurd (hpre.isBreak hmem) (by decide)
  rw [lines_trimBreaks hreturn, lines_trimBreaks hcs, trimBreaks_reindent hpre hcs,
    splitOn_reindent hfeed]
  by_cases hnil : trimBreaks cs = []
  · simp [hnil]
  · have hne : reindent pre (trimBreaks cs) ≠ [] := by
      intro hnil'
      have hlast := getLast?_reindent pre (trimBreaks cs)
      rw [hnil'] at hlast
      exact hnil (List.getLast?_eq_none_iff.mp hlast.symm)
    rw [if_neg hne, if_neg hnil]

/-! ## Common indentation -/

/-- The common indentation is that of some line that is not blank, if there is one, and at
most that of each. -/
theorem commonIndent_spec (ls : List (List Char)) :
    (∀ line ∈ ls, isBlank line = false → commonIndent ls ≤ indentBytes line) ∧
      ((∃ line ∈ ls, isBlank line = false) → ∃ line ∈ ls, isBlank line = false ∧
        indentBytes line = commonIndent ls) := by
  unfold commonIndent
  cases hmin : ((ls.filter fun line => !isBlank line).map indentBytes).min? with
  | none =>
    have hnone : ∀ line ∈ ls, isBlank line = true := by simpa using hmin
    refine ⟨fun line hline _ => Nat.zero_le _, fun h => ?_⟩
    obtain ⟨line, hline, hblank⟩ := h
    rw [hnone line hline] at hblank
    cases hblank
  | some n =>
    obtain ⟨hmem, hle⟩ := List.min?_eq_some_iff.mp hmin
    refine ⟨fun line hline hblank => hle _ ?_, fun _ => ?_⟩
    · exact List.mem_map_of_mem (List.mem_filter.mpr ⟨hline, by simp [hblank]⟩)
    · obtain ⟨line, hline, hbytes⟩ := List.mem_map.mp hmem
      obtain ⟨hline, hblank⟩ := List.mem_filter.mp hline
      exact ⟨line, hline, by simpa using hblank, hbytes⟩

/-- White space in front of a line leaves it blank or not. -/
theorem isBlank_indentLine (hpre : ∀ c ∈ pre, isWhite c) (line : List Char) :
    isBlank (indentLine pre line) = isBlank line := by
  unfold indentLine
  split
  · rfl
  · simp [isBlank, List.all_append, List.all_eq_true.mpr hpre]

/-- White space in front of a line that is not blank adds to its indentation. -/
theorem indentBytes_indentLine (hpre : ∀ c ∈ pre, isWhite c) (hline : isBlank line = false) :
    indentBytes (indentLine pre line) = byteLength pre + indentBytes line := by
  rw [indentLine, if_neg (by simp [hline]), indentBytes, List.takeWhile_append_of_pos hpre,
    byteLength_append, indentBytes]

/-- White space in front of every line adds to the common indentation. -/
theorem commonIndent_map_indentLine (hpre : ∀ c ∈ pre, isWhite c)
    (h : ∃ line ∈ ls, isBlank line = false) :
    commonIndent (ls.map (indentLine pre)) = byteLength pre + commonIndent ls := by
  obtain ⟨hle, hleast⟩ := commonIndent_spec ls
  obtain ⟨hle', hleast'⟩ := commonIndent_spec (ls.map (indentLine pre))
  obtain ⟨line, hline, hblank, hbytes⟩ := hleast h
  have hfirst := hle' _ (List.mem_map_of_mem hline) (by rw [isBlank_indentLine hpre, hblank])
  rw [indentBytes_indentLine hpre hblank, hbytes] at hfirst
  obtain ⟨_, hmem, hblank', hbytes'⟩ :=
    hleast' ⟨_, List.mem_map_of_mem hline, by rw [isBlank_indentLine hpre, hblank]⟩
  obtain ⟨line', hline', rfl⟩ := List.mem_map.mp hmem
  rw [isBlank_indentLine hpre] at hblank'
  rw [indentBytes_indentLine hpre hblank'] at hbytes'
  have hsecond := hle line' hline' hblank'
  omega

/-- The bytes of what is in front of a text are cut off first. -/
theorem dropBytes_append (pre cs : List Char) (n : Nat) :
    dropBytes (byteLength pre + n) (pre ++ cs) = dropBytes n cs := by
  refine Option.ext fun rest => ?_
  rw [dropBytes_eq_some_iff, dropBytes_eq_some_iff]
  constructor
  · rintro ⟨start, hcs, hbytes⟩
    obtain ⟨more, rfl⟩ : pre <+: start :=
      prefix_of_byteLength_le ⟨rest, hcs.symm⟩ (List.prefix_append pre cs) (by omega)
    rw [List.append_assoc] at hcs
    rw [byteLength_append] at hbytes
    exact ⟨more, List.append_cancel_left hcs, by omega⟩
  · rintro ⟨start, rfl, rfl⟩
    exact ⟨pre ++ start, by rw [List.append_assoc], byteLength_append pre start⟩

/-- A line with white space in front of it is cut to the same, if as much more is cut off. -/
theorem cutLine_indentLine (n : Nat) (hpre : ∀ c ∈ pre, isWhite c) (hline : isBlank line = false) :
    cutLine (byteLength pre + n) (indentLine pre line) = cutLine n line := by
  have hblank : isBlank (pre ++ line) = false := by
    rw [← hline, ← isBlank_indentLine hpre line, indentLine, if_neg (by simp [hline])]
  simp [cutLine, indentLine, hline, hblank, dropBytes_append]

/-- Functions that agree on the members of a list take it to the same. -/
theorem mapM_congr {f g : List Char → Option (List Char)} (h : ∀ line ∈ ls, f line = g line) :
    ls.mapM f = ls.mapM g := by
  induction ls with
  | nil => rfl
  | cons line ls ih =>
    rw [List.forall_mem_cons] at h
    rw [List.mapM_cons, List.mapM_cons, h.1, ih h.2]

/-- A list is taken to the results for its members, if each has one. -/
theorem mapM_eq_some_iff {f : List Char → Option (List Char)} {outs : List (List Char)} :
    ls.mapM f = some outs ↔ List.Forall₂ (fun line out => f line = some out) ls outs := by
  induction ls generalizing outs with
  | nil => simp [eq_comm]
  | cons line ls ih =>
    rw [List.mapM_cons]
    constructor
    · intro h
      obtain ⟨out, hout, h⟩ := Option.bind_eq_some_iff.mp h
      obtain ⟨rest, hrest, h⟩ := Option.bind_eq_some_iff.mp h
      obtain rfl := Option.some.inj h
      exact .cons hout (ih.mp hrest)
    · rintro (_ | ⟨hout, hrest⟩)
      rw [hout, ih.mpr hrest]
      rfl

/-- Every result is that for a member. -/
theorem exists_of_mem_mapM {f : List Char → Option (List Char)} {outs : List (List Char)}
    (h : ls.mapM f = some outs) (hout : out ∈ outs) : ∃ line ∈ ls, f line = some out := by
  have hresults := mapM_eq_some_iff.mp h
  clear h
  induction hresults with
  | nil => simp at hout
  | cons hfirst _ ih =>
    rcases List.mem_cons.mp hout with rfl | hout
    · exact ⟨_, List.mem_cons_self, hfirst⟩
    · obtain ⟨line, hline, hresult⟩ := ih hout
      exact ⟨line, List.mem_cons_of_mem _ hline, hresult⟩

/-- A text with a margin in front of its lines is freed of it along with the indentation it had. -/
theorem dedent_reindent (hpre : IsMargin pre) (hcs : '\r' ∉ cs) :
    dedent (reindent pre cs) = dedent cs := by
  have hwhite : ∀ c ∈ pre, isWhite c := fun c => hpre.isWhite
  unfold dedent
  dsimp only
  rw [lines_reindent hpre hcs, List.mapM_map]
  refine mapM_congr fun line hline => ?_
  rw [Function.comp_apply]
  cases hblank : isBlank line with
  | true => simp [indentLine, cutLine, hblank]
  | false =>
    rw [commonIndent_map_indentLine hwhite ⟨line, hline, hblank⟩,
      cutLine_indentLine _ hwhite hblank]

/-- What is left of a line that loses `n` bytes: nothing of a blank one, and else what follows so
many bytes, without the white space at its end. -/
def IsCut (n : Nat) (line out : List Char) : Prop :=
  if isBlank line then out = [] else ∃ start rest, line = start ++ rest ∧ byteLength start = n ∧
    out = trimEnd rest

/-- Lines are cut to what is left of them. -/
theorem cutLine_eq_some_iff : cutLine n line = some out ↔ IsCut n line out := by
  unfold cutLine IsCut
  split
  · simp [eq_comm]
  · rw [Option.map_eq_some_iff]
    constructor
    · rintro ⟨rest, hrest, rfl⟩
      obtain ⟨start, hline, hbytes⟩ := dropBytes_eq_some_iff.mp hrest
      exact ⟨start, rest, hline, hbytes, rfl⟩
    · rintro ⟨start, rest, hline, hbytes, rfl⟩
      exact ⟨rest, dropBytes_eq_some_iff.mpr ⟨start, hline, hbytes⟩, rfl⟩

/-- The lines of a text that is freed of its common indentation. -/
theorem dedent_eq_some_iff {outs : List (List Char)} :
    dedent cs = some outs ↔
      List.Forall₂ (IsCut (commonIndent (lines (trimBreaks cs)))) (lines (trimBreaks cs)) outs := by
  simp only [dedent, mapM_eq_some_iff, cutLine_eq_some_iff]

/-- Of lines that are not blank something is left, and no line feed is in it. -/
theorem ne_nil_of_mem_dedent {outs : List (List Char)} (h : dedent cs = some outs)
    (hlines : ∀ line ∈ lines (trimBreaks cs), isBlank line = false) (hout : out ∈ outs) :
    out ≠ [] ∧ '\n' ∉ out := by
  obtain ⟨line, hline, hcut⟩ := exists_of_mem_mapM h hout
  have hblank := hlines line hline
  rw [cutLine, if_neg (by simp [hblank])] at hcut
  obtain ⟨rest, hrest, rfl⟩ := Option.map_eq_some_iff.mp hcut
  have hrest' := not_isBlank_of_dropBytes hblank ((commonIndent_spec _).1 line hline hblank) hrest
  obtain ⟨start, rfl, -⟩ := dropBytes_eq_some_iff.mp hrest
  refine ⟨fun hnil => ?_, fun hmem => ?_⟩
  · rw [trimEnd_eq_nil_iff.mp hnil] at hrest'
    cases hrest'
  · exact not_mem_of_mem_linesAfter List.not_mem_nil hline
      (List.mem_append_right start (mem_of_mem_trimEnd hmem))

end Statechart.Text

namespace Statechart.Page

open Text

/-- A margin of spaces and tabs in front of the lines of a text makes no difference on a page, as
long as the text has no carriage returns. What is written is the text's lines, without line breaks
around them. Each loses as many bytes as the least indented one has white space in front, and the
white space at its end; blank ones become empty. On a page with no line open and no blank line
wanted, these lines are indented and ended, and that is all that is added. -/
theorem margin_makes_no_difference {p p' : Page} {cs pre : List Char} (hcs : '\r' ∉ cs)
    (hpre : IsMargin pre) (h : p.appendLines cs = some p') :
    p.appendLines (reindent pre cs) = some p' ∧
    ∃ n outs, let ls := if trimBreaks cs = [] then [] else (trimBreaks cs).splitOn '\n'
      List.Forall₂ (IsCut n) ls outs ∧
      (∀ line ∈ ls, isBlank line = false → n ≤ indentBytes line) ∧
      ((∃ line ∈ ls, isBlank line = false) → ∃ line ∈ ls, isBlank line = false ∧
        indentBytes line = n) ∧
      p' = outs.foldl appendLine p ∧
      (p.midLine = false → p.blankWanted = false →
        p'.text.toList = p.text.toList ++ outs.flatMap p.row) := by
  obtain ⟨outs, houts, rfl⟩ := Option.map_eq_some_iff.mp h
  obtain ⟨hle, hleast⟩ := commonIndent_spec (lines (trimBreaks cs))
  refine ⟨?_, commonIndent (lines (trimBreaks cs)), outs, ?_⟩
  · rw [appendLines, dedent_reindent hpre hcs, houts]
    rfl
  · dsimp only
    rw [← lines_trimBreaks hcs]
    exact ⟨dedent_eq_some_iff.mp houts, hle, hleast, rfl,
      fun hmid hwanted => toList_text_foldl_appendLine hmid hwanted outs⟩

/-- Lines behind an em space of three bytes, with a margin of a tab and a space in front. -/
theorem wideMargin_makes_no_difference :
    let cs := "\n\u2003if on \x7b\n\u2003  \u2003go(); \n \t\n\u2003\x7d\n\n".toList
    let pre := "\t ".toList
    reindent pre cs =
      "\n\t \u2003if on \x7b\n\t \u2003  \u2003go(); \n \t\n\t \u2003\x7d\n\n".toList ∧
    ∃ p', ({ level := 1 } : Page).appendLines cs = some p' ∧
      ({ level := 1 } : Page).appendLines (reindent pre cs) = some p' ∧
      p'.text = "    if on \x7b\n      \u2003go();\n\n    \x7d\n" := by
  intro cs pre
  obtain ⟨p', hp', htext⟩ : ∃ p', ({ level := 1 } : Page).appendLines cs = some p' ∧
      p'.text = "    if on \x7b\n      \u2003go();\n\n    \x7d\n" := by
    apply Exists.intro
    exact ⟨rfl, by decide +kernel⟩
  exact ⟨by decide +kernel, p', hp',
    (margin_makes_no_difference (by decide +kernel) (by decide +kernel) hp').1, htext⟩

end Statechart.Page
