import Statechart.Proofs.LastPiece
import Statechart.Proofs.Reindenting

/-!
# The brace behind a guard

The guard of a behavior stands between `if` and the brace that opens the block. A guard on one line
is written as it is, and the brace goes on with its line. The lines of a longer guard are
re-indented, and the brace has a line of its own. So a line comment at the end of a guard takes the
brace in if the guard is on one line, and only then, as long as the indentation starts no comment
itself.
-/

namespace Statechart

namespace Text

variable {start : List Char}

/-- A line break leaves the start of the line that it ends. -/
theorem prefix_closeLine (h : '\r' ∉ start) (middle : List Char) :
    start <+: closeLine (middle ++ start.reverse) := by
  cases middle with
  | nil =>
    have hclose : closeLine start.reverse = start.reverse.reverse := by
      unfold closeLine
      split
      · next line heq => exact absurd (List.mem_reverse.mp (heq ▸ List.mem_cons_self)) h
      · rfl
    exact ⟨[], by rw [List.nil_append, hclose, List.reverse_reverse, List.append_nil]⟩
  | cons c middle =>
    -- a carriage return that is dropped is the last character read, which is behind the start
    unfold closeLine
    split
    · next line heq =>
      obtain rfl : middle ++ start.reverse = line := (List.cons.inj heq).2
      rw [List.reverse_append, List.reverse_reverse]
      exact List.prefix_append start _
    · rw [List.reverse_append, List.reverse_reverse]
      exact List.prefix_append start _

/-- What has been read of the first line is the start of it. -/
theorem exists_linesAfter (hne : start ≠ []) (h : '\r' ∉ start) (middle rest : List Char) :
    ∃ first more, linesAfter (middle ++ start.reverse) rest = first :: more ∧ start <+: first := by
  induction rest generalizing middle with
  | nil =>
    rw [linesAfter, if_neg (by simp [hne]), List.reverse_append, List.reverse_reverse]
    exact ⟨_, [], rfl, List.prefix_append start _⟩
  | cons c rest ih =>
    rw [linesAfter]
    split
    · exact ⟨_, _, rfl, prefix_closeLine h middle⟩
    · exact ih (c :: middle)

/-- Without a common indentation, lines lose the white space at their ends. -/
theorem cutLine_zero (line : List Char) : cutLine 0 line = some (trimEnd line) := by
  unfold cutLine
  split
  · next hblank => rw [trimEnd_eq_nil_iff.mpr hblank]
  · rw [dropBytes, Option.map_some]

/-- A text that starts with no white space is always freed of its common indentation,
and keeps its start. -/
theorem exists_dedent (hne : start ≠ []) (h : ∀ c ∈ start, isWhite c = false) (cs : List Char) :
    ∃ first more, dedent (start ++ cs) = some (first :: more) ∧ start <+: first := by
  have hreturn : '\r' ∉ start := fun hmem => absurd (h _ hmem) (by decide)
  have hfeed : '\n' ∉ start := fun hmem => absurd (h _ hmem) (by decide)
  obtain ⟨tail, htail⟩ : start <+: trimBreaks (start ++ cs) := by
    refine prefix_trimBy hne (fun c hc => ?_) cs
    simp [ne_of_mem_of_not_mem hc hfeed, ne_of_mem_of_not_mem hc hreturn]
  obtain ⟨line, more, hlines, back, rfl⟩ := exists_linesAfter hne hreturn [] tail
  have htext : lines (trimBreaks (start ++ cs)) = (start ++ back) :: more := by
    rw [← htail, lines, linesAfter_append hfeed, List.append_nil, ← hlines, List.nil_append]
  have hindent : commonIndent ((start ++ back) :: more) = 0 := by
    cases start with
    | nil => exact absurd rfl hne
    | cons c start =>
      have hc : isWhite c = false := h c List.mem_cons_self
      have hle :=
        (commonIndent_spec ((c :: start ++ back) :: more)).1 _ List.mem_cons_self
          (by simp [isBlank, hc])
      simpa [indentBytes, hc, byteLength] using hle
  refine ⟨trimEnd (start ++ back), more.map trimEnd, ?_, prefix_dropEnd h back⟩
  simp only [dedent, htext, hindent]
  rw [mapM_eq_some_iff, ← List.map_cons, List.forall₂_map_right_iff, List.forall₂_same]
  exact fun line _ => cutLine_zero line

end Text

namespace Page

variable {p : Page}

/-- A block that is opened on an open line. -/
theorem toList_text_openBlock_of_midLine (h : p.midLine) :
    p.openBlock.text.toList = p.text.toList ++ ([' ', '{'] ++ p.style.newline.toList) := by
  have htext : p.openBlock.text = (p.put [' ', '{']).endLine.text := by
    simp only [openBlock, h, if_true]
    rfl
  rw [htext, toList_text_endLine, toList_text_put, style_put, List.append_assoc]

/-- A block that is opened on a line of its own. -/
theorem toList_text_openBlock_of_not_midLine (h : p.midLine = false) :
    p.openBlock.text.toList = p.text.toList ++ (p.lead ++ ['{'] ++ p.style.newline.toList) := by
  have htext : p.openBlock.text = (p.appendLine ['{']).text := by
    simp only [openBlock, h]
    rfl
  rw [htext, toList_text_appendLine (.inr (List.cons_ne_nil _ _))]

/-- Lines leave a page with no line open and no blank line wanted as such a page, at the
same indentation. -/
theorem foldl_appendLine_quiet (hmid : p.midLine = false) (hwanted : p.blankWanted = false)
    (ls : List (List Char)) :
    (ls.foldl appendLine p).midLine = false ∧ (ls.foldl appendLine p).lead = p.indentation ∧
      (ls.foldl appendLine p).style = p.style := by
  induction ls generalizing p with
  | nil =>
    refine ⟨hmid, ?_, rfl⟩
    rw [List.foldl_nil, lead_of_not_midLine hmid, blankLine_of_not_wanted hwanted, List.nil_append]
  | cons line ls ih =>
    obtain ⟨hmid', hlead, hstyle⟩ :=
      ih (midLine_appendLine p line) (blankWanted_appendLine hmid line)
    refine ⟨hmid', ?_, ?_⟩
    · rw [List.foldl_cons, hlead]
      simp [indentation]
    · rw [List.foldl_cons, hstyle, style_appendLine]

/-- Rows end in a line break. -/
theorem exists_rows (p : Page) (first : List Char) (more : List (List Char)) :
    ∃ rows, first ++ p.style.newline.toList ++ more.flatMap p.row = rows ++ p.style.newline.toList ∧
      first <+: rows := by
  rcases List.eq_nil_or_concat more with rfl | ⟨init, last, rfl⟩
  · exact ⟨first, by simp, List.prefix_refl first⟩
  · refine ⟨first ++ (p.style.newline.toList ++ init.flatMap p.row ++
      if last.isEmpty then [] else p.indentation ++ last), ?_, List.prefix_append first _⟩
    simp [row]

/-- Two comments leave a page with no line open and no blank line wanted. -/
theorem exists_writeAll_comments (p : Page) (m : Machine) (this first second : String) :
    ∃ started, Stmt.writeAll m this p [.comment first, .comment second] = some started ∧
      started.midLine = false ∧
      started.blankWanted = false ∧ started.style = p.style := by
  refine ⟨(p.appendLine ("// " ++ first).toList).appendLine ("// " ++ second).toList, ?_,
    midLine_appendLine _ _, blankWanted_appendLine (midLine_appendLine _ _) _, by simp⟩
  simp only [Stmt.writeAll, Stmt.write_of_isLine _ (rfl : Stmt.isLine (.comment _) = true)]
  rfl

end Page

open Snippet (scan EndsInComment)

variable {m : Machine} {this guard : String} {b : Behavior} {p : Page}

/-- A guard on one line is written as it is, and the brace goes on with its line. -/
theorem Head.exists_write_of_unbroken (hmid : p.midLine = false) (hwanted : p.blankWanted = false)
    (h : '\n' ∉ guard.toList) :
    ∃ headed, (Head.behavior b (some guard)).write m this p = some headed ∧
      headed.openBlock.text.toList = p.text.toList ++
        (p.indentation ++ (("if " ++ guard).toList ++ [' '] ++ ['{']) ++
          p.style.newline.toList) := by
  refine ⟨p.append ("if " ++ guard).toList, by simp [Head.write, h], ?_⟩
  rw [Page.toList_text_openBlock_of_midLine (p.midLine_append _), Page.toList_text_append,
    Page.style_append, Page.lead_of_not_midLine hmid, Page.blankLine_of_not_wanted hwanted]
  simp

/-- A guard on several lines can be written, and the brace comes behind a line break
and the indentation. -/
theorem Head.exists_write_of_broken (hmid : p.midLine = false) (hwanted : p.blankWanted = false)
    (h : '\n' ∈ guard.toList) :
    ∃ headed rows, (Head.behavior b (some guard)).write m this p = some headed ∧
      headed.openBlock.text.toList = p.text.toList ++
        (p.indentation ++ (rows ++ p.style.newline.toList ++ p.indentation ++ ['{']) ++
          p.style.newline.toList) ∧
      "if".toList <+: rows := by
  have hguard : guard.toList.contains '\n' := by simpa using h
  have hcondition : ("if " ++ guard).toList = "if".toList ++ (' ' :: guard.toList) := by simp
  have hwhite : ∀ c ∈ "if".toList, Text.isWhite c = false := by
    change ∀ c ∈ ['i', 'f'], Text.isWhite c = false
    rw [List.forall_mem_cons, List.forall_mem_singleton]
    decide
  obtain ⟨first, more, hdedent, hfirst⟩ :=
    Text.exists_dedent (by decide) hwhite (' ' :: guard.toList)
  obtain ⟨rows, hrows, hprefix⟩ := p.exists_rows first more
  have hne : first ≠ [] := by
    rintro rfl
    exact absurd hfirst (by decide)
  obtain ⟨hmid', hlead, hstyle⟩ := p.foldl_appendLine_quiet hmid hwanted (first :: more)
  refine ⟨(first :: more).foldl Page.appendLine p, rows, ?_, ?_, hfirst.trans hprefix⟩
  · simp only [Head.write, hguard, if_true, hcondition, Page.appendLines, hdedent, Option.map_some]
  · rw [Page.toList_text_openBlock_of_not_midLine hmid',
      Page.toList_text_foldl_appendLine hmid hwanted, hlead, hstyle, List.flatMap_cons,
      Page.row, ← hrows]
    simp [hne]

/-- A behavior with a guard is compiled to two comments and a block. -/
theorem Compiler.code_behaviorBlock_of_guardOf {c : Compiler} (h : c.guardOf b = .ok (some guard))
    (body : Unit → Draft) : (c.behaviorBlock b body).code =
      [.comment (c.machine.describe b.owner ++ " behavior"),
        .comment ("uml: " ++ c.machine.diagramLine b),
        .block (.behavior b (some guard)) (body ()).code (body ()).fault.isNone] := by
  rw [behaviorBlock, Draft.code_andThen rfl, h]
  rfl

/-- A behavior whose guard is expanded begins with two comments, `if`, the guard and a brace.
The brace is a piece of its own if and only if what is written before it does not end in a
line comment; otherwise it is part of that comment. With line feeds for line breaks and no
slashes in the indentation, a comment takes it in exactly if the guard is on one line and ends
in a line comment. -/
theorem opening_brace_apart_iff {c : Compiler} (h : c.guardOf b = .ok (some guard))
    (body : Unit → Draft) (this : String) (p : Page) :
    ∃ first second inside closed started headed front,
      (c.behaviorBlock b body).code =
        [first, second, .block (.behavior b (some guard)) inside closed] ∧
      Stmt.writeAll c.machine this p [first, second] = some started ∧
      (Head.behavior b (some guard)).write c.machine this started = some headed ∧
      headed.openBlock.text.toList =
        started.text.toList ++ (started.indentation ++ (front ++ ['{']) ++ p.style.newline.toList) ∧
      "if".toList <+: front ∧
      ((scan (front ++ ['{'])).getLast? = some (.leaf .other ['{']) ↔ ¬EndsInComment front) ∧
      (EndsInComment front → ∃ comment, (scan (front ++ ['{'])).getLast? =
        some (.leaf .lineComment (comment ++ ['{']))) ∧
      (p.style.newline = "\n" → '/' ∉ p.style.indent.toList →
        (EndsInComment front ↔ '\n' ∉ guard.toList ∧ EndsInComment ("if " ++ guard).toList)) := by
  have hcode := Compiler.code_behaviorBlock_of_guardOf h body
  obtain ⟨started, hwrite, hmid, hwanted, hstyle⟩ := p.exists_writeAll_comments c.machine this
    (c.machine.describe b.owner ++ " behavior") ("uml: " ++ c.machine.diagramLine b)
  have hswallowed (front : List Char) : EndsInComment front →
      ∃ comment, (scan (front ++ ['{'])).getLast? =
        some (.leaf .lineComment (comment ++ ['{'])) := by
    rintro ⟨pieces, comment, hpieces⟩
    refine ⟨comment, ?_⟩
    rw [Snippet.scan_concat_of_comment Snippet.inert_brace hpieces, List.getLast?_concat]
  by_cases hguard : '\n' ∈ guard.toList
  · obtain ⟨headed, rows, hhead, htext, hstart⟩ := Head.exists_write_of_broken hmid hwanted hguard
    rw [hstyle] at htext
    refine ⟨_, _, _, _, started, headed, _, hcode, hwrite, hhead, htext, ?_,
      Snippet.getLast?_scan_concat_iff Snippet.inert_brace, hswallowed _,
      fun hnewline hindent => ?_⟩
    · exact hstart.trans ((List.prefix_append rows _).trans (List.prefix_append _ _))
    · have hslash : '/' ∉ started.indentation := by
        simpa [Page.indentation, hstyle] using fun _ => hindent
      have hends : ¬EndsInComment (rows ++ p.style.newline.toList ++ started.indentation) := by
        rw [hnewline, List.append_assoc]
        exact Snippet.not_endsInComment hslash
      exact ⟨fun h => absurd h hends, fun h => absurd hguard h.1⟩
  · obtain ⟨headed, hhead, htext⟩ := Head.exists_write_of_unbroken hmid hwanted hguard
    rw [hstyle] at htext
    refine ⟨_, _, _, _, started, headed, _, hcode, hwrite, hhead, htext, ?_,
      Snippet.getLast?_scan_concat_iff Snippet.inert_brace, hswallowed _, fun _ _ => ?_⟩
    · exact ⟨' ' :: (guard.toList ++ [' ']), by simp⟩
    · rw [Snippet.endsInComment_concat_iff Snippet.inert_blank, and_iff_right hguard]

/-- A hatch with two states. -/
def hatch : Machine :=
  ((Machine.new "Hatch").addVertex Machine.root (.state "Shut")).addVertex Machine.root
    (.state "Open")

/-- The compiler of the hatch, which expands nothing. -/
def hatchCompiler : Compiler := ⟨hatch, hatch.plan, {}, {}⟩

/-- A behavior of the hatch, with its guard. -/
def hatchPush (guard : String) : Behavior :=
  { owner := 1, triggers := ["push"], guard := some guard, action := some "ring();" }

/-- Remarks at the ends of lines keep the brace out if the guard has two lines, and take it
in if it has one. -/
theorem hatch_brace_apart_iff :
    let short := "ready // sensor"
    let long := "ready // sensor\n  && armed // both"
    hatchCompiler.guardOf (hatchPush short) = .ok (some short) ∧
      hatchCompiler.guardOf (hatchPush long) = .ok (some long) ∧
    (∃ front comment, "if".toList <+: front ∧
      (scan (front ++ ['{'])).getLast? = some (.leaf .lineComment (comment ++ ['{']))) ∧
    ∃ front, "if".toList <+: front ∧
    (scan (front ++ ['{'])).getLast? = some (.leaf .other ['{']) := by
  have hshort : hatchCompiler.guardOf (hatchPush "ready // sensor") =
    .ok (some "ready // sensor") := by decide +kernel
  have hlong : hatchCompiler.guardOf (hatchPush "ready // sensor\n  && armed // both") =
      .ok (some "ready // sensor\n  && armed // both") := by decide +kernel
  refine ⟨hshort, hlong, ?_, ?_⟩
  · obtain ⟨_, _, _, _, _, _, front, -, -, -, -, hstart, -, htaken, hends⟩ :=
      opening_brace_apart_iff hshort (fun _ => {}) "self" {}
    have hcomment : EndsInComment ("if " ++ "ready // sensor").toList :=
      ⟨[.leaf .ident "if".toList, .leaf .other [' '], .leaf .ident "ready".toList,
        .leaf .other [' ']], "// sensor".toList, by decide +kernel⟩
    obtain ⟨comment, hlast⟩ := htaken ((hends rfl (by decide)).mpr ⟨by decide, hcomment⟩)
    exact ⟨front, comment, hstart, hlast⟩
  · obtain ⟨_, _, _, _, _, _, front, -, -, -, -, hstart, hapart, -, hends⟩ :=
      opening_brace_apart_iff hlong (fun _ => {}) "self" {}
    refine ⟨front, hstart, hapart.mpr fun hcomment => ?_⟩
    exact absurd ((hends rfl (by decide)).mp hcomment).1 (by decide)

/-- The brace of the hatch's behavior is part of the remark before it. -/
theorem hatch_remark_takes_brace :
    hatchCompiler.guardOf (hatchPush "ready // sensor") = .ok (some "ready // sensor") ∧
    ((Head.behavior (hatchPush "ready // sensor") (some "ready // sensor")).write hatch
      "self" {}).map
      (fun page => page.openBlock.text) = some "if ready // sensor \x7b\n" ∧
    (scan "if ready // sensor \x7b".toList).getLast? =
      some (.leaf .lineComment "// sensor \x7b".toList) := by
  refine ⟨by decide +kernel, by decide +kernel, by decide +kernel⟩

end Statechart
