import Statechart.Proofs.Blocks

/-!
# What operations add to a page

Text on a page stays where it is; every operation adds to the end. What is added in front of a text
depends on the page: nothing on an open line, else a blank line if one is wanted and missing, and
the indentation.
-/

namespace Statechart.Page

variable {p q : Page} {cs line : List Char} {ls : List (List Char)}

/-- What is put on a page behind its text. -/
@[simp] theorem toList_text_put (p : Page) (cs : List Char) :
    (p.put cs).text.toList = p.text.toList ++ cs := by
  simp [text, put]

/-- The indentation of a line that is started now. -/
def indentation (p : Page) : List Char := (List.replicate p.level p.style.indent.toList).flatten

/-- The blank line that comes before the next line, if any. -/
def blankLine (p : Page) : List Char :=
  if p.blankWanted && !p.endsBlank then p.style.newline.toList else []

/-- What comes before the next text on the page. -/
def lead (p : Page) : List Char := if p.midLine then [] else p.blankLine ++ p.indentation

/-- Nothing comes before text on an open line. -/
theorem lead_of_midLine (h : p.midLine) : p.lead = [] := by simp [lead, h]

/-- A blank line and the indentation come before a new line. -/
theorem lead_of_not_midLine (h : p.midLine = false) : p.lead = p.blankLine ++ p.indentation := by
  simp [lead, h]

/-- Without a wish there is no blank line. -/
theorem blankLine_of_not_wanted (h : p.blankWanted = false) :
    p.blankLine = [] := by simp [blankLine, h]

/-! ## Style -/

/-- Putting text on a page leaves the style. -/
@[simp] theorem style_put (p : Page) (cs : List Char) : (p.put cs).style = p.style := rfl

/-- A blank line leaves the style. -/
@[simp] theorem style_settleBlank (p : Page) : p.settleBlank.style = p.style := by
  unfold settleBlank
  dsimp only
  split
  · split <;> rfl
  · rfl

/-- Starting a line leaves the style. -/
@[simp] theorem style_startLine (p : Page) : p.startLine.style = p.style := by
  unfold startLine
  split
  · rfl
  · exact p.style_settleBlank

/-- Ending a line leaves the style. -/
@[simp] theorem style_endLine (p : Page) : p.endLine.style = p.style := rfl

/-- Text leaves the style. -/
@[simp] theorem style_append (p : Page) (cs : List Char) : (p.append cs).style = p.style :=
  p.style_startLine

/-- A line leaves the style. -/
@[simp] theorem style_appendLine (p : Page) (cs : List Char) :
    (p.appendLine cs).style = p.style := by
  unfold appendLine
  split <;> simp

/-! ## Text -/

/-- The text of a page with its wanted blank line. -/
theorem toList_text_settleBlank (p : Page) :
    p.settleBlank.text.toList = p.text.toList ++ p.blankLine := by
  unfold settleBlank blankLine
  cases p.blankWanted <;> cases hblank : p.endsBlank <;> simp [text, put]

/-- The text of a page with a line started. -/
theorem toList_text_startLine (p : Page) : p.startLine.text.toList = p.text.toList ++ p.lead := by
  unfold startLine lead
  split
  · simp
  · change (p.settleBlank.put p.indentation).text.toList = _
    rw [toList_text_put, toList_text_settleBlank, List.append_assoc]

/-- The text of a page with text added. -/
theorem toList_text_append (p : Page) (cs : List Char) :
    (p.append cs).text.toList = p.text.toList ++ (p.lead ++ cs) := by
  rw [append, toList_text_put, toList_text_startLine, List.append_assoc]

/-- The text of a page with its line ended. -/
@[simp] theorem toList_text_endLine (p : Page) :
    p.endLine.text.toList = p.text.toList ++ p.style.newline.toList :=
  p.toList_text_put _

/-- A line that is open, or that has something on it, is written behind what comes before it. -/
theorem appendLine_of_ne_nil (h : p.midLine ∨ cs ≠ []) :
    p.appendLine cs = (p.append cs).endLine := by
  rw [appendLine, if_neg]
  simpa [Decidable.imp_iff_not_or, or_comm] using h

/-- The text of a page with one more line that is open or has something on it. -/
theorem toList_text_appendLine (h : p.midLine ∨ cs ≠ []) :
    (p.appendLine cs).text.toList = p.text.toList ++ (p.lead ++ cs ++ p.style.newline.toList) := by
  rw [appendLine_of_ne_nil h, toList_text_endLine, toList_text_append, style_append,
    List.append_assoc]

/-- An empty line is a line break. -/
theorem toList_text_appendLine_nil (p : Page) :
    (p.appendLine []).text.toList = p.text.toList ++ p.style.newline.toList := by
  by_cases h : p.midLine
  · rw [toList_text_appendLine (.inl h), lead_of_midLine h, List.nil_append, List.nil_append]
  · rw [appendLine, if_pos (by simp [h]), toList_text_endLine]
    rfl

/-! ## Open lines and wishes -/

/-- Text is on an open line. -/
@[simp] theorem midLine_append (p : Page) (cs : List Char) : (p.append cs).midLine = true := by
  change p.startLine.midLine = true
  unfold startLine
  split
  · assumption
  · rfl

/-- A new line takes a wish for a blank line with it. -/
theorem blankWanted_startLine (h : p.midLine = false) : p.startLine.blankWanted = false := by
  rw [startLine, if_neg (by simp [h])]
  change p.settleBlank.blankWanted = false
  unfold settleBlank
  dsimp only
  split
  · split <;> rfl
  · next hwanted => exact Bool.eq_false_iff.mpr hwanted

/-- A line that is written as a whole takes a wish for a blank line with it. -/
theorem blankWanted_appendLine (h : p.midLine = false) (cs : List Char) :
    (p.appendLine cs).blankWanted = false := by
  unfold appendLine
  split
  · rfl
  · exact blankWanted_startLine h

/-! ## Several lines -/

/-- A line at the level of a page, with its line break; an empty one is not indented. -/
def row (p : Page) (line : List Char) : List Char :=
  (if line.isEmpty then [] else p.indentation ++ line) ++ p.style.newline.toList

/-- A line on a page with no line open and no blank line wanted. -/
theorem toList_text_appendLine_of_quiet (hmid : p.midLine = false) (hwanted : p.blankWanted = false)
    (line : List Char) : (p.appendLine line).text.toList = p.text.toList ++ p.row line := by
  cases line with
  | nil => exact p.toList_text_appendLine_nil
  | cons c line =>
    rw [toList_text_appendLine (.inr (List.cons_ne_nil c line)), lead_of_not_midLine hmid,
      blankLine_of_not_wanted hwanted]
    rfl

/-- Lines on a page with no line open and no blank line wanted are the rows of its text. -/
theorem toList_text_foldl_appendLine (hmid : p.midLine = false) (hwanted : p.blankWanted = false)
    (ls : List (List Char)) :
    (ls.foldl appendLine p).text.toList = p.text.toList ++ ls.flatMap p.row := by
  induction ls generalizing p with
  | nil => simp
  | cons line ls ih =>
    have hrow : (p.appendLine line).row = p.row := by
      funext line'
      simp [row, indentation]
    rw [List.foldl_cons, ih (midLine_appendLine p line) (blankWanted_appendLine hmid line), hrow,
      toList_text_appendLine_of_quiet hmid hwanted, List.flatMap_cons, List.append_assoc]

end Statechart.Page
