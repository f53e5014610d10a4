import Mathlib.Data.List.Induction
import Statechart.Proofs.Reindenting

/-!
# How a page is laid out

Whatever is asked of a page, in whatever order, its text comes out in lines that are indented by the
blocks open when they were started, with never more than one blank line between them. A blank line
is held back until more text of the same block follows, so there is none at the start of the text
and none before a closing brace.

The number of line breaks that a text ends in carries the proof. A text begins as if behind two of
them; then it has no blank line at its start and no two in a row exactly if there are never three.
Between lines a page ends in one line break, and inside a line in none.
-/

namespace Statechart.Page

variable {p q r : Page} {op : Op} {ops : List Op} {cs t u v added more : List Char}
  {ls : List (List Char)} {indent : List Char} {n k : Nat}

/-! ## Line breaks in a row -/

/-- The number of line breaks that a text ends in, if it begins behind `n` of them; none if there
are ever three. -/
def breaks (n : Nat) : List Char → Option Nat
  | [] => some n
  | c :: rest => if c = '\n' then if n < 2 then breaks (n + 1) rest else none else breaks 0 rest

/-- Two texts have their line breaks counted one after the other. -/
theorem breaks_append (n : Nat) (t u : List Char) :
    breaks n (t ++ u) = (breaks n t).bind (breaks · u) := by
  fun_induction breaks n t with
  | case1 => rfl
  | case2 n rest hn ih => simpa [breaks, hn] using ih
  | case3 n rest hn => simp [breaks, hn]
  | case4 n c rest hc ih => simpa [breaks, hc] using ih

/-- Text without line breaks ends in none. -/
theorem breaks_of_unbroken (hne : t ≠ []) (h : '\n' ∉ t) : breaks n t = some 0 := by
  induction t generalizing n with
  | nil => exact absurd rfl hne
  | cons c rest ih =>
    rw [List.mem_cons, not_or] at h
    rw [breaks, if_neg (Ne.symm h.1)]
    cases rest with
    | nil => rfl
    | cons d rest => exact ih (List.cons_ne_nil d rest) h.2

/-- Behind two line breaks there is none. -/
theorem head?_of_breaks (h : breaks 2 t = some k) : t.head? ≠ some '\n' := by
  cases t with
  | nil => simp
  | cons c rest =>
    intro hc
    simp [breaks, Option.some.inj hc] at h

/-- The text ends in a blank line. -/
def EndsInBlank (t : List Char) : Prop := t = ['\n'] ∨ ['\n', '\n'] <:+ t

/-- A text that ends in a blank line ends in two line breaks, if there are never three. -/
theorem breaks_of_endsInBlank (h : EndsInBlank t) (hk : breaks 2 t = some k) : k = 2 ∧ t ≠ [] := by
  rcases h with rfl | ⟨u, rfl⟩
  · simp [breaks] at hk
  · rw [breaks_append] at hk
    obtain ⟨j, -, hj⟩ := Option.bind_eq_some_iff.mp hk
    simp only [breaks, if_true, Option.ite_none_right_eq_some, Option.some.injEq] at hj
    exact ⟨by omega, by simp⟩

/-! ## Lines and their indentation -/

/-- Behind the text, a new line starts. -/
def EndsLine (t : List Char) : Prop := t = [] ∨ t.getLast? = some '\n'

/-- Behind more text, a new line starts only if there is a line break in it. -/
theorem mem_of_endsLine_append (h : EndsLine (t ++ u)) (hu : u ≠ []) : '\n' ∈ u := by
  rcases h with h | h
  · exact absurd (List.append_eq_nil_iff.mp h).2 hu
  · rw [List.getLast?_append_of_ne_nil t hu] at h
    exact List.mem_of_getLast? h

/-- The indentation of a line at a level. -/
def indentBy (indent : List Char) (n : Nat) : List Char := (List.replicate n indent).flatten

/-- Indentation without line breaks has none at any level. -/
theorem not_mem_indentBy (h : '\n' ∉ indent) (n : Nat) : '\n' ∉ indentBy indent n := by
  simp only [indentBy, List.mem_flatten, List.mem_replicate]
  rintro ⟨_, ⟨-, rfl⟩, hmem⟩
  exact h hmem

/-- Lines that start in what is added to a text, and are not blank, are indented by `n` levels. -/
def Indented (indent : List Char) (n : Nat) (t added : List Char) : Prop :=
  ∀ u v, added = u ++ v → EndsLine (t ++ u) → v ≠ [] → v.head? ≠ some '\n' → indentBy indent n <+: v

namespace Indented

/-- A line starts in the first text that is added, or in the second one. -/
theorem append (h : Indented indent n t added) (h' : Indented indent n (t ++ added) more) :
    Indented indent n t (added ++ more) := by
  intro u v huv hline hne hhead
  rcases List.append_eq_append_iff.mp huv with ⟨u, rfl, rfl⟩ | ⟨v, rfl, rfl⟩
  · rw [← List.append_assoc] at hline
    exact h' u v rfl hline hne hhead
  · by_cases hv : v = []
    · subst hv
      rw [List.append_nil] at h'
      exact h' [] more rfl (by rwa [List.append_nil]) hne hhead
    · rw [List.head?_append_of_ne_nil v hv] at hhead
      exact (h u v rfl hline hv hhead).trans (List.prefix_append v more)

/-- Nothing starts in nothing. -/
theorem nil (t : List Char) : Indented indent n t [] := by
  intro u v huv _ hne _
  exact absurd (List.append_eq_nil_iff.mp huv.symm).2 hne

/-- Only a blank line starts in a line break. -/
theorem newline (t : List Char) : Indented indent n t ['\n'] := by
  intro u v huv _ hne hhead
  rcases List.append_eq_singleton_iff.mp huv.symm with ⟨rfl, rfl⟩ | ⟨rfl, rfl⟩
  · exact absurd rfl hhead
  · exact absurd rfl hne

/-- A line that is indented. -/
theorem line (hindent : '\n' ∉ indent) (h : '\n' ∉ cs) (t : List Char) :
    Indented indent n t (indentBy indent n ++ cs) := by
  intro u v huv hline _ _
  by_cases hu : u = []
  · rw [hu, List.nil_append] at huv
    exact huv ▸ List.prefix_append _ cs
  · have hmem := List.mem_append_left v (mem_of_endsLine_append hline hu)
    rw [← huv, List.mem_append] at hmem
    exact (hmem.elim (not_mem_indentBy hindent n) h).elim

/-- More text on a line. -/
theorem inside (ht : ¬ EndsLine t) (h : '\n' ∉ cs) : Indented indent n t cs := by
  intro u v huv hline _ _
  by_cases hu : u = []
  · rw [hu, List.append_nil] at hline
    exact absurd hline ht
  · exact absurd (huv ▸ List.mem_append_left v (mem_of_endsLine_append hline hu)) h

end Indented

/-! ## Pages between operations -/

/-- A page as operations leave it: line breaks stand only between lines, one after each, and in
front of a line one more at most. -/
structure Settled (p : Page) : Prop where
  newline : p.style.newline = "\n"
  indent : '\n' ∉ p.style.indent.toList
  inside : p.midLine → breaks 2 p.text.toList = some 0
  between : p.midLine = false → p.text.toList = [] ∨ breaks 2 p.text.toList = some 1

namespace Settled

/-- Inside a line no new one starts. -/
theorem not_endsLine (h : Settled p) (hmid : p.midLine) : ¬ EndsLine p.text.toList := by
  have hbreaks := h.inside hmid
  rintro (hnil | hlast)
  · rw [hnil] at hbreaks
    cases hbreaks
  · obtain ⟨t, ht⟩ := List.getLast?_eq_some_iff.mp hlast
    rw [ht, breaks_append] at hbreaks
    obtain ⟨j, -, hj⟩ := Option.bind_eq_some_iff.mp hbreaks
    simp [breaks] at hj

/-- There are never three line breaks in a row. -/
theorem exists_breaks (h : Settled p) : ∃ k, breaks 2 p.text.toList = some k := by
  cases hmid : p.midLine with
  | true => exact ⟨0, h.inside hmid⟩
  | false =>
    rcases h.between hmid with hnil | hbreaks
    · exact ⟨2, by rw [hnil]; rfl⟩
    · exact ⟨1, hbreaks⟩

/-- The blank line before a new line is the only one there. -/
theorem exists_breaks_blankLine (h : Settled p) (hmid : p.midLine = false) :
    (∃ k, breaks 2 (p.text.toList ++ p.blankLine) = some k) ∧
      Indented indent n p.text.toList p.blankLine := by
  unfold blankLine
  split
  · next hblank =>
    have hne : p.text.toList ≠ [] := by
      intro hnil
      have hwritten : p.written = [] := by simpa [text] using hnil
      simp [endsBlank, hwritten] at hblank
    have hbreaks := (h.between hmid).resolve_left hne
    rw [h.newline]
    exact ⟨⟨2, by rw [breaks_append, hbreaks]; rfl⟩, .newline _⟩
  · rw [List.append_nil]
    exact ⟨h.exists_breaks, .nil _⟩

/-- Between lines a new one starts. -/
theorem endsLine (h : Settled p) (hmid : p.midLine = false) : EndsLine p.text.toList := by
  rcases h.between hmid with hnil | hbreaks
  · exact .inl hnil
  · rcases List.eq_nil_or_concat p.text.toList with hnil | ⟨t, c, ht⟩
    · exact .inl hnil
    · rw [List.concat_eq_append] at ht
      rw [ht, breaks_append] at hbreaks
      obtain ⟨j, -, hj⟩ := Option.bind_eq_some_iff.mp hbreaks
      by_cases hc : c = '\n'
      · exact .inr (by simp [ht, hc])
      · simp [breaks, hc] at hj

/-- Between lines there is no blank one yet. -/
theorem not_endsInBlank (h : Settled p) (hmid : p.midLine = false) :
    ¬ EndsInBlank p.text.toList := by
  intro hblank
  rcases h.between hmid with hnil | hbreaks
  · rw [hnil] at hblank
    simp [EndsInBlank] at hblank
  · have htwo := (breaks_of_endsInBlank hblank hbreaks).1
    omega

end Settled

/-- From one page to the other, text is added whose lines are indented by `n` levels. -/
structure Extends (n : Nat) (p q : Page) : Prop where
  style : q.style = p.style
  settled : Settled q
  text : ∃ added, q.text.toList = p.text.toList ++ added ∧
    Indented p.style.indent.toList n p.text.toList added

/-- The page that a closing brace is written on: no line is open, and no blank line is wanted. -/
def lowered (p : Page) : Page :=
  { (if p.midLine then p.endLine else p) with level := p.level - 1, blankWanted := false }

/-- No line is open on the page that a closing brace is written on. -/
theorem midLine_lowered (p : Page) : p.lowered.midLine = false := by
  change (if p.midLine then p.endLine else p).midLine = false
  split
  · rfl
  · next hmid => exact Bool.eq_false_iff.mpr hmid

/-- The page that a closing brace is written on keeps its style. -/
theorem style_lowered (p : Page) : p.lowered.style = p.style := by
  change (if p.midLine then p.endLine else p).style = p.style
  split <;> rfl

/-- In front of a closing brace at most the open line is ended. -/
theorem toList_text_lowered (h : p.style.newline = "\n") :
    p.lowered.text.toList = p.text.toList ∨ p.lowered.text.toList = p.text.toList ++ ['\n'] := by
  change (if p.midLine then p.endLine else p).text.toList = _ ∨
    (if p.midLine then p.endLine else p).text.toList = _
  split
  · rw [toList_text_endLine, h]
    exact .inr rfl
  · exact .inl rfl

/-- How a block is closed. -/
theorem closeBlock_eq (p : Page) (trailing : List Char) :
    p.closeBlock trailing = ((p.lowered.append ['}']).append trailing).endLine := by
  unfold closeBlock lowered
  split <;> rfl

/-- Text is added in two steps. -/
theorem Extends.trans (h : Extends n p q) (h' : Extends n q r) : Extends n p r := by
  obtain ⟨added, htext, hlines⟩ := h.text
  obtain ⟨more, htext', hlines'⟩ := h'.text
  rw [h.style, htext] at hlines'
  exact ⟨h'.style.trans h.style, h'.settled,
    added ++ more, by rw [htext', htext, List.append_assoc], hlines.append hlines'⟩

namespace Settled

/-- The level and the wish for a blank line are not part of the text. -/
theorem same (h : Settled p) (hstyle : q.style = p.style) (hwritten : q.written = p.written)
    (hmid : q.midLine = p.midLine) : Extends n p q := by
  have htext : q.text = p.text := by rw [text, text, hwritten]
  refine ⟨hstyle, ⟨?_, ?_, ?_, ?_⟩, [], ?_, .nil _⟩
  · rw [hstyle, h.newline]
  · rw [hstyle]
    exact h.indent
  · rw [hmid, htext]
    exact h.inside
  · rw [hmid, htext]
    exact h.between
  · rw [htext, List.append_nil]

/-- Text is added to an open line, or to a new one that is indented. -/
theorem append (h : Settled p) (hcs : '\n' ∉ cs) (hne : p.midLine ∨ cs ≠ []) :
    Extends p.level p (p.append cs) := by
  have hmid : (p.append cs).midLine = true := midLine_append p cs
  have htext := p.toList_text_append cs
  have hnew : breaks 2 (p.append cs).text.toList = some 0 ∧
      Indented p.style.indent.toList p.level p.text.toList (p.lead ++ cs) := by
    by_cases hopen : p.midLine
    · rw [lead_of_midLine hopen, List.nil_append] at htext ⊢
      refine ⟨?_, .inside (h.not_endsLine hopen) hcs⟩
      rw [htext, breaks_append, h.inside hopen, Option.bind_some]
      by_cases hnil : cs = []
      · rw [hnil]
        rfl
      · exact breaks_of_unbroken hnil hcs
    · have hclosed : p.midLine = false := Bool.eq_false_iff.mpr hopen
      have hcsne : p.indentation ++ cs ≠ [] :=
        List.append_ne_nil_of_right_ne_nil _ (hne.resolve_left hopen)
      have hunbroken : '\n' ∉ p.indentation ++ cs :=
        List.not_mem_append (not_mem_indentBy h.indent p.level) hcs
      obtain ⟨⟨k, hk⟩, hblank⟩ := h.exists_breaks_blankLine hclosed
      rw [lead_of_not_midLine hclosed, List.append_assoc] at htext ⊢
      refine ⟨?_, hblank.append (.line h.indent hcs _)⟩
      rw [htext, ← List.append_assoc, breaks_append, hk, Option.bind_some,
        breaks_of_unbroken hcsne hunbroken]
  refine ⟨p.style_append cs, ⟨?_, ?_, fun _ => hnew.1, fun hout => ?_⟩, p.lead ++ cs, htext, hnew.2⟩
  · rw [style_append, h.newline]
  · rw [style_append]
    exact h.indent
  · rw [hmid] at hout
    cases hout

/-- An open line is ended. -/
theorem endLine (h : Settled p) (hmid : p.midLine) : Extends n p p.endLine := by
  have hnewline : p.style.newline.toList = ['\n'] := by
    rw [h.newline]
    rfl
  have htext : p.endLine.text.toList = p.text.toList ++ ['\n'] := by
    rw [toList_text_endLine, hnewline]
  refine ⟨rfl, ⟨h.newline, h.indent, fun hopen => ?_, fun _ => .inr ?_⟩, ['\n'], htext, .newline _⟩
  · cases hopen
  · rw [htext, breaks_append, h.inside hmid]
    rfl

/-- An open line is ended, if there is one. -/
theorem endAnyLine (h : Settled p) : Extends n p (if p.midLine then p.endLine else p) := by
  split
  · next hmid => exact h.endLine hmid
  · exact h.same rfl rfl rfl

/-- A line is written. -/
theorem appendLine (h : Settled p) (hcs : '\n' ∉ cs) (hne : p.midLine ∨ cs ≠ []) :
    Extends p.level p (p.appendLine cs) := by
  rw [appendLine_of_ne_nil hne]
  have happend := h.append hcs hne
  exact happend.trans (happend.settled.endLine (midLine_append p cs))

/-- Lines are written one after the other. -/
theorem foldl_appendLine (h : Settled p) (hls : ∀ line ∈ ls, line ≠ [] ∧ '\n' ∉ line) :
    Extends p.level p (ls.foldl Page.appendLine p) := by
  induction ls generalizing p with
  | nil => exact h.same rfl rfl rfl
  | cons line ls ih =>
    obtain ⟨⟨hne, hunbroken⟩, hrest⟩ := List.forall_mem_cons.mp hls
    have hfirst := h.appendLine hunbroken (.inr hne)
    have hmore := ih hfirst.settled hrest
    rw [level_appendLine] at hmore
    exact hfirst.trans hmore

/-- Text is added, if any, and the line is ended. -/
theorem finishLine (h : Settled p) (hcs : '\n' ∉ cs) : Extends p.level p (p.finishLine cs) := by
  unfold Page.finishLine
  dsimp only
  by_cases hnil : cs = []
  · rw [hnil]
    exact h.endAnyLine
  · have happend := h.append hcs (.inr hnil)
    have hpage : (if cs.isEmpty then p else p.append cs) = p.append cs :=
      if_neg (by simpa using hnil)
    rw [hpage]
    exact happend.trans happend.settled.endAnyLine

/-- A block is opened, on the open line or on a new one. -/
theorem openBlock (h : Settled p) : Extends p.level p p.openBlock := by
  have hbrace :
      Extends p.level p (if p.midLine then (p.put [' ', '{']).endLine else p.appendLine ['{']) := by
    split
    · next hmid =>
      have hput : p.put [' ', '{'] = p.append [' ', '{'] := by
        rw [Page.append, startLine, if_pos hmid]
      have happend : Extends p.level p (p.append [' ', '{']) := h.append (by decide) (.inl hmid)
      rw [hput]
      exact happend.trans (happend.settled.endLine (midLine_append p _))
    · exact h.appendLine (by decide) (.inr (by decide))
  exact hbrace.trans (hbrace.settled.same rfl rfl rfl)

/-- The open line is ended before a closing brace. -/
theorem lowered (h : Settled p) : Extends (p.level - 1) p p.lowered := by
  have hended : Extends (p.level - 1) p (if p.midLine then p.endLine else p) := h.endAnyLine
  exact hended.trans (hended.settled.same rfl rfl rfl)

/-- A closing brace gets a line that is indented by one level less. -/
theorem closeBlock (h : Settled p) (hcs : '\n' ∉ cs) :
    Extends (p.level - 1) p (p.closeBlock cs) := by
  have hlowered := h.lowered
  have hbrace : Extends p.lowered.level p.lowered (p.lowered.append ['}']) :=
    hlowered.settled.append (by decide) (.inr (by decide))
  have htrailing := hbrace.settled.append hcs (.inl (midLine_append p.lowered _))
  rw [level_append] at htrailing
  have hline := hbrace.trans (htrailing.trans (htrailing.settled.endLine (midLine_append _ cs)))
  rw [closeBlock_eq]
  exact hlowered.trans hline

end Settled

/-! ## Runs -/

/-- The operation is given sound texts: no line breaks, except between several lines,
and no blank lines. -/
def Op.IsSound : Op → Prop
  | .append text | .appendLine text => text ≠ [] ∧ '\n' ∉ text
  | .appendLines text =>
    (Text.dedent text).isSome ∧ ∀ line ∈ Text.lines (Text.trimBreaks text),
      Text.isBlank line = false
  | .finishLine text | .closeBlock text => '\n' ∉ text
  | .openBlock | .wantBlank => True

instance : (op : Op) → Decidable op.IsSound
  | .append _ | .appendLine _ => inferInstanceAs (Decidable (_ ∧ _))
  | .appendLines _ => inferInstanceAs (Decidable (_ ∧ ∀ line ∈ _, Text.isBlank line = false))
  | .finishLine _ | .closeBlock _ => inferInstanceAs (Decidable (¬ _))
  | .openBlock | .wantBlank => inferInstanceAs (Decidable True)

/-- The number of blocks that are open when the operation starts its lines, with
`n` open before it. -/
def Op.openAtStart (n : Nat) : Op → Nat
  | .closeBlock _ => n - 1
  | _ => n

/-- The number of blocks that are open behind the operation, with `n` open before it. -/
def Op.openAtEnd (n : Nat) : Op → Nat
  | .openBlock => n + 1
  | .closeBlock _ => n - 1
  | _ => n

/-- The number of blocks that are open behind operations on a fresh page. -/
def openBlocks (ops : List Op) : Nat := ops.foldl Op.openAtEnd 0

/-- Every operation that is given sound texts extends the page by lines that are indented by the
blocks open then. -/
theorem exists_perform (h : Settled p) (hop : op.IsSound) : ∃ q, p.perform op = some q ∧
    Extends (op.openAtStart p.level) p q ∧ q.level = op.openAtEnd p.level := by
  cases op with
  | append text => exact ⟨_, rfl, h.append hop.2 (.inr hop.1), level_append p text⟩
  | appendLine text => exact ⟨_, rfl, h.appendLine hop.2 (.inr hop.1), level_appendLine p text⟩
  | appendLines text =>
    obtain ⟨ls, hls⟩ := Option.isSome_iff_exists.mp hop.1
    refine ⟨ls.foldl appendLine p, ?_,
      h.foldl_appendLine fun line => Text.ne_nil_of_mem_dedent hls hop.2,
      level_foldl_appendLine p ls⟩
    rw [perform, appendLines, hls]
    rfl
  | finishLine text => exact ⟨_, rfl, h.finishLine hop, level_finishLine p text⟩
  | openBlock => exact ⟨_, rfl, h.openBlock, level_openBlock p⟩
  | closeBlock trailing => exact ⟨_, rfl, h.closeBlock hop, level_closeBlock p trailing⟩
  | wantBlank => exact ⟨_, rfl, h.same rfl rfl rfl, rfl⟩

/-- One more operation. -/
theorem run_concat (p : Page) (ops : List Op) (op : Op) :
    p.run (ops ++ [op]) = (p.run ops).bind (·.perform op) := by
  rw [run_append]
  refine congrArg (Option.bind _) (funext fun q => ?_)
  rw [run_cons]
  exact Option.bind_fun_some _

/-- A fresh page that breaks lines by line feeds and is indented by the text. -/
def fresh (indent : String) : Page := { style := ⟨indent, "\n"⟩ }

/-- Operations that are given sound texts can be done, and leave a settled page. -/
theorem exists_run {indent : String} (hindent : '\n' ∉ indent.toList)
    (hops : ∀ op ∈ ops, op.IsSound) :
    ∃ q, (fresh indent).run ops = some q ∧ Settled q ∧ q.style = ⟨indent, "\n"⟩ ∧
      q.level = openBlocks ops := by
  induction ops using List.reverseRecOn with
  | nil =>
    refine ⟨fresh indent, rfl, ⟨rfl, hindent, fun hmid => ?_, fun _ => .inl rfl⟩, rfl, rfl⟩
    cases hmid
  | append_singleton ops op ih =>
    rw [List.forall_mem_append] at hops
    obtain ⟨p, hrun, hp, hstyle, hlevel⟩ := ih hops.1
    obtain ⟨q, hq, hextends, hlevel'⟩ := exists_perform hp (hops.2 op List.mem_cons_self)
    refine ⟨q, ?_, hextends.settled, hextends.style.trans hstyle, ?_⟩
    · rw [run_concat, hrun, Option.bind_some, hq]
    · rw [hlevel', hlevel, openBlocks, openBlocks, List.foldl_concat]

/-- Text on a page stays there. -/
theorem prefix_of_run {indent : String} (hindent : '\n' ∉ indent.toList) {before after : List Op}
    (hops : ∀ op ∈ before ++ after, op.IsSound) (hp : (fresh indent).run before = some p)
    (hq : (fresh indent).run (before ++ after) = some q) : p.text.toList <+: q.text.toList := by
  induction after using List.reverseRecOn generalizing q with
  | nil =>
    rw [List.append_nil, hp] at hq
    exact ⟨[], by rw [Option.some.inj hq, List.append_nil]⟩
  | append_singleton after op ih =>
    rw [← List.append_assoc] at hops hq
    rw [List.forall_mem_append] at hops
    obtain ⟨r, hr, hsettled, -, -⟩ := exists_run hindent hops.1
    obtain ⟨q', hq', hextends, -⟩ := exists_perform hsettled (hops.2 op List.mem_cons_self)
    rw [run_concat, hr, Option.bind_some, hq'] at hq
    obtain rfl := Option.some.inj hq
    obtain ⟨added, htext, -⟩ := hextends.text
    rw [htext]
    exact (ih hops.1 hr).trans (List.prefix_append _ added)

/-- Every line that is not blank was started by an operation, and is indented by the
blocks open then. -/
theorem exists_start {indent : String} (hindent : '\n' ∉ indent.toList)
    (hops : ∀ op ∈ ops, op.IsSound) (hq : (fresh indent).run ops = some q)
    (htext : q.text.toList = u ++ v) (hline : EndsLine u) (hne : v ≠ [])
    (hhead : v.head? ≠ some '\n') :
    ∃ before op after p r, ops = before ++ op :: after ∧ (fresh indent).run before = some p ∧
      (fresh indent).run (before ++ [op]) = some r ∧ p.text.toList <+: u ∧
      u.length < r.text.toList.length ∧
      indentBy indent.toList (op.openAtStart (openBlocks before)) <+: v := by
  induction ops using List.reverseRecOn generalizing q v with
  | nil =>
    obtain rfl := Option.some.inj hq
    exact absurd (List.append_eq_nil_iff.mp htext.symm).2 hne
  | append_singleton ops op ih =>
    rw [List.forall_mem_append] at hops
    obtain ⟨p, hp, hsettled, hstyle, hlevel⟩ := exists_run hindent hops.1
    obtain ⟨q', hq', hextends, -⟩ := exists_perform hsettled (hops.2 op List.mem_cons_self)
    have hrun := hq
    rw [run_concat, hp, Option.bind_some, hq'] at hq
    obtain rfl := Option.some.inj hq
    obtain ⟨added, hadded, hindented⟩ := hextends.text
    rw [hstyle, hlevel] at hindented
    have hlater : u.length < q'.text.toList.length := by
      rw [htext, List.length_append]
      exact Nat.lt_add_of_pos_right (List.length_pos_of_ne_nil hne)
    -- the line starts in what the last operation added, or before
    rcases List.append_eq_append_iff.mp (hadded.symm.trans htext) with ⟨w, rfl, rfl⟩ | ⟨w, hw, rfl⟩
    · exact ⟨ops, op, [], p, q', rfl, hp, hrun, List.prefix_append _ w, hlater,
        hindented w v rfl hline hne hhead⟩
    · by_cases hnil : w = []
      · rw [hnil, List.append_nil] at hw
        rw [hnil, List.nil_append] at hne hhead ⊢
        refine ⟨ops, op, [], p, q', rfl, hp, hrun, hw ▸ List.prefix_refl _, hlater, ?_⟩
        exact hindented [] added rfl (by rwa [List.append_nil, hw]) hne hhead
      · rw [List.head?_append_of_ne_nil w hnil] at hhead
        obtain ⟨before, op', after, p', r, rfl, hp', hr, hstart, hend, hlevels⟩ :=
          ih hops.1 hp hw hnil hhead
        exact ⟨before, op', after ++ [op], p', r, by simp, hp', hr, hstart, hend,
          hlevels.trans (List.prefix_append w added)⟩

/-! ## The layout of a text -/

/-- The text that operations give on a fresh page. -/
def typeset (indent : String) (ops : List Op) : Option (List Char) :=
  ((fresh indent).run ops).map (·.text.toList)

/-- A text that is laid out as operations ask for it. -/
structure LaidOut (indent : String) (ops : List Op) (text : List Char) : Prop where
  /-- There is no line break at the start. -/
  start : text.head? ≠ some '\n'
  /-- A blank line is not followed by another one. -/
  apart : ∀ u v, text = u ++ v → EndsInBlank u → v.head? ≠ some '\n'
  /-- A closing brace is on a line of its own right behind the earlier text, and no blank
  line is before it. -/
  closing : ∀ before trailing after, ops = before ++ .closeBlock trailing :: after →
    ∃ earlier later u, typeset indent before = some earlier ∧
      typeset indent (before ++ [.closeBlock trailing]) = some later ∧ later <+: text ∧
      (u = earlier ∨ u = earlier ++ ['\n']) ∧ EndsLine u ∧ ¬ EndsInBlank u ∧
      later = u ++
      (indentBy indent.toList (openBlocks (before ++ [.closeBlock trailing])) ++
        '}' :: trailing ++ ['\n'])
  /-- A line that is not blank was started by an operation, and begins with the indentation for the
  blocks that were open then. -/
  indented : ∀ u v, text = u ++ v → EndsLine u → v ≠ [] → v.head? ≠ some '\n' →
    ∃ before op after earlier later, ops = before ++ op :: after ∧
      typeset indent before = some earlier ∧
      typeset indent (before ++ [op]) = some later ∧ earlier <+: u ∧ u.length < later.length ∧
      indentBy indent.toList (op.openAtStart (openBlocks before)) <+: v.takeWhile (· != '\n')

/-- How the line with a closing brace is written. -/
theorem toList_text_closeBlock (h : p.style.newline = "\n") (trailing : List Char) :
    (p.closeBlock trailing).text.toList = p.lowered.text.toList ++
      (indentBy p.style.indent.toList (p.level - 1) ++ '}' :: trailing ++ ['\n']) := by
  have hlead : p.lowered.lead = indentBy p.style.indent.toList (p.level - 1) := by
    rw [lead_of_not_midLine p.midLine_lowered, blankLine_of_not_wanted rfl, indentation,
      style_lowered]
    rfl
  rw [closeBlock_eq, toList_text_endLine, toList_text_append, toList_text_append, hlead,
    lead_of_midLine (midLine_append p.lowered _), style_append, style_append, style_lowered, h]
  simp

/-- Operations in any order, given texts without line breaks and several lines without blank ones,
always give a text, and it is laid out as they ask for it. -/
theorem operations_lay_out_text {indent : String} (hindent : '\n' ∉ indent.toList)
    (hops : ∀ op ∈ ops, op.IsSound) :
    ∃ text, typeset indent ops = some text ∧ LaidOut indent ops text := by
  obtain ⟨q, hq, hsettled, -, -⟩ := exists_run hindent hops
  obtain ⟨k, hk⟩ := hsettled.exists_breaks
  have htypeset {ops : List Op} {p : Page} (hp : (fresh indent).run ops = some p) :
      typeset indent ops = some p.text.toList := by
    rw [typeset, hp]
    rfl
  refine ⟨q.text.toList, htypeset hq, head?_of_breaks hk, ?_, ?_, ?_⟩
  · intro u v huv hblank
    rw [huv, breaks_append] at hk
    obtain ⟨j, hj, hv⟩ := Option.bind_eq_some_iff.mp hk
    rw [(breaks_of_endsInBlank hblank hj).1] at hv
    exact head?_of_breaks hv
  · rintro before trailing after rfl
    rw [List.append_cons] at hops hq
    have hbefore : ∀ op ∈ before, op.IsSound := fun op hop => hops op (by simp [hop])
    obtain ⟨p, hp, hpage, hstyle, hlevel⟩ := exists_run hindent hbefore
    have hclose : (fresh indent).run (before ++ [.closeBlock trailing]) =
        some (p.closeBlock trailing) := by
      rw [run_concat, hp]
      rfl
    have hnewline : p.style.newline = "\n" := hpage.newline
    have hlowered : Settled p.lowered := hpage.lowered.settled
    refine ⟨_, _, p.lowered.text.toList, htypeset hp, htypeset hclose,
      prefix_of_run hindent hops hclose hq, toList_text_lowered hnewline,
      hlowered.endsLine p.midLine_lowered, hlowered.not_endsInBlank p.midLine_lowered, ?_⟩
    rw [toList_text_closeBlock hnewline, hstyle, hlevel, openBlocks, openBlocks, List.foldl_concat]
    rfl
  · intro u v huv hline hne hhead
    obtain ⟨before, op, after, p, r, hops', hp, hr, hstart, hend, ⟨w, rfl⟩⟩ :=
      exists_start hindent hops hq huv hline hne hhead
    refine ⟨before, op, after, _, _, hops', htypeset hp, htypeset hr, hstart, hend, ?_⟩
    rw [List.takeWhile_append_of_pos]
    · exact List.prefix_append _ _
    · intro c hc
      have hne : c ≠ '\n' := fun heq => not_mem_indentBy hindent _ (heq ▸ hc)
      simpa using hne

/-- Blank lines asked for inside a line, twice, before a brace and behind it, and one
block too many closed. -/
theorem wishes_lay_out_text :
    let ops := [.append "fn a()".toList, .wantBlank, .openBlock,
      .appendLines "\n  x();\n    y();\n".toList, .wantBlank, .wantBlank, .append "z".toList,
      .wantBlank, .finishLine "();".toList, .wantBlank, .closeBlock " // a".toList, .closeBlock [],
      .wantBlank, .appendLine "b();".toList]
    (∀ op ∈ ops, Op.IsSound op) ∧
      typeset "\t" ops =
        some "fn a() \x7b\n\tx();\n\t  y();\n\n\tz();\n\x7d // a\n\x7d\n\nb();\n".toList ∧
      LaidOut "\t" ops
        "fn a() \x7b\n\tx();\n\t  y();\n\n\tz();\n\x7d // a\n\x7d\n\nb();\n".toList := by
  intro ops
  have hops : ∀ op ∈ ops, Op.IsSound op := by decide +kernel
  have htext :
      typeset "\t" ops =
        some "fn a() \x7b\n\tx();\n\t  y();\n\n\tz();\n\x7d // a\n\x7d\n\nb();\n".toList := by
    decide +kernel
  have hindent : '\n' ∉ "\t".toList := by decide
  obtain ⟨text, htext', hlaidOut⟩ := operations_lay_out_text hindent hops
  obtain rfl := Option.some.inj (htext.symm.trans htext')
  exact ⟨hops, htext, hlaidOut⟩

end Statechart.Page
