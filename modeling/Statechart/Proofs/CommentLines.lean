import Statechart.Proofs.Arguments
import Statechart.Proofs.Reindenting

/-!
# The comment in front of a behavior

In front of the code of a behavior stands a comment that shows it as on a diagram. The action is
shown with its line breaks escaped. The guard is shown as it is; it may go over several lines, and
all but the first of them are then no longer part of the comment. Nothing else in the comment can
break its line.
-/

namespace Statechart

variable {m : Machine} {b : Behavior} {c : Char} {cs part sep : List Char}
  {ls ls' : List (List Char)}

/-! ## Line feeds in texts that are put together -/

/-- Texts that are put together have only characters of their own and of the separator. -/
theorem not_mem_intercalate (hsep : c ∉ sep) (hls : ∀ other ∈ ls, c ∉ other) :
    c ∉ sep.intercalate ls := by
  induction ls with
  | nil => exact List.not_mem_nil
  | cons first ls ih =>
    rw [List.forall_mem_cons] at hls
    by_cases hnil : ls = []
    · rw [hnil, List.intercalate_singleton]
      exact hls.1
    · rw [List.intercalate_cons_of_ne_nil hnil]
      exact List.not_mem_append (List.not_mem_append hls.1 hsep) (ih hls.2)

/-- Around one of the texts that are put together, only characters of the others and of the
separator stand. -/
theorem exists_intercalate_eq (hsep : c ∉ sep) (hls : ∀ other ∈ ls, c ∉ other)
    (hls' : ∀ other ∈ ls', c ∉ other) :
    ∃ front back, sep.intercalate (ls ++ part :: ls') = front ++ part ++ back ∧ c ∉ front ∧
      c ∉ back := by
  induction ls with
  | nil =>
    by_cases hnil : ls' = []
    · exact ⟨[], [], by simp [hnil], List.not_mem_nil, List.not_mem_nil⟩
    · refine ⟨[], sep ++ sep.intercalate ls', ?_, List.not_mem_nil,
        List.not_mem_append hsep (not_mem_intercalate hsep hls')⟩
      rw [List.nil_append, List.intercalate_cons_of_ne_nil hnil, List.append_assoc, List.nil_append]
  | cons first ls ih =>
    rw [List.forall_mem_cons] at hls
    obtain ⟨front, back, heq, hfront, hback⟩ := ih hls.2
    refine ⟨first ++ sep ++ front, back, ?_,
      List.not_mem_append (List.not_mem_append hls.1 hsep) hfront, hback⟩
    rw [List.cons_append, List.intercalate_cons_of_ne_nil (by simp), heq]
    simp only [List.append_assoc]

/-- Line breaks that are shown as escapes are none. -/
theorem Behavior.not_mem_foldBreaks (cs : List Char) : '\n' ∉ foldBreaks cs := by
  fun_induction foldBreaks cs with
  | case1 => exact List.not_mem_nil
  | case2 rest ih => simp [ih]
  | case3 c rest _ hc ih => simp [ih]
  | case4 c rest _ hc ih =>
    have hne : '\n' ≠ c := fun heq => by simp [← heq] at hc
    exact List.not_mem_cons_of_ne_of_not_mem hne ih

/-- The place of a point is named by its label. -/
theorem Kind.not_mem_placeName {kind : Kind}
    (h : ∀ pointKind label, kind = .point pointKind label → '\n' ∉ label.toList) :
    '\n' ∉ kind.placeName.toList := by
  cases kind with
  | point pointKind label =>
    have hlabel := h pointKind label rfl
    cases pointKind with
    | choice =>
      change '\n' ∉ (".ChoicePoint(" ++ label ++ ")").toList
      simp [hlabel]
    | entry =>
      change '\n' ∉ (".EntryPoint(" ++ label ++ ")").toList
      simp [hlabel]
    | exit =>
      change '\n' ∉ (".ExitPoint(" ++ label ++ ")").toList
      simp [hlabel]
  | root | state =>
    change '\n' ∉ "".toList
    decide
  | initial =>
    change '\n' ∉ ".InitialState".toList
    decide
  | final =>
    change '\n' ∉ ".FinalState".toList
    decide

namespace Machine

/-- The texts that describe the vertices of a machine have no line feeds. -/
structure Unbroken (m : Machine) : Prop where
  state : ∀ v name, m.kind v = .state name → '\n' ∉ name.toList
  point : ∀ v kind label, m.kind v = .point kind label → '\n' ∉ label.toList

/-- No name in a machine has a line feed if none of the labels of its vertices has one. -/
theorem unbroken_of_labels (h : ∀ vertex ∈ m.vertices.toList, ∀ label ∈ vertex.kind.label?,
    '\n' ∉ label.toList) :
    m.Unbroken := by
  have hkind (v : Nat) : ∀ label ∈ (m.kind v).label?, '\n' ∉ label.toList := by
    unfold kind
    cases hv : m.vertices[v]? with
    | none => simp [Kind.label?]
    | some vertex => exact h vertex (by simpa using Array.mem_of_getElem? hv)
  refine ⟨fun v name hname => hkind v name ?_, fun v kind label hlabel => hkind v label ?_⟩
  · rw [hname]
    rfl
  · rw [hlabel]
    rfl

/-- In a machine whose names have no line feeds, descriptions have none. -/
theorem Unbroken.describe (h : m.Unbroken) (v : Nat) : '\n' ∉ (m.describe v).toList := by
  induction v using climb with
  | step v ih =>
    have hparent : '\n' ∉ ((m.parent v).elim "?" m.describe).toList := by
      cases hp : m.parent v with
      | none =>
        change '\n' ∉ "?".toList
        decide
      | some p => exact ih p hp
    have hplace : '\n' ∉ (m.kind v).placeName.toList := Kind.not_mem_placeName (h.point v)
    rw [describe_eq]
    cases hkind : m.kind v with
    | root name =>
      change '\n' ∉ "ROOT".toList
      decide
    | state name => exact h.state v name hkind
    | initial | point | final =>
      rw [hkind] at hplace
      rw [Kind.describeIn, String.toList_append]
      · exact List.not_mem_append hparent hplace
      all_goals simp

/-- What is shown of a behavior in front of its guard. -/
def triggerPart (b : Behavior) : List String :=
  match b.triggers with
  | [] => []
  | [trigger] => [trigger]
  | triggers => ["(" ++ String.intercalate ", " triggers ++ ")"]

/-- What is shown of a behavior behind its guard. -/
def effectPart (m : Machine) (b : Behavior) : List String :=
  (if b.hasAction then ["/ \x7b " ++ b.actionLine ++ " \x7d"] else []) ++
    match b.target with
    | some target => ["TransitionTo(" ++ m.describe target ++ ")"]
    | none => []

/-- The parts that a behavior is shown in. -/
theorem diagramLine_eq (m : Machine) (b : Behavior) : m.diagramLine b = String.intercalate " "
    (triggerPart b ++ (if b.hasGuard then ["[" ++ Text.trim (b.guard.getD "") ++ "]"] else []) ++
      m.effectPart b) := by
  rw [effectPart, ← List.append_assoc]
  rfl

/-- Triggers are shown as they are. -/
theorem not_mem_triggerPart (h : ∀ trigger ∈ b.triggers, '\n' ∉ trigger.toList) :
    ∀ part ∈ triggerPart b, '\n' ∉ part.toList := by
  unfold triggerPart
  split
  · simp
  · next trigger htriggers => simpa [htriggers] using h
  · have hjoined : '\n' ∉ [',', ' '].intercalate (b.triggers.map String.toList) :=
      not_mem_intercalate (by decide) (by simpa using h)
    simp [hjoined]

/-- Actions are shown on one line, and targets by their descriptions. -/
theorem Unbroken.not_mem_effectPart (h : m.Unbroken) :
    ∀ part ∈ m.effectPart b, '\n' ∉ part.toList := by
  have haction : '\n' ∉ b.actionLine.toList := by
    rw [Behavior.actionLine, String.toList_ofList]
    exact Behavior.not_mem_foldBreaks _
  intro part hpart
  rcases List.mem_append.mp hpart with hpart | hpart
  · split at hpart
    · simp [List.mem_singleton.mp hpart, haction]
    · cases hpart
  · split at hpart
    · next target _ => simp [List.mem_singleton.mp hpart, h.describe target]
    · cases hpart

/-- A guard that is not shown is blank. -/
theorem trim_guard_of_not_hasGuard (h : b.hasGuard = false) : Text.trim (b.guard.getD "") = "" := by
  unfold Behavior.hasGuard Behavior.hasText at h
  cases hguard : b.guard with
  | none => rfl
  | some guard =>
    have hblank : Text.isBlank guard.toList := by simpa [hguard] using h
    rw [Option.getD_some, Text.trim, Text.trimChars_eq_nil_iff.mpr hblank]

/-- The guard is the only part of what is shown of a behavior that may break the line. -/
theorem Unbroken.exists_diagramLine_eq (h : m.Unbroken)
    (htriggers : ∀ trigger ∈ b.triggers, '\n' ∉ trigger.toList) :
    ∃ front back, (m.diagramLine b).toList = front ++ (Text.trim (b.guard.getD "")).toList ++ back ∧
      '\n' ∉ front ∧ '\n' ∉ back := by
  have hfronts : ∀ part ∈ (triggerPart b).map String.toList, '\n' ∉ part := by
    simpa using not_mem_triggerPart htriggers
  have hbacks : ∀ part ∈ (m.effectPart b).map String.toList, '\n' ∉ part := by
    simpa using h.not_mem_effectPart (b := b)
  have hsep : '\n' ∉ " ".toList := by decide
  rw [diagramLine_eq, String.toList_intercalate, List.map_append, List.map_append]
  cases hguard : b.hasGuard with
  | true =>
    generalize Text.trim (b.guard.getD "") = guard
    obtain ⟨front, back, heq, hfront, hback⟩ : ∃ front back,
      " ".toList.intercalate ((triggerPart b).map String.toList ++
        ("[" ++ guard ++ "]").toList :: (m.effectPart b).map String.toList) =
          front ++ ("[" ++ guard ++ "]").toList ++ back ∧ '\n' ∉ front ∧ '\n' ∉ back :=
      exists_intercalate_eq hsep hfronts hbacks
    refine ⟨front ++ ['['], ']' :: back, ?_, by simp [hfront], by simp [hback]⟩
    rw [if_pos rfl, List.map_singleton, List.append_assoc, List.singleton_append, heq]
    simp
  | false =>
    rw [trim_guard_of_not_hasGuard hguard, if_neg Bool.false_ne_true, List.map_nil, List.append_nil]
    refine ⟨_,
      [], by rw [List.append_nil, String.toList_empty, List.append_nil], ?_, List.not_mem_nil⟩
    exact not_mem_intercalate hsep (List.forall_mem_append.mpr ⟨hfronts, hbacks⟩)

end Machine

/-- The comments that a behavior begins with. -/
theorem Compiler.exists_code_behaviorBlock (c : Compiler) (b : Behavior) (body : Unit → Draft) :
    ∃ rest, (c.behaviorBlock b body).code =
      .comment (c.machine.describe b.owner ++ " behavior") ::
        .comment ("uml: " ++ c.machine.diagramLine b) :: rest := by
  refine ⟨(Draft.given (c.guardOf b) fun guard => Draft.block (.behavior b guard) (body ())).code,
    ?_⟩
  rw [behaviorBlock, Draft.code_andThen rfl]
  rfl

/-- A comment is written behind what comes before text. -/
theorem Stmt.exists_write_comment (m : Machine) (this text : String) {p : Page}
    (h : p.style.newline = "\n") :
    ∃ q, Stmt.write m this p (.comment text) = some q ∧
      q.text.toList = p.text.toList ++ (p.lead ++ ("// " ++ text).toList ++ ['\n']) := by
  refine ⟨_, Stmt.write_of_isLine p rfl, ?_⟩
  have hne : ("// " ++ text).toList ≠ [] := by simp
  have hline := Page.toList_text_appendLine (p := p) (.inr hne)
  rwa [h] at hline

/-- What a behavior is shown as has a line feed exactly if its guard has one, not counting white
space around it, in a machine whose vertices and triggers have none in their names. All other parts
are around the guard on its first and last lines. So the comment in front of a behavior is one line
exactly if the guard is. -/
theorem diagram_breaks_as_guard (h : m.Unbroken)
    (htriggers : ∀ trigger ∈ b.triggers, '\n' ∉ trigger.toList) :
    (∃ front back, (m.diagramLine b).toList =
      front ++ (Text.trim (b.guard.getD "")).toList ++ back ∧
      '\n' ∉ front ∧ '\n' ∉ back) ∧
    ('\n' ∈ (m.diagramLine b).toList ↔ ∃ guard, b.guard = some guard ∧
      '\n' ∈ (Text.trim guard).toList) ∧
    ∀ (c : Compiler) (body : Unit → Draft), c.machine = m → ∃ rest, (c.behaviorBlock b body).code =
        .comment (m.describe b.owner ++ " behavior") ::
          .comment ("uml: " ++ m.diagramLine b) :: rest ∧
      ∀ (this : String) (p : Page), p.style.newline = "\n" → ∃ q comment,
        Stmt.write m this p (.comment ("uml: " ++ m.diagramLine b)) = some q ∧
        q.text.toList = p.text.toList ++ (p.lead ++ comment ++ ['\n']) ∧
        "// uml: ".toList <+: comment ∧
        ('\n' ∈ comment ↔ ∃ guard, b.guard = some guard ∧ '\n' ∈ (Text.trim guard).toList) := by
  obtain ⟨front, back, heq, hfront, hback⟩ := h.exists_diagramLine_eq htriggers
  have hiff : '\n' ∈ (m.diagramLine b).toList ↔ ∃ guard, b.guard = some guard ∧
      '\n' ∈ (Text.trim guard).toList := by
    rw [heq, List.mem_append, List.mem_append, or_iff_left hback, or_iff_right hfront]
    cases b.guard with
    | none =>
      have hempty : '\n' ∉ (Text.trim "").toList := by decide
      simp [hempty]
    | some guard => simp
  refine ⟨⟨front, back, heq, hfront, hback⟩, hiff, ?_⟩
  rintro c body rfl
  obtain ⟨rest, hcode⟩ := c.exists_code_behaviorBlock b body
  refine ⟨rest, hcode, fun this p hnewline => ?_⟩
  obtain ⟨q, hwrite, htext⟩ :=
    Stmt.exists_write_comment c.machine this ("uml: " ++ c.machine.diagramLine b) hnewline
  refine ⟨q, _, hwrite, htext, ⟨(c.machine.diagramLine b).toList, by simp⟩, ?_⟩
  rw [← hiff]
  simp

/-- A latch that is pushed open if two conditions hold, which are written on two lines, with an
action on two lines. -/
def latch : Machine :=
  ((Machine.new "Latch").addVertex Machine.root (.state "Shut")).addVertex Machine.root
    (.state "Open")

/-- The behavior of the latch when it is pushed. -/
def latchPush : Behavior :=
  { owner := 1, triggers := ["push"], guard := some "ready\n&& armed",
    action := some "free();\nring();", target := some 2 }

/-- The names in the latch have no line feeds, and its guard has one: the comment breaks
where the guard does. -/
theorem latch_breaks_as_guard :
    latch.Unbroken ∧ (∀ trigger ∈ latchPush.triggers, '\n' ∉ trigger.toList) ∧
      ('\n' ∈ (latch.diagramLine latchPush).toList ↔
        ∃ guard, latchPush.guard = some guard ∧ '\n' ∈ (Text.trim guard).toList) := by
  have hnames : latch.Unbroken := Machine.unbroken_of_labels (by decide)
  have htriggers : ∀ trigger ∈ latchPush.triggers, '\n' ∉ trigger.toList := by decide
  exact ⟨hnames, htriggers, (diagram_breaks_as_guard hnames htriggers).2.1⟩

/-- The comment in front of the latch's behavior is two lines, and the second one is no comment. -/
theorem latch_guard_leaves_comment :
    latch.Unbroken ∧ (∀ trigger ∈ latchPush.triggers, '\n' ∉ trigger.toList) ∧
      '\n' ∈ (latch.diagramLine latchPush).toList ∧
      (Stmt.write latch "self" {} (.comment ("uml: " ++ latch.diagramLine latchPush))).map
        Page.text = some
        "// uml: push [ready\n&& armed] / \x7b free();\\nring(); \x7d TransitionTo(Open)\n" := by
  refine ⟨Machine.unbroken_of_labels (by decide), by decide, by decide +kernel, by decide +kernel⟩

end Statechart
