import Mathlib.Data.List.Basic
import Mathlib.Data.List.TakeWhile
import Statechart.Text.White

/-!
# Trimmed texts

Trimming drops characters from both ends of a text until one is met that stays. A text is its
trimmed form with nothing but dropped characters around it, so trimming leaves exactly the texts
alone that have no such character at either end.
-/

namespace Statechart.Text

variable {c : Char} {cs t u a b start : List Char} {drop : Char → Bool}

/-- The text has nothing at either end that is dropped. -/
def IsTrimmed (drop : Char → Bool) (cs : List Char) : Prop :=
  (∀ c ∈ cs.head?, drop c = false) ∧ ∀ c ∈ cs.getLast?, drop c = false

/-- Of a trimmed text nothing is dropped at its start. -/
theorem dropWhile_of_head (h : ∀ c ∈ cs.head?, drop c = false) : cs.dropWhile drop = cs := by
  cases cs with
  | nil => rfl
  | cons c cs => exact List.dropWhile_cons_of_neg (by simp [h c rfl])

/-- What is left of a text at its start is not dropped. -/
theorem head_dropWhile (h : c ∈ (cs.dropWhile drop).head?) : drop c = false := by
  have hnot := List.head?_dropWhile_not drop cs
  rw [Option.mem_def.mp h] at hnot
  simpa using hnot

/-- A trimmed text is what is left of it with anything around it that is dropped. -/
theorem trimBy_eq (h : IsTrimmed drop cs) (ht : ∀ c ∈ t, drop c) (hu : ∀ c ∈ u, drop c) :
    trimBy drop (t ++ cs ++ u) = cs := by
  cases cs with
  | nil =>
    have hall : (t ++ [] ++ u).dropWhile drop = [] := by
      rw [List.append_nil, List.dropWhile_append_of_pos ht, List.dropWhile_eq_nil_iff]
      exact hu
    rw [trimBy, hall]
    rfl
  | cons c cs =>
    have hstart : (t ++ (c :: cs) ++ u).dropWhile drop = (c :: cs) ++ u := by
      rw [List.append_assoc, List.dropWhile_append_of_pos ht, List.cons_append]
      exact List.dropWhile_cons_of_neg (by simp [h.1 c rfl])
    have hend : ((c :: cs) ++ u).reverse.dropWhile drop = (c :: cs).reverse := by
      rw [List.reverse_append, List.dropWhile_append_of_pos (by simpa using hu)]
      exact dropWhile_of_head (by simpa only [List.head?_reverse] using h.2)
    rw [trimBy, hstart, hend, List.reverse_reverse]

/-- Every text is a trimmed one with what is dropped around it. -/
theorem exists_eq_trimBy (drop : Char → Bool) (cs : List Char) :
    ∃ t u, cs = t ++ trimBy drop cs ++ u ∧
    IsTrimmed drop (trimBy drop cs) ∧ (∀ c ∈ t, drop c) ∧ ∀ c ∈ u, drop c := by
  refine ⟨cs.takeWhile drop, ((cs.dropWhile drop).reverse.takeWhile drop).reverse, ?_,
    ⟨?_, ?_⟩, ?_, ?_⟩
  · rw [trimBy, List.append_assoc, ← List.reverse_append, List.takeWhile_append_dropWhile,
      List.reverse_reverse, List.takeWhile_append_dropWhile]
  · intro c hc
    obtain ⟨more, hmore⟩ : trimBy drop cs <+: cs.dropWhile drop := by
      rw [trimBy, ← List.reverse_suffix, List.reverse_reverse]
      exact List.dropWhile_suffix drop
    have hhead : c ∈ (cs.dropWhile drop).head? := by
      rw [← hmore, List.head?_append, Option.mem_def.mp hc]
      rfl
    exact head_dropWhile hhead
  · intro c hc
    rw [trimBy, List.getLast?_reverse] at hc
    exact head_dropWhile hc
  · exact fun c hc => List.mem_takeWhile_imp hc
  · exact fun c hc => List.mem_takeWhile_imp (List.mem_reverse.mp hc)

/-- Trimming leaves exactly the trimmed texts alone. -/
theorem trimBy_eq_self_iff : trimBy drop cs = cs ↔ IsTrimmed drop cs := by
  constructor
  · intro h
    obtain ⟨-, -, -, htrimmed, -, -⟩ := exists_eq_trimBy drop cs
    rwa [h] at htrimmed
  · intro h
    have htrim := trimBy_eq (t := []) (u := []) h (by simp) (by simp)
    rwa [List.nil_append, List.append_nil] at htrim

/-- Exactly the blank texts are trimmed to nothing. -/
theorem trimChars_eq_nil_iff : trimChars cs = [] ↔ isBlank cs := by
  simp only [trimChars, trimBy, List.reverse_eq_nil_iff, List.dropWhile_eq_nil_iff,
    List.mem_reverse, isBlank, List.all_eq_true]
  constructor
  · intro h c hc
    rw [← List.takeWhile_append_dropWhile (p := isWhite) (l := cs), List.mem_append] at hc
    rcases hc with hc | hc
    · exact List.mem_takeWhile_imp hc
    · exact h c hc
  · intro h c hc
    exact h c ((List.dropWhile_sublist isWhite).mem hc)

/-- What is dropped at the end of a text makes no difference to what is left of it. -/
theorem trimBy_append_of_dropped (hu : ∀ c ∈ u, drop c) :
    trimBy drop (cs ++ u) = trimBy drop cs := by
  obtain ⟨t, u', hcs, htrimmed, ht, hu'⟩ := exists_eq_trimBy drop cs
  have hends : ∀ c ∈ u' ++ u, drop c := List.forall_mem_append.mpr ⟨hu', hu⟩
  calc trimBy drop (cs ++ u) = trimBy drop (t ++ trimBy drop cs ++ (u' ++ u)) := by
        rw [← List.append_assoc, ← hcs]
    _ = trimBy drop cs := trimBy_eq htrimmed ht hends

/-- What stands in front of a trimmed text matters by its start only. -/
theorem isTrimmed_append (h : IsTrimmed drop b) (hne : b ≠ []) :
    IsTrimmed drop (a ++ b) ↔ ∀ c ∈ a.head?, drop c = false := by
  obtain ⟨last, hlast⟩ := Option.ne_none_iff_exists'.mp (mt List.getLast?_eq_none_iff.mp hne)
  have hend : ∀ c ∈ (a ++ b).getLast?, drop c = false := by
    rw [List.getLast?_append, hlast, Option.some_or, ← hlast]
    exact h.2
  constructor
  · intro htrimmed c hc
    refine htrimmed.1 c ?_
    rw [List.head?_append, Option.mem_def.mp hc]
    rfl
  · intro hstart
    refine ⟨fun c hc => ?_, hend⟩
    rw [List.head?_append, Option.mem_def, Option.or_eq_some_iff] at hc
    rcases hc with hc | ⟨-, hc⟩
    · exact hstart c hc
    · exact h.1 c hc

/-- What is cut off at the end of a text leaves a start in which there is nothing to cut off. -/
theorem prefix_dropEnd (h : ∀ c ∈ start, drop c = false) (cs : List Char) :
    start <+: ((start ++ cs).reverse.dropWhile drop).reverse := by
  rw [List.reverse_append, List.dropWhile_append]
  split
  · have hstart : start.reverse.dropWhile drop = start.reverse :=
      dropWhile_of_head fun c hc => h c (List.mem_reverse.mp (List.mem_of_mem_head? hc))
    exact ⟨[], by rw [hstart, List.reverse_reverse, List.append_nil]⟩
  · rw [List.reverse_append, List.reverse_reverse]
    exact List.prefix_append start _

/-- A start without anything to cut is left when both ends are cut. -/
theorem prefix_trimBy (hne : start ≠ []) (h : ∀ c ∈ start, drop c = false) (cs : List Char) :
    start <+: trimBy drop (start ++ cs) := by
  have hhead : (start ++ cs).dropWhile drop = start ++ cs := by
    refine dropWhile_of_head fun c hc => h c ?_
    rw [List.head?_append_of_ne_nil _ hne] at hc
    exact List.mem_of_mem_head? hc
  rw [trimBy, hhead]
  exact prefix_dropEnd h cs

end Statechart.Text
