/-!
# Sorted lists of strings

A finite set of strings is kept as a list in ascending order of code points, without repetition.
-/

namespace Statechart.Text

/-- Put a string in its place, unless it is there already. -/
def insertSorted (s : String) : List String → List String
  | [] => [s]
  | t :: rest =>
    if s < t then s :: t :: rest else if s = t then t :: rest else t :: insertSorted s rest

/-- The strings of a list in ascending order, each once. -/
def sortedSet (ss : List String) : List String := ss.foldr insertSorted []

/-- Inserting adds the string and keeps all others. -/
theorem mem_insertSorted {s t : String} {ss : List String} :
    t ∈ insertSorted s ss ↔ t = s ∨ t ∈ ss := by
  induction ss with
  | nil => simp [insertSorted]
  | cons u rest ih =>
    simp only [insertSorted]
    split
    · simp
    · split
      · rename_i h
        simp [h]
      · simp only [List.mem_cons, ih]
        exact or_left_comm

/-- A sorted set has the members of the list it was made from. -/
theorem mem_sortedSet {t : String} {ss : List String} : t ∈ sortedSet ss ↔ t ∈ ss := by
  induction ss with
  | nil => simp [sortedSet]
  | cons s rest ih =>
    change t ∈ insertSorted s (sortedSet rest) ↔ _
    rw [mem_insertSorted, ih, List.mem_cons]

end Statechart.Text
