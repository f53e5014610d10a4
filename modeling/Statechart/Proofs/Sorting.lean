import Statechart.Machine.Description
import Statechart.Text.Sorted

/-!
# Sorting does not depend on the order before

Sets of strings and lists of vertices are sorted by inserting one element after the other. Two
insertions can be exchanged, so what comes out depends on the elements alone; for vertices this
takes that no two of them have the same description.
-/

namespace Statechart

namespace Text

variable {s t : String} {rest ss ts : List String}

/-- Any two strings compare. -/
theorem lt_or_eq_or_gt (s t : String) : s < t ∨ s = t ∨ t < s := by
  by_cases hlt : s < t
  · exact .inl hlt
  · by_cases hgt : t < s
    · exact .inr (.inr hgt)
    · exact .inr (.inl (String.le_antisymm (String.not_lt.mp hgt) (String.not_lt.mp hlt)))

/-- A smaller string is put in front. -/
theorem insertSorted_of_lt (h : s < t) : insertSorted s (t :: rest) = s :: t :: rest := if_pos h

/-- A string is not put in twice. -/
theorem insertSorted_self (s : String) (rest : List String) :
    insertSorted s (s :: rest) = s :: rest := by
  simp [insertSorted]

/-- A greater string is put in further behind. -/
theorem insertSorted_of_gt (h : t < s) : insertSorted s (t :: rest) = t :: insertSorted s rest := by
  have hne : s ≠ t := fun heq => String.lt_irrefl t (heq ▸ h)
  rw [insertSorted, if_neg (String.lt_asymm h), if_neg hne]

/-- A smaller string can be inserted before or after a greater one. -/
theorem insertSorted_comm_of_lt (h : s < t) (ss : List String) :
    insertSorted s (insertSorted t ss) = insertSorted t (insertSorted s ss) := by
  induction ss with
  | nil =>
    change insertSorted s [t] = insertSorted t [s]
    rw [insertSorted_of_lt h, insertSorted_of_gt h, insertSorted]
  | cons u rest ih =>
    rcases lt_or_eq_or_gt s u with hsu | rfl | hus
    · rw [insertSorted_of_lt hsu, insertSorted_of_gt h]
      rcases lt_or_eq_or_gt t u with htu | rfl | hut
      · rw [insertSorted_of_lt htu, insertSorted_of_lt h]
      · rw [insertSorted_self, insertSorted_of_lt h]
      · rw [insertSorted_of_gt hut, insertSorted_of_lt hsu]
    · rw [insertSorted_self, insertSorted_of_gt h, insertSorted_self]
    · have hut := String.lt_trans hus h
      rw [insertSorted_of_gt hut, insertSorted_of_gt hus, insertSorted_of_gt hus,
        insertSorted_of_gt hut, ih]

/-- Two strings can be inserted in either order. -/
theorem insertSorted_comm (s t : String) (ss : List String) :
    insertSorted s (insertSorted t ss) = insertSorted t (insertSorted s ss) := by
  rcases lt_or_eq_or_gt s t with h | rfl | h
  · exact insertSorted_comm_of_lt h ss
  · rfl
  · exact (insertSorted_comm_of_lt h ss).symm

/-- Inserting keeps the order. -/
theorem pairwise_insertSorted (s : String) (h : ss.Pairwise (· < ·)) :
    (insertSorted s ss).Pairwise (· < ·) := by
  induction ss with
  | nil => exact List.pairwise_singleton _ s
  | cons t rest ih =>
    obtain ⟨hfirst, hrest⟩ := List.pairwise_cons.mp h
    rcases lt_or_eq_or_gt s t with hst | rfl | hts
    · rw [insertSorted_of_lt hst, List.pairwise_cons, List.forall_mem_cons]
      exact ⟨⟨hst, fun u hu => String.lt_trans hst (hfirst u hu)⟩, h⟩
    · rwa [insertSorted_self]
    · rw [insertSorted_of_gt hts, List.pairwise_cons]
      refine ⟨fun u hu => ?_, ih hrest⟩
      rcases mem_insertSorted.mp hu with rfl | hu
      · exact hts
      · exact hfirst u hu

/-- A sorted set has every string once. -/
theorem nodup_sortedSet (ss : List String) : (sortedSet ss).Nodup := by
  have hsorted : (sortedSet ss).Pairwise (· < ·) := by
    induction ss with
    | nil => exact List.Pairwise.nil
    | cons s rest ih => exact pairwise_insertSorted s ih
  refine hsorted.imp fun hlt heq => ?_
  exact String.lt_irrefl _ (heq ▸ hlt)

/-- The sorted set of strings does not depend on their order. -/
theorem sortedSet_eq_of_perm (h : ss.Perm ts) : sortedSet ss = sortedSet ts :=
  h.foldr_eq' (fun s _ t _ rest => insertSorted_comm t s rest) []

end Text

namespace Machine

variable {m : Machine} {v w : Nat} {vs ws : List Nat}

/-- The vertex with the smaller description can be inserted before or after the other. -/
theorem insertByDescription_comm_of_le (h : m.describe v ≤ m.describe w)
    (hne : m.describe v ≠ m.describe w) (vs : List Nat) :
    m.insertByDescription v (m.insertByDescription w vs) =
      m.insertByDescription w (m.insertByDescription v vs) := by
  have hnot : ¬ m.describe w ≤ m.describe v := fun hle => hne (String.le_antisymm h hle)
  induction vs with
  | nil => simp only [insertByDescription, if_pos h, if_neg hnot]
  | cons u rest ih =>
    by_cases hwu : m.describe w ≤ m.describe u
    · have hvu := String.le_trans h hwu
      simp only [insertByDescription, if_pos hwu, if_pos hvu, if_pos h, if_neg hnot]
    · by_cases hvu : m.describe v ≤ m.describe u
      · simp only [insertByDescription, if_neg hwu, if_pos hvu, if_neg hnot]
      · simp only [insertByDescription, if_neg hwu, if_neg hvu, ih]

/-- Two vertices can be inserted in either order if their descriptions differ. -/
theorem insertByDescription_comm (hne : m.describe v ≠ m.describe w) (vs : List Nat) :
    m.insertByDescription v (m.insertByDescription w vs) =
      m.insertByDescription w (m.insertByDescription v vs) := by
  rcases String.le_total (m.describe v) (m.describe w) with h | h
  · exact insertByDescription_comm_of_le h hne vs
  · exact (insertByDescription_comm_of_le h hne.symm vs).symm

/-- Sorted vertices do not depend on the order before, if their descriptions differ. -/
theorem sortByDescription_eq_of_perm (h : vs.Perm ws)
    (hdistinct : ∀ v ∈ vs, ∀ w ∈ vs, m.describe v = m.describe w → v = w) :
    m.sortByDescription vs = m.sortByDescription ws := by
  refine h.foldr_eq' (fun v hv w hw rest => ?_) []
  by_cases heq : v = w
  · rw [heq]
  · exact insertByDescription_comm (fun hdesc => heq (hdistinct v hv w hw hdesc.symm)) rest

end Machine

end Statechart
