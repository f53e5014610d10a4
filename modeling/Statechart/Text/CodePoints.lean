/-!
# Sets of code points

Character properties are kept as tables of code points: closed ranges where neighbours share the
property, and strided runs where every second code point has it, as in the letter-case tables.
Membership is a linear search, so a fact about a table is a fact about a list.
-/

namespace Statechart.Text

/-- Closed ranges of code points, given by their first and last member. -/
abbrev Ranges := List (Nat × Nat)

/-- Whether some range holds the character. -/
def Ranges.covers (table : Ranges) (c : Char) : Bool :=
  table.any fun range => range.1 ≤ c.toNat && c.toNat ≤ range.2

/-- The code points of a table, one by one. -/
def Ranges.codes (table : Ranges) : List Nat :=
  table.flatMap fun range => List.range' range.1 (range.2 + 1 - range.1)

/-- A table lists the code points of the characters it holds. -/
theorem Ranges.mem_codes_of_covers {table : Ranges} {c : Char} (h : table.covers c) :
    c.toNat ∈ table.codes := by
  obtain ⟨range, hrange, hle⟩ := List.any_eq_true.mp h
  rw [Bool.and_eq_true, decide_eq_true_eq, decide_eq_true_eq] at hle
  refine List.mem_flatMap.mpr ⟨range, hrange, List.mem_range'_1.mpr ?_⟩
  omega

/-- What holds of the characters with the listed code points holds of a character whose
code point is listed. -/
theorem of_mem_codes (holds : Char → Prop) {codes : List Nat}
    (hall : ∀ n ∈ codes, holds (Char.ofNat n)) {c : Char} (hc : c.toNat ∈ codes) : holds c := by
  have h := hall c.toNat hc
  rwa [Char.ofNat_toNat] at h

/-- The ten digits follow each other. -/
theorem toNat_mem_of_isDigit {c : Char} (h : c.isDigit) : c.toNat ∈ List.range' 48 10 := by
  have hrange : 48 ≤ c.toNat ∧ c.toNat ≤ 57 := Char.isDigit_iff_toNat.mp h
  rw [List.mem_range'_1]
  omega

/-- Runs of code points, given by their first member, their last member and the
stride between members. -/
abbrev Runs := List (Nat × Nat × Nat)

/-- Whether some run holds the character. -/
def Runs.covers (table : Runs) (c : Char) : Bool :=
  table.any fun run =>
    run.1 ≤ c.toNat && c.toNat ≤ run.2.1 && (c.toNat - run.1) % run.2.2 == 0

end Statechart.Text
