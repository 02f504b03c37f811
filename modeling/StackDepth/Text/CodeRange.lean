/-!
# Ranges of code points

A character class of the Unicode standard is a list of inclusive ranges in ascending order.
-/
namespace StackDepth.Text

/-- Inclusive ranges of code points, in ascending order. -/
abbrev CodeRanges := List (Nat × Nat)

/-- Whether a code point lies in one of the ranges; the search ends at the first range above it. -/
def CodeRanges.covers : CodeRanges → Nat → Bool
  | [], _ => false
  | (low, high) :: rest, n =>
    if n < low then false else if n ≤ high then true else CodeRanges.covers rest n

/-- Each range is non-empty and lies above the one before it. -/
def CodeRanges.Ascending (ranges : CodeRanges) : Prop :=
  (∀ r ∈ ranges, r.1 ≤ r.2) ∧ ranges.Pairwise fun r s => r.2 < s.1

instance (ranges : CodeRanges) : Decidable ranges.Ascending :=
  inferInstanceAs (Decidable (_ ∧ _))

theorem CodeRanges.covers_iff {ranges : CodeRanges} (h : ranges.Ascending) (n : Nat) :
    ranges.covers n = true ↔ ∃ r ∈ ranges, r.1 ≤ n ∧ n ≤ r.2 := by
  induction ranges with
  | nil => simp [covers]
  | cons r rest ih =>
    obtain ⟨low, high⟩ := r
    obtain ⟨hle, hpair⟩ := h
    have htail : CodeRanges.Ascending rest :=
      ⟨fun r hr => hle r (List.mem_cons_of_mem _ hr), (List.pairwise_cons.1 hpair).2⟩
    have hlow : low ≤ high := hle (low, high) List.mem_cons_self
    have habove : ∀ s ∈ rest, high < s.1 := (List.pairwise_cons.1 hpair).1
    simp only [covers, List.mem_cons, exists_eq_or_imp]
    split
    · rename_i hn
      constructor
      · simp
      · rintro (⟨h1, _⟩ | ⟨s, hs, h1, _⟩)
        · exact absurd h1 (by omega)
        · have := habove s hs
          omega
    · split
      · simp; omega
      · rw [ih htail]
        constructor
        · exact Or.inr
        · rintro (⟨_, h2⟩ | h)
          · omega
          · exact h

end StackDepth.Text
