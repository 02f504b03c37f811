import StackDepth.Listing.StackPointer

/-!
# Label lines

A label line and an instruction line both begin with an address, but the digits are followed by a
blank in the one and by a colon in the other. Hence no line is both. In particular, a pass that
looks for the address at which it ends never stops at a label, and a line is classified as a label
exactly if it reads as one, whatever lines follow it.
-/
namespace StackDepth

namespace Text

theorem CodeRanges.covers_eq_false {a b : CodeRanges} {n : Nat} (ha : a.Ascending)
    (hb : b.Ascending) (hdisjoint : ∀ r ∈ a, ∀ s ∈ b, r.2 < s.1 ∨ s.2 < r.1)
    (h : a.covers n = true) : b.covers n = false := by
  obtain ⟨r, hr, hlow, hhigh⟩ := (covers_iff ha n).1 h
  rw [← Bool.not_eq_true, covers_iff hb]
  rintro ⟨s, hs, hslow, hshigh⟩
  have := hdisjoint r hr s hs
  omega

/-- The Latin letters among the digits of base sixteen. -/
def hexLetterRanges : CodeRanges := [(0x41, 0x46), (0x61, 0x66)]

theorem covers_of_isHexDigit {c : Char} (h : isHexDigit c = true) :
    decimalRanges.covers c.toNat = true ∨ hexLetterRanges.covers c.toNat = true := by
  simp only [isHexDigit, isDigit, Bool.or_eq_true, Bool.and_eq_true, decide_eq_true_eq] at h
  rcases h with (h | ⟨hlow, hhigh⟩) | ⟨hlow, hhigh⟩
  · exact .inl h
  · refine .inr ((CodeRanges.covers_iff (by decide) _).2 ⟨(0x61, 0x66), by decide, ?_⟩)
    exact ⟨hlow, hhigh⟩
  · refine .inr ((CodeRanges.covers_iff (by decide) _).2 ⟨(0x41, 0x46), by decide, ?_⟩)
    exact ⟨hlow, hhigh⟩

theorem isBlank_of_isHexDigit {c : Char} (h : isHexDigit c = true) : isBlank c = false := by
  rcases covers_of_isHexDigit h with h | h
  · exact CodeRanges.covers_eq_false (by decide) (by decide) (by decide) h
  · exact CodeRanges.covers_eq_false (by decide) (by decide) (by decide) h

end Text

namespace Scan

open Text

theorem skipBlanks_of_run {cs taken rest : List Char}
    (h : run isHexDigit cs = some (taken, rest)) : skipBlanks cs = cs := by
  cases cs with
  | nil => rfl
  | cons c cs =>
    cases hc : isHexDigit c with
    | false => simp [run, hc] at h
    | true => simp [skipBlanks, isBlank_of_isHexDigit hc]

theorem literal_some {word cs rest : List Char} (h : literal word cs = some rest) :
    cs = word ++ rest := by
  induction word generalizing cs with
  | nil => exact Option.some.inj h
  | cons w word ih =>
    cases cs with
    | nil => cases h
    | cons c cs =>
      rw [literal] at h
      by_cases hw : w = c
      · rw [if_pos hw] at h
        rw [hw, ih h, List.cons_append]
      · rw [if_neg hw] at h
        cases h

end Scan

namespace Line

open Scan Text

/-- A label begins with digits and then a blank. -/
theorem run_of_label {cs : List Char} {label : Nat × String} (h : label? cs = some label) :
    ∃ digits rest, Scan.run isHexDigit cs = some (digits, ' ' :: rest) := by
  obtain ⟨⟨digits, rest⟩, hdigits, h⟩ := Option.bind_eq_some_iff.1 h
  obtain ⟨name, hname, -⟩ := Option.bind_eq_some_iff.1 h
  rw [literal_some hname] at hdigits
  exact ⟨digits, _, hdigits⟩

theorem instruction_of_label {cs : List Char} {label : Nat × String}
    (h : label? cs = some label) : Scan.instruction cs = none := by
  obtain ⟨digits, rest, hrun⟩ := run_of_label h
  simp [Scan.instruction, Scan.address, skipBlanks_of_run hrun, hrun, literal]

theorem address?_of_label {line : String} {label : Nat × String}
    (h : label? line.toList = some label) : address? line = none := by
  rw [address?, instruction_of_label h]
  rfl

theorem classifyAt_of_label (config : Config) {line : String} {address : Nat} {name : String}
    (h : label? line.toList = some (address, name)) (following : List String) :
    classifyAt config line following = .ok (.label address name) := by
  simp [classifyAt, classify, classifyBy, h, bind, Except.bind, pure, Except.pure]

/-- A line that does not read as a label is never classified as one. -/
theorem classifyAt_ne_label {config : Config} {line : String} (h : label? line.toList = none)
    (following : List String) (address : Nat) (name : String) :
    classifyAt config line following ≠ .ok (.label address name) := by
  have hclassify : classify config line ≠ .ok (.label address name) := by
    simp only [classify, classifyBy, h]
    cases Scan.instruction line.toList with
    | none => simp
    | some found =>
      simp only
      cases Shape.table.findSome? (Shape.find config found.2) with
      | none => simp
      | some operation => cases operation <;> simp [Except.map]
  intro hlabel
  simp only [classifyAt, bind, Except.bind, pure, Except.pure] at hlabel
  split at hlabel
  · cases hlabel
  · rename_i found hfound
    split at hlabel
    · split at hlabel <;> cases hlabel
    · cases hlabel
      exact hclassify hfound

end Line
end StackDepth
