import Mathlib
import StackDepth.Listing.Reading
import StackDepth.Proofs.Text.Utf8

/-!
# Line ends of a listing

A listing is read in three stages: bytes become characters, line ends become uniform, and the text
is cut into lines. Line feeds and carriage returns are ASCII bytes, so the first stage keeps them
apart from what stands around them, even from ill-formed parts, and the second stage undoes whatever
convention the file was written in. So the lines do not depend on the convention, and lines that are
written out one by one read back as they were.
-/
namespace StackDepth

namespace Text

/-! ### Uniform line ends -/

theorem uniformNewlinesAfter_append (front done cs : List Char) :
    uniformNewlinesAfter (front ++ done) cs = done.reverse ++ uniformNewlinesAfter front cs := by
  fun_induction uniformNewlinesAfter front cs with
  | case1 => simp [uniformNewlinesAfter]
  | case2 front rest ih => simpa [uniformNewlinesAfter] using ih
  | case3 front c rest hother ih => simpa [uniformNewlinesAfter, hother] using ih

theorem uniformNewlines_pair (rest : List Char) :
    uniformNewlines ('\r' :: '\n' :: rest) = '\n' :: uniformNewlines rest :=
  uniformNewlinesAfter_append [] ['\n'] rest

theorem uniformNewlines_return {rest : List Char} (h : rest.head? ≠ some '\n') :
    uniformNewlines ('\r' :: rest) = '\n' :: uniformNewlines rest := by
  have hstep : uniformNewlines ('\r' :: rest) = uniformNewlinesAfter ['\n'] rest := by
    cases rest with
    | nil => rfl
    | cons c rest =>
      have hc : c ≠ '\n' := fun hc => h (congrArg some hc)
      simp [uniformNewlines, uniformNewlinesAfter, hc]
  rw [hstep]
  exact uniformNewlinesAfter_append [] ['\n'] rest

theorem uniformNewlines_other {c : Char} (hc : c ≠ '\r') (rest : List Char) :
    uniformNewlines (c :: rest) = c :: uniformNewlines rest := by
  have hstep : uniformNewlines (c :: rest) = uniformNewlinesAfter [c] rest := by
    simp [uniformNewlines, uniformNewlinesAfter, hc]
  rw [hstep]
  exact uniformNewlinesAfter_append [] [c] rest

/-- A text without carriage returns has uniform line ends. -/
theorem uniformNewlines_of_no_return {cs : List Char} (h : '\r' ∉ cs) :
    uniformNewlines cs = cs := by
  induction cs with
  | nil => rfl
  | cons c cs ih =>
    rw [List.mem_cons, not_or] at h
    rw [uniformNewlines_other (Ne.symm h.1), ih h.2]

/-- A mark that begins with a carriage return and reads as a line feed wherever no other line feed
follows can stand for each line feed of a text. -/
theorem uniformNewlines_marked {mark : List Char} (hhead : mark.head? = some '\r')
    (hmark : ∀ {rest : List Char}, rest.head? ≠ some '\n' →
      uniformNewlines (mark ++ rest) = '\n' :: uniformNewlines rest)
    {cs : List Char} (h : '\r' ∉ cs) :
    uniformNewlines (cs.flatMap fun c => if c = '\n' then mark else [c]) = cs := by
  induction cs with
  | nil => rfl
  | cons c cs ih =>
    rw [List.mem_cons, not_or] at h
    rw [List.flatMap_cons]
    split
    · rename_i hc
      have hnext : (cs.flatMap fun c => if c = '\n' then mark else [c]).head? ≠ some '\n' := by
        cases cs with
        | nil => simp
        | cons d cs =>
          rw [List.flatMap_cons, List.head?_append]
          split
          · simp [hhead]
          · simpa using ‹d ≠ '\n'›
      rw [hmark hnext, ih h.2, hc]
    · rw [List.singleton_append, uniformNewlines_other (Ne.symm h.1), ih h.2]

/-! ### Cutting into lines -/

/-- The characters that end a line. -/
def lineEnds : List Char :=
  ['\n', '\x0b', '\x0c', '\r', '\x1c', '\x1d', '\x1e', '\x85', '\u2028', '\u2029']

theorem isLineEnd_iff (c : Char) : isLineEnd c = true ↔ c ∈ lineEnds := by
  have hle : ∀ d e : Char, d ≤ e ↔ d.toNat ≤ e.toNat := fun d e => Iff.rfl
  simp only [isLineEnd, lineEnds, Bool.or_eq_true, Bool.and_eq_true, decide_eq_true_eq, beq_iff_eq,
    List.mem_cons, List.not_mem_nil, or_false, hle, ← Char.toNat_inj]
  simp only [Char.reduceToNat]
  omega

theorem splitLines_line {line : List Char} (h : ∀ c ∈ line, c ∉ lineEnds) (rest : List Char) :
    splitLines (line ++ '\n' :: rest) = line :: splitLines rest := by
  induction line with
  | nil => rfl
  | cons c line ih =>
    have hc : ¬ isLineEnd c = true := mt (isLineEnd_iff c).1 (h c List.mem_cons_self)
    have hrest := ih fun d hd => h d (List.mem_cons_of_mem _ hd)
    unfold splitLines at hrest ⊢
    rw [List.cons_append, List.foldr_cons, hrest, consLine, if_neg hc]

theorem splitLines_flatMap {lines : List (List Char)}
    (h : ∀ line ∈ lines, ∀ c ∈ line, c ∉ lineEnds) :
    splitLines (lines.flatMap (· ++ ['\n'])) = lines := by
  induction lines with
  | nil => rfl
  | cons line lines ih =>
    rw [List.flatMap_cons, List.append_assoc, List.singleton_append,
      splitLines_line (h line List.mem_cons_self),
      ih fun other hother => h other (List.mem_cons_of_mem _ hother)]

end Text

/-! ### Reading -/

open Text Text.Utf8

theorem return_not_mem_decodeLenient {bytes : List UInt8} (h : 0x0D ∉ bytes) :
    '\r' ∉ decodeLenient bytes := by
  apply not_mem_decodeLenient (by decide) (by decide)
  intro b hb hreturn
  exact h (UInt8.toNat_inj.1 (show b.toNat = (0x0D : UInt8).toNat from hreturn) ▸ hb)

theorem readListing_of_no_return {bytes : List UInt8} (h : 0x0D ∉ bytes) :
    readListing bytes = (splitLines (decodeLenient bytes)).map String.ofList := by
  rw [readListing, uniformNewlines_of_no_return (return_not_mem_decodeLenient h)]

/-- Whatever mark stands for the line feeds, the lines are those between line feeds. -/
theorem readListing_marked {mark bytes : List UInt8} (hascii : ∀ b ∈ mark, b.toNat < 0x80)
    (hhead : (mark.map (Char.ofNat ·.toNat)).head? = some '\r')
    (hmark : ∀ {rest : List Char}, rest.head? ≠ some '\n' →
      uniformNewlines (mark.map (Char.ofNat ·.toNat) ++ rest) = '\n' :: uniformNewlines rest)
    (h : 0x0D ∉ bytes) : readListing (replaceLineFeeds mark bytes) = readListing bytes := by
  have hne : mark ≠ [] := by
    rintro rfl
    cases hhead
  rw [readListing_of_no_return h, readListing, decodeLenient_replace hne hascii,
    uniformNewlines_marked hhead hmark (return_not_mem_decodeLenient h)]

theorem flatMap_encode (lines : List String) :
    (lines.flatMap fun line => encode line.toList ++ [0x0A]) =
      encode ((lines.map String.toList).flatMap (· ++ ['\n'])) := by
  induction lines with
  | nil => rfl
  | cons line lines ih =>
    rw [List.flatMap_cons, ih, List.map_cons, List.flatMap_cons]
    simp only [encode, List.flatMap_append]
    rfl

/-- The lines of a listing do not depend on the convention for line ends: a file without carriage
returns, with its line feeds turned into pairs or into lone carriage returns, and with any
ill-formed parts, holds the same lines. Lines that hold no line end, written out one by one, read
back as they were. -/
theorem readListing_line_ends :
    (∀ bytes : List UInt8, 0x0D ∉ bytes →
      readListing (replaceLineFeeds [0x0D, 0x0A] bytes) = readListing bytes ∧
        readListing (replaceLineFeeds [0x0D] bytes) = readListing bytes) ∧
    ∀ lines : List String, (∀ line ∈ lines, ∀ c ∈ line.toList, c ∉ lineEnds) →
      readListing (lines.flatMap fun line => encode line.toList ++ [0x0A]) = lines := by
  constructor
  · intro bytes h
    constructor
    · exact readListing_marked (by simp) rfl (fun _ => uniformNewlines_pair _) h
    · exact readListing_marked (by simp) rfl (fun hrest => uniformNewlines_return hrest) h
  · intro lines h
    have hlines : ∀ line ∈ lines.map String.toList, ∀ c ∈ line, c ∉ lineEnds := by
      simpa using h
    have hreturn : '\r' ∉ (lines.map String.toList).flatMap (· ++ ['\n']) := by
      intro hmem
      obtain ⟨line, hline, hr⟩ := List.mem_flatMap.1 hmem
      rcases List.mem_append.1 hr with hr | hr
      · exact hlines line hline _ hr (by decide)
      · exact absurd hr (by decide)
    rw [readListing, flatMap_encode, decodeLenient_encode, uniformNewlines_of_no_return hreturn,
      splitLines_flatMap hlines, List.map_map]
    simp

/-- A listing with a character cut off before a line end, an empty line, another character cut off
within a line, and no line end behind its last line. -/
def cutOffText : List UInt8 := [0x66, 0xE2, 0x82, 0x0A, 0x0A, 0xC3, 0x41]

theorem readListing_line_ends_cutOffText :
    readListing cutOffText = ["f�", "", "�A"] ∧
      readListing (replaceLineFeeds [0x0D, 0x0A] cutOffText) = readListing cutOffText ∧
      readListing (replaceLineFeeds [0x0D] cutOffText) = readListing cutOffText ∧
      readListing (["f�", "", "�A"].flatMap fun line => encode line.toList ++ [0x0A]) =
        ["f�", "", "�A"] := by
  obtain ⟨hmarked, hwritten⟩ := readListing_line_ends
  obtain ⟨hpair, hreturn⟩ := hmarked cutOffText (by decide)
  exact ⟨by decide +kernel, hpair, hreturn, hwritten _ (by simp [lineEnds])⟩

end StackDepth
