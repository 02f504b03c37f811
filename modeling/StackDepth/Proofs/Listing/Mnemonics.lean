import Mathlib
import StackDepth.Proofs.Listing.Readings

/-!
# Mnemonics

Every shape of an instruction begins with one of a few mnemonics. A line may have several readings,
but only one of them can begin with a mnemonic, since the others begin with a byte of machine code
and a blank. So the shapes that a line has share a mnemonic, and the order of the table matters
only among these: a call to the next instruction is tried before other calls, and a jump to a
helper before other jumps. In any other respect the table may be reordered.
-/
namespace StackDepth

open Text

namespace Shape

open Scan

/-- The mnemonics of a shape. Those of a subtraction may go on with a `w`. -/
def mnemonics : Shape → List (List Char)
  | push => [['p', 'u', 's', 'h']]
  | pop => [['p', 'o', 'p']]
  | selfCall | call => [['r', 'c', 'a', 'l', 'l'], ['c', 'a', 'l', 'l']]
  | registerSave | registerRestore | jump => [['r', 'j', 'm', 'p'], ['j', 'm', 'p']]
  | frameLoad => [['l', 'd', 'i']]
  | stackLow => [['s', 'u', 'b', 'i'], ['s', 'b', 'i']]

/-- The shapes that share their mnemonics, each group in the order of the table. -/
def groups : List (List Shape) :=
  [[.push], [.pop], [.selfCall, .call], [.registerSave, .registerRestore, .jump], [.frameLoad],
   [.stackLow]]

/-- The text begins with one of the words. -/
def BeginsWith (words : List (List Char)) (text : List Char) : Prop := ∃ word ∈ words, word <+: text

theorem beginsWith_of_literal {word text rest : List Char} (h : literal word text = some rest)
    {words : List (List Char)} (hword : word ∈ words) : BeginsWith words text := by
  rw [literal_some h]
  exact ⟨word, hword, List.prefix_append word rest⟩

theorem beginsWith_of_afterJump {text rest : List Char} (h : afterJump text = some rest) :
    BeginsWith [['r', 'j', 'm', 'p'], ['j', 'm', 'p']] text := by
  unfold afterJump at h
  split at h
  · exact ⟨['r', 'j', 'm', 'p'], by simp, List.prefix_append _ _⟩
  · exact ⟨['j', 'm', 'p'], by simp, List.prefix_append _ _⟩
  · cases h

theorem beginsWith_of_afterCall {text rest : List Char} (h : afterCall text = some rest) :
    BeginsWith [['r', 'c', 'a', 'l', 'l'], ['c', 'a', 'l', 'l']] text := by
  unfold afterCall at h
  split at h
  · exact ⟨['r', 'c', 'a', 'l', 'l'], by simp, List.prefix_append _ _⟩
  · exact ⟨['c', 'a', 'l', 'l'], by simp, List.prefix_append _ _⟩
  · cases h

theorem beginsWith_of_afterSubtract {text rest : List Char} (h : afterSubtract text = some rest) :
    BeginsWith [['s', 'u', 'b', 'i'], ['s', 'b', 'i']] text := by
  obtain ⟨tail, hs, h⟩ := Option.bind_eq_some_iff.1 h
  obtain ⟨more, hbi, -⟩ := Option.bind_eq_some_iff.1 h
  rw [literal_some hs]
  cases hu : literal ['u'] tail with
  | none =>
    rw [hu, Option.getD_none] at hbi
    rw [literal_some hbi]
    exact ⟨['s', 'b', 'i'], by simp, List.prefix_append _ _⟩
  | some rest =>
    rw [hu, Option.getD_some] at hbi
    rw [literal_some hu, literal_some hbi]
    exact ⟨['s', 'u', 'b', 'i'], by simp, List.prefix_append _ _⟩

/-- A text has a shape only if it begins with a mnemonic of the shape. -/
theorem beginsWith_of_read {config : Config} {shape : Shape} {text : List Char}
    (h : shape.read config text ≠ none) : BeginsWith shape.mnemonics text := by
  cases hbehind : shape.behindMnemonic text with
  | none => exact absurd (read_of_no_mnemonic config hbehind) h
  | some rest =>
    cases shape with
    | push | pop | frameLoad => exact beginsWith_of_literal hbehind (by simp [mnemonics])
    | selfCall => exact beginsWith_of_literal hbehind (by simp [mnemonics])
    | registerSave | registerRestore | jump => exact beginsWith_of_afterJump hbehind
    | call => exact beginsWith_of_afterCall hbehind
    | stackLow => exact beginsWith_of_afterSubtract hbehind

theorem not_code_of_beginsWith {shape : Shape} {text : List Char}
    (h : BeginsWith shape.mnemonics text) : startsWithCode text = false := by
  obtain ⟨word, hword, rest, rfl⟩ := h
  cases shape <;> simp only [mnemonics, List.mem_cons, List.not_mem_nil, or_false] at hword
  all_goals rcases hword with rfl | rfl <;> rfl

theorem mem_table (shape : Shape) : shape ∈ table := by
  cases shape <;> decide

theorem nodup_table : table.Nodup := by decide

/-- If a mnemonic begins another, it is one of the same shapes. -/
theorem mnemonics_eq_of_prefix : ∀ shape ∈ table, ∀ other ∈ table, ∀ word ∈ shape.mnemonics,
    ∀ word' ∈ other.mnemonics, word <+: word' ∨ word' <+: word →
      shape.mnemonics = other.mnemonics := by
  decide +kernel

theorem mnemonics_eq_of_beginsWith {shape other : Shape} {text : List Char}
    (h : BeginsWith shape.mnemonics text) (hother : BeginsWith other.mnemonics text) :
    shape.mnemonics = other.mnemonics := by
  obtain ⟨word, hword, hbegins⟩ := h
  obtain ⟨word', hword', hbegins'⟩ := hother
  exact mnemonics_eq_of_prefix shape (mem_table shape) other (mem_table other) word hword word'
    hword' (List.prefix_or_prefix_of_prefix hbegins hbegins')

/-- The shapes with the mnemonics of the given one, in the order of the table. -/
def group (shape : Shape) : List Shape := table.filter (·.mnemonics = shape.mnemonics)

theorem mem_group {shape other : Shape} :
    other ∈ shape.group ↔ other.mnemonics = shape.mnemonics := by
  simp [group, mem_table]

theorem group_mem_groups (shape : Shape) : shape.group ∈ groups := by
  cases shape <;> decide +kernel

/-! ### The one reading with a mnemonic -/

section Readings

variable {config : Config} {shape other : Shape} {cs text : List Char}

theorem exists_text_of_find {texts : List (List Char)} (h : shape.find config texts ≠ none) :
    ∃ text ∈ texts, BeginsWith shape.mnemonics text := by
  obtain ⟨found, h⟩ := Option.ne_none_iff_exists'.1 h
  obtain ⟨text, htext, hread⟩ := List.exists_of_findSome?_eq_some h
  exact ⟨text, htext, beginsWith_of_read (by rw [hread]; simp)⟩

/-- Two readings that begin with mnemonics are the same. -/
theorem eq_of_beginsWith {text' : List Char} (h : text ∈ operations cs)
    (hbegins : BeginsWith shape.mnemonics text) (h' : text' ∈ operations cs)
    (hbegins' : BeginsWith other.mnemonics text') : text' = text := by
  apply (eq_or_startsWithCode h (not_code_of_beginsWith hbegins) h').resolve_right
  rw [not_code_of_beginsWith hbegins']
  simp

theorem mnemonics_eq_of_find (h : shape.find config (operations cs) ≠ none)
    (hother : other.find config (operations cs) ≠ none) : other.mnemonics = shape.mnemonics := by
  obtain ⟨text, htext, hbegins⟩ := exists_text_of_find h
  obtain ⟨text', htext', hbegins'⟩ := exists_text_of_find hother
  rw [eq_of_beginsWith htext hbegins htext' hbegins'] at hbegins'
  exact mnemonics_eq_of_beginsWith hbegins' hbegins

/-- Where only one text can give something, it alone need be tried. -/
theorem findSome?_of_unique {β : Type} {f : List Char → Option β} {texts : List (List Char)}
    (h : text ∈ texts) (hunique : ∀ text' ∈ texts, f text' ≠ none → text' = text) :
    texts.findSome? f = f text := by
  cases hfind : texts.findSome? f with
  | none => exact (List.findSome?_eq_none_iff.1 hfind text h).symm
  | some found =>
    obtain ⟨text', htext', hfound⟩ := List.exists_of_findSome?_eq_some hfind
    rw [← hunique text' htext' (by rw [hfound]; simp), hfound]

/-- Where a reading begins with a mnemonic, it alone decides which shapes the line has. -/
theorem find_eq_read (h : text ∈ operations cs) (hbegins : BeginsWith shape.mnemonics text) :
    other.find config (operations cs) = other.read config text := by
  apply findSome?_of_unique h
  intro text' htext' hread
  exact eq_of_beginsWith h hbegins htext' (beginsWith_of_read hread)

end Readings

/-! ### Tables -/

/-- Entries that give nothing can be left out. -/
theorem findSome?_of_sublist {β : Type} {f : Shape → Option β} {group table : List Shape}
    (hsub : group.Sublist table) (hnodup : table.Nodup)
    (h : ∀ shape ∈ table, f shape ≠ none → shape ∈ group) :
    table.findSome? f = group.findSome? f := by
  induction hsub with
  | slnil => rfl
  | @cons group table shape hsub ih =>
    rw [List.nodup_cons] at hnodup
    have hnone : f shape = none := by
      by_contra hsome
      exact hnodup.1 (hsub.subset (h shape List.mem_cons_self hsome))
    rw [List.findSome?_cons, hnone]
    exact ih hnodup.2 fun other hother => h other (List.mem_cons_of_mem _ hother)
  | @cons_cons group table shape hsub ih =>
    rw [List.nodup_cons] at hnodup
    have hrest : ∀ other ∈ table, f other ≠ none → other ∈ group := by
      intro other hother hsome
      have hne : other ≠ shape := fun heq => hnodup.1 (heq ▸ hother)
      exact (List.mem_cons.1 (h other (List.mem_cons_of_mem _ hother) hsome)).resolve_left hne
    rw [List.findSome?_cons, List.findSome?_cons, ih hnodup.2 hrest]

/-- A table in another order, but with a call to the next instruction still before other calls, and
the jumps to the helpers still before other jumps. -/
structure Reordering (table : List Shape) : Prop where
  perm : table.Perm Shape.table
  calls : [selfCall, call].Sublist table
  jumps : [registerSave, registerRestore, jump].Sublist table

theorem reordering_table : Reordering table := ⟨.refl _, by decide, by decide⟩

namespace Reordering

variable {table : List Shape} (h : Reordering table)

include h

theorem mem (shape : Shape) : shape ∈ table := h.perm.mem_iff.2 (mem_table shape)

theorem sublist {group : List Shape} (hgroup : group ∈ groups) : group.Sublist table := by
  simp only [groups, List.mem_cons, List.not_mem_nil, or_false] at hgroup
  rcases hgroup with rfl | rfl | rfl | rfl | rfl | rfl
  · exact List.singleton_sublist.2 (h.mem .push)
  · exact List.singleton_sublist.2 (h.mem .pop)
  · exact h.calls
  · exact h.jumps
  · exact List.singleton_sublist.2 (h.mem .frameLoad)
  · exact List.singleton_sublist.2 (h.mem .stackLow)

/-- Where the shapes that give something are in one group, only that group need be tried. -/
theorem findSome?_eq {β : Type} {f : Shape → Option β} {group : List Shape}
    (hgroup : group ∈ groups) (hf : ∀ shape, f shape ≠ none → shape ∈ group) :
    table.findSome? f = group.findSome? f :=
  findSome?_of_sublist (h.sublist hgroup) (h.perm.nodup_iff.2 nodup_table)
    fun shape _ => hf shape

end Reordering
end Shape

namespace Line

open Scan

/-- Whether the line has the shape in one of its readings. -/
def hasShape (config : Config) (line : String) (shape : Shape) : Bool :=
  match Scan.instruction line.toList with
  | none => false
  | some (_, texts) => (shape.find config texts).isSome

theorem find_of_hasShape {config : Config} {line : String} {shape : Shape}
    (h : hasShape config line shape = true) {address : Nat} {texts : List (List Char)}
    (htexts : Scan.instruction line.toList = some (address, texts)) :
    shape.find config texts ≠ none := by
  rw [hasShape, htexts] at h
  exact Option.isSome_iff_ne_none.1 h

/-- All shapes found in the readings of a line are in one group. -/
theorem exists_group_of_find (config : Config) (cs : List Char) :
    ∃ group ∈ Shape.groups, ∀ shape : Shape,
      shape.find config (operations cs) ≠ none → shape ∈ group := by
  by_cases hnone : ∀ shape : Shape, shape.find config (operations cs) = none
  · exact ⟨_, List.mem_cons_self, fun shape h => absurd (hnone shape) h⟩
  · obtain ⟨shape, hshape⟩ := not_forall.1 hnone
    refine ⟨shape.group, shape.group_mem_groups, fun other hother => ?_⟩
    exact Shape.mem_group.2 (Shape.mnemonics_eq_of_find hshape hother)

theorem exists_group_of_hasShape (config : Config) (line : String) :
    ∃ group ∈ Shape.groups, ∀ shape, hasShape config line shape = true → shape ∈ group := by
  cases htexts : Scan.instruction line.toList with
  | none => exact ⟨_, List.mem_cons_self, fun shape h => by simp [hasShape, htexts] at h⟩
  | some found =>
    obtain ⟨rest, hrest⟩ := exists_operations_of_instruction htexts
    obtain ⟨group, hgroup, hall⟩ := exists_group_of_find config rest
    refine ⟨group, hgroup, fun shape h => hall shape ?_⟩
    rw [← hrest]
    exact find_of_hasShape h htexts

theorem classifyBy_reordering {table : List Shape} (h : Shape.Reordering table) (config : Config)
    (line : String) : classifyBy table config line = classify config line := by
  unfold classify classifyBy
  cases htexts : Scan.instruction line.toList with
  | none => rfl
  | some found =>
    obtain ⟨rest, hrest⟩ := exists_operations_of_instruction htexts
    obtain ⟨group, hgroup, hall⟩ := exists_group_of_find config rest
    simp only [hrest, h.findSome?_eq hgroup hall, Shape.reordering_table.findSome?_eq hgroup hall]

/-- The shapes that a line has are in one group, no line reads both as a label and as an
instruction, and the order in which shapes of different groups are tried is of no account. -/
theorem table_order_within_groups (config : Config) (line : String) :
    (∃ group ∈ Shape.groups, ∀ shape, hasShape config line shape = true → shape ∈ group) ∧
      ¬ ((label? line.toList).isSome = true ∧ (address? line).isSome = true) ∧
      ∀ table, Shape.Reordering table → classifyBy table config line = classify config line := by
  refine ⟨exists_group_of_hasShape config line, ?_, fun table h => ?_⟩
  · rintro ⟨hlabel, haddress⟩
    obtain ⟨label, hlabel⟩ := Option.isSome_iff_exists.1 hlabel
    rw [address?_of_label hlabel] at haddress
    cases haddress
  · exact classifyBy_reordering h config line

/-- A call to the next instruction, which has the shape of any other call as well. -/
def callNext : String := "100:\t00 d0\trcall\t.+0\t; 0x102 <wait+0x2>"

/-- With the groups in the opposite order, the line still reads as a call to what comes next. -/
theorem table_order_within_groups_callNext :
    Shape.Reordering Shape.groups.reverse.flatten ∧
      hasShape {} callNext .selfCall = true ∧ hasShape {} callNext .call = true ∧
      classifyBy Shape.groups.reverse.flatten {} callNext =
        .ok (.instruction 0x100 .selfCall) := by
  have horder : Shape.Reordering Shape.groups.reverse.flatten :=
    ⟨by decide, by decide, by decide⟩
  refine ⟨horder, by decide +kernel, by decide +kernel, ?_⟩
  rw [(table_order_within_groups {} callNext).2.2 _ horder]
  decide +kernel

end Line
end StackDepth
