/-!
# Sets of addresses

A set of addresses is kept as its ascending list, so that two sets with the same members are
equal.
-/
namespace StackDepth

structure AddressSet where
  toList : List Int
  ascending : toList.Pairwise (· < ·)
deriving DecidableEq, Repr

namespace AddressSet

instance : Membership Int AddressSet := ⟨fun s a => a ∈ s.toList⟩

instance (a : Int) (s : AddressSet) : Decidable (a ∈ s) := inferInstanceAs (Decidable (a ∈ s.toList))

def empty : AddressSet := ⟨[], .nil⟩

instance : EmptyCollection AddressSet := ⟨empty⟩

/-- Puts an address into an ascending list, unless it is there. -/
def insertInto (a : Int) : List Int → List Int
  | [] => [a]
  | b :: rest => if a < b then a :: b :: rest else if a = b then b :: rest else b :: insertInto a rest

theorem mem_insertInto {x a : Int} {l : List Int} : x ∈ insertInto a l ↔ x = a ∨ x ∈ l := by
  induction l with
  | nil => simp [insertInto]
  | cons b rest ih =>
    unfold insertInto
    split
    · simp
    · split <;> grind

theorem pairwise_insertInto (a : Int) {l : List Int} (h : l.Pairwise (· < ·)) :
    (insertInto a l).Pairwise (· < ·) := by
  induction l with
  | nil => simp [insertInto]
  | cons b rest ih =>
    obtain ⟨hb, hrest⟩ := List.pairwise_cons.1 h
    unfold insertInto
    split
    · rename_i hab
      refine List.pairwise_cons.2 ⟨fun x hx => ?_, h⟩
      rcases List.mem_cons.1 hx with rfl | hx
      · exact hab
      · exact Int.lt_trans hab (hb x hx)
    · split
      · exact h
      · refine List.pairwise_cons.2 ⟨fun x hx => ?_, ih hrest⟩
        rcases mem_insertInto.1 hx with rfl | hx
        · omega
        · exact hb x hx

def insert (s : AddressSet) (a : Int) : AddressSet :=
  ⟨insertInto a s.toList, pairwise_insertInto a s.ascending⟩

def erase (s : AddressSet) (a : Int) : AddressSet :=
  ⟨s.toList.erase a, s.ascending.sublist List.erase_sublist⟩

def ofList (addresses : List Int) : AddressSet := addresses.foldl insert ∅

def size (s : AddressSet) : Nat := s.toList.length

theorem mem_def {a : Int} {s : AddressSet} : a ∈ s ↔ a ∈ s.toList := Iff.rfl

theorem nodup (s : AddressSet) : s.toList.Nodup :=
  s.ascending.imp fun h => by omega

@[simp] theorem not_mem_empty (a : Int) : a ∉ (∅ : AddressSet) := by
  simp [mem_def, EmptyCollection.emptyCollection, empty]

@[simp] theorem mem_insert {x a : Int} {s : AddressSet} : x ∈ s.insert a ↔ x = a ∨ x ∈ s :=
  mem_insertInto

@[simp] theorem mem_erase {x a : Int} {s : AddressSet} : x ∈ s.erase a ↔ x ≠ a ∧ x ∈ s :=
  s.nodup.mem_erase_iff

/-- Two sets with the same members are equal. -/
theorem ext {s t : AddressSet} (h : ∀ a, a ∈ s ↔ a ∈ t) : s = t := by
  obtain ⟨l, hl⟩ := s
  obtain ⟨m, hm⟩ := t
  have hperm : l.Perm m :=
    (List.perm_ext_iff_of_nodup (hl.imp fun h => by omega) (hm.imp fun h => by omega)).2 h
  have : l = m := hperm.eq_of_pairwise (fun a b _ _ hab hba => by omega) hl hm
  subst this
  rfl

theorem erase_insert {a : Int} {s : AddressSet} (h : a ∉ s) : (s.insert a).erase a = s :=
  ext fun x => by
    simp only [mem_erase, mem_insert]
    constructor
    · rintro ⟨hne, h | h⟩
      · exact absurd h hne
      · exact h
    · intro hx
      exact ⟨fun he => h (he ▸ hx), .inr hx⟩

end AddressSet
end StackDepth
