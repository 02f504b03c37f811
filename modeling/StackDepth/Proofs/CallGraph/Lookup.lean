import StackDepth.Proofs.CallGraph.Resolution

/-!
# Looking up the routine that holds an address

The routines of a graph stand in ascending order of their addresses, so an address cuts the order
in two: the routines that start below it, and the others. The search by halves finds the cut, and
the routine that holds the address is the last one before it.
-/
namespace StackDepth.CallGraph

variable {n : Nat}

/-- The search by halves finds the position up to which a property holds. -/
theorem bisect_eq {below : Nat → Bool} {low high k : Nat} (hlow : low ≤ k) (hhigh : k ≤ high)
    (hbelow : ∀ j, j < k → below j = true)
    (habove : ∀ j, k ≤ j → j < high → below j = false) : bisect below low high = k := by
  fun_induction bisect below low high with
  | case1 low high hlt hmid ih =>
    have hk : (low + high) / 2 < k := by
      apply Nat.lt_of_not_le
      intro hle
      rw [habove _ hle (by omega)] at hmid
      cases hmid
    exact ih (by omega) hhigh habove
  | case2 low high hlt hmid ih =>
    have hk : k ≤ (low + high) / 2 := by
      apply Nat.le_of_not_lt
      intro hlt
      exact hmid (hbelow _ hlt)
    exact ih hlow hk fun j hj hjmid => habove j hj (by omega)
  | case3 low high hle => omega

theorem containing_eq_getLast? {c : Catalogue n} {g : CallGraph n} {address : Int}
    {front back : List (Fin n)} (horder : g.order.toList = front ++ back)
    (hfront : ∀ i ∈ front, c.start i < address) (hback : ∀ i ∈ back, address ≤ c.start i) :
    g.containing c address = front.getLast? := by
  have hget : ∀ k : Nat, g.order[k]? = (front ++ back)[k]? := by
    intro k
    rw [← horder, Array.getElem?_toList]
  have hsize : g.order.size = front.length + back.length := by
    rw [← Array.length_toList, horder, List.length_append]
  have hcount : bisect (fun k => g.order[k]?.any fun i => c.start i < address) 0 g.order.size =
      front.length := by
    apply bisect_eq (Nat.zero_le _) (by omega)
    · intro k hk
      rw [hget, List.getElem?_append_left hk, List.getElem?_eq_getElem hk]
      simpa using hfront _ (List.getElem_mem hk)
    · intro k hk hksize
      have hk' : k - front.length < back.length := by omega
      rw [hget, List.getElem?_append_right hk, List.getElem?_eq_getElem hk']
      simpa using hback _ (List.getElem_mem hk')
  simp only [containing, hcount]
  split
  · rename_i hnil
    rw [List.length_eq_zero_iff.1 hnil]
    rfl
  · rw [hget, List.getLast?_eq_getElem?, List.getElem?_append_left (by omega)]

/-- A routine holds an address behind its start if no other routine starts between the two. -/
theorem containing_eq_some {c : Catalogue n} {g : CallGraph n} {address : Int} {i : Fin n}
    (hascending : g.order.toList.Pairwise fun j k => c.start j < c.start k)
    (hi : i ∈ g.order.toList) (hstart : c.start i < address)
    (hnearest : ∀ j ∈ g.order.toList, c.start i < c.start j → address ≤ c.start j) :
    g.containing c address = some i := by
  obtain ⟨front, back, horder⟩ := List.append_of_mem hi
  rw [horder, List.pairwise_append] at hascending
  obtain ⟨-, hback, hfront⟩ := hascending
  have horder' : g.order.toList = (front ++ [i]) ++ back := by rw [horder]; simp
  rw [containing_eq_getLast? horder', List.getLast?_concat]
  · intro j hj
    rcases List.mem_append.1 hj with hj | hj
    · have := hfront j hj i List.mem_cons_self
      omega
    · rw [List.mem_singleton.1 hj]
      exact hstart
  · intro j hj
    apply hnearest j (by rw [horder]; simp [hj])
    exact (List.pairwise_cons.1 hback).1 j hj

end StackDepth.CallGraph
