import Mathlib
import StackDepth.Proofs.CallGraph.Resolution
import StackDepth.Proofs.StackPath.WorstPath

/-!
# The paths of a built call graph as call chains

A trail is a chain of calls as the recursion follows it: no routine on it is visited before, up to
the last one, which is either a leaf or cut off. The paths from a routine are exactly its trails,
each with the contributions, running totals and marks that its routines give it
(`mem_expand_iff`); this holds for any catalogue and visit set.

Over a built call graph a start address stands for one routine. There the trails are the call
chains without repetition up to the last routine, which either is a leaf or stands on the chain
already, and none of them is listed twice (`pathsFrom_lists_chains`).
-/
namespace StackDepth

variable {n : Nat}

/-! ### Lists of paths -/

/-- The paths that were found, none where the search failed. -/
def found : Except GraphError (PathList n) → List (StackPath n)
  | .ok paths => paths.toList
  | .error _ => []

/-- The paths kept so far as a list, which may be empty. -/
def keptList : Option (PathList n) → List (StackPath n)
  | none => []
  | some kept => kept.toList

theorem PathList.toList_append (paths more : PathList n) :
    (paths.append more).toList = paths.toList ++ more.toList := rfl

theorem PathList.toList_extend (node : PathNode n) (paths : PathList n) :
    (paths.extend node).toList = paths.toList.map (·.extend node) := rfl

theorem keptList_add_all (kept : Option (PathList n)) (paths : PathList n) :
    (Keep.all.add kept paths).toList = keptList kept ++ paths.toList := by
  cases kept with
  | none => rfl
  | some kept => exact PathList.toList_append kept paths

theorem collect_all {explore : Fin n → Except GraphError (PathList n)}
    {kept suffixes : Option (PathList n)} {callees : List (Fin n)}
    (h : collect .all explore kept callees = .ok suffixes) :
    keptList suffixes = keptList kept ++ callees.flatMap fun j => found (explore j) := by
  induction callees generalizing kept with
  | nil =>
    cases h
    simp
  | cons callee later ih =>
    rw [collect] at h
    cases hexplore : explore callee with
    | error e => rw [hexplore] at h; cases h
    | ok paths =>
      rw [hexplore] at h
      rw [ih h, List.flatMap_cons, hexplore, ← List.append_assoc]
      exact congrArg (· ++ _) (keptList_add_all kept paths)

theorem Frame.toList_paths_of_ne_nil {node : PathNode n} {suffixes : Option (PathList n)}
    (h : keptList suffixes ≠ []) :
    (Frame.paths ⟨node, [], suffixes⟩).toList = (keptList suffixes).map (·.extend node) := by
  cases suffixes with
  | none => exact absurd rfl h
  | some suffixes => exact PathList.toList_extend node suffixes

/-- The paths from a routine with callees are those of the callees, in their order, each behind
the routine itself. -/
theorem toList_expand_all {c : Catalogue n} {config : Config} {visiting : AddressSet}
    {running : Int} {i : Fin n} {callees : List (Fin n)} {paths : PathList n}
    (hfresh : c.start i ∉ visiting) (hcallees : c.callees? i = some callees)
    (hne : callees ≠ []) (h : expand c config .all visiting running i = .ok paths) :
    paths.toList = (callees.flatMap fun j => found (expand c config .all
      (visiting.insert (c.start i)) (nodeOf c config running i).cumulative j)).map
        (·.extend (nodeOf c config running i)) := by
  obtain ⟨suffixes, hcollect, rfl⟩ := expand_ok hfresh hcallees h
  have hlist := collect_all hcollect
  rw [show keptList (none : Option (PathList n)) = [] from rfl, List.nil_append] at hlist
  rw [← hlist]
  apply Frame.toList_paths_of_ne_nil
  obtain ⟨callee, later, rfl⟩ := List.exists_cons_of_ne_nil hne
  obtain ⟨first, hfirst⟩ := collect_ok hcollect callee List.mem_cons_self
  rw [hlist, List.flatMap_cons, hfirst]
  exact List.append_ne_nil_of_left_ne_nil (List.cons_ne_nil _ _) _

theorem expand_leaf {c : Catalogue n} {config : Config} {keep : Keep} {visiting : AddressSet}
    {running : Int} {i : Fin n} (hfresh : c.start i ∉ visiting)
    (hcallees : c.callees? i = some []) :
    expand c config keep visiting running i =
      .ok ⟨⟨nodeOf c config running i, [], (c.routine i).contribution config⟩, []⟩ := by
  rw [expand_resolved hfresh hcallees]
  rfl

/-! ### Trails -/

namespace StackPath

/-- The routines on a path. -/
def chain (p : StackPath n) : List (Fin n) := p.nodes.map (·.routine)

/-- The path along a chain of routines that begins with `i`, on top of `running` bytes; the last
node is marked as told. -/
def along (c : Catalogue n) (config : Config) (recursive : Bool) :
    (running : Int) → (i : Fin n) → List (Fin n) → StackPath n
  | running, i, [] =>
    ⟨{ nodeOf c config running i with recursion := recursive }, [],
      (c.routine i).contribution config⟩
  | running, i, j :: tail =>
    (along c config recursive (nodeOf c config running i).cumulative j tail).extend
      (nodeOf c config running i)

section
variable (c : Catalogue n) (config : Config) (recursive : Bool) (running : Int) (i : Fin n)
variable (tail : List (Fin n))

theorem chain_extend (node : PathNode n) (p : StackPath n) :
    (p.extend node).chain = node.routine :: p.chain := rfl

theorem chain_along : (along c config recursive running i tail).chain = i :: tail := by
  induction tail generalizing running i with
  | nil => rfl
  | cons j tail ih =>
    rw [along, chain_extend, ih]
    rfl

theorem total_along : (along c config recursive running i tail).total =
    ((i :: tail).map fun j => (c.routine j).contribution config).sum := by
  induction tail generalizing running i with
  | nil => simp [along]
  | cons j tail ih =>
    rw [along, extend, ih, List.map_cons (l := j :: tail), List.sum_cons, Int.add_comm]
    rfl

theorem recursion_along : (along c config recursive running i tail).nodes.map (·.recursion) =
    List.replicate tail.length false ++ [recursive] := by
  induction tail generalizing running i with
  | nil => rfl
  | cons j tail ih =>
    rw [along, List.length_cons, List.replicate_succ, List.cons_append, ← ih]
    rfl

end
end StackPath

/-- A chain of calls from a routine that the recursion follows, given by what comes behind the
routine, and whether the chain is cut off at its end. -/
inductive Trail (c : Catalogue n) : AddressSet → Fin n → List (Fin n) → Bool → Prop
  | cut {visiting : AddressSet} {i : Fin n} : c.start i ∈ visiting → Trail c visiting i [] true
  | leaf {visiting : AddressSet} {i : Fin n} : c.start i ∉ visiting → c.callees? i = some [] →
      Trail c visiting i [] false
  | call {visiting : AddressSet} {i j : Fin n} {tail : List (Fin n)} {recursive : Bool} :
      c.start i ∉ visiting → c.Calls i j →
      Trail c (visiting.insert (c.start i)) j tail recursive →
      Trail c visiting i (j :: tail) recursive

/-- The paths from a routine are those along its trails. -/
theorem mem_expand_iff {c : Catalogue n} {config : Config} {visiting : AddressSet} {running : Int}
    {i : Fin n} {paths : PathList n} (h : expand c config .all visiting running i = .ok paths)
    (p : StackPath n) :
    p ∈ paths.toList ↔ ∃ tail recursive, Trail c visiting i tail recursive ∧
      p = StackPath.along c config recursive running i tail := by
  induction visiting, i using c.visit_induction generalizing running paths p with
  | visited visiting i hvisited =>
    rw [expand_visited hvisited] at h
    cases h
    constructor
    · intro hp
      exact ⟨[], true, .cut hvisited, List.mem_singleton.1 hp⟩
    · rintro ⟨tail, recursive, htrail, rfl⟩
      cases htrail with
      | cut => exact List.mem_singleton.2 rfl
      | leaf hfresh => exact absurd hvisited hfresh
      | call hfresh => exact absurd hvisited hfresh
  | unresolved visiting i hfresh hcallees =>
    rw [expand_unresolved hfresh hcallees] at h
    cases h
  | resolved visiting i callees hfresh hcallees ih =>
    by_cases hnil : callees = []
    · subst hnil
      rw [expand_leaf hfresh hcallees] at h
      cases h
      constructor
      · intro hp
        exact ⟨[], false, .leaf hfresh hcallees, List.mem_singleton.1 hp⟩
      · rintro ⟨tail, recursive, htrail, rfl⟩
        cases htrail with
        | cut hvisited => exact absurd hvisited hfresh
        | leaf => exact List.mem_singleton.2 rfl
        | call _ hcalls =>
          obtain ⟨callees, hcallees', hj⟩ := hcalls
          rw [hcallees] at hcallees'
          cases hcallees'
          cases hj
    · rw [toList_expand_all hfresh hcallees hnil h, List.mem_map]
      have hexplore := expand_callee_ok hfresh hcallees h
      constructor
      · rintro ⟨q, hq, rfl⟩
        obtain ⟨j, hj, hq⟩ := List.mem_flatMap.1 hq
        obtain ⟨paths', hpaths'⟩ := hexplore j hj
        rw [hpaths'] at hq
        obtain ⟨tail, recursive, htrail, rfl⟩ := (ih j hpaths' q).1 hq
        exact ⟨j :: tail, recursive, .call hfresh ⟨callees, hcallees, hj⟩ htrail, rfl⟩
      · rintro ⟨tail, recursive, htrail, rfl⟩
        cases htrail with
        | cut hvisited => exact absurd hvisited hfresh
        | leaf _ hcallees' =>
          rw [hcallees] at hcallees'
          exact absurd (Option.some.inj hcallees') hnil
        | @call _ _ j tail _ _ hcalls htrail =>
          obtain ⟨callees', hcallees', hj⟩ := hcalls
          rw [hcallees] at hcallees'
          cases hcallees'
          obtain ⟨paths', hpaths'⟩ := hexplore j hj
          refine ⟨_, List.mem_flatMap.2 ⟨j, hj, ?_⟩, rfl⟩
          rw [hpaths']
          exact (ih j hpaths' _).2 ⟨tail, recursive, htrail, rfl⟩

/-- The worst path is one of all paths, so whatever is kept runs along a trail. -/
theorem exists_trail_of_mem_expand {c : Catalogue n} {config : Config} {keep : Keep}
    {visiting : AddressSet} {running : Int} {i : Fin n} {paths : PathList n} {p : StackPath n}
    (h : expand c config keep visiting running i = .ok paths) (hp : p ∈ paths.toList) :
    ∃ tail recursive, Trail c visiting i tail recursive ∧
      p = StackPath.along c config recursive running i tail := by
  cases keep with
  | all => exact (mem_expand_iff h p).1 hp
  | worst =>
    rw [expand_worst] at h
    cases hall : expand c config .all visiting running i with
    | error e => rw [hall] at h; cases h
    | ok all =>
      rw [hall] at h
      cases h
      rw [List.mem_singleton.1 hp]
      exact (mem_expand_iff hall all.largest).1 all.largest_isFirstLargest.mem

theorem head?_chain_of_mem_found {c : Catalogue n} {config : Config} {visiting : AddressSet}
    {running : Int} {i : Fin n} {chain : List (Fin n)}
    (h : chain ∈ (found (expand c config .all visiting running i)).map StackPath.chain) :
    chain.head? = some i := by
  obtain ⟨p, hp, rfl⟩ := List.mem_map.1 h
  cases hexpand : expand c config .all visiting running i with
  | error e => rw [hexpand] at hp; cases hp
  | ok paths =>
    rw [hexpand] at hp
    obtain ⟨tail, recursive, -, rfl⟩ := (mem_expand_iff hexpand p).1 hp
    rw [StackPath.chain_along]
    rfl

theorem trail_cons_iff {c : Catalogue n} {visiting : AddressSet} {i j : Fin n}
    {tail : List (Fin n)} {recursive : Bool} :
    Trail c visiting i (j :: tail) recursive ↔ c.start i ∉ visiting ∧ c.Calls i j ∧
      Trail c (visiting.insert (c.start i)) j tail recursive := by
  constructor
  · intro h
    cases h with
    | call hfresh hcalls htrail => exact ⟨hfresh, hcalls, htrail⟩
  · rintro ⟨hfresh, hcalls, htrail⟩
    exact .call hfresh hcalls htrail

theorem trail_nil_iff {c : Catalogue n} {visiting : AddressSet} {i : Fin n} {recursive : Bool} :
    Trail c visiting i [] recursive ↔ recursive = true ∧ c.start i ∈ visiting ∨
      recursive = false ∧ c.start i ∉ visiting ∧ c.callees? i = some [] := by
  constructor
  · intro h
    cases h with
    | cut hvisited => exact .inl ⟨rfl, hvisited⟩
    | leaf hfresh hcallees => exact .inr ⟨rfl, hfresh, hcallees⟩
  · rintro (⟨rfl, hvisited⟩ | ⟨rfl, hfresh, hcallees⟩)
    · exact .cut hvisited
    · exact .leaf hfresh hcallees

/-- What makes a chain a trail, told of the chain as a whole. -/
structure Followed (c : Catalogue n) (visiting : AddressSet) (init : List (Fin n)) (last : Fin n)
    (recursive : Bool) : Prop where
  calls : (init ++ [last]).IsChain c.Calls
  distinct : (init.map c.start).Nodup
  fresh : ∀ i ∈ init, c.start i ∉ visiting
  ends : recursive = true ∧ (c.start last ∈ visiting ∨ c.start last ∈ init.map c.start) ∨
    recursive = false ∧ ¬ (c.start last ∈ visiting ∨ c.start last ∈ init.map c.start) ∧
      c.callees? last = some []

theorem followed_nil_iff {c : Catalogue n} {visiting : AddressSet} {last : Fin n}
    {recursive : Bool} :
    Followed c visiting [] last recursive ↔ Trail c visiting last [] recursive := by
  rw [trail_nil_iff]
  constructor
  · intro h
    simpa using h.ends
  · intro h
    exact ⟨.singleton last, List.nodup_nil, by simp, by simpa using h⟩

/-- The first routine of a chain may as well be counted to the visit set. -/
theorem followed_cons_iff {c : Catalogue n} {visiting : AddressSet} {i j last : Fin n}
    {init tail : List (Fin n)} {recursive : Bool} (hchain : init ++ [last] = j :: tail) :
    Followed c visiting (i :: init) last recursive ↔ c.start i ∉ visiting ∧ c.Calls i j ∧
      Followed c (visiting.insert (c.start i)) init last recursive := by
  have hvisited : c.start last ∈ visiting ∨ c.start last ∈ (i :: init).map c.start ↔
      c.start last ∈ visiting.insert (c.start i) ∨ c.start last ∈ init.map c.start := by
    rw [List.map_cons, List.mem_cons, AddressSet.mem_insert]
    tauto
  constructor
  · rintro ⟨hcalls, hdistinct, hfresh, hends⟩
    rw [List.cons_append, hchain, List.isChain_cons_cons] at hcalls
    obtain ⟨hnotin, hdistinct⟩ := List.nodup_cons.1 hdistinct
    refine ⟨hfresh i List.mem_cons_self, hcalls.1, hchain ▸ hcalls.2, hdistinct, ?_, ?_⟩
    · intro x hx hmem
      rcases AddressSet.mem_insert.1 hmem with heq | hmem
      · exact hnotin (heq ▸ List.mem_map_of_mem hx)
      · exact hfresh x (List.mem_cons_of_mem _ hx) hmem
    · rwa [hvisited] at hends
  · rintro ⟨hi, hij, hcalls, hdistinct, hfresh, hends⟩
    refine ⟨?_, List.nodup_cons.2 ⟨?_, hdistinct⟩, ?_, ?_⟩
    · rw [List.cons_append, hchain, List.isChain_cons_cons]
      exact ⟨hij, hchain ▸ hcalls⟩
    · intro hmem
      obtain ⟨x, hx, heq⟩ := List.mem_map.1 hmem
      exact hfresh x hx (AddressSet.mem_insert.2 (.inl heq))
    · intro x hx
      rcases List.mem_cons.1 hx with rfl | hx
      · exact hi
      · exact fun hmem => hfresh x hx (AddressSet.mem_insert.2 (.inr hmem))
    · rwa [hvisited]

theorem trail_iff_followed {c : Catalogue n} {visiting : AddressSet} {i last : Fin n}
    {init tail : List (Fin n)} {recursive : Bool} (hchain : init ++ [last] = i :: tail) :
    Trail c visiting i tail recursive ↔ Followed c visiting init last recursive := by
  induction init generalizing visiting i tail with
  | nil =>
    obtain ⟨rfl, rfl⟩ := List.cons.inj hchain
    exact followed_nil_iff.symm
  | cons k init ih =>
    obtain ⟨rfl, hrest⟩ := List.cons.inj hchain
    obtain ⟨j, tail', htail⟩ := List.exists_cons_of_ne_nil (l := tail) (by simp [← hrest])
    subst htail
    have hrest : init ++ [last] = j :: tail' := hrest
    rw [trail_cons_iff, followed_cons_iff hrest, ih hrest]

/-! ### Chains over a linked catalogue -/

theorem mem_calleesOf {c : Catalogue n} {i j : Fin n} :
    j ∈ CallGraph.calleesOf c i ↔ c.Calls i j := by
  rw [CallGraph.calleesOf, Catalogue.Calls]
  cases c.callees? i with
  | none => simp
  | some callees => simp

/-- Routines call one another in turn, from `root` through `init` to `last`; all are different,
only the last may stand on the chain already. -/
structure CallChain (c : Catalogue n) (root : Fin n) (init : List (Fin n)) (last : Fin n) :
    Prop where
  head : (init ++ [last]).head? = some root
  calls : (init ++ [last]).IsChain c.Calls
  distinct : init.Nodup

/-- A chain that cannot be prolonged: it ends in a leaf, or in a routine that it contains. -/
def CallChain.Complete (c : Catalogue n) (init : List (Fin n)) (last : Fin n) : Prop :=
  last ∉ init ∧ CallGraph.calleesOf c last = [] ∨ last ∈ init

namespace Catalogue.Linked

variable {c : Catalogue n} {table : List (Fin n)}

theorem isClosed (h : c.Linked table) : c.Closed table := by
  intro i hi
  obtain ⟨callees, hcallees, -, hclosed⟩ := h.closed i hi
  exact ⟨callees, hcallees, hclosed⟩

theorem mem_of_isChain (h : c.Linked table) {root : Fin n} {chain : List (Fin n)}
    (hroot : root ∈ table) (hhead : chain.head? = some root) (hcalls : chain.IsChain c.Calls) :
    ∀ i ∈ chain, i ∈ table := by
  refine hcalls.induction (· ∈ table) chain (fun i j hij hi => h.isClosed.mem_of_calls hi hij) ?_
  intro hne
  rw [List.head?_eq_some_head hne] at hhead
  cases hhead
  exact hroot

theorem exists_expand (h : c.Linked table) (config : Config) (keep : Keep)
    (visiting : AddressSet) (running : Int) {i : Fin n} (hi : i ∈ table) :
    ∃ paths, expand c config keep visiting running i = .ok paths :=
  h.isClosed.exists_expand config keep visiting running hi

theorem start_mem_map (h : c.Linked table) {chain : List (Fin n)} {i : Fin n} (hi : i ∈ table)
    (hchain : ∀ j ∈ chain, j ∈ table) : c.start i ∈ chain.map c.start ↔ i ∈ chain := by
  constructor
  · intro hmem
    obtain ⟨j, hj, heq⟩ := List.mem_map.1 hmem
    exact h.keyed.start_inj (hchain j hj) hi heq ▸ hj
  · exact List.mem_map_of_mem

theorem nodup_map_start (h : c.Linked table) {chain : List (Fin n)}
    (hchain : ∀ j ∈ chain, j ∈ table) : (chain.map c.start).Nodup ↔ chain.Nodup := by
  refine ⟨List.Nodup.of_map _, List.Nodup.map_on ?_⟩
  exact fun i hi j hj heq => h.keyed.start_inj (hchain i hi) (hchain j hj) heq

theorem callees_eq_nil (h : c.Linked table) {i : Fin n} (hi : i ∈ table) :
    c.callees? i = some [] ↔ CallGraph.calleesOf c i = [] := by
  obtain ⟨callees, hcallees, -⟩ := h.closed i hi
  rw [CallGraph.calleesOf, hcallees, Option.getD_some, Option.some.injEq]

/-- Seen from outside the graph, addresses may be replaced by routines. -/
theorem followed_iff (h : c.Linked table) {root last : Fin n} {init : List (Fin n)}
    {recursive : Bool} (hroot : root ∈ table) (hhead : (init ++ [last]).head? = some root) :
    Followed c ∅ init last recursive ↔ CallChain c root init last ∧
      (recursive = true ∧ last ∈ init ∨
        recursive = false ∧ last ∉ init ∧ CallGraph.calleesOf c last = []) := by
  constructor
  · rintro ⟨hcalls, hdistinct, -, hends⟩
    have hmem := h.mem_of_isChain hroot hhead hcalls
    have hlast : last ∈ table := hmem last (by simp)
    have hinit : ∀ i ∈ init, i ∈ table := fun i hi => hmem i (by simp [hi])
    refine ⟨⟨hhead, hcalls, (h.nodup_map_start hinit).1 hdistinct⟩, ?_⟩
    rw [h.start_mem_map hlast hinit, h.callees_eq_nil hlast] at hends
    simpa using hends
  · rintro ⟨⟨-, hcalls, hdistinct⟩, hends⟩
    have hmem := h.mem_of_isChain hroot hhead hcalls
    have hlast : last ∈ table := hmem last (by simp)
    have hinit : ∀ i ∈ init, i ∈ table := fun i hi => hmem i (by simp [hi])
    refine ⟨hcalls, (h.nodup_map_start hinit).2 hdistinct, by simp, ?_⟩
    rw [h.start_mem_map hlast hinit, h.callees_eq_nil hlast]
    simpa using hends

/-- The paths found are those along the complete call chains. -/
theorem mem_chains_iff (h : c.Linked table) {config : Config} {running : Int} {root last : Fin n}
    {init : List (Fin n)} {paths : PathList n} (hroot : root ∈ table)
    (hpaths : expand c config .all ∅ running root = .ok paths) :
    init ++ [last] ∈ paths.toList.map StackPath.chain ↔
      CallChain c root init last ∧ CallChain.Complete c init last := by
  rw [List.mem_map]
  constructor
  · rintro ⟨p, hp, hchain⟩
    obtain ⟨tail, recursive, htrail, rfl⟩ := (mem_expand_iff hpaths p).1 hp
    rw [StackPath.chain_along] at hchain
    have hfollowed := (trail_iff_followed hchain.symm).1 htrail
    have hhead : (init ++ [last]).head? = some root := by rw [← hchain]; rfl
    obtain ⟨hcallChain, hends⟩ := (h.followed_iff hroot hhead).1 hfollowed
    refine ⟨hcallChain, ?_⟩
    rcases hends with ⟨-, hmem⟩ | ⟨-, hleaf⟩
    · exact .inr hmem
    · exact .inl hleaf
  · rintro ⟨hcallChain, hcomplete⟩
    have hends : ∃ recursive, recursive = true ∧ last ∈ init ∨
        recursive = false ∧ last ∉ init ∧ CallGraph.calleesOf c last = [] := by
      rcases hcomplete with hleaf | hmem
      · exact ⟨false, .inr ⟨rfl, hleaf⟩⟩
      · exact ⟨true, .inl ⟨rfl, hmem⟩⟩
    obtain ⟨recursive, hends⟩ := hends
    obtain ⟨tail, htail⟩ := List.head?_eq_some_iff.1 hcallChain.head
    have hfollowed := (h.followed_iff hroot hcallChain.head).2 ⟨hcallChain, hends⟩
    have htrail := (trail_iff_followed htail).2 hfollowed
    refine ⟨_, (mem_expand_iff hpaths _).2 ⟨tail, recursive, htrail, rfl⟩, ?_⟩
    rw [StackPath.chain_along, htail]

theorem recursion_of_mem (h : c.Linked table) {config : Config} {running : Int}
    {root last : Fin n} {init : List (Fin n)} {paths : PathList n} {p : StackPath n}
    (hroot : root ∈ table) (hpaths : expand c config .all ∅ running root = .ok paths)
    (hp : p ∈ paths.toList) (hchain : p.chain = init ++ [last]) :
    p.nodes.map (·.recursion) = init.map (fun _ => false) ++ [decide (last ∈ init)] := by
  obtain ⟨tail, recursive, htrail, rfl⟩ := (mem_expand_iff hpaths p).1 hp
  rw [StackPath.chain_along] at hchain
  have hfollowed := (trail_iff_followed hchain.symm).1 htrail
  have hhead : (init ++ [last]).head? = some root := by rw [← hchain]; rfl
  obtain ⟨-, hends⟩ := (h.followed_iff hroot hhead).1 hfollowed
  have hlength : tail.length = init.length := by simpa using congrArg List.length hchain
  rw [StackPath.recursion_along, List.map_const', hlength]
  rcases hends with ⟨rfl, hmem⟩ | ⟨rfl, hmem, -⟩
  · rw [decide_eq_true hmem]
  · rw [decide_eq_false hmem]

/-- No chain is listed twice: the paths of different callees differ in their second routine. -/
theorem nodup_chains (h : c.Linked table) {config : Config} {visiting : AddressSet}
    {running : Int} {i : Fin n} {paths : PathList n} (hi : i ∈ table)
    (hexpand : expand c config .all visiting running i = .ok paths) :
    (paths.toList.map StackPath.chain).Nodup := by
  induction visiting, i using c.visit_induction generalizing running paths with
  | visited visiting i hvisited =>
    rw [expand_visited hvisited] at hexpand
    cases hexpand
    exact List.nodup_singleton _
  | unresolved visiting i hfresh hcallees =>
    rw [expand_unresolved hfresh hcallees] at hexpand
    cases hexpand
  | resolved visiting i callees hfresh hcallees ih =>
    by_cases hnil : callees = []
    · subst hnil
      rw [expand_leaf hfresh hcallees] at hexpand
      cases hexpand
      exact List.nodup_singleton _
    · obtain ⟨callees', hcallees', hascending, hclosed⟩ := h.closed i hi
      rw [hcallees] at hcallees'
      cases hcallees'
      have hcons : StackPath.chain ∘ StackPath.extend (nodeOf c config running i) =
          (i :: ·) ∘ StackPath.chain := rfl
      rw [toList_expand_all hfresh hcallees hnil hexpand, List.map_map, hcons, ← List.map_map,
        List.map_flatMap]
      refine List.Nodup.map List.cons_injective (List.nodup_flatMap.2 ⟨?_, ?_⟩)
      · intro j hj
        obtain ⟨paths', hpaths'⟩ := expand_callee_ok hfresh hcallees hexpand j hj
        rw [hpaths']
        exact ih j (hclosed j hj) hpaths'
      · refine hascending.imp ?_
        intro j k hlt chain hchainj hchaink
        have hjk := (head?_chain_of_mem_found hchainj).symm.trans (head?_chain_of_mem_found hchaink)
        rw [Option.some.inj hjk] at hlt
        exact Int.lt_irrefl _ hlt

end Catalogue.Linked

open CallGraph (build)

/-- Over a built call graph, the paths from a routine are its complete call chains, each listed
once, and a path is marked at its last node alone, if that node is on the chain already. -/
theorem pathsFrom_lists_chains {c : Catalogue n} {table : List (Fin n)} {g : CallGraph n}
    (config : Config) {root : Fin n} (hkeyed : c.Keyed table)
    (hbuild : (build c table).result = .ok g) (hroot : root ∈ g.order.toList) :
    ∃ paths, pathsFrom (build c table).catalogue config root = .ok paths ∧
      paths.toList ≠ [] ∧ (paths.toList.map StackPath.chain).Nodup ∧
      (∀ init last, init ++ [last] ∈ paths.toList.map StackPath.chain ↔
        CallChain (build c table).catalogue root init last ∧
          CallChain.Complete (build c table).catalogue init last) ∧
      ∀ p ∈ paths.toList, ∀ init last, p.chain = init ++ [last] →
        p.nodes.map (·.recursion) = init.map (fun _ => false) ++ [decide (last ∈ init)] := by
  have hlinked := CallGraph.build_linked hkeyed hbuild
  obtain ⟨paths, hpaths⟩ := hlinked.exists_expand config .all ∅ 0 hroot
  refine ⟨paths, ?_, List.cons_ne_nil _ _, hlinked.nodup_chains hroot hpaths, ?_, ?_⟩
  · rw [pathsFrom_eq_expand, hpaths]
  · exact fun init last => hlinked.mem_chains_iff hroot hpaths
  · exact fun p hp init last hchain => hlinked.recursion_of_mem hroot hpaths hp hchain

/-- Two routines that call each other, one of which calls a leaf as well. -/
def pingPong : Catalogue 3 := Catalogue.ofList
  [{ name := "ping", start := 0x10, stackUsed := 4, callTargets := .ofList [0x20, 0x30] },
   { name := "pong", start := 0x20, stackUsed := 1, callTargets := .ofList [0x10] },
   { name := "leaf", start := 0x30, callTargets := .ofList [0x99] }]

def pingPongGraph : CallGraph 3 :=
  { order := #[0, 1, 2], callerIndex := #v[[1], [0], [0]], roots := [] }

theorem keyed_pingPong : pingPong.Keyed (List.finRange 3) := by
  unfold Catalogue.Keyed
  decide

theorem build_pingPong : (build pingPong (List.finRange 3)).result = .ok pingPongGraph := by
  cbv

theorem callees_pong : (build pingPong (List.finRange 3)).catalogue.callees? 1 = some [0] := by
  cbv

theorem callChain_pingPong :
    CallChain (build pingPong (List.finRange 3)).catalogue 0 [0, 1] 0 := by
  have hping : (build pingPong (List.finRange 3)).catalogue.callees? 0 = some [1, 2] := by cbv
  refine ⟨rfl, ?_, by decide⟩
  exact .cons_cons ⟨_, hping, by decide⟩ (.cons_cons ⟨_, callees_pong, by decide⟩ (.singleton _))

theorem pathsFrom_lists_chains_pingPong :
    pingPong.Keyed (List.finRange 3) ∧
    (build pingPong (List.finRange 3)).result = .ok pingPongGraph ∧
    0 ∈ pingPongGraph.order.toList ∧
    ∃ paths, pathsFrom (build pingPong (List.finRange 3)).catalogue {} 0 = .ok paths ∧
      (paths.toList.map StackPath.chain).Nodup ∧
      [0, 1, 0] ∈ paths.toList.map StackPath.chain ∧
      [0, 1] ∉ paths.toList.map StackPath.chain := by
  have hroot : 0 ∈ pingPongGraph.order.toList := by decide
  obtain ⟨paths, hpaths, -, hnodup, hmem, -⟩ :=
    pathsFrom_lists_chains {} keyed_pingPong build_pingPong hroot
  refine ⟨keyed_pingPong, build_pingPong, hroot, paths, hpaths, hnodup, ?_, ?_⟩
  · exact (hmem [0, 1] 0).2 ⟨callChain_pingPong, .inr (by decide)⟩
  · intro h
    rcases ((hmem [0] 1).1 h).2 with ⟨-, hleaf⟩ | hcycle
    · rw [CallGraph.calleesOf, callees_pong] at hleaf
      cases hleaf
    · revert hcycle
      decide

end StackDepth
