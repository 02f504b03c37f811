import StackDepth.StackPath.Survey

/-!
# The walk as a recursion

The walk keeps a stack of half-expanded frames. Here the same paths are given by recursion on a
routine and a visit set that only grows on the way down: a visited routine is cut off, any other
one is followed into its callees in their order. The recursion ends because every call it makes
leaves fewer routines unvisited.

`walk_eq_expand` says that the walk and the recursion agree for all catalogues, resolved or not,
for either choice of what is kept, and from any visit set; and that the walk gives the visit set
back as it was, also where it fails. The recursion does not fail from a routine of a table that no
call leads out of, if all its routines are resolved (`Catalogue.Closed.exists_expand`).
-/
namespace StackDepth

variable {n : Nat}

/-- Goes through callees in order and adds the paths of each to those kept so far. -/
def collect (keep : Keep) (explore : Fin n → Except GraphError (PathList n)) :
    Option (PathList n) → List (Fin n) → Except GraphError (Option (PathList n))
  | kept, [] => .ok kept
  | kept, callee :: later =>
    match explore callee with
    | .error e => .error e
    | .ok paths => collect keep explore (some (keep.add kept paths)) later

/-- The node of a routine on a path that has taken `running` bytes so far. -/
def nodeOf (c : Catalogue n) (config : Config) (running : Int) (i : Fin n) : PathNode n :=
  { routine := i
    contribution := (c.routine i).contribution config
    cumulative := running + (c.routine i).contribution config }

/-- The paths from a routine, given the addresses on the path that leads to it and the bytes that
this path has taken. -/
def expand (c : Catalogue n) (config : Config) (keep : Keep) (visiting : AddressSet)
    (running : Int) (i : Fin n) : Except GraphError (PathList n) :=
  let node := nodeOf c config running i
  if _h : c.start i ∈ visiting then
    .ok ⟨⟨{ node with recursion := true }, [], node.contribution⟩, []⟩
  else
    match c.callees? i with
    | none => .error (.unresolved (c.routine i).name)
    | some callees =>
      let explore := fun callee =>
        expand c config keep (visiting.insert (c.start i)) node.cumulative callee
      (collect keep explore none callees).map fun suffixes => Frame.paths ⟨node, [], suffixes⟩
termination_by WalkState.unvisited c visiting
decreasing_by exact WalkState.unvisited_insert_lt c _h

section
variable {c : Catalogue n} {config : Config} {keep : Keep} {visiting : AddressSet}
variable {running : Int} {i : Fin n}

theorem expand_visited (h : c.start i ∈ visiting) :
    expand c config keep visiting running i =
      .ok ⟨⟨{ nodeOf c config running i with recursion := true }, [],
        (c.routine i).contribution config⟩, []⟩ := by
  rw [expand, dif_pos h]
  rfl

theorem expand_unresolved (h : c.start i ∉ visiting) (hcallees : c.callees? i = none) :
    expand c config keep visiting running i = .error (.unresolved (c.routine i).name) := by
  rw [expand, dif_neg h, hcallees]

theorem expand_resolved {callees : List (Fin n)} (h : c.start i ∉ visiting)
    (hcallees : c.callees? i = some callees) :
    expand c config keep visiting running i =
      (collect keep (expand c config keep (visiting.insert (c.start i))
        (nodeOf c config running i).cumulative) none callees).map
          fun suffixes => Frame.paths ⟨nodeOf c config running i, [], suffixes⟩ := by
  rw [expand, dif_neg h, hcallees]

end

/-- Induction along the recursion: a statement about a visit set and a routine may be assumed of
all routines once the address of this one is visited as well. -/
@[elab_as_elim]
theorem Catalogue.visit_induction (c : Catalogue n) {motive : AddressSet → Fin n → Prop}
    (visited : ∀ visiting i, c.start i ∈ visiting → motive visiting i)
    (unresolved : ∀ visiting i, c.start i ∉ visiting → c.callees? i = none → motive visiting i)
    (resolved : ∀ visiting i callees, c.start i ∉ visiting → c.callees? i = some callees →
      (∀ j, motive (visiting.insert (c.start i)) j) → motive visiting i)
    (visiting : AddressSet) (i : Fin n) : motive visiting i := by
  induction hu : WalkState.unvisited c visiting using Nat.strongRecOn generalizing visiting i with
  | ind u ih =>
  by_cases h : c.start i ∈ visiting
  · exact visited visiting i h
  · cases hcallees : c.callees? i with
    | none => exact unresolved visiting i h hcallees
    | some callees =>
      refine resolved visiting i callees h hcallees fun j => ?_
      exact ih _ (hu ▸ WalkState.unvisited_insert_lt c h) _ j rfl

/-! ### One step of the walk -/

/-- Entering a routine is the first step of expanding it. -/
theorem expand_eq_enter (c : Catalogue n) (config : Config) (keep : Keep) (visiting : AddressSet)
    (running : Int) (i : Fin n) :
    expand c config keep visiting running i =
      match enter c config visiting i running with
      | .error e => .error e
      | .ok (.cut path) => .ok ⟨path, []⟩
      | .ok (.frame f) =>
        (collect keep (expand c config keep (visiting.insert (c.start i)) f.node.cumulative)
          f.suffixes f.pending).map fun suffixes => Frame.paths ⟨f.node, [], suffixes⟩ := by
  by_cases h : c.start i ∈ visiting
  · rw [expand_visited h]
    simp only [enter, if_pos h]
    rfl
  · cases hcallees : c.callees? i with
    | none =>
      rw [expand_unresolved h hcallees]
      simp only [enter, if_neg h, hcallees]
    | some callees =>
      rw [expand_resolved h hcallees]
      simp only [enter, if_neg h, hcallees]
      rfl

namespace WalkState

/-- The state in which the top frame has no callees left to enter. -/
def finishTop (s : WalkState n) (suffixes : Option (PathList n)) : WalkState n :=
  { s with top := { s.top with pending := [], suffixes } }

theorem run_inl {c : Catalogue n} {config : Config} {keep : Keep} {s t : WalkState n}
    (h : s.step c config keep = .inl t) : s.run c config keep = t.run c config keep := by
  rw [run]
  split
  · rename_i h'
    rw [h] at h'
    cases h'
  · rename_i h'
    rw [h] at h'
    cases h'
    rfl

theorem run_inr {c : Catalogue n} {config : Config} {keep : Keep} {s : WalkState n}
    {result : WalkResult n} (h : s.step c config keep = .inr result) :
    s.run c config keep = result := by
  rw [run]
  split
  · rename_i h'
    rw [h] at h'
    cases h'
    rfl
  · rename_i h'
    rw [h] at h'
    cases h'

/-- A frame put on top of a stack is taken off again together with its address. -/
theorem unwind_push {c : Catalogue n} {s : WalkState n} {f : Frame n}
    (h : f.start c ∉ s.visiting) (pending : List (Fin n)) :
    unwind c { visiting := s.visiting.insert (f.start c), top := f,
               below := { s.top with pending } :: s.below } = s.unwind c := by
  simp only [unwind, stack, List.foldl_cons, AddressSet.erase_insert h]
  rfl

/-- A callee that is done with makes the rest of the walk cheaper. -/
theorem cost_keepPaths_lt (c : Catalogue n) (keep : Keep) {s : WalkState n} {callee : Fin n}
    {later : List (Fin n)} (hpending : s.top.pending = callee :: later) (paths : PathList n) :
    cost c { s with top := { s.top with pending := later }.keepPaths keep paths } < s.cost c := by
  simp only [cost, stack, stackCost, Frame.keepPaths, Frame.start, hpending, List.length_cons,
    Nat.add_mul, Nat.one_mul]
  have := entryCost_pos (degree c) (unvisited c s.visiting)
  omega

/-- A frame without pending callees hands its paths to the frame below it. -/
theorem run_pop {c : Catalogue n} {config : Config} {keep : Keep} {s : WalkState n}
    {parent : Frame n} {below : List (Frame n)} (hpending : s.top.pending = [])
    (hbelow : s.below = parent :: below) :
    s.run c config keep =
      run c config keep { visiting := s.visiting.erase (s.top.start c),
                          top := parent.keepPaths keep s.top.paths, below } := by
  apply run_inl
  simp only [step, hpending, hbelow]

theorem run_last {c : Catalogue n} {config : Config} {keep : Keep} {s : WalkState n}
    (hpending : s.top.pending = []) (hbelow : s.below = []) :
    s.run c config keep = ⟨.ok s.top.paths, s.visiting.erase (s.top.start c)⟩ := by
  apply run_inr
  simp only [step, hpending, hbelow]

/-- The walk from a state first settles the pending callees of the top frame. Each of them comes
to what the recursion gives for it; the frames below wait unchanged. By induction on the cost of a
state, since both a cut and a return lead to a cheaper one. -/
theorem run_eq_collect (c : Catalogue n) (config : Config) (keep : Keep) (s : WalkState n) :
    s.run c config keep =
      match collect keep (expand c config keep s.visiting s.top.node.cumulative)
        s.top.suffixes s.top.pending with
      | .error e => ⟨.error e, s.unwind c⟩
      | .ok suffixes => (s.finishTop suffixes).run c config keep := by
  induction hcost : s.cost c using Nat.strongRecOn generalizing s with
  | ind cost ih =>
  subst hcost
  cases hpending : s.top.pending with
  | nil =>
    simp only [collect, finishTop, ← hpending]
  | cons callee later =>
    simp only [collect, expand_eq_enter c config keep s.visiting _ callee]
    cases henter : enter c config s.visiting callee s.top.node.cumulative with
    | error e =>
      apply run_inr
      simp only [step, hpending, henter]
    | ok entry =>
      cases entry with
      | cut path =>
        have hstep : s.step c config keep =
            .inl { s with top := { s.top with pending := later }.keepPaths keep ⟨path, []⟩ } := by
          simp only [step, hpending, henter]
        rw [run_inl hstep, ih _ (cost_keepPaths_lt c keep hpending _) _ rfl]
        rfl
      | frame f =>
        obtain ⟨hfresh, hroutine, -⟩ := enter_frame henter
        have hstart : f.start c = c.start callee := by rw [Frame.start, hroutine]
        have hstep : s.step c config keep =
            .inl { visiting := s.visiting.insert (c.start callee), top := f,
                   below := { s.top with pending := later } :: s.below } := by
          simp only [step, hpending, henter]
        rw [run_inl hstep, ih _ (cost_step_lt hstep) _ rfl]
        simp only
        cases hcollect : collect keep (expand c config keep (s.visiting.insert (c.start callee))
            f.node.cumulative) f.suffixes f.pending with
        | error e =>
          simp only [Except.map]
          rw [← hstart] at hfresh ⊢
          rw [unwind_push hfresh]
        | ok suffixes =>
          simp only [Except.map]
          rw [run_pop rfl rfl]
          simp only [finishTop, Frame.start, hroutine, AddressSet.erase_insert hfresh]
          rw [ih _ (cost_keepPaths_lt c keep hpending _) _ rfl]
          rfl

end WalkState

/-- The walk finds what the recursion gives, and leaves the visit set as it was. -/
theorem walk_eq_expand (c : Catalogue n) (config : Config) (keep : Keep) (root : Fin n)
    (visiting : AddressSet) :
    walk c config keep root visiting = ⟨expand c config keep visiting 0 root, visiting⟩ := by
  rw [walk, expand_eq_enter]
  cases henter : enter c config visiting root 0 with
  | error e => rfl
  | ok entry =>
    cases entry with
    | cut path => rfl
    | frame f =>
      obtain ⟨hfresh, hroutine, -⟩ := WalkState.enter_frame henter
      simp only
      rw [WalkState.run_eq_collect]
      simp only
      cases collect keep (expand c config keep (visiting.insert (c.start root))
          f.node.cumulative) f.suffixes f.pending with
      | error e =>
        simp only [Except.map, WalkState.unwind, WalkState.stack, List.foldl_cons, List.foldl_nil,
          Frame.start, hroutine, AddressSet.erase_insert hfresh]
      | ok suffixes =>
        simp only [Except.map]
        rw [WalkState.run_last rfl rfl]
        simp only [WalkState.finishTop, Frame.start, hroutine, AddressSet.erase_insert hfresh]

theorem pathsFrom_eq_expand (c : Catalogue n) (config : Config) (root : Fin n) :
    pathsFrom c config root = expand c config .all ∅ 0 root := by
  rw [pathsFrom, pathsWithin, walk_eq_expand]

theorem worstPath_eq_expand (c : Catalogue n) (config : Config) (root : Fin n) :
    worstPath c config root = (expand c config .worst ∅ 0 root).map (·.first) := by
  rw [worstPath, walk_eq_expand]

/-! ### Where the walk fails -/

/-- One routine is among the callees of another one, which are known. -/
def Catalogue.Calls (c : Catalogue n) (i j : Fin n) : Prop :=
  ∃ callees, c.callees? i = some callees ∧ j ∈ callees

/-- A walk that starts at one routine comes to enter another one. -/
inductive Entered (c : Catalogue n) : AddressSet → Fin n → Fin n → Prop
  | here {visiting : AddressSet} {i : Fin n} : c.start i ∉ visiting → Entered c visiting i i
  | call {visiting : AddressSet} {i j k : Fin n} : c.start i ∉ visiting → c.Calls i j →
      Entered c (visiting.insert (c.start i)) j k → Entered c visiting i k

theorem collect_ok {keep : Keep} {explore : Fin n → Except GraphError (PathList n)}
    {kept suffixes : Option (PathList n)} {callees : List (Fin n)}
    (h : collect keep explore kept callees = .ok suffixes) :
    ∀ j ∈ callees, ∃ paths, explore j = .ok paths := by
  induction callees generalizing kept with
  | nil => simp
  | cons callee later ih =>
    rw [collect] at h
    cases hexplore : explore callee with
    | error e => rw [hexplore] at h; cases h
    | ok paths =>
      rw [hexplore] at h
      intro j hj
      rcases List.mem_cons.1 hj with rfl | hj
      · exact ⟨paths, hexplore⟩
      · exact ih h j hj

theorem collect_error {keep : Keep} {explore : Fin n → Except GraphError (PathList n)}
    {kept : Option (PathList n)} {callees : List (Fin n)} {e : GraphError}
    (h : collect keep explore kept callees = .error e) : ∃ j ∈ callees, explore j = .error e := by
  induction callees generalizing kept with
  | nil => cases h
  | cons callee later ih =>
    rw [collect] at h
    cases hexplore : explore callee with
    | error e' =>
      rw [hexplore] at h
      cases h
      exact ⟨callee, List.mem_cons_self, hexplore⟩
    | ok paths =>
      rw [hexplore] at h
      obtain ⟨j, hj, he⟩ := ih h
      exact ⟨j, List.mem_cons_of_mem _ hj, he⟩

theorem expand_ok {c : Catalogue n} {config : Config} {keep : Keep} {visiting : AddressSet}
    {running : Int} {i : Fin n} {callees : List (Fin n)} {paths : PathList n}
    (hfresh : c.start i ∉ visiting) (hcallees : c.callees? i = some callees)
    (h : expand c config keep visiting running i = .ok paths) :
    ∃ suffixes, collect keep (expand c config keep (visiting.insert (c.start i))
        (nodeOf c config running i).cumulative) none callees = .ok suffixes ∧
      paths = Frame.paths ⟨nodeOf c config running i, [], suffixes⟩ := by
  rw [expand_resolved hfresh hcallees] at h
  cases hcollect : collect keep (expand c config keep (visiting.insert (c.start i))
      (nodeOf c config running i).cumulative) none callees with
  | error e => rw [hcollect] at h; cases h
  | ok suffixes =>
    rw [hcollect] at h
    cases h
    exact ⟨suffixes, rfl, rfl⟩

/-- Where there are paths from a routine, there are paths from each of its callees. -/
theorem expand_callee_ok {c : Catalogue n} {config : Config} {keep : Keep}
    {visiting : AddressSet} {running : Int} {i : Fin n} {callees : List (Fin n)}
    {paths : PathList n} (hfresh : c.start i ∉ visiting) (hcallees : c.callees? i = some callees)
    (h : expand c config keep visiting running i = .ok paths) :
    ∀ j ∈ callees, ∃ found, expand c config keep (visiting.insert (c.start i))
      (nodeOf c config running i).cumulative j = .ok found := by
  obtain ⟨suffixes, hcollect, -⟩ := expand_ok hfresh hcallees h
  exact collect_ok hcollect

/-- Where there are paths, the callees of all routines entered on the way are known. -/
theorem Entered.isSome_callees {c : Catalogue n} {config : Config} {keep : Keep}
    {visiting : AddressSet} {running : Int} {i k : Fin n} {paths : PathList n}
    (hk : Entered c visiting i k) (h : expand c config keep visiting running i = .ok paths) :
    (c.callees? k).isSome := by
  induction hk generalizing running paths with
  | @here visiting i hfresh =>
    cases hcallees : c.callees? i with
    | none => rw [expand_unresolved hfresh hcallees] at h; cases h
    | some callees => rfl
  | @call visiting i j k hfresh hcalls _ ih =>
    obtain ⟨callees, hcallees, hj⟩ := hcalls
    obtain ⟨paths', hpaths'⟩ := expand_callee_ok hfresh hcallees h j hj
    exact ih hpaths'

/-- The recursion fails at a routine that it enters and whose callees are not known. -/
theorem exists_entered_of_expand_error {c : Catalogue n} {config : Config} {keep : Keep}
    {visiting : AddressSet} {running : Int} {i : Fin n} {e : GraphError}
    (h : expand c config keep visiting running i = .error e) :
    ∃ k, Entered c visiting i k ∧ c.callees? k = none ∧ e = .unresolved (c.routine k).name := by
  induction visiting, i using c.visit_induction generalizing running with
  | visited visiting i hvisited => rw [expand_visited hvisited] at h; cases h
  | unresolved visiting i hfresh hcallees =>
    rw [expand_unresolved hfresh hcallees] at h
    cases h
    exact ⟨i, .here hfresh, hcallees, rfl⟩
  | resolved visiting i callees hfresh hcallees ih =>
    rw [expand_resolved hfresh hcallees] at h
    cases hcollect : collect keep (expand c config keep (visiting.insert (c.start i))
        (nodeOf c config running i).cumulative) none callees with
    | ok suffixes => rw [hcollect] at h; cases h
    | error e' =>
      rw [hcollect] at h
      cases h
      obtain ⟨j, hj, hexplore⟩ := collect_error hcollect
      obtain ⟨k, hentered, hnone, he⟩ := ih j hexplore
      exact ⟨k, .call hfresh ⟨callees, hcallees, hj⟩ hentered, hnone, he⟩

/-- The callees of the routines of a table are known, and are routines of the table as well. -/
def Catalogue.Closed (c : Catalogue n) (table : List (Fin n)) : Prop :=
  ∀ i ∈ table, ∃ callees, c.callees? i = some callees ∧ ∀ j ∈ callees, j ∈ table

namespace Catalogue.Closed

variable {c : Catalogue n} {table : List (Fin n)}

theorem mem_of_calls (h : c.Closed table) {i j : Fin n} (hi : i ∈ table) (hcalls : c.Calls i j) :
    j ∈ table := by
  obtain ⟨callees, hcallees, hclosed⟩ := h i hi
  obtain ⟨callees', hcallees', hj⟩ := hcalls
  rw [hcallees] at hcallees'
  cases hcallees'
  exact hclosed j hj

theorem mem_of_entered (h : c.Closed table) {visiting : AddressSet} {i k : Fin n}
    (hi : i ∈ table) (hk : Entered c visiting i k) : k ∈ table := by
  induction hk with
  | here => exact hi
  | call _ hcalls _ ih => exact ih (h.mem_of_calls hi hcalls)

theorem exists_expand (h : c.Closed table) (config : Config) (keep : Keep)
    (visiting : AddressSet) (running : Int) {i : Fin n} (hi : i ∈ table) :
    ∃ paths, expand c config keep visiting running i = .ok paths := by
  cases hexpand : expand c config keep visiting running i with
  | ok paths => exact ⟨paths, rfl⟩
  | error e =>
    obtain ⟨k, hentered, hnone, -⟩ := exists_entered_of_expand_error hexpand
    obtain ⟨callees, hcallees, -⟩ := h k (h.mem_of_entered hi hentered)
    rw [hnone] at hcallees
    cases hcallees

end Catalogue.Closed
end StackDepth
