import StackDepth.StackPath.Basic

/-!
# The walk along call chains

The paths from a routine are found by a walk with a stack of its own, so that call chains of any
length can be followed. A frame of the stack stands for a routine on the path being followed, with
the callees that are still to be entered and what was found behind the others. The start addresses
of these routines are the visit set. A callee whose address is in the visit set is cut off; an
address leaves the set when its frame is done.

The walk ends, because a frame can only be put on top while the visit set grows: `WalkState.cost`
decreases with every step.
-/
namespace StackDepth

/-- Which of the paths behind a frame are kept. -/
inductive Keep where
  | all
  /-- The first path of the largest total. -/
  | worst
deriving DecidableEq, Repr

/-- Adds paths to those kept so far. -/
def Keep.add {n : Nat} (keep : Keep) (kept : Option (PathList n)) (paths : PathList n) :
    PathList n :=
  match keep, kept with
  | .all, none => paths
  | .all, some kept => kept.append paths
  | .worst, none => ⟨paths.largest, []⟩
  | .worst, some kept => ⟨paths.toList.foldl StackPath.larger kept.first, []⟩

/-- A routine on the path being followed. -/
structure Frame (n : Nat) where
  node : PathNode n
  /-- The callees that are still to be entered. -/
  pending : List (Fin n)
  /-- What is kept of the paths that start at the callees entered so far. -/
  suffixes : Option (PathList n) := none
deriving DecidableEq, Repr

namespace Frame

variable {n : Nat}

def start (c : Catalogue n) (f : Frame n) : Int := c.start f.node.routine

def keepPaths (keep : Keep) (f : Frame n) (paths : PathList n) : Frame n :=
  { f with suffixes := some (keep.add f.suffixes paths) }

/-- The paths that start with the routine of a frame without pending callees. -/
def paths (f : Frame n) : PathList n :=
  match f.suffixes with
  | none => ⟨⟨f.node, [], f.node.contribution⟩, []⟩
  | some suffixes => suffixes.extend f.node

end Frame

/-- What comes of entering a routine: a cut path, or a new frame. -/
inductive Entry (n : Nat) where
  | cut (path : StackPath n)
  | frame (frame : Frame n)
deriving DecidableEq, Repr

/-- Enters a routine on a path that has taken `running` bytes so far. -/
def enter {n : Nat} (c : Catalogue n) (config : Config) (visiting : AddressSet) (i : Fin n)
    (running : Int) : Except GraphError (Entry n) :=
  let own := (c.routine i).contribution config
  let node : PathNode n := { routine := i, contribution := own, cumulative := running + own }
  if c.start i ∈ visiting then .ok (.cut ⟨{ node with recursion := true }, [], own⟩)
  else
    match c.callees? i with
    | none => .error (.unresolved (c.routine i).name)
    | some callees => .ok (.frame { node, pending := callees })

/-- A walk under way. -/
structure WalkState (n : Nat) where
  visiting : AddressSet
  /-- The frame of the routine that was entered last. -/
  top : Frame n
  /-- The frames below it, the uppermost first. -/
  below : List (Frame n)
deriving DecidableEq, Repr

/-- What a walk comes to: paths or an error, and the visit set as it leaves it. -/
structure WalkResult (n : Nat) where
  outcome : Except GraphError (PathList n)
  visiting : AddressSet

namespace WalkState

variable {n : Nat}

def stack (s : WalkState n) : List (Frame n) := s.top :: s.below

/-- The visit set without the addresses of the frames on the stack. -/
def unwind (c : Catalogue n) (s : WalkState n) : AddressSet :=
  s.stack.foldl (fun visiting f => visiting.erase (f.start c)) s.visiting

/-- One step: enters the next pending callee of the top frame, or takes off the frame. -/
def step (c : Catalogue n) (config : Config) (keep : Keep) (s : WalkState n) :
    WalkState n ⊕ WalkResult n :=
  match s.top.pending with
  | callee :: later =>
    let top := { s.top with pending := later }
    match enter c config s.visiting callee s.top.node.cumulative with
    | .error e => .inr ⟨.error e, s.unwind c⟩
    | .ok (.cut path) => .inl { s with top := top.keepPaths keep ⟨path, []⟩ }
    | .ok (.frame f) =>
      .inl { visiting := s.visiting.insert (c.start callee), top := f, below := top :: s.below }
  | [] =>
    let visiting := s.visiting.erase (s.top.start c)
    match s.below with
    | [] => .inr ⟨.ok s.top.paths, visiting⟩
    | parent :: below =>
      .inl { visiting, top := parent.keepPaths keep s.top.paths, below }

/-- What a step does that is not the last one: it cuts off a callee, enters one, or hands the paths
of a frame that is done to the frame below it. -/
theorem step_cases {c : Catalogue n} {config : Config} {keep : Keep} {s t : WalkState n}
    (h : s.step c config keep = .inl t) :
    (∃ callee later path, s.top.pending = callee :: later ∧
      enter c config s.visiting callee s.top.node.cumulative = .ok (.cut path) ∧
      t = { s with top := { s.top with pending := later }.keepPaths keep ⟨path, []⟩ }) ∨
    (∃ callee later f, s.top.pending = callee :: later ∧
      enter c config s.visiting callee s.top.node.cumulative = .ok (.frame f) ∧
      t = { visiting := s.visiting.insert (c.start callee), top := f,
            below := { s.top with pending := later } :: s.below }) ∨
    ∃ parent below, s.top.pending = [] ∧ s.below = parent :: below ∧
      t = { visiting := s.visiting.erase (s.top.start c),
            top := parent.keepPaths keep s.top.paths, below } := by
  unfold step at h
  cases hpending : s.top.pending with
  | cons callee later =>
    simp only [hpending] at h
    cases henter : enter c config s.visiting callee s.top.node.cumulative with
    | error e =>
      simp only [henter] at h
      cases h
    | ok entry =>
      cases entry with
      | cut path =>
        simp only [henter, Sum.inl.injEq] at h
        exact .inl ⟨callee, later, path, rfl, henter, h.symm⟩
      | frame f =>
        simp only [henter, Sum.inl.injEq] at h
        exact .inr (.inl ⟨callee, later, f, rfl, henter, h.symm⟩)
  | nil =>
    simp only [hpending] at h
    cases hbelow : s.below with
    | nil =>
      simp only [hbelow] at h
      cases h
    | cons parent below =>
      simp only [hbelow, Sum.inl.injEq] at h
      exact .inr (.inr ⟨parent, below, rfl, rfl, h.symm⟩)

/-! ### The walk ends -/

/-- The number of routines whose address is not in the visit set. -/
def unvisited (c : Catalogue n) (visiting : AddressSet) : Nat :=
  (List.finRange n).countP fun i => c.start i ∉ visiting

/-- The number of callees of all routines, a bound on the number of callees of each. -/
def degree (c : Catalogue n) : Nat :=
  ((List.finRange n).flatMap fun i => (c.callees? i).getD []).length

/-- A bound on the number of steps from entering a routine to leaving it, by the number of
routines that are not visited. -/
def entryCost (degree : Nat) : Nat → Nat
  | 0 => 1
  | u + 1 => 2 + degree * entryCost degree u

/-- A bound on the number of steps that the frames of a stack still need. -/
def stackCost (c : Catalogue n) : AddressSet → List (Frame n) → Nat
  | _, [] => 0
  | visiting, f :: below =>
    f.pending.length * entryCost (degree c) (unvisited c visiting) + 1 +
      stackCost c (visiting.erase (f.start c)) below

theorem entryCost_pos (d u : Nat) : 0 < entryCost d u := by
  cases u with
  | zero => exact Nat.one_pos
  | succ u => rw [entryCost]; omega

def cost (c : Catalogue n) (s : WalkState n) : Nat := stackCost c s.visiting s.stack

theorem entryCost_le_succ (d u : Nat) : entryCost d u ≤ entryCost d (u + 1) := by
  induction u with
  | zero => simp [entryCost]; omega
  | succ u ih =>
    have := Nat.mul_le_mul_left d ih
    simp only [entryCost] at *
    omega

theorem entryCost_mono {d u v : Nat} (h : u ≤ v) : entryCost d u ≤ entryCost d v := by
  induction h with
  | refl => exact Nat.le_refl _
  | step _ ih => exact Nat.le_trans ih (entryCost_le_succ d _)

theorem length_callees_le_degree {c : Catalogue n} {i : Fin n} {callees : List (Fin n)}
    (h : c.callees? i = some callees) : callees.length ≤ degree c := by
  obtain ⟨front, back, hsplit⟩ := List.append_of_mem (List.mem_finRange i)
  simp only [degree, hsplit, List.flatMap_append, List.flatMap_cons, List.length_append, h,
    Option.getD_some]
  omega

theorem countP_lt_countP {α : Type} {p q : α → Bool} {l : List α} {a : α}
    (himp : ∀ x, p x = true → q x = true) (ha : a ∈ l) (hq : q a = true) (hp : p a = false) :
    l.countP p < l.countP q := by
  obtain ⟨l₁, l₂, rfl⟩ := List.append_of_mem ha
  have h₁ := List.countP_mono_left (l := l₁) fun x _ => himp x
  have h₂ := List.countP_mono_left (l := l₂) fun x _ => himp x
  simp only [List.countP_append, List.countP_cons, hp, hq, if_true]
  simp
  omega

/-- Entering a routine leaves fewer routines unvisited. -/
theorem unvisited_insert_lt (c : Catalogue n) {visiting : AddressSet} {i : Fin n}
    (h : c.start i ∉ visiting) :
    unvisited c (visiting.insert (c.start i)) < unvisited c visiting := by
  refine countP_lt_countP (a := i) ?_ (List.mem_finRange i) (by simpa using h) (by simp)
  intro j hj
  simp only [AddressSet.mem_insert, decide_eq_true_eq, not_or] at hj
  simpa using hj.2

theorem enter_frame {c : Catalogue n} {config : Config} {visiting : AddressSet} {i : Fin n}
    {running : Int} {f : Frame n} (h : enter c config visiting i running = .ok (.frame f)) :
    c.start i ∉ visiting ∧ f.node.routine = i ∧ c.callees? i = some f.pending := by
  unfold enter at h
  split at h
  · simp at h
  · rename_i hstart
    split at h
    · simp at h
    · rename_i callees hcallees
      simp only [Except.ok.injEq, Entry.frame.injEq] at h
      subst h
      exact ⟨hstart, rfl, hcallees⟩

/-- A routine that is entered costs less than it was set down for. -/
theorem cost_enter_lt {c : Catalogue n} {config : Config} {visiting : AddressSet} {i : Fin n}
    {running : Int} {f : Frame n} (h : enter c config visiting i running = .ok (.frame f)) :
    f.pending.length * entryCost (degree c) (unvisited c (visiting.insert (c.start i))) + 1 <
      entryCost (degree c) (unvisited c visiting) := by
  obtain ⟨hstart, -, hcallees⟩ := enter_frame h
  have hunvisited := unvisited_insert_lt c hstart
  obtain ⟨u, hu⟩ : ∃ u, unvisited c visiting = u + 1 := ⟨_, (Nat.succ_pred (by omega)).symm⟩
  have hmono : entryCost (degree c) (unvisited c (visiting.insert (c.start i))) ≤
      entryCost (degree c) u := entryCost_mono (by omega)
  have hmul := Nat.mul_le_mul (length_callees_le_degree hcallees) hmono
  rw [hu, entryCost]
  omega

theorem cost_step_lt {c : Catalogue n} {config : Config} {keep : Keep} {s t : WalkState n}
    (h : s.step c config keep = .inl t) : t.cost c < s.cost c := by
  rcases step_cases h with ⟨callee, later, path, hpending, -, rfl⟩ |
    ⟨callee, later, f, hpending, henter, rfl⟩ | ⟨parent, below, -, hbelow, rfl⟩
  · -- a cut callee is done with
    simp only [cost, stack, stackCost, Frame.keepPaths, Frame.start, hpending, List.length_cons,
      Nat.add_mul, Nat.one_mul]
    have := entryCost_pos (degree c) (unvisited c s.visiting)
    omega
  · obtain ⟨hstart, hroutine, -⟩ := enter_frame henter
    have hless := cost_enter_lt henter
    simp only [cost, stack, stackCost, Frame.start, hroutine, AddressSet.erase_insert hstart,
      hpending, List.length_cons, Nat.add_mul, Nat.one_mul]
    omega
  · -- a frame that is done is taken off
    simp only [cost, stack, hbelow, stackCost, Frame.keepPaths, Frame.start]
    omega

/-- Steps until the walk comes to its result. -/
def run (c : Catalogue n) (config : Config) (keep : Keep) (s : WalkState n) : WalkResult n :=
  match _h : s.step c config keep with
  | .inr result => result
  | .inl next => run c config keep next
termination_by s.cost c
decreasing_by exact cost_step_lt _h

end WalkState

/-- The walk from a routine, given the addresses that are on the path already. -/
def walk {n : Nat} (c : Catalogue n) (config : Config) (keep : Keep) (root : Fin n)
    (visiting : AddressSet) : WalkResult n :=
  match enter c config visiting root 0 with
  | .error e => ⟨.error e, visiting⟩
  | .ok (.cut path) => ⟨.ok ⟨path, []⟩, visiting⟩
  | .ok (.frame f) =>
    WalkState.run c config keep
      { visiting := visiting.insert (c.start root), top := f, below := [] }

end StackDepth
