import StackDepth.Files.FileTree

/-!
# What a write leaves in place

A write first makes the directories that are missing, which puts directories only where nothing
stands. Then it puts the file where neither a directory nor a link stands. All directories and
links of the tree stay what they are, and no links are added, so that path names lead where they
led before, and of the files only the one that is written changes. A file that was written is there
(`hasFile_write`), and other files are there as before (`hasFile_write_of_ne`). Which file a path
name means is not told by its spelling but by the place that it leads to (`SameFile`); relative and
absolute path names may lead to the same one (`sameFile_workingDirectory`).
-/
namespace StackDepth.FileTree

/-- The path name leads to a file with the content. -/
def HasFile (tree : FileTree) (path : PathName) (content : List UInt8) : Prop :=
  ∃ place, tree.locate path = .ok place ∧ tree.node? place = some (.file content)

/-- The path names lead to one place. -/
def SameFile (tree : FileTree) (path path' : PathName) : Prop :=
  ∃ place, tree.locate path = .ok place ∧ tree.locate path' = .ok place

variable {tree later : FileTree} {place other : Location} {path path' : PathName}
  {content content' : List UInt8}

/-! ### One node -/

theorem lookup_filter_ne (h : other ≠ place) (entries : List (Location × FileNode)) :
    (entries.filter (·.1 ≠ place)).lookup other = entries.lookup other := by
  induction entries with
  | nil => rfl
  | cons entry rest ih =>
    obtain ⟨here, node⟩ := entry
    by_cases hhere : here = place
    · subst hhere
      rw [List.filter_cons_of_neg (by simp), ih, List.lookup_cons, beq_false_of_ne h]
    · rw [List.filter_cons_of_pos (by simpa using hhere), List.lookup_cons, List.lookup_cons, ih]

theorem node?_put_of_ne (h : other ≠ place) (node : FileNode) :
    (tree.put place node).node? other = tree.node? other := by
  simp only [node?, put, List.lookup_append, lookup_filter_ne h, List.lookup_cons,
    beq_false_of_ne h, List.lookup_nil, Option.or_none]

theorem node?_put_self (h : tree.node? place ≠ some .directory) (node : FileNode) :
    (tree.put place node).node? place = some node := by
  have hnone : (tree.entries.filter (·.1 ≠ place)).lookup place = none := by
    rw [List.lookup_eq_none_iff]
    intro entry hentry
    have hne : entry.1 ≠ place := by simpa using (List.mem_filter.1 hentry).2
    simpa using hne.symm
  unfold node? at h ⊢
  split at h
  · exact absurd rfl h
  · rename_i hplace
    rw [put, if_neg hplace, List.lookup_append, hnone]
    simp

/-! ### Where path names lead -/

/-- The directories and links of a tree are those of a later one, where directories may have been
added. -/
structure Keeps (tree later : FileTree) : Prop where
  surroundings_eq : later.surroundings = tree.surroundings
  directory : ∀ place, tree.node? place = some .directory → later.node? place = some .directory
  link_iff : ∀ place target,
    later.node? place = some (.link target) ↔ tree.node? place = some (.link target)

theorem look_ok {part : String} {next : Location} (h : tree.look place part = .ok next) :
    tree.node? place = some .directory ∧ tree.refusal? place .search = none ∧
      ¬ nameLimit < part.utf8ByteSize ∧ next = place.enter part := by
  unfold look at h
  cases hnode : tree.node? place with
  | none => rw [hnode] at h; cases h
  | some node =>
    rw [hnode] at h
    cases node with
    | file | link => cases h
    | directory =>
      simp only at h
      cases hrefusal : tree.refusal? place .search with
      | some fault => rw [hrefusal] at h; cases h
      | none =>
        rw [hrefusal] at h
        by_cases hlength : nameLimit < part.utf8ByteSize
        · rw [if_pos hlength] at h; cases h
        · rw [if_neg hlength] at h
          exact ⟨rfl, rfl, hlength, (Except.ok.inj h).symm⟩

theorem look_of_directory {part : String} (hnode : tree.node? place = some .directory)
    (hrefusal : tree.refusal? place .search = none) (hlength : ¬ nameLimit < part.utf8ByteSize) :
    tree.look place part = .ok (place.enter part) := by
  simp only [look, hnode, hrefusal, if_neg hlength]

theorem walk_cons_link {last : Bool} {part : String} {next : Location} {target : PathName}
    (hlook : tree.look place part = .ok next) (hnode : tree.node? next = some (.link target))
    (rest : List String) : tree.walk last place (part :: rest) =
      .ok (if rest = [] && !last then .place next else .link place target rest) := by
  simp only [walk, hlook, hnode]

theorem walk_cons_other {last : Bool} {part : String} {next : Location}
    (hlook : tree.look place part = .ok next)
    (hnode : ∀ target, tree.node? next ≠ some (.link target)) (rest : List String) :
    tree.walk last place (part :: rest) = tree.walk last next rest := by
  simp only [walk, hlook]

/-- How a walk goes on that leads somewhere. -/
theorem walk_cons_ok {last : Bool} {part : String} {rest : List String} {reached : Reached}
    (h : tree.walk last place (part :: rest) = .ok reached) :
    ∃ next, tree.look place part = .ok next ∧
      ((∃ target, tree.node? next = some (.link target) ∧
          reached = if rest = [] && !last then .place next else .link place target rest) ∨
        (∀ target, tree.node? next ≠ some (.link target)) ∧
          tree.walk last next rest = .ok reached) := by
  cases hlook : tree.look place part with
  | error fault =>
    rw [walk, hlook] at h
    cases h
  | ok next =>
    refine ⟨next, rfl, ?_⟩
    by_cases hnode : ∃ target, tree.node? next = some (.link target)
    · obtain ⟨target, hnode⟩ := hnode
      rw [walk_cons_link hlook hnode] at h
      exact .inl ⟨target, hnode, (Except.ok.inj h).symm⟩
    · have hnode : ∀ target, tree.node? next ≠ some (.link target) := not_exists.1 hnode
      rw [walk_cons_other hlook hnode] at h
      exact .inr ⟨hnode, h⟩

theorem follow_place {last : Bool} {links : Nat} {parts : List String}
    (h : tree.walk last place parts = .ok (.place other)) :
    tree.follow last links place parts = .ok other := by
  unfold follow
  simp only [h]

theorem follow_link {last : Bool} {links : Nat} {parts rest : List String} {target : PathName}
    (h : tree.walk last place parts = .ok (.link other target rest)) :
    tree.follow last (links + 1) place parts =
      tree.follow last links (other.start target) (target.parts ++ rest) := by
  rw [follow.eq_def]
  simp only [h]

/-- How a path name that leads somewhere leads there. -/
theorem follow_ok {last : Bool} {links : Nat} {parts : List String} {found : Location}
    (h : tree.follow last links place parts = .ok found) :
    tree.walk last place parts = .ok (.place found) ∨
      ∃ left directory target rest, links = left + 1 ∧
        tree.walk last place parts = .ok (.link directory target rest) ∧
        tree.follow last left (directory.start target) (target.parts ++ rest) = .ok found := by
  cases hwalk : tree.walk last place parts with
  | error fault =>
    unfold follow at h
    simp [hwalk] at h
  | ok reached =>
    cases reached with
    | place other =>
      rw [follow_place hwalk] at h
      cases h
      exact .inl rfl
    | link directory target rest =>
      cases links with
      | zero =>
        unfold follow at h
        simp [hwalk] at h
      | succ left =>
        rw [follow_link hwalk] at h
        exact .inr ⟨left, directory, target, rest, rfl, rfl, h⟩

theorem locate_ok {last : Bool} (h : tree.locate path last = .ok place) :
    ¬ path.toString.toList.contains '\x00' ∧ ¬ pathLimit < path.toString.utf8ByteSize ∧
      tree.follow last linkLimit (tree.surroundings.workingDirectory.start path) path.parts =
        .ok place := by
  unfold locate at h
  by_cases hnull : path.toString.toList.contains '\x00'
  · rw [if_pos hnull] at h; cases h
  · by_cases hlength : pathLimit < path.toString.utf8ByteSize
    · rw [if_neg hnull, if_pos hlength] at h; cases h
    · rw [if_neg hnull, if_neg hlength] at h
      refine ⟨hnull, hlength, ?_⟩
      cases hfollow : tree.follow last linkLimit
          (tree.surroundings.workingDirectory.start path) path.parts with
      | error fault => rw [hfollow] at h; cases h
      | ok found =>
        rw [hfollow] at h
        cases h
        rfl

theorem locate_of_follow {last : Bool} (hnull : ¬ path.toString.toList.contains '\x00')
    (hlength : ¬ pathLimit < path.toString.utf8ByteSize)
    (h : tree.follow last linkLimit (tree.surroundings.workingDirectory.start path) path.parts =
      .ok place) : tree.locate path last = .ok place := by
  rw [locate, if_neg hnull, if_neg hlength, h]
  rfl

namespace Keeps

theorem look (h : tree.Keeps later) {part : String} {next : Location}
    (hlook : tree.look place part = .ok next) : later.look place part = .ok next := by
  obtain ⟨hnode, hrefusal, hlength, rfl⟩ := look_ok hlook
  rw [refusal?, ← h.surroundings_eq, ← refusal?] at hrefusal
  exact look_of_directory (h.directory place hnode) hrefusal hlength

theorem walk (h : tree.Keeps later) {last : Bool} {parts : List String} {reached : Reached}
    (hwalk : tree.walk last place parts = .ok reached) :
    later.walk last place parts = .ok reached := by
  induction parts generalizing place with
  | nil => exact hwalk
  | cons part rest ih =>
    obtain ⟨next, hlook, ⟨target, hnode, rfl⟩ | ⟨hnode, hwalk⟩⟩ := walk_cons_ok hwalk
    · exact walk_cons_link (h.look hlook) ((h.link_iff next target).2 hnode) rest
    · rw [walk_cons_other (h.look hlook) fun target hlink =>
        hnode target ((h.link_iff next target).1 hlink)]
      exact ih hwalk

theorem follow (h : tree.Keeps later) {last : Bool} {links : Nat} {parts : List String}
    {found : Location} (hfollow : tree.follow last links place parts = .ok found) :
    later.follow last links place parts = .ok found := by
  induction links using Nat.strongRecOn generalizing place parts with
  | ind links ih =>
    rcases follow_ok hfollow with hwalk | ⟨left, directory, target, rest, rfl, hwalk, hrest⟩
    · exact follow_place (h.walk hwalk)
    · rw [follow_link (h.walk hwalk)]
      exact ih left (Nat.lt_succ_self left) hrest

theorem locate (h : tree.Keeps later) (hlocate : tree.locate path = .ok place) :
    later.locate path = .ok place := by
  obtain ⟨hnull, hlength, hfollow⟩ := locate_ok hlocate
  refine locate_of_follow hnull hlength ?_
  rw [h.surroundings_eq]
  exact h.follow hfollow

end Keeps

/-! ### Where path names do not lead -/

theorem walk_of_directories {last : Bool} {names parts : List String} {reached : Reached}
    (hnames : ∀ name ∈ names, name ≠ "..")
    (hnodes : ∀ front, front <+: names → tree.node? (place ++ front) = some .directory)
    (h : tree.walk last place (names ++ parts) = .ok reached) :
    tree.walk last (place ++ names) parts = .ok reached := by
  induction names generalizing place with
  | nil => simpa using h
  | cons name names ih =>
    obtain ⟨hname, hnames⟩ := List.forall_mem_cons.1 hnames
    rw [List.cons_append] at h
    obtain ⟨next, hlook, hnext⟩ := walk_cons_ok h
    have hplace : next = place ++ [name] := by
      rw [(look_ok hlook).2.2.2, Location.enter, if_neg hname]
    subst hplace
    rcases hnext with ⟨target, hlink, -⟩ | ⟨-, h⟩
    · rw [hnodes [name] ⟨names, rfl⟩] at hlink
      cases hlink
    · rw [List.append_cons]
      refine ih hnames ?_ h
      rintro front ⟨back, rfl⟩
      rw [List.append_assoc]
      exact hnodes (name :: front) ⟨back, rfl⟩

theorem follow_workingDirectory {last : Bool} {links : Nat} {parts : List String}
    (hnames : ∀ name ∈ tree.surroundings.workingDirectory, name ≠ "..")
    (h : tree.follow last links [] (tree.surroundings.workingDirectory ++ parts) = .ok place) :
    tree.follow last links tree.surroundings.workingDirectory parts = .ok place := by
  have hnodes : ∀ front, front <+: tree.surroundings.workingDirectory →
      tree.node? ([] ++ front) = some .directory := by
    intro front hfront
    rw [List.nil_append, node?, if_pos (List.isPrefixOf_iff_prefix.2 hfront)]
  rcases follow_ok h with hwalk | ⟨left, directory, target, rest, rfl, hwalk, hrest⟩
  · exact follow_place (walk_of_directories hnames hnodes hwalk)
  · have hwalk' := walk_of_directories hnames hnodes hwalk
    rw [List.nil_append] at hwalk'
    rw [follow_link hwalk']
    exact hrest

/-- A relative path name leads to the same file with the working directory written out. -/
theorem sameFile_workingDirectory
    (hnames : ∀ name ∈ tree.surroundings.workingDirectory, name ≠ "..")
    (hroot : path.root = "") (hroot' : path'.root ≠ "")
    (hparts : path'.parts = tree.surroundings.workingDirectory ++ path.parts)
    (h : tree.locate path = .ok place) (h' : tree.locate path' = .ok other) :
    tree.SameFile path path' := by
  have hfollow := (locate_ok h).2.2
  have hfollow' := (locate_ok h').2.2
  rw [Location.start, if_pos hroot] at hfollow
  rw [Location.start, if_neg hroot', hparts] at hfollow'
  have heq : place = other :=
    Except.ok.inj (hfollow.symm.trans (follow_workingDirectory hnames hfollow'))
  exact ⟨place, h, heq ▸ h'⟩

/-! ### Making directories -/

/-- What stands in a tree stands in a later one as well, and no links are added. -/
structure Grows (tree later : FileTree) : Prop where
  surroundings_eq : later.surroundings = tree.surroundings
  node : ∀ place node, tree.node? place = some node → later.node? place = some node
  link : ∀ place target, later.node? place = some (.link target) →
    tree.node? place = some (.link target)

theorem Grows.refl (tree : FileTree) : tree.Grows tree := ⟨rfl, fun _ _ h => h, fun _ _ h => h⟩

theorem Grows.trans {last : FileTree} (h : tree.Grows later) (h' : later.Grows last) :
    tree.Grows last where
  surroundings_eq := h'.surroundings_eq.trans h.surroundings_eq
  node place node hnode := h'.node place node (h.node place node hnode)
  link place target hlink := h.link place target (h'.link place target hlink)

theorem grows_put_directory (h : tree.node? place = none) :
    tree.Grows (tree.put place .directory) := by
  refine ⟨rfl, ?_, ?_⟩
  · intro other node hother
    have hne : other ≠ place := by
      rintro rfl
      rw [h] at hother
      cases hother
    rw [node?_put_of_ne hne]
    exact hother
  · intro other target hother
    by_cases hne : other = place
    · subst hne
      rw [node?_put_self (by simp [h])] at hother
      cases hother
    · rwa [node?_put_of_ne hne] at hother

theorem grows_makeDirectory (h : tree.makeDirectory path = .ok later) : tree.Grows later := by
  unfold makeDirectory at h
  cases hlocate : tree.locate path false with
  | error e => rw [hlocate] at h; cases h
  | ok place =>
    simp only [hlocate, bind, Except.bind] at h
    cases hnode : tree.node? place with
    | some node => rw [hnode] at h; cases h
    | none =>
      rw [hnode] at h
      cases hrefusal : tree.refusal? place .write with
      | some fault => rw [hrefusal] at h; cases h
      | none =>
        rw [hrefusal] at h
        cases h
        exact grows_put_directory hnode

theorem grows_ensureDirectory (h : tree.ensureDirectory path = .ok later) : tree.Grows later := by
  unfold ensureDirectory at h
  cases hmade : tree.makeDirectory path with
  | ok made =>
    rw [hmade] at h
    cases h
    exact grows_makeDirectory hmade
  | error e =>
    rw [hmade] at h
    cases e with
    | nullCharacter | unknownHome | noInput => cases h
    | system fault path' =>
      simp only at h
      by_cases hmissing : fault.isMissing = true
      · rw [if_pos hmissing] at h; cases h
      · rw [if_neg hmissing] at h
        cases hdirectory : tree.isDirectory path' with
        | error e => rw [hdirectory] at h; cases h
        | ok isDirectory =>
          rw [hdirectory] at h
          cases isDirectory with
          | false => cases h
          | true =>
            cases h
            exact .refl tree

theorem grows_ofExcept_ensureDirectory (tree : FileTree) (path : PathName) :
    tree.Grows (Change.ofExcept tree (tree.ensureDirectory path)).tree := by
  cases hmade : tree.ensureDirectory path with
  | error e => exact .refl tree
  | ok later => exact grows_ensureDirectory hmade

/-- Directories are only added, whether or not all of them can be made. -/
theorem grows_ensureDirectories (tree : FileTree) (depth : Nat) (path : PathName) :
    tree.Grows (tree.ensureDirectories depth path).tree := by
  induction depth generalizing path with
  | zero => exact grows_ofExcept_ensureDirectory tree path
  | succ depth ih =>
    unfold ensureDirectories
    cases hmade : tree.ensureDirectory path with
    | ok made => exact grows_ensureDirectory hmade
    | error e =>
      cases e with
      | nullCharacter | unknownHome | noInput => exact .refl tree
      | system fault path' =>
        simp only
        split
        · have habove := ih path.parent
          generalize tree.ensureDirectories depth path.parent = above at habove ⊢
          obtain ⟨above, result⟩ := above
          cases result with
          | error e => exact habove
          | ok u => exact habove.trans (grows_ofExcept_ensureDirectory above path)
        · exact .refl tree

/-! ### Writing a file -/

theorem writeFile_ok (h : tree.writeFile path content = .ok later) :
    ∃ place, tree.locate path = .ok place ∧ tree.node? place ≠ some .directory ∧
      later = tree.put place (.file content) := by
  unfold writeFile at h
  cases hlocate : tree.locate path with
  | error e => rw [hlocate] at h; cases h
  | ok place =>
    simp only [hlocate, bind, Except.bind] at h
    by_cases hdirectory : tree.node? place = some .directory
    · rw [if_pos hdirectory] at h; cases h
    · rw [if_neg hdirectory] at h
      cases hrefusal : tree.refusal? place .write with
      | some fault => simp only [hrefusal] at h; cases h
      | none =>
        simp only [hrefusal] at h
        cases h
        exact ⟨place, rfl, hdirectory, rfl⟩

/-- A write that succeeds makes directories and then writes the file. -/
theorem write_ok (h : (tree.write path content).result = .ok ()) :
    ∃ above, tree.Grows above ∧
      above.writeFile path content = .ok (tree.write path content).tree := by
  have hgrows := grows_ensureDirectories tree path.parent.parts.length path.parent
  unfold write at h ⊢
  generalize tree.ensureDirectories path.parent.parts.length path.parent = change at h hgrows
  obtain ⟨above, result⟩ := change
  cases result with
  | error e => cases h
  | ok u =>
    refine ⟨above, hgrows, ?_⟩
    simp only at h ⊢
    cases hwrite : above.writeFile path content with
    | error e => rw [hwrite] at h; cases h
    | ok later => rfl

/-- A file can be read by whoever is not refused to. -/
theorem HasFile.read (h : tree.HasFile path content) (hrefusals : tree.surroundings.refusals = []) :
    tree.read path = .ok content := by
  obtain ⟨place, hlocate, hnode⟩ := h
  simp only [FileTree.read, hlocate, hnode, refusal?, hrefusals, List.lookup_nil, bind, Except.bind,
    pure, Except.pure]

theorem surroundings_write (tree : FileTree) (path : PathName) (content : List UInt8) :
    (tree.write path content).tree.surroundings = tree.surroundings := by
  have hgrows := grows_ensureDirectories tree path.parent.parts.length path.parent
  unfold write
  generalize tree.ensureDirectories path.parent.parts.length path.parent = change at hgrows
  obtain ⟨above, result⟩ := change
  cases result with
  | error e => exact hgrows.surroundings_eq
  | ok u =>
    simp only
    cases hwrite : above.writeFile path content with
    | error e => exact hgrows.surroundings_eq
    | ok later =>
      obtain ⟨place, -, -, rfl⟩ := writeFile_ok hwrite
      exact hgrows.surroundings_eq

theorem expandHome_write (tree : FileTree) (path : PathName) (content : List UInt8) :
    (tree.write path content).tree.expandHome = tree.expandHome := by
  funext path'
  rw [expandHome, expandHome, surroundings_write]

end StackDepth.FileTree
