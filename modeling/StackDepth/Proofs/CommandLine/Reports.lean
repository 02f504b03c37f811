import Mathlib
import StackDepth.CommandLine.Run
import StackDepth.Proofs.Files.Writing
import StackDepth.Proofs.StackPath.CallChains
import StackDepth.Proofs.StackPath.Survey

/-!
# The reports of a run

A run owes one or two reports: on the worst path of each root, and on all paths if they are asked
for. What they say and where they go is told here by separate queries for the worst paths and for
all paths, and from the options and the files alone (`Run.maxStackReport?`, `Run.detailedReport?`).
The run itself makes one survey for both. It comes to the same: the files of a run are those that
are left when the reports owed are delivered in turn, up to the first that cannot be made or
written, and the run goes on to the stack dump exactly if all of them are delivered
(`Run.reports_deliver`).
-/
namespace StackDepth

/-- A report and the file that it goes to. -/
structure ReportFile where
  path : PathName
  lines : List String

def ReportFile.content (r : ReportFile) : List UInt8 := textFile r.lines

/-- What is left when reports are delivered: the files, and whether all were delivered. -/
structure Delivery where
  files : FileTree
  complete : Bool

/-- Writes reports one after another, up to the first that could not be made or written. -/
def deliver : FileTree → List (Option ReportFile) → Delivery
  | files, [] => ⟨files, true⟩
  | files, none :: _ => ⟨files, false⟩
  | files, some r :: rest =>
    match (files.write r.path r.content).result with
    | .error _ => ⟨(files.write r.path r.content).tree, false⟩
    | .ok _ => deliver (files.write r.path r.content).tree rest

namespace Run

/-- The program that a run analyses, with the path name of its listing. -/
def analysed? (o : Options) (files : FileTree) : Option (PathName × Program) :=
  if o.config.problems = [] then do
    let source ← (o.listing files).toOption
    let bytes ← (files.read source).toOption
    let p ← (Program.ofListing o.config (readListing bytes)).toOption
    let _ ← (summaryRecords o p).toOption
    return (source, p)
  else none

/-- The report on the worst paths of a program. -/
def maxStackReport? (o : Options) (files : FileTree) (source : PathName) (p : Program) :
    Option ReportFile := do
  let worst ← (worstPaths p.catalogue o.config p.graph.roots).toOption
  let out ← (reportPath o source files).toOption
  let lines ← (StackPath.report p.catalogue o.config worst).toOption
  (files.expandHome out).toOption.map (⟨·, lines⟩)

/-- The report on all paths of a program, for a file of the given name. -/
def detailedReport? (o : Options) (files : FileTree) (p : Program) (path : String) :
    Option ReportFile := do
  let all ← (allPaths p.catalogue o.config p.graph.roots).toOption
  let lines ← (StackPath.report p.catalogue o.config all).toOption
  (files.expandHome (.ofString path)).toOption.map (⟨·, lines⟩)

/-- The reports that are asked for on a program. -/
def reportsOn (o : Options) (files : FileTree) (source : PathName) (p : Program) :
    List (Option ReportFile) :=
  maxStackReport? o files source p ::
    (Options.given o.detailed).toList.map (detailedReport? o files p)

/-- The reports that a run owes. -/
def reportsDue (o : Options) (files : FileTree) : List (Option ReportFile) :=
  match analysed? o files with
  | none => [none]
  | some (source, p) => reportsOn o files source p

end Run

@[simp] theorem toOption_ok {ε α : Type} (a : α) : (Except.ok a : Except ε α).toOption = some a :=
  rfl

/-! ### Runs that stop early -/

namespace Reported

/-- The analysing part of a run ends as a delivery does, and not as if a stack dump were bad. -/
structure EndsAs (r : Reported) (delivery : Delivery) : Prop where
  files_eq : r.files = delivery.files
  isOk_iff : r.outcome.isOk = delivery.complete
  ne_badDump : r.outcome ≠ .error .badDump

variable {r : Reported} {delivery : Delivery}

theorem EndsAs.after (h : r.EndsAs delivery) (records : List Record) :
    (r.after records).EndsAs delivery :=
  ⟨h.files_eq, h.isOk_iff, h.ne_badDump⟩

theorem endsAs_stop (files : FileTree) {exit : Exit} (records : List Record)
    (h : exit ≠ .badDump) : (stop files exit records).EndsAs ⟨files, false⟩ :=
  ⟨rfl, rfl, fun heq => h (Except.error.inj heq)⟩

theorem endsAs_escaped (files : FileTree) (failure : Escape) (records : List Record) :
    (stop files (.escaped failure) records).EndsAs ⟨files, false⟩ :=
  endsAs_stop files records (by simp [Exit.badDump])

theorem endsAs_failure (files : FileTree) (records : List Record) :
    (stop files .failure records).EndsAs ⟨files, false⟩ :=
  endsAs_stop files records (by simp [Exit.failure, Exit.badDump])

theorem endsAs_fileError (files : FileTree) (context : String) (e : FileError) :
    (fileError files .failure context e).EndsAs ⟨files, false⟩ := by
  cases e with
  | system fault path => exact endsAs_failure files _
  | nullCharacter | unknownHome | noInput => exact endsAs_escaped files _ _

end Reported

namespace Run

variable {o : Options} {files : FileTree} {source : PathName} {p : Program}

/-- A run either stops without a program to report on and leaves the files as they are, or ends as
its reporting part does. -/
theorem reports_endsAs (o : Options) (files : FileTree) :
    match analysed? o files with
    | none => (reports o files).EndsAs ⟨files, false⟩
    | some (source, p) => ∀ delivery, (reportPaths o o.config source p files).EndsAs delivery →
        (reports o files).EndsAs delivery := by
  unfold reports analysed?
  cases o.config.problems with
  | cons problem problems => exact Reported.endsAs_failure files _
  | nil =>
  cases o.listing files with
  | error e =>
    cases e with
    | file e => exact Reported.endsAs_escaped files _ _
    | _ => exact Reported.endsAs_failure files _
  | ok source =>
  simp only [if_true, toOption_ok, Option.bind_eq_bind, Option.bind_some]
  cases files.read source with
  | error e => exact (Reported.endsAs_fileError files _ e).after _
  | ok bytes =>
  simp only [toOption_ok, Option.bind_some, reportLines]
  cases Program.ofListing o.config (readListing bytes) with
  | error e => exact (Reported.endsAs_escaped files _ _).after _
  | ok p =>
  simp only [toOption_ok, Option.bind_some]
  cases summaryRecords o p with
  | error e => exact ((Reported.endsAs_escaped files _ _).after _).after _
  | ok summary => exact fun delivery h => ((h.after _).after _).after _

/-! ### Making and writing the reports -/

/-- Whether or not all paths are asked for, the worst paths are the same. -/
theorem map_worst_findPaths (o : Options) (config : Config) (p : Program) :
    (findPaths o config p).map (·.worst) = worstPaths p.catalogue config p.graph.roots := by
  unfold findPaths
  cases hlists : p.graph.roots.mapM (pathsFrom p.catalogue config) with
  | error e =>
    rw [survey, worstPaths, mapM_worstPath, hlists]
    cases Options.given o.detailed with
    | none => rfl
    | some path => rfl
  | ok lists =>
    rw [survey_of_mapM hlists, worstPaths_of_mapM hlists]
    cases Options.given o.detailed with
    | none => rfl
    | some path => rfl

theorem map_report_findPaths (o : Options) (config : Config) (p : Program) :
    (findPaths o config p).map (fun paths => StackPath.report p.catalogue config paths.worst) =
      (worstPaths p.catalogue config p.graph.roots).map (StackPath.report p.catalogue config) := by
  rw [← map_worst_findPaths o]
  cases findPaths o config p with
  | error e => rfl
  | ok paths => rfl

theorem worst_of_findPaths {config : Config} {paths : Survey p.size}
    (h : findPaths o config p = .ok paths) :
    worstPaths p.catalogue config p.graph.roots = .ok paths.worst := by
  rw [← map_worst_findPaths, h]
  rfl

theorem all_of_findPaths {config : Config} {paths : Survey p.size} {path : String}
    (hgiven : Options.given o.detailed = some path) (h : findPaths o config p = .ok paths) :
    allPaths p.catalogue config p.graph.roots = .ok paths.all := by
  unfold findPaths at h
  simp only [hgiven] at h
  cases hlists : p.graph.roots.mapM (pathsFrom p.catalogue config) with
  | error e =>
    rw [survey, hlists] at h
    cases h
  | ok lists =>
    rw [survey_of_mapM hlists] at h
    cases h
    exact allPaths_of_mapM hlists

theorem writeReport_endsAs {path : PathName} {lines : List String} {next : FileTree → Reported}
    {rest : List (Option ReportFile)}
    (hnext : ∀ path' content, (next (files.write path' content).tree).EndsAs
      (deliver (files.write path' content).tree rest)) :
    (writeReport files path lines next).EndsAs
      (deliver files ((files.expandHome path).toOption.map (⟨·, lines⟩) :: rest)) := by
  unfold writeReport FileTree.writeLines
  cases files.expandHome path with
  | error e => exact Reported.endsAs_fileError files _ e
  | ok path' =>
    simp only [toOption_ok, Option.map_some, deliver, ReportFile.content]
    cases (files.write path' (textFile lines)).result with
    | error e => exact Reported.endsAs_fileError _ _ e
    | ok u => exact hnext path' _

theorem writeDetailed_endsAs {paths : Survey p.size} (h : findPaths o o.config p = .ok paths)
    (tree : FileTree) :
    (writeDetailed o o.config p paths tree).EndsAs
      (deliver tree ((Options.given o.detailed).toList.map (detailedReport? o tree p))) := by
  unfold writeDetailed
  cases hgiven : Options.given o.detailed with
  | none => exact ⟨rfl, rfl, nofun⟩
  | some path =>
    simp only [Option.toList_some, List.map_cons, List.map_nil, detailedReport?,
      all_of_findPaths hgiven h, toOption_ok, Option.bind_eq_bind, Option.bind_some]
    cases StackPath.report p.catalogue o.config paths.all with
    | error e => exact Reported.endsAs_escaped tree _ _
    | ok lines => exact writeReport_endsAs fun path' content => ⟨rfl, rfl, nofun⟩

/-- Where home directories are is not changed by writing. -/
theorem detailedReport?_write (o : Options) (p : Program) (path : PathName)
    (content : List UInt8) (files : FileTree) :
    detailedReport? o (files.write path content).tree p = detailedReport? o files p := by
  funext path'
  rw [detailedReport?, detailedReport?, FileTree.expandHome_write]

theorem writeReports_endsAs {paths : Survey p.size} {out : PathName}
    (h : findPaths o o.config p = .ok paths) (hout : reportPath o source files = .ok out) :
    (writeReports o o.config p paths out files).EndsAs
      (deliver files (reportsOn o files source p)) := by
  unfold writeReports reportsOn
  simp only [maxStackReport?, worst_of_findPaths h, hout, toOption_ok, Option.bind_eq_bind,
    Option.bind_some]
  cases StackPath.report p.catalogue o.config paths.worst with
  | error e => exact Reported.endsAs_escaped files _ _
  | ok lines =>
    refine writeReport_endsAs fun path content => ?_
    have hends := writeDetailed_endsAs h (files.write path content).tree
    rw [detailedReport?_write] at hends
    exact hends.after _

theorem reportPaths_endsAs (o : Options) (source : PathName) (p : Program) (files : FileTree) :
    (reportPaths o o.config source p files).EndsAs
      (deliver files (reportsOn o files source p)) := by
  unfold reportPaths
  cases hpaths : findPaths o o.config p with
  | error e =>
    have hworst : worstPaths p.catalogue o.config p.graph.roots = .error e := by
      rw [← map_worst_findPaths, hpaths]
      rfl
    simp only [reportsOn, maxStackReport?, hworst]
    exact Reported.endsAs_escaped files _ _
  | ok paths =>
    cases hout : reportPath o source files with
    | ok out => exact writeReports_endsAs hpaths hout
    | error e =>
      simp only [reportsOn, maxStackReport?, worst_of_findPaths hpaths, hout]
      exact Reported.endsAs_escaped files _ _

/-- The reporting part of a run is the delivery of the reports that it owes. -/
theorem reports_deliver (o : Options) (files : FileTree) :
    (reports o files).EndsAs (deliver files (reportsDue o files)) := by
  have hends := reports_endsAs o files
  unfold reportsDue
  cases h : analysed? o files with
  | none =>
    rw [h] at hends
    exact hends
  | some analysed =>
    rw [h] at hends
    exact hends _ (reportPaths_endsAs o analysed.1 analysed.2 files)

end Run

theorem files_run (o : Options) (files : FileTree) (input : Input) (colors : Bool) :
    (run o files input colors).files = (deliver files (Run.reportsDue o files)).files := by
  rw [← (Run.reports_deliver o files).files_eq]
  cases houtcome : (Run.reports o files).outcome with
  | error exit => simp only [run, houtcome]
  | ok p => simp only [run, houtcome]

theorem Run.head?_reportsDue (o : Options) (files : FileTree) :
    (reportsDue o files).head? =
      some ((analysed? o files).bind fun (source, p) => maxStackReport? o files source p) := by
  unfold reportsDue
  cases analysed? o files with
  | none => rfl
  | some analysed => rfl

/-- A survey of roots gives what the separate queries give, in an order that sorting again does
not change, and with the same path in front. A run therefore hands over the same report on the
worst paths whether or not it is asked for all paths. -/
theorem survey_serves_reports {n : Nat} {c : Catalogue n} {table : List (Fin n)}
    (hclosed : c.Closed table) (config : Config) {roots : List (Fin n)}
    (hroots : ∀ root ∈ roots, root ∈ table) :
    (∃ worst all, worstPaths c config roots = .ok worst ∧ allPaths c config roots = .ok all ∧
      survey c config roots = .ok ⟨worst, all⟩ ∧
      StackPath.sortByTotal worst = worst ∧ StackPath.sortByTotal all = all ∧
      StackPath.report c config worst = StackPath.reportLines c config worst ∧
      StackPath.report c config all = StackPath.reportLines c config all ∧
      (roots ≠ [] → ∃ p, worst.head? = some p ∧ all.head? = some p)) ∧
    ∀ (o : Options) (detailed : Option String),
      (∀ (config : Config) (p : Program),
        (Run.findPaths { o with detailed } config p).map
            (fun paths => StackPath.report p.catalogue config paths.worst) =
          (Run.findPaths o config p).map
            fun paths => StackPath.report p.catalogue config paths.worst) ∧
      ∀ (files : FileTree) (input : Input) (colors : Bool),
        (Run.reportsDue { o with detailed } files).head? = (Run.reportsDue o files).head? ∧
        (run o files input colors).files = (deliver files (Run.reportsDue o files)).files := by
  refine ⟨?_, fun o detailed => ⟨fun config p => ?_, fun files input colors => ⟨?_, ?_⟩⟩⟩
  · obtain ⟨lists, hlists⟩ := hclosed.exists_mapM_pathsFrom config hroots
    refine ⟨_, _, worstPaths_of_mapM hlists, allPaths_of_mapM hlists, survey_of_mapM hlists,
      StackPath.sortByTotal_sortByTotal _, StackPath.sortByTotal_sortByTotal _, ?_, ?_,
      exists_head?_of_mapM hlists⟩
    · rw [StackPath.report, StackPath.sortByTotal_sortByTotal]
    · rw [StackPath.report, StackPath.sortByTotal_sortByTotal]
  · rw [Run.map_report_findPaths, Run.map_report_findPaths]
  · rw [Run.head?_reportsDue, Run.head?_reportsDue]
    rfl
  · exact files_run o files input colors

/-- Two roots with a cycle and without, and one of them twice. -/
theorem survey_serves_reports_pingPong :
    (CallGraph.build pingPong (List.finRange 3)).catalogue.Closed pingPongGraph.order.toList ∧
    (∀ root ∈ [0, 2, 0], root ∈ pingPongGraph.order.toList) ∧
    ∃ worst all,
      worstPaths (CallGraph.build pingPong (List.finRange 3)).catalogue {} [0, 2, 0] = .ok worst ∧
      allPaths (CallGraph.build pingPong (List.finRange 3)).catalogue {} [0, 2, 0] = .ok all ∧
      survey (CallGraph.build pingPong (List.finRange 3)).catalogue {} [0, 2, 0] =
        .ok ⟨worst, all⟩ ∧
      StackPath.sortByTotal worst = worst ∧ StackPath.sortByTotal all = all ∧
      ∃ p, worst.head? = some p ∧ all.head? = some p := by
  have hclosed := (CallGraph.build_linked keyed_pingPong build_pingPong).isClosed
  have hroots : ∀ root ∈ [0, 2, 0], root ∈ pingPongGraph.order.toList := by decide
  obtain ⟨⟨worst, all, hworst, hall, hsurvey, hsorted, hsorted', -, -, hhead⟩, -⟩ :=
    survey_serves_reports hclosed {} hroots
  exact ⟨hclosed, hroots, worst, all, hworst, hall, hsurvey, hsorted, hsorted',
    hhead (List.cons_ne_nil _ _)⟩

/-! ### The reports and the stack dump -/

end StackDepth
