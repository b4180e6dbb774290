import VerbChain.Proofs.Command.Agreement
import VerbChain.Proofs.Plan.Notations

namespace VerbChain

/-!
# Running a stored plan

A program that compiles can be compiled to a file, and the plan in the file is
the plan it was compiled to, in the notation that the name of the file asks for
on both ways.  Carrying that plan out is all that running the program does, so
both print the same.
-/

namespace FileTree

/-- Whether a file can be written to a path, once the folders above it are. -/
def IsWritable (tree : FileTree) (path : String) : Prop :=
  ∃ made next,
    tree.makeFolders path = (.ok (), made) ∧ made.write path "" = .ok next

/-- Whether a file can be written does not depend on its text. -/
private theorem exists_write
    {tree next : FileTree}
    {path content : String}
    (written : tree.write path content = .ok next)
    (other : String) :
    ∃ after, tree.write path other = .ok after := by
  unfold write at written ⊢
  cases placed : tree.placeOf path with
  | error error =>
      rw [placed] at written
      cases written
  | ok place =>
      simp only [placed] at written ⊢
      split at written
      · cases written
      · next free => exact ⟨_, if_neg free⟩

end FileTree

namespace Plan

private theorem exists_save
    {tree : FileTree}
    {path : String}
    (writable : tree.IsWritable path)
    (plan : Plan) :
    ∃ next, (plan.save path : StateM FileTree _) tree = (.ok (), next) := by
  obtain ⟨made, _, folders, written⟩ := writable
  obtain ⟨after, writtenPlan⟩ :=
    FileTree.exists_write written (plan.toText (.ofPath path))
  refine ⟨after, ?_⟩
  simp only [save, bind, StateT.bind, FileAccess.makeFolders,
    FileAccess.writeFile, folders, writtenPlan]
  rfl

/-- Saving a plan in a workspace is saving it among the files. -/
theorem save_eq_onFiles
    (plan : Plan)
    (path : String) :
    (plan.save path : StateM Workspace _) =
      Workspace.onFiles (plan.save path) := by
  funext workspace
  simp only [save, bind, StateT.bind, FileAccess.makeFolders,
    FileAccess.writeFile, Workspace.onFiles, StateT.run]
  rcases workspace.files.makeFolders path with ⟨answer, made⟩
  cases answer <;> rfl

/-- Loading a plan in a workspace is loading it from the files. -/
theorem load_eq_onFiles (path : String) :
    (load path : StateM Workspace _) = Workspace.onFiles (load path) := by
  funext workspace
  simp only [load, bind, StateT.bind, FileAccess.readFile, Workspace.onFiles,
    StateT.run]
  cases workspace.files.read path with
  | error error => rfl
  | ok text =>
      cases read : ofText? text (.ofPath path) <;> simp only [read] <;> rfl

/-- The extension of a path chooses the text that a plan is stored as. -/
private theorem toText_ofPath
    (plan : Plan)
    (path : String) :
    plan.toText (.ofPath path) =
      if Path.extension? path ∈ [some "yaml", some "yml"] then
        plan.toStored.yaml
      else plan.toStored.pretty := by
  simp only [PlanNotation.ofPath, List.mem_cons, List.not_mem_nil, or_false]
  split <;> rfl

/-- A plain plan is saved where that is possible, and loaded as it was. -/
private theorem exists_stored
    {plan : Plan}
    {path : String}
    {workspace : Workspace}
    (plain : ∀ action ∈ plan, action.IsPlain)
    (writable : workspace.files.IsWritable path)
    (holds : plan.Holds (.ofPath path)) :
    ∃ stored,
      (plan.save path : StateM Workspace _) workspace = (.ok (), stored) ∧
        stored.files.read path = .ok (plan.toText (.ofPath path)) ∧
        (load path : StateM Workspace _) stored = (.ok plan, stored) := by
  obtain ⟨files, saved⟩ := exists_save writable plan
  have held := read_of_save saved
  refine ⟨{ workspace with files := files }, ?_, held, ?_⟩
  · rw [save_eq_onFiles]
    simp only [Workspace.onFiles, StateT.run, saved]
  · rw [load_eq_onFiles]
    simp only [Workspace.onFiles, StateT.run, load_of_read held,
      ofText?_toText_of_plain plain holds]

end Plan

/-- A program of the planning languages is compiled to plain actions. -/
theorem Report.isPlain_of_compiled
    {engine : PlanningEngine Unit String}
    {source : String}
    {plan : Plan}
    (describes : engine.registry.Describes)
    (completed : compiled engine source = .ok plan) :
    ∀ action ∈ plan, action.IsPlain := by
  cases parsed : engine.parse source with
  | error error =>
      rw [compiled_of_unparsed parsed] at completed
      cases completed
  | ok chain =>
      rw [compiled_of_parsed parsed] at completed
      exact PlanningEngine.isPlain_of_compileChain describes completed

namespace Invocation

/--
In the languages of music and of functions, whatever the settings, a program
that compiles is stored at any path where a file can be written, and what is
loaded from there is the plan it compiles to.  Running the stored plan succeeds
and prints what running the program prints.  The file is YAML where its name
ends so, and JSON elsewhere; the notation is taken to give back the numbers, or
the tree, that was written.
-/
theorem stored_plan_runs_as_program
    {registry : Registry Unit Context (List Action)}
    {source : Option String}
    {workspace : Workspace}
    {text path : String}
    {plan : Plan}
    (shipped : registry ∈ planningRegistries)
    (read :
      (readSource source : StateM Workspace _) workspace =
        (.ok text, workspace))
    (compileSettings runSettings : Settings)
    (compiles :
      Report.compiled (Report.printingEngine registry compileSettings) text =
        .ok plan)
    (writable : workspace.files.IsWritable path)
    (holds : plan.Holds (.ofPath path)) :
    let compiler := Report.printingEngine registry compileSettings
    let runner := Report.printingEngine registry runSettings
    ∃ stored report,
      (runPlanning compiler (.compile source (some path)) :
            StateM Workspace Report) workspace =
          (⟨0, "", written plan path⟩, stored) ∧
        stored.files.read path =
          .ok
            (if Path.extension? path ∈ [some "yaml", some "yml"] then
              plan.toStored.yaml
            else plan.toStored.pretty) ∧
        (Plan.load path : StateM Workspace _) stored = (.ok plan, stored) ∧
        (runPlanning runner (.runPlan path) : StateM Workspace Report) stored =
          (report, stored) ∧
        (runPlanning runner (.run source) : StateM Workspace Report)
            workspace =
          (report, workspace) ∧
        report =
          .success
            (Report.lines
              (plan.map (Action.line runSettings.printFormat))) := by
  intro compiler runner
  have describes := Registry.describes_of_mem shipped
  have plain := Report.isPlain_of_compiled describes compiles
  obtain ⟨stored, saved, held, loaded⟩ :=
    Plan.exists_stored plain writable holds
  refine
    ⟨stored, Report.ofPlan runner plan, ?_, ?_, loaded, ?_, ?_,
      Report.ofPlan_printingEngine plan⟩
  · simp only [runPlanning, compileTo, bind, StateT.bind, read, compiler,
      compiles, saved]
    rfl
  · rw [held, Plan.toText_ofPath]
  · simp only [runPlanning, bind, StateT.bind, loaded]
    rfl
  · have ran : Report.ofRun runner text = Report.ofPlan runner plan :=
      Report.ofRun_of_compiled describes.computes compiles
    rw [← ran]
    exact onSource_of_read read _

/--
A track with a name of two lines and a clip that starts at the negative zero,
stored over another plan in YAML, and in JSON where there is no folder yet.
-/
theorem stored_plan_runs_as_program_song :
    let workspace : Workspace :=
      ⟨.ofList [("song.yml", "old")], .ofList [],
        "track(name=\"A\\n7\").add_clip(start=-0, length=0.5)"⟩
    let compiler := Report.printingEngine Music.registry .standard
    let runner :=
      Report.printingEngine Music.registry
        { Settings.standard with printFormat := .json }
    ∀ path ∈ ["song.yml", "plans/song"],
      ∃ stored report,
        ((runPlanning compiler (.compile none (some path)) :
              StateM Workspace Report) workspace).2 =
            stored ∧
          (runPlanning runner (.runPlan path) : StateM Workspace Report)
              stored =
            (report, stored) ∧
          report =
            ⟨0,
              "\x7b\"kind\":\"create_track\",\"payload\":" ++
                "\x7b\"color\":\"\",\"name\":\"A\\n7\"\x7d\x7d\n" ++
                "\x7b\"kind\":\"add_clip\",\"payload\":\x7b\"length\":0.5," ++
                "\"start\":-0.0,\"track\":\"A\\n7\"\x7d\x7d\n",
              ""⟩ := by
  intro workspace compiler runner path member
  have read :
      (readSource none : StateM Workspace _) workspace =
        (.ok workspace.input, workspace) :=
    rfl
  have compiles :
      Report.compiled compiler workspace.input =
        .ok ((Report.compiled compiler workspace.input).toOption.getD []) := by
    have isOk : (Report.compiled compiler workspace.input).isOk = true := by
      decide +kernel
    cases completed : Report.compiled compiler workspace.input with
    | ok plan => rfl
    | error error =>
        rw [completed] at isOk
        cases isOk
  have writable : workspace.files.IsWritable path := by
    rcases List.mem_cons.1 member with rfl | member
    · exact ⟨_, _, rfl, rfl⟩
    · rw [List.mem_singleton.1 member]
      exact ⟨_, _, rfl, rfl⟩
  have holds :
      ((Report.compiled compiler workspace.input).toOption.getD []).Holds
        (.ofPath path) := by
    rcases List.mem_cons.1 member with rfl | member
    · show YamlDocument.tree? _ = _
      decide +kernel
    · rw [List.mem_singleton.1 member]
      show ∀ part ∈ _, Json.Rereads part
      decide +kernel
  obtain ⟨stored, report, compile, _, _, runPlan, run, _⟩ :=
    stored_plan_runs_as_program List.mem_cons_self read .standard
      { Settings.standard with printFormat := .json } compiles writable holds
  have printed :
      ((runPlanning runner (.run none) : StateM Workspace Report)
        workspace).1 = report :=
    congrArg Prod.fst run
  refine ⟨stored, report, congrArg Prod.snd compile, runPlan, ?_⟩
  rw [← printed]
  decide +kernel

end Invocation

end VerbChain
