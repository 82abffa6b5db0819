import PlanScribe.Cli.Action
import PlanScribe.Proofs.Storage.Ways

/-!
# What a command line does to files

Only rendering a plan without a dry run opens a file for writing, and it does so at the very end,
when the plan has been loaded and its text is there. Whatever fails before leaves the files as they
are. What is written is one file, at the output path.
-/
namespace PlanScribe

/-- White space at the end is all that trimming takes away. -/
theorem Text.exists_append_trimEnd (text : List Char) :
    ∃ blank, text = trimEnd text ++ blank ∧ allBlank blank = true := by
  refine ⟨(text.reverse.takeWhile isBlank).reverse, ?_, ?_⟩
  · rw [trimEnd, ← List.reverse_append, List.takeWhile_append_dropWhile, List.reverse_reverse]
  · rw [allBlank, List.all_reverse]
    exact List.all_takeWhile

namespace Cli

variable {arguments : List String} {files : FileTree} {plan : Path} {output : Option Path}
  {dryRun noClobber : Bool} {file : PlanFile} {text : String}

/-! ## Command lines -/

/-- A command line that asks for a plan to be rendered. -/
def renderLine (plan : Path) (output : Option Path) (dryRun noClobber : Bool) : List String :=
  "render" ::
    ((if dryRun then ["--dry-run"] else []) ++ (if noClobber then ["--no-clobber"] else [])
      ++ (output.map ("--output=" ++ ·)).toList ++ ["--", plan])

theorem flag?_output (path : Path) :
    flag? .render ("--output=" ++ path) = some (.ok (.output (some path))) := by
  have htext : ("--output=" ++ path).toList = '-' :: '-' :: ("output=".toList ++ path.toList) := by
    rw [String.toList_append]
    rfl
  have hsplit : splitLong ("output=".toList ++ path.toList) = ("output", some path) := by
    simp [splitLong]
  rw [flag?, htext]
  simp only [hsplit]
  rfl

theorem readArguments_dryRun (given : Given) (rest : List String) (h : given.dryRun = false) :
    readArguments .render false given ("--dry-run" :: rest)
      = readArguments .render false { given with dryRun := true } rest := by
  have hflag : flag? .render "--dry-run" = some (.ok .dryRun) := by rfl
  cases rest <;> simp [readArguments, hflag, Given.addDryRun, h, Except.bind]

theorem readArguments_noClobber (given : Given) (rest : List String)
    (h : given.noClobber = false) :
    readArguments .render false given ("--no-clobber" :: rest)
      = readArguments .render false { given with noClobber := true } rest := by
  have hflag : flag? .render "--no-clobber" = some (.ok .noClobber) := by rfl
  cases rest <;> simp [readArguments, hflag, Given.addNoClobber, h, Except.bind]

theorem readArguments_output (given : Given) (rest : List String) {path : Path} (hpath : path ≠ "")
    (h : given.output = none) :
    readArguments .render false given (("--output=" ++ path) :: rest)
      = readArguments .render false { given with output := some path } rest := by
  have hdashes : "--output=" ++ path ≠ "--" := by
    intro heq
    have hlength := congrArg String.length heq
    have houtput : "--output=".length = 9 := by decide
    have htwo : "--".length = 2 := by decide
    rw [String.length_append] at hlength
    omega
  cases rest <;> simp [readArguments, hdashes, flag?_output, Given.addOutput, hpath, h, Except.bind]

theorem readArguments_plan (given : Given) {command : CommandName}
    (hcommand : command.argument? = some "plan") (hplan : plan ≠ "") (h : given.argument = none) :
    readArguments command false given ["--", plan]
      = { given with argument := some plan }.finish command := by
  have hadd : given.addArgument command plan = .ok { given with argument := some plan } := by
    rw [Given.addArgument, h, hcommand]
    simp only [if_neg hplan]
    cases command with
    | render | check => rfl
    | demo | completions => exact absurd hcommand (by decide)
  rw [readArguments, if_pos rfl, readArguments, hadd]
  rfl

/-- Every plan path can be given, with any combination of options but an output file in a dry
run. -/
theorem readCommand_renderLine (hplan : plan ≠ "") (houtput : output ≠ some "")
    (hdry : dryRun = true → output = none) :
    readCommand (renderLine plan output dryRun noClobber)
      = .ok (.render plan output dryRun noClobber) := by
  have hread (rest : List String) :
      readCommand ("render" :: rest) = readArguments .render false {} rest := by
    rfl
  rw [renderLine, hread]
  have hflags (rest : List String) :
      readArguments .render false {}
          ((if dryRun then ["--dry-run"] else []) ++ (if noClobber then ["--no-clobber"] else [])
            ++ rest)
        = readArguments .render false { dryRun, noClobber } rest := by
    cases dryRun <;> cases noClobber <;> simp [readArguments_dryRun, readArguments_noClobber]
  rw [List.append_assoc, hflags]
  cases output with
  | none =>
    rw [Option.map_none, Option.toList_none, List.nil_append, readArguments_plan _ rfl hplan rfl]
    simp [Given.finish]
  | some path =>
    have hpath : path ≠ "" := fun heq => houtput (congrArg some heq)
    have hwet : dryRun = false := by
      cases dryRun with
      | false => rfl
      | true => cases hdry rfl
    rw [Option.map_some, Option.toList_some, List.singleton_append,
      readArguments_output _ _ hpath rfl, readArguments_plan _ rfl hplan rfl, hwet]
    simp [Given.finish]

theorem readCommand_check (hplan : plan ≠ "") :
    readCommand ["check", "--", plan] = .ok (.check plan) := by
  have hread : readCommand ["check", "--", plan] = readArguments .check false {} ["--", plan] := by
    rfl
  rw [hread, readArguments_plan _ rfl hplan rfl]
  simp [Given.finish]

/-! ## Loading and rendering -/

/-- The plan file at the path can be loaded, and its plan has this text. -/
structure Renders (files : FileTree) (plan : Path) (file : PlanFile) (text : String) : Prop where
  loads : PlanFile.load files plan = .ok file
  renders : file.plan.render = .ok text

/-- What is reported about a rendered plan. -/
def summaryOf (file : PlanFile) : Summary :=
  { source := some file.path, classes := file.plan.classes.length,
    functions := file.plan.functions.length }

/-- The rule that holds for an output file that exists already. -/
def ruleFor (file : PlanFile) (noClobber : Bool) : Overwrite :=
  if noClobber then .ifMissing else file.plan.document.overwrite

/-- What rendering a plan file comes to, before anything is printed or written. -/
def renderingOf (files : FileTree) (plan : Path) (output : Option Path) (dryRun noClobber : Bool) :
    Action :=
  withPlan (PlanFile.load files plan) fun file => renderAction file output dryRun noClobber

theorem path_of_load (h : PlanFile.load files plan = .ok file) : file.path = plan := by
  unfold PlanFile.load PlanFile.ofBytes at h
  split at h
  · cases h
  · rename_i content _
    cases hload : Plan.load (Format.ofPath plan) { text := content, filename := plan } with
    | error e =>
      rw [hload] at h
      cases h
    | ok loaded =>
      rw [hload] at h
      cases h
      rfl

theorem run_render (h : readCommand arguments = .ok (.render plan output dryRun noClobber)) :
    run arguments files = (renderingOf files plan output dryRun noClobber).perform files := by
  rw [run, h]
  rfl

theorem Renders.rendering (h : Renders files plan file text) :
    renderingOf files plan output dryRun noClobber
      = if dryRun then .print ((summaryOf file).preview text)
        else .write (output.getD file.defaultOutput) (ruleFor file noClobber) text
          (summaryOf file) := by
  rw [renderingOf, h.loads, withPlan, renderAction, h.renders]
  rfl

/-- Without a text the command ends before anything is printed or written. -/
theorem rendering_of_not_renders (h : ¬ ∃ file text, Renders files plan file text)
    (output : Option Path) (dryRun noClobber : Bool) :
    ∃ message, renderingOf files plan output dryRun noClobber = .fail failureExit message := by
  unfold renderingOf
  cases hload : PlanFile.load files plan with
  | error e => exact ⟨_, rfl⟩
  | ok file =>
    cases hrender : file.plan.render with
    | error e => exact ⟨e.message, by rw [withPlan, renderAction, hrender]⟩
    | ok text => exact absurd ⟨file, text, hload, hrender⟩ h

/-! ## Running a command -/

theorem Renders.unique {other : PlanFile} {text' : String} (h : Renders files plan file text)
    (hother : Renders files plan other text') : file = other ∧ text = text' := by
  obtain rfl : file = other := Except.ok.inj (h.loads.symm.trans hother.loads)
  exact ⟨rfl, Except.ok.inj (h.renders.symm.trans hother.renders)⟩

theorem run_check (h : readCommand arguments = .ok (.check plan)) :
    (run arguments files).files = files ∧
    ((run arguments files).exit = 0 ↔ ∃ file text, Renders files plan file text) := by
  have hrun : run arguments files
      = (withPlan (PlanFile.load files plan) checkAction).perform files := by
    rw [run, h]
    rfl
  rw [hrun]
  cases hload : PlanFile.load files plan with
  | error e =>
    refine ⟨rfl, fun hexit => absurd hexit Nat.one_ne_zero, ?_⟩
    rintro ⟨file, text, hfile⟩
    cases hload.symm.trans hfile.loads
  | ok file =>
    rw [withPlan, checkAction]
    cases hrender : file.plan.render with
    | error e =>
      refine ⟨rfl, fun hexit => absurd hexit Nat.one_ne_zero, ?_⟩
      rintro ⟨other, text, hother⟩
      cases hload.symm.trans hother.loads
      cases hrender.symm.trans hother.renders
    | ok text => exact ⟨rfl, fun _ => ⟨file, text, hload, hrender⟩, fun _ => rfl⟩

/-- A dry run touches no file. Its code block is the text of the plan without the white space at the
end. -/
theorem run_dryRun (h : readCommand arguments = .ok (.render plan output true noClobber)) :
    (run arguments files).files = files ∧
    ((run arguments files).exit = 0 ↔ ∃ file text, Renders files plan file text) ∧
    ∀ file text, Renders files plan file text →
      ∃ block blank, text = block ++ blank ∧ Text.allBlank blank.toList = true ∧
        (run arguments files).stdout
          = printed ["── " ++ plan ++ " ──", block, "── Summary ──",
              (summaryOf file).contents] := by
  rw [run_render h]
  by_cases hrenders : ∃ file text, Renders files plan file text
  · obtain ⟨file, text, hfile⟩ := hrenders
    rw [hfile.rendering, if_pos rfl]
    refine ⟨rfl, ⟨fun _ => ⟨file, text, hfile⟩, fun _ => rfl⟩, ?_⟩
    intro other text' hother
    obtain ⟨rfl, rfl⟩ := hfile.unique hother
    obtain ⟨blank, htext, hblank⟩ := Text.exists_append_trimEnd text.toList
    refine ⟨String.ofList (Text.trimEnd text.toList), String.ofList blank, ?_, ?_, ?_⟩
    · rw [← String.ofList_append, ← htext, String.ofList_toList]
    · rw [String.toList_ofList]
      exact hblank
    · rw [← path_of_load hfile.loads]
      rfl
  · obtain ⟨message, hfail⟩ := rendering_of_not_renders hrenders output true noClobber
    rw [hfail]
    refine ⟨rfl, ⟨fun hexit => absurd hexit Nat.one_ne_zero, ?_⟩, ?_⟩
    · exact fun hsome => absurd hsome hrenders
    · exact fun file text hfile => absurd ⟨file, text, hfile⟩ hrenders

theorem keeps_ruleFor {path : Path} :
    files.Keeps path (ruleFor file noClobber) ↔
      (noClobber = true ∨ file.plan.document.overwrite = .ifMissing) ∧
        files.pathExists path = true := by
  unfold FileTree.Keeps ruleFor
  cases noClobber with
  | false => simp
  | true => simp

theorem files_outcomeOfWrite (path : Path) (summary : Summary) (left : FileTree)
    (result : Option WriteResult) : (outcomeOfWrite path summary left result).files = left := by
  rcases result with _ | _ | _ <;> rfl

theorem exit_outcomeOfWrite (path : Path) (summary : Summary) (left : FileTree)
    (result : Option WriteResult) :
    (outcomeOfWrite path summary left result).exit = 0 ↔ result ≠ none := by
  rcases result with _ | _ | _ <;> simp [outcomeOfWrite, failureExit]

/-- What a writing command line comes to once the text is there. -/
theorem run_of_renders (h : readCommand arguments = .ok (.render plan output false noClobber))
    (hfile : Renders files plan file text) :
    let outcome := run arguments files
    let target := output.getD file.defaultOutput
    let rule := ruleFor file noClobber
    if (files.openDestination target rule).2 = .refused then
      outcome.exit ≠ 0 ∧ files.AddsDirectories outcome.files
    else outcome.exit = 0 ∧
      (files.Keeps target rule → outcome.files = files) ∧
      (¬ files.Keeps target rule →
        ∃ location, files.Stores outcome.files target location (encodeText text)) := by
  intro outcome target rule
  have houtcome : outcome
      = outcomeOfWrite target (summaryOf file)
          (files.writeDestination target rule (encodeText text)).1
          (files.writeDestination target rule (encodeText text)).2 := by
    simp only [outcome]
    rw [run_render h, hfile.rendering]
    rfl
  rw [houtcome, ne_eq, exit_outcomeOfWrite, files_outcomeOfWrite]
  obtain ⟨hkeeps, hkept, hsame⟩ | ⟨hkeeps, hrefused, hnone, hadds⟩ |
      ⟨hkeeps, hwritten, location, hopened, hstores⟩ :=
    files.writeDestination_cases target rule (encodeText text)
  · rw [hkept, hsame, if_neg Opening.noConfusion]
    exact ⟨Option.some_ne_none _, fun _ => rfl, fun hnot => absurd hkeeps hnot⟩
  · rw [hrefused, hnone, if_pos rfl]
    exact ⟨fun hsome => hsome rfl, hadds⟩
  · rw [hopened, hwritten, if_neg Opening.noConfusion]
    exact ⟨Option.some_ne_none _, fun hkept => absurd hkept hkeeps, fun _ => ⟨location, hstores⟩⟩

/-- A command that renders a plan for a file either fails and leaves at most directories behind, or
it leaves the text at the output path, unless what is there is to be kept. -/
theorem run_writing (h : readCommand arguments = .ok (.render plan output false noClobber)) :
    let outcome := run arguments files
    (outcome.exit = 0 ↔ ∃ file text, Renders files plan file text ∧
      (files.openDestination (output.getD file.defaultOutput) (ruleFor file noClobber)).2
        ≠ .refused) ∧
    (outcome.exit ≠ 0 → files.AddsDirectories outcome.files ∧
      ∀ location, outcome.files.content? location = files.content? location) ∧
    ∀ file text, Renders files plan file text →
      let target := output.getD file.defaultOutput
      (∀ location, files.resolve? target = some location →
        files.isDirectory location = false → outcome.exit = 0) ∧
      (outcome.exit = 0 →
        if (noClobber = true ∨ file.plan.document.overwrite = .ifMissing) ∧
            files.pathExists target = true then
          outcome.files = files
        else ∃ location, files.Stores outcome.files target location (encodeText text)) := by
  intro outcome
  by_cases hrenders : ∃ file text, Renders files plan file text
  · obtain ⟨file, text, hfile⟩ := hrenders
    have hrun := run_of_renders h hfile
    dsimp only at hrun
    by_cases hrefused :
        (files.openDestination (output.getD file.defaultOutput) (ruleFor file noClobber)).2
          = .refused
    · rw [if_pos hrefused] at hrun
      obtain ⟨hexit, hadds⟩ := hrun
      refine ⟨⟨fun hzero => absurd hzero hexit, ?_⟩, ?_, ?_⟩
      · rintro ⟨other, text', hother, hopened⟩
        obtain ⟨rfl, rfl⟩ := hfile.unique hother
        exact absurd hrefused hopened
      · exact fun _ => ⟨hadds, fun location => (hadds location).content?_eq⟩
      · intro other text' hother target
        obtain ⟨rfl, rfl⟩ := hfile.unique hother
        refine ⟨?_, fun hzero => absurd hzero hexit⟩
        intro location hleads hfits
        exact absurd hrefused (FileTree.openDestination_of_resolves hleads hfits _)
    · rw [if_neg hrefused] at hrun
      obtain ⟨hexit, hkept, hstores⟩ := hrun
      refine ⟨⟨fun _ => ⟨file, text, hfile, hrefused⟩, fun _ => hexit⟩, ?_, ?_⟩
      · exact fun hnot => absurd hexit hnot
      · intro other text' hother target
        obtain ⟨rfl, rfl⟩ := hfile.unique hother
        refine ⟨fun _ _ _ => hexit, fun _ => ?_⟩
        split_ifs with hkeeps
        · exact hkept (keeps_ruleFor.mpr hkeeps)
        · exact hstores fun hrule => hkeeps (keeps_ruleFor.mp hrule)
  · obtain ⟨message, hfail⟩ := rendering_of_not_renders hrenders output false noClobber
    have houtcome : outcome = (Action.fail failureExit message).perform files :=
      (run_render h).trans (congrArg (Action.perform files) hfail)
    rw [houtcome]
    refine ⟨⟨fun hzero => absurd hzero Nat.one_ne_zero, ?_⟩, ?_, ?_⟩
    · rintro ⟨file, text, hfile, -⟩
      exact absurd ⟨file, text, hfile⟩ hrenders
    · exact fun _ => ⟨.refl files, fun _ => rfl⟩
    · exact fun file text hfile => absurd ⟨file, text, hfile⟩ hrenders

end Cli

end PlanScribe
