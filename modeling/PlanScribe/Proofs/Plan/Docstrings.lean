import PlanScribe.Proofs.Build.Parts
import PlanScribe.Proofs.Plan.Outline
import PlanScribe.Proofs.Text.Literal

/-!
# Documentation as it is written

The documentation of a function, a method or a class is put between triple quotes as it is, and
written line by line below the head of the definition. Margins, dropped white space and other line
breaks do not change how the literal is read. So the lines are one closed literal exactly if the
documentation can be enclosed as it is.
-/
namespace PlanScribe

open Text (Reading Enclosable)

/-- The lines of the documentation, without the line feed after the last. -/
def docLines (indent : Indent) (depth : Nat) (doc : String) : String :=
  "\n".intercalate (indentedLines indent depth (docstring doc))

/-- The text is one literal: behind the margin stand the quotes that open it, and it is closed by
the last character, and not before. -/
def OneLiteral (margin text : String) : Prop :=
  ∃ rest, text = margin ++ "\"\"\"" ++ rest ∧ Reading.plain.readOn rest.toList = .closed

/-! ## White space -/

theorem ne_of_isBlank {c : Char} (h : Text.isBlank c = true) : c ≠ '"' ∧ c ≠ '\\' := by
  constructor <;> (rintro rfl; exact absurd h (by decide))

theorem isBlank_margin (indent : Indent) (depth : Nat) :
    ∀ c ∈ (indent.margin depth).toList, Text.isBlank c = true := by
  intro c hc
  rw [indent.toList_margin] at hc
  obtain ⟨chars, hchars, hmem⟩ := List.mem_flatten.mp hc
  rw [List.eq_of_mem_replicate hchars] at hmem
  exact indent.isBlank_unit c hmem

/-- At the start of a line, what indentation does to the line makes no difference. -/
theorem readOn_indentedLine {s : Reading} (h : s.Settled) (indent : Indent) (depth : Nat)
    (line : String) : s.readOn (indentedLine indent depth line).toList = s.readOn line.toList := by
  unfold indentedLine
  split_ifs with hblank
  · have hquiet := h.readOn_eq fun c hc => ne_of_isBlank (List.all_eq_true.mp hblank c hc)
    rw [hquiet]
    rfl
  · have hquiet := h.readOn_eq fun c hc => ne_of_isBlank (isBlank_margin indent depth c hc)
    rw [String.toList_append, Reading.readOn_append, hquiet]

/-! ## The lines of a docstring -/

theorem lines_cons {c : Char} (hfeed : c ≠ '\n') (hreturn : c ≠ '\r') {text first : List Char}
    {rest : List (List Char)} (h : Text.lines text = first :: rest) :
    Text.lines (c :: text) = (c :: first) :: rest := by
  rw [Text.lines, h]
  · exact hfeed
  · exact fun _ hc => absurd hc hreturn

theorem intercalate_append_cons (separator opening first : String) (rest : List String) :
    separator.intercalate ((opening ++ first) :: rest)
      = opening ++ separator.intercalate (first :: rest) := by
  cases rest with
  | nil => simp
  | cons next more => simp [String.intercalate_cons_cons, String.append_assoc]

/-- A docstring begins behind the quotes that open it, with the first line of the text. -/
theorem indentedLines_docstring (indent : Indent) (depth : Nat) (doc : String) :
    ∃ first rest, Text.lines (doc.toList ++ Text.tripleQuote) = first :: rest ∧
      indentedLines indent depth (docstring doc)
        = (indent.margin depth ++ "\"\"\"" ++ String.ofList first)
          :: rest.map fun line => indentedLine indent depth (String.ofList line) := by
  have hne : Text.lines (doc.toList ++ Text.tripleQuote) ≠ [] := by
    rw [ne_eq, Text.lines_eq_nil_iff]
    simp [Text.tripleQuote]
  obtain ⟨first, rest, hlines⟩ := List.exists_cons_of_ne_nil hne
  have hchars : (docstring doc).toList = '"' :: '"' :: '"' :: (doc.toList ++ Text.tripleQuote) := by
    rw [docstring, String.toList_append, String.toList_append, List.append_assoc]
    rfl
  have hdoc : docstring doc ≠ "" := by
    intro hempty
    rw [hempty] at hchars
    cases hchars
  have hquoted : Text.lines (docstring doc).toList = ('"' :: '"' :: '"' :: first) :: rest := by
    rw [hchars]
    apply lines_cons (by decide) (by decide)
    apply lines_cons (by decide) (by decide)
    exact lines_cons (by decide) (by decide) hlines
  have hopening : String.ofList ('"' :: '"' :: '"' :: first) = "\"\"\"" ++ String.ofList first := by
    simp [← String.toList_inj]
  have hvisible : indentedLine indent depth (String.ofList ('"' :: '"' :: '"' :: first))
      = indent.margin depth ++ "\"\"\"" ++ String.ofList first := by
    rw [indentedLine, String.toList_ofList, if_neg (by simp [Text.isBlank]), hopening,
      String.append_assoc]
  refine ⟨first, rest, hlines, ?_⟩
  rw [indentedLines, if_neg hdoc, Text.physicalLines, hquoted, List.map_cons, List.map_cons,
    hvisible, List.map_map]
  rfl

/-- The written lines of a documentation are one literal exactly if it can be enclosed as it is. -/
theorem oneLiteral_iff (indent : Indent) (depth : Nat) (doc : String) :
    OneLiteral (indent.margin depth) (docLines indent depth doc) ↔ Enclosable doc.toList := by
  obtain ⟨first, rest, hlines, hwritten⟩ := indentedLines_docstring indent depth doc
  let behind := "\n".intercalate
    (String.ofList first :: rest.map fun line => indentedLine indent depth (String.ofList line))
  have hbehind : docLines indent depth doc = indent.margin depth ++ "\"\"\"" ++ behind := by
    rw [docLines, hwritten, intercalate_append_cons]
  have hread : Reading.plain.readOn behind.toList
      = Reading.plain.readOn (doc.toList ++ Text.tripleQuote) := by
    have hlast : (doc.toList ++ Text.tripleQuote).getLast? ≠ some '\n' := by
      simp [Text.tripleQuote]
    have hchars : behind.toList = ['\n'].intercalate (first :: rest.map fun line =>
        (indentedLine indent depth (String.ofList line)).toList) := by
      have hfirst : (String.ofList first).toList = first := String.toList_ofList
      rw [String.toList_intercalate, List.map_cons, hfirst, List.map_map]
      rfl
    rw [hchars, Reading.readOn_intercalate, List.foldl_map, ← Reading.readOn_lines hlast, hlines,
      Reading.readOn_intercalate]
    -- all lines but the first are read from a settled state, where indentation is not seen
    congr 1
    funext s line
    rw [readOn_indentedLine (Reading.settled_lineFeed s), String.toList_ofList]
  rw [← Reading.readOn_enclosed_iff, ← hread]
  constructor
  · rintro ⟨other, hother, hclosed⟩
    rw [hbehind, String.append_right_inj] at hother
    rwa [hother]
  · exact fun hclosed => ⟨behind, hbehind, hclosed⟩

/-! ## Documentation in a plan -/

/-- The text of a definition goes on behind its head with the lines of the documentation, one level
deeper, which are one literal exactly if the documentation can be enclosed as it is. -/
def Documented (indent : Indent) (depth : Nat) (head doc text : String) : Prop :=
  doc ≠ "" →
    (∃ rest, text
      = printText indent.unit depth head ++ docLines indent (depth + 1) doc ++ "\n" ++ rest) ∧
    (OneLiteral (indent.margin (depth + 1)) (docLines indent (depth + 1) doc) ↔
      Enclosable doc.toList)

theorem join_lineFeeds (first : String) (rest : List String) :
    String.join ((first :: rest).map fun line => line ++ "\n")
      = "\n".intercalate (first :: rest) ++ "\n" := by
  induction rest generalizing first with
  | nil => simp
  | cons next more ih =>
    rw [List.map_cons, String.join_cons, ih, String.intercalate_cons_cons]
    simp only [String.append_assoc]

theorem printText_docstring (indent : Indent) (depth : Nat) (doc : String) :
    printText indent.unit depth (docstring doc) = docLines indent depth doc ++ "\n" := by
  obtain ⟨first, rest, -, hwritten⟩ := indentedLines_docstring indent depth doc
  rw [← join_indentedLines, docLines, hwritten, join_lineFeeds]

theorem documented_of_print {indent : Indent} {depth : Nat} {head doc text rest : String}
    (h : text = printText indent.unit depth head ++ printDoc indent.unit (depth + 1) doc ++ rest) :
    Documented indent depth head doc text := by
  intro hdoc
  refine ⟨⟨rest, ?_⟩, oneLiteral_iff indent (depth + 1) doc⟩
  have hprint : printDoc indent.unit (depth + 1) doc = docLines indent (depth + 1) doc ++ "\n" := by
    rw [printDoc, if_neg hdoc]
    exact printText_docstring indent (depth + 1) doc
  rw [h, hprint]
  simp only [String.append_assoc]

theorem Function.documented_withStatements (f : Function) (depth : Nat) (indent : Indent)
    (body : List Statement) :
    Documented indent depth f.signature (f.doc.getD "")
      (f.withStatements depth indent body).text := by
  have htext := f.text_withStatements depth indent body
  unfold Function.print at htext
  apply documented_of_print
  rw [htext, String.append_assoc]

theorem ClassDef.documented_assembled (c : ClassDef) (indent : Indent) :
    Documented indent 0 ("class " ++ c.name ++ ":") c.doc (c.lowered indent).assembled.text := by
  have htext := c.text_assembled indent
  unfold ClassDef.print at htext
  apply documented_of_print
  rw [htext]
  simp only [String.append_assoc]
  rfl

/-- A class and its methods, as they are built, with their documentation. -/
structure ClassDef.BuiltDocumented (indent : Indent) (c : ClassDef) (cls : ClassBuild) : Prop where
  written : ∃ text, cls.render.result = .ok text ∧
    Documented indent 0 ("class " ++ c.name ++ ":") c.doc text.text
  methods : List.Forall₂
    (fun m text => Documented indent 1 m.declaration.withReceiver.signature (m.doc.getD "")
      text.text)
    c.methods cls.methods

theorem ClassDef.builtDocumented_lowered {c : ClassDef} (h : c.WellNamed) (indent : Indent) :
    c.BuiltDocumented indent (c.lowered indent) where
  written := ⟨_, (h.distinct_lowered indent).result_render, c.documented_assembled indent⟩
  methods := by
    apply List.forall₂_map_right_iff.mpr
    apply List.forall₂_same.mpr
    intro m _
    have hdocumented := m.declaration.withReceiver.documented_withStatements 1 indent m.body
    have hdoc : m.declaration.withReceiver.doc = m.doc := by
      rw [m.withReceiver_declaration]
      rfl
    rwa [hdoc] at hdocumented

/-- The documentation of every function, class and method of an accepted plan follows its head. Its
lines are one closed literal exactly if the documentation holds no three quotes in a row that are
not protected by a backslash, and does not end with a quote or a backslash that is not protected. -/
theorem docstrings_closed_iff {plan : Plan} {source : Source}
    (h : plan.validate source = .ok ()) (options : DocumentOptions) (sink : Option Sink)
    (target : Option Path) :
    let applied := plan.apply { Document.create options sink with target }
    applied.error = none ∧
    List.Forall₂ (fun f text => Documented options.indent 0 f.declaration.signature (f.doc.getD "")
        text.text)
      plan.functions applied.state.functions ∧
    List.Forall₂ (ClassDef.BuiltDocumented options.indent) plan.classes applied.state.classes := by
  have hnamed := Plan.wellNamed_of_validate h
  apply Plan.forall₂_applied h
  · intro f _
    exact f.declaration.documented_withStatements 0 options.indent f.body
  · intro c hc
    exact ClassDef.builtDocumented_lowered (hnamed.classes c hc) options.indent

/-- Documentation of a function, a class and a method; that of the method has protected quotes at
the end of its first line. -/
def greeterPlan : Plan where
  functions := [{ name := "greet", doc := some "Greets." }]
  classes :=
    [{ name := "Greeter", doc := "Greets\nagain."
       methods := [{ name := "say", doc := some "Says \\\"hi\\\"\nand leaves." }] }]

theorem docstrings_closed_iff_greeter :
    greeterPlan.validate { text := "", filename := "greeter.json" } = .ok () ∧
    let applied := greeterPlan.apply (.create {} none)
    applied.error = none ∧
    List.Forall₂ (fun f text => Documented .standard 0 f.declaration.signature (f.doc.getD "")
        text.text)
      greeterPlan.functions applied.state.functions ∧
    List.Forall₂ (ClassDef.BuiltDocumented .standard)
      greeterPlan.classes applied.state.classes := by
  have hvalid : greeterPlan.validate { text := "", filename := "greeter.json" } = .ok () := by rfl
  exact ⟨hvalid, docstrings_closed_iff hvalid {} none none⟩

/-- A quoted word at the end: of its last quote and the three that follow, the first three close the
literal. -/
theorem quoted_word_closes_early :
    let plan : Plan := { functions := [{ name := "f", doc := some "Says \"hi\"" }] }
    plan.validate { text := "", filename := "quoted.json" } = .ok () ∧
    plan.render
      = .ok "\n\ndef f() -> None:\n    \"\"\"Says \"hi\"\"\"\"\n    return\n\n" ∧
    ¬ OneLiteral "    " (docLines .standard 1 "Says \"hi\"") := by
  intro plan
  refine ⟨by rfl, by rfl, fun hliteral => ?_⟩
  have henclosable := (oneLiteral_iff .standard 1 "Says \"hi\"").mp hliteral
  exact absurd (henclosable.lastQuote "Says \"hi".toList rfl) (by decide)

end PlanScribe
