import PlanScribe.Document.OnFile
import PlanScribe.Proofs.Document.Delivery

/-!
# Two ways to a file

A plan reaches its file in one of two ways. It is rendered, and the text is then written to the
file; or the file is opened for a document first, to which the plan is applied and which is then
closed. The two give the same answer and touch the same file. They differ in one thing: only the
second puts the header of the file rules at the top, where the plan has no header of its own.
-/
namespace PlanScribe

/-! ## Through a document -/

namespace FileDocument

/-- Closes the document and leaves in the file what its sink has stored. -/
def close (fileDoc : FileDocument) : FileTree × Except BuildError WriteResult :=
  let closing := fileDoc.document.close
  ({ fileDoc with document := closing.document }.files, closing.result)

/-- The document of an open file is stored whole when it is closed. -/
theorem close_of_open {doc : Document} (hrenderable : doc.Renderable)
    (hopen : doc.closed = false) (hsink : doc.sink = some {}) (tree : FileTree)
    (location : Location) (notes : List Note) :
    close { document := doc, tree, location := some location, notes }
      = (tree.put location (.file (encodeText doc.output)), .ok .written) := by
  obtain ⟨hdocument, hresult⟩ := Document.close_of_open hrenderable hopen hsink
  have hreceived := Sink.received_deliver {} (encodeText doc.output)
  have hall : Sink.TakesAll {} (encodeText doc.output) := rfl
  have hdone := hreceived.done.mpr ⟨hall, rfl⟩
  have hstored := hreceived.stored_eq_iff.mpr hall
  unfold close files
  simp only [hdocument, hresult, hdone, hstored, if_true]
  rfl

end FileDocument

/-- Opens the file for a document, applies the plan to it and closes it. If the plan cannot be
applied, the document goes out of use. -/
def Plan.deliverTo (plan : Plan) (tree : FileTree) (path : Path) (rules : FileRules) :
    FileTree × Except BuildError WriteResult :=
  match FileDocument.create tree path rules plan.document.options with
  | (left, .error e) => (left, .error e)
  | (_, .ok fileDoc) =>
    let applied := plan.apply fileDoc.document
    match applied.error with
    | some e => ({ fileDoc with document := (applied.state.drop false).document }.files, .error e)
    | none => { fileDoc with document := applied.state }.close

/-! ## The header -/

/-- A header as the comment at the top of a file. -/
def commentOf (header : Option String) : String :=
  (Document.headerComment { header }).text

/-- The comment that the file rules ask for and that the plan does not have. -/
def Plan.missingComment (plan : Plan) (rules : FileRules) : String :=
  if plan.document.header = none then commentOf rules.header else ""

/-- Only a header without lines makes no comment. -/
theorem commentOf_eq_empty_iff (header : Option String) :
    commentOf header = "" ↔ header = none ∨ header = some "" := by
  unfold commentOf Document.headerComment Buffer.ofEntries Buffer.text
  cases header with
  | none => simp
  | some text =>
    have hlines : Text.physicalLines text = [] ↔ text = "" := by
      simp [Text.physicalLines, Text.lines_eq_nil_iff]
    have hjoin : String.join ((Text.physicalLines text).map fun line =>
        Document.commentLine line ++ "\n") = "" ↔ Text.physicalLines text = [] := by
      cases Text.physicalLines text with
      | nil => simp
      | cons line rest => simp [String.append_eq_empty_iff]
    simp only [Option.map_some, Option.getD_some, List.map_map, Function.comp_def]
    rw [hjoin, hlines]
    simp

namespace Plan

variable (plan : Plan) {text : String}

/-! ## What is rendered -/

/-- What the plan makes of an empty document, below the comment at the top. -/
def regions (indent : Indent) : String :=
  (plan.lowered (.create { indent } none)).output

/-- Of the options of a document, the header makes the comment and the indentation all the rest. -/
theorem output_lowered (options : DocumentOptions) (sink : Option Sink) (target : Option Path) :
    (plan.lowered { Document.create options sink with target }).output
      = commentOf options.header ++ plan.regions options.indent := by
  unfold regions Document.output Document.assemble commentOf
  rw [Buffer.text_append, Buffer.text_append]
  rfl

theorem not_clashing_of_render (h : plan.render = .ok text) : ¬ plan.Clashing := by
  rw [← plan.firstClash_eq_none_iff, Option.eq_none_iff_forall_ne_some]
  intro e he
  rw [(plan.render_eq_error_iff e).mpr he] at h
  cases h

theorem text_of_render (h : plan.render = .ok text) :
    text = commentOf plan.document.header ++ plan.regions plan.document.options.indent := by
  have hrender := plan.render_of_not_clashing (plan.not_clashing_of_render h)
  rw [h] at hrender
  have houtput := plan.output_lowered plan.document.options (some {}) none
  exact (Except.ok.inj hrender).trans houtput

/-- With the header of the rules in the place of a missing one, the text begins with one comment
more. -/
theorem output_lowered_of_render (h : plan.render = .ok text) (rules : FileRules)
    (sink : Option Sink) (target : Option Path) :
    (plan.lowered
        { Document.create
            { plan.document.options with
              header := plan.document.options.header.or rules.header } sink with target }).output
      = plan.missingComment rules ++ text := by
  have hheader : plan.document.options.header = plan.document.header := rfl
  rw [output_lowered, plan.text_of_render h, ← String.append_assoc, missingComment, hheader]
  cases plan.document.header with
  | none => simp [show commentOf none = "" from rfl]
  | some own => simp

/-! ## What is written -/

/-- The answer for a file that was written, kept, or could not be opened. -/
def filed (path : Path) : FileTree × Option WriteResult → FileTree × Except BuildError WriteResult
  | (left, none) => (left, .error (.unopened path))
  | (left, some result) => (left, .ok result)

theorem writeTo_of_render (h : plan.render = .ok text) (tree : FileTree) (path : Path)
    (rules : FileRules) :
    plan.writeTo tree path rules
      = filed path (tree.writeDestination path rules.overwrite (encodeText text)) := by
  simp only [writeTo, h]
  rcases tree.writeDestination path rules.overwrite (encodeText text) with ⟨left, _ | result⟩
  · rfl
  · rfl

theorem deliverTo_of_render (h : plan.render = .ok text) (tree : FileTree) (path : Path)
    (rules : FileRules) :
    plan.deliverTo tree path rules
      = filed path (tree.writeDestination path rules.overwrite
          (encodeText (plan.missingComment rules ++ text))) := by
  let fresh (sink : Option Sink) : Document :=
    { Document.create
        { plan.document.options with
          header := plan.document.options.header.or rules.header } sink with target := some path }
  have happlied (sink : Option Sink) : (plan.apply (fresh sink)).error = none ∧
      (plan.apply (fresh sink)).state = plan.lowered (fresh sink) :=
    plan.apply_of_not_clashing (plan.not_clashing_of_render h) rfl
  unfold deliverTo FileDocument.create FileTree.writeDestination
  rcases tree.openDestination path rules.overwrite with ⟨left, opening⟩
  cases opening with
  | refused => rfl
  | kept =>
    obtain ⟨herror, hstate⟩ := happlied none
    simp only [fresh] at herror hstate
    simp only [herror, hstate]
    rfl
  | opened location =>
    obtain ⟨herror, hstate⟩ := happlied (some {})
    have hrenderable : (plan.lowered (fresh (some {}))).Renderable := by
      have hstart : (fresh (some {})).Renderable := fun _ hcls => nomatch hcls
      rw [← hstate]
      exact (Document.builds_apply _ plan).renderable hstart
    have hclose := FileDocument.close_of_open hrenderable rfl rfl left location []
    rw [plan.output_lowered_of_render h rules (some {}) (some path)] at hclose
    simp only [fresh] at herror hstate hclose
    simp only [herror, hstate]
    exact hclose

theorem missingComment_eq_empty_iff (rules : FileRules) :
    plan.missingComment rules = ""
      ↔ plan.document.header ≠ none ∨ rules.header = none ∨ rules.header = some "" := by
  unfold missingComment
  split_ifs with hheader
  · rw [commentOf_eq_empty_iff]
    simp [hheader]
  · simp [hheader]

end Plan

end PlanScribe
