import PlanScribe.Proofs.Document.OnFile
import PlanScribe.Proofs.Document.Regions
import PlanScribe.Proofs.Text.SourceLines

/-!
# The comment at the top

The header of a document is written as a comment in front of the output, one line of comment for
each of its lines. To the reader of the output a carriage return ends a line too. What follows one
inside of a line of the header is read as code, unless it happens to start a comment of its own.
-/
namespace PlanScribe

namespace Document

/-- The document with another header, or with none. -/
def headed (doc : Document) (header : Option String) : Document :=
  { doc with options := { doc.options with header } }

/-- The header makes the comment in front and has no other influence on the output. -/
theorem render_headed (doc : Document) (header : Option String) :
    (doc.headed header).render
      = (doc.headed none).render.finish (commentOf header ++ ·) [] := by
  have hassemble (classes : List Buffer) : ((doc.headed header).assemble classes).text
      = commentOf header ++ ((doc.headed none).assemble classes).text := by
    simp only [assemble, Buffer.text_append]
    rfl
  have hclasses : (doc.headed header).classes = (doc.headed none).classes := rfl
  unfold render
  rw [hclasses]
  cases hresult : (renderClasses (doc.headed none).classes).result with
  | error e => simp [Attempt.finish, hresult]
  | ok classes => simp [Attempt.finish, hresult, hassemble]

theorem commentOf_some (header : String) :
    commentOf (some header)
      = String.join ((Text.physicalLines header).map fun line => commentLine line ++ "\n") := by
  simp [commentOf, headerComment, Buffer.ofEntries, Buffer.text, Function.comp_def]

/-- A header line becomes a comment, and none of its text is lost. -/
theorem commentLine_cases (line : String) :
    line.toList.head? = some '#' ∧ commentLine line = line ∨ commentLine line = "# " ++ line := by
  unfold commentLine
  split_ifs with h
  · exact .inl ⟨h, rfl⟩
  · exact .inr rfl

theorem head?_commentLine (line : String) : (commentLine line).toList.head? = some '#' := by
  obtain ⟨hmark, hsame⟩ | hput := commentLine_cases line
  · rw [hsame, hmark]
  · rw [hput, String.toList_append]
    rfl

theorem lineFeed_notMem_commentLine {line : String} (h : '\n' ∉ line.toList) :
    '\n' ∉ (commentLine line).toList := by
  obtain ⟨-, hsame⟩ | hput := commentLine_cases line
  · rwa [hsame]
  · rw [hput, String.toList_append]
    simpa using h

theorem returnsOnlyTo_commentLine (line : String) :
    Text.ReturnsOnlyTo '#' (commentLine line).toList ↔ Text.ReturnsOnlyTo '#' line.toList := by
  obtain ⟨-, hsame⟩ | hput := commentLine_cases line
  · rw [hsame]
  · have hchars : (commentLine line).toList = '#' :: ' ' :: line.toList := by
      rw [hput, String.toList_append]
      rfl
    rw [hchars, Text.returnsOnlyTo_cons (by decide), Text.returnsOnlyTo_cons (by decide)]

/-- The comment of a header is read as nothing but comment lines exactly if in each line of the
header the text after a carriage return is empty or starts a comment itself. -/
theorem commentOf_marked_iff (header : String) :
    (∀ read ∈ Text.sourceLines (commentOf (some header)).toList, read.head? = some '#') ↔
      ∀ line ∈ Text.physicalLines header, Text.ReturnsOnlyTo '#' line.toList := by
  have hchars : (commentOf (some header)).toList
      = ((Text.physicalLines header).map fun line => (commentLine line).toList).flatMap
          (· ++ ['\n']) := by
    rw [commentOf_some, String.toList_join]
    simp [List.flatMap_map]
  have hwritten : ∀ line ∈ (Text.physicalLines header).map fun line => (commentLine line).toList,
      '\n' ∉ line := by
    rw [List.forall_mem_map]
    exact fun line hline =>
      lineFeed_notMem_commentLine (Text.lineFeed_notMem_of_mem_physicalLines hline)
  rw [hchars, Text.forall_sourceLines_iff (by decide) hwritten, List.forall_mem_map]
  simp only [head?_commentLine, true_and, returnsOnlyTo_commentLine]

/-- A document on a file has the header of its options, or else that of the file rules. -/
theorem header_of_create {tree : FileTree} {path : Path} {rules : FileRules}
    {options : DocumentOptions} {fileDoc : FileDocument}
    (h : (FileDocument.create tree path rules options).2 = .ok fileDoc) (todo : List DocumentStep) :
    (fileDoc.document.steps todo).options.header = options.header.or rules.header := by
  let merged := { options with header := options.header.or rules.header }
  have hcreated : ∃ sink, fileDoc.document = { create merged sink with target := some path } := by
    unfold FileDocument.create at h
    split at h
    · cases h
    · cases h
      exact ⟨none, rfl⟩
    · cases h
      exact ⟨some {}, rfl⟩
  obtain ⟨sink, hdocument⟩ := hcreated
  have hholds := (holds_create merged sink (some path)).steps todo
  rw [hdocument, hholds.options]

/-- What a header does to the output. It puts a comment in front and changes nothing else; the
comment has one complete line for each line of the header, in order, which starts with the mark and
loses nothing of the text. To the reader, all lines of the comment start with the mark exactly if in
each line of the header the text after a carriage return is empty or starts with the mark itself. A
document on a file has the header of its options, or else that of the file rules, whatever is added
to it. -/
theorem header_is_comment_in_front (doc : Document) (header : String) :
    let comment := commentOf (some header)
    (doc.headed (some header)).render = (doc.headed none).render.finish (comment ++ ·) [] ∧
    -- the lines that are written
    comment = String.join ((Text.physicalLines header).map fun line => commentLine line ++ "\n") ∧
    (∀ line ∈ Text.physicalLines header, '\n' ∉ (commentLine line).toList ∧
      (commentLine line).toList.head? = some '#' ∧
      (commentLine line = line ∨ commentLine line = "# " ++ line)) ∧
    -- the lines that are read
    ((∀ read ∈ Text.sourceLines comment.toList, read.head? = some '#') ↔
      ∀ line ∈ Text.physicalLines header, Text.ReturnsOnlyTo '#' line.toList) ∧
    -- where the header comes from
    ∀ tree path rules options fileDoc todo,
      (FileDocument.create tree path rules options).2 = .ok fileDoc →
      (fileDoc.document.steps todo).options.header = options.header.or rules.header := by
  intro comment
  refine ⟨doc.render_headed (some header), commentOf_some header, fun line hline => ⟨?_, ?_, ?_⟩,
    commentOf_marked_iff header, ?_⟩
  · exact lineFeed_notMem_commentLine (Text.lineFeed_notMem_of_mem_physicalLines hline)
  · exact head?_commentLine line
  · exact (commentLine_cases line).imp_left And.right
  · exact fun _ _ _ _ _ todo hcreate => header_of_create hcreate todo

/-- A header whose second half is read as an import. -/
theorem header_read_as_code :
    let doc := create { header := some "generated\rimport os" } none
    doc.render.result = .ok "# generated\rimport os\n\n\n" ∧
    Text.sourceLines (commentOf doc.options.header).toList
      = ["# generated".toList, "import os".toList] := by
  decide +kernel

end Document

end PlanScribe
