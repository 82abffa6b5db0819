import PlanScribe.Layout.ScopeStack
import PlanScribe.Proofs.Layout.Margins

/-!
# Open scopes

A step acts on one of the open scopes: it writes into the innermost one, opens a child of it, or
closes it, and then the scope around it is given its lines or is left alone. All that happens to a
scope as long as it is open is that complete lines are added at its end. The lines of a scope are
counted, and each of them is empty or stands behind the margin of the scope and can be seen, unless
rendered text was appended as it is.
-/
namespace PlanScribe

namespace Scope

/-- The text is made of lines with their line feeds, as many as are counted. Each line is empty, or
it stands behind the units of the depth of the scope, at least, and is not white space alone. -/
structure LaidOut (scope : Scope) : Prop where
  ended : scope.text = "" ∨ ∃ earlier, scope.text = earlier ++ "\n"
  counted : scope.buffer.lineCount = scope.text.toList.count '\n'
  indented : ∀ line ∈ scope.text.toList.splitOn '\n',
    IndentedAt scope.indent scope.depth (String.ofList line)

/-- The scope later on: its text has more at its end, and nothing else has changed. -/
structure GrowsTo (earlier later : Scope) : Prop where
  depth : later.depth = earlier.depth
  indent : later.indent = earlier.indent
  text : ∃ added, later.text = earlier.text ++ added

/-- The entries that a step writes into the innermost scope. -/
def written (scope : Scope) : ScopeStep → List String
  | .write text => indentedLines scope.indent scope.depth text
  | .writeFilled template arguments =>
    match interpolate template arguments with
    | .ok text => indentedLines scope.indent scope.depth text
    | .error _ => []
  | .blank => [""]
  | .append buffer => buffer.entries
  | .child | .splice | .drop => []

variable {template : String} {arguments : List String}

theorem written_of_filled (scope : Scope) {text : String}
    (h : interpolate template arguments = .ok text) :
    scope.written (.writeFilled template arguments)
      = indentedLines scope.indent scope.depth text := by
  simp only [written, h]

theorem written_of_unfilled (scope : Scope) {e : Template.Error}
    (h : interpolate template arguments = .error e) :
    scope.written (.writeFilled template arguments) = [] := by
  simp only [written, h]

end Scope

/-- The step puts in no rendered text as it is. -/
def ScopeStep.Indents : ScopeStep → Prop
  | .append _ => False
  | _ => True

/-! ## Lines at a depth -/

/-- Each entry is one line, empty or behind the margin of the depth. -/
def LinesAt (indent : Indent) (depth : Nat) (entries : List String) : Prop :=
  ∀ entry ∈ entries, '\n' ∉ entry.toList ∧ IndentedAt indent depth entry

theorem linesAt_nil (indent : Indent) (depth : Nat) : LinesAt indent depth [] := by
  intro entry hentry
  cases hentry

theorem linesAt_indentedLines (indent : Indent) (depth : Nat) (text : String) :
    LinesAt indent depth (indentedLines indent depth text) := by
  intro entry hentry
  exact ⟨lineFeed_notMem_of_mem_indentedLines hentry,
    indentedAt_indentedLines indent depth text entry hentry⟩

section

variable {indent : Indent} {depth : Nat} {first second entries : List String}

theorem LinesAt.append (hfirst : LinesAt indent depth first)
    (hsecond : LinesAt indent depth second) : LinesAt indent depth (first ++ second) := by
  intro entry hentry
  rcases List.mem_append.mp hentry with hentry | hentry
  · exact hfirst entry hentry
  · exact hsecond entry hentry

theorem LinesAt.of_deeper (h : LinesAt indent (depth + 1) entries) :
    LinesAt indent depth entries := by
  intro entry hentry
  exact ⟨(h entry hentry).1, (h entry hentry).2.of_deeper⟩

end

/-! ## Complete lines -/

theorem Buffer.toList_text (buffer : Buffer) :
    buffer.text.toList = buffer.entries.flatMap fun entry => entry.toList ++ ['\n'] := by
  rw [text, String.toList_join, List.flatMap_map]
  simp only [String.toList_append]
  rfl

/-- Complete lines come apart at their line feeds, with nothing behind the last. -/
theorem splitOn_lines {entries : List String} (h : ∀ entry ∈ entries, '\n' ∉ entry.toList) :
    (entries.flatMap fun entry => entry.toList ++ ['\n']).splitOn '\n'
      = entries.map String.toList ++ [[]] := by
  induction entries with
  | nil => rfl
  | cons entry rest ih =>
    obtain ⟨hentry, hrest⟩ := List.forall_mem_cons.mp h
    rw [List.flatMap_cons, List.append_assoc, List.singleton_append,
      List.splitOn_append_cons_self_of_not_mem hentry, ih hrest]
    rfl

theorem count_lines {entries : List String} (h : ∀ entry ∈ entries, '\n' ∉ entry.toList) :
    (entries.flatMap fun entry => entry.toList ++ ['\n']).count '\n' = entries.length := by
  induction entries with
  | nil => rfl
  | cons entry rest ih =>
    obtain ⟨hentry, hrest⟩ := List.forall_mem_cons.mp h
    rw [List.flatMap_cons, List.count_append, List.count_append, List.count_eq_zero.mpr hentry,
      ih hrest, List.count_singleton_self, List.length_cons]
    omega

/-! ## What a scope holds -/

namespace Scope

theorem linesAt_written (scope : Scope) {step : ScopeStep} (h : step.Indents) :
    LinesAt scope.indent scope.depth (scope.written step) := by
  cases step with
  | write text => exact linesAt_indentedLines _ _ text
  | writeFilled template arguments =>
    cases hfilled : interpolate template arguments with
    | ok text =>
      rw [written_of_filled scope hfilled]
      exact linesAt_indentedLines _ _ text
    | error e =>
      rw [written_of_unfilled scope hfilled]
      exact linesAt_nil _ _
  | blank =>
    intro entry hentry
    rw [List.mem_singleton.mp hentry]
    exact ⟨List.not_mem_nil, .inl rfl⟩
  | append buffer => exact h.elim
  | child | splice | drop => exact linesAt_nil _ _

/-- A scope is laid out if its entries are lines at its depth. -/
theorem laidOut_of_linesAt {scope : Scope}
    (h : LinesAt scope.indent scope.depth scope.buffer.entries) : scope.LaidOut := by
  have hlines : ∀ entry ∈ scope.buffer.entries, '\n' ∉ entry.toList :=
    fun entry hentry => (h entry hentry).1
  refine ⟨?_, ?_, ?_⟩
  · rcases List.eq_nil_or_concat' scope.buffer.entries with hnil | ⟨earlier, last, hlast⟩
    · refine .inl ?_
      rw [text, Buffer.text, hnil]
      rfl
    · refine .inr ⟨String.join (earlier.map fun entry => entry ++ "\n") ++ last, ?_⟩
      rw [text, Buffer.text, hlast, List.map_append, String.join_append, String.append_assoc]
      simp
  · rw [text, Buffer.toList_text, count_lines hlines]
    rfl
  · intro line hline
    rw [text, Buffer.toList_text, splitOn_lines hlines] at hline
    rcases List.mem_append.mp hline with hwritten | hend
    · obtain ⟨entry, hentry, rfl⟩ := List.mem_map.mp hwritten
      rw [String.ofList_toList]
      exact (h entry hentry).2
    · rw [List.mem_singleton.mp hend]
      exact .inl rfl

theorem GrowsTo.refl (scope : Scope) : scope.GrowsTo scope :=
  ⟨rfl, rfl, "", String.append_empty.symm⟩

theorem GrowsTo.trans {a b c : Scope} (hab : a.GrowsTo b) (hbc : b.GrowsTo c) : a.GrowsTo c := by
  obtain ⟨first, hfirst⟩ := hab.text
  obtain ⟨second, hsecond⟩ := hbc.text
  refine ⟨hbc.depth.trans hab.depth, hbc.indent.trans hab.indent, first ++ second, ?_⟩
  rw [hsecond, hfirst, String.append_assoc]

theorem growsTo_extend (scope : Scope) (entries : List String) :
    scope.GrowsTo (scope.extend entries) :=
  ⟨rfl, rfl, (Buffer.ofEntries entries).text, Buffer.text_append _ _⟩

end Scope

/-! ## One step -/

namespace ScopeStack

/-- One empty scope, with no other around it. -/
def fresh (depth : Nat) (indent : Indent) : ScopeStack := { top := .atDepth depth indent }

/-- The open scopes, the outermost one first. -/
def scopes (stack : ScopeStack) : List Scope := (stack.top :: stack.outer).reverse

/-- What a step does. Besides opening a child, and closing one with or without its lines, it adds
lines to the innermost scope; a step that fails, like one that would close the outermost scope, adds
none. -/
inductive Moves : ScopeStep → ScopeStack → ScopeStack → Prop
  | opens {top outer} : Moves .child ⟨top, outer⟩ ⟨top.child, top :: outer⟩
  | splices {top parent rest} :
    Moves .splice ⟨top, parent :: rest⟩ ⟨parent.extend top.buffer.entries, rest⟩
  | drops {top parent rest} : Moves .drop ⟨top, parent :: rest⟩ ⟨parent, rest⟩
  | writes {step top outer} (hchild : step ≠ .child)
    (hlast : step = .splice ∨ step = .drop → outer = []) :
    Moves step ⟨top, outer⟩ ⟨top.extend (top.written step), outer⟩

theorem run_singleton (stack : ScopeStack) (step : ScopeStep) :
    stack.run [step] = (stack.step step).toOption.getD stack := rfl

theorem moves_run (stack : ScopeStack) (step : ScopeStep) :
    Moves step stack (stack.run [step]) := by
  obtain ⟨top, outer⟩ := stack
  -- a step that fails leaves the stack as it is, which is to add no lines
  have hidle (hchild : step ≠ .child) (hlast : step = .splice ∨ step = .drop → outer = [])
      (hwritten : top.written step = []) : Moves step ⟨top, outer⟩ ⟨top, outer⟩ := by
    have hmoves : Moves step ⟨top, outer⟩ ⟨top.extend (top.written step), outer⟩ :=
      .writes hchild hlast
    rwa [hwritten, Scope.extend_nil] at hmoves
  cases step with
  | write text => exact .writes (by simp) (by simp)
  | writeFilled template arguments =>
    cases hfilled : interpolate template arguments with
    | ok text =>
      have hrun : (ScopeStack.mk top outer).run [.writeFilled template arguments]
          = ⟨top.extend (top.written (.writeFilled template arguments)), outer⟩ := by
        rw [run_singleton, step, Scope.writeFilled, hfilled, top.written_of_filled hfilled]
        rfl
      rw [hrun]
      exact .writes (by simp) (by simp)
    | error e =>
      have hrun : (ScopeStack.mk top outer).run [.writeFilled template arguments]
          = ⟨top, outer⟩ := by
        rw [run_singleton, step, Scope.writeFilled, hfilled]
        rfl
      rw [hrun]
      exact hidle (by simp) (by simp) (top.written_of_unfilled hfilled)
  | blank => exact .writes (by simp) (by simp)
  | append buffer => exact .writes (by simp) (by simp)
  | child => exact .opens
  | splice =>
    cases outer with
    | nil => exact hidle (by simp) (fun _ => rfl) rfl
    | cons parent rest => exact .splices
  | drop =>
    cases outer with
    | nil => exact hidle (by simp) (fun _ => rfl) rfl
    | cons parent rest => exact .drops

/-! ## Scopes grow -/

theorem scopes_eq (top : Scope) (outer : List Scope) :
    (ScopeStack.mk top outer).scopes = outer.reverse ++ [top] := List.reverse_cons

theorem length_scopes (stack : ScopeStack) : stack.scopes.length = stack.openCount := by
  rw [scopes, List.length_reverse]
  rfl

/-- Where at most one of two lists goes on behind a scope, the two are compared level by level. -/
theorem exists_growsTo {around inner inner' : List Scope} {scope scope' : Scope}
    (hgrows : scope.GrowsTo scope') (hends : inner = [] ∨ inner' = []) {level : Nat}
    (hbefore : level < (around ++ scope :: inner).length)
    (hafter : level < (around ++ scope' :: inner').length) :
    ∃ earlier later, (around ++ scope :: inner)[level]? = some earlier ∧
      (around ++ scope' :: inner')[level]? = some later ∧ earlier.GrowsTo later := by
  rcases Nat.lt_or_ge level around.length with hlevel | hlevel
  · refine ⟨around[level], around[level], ?_, ?_, .refl _⟩
    · rw [List.getElem?_append_left hlevel, List.getElem?_eq_getElem hlevel]
    · rw [List.getElem?_append_left hlevel, List.getElem?_eq_getElem hlevel]
  · have hlast : level = around.length := by
      simp only [List.length_append, List.length_cons] at hbefore hafter
      rcases hends with rfl | rfl
      · rw [List.length_nil] at hbefore
        omega
      · rw [List.length_nil] at hafter
        omega
    subst hlast
    exact ⟨scope, scope', by simp, by simp, hgrows⟩

theorem Moves.growsTo {step : ScopeStep} {stack next : ScopeStack} (h : Moves step stack next)
    {level : Nat} (hbefore : level < stack.openCount) (hafter : level < next.openCount) :
    ∃ earlier later, stack.scopes[level]? = some earlier ∧ next.scopes[level]? = some later ∧
      earlier.GrowsTo later := by
  rw [← length_scopes] at hbefore hafter
  cases h with
  | @opens top outer =>
    have hnext : (ScopeStack.mk top.child (top :: outer)).scopes
        = outer.reverse ++ top :: [top.child] := by simp [scopes]
    rw [scopes_eq] at hbefore ⊢
    rw [hnext] at hafter ⊢
    exact exists_growsTo (.refl top) (.inl rfl) hbefore hafter
  | @splices top parent rest =>
    have hstack : (ScopeStack.mk top (parent :: rest)).scopes
        = rest.reverse ++ parent :: [top] := by simp [scopes]
    rw [hstack] at hbefore ⊢
    rw [scopes_eq] at hafter ⊢
    exact exists_growsTo (parent.growsTo_extend _) (.inr rfl) hbefore hafter
  | @drops top parent rest =>
    have hstack : (ScopeStack.mk top (parent :: rest)).scopes
        = rest.reverse ++ parent :: [top] := by simp [scopes]
    rw [hstack] at hbefore ⊢
    rw [scopes_eq] at hafter ⊢
    exact exists_growsTo (.refl parent) (.inr rfl) hbefore hafter
  | @writes _ top outer =>
    rw [scopes_eq] at hbefore hafter ⊢
    rw [scopes_eq]
    exact exists_growsTo (top.growsTo_extend _) (.inl rfl) hbefore hafter

/-- All along the steps there are more open scopes than `level`, so the one with that many around it
is never closed. -/
def StaysOpen (level : Nat) (stack : ScopeStack) (steps : List ScopeStep) : Prop :=
  ∀ done, done <+: steps → level < (stack.run done).openCount

theorem staysOpen_outermost (stack : ScopeStack) (steps : List ScopeStep) :
    StaysOpen 0 stack steps := by
  intro done _
  exact Nat.succ_pos _

theorem run_cons (stack : ScopeStack) (step : ScopeStep) (rest : List ScopeStep) :
    stack.run (step :: rest) = (stack.run [step]).run rest := rfl

theorem run_append (stack : ScopeStack) (first second : List ScopeStep) :
    stack.run (first ++ second) = (stack.run first).run second := List.foldl_append

theorem StaysOpen.growsTo {level : Nat} {stack : ScopeStack} {steps : List ScopeStep}
    (h : StaysOpen level stack steps) :
    ∃ earlier later, stack.scopes[level]? = some earlier ∧
      (stack.run steps).scopes[level]? = some later ∧ earlier.GrowsTo later := by
  induction steps generalizing stack with
  | nil =>
    have hopen : level < stack.scopes.length := by
      rw [length_scopes]
      exact h [] List.nil_prefix
    exact ⟨stack.scopes[level], stack.scopes[level], List.getElem?_eq_getElem hopen,
      List.getElem?_eq_getElem hopen, .refl _⟩
  | cons step rest ih =>
    have hrest : StaysOpen level (stack.run [step]) rest := by
      intro done hdone
      rw [← run_cons]
      exact h (step :: done) (List.cons_prefix_cons.mpr ⟨rfl, hdone⟩)
    obtain ⟨earlier, middle, hearlier, hmiddle, hfirst⟩ :=
      (moves_run stack step).growsTo (h [] List.nil_prefix) (hrest [] List.nil_prefix)
    obtain ⟨middle', later, hmiddle', hlater, hsecond⟩ := ih hrest
    obtain rfl := Option.some.inj (hmiddle.symm.trans hmiddle')
    exact ⟨earlier, later, hearlier, hlater, hfirst.trans hsecond⟩

/-! ## Scopes stay laid out -/

/-- Scopes inside of one another, the innermost one first: each is one level deeper than the next
one and holds lines of its depth. -/
def Nested (depth : Nat) (indent : Indent) : List Scope → Prop
  | [] => True
  | scope :: around =>
    (scope.depth = depth + around.length ∧ scope.indent = indent ∧
      LinesAt scope.indent scope.depth scope.buffer.entries) ∧ Nested depth indent around

section

variable {depth : Nat} {indent : Indent} {scope : Scope} {around : List Scope}

theorem Nested.extend (h : Nested depth indent (scope :: around)) {entries : List String}
    (hentries : LinesAt scope.indent scope.depth entries) :
    Nested depth indent (scope.extend entries :: around) := by
  obtain ⟨⟨hdepth, hindent, hlines⟩, haround⟩ := h
  exact ⟨⟨hdepth, hindent, hlines.append hentries⟩, haround⟩

theorem Nested.child (h : Nested depth indent (scope :: around)) :
    Nested depth indent (scope.child :: scope :: around) := by
  refine ⟨⟨?_, h.1.2.1, linesAt_nil _ _⟩, h⟩
  have hdepth := h.1.1
  change scope.depth + 1 = depth + (around.length + 1)
  omega

theorem Nested.moves {step : ScopeStep} {stack next : ScopeStack}
    (h : Nested depth indent (stack.top :: stack.outer)) (hstep : step.Indents)
    (hmoves : Moves step stack next) : Nested depth indent (next.top :: next.outer) := by
  cases hmoves with
  | opens => exact h.child
  | @splices top parent rest =>
    obtain ⟨⟨htop, hindent, hlines⟩, hparent⟩ := h
    obtain ⟨⟨hdepth, hsame, -⟩, -⟩ := id hparent
    apply hparent.extend
    apply LinesAt.of_deeper
    have hdeeper : parent.depth + 1 = top.depth := by
      simp only [List.length_cons] at htop
      omega
    rw [hdeeper, hsame, ← hindent]
    exact hlines
  | drops => exact h.2
  | @writes _ top outer => exact h.extend (top.linesAt_written hstep)

theorem nested_run {stack : ScopeStack} (h : Nested depth indent (stack.top :: stack.outer))
    {steps : List ScopeStep} (hsteps : ∀ step ∈ steps, step.Indents) :
    Nested depth indent ((stack.run steps).top :: (stack.run steps).outer) := by
  induction steps generalizing stack with
  | nil => exact h
  | cons step rest ih =>
    obtain ⟨hstep, hrest⟩ := List.forall_mem_cons.mp hsteps
    exact ih (h.moves hstep (moves_run stack step)) hrest

/-- The level of a scope is its place behind the outermost one. -/
theorem Nested.of_getElem? {scopes : List Scope} (h : Nested depth indent scopes) {level : Nat}
    (hscope : scopes.reverse[level]? = some scope) :
    scope.depth = depth + level ∧ scope.indent = indent ∧
      LinesAt scope.indent scope.depth scope.buffer.entries := by
  induction scopes with
  | nil => cases hscope
  | cons inner around ih =>
    rw [List.reverse_cons] at hscope
    rcases Nat.lt_trichotomy level around.length with hlevel | rfl | hlevel
    · rw [List.getElem?_append_left (by simpa using hlevel)] at hscope
      exact ih h.2 hscope
    · have hinner : inner = scope := by simpa using hscope
      rw [← hinner]
      exact h.1
    · rw [List.getElem?_eq_none (by simpa using Nat.succ_le_of_lt hlevel)] at hscope
      cases hscope

end

/-- What holds of scopes that are written step by step, from an empty one at any depth and with any
indentation. After any run of steps that append no rendered text, the scopes are one level deeper
each, have the indentation of the first, and are laid out. In any run a scope that stays open keeps
its depth and its indentation, and its text is only added to. A step changes one scope, to which it
adds what it was given to write, or what the child holds that it splices. -/
theorem open_scopes_laid_out (depth : Nat) (indent : Indent) :
    (∀ steps : List ScopeStep, (∀ step ∈ steps, step.Indents) →
      ∀ level scope, ((fresh depth indent).run steps).scopes[level]? = some scope →
        scope.depth = depth + level ∧ scope.indent = indent ∧ scope.LaidOut) ∧
    (∀ (before during : List ScopeStep) (level : Nat),
      StaysOpen level ((fresh depth indent).run before) during →
      ∃ earlier later, ((fresh depth indent).run before).scopes[level]? = some earlier ∧
        ((fresh depth indent).run (before ++ during)).scopes[level]? = some later ∧
        earlier.GrowsTo later) ∧
    ∀ (before : List ScopeStep) (step : ScopeStep),
      Moves step ((fresh depth indent).run before)
        ((fresh depth indent).run (before ++ [step])) := by
  refine ⟨?_, ?_, ?_⟩
  · intro steps hsteps level scope hscope
    have hfresh : Nested depth indent [(fresh depth indent).top] :=
      ⟨⟨rfl, rfl, linesAt_nil _ _⟩, trivial⟩
    obtain ⟨hdepth, hindent, hlines⟩ := (nested_run hfresh hsteps).of_getElem? hscope
    exact ⟨hdepth, hindent, Scope.laidOut_of_linesAt hlines⟩
  · intro before during level hopen
    rw [run_append]
    exact hopen.growsTo
  · intro before step
    rw [run_append]
    exact moves_run _ step

/-- A condition with one statement below it, which was filled with a text of three lines. -/
theorem open_scopes_laid_out_condition :
    let header : List ScopeStep := [.write "if ready:\r\n"]
    let body : List ScopeStep :=
      [.child, .writeFilled "{} = {}" ["x", "1 + \\\n\u2003\n2"], .splice, .blank]
    let stack := (fresh 1 .tab).run (header ++ body)
    (∀ step ∈ header ++ body, step.Indents) ∧ stack.scopes[0]? = some stack.top ∧
      stack.top.text = "\tif ready:\n\t\tx = 1 + \\\n\n\t\t2\n\n" ∧ stack.top.LaidOut ∧
      StaysOpen 0 ((fresh 1 .tab).run header) body ∧
      ((fresh 1 .tab).run header).top.GrowsTo stack.top := by
  intro header body stack
  have hsteps : ∀ step ∈ header ++ body, step.Indents := by
    simp [header, body, ScopeStep.Indents]
  obtain ⟨hlaid, hgrows, -⟩ := open_scopes_laid_out 1 .tab
  have hopen := staysOpen_outermost ((fresh 1 .tab).run header) body
  obtain ⟨earlier, later, hearlier, hlater, hlonger⟩ := hgrows header body 0 hopen
  obtain rfl := Option.some.inj hearlier
  obtain rfl := Option.some.inj hlater
  exact ⟨hsteps, rfl, by decide +kernel, (hlaid _ hsteps 0 stack.top rfl).2.2, hopen, hlonger⟩

end ScopeStack

end PlanScribe
