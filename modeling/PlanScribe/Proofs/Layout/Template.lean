import PlanScribe.Layout.Template

/-!
# Well-formed templates

A template is well-formed if it is spelled by pieces: two braces for a brace, an opening and a
closing one for a hole, and every other character for itself. No spelling begins another one, so a
template is read in one way only, and reading stops at the first brace that begins no piece. Filling
a template succeeds exactly if it is well-formed and has as many holes as there are arguments; a
malformed template is refused before the arguments are counted.
-/
namespace PlanScribe.Template

open Text

def isBrace (c : Char) : Bool := c == '{' || c == '}'

/-- How a piece is written in a template. -/
def Piece.spelling : Piece → List Char
  | literal c => if isBrace c then [c, c] else [c]
  | hole => ['{', '}']

/-- The template that consists of the pieces. -/
def spelling (parts : List Piece) : List Char := parts.flatMap Piece.spelling

/-- The text begins with a brace at which no piece begins, for the reason given. -/
inductive Stuck : List Char → String → Prop
  | unclosed : Stuck ['{'] "unclosed '\x7b'"
  | unsupported {c : Char} {rest : List Char} (h : isBrace c = false) :
    Stuck ('{' :: c :: rest) "unsupported placeholder"
  | unmatched {rest : List Char} (h : rest.head? ≠ some '}') :
    Stuck ('}' :: rest) "unmatched '\x7d'"

theorem spelling_cons (piece : Piece) (parts : List Piece) :
    spelling (piece :: parts) = piece.spelling ++ spelling parts := List.flatMap_cons

theorem ne_brace_of_plain {c : Char} (h : isBrace c = false) : c ≠ '{' ∧ c ≠ '}' := by
  simpa [isBrace] using h

theorem Piece.spelling_plain {c : Char} (h : isBrace c = false) :
    (literal c).spelling = [c] := by
  simp [spelling, h]

/-! ## Reading what was spelled -/

theorem piecesAt_plain (position : Nat) {c : Char} (h : isBrace c = false) (rest : List Char) :
    piecesAt position (c :: rest)
      = (piecesAt (position + c.utf8Size) rest).map (.literal c :: ·) := by
  obtain ⟨hopen, hclose⟩ := ne_brace_of_plain h
  rw [piecesAt] <;> simp [hopen, hclose]

/-- A piece is read off the front of a template, whatever follows it. -/
theorem piecesAt_piece (position : Nat) (piece : Piece) (rest : List Char) :
    piecesAt position (piece.spelling ++ rest)
      = (piecesAt (position + byteLength piece.spelling) rest).map (piece :: ·) := by
  cases piece with
  | hole => rfl
  | literal c =>
    by_cases hopen : c = '{'
    · subst hopen
      rfl
    · by_cases hclose : c = '}'
      · subst hclose
        rfl
      · have hplain : isBrace c = false := by simp [isBrace, hopen, hclose]
        rw [Piece.spelling_plain hplain]
        exact piecesAt_plain position hplain rest

theorem piecesAt_spelling (position : Nat) (parts : List Piece) (rest : List Char) :
    piecesAt position (spelling parts ++ rest)
      = (piecesAt (position + byteLength (spelling parts)) rest).map (parts ++ ·) := by
  induction parts generalizing position with
  | nil =>
    change piecesAt position rest = (piecesAt position rest).map id
    cases piecesAt position rest <;> rfl
  | cons piece parts ih =>
    rw [spelling_cons, List.append_assoc, piecesAt_piece, ih, byteLength_append, Nat.add_assoc]
    cases piecesAt (position + (byteLength piece.spelling + byteLength (spelling parts))) rest <;>
      rfl

theorem piecesAt_of_stuck {rest : List Char} {reason : String} (h : Stuck rest reason) :
    ∃ fault : BraceFault, fault.reason = reason ∧
      ∀ position, piecesAt position rest = .error (.malformed position fault) := by
  cases h with
  | unclosed => exact ⟨.unclosed, rfl, fun _ => rfl⟩
  | unsupported hc =>
    obtain ⟨hopen, hclose⟩ := ne_brace_of_plain hc
    refine ⟨.unsupported, rfl, fun position => ?_⟩
    rw [piecesAt] <;> simp [hopen, hclose]
  | @unmatched rest hrest =>
    refine ⟨.unmatched, rfl, fun position => ?_⟩
    cases rest with
    | nil => rfl
    | cons c more =>
      have hclose : c ≠ '}' := by simpa using hrest
      rw [piecesAt]
      intro other hother
      exact hclose (List.cons.inj hother).1

/-! ## Where reading stops -/

/-- Reading takes the parts off the front of the text and stops at the rest: the text ends there, or
no piece begins there. -/
structure Stops (text : List Char) (parts : List Piece) (rest : List Char) : Prop where
  text : text = spelling parts ++ rest
  stop : rest = [] ∨ ∃ reason, Stuck rest reason

theorem Stops.cons {text rest : List Char} {parts : List Piece} (h : Stops text parts rest)
    (piece : Piece) : Stops (piece.spelling ++ text) (piece :: parts) rest := by
  refine ⟨?_, h.stop⟩
  rw [spelling_cons, List.append_assoc, ← h.text]

theorem stops_of_stuck {text : List Char} {reason : String} (h : Stuck text reason) :
    Stops text [] text := ⟨rfl, .inr ⟨reason, h⟩⟩

/-- Reading of any text stops somewhere. -/
theorem exists_stops (text : List Char) : ∃ parts rest, Stops text parts rest := by
  -- along the reader: each of its cases takes one piece, or is stuck
  fun_induction piecesAt 0 text with
  | case1 => exact ⟨[], [], rfl, .inl rfl⟩
  | case2 position text ih =>
    obtain ⟨parts, rest, h⟩ := ih
    exact ⟨_, rest, h.cons (.literal '{')⟩
  | case3 position text ih =>
    obtain ⟨parts, rest, h⟩ := ih
    exact ⟨_, rest, h.cons .hole⟩
  | case4 position c text hopen hclose =>
    have hplain : isBrace c = false := by simpa [isBrace] using And.intro hopen hclose
    exact ⟨_, _, stops_of_stuck (.unsupported hplain)⟩
  | case5 => exact ⟨_, _, stops_of_stuck .unclosed⟩
  | case6 position text ih =>
    obtain ⟨parts, rest, h⟩ := ih
    exact ⟨_, rest, h.cons (.literal '}')⟩
  | case7 position text hclose =>
    refine ⟨_, _, stops_of_stuck (.unmatched ?_)⟩
    cases text with
    | nil => simp
    | cons c more =>
      intro hc
      exact hclose more (by rw [Option.some.inj hc])
  | case8 position c text _ _ hcons hnil _ hclose ih =>
    obtain ⟨parts, rest, h⟩ := ih
    have hopen : c ≠ '{' := by
      intro hc
      cases text with
      | nil => exact hnil hc rfl
      | cons d more => exact hcons d more hc rfl
    have hplain : isBrace c = false := by simpa [isBrace] using And.intro hopen hclose
    have hstep := h.cons (.literal c)
    rw [Piece.spelling_plain hplain] at hstep
    exact ⟨_, rest, hstep⟩

theorem Piece.spelling_literal (c : Char) :
    (literal c).spelling = c :: if isBrace c then [c] else [] := by
  rw [spelling]
  split <;> rfl

/-- The hole is written unlike a doubled brace. -/
theorem Piece.spelling_literal_append_ne (c : Char) (first second : List Char) :
    (literal c).spelling ++ first ≠ hole.spelling ++ second := by
  rw [spelling_literal]
  intro h
  obtain ⟨hc, hrest⟩ := List.cons.inj h
  subst hc
  have hbrace : '{' = '}' := (List.cons.inj hrest).1
  exact absurd hbrace (by decide)

/-- No spelling of a piece begins that of another. -/
theorem Piece.eq_of_spelling_append {p q : Piece} {first second : List Char}
    (h : p.spelling ++ first = q.spelling ++ second) : p = q := by
  cases p with
  | hole =>
    cases q with
    | hole => rfl
    | literal d => exact absurd h.symm (spelling_literal_append_ne d second first)
  | literal c =>
    cases q with
    | hole => exact absurd h (spelling_literal_append_ne c first second)
    | literal d =>
      rw [spelling_literal, spelling_literal] at h
      exact congrArg literal (List.cons.inj h).1

theorem Piece.spelling_ne_nil (piece : Piece) : piece.spelling ≠ [] := by
  cases piece with
  | hole => exact List.cons_ne_nil _ _
  | literal c =>
    rw [spelling_literal]
    exact List.cons_ne_nil _ _

/-- Where reading is stuck, no piece begins. -/
theorem Stuck.ne_spelling_append {text : List Char} {reason : String} (h : Stuck text reason)
    (piece : Piece) (rest : List Char) : text ≠ piece.spelling ++ rest := by
  intro heq
  cases h with
  | unclosed =>
    cases piece with
    | hole => cases heq
    | literal c =>
      rw [Piece.spelling_literal] at heq
      obtain ⟨rfl, hrest⟩ := List.cons.inj heq
      cases hrest
  | unsupported hplain =>
    obtain ⟨hopen, hclose⟩ := ne_brace_of_plain hplain
    cases piece with
    | hole => exact hclose (List.cons.inj (List.cons.inj heq).2).1
    | literal c =>
      rw [Piece.spelling_literal] at heq
      obtain ⟨rfl, hrest⟩ := List.cons.inj heq
      exact hopen (List.cons.inj hrest).1
  | unmatched hrest =>
    cases piece with
    | hole => exact absurd (List.cons.inj heq).1 (by decide)
    | literal c =>
      rw [Piece.spelling_literal] at heq
      obtain ⟨rfl, rfl⟩ := List.cons.inj heq
      exact hrest rfl

/-- The parts that reading takes are the most that the text begins with. -/
theorem Stops.prefix_of_spelling {text rest : List Char} {parts : List Piece}
    (h : Stops text parts rest) (others : List Piece) (hothers : spelling others <+: text) :
    others <+: parts := by
  induction others generalizing text parts with
  | nil => exact List.nil_prefix
  | cons piece others ih =>
    obtain ⟨tail, htail⟩ := hothers
    rw [spelling_cons, List.append_assoc, h.text] at htail
    cases parts with
    | nil =>
      rcases h.stop with hnil | ⟨reason, hstuck⟩
      · rw [hnil] at htail
        exact absurd (List.append_eq_nil_iff.mp htail).1 piece.spelling_ne_nil
      · exact absurd htail.symm (hstuck.ne_spelling_append piece _)
    | cons own parts =>
      rw [spelling_cons, List.append_assoc] at htail
      obtain rfl := Piece.eq_of_spelling_append htail
      have hrest := List.append_cancel_left htail
      have hown : Stops (spelling parts ++ rest) parts rest := ⟨rfl, h.stop⟩
      exact List.cons_prefix_cons.mpr ⟨rfl, ih hown ⟨tail, hrest⟩⟩

/-! ## The reader -/

theorem pieces_spelling {template : String} {parts : List Piece}
    (h : template.toList = spelling parts) : pieces template = .ok parts := by
  have hread := piecesAt_spelling 0 parts []
  rw [List.append_nil] at hread
  rw [pieces, h, hread]
  exact congrArg Except.ok (List.append_nil parts)

theorem pieces_of_stuck {template : String} {parts : List Piece} {rest : List Char}
    {reason : String} (h : template.toList = spelling parts ++ rest) (hstuck : Stuck rest reason) :
    ∃ fault : BraceFault, fault.reason = reason ∧
      pieces template = .error (.malformed (byteLength (spelling parts)) fault) := by
  obtain ⟨fault, hreason, herror⟩ := piecesAt_of_stuck hstuck
  refine ⟨fault, hreason, ?_⟩
  rw [pieces, h, piecesAt_spelling, herror, Nat.zero_add]
  rfl

theorem interpolate_of_pieces {template : String} {parts : List Piece}
    (h : pieces template = .ok parts) (arguments : List String) :
    interpolate template arguments
      = if holes parts = arguments.length then .ok (String.ofList (fill parts arguments))
        else .error (.arity (holes parts) arguments.length) := by
  rw [interpolate, h]

theorem interpolate_of_malformed {template : String} {e : Error} (h : pieces template = .error e)
    (arguments : List String) : interpolate template arguments = .error e := by
  rw [interpolate, h]

/-- A template is filled exactly if it is spelled by pieces of which as many are holes as there are
arguments. One that is not spelled by pieces is refused whatever the arguments are, at the byte
where its longest spelled beginning ends; for one that is, the two counts are reported. -/
theorem interpolate_eq_ok_iff_spelled (template : String) :
    (∀ arguments, (∃ text, interpolate template arguments = .ok text) ↔
      ∃ parts, template.toList = spelling parts ∧ holes parts = arguments.length) ∧
    -- a well-formed template
    (∀ parts, template.toList = spelling parts → ∀ arguments : List String,
      interpolate template arguments
        = if holes parts = arguments.length then .ok (String.ofList (fill parts arguments))
          else .error (.arity (holes parts) arguments.length)) ∧
    -- a malformed one
    ((∀ parts, template.toList ≠ spelling parts) →
      ∃ parts rest fault, template.toList = spelling parts ++ rest ∧
        (∀ others, spelling others <+: template.toList → others <+: parts) ∧
        Stuck rest fault.reason ∧
        ∀ arguments, interpolate template arguments
          = .error (.malformed (byteLength (spelling parts)) fault)) := by
  have hspelled (parts : List Piece) (h : template.toList = spelling parts) :=
    interpolate_of_pieces (pieces_spelling h)
  have hmalformed (h : ∀ parts, template.toList ≠ spelling parts) :
      ∃ parts rest fault, template.toList = spelling parts ++ rest ∧
        (∀ others, spelling others <+: template.toList → others <+: parts) ∧
        Stuck rest fault.reason ∧
        ∀ arguments, interpolate template arguments
          = .error (.malformed (byteLength (spelling parts)) fault) := by
    obtain ⟨parts, rest, hstops⟩ := exists_stops template.toList
    rcases hstops.stop with rfl | ⟨reason, hstuck⟩
    · exact absurd (hstops.text.trans (List.append_nil _)) (h parts)
    · obtain ⟨fault, rfl, herror⟩ := pieces_of_stuck hstops.text hstuck
      exact ⟨parts, rest, fault, hstops.text, hstops.prefix_of_spelling, hstuck,
        interpolate_of_malformed herror⟩
  refine ⟨fun arguments => ⟨?accepted, ?filled⟩, hspelled, hmalformed⟩
  case accepted =>
    rintro ⟨text, htext⟩
    by_cases hform : ∃ parts, template.toList = spelling parts
    · obtain ⟨parts, hparts⟩ := hform
      rw [hspelled parts hparts] at htext
      split at htext
      · exact ⟨parts, hparts, ‹_›⟩
      · cases htext
    · obtain ⟨_, _, _, _, _, _, herror⟩ := hmalformed (not_exists.mp hform)
      rw [herror] at htext
      cases htext
  case filled =>
    rintro ⟨parts, hparts, hcount⟩
    rw [hspelled parts hparts, if_pos hcount]
    exact ⟨_, rfl⟩

example : interpolate "\x7b\x7b\x7b\x7d\x7d\x7d" ["x"] = .ok "\x7bx\x7d" := by rfl

end PlanScribe.Template
