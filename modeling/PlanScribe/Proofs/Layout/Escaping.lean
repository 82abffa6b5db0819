import PlanScribe.Proofs.Layout.Template

/-!
# Escaped text in templates

Doubling the braces of a text makes a template of it that is filled to the text itself, and there is
no other template of the text. Templates can be joined: each is filled with its own arguments, and
what an argument contains is never read as a part of a template.
-/
namespace PlanScribe.Template

/-- The text as a template: every brace is doubled. -/
def escape (text : String) : String :=
  String.ofList (text.toList.flatMap fun c => if c = '{' ∨ c = '}' then [c, c] else [c])

/-- The template of a single hole. -/
def singleHole : String := "\x7b\x7d"

/-- A template is filled with as many arguments as it has holes. -/
structure Fills (template : String) (arguments : List String) (parts : List Piece)
    (text : String) : Prop where
  spelled : template.toList = spelling parts
  count : holes parts = arguments.length
  filled : text.toList = fill parts arguments

theorem Fills.interpolate {template text : String} {arguments : List String} {parts : List Piece}
    (h : Fills template arguments parts text) : interpolate template arguments = .ok text := by
  rw [interpolate_of_pieces (pieces_spelling h.spelled), if_pos h.count, ← h.filled,
    String.ofList_toList]

theorem exists_fills {template text : String} {arguments : List String}
    (h : interpolate template arguments = .ok text) :
    ∃ parts, Fills template arguments parts text := by
  obtain ⟨parts, rest, hstops⟩ := exists_stops template.toList
  rcases hstops.stop with rfl | ⟨reason, hstuck⟩
  · have hspelled : template.toList = spelling parts := hstops.text.trans (List.append_nil _)
    rw [interpolate_of_pieces (pieces_spelling hspelled)] at h
    split at h
    · rename_i hcount
      cases h
      exact ⟨parts, hspelled, hcount, String.toList_ofList⟩
    · cases h
  · obtain ⟨fault, -, herror⟩ := pieces_of_stuck hstops.text hstuck
    rw [interpolate_of_malformed herror] at h
    cases h

/-! ## Joined templates -/

theorem spelling_append (first second : List Piece) :
    spelling (first ++ second) = spelling first ++ spelling second := List.flatMap_append

theorem holes_append (first second : List Piece) :
    holes (first ++ second) = holes first + holes second := List.count_append

theorem holes_literal_cons (c : Char) (parts : List Piece) :
    holes (.literal c :: parts) = holes parts := List.count_cons_of_ne (by simp)

theorem holes_hole_cons (parts : List Piece) : holes (.hole :: parts) = holes parts + 1 :=
  List.count_cons_self

/-- Arguments go to the holes in order, so those of the first template are used up by it. -/
theorem fill_append {first : List Piece} {arguments : List String}
    (h : holes first = arguments.length) (second : List Piece) (more : List String) :
    fill (first ++ second) (arguments ++ more) = fill first arguments ++ fill second more := by
  induction first generalizing arguments with
  | nil =>
    obtain rfl := List.length_eq_zero_iff.mp h.symm
    rfl
  | cons piece first ih =>
    cases piece with
    | literal c =>
      rw [holes_literal_cons] at h
      exact congrArg (c :: ·) (ih h)
    | hole =>
      rw [holes_hole_cons] at h
      cases arguments with
      | nil => cases h
      | cons argument arguments =>
        have hrest := ih (Nat.succ.inj h)
        exact (congrArg (argument.toList ++ ·) hrest).trans (List.append_assoc _ _ _).symm

section

variable {first second a b : String} {xs ys : List String} {p q : List Piece}

theorem Fills.append (hfirst : Fills first xs p a) (hsecond : Fills second ys q b) :
    Fills (first ++ second) (xs ++ ys) (p ++ q) (a ++ b) where
  spelled := by rw [String.toList_append, hfirst.spelled, hsecond.spelled, spelling_append]
  count := by rw [holes_append, hfirst.count, hsecond.count, List.length_append]
  filled := by rw [String.toList_append, hfirst.filled, hsecond.filled, fill_append hfirst.count]

end

/-! ## Escaping -/

/-- The pieces of a template without holes. -/
def literals (text : List Char) : List Piece := text.map .literal

theorem spelling_literals (text : String) :
    spelling (literals text.toList) = (escape text).toList := by
  have hspelling (c : Char) :
      (Piece.literal c).spelling = if c = '{' ∨ c = '}' then [c, c] else [c] := by
    simp [Piece.spelling, isBrace]
  rw [escape, String.toList_ofList, spelling, literals, List.flatMap_map]
  exact congrArg (List.flatMap · text.toList) (funext hspelling)

theorem holes_literals (text : List Char) : holes (literals text) = 0 := by
  simp [holes, literals, List.count_eq_zero]

theorem fill_literals (text : List Char) (arguments : List String) :
    fill (literals text) arguments = text := by
  induction text with
  | nil => rw [literals, List.map_nil, fill]
  | cons c text ih => exact congrArg (c :: ·) ih

theorem fills_escape (text : String) : Fills (escape text) [] (literals text.toList) text :=
  ⟨(spelling_literals text).symm, holes_literals _, (fill_literals _ _).symm⟩

theorem fills_singleHole (argument : String) : Fills singleHole [argument] [.hole] argument :=
  ⟨rfl, rfl, (List.append_nil _).symm⟩

/-- Without holes all pieces are characters of the text. -/
theorem eq_literals_of_holes {parts : List Piece} (h : holes parts = 0) (arguments : List String) :
    parts = literals (fill parts arguments) := by
  induction parts with
  | nil => rw [fill]; rfl
  | cons piece parts ih =>
    cases piece with
    | literal c =>
      rw [holes_literal_cons] at h
      exact congrArg (.literal c :: ·) (ih h)
    | hole =>
      rw [holes_hole_cons] at h
      cases h

/-- Only the escaped text is a template of the text. -/
theorem Fills.eq_escape {template text : String} {parts : List Piece}
    (h : Fills template [] parts text) : template = escape text := by
  have hparts := eq_literals_of_holes h.count []
  rw [← h.filled] at hparts
  apply String.toList_injective
  rw [h.spelled, hparts, spelling_literals]

/-- Literal texts, escaped, with a hole between each and the next. After the first text each comes
with the argument for the hole before it. -/
def escapedWith (first : String) (rest : List (String × String)) : String :=
  escape first ++ String.join (rest.map fun (_, text) => singleHole ++ escape text)

/-- The texts with the arguments between them, as they are. -/
def joinedWith (first : String) (rest : List (String × String)) : String :=
  first ++ String.join (rest.map fun (argument, text) => argument ++ text)

theorem exists_fills_holes (rest : List (String × String)) :
    ∃ parts, Fills (String.join (rest.map fun (_, text) => singleHole ++ escape text))
      (rest.map Prod.fst) parts
      (String.join (rest.map fun (argument, text) => argument ++ text)) := by
  induction rest with
  | nil => exact ⟨[], rfl, rfl, rfl⟩
  | cons next rest ih =>
    obtain ⟨argument, text⟩ := next
    obtain ⟨parts, hparts⟩ := ih
    have hnext := (fills_singleHole argument).append (fills_escape text)
    rw [List.map_cons, List.map_cons, List.map_cons, String.join_cons, String.join_cons]
    exact ⟨_, hnext.append hparts⟩

/-- Filling inverts escaping, whatever stands between the holes and in the arguments: the literal
texts come back with the arguments between them, neither read again. Only the escaped text is filled
to a text without any argument. Templates that can be filled can be joined, and so can their
arguments and what they are filled to. -/
theorem interpolate_inverts_escape :
    (∀ (first : String) (rest : List (String × String)),
      interpolate (escapedWith first rest) (rest.map Prod.fst) = .ok (joinedWith first rest)) ∧
    (∀ template text : String, interpolate template [] = .ok text ↔ template = escape text) ∧
    ∀ (first second : String) (xs ys : List String) (a b : String),
      interpolate first xs = .ok a → interpolate second ys = .ok b →
        interpolate (first ++ second) (xs ++ ys) = .ok (a ++ b) := by
  refine ⟨fun first rest => ?_, fun template text => ⟨fun h => ?_, ?_⟩, ?_⟩
  · obtain ⟨parts, hrest⟩ := exists_fills_holes rest
    exact ((fills_escape first).append hrest).interpolate
  · obtain ⟨parts, hparts⟩ := exists_fills h
    exact hparts.eq_escape
  · rintro rfl
    exact (fills_escape text).interpolate
  · intro first second xs ys a b hfirst hsecond
    obtain ⟨p, hp⟩ := exists_fills hfirst
    obtain ⟨q, hq⟩ := exists_fills hsecond
    exact (hp.append hq).interpolate

theorem interpolate_append_of_braces :
    interpolate "\x7b\x7b\x7b\x7d" ["\x7b\x7d"] = .ok "\x7b\x7b\x7d" ∧
    interpolate "\x7d\x7d" [] = .ok "\x7d" ∧
    interpolate ("\x7b\x7b\x7b\x7d" ++ "\x7d\x7d") (["\x7b\x7d"] ++ [])
      = .ok ("\x7b\x7b\x7d" ++ "\x7d") :=
  ⟨rfl, rfl, interpolate_inverts_escape.2.2 _ _ _ _ _ _ rfl rfl⟩

end PlanScribe.Template
