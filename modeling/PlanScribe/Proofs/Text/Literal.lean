import PlanScribe.Text.Lines
import Mathlib.Data.List.Basic

/-!
# Literals in triple quotes

A literal in triple quotes is read character by character: a backslash protects the next character,
and the first three quotes in a row that are not protected close the literal. A text can be enclosed
as it is if it holds no such quotes, and if nothing at its end runs into the quotes that are meant
to close it.
-/
namespace PlanScribe.Text

/-- How far a literal has been read, from behind the quotes that open it. -/
inductive Reading
  | plain
  | oneQuote
  | twoQuotes
  | escaped
  | closed
  | beyond
deriving DecidableEq, Repr

/-- An unprotected character after so many quotes in a row. -/
def Reading.unprotected (afterQuote : Reading) (c : Char) : Reading :=
  if c = '"' then afterQuote else if c = '\\' then .escaped else .plain

/-- Reads one character. -/
def Reading.next : Reading → Char → Reading
  | plain, c => unprotected oneQuote c
  | oneQuote, c => unprotected twoQuotes c
  | twoQuotes, c => unprotected closed c
  | escaped, _ => plain
  | closed, _ | beyond, _ => beyond

/-- Reads a text. -/
def Reading.readOn (s : Reading) (text : List Char) : Reading := text.foldl next s

/-- The quotes around a literal. -/
def tripleQuote : List Char := ['"', '"', '"']

/-- The text ends in an odd number of backslashes, so the character after it is protected. -/
def Protects (text : List Char) : Prop := (text.reverse.takeWhile (· == '\\')).length % 2 = 1

instance (text : List Char) : Decidable (Protects text) := inferInstanceAs (Decidable (_ = 1))

/-- A text that can stand between triple quotes as it is. -/
structure Enclosable (text : List Char) : Prop where
  quotes : ∀ before after, text = before ++ tripleQuote ++ after → Protects before
  lastQuote : ∀ before, text = before ++ ['"'] → Protects before
  lastBackslash : ∀ before, text = before ++ ['\\'] → Protects before

variable {text before : List Char} {c : Char}

/-! ## Protected characters -/

theorem protects_backslash : Protects (before ++ ['\\']) ↔ ¬ Protects before := by
  unfold Protects
  rw [List.reverse_append, List.reverse_singleton, List.singleton_append,
    List.takeWhile_cons_of_pos (by decide), List.length_cons]
  omega

theorem not_protects_other (h : c ≠ '\\') : ¬ Protects (before ++ [c]) := by
  unfold Protects
  rw [List.reverse_append, List.reverse_singleton, List.singleton_append,
    List.takeWhile_cons_of_neg (by simpa using h)]
  decide

/-! ## What has been read -/

namespace Reading

variable {s : Reading}

theorem readOn_append (s : Reading) (first second : List Char) :
    s.readOn (first ++ second) = (s.readOn first).readOn second := List.foldl_append

/-- The literal has been closed. -/
def Over (s : Reading) : Prop := s = closed ∨ s = beyond

/-- A literal that is closed stays closed. -/
theorem Over.readOn (h : s.Over) (text : List Char) : (s.readOn text).Over := by
  induction text generalizing s with
  | nil => exact h
  | cons c rest ih =>
    apply ih
    obtain rfl | rfl := h <;> exact .inr rfl

theorem over_quotes (h : s ≠ escaped) : (s.readOn tripleQuote).Over := by
  cases s with
  | escaped => exact absurd rfl h
  | plain => exact .inl rfl
  | _ => exact .inr rfl

/-- A quote or a backslash that is not protected does not leave the reading where it was. -/
theorem next_ne_plain (h : s ≠ escaped) (hc : c = '"' ∨ c = '\\') : s.next c ≠ plain := by
  cases s with
  | escaped => exact absurd rfl h
  | _ => obtain rfl | rfl := hc <;> decide

/-- What a text is like after which the reading has come to a state. -/
inductive After : List Char → Reading → Prop
  | plain {text : List Char} (h : ¬ Protects text) : After text plain
  | oneQuote {before : List Char} (h : ¬ Protects before) : After (before ++ ['"']) oneQuote
  | twoQuotes {before : List Char} (h : ¬ Protects before) :
    After (before ++ ['"', '"']) twoQuotes
  | escaped {before : List Char} (h : ¬ Protects before) : After (before ++ ['\\']) escaped
  | closed {before : List Char} (h : ¬ Protects before) : After (before ++ tripleQuote) closed
  | beyond {before after : List Char} (h : ¬ Protects before) :
    After (before ++ tripleQuote ++ after) beyond

theorem After.unprotected {afterQuote : Reading} (h : ¬ Protects text)
    (hquote : After (text ++ ['"']) afterQuote) (c : Char) :
    After (text ++ [c]) (afterQuote.unprotected c) := by
  unfold Reading.unprotected
  split_ifs with hc hb
  · rw [hc]
    exact hquote
  · rw [hb]
    exact .escaped h
  · exact .plain (not_protects_other hb)

theorem After.next (h : After text s) (c : Char) : After (text ++ [c]) (s.next c) := by
  cases h with
  | plain h => exact .unprotected h (.oneQuote h) c
  | @oneQuote before h =>
    have hquote : After (before ++ ['"'] ++ ['"']) .twoQuotes := by
      rw [List.append_assoc]
      exact .twoQuotes h
    exact .unprotected (not_protects_other (by decide)) hquote c
  | @twoQuotes before h =>
    have hlast : ¬ Protects (before ++ ['"', '"']) := by
      rw [List.append_cons]
      exact not_protects_other (by decide)
    have hquote : After (before ++ ['"', '"'] ++ ['"']) .closed := by
      rw [List.append_assoc]
      exact .closed h
    exact .unprotected hlast hquote c
  | @escaped before h =>
    -- a backslash that is protected does not protect the next character
    apply After.plain
    by_cases hc : c = '\\'
    · rw [hc, protects_backslash, protects_backslash, not_not]
      exact h
    · exact not_protects_other hc
  | closed h => exact .beyond h
  | @beyond before after h =>
    rw [List.append_assoc _ after]
    exact .beyond h

theorem After.readOn (h : After before s) (text : List Char) :
    After (before ++ text) (s.readOn text) := by
  induction text generalizing before s with
  | nil =>
    rw [List.append_nil]
    exact h
  | cons c rest ih =>
    rw [List.append_cons]
    exact ih (h.next c)

theorem after_readOn (text : List Char) : After text (plain.readOn text) := by
  have hnothing : After [] plain := .plain (by decide)
  exact hnothing.readOn text

/-- Only a backslash that is not protected itself protects what comes next. -/
theorem After.ne_escaped (h : After text s) (hprotects : ¬ Protects text) : s ≠ .escaped := by
  rintro rfl
  cases h with
  | escaped h => exact hprotects (protects_backslash.mpr h)

/-! ## Texts that can be enclosed -/

theorem readOn_tripleQuote_eq_closed_iff : s.readOn tripleQuote = closed ↔ s = plain := by
  cases s <;> decide

theorem enclosable_of_readOn (h : plain.readOn text = plain) : Enclosable text := by
  have hlast (before : List Char) (c : Char) (hc : c = '"' ∨ c = '\\')
      (htext : text = before ++ [c]) : Protects before := by
    rw [htext, readOn_append] at h
    refine Decidable.byContradiction fun hprotects => ?_
    exact next_ne_plain ((after_readOn before).ne_escaped hprotects) hc h
  constructor
  · intro before after htext
    rw [htext, readOn_append, readOn_append] at h
    refine Decidable.byContradiction fun hprotects => ?_
    have hover := (over_quotes ((after_readOn before).ne_escaped hprotects)).readOn after
    rw [h] at hover
    obtain hplain | hplain := hover <;> cases hplain
  · exact fun before htext => hlast before '"' (.inl rfl) htext
  · exact fun before htext => hlast before '\\' (.inr rfl) htext

theorem readOn_of_enclosable (h : Enclosable text) : plain.readOn text = plain := by
  -- in every other state the text ends in, or holds, what `Enclosable` rules out
  generalize hs : plain.readOn text = s
  have hafter := after_readOn text
  rw [hs] at hafter
  cases hafter with
  | plain _ => rfl
  | oneQuote hbefore => exact absurd (h.lastQuote _ rfl) hbefore
  | @twoQuotes before hbefore =>
    have hlast := h.lastQuote (before ++ ['"']) (by simp)
    exact absurd hlast (not_protects_other (by decide))
  | escaped hbefore => exact absurd (h.lastBackslash _ rfl) hbefore
  | closed hbefore => exact absurd (h.quotes _ [] (by simp)) hbefore
  | beyond hbefore => exact absurd (h.quotes _ _ rfl) hbefore

/-- A text between triple quotes is read as one literal, closed by its last character, exactly if it
can be enclosed. -/
theorem readOn_enclosed_iff (text : List Char) :
    plain.readOn (text ++ tripleQuote) = closed ↔ Enclosable text := by
  rw [readOn_append, readOn_tripleQuote_eq_closed_iff]
  exact ⟨enclosable_of_readOn, readOn_of_enclosable⟩

/-! ## Line by line -/

/-- A line is read from a state in which white space makes no difference. -/
def Settled (s : Reading) : Prop := s = plain ∨ s = beyond

theorem settled_lineFeed (s : Reading) : (s.next '\n').Settled := by
  cases s with
  | closed | beyond => exact .inr rfl
  | _ => exact .inl rfl

/-- A carriage return before a line feed makes no difference. -/
theorem next_return_lineFeed (s : Reading) : (s.next '\r').next '\n' = s.next '\n' := by
  cases s <;> rfl

theorem Settled.readOn_eq (h : s.Settled) (hquiet : ∀ c ∈ text, c ≠ '"' ∧ c ≠ '\\') :
    s.readOn text = s := by
  induction text with
  | nil => rfl
  | cons c rest ih =>
    obtain ⟨hc, hrest⟩ := List.forall_mem_cons.mp hquiet
    have hnext : s.next c = s := by
      obtain rfl | rfl := h
      · simp [Reading.next, Reading.unprotected, hc.1, hc.2]
      · rfl
    have hreadRest : s.readOn rest = s := ih hrest
    change (s.next c).readOn rest = s
    rw [hnext, hreadRest]

/-- Reading lines, one after the other, with a line feed before each but the first. -/
theorem readOn_intercalate (s : Reading) (line : List Char) (rest : List (List Char)) :
    s.readOn (['\n'].intercalate (line :: rest))
      = rest.foldl (fun s line => (s.next '\n').readOn line) (s.readOn line) := by
  induction rest generalizing s line with
  | nil => simp
  | cons next rest ih =>
    rw [List.intercalate_cons_cons, readOn_append, readOn_append, ih]
    rfl

theorem intercalate_nil_cons {rest : List (List Char)} (h : rest ≠ []) :
    ['\n'].intercalate ([] :: rest) = '\n' :: ['\n'].intercalate rest := by
  obtain ⟨line, more, rfl⟩ := List.exists_cons_of_ne_nil h
  rw [List.intercalate_cons_cons]
  rfl

theorem intercalate_cons_cons_chars (c : Char) (line : List Char) (more : List (List Char)) :
    ['\n'].intercalate ((c :: line) :: more) = c :: ['\n'].intercalate (line :: more) := by
  cases more with
  | nil => simp
  | cons next rest => simp [List.intercalate_cons_cons]

/-- A text is read like its lines, unless it ends with a line break. -/
theorem readOn_lines (h : text.getLast? ≠ some '\n') (s : Reading) :
    s.readOn (['\n'].intercalate (lines text)) = s.readOn text := by
  have hlater {d : Char} {rest : List Char} (h : (d :: rest).getLast? ≠ some '\n') :
      rest.getLast? ≠ some '\n' := by
    intro hrest
    rw [List.getLast?_cons, hrest] at h
    exact h rfl
  have hmore {rest : List Char} (h : ('\n' :: rest).getLast? ≠ some '\n') : lines rest ≠ [] := by
    rw [ne_eq, lines_eq_nil_iff]
    rintro rfl
    exact h rfl
  fun_induction lines text generalizing s with
  | case1 => rfl
  | case2 rest ih =>
    rw [intercalate_nil_cons (hmore h)]
    exact ih (hlater h) (s.next '\n')
  | case3 rest ih =>
    -- the carriage return is read in the text but does not stand in the lines
    replace h := hlater h
    rw [intercalate_nil_cons (hmore h)]
    change (s.next '\n').readOn _ = ((s.next '\r').next '\n').readOn rest
    rw [next_return_lineFeed]
    exact ih (hlater h) (s.next '\n')
  | case4 c rest hfeed hreturn hnil ih =>
    rw [lines_eq_nil_iff] at hnil
    rw [hnil]
    simp
  | case5 c rest hfeed hreturn line more hlines ih =>
    rw [intercalate_cons_cons_chars, ← hlines]
    exact ih (hlater h) (s.next c)

end Reading

end PlanScribe.Text
