import PlanScribe.Proofs.Schema.Grammar

/-!
# The alternatives of a statement

An entry of a body is a text or one of five kinds of record, and the first alternative that accepts
it wins. A table is told by its leading key. An array has no keys and is told by its first items, up
to one ambiguity: a condition, alone or with one suite after it, is a conditional and a loop.
-/
namespace PlanScribe

namespace StatementKind

variable {kind other : StatementKind} {entries : List (String × Tree)} {items : List Tree}

theorem isSome_read_table_iff :
    (kind.read (.table entries)).isSome = true ↔
      (∀ key ∈ entries.map Prod.fst, key ∈ (RecordKind.statement kind).names) ∧
        (entries.map Prod.fst).Nodup ∧
        ∀ column ∈ (RecordKind.statement kind).columns,
          column.Takes .json (entries.lookup column.name) :=
  RecordKind.accepts_table_iff .json (.statement kind) entries

theorem isSome_read_array_iff :
    (kind.read (.array items)).isSome = true ↔
      items.length ≤ (RecordKind.statement kind).columns.length ∧
        ∀ (n : Nat) (h : n < (RecordKind.statement kind).columns.length),
          (RecordKind.statement kind).columns[n].Takes .json items[n]? := by
  have haccepts := RecordKind.accepts_array_iff .json (.statement kind) items
  simp only [RecordKind.surplus, Bool.false_eq_true, false_or] at haccepts
  exact haccepts

/-! ## Leading fields -/

/-- The leading key of a statement that is written as a table. -/
def key : StatementKind → String
  | cond => "if"
  | whileTrue => "while"
  | range => "for"
  | enumerate => "enumerate"
  | assign => "assign"

/-- What stands in the leading field. -/
def leadSite : StatementKind → Site
  | assign => .record .target
  | _ => .text

theorem columns_eq_lead_cons (kind : StatementKind) :
    ∃ others, (RecordKind.statement kind).columns
      = ⟨kind.key, .required, kind.leadSite⟩ :: others := by
  cases kind <;> exact ⟨_, rfl⟩

/-- A leading key belongs to one kind only. -/
theorem key_mem_names_iff (kind other : StatementKind) :
    kind.key ∈ (RecordKind.statement other).names ↔ kind = other := by
  cases kind <;> cases other <;> decide

/-- A statement has its leading key. -/
theorem key_mem_of_read (h : (kind.read (.table entries)).isSome = true) :
    kind.key ∈ entries.map Prod.fst := by
  obtain ⟨-, -, hcolumns⟩ := isSome_read_table_iff.mp h
  obtain ⟨others, hlead⟩ := kind.columns_eq_lead_cons
  rw [hlead] at hcolumns
  obtain ⟨tree, htree, -⟩ := hcolumns _ List.mem_cons_self
  obtain ⟨before, after, hentries, -⟩ := List.lookup_eq_some_iff.mp htree
  rw [hentries]
  simp

/-- A table is read as no other kind than that of a leading key in it. -/
theorem eq_of_key_mem (hkey : kind.key ∈ entries.map Prod.fst)
    (h : (other.read (.table entries)).isSome = true) : kind = other :=
  (key_mem_names_iff kind other).mp ((isSome_read_table_iff.mp h).1 _ hkey)

/-- The leading key in a table is that of the kind as which it is read. -/
theorem key_mem_iff_of_read (h : (kind.read (.table entries)).isSome = true) :
    other.key ∈ entries.map Prod.fst ↔ other = kind := by
  constructor
  · intro hkey
    exact eq_of_key_mem hkey h
  · rintro rfl
    exact key_mem_of_read h

/-- A statement has its leading item. -/
theorem exists_first_of_read (h : (kind.read (.array items)).isSome = true) :
    ∃ first rest, items = first :: rest ∧ kind.leadSite.Accepts .json first := by
  obtain ⟨-, hcolumns⟩ := isSome_read_array_iff.mp h
  obtain ⟨others, hlead⟩ := kind.columns_eq_lead_cons
  simp only [hlead] at hcolumns
  obtain ⟨first, hfirst, haccepts⟩ := hcolumns 0 (Nat.zero_lt_succ _)
  match items, hfirst with
  | _ :: rest, rfl => exact ⟨first, rest, rfl, haccepts⟩

/-! ## Arrays -/

/-- The kind of statement whose fields begin like the items of an array. A conditional stands for a
loop with a condition as well, which begins in the same way. -/
def opening : List Tree → Option StatementKind
  | [.text _] | .text _ :: .array _ :: _ => some cond
  | .text _ :: .integer _ :: _ => some range
  | .text _ :: .text _ :: _ => some enumerate
  | _ :: .text _ :: _ => some assign
  | _ => none

/-- The kind that stands for all that begin in the same way. -/
def representative : StatementKind → StatementKind
  | whileTrue => cond
  | kind => kind

theorem opening_of_read (h : (kind.read (.array items)).isSome = true) :
    opening items = some kind.representative := by
  obtain ⟨first, rest, rfl, hfirst⟩ := exists_first_of_read h
  have hsecond := (isSome_read_array_iff.mp h).2 1 (by cases kind <;> decide)
  cases kind with
  | cond | whileTrue =>
    obtain ⟨condition, rfl⟩ := Tree.isSome_text?_iff.mp hfirst
    cases rest with
    | nil => rfl
    | cons second more =>
      obtain ⟨inner, rfl, -⟩ := hsecond second rfl
      rfl
  | range =>
    obtain ⟨counter, rfl⟩ := Tree.isSome_text?_iff.mp hfirst
    obtain ⟨second, hrest, hstart⟩ := hsecond
    obtain ⟨start, rfl⟩ := Tree.exists_of_isSome_word? hstart
    match rest, hrest with
    | _ :: _, rfl => rfl
  | enumerate =>
    obtain ⟨iterable, rfl⟩ := Tree.isSome_text?_iff.mp hfirst
    obtain ⟨second, hrest, hindex⟩ := hsecond
    obtain ⟨index, rfl⟩ := Tree.isSome_text?_iff.mp hindex
    match rest, hrest with
    | _ :: _, rfl => rfl
  | assign =>
    obtain ⟨second, hrest, hvalue⟩ := hsecond
    obtain ⟨value, rfl⟩ := Tree.isSome_text?_iff.mp hvalue
    match rest, hrest with
    | _ :: _, rfl =>
      cases first with
      | text => cases hfirst
      | _ => rfl

/-- An array is a loop with a condition if it is a conditional that stops after the first suite. -/
theorem isSome_read_whileTrue_iff :
    (whileTrue.read (.array items)).isSome = true ↔
      (cond.read (.array items)).isSome = true ∧ items.length ≤ 2 := by
  rw [isSome_read_array_iff, isSome_read_array_iff]
  -- the two kinds agree on the first two columns, and a conditional may do without the others
  constructor
  · rintro ⟨hlength, hcolumns⟩
    have hshort : items.length ≤ 2 := hlength
    refine ⟨⟨Nat.le_trans hshort (by decide), fun n hn => ?_⟩, hshort⟩
    match n with
    | 0 => exact hcolumns 0 (by decide)
    | 1 => exact hcolumns 1 (by decide)
    | 2 | 3 =>
      rw [List.getElem?_eq_none (by omega)]
      exact fun _ hcell => nomatch hcell
  · rintro ⟨⟨-, hcolumns⟩, hshort⟩
    refine ⟨hshort, fun n hn => ?_⟩
    match n with
    | 0 => exact hcolumns 0 (by decide)
    | 1 => exact hcolumns 1 (by decide)

theorem read_text (kind : StatementKind) (value : String) : kind.read (.text value) = none := by
  cases kind <;> rfl

/-- The kinds that begin alike are a conditional and a loop with a condition. -/
theorem rivals_of_representative_eq (hne : kind ≠ other)
    (h : kind.representative = other.representative) :
    kind = cond ∧ other = whileTrue ∨ kind = whileTrue ∧ other = cond := by
  revert hne h
  cases kind <;> cases other <;> decide

/-- Two kinds read the same tree only if it is an array that is a conditional and a loop. -/
theorem ambiguous_of_read {tree : Tree} (hne : kind ≠ other) (h : (kind.read tree).isSome = true)
    (hother : (other.read tree).isSome = true) :
    (kind = cond ∧ other = whileTrue ∨ kind = whileTrue ∧ other = cond) ∧
      ∃ items, tree = .array items := by
  cases tree with
  | array items =>
    have hsame : kind.representative = other.representative :=
      Option.some.inj ((opening_of_read h).symm.trans (opening_of_read hother))
    exact ⟨rivals_of_representative_eq hne hsame, items, rfl⟩
  | table entries => exact absurd (eq_of_key_mem (key_mem_of_read h) hother) hne
  | _ => cases kind <;> cases h

end StatementKind

/-- A condition, alone or with the statements of one suite, as an array. -/
def Tree.Ambiguous (tree : Tree) : Prop :=
  ∃ condition rest, tree = .array (.text condition :: rest) ∧
    (rest = [] ∨ ∃ body, rest = [.array body] ∧ ∀ entry ∈ body, entry.roles.statement.isSome = true)

theorem Tree.ambiguous_array_iff (items : List Tree) :
    (array items).Ambiguous ↔ (StatementKind.whileTrue.read (.array items)).isSome = true := by
  rw [StatementKind.isSome_read_array_iff]
  constructor
  · rintro ⟨condition, rest, hitems, hrest⟩
    obtain rfl := Tree.array.inj hitems
    have hcondition : Presence.required.Takes (Site.text.Accepts .json) (some (.text condition)) :=
      ⟨_, rfl, rfl⟩
    rcases hrest with rfl | ⟨body, rfl, hbody⟩
    · refine ⟨Nat.le_succ 1, fun n hn => ?_⟩
      match n with
      | 0 => exact hcondition
      | 1 => exact fun _ hcell => nomatch hcell
    · refine ⟨Nat.le_refl 2, fun n hn => ?_⟩
      match n with
      | 0 => exact hcondition
      | 1 =>
        rintro suite ⟨⟩
        exact ⟨body, rfl, hbody⟩
  · rintro ⟨hlength, hcolumns⟩
    obtain ⟨first, hfirst, htext⟩ := hcolumns 0 (by decide)
    have hsuite := hcolumns 1 (by decide)
    obtain ⟨condition, rfl⟩ := isSome_text?_iff.mp htext
    match items, hfirst with
    | [_], rfl => exact ⟨condition, [], rfl, .inl rfl⟩
    | [_, second], rfl =>
      obtain ⟨body, rfl, hbody⟩ := hsuite second rfl
      exact ⟨condition, _, rfl, .inr ⟨body, rfl, hbody⟩⟩

/-- The alternatives for an entry of a body. -/
inductive EntryKind
  | line
  | record (kind : StatementKind)
deriving DecidableEq, Repr

namespace EntryKind

/-- The alternatives in the order in which they are tried. -/
def standard : List EntryKind := .line :: StatementKind.all.map .record

/-- The statement that the alternative makes of a text or a record. -/
def choose (text : Option String) (row : Roles.Row) : EntryKind → Option Statement
  | line => text.map .line
  | record kind => kind.ofRow row

/-- The statement that the alternative makes of a tree. -/
def read (alternative : EntryKind) (tree : Tree) : Option Statement :=
  alternative.choose tree.text? tree.cells

/-- One of the two is a conditional and the other a loop with a condition. -/
def Rivals (a b : EntryKind) : Prop :=
  a = record .cond ∧ b = record .whileTrue ∨ a = record .whileTrue ∧ b = record .cond

variable {a b : EntryKind} {tree : Tree}

/-- Two alternatives accept the same tree only if they are the rivals and it is ambiguous. -/
theorem read_both_iff (hne : a ≠ b) :
    (a.read tree).isSome = true ∧ (b.read tree).isSome = true ↔ Rivals a b ∧ tree.Ambiguous := by
  constructor
  · rintro ⟨ha, hb⟩
    cases a with
    | line =>
      cases b with
      | line => exact absurd rfl hne
      | record kind =>
        rw [read, choose, Option.isSome_map] at ha
        obtain ⟨value, rfl⟩ := Tree.isSome_text?_iff.mp ha
        exact absurd (kind.read_text value) (Option.isSome_iff_ne_none.mp hb)
    | record kind =>
      cases b with
      | line =>
        rw [read, choose, Option.isSome_map] at hb
        obtain ⟨value, rfl⟩ := Tree.isSome_text?_iff.mp hb
        exact absurd (kind.read_text value) (Option.isSome_iff_ne_none.mp ha)
      | record other =>
        have hkinds : kind ≠ other := fun h => hne (congrArg record h)
        obtain ⟨hrivals, items, rfl⟩ := StatementKind.ambiguous_of_read hkinds ha hb
        rw [Tree.ambiguous_array_iff]
        rcases hrivals with ⟨rfl, rfl⟩ | ⟨rfl, rfl⟩
        · exact ⟨.inl ⟨rfl, rfl⟩, hb⟩
        · exact ⟨.inr ⟨rfl, rfl⟩, ha⟩
  · rintro ⟨hrivals, hambiguous⟩
    obtain ⟨condition, rest, rfl, -⟩ := id hambiguous
    have hloop := (Tree.ambiguous_array_iff _).mp hambiguous
    have hcond := (StatementKind.isSome_read_whileTrue_iff.mp hloop).1
    rcases hrivals with ⟨rfl, rfl⟩ | ⟨rfl, rfl⟩
    · exact ⟨hcond, hloop⟩
    · exact ⟨hloop, hcond⟩

theorem findSome?_cons_or {α β : Type} (f : α → Option β) (first : α) (rest : List α) :
    (first :: rest).findSome? f = (f first).or (rest.findSome? f) := by
  rw [List.findSome?_cons]
  cases f first <;> rfl

/-- The statement of a node is that of the first alternative that accepts it. -/
theorem statement_roles_eq (tree : Tree) :
    tree.roles.statement = standard.findSome? (·.read tree) := by
  rw [tree.statement_roles, Roles.statement?]
  simp only [standard, StatementKind.all, read, choose, StatementKind.ofRow, List.map_cons,
    List.map_nil, findSome?_cons_or, List.findSome?_nil, Option.or_none, Option.orElse_eq_orElse,
    Option.orElse_eq_or]

theorem mem_standard (alternative : EntryKind) : alternative ∈ standard := by
  rcases alternative with _ | (_ | _ | _ | _ | _) <;> decide

/-- A table that one kind accepts is a statement of this kind. -/
theorem statement_of_read {kind : StatementKind} {entries : List (String × Tree)}
    {statement : Statement} (hread : kind.read (.table entries) = some statement) :
    (Tree.table entries).roles.statement = some statement := by
  have hkind : (kind.read (.table entries)).isSome = true := Option.isSome_of_eq_some hread
  have hfound : (standard.findSome? (·.read (.table entries))).isSome = true :=
    List.findSome?_isSome_iff.mpr ⟨record kind, mem_standard _, hkind⟩
  obtain ⟨found, hfound⟩ := Option.isSome_iff_exists.mp hfound
  rw [statement_roles_eq, hfound]
  obtain ⟨line | other, -, hother⟩ := List.exists_of_findSome?_eq_some hfound
  · cases hother
  · obtain rfl := StatementKind.eq_of_key_mem (StatementKind.key_mem_of_read hkind)
      (Option.isSome_of_eq_some hother)
    exact hother.symm.trans hread

/-- A node that is no text is a statement of one of the kinds. -/
theorem exists_read_of_statement (htext : tree.text? = none)
    (h : tree.roles.statement.isSome = true) :
    ∃ kind : StatementKind, (kind.read tree).isSome = true := by
  rw [statement_roles_eq, List.findSome?_isSome_iff] at h
  obtain ⟨line | kind, -, hread⟩ := h
  · rw [read, choose, htext] at hread
    cases hread
  · exact ⟨kind, hread⟩

end EntryKind

end PlanScribe
