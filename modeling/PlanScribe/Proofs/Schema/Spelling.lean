import PlanScribe.Plan.File
import PlanScribe.Proofs.Schema.Alternatives

/-!
# Misspelt keys

A key that is none of a record's fields is never passed over: a plan that is decoded is refused as
soon as such a key is added to any of its tables, at any depth and with any value. Inside a body the
key may be a field of another statement, or stand below an entry that is tried as several kinds of
statement. The entry still has the leading key of the statement that it was, or begins with the same
items, so no other kind takes it in.
-/
namespace PlanScribe

/-- The second tree is the first one with one more key in one of its tables. The site tells as what
the first one is decoded, so that the new key is none that this record has. -/
inductive Misspelt : Site → Tree → Tree → Prop
  | key {kind : RecordKind} {before after : List (String × Tree)} {name : String} {value : Tree}
      (hname : name ∉ kind.names) :
      Misspelt (.record kind) (.table (before ++ after)) (.table (before ++ (name, value) :: after))
  | entry {kind : RecordKind} {before after : List (String × Tree)} {column : Column}
      {tree tree' : Tree} (hcolumn : column ∈ kind.columns)
      (h : Misspelt column.site tree tree') :
      Misspelt (.record kind) (.table (before ++ (column.name, tree) :: after))
        (.table (before ++ (column.name, tree') :: after))
  | field {kind : RecordKind} {before after : List Tree} {tree tree' : Tree}
      (hlength : before.length < kind.columns.length)
      (h : Misspelt kind.columns[before.length].site tree tree') :
      Misspelt (.record kind) (.array (before ++ tree :: after)) (.array (before ++ tree' :: after))
  | item {site : Site} {before after : List Tree} {tree tree' : Tree}
      (h : Misspelt site tree tree') :
      Misspelt (.list site) (.array (before ++ tree :: after)) (.array (before ++ tree' :: after))
  | statement {kind : StatementKind} {tree tree' : Tree} (hkind : (kind.read tree).isSome = true)
      (h : Misspelt (.record (.statement kind)) tree tree') : Misspelt .statement tree tree'
  | rule {before after : List (String × Tree)} {name : String} {value : Tree} :
      Misspelt .overwrite (.table (before ++ after)) (.table (before ++ (name, value) :: after))
  | payload {name : String} {before after : List (String × Tree)} {key : String} {value : Tree} :
      Misspelt .overwrite (.table [(name, .table (before ++ after))])
        (.table [(name, .table (before ++ (key, value) :: after))])

/-! ## What stays as it was -/

/-- Both are tables, with no key lost, or both are arrays that begin in the same way. -/
inductive Tree.Resembles : Tree → Tree → Prop
  | table {entries entries' : List (String × Tree)}
      (hkeys : ∀ key ∈ entries.map Prod.fst, key ∈ entries'.map Prod.fst) :
      Resembles (.table entries) (.table entries')
  | array {items items' : List Tree} (hlength : items.length = items'.length)
      (hopening : StatementKind.opening items = StatementKind.opening items') :
      Resembles (.array items) (.array items')

namespace Tree.Resembles

variable {tree tree' : Tree}

theorem isNull_eq_false (h : tree.Resembles tree') : tree.isNull = false := by
  cases h <;> rfl

theorem isNull_eq_false' (h : tree.Resembles tree') : tree'.isNull = false := by
  cases h <;> rfl

theorem text?_eq_none (h : tree.Resembles tree') : tree'.text? = none := by
  cases h <;> rfl

theorem opening_eq (h : tree.Resembles tree') (before after : List Tree) :
    StatementKind.opening (before ++ tree :: after)
      = StatementKind.opening (before ++ tree' :: after) := by
  match before, after with
  | [], [] => cases h <;> rfl
  | [], second :: _ => cases h <;> cases second <;> rfl
  | [first], _ => cases h <;> cases first <;> rfl
  | first :: second :: _, _ => cases first <;> cases second <;> rfl

end Tree.Resembles

variable {format route : Format} {site : Site} {tree tree' : Tree}

theorem Misspelt.resembles (h : Misspelt site tree tree') : tree.Resembles tree' := by
  induction h with
  | key | rule =>
    refine .table fun key hkey => ?_
    simp only [List.map_append, List.map_cons, List.mem_append, List.mem_cons] at hkey ⊢
    exact hkey.imp_right .inr
  | entry | payload =>
    refine .table fun key hkey => ?_
    simpa using hkey
  | field _ _ ih | item _ ih => exact .array (by simp) (ih.opening_eq _ _)
  | statement _ _ ih => exact ih

/-! ## What is refused -/

theorem Column.accepts_of_takes {column : Column} (hnull : tree.isNull = false)
    (h : column.Takes format (some tree)) : column.site.Accepts format tree := by
  obtain ⟨name, presence, site⟩ := column
  cases presence with
  | required =>
    obtain ⟨_, ⟨⟩, haccepts⟩ := h
    exact haccepts
  | defaulted => exact h tree rfl
  | optional => exact (h tree rfl).resolve_left (Bool.eq_false_iff.mp hnull)

/-- A field that was taken is not taken any more, if its tree is not accepted any more. -/
theorem Column.not_takes {column : Column} (h : tree.Resembles tree')
    (hlost : column.site.Accepts format tree → ¬ column.site.Accepts route tree')
    (htakes : column.Takes format (some tree)) : ¬ column.Takes route (some tree') := by
  intro htakes'
  exact hlost (accepts_of_takes h.isNull_eq_false htakes)
    (accepts_of_takes h.isNull_eq_false' htakes')

/-- An array that begins like a statement is not read as one of another kind, if it is not read as
one of its own: the kinds that begin alike are a conditional and a loop with a condition, and the
shorter one of them can be read as the other. -/
theorem StatementKind.not_read_array {kind other : StatementKind} {items items' : List Tree}
    (hlength : items.length = items'.length)
    (hopening : opening items = opening items')
    (hkind : (kind.read (.array items)).isSome = true)
    (hlost : ¬ (kind.read (.array items')).isSome = true) :
    ¬ (other.read (.array items')).isSome = true := by
  intro hother
  have hsame : kind.representative = other.representative := by
    apply Option.some.inj
    rw [← opening_of_read hkind, ← opening_of_read hother, hopening]
  by_cases heq : kind = other
  · rw [heq] at hlost
    exact hlost hother
  rcases rivals_of_representative_eq heq hsame with ⟨rfl, rfl⟩ | ⟨rfl, rfl⟩
  · exact hlost (isSome_read_whileTrue_iff.mp hother).1
  · have hshort := (isSome_read_whileTrue_iff.mp hkind).2
    exact hlost (isSome_read_whileTrue_iff.mpr ⟨hother, hlength ▸ hshort⟩)

/-- A statement is not read as one of another kind, if it is not read as one of its own. -/
theorem StatementKind.not_read {kind other : StatementKind} (h : tree.Resembles tree')
    (hkind : (kind.read tree).isSome = true) (hlost : ¬ (kind.read tree').isSome = true) :
    ¬ (other.read tree').isSome = true := by
  cases h with
  | table hkeys =>
    intro hother
    have hkey := hkeys _ (key_mem_of_read hkind)
    rw [eq_of_key_mem hkey hother] at hlost
    exact hlost hother
  | array hlength hopening => exact not_read_array hlength hopening hkind hlost

theorem Schema.length_of_overwrite {entries : List (String × Tree)}
    (h : (Schema.overwrite format (.table entries)).isSome = true) : entries.length = 1 := by
  match entries with
  | [] | _ :: _ :: _ => cases h
  | [_] => rfl

/-- What is accepted in a place is not accepted any more once a key in it is misspelt, whichever of
the two formats is read. -/
theorem Misspelt.not_accepts (h : Misspelt site tree tree') (haccepts : site.Accepts format tree) :
    ¬ site.Accepts route tree' := by
  induction h with
  | @key kind before after name value hname =>
    intro haccepts'
    obtain ⟨hknown, -, -⟩ := (RecordKind.accepts_table_iff route kind _).mp haccepts'
    exact hname (hknown name (by simp))
  | @entry kind before after column tree tree' hcolumn h ih =>
    intro haccepts'
    obtain ⟨-, hnodup, hcells⟩ := (RecordKind.accepts_table_iff format kind _).mp haccepts
    obtain ⟨-, hnodup', hcells'⟩ := (RecordKind.accepts_table_iff route kind _).mp haccepts'
    have hcell := hcells column hcolumn
    have hcell' := hcells' column hcolumn
    rw [Record.lookup_middle hnodup] at hcell
    rw [Record.lookup_middle hnodup'] at hcell'
    exact Column.not_takes h.resembles ih hcell hcell'
  | @field kind before after tree tree' hlength h ih =>
    intro haccepts'
    obtain ⟨-, hcells⟩ := (RecordKind.accepts_array_iff format kind _).mp haccepts
    obtain ⟨-, hcells'⟩ := (RecordKind.accepts_array_iff route kind _).mp haccepts'
    have hmiddle (t : Tree) : (before ++ t :: after)[before.length]? = some t := by simp
    have hcell := hcells before.length hlength
    have hcell' := hcells' before.length hlength
    rw [hmiddle] at hcell hcell'
    exact Column.not_takes h.resembles ih hcell hcell'
  | @item site before after tree tree' h ih =>
    rintro ⟨items', ⟨⟩, hitems'⟩
    obtain ⟨items, ⟨⟩, hitems⟩ := haccepts
    exact ih (hitems tree (by simp)) (hitems' tree' (by simp))
  | @statement kind tree tree' hkind h ih =>
    -- the new key may be a field of another kind, so all kinds have to be ruled out
    intro haccepts'
    have hresembles := h.resembles
    obtain ⟨other, hother⟩ :=
      EntryKind.exists_read_of_statement hresembles.text?_eq_none haccepts'
    exact StatementKind.not_read hresembles hkind (ih hkind) hother
  | @rule before after name value =>
    intro haccepts'
    have hlength := Schema.length_of_overwrite haccepts
    have hlength' := Schema.length_of_overwrite haccepts'
    simp only [List.length_append, List.length_cons] at hlength hlength'
    omega
  | @payload name before after key value =>
    intro haccepts'
    have hunit : route.isUnit (.table (before ++ (key, value) :: after)) = false := by
      cases route <;> cases before <;> rfl
    rw [Site.Accepts, Schema.overwrite, hunit] at haccepts'
    cases haccepts'

/-- A plan that is decoded is refused by both routes when a key is added that is no field of the
record it is added to. -/
theorem misspelt_refused {format : Format} {tree tree' : Tree}
    (hplan : (Schema.plan format tree).isSome = true) (h : Misspelt (.record .plan) tree tree')
    (route : Format) :
    Schema.plan route tree' = none ∧
      ∀ source : Source, route.read? source.text = some tree' →
        Plan.load route source = .error (route.malformed source.filename) := by
  have hnone : Schema.plan route tree' = none :=
    Option.not_isSome_iff_eq_none.mp (h.not_accepts hplan)
  refine ⟨hnone, fun source hread => ?_⟩
  rw [Plan.load, Plan.parse, hread, Option.bind_some, hnone]

/-- A plan with a statement in a branch of a conditional. -/
def Tree.planOfBranch (entry : Tree) : Tree :=
  .table [("functions", .array [.table [("name", .text "f"), ("body", .array
    [.table [("if", .text "c"), ("elif", .array
      [.table [("if", .text "d"), ("then", .array [.text "x = 1", entry])]])]])]])]

/-- The key `then` belongs to a conditional and to a branch, but not to a loop inside one. -/
theorem misspelt_refused_then_of_while :
    (Schema.plan .toml (Tree.planOfBranch (.table [("while", .text "e")]))).isSome = true ∧
      Misspelt (.record .plan) (Tree.planOfBranch (.table [("while", .text "e")]))
        (Tree.planOfBranch (.table [("while", .text "e"), ("then", .array [])])) ∧
      Schema.plan .json (Tree.planOfBranch (.table [("while", .text "e"), ("then", .array [])]))
        = none := by
  have hplan : (Schema.plan .toml
      (Tree.planOfBranch (.table [("while", .text "e")]))).isSome = true := rfl
  have hloop : Misspelt (.record (.statement .whileTrue)) (.table [("while", .text "e")])
      (.table [("while", .text "e"), ("then", .array [])]) :=
    @Misspelt.key (.statement .whileTrue) [("while", .text "e")] [] "then" (.array []) (by decide)
  have hbranch : Misspelt (.record .branch)
      (.table [("if", .text "d"), ("then", .array [.text "x = 1", .table [("while", .text "e")]])])
      (.table [("if", .text "d"), ("then", .array
        [.text "x = 1", .table [("while", .text "e"), ("then", .array [])]])]) :=
    @Misspelt.entry .branch [("if", .text "d")] [] ⟨"then", .defaulted, .list .statement⟩ _ _
      (by simp [RecordKind.columns])
      (@Misspelt.item .statement [.text "x = 1"] [] _ _
        (@Misspelt.statement .whileTrue _ _ rfl hloop))
  have hbody : Misspelt .statement _ _ :=
    @Misspelt.statement .cond _ _ rfl
      (@Misspelt.entry (.statement .cond) [("if", .text "c")] []
        ⟨"elif", .defaulted, .list (.record .branch)⟩ _ _ (by simp [RecordKind.columns])
        (@Misspelt.item (.record .branch) [] [] _ _ hbranch))
  have hfunction : Misspelt (.record .function) _ _ :=
    @Misspelt.entry .function [("name", .text "f")] [] ⟨"body", .defaulted, .list .statement⟩ _ _
      (by simp [RecordKind.columns]) (@Misspelt.item .statement [] [] _ _ hbody)
  have hmisspelt : Misspelt (.record .plan) _ _ :=
    @Misspelt.entry .plan [] [] ⟨"functions", .defaulted, .list (.record .function)⟩ _ _
      (by simp [RecordKind.columns]) (@Misspelt.item (.record .function) [] [] _ _ hfunction)
  exact ⟨hplan, hmisspelt, (misspelt_refused hplan hmisspelt .json).1⟩

end PlanScribe
