import PlanScribe.Proofs.Schema.Alternatives

/-!
# Orders of the alternatives

The decoder tries the alternatives of an entry one after the other. Here it is generalised to any
order of them: two orders decode a tree alike if no entry in it is ambiguous, and they decode all
trees alike if both try the conditional before the loop with a condition. This carries over from a
node to a whole tree, since what a node means is put together from what the nodes below it mean.
-/
namespace PlanScribe

namespace EntryKind

variable {tree : Tree}

section Earliest

variable {α β : Type} [DecidableEq α] {f : α → Option β} {order : List α} {result : β}

theorem findSome?_eq_of_earliest {first : α} (hmem : first ∈ order) (hf : f first = some result)
    (hfirst : ∀ other, (f other).isSome = true → order.idxOf first ≤ order.idxOf other) :
    order.findSome? f = some result := by
  induction order with
  | nil => cases hmem
  | cons head rest ih =>
    rw [findSome?_cons_or]
    by_cases hhead : head = first
    · rw [hhead, hf, Option.some_or]
    · -- the head would come before the first one that is accepted
      have hnone : f head = none := by
        by_contra hsome
        have hle := hfirst head (Option.isSome_iff_ne_none.mpr hsome)
        rw [List.idxOf_cons_ne rest hhead, List.idxOf_cons_self] at hle
        exact Nat.not_succ_le_zero _ hle
      rw [hnone, Option.none_or]
      refine ih ((List.mem_cons.mp hmem).resolve_left (Ne.symm hhead)) fun other hother => ?_
      have hother_ne : head ≠ other := by
        rintro rfl
        rw [hnone] at hother
        cases hother
      have hle := hfirst other hother
      rw [List.idxOf_cons_ne rest hhead, List.idxOf_cons_ne rest hother_ne] at hle
      exact Nat.le_of_succ_le_succ hle

theorem earliest_of_findSome?_eq (h : order.findSome? f = some result) :
    ∃ first, f first = some result ∧
      ∀ other, (f other).isSome = true → order.idxOf first ≤ order.idxOf other := by
  obtain ⟨before, first, after, rfl, hf, hbefore⟩ := List.findSome?_eq_some_iff.mp h
  refine ⟨first, hf, fun other hother => ?_⟩
  have hnotMem : ∀ x, (f x).isSome = true → x ∉ before := fun x hx hmem => by
    rw [hbefore x hmem] at hx
    cases hx
  rw [List.idxOf_append_of_notMem (hnotMem other hother),
    List.idxOf_append_of_notMem (hnotMem first (hf ▸ rfl)), List.idxOf_cons_self]
  omega

end Earliest

/-- The conditional is tried before the loop with a condition. -/
def CondFirst (order : List EntryKind) : Prop :=
  order.idxOf (record .cond) < order.idxOf (record .whileTrue)
deriving Decidable

theorem condFirst_standard : CondFirst standard := by decide

/-- Two orders of all alternatives take a node for the same statement. -/
theorem findSome?_read_eq {order other : List EntryKind} (hall : ∀ a, a ∈ order)
    (hother : ∀ a, a ∈ other)
    (hfirst : tree.Ambiguous → CondFirst order ∧ CondFirst other) :
    order.findSome? (·.read tree) = other.findSome? (·.read tree) := by
  cases h : other.findSome? (·.read tree) with
  | none =>
    rw [List.findSome?_eq_none_iff] at h ⊢
    exact fun alternative _ => h alternative (hother alternative)
  | some statement =>
    obtain ⟨first, hread, hearliest⟩ := earliest_of_findSome?_eq h
    refine findSome?_eq_of_earliest (hall first) hread fun second hsecond => ?_
    by_cases hne : first = second
    · exact Nat.le_of_eq (congrArg order.idxOf hne)
    obtain ⟨hrivals, hambiguous⟩ := (read_both_iff hne).mp ⟨hread ▸ rfl, hsecond⟩
    rcases hrivals with ⟨rfl, rfl⟩ | ⟨rfl, rfl⟩
    · exact Nat.le_of_lt (hfirst hambiguous).1
    · -- the other order would have come to the conditional first
      exact absurd (hearliest _ hsecond) (Nat.not_le.mpr (hfirst hambiguous).2)

theorem exists_of_read_cond {statement : Statement}
    (h : (record .cond).read tree = some statement) :
    ∃ condition body branches otherwise, statement = .cond condition body branches otherwise := by
  change Roles.cond? tree.cells = some statement at h
  unfold Roles.cond? at h
  split at h
  · simp only [Option.bind_eq_bind, Option.bind_eq_some_iff, Option.pure_def,
      Option.some.injEq] at h
    obtain ⟨condition, -, body, -, branches, -, otherwise, -, rfl⟩ := h
    exact ⟨condition, body, branches, otherwise, rfl⟩
  · cases h

theorem exists_of_read_while {statement : Statement}
    (h : (record .whileTrue).read tree = some statement) :
    ∃ condition body, statement = .loop (.whileTrue condition) body := by
  change Roles.while? tree.cells = some statement at h
  unfold Roles.while? at h
  split at h
  · simp only [Option.bind_eq_bind, Option.bind_eq_some_iff, Option.pure_def,
      Option.some.injEq] at h
    obtain ⟨condition, -, body, -, rfl⟩ := h
    exact ⟨condition, body, rfl⟩
  · cases h

/-- An ambiguous node is a loop in an order that tries the loop first. -/
theorem findSome?_eq_loop {order : List EntryKind} (hall : ∀ a, a ∈ order)
    (hambiguous : tree.Ambiguous) (hlater : ¬ CondFirst order) :
    ∃ condition body,
      order.findSome? (·.read tree) = some (.loop (.whileTrue condition) body) := by
  have hboth : ((record .whileTrue).read tree).isSome = true ∧
      ((record .cond).read tree).isSome = true :=
    (read_both_iff (by decide)).mpr ⟨.inr ⟨rfl, rfl⟩, hambiguous⟩
  obtain ⟨statement, hread⟩ := Option.isSome_iff_exists.mp hboth.1
  obtain ⟨condition, body, rfl⟩ := exists_of_read_while hread
  refine ⟨condition, body, findSome?_eq_of_earliest (hall _) hread fun other hother => ?_⟩
  by_cases hne : record .whileTrue = other
  · exact Nat.le_of_eq (congrArg order.idxOf hne)
  obtain ⟨⟨hcond, -⟩ | ⟨-, rfl⟩, -⟩ := (read_both_iff hne).mp ⟨hboth.1, hother⟩
  · exact absurd hcond (by decide)
  · exact Nat.le_of_not_lt hlater

/-- An ambiguous node is a conditional in an order that tries the conditional first. -/
theorem findSome?_eq_cond {order : List EntryKind} (hall : ∀ a, a ∈ order)
    (hambiguous : tree.Ambiguous) (hfirst : CondFirst order) :
    ∃ condition body branches otherwise,
      order.findSome? (·.read tree) = some (.cond condition body branches otherwise) := by
  have hboth : ((record .cond).read tree).isSome = true ∧
      ((record .whileTrue).read tree).isSome = true :=
    (read_both_iff (by decide)).mpr ⟨.inl ⟨rfl, rfl⟩, hambiguous⟩
  obtain ⟨statement, hread⟩ := Option.isSome_iff_exists.mp hboth.1
  obtain ⟨condition, body, branches, otherwise, rfl⟩ := exists_of_read_cond hread
  refine ⟨condition, body, branches, otherwise,
    findSome?_eq_of_earliest (hall _) hread fun other hother => ?_⟩
  by_cases hne : record .cond = other
  · exact Nat.le_of_eq (congrArg order.idxOf hne)
  obtain ⟨⟨-, rfl⟩ | ⟨hloop, -⟩, -⟩ := (read_both_iff hne).mp ⟨hboth.1, hother⟩
  · exact Nat.le_of_lt hfirst
  · exact absurd hloop (by decide)

/-- An order takes a node for what the decoder takes it for, unless the node is ambiguous and the
order tries the loop first. -/
theorem findSome?_read_iff {order : List EntryKind} (hall : ∀ a, a ∈ order) :
    order.findSome? (·.read tree) = tree.roles.statement ↔
      (tree.Ambiguous → CondFirst order) := by
  rw [statement_roles_eq]
  constructor
  · intro h hambiguous
    by_contra hlater
    obtain ⟨_, _, hloop⟩ := findSome?_eq_loop hall hambiguous hlater
    obtain ⟨_, _, _, _, hcond⟩ := findSome?_eq_cond mem_standard hambiguous condFirst_standard
    rw [hloop, hcond] at h
    cases h
  · intro hfirst
    exact findSome?_read_eq hall mem_standard fun h => ⟨hfirst h, condFirst_standard⟩

end EntryKind

/-! ## Decoding in another order -/

/-- The roles of a record if the alternatives are tried in the given order. -/
def Roles.ofRowBy (order : List EntryKind) (row : Roles.Row) : Roles :=
  { Roles.ofRow row with statement := order.findSome? (·.choose none row) }

mutual

/-- The roles of a tree if the alternatives are tried in the given order, at every depth. -/
def Tree.rolesBy (order : List EntryKind) : Tree → Roles
  | .text value =>
    { Tree.roles (.text value) with
      statement := order.findSome? (·.choose (some value) fun _ => none) }
  | .array items =>
    let inner := rolesOfItemsBy order items
    { Roles.ofRowBy order (fun names => Record.positional false names inner) with
      body := inner.mapM Roles.statement
      branches := inner.mapM Roles.branch }
  | .table entries =>
    let inner := rolesOfEntriesBy order entries
    Roles.ofRowBy order (fun names => Record.named names inner)
  | other => other.roles
termination_by structural tree => tree

def rolesOfItemsBy (order : List EntryKind) : List Tree → List Roles
  | [] => []
  | item :: rest => item.rolesBy order :: rolesOfItemsBy order rest
termination_by structural items => items

def rolesOfEntriesBy (order : List EntryKind) : List (String × Tree) → List (String × Roles)
  | [] => []
  | (key, item) :: rest => (key, item.rolesBy order) :: rolesOfEntriesBy order rest
termination_by structural entries => entries

end

/-- The inner tree stands in the outer one, at some depth. -/
inductive Tree.Within (inner : Tree) : Tree → Prop
  | here : Within inner inner
  | item {items : List Tree} {t : Tree} (hmem : t ∈ items) (h : Within inner t) :
      Within inner (.array items)
  | entry {entries : List (String × Tree)} {key : String} {t : Tree} (hmem : (key, t) ∈ entries)
      (h : Within inner t) : Within inner (.table entries)

section Orders

variable {order : List EntryKind}

open EntryKind

mutual

/-- The order does not matter to a tree in which it does not matter to any node. -/
theorem Tree.rolesBy_eq (hall : ∀ a, a ∈ order) :
    ∀ (tree : Tree), (∀ inner : Tree, inner.Within tree → inner.Ambiguous → CondFirst order) →
      tree.rolesBy order = tree.roles
  | .text value, h => by
    have hnode : order.findSome? (·.choose (some value) fun _ => none) = _ :=
      (findSome?_read_iff hall).mpr (h (.text value) .here)
    rw [Tree.rolesBy, hnode]
  | .array items, h => by
    have hinner := rolesOfItemsBy_eq hall items fun t ht inner hwithin =>
      h inner (.item ht hwithin)
    have hnode : order.findSome? (·.choose none (Tree.array items).cells) = _ :=
      (findSome?_read_iff hall).mpr (h (.array items) .here)
    calc (Tree.array items).rolesBy order
        = { (Tree.array items).roles with
            statement := order.findSome? (·.choose none fun names =>
              Record.positional false names (rolesOfItems items)) } := by
          rw [Tree.rolesBy, hinner]
          rfl
      _ = (Tree.array items).roles := by rw [Tree.row_of_items, hnode]
  | .table entries, h => by
    have hinner := rolesOfEntriesBy_eq hall entries fun e he inner hwithin =>
      h inner (.entry he hwithin)
    have hnode : order.findSome? (·.choose none (Tree.table entries).cells) = _ :=
      (findSome?_read_iff hall).mpr (h (.table entries) .here)
    calc (Tree.table entries).rolesBy order
        = { (Tree.table entries).roles with
            statement := order.findSome? (·.choose none fun names =>
              Record.named names (rolesOfEntries entries)) } := by
          rw [Tree.rolesBy, hinner]
          rfl
      _ = (Tree.table entries).roles := by rw [Tree.row_of_entries, hnode]
  | .null, _ => rfl
  | .integer _, _ => rfl
  | .boolean _, _ => rfl
  | .decimal _, _ => rfl
  | .moment _, _ => rfl
termination_by structural tree => tree

theorem rolesOfItemsBy_eq (hall : ∀ a, a ∈ order) :
    ∀ (items : List Tree),
      (∀ t ∈ items, ∀ inner : Tree, inner.Within t → inner.Ambiguous → CondFirst order) →
      rolesOfItemsBy order items = rolesOfItems items
  | [], _ => rfl
  | item :: rest, h => by
    rw [rolesOfItemsBy, rolesOfItems, Tree.rolesBy_eq hall item (h item List.mem_cons_self),
      rolesOfItemsBy_eq hall rest fun t ht => h t (List.mem_cons_of_mem _ ht)]
termination_by structural items => items

theorem rolesOfEntriesBy_eq (hall : ∀ a, a ∈ order) :
    ∀ (entries : List (String × Tree)),
      (∀ e ∈ entries, ∀ inner : Tree, inner.Within e.2 → inner.Ambiguous → CondFirst order) →
      rolesOfEntriesBy order entries = rolesOfEntries entries
  | [], _ => rfl
  | (key, item) :: rest, h => by
    rw [rolesOfEntriesBy, rolesOfEntries,
      Tree.rolesBy_eq hall item (h (key, item) List.mem_cons_self),
      rolesOfEntriesBy_eq hall rest fun t ht => h t (List.mem_cons_of_mem _ ht)]
termination_by structural entries => entries

end

/-- The shortest tree that is ambiguous. -/
def Tree.loneCondition : Tree := .array [.text "c"]

/-- The orders in which every tree is decoded as it is are those that try the conditional first. -/
theorem rolesBy_eq_roles_iff (hall : ∀ a, a ∈ order) :
    (∀ tree : Tree, tree.rolesBy order = tree.roles) ↔ CondFirst order := by
  constructor
  · intro h
    have hrow : (fun names => Record.positional false names [(Tree.text "c").rolesBy order])
        = Tree.loneCondition.cells := by
      rw [h (.text "c")]
      exact Tree.row_of_items [.text "c"]
    have hnode :
        order.findSome? (·.read Tree.loneCondition) = Tree.loneCondition.roles.statement := by
      calc order.findSome? (·.read Tree.loneCondition)
          = order.findSome? (·.choose none fun names =>
              Record.positional false names [(Tree.text "c").rolesBy order]) := by
            rw [hrow]
            rfl
        _ = (Tree.loneCondition.rolesBy order).statement := rfl
        _ = Tree.loneCondition.roles.statement := by rw [h Tree.loneCondition]
    exact (findSome?_read_iff hall).mp hnode ⟨"c", [], rfl, .inl rfl⟩
  · intro hfirst tree
    exact Tree.rolesBy_eq hall tree fun _ _ _ => hfirst

/-- An entry is accepted by one alternative at most, and is taken for the same statement in every
order of the alternatives, if and only if it is not ambiguous. A table never is: it is told by its
leading key. A tree is decoded alike in every order that tries the conditional first, and in every
order at all if no entry in it is ambiguous. -/
theorem entries_told_apart (tree : Tree) :
    ((∀ a b : EntryKind, (a.read tree).isSome = true → (b.read tree).isSome = true → a = b) ↔
      ¬ tree.Ambiguous) ∧
    ((∀ order : List EntryKind, (∀ a, a ∈ order) →
        order.findSome? (·.read tree) = tree.roles.statement) ↔ ¬ tree.Ambiguous) ∧
    (∀ (kind other : StatementKind) (entries : List (String × Tree)), tree = .table entries →
      (kind.read tree).isSome = true → (other.key ∈ entries.map Prod.fst ↔ other = kind)) ∧
    (∀ order : List EntryKind, (∀ a, a ∈ order) →
      (∀ inner : Tree, inner.Within tree → inner.Ambiguous → CondFirst order) →
        tree.rolesBy order = tree.roles) := by
  refine ⟨⟨fun h hambiguous => ?_, fun h a b ha hb => ?_⟩,
    ⟨fun h hambiguous => ?_, fun h order hall => ?_⟩, fun kind other entries htable h => ?_,
    fun order hall h => Tree.rolesBy_eq hall tree h⟩
  · have hne : record .cond ≠ record .whileTrue := by decide
    obtain ⟨hcond, hloop⟩ := (read_both_iff hne).mpr ⟨.inl ⟨rfl, rfl⟩, hambiguous⟩
    exact hne (h _ _ hcond hloop)
  · by_contra hne
    exact h ((read_both_iff hne).mp ⟨ha, hb⟩).2
  · have hall : ∀ a, a ∈ standard.reverse := fun a => List.mem_reverse.mpr (mem_standard a)
    have hfirst := (findSome?_read_iff hall).mp (h _ hall) hambiguous
    exact absurd hfirst (by decide)
  · exact (findSome?_read_iff hall).mpr fun hambiguous => absurd hambiguous h
  · subst htable
    exact StatementKind.key_mem_iff_of_read h

/-- A condition without a key is accepted as a conditional and as a loop: the order decides. -/
theorem loneCondition_read_twice :
    (record .cond).read Tree.loneCondition = some (.cond "c" [] [] none) ∧
      (record .whileTrue).read Tree.loneCondition = some (.loop (.whileTrue "c") []) ∧
      (Tree.loneCondition.rolesBy standard).statement = some (.cond "c" [] [] none) ∧
      (Tree.loneCondition.rolesBy standard.reverse).statement
        = some (.loop (.whileTrue "c") []) :=
  ⟨rfl, rfl, rfl, rfl⟩

end Orders

end PlanScribe
