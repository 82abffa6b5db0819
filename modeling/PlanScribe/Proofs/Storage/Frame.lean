import PlanScribe.Storage.Destination
import Mathlib.Tactic.SplitIfs

/-!
# What writing a file changes

The directories on the way to a file are made where nothing stood before. The file itself is then
put at one location, which holds no directory; all others stay as they are. Directories are never
taken away, so a path that leads somewhere leads to the same location afterwards.
-/
namespace PlanScribe.FileTree

variable {tree before mid after : FileTree} {location other : Location} {path : Path}

/-- The content of the file at a location. -/
def content? (tree : FileTree) (location : Location) : Option Bytes :=
  match tree.entry? location with
  | some (.file content) => some content
  | _ => none

/-- What stood at the location stands there still; where nothing stood, there may be a directory
now. -/
def Spared (before after : FileTree) (location : Location) : Prop :=
  after.entry? location = before.entry? location ∨
    (before.entry? location = none ∧ after.entry? location = some .directory)

/-- Nothing has changed, except that directories have been made where nothing stood. -/
def AddsDirectories (before after : FileTree) : Prop := ∀ location, before.Spared after location

/-- The file at the path has been written, and all else was spared. -/
structure Stores (before after : FileTree) (path : Path) (location : Location) (content : Bytes) :
    Prop where
  leads : after.resolve? path = some location
  /-- If the path led anywhere before, it led to the same location. -/
  led : ∀ earlier, before.resolve? path = some earlier → earlier = location
  fits : before.isDirectory location = false
  holds : after.content? location = some content
  spares : ∀ other, other ≠ location → before.Spared after other

/-- The rule wants what is at the path to be kept. A path through a directory that is still missing
leads nowhere, so nothing is kept there. -/
def Keeps (tree : FileTree) (path : Path) (overwrite : Overwrite) : Prop :=
  overwrite = .ifMissing ∧ tree.pathExists path = true

/-! ## Entries -/

theorem lookup_filter_ne (entries : List (Location × Entry)) (h : other ≠ location) :
    (entries.filter fun e => e.1 != location).lookup other = entries.lookup other := by
  induction entries with
  | nil => rfl
  | cons e rest ih =>
    obtain ⟨key, entry⟩ := e
    by_cases hkey : key = location
    · rw [List.filter_cons_of_neg (by simpa using hkey), List.lookup_cons,
        beq_false_of_ne (hkey ▸ h), ih]
    · rw [List.filter_cons_of_pos (by simpa using hkey), List.lookup_cons, List.lookup_cons, ih]

theorem entry?_put_self (tree : FileTree) (entry : Entry) (h : location ≠ []) :
    entry? (tree.put location entry) location = some entry := by
  rw [ entry?, if_neg h, put, List.lookup_cons_self]

theorem entry?_put_of_ne (tree : FileTree) (entry : Entry) (h : other ≠ location) :
    entry? (tree.put location entry) other = tree.entry? other := by
  rw [ entry?, entry?]
  split_ifs
  · rfl
  · rw [put, List.lookup_cons, beq_false_of_ne h]
    exact lookup_filter_ne tree.entries h

/-- Of two entries put at one location the second counts. -/
theorem put_put (tree : FileTree) (location : Location) (first second : Entry) :
    (tree.put location first).put location second = tree.put location second := by
  simp [put, List.filter_filter]

theorem isDirectory_iff : tree.isDirectory location = true ↔
    tree.entry? location = some .directory := by
  rw [isDirectory, beq_iff_eq]

/-- The working directory is always there. -/
theorem ne_nil_of_not_isDirectory (h : tree.isDirectory location = false) : location ≠ [] := by
  rintro rfl
  exact absurd h (by simp [isDirectory, entry?])

/-! ## Directories on the way -/

theorem Spared.content?_eq (h : before.Spared after location) :
    after.content? location = before.content? location := by
  unfold content?
  obtain hsame | ⟨hnone, hdirectory⟩ := h
  · rw [hsame]
  · rw [hnone, hdirectory]

theorem Spared.isDirectory (h : before.Spared after location)
    (hbefore : before.isDirectory location = true) : after.isDirectory location = true := by
  rw [isDirectory_iff] at hbefore ⊢
  obtain hsame | ⟨-, hdirectory⟩ := h
  · exact hsame.trans hbefore
  · exact hdirectory

theorem AddsDirectories.refl (tree : FileTree) : tree.AddsDirectories tree := fun _ => .inl rfl

theorem AddsDirectories.trans (h : before.AddsDirectories mid) (hnext : mid.AddsDirectories after) :
    before.AddsDirectories after := by
  intro location
  obtain hsame | ⟨hnone, hdirectory⟩ := h location
  · rw [Spared, ← hsame]
    exact hnext location
  · refine .inr ⟨hnone, ?_⟩
    obtain hlater | ⟨hlater, -⟩ := hnext location
    · exact hlater.trans hdirectory
    · rw [hdirectory] at hlater
      cases hlater

theorem addsDirectories_ensureDirectory (h : before.ensureDirectory path = some after) :
    before.AddsDirectories after := by
  unfold ensureDirectory at h
  split at h
  · cases h
  · rename_i location _
    split at h
    · cases h
      exact .refl before
    · cases h
    · rename_i hnone
      cases h
      intro other
      have hroot : location ≠ [] := by
        rintro rfl
        cases hnone
      by_cases hother : other = location
      · subst hother
        exact .inr ⟨hnone, before.entry?_put_self _ hroot⟩
      · exact .inl (before.entry?_put_of_ne _ hother)

/-- The directories that could be made before one that could not are left behind. -/
theorem addsDirectories_ensureDirectories (tree : FileTree) (paths : List Path) :
    tree.AddsDirectories (tree.ensureDirectories paths).1 := by
  induction paths generalizing tree with
  | nil => exact .refl tree
  | cons path rest ih =>
    rw [ensureDirectories]
    cases hmade : tree.ensureDirectory path with
    | none => exact .refl tree
    | some made => exact (addsDirectories_ensureDirectory hmade).trans (ih made)

/-! ## Where a path leads -/

/-- A way that can be gone stays open as long as its directories stay. -/
theorem walk_mono (hdirectories : ∀ location, before.isDirectory location = true →
      after.isDirectory location = true)
    (segments : List String) {start : Location} (h : before.walk start segments = some location) :
    after.walk start segments = some location := by
  induction segments generalizing start with
  | nil => exact h
  | cons segment rest ih =>
    rw [walk] at h ⊢
    cases hstart : before.isDirectory start with
    | false =>
      rw [hstart] at h
      cases h
    | true =>
      rw [hstart] at h
      rw [hdirectories start hstart]
      simp only [Bool.not_true, Bool.false_eq_true, if_false] at h ⊢
      split_ifs at h ⊢
      · exact ih h
      · exact ih h
      · exact ih h

theorem resolve?_mono (hdirectories : ∀ location, before.isDirectory location = true →
      after.isDirectory location = true) (h : before.resolve? path = some location) :
    after.resolve? path = some location := by
  unfold resolve? at h ⊢
  split_ifs at h ⊢
  exact walk_mono hdirectories path.segments h

/-- A file that is put where no directory is stands in nobody's way. -/
theorem resolve?_put_file (tree : FileTree) (content : Bytes)
    (hfits : tree.isDirectory location = false) {target : Location}
    (h : tree.resolve? path = some target) :
    (tree.put location (.file content)).resolve? path = some target := by
  apply resolve?_mono _ h
  intro other hother
  have hne : other ≠ location := by
    rintro rfl
    rw [hfits] at hother
    cases hother
  rw [isDirectory_iff] at hother ⊢
  rw [tree.entry?_put_of_ne _ hne, hother]

/-! ## Destinations -/

/-- Once the directories are made, a file can be put where the path leads. -/
theorem stores_put (hmade : before.AddsDirectories mid)
    (hwritable : mid.writable? path = some location) (content : Bytes) :
    before.Stores (mid.put location (.file content)) path location content := by
  obtain ⟨hleads, hfits⟩ := Option.filter_eq_some_iff.mp hwritable
  replace hfits : mid.isDirectory location = false := by simpa using hfits
  have hdirectories (other : Location) := (hmade other).isDirectory
  constructor
  · exact mid.resolve?_put_file content hfits hleads
  · intro earlier hearlier
    have hlater := resolve?_mono hdirectories hearlier
    exact Option.some.inj (hlater.symm.trans hleads)
  · cases hbefore : before.isDirectory location with
    | false => rfl
    | true => exact absurd (hdirectories location hbefore) (by simp [hfits])
  · rw [content?, mid.entry?_put_self _ (ne_nil_of_not_isDirectory hfits)]
  · intro other hother
    rw [Spared, mid.entry?_put_of_ne _ hother]
    exact hmade other

/-- What writing a file does: what is there is kept; or directories are made for parents of the path
and the destination is refused; or all parents are there, and the file is put where the path
leads. -/
theorem writeDestination_steps (tree : FileTree) (path : Path) (overwrite : Overwrite)
    (content : Bytes) :
    (tree.Keeps path overwrite ∧ (tree.openDestination path overwrite).2 = .kept ∧
      tree.writeDestination path overwrite content = (tree, some .skipped)) ∨
    (¬ tree.Keeps path overwrite ∧ (tree.openDestination path overwrite).2 = .refused ∧
      ∃ left, tree.writeDestination path overwrite content = (left, none) ∧
        (left = tree ∨ left = (tree.ensureDirectories path.parents).1)) ∨
    (¬ tree.Keeps path overwrite ∧ ∃ made location,
      (tree.openDestination path overwrite).2 = .opened location ∧
      tree.writeDestination path overwrite content
        = (made.put location (.file content), some .written) ∧
      tree.ensureDirectories path.parents = (made, true) ∧
      made.writable? path = some location) := by
  unfold writeDestination
  by_cases hkeeps : tree.Keeps path overwrite
  · have hopening : tree.openDestination path overwrite = (tree, .kept) := by
      rw [openDestination, hkeeps.1, hkeeps.2]
      rfl
    rw [hopening]
    exact .inl ⟨hkeeps, rfl, rfl⟩
  · refine .inr ?_
    have hcondition : (overwrite = .ifMissing && tree.pathExists path) = false := by
      simpa [Keeps] using hkeeps
    rw [openDestination, hcondition, if_neg Bool.false_ne_true]
    split_ifs with hnul
    · exact .inl ⟨hkeeps, rfl, tree, rfl, .inl rfl⟩
    · rcases hmade : tree.ensureDirectories path.parents with ⟨made, done⟩
      cases done with
      | false => exact .inl ⟨hkeeps, rfl, made, rfl, .inr rfl⟩
      | true =>
        cases hwritable : made.writable? path with
        | none =>
          simp only [hwritable]
          exact .inl ⟨hkeeps, trivial, made, rfl, .inr rfl⟩
        | some location =>
          simp only [hwritable, put_put]
          exact .inr ⟨hkeeps, made, location, rfl, rfl, rfl, hwritable⟩

/-- What writing a file comes to, by its answer: what is there is kept, or the destination is
refused and at most directories are left behind, or the path leads to a file with the content. -/
theorem writeDestination_cases (tree : FileTree) (path : Path) (overwrite : Overwrite)
    (content : Bytes) :
    (tree.Keeps path overwrite ∧ (tree.openDestination path overwrite).2 = .kept ∧
      tree.writeDestination path overwrite content = (tree, some .skipped)) ∨
    (¬ tree.Keeps path overwrite ∧ (tree.openDestination path overwrite).2 = .refused ∧
      (tree.writeDestination path overwrite content).2 = none ∧
      tree.AddsDirectories (tree.writeDestination path overwrite content).1) ∨
    (¬ tree.Keeps path overwrite ∧
      (tree.writeDestination path overwrite content).2 = some .written ∧
      ∃ location, (tree.openDestination path overwrite).2 = .opened location ∧
        tree.Stores (tree.writeDestination path overwrite content).1 path location content) := by
  have hmakes := tree.addsDirectories_ensureDirectories path.parents
  obtain ⟨hkeeps, hkept, hsame⟩ | ⟨hkeeps, hrefused, left, hleft, hmade⟩ |
      ⟨hkeeps, made, location, hopened, hwritten, hmade, hwritable⟩ :=
    tree.writeDestination_steps path overwrite content
  · exact .inl ⟨hkeeps, hkept, hsame⟩
  · have hadds : tree.AddsDirectories left := by
      obtain rfl | rfl := hmade
      · exact .refl left
      · exact hmakes
    rw [hleft]
    exact .inr (.inl ⟨hkeeps, hrefused, rfl, hadds⟩)
  · rw [hmade] at hmakes
    rw [hwritten]
    exact .inr (.inr ⟨hkeeps, rfl, location, hopened, stores_put hmakes hwritable content⟩)

end PlanScribe.FileTree
