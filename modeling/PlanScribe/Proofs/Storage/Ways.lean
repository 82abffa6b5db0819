import PlanScribe.Proofs.Storage.Frame

/-!
# The way to a file

A path that leads somewhere passes through directories only, and the directories that have to exist
before it can be created are among them. There is then nothing to make on the way, so a file can be
written wherever a path leads to, unless there is a directory.
-/
namespace PlanScribe

namespace Path

variable {path : Path}

/-- Splitting takes the separators out of a text and adds nothing. -/
theorem mem_of_mem_splitOn {text piece : List Char} {separator : Char}
    (h : piece ∈ text.splitOn separator) : ∀ c ∈ piece, c ∈ text ∧ c ≠ separator := by
  induction text generalizing piece with
  | nil =>
    rw [List.splitOn_nil, List.mem_singleton] at h
    rw [h]
    exact fun _ hc => nomatch hc
  | cons first rest ih =>
    rw [List.splitOn_cons_eq_if_modifyHead] at h
    obtain ⟨head, tail, hsplit⟩ := List.exists_cons_of_ne_nil (List.splitOn_ne_nil separator rest)
    have hlater {other : List Char} (hother : other ∈ head :: tail) :
        ∀ c ∈ other, c ∈ first :: rest ∧ c ≠ separator := by
      intro c hc
      obtain ⟨hmem, hne⟩ := ih (hsplit ▸ hother) c hc
      exact ⟨List.mem_cons_of_mem _ hmem, hne⟩
    rw [hsplit] at h
    by_cases hfirst : first = separator
    · rw [if_pos (beq_iff_eq.mpr hfirst)] at h
      obtain rfl | hpiece := List.mem_cons.mp h
      · exact fun _ hc => nomatch hc
      · exact hlater hpiece
    · rw [if_neg (by simpa using hfirst), List.modifyHead_cons] at h
      obtain rfl | hpiece := List.mem_cons.mp h
      · intro c hc
        obtain rfl | hhead := List.mem_cons.mp hc
        · exact ⟨List.mem_cons_self, hfirst⟩
        · exact hlater List.mem_cons_self c hhead
      · exact hlater (List.mem_cons_of_mem _ hpiece)

theorem mem_of_mem_segments {segment : String} (h : segment ∈ path.segments) :
    ∀ c ∈ segment.toList, c ∈ path.toList ∧ c ≠ '/' := by
  obtain ⟨piece, hpiece, rfl⟩ := List.mem_map.mp h
  rw [String.toList_ofList]
  exact mem_of_mem_splitOn hpiece

/-- Names that are written with slashes between them are read back. -/
theorem segments_intercalate {names : List String} (hnames : names ≠ [])
    (h : ∀ name ∈ names, '/' ∉ name.toList) : segments ("/".intercalate names) = names := by
  have hslash : "/".toList = ['/'] := rfl
  rw [segments, String.toList_intercalate, hslash, List.splitOn_intercalate]
  · rw [List.map_map]
    exact (List.map_congr_left fun name _ => String.ofList_toList).trans (List.map_id names)
  · intro piece hpiece
    obtain ⟨name, hname, rfl⟩ := List.mem_map.mp hpiece
    exact h name hname
  · simpa using hnames

theorem mem_of_mem_intercalate {names : List String} {c : Char}
    (h : c ∈ ("/".intercalate names).toList) : c = '/' ∨ ∃ name ∈ names, c ∈ name.toList := by
  induction names with
  | nil => cases h
  | cons name rest ih =>
    by_cases hrest : rest = []
    · subst hrest
      exact .inr ⟨name, List.mem_cons_self, by simpa using h⟩
    · rw [String.intercalate_cons_of_ne_nil hrest, String.toList_append, String.toList_append,
        List.append_assoc] at h
      obtain hname | h := List.mem_append.mp h
      · exact .inr ⟨name, List.mem_cons_self, hname⟩
      · obtain hslash | h := List.mem_append.mp h
        · exact .inl (List.mem_singleton.mp hslash)
        · obtain hc | ⟨other, hother, hc⟩ := ih h
          · exact .inl hc
          · exact .inr ⟨other, List.mem_cons_of_mem _ hother, hc⟩

/-- The segments that do not stay in the same directory. -/
def moves (path : Path) : List String := path.segments.filter fun segment => !staysPut segment

theorem parents_eq (path : Path) :
    path.parents = (List.range (path.moves.length - 1)).map fun n =>
      "/".intercalate (path.moves.take (n + 1)) := by
  have hparents : path.parents = (List.range path.moves.dropLast.length).map fun n =>
      "/".intercalate (path.moves.dropLast.take (n + 1)) := rfl
  rw [hparents, List.length_dropLast]
  apply List.map_congr_left
  intro n hn
  rw [List.mem_range] at hn
  rw [List.dropLast_eq_take, List.take_take, Nat.min_eq_left (by omega)]

theorem moves_eq_take_append {n : Nat} (h : n + 1 < path.moves.length) :
    path.moves.take (n + 1) ≠ [] ∧
      ∃ next rest, path.moves = path.moves.take (n + 1) ++ next :: rest := by
  constructor
  · intro hnil
    have hlength := congrArg List.length hnil
    rw [List.length_take, List.length_nil] at hlength
    omega
  · obtain ⟨next, rest, hdrop⟩ : ∃ next rest, path.moves.drop (n + 1) = next :: rest := by
      apply List.exists_cons_of_ne_nil
      rw [ne_eq, List.drop_eq_nil_iff]
      omega
    exact ⟨next, rest, by rw [← hdrop, List.take_append_drop]⟩

/-- A directory that has to exist is reached by some of the moves, but not by all. -/
theorem exists_of_mem_parents {parent : Path} (h : parent ∈ path.parents) :
    ∃ first next rest, path.moves = first ++ next :: rest ∧ first ≠ [] ∧
      parent = "/".intercalate first := by
  rw [parents_eq] at h
  obtain ⟨n, hn, rfl⟩ := List.mem_map.mp h
  rw [List.mem_range] at hn
  have hlength : n + 1 < path.moves.length := by omega
  obtain ⟨hfirst, next, rest, hmoves⟩ := moves_eq_take_append hlength
  exact ⟨path.moves.take (n + 1), next, rest, hmoves, hfirst, rfl⟩

section Moves

variable {first rest : List String} (hmoves : path.moves = first ++ rest)

include hmoves

theorem mem_segments_of_moves {name : String} (h : name ∈ first) :
    name ∈ path.segments ∧ staysPut name = false := by
  have hmove : name ∈ path.moves := hmoves ▸ List.mem_append_left rest h
  obtain ⟨hsegment, hstays⟩ := List.mem_filter.mp hmove
  exact ⟨hsegment, by simpa using hstays⟩

theorem segments_of_moves (hfirst : first ≠ []) : segments ("/".intercalate first) = first := by
  apply segments_intercalate hfirst
  intro name hname hslash
  exact (mem_of_mem_segments (mem_segments_of_moves hmoves hname).1 '/' hslash).2 rfl

theorem intercalate_moves_ne_empty (hfirst : first ≠ []) : "/".intercalate first ≠ "" := by
  intro hempty
  have hsegments := segments_of_moves hmoves hfirst
  rw [hempty] at hsegments
  have hmem : "" ∈ first := hsegments ▸ List.mem_singleton_self ""
  exact absurd (mem_segments_of_moves hmoves hmem).2 (by decide)

/-- But for slashes there are only characters of the path. -/
theorem mem_of_mem_intercalate_moves {c : Char} (h : c ∈ ("/".intercalate first).toList) :
    c = '/' ∨ c ∈ path.toList := by
  obtain hslash | ⟨name, hname, hc⟩ := mem_of_mem_intercalate h
  · exact .inl hslash
  · exact .inr (mem_of_mem_segments (mem_segments_of_moves hmoves hname).1 c hc).1

theorem nul_notMem_intercalate_moves (hnul : '\x00' ∉ path.toList) :
    '\x00' ∉ ("/".intercalate first).toList := by
  intro hmem
  obtain hslash | hpath := mem_of_mem_intercalate_moves hmoves hmem
  · exact absurd hslash (by decide)
  · exact hnul hpath

end Moves

theorem nul_notMem_of_mem_parents (hnul : '\x00' ∉ path.toList) {parent : Path}
    (h : parent ∈ path.parents) : '\x00' ∉ parent.toList := by
  obtain ⟨first, next, rest, hmoves, -, rfl⟩ := exists_of_mem_parents h
  exact nul_notMem_intercalate_moves hmoves hnul

end Path

namespace FileTree

variable {tree : FileTree} {path : Path} {location start : Location}

theorem walk_append (tree : FileTree) (start : Location) (first second : List String) :
    tree.walk start (first ++ second)
      = (tree.walk start first).bind fun mid => tree.walk mid second := by
  induction first generalizing start with
  | nil => rfl
  | cons segment rest ih =>
    rw [List.cons_append, walk, walk]
    split_ifs
    · rfl
    · exact ih start
    · rfl
    · exact ih _
    · exact ih _

/-- Staying in the same directory leads nowhere else. -/
theorem walk_moves {segments : List String} (h : tree.walk start segments = some location) :
    tree.walk start (segments.filter fun segment => !Path.staysPut segment) = some location := by
  induction segments generalizing start with
  | nil => exact h
  | cons segment rest ih =>
    rw [walk] at h
    split_ifs at h with hdirectory hstays hup hroot
    · rw [List.filter_cons_of_neg (by simpa using hstays)]
      exact ih h
    · rw [List.filter_cons_of_pos (by simpa using hstays), walk, if_neg hdirectory, if_neg hstays,
        if_pos hup, if_neg hroot]
      exact ih h
    · rw [List.filter_cons_of_pos (by simpa using hstays), walk, if_neg hdirectory, if_neg hstays,
        if_neg hup]
      exact ih h

/-- What is passed on a way is a directory. -/
theorem exists_walk_of_append {first rest : List String} {next : String}
    (h : tree.walk start (first ++ next :: rest) = some location) :
    ∃ mid, tree.walk start first = some mid ∧ tree.isDirectory mid = true := by
  rw [walk_append] at h
  obtain ⟨mid, hmid, hrest⟩ := Option.bind_eq_some_iff.mp h
  refine ⟨mid, hmid, ?_⟩
  cases hdirectory : tree.isDirectory mid with
  | true => rfl
  | false =>
    rw [walk, hdirectory] at hrest
    cases hrest

theorem resolve?_eq_some_iff : tree.resolve? path = some location ↔
    path ≠ "" ∧ '\x00' ∉ path.toList ∧ tree.walk [] path.segments = some location := by
  unfold resolve?
  split_ifs with h
  · simp only [false_iff]
    rintro ⟨hempty, hnul, -⟩
    simp [hempty, hnul] at h
  · simp only [Bool.or_eq_true, decide_eq_true_eq, List.contains_iff_mem, not_or] at h
    exact ⟨fun hway => ⟨h.1, h.2, hway⟩, fun hway => hway.2.2⟩

/-- Some of the moves, written as a path, lead where they go. -/
theorem resolve?_intercalate_moves {first rest : List String}
    (hmoves : path.moves = first ++ rest) (hfirst : first ≠ []) (hnul : '\x00' ∉ path.toList)
    (tree : FileTree) : tree.resolve? ("/".intercalate first) = tree.walk [] first := by
  have hempty := Path.intercalate_moves_ne_empty hmoves hfirst
  have hnone := Path.nul_notMem_intercalate_moves hmoves hnul
  rw [resolve?, Path.segments_of_moves hmoves hfirst, if_neg]
  simp only [Bool.or_eq_true, decide_eq_true_eq, List.contains_iff_mem, not_or]
  exact ⟨hempty, hnone⟩

/-- The directories that have to exist for a path that leads somewhere do exist. -/
theorem exists_directory_of_resolves (h : tree.resolve? path = some location) {parent : Path}
    (hparent : parent ∈ path.parents) :
    ∃ mid, tree.resolve? parent = some mid ∧ tree.isDirectory mid = true := by
  obtain ⟨-, hnul, hway⟩ := resolve?_eq_some_iff.mp h
  obtain ⟨first, next, rest, hmoves, hfirst, rfl⟩ := Path.exists_of_mem_parents hparent
  have hmovesWay : tree.walk [] path.moves = some location := walk_moves hway
  rw [hmoves] at hmovesWay
  obtain ⟨mid, hmid, hdirectory⟩ := exists_walk_of_append hmovesWay
  exact ⟨mid, (resolve?_intercalate_moves hmoves hfirst hnul tree).trans hmid, hdirectory⟩

theorem ensureDirectory_of_resolves (h : tree.resolve? path = some location) {parent : Path}
    (hparent : parent ∈ path.parents) : tree.ensureDirectory parent = some tree := by
  obtain ⟨mid, hmid, hdirectory⟩ := exists_directory_of_resolves h hparent
  rw [ensureDirectory, hmid]
  simp only [isDirectory_iff.mp hdirectory]

theorem ensureDirectories_of_all {paths : List Path}
    (h : ∀ path ∈ paths, tree.ensureDirectory path = some tree) :
    tree.ensureDirectories paths = (tree, true) := by
  induction paths with
  | nil => rfl
  | cons path rest ih =>
    obtain ⟨hpath, hrest⟩ := List.forall_mem_cons.mp h
    rw [ensureDirectories, hpath]
    exact ih hrest

theorem writable?_of_resolves (h : tree.resolve? path = some location)
    (hfits : tree.isDirectory location = false) : tree.writable? path = some location := by
  rw [writable?, h, Option.filter_some, hfits]
  rfl

/-- Where the parents can be made and the path then leads to no directory, what is there is kept or
a file can be written. -/
theorem openDestination_ne_refused {made : FileTree}
    (hmade : tree.ensureDirectories path.parents = (made, true))
    (hwritable : made.writable? path = some location) (overwrite : Overwrite) :
    (tree.openDestination path overwrite).2 ≠ .refused := by
  have hleads := (Option.filter_eq_some_iff.mp hwritable).1
  have hnul : path.parents.any (·.toList.contains '\x00') = false := by
    rw [List.any_eq_false]
    intro parent hparent
    simpa using Path.nul_notMem_of_mem_parents (resolve?_eq_some_iff.mp hleads).2.1 hparent
  rw [openDestination, hnul, hmade, if_neg Bool.false_ne_true]
  simp only [hwritable]
  split_ifs
  · exact Opening.noConfusion
  · exact Opening.noConfusion

/-- Where a path leads to no directory, what is there is kept or a file can be written. -/
theorem openDestination_of_resolves (h : tree.resolve? path = some location)
    (hfits : tree.isDirectory location = false) (overwrite : Overwrite) :
    (tree.openDestination path overwrite).2 ≠ .refused :=
  openDestination_ne_refused
    (ensureDirectories_of_all fun _ hparent => ensureDirectory_of_resolves h hparent)
    (writable?_of_resolves h hfits) overwrite

end FileTree

end PlanScribe
