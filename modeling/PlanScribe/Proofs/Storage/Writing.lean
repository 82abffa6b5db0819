import PlanScribe.Proofs.Storage.Ways

/-!
# Writing files in turn

Writing a file makes the parent directories of its path that are missing and changes nothing else
but the file. It is refused only where no directories that could be made would let the path lead to
a place for a file. Whether there is a file to be kept is looked at before the directories are made;
so a path that passes through a missing directory can reach, and replace, a file that was there.
-/
namespace PlanScribe.FileTree

variable {tree before after larger : FileTree} {location : Location} {path : Path}

/-! ## Missing parents -/

/-- There is a directory where nothing stood, and a parent of the path leads to it. -/
structure MadeFor (before after : FileTree) (path : Path) (location : Location) : Prop where
  missing : before.entry? location = none
  made : after.entry? location = some .directory
  leads : ∃ parent ∈ path.parents, after.resolve? parent = some location

/-- Nothing has changed, except that missing parents of the path have been made. -/
def AddsParents (before after : FileTree) (path : Path) : Prop :=
  ∀ location, after.entry? location = before.entry? location ∨
    before.MadeFor after path location

theorem AddsParents.refl (tree : FileTree) (path : Path) : tree.AddsParents tree path :=
  fun _ => .inl rfl

theorem AddsParents.content?_eq (h : before.AddsParents after path) (location : Location) :
    after.content? location = before.content? location := by
  obtain hsame | hmade := h location
  · exact Spared.content?_eq (.inl hsame)
  · exact Spared.content?_eq (.inr ⟨hmade.missing, hmade.made⟩)

/-- What is made is a directory at the end of the path. -/
theorem resolve?_of_ensureDirectory (h : before.ensureDirectory path = some after) :
    ∃ location, before.resolve? path = some location ∧ after.isDirectory location = true ∧
      ∀ other, other ≠ location → after.entry? other = before.entry? other := by
  unfold ensureDirectory at h
  split at h
  · cases h
  · rename_i location hleads
    refine ⟨location, hleads, ?_⟩
    split at h
    · rename_i hdirectory
      cases h
      exact ⟨isDirectory_iff.mpr hdirectory, fun _ _ => rfl⟩
    · cases h
    · rename_i hnone
      cases h
      have hroot : location ≠ [] := by
        rintro rfl
        cases hnone
      exact ⟨isDirectory_iff.mpr (before.entry?_put_self _ hroot),
        fun _ hother => before.entry?_put_of_ne _ hother⟩

theorem resolve?_ensureDirectories (h : tree.resolve? path = some location) (paths : List Path) :
    (tree.ensureDirectories paths).1.resolve? path = some location :=
  resolve?_mono (fun other => (tree.addsDirectories_ensureDirectories paths other).isDirectory) h

/-- Where something changes, one of the paths leads. -/
theorem leads_of_ensureDirectories_ne (tree : FileTree) (paths : List Path)
    (h : entry? (tree.ensureDirectories paths).1 location ≠ tree.entry? location) :
    ∃ path ∈ paths, (tree.ensureDirectories paths).1.resolve? path = some location := by
  induction paths generalizing tree with
  | nil => exact absurd rfl h
  | cons path rest ih =>
    rw [ensureDirectories] at h ⊢
    cases hmade : tree.ensureDirectory path with
    | none =>
      rw [hmade] at h
      exact absurd rfl h
    | some made =>
      simp only [hmade] at h ⊢
      by_cases hlater : entry? (made.ensureDirectories rest).1 location = made.entry? location
      · obtain ⟨target, hleads, -, hothers⟩ := resolve?_of_ensureDirectory hmade
        obtain rfl : location = target :=
          Decidable.byContradiction fun hne => h (hlater.trans (hothers location hne))
        have hadds := addsDirectories_ensureDirectory hmade
        have hmadeLeads := resolve?_mono (fun other => (hadds other).isDirectory) hleads
        exact ⟨path, List.mem_cons_self, resolve?_ensureDirectories hmadeLeads rest⟩
      · obtain ⟨other, hother, hleads⟩ := ih made hlater
        exact ⟨other, List.mem_cons_of_mem _ hother, hleads⟩

theorem addsParents_ensureDirectories (tree : FileTree) (path : Path) :
    tree.AddsParents (tree.ensureDirectories path.parents).1 path := by
  intro location
  by_cases hsame : entry? (tree.ensureDirectories path.parents).1 location = tree.entry? location
  · exact .inl hsame
  · have hspared := tree.addsDirectories_ensureDirectories path.parents location
    obtain ⟨hmissing, hmade⟩ := hspared.resolve_left hsame
    exact .inr ⟨hmissing, hmade, tree.leads_of_ensureDirectories_ne path.parents hsame⟩

/-! ## A written file -/

/-- The file at the path holds the content and its parents are there. Nothing else has changed,
except that missing parents have been made. -/
structure Written (before after : FileTree) (path : Path) (content : Bytes) : Prop where
  reads : after.read? path = some content
  parents : ∀ parent ∈ path.parents, ∃ location, after.resolve? parent = some location ∧
    after.isDirectory location = true
  spares : ∀ location, after.resolve? path ≠ some location →
    after.entry? location = before.entry? location ∨ before.MadeFor after path location

theorem written_put {made : FileTree} (hmade : tree.AddsParents made path)
    (hwritable : made.writable? path = some location) (content : Bytes) :
    tree.Written (made.put location (.file content)) path content := by
  obtain ⟨hleads, hfits⟩ := Option.filter_eq_some_iff.mp hwritable
  replace hfits : made.isDirectory location = false := by simpa using hfits
  have hafter : (made.put location (.file content)).resolve? path = some location :=
    made.resolve?_put_file content hfits hleads
  constructor
  · rw [read?, hafter]
    simp only [Option.bind_some, made.entry?_put_self _ (ne_nil_of_not_isDirectory hfits)]
  · exact fun parent hparent => exists_directory_of_resolves hafter hparent
  · intro other hother
    have hne : other ≠ location := by
      rintro rfl
      exact hother hafter
    rw [made.entry?_put_of_ne _ hne]
    obtain hsame | hnew := hmade other
    · exact .inl hsame
    · obtain ⟨parent, hparent, hparentLeads⟩ := hnew.leads
      refine .inr ⟨hnew.missing, ?_, parent, hparent, ?_⟩
      · rw [made.entry?_put_of_ne _ hne, hnew.made]
      · exact made.resolve?_put_file content hfits hparentLeads

/-- Where the path leads to a file, writing replaces this file and nothing else. -/
theorem writeDestination_always_of_resolves (h : tree.resolve? path = some location)
    (hfits : tree.isDirectory location = false) (content : Bytes) :
    tree.writeDestination path .always content
      = (tree.put location (.file content), some .written) := by
  have hparents : tree.ensureDirectories path.parents = (tree, true) :=
    ensureDirectories_of_all fun parent hparent => ensureDirectory_of_resolves h hparent
  have hwritable := writable?_of_resolves h hfits
  obtain ⟨hkeeps, -⟩ | ⟨-, hrefused, -⟩ | ⟨-, made, target, -, hwritten, hmade, htarget⟩ :=
    tree.writeDestination_steps path .always content
  · cases hkeeps.1
  · exact absurd hrefused (openDestination_of_resolves h hfits .always)
  · rw [hparents] at hmade
    cases hmade
    rw [hwritable] at htarget
    cases htarget
    exact hwritten

/-- A file that has just been put is written over without a trace. -/
theorem writeDestination_put {made : FileTree} (hwritable : made.writable? path = some location)
    (content : Bytes) :
    (made.put location (.file content)).writeDestination path .always content
      = (made.put location (.file content), some .written) := by
  obtain ⟨hleads, hfits⟩ := Option.filter_eq_some_iff.mp hwritable
  replace hfits : made.isDirectory location = false := by simpa using hfits
  have hfile : (made.put location (.file content)).isDirectory location = false := by
    rw [isDirectory, made.entry?_put_self _ (ne_nil_of_not_isDirectory hfits)]
    rfl
  rw [writeDestination_always_of_resolves (made.resolve?_put_file content hfits hleads) hfile,
    put_put]

/-! ## The answers -/

/-- A call is skipped exactly if the rule wants what is there to be kept. -/
theorem writeDestination_skipped_iff (tree : FileTree) (path : Path) (overwrite : Overwrite)
    (content : Bytes) :
    (tree.writeDestination path overwrite content).2 = some .skipped ↔
      tree.Keeps path overwrite := by
  obtain ⟨hkeeps, -, hsame⟩ | ⟨hkeeps, -, left, hleft, -⟩ |
      ⟨hkeeps, made, location, -, hwritten, -⟩ :=
    tree.writeDestination_steps path overwrite content
  · simp [hsame, hkeeps]
  · simp [hleft, hkeeps]
  · simp [hwritten, hkeeps]

theorem writeDestination_of_keeps {overwrite : Overwrite} (h : tree.Keeps path overwrite)
    (content : Bytes) :
    tree.writeDestination path overwrite content = (tree, some .skipped) := by
  obtain ⟨-, -, hsame⟩ | ⟨hnot, -⟩ | ⟨hnot, -⟩ := tree.writeDestination_steps path overwrite content
  · exact hsame
  · exact absurd h hnot
  · exact absurd h hnot

/-- A refused call leaves at most parents behind. -/
theorem addsParents_of_refused {overwrite : Overwrite} {content : Bytes}
    (h : (tree.writeDestination path overwrite content).2 = none) :
    tree.AddsParents (tree.writeDestination path overwrite content).1 path := by
  obtain ⟨-, -, hsame⟩ | ⟨-, -, left, hleft, hmade⟩ | ⟨-, made, location, -, hwritten, -⟩ :=
    tree.writeDestination_steps path overwrite content
  · rw [hsame] at h
    cases h
  · rw [hleft]
    obtain rfl | rfl := hmade
    · exact .refl left path
    · exact tree.addsParents_ensureDirectories path
  · rw [hwritten] at h
    cases h

/-- A written file is in its place, and writing it once more makes no difference. -/
theorem written_of_written {overwrite : Overwrite} {content : Bytes}
    (h : (tree.writeDestination path overwrite content).2 = some .written) :
    let after := (tree.writeDestination path overwrite content).1
    tree.Written after path content ∧
      after.writeDestination path .always content = (after, some .written) := by
  intro after
  obtain ⟨-, -, hsame⟩ | ⟨-, -, left, hleft, -⟩ |
      ⟨-, made, location, -, hwritten, hmade, hwritable⟩ :=
    tree.writeDestination_steps path overwrite content
  · rw [hsame] at h
    cases h
  · rw [hleft] at h
    cases h
  · have hadds := tree.addsParents_ensureDirectories path
    rw [hmade] at hadds
    simp only [after, hwritten]
    exact ⟨written_put hadds hwritable content, writeDestination_put hwritable content⟩

/-! ## Where a file can be placed -/

/-- Directories could be made so that the path leads to a place where no directory is. -/
def HasPlaceFor (tree : FileTree) (path : Path) : Prop :=
  ∃ larger location, tree.AddsDirectories larger ∧ larger.resolve? path = some location ∧
    larger.isDirectory location = false

theorem ensureDirectories_append {first : List Path} (second : List Path)
    (h : before.ensureDirectories first = (after, true)) :
    before.ensureDirectories (first ++ second) = after.ensureDirectories second := by
  induction first generalizing before with
  | nil =>
    cases h
    rfl
  | cons path rest ih =>
    rw [List.cons_append, ensureDirectories]
    rw [ensureDirectories] at h
    cases hmade : before.ensureDirectory path with
    | none =>
      rw [hmade] at h
      cases h
    | some made =>
      rw [hmade] at h
      exact ih h

/-- A way can be gone as soon as the directories that are passed on it are there. -/
theorem walk_of_passed {segments : List String} {start : Location}
    (h : larger.walk start segments = some location)
    (hpassed : ∀ first next rest, segments = first ++ next :: rest →
      ∀ mid, larger.walk start first = some mid → tree.isDirectory mid = true) :
    tree.walk start segments = some location := by
  induction segments generalizing start with
  | nil => exact h
  | cons segment rest ih =>
    have hstart : tree.isDirectory start = true := hpassed [] segment rest rfl start rfl
    have hlarger : larger.isDirectory start = true := by
      cases hl : larger.isDirectory start with
      | true => rfl
      | false =>
        rw [walk, hl] at h
        cases h
    have hstep : tree.walk start [segment] = larger.walk start [segment] := by
      simp only [walk, hstart, hlarger]
    rw [← List.singleton_append, walk_append] at h ⊢
    obtain ⟨next, hnext, hrest⟩ := Option.bind_eq_some_iff.mp h
    rw [hstep, hnext]
    refine ih hrest fun first following after hsplit mid hmid => ?_
    apply hpassed (segment :: first) following after (by rw [hsplit]; rfl) mid
    rw [← List.singleton_append, walk_append, hnext]
    exact hmid

/-- The first moves can be made as soon as all shorter beginnings lead to directories. -/
theorem walk_take_of_passed {moves : List String} {n : Nat}
    (h : larger.walk [] (moves.take n) = some location)
    (hpassed : ∀ k < n, ∀ mid, larger.walk [] (moves.take k) = some mid →
      tree.isDirectory mid = true) :
    tree.walk [] (moves.take n) = some location := by
  refine walk_of_passed h fun first next rest hsplit mid hmid => ?_
  have hlength := congrArg List.length hsplit
  rw [List.length_take, List.length_append, List.length_cons] at hlength
  have hbegins : first = moves.take first.length := by
    have htake := congrArg (List.take first.length) hsplit
    rw [List.take_left, List.take_take, Nat.min_eq_left (by omega)] at htake
    exact htake.symm
  rw [hbegins] at hmid
  exact hpassed first.length (by omega) mid hmid

/-- A directory that a larger tree has at the end of a path can be made. -/
theorem exists_ensureDirectory (hlarger : tree.AddsDirectories larger)
    (hleads : tree.resolve? path = some location)
    (hdirectory : larger.isDirectory location = true) :
    ∃ made, tree.ensureDirectory path = some made ∧
      made.AddsDirectories larger ∧ made.isDirectory location = true := by
  rw [isDirectory_iff] at hdirectory
  rw [ensureDirectory, hleads]
  cases hentry : tree.entry? location with
  | none =>
    have hroot : location ≠ [] := by
      rintro rfl
      cases hentry
    have hmade := isDirectory_iff.mpr (tree.entry?_put_self .directory hroot)
    refine ⟨tree.put location .directory, by simp only [hentry], fun other => ?_, hmade⟩
    by_cases hother : other = location
    · rw [hother, Spared, hdirectory, tree.entry?_put_self _ hroot]
      exact .inl rfl
    · rw [Spared, tree.entry?_put_of_ne _ hother]
      exact hlarger other
  | some entry =>
    cases entry with
    | directory => exact ⟨tree, by simp only [hentry], hlarger, isDirectory_iff.mpr hentry⟩
    | file content =>
      -- a file stays a file in the larger tree, where a directory was promised
      obtain hsame | ⟨hnone, -⟩ := hlarger location
      · rw [hdirectory, hentry] at hsame
        cases hsame
      · rw [hentry] at hnone
        cases hnone

section Larger

variable (hlarger : tree.AddsDirectories larger) (hnul : '\x00' ∉ path.toList)
  (hway : larger.walk [] path.moves = some location)

include hlarger hnul hway

/-- The directories that a larger tree has on the way can be made, one after the other. -/
theorem exists_ensureDirectories (n : Nat) (hn : n < path.moves.length) :
    ∃ made, tree.ensureDirectories
        ((List.range n).map fun k => "/".intercalate (path.moves.take (k + 1))) = (made, true) ∧
      made.AddsDirectories larger ∧
      ∀ k ≤ n, ∀ mid, larger.walk [] (path.moves.take k) = some mid →
        made.isDirectory mid = true := by
  induction n with
  | zero =>
    refine ⟨tree, rfl, hlarger, fun k hk mid hmid => ?_⟩
    obtain rfl := Nat.le_zero.mp hk
    cases hmid
    rfl
  | succ n ih =>
    obtain ⟨made, hmade, hadds, hpassed⟩ := ih (by omega)
    obtain ⟨hfirst, next, rest, hmoves⟩ := Path.moves_eq_take_append hn
    have hfull := hway
    rw [hmoves] at hfull
    obtain ⟨mid, hmid, hdirectory⟩ := exists_walk_of_append hfull
    -- the way to this parent passes through the earlier ones, which are there by now
    have hmadeWay : made.walk [] (path.moves.take (n + 1)) = some mid :=
      walk_take_of_passed hmid fun k hk => hpassed k (by omega)
    have hresolve := (resolve?_intercalate_moves hmoves hfirst hnul made).trans hmadeWay
    obtain ⟨next, hnext, hdirectories⟩ := exists_ensureDirectory hadds hresolve hdirectory
    refine ⟨next, ?_, ?_, ?_⟩
    · rw [List.range_succ, List.map_append, ensureDirectories_append _ hmade, List.map_singleton,
        ensureDirectories, hnext]
      rfl
    · exact hdirectories.1
    · intro k hk other hother
      obtain hlast | hearlier := Nat.eq_or_lt_of_le hk
      · rw [hlast, hmid] at hother
        cases hother
        exact hdirectories.2
      · have hbefore := hpassed k (by omega) other hother
        exact (addsDirectories_ensureDirectory hnext other).isDirectory hbefore

end Larger

/-- A beginning of a way makes some of the moves, in order. -/
theorem walk_take_moves {first rest : List String} (hsplit : path.segments = first ++ rest)
    (h : tree.walk [] first = some location) :
    ∃ k ≤ path.moves.length, tree.walk [] (path.moves.take k) = some location := by
  let begins := first.filter fun segment => !Path.staysPut segment
  have hmoves : path.moves = begins ++ rest.filter fun segment => !Path.staysPut segment := by
    rw [Path.moves, hsplit, List.filter_append]
  refine ⟨begins.length, ?_, ?_⟩
  · rw [hmoves, List.length_append]
    omega
  · rw [hmoves, List.take_left]
    exact walk_moves h

/-- If directories could be made so that the path leads to a place for a file, its parents are. -/
theorem HasPlaceFor.exists_writable (h : tree.HasPlaceFor path) :
    ∃ made location, tree.ensureDirectories path.parents = (made, true) ∧
      made.writable? path = some location := by
  obtain ⟨larger, location, hlarger, hleads, hfits⟩ := h
  obtain ⟨hempty, hnul, hway⟩ := resolve?_eq_some_iff.mp hleads
  have hmovesWay : larger.walk [] path.moves = some location := walk_moves hway
  have hmoves : 0 < path.moves.length := by
    apply List.length_pos_iff.mpr
    intro hnone
    rw [hnone] at hmovesWay
    cases hmovesWay
    exact absurd hfits (by simp [isDirectory, entry?])
  obtain ⟨made, hmade, hadds, hpassed⟩ :=
    exists_ensureDirectories hlarger hnul hmovesWay (path.moves.length - 1) (by omega)
  have hwayMade : made.walk [] path.segments = some location := by
    refine walk_of_passed hway fun first next rest hsplit mid hmid => ?_
    obtain ⟨k, hk, htake⟩ := walk_take_moves hsplit hmid
    by_cases hall : k < path.moves.length
    · exact hpassed k (by omega) mid htake
    · -- all moves are made, so the place for the file would be a directory that is passed
      rw [List.take_of_length_le (by omega), hmovesWay] at htake
      cases htake
      rw [hsplit] at hway
      obtain ⟨passed, hpassedWay, hdirectory⟩ := exists_walk_of_append hway
      rw [hmid] at hpassedWay
      cases hpassedWay
      exact absurd hdirectory (by simp [hfits])
  have hmadeFits : made.isDirectory location = false := by
    cases hm : made.isDirectory location with
    | false => rfl
    | true => exact absurd ((hadds location).isDirectory hm) (by simp [hfits])
  refine ⟨made, location, (by rw [Path.parents_eq]; exact hmade), ?_⟩
  exact writable?_of_resolves (resolve?_eq_some_iff.mpr ⟨hempty, hnul, hwayMade⟩) hmadeFits

theorem hasPlaceFor_of_writable {made : FileTree} (hmade : tree.AddsDirectories made)
    (hwritable : made.writable? path = some location) : tree.HasPlaceFor path := by
  obtain ⟨hleads, hfits⟩ := Option.filter_eq_some_iff.mp hwritable
  exact ⟨made, location, hmade, hleads, by simpa using hfits⟩

/-- A destination is refused exactly if nothing is to be kept and there is no place for a file. -/
theorem writeDestination_eq_none_iff (tree : FileTree) (path : Path) (overwrite : Overwrite)
    (content : Bytes) :
    (tree.writeDestination path overwrite content).2 = none ↔
      ¬ tree.Keeps path overwrite ∧ ¬ tree.HasPlaceFor path := by
  obtain ⟨hkeeps, -, hsame⟩ | ⟨hkeeps, hrefused, left, hleft, -⟩ |
      ⟨hkeeps, made, location, -, hwritten, hmade, hwritable⟩ :=
    tree.writeDestination_steps path overwrite content
  · rw [hsame]
    simp [hkeeps]
  · rw [hleft]
    refine ⟨fun _ => ⟨hkeeps, fun hplace => ?_⟩, fun _ => rfl⟩
    obtain ⟨made, location, hmade, hwritable⟩ := hplace.exists_writable
    exact openDestination_ne_refused hmade hwritable overwrite hrefused
  · have hadds := tree.addsDirectories_ensureDirectories path.parents
    rw [hmade] at hadds
    rw [hwritten]
    simp [hasPlaceFor_of_writable hadds hwritable]

/-! ## Files that are kept -/

/-- Writing takes no directory away, so a path that leads somewhere still does. -/
theorem resolve?_writeDestination {other : Path} (h : tree.resolve? other = some location)
    (path : Path) (overwrite : Overwrite) (content : Bytes) :
    (tree.writeDestination path overwrite content).1.resolve? other = some location := by
  apply resolve?_mono _ h
  intro place hplace
  obtain ⟨-, -, hsame⟩ | ⟨-, -, -, hadds⟩ | ⟨-, -, target, -, hstores⟩ :=
    tree.writeDestination_cases path overwrite content
  · rw [hsame]
    exact hplace
  · exact (hadds place).isDirectory hplace
  · have hne : place ≠ target := by
      rintro rfl
      exact absurd hplace (by simp [hstores.fits])
    exact (hstores.spares place hne).isDirectory hplace

theorem isSome_entry?_of_content? {kept : Bytes} (h : tree.content? location = some kept) :
    (tree.entry? location).isSome = true := by
  unfold content? at h
  split at h
  · rename_i hentry
    rw [hentry]
    rfl
  · cases h

/-- A file is kept where the path leads to it, and under the rule for missing files. -/
theorem keeps_of_content? {kept : Bytes} (hfile : tree.content? location = some kept)
    (hleads : tree.resolve? path = some location) : tree.Keeps path .ifMissing := by
  refine ⟨rfl, ?_⟩
  rw [pathExists, hleads]
  exact isSome_entry?_of_content? hfile

/-- Writing leaves a file alone to which its path cannot lead, or leads already under the rule for
missing files. -/
theorem content?_writeDestination {kept : Bytes} (hfile : tree.content? location = some kept)
    {overwrite : Overwrite}
    (h : overwrite = .ifMissing ∧ tree.resolve? path ≠ none ∨
      ∀ other : FileTree, other.resolve? path ≠ some location) (content : Bytes) :
    (tree.writeDestination path overwrite content).1.content? location = some kept := by
  obtain ⟨-, -, hsame⟩ | ⟨-, -, -, hadds⟩ | ⟨hkeeps, -, target, -, hstores⟩ :=
    tree.writeDestination_cases path overwrite content
  · rw [hsame]
    exact hfile
  · rw [(hadds location).content?_eq]
    exact hfile
  · have hne : location ≠ target := by
      rintro rfl
      obtain ⟨rfl, hsome⟩ | hnever := h
      · obtain ⟨earlier, hearlier⟩ := Option.ne_none_iff_exists'.mp hsome
        obtain rfl := hstores.led earlier hearlier
        exact hkeeps (keeps_of_content? hfile hearlier)
      · exact hnever _ hstores.leads
    rw [(hstores.spares location hne).content?_eq]
    exact hfile

/-- Under the rule for missing files, a file that exists is written over exactly if the path led
nowhere before and leads to the file when the directories are made. -/
theorem written_over_iff {kept : Bytes} (hfile : tree.content? location = some kept)
    (content : Bytes) :
    let outcome := tree.writeDestination path .ifMissing content
    outcome.2 = some .written ∧ outcome.1.resolve? path = some location ↔
      tree.resolve? path = none ∧ outcome.1.resolve? path = some location := by
  intro outcome
  obtain ⟨hkeeps, -, hsame⟩ | ⟨hkeeps, -, hnone, hadds⟩ | ⟨hkeeps, hwritten, target, -, hstores⟩ :=
    tree.writeDestination_cases path .ifMissing content
  · simp only [outcome, hsame]
    simp +contextual
  · refine ⟨fun h => ?_, fun ⟨_, hleads⟩ => ?_⟩
    · rw [hnone] at h
      cases h.1
    · -- the path leads to a file by now, so there was a place for it
      have hfits : outcome.1.isDirectory location = false := by
        have hkept := (hadds location).content?_eq.trans hfile
        cases hd : outcome.1.isDirectory location with
        | false => rfl
        | true =>
          rw [isDirectory_iff] at hd
          rw [content?, hd] at hkept
          cases hkept
      have hplace : tree.HasPlaceFor path := ⟨outcome.1, location, hadds, hleads, hfits⟩
      exact absurd hplace ((tree.writeDestination_eq_none_iff path .ifMissing content).mp hnone).2
  · refine and_congr_left fun hleads => ⟨fun _ => ?_, fun _ => hwritten⟩
    obtain rfl := Option.some.inj (hleads.symm.trans hstores.leads)
    cases hearlier : tree.resolve? path with
    | none => rfl
    | some earlier =>
      obtain rfl := hstores.led earlier hearlier
      exact absurd (keeps_of_content? hfile hearlier) hkeeps

/-! ## Calls in turn -/

/-- A file that is to be written. -/
structure WriteCall where
  path : Path
  rules : FileRules
  content : Bytes

/-- The files after calls made one after the other; a refused one does not stop the others. -/
def writeEach (tree : FileTree) (calls : List WriteCall) : FileTree :=
  calls.foldl
    (fun tree call => (tree.writeDestination call.path call.rules.overwrite call.content).1) tree

/-- Calls leave a file alone to which their paths cannot lead, or led from the start under the rule
for missing files. -/
theorem content?_writeEach {kept : Bytes} (hfile : tree.content? location = some kept)
    (calls : List WriteCall)
    (h : ∀ call ∈ calls, call.rules.overwrite = .ifMissing ∧ tree.resolve? call.path ≠ none ∨
      ∀ other : FileTree, other.resolve? call.path ≠ some location) :
    (tree.writeEach calls).content? location = some kept := by
  induction calls generalizing tree with
  | nil => exact hfile
  | cons call rest ih =>
    obtain ⟨hcall, hrest⟩ := List.forall_mem_cons.mp h
    refine ih (content?_writeDestination hfile hcall call.content) fun later hlater => ?_
    refine (hrest later hlater).imp_left fun ⟨hrule, hsome⟩ => ⟨hrule, ?_⟩
    obtain ⟨target, htarget⟩ := Option.ne_none_iff_exists'.mp hsome
    rw [resolve?_writeDestination htarget]
    exact Option.some_ne_none target

end PlanScribe.FileTree
