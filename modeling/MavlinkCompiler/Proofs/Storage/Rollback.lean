import MavlinkCompiler.Generate
import MavlinkCompiler.Proofs.Storage.Tree

/-!
# Failed writes leave no trace

A write that fails gives the tree back as it was. The argument follows the two phases.

* *Staging* (`Staging.Sound`): at every moment, removing the temporary files and then the
  directories that were made, newest first, gives the original tree. A directory that was just made
  is empty apart from temporary files, because in a closed tree nothing lies below a missing place.
* *Moving* (`Moving`): at every moment, undoing the moves, newest first, gives the staged tree
  without the temporary files that were moved. A move changes files only, so the directories, and
  with them the slots of all destinations, are the same before and after (`Replaced`); a file moved
  aside is kept under a name that no path has.

A step may be refused at any point: a directory, a temporary file or its contents, a move aside when
its place is there already, or the move into place when the old file has left it. What a refused
step leaves half done is the same tree again (`stage_cases`, `setAside_cases`, `replace_cases`).

The temporary file that could not be moved is gone when the moves before it are undone; the
invariant of moving allows for that, because undoing a move does not touch waiting files.
-/

namespace MavlinkCompiler.Storage

open MavlinkCompiler.Storage.Tree (Same Within Closed)

/-! ## Temporary files -/

/-- A place whose name is not one of those reserved. -/
def Apart (reserved : List String) (place : Place) : Prop :=
  ∃ name outer, place = name :: outer ∧ name ∉ reserved

/-- A staged file waits under a name of its own, and its destination is spelled with reserved
names. -/
structure Staged.Ready (reserved : List String) (tree : Tree) (file : Staged) : Prop where
  apart : Apart reserved file.temporary
  present : ∃ contents, tree.get? file.temporary = some (.file contents)
  segments : file.destination.segments ≠ []
  spelled : ∀ segment ∈ file.destination.segments, segment ∈ reserved

theorem Apart.ne_of_slot {reserved : List String} {place target : Place} {tree : Tree}
    {path : Path} {slash : Bool} (h : Apart reserved place)
    (hspelled : ∀ segment ∈ path.segments, segment ∈ reserved)
    (hslot : tree.slot path = .ok (.named target slash)) : place ≠ target := by
  obtain ⟨name, outer, rfl, hname⟩ := h
  obtain ⟨name', outer', rfl, hname', -⟩ := Tree.exists_of_slot hslot
  rintro heq
  cases heq
  exact hname (hspelled name hname')

theorem Apart.get?_erase {reserved : List String} {place : Place} (h : Apart reserved place)
    (tree : Tree) (other : Place) :
    (tree.erase place).get? other = if other = place then none else tree.get? other := by
  obtain ⟨name, outer, rfl, -⟩ := h
  exact Tree.get?_erase tree name outer other

/-- What creating a temporary file does. -/
theorem createTemporary_eq_ok {faults : Faults} {step : Step} {tree tree' : Tree}
    {reserved : List String} {directory : Path} {stem : String} {place : Place}
    (h : createTemporary faults step tree reserved directory stem = .ok (place, tree')) :
    ∃ name outer, place = name :: outer ∧ name ∉ reserved ∧ tree.hasDirectory outer = true ∧
      tree.get? place = none ∧ (tree.absolute (temporaryPath directory stem)).refusal? = none ∧
      tree' = tree.put place (.file ByteArray.empty) := by
  have hfresh := freshName_not_mem stem (reserved ++ tree.names)
  unfold createTemporary at h
  dsimp only at h
  -- all that matters about the name is that it is neither reserved nor in the tree
  generalize freshName stem (reserved ++ tree.names) = name at h hfresh
  rw [List.mem_append, not_or] at hfresh
  split at h
  · cases h
  · cases h
  next outer hspelled hguard =>
  cases h
  have houter := Faults.guard_eq_ok hguard
  unfold Tree.followDirectory at houter
  split at houter
  · cases houter
  split at houter
  next hdirectory =>
    cases houter
    exact ⟨name, outer, rfl, hfresh.1, hdirectory, Tree.get?_of_not_mem_names hfresh.2 outer,
      hspelled, rfl⟩
  · cases houter

/-! ## Discarding temporary files -/

theorem here_foldl_erase (tree : Tree) (places : List Place) :
    (places.foldl Tree.erase tree).here = tree.here := by
  induction places generalizing tree with
  | nil => rfl
  | cons place rest ih => exact ih (tree.erase place)

theorem get?_foldl_erase {reserved : List String} :
    ∀ {places : List Place} {tree : Tree}, (∀ place ∈ places, Apart reserved place) →
      ∀ other, (places.foldl Tree.erase tree).get? other =
        if other ∈ places then none else tree.get? other
  | [], _, _, _ => by simp
  | place :: rest, tree, h, other => by
    obtain ⟨hplace, hrest⟩ := List.forall_mem_cons.mp h
    show (rest.foldl Tree.erase (tree.erase place)).get? other = _
    rw [get?_foldl_erase hrest, hplace.get?_erase]
    by_cases hother : other ∈ rest
    · simp [hother]
    · by_cases heq : other = place
      · simp [heq]
      · simp [hother, heq]

theorem discard_eq_foldl (tree : Tree) (staged : List Staged) :
    discard tree staged = (staged.map (·.temporary)).foldl Tree.erase tree :=
  List.foldl_map.symm

theorem here_discard (tree : Tree) (staged : List Staged) :
    (discard tree staged).here = tree.here := by
  rw [discard_eq_foldl, here_foldl_erase]

theorem get?_discard {reserved : List String} {staged : List Staged} {tree : Tree}
    (h : ∀ file ∈ staged, Apart reserved file.temporary) (place : Place) :
    (discard tree staged).get? place =
      if place ∈ staged.map (·.temporary) then none else tree.get? place := by
  rw [discard_eq_foldl]
  exact get?_foldl_erase (List.forall_mem_map.mpr h) place

/-- Temporary files are no directories, so discarding them leaves the directories. -/
theorem hasDirectory_discard {reserved : List String} {staged : List Staged} {tree : Tree}
    (h : ∀ file ∈ staged, file.Ready reserved tree) (place : Place) :
    (discard tree staged).hasDirectory place = tree.hasDirectory place := by
  have hget : (discard tree staged).get? place = _ :=
    get?_discard (fun file hfile => (h file hfile).apart) place
  by_cases hplace : place ∈ staged.map (·.temporary)
  · obtain ⟨file, hfile, rfl⟩ := List.mem_map.mp hplace
    obtain ⟨contents, hcontents⟩ := (h file hfile).present
    rw [if_pos hplace] at hget
    simp [Tree.hasDirectory, hget, hcontents, Node.isDirectory]
  · rw [if_neg hplace] at hget
    exact Tree.hasDirectory_congr hget

theorem Tree.Same.discard {a b : Tree} (h : Same a b) {reserved : List String}
    {staged : List Staged} (hapart : ∀ file ∈ staged, Apart reserved file.temporary) :
    Same (discard a staged) (discard b staged) := by
  refine ⟨?_, fun place => ?_⟩
  · rw [here_discard, here_discard, h.here]
  · rw [get?_discard hapart, get?_discard hapart, h.get?]

/-! ## Making and removing directories -/

/-- What making a directory does. -/
theorem makeDirectory_eq_ok {tree tree' : Tree} {path : Path}
    (h : tree.makeDirectory path = .ok tree') :
    ∃ name outer slash, tree.slot path = .ok (.named (name :: outer) slash) ∧
      tree.hasDirectory outer = true ∧ tree.get? (name :: outer) = none ∧
      tree' = tree.put (name :: outer) .directory := by
  unfold Tree.makeDirectory at h
  split at h
  · cases h
  · cases h
  next place slash hslot =>
  obtain ⟨name, outer, rfl, -, houter⟩ := Tree.exists_of_slot hslot
  split at h
  · cases h
  next hnone =>
  cases h
  exact ⟨name, outer, slash, hslot, houter, by simpa using hnone, rfl⟩

/-- An empty directory can be removed by its path. -/
theorem removeDirectory_of_slot {tree : Tree} {path : Path} {place : Place} {slash : Bool}
    (hslot : tree.slot path = .ok (.named place slash))
    (hplace : tree.get? place = some .directory)
    (hempty : ∀ name, tree.get? (name :: place) = none) :
    tree.removeDirectory path = .ok (tree.erase place) := by
  have hempty' := Tree.isEmptyDirectory_iff.mpr hempty
  simp [Tree.removeDirectory, hslot, hplace, hempty']

/-- Removing a directory does the same to trees that are the same. -/
theorem Tree.Same.attempt_removeDirectory {a b : Tree} (h : Same a b) (path : Path) :
    Same (attempt a (a.removeDirectory path)) (attempt b (b.removeDirectory path)) := by
  unfold Tree.removeDirectory
  rw [h.slot]
  cases hslot : b.slot path with
  | error cause => exact h
  | ok found =>
    cases found with
    | dots => exact h
    | named place slash =>
      obtain ⟨name, outer, rfl, -⟩ := Tree.exists_of_slot hslot
      dsimp only
      rw [h.get?]
      cases b.get? (name :: outer) with
      | none => exact h
      | some node =>
        cases node with
        | file contents => exact h
        | directory =>
          dsimp only
          rw [h.isEmptyDirectory]
          split
          · exact h.erase _
          · exact h

theorem Tree.Same.removeMade :
    ∀ (made : List Path) {a b : Tree}, Same a b → Same (removeMade a made) (removeMade b made)
  | [], _, _, h => h
  | path :: made, _, _, h => Tree.Same.removeMade made (h.attempt_removeDirectory path)

/-! ## Staging -/

/-- Staging can be taken back: the tree is closed, the staged files are ready under different
names, and removing everything that was added gives the original tree. -/
structure Staging.Sound (reserved : List String) (original : Tree) (staging : Staging) : Prop where
  closed : staging.tree.Closed
  ready : ∀ file ∈ staging.staged, file.Ready reserved staging.tree
  distinct : (staging.staged.map (·.temporary)).Nodup
  restores : Same (removeMade (discard staging.tree staging.staged) staging.made) original

/-- A staged file stays ready when something new is put into the tree. -/
theorem Staged.Ready.put {reserved : List String} {tree : Tree} {file : Staged}
    (h : file.Ready reserved tree) {name : String} {outer : Place}
    (hnew : tree.get? (name :: outer) = none) (node : Node) :
    file.temporary ≠ name :: outer ∧ file.Ready reserved (tree.put (name :: outer) node) := by
  obtain ⟨contents, hcontents⟩ := h.present
  have hne : file.temporary ≠ name :: outer := by
    intro heq
    rw [heq, hnew] at hcontents
    cases hcontents
  refine ⟨hne, h.apart, ⟨contents, ?_⟩, h.segments, h.spelled⟩
  rw [Tree.get?_put, if_neg hne, hcontents]

/-- Making a directory keeps staging sound: the directory is empty but for temporary files, and its
path still leads to it when these are gone. -/
theorem Staging.Sound.makeDirectory {reserved : List String} {original tree' : Tree}
    {staging : Staging} (h : staging.Sound reserved original) {path : Path}
    (hmake : staging.tree.makeDirectory path = .ok tree') :
    ({ staging with tree := tree', made := path :: staging.made } : Staging).Sound reserved
      original := by
  obtain ⟨name, outer, slash, hslot, houter, hnew, rfl⟩ := makeDirectory_eq_ok hmake
  have hready := fun file hfile => (h.ready file hfile).put hnew .directory
  have hapart : ∀ file ∈ staging.staged, Apart reserved file.temporary :=
    fun file hfile => (h.ready file hfile).apart
  have hplace : name :: outer ∉ staging.staged.map (·.temporary) := by
    intro hmem
    obtain ⟨file, hfile, heq⟩ := List.mem_map.mp hmem
    exact (hready file hfile).1 heq
  refine ⟨h.closed.put houter hnew _, fun file hfile => (hready file hfile).2, h.distinct, ?_⟩
  -- the directory is removed last of all that was added after it, so the files are gone by then
  set cleared := discard (staging.tree.put (name :: outer) .directory) staging.staged with hcleared
  have hget : ∀ place, cleared.get? place =
      if place = name :: outer then some .directory
      else (discard staging.tree staging.staged).get? place := by
    intro place
    rw [hcleared, get?_discard hapart, get?_discard hapart, Tree.get?_put]
    by_cases heq : place = name :: outer
    · rw [if_pos heq, if_pos heq, if_neg (heq ▸ hplace)]
    · rw [if_neg heq, if_neg heq]
  -- the path still leads to the directory
  have hwithin : Within staging.tree cleared := by
    refine ⟨by simp [hcleared, here_discard], fun place hdirectory => ?_⟩
    rw [← hasDirectory_discard h.ready, Tree.hasDirectory_iff] at hdirectory
    rw [Tree.hasDirectory_iff, hget, hdirectory, ite_self]
  -- nothing is below it: nothing was there before it was made
  have hempty : ∀ below, cleared.get? (below :: name :: outer) = none := by
    intro below
    rw [hget, if_neg (by simp), get?_discard hapart, h.closed.get?_below hnew, ite_self]
  have hremove : cleared.removeDirectory path = .ok (cleared.erase (name :: outer)) :=
    removeDirectory_of_slot (hwithin.slot hslot) (by rw [hget, if_pos rfl]) hempty
  have hsame : Same (cleared.erase (name :: outer)) (discard staging.tree staging.staged) := by
    refine ⟨by simp [hcleared, here_discard], fun place => ?_⟩
    rw [Tree.get?_erase, hget]
    by_cases heq : place = name :: outer
    · rw [if_pos heq, heq, get?_discard hapart, hnew, ite_self]
    · rw [if_neg heq, if_neg heq]
  show Same (removeMade (attempt cleared (cleared.removeDirectory path)) staging.made) original
  rw [hremove]
  exact (Tree.Same.removeMade staging.made hsame).trans h.restores

/-- Making directories keeps staging sound, also when one of them cannot be made. -/
theorem Staging.Sound.makeDirectories {faults : Faults} {reserved : List String}
    {original : Tree} :
    ∀ {paths : List Path} {staging : Staging} {tree : Tree} {made : List Path}
      {failure : Option Cause}, staging.Sound reserved original →
      makeDirectories faults staging.tree staging.made paths = (tree, made, failure) →
      ({ staging with tree, made } : Staging).Sound reserved original
  | [], _, _, _, _, h, hrun => by
    cases hrun
    exact h
  | path :: rest, staging, tree, made, failure, h, hrun => by
    unfold Storage.makeDirectories at hrun
    split at hrun
    next tree' hmake =>
      have hrest := makeDirectories (h.makeDirectory (Faults.guard_eq_ok hmake)) hrun
      exact hrest
    next =>
      cases hrun
      exact h

/-- Staging is sound whichever way the tree is kept. -/
theorem Staging.Sound.congr {reserved : List String} {original tree' : Tree} {staging : Staging}
    (h : staging.Sound reserved original) (hsame : Same tree' staging.tree) :
    ({ staging with tree := tree' } : Staging).Sound reserved original := by
  have hready : ∀ file ∈ staging.staged, file.Ready reserved tree' := by
    intro file hfile
    obtain ⟨hapart, ⟨contents, hcontents⟩, hsegments, hspelled⟩ := h.ready file hfile
    exact ⟨hapart, ⟨contents, (hsame.get? _).trans hcontents⟩, hsegments, hspelled⟩
  have hdiscard := hsame.discard fun file hfile => (hready file hfile).apart
  exact ⟨h.closed.congr hsame, hready, h.distinct,
    (Tree.Same.removeMade staging.made hdiscard).trans h.restores⟩

/-- A new file with a name that is not reserved can be staged. -/
theorem Staging.Sound.put {reserved : List String} {original : Tree} {staging : Staging}
    (h : staging.Sound reserved original) {name : String} {outer : Place} (hname : name ∉ reserved)
    (houter : staging.tree.hasDirectory outer = true)
    (hnew : staging.tree.get? (name :: outer) = none) (contents : ByteArray) {destination : Path}
    (hsegments : destination.segments ≠ [])
    (hspelled : ∀ segment ∈ destination.segments, segment ∈ reserved) (events : List Event) :
    Staging.Sound reserved original
      ⟨staging.tree.put (name :: outer) (.file contents), staging.made,
        staging.staged ++ [⟨name :: outer, destination⟩], events⟩ := by
  have hready := fun file hfile => (h.ready file hfile).put hnew (.file contents)
  have hready' : ∀ file ∈ staging.staged ++ [⟨name :: outer, destination⟩],
      file.Ready reserved (staging.tree.put (name :: outer) (.file contents)) := by
    intro file hfile
    rcases List.mem_append.mp hfile with hold | hlast
    · exact (hready file hold).2
    · rw [List.mem_singleton.mp hlast]
      exact ⟨⟨name, outer, rfl, hname⟩, ⟨contents, by simp⟩, hsegments, hspelled⟩
  refine ⟨h.closed.put houter hnew _, hready', ?_, ?_⟩
  · rw [List.map_append, List.nodup_append]
    refine ⟨h.distinct, by simp, ?_⟩
    intro place hplace other hother
    obtain ⟨file, hfile, rfl⟩ := List.mem_map.mp hplace
    obtain rfl : other = name :: outer := by simpa using hother
    exact (hready file hfile).1
  -- the new file is discarded with the others before any directory is removed
  · refine (Tree.Same.removeMade staging.made ⟨?_, fun other => ?_⟩).trans h.restores
    · rw [here_discard, here_discard]
      rfl
    · rw [get?_discard fun file hfile => (hready' file hfile).apart,
        get?_discard fun file hfile => (h.ready file hfile).apart, Tree.get?_put]
      by_cases hother : other = name :: outer
      · simp [hother, hnew]
      · simp [hother]

/-- What staging a file does once directories were made: it fails and leaves nothing else, or the
file waits with its contents at a place that was free. -/
theorem stage_cases (faults : Faults) (reserved : List String) (directory : Path)
    (staging : Staging) (artifact : Artifact) :
    ∃ tree made failure, makeDirectories faults staging.tree staging.made
        (missingDirectories staging.tree
          ((directory.join (.ofText artifact.path)).parent?.getD directory)) =
          (tree, made, failure) ∧
      ((∃ tree' error, Same tree' tree ∧
        stage faults reserved directory staging artifact =
          ({ staging with tree := tree', made }, some error)) ∨
      failure = none ∧ ∃ name outer events, name ∉ reserved ∧ tree.hasDirectory outer = true ∧
        tree.get? (name :: outer) = none ∧
        (tree.absolute (temporaryPath
          ((directory.join (.ofText artifact.path)).parent?.getD directory)
          waitingStem)).refusal? = none ∧
        stage faults reserved directory staging artifact =
          (⟨tree.put (name :: outer) (.file artifact.contents.toUTF8), made,
            staging.staged ++ [⟨name :: outer, directory.join (.ofText artifact.path)⟩],
            events⟩, none)) := by
  unfold Storage.stage
  dsimp only
  split
  next tree made cause hmake =>
    exact ⟨tree, made, some cause, hmake, .inl ⟨tree, _, .refl tree, rfl⟩⟩
  next tree made hmake =>
  refine ⟨tree, made, none, hmake, ?_⟩
  split
  next error hcreate => exact .inl ⟨tree, error, .refl tree, rfl⟩
  next temporary created hcreate =>
  obtain ⟨name, outer, rfl, hname, houter, hnew, hspelled, rfl⟩ := createTemporary_eq_ok hcreate
  split
  next cause hfill => exact .inl ⟨_, _, Tree.Same.erase_put hnew _, rfl⟩
  next tree' hfill =>
    obtain rfl := Except.ok.inj (Faults.guard_eq_ok hfill)
    rw [Tree.put_put]
    exact .inr ⟨rfl, name, outer, _, hname, houter, hnew, hspelled, rfl⟩

/-- Staging a file keeps staging sound, whether or not the file can be staged. -/
theorem Staging.Sound.stage {faults : Faults} {reserved : List String} {original : Tree}
    {staging : Staging} (h : staging.Sound reserved original) {directory : Path}
    {artifact : Artifact} (hsegments : (directory.join (.ofText artifact.path)).segments ≠ [])
    (hspelled : ∀ segment ∈ (directory.join (.ofText artifact.path)).segments,
      segment ∈ reserved) :
    (stage faults reserved directory staging artifact).1.Sound reserved original := by
  obtain ⟨tree, made, failure, hmake, ⟨tree', error, hsame, hstage⟩ |
    ⟨-, name, outer, events, hname, houter, hnew, -, hstage⟩⟩ :=
      stage_cases faults reserved directory staging artifact
  · rw [hstage]
    have hmade := (h.makeDirectories hmake).congr hsame
    exact hmade
  · rw [hstage]
    have hmade := (h.makeDirectories hmake).put hname houter hnew artifact.contents.toUTF8
      hsegments hspelled events
    exact hmade

-- what staging one file does is not looked into
attribute [local irreducible] stage in
theorem stageAll_cons (faults : Faults) (reserved : List String) (directory : Path)
    (staging : Staging) (artifact : Artifact) (rest : List Artifact) :
    stageAll faults reserved directory staging (artifact :: rest) =
      match stage faults reserved directory staging artifact with
      | (staging, none) => stageAll faults reserved directory staging rest
      | (staging, some error) => (staging, some error) :=
  rfl

/-- Staging files keeps staging sound, however far it comes. -/
theorem Staging.Sound.stageAll {faults : Faults} {reserved : List String} {original : Tree}
    {directory : Path} :
    ∀ {artifacts : List Artifact} {staging : Staging}, staging.Sound reserved original →
      (∀ artifact ∈ artifacts, (directory.join (.ofText artifact.path)).segments ≠ [] ∧
        ∀ segment ∈ (directory.join (.ofText artifact.path)).segments, segment ∈ reserved) →
      (stageAll faults reserved directory staging artifacts).1.Sound reserved original
  | [], _, h, _ => h
  | artifact :: rest, staging, h, hpaths => by
    obtain ⟨hsegments, hspelled⟩ := hpaths artifact List.mem_cons_self
    have hstage : (Storage.stage faults reserved directory staging artifact).1.Sound reserved
        original := h.stage hsegments hspelled
    rw [stageAll_cons]
    split
    next staging' heq =>
      rw [heq] at hstage
      exact hstage.stageAll fun other hother => hpaths other (List.mem_cons_of_mem _ hother)
    next staging' error heq =>
      rw [heq] at hstage
      exact hstage

/-! ## One move -/

/-- What a move onto a path does. -/
theorem moveOnto_eq_ok {tree tree' : Tree} {source : Place} {path : Path}
    (h : tree.moveOnto source path = .ok tree') :
    ∃ place, tree.slot path = .ok (.named place false) ∧ tree.hasDirectory place = false ∧
      tree' = tree.move source place := by
  unfold Tree.moveOnto at h
  split at h
  · cases h
  · cases h
  · cases h
  next place slash hslot =>
  split at h
  · cases h
  next hslash =>
  split at h
  · cases h
  next hplace =>
  cases h
  obtain rfl : slash = false := by simpa using hslash
  exact ⟨place, hslot, by simpa using hplace, rfl⟩

theorem moveOnto_of_slot {tree : Tree} {path : Path} {place : Place}
    (hslot : tree.slot path = .ok (.named place false)) (hplace : tree.hasDirectory place = false)
    (source : Place) : tree.moveOnto source path = .ok (tree.move source place) := by
  simp [Tree.moveOnto, hslot, hplace]

/-- A tree whose file at `place` is kept at `aside`, which was free. -/
structure Cleared (reserved : List String) (tree cleared : Tree) (place aside : Place) : Prop where
  here : cleared.here = tree.here
  apart : Apart reserved aside
  free : tree.get? aside = none
  occupied : ∃ contents, tree.get? place = some (.file contents)
  get? : ∀ other, cleared.get? other =
    if other = aside then tree.get? place
    else if other = place then none
    else tree.get? other

/-- Files take no part in the directories. -/
theorem Cleared.within {reserved : List String} {tree cleared : Tree} {place aside : Place}
    (h : Cleared reserved tree cleared place aside) : Within tree cleared := by
  refine .of_get? h.here.symm fun other hother => ?_
  obtain ⟨contents, hcontents⟩ := h.occupied
  have haside : other ≠ aside := by
    rintro rfl
    rw [h.free] at hother
    cases hother
  have hplace : other ≠ place := by
    rintro rfl
    rw [hcontents] at hother
    cases hother
  rw [h.get?, if_neg haside, if_neg hplace, hother]

/-- The place is left without anything. -/
theorem Cleared.hasDirectory_place {reserved : List String} {tree cleared : Tree}
    {place aside : Place} (h : Cleared reserved tree cleared place aside) :
    cleared.hasDirectory place = false := by
  obtain ⟨contents, hcontents⟩ := h.occupied
  have hne : place ≠ aside := by
    rintro rfl
    rw [h.free] at hcontents
    cases hcontents
  simp [Tree.hasDirectory, h.get?, hne]

theorem isPresent_iff {tree : Tree} {path : Path} :
    tree.isPresent path = true ↔ ∃ place, tree.follow path = .ok place := by
  unfold Tree.isPresent
  cases tree.follow path <;> simp [Except.isOk, Except.toBool]

/-- The slot of a path that leads nowhere is free. -/
theorem free_of_absent {tree : Tree} {path : Path} {place : Place}
    (hslot : tree.slot path = .ok (.named place false)) (habsent : tree.isPresent path = false) :
    tree.get? place = none := by
  by_contra hsome
  have hfollow := Tree.follow_of_slot hslot (Option.isSome_iff_ne_none.mpr hsome)
  rw [isPresent_iff.mpr ⟨place, hfollow⟩] at habsent
  cases habsent

/-- What a path leads to is a file in its slot, unless it is a directory. -/
theorem exists_file_of_isPresent {tree : Tree} {path : Path} (hsegments : path.segments ≠ [])
    (hup : ∀ place, tree.hasDirectory place = true → tree.hasDirectory place.tail = true)
    (hopen : tree.isDirectory path = false) (hpresent : tree.isPresent path = true) :
    ∃ place contents, tree.slot path = .ok (.named place false) ∧
      tree.get? place = some (.file contents) := by
  obtain ⟨place, hfollow⟩ := isPresent_iff.mp hpresent
  have hplace : tree.hasDirectory place = false := by
    simpa [Tree.isDirectory, hfollow] using hopen
  obtain ⟨hslot, hsome⟩ := Tree.slot_of_follow hup hsegments hfollow hplace
  obtain ⟨node, hnode⟩ := Option.isSome_iff_exists.mp hsome
  cases node with
  | file contents => exact ⟨place, contents, hslot, hnode⟩
  | directory =>
    rw [Tree.hasDirectory_iff.mpr hnode] at hplace
    cases hplace

/-- A file that was replaced comes back. -/
theorem undo_of_previous_some {tree : Tree} {moved : Moved} {place aside : Place}
    (hprevious : moved.previous = some aside)
    (hslot : tree.slot moved.destination = .ok (.named place false))
    (hplace : tree.hasDirectory place = false) : undo tree moved = tree.move aside place := by
  unfold undo
  rw [hprevious]
  dsimp only
  rw [moveOnto_of_slot hslot hplace]
  rfl

/-- A file that was set aside for nothing comes back. -/
theorem Cleared.same_undo {reserved : List String} {tree cleared : Tree} {place aside : Place}
    (h : Cleared reserved tree cleared place aside) {destination : Path}
    (hslot : tree.slot destination = .ok (.named place false)) :
    Same (undo cleared ⟨destination, some aside⟩) tree := by
  obtain ⟨contents, hcontents⟩ := h.occupied
  obtain ⟨name, outer, rfl, -⟩ := Tree.exists_of_slot hslot
  obtain ⟨name', outer', rfl, -⟩ := h.apart
  have hkept : cleared.get? (name' :: outer') = some (.file contents) := by
    rw [h.get?, if_pos rfl, hcontents]
  rw [undo_of_previous_some rfl (h.within.slot hslot) h.hasDirectory_place]
  refine ⟨(Tree.here_move _ _ _).trans h.here, fun other => ?_⟩
  rw [Tree.get?_move hkept (List.cons_ne_nil _ _) (List.cons_ne_nil _ _), h.get?]
  by_cases hplace : other = name :: outer
  · rw [if_pos hplace, hplace, hcontents]
  by_cases haside : other = name' :: outer'
  · rw [if_neg hplace, if_pos haside, haside, h.free]
  · rw [if_neg hplace, if_neg haside, if_neg haside, if_neg hplace]

/-- Nothing is in the way, the file in the way stays, or it is set aside. -/
theorem setAside_cases (faults : Faults) (count : Nat) {reserved : List String} {tree : Tree}
    {destination : Path} (hsegments : destination.segments ≠ [])
    (hspelled : ∀ segment ∈ destination.segments, segment ∈ reserved)
    (hup : ∀ place, tree.hasDirectory place = true → tree.hasDirectory place.tail = true)
    (hopen : tree.isDirectory destination = false) :
    (tree.isPresent destination = false ∧
      setAside faults count reserved tree destination = (tree, .ok none)) ∨
    (∃ tree' error, setAside faults count reserved tree destination = (tree', .error error) ∧
      Same tree' tree) ∨
    (∃ place aside cleared,
      setAside faults count reserved tree destination = (cleared, .ok (some aside)) ∧
      tree.slot destination = .ok (.named place false) ∧
      Cleared reserved tree cleared place aside) := by
  unfold setAside
  by_cases hpresent : tree.isPresent destination = true
  · rw [if_pos hpresent]
    dsimp only
    obtain ⟨place, contents, hslot, hcontents⟩ :=
      exists_file_of_isPresent hsegments hup hopen hpresent
    split
    next error hcreate => exact .inr (.inl ⟨tree, error, rfl, .refl tree⟩)
    next aside created hcreate =>
    obtain ⟨name, outer, rfl, hname, -, hnew, -, rfl⟩ := createTemporary_eq_ok hcreate
    split
    next cleared hmove =>
      have hapart : Apart reserved (name :: outer) := ⟨name, outer, rfl, hname⟩
      have hne : place ≠ name :: outer := (hapart.ne_of_slot hspelled hslot).symm
      have hkept : (tree.put (name :: outer) (.file ByteArray.empty)).get? place =
          some (.file contents) := by
        rw [Tree.get?_put, if_neg hne, hcontents]
      -- the temporary file does not divert the path, so it is the same file that is moved
      have hslot' := (Within.put_of_free hnew (.file ByteArray.empty)).slot hslot
      have hfollow := Tree.follow_of_slot hslot' (by rw [hkept]; rfl)
      have haway := Faults.guard_eq_ok hmove
      rw [Tree.moveAway, hfollow] at haway
      cases haway
      obtain ⟨name', outer', rfl, -⟩ := Tree.exists_of_slot hslot
      refine .inr (.inr ⟨_, _, _, rfl, hslot, Tree.here_move _ _ _, hapart, hnew,
        ⟨contents, hcontents⟩, fun other => ?_⟩)
      rw [Tree.get?_move hkept (List.cons_ne_nil _ _) (List.cons_ne_nil _ _), hcontents,
        Tree.get?_put]
      split <;> rfl
    -- the place aside is empty, and it is given up again
    next cause hmove => exact .inr (.inl ⟨_, _, rfl, Tree.Same.erase_put hnew _⟩)
  · rw [if_neg hpresent]
    exact .inl ⟨by simpa using hpresent, rfl⟩

/-- What moving a staged file into place does: the file is at its destination, and what was there is
kept aside at a place that was free. -/
structure Replaced (reserved : List String) (tree tree' : Tree) (file : Staged) (moved : Moved)
    (place : Place) : Prop where
  here : tree'.here = tree.here
  destination : moved.destination = file.destination
  slot : tree.slot file.destination = .ok (.named place false)
  free : moved.previous = none → tree.get? place = none
  kept : ∀ aside, moved.previous = some aside → Apart reserved aside ∧ tree.get? aside = none ∧
    ∃ contents, tree.get? place = some (.file contents)
  get? : ∀ other, tree'.get? other =
    if other = place then tree.get? file.temporary
    else if other = file.temporary then none
    else if moved.previous = some other then tree.get? place
    else tree.get? other

/-- A staged file is moved into place, or it is gone and the rest of the tree is as it was. -/
theorem replace_cases (faults : Faults) (count : Nat) {reserved : List String} {tree : Tree}
    {file : Staged} (hready : file.Ready reserved tree)
    (hup : ∀ place, tree.hasDirectory place = true → tree.hasDirectory place.tail = true)
    (hopen : tree.isDirectory file.destination = false) :
    (∃ tree' moved place, replace faults count reserved tree file = (tree', .ok moved) ∧
      Replaced reserved tree tree' file moved place) ∨
    (∃ tree' error, replace faults count reserved tree file = (tree', .error error) ∧
      Same tree' (tree.erase file.temporary)) := by
  obtain ⟨contents, hcontents⟩ := hready.present
  have htemporary : file.temporary ≠ [] := by
    obtain ⟨name, outer, heq, -⟩ := hready.apart
    simp [heq]
  have hplaceNe : ∀ {place : Place}, tree.slot file.destination = .ok (.named place false) →
      place ≠ [] := by
    intro place hslot
    obtain ⟨name, outer, rfl, -⟩ := Tree.exists_of_slot hslot
    simp
  unfold Storage.replace
  obtain ⟨habsent, haside⟩ | ⟨tree', error, haside, hsame⟩ |
    ⟨place, aside, cleared, haside, hslot, hcleared⟩ :=
      setAside_cases faults count hready.segments hready.spelled hup hopen
  · -- the path leads nowhere, so its slot is free if there is one
    rw [haside]
    dsimp only
    split
    next tree' honto =>
      obtain ⟨place, hslot, hplace, rfl⟩ := moveOnto_eq_ok (Faults.guard_eq_ok honto)
      refine .inl ⟨_, _, place, rfl, Tree.here_move _ _ _, rfl, hslot,
        fun _ => free_of_absent hslot habsent, ?_, fun other => ?_⟩
      · intro aside hprevious
        cases hprevious
      · rw [Tree.get?_move hcontents htemporary (hplaceNe hslot), hcontents]
        simp
    next => exact .inr ⟨_, _, rfl, .refl _⟩
  · rw [haside]
    exact .inr ⟨_, error, rfl, hsame.erase _⟩
  -- the slot was cleared, so the move can only be refused
  · have hne : file.temporary ≠ aside := by
      intro heq
      rw [heq, hcleared.free] at hcontents
      cases hcontents
    have hne' : file.temporary ≠ place := hready.apart.ne_of_slot hready.spelled hslot
    have hcontents' : cleared.get? file.temporary = some (.file contents) := by
      rw [hcleared.get?, if_neg hne, if_neg hne', hcontents]
    rw [haside]
    dsimp only
    split
    next tree' honto =>
      have honto' := Faults.guard_eq_ok honto
      rw [moveOnto_of_slot (hcleared.within.slot hslot) hcleared.hasDirectory_place] at honto'
      cases honto'
      refine .inl ⟨_, _, place, rfl, ?_, rfl, hslot, ?_, ?_, fun other => ?_⟩
      · rw [Tree.here_move, hcleared.here]
      · intro hprevious
        cases hprevious
      · rintro aside' ⟨⟩
        exact ⟨hcleared.apart, hcleared.free, hcleared.occupied⟩
      · rw [Tree.get?_move hcontents' htemporary (hplaceNe hslot), hcleared.get?, hcontents]
        by_cases hplace : other = place
        · simp [hplace]
        · by_cases hother : other = aside
          · simp [hother]
          · simp [hplace, hother, Ne.symm hother]
    -- the old file comes back
    next => exact .inr ⟨_, _, rfl, (hcleared.same_undo hslot).erase _⟩

/-- A move into place leaves the directories as they are. -/
theorem Replaced.hasDirectory {reserved : List String} {tree tree' : Tree} {file : Staged}
    {moved : Moved} {place : Place} (h : Replaced reserved tree tree' file moved place)
    (hready : file.Ready reserved tree) (other : Place) :
    tree'.hasDirectory other = tree.hasDirectory other := by
  obtain ⟨contents, hcontents⟩ := hready.present
  have hplace : tree.hasDirectory place = false := by
    cases hprevious : moved.previous with
    | none => simp [Tree.hasDirectory, h.free hprevious]
    | some aside =>
      obtain ⟨-, -, old, hold⟩ := h.kept aside hprevious
      simp [Tree.hasDirectory, hold, Node.isDirectory]
  -- places in the order of the four cases that say what is where
  have hget := h.get? other
  split at hget
  next heq =>
    rw [heq, hplace, ← heq, Tree.hasDirectory, hget, hcontents]
    rfl
  split at hget
  next heq =>
    rw [Tree.hasDirectory, hget, Tree.hasDirectory, heq, hcontents]
    rfl
  split at hget
  next haside =>
    obtain ⟨-, hfree, -⟩ := h.kept other haside
    have hother : tree.hasDirectory other = false := by simp [Tree.hasDirectory, hfree]
    rw [hother, ← hplace]
    exact congrArg (Option.any Node.isDirectory) hget
  exact Tree.hasDirectory_congr hget

/-- A staged file that waits for its turn stays ready. -/
theorem Replaced.ready {reserved : List String} {tree tree' : Tree} {file waiting : Staged}
    {moved : Moved} {place : Place} (h : Replaced reserved tree tree' file moved place)
    (hspelled : ∀ segment ∈ file.destination.segments, segment ∈ reserved)
    (hwaiting : waiting.Ready reserved tree) (hne : waiting.temporary ≠ file.temporary) :
    tree'.get? waiting.temporary = tree.get? waiting.temporary ∧
      waiting.Ready reserved tree' := by
  obtain ⟨contents, hcontents⟩ := hwaiting.present
  have hplace : waiting.temporary ≠ place := hwaiting.apart.ne_of_slot hspelled h.slot
  have haside : moved.previous ≠ some waiting.temporary := by
    intro heq
    obtain ⟨-, hfree, -⟩ := h.kept _ heq
    rw [hfree] at hcontents
    cases hcontents
  have hget : tree'.get? waiting.temporary = tree.get? waiting.temporary := by
    rw [h.get?, if_neg hplace, if_neg hne, if_neg haside]
  exact ⟨hget, hwaiting.apart, ⟨contents, hget.trans hcontents⟩, hwaiting.segments,
    hwaiting.spelled⟩

/-! ## Undoing moves -/

/-- Undoing a move does the same to trees that are the same. -/
theorem Tree.Same.undo {a b : Tree} (h : Same a b) (moved : Moved) :
    Same (undo a moved) (undo b moved) := by
  unfold Storage.undo
  cases moved.previous with
  | none =>
    dsimp only
    unfold Tree.removeFile
    rw [h.follow]
    cases b.follow moved.destination with
    | error cause => exact h
    | ok place =>
      dsimp only
      rw [h.hasDirectory]
      split
      · exact h
      · exact h.erase place
  | some aside =>
    dsimp only
    unfold Tree.moveOnto
    rw [h.slot]
    cases b.slot moved.destination with
    | error cause => cases cause <;> exact h
    | ok found =>
      cases found with
      | dots => exact h
      | named place slash =>
        dsimp only
        rw [h.hasDirectory]
        split
        · exact h
        split
        · exact h
        · exact h.move aside place

theorem Tree.Same.undoAll :
    ∀ (moved : List Moved) {a b : Tree}, Same a b → Same (undoAll a moved) (undoAll b moved)
  | [], _, _, h => h
  | first :: moved, _, _, h => Tree.Same.undoAll moved (h.undo first)

/-- A file that replaced nothing is removed. -/
theorem undo_of_previous_none {tree : Tree} {moved : Moved} {place : Place} {contents : ByteArray}
    (hprevious : moved.previous = none)
    (hslot : tree.slot moved.destination = .ok (.named place false))
    (hplace : tree.get? place = some (.file contents)) : undo tree moved = tree.erase place := by
  have hdirectory : tree.hasDirectory place = false := by
    simp [Tree.hasDirectory, hplace, Node.isDirectory]
  unfold undo
  rw [hprevious]
  dsimp only
  rw [Tree.removeFile, Tree.follow_of_slot hslot (by rw [hplace]; rfl)]
  simp [hdirectory, attempt]

/-- A path does not lead to the temporary file of any waiting file. -/
theorem not_mem_temporaries {reserved : List String} {tree : Tree} {path : Path} {place : Place}
    {slash : Bool} (hspelled : ∀ segment ∈ path.segments, segment ∈ reserved)
    (hslot : tree.slot path = .ok (.named place slash)) {files : List Staged}
    (hapart : ∀ file ∈ files, Apart reserved file.temporary) :
    place ∉ files.map (·.temporary) := by
  intro hmem
  obtain ⟨file, hfile, heq⟩ := List.mem_map.mp hmem
  exact (hapart file hfile).ne_of_slot hspelled hslot heq

section SameUndo

variable {reserved : List String} {tree tree' : Tree} {file : Staged} {moved : Moved}
  {place : Place} {gone : List Staged}

/-- The path of a file that was moved into place leads to it, whichever waiting files are gone. -/
theorem Replaced.slot_discard (h : Replaced reserved tree tree' file moved place)
    (hready : file.Ready reserved tree) (hgone : ∀ other ∈ gone, other.Ready reserved tree') :
    (discard tree' gone).slot moved.destination = .ok (.named place false) ∧
      ∃ contents, (discard tree' gone).get? place = some (.file contents) := by
  have hapart : ∀ other ∈ gone, Apart reserved other.temporary :=
    fun other hother => (hgone other hother).apart
  constructor
  · have hwithin : Within tree (discard tree' gone) := by
      refine ⟨by rw [here_discard, h.here], fun other hother => ?_⟩
      rw [hasDirectory_discard hgone, h.hasDirectory hready, hother]
    rw [h.destination]
    exact hwithin.slot h.slot
  · obtain ⟨contents, hcontents⟩ := hready.present
    refine ⟨contents, ?_⟩
    rw [get?_discard hapart, if_neg (not_mem_temporaries hready.spelled h.slot hapart), h.get?,
      if_pos rfl, hcontents]

/-- Undoing a move to a free place. -/
theorem Replaced.same_undo_of_none (h : Replaced reserved tree tree' file moved place)
    (hready : file.Ready reserved tree) (hgone : ∀ other ∈ gone, other.Ready reserved tree')
    (hprevious : moved.previous = none) :
    Same (undo (discard tree' gone) moved) (discard tree (file :: gone)) := by
  have hapart : ∀ other ∈ gone, Apart reserved other.temporary :=
    fun other hother => (hgone other hother).apart
  have hapart' : ∀ other ∈ file :: gone, Apart reserved other.temporary :=
    List.forall_mem_cons.mpr ⟨hready.apart, hapart⟩
  have hplaceFile : file.temporary ≠ place := hready.apart.ne_of_slot hready.spelled h.slot
  obtain ⟨hslot, contents, hplace⟩ := h.slot_discard hready hgone
  obtain ⟨name, outer, rfl, -⟩ := Tree.exists_of_slot h.slot
  rw [undo_of_previous_none hprevious hslot hplace]
  refine ⟨by simp [here_discard, h.here], fun other => ?_⟩
  rw [Tree.get?_erase, get?_discard hapart, get?_discard hapart', h.get?, hprevious]
  by_cases hother : other = name :: outer
  · simp [hother, h.free hprevious]
  · by_cases hfile : other = file.temporary
    · simp [hfile, hplaceFile]
    · simp [hother, hfile]

/-- Undoing a move onto a file, which was kept aside. -/
theorem Replaced.same_undo_of_some (h : Replaced reserved tree tree' file moved place)
    (hready : file.Ready reserved tree) (hgone : ∀ other ∈ gone, other.Ready reserved tree')
    (hwaiting : ∀ other ∈ gone, other.Ready reserved tree) {aside : Place}
    (hprevious : moved.previous = some aside) :
    Same (undo (discard tree' gone) moved) (discard tree (file :: gone)) := by
  have hapart : ∀ other ∈ gone, Apart reserved other.temporary :=
    fun other hother => (hgone other hother).apart
  have hapart' : ∀ other ∈ file :: gone, Apart reserved other.temporary :=
    List.forall_mem_cons.mpr ⟨hready.apart, hapart⟩
  obtain ⟨hslot, contents, hplace⟩ := h.slot_discard hready hgone
  obtain ⟨⟨name', outer', rfl, -⟩, hfree, old, hold⟩ := h.kept aside hprevious
  -- the place aside was free when the waiting files and the moved one were there
  have haside : name' :: outer' ∉ (file :: gone).map (·.temporary) := by
    intro hmem
    obtain ⟨other, hother, heq⟩ := List.mem_map.mp hmem
    obtain ⟨kept, hkept⟩ := (List.forall_mem_cons.mpr ⟨hready, hwaiting⟩ other hother).present
    rw [heq, hfree] at hkept
    cases hkept
  have hasidePlace : name' :: outer' ≠ place := by
    intro heq
    rw [heq, hold] at hfree
    cases hfree
  have hplaceNot : place ∉ (file :: gone).map (·.temporary) :=
    not_mem_temporaries hready.spelled h.slot hapart'
  rw [List.map_cons, List.mem_cons, not_or] at haside
  have hkept : (discard tree' gone).get? (name' :: outer') = some (.file old) := by
    rw [get?_discard hapart, if_neg haside.2, h.get?, if_neg hasidePlace, if_neg haside.1,
      hprevious, if_pos rfl, hold]
  obtain ⟨name, outer, rfl, -⟩ := Tree.exists_of_slot h.slot
  have hfile : (discard tree' gone).hasDirectory (name :: outer) = false := by
    simp [Tree.hasDirectory, hplace, Node.isDirectory]
  rw [undo_of_previous_some hprevious hslot hfile]
  refine ⟨by rw [Tree.here_move, here_discard, here_discard, h.here], fun other => ?_⟩
  rw [Tree.get?_move hkept (List.cons_ne_nil _ _) (List.cons_ne_nil _ _), get?_discard hapart,
    get?_discard hapart', h.get?, hprevious]
  -- four kinds of places: the file's, the one aside, the temporary one, and all others
  by_cases hother : other = name :: outer
  · rw [if_pos hother, hother, if_neg hplaceNot, hold]
  · by_cases hother' : other = name' :: outer'
    · simp [hother', hfree, hasidePlace]
    · by_cases hfile : other = file.temporary
      · have hne : file.temporary ≠ name :: outer := hfile ▸ hother
        have hne' : file.temporary ≠ name' :: outer' := hfile ▸ hother'
        simp [hfile, hne, hne']
      · simp [hother, hother', Ne.symm hother', hfile]

/-- Undoing a move gives the tree before it, without the file that was moved. Files that wait may
be gone already. -/
theorem Replaced.same_undo (h : Replaced reserved tree tree' file moved place)
    (hready : file.Ready reserved tree)
    (hgone : ∀ other ∈ gone, other.Ready reserved tree ∧ other.temporary ≠ file.temporary) :
    Same (undo (discard tree' gone) moved) (discard tree (file :: gone)) := by
  have hgone' : ∀ other ∈ gone, other.Ready reserved tree' := fun other hother =>
    (h.ready hready.spelled (hgone other hother).1 (hgone other hother).2).2
  cases hprevious : moved.previous with
  | none => exact h.same_undo_of_none hready hgone' hprevious
  | some aside =>
    exact h.same_undo_of_some hready hgone' (fun other hother => (hgone other hother).1) hprevious

end SameUndo

/-! ## All moves -/

/-- Moving can be taken back: of the files staged in `tree₀`, those in `past` are in place and
recorded in `moved`, those in `pending` wait, and undoing the moves gives `tree₀` without the files
that are in place. Waiting files may be discarded before the moves are undone. -/
structure Moving (reserved : List String) (tree₀ : Tree) (past pending : List Staged)
    (moved : List Moved) (tree : Tree) : Prop where
  up : ∀ place, tree.hasDirectory place = true → tree.hasDirectory place.tail = true
  ready : ∀ file ∈ pending, file.Ready reserved tree
  distinct : (pending.map (·.temporary)).Nodup
  vacant : ∀ file ∈ pending, tree.isDirectory file.destination = false
  undone : ∀ gone, gone ⊆ pending →
    Same (undoAll (discard tree gone) moved) (discard tree₀ (past ++ gone))

/-- A move into place can be taken back along with those before it. -/
theorem Moving.replace {reserved : List String} {tree₀ tree tree' : Tree} {past rest : List Staged}
    {file : Staged} {moved : List Moved} {done : Moved} {place : Place}
    (h : Moving reserved tree₀ past (file :: rest) moved tree)
    (hreplaced : Replaced reserved tree tree' file done place) :
    Moving reserved tree₀ (past ++ [file]) rest (done :: moved) tree' := by
  have hready := h.ready file List.mem_cons_self
  have hdistinct : ∀ other ∈ rest, other.temporary ≠ file.temporary := by
    intro other hother heq
    have hnot := (List.nodup_cons.mp h.distinct).1
    exact hnot (List.mem_map.mpr ⟨other, hother, heq⟩)
  have hrest : ∀ other ∈ rest, other.Ready reserved tree :=
    fun other hother => h.ready other (List.mem_cons_of_mem _ hother)
  -- directories stay, so no destination has become one
  have hback : Within tree' tree := ⟨hreplaced.here, fun other hother =>
    (hreplaced.hasDirectory hready other).symm.trans hother⟩
  refine ⟨fun other hother => ?_, fun other hother => ?_, (List.nodup_cons.mp h.distinct).2,
    fun other hother => ?_, fun gone hgone => ?_⟩
  · rw [hreplaced.hasDirectory hready] at hother ⊢
    exact h.up other hother
  · exact (hreplaced.ready hready.spelled (hrest other hother) (hdistinct other hother)).2
  · exact hback.isDirectory (h.vacant other (List.mem_cons_of_mem _ hother))
  -- the last move is undone first; what is left is undone as before the move
  · have hundo : Same (undo (discard tree' gone) done) (discard tree (file :: gone)) :=
      hreplaced.same_undo hready fun other hother =>
        ⟨hrest other (hgone hother), hdistinct other (hgone hother)⟩
    have hall := (Tree.Same.undoAll moved hundo).trans
      (h.undone (file :: gone) (List.cons_subset_cons file hgone))
    rw [List.append_assoc]
    exact hall

/-- If a file cannot be moved, the result is the staged tree without its temporary files. -/
theorem Moving.moveAll {faults : Faults} {reserved : List String} {tree₀ : Tree} :
    ∀ {pending past : List Staged} {moved : List Moved} {tree tree' : Tree} {error : WriteError},
      (∀ file ∈ past, Apart reserved file.temporary) →
      Moving reserved tree₀ past pending moved tree →
      moveAll faults reserved tree moved pending = (tree', .error error) →
      Same tree' (discard tree₀ (past ++ pending))
  | [], _, _, _, _, _, _, _, hrun => by cases hrun
  | file :: rest, past, moved, tree, tree', error, hpast, h, hrun => by
    have hready := h.ready file List.mem_cons_self
    unfold Storage.moveAll at hrun
    obtain ⟨tree'', done, place, hreplace, hreplaced⟩ | ⟨tree'', cause, hreplace, hsame⟩ :=
      replace_cases faults moved.length hready h.up (h.vacant file List.mem_cons_self)
    -- this move is done: the failure is in a later one
    · rw [hreplace] at hrun
      have hpast' : ∀ other ∈ past ++ [file], Apart reserved other.temporary := by
        intro other hother
        rcases List.mem_append.mp hother with hold | hlast
        · exact hpast other hold
        · exact List.mem_singleton.mp hlast ▸ hready.apart
      have hall := Moving.moveAll hpast' (h.replace hreplaced) hrun
      rwa [List.append_assoc] at hall
    -- this move fails: the moves before it are undone, then the files that wait are discarded
    · rw [hreplace] at hrun
      obtain ⟨rfl, -⟩ := Prod.mk.inj hrun
      have hundone : Same (undoAll tree'' moved) (discard tree₀ (past ++ [file])) :=
        (Tree.Same.undoAll moved hsame).trans (h.undone [file] (by simp))
      have hrest : ∀ other ∈ rest, Apart reserved other.temporary :=
        fun other hother => (h.ready other (List.mem_cons_of_mem _ hother)).apart
      have hdiscard := hundone.discard hrest
      simpa [discard, List.foldl_append] using hdiscard

/-- The staged files can be moved if no destination is a directory. -/
theorem Staging.Sound.moving {reserved : List String} {original : Tree} {staging : Staging}
    (h : staging.Sound reserved original)
    (hnone : (staging.staged.find? fun file => staging.tree.isDirectory file.destination) = none) :
    Moving reserved staging.tree [] staging.staged [] staging.tree :=
  ⟨h.closed.up, h.ready, h.distinct,
    fun file hfile => by simpa using List.find?_eq_none.mp hnone file hfile, fun _ _ => .refl _⟩

/-- A failed move into place only discards the temporary files. -/
theorem commit_error {faults : Faults} {reserved : List String} {original tree' : Tree}
    {staging : Staging} (h : staging.Sound reserved original) {error : WriteError}
    (hrun : commit faults reserved staging.tree staging.staged = (tree', .error error)) :
    Same tree' (discard staging.tree staging.staged) := by
  unfold commit at hrun
  split at hrun
  next =>
    cases hrun
    exact .refl _
  next hnone =>
    split at hrun
    next => cases hrun
    next tree'' error' hmove =>
      cases hrun
      exact (h.moving hnone).moveAll (by simp) hmove

/-! ## Failed writes -/

theorem segments_ofText_ne_nil (text : String) : (Path.ofText text).segments ≠ [] := by
  simpa [Path.ofText] using Text.splitWhere_ne_nil _ _

/-- The segments of a path below a directory are those of the two. -/
theorem mem_segments_join {directory path : Path} {segment : String}
    (h : segment ∈ (directory.join path).segments) :
    segment ∈ directory.segments ∨ segment ∈ path.segments := by
  unfold Path.join at h
  dsimp only at h
  split at h
  · exact .inr h
  rcases List.mem_append.mp h with hfront | hpath
  · refine .inl ?_
    split at hfront
    · exact List.mem_of_mem_dropLast hfront
    · exact hfront
  · exact .inr hpath

theorem segments_join_ne_nil (directory : Path) {path : Path} (h : path.segments ≠ []) :
    (directory.join path).segments ≠ [] := by
  unfold Path.join
  dsimp only
  split
  · exact h
  · simp [h]

/-- Nothing staged can be taken back to the tree itself. -/
theorem Staging.sound_initial {tree : Tree} (h : tree.Closed) (reserved : List String) :
    Staging.Sound reserved tree ⟨tree, [], [], []⟩ :=
  ⟨h, by simp, by simp, .refl tree⟩

/-- The files of a write are staged soundly, however far staging comes. -/
theorem Staging.sound_of_write (faults : Faults) {tree : Tree} (h : tree.Closed)
    (directory : Path) (artifacts : List Artifact) :
    (stageAll faults (pathNames directory artifacts) directory ⟨tree, [], [], []⟩
      artifacts).1.Sound (pathNames directory artifacts) tree := by
  refine (Staging.sound_initial h _).stageAll fun artifact hartifact => ?_
  refine ⟨segments_join_ne_nil directory (segments_ofText_ne_nil _), fun segment hsegment => ?_⟩
  rcases mem_segments_join hsegment with hdirectory | hpath
  · exact List.mem_append_left _ hdirectory
  · exact List.mem_append_right _ (List.mem_flatMap.mpr ⟨artifact, hartifact, hpath⟩)

/-- A failed write gives the tree back, whichever steps were refused. -/
theorem same_of_writeUnder_error {faults : Faults} {tree : Tree} (h : tree.Closed)
    {directory : Path} {artifacts : List Artifact} {error : WriteError}
    (herror : (writeUnder faults tree directory artifacts).result.outcome = .error error) :
    Same (writeUnder faults tree directory artifacts).tree tree := by
  have hsound := Staging.sound_of_write faults h directory artifacts
  unfold writeUnder at herror ⊢
  dsimp only at herror ⊢
  generalize stageAll faults (pathNames directory artifacts) directory ⟨tree, [], [], []⟩
    artifacts = outcome at hsound herror ⊢
  obtain ⟨staging, failure⟩ := outcome
  cases failure with
  -- the files were not even staged
  | some cause => exact hsound.restores
  | none =>
    dsimp only at hsound herror ⊢
    split at herror
    next => cases herror
    next tree' error' hcommit =>
      exact (Tree.Same.removeMade staging.made (commit_error hsound hcommit)).trans hsound.restores

/-- **All or nothing.** A write that fails, and a run that fails at whatever step, leave every file
and directory of the tree as it was and nothing besides. The failure may be due to the paths, to
what is in the tree, or to any step on the way there that the operating system refuses. -/
theorem failure_leaves_tree_same (faults : Faults) (tree : Tree) (h : tree.Closed) :
    (∀ directory artifacts error,
      (writeUnder faults tree directory artifacts).result.outcome = .error error →
        Same (writeUnder faults tree directory artifacts).tree tree) ∧
    (∀ settings failure,
      (generateUnder faults tree settings).result.outcome = .error failure →
        Same (generateUnder faults tree settings).tree tree) := by
  refine ⟨fun directory artifacts error herror => same_of_writeUnder_error h herror,
    fun settings failure hfailure => ?_⟩
  unfold generateUnder at hfailure ⊢
  dsimp only at hfailure ⊢
  -- up to the plan nothing is written
  cases hplan : (plan faults tree settings).outcome with
  | error early => exact .refl tree
  | ok planned =>
    obtain ⟨output, artifacts⟩ := planned
    rw [hplan] at hfailure
    dsimp only at hfailure ⊢
    cases hwrite : (writeUnder faults tree output artifacts).result.outcome with
    | error error => exact same_of_writeUnder_error h hwrite
    | ok paths =>
      simp only [Logged.outcome_bind, Logged.mapError, hplan, hwrite] at hfailure
      cases hfailure

/-- A working directory with one file in it. -/
def earlierOutput : Tree :=
  ⟨[(["first.h"], .file "old".toUTF8)], []⟩

theorem closed_earlierOutput : earlierOutput.Closed :=
  .of_nodes (by decide +kernel)

/-- Files for it: one needs directories, one replaces the file, and the slash after the last one
keeps it from being moved when the others are already in place. -/
def hopelessArtifacts : List Artifact :=
  [⟨"deep/er/second.h", "second"⟩, ⟨"first.h", "new"⟩, ⟨"third/", "third"⟩]

/-- The second file is not moved into place, although the old one has been set aside for it. -/
def failingDevice : Faults := fun step =>
  if step = .moveOnto 1 then some .inputOutput else none

theorem failure_leaves_earlierOutput_same :
    earlierOutput.Closed ∧
    (write earlierOutput Path.empty hopelessArtifacts).result.outcome =
      .error (.unmovable ⟨["third", ""]⟩ .notDirectory) ∧
    Same (write earlierOutput Path.empty hopelessArtifacts).tree earlierOutput ∧
    (writeUnder failingDevice earlierOutput Path.empty hopelessArtifacts).result.outcome =
      .error (.unmovable ⟨["first.h"]⟩ .inputOutput) ∧
    Same (writeUnder failingDevice earlierOutput Path.empty hopelessArtifacts).tree
      earlierOutput :=
  ⟨closed_earlierOutput, by decide +kernel,
    (failure_leaves_tree_same .none earlierOutput closed_earlierOutput).1 _ _
      (.unmovable ⟨["third", ""]⟩ .notDirectory) (by decide +kernel), by decide +kernel,
    (failure_leaves_tree_same failingDevice earlierOutput closed_earlierOutput).1 _ _
      (.unmovable ⟨["first.h"]⟩ .inputOutput) (by decide +kernel)⟩

end MavlinkCompiler.Storage
