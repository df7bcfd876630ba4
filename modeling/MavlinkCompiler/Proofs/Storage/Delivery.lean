import MavlinkCompiler.Proofs.Storage.Ancestry

/-!
# What a successful write leaves

A write that succeeds puts every file at its destination, and nothing else changes but for the
directories that were missing around the destinations. Files pass through temporary places and are
set aside on the way; the argument looks at the tree without these files at every moment.

* *Staging* (`Staging.Prepared`): without the temporary files, the tree is the original one with
  directories around destinations, and the temporary files hold what is to be written.
* *Moving* (`Brought`): a move changes what is at one place, and it neither adds nor removes a
  directory. So all paths keep leading where they lead in the staged tree, and what is found at a
  place in the end is what the last file brought there (`lastTo`).

Paths that are spelled differently may lead to the same place, so destinations are compared by their
places. `write_delivers` is the result, with `Delivered` for all that it says about the tree.
-/

namespace MavlinkCompiler.Storage

open MavlinkCompiler.Storage.Tree (Within)

/-- Where a file is to be written. -/
def destination (directory : Path) (artifact : Artifact) : Path :=
  directory.join (.ofText artifact.path)

/-! ## Staged files -/

/-- Where a staged file goes, and what it holds. -/
def Staged.arrival (tree : Tree) (file : Staged) : Path × Option Node :=
  (file.destination, tree.get? file.temporary)

/-- Of the files to write, those in `done` are staged. Without them the tree is the original one
with directories around their destinations. -/
structure Staging.Prepared (reserved : List String) (original : Tree) (directory : Path)
    (done : List Artifact) (staging : Staging) : Prop where
  here : staging.tree.here = original.here
  apart : ∀ file ∈ staging.staged, Apart reserved file.temporary
  arrivals : staging.staged.map (·.arrival staging.tree) = done.map fun artifact =>
    (destination directory artifact, some (.file artifact.contents.toUTF8))
  rest : ∀ place, (discard staging.tree staging.staged).get? place = original.get? place ∨
    original.get? place = none ∧
      (discard staging.tree staging.staged).get? place = some .directory ∧
      ∃ artifact ∈ done, Around staging.tree (destination directory artifact) place

/-- What staging a file does: it waits at a place that was free, and directories around its
destination may have been made. -/
structure Staging.Gains (reserved : List String) (directory : Path) (artifact : Artifact)
    (temporary : Place) (staging staging' : Staging) : Prop where
  apart : Apart reserved temporary
  free : staging.tree.get? temporary = none
  within : Within staging.tree staging'.tree
  staged : staging'.staged = staging.staged ++ [⟨temporary, destination directory artifact⟩]
  contents : staging'.tree.get? temporary = some (.file artifact.contents.toUTF8)
  others : ∀ place, place ≠ temporary →
    staging'.tree.get? place = staging.tree.get? place ∨
      staging.tree.get? place = none ∧ staging'.tree.get? place = some .directory ∧
        Around staging'.tree (destination directory artifact) place

theorem Staging.gains_of_stage {faults : Faults} {reserved : List String} {directory : Path}
    {staging staging' : Staging} {artifact : Artifact}
    (h : stage faults reserved directory staging artifact = (staging', none)) :
    ∃ temporary, Staging.Gains reserved directory artifact temporary staging staging' := by
  obtain ⟨tree, made, failure, hmake, ⟨tree', error, -, hstage⟩ |
    ⟨rfl, name, outer, events, hname, -, hfree, -, hstage⟩⟩ :=
      stage_cases faults reserved directory staging artifact
  · rw [h] at hstage
    cases hstage
  rw [h] at hstage
  cases hstage
  have hmade := around_of_makeDirectories hmake
  have hput : Within tree (tree.put (name :: outer) (.file artifact.contents.toUTF8)) :=
    .put_of_free hfree _
  refine ⟨name :: outer, ⟨name, outer, rfl, hname⟩, ?_,
    (makeDirectories_eq_ok hmake).1.trans hput, rfl, by simp, fun place hne => ?_⟩
  · rcases hmade (name :: outer) with hsame | ⟨hnone, -⟩
    · exact hsame.symm.trans hfree
    · exact hnone
  · show (tree.put (name :: outer) _).get? place = _ ∨ _
    rw [Tree.get?_put, if_neg hne]
    rcases hmade place with hsame | ⟨hnone, hdirectory, haround⟩
    · exact .inl hsame
    · exact .inr ⟨hnone, hdirectory, haround.mono hput⟩

/-- What is in the tree when a file is staged stays where it is. -/
theorem Staging.Gains.get?_eq_some {reserved : List String} {directory : Path}
    {artifact : Artifact} {temporary place : Place} {staging staging' : Staging} {node : Node}
    (h : Staging.Gains reserved directory artifact temporary staging staging')
    (hnode : staging.tree.get? place = some node) : staging'.tree.get? place = some node := by
  have hne : place ≠ temporary := by
    rintro rfl
    rw [h.free] at hnode
    cases hnode
  rcases h.others place hne with hsame | ⟨hnone, -⟩
  · rw [hsame, hnode]
  · rw [hnode] at hnone
    cases hnone

/-- Apart from the files that wait, only directories are new. -/
theorem Staging.Gains.get?_discard {reserved : List String} {directory : Path}
    {artifact : Artifact} {temporary : Place} {staging staging' : Staging}
    (h : Staging.Gains reserved directory artifact temporary staging staging')
    (hapart : ∀ file ∈ staging.staged, Apart reserved file.temporary)
    (hapart' : ∀ file ∈ staging'.staged, Apart reserved file.temporary) (place : Place) :
    (discard staging'.tree staging'.staged).get? place =
        (discard staging.tree staging.staged).get? place ∨
      (discard staging.tree staging.staged).get? place = none ∧
        (discard staging'.tree staging'.staged).get? place = some .directory ∧
        Around staging'.tree (destination directory artifact) place := by
  have hmem : place ∈ staging'.staged.map (·.temporary) ↔
      place ∈ staging.staged.map (·.temporary) ∨ place = temporary := by
    simp [h.staged]
  rw [Storage.get?_discard hapart, Storage.get?_discard hapart']
  by_cases hold : place ∈ staging.staged.map (·.temporary)
  · exact .inl (by rw [if_pos (hmem.mpr (.inl hold)), if_pos hold])
  rw [if_neg hold]
  by_cases hnew : place = temporary
  · exact .inl (by rw [if_pos (hmem.mpr (.inr hnew)), hnew, h.free])
  · rw [if_neg (fun hplace => (hmem.mp hplace).elim hold hnew)]
    exact h.others place hnew

/-- A file that is staged joins those that were staged before. -/
theorem Staging.Prepared.stage {faults : Faults} {reserved : List String} {original : Tree}
    {directory : Path} {done : List Artifact} {staging staging' : Staging} {artifact : Artifact}
    (h : staging.Prepared reserved original directory done)
    (hstage : Storage.stage faults reserved directory staging artifact = (staging', none)) :
    staging'.Prepared reserved original directory (done ++ [artifact]) := by
  obtain ⟨temporary, hgains⟩ := Staging.gains_of_stage hstage
  have hapart : ∀ file ∈ staging'.staged, Apart reserved file.temporary := by
    rw [hgains.staged, List.forall_mem_append]
    exact ⟨h.apart, by simpa using hgains.apart⟩
  refine ⟨hgains.within.here.symm.trans h.here, hapart, ?_, fun place => ?_⟩
  · -- the files staged before are where they were, with their contents
    have hold : staging.staged.map (·.arrival staging'.tree) =
        staging.staged.map (·.arrival staging.tree) := by
      refine List.map_congr_left fun file hfile => ?_
      have hmem := List.mem_map_of_mem (f := Staged.arrival staging.tree) hfile
      rw [h.arrivals] at hmem
      obtain ⟨artifact', -, heq⟩ := List.mem_map.mp hmem
      have hcontents := (Prod.mk.inj heq).2.symm
      rw [Staged.arrival, Staged.arrival, hcontents, hgains.get?_eq_some hcontents]
    rw [hgains.staged, List.map_append, List.map_append, hold, h.arrivals, List.map_singleton,
      List.map_singleton, Staged.arrival, hgains.contents]
  · rcases hgains.get?_discard h.apart hapart place with hsame | ⟨hnone, hdirectory, haround⟩
    · rw [hsame]
      rcases h.rest place with hrest | ⟨hnone, hdirectory, earlier, hearlier, haround⟩
      · exact .inl hrest
      · exact .inr ⟨hnone, hdirectory, earlier, List.mem_append_left _ hearlier,
          haround.mono hgains.within⟩
    · rcases h.rest place with hrest | ⟨-, hdirectory', -⟩
      · exact .inr ⟨hrest ▸ hnone, hdirectory, artifact, List.mem_concat_self, haround⟩
      · rw [hnone] at hdirectory'
        cases hdirectory'

/-- Files that are all staged are prepared. -/
theorem Staging.Prepared.stageAll {faults : Faults} {reserved : List String} {original : Tree}
    {directory : Path} {artifacts done : List Artifact} {staging staging' : Staging}
    (h : staging.Prepared reserved original directory done)
    (hrun : Storage.stageAll faults reserved directory staging artifacts = (staging', none)) :
    staging'.Prepared reserved original directory (done ++ artifacts) := by
  induction artifacts generalizing done staging with
  | nil =>
    cases hrun
    rwa [List.append_nil]
  | cons artifact rest ih =>
    rw [stageAll_cons] at hrun
    split at hrun
    next staged hstage =>
      have hrest := ih (h.stage hstage) hrun
      rwa [List.append_assoc] at hrest
    next => cases hrun

/-! ## Moves into place -/

/-- What the last of some arrivals brings to a place. -/
def lastTo (tree : Tree) (arrivals : List (Path × Option Node)) (place : Place) :
    Option (Option Node) :=
  (arrivals.reverse.find? fun arrival =>
    tree.slot arrival.1 = .ok (.named place false)).map (·.2)

theorem lastTo_cons (tree : Tree) (arrival : Path × Option Node)
    (rest : List (Path × Option Node)) (place : Place) :
    lastTo tree (arrival :: rest) place =
      (lastTo tree rest place).or
        (if tree.slot arrival.1 = .ok (.named place false) then some arrival.2 else none) := by
  unfold lastTo
  rw [List.reverse_cons, List.find?_append, List.find?_singleton, Option.map_or]
  congr 1
  by_cases hslot : tree.slot arrival.1 = .ok (.named place false)
  · simp [hslot]
  · simp [hslot]

/-- Where paths lead depends on the directories only. -/
theorem slot_iff_of_hasDirectory {a b : Tree} (hhere : a.here = b.here)
    (h : ∀ place, a.hasDirectory place = b.hasDirectory place) {path : Path} {place : Place}
    {slash : Bool} :
    a.slot path = .ok (.named place slash) ↔ b.slot path = .ok (.named place slash) := by
  have hab : Within a b := ⟨hhere, fun other hother => h other ▸ hother⟩
  have hba : Within b a := ⟨hhere.symm, fun other hother => (h other).trans hother⟩
  exact ⟨hab.slot, hba.slot⟩

theorem lastTo_congr {a b : Tree} (hhere : a.here = b.here)
    (h : ∀ place, a.hasDirectory place = b.hasDirectory place)
    (arrivals : List (Path × Option Node)) (place : Place) :
    lastTo a arrivals place = lastTo b arrivals place := by
  unfold lastTo
  simp only [slot_iff_of_hasDirectory hhere h]

/-- The places of the files that wait and of those that were set aside. -/
def spare (pending : List Staged) (moved : List Moved) : List Place :=
  pending.map (·.temporary) ++ moved.filterMap (·.previous)

/-- A tree without the files that wait and those that were set aside. -/
def tidied (tree : Tree) (pending : List Staged) (moved : List Moved) : Tree :=
  (spare pending moved).foldl Tree.erase tree

theorem tidied_eq (tree : Tree) (pending : List Staged) (moved : List Moved) :
    tidied tree pending moved = dropPrevious (discard tree pending) moved := by
  rw [tidied, spare, List.foldl_append, dropPrevious, discard_eq_foldl]

/-- What was in the way of a file is kept under a name of its own, and it is no directory. -/
def Moved.Kept (reserved : List String) (tree : Tree) (done : Moved) : Prop :=
  ∀ aside, done.previous = some aside → Apart reserved aside ∧ tree.hasDirectory aside = false

theorem apart_spare {reserved : List String} {tree : Tree} {pending : List Staged}
    {moved : List Moved} (hpending : ∀ file ∈ pending, Apart reserved file.temporary)
    (hmoved : ∀ done ∈ moved, done.Kept reserved tree) :
    ∀ place ∈ spare pending moved, Apart reserved place := by
  intro place hplace
  rcases List.mem_append.mp hplace with hwaiting | haside
  · obtain ⟨file, hfile, rfl⟩ := List.mem_map.mp hwaiting
    exact hpending file hfile
  · obtain ⟨done, hdone, heq⟩ := List.mem_filterMap.mp haside
    exact (hmoved done hdone place heq).1

section Replaced

variable {reserved : List String} {tree tree' : Tree} {file : Staged} {done : Moved}
  {place : Place}

/-- A move keeps what is kept aside, and adds to it what was in the way. -/
theorem Replaced.kept_cons (h : Replaced reserved tree tree' file done place)
    (hready : file.Ready reserved tree) {moved : List Moved}
    (hmoved : ∀ earlier ∈ moved, earlier.Kept reserved tree) :
    ∀ earlier ∈ done :: moved, earlier.Kept reserved tree' := by
  refine List.forall_mem_cons.mpr ⟨fun aside haside => ?_, fun earlier hearlier aside haside => ?_⟩
  · obtain ⟨hapart, hfree, -⟩ := h.kept aside haside
    refine ⟨hapart, ?_⟩
    rw [h.hasDirectory hready, Tree.hasDirectory, hfree]
    rfl
  · rw [h.hasDirectory hready]
    exact hmoved earlier hearlier aside haside

/-- Without the files that wait and those set aside, a move changes what is at one place. -/
theorem Replaced.get?_tidied (h : Replaced reserved tree tree' file done place)
    (hready : file.Ready reserved tree) {rest : List Staged} {moved : List Moved}
    (hrest : ∀ waiting ∈ rest, Apart reserved waiting.temporary)
    (hmoved : ∀ earlier ∈ moved, earlier.Kept reserved tree) (other : Place) :
    (tidied tree' rest (done :: moved)).get? other =
      if other = place then tree.get? file.temporary
      else (tidied tree (file :: rest) moved).get? other := by
  have hapart := apart_spare hrest (h.kept_cons hready hmoved)
  have hapart' := apart_spare (List.forall_mem_cons.mpr ⟨hready.apart, hrest⟩) hmoved
  rw [tidied, tidied, get?_foldl_erase hapart, get?_foldl_erase hapart', h.get?]
  have hmem : other ∈ spare rest (done :: moved) ↔
      other ∈ spare rest moved ∨ done.previous = some other := by
    simp only [spare, List.mem_append, List.mem_filterMap, List.mem_cons, exists_eq_or_imp,
      or_assoc]
    exact or_congr_right or_comm
  have hmem' : other ∈ spare (file :: rest) moved ↔
      other = file.temporary ∨ other ∈ spare rest moved := by
    simp [spare]
  by_cases hplace : other = place
  · -- the destination has none of the names that are apart
    have hnot : other ∉ spare rest (done :: moved) := fun hspare =>
      (hapart other hspare).ne_of_slot hready.spelled h.slot hplace
    rw [if_neg hnot, if_pos hplace, if_pos hplace]
  rw [if_neg hplace, if_neg hplace]
  by_cases hspare : other ∈ spare rest moved
  · rw [if_pos (hmem.mpr (.inl hspare)), if_pos (hmem'.mpr (.inr hspare))]
  by_cases haside : done.previous = some other
  · rw [if_pos (hmem.mpr (.inr haside)), (h.kept other haside).2.1, ite_self]
  · rw [if_neg (fun hother => (hmem.mp hother).elim hspare haside), if_neg haside]
    simp only [hmem', hspare, or_false]

end Replaced

/-- What moving files into place makes of a tree: every file has a place, and what is found at a
place is what the last file brought there, or else what was there. -/
structure Brought (tree : Tree) (pending : List Staged) (moved : List Moved) (after : Tree) :
    Prop where
  here : after.here = tree.here
  hasDirectory : ∀ place, after.hasDirectory place = tree.hasDirectory place
  placed : ∀ file ∈ pending, ∃ place, tree.slot file.destination = .ok (.named place false)
  get? : ∀ place, after.get? place =
    (lastTo tree (pending.map (·.arrival tree)) place).getD
      ((tidied tree pending moved).get? place)

/-- When no file waits, what is left to do is to remove those set aside. -/
theorem brought_nil {reserved : List String} {tree : Tree} {moved : List Moved}
    (hmoved : ∀ done ∈ moved, done.Kept reserved tree) :
    Brought tree [] moved (dropPrevious tree moved.reverse) := by
  have hapart : ∀ place ∈ spare [] moved, Apart reserved place := apart_spare (by simp) hmoved
  have hget : ∀ place, (dropPrevious tree moved.reverse).get? place =
      (tidied tree [] moved).get? place := by
    intro place
    have hmem : place ∈ spare [] moved.reverse ↔ place ∈ spare [] moved := by simp [spare]
    have hreverse : dropPrevious tree moved.reverse = tidied tree [] moved.reverse :=
      (tidied_eq tree [] _).symm
    rw [hreverse, tidied, tidied, get?_foldl_erase hapart,
      get?_foldl_erase fun other hother => hapart other (by simpa [spare] using hother)]
    simp only [hmem]
  refine ⟨here_foldl_erase _ _, fun place => ?_, by simp, hget⟩
  have hplace := hget place
  rw [tidied, get?_foldl_erase hapart] at hplace
  split at hplace
  next hspare =>
    -- what was set aside is no directory
    obtain ⟨done, hdone, haside⟩ := List.mem_filterMap.mp (by simpa [spare] using hspare)
    rw [(hmoved done hdone place haside).2, Tree.hasDirectory, hplace]
    rfl
  next => exact Tree.hasDirectory_congr hplace

/-- One more file is brought before the others. -/
theorem Brought.cons {reserved : List String} {tree tree' after : Tree} {file : Staged}
    {rest : List Staged} {moved : List Moved} {done : Moved} {place : Place}
    (h : Brought tree' rest (done :: moved) after)
    (hreplaced : Replaced reserved tree tree' file done place)
    (hready : ∀ waiting ∈ file :: rest, waiting.Ready reserved tree)
    (hdistinct : ((file :: rest).map (·.temporary)).Nodup)
    (hmoved : ∀ earlier ∈ moved, earlier.Kept reserved tree) :
    Brought tree (file :: rest) moved after := by
  obtain ⟨hfile, hrest⟩ := List.forall_mem_cons.mp hready
  have hdirectory := hreplaced.hasDirectory hfile
  -- the files that wait are not touched
  have harrivals : rest.map (·.arrival tree') = rest.map (·.arrival tree) := by
    refine List.map_congr_left fun waiting hwaiting => ?_
    have hne : waiting.temporary ≠ file.temporary := by
      intro heq
      exact (List.nodup_cons.mp hdistinct).1 (List.mem_map.mpr ⟨waiting, hwaiting, heq⟩)
    rw [Staged.arrival, Staged.arrival,
      (hreplaced.ready hfile.spelled (hrest waiting hwaiting) hne).1]
  refine ⟨h.here.trans hreplaced.here, fun other => (h.hasDirectory other).trans (hdirectory other),
    List.forall_mem_cons.mpr ⟨⟨place, hreplaced.slot⟩, fun waiting hwaiting => ?_⟩,
    fun other => ?_⟩
  · obtain ⟨target, htarget⟩ := h.placed waiting hwaiting
    exact ⟨target, (slot_iff_of_hasDirectory hreplaced.here hdirectory).mp htarget⟩
  · rw [h.get?, harrivals, lastTo_congr hreplaced.here hdirectory, List.map_cons, lastTo_cons,
      hreplaced.get?_tidied hfile (fun waiting hwaiting => (hrest waiting hwaiting).apart) hmoved]
    cases lastTo tree (rest.map (·.arrival tree)) other with
    | some node => rfl
    | none =>
      have hslot : tree.slot (file.arrival tree).1 = .ok (.named other false) ↔ other = place := by
        rw [Staged.arrival, hreplaced.slot]
        simp [eq_comm]
      rw [Option.none_or, Option.getD_none]
      by_cases hother : other = place
      · rw [if_pos hother, if_pos (hslot.mpr hother)]
        rfl
      · rw [if_neg hother, if_neg (hslot.not.mpr hother)]
        rfl

/-- Moves that all succeed bring every file. -/
theorem brought_of_moveAll {faults : Faults} {reserved : List String} {tree₀ : Tree} :
    ∀ {pending past : List Staged} {moved moved' : List Moved} {tree tree' : Tree},
      Moving reserved tree₀ past pending moved tree →
      (∀ done ∈ moved, done.Kept reserved tree) →
      moveAll faults reserved tree moved pending = (tree', .ok moved') →
      Brought tree pending moved (dropPrevious tree' moved') ∧
        moved'.map (·.destination) =
          moved.reverse.map (·.destination) ++ pending.map (·.destination)
  | [], _, moved, moved', tree, tree', _, hmoved, hrun => by
    cases hrun
    exact ⟨brought_nil hmoved, by simp⟩
  | file :: rest, past, moved, moved', tree, tree', h, hmoved, hrun => by
    have hready := h.ready file List.mem_cons_self
    unfold moveAll at hrun
    obtain ⟨tree'', done, place, hreplace, hreplaced⟩ | ⟨tree'', cause, hreplace, -⟩ :=
      replace_cases faults moved.length hready h.up (h.vacant file List.mem_cons_self)
    · rw [hreplace] at hrun
      obtain ⟨hrest, hdestinations⟩ := brought_of_moveAll (h.replace hreplaced)
        (hreplaced.kept_cons hready hmoved) hrun
      refine ⟨hrest.cons hreplaced h.ready h.distinct hmoved, ?_⟩
      rw [hdestinations, List.reverse_cons, List.map_append, List.map_singleton,
        hreplaced.destination, List.append_assoc]
      rfl
    · rw [hreplace] at hrun
      cases hrun

/-! ## Successful writes -/

/-- What a successful write makes of a tree. Where a path leads is asked afterwards, when all
directories are there; paths that lead to the same place have the same destination, however they are
spelled. -/
structure Delivered (tree : Tree) (directory : Path) (artifacts : List Artifact) (after : Tree) :
    Prop where
  /-- The directories stay, and so does the working directory. -/
  within : Within tree after
  /-- Every path leads somewhere. -/
  reached : ∀ artifact ∈ artifacts, ∃ place,
    after.follow (destination directory artifact) = .ok place
  /-- A destination holds what was written to it last. -/
  last : ∀ front artifact back place, artifacts = front ++ artifact :: back →
    after.follow (destination directory artifact) = .ok place →
    (∀ later ∈ back, after.follow (destination directory later) ≠ .ok place) →
    after.get? place = some (.file artifact.contents.toUTF8)
  /-- Everything else that was there is unchanged. -/
  kept : ∀ place node, tree.get? place = some node →
    (∀ artifact ∈ artifacts, after.follow (destination directory artifact) ≠ .ok place) →
    after.get? place = some node
  /-- Everything else that is new is a directory around a destination. -/
  added : ∀ place node, tree.get? place = none → after.get? place = some node →
    (∀ artifact ∈ artifacts, after.follow (destination directory artifact) ≠ .ok place) →
    node = .directory ∧ ∃ artifact ∈ artifacts, ∃ target,
      after.follow (destination directory artifact) = .ok target ∧
      place <:+ target ∧ place ≠ target
  /-- No temporary file and no file that was set aside is left. -/
  files : ∀ place contents, after.get? place = some (.file contents) →
    (∃ artifact ∈ artifacts, after.follow (destination directory artifact) = .ok place) ∨
      tree.get? place = some (.file contents)

section Delivered

variable {reserved : List String} {tree after : Tree} {directory : Path}
  {artifacts : List Artifact} {staging : Staging}

/-- What is where in the end, by the slots of the destinations. -/
theorem Staging.Prepared.get?_brought
    (h : staging.Prepared reserved tree directory artifacts)
    (hbrought : Brought staging.tree staging.staged [] after) (place : Place) :
    after.get? place =
      ((artifacts.reverse.find? fun artifact =>
          after.slot (destination directory artifact) = .ok (.named place false)).map
        fun artifact => some (.file artifact.contents.toUTF8)).getD
      ((discard staging.tree staging.staged).get? place) := by
  rw [hbrought.get?, tidied_eq, h.arrivals,
    ← lastTo_congr hbrought.here hbrought.hasDirectory, lastTo, ← List.map_reverse,
    List.find?_map, Option.map_map]
  rfl

theorem Staging.Prepared.exists_slot (h : staging.Prepared reserved tree directory artifacts)
    (hbrought : Brought staging.tree staging.staged [] after) {artifact : Artifact}
    (hartifact : artifact ∈ artifacts) :
    ∃ place, after.slot (destination directory artifact) = .ok (.named place false) := by
  have hmem := List.mem_map_of_mem (f := fun artifact : Artifact =>
    (destination directory artifact, some (Node.file artifact.contents.toUTF8))) hartifact
  rw [← h.arrivals] at hmem
  obtain ⟨file, hfile, heq⟩ := List.mem_map.mp hmem
  obtain ⟨place, hslot⟩ := hbrought.placed file hfile
  rw [(Prod.mk.inj heq).1] at hslot
  exact ⟨place, (slot_iff_of_hasDirectory hbrought.here hbrought.hasDirectory).mpr hslot⟩

/-- There is a file at every destination. -/
theorem Staging.Prepared.exists_file (h : staging.Prepared reserved tree directory artifacts)
    (hbrought : Brought staging.tree staging.staged [] after) {artifact : Artifact}
    (hartifact : artifact ∈ artifacts) :
    ∃ place contents, after.slot (destination directory artifact) = .ok (.named place false) ∧
      after.get? place = some (.file contents) := by
  obtain ⟨place, hslot⟩ := h.exists_slot hbrought hartifact
  have hget := h.get?_brought hbrought place
  cases hfound : artifacts.reverse.find? fun artifact =>
      after.slot (destination directory artifact) = .ok (.named place false) with
  | some found =>
    rw [hfound] at hget
    exact ⟨place, _, hslot, hget⟩
  | none =>
    have hnot := List.find?_eq_none.mp hfound artifact (List.mem_reverse.mpr hartifact)
    simp [hslot] at hnot

/-- The path of a file leads to its slot, because something is there. -/
theorem Staging.Prepared.follow_iff (h : staging.Prepared reserved tree directory artifacts)
    (hbrought : Brought staging.tree staging.staged [] after) {artifact : Artifact}
    (hartifact : artifact ∈ artifacts) (place : Place) :
    after.follow (destination directory artifact) = .ok place ↔
      after.slot (destination directory artifact) = .ok (.named place false) := by
  obtain ⟨target, contents, hslot, hcontents⟩ := h.exists_file hbrought hartifact
  have hfollow : after.follow (destination directory artifact) = .ok target :=
    Tree.follow_of_slot hslot (by rw [hcontents]; rfl)
  rw [hfollow, hslot]
  simp

/-- A destination holds what was brought last. -/
theorem Staging.Prepared.get?_last {front back : List Artifact} {artifact : Artifact}
    (h : staging.Prepared reserved tree directory (front ++ artifact :: back))
    (hbrought : Brought staging.tree staging.staged [] after) {place : Place}
    (hplace : after.follow (destination directory artifact) = .ok place)
    (hback : ∀ later ∈ back, after.follow (destination directory later) ≠ .ok place) :
    after.get? place = some (.file artifact.contents.toUTF8) := by
  have hfound : (front ++ artifact :: back).reverse.find? (fun artifact =>
      after.slot (destination directory artifact) = .ok (.named place false)) =
      some artifact := by
    rw [List.find?_eq_some_iff_append]
    refine ⟨by simpa using (h.follow_iff hbrought (by simp) place).mp hplace, back.reverse,
      front.reverse, by simp, fun later hlater => ?_⟩
    have hmem := List.mem_reverse.mp hlater
    simpa using (h.follow_iff hbrought (by simp [hmem]) place).not.mp (hback later hmem)
  rw [h.get?_brought hbrought, hfound]
  rfl

/-- Other places are as they were when the files were staged, without these files. -/
theorem Staging.Prepared.get?_elsewhere (h : staging.Prepared reserved tree directory artifacts)
    (hbrought : Brought staging.tree staging.staged [] after) {place : Place}
    (hplace : ∀ artifact ∈ artifacts,
      after.follow (destination directory artifact) ≠ .ok place) :
    after.get? place = (discard staging.tree staging.staged).get? place := by
  rw [h.get?_brought hbrought, List.find?_eq_none.mpr]
  · rfl
  · intro artifact hartifact
    have hmem := List.mem_reverse.mp hartifact
    simpa using (h.follow_iff hbrought hmem place).not.mp (hplace artifact hmem)

/-- Staging takes nothing away. -/
theorem Staging.Prepared.get?_discard (h : staging.Prepared reserved tree directory artifacts)
    {place : Place} {node : Node} (hnode : tree.get? place = some node) :
    (discard staging.tree staging.staged).get? place = some node := by
  rcases h.rest place with hsame | ⟨hnone, -⟩
  · rw [hsame, hnode]
  · rw [hnode] at hnone
    cases hnone

/-- Staging leaves the directories where they are. -/
theorem Staging.Prepared.within (h : staging.Prepared reserved tree directory artifacts)
    (hready : ∀ file ∈ staging.staged, file.Ready reserved staging.tree) :
    Within tree staging.tree := by
  refine ⟨h.here.symm, fun place hplace => ?_⟩
  rw [← hasDirectory_discard hready, Tree.hasDirectory_iff]
  exact h.get?_discard (Tree.hasDirectory_iff.mp hplace)

/-- Files that were staged are delivered by bringing them. -/
theorem Staging.Prepared.delivered (h : staging.Prepared reserved tree directory artifacts)
    (hready : ∀ file ∈ staging.staged, file.Ready reserved staging.tree)
    (hbrought : Brought staging.tree staging.staged [] after) :
    Delivered tree directory artifacts after := by
  have hwithin : Within staging.tree after :=
    ⟨hbrought.here.symm, fun place hplace => (hbrought.hasDirectory place).trans hplace⟩
  refine ⟨?_, ?_, ?_, ?_, ?_, ?_⟩
  · exact (h.within hready).trans hwithin
  · intro artifact hartifact
    obtain ⟨place, hslot⟩ := h.exists_slot hbrought hartifact
    exact ⟨place, (h.follow_iff hbrought hartifact place).mpr hslot⟩
  · rintro front artifact back place rfl hplace hback
    exact h.get?_last hbrought hplace hback
  · intro place node hnode hplace
    rw [h.get?_elsewhere hbrought hplace, h.get?_discard hnode]
  · intro place node hnone hnode hplace
    rw [h.get?_elsewhere hbrought hplace] at hnode
    rcases h.rest place with hsame | ⟨-, hdirectory, artifact, hartifact, haround⟩
    · rw [hsame, hnone] at hnode
      cases hnode
    · -- the directory was made on the way to a destination, and the path still leads there
      obtain ⟨target, hslot⟩ := h.exists_slot hbrought hartifact
      obtain ⟨hsuffix, hne⟩ := haround after target hwithin hslot
      rw [hdirectory] at hnode
      cases hnode
      exact ⟨rfl, artifact, hartifact, target,
        (h.follow_iff hbrought hartifact target).mpr hslot, hsuffix, hne⟩
  · intro place contents hcontents
    by_cases hplace : ∃ artifact ∈ artifacts,
        after.follow (destination directory artifact) = .ok place
    · exact .inl hplace
    · have helsewhere := h.get?_elsewhere hbrought
        fun artifact hartifact heq => hplace ⟨artifact, hartifact, heq⟩
      rw [helsewhere] at hcontents
      rcases h.rest place with hsame | ⟨-, hdirectory, -⟩
      · exact .inr (hsame.symm.trans hcontents)
      · rw [hdirectory] at hcontents
        cases hcontents

end Delivered

/-- A successful commit brings the staged files. -/
theorem brought_of_commit {faults : Faults} {reserved : List String} {original after : Tree}
    {staging : Staging} (h : staging.Sound reserved original) {paths : List Path}
    (hrun : commit faults reserved staging.tree staging.staged = (after, .ok paths)) :
    Brought staging.tree staging.staged [] after ∧
      paths = staging.staged.map (·.destination) := by
  unfold commit at hrun
  split at hrun
  next => cases hrun
  next hnone =>
    split at hrun
    next tree moved hmove =>
      cases hrun
      exact brought_of_moveAll (h.moving hnone) (by simp) hmove
    next => cases hrun

/-- **Success.** A write that succeeds gives the paths of the files in order. Each destination holds
the last file for it, everything else is as it was but for new directories around destinations, and
nothing else is left. -/
theorem write_delivers (faults : Faults) (tree : Tree) (h : tree.Closed) (directory : Path)
    (artifacts : List Artifact) (paths : List Path)
    (hok : (writeUnder faults tree directory artifacts).result.outcome = .ok paths) :
    paths = artifacts.map (destination directory) ∧
      Delivered tree directory artifacts (writeUnder faults tree directory artifacts).tree := by
  have hsound := Staging.sound_of_write faults h directory artifacts
  unfold writeUnder at hok ⊢
  dsimp only at hok ⊢
  generalize hstage : stageAll faults (pathNames directory artifacts) directory
    ⟨tree, [], [], []⟩ artifacts = outcome at hsound hok ⊢
  obtain ⟨staging, failure⟩ := outcome
  cases failure with
  | some error => cases hok
  | none =>
    have hinitial : Staging.Prepared (pathNames directory artifacts) tree directory []
        ⟨tree, [], [], []⟩ := ⟨rfl, by simp, rfl, fun _ => .inl rfl⟩
    have hprepared := hinitial.stageAll hstage
    rw [List.nil_append] at hprepared
    dsimp only at hsound hok ⊢
    split at hok
    next after paths' hcommit =>
      cases hok
      obtain ⟨hbrought, hpaths⟩ := brought_of_commit hsound hcommit
      refine ⟨?_, hprepared.delivered hsound.ready hbrought⟩
      -- the destinations of the staged files are those of the files to write
      have hfirsts := congrArg (List.map Prod.fst) hprepared.arrivals
      rw [List.map_map, List.map_map] at hfirsts
      exact hpaths.trans hfirsts
    next => cases hok

/-- A file for the earlier output, one that needs directories, and the first one once more, with a
detour through these directories. -/
def repeatedArtifacts : List Artifact :=
  [⟨"first.h", "new"⟩, ⟨"deep/er/second.h", "second"⟩, ⟨"deep/../first.h", "newer"⟩]

theorem write_delivers_repeatedArtifacts :
    earlierOutput.Closed ∧
    (write earlierOutput Path.empty repeatedArtifacts).result.outcome =
      .ok [⟨["first.h"]⟩, ⟨["deep", "er", "second.h"]⟩, ⟨["deep", "..", "first.h"]⟩] ∧
    Delivered earlierOutput Path.empty repeatedArtifacts
      (write earlierOutput Path.empty repeatedArtifacts).tree :=
  ⟨closed_earlierOutput, by decide +kernel,
    (write_delivers .none earlierOutput closed_earlierOutput Path.empty repeatedArtifacts
      [⟨["first.h"]⟩, ⟨["deep", "er", "second.h"]⟩, ⟨["deep", "..", "first.h"]⟩]
      (by decide +kernel)).2⟩

end MavlinkCompiler.Storage
