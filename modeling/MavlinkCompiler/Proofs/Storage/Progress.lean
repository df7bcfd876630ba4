import MavlinkCompiler.Proofs.Storage.Delivery

/-!
# When a write succeeds

Where the directory around a destination is there and no step is refused, little can go wrong: no
directory has to be made, and temporary files can be created beside the destination. What is left is
the spelling of these files. They are spelled from the root, and a path that is too long cannot be
followed, although the path of the destination itself may well be short enough.

* `Path.size_eq`, `Path.refusal?_of_front`: the bytes of a path by its segments.
* `followDirectory_parent`, `missingDirectories_of_slot`: the parent of a path leads to the
  directory around its slot, so this directory is not missing.
* `Tree.beside`: how a temporary file beside a destination is spelled.
* `exists_stageAll`: files can be staged where the temporary files can be spelled.
* `moveAll_isOk_iff`, `commit_isOk_iff`: files that replace others can be moved into place exactly
  if the files in the way can be set aside.
-/

namespace MavlinkCompiler.Storage

open MavlinkCompiler.Storage.Tree (Within)

/-! ## The bytes of a path -/

namespace Path

theorem size_eq (segments : List String) :
    (Path.mk segments).size = (segments.map String.utf8ByteSize).sum + (segments.length - 1) := by
  induction segments with
  | nil => rfl
  | cons first rest ih =>
    cases rest with
    | nil => simp [size, text]
    | cons second rest =>
      have hcut : (Path.mk (first :: second :: rest)).size =
          first.utf8ByteSize + 1 + (Path.mk (second :: rest)).size := by
        show ("/".intercalate (first :: second :: rest)).utf8ByteSize = _
        rw [String.intercalate_cons_cons, String.utf8ByteSize_append, String.utf8ByteSize_append]
        rfl
      rw [hcut, ih]
      simp only [List.map_cons, List.sum_cons, List.length_cons]
      omega

theorem refusal?_eq_none_iff {path : Path} :
    path.refusal? = none ↔ path.hasNull = false ∧ path.size < pathLimit := by
  unfold refusal?
  cases path.hasNull with
  | true => simp
  | false => simp

/-- A path that can be followed can be followed part of the way. -/
theorem refusal?_of_front {front : List String} {path : Path} (h : front <+: path.segments)
    (hpath : path.refusal? = none) : (Path.mk front).refusal? = none := by
  obtain ⟨rest, hrest⟩ := h
  obtain ⟨hnull, hsize⟩ := refusal?_eq_none_iff.mp hpath
  refine refusal?_eq_none_iff.mpr ⟨?_, ?_⟩
  · rw [hasNull, ← hrest, List.any_append, Bool.or_eq_false_iff] at hnull
    exact hnull.1
  · have hwhole := size_eq path.segments
    rw [← hrest, List.map_append, List.sum_append, List.length_append, hrest] at hwhole
    have hfront := size_eq front
    show (Path.mk front).size < pathLimit
    have hsame : (Path.mk path.segments).size = path.size := rfl
    omega

/-! ## Parents -/

/-- Segments end with neutral ones after their longest front. Where there is no front, the segments
are slashes, or there are none. -/
theorem fronts_cases (segments : List String) :
    (fronts segments = [] ∧ (∀ segment ∈ segments, isNeutral segment = true) ∧
      ∀ first ∈ segments.head?, first = "") ∨
    ∃ first rest between, fronts segments = first :: rest ∧ segments = first ++ between ∧
      ∀ segment ∈ between, isNeutral segment = true := by
  induction segments using List.reverseRecOn with
  | nil => exact .inl ⟨rfl, by simp, by simp⟩
  | append_singleton front last ih =>
    rw [fronts_concat]
    by_cases hown : isFront (front ++ [last]) = true
    · rw [if_pos hown]
      exact .inr ⟨_, _, [], rfl, by simp, by simp⟩
    rw [if_neg hown]
    -- the last segment is neutral, otherwise it would end a front
    have hlast : isNeutral last = true := by
      by_contra hname
      exact hown (isFront_concat (by simpa using hname))
    rcases ih with ⟨hnone, hneutral, hhead⟩ | ⟨first, rest, between, hfronts, rfl, hneutral⟩
    · refine .inl ⟨hnone, ?_, ?_⟩
      · rw [List.forall_mem_append]
        exact ⟨hneutral, by simpa using hlast⟩
      · cases front with
        | cons first front => exact hhead
        | nil =>
          -- a single segment is a front unless it is empty
          intro first hfirst
          obtain rfl : last = first := by simpa using hfirst
          simpa [isFront] using hown
    · refine .inr ⟨first, rest, between ++ [last], hfronts, by simp, ?_⟩
      rw [List.forall_mem_append]
      exact ⟨hneutral, by simpa using hlast⟩

/-- The parent of a path that ends with a name is the longest front before the name. -/
theorem parent?_concat {path : Path} {inner : List String} {name : String}
    (hpath : path.segments = inner ++ [name]) (hname : isNeutral name = false) :
    path.parent? = some (((fronts inner).head?.map Path.mk).getD
      (if path.isAbsolute then root else empty)) := by
  unfold parent?
  rw [ancestry_concat hpath hname]
  cases fronts inner with
  | nil => rfl
  | cons first rest => rfl

end Path

/-- Neutral segments lead nowhere else. -/
theorem Tree.eq_of_walk_neutral {tree : Tree} {place goal : Place} {segments : List String}
    (hneutral : ∀ segment ∈ segments, Path.isNeutral segment = true)
    (hwalk : tree.walk place segments = .ok goal) : goal = place := by
  induction segments with
  | nil =>
    cases hwalk
    rfl
  | cons segment rest ih =>
    obtain ⟨hsegment, hrest⟩ := List.forall_mem_cons.mp hneutral
    unfold walk at hwalk
    split at hwalk
    · cases hwalk
    · exact ih hrest (by simpa [hsegment] using hwalk)

section Parent

variable {tree : Tree} {path : Path} {name : String} {outer : Place}

/-- The longest front before the name of a slot leads to the directory around the slot. -/
theorem walk_front (hslot : tree.slot path = .ok (.named (name :: outer) false))
    {first between : List String} {rest : List (List String)}
    (hpath : path.segments = first ++ between ++ [name])
    (hfronts : Path.fronts (first ++ between) = first :: rest)
    (hbetween : ∀ segment ∈ between, Path.isNeutral segment = true) :
    tree.walk (tree.start ⟨first⟩) first = .ok outer := by
  obtain ⟨inner, name', outer', hpath', -, hwalk, hplace⟩ := exists_concat_of_slot hslot
  obtain ⟨rfl, rfl⟩ := List.cons.inj hplace
  obtain rfl : first ++ between = inner :=
    List.append_inj_left' (hpath.symm.trans hpath') rfl
  have hmem : first ∈ Path.fronts (first ++ between) := hfronts ▸ List.mem_cons_self
  have hown := (Path.mem_fronts_iff.mp hmem).2
  have hfront : first <+: path.segments := ⟨between ++ [name], by simp [hpath]⟩
  rw [Tree.start, Path.isAbsolute_of_front hfront hown, ← Tree.start]
  rw [Tree.walk_append] at hwalk
  cases hmid : tree.walk (tree.start path) first with
  | error cause =>
    rw [hmid] at hwalk
    cases hwalk
  | ok mid =>
    rw [hmid] at hwalk
    rw [Tree.eq_of_walk_neutral hbetween hwalk]

/-- The parent of a path leads to the directory around its slot. -/
theorem followDirectory_parent (hslot : tree.slot path = .ok (.named (name :: outer) false)) :
    ∃ parent, path.parent? = some parent ∧ tree.followDirectory parent = .ok outer := by
  obtain ⟨name', outer', heq, -, houter⟩ := Tree.exists_of_slot hslot
  obtain ⟨rfl, rfl⟩ := List.cons.inj heq
  obtain ⟨inner, name', outer', hpath, hname, hwalk, heq⟩ := exists_concat_of_slot hslot
  obtain ⟨rfl, rfl⟩ := List.cons.inj heq
  refine ⟨_, Path.parent?_concat hpath hname, ?_⟩
  obtain ⟨hnone, hneutral, hhead⟩ | ⟨first, rest, between, hfronts, rfl, hbetween⟩ :=
    Path.fronts_cases inner
  · -- there is no front: the file is in the root or in the working directory
    have houter' := Tree.eq_of_walk_neutral hneutral hwalk
    rw [hnone, houter', Tree.start]
    cases inner with
    | nil =>
      have hrelative : path.isAbsolute = false := by
        simp [Path.isAbsolute, hpath]
      have hhere : tree.hasDirectory tree.here = true := by
        simpa [Tree.start, hrelative, houter'] using houter
      rw [hrelative]
      show tree.followDirectory Path.empty = .ok tree.here
      simp [Tree.followDirectory, Tree.start, Path.empty, Path.isAbsolute, Tree.walk, hhere,
        Path.isNeutral]
    | cons first inner =>
      obtain rfl : first = "" := hhead first rfl
      have habsolute : path.isAbsolute = true := by
        rw [Path.isAbsolute_iff, hpath]
        cases inner with
        | nil => exact ⟨name, [], rfl⟩
        | cons second inner => exact ⟨second, inner ++ [name], rfl⟩
      rw [habsolute]
      rfl
  · have hfirst := walk_front hslot hpath hfronts hbetween
    rw [hfronts]
    show tree.followDirectory ⟨first⟩ = .ok outer
    simp [Tree.followDirectory, hfirst, houter]

/-- Where a path has a slot, no directory has to be made for it. -/
theorem missingDirectories_of_slot (hslot : tree.slot path = .ok (.named (name :: outer) false))
    (directory : Path) : missingDirectories tree (path.parent?.getD directory) = [] := by
  obtain ⟨inner, name', outer', hpath, hname, -, heq⟩ := exists_concat_of_slot hslot
  obtain ⟨rfl, rfl⟩ := List.cons.inj heq
  rw [missingDirectories_parent hpath hname]
  obtain ⟨hnone, -⟩ | ⟨first, rest, between, hfronts, rfl, hbetween⟩ := Path.fronts_cases inner
  · rw [hnone]
    rfl
  · -- the longest front leads to the directory, so it is not missing
    have hwalk := walk_front hslot hpath hfronts hbetween
    have hown : Path.isFront first = true := by
      have hmem : first ∈ Path.fronts (first ++ between) := hfronts ▸ List.mem_cons_self
      exact (Path.mem_fronts_iff.mp hmem).2
    have hne : Path.mk first ≠ Path.empty := by
      rintro hempty
      rw [Path.empty, Path.mk.injEq] at hempty
      rw [hempty] at hown
      cases hown
    have hrefusal : (Path.mk first).refusal? = none :=
      Path.refusal?_of_front ⟨between ++ [name], by simp [hpath]⟩
        (Tree.slot_eq_named_iff.mp hslot).1
    have hpresent : tree.isPresent ⟨first⟩ = true := by
      rw [isPresent_iff]
      refine ⟨outer, ?_⟩
      rw [Tree.follow, hrefusal]
      simp only [hne, if_false]
      exact hwalk
    rw [hfronts, List.map_cons, List.takeWhile_cons_of_neg (by simp [hpresent])]
    rfl

end Parent

/-! ## Temporary files -/

/-- The path of a temporary file beside the destination of a path, spelled from the root. -/
def Tree.beside (tree : Tree) (path : Path) (stem : String) : Path :=
  tree.absolute (temporaryPath (path.parent?.getD Path.empty) stem)

theorem Tree.absolute_congr {a b : Tree} (h : a.here = b.here) (path : Path) :
    a.absolute path = b.absolute path := by
  unfold absolute
  rw [h]

theorem Tree.beside_congr {a b : Tree} (h : a.here = b.here) (path : Path) (stem : String) :
    a.beside path stem = b.beside path stem :=
  absolute_congr h _

/-- A temporary file can be created where its path can be spelled. -/
theorem createTemporary_isOk_iff {tree : Tree} {directory : Path} {outer : Place}
    (houter : tree.followDirectory directory = .ok outer) (step : Step) (reserved : List String)
    (stem : String) :
    (∃ place tree', createTemporary .none step tree reserved directory stem =
      .ok (place, tree')) ↔ (tree.absolute (temporaryPath directory stem)).refusal? = none := by
  unfold createTemporary
  dsimp only
  rw [houter, Faults.guard_none]
  cases (tree.absolute (temporaryPath directory stem)).refusal? with
  | none => simp
  | some cause => simp

/-- A file can be staged for a slot if a temporary file can be spelled beside it. -/
theorem exists_stage (reserved : List String) {directory : Path} {staging : Staging}
    {artifact : Artifact} {place : Place}
    (hslot : staging.tree.slot (destination directory artifact) = .ok (.named place false))
    (hspelled : (staging.tree.beside (destination directory artifact) waitingStem).refusal? =
      none) :
    ∃ staging', stage .none reserved directory staging artifact = (staging', none) := by
  obtain ⟨name, outer, rfl, -⟩ := Tree.exists_of_slot hslot
  obtain ⟨parent, hparent, houter⟩ := followDirectory_parent hslot
  have hmissing := missingDirectories_of_slot hslot directory
  rw [Tree.beside, hparent, Option.getD_some] at hspelled
  obtain ⟨temporary, tree', hcreate⟩ := (createTemporary_isOk_iff houter
    (.createTemporary staging.staged.length) reserved waitingStem).mpr hspelled
  unfold stage
  rw [← destination]
  dsimp only
  rw [hmissing, hparent, Option.getD_some]
  dsimp only [makeDirectories]
  rw [hcreate]
  exact ⟨_, rfl⟩

/-- Files can be staged for slots if temporary files can be spelled beside all of them. -/
theorem exists_stageAll (reserved : List String) {directory : Path} {artifacts : List Artifact}
    {staging : Staging}
    (hslots : ∀ artifact ∈ artifacts, ∃ place,
      staging.tree.slot (destination directory artifact) = .ok (.named place false))
    (hspelled : ∀ artifact ∈ artifacts,
      (staging.tree.beside (destination directory artifact) waitingStem).refusal? = none) :
    ∃ staging', stageAll .none reserved directory staging artifacts = (staging', none) := by
  induction artifacts generalizing staging with
  | nil => exact ⟨staging, rfl⟩
  | cons artifact rest ih =>
    obtain ⟨⟨place, hslot⟩, hslots⟩ := List.forall_mem_cons.mp hslots
    obtain ⟨hfirst, hspelled⟩ := List.forall_mem_cons.mp hspelled
    obtain ⟨staging', hstage⟩ := exists_stage reserved hslot hfirst
    -- staging adds to the tree only, so the slots of the others stay
    obtain ⟨temporary, hgains⟩ := Staging.gains_of_stage hstage
    rw [stageAll_cons]
    rw [hstage]
    refine ih (fun other hother => ?_) (fun other hother => ?_)
    · obtain ⟨target, htarget⟩ := hslots other hother
      exact ⟨target, hgains.within.slot htarget⟩
    · rw [← Tree.beside_congr hgains.within.here]
      exact hspelled other hother

/-- A file that was staged has a temporary file that can be spelled. -/
theorem refusal?_of_stage {faults : Faults} {reserved : List String} {directory : Path}
    {staging staging' : Staging} {artifact : Artifact}
    (h : stage faults reserved directory staging artifact = (staging', none)) {parent : Path}
    (hparent : (destination directory artifact).parent? = some parent) :
    (staging.tree.absolute (temporaryPath parent waitingStem)).refusal? = none := by
  obtain ⟨tree, made, failure, hmake, ⟨tree', error, -, hstage⟩ |
    ⟨rfl, name, outer, events, -, -, -, hspelled, -⟩⟩ :=
      stage_cases faults reserved directory staging artifact
  · rw [h] at hstage
    cases hstage
  · rw [← destination, hparent, Option.getD_some] at hspelled
    rwa [Tree.absolute_congr (makeDirectories_eq_ok hmake).1.here]

theorem refusal?_of_stageAll {faults : Faults} {reserved : List String} {directory : Path}
    {artifacts : List Artifact} {staging staging' : Staging}
    (h : stageAll faults reserved directory staging artifacts = (staging', none)) :
    ∀ artifact ∈ artifacts, ∀ parent, (destination directory artifact).parent? = some parent →
      (staging.tree.absolute (temporaryPath parent waitingStem)).refusal? = none := by
  induction artifacts generalizing staging with
  | nil => simp
  | cons artifact rest ih =>
    rw [stageAll_cons] at h
    split at h
    next staged hstage =>
      obtain ⟨temporary, hgains⟩ := Staging.gains_of_stage hstage
      refine List.forall_mem_cons.mpr ⟨fun parent => refusal?_of_stage hstage, ?_⟩
      intro other hother parent hparent
      rw [Tree.absolute_congr hgains.within.here]
      exact ih h other hother parent hparent
    next => cases h

/-! ## Moves into place -/

/-- A file that is in the way is set aside if a temporary file can be spelled beside it. -/
theorem setAside_isOk_iff (count : Nat) (reserved : List String) {tree : Tree} {path : Path}
    {place : Place} {contents : ByteArray} (hslot : tree.slot path = .ok (.named place false))
    (hcontents : tree.get? place = some (.file contents)) :
    (∃ cleared previous, setAside .none count reserved tree path = (cleared, .ok previous)) ↔
      (tree.beside path previousStem).refusal? = none := by
  obtain ⟨name, outer, rfl, -⟩ := Tree.exists_of_slot hslot
  obtain ⟨parent, hparent, houter⟩ := followDirectory_parent hslot
  have hpresent : tree.isPresent path = true :=
    isPresent_iff.mpr ⟨_, Tree.follow_of_slot hslot (by rw [hcontents]; rfl)⟩
  rw [Tree.beside, hparent, Option.getD_some,
    ← createTemporary_isOk_iff houter (.createPrevious count) reserved previousStem]
  unfold setAside
  rw [if_pos hpresent, hparent, Option.getD_some]
  dsimp only
  cases hcreate : createTemporary .none (.createPrevious count) tree reserved parent
    previousStem with
  | error error => simp
  | ok created =>
    obtain ⟨aside, created⟩ := created
    obtain ⟨name', outer', rfl, -, -, hnew, -, rfl⟩ := createTemporary_eq_ok hcreate
    -- the temporary file does not stand in the way to the one that is to be moved
    have hne : name :: outer ≠ name' :: outer' := by
      intro heq
      rw [← heq, hcontents] at hnew
      cases hnew
    have hfollow : (tree.put (name' :: outer') (.file ByteArray.empty)).follow path =
        .ok (name :: outer) := by
      refine Tree.follow_of_slot ((Within.put_of_free hnew _).slot hslot) ?_
      rw [Tree.get?_put, if_neg hne, hcontents]
      rfl
    simp [Tree.moveAway, hfollow]

/-- When what was in the way is set aside, the file can be moved into place. -/
theorem exists_replace_of_setAside {count : Nat} {reserved : List String} {tree cleared : Tree}
    {file : Staged} {place : Place} {previous : Option Place} (hready : file.Ready reserved tree)
    (hup : ∀ place, tree.hasDirectory place = true → tree.hasDirectory place.tail = true)
    (hopen : tree.isDirectory file.destination = false)
    (hslot : tree.slot file.destination = .ok (.named place false))
    (haside : setAside .none count reserved tree file.destination = (cleared, .ok previous)) :
    ∃ tree' done, replace .none count reserved tree file = (tree', .ok done) := by
  have hcleared : cleared.slot file.destination = .ok (.named place false) ∧
      cleared.hasDirectory place = false := by
    obtain ⟨habsent, hkept⟩ | ⟨tree', error, hfailed, -⟩ |
      ⟨place', aside, tree', hkept, hslot', hcleared⟩ :=
        setAside_cases .none count hready.segments hready.spelled hup hopen
    · rw [haside, Prod.mk.injEq] at hkept
      obtain ⟨rfl, -⟩ := hkept
      exact ⟨hslot, by simp [Tree.hasDirectory, free_of_absent hslot habsent]⟩
    · rw [haside] at hfailed
      cases hfailed
    · rw [haside, Prod.mk.injEq] at hkept
      obtain ⟨rfl, -⟩ := hkept
      obtain rfl : place = place' := by simpa [hslot] using hslot'
      exact ⟨hcleared.within.slot hslot, hcleared.hasDirectory_place⟩
  unfold replace
  rw [haside]
  dsimp only
  rw [moveOnto_of_slot hcleared.1 hcleared.2, Faults.guard_none]
  exact ⟨_, _, rfl⟩

/-- Something is at the destination of a staged file, and it is no directory. -/
def Staged.Replaces (tree : Tree) (file : Staged) : Prop :=
  ∃ place contents, tree.slot file.destination = .ok (.named place false) ∧
    tree.get? place = some (.file contents)

/-- A file that replaces another one can be moved into place if the other one can be set aside. -/
theorem replace_isOk_iff (count : Nat) {reserved : List String} {tree : Tree} {file : Staged}
    (hready : file.Ready reserved tree)
    (hup : ∀ place, tree.hasDirectory place = true → tree.hasDirectory place.tail = true)
    (hopen : tree.isDirectory file.destination = false) (hreplaces : file.Replaces tree) :
    (∃ tree' done, replace .none count reserved tree file = (tree', .ok done)) ↔
      (tree.beside file.destination previousStem).refusal? = none := by
  obtain ⟨place, contents, hslot, hcontents⟩ := hreplaces
  rw [← setAside_isOk_iff count reserved hslot hcontents]
  constructor
  · rintro ⟨tree', done, hreplace⟩
    unfold replace at hreplace
    split at hreplace
    next => cases hreplace
    next cleared previous haside => exact ⟨cleared, previous, haside⟩
  · rintro ⟨cleared, previous, haside⟩
    exact exists_replace_of_setAside hready hup hopen hslot haside

/-- What waits to be replaced is still there after another move. -/
theorem Replaced.replaces {reserved : List String} {tree tree' : Tree} {file waiting : Staged}
    {done : Moved} {place : Place} (h : Replaced reserved tree tree' file done place)
    (hready : file.Ready reserved tree) (hwaiting : waiting.Ready reserved tree)
    (hreplaces : waiting.Replaces tree) : waiting.Replaces tree' := by
  obtain ⟨target, contents, hslot, hcontents⟩ := hreplaces
  have hslot' : tree'.slot waiting.destination = .ok (.named target false) :=
    (slot_iff_of_hasDirectory h.here (h.hasDirectory hready)).mpr hslot
  have htemporary : target ≠ file.temporary :=
    (hready.apart.ne_of_slot hwaiting.spelled hslot).symm
  have haside : done.previous ≠ some target := by
    intro heq
    rw [(h.kept target heq).2.1] at hcontents
    cases hcontents
  obtain ⟨brought, hbrought⟩ := hready.present
  by_cases htarget : target = place
  · exact ⟨target, brought, hslot', by rw [h.get?, if_pos htarget, hbrought]⟩
  · refine ⟨target, contents, hslot', ?_⟩
    rw [h.get?, if_neg htarget, if_neg htemporary, if_neg haside, hcontents]

/-- Files that replace others can be moved into place if all of the others can be set aside. -/
theorem moveAll_isOk_iff {reserved : List String} {tree₀ tree : Tree} {past pending : List Staged}
    {moved : List Moved} (h : Moving reserved tree₀ past pending moved tree)
    (hreplaces : ∀ file ∈ pending, file.Replaces tree) :
    (∃ tree' moved', moveAll .none reserved tree moved pending = (tree', .ok moved')) ↔
      ∀ file ∈ pending, (tree.beside file.destination previousStem).refusal? = none := by
  induction pending generalizing past moved tree with
  | nil => exact ⟨fun _ => by simp, fun _ => ⟨tree, moved.reverse, rfl⟩⟩
  | cons file rest ih =>
    have hready := h.ready file List.mem_cons_self
    have hopen := h.vacant file List.mem_cons_self
    have hfirst := replace_isOk_iff moved.length hready h.up hopen
      (hreplaces file List.mem_cons_self)
    unfold moveAll
    rw [List.forall_mem_cons, ← hfirst]
    obtain ⟨tree', done, place, hreplace, hreplaced⟩ | ⟨tree', error, hreplace, -⟩ :=
      replace_cases .none moved.length hready h.up hopen
    · -- the rest is moved in a tree with the same working directory
      have hrest := ih (h.replace hreplaced) fun other hother =>
        hreplaced.replaces hready (h.ready other (List.mem_cons_of_mem _ hother))
          (hreplaces other (List.mem_cons_of_mem _ hother))
      simp only [Tree.beside_congr hreplaced.here] at hrest
      rw [hreplace]
      simpa using hrest
    · rw [hreplace]
      simp

/-- The staged files can be committed if all files that they replace can be set aside. -/
theorem commit_isOk_iff {reserved : List String} {original : Tree} {staging : Staging}
    (h : staging.Sound reserved original)
    (hreplaces : ∀ file ∈ staging.staged, file.Replaces staging.tree) :
    (∃ after paths, commit .none reserved staging.tree staging.staged = (after, .ok paths)) ↔
      ∀ file ∈ staging.staged,
        (staging.tree.beside file.destination previousStem).refusal? = none := by
  have hnone : (staging.staged.find? fun file => staging.tree.isDirectory file.destination) =
      none := by
    rw [List.find?_eq_none]
    intro file hfile
    obtain ⟨place, contents, hslot, hcontents⟩ := hreplaces file hfile
    have hfollow := Tree.follow_of_slot hslot (by rw [hcontents]; rfl)
    simp [Tree.isDirectory, hfollow, Tree.hasDirectory, hcontents, Node.isDirectory]
  rw [← moveAll_isOk_iff (h.moving hnone) hreplaces]
  unfold commit
  rw [hnone]
  dsimp only
  cases hmove : moveAll .none reserved staging.tree [] staging.staged with
  | mk tree outcome =>
    cases outcome with
    | error error => simp
    | ok moved => simp

/-- A path that leads to a free place leads to no directory. -/
theorem isDirectory_of_free {tree : Tree} {path : Path} {place : Place}
    (hslot : tree.slot path = .ok (.named place false)) (hfree : tree.get? place = none) :
    tree.isDirectory path = false := by
  obtain ⟨name, outer, rfl, -⟩ := Tree.exists_of_slot hslot
  -- a file that is put there is found by the path, and no directory has gone
  have hput : Within tree (tree.put (name :: outer) (.file ByteArray.empty)) :=
    .put_of_free hfree _
  refine hput.isDirectory ?_
  rw [Tree.isDirectory, Tree.follow_of_slot (hput.slot hslot) (by simp)]
  simp [Tree.hasDirectory, Node.isDirectory]

/-- A single file for a free place can be committed. -/
theorem exists_commit_of_free {reserved : List String} {original : Tree} {staging : Staging}
    {file : Staged} {place : Place} (h : staging.Sound reserved original)
    (hstaged : staging.staged = [file])
    (hslot : staging.tree.slot file.destination = .ok (.named place false))
    (hfree : staging.tree.get? place = none) :
    ∃ after,
      commit .none reserved staging.tree staging.staged = (after, .ok [file.destination]) := by
  have hready := h.ready file (by simp [hstaged])
  have hopen := isDirectory_of_free hslot hfree
  have habsent : staging.tree.isPresent file.destination = false := by
    by_contra hpresent
    obtain ⟨other, contents, hother, hcontents⟩ :=
      exists_file_of_isPresent hready.segments h.closed.up hopen (by simpa using hpresent)
    obtain rfl : place = other := by simpa [hslot] using hother
    rw [hfree] at hcontents
    cases hcontents
  have haside : setAside .none 0 reserved staging.tree file.destination =
      (staging.tree, .ok none) := by
    simp [setAside, habsent]
  obtain ⟨tree', done, hreplace⟩ :=
    exists_replace_of_setAside hready h.closed.up hopen hslot haside
  have hcommit : commit .none reserved staging.tree staging.staged =
      (dropPrevious tree' [done], .ok [done.destination]) := by
    simp [commit, hstaged, hopen, moveAll, hreplace]
  obtain ⟨-, hpaths⟩ := brought_of_commit h hcommit
  rw [hstaged] at hpaths
  exact ⟨_, hcommit.trans (by rw [hpaths]; rfl)⟩

/-- A write succeeds if all files are staged and then all are moved into place. -/
theorem write_of_commit {tree after : Tree} {directory : Path} {artifacts : List Artifact}
    {staging : Staging} {paths : List Path}
    (hstage : stageAll .none (pathNames directory artifacts) directory ⟨tree, [], [], []⟩
      artifacts = (staging, none))
    (hcommit : commit .none (pathNames directory artifacts) staging.tree staging.staged =
      (after, .ok paths)) :
    (write tree directory artifacts).tree = after ∧
      (write tree directory artifacts).result.outcome = .ok paths := by
  simp [write, writeUnder, hstage, hcommit]

theorem exists_commit_of_write {tree : Tree} {directory : Path} {artifacts : List Artifact}
    {paths : List Path} (hok : (write tree directory artifacts).result.outcome = .ok paths) :
    ∃ staging, stageAll .none (pathNames directory artifacts) directory ⟨tree, [], [], []⟩
        artifacts = (staging, none) ∧
      commit .none (pathNames directory artifacts) staging.tree staging.staged =
        ((write tree directory artifacts).tree, .ok paths) := by
  unfold write writeUnder at hok ⊢
  dsimp only at hok ⊢
  cases hstage : stageAll .none (pathNames directory artifacts) directory ⟨tree, [], [], []⟩
    artifacts with
  | mk staging failure =>
    rw [hstage] at hok
    cases failure with
    | some error => cases hok
    | none =>
      dsimp only at hok ⊢
      split at hok
      next after paths' hcommit =>
        cases hok
        exact ⟨staging, rfl, by rw [hcommit]⟩
      next => cases hok

end MavlinkCompiler.Storage
