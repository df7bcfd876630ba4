import MavlinkCompiler.Proofs.Storage.Rollback

/-!
# The directories made for a file

Before a file is staged, the missing directories on its path are made. Where a path leads depends on
the tree, and `..` may lead out of a directory again, so it is not plain that these directories lie
around the file. They do: a front of the path that ends with `..` cannot be made, and if a front is
missing, so are all longer ones. So nothing on the path leads out of a directory that was made.

* `Path.fronts`: the ancestry of a path by its segments, with the ancestry of a parent.
* `Tree.walk_down`: without `..`, a walk only leads further in.
* `Around`: a place lies around the destination of a path, now and when directories are added.
* `around_of_makeDirectories`: the directories made for a path lie around its destination.
-/

namespace MavlinkCompiler.Storage

open MavlinkCompiler.Storage.Tree (Within)

/-! ## Fronts of a path -/

namespace Path

/-- The fronts of segments that are paths of their own, longest first. -/
def fronts (segments : List String) : List (List String) :=
  ((List.range segments.length).map fun dropped =>
    segments.take (segments.length - dropped)).filter isFront

theorem ancestry_eq (path : Path) : path.ancestry = (fronts path.segments).map Path.mk := rfl

theorem fronts_concat (front : List String) (last : String) :
    fronts (front ++ [last]) =
      if isFront (front ++ [last]) then (front ++ [last]) :: fronts front else fronts front := by
  have hshorter : ((List.range front.length).map fun dropped =>
      (front ++ [last]).take (front.length + 1 - (dropped + 1))) =
      (List.range front.length).map fun dropped => front.take (front.length - dropped) := by
    refine List.map_congr_left fun dropped _ => ?_
    rw [Nat.add_sub_add_right, List.take_append_of_le_length (by omega)]
  unfold fronts
  rw [List.length_append, List.length_singleton, List.range_succ_eq_map, List.map_cons,
    List.map_map, Nat.sub_zero, List.take_of_length_le (by simp)]
  show (_ :: (List.range front.length).map fun dropped =>
    (front ++ [last]).take (front.length + 1 - (dropped + 1))).filter isFront = _
  rw [hshorter, List.filter_cons]

theorem mem_fronts_iff {front segments : List String} :
    front ∈ fronts segments ↔ front <+: segments ∧ isFront front = true := by
  induction segments using List.reverseRecOn with
  | nil =>
    constructor
    · intro h
      cases h
    · rintro ⟨hfront, hown⟩
      rw [List.prefix_nil.mp hfront] at hown
      cases hown
  | append_singleton segments last ih =>
    rw [fronts_concat, List.prefix_concat_iff]
    by_cases hown : isFront (segments ++ [last]) = true
    · rw [if_pos hown, List.mem_cons, ih]
      constructor
      · rintro (rfl | ⟨hfront, hfront'⟩)
        · exact ⟨.inl rfl, hown⟩
        · exact ⟨.inr hfront, hfront'⟩
      · rintro ⟨rfl | hfront, hfront'⟩
        · exact .inl rfl
        · exact .inr ⟨hfront, hfront'⟩
    · rw [if_neg hown, ih]
      constructor
      · rintro ⟨hfront, hfront'⟩
        exact ⟨.inr hfront, hfront'⟩
      · rintro ⟨rfl | hfront, hfront'⟩
        · exact absurd hfront' hown
        · exact ⟨hfront, hfront'⟩

/-- Longer fronts come first. -/
theorem fronts_descending (segments : List String) :
    (fronts segments).Pairwise fun front shorter => shorter.length < front.length := by
  induction segments using List.reverseRecOn with
  | nil => exact .nil
  | append_singleton segments last ih =>
    rw [fronts_concat]
    split
    · refine List.pairwise_cons.mpr ⟨fun front hfront => ?_, ih⟩
      have hle := (mem_fronts_iff.mp hfront).1.length_le
      simp only [List.length_append, List.length_singleton]
      omega
    · exact ih

/-- The longest front has all the others. -/
theorem fronts_head {segments first : List String} {rest : List (List String)}
    (h : fronts segments = first :: rest) : fronts first = first :: rest := by
  induction segments using List.reverseRecOn with
  | nil => cases h
  | append_singleton segments last ih =>
    have hconcat := fronts_concat segments last
    split at hconcat
    · rw [hconcat] at h
      cases h
      exact hconcat
    · exact ih (hconcat ▸ h)

/-- The name at the end of a path that leads to it is a front of its own. -/
theorem isFront_concat {front : List String} {name : String} (h : isNeutral name = false) :
    isFront (front ++ [name]) = true := by
  unfold isFront
  have hne : (front ++ [name] != [""]) = true := by
    rw [bne_iff_ne]
    intro heq
    have hlast := congrArg List.getLast? heq
    rw [List.getLast?_concat] at hlast
    cases hlast
    cases h
  rw [hne, List.getLast?_concat]
  simp [h]

/-- A path that ends with a name comes before the fronts of what is before the name. -/
theorem ancestry_concat {path : Path} {inner : List String} {name : String}
    (hpath : path.segments = inner ++ [name]) (hname : isNeutral name = false) :
    path.ancestry = path :: (fronts inner).map Path.mk := by
  rw [ancestry_eq, hpath, fronts_concat, if_pos (isFront_concat hname), List.map_cons, ← hpath]

theorem isAbsolute_iff {path : Path} :
    path.isAbsolute = true ↔ ∃ second rest, path.segments = "" :: second :: rest := by
  unfold isAbsolute
  split
  next second rest heq => exact ⟨fun _ => ⟨second, rest, heq⟩, fun _ => rfl⟩
  next hnot =>
    constructor
    · nofun
    · rintro ⟨second, rest, heq⟩
      exact absurd heq (hnot second rest)

/-- A front starts where the whole path starts. -/
theorem isAbsolute_of_front {front : List String} {path : Path} (h : front <+: path.segments)
    (hown : isFront front = true) : (Path.mk front).isAbsolute = path.isAbsolute := by
  obtain ⟨rest, hrest⟩ := h
  rw [Bool.eq_iff_iff, isAbsolute_iff, isAbsolute_iff, ← hrest]
  constructor
  · rintro ⟨second, tail, rfl⟩
    exact ⟨second, tail ++ rest, rfl⟩
  · rintro ⟨second, tail, heq⟩
    match front, hown with
    | [], hown => cases hown
    | [first], hown =>
      -- a front of one segment is not the empty one
      obtain rfl : first = "" := (List.cons.inj heq).1
      cases hown
    | first :: second' :: front, _ =>
      obtain rfl : first = "" := (List.cons.inj heq).1
      exact ⟨second', front, rfl⟩

end Path

/-! ## Walks further in -/

namespace Tree

/-- The end of a path after its last segment that is not empty. -/
theorem exists_slashes (path : Path) :
    ∃ slashes, path.segments = unslashed path ++ slashes ∧ ∀ segment ∈ slashes, segment = "" := by
  refine ⟨(path.segments.reverse.takeWhile (· == "")).reverse, ?_, fun segment hsegment => ?_⟩
  · rw [unslashed, ← List.reverse_append, List.takeWhile_append_dropWhile, List.reverse_reverse]
  · have h := List.mem_takeWhile_imp (List.mem_reverse.mp hsegment)
    simpa using h

/-- The last segment of a path apart from slashes is not empty. -/
theorem ne_empty_of_unslashed {path : Path} {front : List String} {name : String}
    (h : unslashed path = front ++ [name]) : name ≠ "" := by
  have hlast : (unslashed path).getLast? = some name := by rw [h, List.getLast?_concat]
  rw [unslashed, List.getLast?_reverse] at hlast
  have hne := List.head?_dropWhile_not (· == "") path.segments.reverse
  rw [hlast] at hne
  simpa using hne

/-- Neutral segments stay in place. -/
theorem walk_neutral {tree : Tree} {place : Place} (hplace : tree.hasDirectory place = true)
    {front : List String} (hfront : ∀ segment ∈ front, Path.isNeutral segment = true)
    (rest : List String) : tree.walk place (front ++ rest) = tree.walk place rest := by
  induction front with
  | nil => rfl
  | cons segment front ih =>
    obtain ⟨hsegment, hfront⟩ := List.forall_mem_cons.mp hfront
    rw [List.cons_append, walk, hplace, hsegment]
    exact ih hfront

/-- A path leads to the directory in its slot. -/
theorem walk_of_slot {tree : Tree} {path : Path} {place : Place} {slash : Bool}
    (hslot : tree.slot path = .ok (.named place slash))
    (hplace : tree.hasDirectory place = true) :
    tree.walk (tree.start path) path.segments = .ok place := by
  obtain ⟨-, front, name, outer, hfront, hwalk, houter, hdot, hdots, hshort, rfl, -⟩ :=
    slot_eq_named_iff.mp hslot
  obtain ⟨slashes, hsegments, hslashes⟩ := exists_slashes path
  have hname : Path.isNeutral name = false := by
    simp [Path.isNeutral, ne_empty_of_unslashed hfront, hdot]
  have hlast : tree.walk outer [name] = .ok (name :: outer) := by
    simp [walk, houter, hname, hdots, Nat.not_lt.mpr hshort, hasDirectory_iff.mp hplace]
  rw [hsegments, hfront, walk_append, walk_append, hwalk]
  show (tree.walk outer [name] >>= fun mid => tree.walk mid slashes) = _
  rw [hlast]
  have hneutral : ∀ segment ∈ slashes, Path.isNeutral segment = true := by
    intro segment hsegment
    rw [hslashes segment hsegment]
    rfl
  have hend := walk_neutral hplace hneutral []
  rwa [List.append_nil] at hend

/-- Without `..` a walk only leads further in. -/
theorem walk_down {tree : Tree} :
    ∀ {segments : List String} {place goal : Place}, tree.walk place segments = .ok goal →
      ".." ∉ segments → place <:+ goal
  | [], _, _, h, _ => by
    cases h
    exact List.suffix_refl _
  | segment :: rest, place, goal, h, hdots => by
    rw [List.mem_cons, not_or] at hdots
    unfold walk at h
    split at h
    · cases h
    split at h
    · exact walk_down h hdots.2
    rw [if_neg (Ne.symm hdots.1)] at h
    split at h
    · cases h
    split at h
    · cases h
    exact (List.suffix_cons segment place).trans (walk_down h hdots.2)

end Tree

/-! ## Missing directories -/

/-- What making directories does: all of them are where their paths lead, and nothing else has
changed. -/
theorem makeDirectories_eq_ok {faults : Faults} :
    ∀ {paths : List Path} {tree tree' : Tree} {made made' : List Path},
      makeDirectories faults tree made paths = (tree', made', none) →
      Within tree tree' ∧
      (∀ path ∈ paths, ∃ place slash, tree'.slot path = .ok (.named place slash)) ∧
      ∀ place, tree'.get? place = tree.get? place ∨
        tree.get? place = none ∧ tree'.get? place = some .directory ∧
          ∃ path ∈ paths, ∃ slash, tree'.slot path = .ok (.named place slash)
  | [], tree, _, _, _, h => by
    cases h
    exact ⟨⟨rfl, fun _ h => h⟩, by simp, fun _ => .inl rfl⟩
  | path :: rest, tree, tree', made, made', h => by
    unfold makeDirectories at h
    split at h
    next after hmake =>
      obtain ⟨name, outer, slash, hslot, -, hnew, rfl⟩ :=
        makeDirectory_eq_ok (Faults.guard_eq_ok hmake)
      have hfirst : Within tree (tree.put (name :: outer) .directory) := .put_of_free hnew _
      obtain ⟨hwithin, hslots, hget⟩ := makeDirectories_eq_ok h
      have hslot' := hwithin.slot (hfirst.slot hslot)
      refine ⟨hfirst.trans hwithin, List.forall_mem_cons.mpr ⟨⟨_, _, hslot'⟩, hslots⟩,
        fun place => ?_⟩
      -- the first directory is one of those made, and the rest are made after it
      have hfinal := hget place
      rw [Tree.get?_put] at hfinal
      by_cases hplace : place = name :: outer
      · subst hplace
        rw [if_pos rfl] at hfinal
        have hdirectory : tree'.get? (name :: outer) = some .directory := by
          rcases hfinal with hsame | ⟨hnone, -⟩
          · exact hsame
          · cases hnone
        exact .inr ⟨hnew, hdirectory, path, List.mem_cons_self, slash, hslot'⟩
      · rw [if_neg hplace] at hfinal
        rcases hfinal with hsame | ⟨hnone, hdirectory, other, hother, hslot⟩
        · exact .inl hsame
        · exact .inr ⟨hnone, hdirectory, other, List.mem_cons_of_mem _ hother, hslot⟩
    next => cases h

/-- In a list that is ordered by length, what comes before an element of a first part is in it. -/
theorem mem_takeWhile_of_longer {holds : Path → Bool} {paths : List Path}
    (hdescending : paths.Pairwise fun path shorter =>
      shorter.segments.length < path.segments.length) {path longer : Path}
    (hpath : path ∈ paths.takeWhile holds) (hlonger : longer ∈ paths)
    (hle : path.segments.length ≤ longer.segments.length) : longer ∈ paths.takeWhile holds := by
  rw [← List.takeWhile_append_dropWhile (p := holds) (l := paths)] at hdescending hlonger
  rcases List.mem_append.mp hlonger with hmem | hmem
  · exact hmem
  · have hlt := (List.pairwise_append.mp hdescending).2.2 path hpath longer hmem
    omega

/-- A place lies around the destination that a path leads to, however many directories are added. -/
def Around (tree : Tree) (path : Path) (place : Place) : Prop :=
  ∀ later target, Within tree later → later.slot path = .ok (.named target false) →
    place <:+ target ∧ place ≠ target

theorem Around.mono {tree later : Tree} {path : Path} {place : Place}
    (h : Around tree path place) (hwithin : Within tree later) : Around later path place :=
  fun latest target hlatest hslot => h latest target (hwithin.trans hlatest) hslot

/-- A slot without a slash is named by the last segment of its path. -/
theorem exists_concat_of_slot {tree : Tree} {path : Path} {place : Place}
    (hslot : tree.slot path = .ok (.named place false)) :
    ∃ inner name outer, path.segments = inner ++ [name] ∧ Path.isNeutral name = false ∧
      tree.walk (tree.start path) inner = .ok outer ∧ place = name :: outer := by
  obtain ⟨-, inner, name, outer, hinner, hwalk, -, hdot, -, -, rfl, hslash⟩ :=
    Tree.slot_eq_named_iff.mp hslot
  have hwhole : Tree.unslashed path = path.segments :=
    (Tree.unslashed_front path).eq_of_length_le (by simpa using hslash)
  have hname : Path.isNeutral name = false := by
    simp [Path.isNeutral, Tree.ne_empty_of_unslashed hinner, hdot]
  exact ⟨inner, name, outer, hwhole ▸ hinner, hname, hwalk, rfl⟩

/-- The directories to make for a file are the fronts of its path without the name that are
missing, from the longest one on. -/
theorem missingDirectories_parent {path : Path} {inner : List String} {name : String}
    (hpath : path.segments = inner ++ [name]) (hname : Path.isNeutral name = false) (tree : Tree)
    (directory : Path) :
    missingDirectories tree (path.parent?.getD directory) =
      (((Path.fronts inner).map Path.mk).takeWhile fun front =>
        front != Path.empty && !tree.isPresent front).reverse := by
  unfold missingDirectories Path.parent?
  rw [Path.ancestry_concat hpath hname]
  cases hfronts : Path.fronts inner with
  | nil =>
    -- the file is in the root or in the working directory, and these are there
    have hroot : tree.isPresent Path.root = true := rfl
    by_cases habsolute : path.isAbsolute = true
    · simp [habsolute, hroot]
    · simp [habsolute]
  | cons first rest =>
    have hfirst : (Path.mk first).ancestry = (first :: rest).map Path.mk := by
      rw [Path.ancestry_eq, Path.fronts_head hfronts]
    rw [List.map_cons, Option.getD_some, hfirst]
    rfl

/-- A path that ends with `..` names nothing. -/
theorem ne_dots_of_slot {tree : Tree} {front : List String} {name : String} {place : Place}
    {slash : Bool} (hslot : tree.slot ⟨front ++ [name]⟩ = .ok (.named place slash)) :
    name ≠ ".." := by
  rintro rfl
  obtain ⟨-, inner, name, -, hinner, -, -, -, hdots, -⟩ := Tree.slot_eq_named_iff.mp hslot
  have hwhole : Tree.unslashed ⟨front ++ [".."]⟩ = front ++ [".."] := by simp [Tree.unslashed]
  rw [hwhole] at hinner
  have hlast := List.append_inj_right' hinner rfl
  exact hdots (List.singleton_inj.mp hlast).symm

/-- **Directories for a file.** What is made on the way to a file lies around it. -/
theorem around_of_makeDirectories {faults : Faults} {tree tree' : Tree} {made made' : List Path}
    {path directory : Path}
    (hrun : makeDirectories faults tree made
      (missingDirectories tree (path.parent?.getD directory)) = (tree', made', none))
    (place : Place) :
    tree'.get? place = tree.get? place ∨
      tree.get? place = none ∧ tree'.get? place = some .directory ∧ Around tree' path place := by
  obtain ⟨-, hslots, hget⟩ := makeDirectories_eq_ok hrun
  rcases hget place with hsame | ⟨hnone, hdirectory, front, hfront, slash, hslot⟩
  · exact .inl hsame
  refine .inr ⟨hnone, hdirectory, fun later target hwithin htarget => ?_⟩
  obtain ⟨inner, name, outer, hpath, hname, hwalk, rfl⟩ := exists_concat_of_slot htarget
  rw [missingDirectories_parent hpath hname] at hfront hslots
  simp only [List.mem_reverse] at hfront hslots
  have hdescending : ((Path.fronts inner).map Path.mk).Pairwise fun front shorter =>
      shorter.segments.length < front.segments.length :=
    List.pairwise_map.mpr (Path.fronts_descending inner)
  -- the path leads through the front that was made
  obtain ⟨segments, hsegments, rfl⟩ :=
    List.mem_map.mp ((List.takeWhile_sublist _).subset hfront)
  obtain ⟨hhead, hown⟩ := Path.mem_fronts_iff.mp hsegments
  obtain ⟨between, rfl⟩ := hhead
  -- and then never out of it: a longer front that ends with `..` would have been made too
  have hdots : ".." ∉ between := by
    intro hmem
    obtain ⟨before, after, rfl⟩ := List.append_of_mem hmem
    have hlonger : Path.mk (segments ++ before ++ [".."]) ∈
        (Path.fronts (segments ++ (before ++ ".." :: after))).map Path.mk :=
      List.mem_map_of_mem (Path.mem_fronts_iff.mpr ⟨⟨after, by simp⟩,
        Path.isFront_concat (by decide)⟩)
    obtain ⟨_, _, hslot'⟩ := hslots _
      (mem_takeWhile_of_longer hdescending hfront hlonger (by simp))
    exact ne_dots_of_slot hslot' rfl
  have hthere : later.hasDirectory place = true :=
    hwithin.hasDirectory place (Tree.hasDirectory_iff.mpr hdirectory)
  have hstart : later.start path = later.start ⟨segments⟩ := by
    have hpath' : segments <+: path.segments := ⟨between ++ [name], by simp [hpath]⟩
    rw [Tree.start, Tree.start, Path.isAbsolute_of_front hpath' hown]
  rw [hstart, Tree.walk_append, Tree.walk_of_slot (hwithin.slot hslot) hthere] at hwalk
  have hsuffix : place <:+ outer := Tree.walk_down hwalk hdots
  refine ⟨hsuffix.trans (List.suffix_cons name outer), ?_⟩
  rintro rfl
  exact absurd hsuffix.length_le (by simp)

end MavlinkCompiler.Storage
