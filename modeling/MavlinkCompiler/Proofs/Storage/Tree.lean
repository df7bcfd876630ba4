import Mathlib
import MavlinkCompiler.Storage.Transaction

/-!
# Nodes and paths of a tree

What the operations on directory trees do, seen through `Tree.get?`. Two trees are the *same* if
they have the same nodes, whatever the order in which these are kept.

A path that leads through directories keeps its meaning while directories are only added, because
following it asks for nothing but the directories on the way. This is why a step can be undone by
the path that it was made with, although other nodes have come and gone in between.

* `Tree.Same`: equality of trees, with the operations that respect it.
* `Tree.Closed`: every node lies in a directory.
* `Tree.slot_mono`: a slot stays where it is when directories are added.
* `Faults.guard_eq_ok`: a step that was not refused came out as the tree has it.
* `freshName_not_mem`: temporary names are new.
-/

namespace MavlinkCompiler.Storage

namespace Tree

/-! ## Nodes after a change -/

@[simp]
theorem get?_nil (tree : Tree) : tree.get? [] = some .directory := rfl

theorem sameDepth_self (place : Place) : sameDepth place place = true := by
  induction place with
  | nil => rfl
  | cons name outer ih => exact ih

theorem lookup_cons_ite (place other : Place) (node : Node) (nodes : List (Place × Node)) :
    ((place, node) :: nodes).lookup other =
      if other = place then some node else nodes.lookup other := by
  rw [List.lookup_cons]
  by_cases h : other = place
  · rw [if_pos h, beq_iff_eq.mpr h]
  · rw [if_neg h, beq_false_of_ne h]

theorem find?_eq_lookup (place : Place) (nodes : List (Place × Node)) :
    (nodes.find? fun node => sameDepth node.1 place && node.1 == place).map (·.2) =
      nodes.lookup place := by
  induction nodes with
  | nil => rfl
  | cons node nodes ih =>
    obtain ⟨first, node⟩ := node
    rw [lookup_cons_ite, List.find?_cons]
    by_cases h : place = first
    · simp [h, sameDepth_self]
    · have hne : (first == place) = false := beq_false_of_ne (Ne.symm h)
      rw [if_neg h, hne, Bool.and_false]
      exact ih

theorem get?_cons (tree : Tree) (name : String) (outer : Place) :
    tree.get? (name :: outer) = tree.nodes.lookup (name :: outer) := by
  rw [get?, if_neg (List.cons_ne_nil name outer), find?_eq_lookup]

/-- Looking up a place among the nodes that are left by an erasure. -/
theorem lookup_filter_ne (place other : Place) :
    ∀ nodes : List (Place × Node),
      (nodes.filter fun node => node.1 != place).lookup other =
        if other = place then none else nodes.lookup other
  | [] => by simp
  | (first, node) :: nodes => by
    have ih := lookup_filter_ne place other nodes
    rw [lookup_cons_ite]
    by_cases hfirst : first = place
    · rw [List.filter_cons_of_neg (by simpa using hfirst), ih, hfirst]
      split <;> simp_all
    · rw [List.filter_cons_of_pos (by simpa using hfirst), lookup_cons_ite, ih]
      by_cases hother : other = place
      · have hne : other ≠ first := fun h => hfirst (h.symm.trans hother)
        rw [if_neg hne, if_pos hother, if_pos hother]
      · rw [if_neg hother, if_neg hother]

@[simp]
theorem get?_erase (tree : Tree) (name : String) (outer other : Place) :
    (tree.erase (name :: outer)).get? other =
      if other = name :: outer then none else tree.get? other := by
  cases other with
  | nil => simp
  | cons name' outer' =>
    rw [get?_cons, get?_cons]
    exact lookup_filter_ne _ _ _

@[simp]
theorem get?_put (tree : Tree) (name : String) (outer other : Place) (node : Node) :
    (tree.put (name :: outer) node).get? other =
      if other = name :: outer then some node else tree.get? other := by
  cases other with
  | nil => simp
  | cons name' outer' =>
    rw [get?_cons, get?_cons]
    show ((name :: outer, node) :: (tree.nodes.filter fun node => node.1 != name :: outer)).lookup
      (name' :: outer') = _
    rw [lookup_cons_ite, lookup_filter_ne]
    split <;> rfl

/-- The root stays a directory, whatever is done to it. -/
theorem get?_erase_nil (tree : Tree) (other : Place) :
    (tree.erase []).get? other = tree.get? other := by
  cases other with
  | nil => rfl
  | cons name outer =>
    rw [get?_cons, get?_cons]
    exact (lookup_filter_ne [] _ _).trans (if_neg (by simp))

theorem get?_put_nil (tree : Tree) (other : Place) (node : Node) :
    (tree.put [] node).get? other = tree.get? other := by
  cases other with
  | nil => rfl
  | cons name outer =>
    rw [← get?_erase_nil tree, get?_cons, get?_cons]
    exact (lookup_cons_ite [] _ _ _).trans (if_neg (by simp))

/-- A move takes a node away from one place and puts it at another. -/
theorem get?_move {tree : Tree} {source target : Place} {node : Node}
    (hnode : tree.get? source = some node) (hsource : source ≠ []) (htarget : target ≠ [])
    (place : Place) :
    (tree.move source target).get? place =
      if place = target then some node else if place = source then none else tree.get? place := by
  obtain ⟨name, outer, rfl⟩ := List.exists_cons_of_ne_nil hsource
  obtain ⟨name', outer', rfl⟩ := List.exists_cons_of_ne_nil htarget
  unfold move
  rw [hnode]
  simp only [get?_put, get?_erase]

theorem here_move (tree : Tree) (source target : Place) :
    (tree.move source target).here = tree.here := by
  unfold move
  split <;> rfl

@[simp]
theorem here_erase (tree : Tree) (place : Place) : (tree.erase place).here = tree.here := rfl

@[simp]
theorem here_put (tree : Tree) (place : Place) (node : Node) :
    (tree.put place node).here = tree.here := rfl

/-- What is put last stays. -/
theorem put_put (tree : Tree) (place : Place) (first last : Node) :
    (tree.put place first).put place last = tree.put place last := by
  simp [put, erase]

theorem hasDirectory_iff {tree : Tree} {place : Place} :
    tree.hasDirectory place = true ↔ tree.get? place = some .directory := by
  unfold hasDirectory
  cases tree.get? place with
  | none => simp
  | some node => cases node <;> simp [Node.isDirectory]

theorem hasDirectory_congr {a b : Tree} {place : Place} (h : a.get? place = b.get? place) :
    a.hasDirectory place = b.hasDirectory place := by
  rw [hasDirectory, h, hasDirectory]

/-- A directory is empty if no name leads anywhere in it. -/
theorem isEmptyDirectory_iff {tree : Tree} {place : Place} :
    tree.isEmptyDirectory place = true ↔ ∀ name, tree.get? (name :: place) = none := by
  rw [isEmptyDirectory, Bool.not_eq_true', List.any_eq_false]
  constructor
  · intro h name
    rw [get?_cons, List.lookup_eq_none_iff]
    intro node hnode
    rw [bne_iff_ne]
    intro heq
    exact h node hnode (by simp [← heq])
  · rintro h ⟨at', node⟩ hnode hat
    cases at' with
    | nil => simp at hat
    | cons name outer =>
      obtain rfl : outer = place := by simpa using hat
      have hnone := h name
      rw [get?_cons, List.lookup_eq_none_iff] at hnone
      simpa using hnone _ hnode

/-! ## Trees with the same nodes -/

/-- The same working directory and the same nodes. -/
structure Same (a b : Tree) : Prop where
  here : a.here = b.here
  get? : ∀ place, a.get? place = b.get? place

namespace Same

variable {a b c : Tree}

theorem refl (tree : Tree) : Same tree tree := ⟨rfl, fun _ => rfl⟩

theorem trans (hab : Same a b) (hbc : Same b c) : Same a c :=
  ⟨hab.here.trans hbc.here, fun place => (hab.get? place).trans (hbc.get? place)⟩

/-- A node that was put where nothing was is erased without a trace. -/
theorem erase_put {tree : Tree} {name : String} {outer : Place}
    (hnew : tree.get? (name :: outer) = none) (node : Node) :
    Same ((tree.put (name :: outer) node).erase (name :: outer)) tree := by
  refine ⟨rfl, fun place => ?_⟩
  rw [get?_erase, get?_put]
  by_cases hplace : place = name :: outer
  · rw [if_pos hplace, hplace, hnew]
  · rw [if_neg hplace, if_neg hplace]

theorem hasDirectory (h : Same a b) (place : Place) :
    a.hasDirectory place = b.hasDirectory place :=
  hasDirectory_congr (h.get? place)

theorem isEmptyDirectory (h : Same a b) (place : Place) :
    a.isEmptyDirectory place = b.isEmptyDirectory place := by
  rw [Bool.eq_iff_iff, isEmptyDirectory_iff, isEmptyDirectory_iff]
  simp only [h.get?]

theorem erase (h : Same a b) (place : Place) : Same (a.erase place) (b.erase place) :=
  ⟨h.here, fun other => by
    cases place with
    | nil => simp only [get?_erase_nil, h.get?]
    | cons name outer => simp only [get?_erase, h.get?]⟩

theorem put (h : Same a b) (place : Place) (node : Node) :
    Same (a.put place node) (b.put place node) :=
  ⟨h.here, fun other => by
    cases place with
    | nil => simp only [get?_put_nil, h.get?]
    | cons name outer => simp only [get?_put, h.get?]⟩

theorem move (h : Same a b) (source target : Place) :
    Same (a.move source target) (b.move source target) := by
  unfold Tree.move
  rw [h.get?]
  cases b.get? source with
  | none => exact h
  | some node => exact (h.erase source).put target node

theorem walk (h : Same a b) :
    ∀ (segments : List String) (place : Place), a.walk place segments = b.walk place segments
  | [], _ => rfl
  | segment :: rest, place => by
    unfold Tree.walk
    simp only [h.hasDirectory, h.get?, h.walk rest]

theorem start (h : Same a b) (path : Path) : a.start path = b.start path := by
  unfold Tree.start
  rw [h.here]

theorem follow (h : Same a b) (path : Path) : a.follow path = b.follow path := by
  unfold Tree.follow
  rw [h.start, h.walk]

theorem slot (h : Same a b) (path : Path) : a.slot path = b.slot path := by
  unfold Tree.slot
  simp only [h.start, h.walk, h.hasDirectory]

end Same

/-! ## Paths through directories -/

/-- The directories of one tree are directories of another, and both have the same working
directory. -/
structure Within (a b : Tree) : Prop where
  here : a.here = b.here
  hasDirectory : ∀ place, a.hasDirectory place = true → b.hasDirectory place = true

namespace Within

variable {a b : Tree}

/-- A walk to a directory passes through directories only, so further directories do not divert
it. -/
theorem walk (h : Within a b) :
    ∀ {segments : List String} {place goal : Place}, a.walk place segments = .ok goal →
      a.hasDirectory goal = true → b.walk place segments = .ok goal
  | [], _, _, hwalk, _ => hwalk
  | segment :: rest, place, goal, hwalk, hgoal => by
    unfold Tree.walk at hwalk ⊢
    split at hwalk
    · cases hwalk
    next hplace =>
    have hplace' : b.hasDirectory place = true := h.hasDirectory place (by simpa using hplace)
    simp only [hplace', Bool.not_true, Bool.false_eq_true, if_false]
    by_cases hneutral : Path.isNeutral segment = true
    · rw [if_pos hneutral] at hwalk ⊢
      exact h.walk hwalk hgoal
    rw [if_neg hneutral] at hwalk ⊢
    by_cases hup : segment = ".."
    · rw [if_pos hup] at hwalk ⊢
      exact h.walk hwalk hgoal
    rw [if_neg hup] at hwalk ⊢
    by_cases hlong : nameLimit < segment.utf8ByteSize
    · rw [if_pos hlong] at hwalk
      cases hwalk
    rw [if_neg hlong] at hwalk ⊢
    split at hwalk
    · cases hwalk
    -- in the first tree the walk goes on from the name or ends there, so it is a directory
    have hnext : a.hasDirectory (segment :: place) = true := by
      cases rest with
      | nil =>
        cases hwalk
        exact hgoal
      | cons _ _ =>
        unfold Tree.walk at hwalk
        split at hwalk
        · cases hwalk
        next hdirectory => simpa using hdirectory
    have hnext' := hasDirectory_iff.mp (h.hasDirectory _ hnext)
    rw [hnext', Option.isNone_some, if_neg Bool.false_ne_true]
    exact h.walk hwalk hgoal

/-- It is enough that the directories stay as they are. -/
theorem of_get? (hhere : a.here = b.here)
    (h : ∀ place, a.get? place = some .directory → b.get? place = some .directory) :
    Within a b :=
  ⟨hhere, fun place hplace => hasDirectory_iff.mpr (h place (hasDirectory_iff.mp hplace))⟩

theorem put_of_free {tree : Tree} {name : String} {outer : Place}
    (hfree : tree.get? (name :: outer) = none) (node : Node) :
    Within tree (tree.put (name :: outer) node) := by
  refine .of_get? (here_put _ _ _).symm fun other hother => ?_
  -- no directory was at the place of the new node
  have hne : other ≠ name :: outer := by
    rintro rfl
    rw [hfree] at hother
    cases hother
  rw [get?_put, if_neg hne, hother]

theorem start (h : Within a b) (path : Path) : a.start path = b.start path := by
  unfold Tree.start
  rw [h.here]

theorem trans (hab : Within a b) {c : Tree} (hbc : Within b c) : Within a c :=
  ⟨hab.here.trans hbc.here, fun place hplace =>
    hbc.hasDirectory place (hab.hasDirectory place hplace)⟩

end Within

/-- One walk after another. -/
theorem walk_append (tree : Tree) :
    ∀ (front back : List String) (place : Place),
      tree.walk place (front ++ back) = tree.walk place front >>= fun mid => tree.walk mid back
  | [], _, _ => rfl
  | segment :: front, back, place => by
    rw [List.cons_append, walk, walk]
    simp only [tree.walk_append front back]
    split
    · rfl
    split
    · rfl
    split
    · rfl
    split
    · rfl
    split <;> rfl

/-- A walk that ends at something other than a directory ends with a name. -/
theorem walk_singleton {tree : Tree} (hup : ∀ place, tree.hasDirectory place = true →
      tree.hasDirectory place.tail = true) {place goal : Place} {segment : String}
    (hwalk : tree.walk place [segment] = .ok goal) (hgoal : tree.hasDirectory goal = false) :
    tree.hasDirectory place = true ∧ Path.isNeutral segment = false ∧ segment ≠ ".." ∧
      segment.utf8ByteSize ≤ nameLimit ∧ (tree.get? (segment :: place)).isSome ∧
      goal = segment :: place := by
  unfold walk at hwalk
  split at hwalk
  · cases hwalk
  next hplace =>
  have hdirectory : tree.hasDirectory place = true := by simpa using hplace
  split at hwalk
  · cases hwalk
    -- `.` and the empty segment stay at the directory
    rw [hdirectory] at hgoal
    cases hgoal
  next hneutral =>
  split at hwalk
  · cases hwalk
    -- `..` leads to a directory as well
    rw [hup place hdirectory] at hgoal
    cases hgoal
  next hdots =>
  split at hwalk
  · cases hwalk
  next hlong =>
  split at hwalk
  · cases hwalk
  next hsome =>
  cases hwalk
  exact ⟨hdirectory, by simpa using hneutral, hdots, Nat.le_of_not_lt hlong,
    by simpa [Option.isSome_iff_ne_none] using hsome, rfl⟩

/-! ## Slots -/

/-- The segments of a path up to the last one that is not empty. -/
def unslashed (path : Path) : List String :=
  (path.segments.reverse.dropWhile (· == "")).reverse

theorem unslashed_front (path : Path) : unslashed path <+: path.segments := by
  have h := List.dropWhile_suffix (l := path.segments.reverse) (· == "")
  simpa [unslashed] using List.reverse_prefix.mpr h

/-- Everything that a named slot says about its path. -/
theorem slot_eq_named_iff {tree : Tree} {path : Path} {place : Place} {slash : Bool} :
    tree.slot path = .ok (.named place slash) ↔
      path.refusal? = none ∧ ∃ front name outer,
        unslashed path = front ++ [name] ∧
        tree.walk (tree.start path) front = .ok outer ∧ tree.hasDirectory outer = true ∧
        name ≠ "." ∧ name ≠ ".." ∧ name.utf8ByteSize ≤ nameLimit ∧
        place = name :: outer ∧
        slash = decide ((unslashed path).length < path.segments.length) := by
  rw [slot, ← unslashed]
  constructor
  · intro h
    split at h
    · cases h
    · cases h
    next name hrefusal hlast =>
    obtain ⟨front, hfront⟩ := List.getLast?_eq_some_iff.mp hlast
    rw [hfront, List.dropLast_concat] at h
    split at h
    · cases h
    next outer hwalk =>
    split at h
    · cases h
    next houter =>
    split at h
    · cases h
    next hdots =>
    split at h
    · cases h
    next hlong =>
    cases h
    exact ⟨hrefusal, front, name, outer, hfront, hwalk, by simpa using houter,
      fun h => hdots (.inl h), fun h => hdots (.inr h), Nat.le_of_not_lt hlong, rfl, by rw [hfront]⟩
  · rintro ⟨hrefusal, front, name, outer, hfront, hwalk, houter, hdot, hdots, hshort, rfl, rfl⟩
    rw [hrefusal, hfront, List.getLast?_concat, List.dropLast_concat]
    simp [hwalk, houter, hdot, hdots, Nat.not_lt.mpr hshort]

/-- A slot lies in a directory, so it stays where it is when directories are added. -/
theorem Within.slot {a b : Tree} (h : Within a b) {path : Path} {place : Place} {slash : Bool}
    (hslot : a.slot path = .ok (.named place slash)) :
    b.slot path = .ok (.named place slash) := by
  rw [slot_eq_named_iff] at hslot ⊢
  obtain ⟨hrefusal, front, name, outer, hfront, hwalk, houter, hrest⟩ := hslot
  exact ⟨hrefusal, front, name, outer, hfront, h.start path ▸ h.walk hwalk houter,
    h.hasDirectory outer houter, hrest⟩

/-- The name of a slot is a segment of its path. -/
theorem exists_of_slot {tree : Tree} {path : Path} {place : Place} {slash : Bool}
    (hslot : tree.slot path = .ok (.named place slash)) :
    ∃ name outer, place = name :: outer ∧ name ∈ path.segments ∧
      tree.hasDirectory outer = true := by
  obtain ⟨-, front, name, outer, hfront, -, houter, -, -, -, rfl, -⟩ := slot_eq_named_iff.mp hslot
  refine ⟨name, outer, rfl, (unslashed_front path).subset ?_, houter⟩
  rw [hfront]
  simp

/-- A path without a slash at its end leads to its slot if something is there. -/
theorem follow_of_slot {tree : Tree} {path : Path} {place : Place}
    (hslot : tree.slot path = .ok (.named place false)) (hplace : (tree.get? place).isSome) :
    tree.follow path = .ok place := by
  obtain ⟨hrefusal, front, name, outer, hfront, hwalk, houter, hdot, hdots, hshort, rfl, hslash⟩ :=
    slot_eq_named_iff.mp hslot
  -- no slash is at the end, so the last segment is the name
  have hwhole : unslashed path = path.segments := by
    refine (unslashed_front path).eq_of_length_le ?_
    simpa using hslash
  have hname : Path.isNeutral name = false := by
    have hlast : (unslashed path).getLast? = some name := by rw [hfront, List.getLast?_concat]
    rw [unslashed, List.getLast?_reverse] at hlast
    have hne := List.head?_dropWhile_not (· == "") path.segments.reverse
    rw [hlast] at hne
    simpa [Path.isNeutral, hdot] using hne
  -- the empty path has no name in it
  have hpath : path ≠ Path.empty := by
    rintro rfl
    rw [hwhole] at hfront
    cases front with
    | nil =>
      obtain rfl : "" = name := by simpa [Path.empty] using hfront
      cases hname
    | cons _ _ => simp [Path.empty] at hfront
  rw [follow, hrefusal]
  simp only [hpath, if_false]
  rw [← hwhole, hfront, walk_append, hwalk]
  show tree.walk outer [name] = _
  rw [walk]
  have hnone : (tree.get? (name :: outer)).isNone = false := by
    simpa [Option.isSome_iff_ne_none] using hplace
  simp [houter, hname, hdots, Nat.not_lt.mpr hshort, hnone, walk]

/-- A path that leads to something other than a directory leads to its slot, and something is
there. -/
theorem slot_of_follow {tree : Tree} (hup : ∀ place, tree.hasDirectory place = true →
      tree.hasDirectory place.tail = true) {path : Path} (hpath : path.segments ≠ [])
    {place : Place} (hfollow : tree.follow path = .ok place)
    (hplace : tree.hasDirectory place = false) :
    tree.slot path = .ok (.named place false) ∧ (tree.get? place).isSome := by
  rw [follow] at hfollow
  split at hfollow
  · cases hfollow
  next hrefusal =>
  split at hfollow
  · cases hfollow
  obtain ⟨front, name, hfront⟩ := (List.eq_nil_or_concat' path.segments).resolve_left hpath
  rw [hfront, walk_append] at hfollow
  cases hwalk : tree.walk (tree.start path) front with
  | error cause => rw [hwalk] at hfollow; cases hfollow
  | ok outer =>
    rw [hwalk] at hfollow
    -- only a name can lead to what is no directory
    obtain ⟨houter, hneutral, hdots, hshort, hsome, rfl⟩ := walk_singleton hup hfollow hplace
    obtain ⟨hname, hdot⟩ : name ≠ "" ∧ name ≠ "." := by simpa [Path.isNeutral] using hneutral
    have hwhole : unslashed path = path.segments := by
      rw [unslashed, hfront]
      simp [hname]
    rw [slot_eq_named_iff, hwhole]
    exact ⟨⟨hrefusal, front, name, outer, hfront, hwalk, houter, hdot, hdots, hshort, rfl,
      by simp⟩, hsome⟩

/-- What is no directory stays none when no directory is added. -/
theorem Within.isDirectory {a b : Tree} (h : Within a b) {path : Path}
    (hpath : b.isDirectory path = false) : a.isDirectory path = false := by
  unfold Tree.isDirectory Tree.follow at hpath ⊢
  cases hrefusal : path.refusal? with
  | some cause => rfl
  | none =>
    by_cases hempty : path = Path.empty
    · simp [hempty]
    · simp only [hrefusal, hempty, if_false] at hpath ⊢
      cases hwalk : a.walk (a.start path) path.segments with
      | error cause => rfl
      | ok place =>
        rw [Bool.eq_false_iff]
        -- a walk to a directory goes the same way in the other tree
        intro hplace
        rw [← h.start, h.walk hwalk hplace] at hpath
        simp [h.hasDirectory place hplace] at hpath

/-! ## Trees whose nodes lie in directories -/

/-- Every node lies in a directory. -/
def Closed (tree : Tree) : Prop :=
  ∀ name outer, (tree.get? (name :: outer)).isSome → tree.hasDirectory outer = true

namespace Closed

variable {tree : Tree}

/-- It is enough to look at the nodes that are kept. -/
theorem of_nodes (h : ∀ node ∈ tree.nodes, tree.hasDirectory node.1.tail = true) : tree.Closed := by
  intro name outer hsome
  by_contra houter
  have hnone : tree.nodes.lookup (name :: outer) = none := by
    rw [List.lookup_eq_none_iff]
    intro node hnode
    rw [bne_iff_ne]
    intro heq
    have hdirectory := h node hnode
    rw [← heq] at hdirectory
    exact houter hdirectory
  rw [get?_cons, hnone] at hsome
  cases hsome

/-- Around a directory are directories. -/
theorem up (h : tree.Closed) (place : Place) (hplace : tree.hasDirectory place = true) :
    tree.hasDirectory place.tail = true := by
  cases place with
  | nil => exact hplace
  | cons name outer =>
    refine h name outer ?_
    rw [hasDirectory_iff.mp hplace]
    rfl

/-- Around what is in a closed tree are directories, all the way up. -/
theorem hasDirectory_above (h : tree.Closed) {place target : Place}
    (htarget : (tree.get? target).isSome) (habove : place <:+ target) (hne : place ≠ target) :
    tree.hasDirectory place = true := by
  induction target with
  | nil => exact absurd (List.suffix_nil.mp habove) hne
  | cons name outer ih =>
    have houter := h name outer htarget
    have habove' : place <:+ outer := (List.suffix_cons_iff.mp habove).resolve_left hne
    by_cases heq : place = outer
    · rw [heq, houter]
    · exact ih (by rw [hasDirectory_iff.mp houter]; rfl) habove' heq

/-- Nothing is below a place where no directory is. -/
theorem get?_below (h : tree.Closed) {place : Place} (hplace : tree.get? place = none)
    (name : String) : tree.get? (name :: place) = none := by
  by_contra hsome
  have hdirectory := h name place (Option.isSome_iff_ne_none.mpr hsome)
  rw [hasDirectory_iff, hplace] at hdirectory
  cases hdirectory

/-- A new node may be put into any directory. -/
theorem put (h : tree.Closed) {name : String} {outer : Place}
    (houter : tree.hasDirectory outer = true) (hnew : tree.get? (name :: outer) = none)
    (node : Node) : (tree.put (name :: outer) node).Closed := by
  have hgrow : Within tree (tree.put (name :: outer) node) := .put_of_free hnew node
  intro name' outer' hsome
  rw [get?_put] at hsome
  split at hsome
  next heq =>
    cases heq
    exact hgrow.hasDirectory outer houter
  next => exact hgrow.hasDirectory outer' (h name' outer' hsome)

theorem congr (h : tree.Closed) {other : Tree} (hsame : Same other tree) : other.Closed := by
  intro name outer hsome
  rw [hsame.get?] at hsome
  rw [hsame.hasDirectory]
  exact h name outer hsome

end Closed

end Tree

/-! ## Steps that are refused -/

@[simp]
theorem Faults.guard_none {α : Type} (step : Step) (outcome : Except Cause α) :
    Faults.none.guard step outcome = outcome := rfl

/-- A step that comes out well was not refused. -/
theorem Faults.guard_eq_ok {α : Type} {faults : Faults} {step : Step} {outcome : Except Cause α}
    {result : α} (h : faults.guard step outcome = .ok result) : outcome = .ok result := by
  unfold guard at h
  split at h
  · cases h
  · exact h

/-! ## Fresh names -/

/-- A fresh name is none of those taken: there are more numbers than names taken. -/
theorem freshName_not_mem (stem : String) (taken : List String) :
    freshName stem taken ∉ taken := by
  unfold freshName
  dsimp only
  cases hfound : (List.range (taken.length + 1)).reverse.find?
      fun n => !taken.contains (stem ++ toString n) with
  | some n => simpa using List.find?_some hfound
  | none =>
    -- otherwise all numbers make names that are taken, and they are one more than those
    exfalso
    have hdistinct : ((List.range (taken.length + 1)).map fun n => stem ++ toString n).Nodup := by
      refine (List.nodup_range).map fun m n hmn => ?_
      exact Nat.repr_injective ((String.append_right_inj stem).mp hmn)
    have hsubset : (List.range (taken.length + 1)).map (fun n => stem ++ toString n) ⊆ taken := by
      intro name hname
      obtain ⟨n, hn, rfl⟩ := List.mem_map.mp hname
      simpa using List.find?_eq_none.mp hfound n (List.mem_reverse.mpr hn)
    have hle := hdistinct.length_le_of_subset hsubset
    rw [List.length_map, List.length_range] at hle
    omega

/-- Nothing in a tree has a name that is not among the names of the tree. -/
theorem Tree.get?_of_not_mem_names {tree : Tree} {name : String} (h : name ∉ tree.names)
    (outer : Place) : tree.get? (name :: outer) = none := by
  rw [get?_cons, List.lookup_eq_none_iff]
  intro node hnode
  rw [bne_iff_ne]
  intro heq
  refine h (List.mem_flatMap.mpr ⟨node, hnode, ?_⟩)
  rw [← heq]
  simp

end MavlinkCompiler.Storage
