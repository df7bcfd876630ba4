import MavlinkCompiler.Proofs.Outcome
import MavlinkCompiler.Proofs.Storage.Progress

/-!
# Runs that are repeated

A run that succeeded can be repeated on the tree that it left. All directories are there now, so no
directory is made; every destination holds a file, so every file is set aside before its successor
comes; and what is found in the end is what was found before. The sources are read again, so none of
them may have been written over.

* `closed_of_brought`: the tree after a write is closed again.
* `same_of_write_again`: a write that is repeated changes nothing, whether or not it succeeds.
* `write_again_eq_ok_iff`: when it succeeds.
* `plan_after_write`: a run plans the same the second time.

One thing is not the same the second time. A replaced file is kept under a longer name than files
wait under, and beside a destination there may be room for the one and not for the other.
`generation_repeats` says that a run can be repeated for all but this reason, and
`windingTree_is_stuck` is a run that it happens to.
-/

namespace MavlinkCompiler.Storage

open MavlinkCompiler.Storage.Tree (Same Within Closed)

/-! ## The tree after a write -/

section Prepared

variable {reserved : List String} {tree after : Tree} {directory : Path}
  {artifacts : List Artifact} {staging : Staging}

/-- A staged file is one of the files to write. -/
theorem Staging.Prepared.exists_artifact (h : staging.Prepared reserved tree directory artifacts)
    {file : Staged} (hfile : file ∈ staging.staged) :
    ∃ artifact ∈ artifacts, file.destination = destination directory artifact := by
  have hmem := List.mem_map_of_mem (f := Staged.arrival staging.tree) hfile
  rw [h.arrivals] at hmem
  obtain ⟨artifact, hartifact, heq⟩ := List.mem_map.mp hmem
  exact ⟨artifact, hartifact, (Prod.mk.inj heq).1.symm⟩

theorem Staging.Prepared.destinations (h : staging.Prepared reserved tree directory artifacts) :
    staging.staged.map (·.destination) = artifacts.map (destination directory) := by
  have hfirsts := congrArg (List.map Prod.fst) h.arrivals
  rwa [List.map_map, List.map_map] at hfirsts

theorem closed_of_brought (hsound : staging.Sound reserved tree)
    (h : staging.Prepared reserved tree directory artifacts)
    (hbrought : Brought staging.tree staging.staged [] after) : after.Closed := by
  intro name outer hsome
  by_cases hreached : ∃ artifact ∈ artifacts,
      after.follow (destination directory artifact) = .ok (name :: outer)
  · obtain ⟨artifact, hartifact, hfollow⟩ := hreached
    have hslot := (h.follow_iff hbrought hartifact _).mp hfollow
    obtain ⟨name', outer', heq, -, houter⟩ := Tree.exists_of_slot hslot
    obtain ⟨rfl, rfl⟩ := List.cons.inj heq
    exact houter
  · -- what no file was brought to was there when the files were staged
    have helsewhere := h.get?_elsewhere hbrought
      fun artifact hartifact heq => hreached ⟨artifact, hartifact, heq⟩
    rw [hbrought.hasDirectory]
    refine hsound.closed name outer ?_
    rw [helsewhere, get?_discard h.apart] at hsome
    split at hsome
    · cases hsome
    · exact hsome

end Prepared

/-- Files that are all staged are staged soundly, and they are prepared. -/
theorem staging_of_stageAll {tree : Tree} (h : tree.Closed) {directory : Path}
    {artifacts : List Artifact} {staging : Staging}
    (hstage : stageAll .none (pathNames directory artifacts) directory ⟨tree, [], [], []⟩
      artifacts = (staging, none)) :
    staging.Sound (pathNames directory artifacts) tree ∧
      staging.Prepared (pathNames directory artifacts) tree directory artifacts := by
  have hsound := Staging.sound_of_write .none h directory artifacts
  rw [hstage] at hsound
  have hinitial : Staging.Prepared (pathNames directory artifacts) tree directory []
      ⟨tree, [], [], []⟩ := ⟨rfl, by simp, rfl, fun _ => .inl rfl⟩
  exact ⟨hsound, hinitial.stageAll hstage⟩

/-- What a successful write went through. -/
theorem exists_staging_of_write {tree : Tree} (h : tree.Closed) {directory : Path}
    {artifacts : List Artifact} {paths : List Path}
    (hok : (write tree directory artifacts).result.outcome = .ok paths) :
    ∃ staging, stageAll .none (pathNames directory artifacts) directory ⟨tree, [], [], []⟩
        artifacts = (staging, none) ∧
      staging.Sound (pathNames directory artifacts) tree ∧
      staging.Prepared (pathNames directory artifacts) tree directory artifacts ∧
      Brought staging.tree staging.staged [] (write tree directory artifacts).tree ∧
      paths = artifacts.map (destination directory) := by
  obtain ⟨staging, hstage, hcommit⟩ := exists_commit_of_write hok
  obtain ⟨hsound, hprepared⟩ := staging_of_stageAll h hstage
  obtain ⟨hbrought, hpaths⟩ := brought_of_commit hsound hcommit
  exact ⟨staging, hstage, hsound, hprepared, hbrought, hpaths.trans hprepared.destinations⟩

/-! ## Writing again -/

/-- Bringing files again to where they were brought before changes nothing. -/
theorem Staging.Prepared.same_again {reserved : List String} {tree after again : Tree}
    {directory : Path} {artifacts : List Artifact} {staging staging' : Staging}
    (h : staging.Prepared reserved tree directory artifacts)
    (hbrought : Brought staging.tree staging.staged [] after) (hclosed : after.Closed)
    (h' : staging'.Prepared reserved after directory artifacts)
    (hready : ∀ file ∈ staging'.staged, file.Ready reserved staging'.tree)
    (hbrought' : Brought staging'.tree staging'.staged [] again) : Same again after := by
  have hstaged : Within after staging'.tree := h'.within hready
  have hwithin : Within after again := hstaged.trans
    ⟨hbrought'.here.symm, fun place hplace => (hbrought'.hasDirectory place).trans hplace⟩
  refine ⟨hbrought'.here.trans h'.here, fun place => ?_⟩
  -- the paths lead where they led, so the same file is the last one for a place
  have hslots : ∀ artifact ∈ artifacts.reverse,
      decide (again.slot (destination directory artifact) = .ok (.named place false)) =
        decide (after.slot (destination directory artifact) = .ok (.named place false)) := by
    intro artifact hartifact
    obtain ⟨target, hslot⟩ := h.exists_slot hbrought (List.mem_reverse.mp hartifact)
    rw [hslot, hwithin.slot hslot]
  rw [h'.get?_brought hbrought', List.find?_congr hslots]
  cases hfound : artifacts.reverse.find? fun artifact =>
      after.slot (destination directory artifact) = .ok (.named place false) with
  | some found =>
    have hget := h.get?_brought hbrought place
    rw [hfound] at hget
    exact hget.symm
  | none =>
    show (discard staging'.tree staging'.staged).get? place = after.get? place
    rcases h'.rest place with hsame | ⟨hnone, -, artifact, hartifact, haround⟩
    · exact hsame
    · -- a directory that was made would lie around a file that was there before
      exfalso
      obtain ⟨target, contents, hslot, hcontents⟩ := h.exists_file hbrought hartifact
      obtain ⟨habove, hne⟩ :=
        haround staging'.tree target ⟨rfl, fun _ hplace => hplace⟩ (hstaged.slot hslot)
      have hthere := hclosed.hasDirectory_above (by rw [hcontents]; rfl) habove hne
      rw [Tree.hasDirectory_iff, hnone] at hthere
      cases hthere

section Again

variable {tree after : Tree} {directory : Path} {artifacts : List Artifact} {paths : List Path}

/-- Files that were written can be staged again: their destinations have slots, and the temporary
files are spelled as before. -/
theorem Staging.Prepared.stage_again {reserved : List String} {staging : Staging}
    (h : staging.Prepared reserved tree directory artifacts)
    (hbrought : Brought staging.tree staging.staged [] after)
    (hstage : Storage.stageAll .none reserved directory ⟨tree, [], [], []⟩ artifacts =
      (staging, none)) :
    ∃ staging', Storage.stageAll .none reserved directory ⟨after, [], [], []⟩ artifacts =
      (staging', none) := by
  refine exists_stageAll reserved (fun artifact hartifact => h.exists_slot hbrought hartifact)
    fun artifact hartifact => ?_
  obtain ⟨place, hslot⟩ := h.exists_slot hbrought hartifact
  obtain ⟨name, outer, rfl, -⟩ := Tree.exists_of_slot hslot
  obtain ⟨parent, hparent, -⟩ := followDirectory_parent hslot
  show (after.beside _ _).refusal? = none
  rw [Tree.beside, hparent, Option.getD_some,
    Tree.absolute_congr (hbrought.here.trans h.here)]
  exact refusal?_of_stageAll hstage artifact hartifact parent hparent

/-- Every file that is staged again replaces one that was written before. -/
theorem Staging.Prepared.replaces_again {reserved : List String} {staging staging' : Staging}
    (h : staging.Prepared reserved tree directory artifacts)
    (hbrought : Brought staging.tree staging.staged [] after)
    (h' : staging'.Prepared reserved after directory artifacts)
    (hready : ∀ file ∈ staging'.staged, file.Ready reserved staging'.tree) :
    ∀ file ∈ staging'.staged, file.Replaces staging'.tree := by
  intro file hfile
  obtain ⟨artifact, hartifact, hdestination⟩ := h'.exists_artifact hfile
  obtain ⟨place, contents, hslot, hcontents⟩ := h.exists_file hbrought hartifact
  refine ⟨place, contents, ?_, ?_⟩
  · rw [hdestination]
    exact (h'.within hready).slot hslot
  · -- the file is not among the temporary ones, because these are gone when they are discarded
    have hkept := h'.get?_discard hcontents
    rw [Storage.get?_discard h'.apart] at hkept
    split at hkept
    · cases hkept
    · exact hkept

/-- A write that is repeated changes nothing, whether or not it succeeds. -/
theorem same_of_write_again (h : tree.Closed)
    (hok : (write tree directory artifacts).result.outcome = .ok paths)
    (hafter : (write tree directory artifacts).tree = after) :
    Same (write after directory artifacts).tree after := by
  obtain ⟨staging, -, hsound, hprepared, hbrought, -⟩ := exists_staging_of_write h hok
  rw [hafter] at hbrought
  have hclosed := closed_of_brought hsound hprepared hbrought
  cases hagain : (write after directory artifacts).result.outcome with
  | error error => exact same_of_writeUnder_error hclosed hagain
  | ok paths' =>
    obtain ⟨staging', -, hsound', hprepared', hbrought', -⟩ :=
      exists_staging_of_write hclosed hagain
    exact hprepared.same_again hbrought hclosed hprepared' hsound'.ready hbrought'

/-- A write can be repeated if the files that it left can be set aside, and then the paths are the
same. -/
theorem write_again_eq_ok_iff (h : tree.Closed)
    (hok : (write tree directory artifacts).result.outcome = .ok paths)
    (hafter : (write tree directory artifacts).tree = after) :
    (write after directory artifacts).result.outcome = .ok paths ↔
      ∀ path ∈ paths, (after.beside path previousStem).refusal? = none := by
  obtain ⟨staging, hstage, hsound, hprepared, hbrought, hpaths⟩ := exists_staging_of_write h hok
  rw [hafter] at hbrought
  have hclosed := closed_of_brought hsound hprepared hbrought
  obtain ⟨staging', hstage'⟩ := hprepared.stage_again hbrought hstage
  obtain ⟨hsound', hprepared'⟩ := staging_of_stageAll hclosed hstage'
  have hreplaces := hprepared.replaces_again hbrought hprepared' hsound'.ready
  -- the files to set aside are those at the paths of the first write
  have hasides : (∀ file ∈ staging'.staged,
        (staging'.tree.beside file.destination previousStem).refusal? = none) ↔
      ∀ path ∈ paths, (after.beside path previousStem).refusal? = none := by
    rw [hpaths, ← hprepared'.destinations, List.forall_mem_map]
    simp only [Tree.beside_congr hprepared'.here]
  rw [← hasides, ← commit_isOk_iff hsound' hreplaces]
  constructor
  · intro hagain
    obtain ⟨staging'', hstage'', hcommit⟩ := exists_commit_of_write hagain
    rw [hstage', Prod.mk.injEq] at hstage''
    obtain ⟨rfl, -⟩ := hstage''
    exact ⟨_, _, hcommit⟩
  · rintro ⟨again, paths', hcommit⟩
    obtain ⟨-, hpaths'⟩ := brought_of_commit hsound' hcommit
    rw [(write_of_commit hstage' hcommit).2, hpaths', hprepared'.destinations, hpaths]

end Again

/-! ## Running again -/

theorem Tree.read_eq_ok_iff {tree : Tree} {path : Path} {contents : ByteArray} :
    tree.read path = .ok contents ↔
      ∃ place, tree.follow path = .ok place ∧ tree.get? place = some (.file contents) := by
  unfold Tree.read
  cases tree.follow path with
  | error cause => simp
  | ok place =>
    dsimp only
    cases hnode : tree.get? place with
    | none => simp [hnode]
    | some node => cases node <;> simp [hnode]

/-- A file is found by the same path while it is there, however many directories are added. -/
theorem Tree.Within.follow_file {a b : Tree} (h : Within a b) (hclosed : a.Closed) {path : Path}
    {place : Place} {contents : ByteArray} (hfollow : a.follow path = .ok place)
    (hfile : a.get? place = some (.file contents))
    (hkept : b.get? place = some (.file contents)) : b.follow path = .ok place := by
  by_cases hsegments : path.segments = []
  · -- a path without segments stays at the working directory
    unfold Tree.follow at hfollow ⊢
    rw [hsegments] at hfollow ⊢
    rw [← h.start]
    exact hfollow
  · have hplace : a.hasDirectory place = false := by
      simp [Tree.hasDirectory, hfile, Node.isDirectory]
    obtain ⟨hslot, -⟩ := Tree.slot_of_follow hclosed.up hsegments hfollow hplace
    exact Tree.follow_of_slot (h.slot hslot) (by rw [hkept]; rfl)

/-- A run plans the same in another tree if the sources are there. -/
theorem plan_again {a b : Tree} (h : Within a b) (hclosed : a.Closed) {settings : Settings}
    (hkept : ∀ source ∈ settings.sources, ∀ place contents, a.follow source = .ok place →
      a.get? place = some (.file contents) → b.get? place = some (.file contents))
    {planned : Path × List Artifact} (hplan : (plan .none a settings).outcome = .ok planned) :
    (plan .none b settings).outcome = .ok planned := by
  unfold plan at hplan ⊢
  rw [Logged.outcome_bind, Outcome.bind_eq_ok_iff] at hplan ⊢
  obtain ⟨output, houtput, hplan⟩ := hplan
  refine ⟨output, houtput, ?_⟩
  rw [Logged.outcome_bind, Outcome.bind_eq_ok_iff] at hplan ⊢
  obtain ⟨sources, hsources, hplan⟩ := hplan
  refine ⟨sources, Outcome.mapM_of_step hsources fun path hpath source hsource => ?_, hplan⟩
  -- each source is found at the same place, with the same contents
  unfold readSource at hsource ⊢
  cases hread : a.read path with
  | error cause =>
    rw [hread] at hsource
    cases hsource
  | ok contents =>
    obtain ⟨place, hfollow, hfile⟩ := Tree.read_eq_ok_iff.mp hread
    have hfile' := hkept path hpath place contents hfollow hfile
    have hread' : b.read path = .ok contents :=
      Tree.read_eq_ok_iff.mpr ⟨place, h.follow_file hclosed hfollow hfile hfile', hfile'⟩
    rwa [hread', ← hread]

/-- The planned files go to the output directory of the settings. -/
theorem output_of_plan {tree : Tree} {settings : Settings} {output : Path}
    {artifacts : List Artifact}
    (hplan : (plan .none tree settings).outcome = .ok (output, artifacts)) :
    settings.output = some output := by
  unfold plan at hplan
  simp only [Logged.outcome_bind, Outcome.bind_eq_ok_iff, Logged.outcome_lift,
    Outcome.mapError_eq_ok_iff] at hplan
  obtain ⟨output', hcheck, sources, -, model, -, artifacts', -, heq⟩ := hplan
  cases heq
  unfold Settings.check at hcheck
  split at hcheck
  · cases hcheck
  split at hcheck
  next found hfound =>
    cases hcheck
    exact hfound
  · cases hcheck

/-- A run with a plan succeeds if the planned files are written. -/
theorem generate_of_plan {tree : Tree} {settings : Settings} {output : Path}
    {artifacts : List Artifact}
    (hplan : (plan .none tree settings).outcome = .ok (output, artifacts)) :
    (generate tree settings).tree = (write tree output artifacts).tree ∧
      ∀ paths, (generate tree settings).result.outcome = .ok paths ↔
        (write tree output artifacts).result.outcome = .ok paths := by
  unfold generate generateUnder write
  dsimp only
  rw [hplan]
  refine ⟨rfl, fun paths => ?_⟩
  simp only [Logged.outcome_bind, Logged.mapError, hplan]
  cases (writeUnder .none tree output artifacts).result.outcome with
  | error error => simp [Except.mapError, bind, Except.bind]
  | ok paths' => simp [Except.mapError, bind, Except.bind, Logged.emit, pure]

theorem exists_plan_of_generate {tree : Tree} {settings : Settings} {paths : List Path}
    (hok : (generate tree settings).result.outcome = .ok paths) :
    ∃ output artifacts, (plan .none tree settings).outcome = .ok (output, artifacts) := by
  cases hplan : (plan .none tree settings).outcome with
  | ok planned => exact ⟨planned.1, planned.2, rfl⟩
  | error failure =>
    unfold generate generateUnder at hok
    dsimp only at hok
    rw [hplan] at hok
    cases hok

/-- A run that wrote over none of its sources plans the same the second time. -/
theorem plan_after_write {tree : Tree} (h : tree.Closed) {settings : Settings} {output : Path}
    {artifacts : List Artifact} {paths : List Path}
    (hplan : (plan .none tree settings).outcome = .ok (output, artifacts))
    (hok : (write tree output artifacts).result.outcome = .ok paths)
    (hsources : ∀ source ∈ settings.sources, ∀ place, tree.follow source = .ok place →
      ∀ path ∈ paths, (write tree output artifacts).tree.follow path ≠ .ok place) :
    (plan .none (write tree output artifacts).tree settings).outcome =
      .ok (output, artifacts) := by
  obtain ⟨staging, -, hsound, hprepared, hbrought, rfl⟩ := exists_staging_of_write h hok
  have hdelivered := hprepared.delivered hsound.ready hbrought
  refine plan_again hdelivered.within h
    (fun source hsource place contents hfollow hfile => ?_) hplan
  refine hdelivered.kept place _ hfile fun artifact hartifact => ?_
  exact hsources source hsource place hfollow _ (List.mem_map_of_mem hartifact)

/-- **Repetition.** A run that succeeded and wrote over none of its sources leaves a tree that the
same run does not change any more. It succeeds again, with the same paths, unless a file that it
wrote has no room beside it for the name that it would be kept under. -/
theorem generation_repeats (tree : Tree) (h : tree.Closed) (settings : Settings)
    (paths : List Path) (hok : (generate tree settings).result.outcome = .ok paths)
    (hsources : ∀ source ∈ settings.sources, ∀ place, tree.follow source = .ok place →
      ∀ path ∈ paths, (generate tree settings).tree.follow path ≠ .ok place) :
    Same (generate (generate tree settings).tree settings).tree (generate tree settings).tree ∧
      ((generate (generate tree settings).tree settings).result.outcome = .ok paths ↔
        ∀ path ∈ paths,
          ((generate tree settings).tree.beside path previousStem).refusal? = none) := by
  obtain ⟨output, artifacts, hplan⟩ := exists_plan_of_generate hok
  obtain ⟨htree, houtcome⟩ := generate_of_plan hplan
  have hwritten := (houtcome paths).mp hok
  rw [htree] at hsources ⊢
  have hplan' := plan_after_write h hplan hwritten hsources
  obtain ⟨htree', houtcome'⟩ := generate_of_plan hplan'
  rw [htree', houtcome']
  exact ⟨same_of_write_again h hwritten rfl, write_again_eq_ok_iff h hwritten rfl⟩

/-- A working directory with one source in it. -/
def sourceTree : Tree :=
  ⟨[(["home"], .directory), (["a.xml", "home"], .file "<mavlink/>".toUTF8)], ["home"]⟩

/-- A run that makes directories and writes three files. -/
def headerSettings : Settings :=
  ⟨[⟨["a.xml"]⟩], some ⟨["out"]⟩, .cpp, .separate⟩

/-- The paths of these files. -/
def headerPaths : List Path :=
  [⟨["out", "include", "ugcs", "vsm", "auto_mavlink_enums.h"]⟩,
    ⟨["out", "include", "ugcs", "vsm", "auto_mavlink_messages.h"]⟩,
    ⟨["out", "auto_mavlink_messages.cpp"]⟩]

theorem closed_sourceTree : sourceTree.Closed :=
  .of_nodes (by decide +kernel)

theorem sourceTree_repeats :
    sourceTree.Closed ∧
    (generate sourceTree headerSettings).result.outcome = .ok headerPaths ∧
    Same (generate (generate sourceTree headerSettings).tree headerSettings).tree
      (generate sourceTree headerSettings).tree ∧
    (generate (generate sourceTree headerSettings).tree headerSettings).result.outcome =
      .ok headerPaths := by
  have hok : (generate sourceTree headerSettings).result.outcome = .ok headerPaths := by
    decide +kernel
  have hsources : ∀ source ∈ headerSettings.sources, ∀ place,
      sourceTree.follow source = .ok place → ∀ path ∈ headerPaths,
        (generate sourceTree headerSettings).tree.follow path ≠ .ok place := by
    intro source hsource place hplace
    obtain rfl : source = ⟨["a.xml"]⟩ := List.mem_singleton.mp hsource
    have hfollow : sourceTree.follow ⟨["a.xml"]⟩ = .ok ["a.xml", "home"] := by decide +kernel
    rw [hfollow] at hplace
    cases hplace
    decide +kernel
  obtain ⟨hsame, hagain⟩ := generation_repeats sourceTree closed_sourceTree headerSettings
    headerPaths hok hsources
  exact ⟨closed_sourceTree, hok, hsame, hagain.mpr (by decide +kernel)⟩

/-! ## No room for a second run -/

/-- A single file for a free place is written if a temporary file can be spelled beside it. -/
theorem write_single {tree : Tree} (h : tree.Closed) {directory : Path} {artifact : Artifact}
    {place : Place}
    (hslot : tree.slot (destination directory artifact) = .ok (.named place false))
    (hfree : tree.get? place = none)
    (hspelled : (tree.beside (destination directory artifact) waitingStem).refusal? = none) :
    (write tree directory [artifact]).result.outcome = .ok [destination directory artifact] ∧
      (write tree directory [artifact]).tree.follow (destination directory artifact) =
        .ok place := by
  obtain ⟨staging, hstage⟩ : ∃ staging,
      stageAll .none (pathNames directory [artifact]) directory ⟨tree, [], [], []⟩ [artifact] =
        (staging, none) :=
    exists_stageAll _ (by simpa using ⟨place, hslot⟩) (by simpa using hspelled)
  obtain ⟨hsound, hprepared⟩ := staging_of_stageAll h hstage
  obtain ⟨file, hstaged, hdestination⟩ :=
    List.map_eq_singleton_iff.mp hprepared.destinations
  have hready := hsound.ready file (by simp [hstaged])
  have hslot' := (hprepared.within hsound.ready).slot hslot
  -- staging makes directories around the place only
  have hfree' : staging.tree.get? place = none := by
    have hdiscard : (discard staging.tree staging.staged).get? place = none := by
      rcases hprepared.rest place with hsame | ⟨-, -, other, hother, haround⟩
      · rw [hsame, hfree]
      · obtain rfl : other = artifact := by simpa using hother
        exact absurd rfl (haround staging.tree place ⟨rfl, fun _ hplace => hplace⟩ hslot').2
    have hnot : place ∉ staging.staged.map (·.temporary) :=
      not_mem_temporaries (hdestination ▸ hready.spelled) hslot' hprepared.apart
    rwa [get?_discard hprepared.apart, if_neg hnot] at hdiscard
  obtain ⟨after, hcommit⟩ :=
    exists_commit_of_free hsound hstaged (hdestination ▸ hslot') hfree'
  obtain ⟨hafter, hok⟩ := write_of_commit hstage hcommit
  obtain ⟨hbrought, -⟩ := brought_of_commit hsound hcommit
  rw [hafter, hok, hdestination]
  refine ⟨rfl, (hprepared.follow_iff hbrought List.mem_cons_self place).mpr ?_⟩
  exact (hprepared.delivered hsound.ready hbrought).within.slot hslot

/-- A path that stays in place a number of times before it leads anywhere. -/
def winding (times : Nat) (names : List String) : Path :=
  ⟨List.replicate times "." ++ names⟩

section Winding

variable {times : Nat} {names : List String}

theorem isAbsolute_winding {name : String} (hname : name ≠ "") :
    (winding times (name :: names)).isAbsolute = false := by
  rw [Bool.eq_false_iff]
  intro habsolute
  obtain ⟨second, rest, heq⟩ := Path.isAbsolute_iff.mp habsolute
  cases times with
  | zero => exact hname (List.cons.inj heq).1
  | succ times => exact absurd (List.cons.inj heq).1 (by decide)

theorem parent?_winding {name : String} (hname : Path.isNeutral name = false)
    {outer : String} (houter : Path.isNeutral outer = false) :
    (winding times [outer, name]).parent? = some (winding times [outer]) := by
  have hpath : (winding times [outer, name]).segments =
      (List.replicate times "." ++ [outer]) ++ [name] := by simp [winding]
  rw [Path.parent?_concat hpath hname, Path.fronts_concat, if_pos (Path.isFront_concat houter)]
  rfl

theorem join_winding {outer : String} (houter : outer ≠ "") (name : String) :
    (winding times [outer]).join ⟨[name]⟩ = winding times [outer, name] := by
  simp [Path.join, winding, Path.isAbsolute, houter]

/-- Every time that a path stays in place takes two bytes. -/
theorem size_winding (front : List String) (hnames : names ≠ []) :
    (Path.mk (front ++ (winding times names).segments)).size =
      2 * times + (Path.mk (front ++ names)).size := by
  have hlength := List.length_pos_of_ne_nil hnames
  have hdot : (".").utf8ByteSize = 1 := rfl
  rw [Path.size_eq, Path.size_eq]
  simp only [winding, List.map_append, List.map_replicate, List.sum_append, List.sum_replicate,
    List.length_append, List.length_replicate, hdot, smul_eq_mul]
  omega

/-- Whether a path that stays in place for a while can be followed is a matter of its bytes. -/
theorem refusal?_winding {front : List String} (hnames : names ≠ [])
    (hnull : (Path.mk (front ++ names)).hasNull = false) :
    (Path.mk (front ++ (winding times names).segments)).refusal? = none ↔
      2 * times + (Path.mk (front ++ names)).size < pathLimit := by
  have hnull' : (Path.mk (front ++ (winding times names).segments)).hasNull = false := by
    simpa [Path.hasNull, winding] using hnull
  rw [Path.refusal?_eq_none_iff, size_winding front hnames]
  simp [hnull']

theorem beside_winding (tree : Tree) {outer name : String} (houter : Path.isNeutral outer = false)
    (hname : Path.isNeutral name = false) {stem temporary : String}
    (htemporary : Path.ofText (stem ++ "XXXXXX") = ⟨[temporary]⟩) :
    tree.beside (winding times [outer, name]) stem =
      ⟨("" :: tree.here.reverse) ++ (winding times [outer, temporary]).segments⟩ := by
  have houter' : outer ≠ "" := by
    rintro rfl
    cases houter
  rw [Tree.beside, parent?_winding hname houter, Option.getD_some, temporaryPath, htemporary,
    join_winding houter', Tree.absolute, isAbsolute_winding houter']
  rfl

end Winding

/-- A working directory with a source and a directory in it. -/
def windingTree : Tree :=
  ⟨[(["home"], .directory), (["workspace", "home"], .directory),
    (["o", "workspace", "home"], .directory),
    (["a.xml", "workspace", "home"], .file "<mavlink/>".toUTF8)], ["workspace", "home"]⟩

/-- A run that writes one file to the directory, on a way that is almost too long. -/
def windingSettings : Settings :=
  ⟨[⟨["a.xml"]⟩], some (winding 2029 ["o"]), .lua, .separate⟩

/-- The path of this file. -/
def windingPath : Path :=
  winding 2029 ["o", "auto_mavlink_dissector.lua"]

theorem closed_windingTree : windingTree.Closed :=
  .of_nodes (by decide +kernel)

/-- The way leads into the directory, unless it is too long. -/
theorem slot_windingTree {times : Nat} (htimes : 2 * times + 28 < pathLimit) :
    windingTree.slot (winding times ["o", "auto_mavlink_dissector.lua"]) =
      .ok (.named ["auto_mavlink_dissector.lua", "o", "workspace", "home"] false) := by
  have hrefusal := (refusal?_winding (List.cons_ne_nil "o" ["auto_mavlink_dissector.lua"])
    (show (Path.mk ([] ++ _)).hasNull = false by decide +kernel)).mpr htimes
  have hwhole : Tree.unslashed (winding times ["o", "auto_mavlink_dissector.lua"]) =
      (List.replicate times "." ++ ["o"]) ++ ["auto_mavlink_dissector.lua"] := by
    simp [Tree.unslashed, winding]
  rw [Tree.slot_eq_named_iff, hwhole]
  refine ⟨hrefusal, _, _, _, rfl, ?_, rfl, by decide, by decide, by decide, rfl, ?_⟩
  · rw [Tree.start, isAbsolute_winding (by decide)]
    refine Tree.walk_neutral rfl (fun segment hsegment => ?_) ["o"]
    rw [List.eq_of_mem_replicate hsegment]
    rfl
  · simp [winding]

/-- Beside the file is room for a name of as many bytes as the way leaves. -/
theorem beside_windingTree (tree : Tree) (hhere : tree.here = windingTree.here) {times : Nat}
    (stem temporary : String) (htemporary : Path.ofText (stem ++ "XXXXXX") = ⟨[temporary]⟩)
    (hnull : (Path.mk ["", "home", "workspace", "o", temporary]).hasNull = false) :
    (tree.beside (winding times ["o", "auto_mavlink_dissector.lua"]) stem).refusal? = none ↔
      2 * times + (Path.mk ["", "home", "workspace", "o", temporary]).size < pathLimit := by
  rw [beside_winding tree (by decide) (by decide) htemporary, hhere]
  exact refusal?_winding (List.cons_ne_nil _ _) hnull

/-- The run writes one file. -/
theorem plan_windingSettings :
    ∃ contents, (plan .none windingTree windingSettings).outcome =
      .ok (winding 2029 ["o"], [⟨"auto_mavlink_dissector.lua", contents⟩]) := by
  have hpaths : ((plan .none windingTree windingSettings).outcome.toOption.map fun planned =>
      planned.2.map (·.path)) = some ["auto_mavlink_dissector.lua"] := by
    decide +kernel
  cases hplan : (plan .none windingTree windingSettings).outcome with
  | error failure =>
    rw [hplan] at hpaths
    cases hpaths
  | ok planned =>
    obtain ⟨output, artifacts⟩ := planned
    rw [hplan] at hpaths
    obtain ⟨⟨path, contents⟩, rfl, hpath⟩ :=
      List.map_eq_singleton_iff.mp (Option.some.inj hpaths)
    obtain rfl : path = "auto_mavlink_dissector.lua" := hpath
    obtain rfl : winding 2029 ["o"] = output := Option.some.inj (output_of_plan hplan)
    exact ⟨contents, rfl⟩

/-- The run finds room for the name that the file waits under. -/
theorem write_windingTree (contents : String) :
    (write windingTree (winding 2029 ["o"])
        [⟨"auto_mavlink_dissector.lua", contents⟩]).result.outcome = .ok [windingPath] ∧
      (write windingTree (winding 2029 ["o"])
          [⟨"auto_mavlink_dissector.lua", contents⟩]).tree.follow windingPath =
        .ok ["auto_mavlink_dissector.lua", "o", "workspace", "home"] := by
  have hdestination : destination (winding 2029 ["o"]) ⟨"auto_mavlink_dissector.lua", contents⟩ =
      windingPath := by
    have hname : Path.ofText "auto_mavlink_dissector.lua" = ⟨["auto_mavlink_dissector.lua"]⟩ := by
      decide +kernel
    rw [destination, hname, join_winding (by decide), windingPath]
  have hslot : windingTree.slot windingPath =
      .ok (.named ["auto_mavlink_dissector.lua", "o", "workspace", "home"] false) :=
    slot_windingTree (by decide)
  have hwaiting : (windingTree.beside windingPath waitingStem).refusal? = none :=
    (beside_windingTree windingTree rfl waitingStem ".tmpXXXXXX" (by decide +kernel)
      (by decide +kernel)).mpr (by decide +kernel)
  rw [← hdestination] at hslot hwaiting ⊢
  exact write_single closed_windingTree hslot rfl hwaiting

/-- **No room.** A run can succeed once and then fail although nothing has changed since: the file
that it wrote cannot be set aside, because the name that it would be kept under makes the path too
long. -/
theorem windingTree_is_stuck :
    windingTree.Closed ∧
    (generate windingTree windingSettings).result.outcome = .ok [windingPath] ∧
    (∀ source ∈ windingSettings.sources, ∀ place, windingTree.follow source = .ok place →
      ∀ path ∈ [windingPath],
        (generate windingTree windingSettings).tree.follow path ≠ .ok place) ∧
    ∃ failure, (generate (generate windingTree windingSettings).tree
      windingSettings).result.outcome = .error failure := by
  obtain ⟨contents, hplan⟩ := plan_windingSettings
  obtain ⟨htree, houtcome⟩ := generate_of_plan hplan
  obtain ⟨hwritten, hplace⟩ := write_windingTree contents
  obtain ⟨staging, -, hsound, hprepared, hbrought, hpaths⟩ :=
    exists_staging_of_write closed_windingTree hwritten
  have hclosed := closed_of_brought hsound hprepared hbrought
  rw [htree]
  have hsources : ∀ source ∈ windingSettings.sources, ∀ place,
      windingTree.follow source = .ok place → ∀ path ∈ [windingPath],
        (write windingTree (winding 2029 ["o"])
          [⟨"auto_mavlink_dissector.lua", contents⟩]).tree.follow path ≠ .ok place := by
    intro source hsource place hfollow path hpath
    obtain rfl : source = ⟨["a.xml"]⟩ := List.mem_singleton.mp hsource
    have hsourcePlace : windingTree.follow ⟨["a.xml"]⟩ =
        .ok ["a.xml", "workspace", "home"] := by decide +kernel
    rw [hsourcePlace] at hfollow
    cases hfollow
    rw [List.mem_singleton.mp hpath, hplace]
    decide
  refine ⟨closed_windingTree, (houtcome _).mpr hwritten, hsources, ?_⟩
  have hplan' := plan_after_write closed_windingTree hplan hwritten hsources
  generalize hafter : (write windingTree (winding 2029 ["o"])
    [⟨"auto_mavlink_dissector.lua", contents⟩]).tree = after at hbrought hclosed hplan' ⊢
  cases hagain : (generate after windingSettings).result.outcome with
  | error failure => exact ⟨failure, rfl⟩
  | ok paths =>
    exfalso
    have hwritten' := ((generate_of_plan hplan').2 paths).mp hagain
    obtain ⟨-, -, -, -, -, hpaths'⟩ := exists_staging_of_write hclosed hwritten'
    rw [hpaths', ← hpaths] at hwritten'
    -- the file would be kept under a name that is too long
    have hroom := (write_again_eq_ok_iff closed_windingTree hwritten hafter).mp hwritten'
      windingPath List.mem_cons_self
    have hshort := (beside_windingTree after (hbrought.here.trans hprepared.here) previousStem
      ".mavgen-previousXXXXXX" (by decide +kernel) (by decide +kernel)).mp hroom
    exact absurd hshort (by decide +kernel)

end MavlinkCompiler.Storage
