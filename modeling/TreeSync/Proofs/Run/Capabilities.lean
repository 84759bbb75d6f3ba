import TreeSync.Proofs.Run.Completeness

namespace TreeSync

/-! What a run does to the disk and the capabilities it asks for.

They cover all that it makes, writes, adorns and moves, and all that it clears away. They do
not speak of the temporary file of a reply that breaks off: that file is removed as well, in
a run that asks for no removals. It is the last thing such a run does.
-/

open TreeSync.Action FileCollector

/-- Whether the capabilities cover a change. What is moved to its place is created there. -/
def Capabilities.Permits (capabilities : Capabilities) : Change → Prop
  | .madeDirectory _ _ | .madeFile _ _ | .renamed _ _ => capabilities.create = true
  | .wroteFile _ _ => capabilities.write = true
  | .setPermissions _ _ | .setTime _ _ => capabilities.setAttributes = true
  | .removedFile _ | .removedDirectory _ => capabilities.unlink = true

instance (capabilities : Capabilities) :
    (change : Change) → Decidable (capabilities.Permits change)
  | .madeDirectory _ _ | .madeFile _ _ | .renamed _ _ =>
      inferInstanceAs (Decidable (capabilities.create = true))
  | .wroteFile _ _ => inferInstanceAs (Decidable (capabilities.write = true))
  | .setPermissions _ _ | .setTime _ _ =>
      inferInstanceAs (Decidable (capabilities.setAttributes = true))
  | .removedFile _ | .removedDirectory _ =>
      inferInstanceAs (Decidable (capabilities.unlink = true))

/-- A change that neither makes a file nor moves one. -/
def Change.Steady : Change → Prop
  | .madeFile _ _ | .renamed _ _ => False
  | _ => True

def Change.Removes : Change → Prop
  | .removedFile _ | .removedDirectory _ => True
  | _ => False

theorem Change.Quiet.steady {change : Change} (quiet : change.Quiet) : change.Steady := by
  cases change with
  | madeFile | wroteFile | renamed => exact quiet.elim
  | madeDirectory | removedFile | removedDirectory | setPermissions | setTime => trivial

theorem Change.WorksOn.steady {place : Location} {change : Change} (works : change.WorksOn place) :
    change.Steady ∧ ¬ change.Removes := by
  cases works <;> exact ⟨trivial, id⟩

/-- A run that is no rehearsal may do all but remove. -/
theorem Options.permits {options : Options} {change : Change} (acts : options.dryRun = false)
    (removes : change.Removes → options.deletes = true) : options.capabilities.Permits change := by
  unfold capabilities
  cases change with
  | madeDirectory | madeFile | renamed | wroteFile | setPermissions | setTime =>
      simp [Capabilities.Permits, acts]
  | removedFile | removedDirectory => simp [Capabilities.Permits, acts, removes trivial]

/-- Whether a file was made at a place and not moved from there since. -/
def Unfinished (made : List Change) (place : Location) : Prop :=
  ∃ earlier permissions later, made = earlier ++ .madeFile place permissions :: later ∧
    ∀ target, .renamed place target ∉ later

/-- Whether nothing was done since the file at a place was made. -/
def JustMade (made : List Change) (place : Location) : Prop :=
  ∃ earlier permissions, made = earlier ++ [.madeFile place permissions]

namespace Unfinished

variable {place : Location} {change : Change} {made more : List Change}

theorem cons (unfinished : Unfinished made place) : Unfinished (change :: made) place := by
  obtain ⟨earlier, permissions, later, rfl, unmoved⟩ := unfinished
  exact ⟨change :: earlier, permissions, later, rfl, unmoved⟩

theorem append (unfinished : Unfinished made place)
    (unmoved : ∀ target, .renamed place target ∉ more) : Unfinished (made ++ more) place := by
  obtain ⟨earlier, permissions, later, rfl, still⟩ := unfinished
  refine ⟨earlier, permissions, later ++ more, by simp, fun target among => ?_⟩
  rcases List.mem_append.mp among with before | after
  · exact still target before
  · exact unmoved target after

theorem of_cons (unfinished : Unfinished (change :: made) place) :
    (∃ permissions, change = .madeFile place permissions ∧
      ∀ target, .renamed place target ∉ made) ∨ Unfinished made place := by
  obtain ⟨earlier, permissions, later, same, unmoved⟩ := unfinished
  cases earlier with
  | nil =>
      cases same
      exact .inl ⟨permissions, rfl, unmoved⟩
  | cons first rest =>
      cases same
      exact .inr ⟨rest, permissions, later, rfl, unmoved⟩

end Unfinished

namespace Capabilities

variable {capabilities : Capabilities} {draft middle last : Option Location}
  {changes more : List Change} {place : Location}

/-- Changes that are covered. They begin with one file in progress, if any, and end with another. -/
inductive Covers (capabilities : Capabilities) :
    Option Location → List Change → Option Location → Prop
  | done {draft : Option Location} : Covers capabilities draft [] draft
  | goesOn {draft last : Option Location} {change : Change} {rest : List Change}
      (permits : capabilities.Permits change) (steady : change.Steady)
      (later : Covers capabilities draft rest last) : Covers capabilities draft (change :: rest) last
  | begins {place : Location} {permissions : UInt32} {last : Option Location} {rest : List Change}
      (permits : capabilities.Permits (.madeFile place permissions))
      (later : Covers capabilities (some place) rest last) :
      Covers capabilities none (.madeFile place permissions :: rest) last
  | places {place target : Location} {last : Option Location} {rest : List Change}
      (permits : capabilities.Permits (.renamed place target))
      (later : Covers capabilities none rest last) :
      Covers capabilities (some place) (.renamed place target :: rest) last

theorem Covers.append (earlier : capabilities.Covers draft changes middle)
    (later : capabilities.Covers middle more last) :
    capabilities.Covers draft (changes ++ more) last := by
  induction earlier with
  | done => exact later
  | goesOn permits steady _ ih => exact .goesOn permits steady (ih later)
  | begins permits _ ih => exact .begins permits (ih later)
  | places permits _ ih => exact .places permits (ih later)

theorem Covers.of_steady
    (steady : ∀ change ∈ changes, capabilities.Permits change ∧ change.Steady) :
    capabilities.Covers draft changes draft := by
  induction changes with
  | nil => exact .done
  | cons change rest ih =>
      obtain ⟨first, others⟩ := List.forall_mem_cons.mp steady
      exact .goesOn first.1 first.2 (ih others)

theorem Covers.each (covers : capabilities.Covers draft changes last) :
    ∀ change ∈ changes, capabilities.Permits change := by
  induction covers with
  | done => nofun
  | goesOn permits _ _ ih | begins permits _ ih | places permits _ ih =>
      exact List.forall_mem_cons.mpr ⟨permits, ih⟩

/-- The file in progress was in progress before, or it was begun since. -/
theorem Covers.unfinished (covers : capabilities.Covers draft changes last)
    (held : last = some place) :
    (draft = some place ∧ ∀ target, .renamed place target ∉ changes) ∨
      Unfinished changes place := by
  induction covers with
  | done => exact .inl ⟨held, nofun⟩
  | @goesOn _ _ change rest _ steady _ ih =>
      rcases ih held with ⟨same, unmoved⟩ | begun
      · refine .inl ⟨same, fun target among => ?_⟩
        rcases List.mem_cons.mp among with rfl | later
        · exact steady
        · exact unmoved target later
      · exact .inr begun.cons
  | begins _ _ ih =>
      rcases ih held with ⟨same, unmoved⟩ | begun
      · cases same
        exact .inr ⟨[], _, _, rfl, unmoved⟩
      · exact .inr begun.cons
  | places _ _ ih =>
      rcases ih held with ⟨same, _⟩ | begun
      · cases same
      · exact .inr begun.cons

/-- Where no file is in progress, each one was moved that was made, and so was the one before. -/
theorem Covers.finished (covers : capabilities.Covers draft changes last) (idle : last = none) :
    (∀ place, ¬ Unfinished changes place) ∧
      ∀ place, draft = some place → ∃ target, .renamed place target ∈ changes := by
  induction covers with
  | done =>
      refine ⟨fun place unfinished => ?_, fun place held => ?_⟩
      · obtain ⟨earlier, permissions, later, same, _⟩ := unfinished
        cases earlier <;> cases same
      · cases held.symm.trans idle
  | goesOn _ steady _ ih =>
      obtain ⟨finished, moved⟩ := ih idle
      refine ⟨fun place unfinished => ?_, fun place held => ?_⟩
      · rcases unfinished.of_cons with ⟨permissions, rfl, _⟩ | later
        · exact steady
        · exact finished place later
      · obtain ⟨target, among⟩ := moved place held
        exact ⟨target, List.mem_cons_of_mem _ among⟩
  | begins _ _ ih =>
      obtain ⟨finished, moved⟩ := ih idle
      refine ⟨fun place unfinished => ?_, nofun⟩
      rcases unfinished.of_cons with ⟨permissions, same, unmoved⟩ | later
      · cases same
        obtain ⟨target, among⟩ := moved _ rfl
        exact unmoved target among
      · exact finished place later
  | @places place target _ _ _ _ ih =>
      obtain ⟨finished, _⟩ := ih idle
      refine ⟨fun place unfinished => ?_, fun other held => ?_⟩
      · rcases unfinished.of_cons with ⟨permissions, same, _⟩ | later
        · cases same
        · exact finished place later
      · cases held
        exact ⟨target, List.mem_cons_self⟩

/-- A disk on which covered changes were made. -/
def Spans (capabilities : Capabilities) (draft : Option Location) (before : Disk)
    (last : Option Location) (after : Disk) : Prop :=
  ∃ made, after.changes = before.changes ++ made ∧ capabilities.Covers draft made last

/-- What is left after covered changes: nothing more, a file in progress that was given up, or a
new one that was left to itself. -/
inductive Leaves (capabilities : Capabilities) (before after : Disk) : Prop
  | spans (spans : capabilities.Spans none before none after)
  | gaveUp {middle : Disk} {place : Location}
      (spans : capabilities.Spans none before (some place) middle)
      (removed : after.changes = middle.changes ++ [.removedFile place])
  | stranded {middle : Disk} {place : Location} {permissions : UInt32}
      (spans : capabilities.Spans none before none middle)
      (permits : capabilities.Permits (.madeFile place permissions))
      (made : after.changes = middle.changes ++ [.madeFile place permissions])

variable {first second third before after disk : Disk}

theorem Spans.of_same (same : after.changes = before.changes) :
    capabilities.Spans draft before draft after :=
  ⟨[], by simp [same], .done⟩

theorem Spans.trans (earlier : capabilities.Spans draft first middle second)
    (later : capabilities.Spans middle second last third) :
    capabilities.Spans draft first last third := by
  obtain ⟨made, recorded, covers⟩ := earlier
  obtain ⟨more, recorded', covers'⟩ := later
  exact ⟨made ++ more, by rw [recorded', recorded, List.append_assoc], covers.append covers'⟩

theorem Spans.leaves (earlier : capabilities.Spans none first none second)
    (later : capabilities.Leaves second third) : capabilities.Leaves first third := by
  cases later with
  | spans spans => exact .spans (earlier.trans spans)
  | gaveUp spans removed => exact .gaveUp (earlier.trans spans) removed
  | stranded spans permits made => exact .stranded (earlier.trans spans) permits made

theorem Leaves.of_same (leaves : capabilities.Leaves first second)
    (same : third.changes = second.changes) : capabilities.Leaves first third := by
  cases leaves with
  | spans spans => exact .spans (spans.trans (.of_same same))
  | gaveUp spans removed => exact .gaveUp spans (same.trans removed)
  | stranded spans permits made => exact .stranded spans permits (same.trans made)

theorem Spans.of_evolves {allowed : Tree → Change → Prop} (evolves : Disk.Evolves allowed before after)
    (steady : ∀ tree change, allowed tree change → capabilities.Permits change ∧ change.Steady) :
    capabilities.Spans draft before draft after := by
  obtain ⟨made, recorded, replays⟩ := evolves.replays
  exact ⟨made, recorded, .of_steady (replays.each steady)⟩

theorem Spans.of_works {options : Options} (acts : options.dryRun = false)
    (works : ∀ change ∈ changes, change.WorksOn place) :
    options.capabilities.Spans draft disk draft (disk.performAll changes) := by
  induction changes generalizing disk with
  | nil => exact .of_same rfl
  | cons change rest ih =>
      obtain ⟨first, others⟩ := List.forall_mem_cons.mp works
      obtain ⟨steady, keeps⟩ := first.steady
      have permits := Options.permits acts fun removes => absurd removes keeps
      have performed : options.capabilities.Spans draft disk draft (disk.perform change) :=
        ⟨[change], rfl, .goesOn permits steady .done⟩
      exact performed.trans (ih others)

end Capabilities

namespace Exchange

variable {κ : Type} [Connection κ] {options : Options} {task : Task} {first now after : WholeFiles κ}

/-- Where the file in progress is. -/
def draft (now : WholeFiles κ) : Option Location :=
  now.pending.map (·.temporary.file)

omit [Connection κ] in
theorem draft_eq (pending : after.pending = now.pending) : after.draft = now.draft :=
  congrArg (Option.map _) pending

omit [Connection κ] in
theorem draft_idle (idle : now.pending = none) : now.draft = none :=
  congrArg (Option.map _) idle

omit [Connection κ] in
theorem draft_held {arriving : ArrivingFile} (held : now.pending = some arriving) :
    now.draft = some arriving.temporary.file :=
  congrArg (Option.map _) held

variable (acts : ∀ root, task.root = some root → options.dryRun = false)

include acts

omit [Connection κ] in
theorem spans_of_prepares (pending : after.pending = now.pending)
    (prepares : task.Prepares now.disk after.disk) :
    options.capabilities.Spans now.draft now.disk after.draft after.disk := by
  rw [draft_eq pending]
  generalize after.disk = disk at prepares
  cases prepares with
  | nothing => exact .of_same rfl
  | directory opened => exact ⟨_, rfl, .goesOn (Options.permits (acts _ opened) nofun) trivial .done⟩

theorem spans_of_collects {outcome : DownloadOutcome} (sound : Sound task now)
    (collects : Collects task now.lendDownload after.lendDownload outcome) :
    options.capabilities.Spans now.draft now.disk after.draft after.disk := by
  cases collects with
  | ended idle pending _ disk _ =>
      rw [draft_eq (pending.trans idle.symm : after.pending = now.pending)]
      exact .of_same (congrArg Disk.changes disk)
  | @began arriving entry root parent turn _ _ _ idle pending _ opened _ _ _ _ _ disk _ _ =>
      rw [draft_idle (idle : now.pending = none), draft_held (pending : after.pending = _)]
      exact ⟨[_], congrArg Disk.changes disk, .begins (Options.permits (acts root opened) nofun) .done⟩
  | @grew arriving content held pending _ disk _ _ _ =>
      obtain ⟨root, entry, belongs⟩ := sound arriving held
      rw [draft_held (held : now.pending = _), draft_held (pending : after.pending = _)]
      have permits : options.capabilities.Permits (.wroteFile arriving.temporary.file content) :=
        Options.permits (acts root belongs.opened) nofun
      exact ⟨[_], congrArg Disk.changes disk, .goesOn permits trivial .done⟩
  | @committed arriving entry held pending _ _ _ _ _ disk _ =>
      obtain ⟨root, _, belongs⟩ := sound arriving held
      have acts := acts root belongs.opened
      rw [draft_held (held : now.pending = _), draft_idle (pending : after.pending = none)]
      refine (Capabilities.Spans.of_works acts (finishing_works now.downloader entry task.umask
        arriving.temporary.file)).trans ⟨[_], congrArg Disk.changes disk, ?_⟩
      exact .places (Options.permits acts nofun) .done

/-- As long as an exchange goes on, all that it does is covered. -/
theorem Advances.spans (advanced : Advances task first now) (idle : first.pending = none) :
    options.capabilities.Spans none first.disk now.draft now.disk := by
  induction advanced with
  | start =>
      rw [draft_idle idle]
      exact .of_same rfl
  | attended _ attends ih =>
      obtain ⟨pending, _, prepares⟩ := attends.prepares
      exact ih.trans (spans_of_prepares acts pending prepares)
  | downloaded earlier done ih =>
      obtain ⟨_, sound⟩ := earlier.visits.evolves idle
      exact ih.trans (spans_of_collects acts sound ((advanceDownloader_meets sound).of_ok done))

omit acts [Connection κ] in
/-- What is in progress when an exchange breaks off is given up. -/
theorem leaves_of_spans (sound : Sound task now)
    (spans : options.capabilities.Spans none first.disk now.draft now.disk) :
    options.capabilities.Leaves first.disk (abandonPending now).disk := by
  rcases abandonPending_disk sound with ⟨arriving, held, removed⟩ | ⟨idle, same⟩
  · rw [draft_held held] at spans
    exact .gaveUp spans (congrArg Disk.changes removed)
  · rw [draft_idle idle] at spans
    rw [same]
    exact .spans spans

omit [Connection κ] in
theorem leaves_of_loses (sound : Sound task now)
    (loses : Loses task now.lendDownload after.lendDownload)
    (spans : options.capabilities.Spans none first.disk now.draft now.disk) :
    after.pending = none ∧ options.capabilities.Leaves first.disk after.disk := by
  cases loses with
  | @idle draws idle pending _ _ disk =>
      rw [draft_idle (idle : now.pending = none)] at spans
      have drawn : after.disk = now.disk.drawnTo draws := disk
      have same : after.disk.changes = now.disk.changes := by rw [drawn]; rfl
      exact ⟨pending, .spans (spans.trans (.of_same same))⟩
  | stranded idle pending _ strands =>
      obtain @⟨_, _, _, _, _, temporary, opened, _, _, _, stranded⟩ := strands
      rw [draft_idle (idle : now.pending = none)] at spans
      have made : after.disk.changes = now.disk.changes ++ [.madeFile temporary.file _] :=
        congrArg Disk.changes stranded.made
      exact ⟨pending, .stranded spans (Options.permits (acts _ opened) nofun) made⟩
  | @gaveUp arriving changes held pending _ works disk =>
      obtain ⟨root, _, belongs⟩ := sound arriving held
      rw [draft_held (held : now.pending = _)] at spans
      have worked := spans.trans (.of_works (acts root belongs.opened) works)
      exact ⟨pending, .gaveUp worked (congrArg Disk.changes disk)⟩

theorem Visits.leaves (visited : Visits task first now) (idle : first.pending = none) :
    options.capabilities.Leaves first.disk (abandonPending now).disk := by
  obtain ⟨_, sound'⟩ := visited.evolves idle
  rcases visited with advanced | ⟨before, advanced, closes⟩
  · exact leaves_of_spans sound' (advanced.spans acts idle)
  · obtain ⟨_, sound⟩ := advanced.visits.evolves idle
    have spans := advanced.spans acts idle
    rcases closes.effect sound with ⟨pending, _, prepares⟩ | loses | collects
    · exact leaves_of_spans sound' (spans.trans (spans_of_prepares acts pending prepares))
    · obtain ⟨idle', leaves⟩ := leaves_of_loses acts sound loses spans
      rw [abandonPending_idle idle']
      exact leaves
    · exact leaves_of_spans sound' (spans.trans (spans_of_collects acts sound collects))

/-- An exchange that ends well leaves no file in progress to give up. -/
theorem run_leaves_covered (patience : Nat) (idle : first.pending = none) :
    Meets (run task patience) first
      (fun _ after => options.capabilities.Spans none first.disk none after.disk)
      (fun _ after => options.capabilities.Leaves first.disk after.disk) := by
  refine (run_meets patience).mono ?_ ?_
  · intro _ after met
    obtain ⟨before, last, advanced, completes, rfl⟩ := met
    obtain ⟨_, sound⟩ := advanced.visits.evolves idle
    have collects := (advanceDownloader_meets sound).of_ok completes.done
    have spans := (advanced.spans acts idle).trans (spans_of_collects acts sound collects)
    rw [draft_idle completes.idle] at spans
    rw [abandonPending_idle completes.idle]
    exact spans
  · intro _ after met
    obtain ⟨last, visited, rfl⟩ := met
    exact visited.leaves acts idle

end Exchange

namespace Running

variable {ς κ : Type} [Sandbox ς] {root : Path} {directory : Option Location}
  {files : List ListEntry} {before now after : Running FileRequester FileCollector ς κ}

/-- A change that the options of a run cover, and that neither makes a file nor moves one. -/
def Steady (now : Running FileRequester FileCollector ς κ) (_ : Tree) (change : Change) : Prop :=
  now.endpoint.options.capabilities.Permits change ∧ change.Steady

/-- What a run keeps around its exchange, and that all it does there is covered. -/
structure Covered (before after : Running FileRequester FileCollector ς κ) : Prop where
  options : after.endpoint.options = before.endpoint.options
  prune : after.endpoint.prune = before.endpoint.prune
  disk : before.endpoint.options.capabilities.Spans none before.disk none after.disk

omit [Sandbox ς] in
theorem Covered.accumulates : Accumulates (Covered (ς := ς) (κ := κ)) where
  refl _ := ⟨rfl, rfl, .of_same rfl⟩
  trans earlier later :=
    { options := later.options.trans earlier.options
      prune := later.prune.trans earlier.prune
      disk := earlier.disk.trans (earlier.options ▸ later.disk) }

omit [Sandbox ς] in
theorem Proceeds.covered (proceeds : Proceeds (Steady before) before after) :
    Covered before after :=
  ⟨proceeds.options, proceeds.prune, .of_evolves proceeds.disk fun _ _ => id⟩

omit [Sandbox ς] in
theorem Proceeds.covered_still (proceeds : Proceeds (fun _ _ => False) before after) :
    Covered before after :=
  (proceeds.mono fun _ _ => False.elim).covered

omit [Sandbox ς] in
theorem Proceeds.covered_open (acts : ∀ root, directory = some root →
      before.endpoint.options.dryRun = false)
    (proceeds : Proceeds (Change.AdornsOpen directory) before after) : Covered before after := by
  refine (proceeds.mono fun _ change adorns => ?_).covered
  obtain ⟨root, opened, attributes, _⟩ := adorns
  cases change with
  | setPermissions | setTime => exact ⟨Options.permits (acts root opened) nofun, trivial⟩
  | madeDirectory | madeFile | wroteFile | renamed | removedFile | removedDirectory =>
      exact attributes.elim

theorem prepare_covered [Connection κ] (root : Path)
    (before : Running FileRequester FileCollector ς κ) :
    Meets (prepare root) before (fun _ after => Covered before after)
      (fun _ after => Covered before after) := by
  let options := before.endpoint.options
  let relation (now after : Running FileRequester FileCollector ς κ) : Prop :=
    now.endpoint.options = options → Covered now after
  have accumulates : Accumulates relation := by
    refine ⟨fun now _ => Covered.accumulates.refl now, fun earlier later same => ?_⟩
    have first := earlier same
    exact Covered.accumulates.trans first (later (first.options.trans same))
  have makes (acts : options.dryRun = false) : Keeps relation
      (onRoot "mkpath" root (Destination.makePath root) : Step FileRequester FileCollector ς κ Unit) := by
    refine (onRoot_proceeds "mkpath" root (Destination.makePath_makes root)).mono ?_ fun _ _ => trivial
    intro now after proceeds same
    refine (proceeds.mono fun _ change makes => ⟨?_, makes.quiet.steady⟩).covered
    rw [same]
    cases change with
    | madeDirectory => exact Options.permits acts nofun
    | madeFile | wroteFile | renamed | removedFile | removedDirectory | setPermissions | setTime =>
        exact makes.elim
  refine (prepare_meets accumulates ?_ root makes).mono (fun _ _ kept => kept rfl) fun _ _ kept =>
    kept rfl
  exact fun _ _ still _ => still.covered_still

omit [Sandbox ς] in
/-- Clearing removes nothing where the list does not speak for what is there. -/
theorem clear_covered (prunes : before.endpoint.prune = Destination.pruneAll)
    (acts : ∀ root, directory = some root → before.endpoint.options.dryRun = false) :
    Meets (clear root directory files) before (fun _ after => Covered before after)
      (fun _ after => Covered before after) := by
  have removes (deletes : before.endpoint.options.deletes = true)
      {after : Running FileRequester FileCollector ς κ}
      (proceeds : Proceeds (Change.TidiesOpen directory) before after) : Covered before after := by
    refine (proceeds.mono fun _ change tidies => ?_).covered
    obtain ⟨root, opened, quiet, _⟩ := tidies
    exact ⟨Options.permits (acts root opened) fun _ => deletes, quiet.steady⟩
  by_cases deletes : before.endpoint.options.deletes = true
  · exact (clear_proceeds prunes).mono (fun _ _ => removes deletes) fun _ _ => removes deletes
  · refine Meets.get (Meets.cond (fun deletes' => absurd deletes' deletes) fun _ => ?_)
    exact Meets.pure (Covered.accumulates.refl before)

theorem makeReady_covered (prunes : before.endpoint.prune = Destination.pruneAll)
    (acts : ∀ root, directory = some root → before.endpoint.options.dryRun = false) :
    Meets (makeReady root directory files) before (fun _ after => Covered before after)
      (fun _ after => Covered before after) := by
  rw [makeReady_eq]
  refine (clear_covered prunes acts).bind fun removals cleared covered => ?_
  have encloses : Keeps Covered
      (enclose root removals : Step FileRequester FileCollector ς κ Removals) :=
    (enclose_proceeds root removals).mono (fun _ _ still => Proceeds.covered_still still)
      fun _ _ => trivial
  exact encloses.onward Covered.accumulates covered

omit [Sandbox ς] in
theorem Covered.masked (covered : Covered before after) (umask : UInt32) :
    Covered before (after.withUmask umask) :=
  ⟨covered.options, covered.prune, covered.disk⟩

omit [Sandbox ς] in
/-- A root is opened for nothing but to be changed. -/
theorem openRoot_covered (root : Path) (before : Running FileRequester FileCollector ς κ) :
    Meets (openRoot root) before
      (fun found after => Covered before after ∧
        ∀ place, found = some place → before.endpoint.options.dryRun = false)
      (fun _ after => Covered before after) := by
  refine options_then (Meets.cond (fun _ => ?_) fun acts => ?_)
  · exact Meets.pure ⟨Covered.accumulates.refl before, nofun⟩
  · have opens : Keeps (Disk.Evolves fun _ _ => False) (Destination.openRoot root) :=
      .get fun _ => Disk.Evolves.of_keeps (Disk.look_keeps _)
    refine ((onRoot_proceeds "open" root opens) before).followedBy ?_ ?_
    · exact fun _ _ still => still.covered_still
    · exact fun _ _ met => Meets.pure ⟨met.1.covered_still, fun _ _ => Bool.eq_false_iff.mpr acts⟩

variable [Connection κ]

theorem readying_covered (prunes : before.endpoint.prune = Destination.pruneAll) :
    Meets (readying root) before
      (fun found after => Covered before after ∧ ∀ task place, found = some task →
        task.root = some place → before.endpoint.options.dryRun = false)
      (fun _ after => Covered before after) := by
  have opens : Meets (opening root) before
      (fun found after => Covered before after ∧ ∀ task place, found = some task →
        task.root = some place → before.endpoint.options.dryRun = false)
      (fun _ after => Covered before after) := by
    refine (prepare_covered root before).bind fun found prepared covered => ?_
    cases found with
    | none => exact Meets.pure ⟨covered, nofun⟩
    | some files =>
        have cleared := covered.masked 0
        refine Meets.get (Meets.changeThen ((openRoot_covered root _).followedBy ?_ ?_))
        · exact fun _ _ later => Covered.accumulates.trans cleared later
        · intro directory opened met
          refine Meets.pure ⟨Covered.accumulates.trans cleared met.1, fun task place same held => ?_⟩
          cases same
          exact cleared.options ▸ met.2 place held
  refine opens.bind fun found opened met => ?_
  obtain ⟨covered, acts⟩ := met
  cases found with
  | none => exact Meets.pure ⟨covered, nofun⟩
  | some task =>
      refine (makeReady_covered (covered.prune.trans prunes) fun place held => ?_).followedBy ?_ ?_
      · exact covered.options ▸ acts task place rfl held
      · exact fun _ _ later => Covered.accumulates.trans covered later
      · intro _ _ later
        refine options_then (Meets.pure ⟨Covered.accumulates.trans covered later, ?_⟩)
        intro _ place same held
        cases same
        exact acts task place rfl held

variable {task : Task} {removals : Removals}

omit [Sandbox ς] in
/-- From its exchange on, a run that ends well does nothing but what is covered. -/
theorem finishing_covered
    (acts : ∀ place, task.root = some place → before.endpoint.options.dryRun = false) :
    let capabilities := before.endpoint.options.capabilities
    Meets (finishing root task removals) before
      (fun _ after => capabilities.Spans none before.disk none after.disk)
      (fun _ after => capabilities.Leaves before.disk after.disk) := by
  intro capabilities
  have exchanged : Meets (exchange task) before
      (fun _ after => ∃ last, capabilities.Spans none before.disk none last.disk ∧
        after = endExchange last before)
      (fun _ after => ∃ last, capabilities.Leaves before.disk last.disk ∧
        after = endExchange last before) :=
    exchange_runs (Exchange.run_leaves_covered acts before.endpoint.patience rfl)
  refine exchanged.followedBy ?_ ?_
  · intro _ _ met
    obtain ⟨last, leaves, rfl⟩ := met
    exact leaves
  · intro _ _ met
    obtain ⟨last, spans, rfl⟩ := met
    have still : ∀ place, task.root = some place →
        (endExchange last before).endpoint.options.dryRun = false := acts
    refine (conclude_proceeds (endExchange last before)).mono ?_ ?_
    · exact fun _ _ concluded => spans.trans (concluded.1.covered_open still).disk
    · exact fun _ _ concluded => .spans (spans.trans (concluded.covered_open still).disk)

end Running

/-- What a run does to the disk, as its capabilities have it. -/
structure Capabilities.Bounds (capabilities : Capabilities) (made : List Change) (failed : Prop) :
    Prop where
  /-- All is covered, unless the run fails over a file it has not finished. Then the last thing it
  does is to remove that file. -/
  covered : (∀ change ∈ made, capabilities.Permits change) ∨ failed ∧
    ∃ before place, made = before ++ [.removedFile place] ∧ Unfinished before place ∧
      ∀ change ∈ before, capabilities.Permits change
  /-- Files that are left unfinished and may not be removed are what is not covered, but for one
  that was only just made. -/
  exactly : (∀ change ∈ made, capabilities.Permits change) ↔
    capabilities.unlink = true ∨ ∀ place, Unfinished made place → JustMade made place

namespace Capabilities.Bounds

variable {capabilities : Capabilities} {made : List Change} {place : Location} {failed : Prop}

theorem of_covers (covers : capabilities.Covers none made none) : capabilities.Bounds made failed := by
  refine ⟨.inl covers.each, fun _ => .inr fun place unfinished => ?_, fun _ => covers.each⟩
  exact absurd unfinished ((covers.finished rfl).1 place)

theorem of_unfinished (covers : capabilities.Covers none made (some place)) (fails : failed) :
    capabilities.Bounds (made ++ [.removedFile place]) failed := by
  have begun : Unfinished made place := by
    rcases covers.unfinished rfl with ⟨held, _⟩ | begun
    · cases held
    · exact begun
  refine ⟨.inr ⟨fails, made, place, rfl, begun, covers.each⟩, fun all => ?_, fun fine => ?_⟩
  · exact .inl (all (.removedFile place) (by simp))
  · rcases fine with unlinks | finished
    · refine List.forall_mem_append.mpr ⟨covers.each, ?_⟩
      exact List.forall_mem_singleton.mpr unlinks
    · obtain ⟨earlier, permissions, same⟩ := finished place (begun.append (by simp))
      cases List.append_inj_right' same rfl

/-- The one file that a run leaves unfinished is the last that it made. -/
theorem of_stranded {permissions : UInt32} (covers : capabilities.Covers none made none)
    (permits : capabilities.Permits (.madeFile place permissions)) :
    capabilities.Bounds (made ++ [.madeFile place permissions]) failed := by
  have each : ∀ change ∈ made ++ [.madeFile place permissions], capabilities.Permits change :=
    List.forall_mem_append.mpr ⟨covers.each, List.forall_mem_singleton.mpr permits⟩
  refine ⟨.inl each, fun _ => .inr fun other unfinished => ?_, fun _ => each⟩
  obtain ⟨earlier, given, later, same, unmoved⟩ := unfinished
  rcases List.eq_nil_or_concat later with rfl | ⟨before, last, rfl⟩
  · exact ⟨earlier, given, same⟩
  · rw [List.concat_eq_append, ← List.cons_append, ← List.append_assoc] at same
    obtain ⟨rfl, -⟩ := List.append_inj' same rfl
    refine absurd ⟨earlier, given, before, rfl, fun target among => ?_⟩ ((covers.finished rfl).1 other)
    exact unmoved target (by simp [among])

theorem of_leaves {before after : Disk} (leaves : capabilities.Leaves before after)
    (fails : failed) :
    ∃ made, after.changes = before.changes ++ made ∧ capabilities.Bounds made failed := by
  cases leaves with
  | spans spans =>
      obtain ⟨made, recorded, covers⟩ := spans
      exact ⟨made, recorded, .of_covers covers⟩
  | @gaveUp middle place spans removed =>
      obtain ⟨made, recorded, covers⟩ := spans
      refine ⟨made ++ [.removedFile place], ?_, .of_unfinished covers fails⟩
      rw [removed, recorded, List.append_assoc]
  | @stranded middle place permissions spans permits added =>
      obtain ⟨made, recorded, covers⟩ := spans
      refine ⟨made ++ [.madeFile place permissions], ?_, .of_stranded covers permits⟩
      rw [added, recorded, List.append_assoc]

end Capabilities.Bounds

namespace Running

variable {ς κ : Type} [Connection κ] [Sandbox ς]

/-- A run that ends well does nothing but what is covered. -/
theorem run_leaves_covered (options : Options) (sandbox : ς) (patience : Nat) (connection : κ)
    (disk : Disk) (path : Path) :
    Meets (run path) (.start (.wholeFiles options sandbox patience) connection disk)
      (fun _ after => options.capabilities.Spans none disk none after.disk)
      (fun _ after => options.capabilities.Leaves disk after.disk) := by
  let start : Running FileRequester FileCollector ς κ :=
    .start (.wholeFiles options sandbox patience) connection disk
  have readies : Meets (readying path) start _ _ := readying_covered rfl
  cases prelude path start with
  | failed readied ran => exact Meets.congr ran (Meets.throw (.spans (readies.of_error readied).disk))
  | skipped readied ran => exact Meets.congr ran (Meets.pure (readies.of_ok readied).1.disk)
  | @reached task removals ready readied _ ran =>
      obtain ⟨covered, acts⟩ := readies.of_ok readied
      have still (place : Location) (held : task.root = some place) :
          ready.endpoint.options.dryRun = false := covered.options ▸ acts task place rfl held
      have finishes : Meets (finishing path task removals) ready _ _ := finishing_covered still
      rw [covered.options] at finishes
      refine Meets.congr ran (Meets.ensuring (finishes.mono ?_ ?_))
      · exact fun _ _ spans => covered.disk.trans spans
      · exact fun _ _ leaves => covered.disk.leaves (leaves.of_same rfl)

/-- A run keeps within its capabilities, except that it removes the file that it fails over. So it
keeps within them altogether just if it may remove or finishes every file that it makes; one may
be left that it has only just made, when the system refuses it a descriptor. -/
theorem run_bounded (options : Options) (sandbox : ς) (patience : Nat) (connection : κ)
    (disk : Disk) (path : Path) :
    let start : Running FileRequester FileCollector ς κ :=
      .start (.wholeFiles options sandbox patience) connection disk
    let final := stateAfter (run path) start
    ∃ made, final.disk.changes = disk.changes ++ made ∧
      options.capabilities.Bounds made (∃ cause, run path start = .error cause final) := by
  intro start final
  have ends : Meets (run path) start _ _ :=
    run_leaves_covered options sandbox patience connection disk path
  cases ran : run path start with
  | ok outcome after =>
      obtain ⟨made, recorded, covers⟩ := ends.of_ok ran
      rw [show final = after from stateAfter_ok ran]
      exact ⟨made, recorded, .of_covers covers⟩
  | error cause after =>
      have same : final = after := stateAfter_error ran
      rw [same]
      exact Capabilities.Bounds.of_leaves (ends.of_error ran) ⟨cause, rfl⟩

/-- A peer that announces three bytes and sends one. -/
def shortReply : Running FileRequester FileCollector StrictSandbox StagedConnection :=
  .start (.wholeFiles { server := true } {} 0)
    (.start [⟨0, listOfOne⟩, ⟨24, headBytes 0 0 0 0 ++ pieceBytes [120] ++ Wire.intBytes 0⟩] .half none)
    { tree := Tree.empty.set [] (.directory ⟨0o755, 0⟩) }

/-- Such a run removes a file though it has restricted itself to removing none. -/
theorem run_removes_unpermitted :
    ∃ cause final capabilities, run ⟨selfName⟩ shortReply = .error cause final ∧
      final.endpoint.sandbox.capabilities = some capabilities ∧
      capabilities = shortReply.endpoint.options.capabilities ∧ shortReply.disk.changes = [] ∧
      ∃ change ∈ final.disk.changes, ¬ capabilities.Permits change := by
  have fails : failsIn (run ⟨selfName⟩ shortReply) (fun _ final =>
      decide (final.endpoint.sandbox.capabilities = some shortReply.endpoint.options.capabilities ∧
        ∃ change ∈ final.disk.changes,
          ¬ shortReply.endpoint.options.capabilities.Permits change)) = true := by
    decide +kernel
  obtain ⟨cause, final, ran, seen⟩ := of_failsIn fails
  obtain ⟨restricted, removed⟩ := of_decide_eq_true seen
  exact ⟨cause, final, _, ran, restricted, rfl, rfl, removed⟩

end Running

end TreeSync
