import TreeSync.Proofs.Run.Course

namespace TreeSync.Running

/-! The stages of a run: it opens its root, clears it, and goes on from there. -/

open TreeSync.Action

variable {υ δ γ ς κ : Type} [Connection κ] [Sandbox ς]

def withUmask (umask : UInt32) (running : Running υ δ ς κ) : Running υ δ ς κ :=
  { running with disk := { running.disk with umask } }

/-- A run up to the moment when its root is open; there may be none to open. -/
def opening (root : Path) : Step υ δ ς κ (Option Task) := do
  match ← prepare root with
  | none => return none
  | some files =>
      let umask := (← get).disk.umask
      modify (withUmask 0)
      let directory ← openRoot root
      return some { root := directory, files, umask }

/-- A run up to the moment when its exchange begins. -/
def readying (root : Path) : Step υ δ ς κ (Option Task) := do
  match ← opening root with
  | none => return none
  | some task =>
      let _ ← makeReady root task.root task.files
      let checksum := (← options).checksum
      return some { task with checksum }

theorem opening_ok {root : Path} {start opened : Running υ δ ς κ} {task : Task}
    (opens : opening root start = .ok (some task) opened) :
    ∃ prepared, prepare root start = .ok (some task.files) prepared ∧
      openRoot root (prepared.withUmask 0) = .ok task.root opened ∧
      task.umask = prepared.disk.umask := by
  have reached : Meets (opening root) start
      (fun found after => ∀ task, found = some task →
        ∃ prepared, prepare root start = .ok (some task.files) prepared ∧
          openRoot root (prepared.withUmask 0) = .ok task.root after ∧
          task.umask = prepared.disk.umask)
      (fun _ _ => True) := by
    refine (Meets.ran (prepare root)).followedBy (fun _ _ _ => trivial) fun found prepared ran => ?_
    cases found with
    | none => exact Meets.pure nofun
    | some files =>
        refine Meets.get (Meets.changeThen ?_)
        refine (Meets.ran (openRoot root)).followedBy (fun _ _ _ => trivial) ?_
        intro directory opened reached
        refine Meets.pure fun task same => ?_
        cases same
        exact ⟨prepared, ran, reached, rfl⟩
  exact reached.of_ok opens task rfl

/-- What a run keeps before its exchange, and that it adds no file. -/
structure Readies (before after : Running υ δ ς κ) : Prop where
  uploader : after.endpoint.uploader = before.endpoint.uploader
  downloader : after.endpoint.downloader = before.endpoint.downloader
  prune : after.endpoint.prune = before.endpoint.prune
  files : Disk.AddsNoFile before.disk after.disk
  refusals : after.disk.refusals = before.disk.refusals

omit [Connection κ] [Sandbox ς] in
theorem Readies.trans {first second third : Running υ δ ς κ} (earlier : Readies first second)
    (later : Readies second third) : Readies first third where
  uploader := later.uploader.trans earlier.uploader
  downloader := later.downloader.trans earlier.downloader
  prune := later.prune.trans earlier.prune
  files := earlier.files.trans later.files
  refusals := later.refusals.trans earlier.refusals

omit [Connection κ] [Sandbox ς] in
theorem Proceeds.readies {allowed : Tree → Change → Prop} {before after : Running υ δ ς κ}
    (proceeds : Proceeds allowed before after)
    (quiet : ∀ tree change, allowed tree change → change.Quiet) : Readies before after where
  uploader := proceeds.uploader
  downloader := proceeds.downloader
  prune := proceeds.prune
  files := proceeds.disk.addsNoFile quiet
  refusals := proceeds.disk.refusals

omit [Connection κ] [Sandbox ς] in
theorem Proceeds.tidies {opened : Option Location} {before after : Running υ δ ς κ}
    (proceeds : Proceeds (Change.TidiesOpen opened) before after) : Readies before after := by
  refine proceeds.readies fun _ _ tidies => ?_
  obtain ⟨_, _, fine⟩ := tidies
  exact fine.1

theorem readying_meets {root : Path} {start : Running υ δ ς κ}
    (prunes : start.endpoint.prune = Destination.pruneAll) :
    Meets (readying root) start (fun _ after => Readies start after)
      (fun _ after => Readies start after) := by
  have opens : Meets (opening root) start (fun _ after => Readies start after)
      (fun _ after => Readies start after) := by
    refine (prepare_proceeds root start).followedBy ?_ ?_
    · exact fun _ after proceeds => proceeds.readies fun _ _ => id
    · intro found prepared met
      have prepares : Readies start prepared := met.1.readies fun _ _ => id
      cases found with
      | none => exact Meets.pure prepares
      | some files =>
          have cleared : Readies start (prepared.withUmask 0) :=
            { prepares with }
          have opensRoot : Keeps (Proceeds fun _ change => change.Quiet)
              (openRoot root : Step υ δ ς κ (Option Location)) := openRoot_proceeds root
          refine Meets.get (Meets.changeThen ((opensRoot _).followedBy ?_ ?_))
          · exact fun _ _ proceeds => cleared.trans (proceeds.readies fun _ _ => id)
          · exact fun _ _ met => Meets.pure (cleared.trans (met.1.readies fun _ _ => id))
  refine opens.bind fun found opened readied => ?_
  cases found with
  | none => exact Meets.pure readied
  | some task =>
      refine (makeReady_proceeds (readied.prune.trans prunes)).followedBy ?_ ?_
      · exact fun _ _ proceeds => readied.trans proceeds.tidies
      · exact fun _ _ proceeds => options_then (Meets.pure (readied.trans proceeds.tidies))

variable [Uploader υ] [Downloader δ γ]

def finishing (root : Path) (task : Task) (removals : Removals) : Step υ δ ς κ Outcome := do
  let (phase, marks) ← exchange task
  conclude root task.root task.files removals phase marks

variable {root : Path} {start opened ready : Running υ δ ς κ} {task : Task}

theorem run_of_prepare {files : List ListEntry} {prepared : Running υ δ ς κ}
    (listed : prepare root start = .ok (some files) prepared) :
    run root start = ensuring (transfer root files prepared.disk.umask)
      (withUmask prepared.disk.umask) (prepared.withUmask 0) :=
  bind_ok listed

theorem run_of_opening (opens : opening root start = .ok (some task) opened) :
    run root start = ensuring (fill root task.root task.files task.umask)
      (withUmask task.umask) opened := by
  obtain ⟨prepared, listed, reached, umask⟩ := opening_ok opens
  rw [run_of_prepare listed, umask]
  exact ensuring_congr (bind_ok reached)

theorem fill_of_makeReady {removals : Removals}
    (clears : makeReady root task.root task.files opened = .ok removals ready) :
    fill root task.root task.files task.umask opened =
      finishing root { task with checksum := ready.endpoint.options.checksum } removals ready := by
  have got : (options : Step υ δ ς κ Options) ready = .ok ready.endpoint.options ready := rfl
  exact (bind_ok clears).trans (bind_ok got)

/-- How a run that ends well began: with nothing to receive, or with its root open. -/
theorem run_ok_cases {outcome : Outcome} {final : Running υ δ ς κ}
    (ran : run root start = .ok outcome final) :
    (opening root start = .ok none final ∧ outcome = { files := 0, skippedEmpty := true }) ∨
      ∃ task opened, opening root start = .ok (some task) opened ∧
        ensuring (fill root task.root task.files task.umask) (withUmask task.umask) opened =
          .ok outcome final := by
  obtain ⟨found, prepared, listed, goesOn⟩ := of_bind_ok ran
  cases found with
  | none =>
      cases goesOn
      exact .inl ⟨bind_ok listed, rfl⟩
  | some files =>
      obtain ⟨_, transferred, _⟩ := ensuring_ok ((run_of_prepare listed).symm.trans ran)
      obtain ⟨directory, opened, reached, _⟩ := of_bind_ok transferred
      have opens : opening root start = .ok (some
          { root := directory, files, umask := prepared.disk.umask : Task }) opened :=
        (bind_ok listed).trans (bind_ok reached)
      exact .inr ⟨_, opened, opens, (run_of_opening opens).symm.trans ran⟩

/-- A run that ends well with a list went through all of its stages. -/
theorem run_ok {outcome : Outcome} {final : Running υ δ ς κ}
    (ran : run root start = .ok outcome final) (received : outcome.skippedEmpty = false) :
    ∃ task opened removals ready after, opening root start = .ok (some task) opened ∧
      makeReady root task.root task.files opened = .ok removals ready ∧
      finishing root { task with checksum := ready.endpoint.options.checksum } removals ready =
        .ok outcome after ∧
      final = after.withUmask task.umask := by
  rcases run_ok_cases ran with ⟨_, rfl⟩ | ⟨task, opened, opens, ended⟩
  · cases received
  · obtain ⟨after, filled, rfl⟩ := ensuring_ok ended
    obtain ⟨removals, ready, clears, _⟩ := of_bind_ok filled
    exact ⟨task, opened, removals, ready, after, opens, clears,
      (fill_of_makeReady clears).symm.trans filled, rfl⟩

/-- How a run gets to its exchange, or else ends before it. -/
inductive Prelude (root : Path) (start : Running υ δ ς κ) : Prop
  | failed {cause : Failure} {after : Running υ δ ς κ}
      (readied : readying root start = .error cause after)
      (ran : run root start = .error cause (after.withUmask start.disk.umask))
  | skipped {after : Running υ δ ς κ} (readied : readying root start = .ok none after)
      (ran : run root start =
        .ok { files := 0, skippedEmpty := true } (after.withUmask start.disk.umask))
  | reached {task : Task} {removals : Removals} {ready : Running υ δ ς κ}
      (readied : readying root start = .ok (some task) ready)
      (umask : task.umask = start.disk.umask)
      (ran : run root start =
        ensuring (finishing root task removals) (withUmask start.disk.umask) ready)

theorem Prelude.of_opening (opens : opening root start = .ok (some task) opened)
    (umask : task.umask = start.disk.umask) : Prelude root start := by
  have ran := run_of_opening opens
  rw [congrArg withUmask umask] at ran
  cases clears : makeReady root task.root task.files opened with
  | error cause ready =>
      have failed : readying root start = .error cause ready :=
        (bind_ok opens).trans (bind_error clears)
      exact .failed failed (ran.trans (ensuring_error (bind_error clears)))
  | ok removals ready =>
      have readied : readying root start =
          .ok (some { task with checksum := ready.endpoint.options.checksum }) ready :=
        (bind_ok opens).trans (bind_ok clears)
      have goesOn := ran.trans (ensuring_congr (fill_of_makeReady clears))
      exact .reached readied umask goesOn

theorem prelude (root : Path) (start : Running υ δ ς κ) : Prelude root start := by
  cases prepares : prepare root start with
  | error cause prepared =>
      have umask := ((prepare_proceeds root start).of_error prepares).disk.umask
      have opens : opening root start = .error cause prepared := bind_error prepares
      refine .failed (bind_error opens) ?_
      rw [← umask]
      exact bind_error prepares
  | ok found prepared =>
      have umask := ((prepare_proceeds root start).of_ok prepares).1.disk.umask
      cases found with
      | none =>
          have opens : opening root start = .ok none prepared := bind_ok prepares
          refine .skipped (bind_ok opens) ?_
          rw [← umask]
          exact bind_ok prepares
      | some files =>
          have opens : opening root start =
              (openRoot root >>= fun directory => pure (some
                { root := directory, files, umask := prepared.disk.umask : Task }))
                (prepared.withUmask 0) := bind_ok prepares
          cases reached : openRoot root (prepared.withUmask 0) with
          | error cause opened =>
              have failed := opens.trans (bind_error reached)
              refine .failed (bind_error failed) ((run_of_prepare prepares).trans ?_)
              rw [umask]
              exact ensuring_error (bind_error reached)
          | ok directory opened => exact .of_opening (opens.trans (bind_ok reached)) umask

end TreeSync.Running
