import TreeSync.Destination.Pruning
import TreeSync.Message.Inflow
import TreeSync.Proofs.Outcomes

namespace TreeSync

/-! What is reported of removals.

A plan of the removals and the removals themselves deal with the same entries in the same
order, and report each of them alike. So a plan foretells what they report and count, if
they succeed.
-/

open TreeSync.Action

def Event.reportsRemoval : Event → Bool
  | .info .deletion _ _ => true
  | _ => false

namespace Journal

variable {journal before middle after : Journal} {entries rest : List FoundEntry}

/-- The removals reported so far, oldest first. -/
def removals (journal : Journal) : List Event :=
  journal.events.filter Event.reportsRemoval

/-- What is reported of the removal of one entry. -/
def removalOf (journal : Journal) (entry : FoundEntry) : List Event :=
  if journal.showsInfo .deletion 1 then
    [.info .deletion 1 ("deleting " ++ entry.path.display)]
  else []

/-- What was reported in between of removals is about these entries, one report for each. -/
structure Announces (entries : List FoundEntry) (before after : Journal) : Prop where
  verbosity : after.verbosity = before.verbosity
  removals : after.removals = before.removals ++ entries.flatMap before.removalOf

/-- No removal was reported in between. -/
abbrev Quiet (before after : Journal) : Prop :=
  Announces [] before after

theorem Announces.append (earlier : Announces entries before middle)
    (later : Announces rest middle after) : Announces (entries ++ rest) before after where
  verbosity := later.verbosity.trans earlier.verbosity
  removals := by
    have same : middle.removalOf = before.removalOf := by
      unfold removalOf showsInfo
      rw [earlier.verbosity]
    rw [later.removals, earlier.removals, same, List.flatMap_append, List.append_assoc]

theorem Announces.quiet (earlier : Announces entries before middle) (later : Quiet middle after) :
    Announces entries before after := by
  simpa using earlier.append later

theorem Quiet.refl (journal : Journal) : Quiet journal journal :=
  ⟨rfl, by simp⟩

theorem Quiet.accumulates : Accumulates Quiet where
  refl := Quiet.refl
  trans earlier later := earlier.quiet later

/-- Journals that start alike tell the same removals of the same entries. -/
theorem Announces.removals_eq {first last : Journal} (announces : Announces entries before after)
    (announces' : Announces entries first last) (alike : first.verbosity = before.verbosity)
    (removed : first.removals = before.removals) : after.removals = last.removals := by
  have same : first.removalOf = before.removalOf := by
    unfold removalOf showsInfo
    rw [alike]
  rw [announces.removals, announces'.removals, same, removed]

theorem keep_quiet {event : Event} (other : event.reportsRemoval = false) :
    Quiet journal (journal.keep event) :=
  ⟨rfl, by simp [removals, keep, other]⟩

theorem info_quiet {flag : InfoFlag} {level : UInt8} {message : String}
    (other : flag ≠ .deletion) : Quiet journal (journal.info flag level message) := by
  unfold info
  split
  · refine keep_quiet ?_
    cases flag <;> first | rfl | exact absurd rfl other
  · exact Quiet.refl journal

theorem debug_quiet {flag : DebugFlag} {level : UInt8} {message : String} :
    Quiet journal (journal.debug flag level message) := by
  unfold debug
  split
  · exact keep_quiet rfl
  · exact Quiet.refl journal

theorem warn_quiet {message : String} : Quiet journal (journal.warn message) :=
  keep_quiet rfl

theorem route_quiet {code : MessageCode} {payload : Bytes} :
    Quiet journal (journal.route code payload) := by
  cases code with
  | data | noOp => exact Quiet.refl journal
  | info | log | client => exact info_quiet (by decide)
  | ioError | errorXfer | error | warning | errorSocket => exact warn_quiet

theorem info_announces (entry : FoundEntry) :
    Announces [entry] journal (journal.info .deletion 1 ("deleting " ++ entry.path.display)) := by
  unfold info
  split
  · next shown => exact ⟨rfl, by simp [removals, keep, removalOf, shown, Event.reportsRemoval]⟩
  · next hidden => exact ⟨rfl, by simp [removalOf, hidden]⟩

end Journal

namespace Host

variable {ε α : Type}

theorem onDisk_quiet (step : EStateM ε Disk α) :
    Keeps (fun before after : Host => before.journal.Quiet after.journal) (onDisk step) :=
  .aside fun _ host => Journal.Quiet.refl host.journal

end Host

namespace Destination

variable {ε : Type} {entries : List FoundEntry}

/-- The numbers of removals of so many entries. -/
def tally (entries : List FoundEntry) : Removals :=
  entries.foldl Removals.count {}

/-- A pass that counts and reports each entry does so for all of them. -/
theorem foldlM_announces {step : Removals → FoundEntry → EStateM ε Host Removals}
    {kept : Host → Host → Prop} {failed : ε → Host → Prop} (accumulates : Accumulates kept)
    (each : ∀ removals entry host, Meets (step removals entry) host
      (fun counted after => counted = removals.count entry ∧ kept host after ∧
        host.journal.Announces [entry] after.journal) failed)
    (entries : List FoundEntry) (removals : Removals) (host : Host) :
    Meets (entries.foldlM step removals) host
      (fun counted after => counted = entries.foldl Removals.count removals ∧ kept host after ∧
        host.journal.Announces entries after.journal) failed := by
  induction entries generalizing removals host with
  | nil =>
      exact Meets.pure ⟨rfl, accumulates.refl host, Journal.Quiet.refl host.journal⟩
  | cons entry rest ih =>
      rw [List.foldlM_cons]
      refine (each removals entry host).bind fun counted middle met => ?_
      obtain ⟨rfl, first, announced⟩ := met
      refine (ih _ middle).mono (fun all after later => ?_) fun _ _ => id
      exact ⟨later.1, accumulates.trans first later.2.1, announced.append later.2.2⟩

theorem planRemovals_announces (found : List FoundEntry) (listed : List ListEntry) (host : Host) :
    Meets (planRemovals found listed : EStateM ε Host Removals) host
      (fun removals after => removals = tally (extraneous found listed) ∧
        host.disk = after.disk ∧ host.journal.Announces (extraneous found listed) after.journal)
      (fun _ _ => False) := by
  refine foldlM_announces (Accumulates.eq.on Host.disk) (fun removals entry host => ?_) _ {} host
  exact Meets.changeThen (Meets.pure ⟨rfl, rfl, host.journal.info_announces entry⟩)

/-- Removing the entries counts and reports what a plan does, if it succeeds. -/
theorem pruneAll_announces (directory : Location) (found : List FoundEntry)
    (listed : List ListEntry) (host : Host) :
    Meets (pruneAll directory found listed) host
      (fun removals after => removals = tally (extraneous found listed) ∧
        host.journal.Announces (extraneous found listed) after.journal)
      (fun _ _ => True) := by
  have each (removals : Removals) (entry : FoundEntry) (host : Host) :
      Meets (prune directory removals entry) host
        (fun counted after => counted = removals.count entry ∧ True ∧
          host.journal.Announces [entry] after.journal) (fun _ _ => True) := by
    refine (Keeps.explaining (Host.onDisk_quiet _) host).followedBy (fun _ _ _ => trivial) ?_
    intro _ removed met
    refine Meets.changeThen (Meets.pure ⟨rfl, trivial, ?_⟩)
    exact met.1.append (removed.journal.info_announces entry)
  refine (foldlM_announces .any each _ {} host).bind fun removals removed met => ?_
  exact Meets.changeThen (Meets.pure ⟨met.1, met.2.2.quiet Journal.debug_quiet⟩)

theorem contents_quiet (path : Path) :
    Keeps (fun before after : Host => before.journal.Quiet after.journal) (contents path) := by
  have trans : Accumulates fun before after : Host => before.journal.Quiet after.journal :=
    Journal.Quiet.accumulates.on Host.journal
  have tells (flag : DebugFlag) (level : UInt8) (message : String) :
      Keeps (fun before after : Host => before.journal.Quiet after.journal)
        (Host.debug flag level message : EStateM Failure Host Unit) :=
    .change fun host => Journal.debug_quiet
  refine .bind trans (.attempt (Host.onDisk_quiet _)) fun found _ => ?_
  split
  · exact .cond (.pure trans trivial) (.throw trans)
  · exact .pure trans trivial
  · next directory =>
    refine .bind trans (tells _ _ _) fun _ _ => .get fun host => ?_
    refine .bind trans (.mapM trans (fun node => .cond (.throw trans) ?_) _) fun entries _ => ?_
    · exact .bind trans (tells _ _ _) fun _ _ => .pure trans trivial
    · exact .bind trans (tells _ _ _) fun _ _ => .pure trans trivial

end Destination

end TreeSync
