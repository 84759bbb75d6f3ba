import TreeSync.Proofs.Disk.Diverting
import TreeSync.Proofs.Run.Clearing

namespace TreeSync

/-! A run does not divert the path of its root.

It makes no link, and where it removes one it makes no directory: what it removes the list does
not name, and it makes a directory only where there is nothing and the list names one.
-/

open TreeSync.Action TreeSync.Destination

theorem Tree.Undiverted.of_outline {before middle after : Tree}
    (undiverted : before.Undiverted middle)
    (same : ∀ place, after.outline place = middle.outline place) : before.Undiverted after where
  links place target found := by
    rw [← outline_eq_link, same, outline_eq_link] at found
    exact undiverted.links place target found
  turns place target link stands := by
    rw [hasDirectory_iff_outline, same, ← hasDirectory_iff_outline] at stands
    exact undiverted.turns place target link stands

theorem Tree.get?_eq_link_of_sight {before after : Tree} {place : Location} {target : Path}
    (same : after.sight place = before.sight place)
    (found : after.get? place = some (.link target)) : before.get? place = some (.link target) := by
  have seen : before.sight place = some (.link target) := by
    rw [← same, sight, found]
    rfl
  obtain ⟨node, found', shown⟩ := Option.map_eq_some_iff.mp seen
  cases node <;> cases shown
  exact found'

namespace Task.Books

variable {task : Task} {collector : FileCollector} {first now : Disk} {replies : List Reply}
  {draft : Option Reply} {root : Location} {before : Tree}

/-- An exchange that begins when the root was cleared does not divert a path. -/
theorem undiverted (books : task.Books collector first now none replies draft)
    (opened : task.root = some root) (weeds : Weeds task.files root before first.tree) :
    before.Undiverted now.tree := by
  obtain ⟨gone, without, unnamed⟩ := weeds
  have stays {place : Location} {target : Path} (here : ¬ gone place)
      (link : before.get? place = some (.link target)) :
      first.tree.get? place = some (.link target) :=
    Tree.get?_eq_link_of_sight (without.kept place here).symm link
  constructor
  · intro place target found
    cases books.holding place with
    | kept same =>
        have there := Tree.get?_eq_link_of_sight same found
        have here : ¬ gone place := by
          intro away
          cases (without.absent place away).symm.trans there
        exact Tree.get?_eq_link_of_sight (without.kept place here) there
    | delivered complete =>
        obtain ⟨attributes, content, file⟩ := complete.hasFile
        cases file.symm.trans found
    | prepared _ _ _ _ _ stands =>
        obtain ⟨attributes, directory⟩ := stands
        cases directory.symm.trans found
    | arriving here => cases here
  · rintro place target link ⟨attributes, stands⟩
    cases books.holding place with
    | kept same =>
        have stood : first.tree.HasDirectory place := .of_sight same.symm ⟨attributes, stands⟩
        obtain ⟨attributes', found⟩ := stood
        by_cases away : gone place
        · cases (without.absent place away).symm.trans found
        · cases (stays away link).symm.trans found
    | delivered complete =>
        obtain ⟨_, _, file⟩ := complete.hasFile
        cases file.symm.trans stands
    | @prepared root' entry opened' listed _ placed unseen _ =>
        cases opened.symm.trans opened'
        have here : ¬ gone place := fun away => unnamed place away ⟨entry, listed, placed⟩
        cases unseen.symm.trans (stays here link)
    | arriving here => cases here

end Task.Books

namespace Running

variable {κ ς : Type} [Connection κ] {path : Path} {root : Location} {before : Tree}
  {files : List ListEntry} {task : Task} {removals : Removals}
  {opened ready : Running FileRequester FileCollector ς κ}

omit [Connection κ] in
theorem makeReady_weeds [Sandbox ς] (prunes : opened.endpoint.prune = pruneAll)
    (sound : opened.disk.Sound)
    (opens : opened.disk.tree.resolveDirectory opened.disk.workingDirectory path = .ok root) :
    Meets (makeReady path (some root) files) opened
      (fun _ after => Weeds files root opened.disk.tree after.disk.tree) (fun _ _ => True) :=
  makeReady_meets (clear_meets prunes opens (fun _ => .refl _ _ _) fun _ _ same finds =>
    pruneAll_weeds files sound same finds)

theorem finishing_undiverted (opened : task.root = some root)
    (weeds : Weeds task.files root before ready.disk.tree) :
    Meets (finishing path task removals) ready
      (fun _ after => before.Undiverted after.disk.tree) (fun _ _ => True) := by
  have idle : (beginExchange task.files.length ready : Exchange.WholeFiles κ).pending = none := rfl
  have exchanged : Meets (Exchange.run task ready.endpoint.patience)
      (beginExchange task.files.length ready)
      (fun _ last => before.Undiverted last.disk.tree) (fun _ _ => True) :=
    (Exchange.run_books ready.endpoint.patience idle).mono
      (fun _ _ ⟨_, _, books⟩ => books.undiverted opened weeds) fun _ _ _ => trivial
  refine (exchange_runs exchanged).followedBy (fun _ _ _ => trivial) fun _ _ ended => ?_
  obtain ⟨last, undiverted, rfl⟩ := ended
  refine (conclude_proceeds (endExchange last ready)).mono ?_ fun _ _ _ => trivial
  exact fun _ after met => undiverted.of_outline met.1.outline

end Running

end TreeSync
