import TreeSync.Proofs.Run.Confinement
import TreeSync.Proofs.Transfer.Replies

namespace TreeSync.Exchange

/-! The ledger of an exchange: what was read from the peer, reply by reply, and what the
disk holds because of it.
-/

open TreeSync.Action FileCollector

variable {κ : Type} [Connection κ] {task : Task}

section Generic

variable {υ δ γ : Type} [Uploader υ] [Downloader δ γ]

/-- What the downloader has read in all when the exchange comes to a state. -/
inductive Takes (task : Task) (first : Exchange υ δ γ κ) : Bytes → Exchange υ δ γ κ → Prop
  | start : Takes task first [] first
  | attended {taken : Bytes} {now after : Exchange υ δ γ κ} (earlier : Takes task first taken now)
      (attends : Attends task now after) : Takes task first taken after
  | downloaded {taken bytes : Bytes} {outcome : DownloadOutcome} {now after : Exchange υ δ γ κ}
      (earlier : Takes task first taken now)
      (done : advanceDownloader task now = .ok outcome after)
      (took : now.inflow.Takes bytes after.inflow) : Takes task first (taken ++ bytes) after

end Generic

variable {first now after : WholeFiles κ} {replies : List Reply} {draft : Option Reply}

def bytesOf (replies : List Reply) (draft : Option Reply) : Bytes :=
  replies.flatMap Reply.bytes ++ draft.elim [] Reply.opening

/-- Everything that was read are replies, and the disk holds what they brought. -/
structure Ledger (task : Task) (first now : WholeFiles κ) (replies : List Reply)
    (draft : Option Reply) : Prop where
  takes : Takes task first (bytesOf replies draft) now
  received : now.downloader.received = first.downloader.received ++ replies.map Reply.index
  times : now.downloader.preserveTimes = first.downloader.preserveTimes
  permissions : now.downloader.preservePermissions = first.downloader.preservePermissions
  formed : ∀ reply ∈ replies, reply.WellFormed
  forming : ∀ reply, draft = some reply → reply.WellFormed
  books : task.Books first.downloader first.disk now.disk now.pending replies draft

namespace Ledger

theorem start (idle : first.pending = none) : Ledger task first first [] none where
  takes := .start
  received := (List.append_nil _).symm
  times := rfl
  permissions := rfl
  formed := nofun
  forming := nofun
  books := idle ▸ Task.Books.start

theorem attended (ledger : Ledger task first now replies draft) (attends : Attends task now after) :
    Ledger task first after replies draft := by
  obtain ⟨pending, downloader, prepares⟩ := attends.prepares
  exact
    { takes := ledger.takes.attended attends
      received := downloader ▸ ledger.received
      times := downloader ▸ ledger.times
      permissions := downloader ▸ ledger.permissions
      formed := ledger.formed
      forming := ledger.forming
      books := pending ▸ ledger.books.prepares prepares }

/-- The ledger after a step that took more, but not the end of a reply. -/
theorem continued {bytes : Bytes} {longer : Option Reply} {outcome : DownloadOutcome}
    (ledger : Ledger task first now replies draft)
    (done : advanceDownloader task now = .ok outcome after)
    (taken : now.inflow.Takes bytes after.inflow)
    (whole : bytesOf replies draft ++ bytes = bytesOf replies longer)
    (same : after.downloader = now.downloader)
    (forming : ∀ reply, longer = some reply → reply.WellFormed)
    (books : task.Books first.downloader first.disk after.disk after.pending replies longer) :
    Ledger task first after replies longer where
  takes := whole ▸ ledger.takes.downloaded done taken
  received := same ▸ ledger.received
  times := same ▸ ledger.times
  permissions := same ▸ ledger.permissions
  formed := ledger.formed
  forming := forming
  books := books

theorem downloaded (ledger : Ledger task first now replies draft)
    (evolves : Disk.Evolves task.Confines first.disk now.disk) (sound : Sound task now)
    (done : advanceDownloader task now = .ok .ongoing after) :
    ∃ replies' draft' bytes, Ledger task first after replies' draft' ∧
      now.inflow.Takes bytes after.inflow ∧
      bytesOf replies draft ++ bytes = bytesOf replies' draft' := by
  have books := ledger.books
  cases (advanceDownloader_meets sound).of_ok done with
  | @began arriving entry root parent turn blockLength checksumWidth remainder idle pending
      downloader opened listed kind seats fresh empty disk taken small =>
      rw [show now.pending = none from idle] at books
      cases books.drafts.of_idle
      obtain ⟨drawn, rfl, named, free⟩ := fresh
      let opening : Reply := ⟨arriving.index, blockLength, checksumWidth, remainder, []⟩
      have early : first.disk.draws ≤ turn := Nat.le_trans evolves.draws drawn
      have named : arriving.temporary.file =
          Temporary.nameFor arriving.name (first.disk.entropy turn) ::
            arriving.temporary.directory := by
        rw [← evolves.entropy]
        exact named.file
      have whole : bytesOf replies none ++ headBytes arriving.index blockLength checksumWidth
          remainder = bytesOf replies (some opening) := by
        simp [bytesOf, Reply.opening, opening]
      refine ⟨replies, some opening, _, ledger.continued done taken whole downloader ?_ ?_, taken,
        whole⟩
      · intro reply same
        cases same
        exact ⟨small, List.forall_mem_nil _⟩
      · rw [show after.pending = some arriving from pending, show after.disk = _ from disk]
        exact books.begins rfl empty rfl free early named
  | @grew arriving content held pending downloader disk taken more fits =>
      rw [show now.pending = some arriving from held] at books
      obtain ⟨draft, rfl, _⟩ := books.drafts.of_held
      have whole : bytesOf replies (some draft) ++ pieceBytes content =
          bytesOf replies (some (draft.longer content)) := by
        simp [bytesOf]
      refine ⟨replies, some (draft.longer content), _,
        ledger.continued done taken whole downloader ?_ ?_, taken, whole⟩
      · intro reply same
        cases same
        exact (ledger.forming draft rfl).longer more fits
      · rw [show after.pending = _ from pending, show after.disk = _ from disk]
        exact books.grows
  | @committed arriving entry held pending listed downloader size plain free disk taken =>
      obtain ⟨root, entry', belongs⟩ := sound arriving held
      have same : entry' = entry := Option.some.inj (belongs.listed.symm.trans listed)
      subst same
      have placed := belongs.seats.place plain.notSelf
      rw [show now.pending = some arriving from held] at books
      obtain ⟨draft, rfl, index⟩ := books.drafts.of_held
      have takes := ledger.takes.downloaded done taken
      have credited : after.downloader = now.downloader.withReceived arriving entry' := downloader
      -- the draft is complete: it becomes the last of the replies
      have whole : bytesOf replies (some draft) ++ Wire.intBytes 0 =
          bytesOf (replies ++ [draft]) none := by
        simp [bytesOf, Reply.bytes]
      refine ⟨replies ++ [draft], none, _, ?_, taken, whole⟩
      exact
        { takes := whole ▸ takes
          received := by simp [credited, withReceived, ledger.received, index]
          times := by simp [credited, withReceived, ledger.times]
          permissions := by simp [credited, withReceived, ledger.permissions]
          formed := by
            intro reply received
            rcases List.mem_append.mp received with earlier | last
            · exact ledger.formed reply earlier
            · exact ledger.forming reply (List.mem_singleton.mp last ▸ rfl)
          forming := fun _ missing => absurd missing (Option.some_ne_none _).symm
          books := by
            rw [show after.pending = none from pending, show after.disk = _ from disk]
            exact books.commits ledger.times ledger.permissions belongs.opened listed belongs.kind
              placed size }

end Ledger

/-- Every state of an exchange has a ledger. -/
theorem Advances.ledger (advanced : Advances task first now) (idle : first.pending = none) :
    ∃ replies draft, Ledger task first now replies draft := by
  induction advanced with
  | start => exact ⟨[], none, .start idle⟩
  | attended _ attends ih =>
      obtain ⟨replies, draft, ledger⟩ := ih
      exact ⟨replies, draft, ledger.attended attends⟩
  | downloaded earlier done ih =>
      obtain ⟨replies, draft, ledger⟩ := ih
      obtain ⟨evolves, sound⟩ := earlier.visits.evolves idle
      obtain ⟨replies, draft, _, ledger, -⟩ := ledger.downloaded evolves sound done
      exact ⟨replies, draft, ledger⟩

/-- What an exchange holds at any moment: what replies brought and, in the end, maybe a temporary
file that was left to itself since. -/
inductive Holds (task : Task) (first now : WholeFiles κ) (replies : List Reply)
    (draft : Option Reply) : Prop
  | books (books : task.Books first.downloader first.disk now.disk now.pending replies draft)
  | stranded {before : Disk} (idle : now.pending = none)
      (evolves : Disk.Evolves task.Confines first.disk before)
      (books : task.Books first.downloader first.disk before none replies draft)
      (strands : task.Strands before now.disk)

theorem Ledger.closed (ledger : Ledger task first now replies draft)
    (evolves : Disk.Evolves task.Confines first.disk now.disk) (sound : Sound task now)
    (closes : Closes task now after) :
    ∃ draft, Holds task first after replies draft := by
  have books := ledger.books
  rcases closes.effect sound with attended | loses | collects
  · obtain ⟨pending, _, prepares⟩ := attended
    exact ⟨draft, .books (pending ▸ books.prepares prepares)⟩
  · cases loses with
    | @idle draws idle pending _ later disk =>
        have same : after.disk = now.disk.drawnTo draws := disk
        rw [show now.pending = none from idle] at books
        refine ⟨draft, .books ?_⟩
        rw [show after.pending = none from pending, same]
        exact books.of_same rfl later
    | stranded idle pending _ strands =>
        rw [show now.pending = none from idle] at books
        exact ⟨draft, .stranded pending evolves books strands⟩
    | @gaveUp arriving changes held pending _ works disk =>
        rw [show now.pending = some arriving from held] at books
        refine ⟨none, .books ?_⟩
        rw [show after.pending = none from pending, show after.disk = _ from disk]
        exact books.gives_up works
  · cases collects with
    | ended idle pending _ disk _ =>
        rw [show now.pending = none from idle] at books
        refine ⟨draft, .books ?_⟩
        rw [show after.pending = none from pending, show after.disk = now.disk from disk]
        exact books

omit [Connection κ] in
theorem abandonPending_books (sound : Sound task now)
    (books : task.Books first.downloader first.disk now.disk now.pending replies draft) :
    ∃ draft, task.Books first.downloader first.disk (abandonPending now).disk none replies draft := by
  rcases abandonPending_disk sound with abandoned | idle
  · obtain ⟨arriving, held, removed⟩ := abandoned
    rw [held] at books
    have untouched : ∀ change ∈ ([] : List Change), change.WorksOn arriving.temporary.file := nofun
    have given : task.Books first.downloader first.disk
        (now.disk.perform (.removedFile arriving.temporary.file)) none replies none :=
      books.gives_up untouched
    exact ⟨none, removed ▸ given⟩
  · obtain ⟨idle, same⟩ := idle
    rw [idle] at books
    exact ⟨draft, same ▸ books⟩

/-- Replies account for all that an exchange that ends well leaves. -/
theorem run_books (patience : Nat) (idle : first.pending = none) :
    Meets (run task patience) first
      (fun _ after => ∃ replies draft,
        task.Books first.downloader first.disk after.disk none replies draft)
      (fun _ _ => True) := by
  refine (run_meets patience).mono ?_ fun _ _ _ => trivial
  rintro _ _ ⟨before, last, advanced, completes, rfl⟩
  obtain ⟨replies, draft, ledger⟩ := advanced.ledger idle
  obtain ⟨_, sound⟩ := advanced.visits.evolves idle
  have books := ledger.books
  cases (advanceDownloader_meets sound).of_ok completes.done with
  | ended held pending _ disk _ =>
      rw [show before.pending = none from held] at books
      rw [abandonPending_idle pending]
      exact ⟨replies, draft, (show last.disk = before.disk from disk) ▸ books⟩

end TreeSync.Exchange
