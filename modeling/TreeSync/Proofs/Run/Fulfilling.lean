import TreeSync.Proofs.Concurring
import TreeSync.Proofs.Disk.Agreeing
import TreeSync.Proofs.Run.Unfolding

namespace TreeSync

/-! Exchanges that an honest peer brings to a good end.

The uploader alone settles what was asked for and the peer what came in reply, so two
exchanges that start on the same tree end on trees which differ in times at most.
-/

open TreeSync.Action TreeSync.Speech FileCollector

/-- Where a reply comes to stand is the place of the entry it is for. -/
theorem Reply.Becomes.places {reply : Reply} {task : Task} {collector : FileCollector}
    {place : Location} {node : Node} (becomes : reply.Becomes task collector place node) :
    task.Places reply.index place := by
  cases becomes with
  | file opened listed _ placed => exact ⟨_, _, opened, listed, placed⟩

theorem Task.Places.unique {task : Task} {index : Nat} {place other : Location}
    (places : task.Places index place) (again : task.Places index other) : place = other := by
  obtain ⟨root, entry, opened, listed, placed⟩ := places
  obtain ⟨root', entry', opened', listed', placed'⟩ := again
  rw [opened] at opened'
  cases opened'
  rw [listed] at listed'
  cases listed'
  exact Option.some.inj (placed.symm.trans placed')

/-- A reply makes one file only, but for a time that is not kept. -/
theorem Reply.Becomes.alike {reply : Reply} {task : Task} {collector : FileCollector}
    {place : Location} {node node' : Node} (becomes : reply.Becomes task collector place node)
    (becomes' : reply.Becomes task collector place node') :
    node.timeless = node'.timeless ∧ (collector.preserveTimes = true → node = node') := by
  cases becomes with
  | file opened listed _ _ _ time =>
      cases becomes' with
      | file opened' listed' _ _ _ time' =>
          rw [listed] at listed'
          cases listed'
          refine ⟨rfl, fun times => ?_⟩
          rw [time times, time' times]

namespace Exchange

variable {κ : Type} [Connection κ] {peer : Peer} {options : Options} {task : Task}
  {origin : Inflow κ} {solo bare : Uploading FileRequester BoundedSink}
  {first now before last : WholeFiles κ} {replies : List Reply} {draft : Option Reply}
  {requests : List Nat}

/-- What an exchange has come to in the end, given what the uploader alone comes to. -/
structure Fulfils (peer : Peer) (options : Options) (task : Task) (origin : Inflow κ)
    (collector : FileCollector) (bare : Uploading FileRequester BoundedSink) (requests : List Nat)
    (last : WholeFiles κ) : Prop where
  marks : last.newDirectories = bare.newDirectories
  converses : origin.Converses
    (peer.list ++ ((peer.replies requests).flatMap Reply.bytes ++ Wire.intBytes Wire.doneIndex))
    (bytes (word options requests 1)) last.inflow
  brought : ∀ index ∈ requests, ∃ place node, (peer.answer index).Becomes task collector place node ∧
    last.disk.tree.get? place = some node
  elsewhere : ∀ place, (∀ index ∈ requests, ¬ task.Places index place) →
    last.disk.tree.sight place = bare.host.disk.tree.sight place

theorem Unfolds.all_answered (staged : Staged peer options task origin solo first)
    (unfolds : Unfolds peer options task origin solo first now replies none bare)
    (known : FileRequester.Said BoundedSink.Holds { options with server := true } task requests bare)
    (ended : bare.cursor.exhausted = true) {after : Inflow κ}
    (took : now.inflow.Takes (Wire.intBytes Wire.doneIndex) after) :
    peer.replies requests = replies ∧
      origin.Converses (peer.list ++ (replies.flatMap Reply.bytes ++ Wire.intBytes Wire.doneIndex))
        (bytes (word options requests 1)) after := by
  obtain ⟨said, told, holds⟩ := unfolds.shadows.said
  have whole : bytes (greeting options) ++ said = bytes (word options requests 1) := by
    rw [← holds.written, known.sent.written, Unfolds.bytes_greeting, ended]
    rfl
  have earlier : origin.Converses (peer.list ++ bytesOf replies none) (bytes (greeting options) ++ said)
      now.inflow := told
  have later := earlier.takes took
  rw [List.append_assoc, whole] at later
  have closed : bytesOf replies none = replies.flatMap Reply.bytes := List.append_nil _
  rw [closed] at later
  obtain ⟨rest, front⟩ := staged.honest later known.requests (by decide) rfl
  rw [Peer.stream, List.append_assoc, List.append_assoc] at front
  obtain ⟨all, -⟩ := Reply.all_of_bytes unfolds.ledger.formed
    (staged.offers.replies_formed known.requests) (peer.closing_closes 1)
    (List.append_cancel_left front)
  exact ⟨all, later⟩

theorem Completes.fulfils (staged : Staged peer options task origin solo first)
    (advanced : Advances task first before) (completes : Completes task before last) :
    ∃ bare steps, FileRequester.Alone task solo steps bare ∧ bare.cursor.exhausted = true ∧
      ∀ requests,
        FileRequester.Said BoundedSink.Holds { options with server := true } task requests bare →
          Fulfils peer options task origin first.downloader bare requests last := by
  obtain ⟨_, sound⟩ := advanced.visits.evolves staged.idle
  obtain ⟨replies, draft, bare, unfolds⟩ := advanced.unfolds staged
  obtain ⟨steps, alone⟩ := unfolds.alone
  obtain ⟨⟨-, cursor, marks⟩, -⟩ := (Unfolds.advanceDownloader_apart before).of_ok completes.done
  have shadows := unfolds.shadows
  have ended : bare.cursor.exhausted = true := by
    rw [← shadows.cursor, ← completes.exhausted, cursor]
    rfl
  refine ⟨bare, steps, alone, ended, fun requests known => ?_⟩
  cases (advanceDownloader_meets sound).of_ok completes.done with
  | ended idle _ _ disk took =>
      have idle : before.pending = none := idle
      have disk : last.disk = before.disk := disk
      have books := unfolds.ledger.books
      rw [idle] at books
      cases books.drafts.of_idle
      obtain ⟨all, converses⟩ := unfolds.all_answered staged known ended took
      subst all
      have asked := known.requests
      refine ⟨marks.trans shadows.marks, converses, ?_, ?_⟩
      · intro index listed
        have received : peer.answer index ∈ peer.replies requests := List.mem_map_of_mem listed
        obtain ⟨place, node, becomes, delivered, -⟩ := books.keeps _ received
        obtain ⟨_, received', node', becomes', found⟩ := delivered
        obtain ⟨other, listed', rfl⟩ := List.mem_map.mp received'
        have here := becomes.places
        have here' := becomes'.places
        rw [staged.offers.index_requested asked listed] at here
        rw [staged.offers.index_requested asked listed'] at here'
        obtain rfl := staged.distinct here here'
        exact ⟨place, node', becomes', disk ▸ found⟩
      · intro place apart
        rw [disk]
        refine shadows.overlays.elsewhere place fun laid => ?_
        rcases laid with arrived | arriving
        · obtain ⟨index, received, places⟩ := arrived
          exact apart index (unfolds.received_requested staged known received) places
        · rw [idle] at arriving
          cases arriving

/-- Two exchanges with the same peer that end well leave trees which differ in times at most. -/
theorem Fulfils.agrees {κ' : Type} [Connection κ'] {origin' : Inflow κ'} {last' : WholeFiles κ'}
    {collector : FileCollector} (offers : peer.Offers task.files) (asked : Requests task.files requests)
    (fulfils : Fulfils peer options task origin collector bare requests last)
    (fulfils' : Fulfils peer options task origin' collector bare requests last') :
    last.disk.tree.Agrees (collector.preserveTimes = true) (fun _ => False) last'.disk.tree := by
  have alike (place : Location) :
      last.disk.tree.sight place = last'.disk.tree.sight place ∨
        ∃ node node', last.disk.tree.get? place = some node ∧
          last'.disk.tree.get? place = some node' ∧ node.timeless = node'.timeless ∧
            (collector.preserveTimes = true → node = node') := by
    by_cases arrived : ∃ index ∈ requests, task.Places index place
    · obtain ⟨index, among, places⟩ := arrived
      obtain ⟨here, node, becomes, found⟩ := fulfils.brought index among
      obtain ⟨here', node', becomes', found'⟩ := fulfils'.brought index among
      have stands := becomes.places
      have stands' := becomes'.places
      rw [offers.index_requested asked among] at stands stands'
      obtain rfl := places.unique stands
      obtain rfl := places.unique stands'
      exact .inr ⟨node, node', found, found', becomes.alike becomes'⟩
    · have apart (index : Nat) (among : index ∈ requests) : ¬ task.Places index place :=
        fun places => arrived ⟨index, among, places⟩
      exact .inl ((fulfils.elsewhere place apart).trans (fulfils'.elsewhere place apart).symm)
  refine ⟨fun place => ?_, fun times place => ?_, fun _ => False.elim⟩
  · rcases alike place with same | ⟨node, node', found, found', shape, -⟩
    · exact Tree.timeless_of_sight same
    · rw [found, found', Option.map_some, Option.map_some, shape]
  · rcases alike place with same | ⟨node, node', found, found', -, equal⟩
    · exact same
    · rw [Tree.sight, Tree.sight, found, found', equal times]

/-- An exchange that ends well always leads on to the same phase. -/
theorem run_phase (task : Task) (patience : Nat) :
    Keeps (fun _ _ => True) (run task patience : Step FileRequester FileCollector ArrivingFile κ Phase)
      (· = .awaitingAck) := by
  have free : Accumulates fun _ _ : WholeFiles κ => True := ⟨fun _ => trivial, fun _ _ => trivial⟩
  have ends : Keeps (fun _ _ => True)
      (checkComplete task : Step FileRequester FileCollector ArrivingFile κ Phase)
      (· = .awaitingAck) :=
    .get fun exchange => .cond (.throw free) (.cond (.throw free) (.pure free rfl))
  have any {α : Type} (step : Step FileRequester FileCollector ArrivingFile κ α) :
      Keeps (fun _ _ => True) step :=
    fun before => Meets.intro (fun _ _ _ => ⟨trivial, trivial⟩) fun _ _ _ => trivial
  have takes (readiness : Readiness) : Keeps (fun _ _ => True)
      (takeWaiting task readiness : Step FileRequester FileCollector ArrivingFile κ _)
      fun phase? => ∀ phase, phase? = some phase → phase = .awaitingAck := by
    refine .cond (.pure free nofun) (.bind free (any contentWaits) fun waits _ => ?_)
    refine .cond (.pure free nofun) (.bind free (any _) fun outcome _ => ?_)
    cases outcome with
    | ongoing => exact .pure free nofun
    | complete =>
        refine .bind free ends fun phase same => .pure free fun other there => ?_
        exact (Option.some.inj there).symm.trans same
  have rounds (limit left : Nat) : Keeps (fun _ _ => True)
      (roundsUpTo task limit left : Step FileRequester FileCollector ArrivingFile κ Phase)
      (· = .awaitingAck) := by
    induction left with
    | zero => exact .throw free
    | succ left ih =>
        have goes : Keeps (fun _ _ => True)
            (round task : Step FileRequester FileCollector ArrivingFile κ _)
            fun phase? => ∀ phase, phase? = some phase → phase = .awaitingAck :=
          .bind free (any wait) fun readiness _ => .get fun _ =>
            .optional free (any (advanceUploader task)) (takes readiness)
        refine .bind free goes fun phase? met => ?_
        cases phase? with
        | none => exact ih
        | some phase => exact .pure free (met phase rfl)
  exact .get fun exchange before => Meets.ensuring (rounds _ _ before)

theorem run_fulfils (staged : Staged peer options task origin solo first) (patience : Nat) :
    Meets (run task patience) first
      (fun _ last => ∃ bare steps, FileRequester.Alone task solo steps bare ∧
        bare.cursor.exhausted = true ∧
        ∀ requests,
          FileRequester.Said BoundedSink.Holds { options with server := true } task requests bare →
            Fulfils peer options task origin first.downloader bare requests last)
      (fun _ _ => True) := by
  refine (run_meets patience).mono (fun _ after met => ?_) fun _ _ _ => trivial
  obtain ⟨before, last, advanced, completes, rfl⟩ := met
  rw [abandonPending_idle completes.idle]
  exact completes.fulfils staged advanced

/-- Two exchanges with the same peer come to the same end if both end well. -/
theorem run_concurs {κ' : Type} [Connection κ'] {origin' : Inflow κ'} {first' : WholeFiles κ'}
    (staged : Staged peer options task origin solo first)
    (staged' : Staged peer options task origin' solo first')
    (downloader : first'.downloader = first.downloader) (patience patience' : Nat) :
    Concurs (run task patience) first (run task patience') first' fun phase last last' =>
      phase = .awaitingAck ∧ ∃ bare requests, Requests task.files requests ∧
        Fulfils peer options task origin first.downloader bare requests last ∧
        Fulfils peer options task origin' first.downloader bare requests last' := by
  intro phase last phase' last' ran ran'
  obtain ⟨-, rfl⟩ := (run_phase task patience first).of_ok ran
  obtain ⟨-, rfl⟩ := (run_phase task patience' first').of_ok ran'
  obtain ⟨bare, steps, alone, ended, fulfils⟩ := (run_fulfils staged patience).of_ok ran
  obtain ⟨bare', steps', alone', ended', fulfils'⟩ := (run_fulfils staged' patience').of_ok ran'
  have strength : task.checksum = ({ options with server := true } : Options).checksum :=
    staged.strength
  obtain rfl := alone.ended_unique alone' strength staged.known ended ended'
  obtain ⟨requests, known⟩ := alone.said strength staged.known
  rw [downloader] at fulfils'
  exact ⟨rfl, rfl, bare, requests, known.requests, fulfils requests known, fulfils' requests known⟩

end Exchange

end TreeSync
