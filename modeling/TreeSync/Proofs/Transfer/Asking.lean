import TreeSync.Proofs.Stream.Sending
import TreeSync.Transfer.FileRequester

namespace TreeSync

/-! What the uploader says.

In each step it asks for one file, announces the end or says nothing, and a step that
fails has said nothing. So at every moment its requests, oldest first, and the mark that
ends them are all that it said.
-/

open TreeSync.Action

namespace Speech

/-- The empty filter list that a client begins with. -/
def greeting (options : Options) : List Int32 :=
  if options.server then [] else [0]

/-- The request for the file at an index. -/
def ask (checksum : ChecksumStrength) (index : Nat) : List Int32 :=
  [Int32.ofNat index, 0, 0, Int32.ofNat checksum.width, 0]

/-- The greeting, the requests and so many end marks: what a run says that is not cut off
before the last of them. -/
def word (options : Options) (requests : List Nat) (marks : Nat) : List Int32 :=
  greeting options ++ requests.flatMap (ask options.checksum) ++
    List.replicate marks Wire.doneIndex

def bytes (ints : List Int32) : Bytes :=
  ints.flatMap Wire.intBytes

theorem bytes_append (first second : List Int32) :
    bytes (first ++ second) = bytes first ++ bytes second :=
  List.flatMap_append

variable {options : Options} {requests : List Nat}

theorem bytes_ask (index : Nat) :
    bytes (word options (requests ++ [index]) 0) =
      bytes (word options requests 0) ++ bytes (ask options.checksum index) := by
  simp [word, bytes_append]

theorem bytes_mark (marks : Nat) :
    bytes (word options requests (marks + 1)) =
      bytes (word options requests marks) ++ bytes [Wire.doneIndex] := by
  simp [word, bytes_append, List.replicate_succ']

theorem word_leads {fewer marks : Nat} (le : fewer ≤ marks) :
    word options requests fewer <+: word options requests marks :=
  (List.prefix_append_right_inj _).mpr
    (List.prefix_replicate_iff.mpr ⟨by simpa using le, by simp⟩)

theorem le_of_word_leads {fewer marks : Nat}
    (leads : word options requests fewer <+: word options requests marks) : fewer ≤ marks := by
  have shorter := leads.length_le
  simp only [word, List.length_append, List.length_replicate] at shorter
  omega

end Speech

namespace Cursor

variable {cursor : Cursor}

theorem not_exhausted {position : Position} (here : cursor.position? = some position) :
    cursor.exhausted = false := by
  have present : cursor.position? ≠ none := by simp [here]
  simpa [position?_eq_none] using present

theorem next_entry {index : Nat} (here : cursor.position? = some (.entry index)) :
    cursor.next = index ∧ index < cursor.total := by
  unfold position? at here
  split at here
  · cases here
    exact ⟨rfl, ‹_›⟩
  · split at here <;> cases here

theorem total_advance (cursor : Cursor) : cursor.advance.total = cursor.total := by
  unfold advance
  split <;> rfl

theorem next_le_advance (cursor : Cursor) : cursor.next ≤ cursor.advance.next := by
  unfold advance
  split
  · exact Nat.le_succ _
  · exact Nat.le_refl _

theorem advance_entry {index : Nat} (here : cursor.position? = some (.entry index)) :
    cursor.advance.exhausted = false ∧ cursor.advance.next = index + 1 := by
  obtain ⟨next, inside⟩ := next_entry here
  have step := next_advance (not_exhausted here)
  refine ⟨?_, by rw [step, next]⟩
  simp only [exhausted, step, total_advance, decide_eq_false_iff_not]
  omega

theorem advance_exhausted (ended : cursor.exhausted = true) : cursor.advance = cursor := by
  simp only [exhausted, decide_eq_true_eq] at ended
  rw [advance, dif_neg (Nat.not_le.mpr ended)]

theorem advance_end (here : cursor.position? = some .endOfList) :
    cursor.advance.exhausted = true ∧ cursor.advance.next = cursor.next + 1 := by
  have step := next_advance (not_exhausted here)
  refine ⟨?_, step⟩
  unfold position? at here
  split at here
  · cases here
  · split at here
    · simp only [exhausted, step, total_advance, decide_eq_true_eq]
      omega
    · cases here

end Cursor

open Speech

namespace FileRequester

variable {κ ε α : Type} {sent : κ → Bytes → Prop} {task : Task} {options : Options}

/-- What a step leaves alone that only works on the disk and the journal. -/
structure Quiet (before after : Uploading FileRequester κ) : Prop where
  connection : after.connection = before.connection
  cursor : after.cursor = before.cursor
  dryRun : after.uploader.dryRun = before.uploader.dryRun
  requested : after.uploader.requested = before.uploader.requested

theorem Quiet.accumulates : Accumulates (Quiet (κ := κ)) where
  refl _ := ⟨rfl, rfl, rfl, rfl⟩
  trans earlier later :=
    { connection := later.connection.trans earlier.connection
      cursor := later.cursor.trans earlier.cursor
      dryRun := later.dryRun.trans earlier.dryRun
      requested := later.requested.trans earlier.requested }

theorem onHost_quiet (step : EStateM ε Host α) :
    Keeps Quiet (Uploading.onHost step : EStateM ε (Uploading FileRequester κ) α) :=
  .aside fun _ _ => ⟨rfl, rfl, rfl, rfl⟩

theorem prepareDirectory_quiet (index : Nat) (path : Path) (task : Task) (root : Location) :
    Keeps Quiet (prepareDirectory (κ := κ) index path task root) := by
  refine .bind Quiet.accumulates (onHost_quiet _) fun standing _ => ?_
  split
  · exact .pure Quiet.accumulates trivial
  · refine .bind Quiet.accumulates (onHost_quiet _) fun _ _ => ?_
    exact .bind Quiet.accumulates (.change fun _ => ⟨rfl, rfl, rfl, rfl⟩) fun _ _ =>
      onHost_quiet _
  · exact .throw Quiet.accumulates
  · exact .throw Quiet.accumulates

theorem examineDirectory_quiet (index : Nat) (entry : ListEntry) (task : Task) :
    Keeps Quiet (examineDirectory (κ := κ) index entry task) := by
  refine .get fun uploading => .cond (onHost_quiet _) (.cond (.pure Quiet.accumulates trivial) ?_)
  refine .bind Quiet.accumulates (.ofExcept Quiet.accumulates fun _ _ => trivial) fun root _ => ?_
  exact prepareDirectory_quiet index entry.path task root

/-- What a step does that asks for the file at an index. -/
structure Asks (sent : κ → Bytes → Prop) (task : Task) (index : Nat) (said : Bytes)
    (before after : Uploading FileRequester κ) : Prop where
  sent : sent after.connection (said ++ bytes (ask task.checksum index))
  cursor : after.cursor = before.cursor
  dryRun : after.uploader.dryRun = before.uploader.dryRun
  requested : after.uploader.requested = before.uploader.requested ++ [index]
  wet : before.uploader.dryRun = false
  small : index < 0x80000000

theorem Quiet.asks {index : Nat} {said : Bytes} {before middle after : Uploading FileRequester κ}
    (quiet : Quiet before middle) (asks : Asks sent task index said middle after) :
    Asks sent task index said before after where
  sent := asks.sent
  cursor := asks.cursor.trans quiet.cursor
  dryRun := asks.dryRun.trans quiet.dryRun
  requested := quiet.requested ▸ asks.requested
  wet := quiet.dryRun ▸ asks.wet
  small := asks.small

variable [ByteSink κ] {now : Uploading FileRequester κ} {said : Bytes} {index : Nat}
  {entry : ListEntry} {breaks : Prop}

omit [ByteSink κ] in
theorem request_bytes (index : Nat) (checksum : ChecksumStrength) :
    (request index checksum).bytes = bytes (Speech.ask checksum index) := by
  simp [request, Speech.ask, bytes, Emission.bytes, Emission.concat, Emission.andThen,
    Wire.writeInt, Emission.write]

theorem send_meets {emission : Emission} (adds : ByteSink.Adds sent fun _ _ => breaks)
    (whole : emission.refusal = none) (held : sent now.connection said) :
    Meets (Uploading.send emission) now
      (fun _ after => ∃ connection, sent connection (said ++ emission.bytes) ∧
        after = { now with connection })
      (fun _ _ => breaks) :=
  Meets.within ((Emission.send_meets adds whole held).mono
    (fun _ connection held => ⟨connection, held, rfl⟩) fun _ _ => id)

theorem requestFile_meets (adds : ByteSink.Adds sent fun _ _ => breaks)
    (held : sent now.connection said) (wet : now.uploader.dryRun = false) :
    Meets (requestFile index entry task) now (fun _ after => Asks sent task index said now after)
      (fun _ after => breaks ∨ Quiet now after) := by
  refine Meets.cond (fun _ => Meets.throw (.inr (Quiet.accumulates.refl now))) fun small => ?_
  have whole : (request index task.checksum).refusal = none := rfl
  refine (send_meets adds whole held).followedBy (fun _ _ => .inl) fun _ after met => ?_
  obtain ⟨connection, held, same⟩ := met
  subst same
  rw [request_bytes] at held
  exact Meets.changeThen ⟨held, rfl, rfl, rfl, wet, Nat.lt_of_not_le small⟩

theorem examineFile_meets (adds : ByteSink.Adds sent fun _ _ => breaks)
    (held : sent now.connection said) :
    Meets (examineFile index entry task) now
      (fun _ after => Quiet now after ∨ Asks sent task index said now after)
      (fun _ after => breaks ∨ Quiet now after) := by
  have tells {ε : Type} (step : EStateM ε Host Unit) :
      Keeps Quiet (Uploading.onHost step : EStateM ε (Uploading FileRequester κ) Unit) :=
    onHost_quiet step
  refine Meets.get (Meets.cond (fun _ => ?_) fun wet => ?_)
  · exact (tells _ now).mono (fun _ _ met => .inl met.1) fun _ _ => .inr
  rw [Bool.not_eq_true] at wet
  refine Meets.ofExcept.followedBy (fun _ _ same => .inr (same ▸ Quiet.accumulates.refl now)) ?_
  intro root _ met
  obtain ⟨rfl, -⟩ := met
  refine (onHost_quiet (Host.onDisk (Standing.find root entry.path)) now).followedBy
    (fun _ _ => .inr) fun standing looked met => ?_
  obtain ⟨quiet, -⟩ := met
  refine Meets.cond (fun _ => ?_) fun _ => Meets.cond (fun _ => Meets.throw (.inr quiet)) fun _ => ?_
  · exact Meets.changeThen (.inl ⟨quiet.connection, quiet.cursor, quiet.dryRun, quiet.requested⟩)
  · rw [← quiet.connection] at held
    rw [← quiet.dryRun] at wet
    refine (requestFile_meets adds held wet).mono ?_ ?_
    · exact fun _ _ asks => .inr (quiet.asks asks)
    · exact fun _ _ later => later.imp_right (Quiet.accumulates.trans quiet)

theorem examine_meets (adds : ByteSink.Adds sent fun _ _ => breaks)
    (held : sent now.connection said) :
    Meets (examine index entry task) now
      (fun _ after => Quiet now after ∨
        (entry.isRegular = true ∧ Asks sent task index said now after))
      (fun _ after => breaks ∨ Quiet now after) := by
  refine Meets.cond (fun _ => ?_) fun _ => Meets.cond (fun regular => ?_) fun _ => ?_
  · exact (examineDirectory_quiet index entry task now).mono (fun _ _ met => .inl met.1)
      fun _ _ => .inr
  · exact (examineFile_meets adds held).mono
      (fun _ _ met => met.imp id fun asks => ⟨regular, asks⟩) fun _ _ => id
  · exact (onHost_quiet _ now).mono (fun _ _ met => .inl met.1) fun _ _ => .inr

/-- All that the uploader said, and that it stands for entries the cursor has passed. -/
structure Said (sent : κ → Bytes → Prop) (options : Options) (task : Task) (requests : List Nat)
    (now : Uploading FileRequester κ) : Prop where
  sent : sent now.connection
    (bytes (word options requests (if now.cursor.exhausted then 1 else 0)))
  rising : requests.Pairwise (· < ·)
  passed : ∀ index ∈ requests, index < now.cursor.next
  regular : ∀ index ∈ requests, index < 0x80000000 ∧
    ∃ entry, task.files[index]? = some entry ∧ entry.isRegular = true
  obeys : now.uploader.dryRun = options.dryRun
  dry : options.dryRun = true → requests = []

namespace Said

variable {requests : List Nat} {after : Uploading FileRequester κ}

omit [ByteSink κ] in
theorem silent (known : Said sent options task requests now)
    (silent : Silent sent now.connection after.connection) (cursor : after.cursor = now.cursor)
    (dryRun : after.uploader.dryRun = now.uploader.dryRun) :
    Said sent options task requests after where
  sent := by
    rw [cursor]
    exact silent _ known.sent
  rising := known.rising
  passed := by
    rw [cursor]
    exact known.passed
  regular := known.regular
  obeys := dryRun.trans known.obeys
  dry := known.dry

omit [ByteSink κ] in
theorem quiet (known : Said sent options task requests now) (quiet : Quiet now after) :
    Said sent options task requests after :=
  known.silent (by rw [quiet.connection]; exact Silent.accumulates.refl _) quiet.cursor quiet.dryRun

omit [ByteSink κ] in
/-- Passing an entry that was not asked for. -/
theorem passes (known : Said sent options task requests now)
    (position : now.cursor.position? = some (.entry index)) :
    Said sent options task requests { now with cursor := now.cursor.advance } where
  sent := by
    have held := known.sent
    rw [Cursor.not_exhausted position] at held
    rwa [(Cursor.advance_entry position).1]
  rising := known.rising
  passed asked among := by
    have before := known.passed asked among
    have next := (Cursor.advance_entry position).2
    simp only [(Cursor.next_entry position).1] at before
    change asked < now.cursor.advance.next
    omega
  regular := known.regular
  obeys := known.obeys
  dry := known.dry

omit [ByteSink κ] in
/-- Passing the entry that was asked for. -/
theorem asks (known : Said sent options task requests now)
    (strength : task.checksum = options.checksum)
    (position : now.cursor.position? = some (.entry index))
    (listed : task.files[index]? = some entry) (regular : entry.isRegular = true)
    (asked : Asks sent task index (bytes (word options requests 0)) now after) :
    Said sent options task (requests ++ [index]) { after with cursor := after.cursor.advance } where
  sent := by
    have held := asked.sent
    rw [strength, ← bytes_ask] at held
    rwa [asked.cursor, (Cursor.advance_entry position).1]
  rising := by
    refine List.pairwise_append.mpr ⟨known.rising, by simp, fun earlier among last here => ?_⟩
    rw [List.mem_singleton.mp here, ← (Cursor.next_entry position).1]
    exact known.passed earlier among
  passed other among := by
    have next := (Cursor.advance_entry position).2
    change other < after.cursor.advance.next
    rw [asked.cursor, next]
    rcases List.mem_append.mp among with earlier | here
    · have before := known.passed other earlier
      rw [(Cursor.next_entry position).1] at before
      omega
    · rw [List.mem_singleton.mp here]
      omega
  regular other among := by
    rcases List.mem_append.mp among with earlier | here
    · exact known.regular other earlier
    · rw [List.mem_singleton.mp here]
      exact ⟨asked.small, entry, listed, regular⟩
  obeys := asked.dryRun.trans known.obeys
  dry rehearsal := by
    have wet := known.obeys.symm.trans asked.wet
    rw [rehearsal] at wet
    cases wet

end Said

theorem announceEnd_meets {requests : List Nat} (adds : ByteSink.Adds sent fun _ _ => breaks)
    (known : Said sent options task requests now)
    (position : now.cursor.position? = some .endOfList) :
    Meets announceEnd now
      (fun _ after => Said sent options task requests after ∧
        after.uploader.requested = now.uploader.requested ∧ after.cursor = now.cursor.advance)
      (fun _ _ => breaks) := by
  have held := known.sent
  rw [Cursor.not_exhausted position] at held
  have whole : (Wire.writeInt Wire.doneIndex).refusal = none := rfl
  refine (send_meets adds whole held).bind fun _ after met => ?_
  obtain ⟨connection, held, same⟩ := met
  subst same
  have marked : sent connection (bytes (word options requests 1)) := by
    rw [bytes_mark]
    simpa [bytes, Wire.writeInt, Emission.write, Emission.bytes] using held
  obtain ⟨ended, next⟩ := Cursor.advance_end position
  have settled : Said sent options task requests
      { now with connection, cursor := now.cursor.advance } :=
    { known with
      sent := by rwa [ended]
      passed := fun index among => by
        have before := known.passed index among
        change index < now.cursor.advance.next
        omega }
  exact Meets.changeThen (Meets.get ⟨settled.quiet ⟨rfl, rfl, rfl, rfl⟩, rfl, rfl⟩)

/-- What the uploader says in one step, and that it takes a note of what it asked for. -/
theorem advance_tells {requests : List Nat} (adds : ByteSink.Adds sent fun _ _ => breaks)
    (strength : task.checksum = options.checksum)
    (known : Said sent options task requests now) :
    Meets (advance task) now
      (fun _ after => (∃ more, Said sent options task (requests ++ more) after ∧
        after.uploader.requested = now.uploader.requested ++ more) ∧
          after.cursor = now.cursor.advance)
      (fun _ after => breaks ∨ Said sent options task requests after) := by
  let lent : Uploading FileRequester κ := { now with secondary := none }
  have known : Said sent options task requests lent := known.quiet ⟨rfl, rfl, rfl, rfl⟩
  -- a step that asks for nothing notes nothing
  have nothing {after : Uploading FileRequester κ} (said : Said sent options task requests after)
      (same : after.uploader.requested = now.uploader.requested) :
      ∃ more, Said sent options task (requests ++ more) after ∧
        after.uploader.requested = now.uploader.requested ++ more :=
    ⟨[], by rwa [List.append_nil], by rw [same, List.append_nil]⟩
  refine Meets.changeThen (Meets.get ?_)
  split
  · next index position =>
    split
    · next entry listed =>
      have held := known.sent
      rw [Cursor.not_exhausted position] at held
      refine (examine_meets adds held).followedBy (fun _ _ => .imp_right known.quiet) ?_
      intro _ after met
      rcases met with quiet | asked
      · have passed := (known.quiet quiet).passes (quiet.cursor ▸ position)
        exact Meets.change ⟨nothing passed quiet.requested, congrArg Cursor.advance quiet.cursor⟩
      · obtain ⟨regular, asks⟩ := asked
        have asked := known.asks strength position listed regular asks
        exact Meets.change ⟨⟨[index], asked, asks.requested⟩, congrArg Cursor.advance asks.cursor⟩
    · exact Meets.change ⟨nothing (known.passes position) rfl, rfl⟩
  · next position =>
    exact (announceEnd_meets adds known position).mono
      (fun _ _ met => ⟨nothing met.1 met.2.1, met.2.2⟩) fun _ _ => .inl
  · next position =>
    have ended := Cursor.position?_eq_none.mp position
    exact Meets.pure ⟨nothing known rfl, (Cursor.advance_exhausted ended).symm⟩

theorem advance_meets {requests : List Nat} (accepts : ByteSink.Accepts sent)
    (strength : task.checksum = options.checksum)
    (known : Said sent options task requests now) :
    Meets (advance task) now
      (fun _ after => (∃ requests, Said sent options task requests after) ∧
        after.cursor = now.cursor.advance)
      (fun _ after => Said sent options task requests after) := by
  refine (advance_tells accepts strength known).mono ?_ fun _ _ => (Or.resolve_left · id)
  intro _ after met
  obtain ⟨⟨more, said, _⟩, cursor⟩ := met
  exact ⟨⟨requests ++ more, said⟩, cursor⟩

end FileRequester

end TreeSync
