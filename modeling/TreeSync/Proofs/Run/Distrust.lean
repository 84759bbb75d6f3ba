import TreeSync.Proofs.Message.Ending
import TreeSync.Proofs.Run.Grammar
import TreeSync.Proofs.Run.Rehearsed

namespace TreeSync.Running

/-! Nothing is done before the list is trusted.

A list that cannot be read, one that the peer does not vouch for and, for a client, an empty one
end the run. Until then it has restricted itself, greeted the peer and listened, no more.
-/

open TreeSync.Action TreeSync.Inflow TreeSync.Speech

variable {υ δ γ ς κ : Type} [Connection κ]

/-- What is said before the list is awaited. -/
def preamble (options : Options) : Emission :=
  if options.server then {} else Wire.writeInt 0

/-- What the list is read from, once the peer was greeted. -/
def awaiting (options : Options) (source : κ) (journal : Journal) : Inflow κ :=
  { source, multiplexed := options.multiplexed, journal }

/-- Why the list is not to be trusted, and how a run ends for that. -/
inductive Distrusts (options : Options) (inflow : Inflow κ) :
    Except Failure Outcome → Inflow κ → Prop where
  | unreadable {fault : Fault} {after : Inflow κ}
      (failed : FileList.read inflow = .error fault after) :
      Distrusts options inflow (.error (.ofTransport "file list" fault)) after
  | unconfirmed {files : List ListEntry} {between after : Inflow κ} {fault : Fault}
      (heard : FileList.read inflow = .ok files between)
      (failed : Wire.readInt between = .error fault after) :
      Distrusts options inflow (.error (.ofTransport "integrity value" fault)) after
  | incomplete {files : List ListEntry} {between after : Inflow κ} {value : Int32}
      (heard : FileList.read inflow = .ok files between)
      (told : Wire.readInt between = .ok value after) (bad : value ≠ 0) :
      Distrusts options inflow
        (.error (.protocol "integrity value" (.integrityValue value.toInt))) after
  | empty {between after : Inflow κ} (client : options.server = false)
      (heard : FileList.read inflow = .ok [] between)
      (told : Wire.readInt between = .ok 0 after) :
      Distrusts options inflow (.ok { files := 0, skippedEmpty := true })
        { after with journal := after.journal.warn "empty file list: nothing to receive" }

namespace Distrusts

variable {options : Options} {inflow after : Inflow κ} {verdict : Except Failure Outcome}

theorem drawn (distrusts : Distrusts options inflow verdict after) {relation : κ → κ → Prop}
    (accumulates : Accumulates relation) (reads : ByteSource.Respects relation) :
    Drawn relation inflow after := by
  have trans := Drawn.accumulates accumulates
  have lists := FileList.read_draws accumulates reads
  have ints := Wire.readInt_keeps trans (read_draws accumulates reads)
  cases distrusts with
  | unreadable failed => exact lists.of_error failed
  | unconfirmed heard failed => exact trans.trans (lists.of_ok heard) (ints.of_error failed)
  | incomplete heard told => exact trans.trans (lists.of_ok heard) (ints.of_ok told)
  | empty client heard told =>
      exact trans.trans (lists.of_ok heard) (trans.trans (ints.of_ok told) (.report accumulates _ _))

/-- What a list that cannot be read is blamed on. -/
theorem blames (distrusts : Distrusts options inflow verdict after) (flows : inflow.Flows)
    {fault : Fault} {left : Inflow κ} (failed : FileList.read inflow = .error fault left) :
    (fault.kind = .invalidData ∧ verdict = .error (.protocol "file list" (.malformed fault))) ∨
      fault.kind = .unexpectedEof ∧ left.Dry ∧ verdict = .error (.transport "file list" fault) := by
  have same : verdict = .error (.ofTransport "file list" fault) := by
    cases distrusts with
    | unreadable failed' =>
        cases failed.symm.trans failed'
        rfl
    | unconfirmed heard | incomplete heard | empty _ heard => cases failed.symm.trans heard
  subst same
  unfold Failure.ofTransport
  cases (FileList.read_sifts inflow flows).of_error failed with
  | malformed kind => exact .inl ⟨kind, by rw [if_pos kind]⟩
  | ended kind dry => exact .inr ⟨kind, dry, by rw [if_neg (by rw [kind]; decide)]⟩

end Distrusts

section

variable {step : String} {α : Type} {action : EStateM Fault (Inflow κ) α} {now : Running υ δ ς κ}
  {after : Inflow κ}

omit [Connection κ] in
theorem receive_ok {value : α} (ran : action now.inflow = .ok value after) :
    receive step action now = .ok value { now with inflow := after } := by
  unfold receive explaining within
  rw [ran]

omit [Connection κ] in
theorem receive_error {fault : Fault} (failed : action now.inflow = .error fault after) :
    receive step action now = .error (.ofTransport step fault) { now with inflow := after } := by
  unfold receive explaining within
  rw [failed]

omit [Connection κ] in
theorem send_ok [ByteSink κ] {emission : Emission} {source : κ}
    (sent : emission.send now.inflow.source = .ok () source) :
    send step emission now = .ok () { now with inflow := { now.inflow with source } } := by
  unfold send explaining within
  rw [sent]

omit [Connection κ] in
theorem send_error [ByteSink κ] {emission : Emission} {fault : Fault} {source : κ}
    (failed : emission.send now.inflow.source = .error fault source) :
    send step emission now =
      .error (.ofTransport step fault) { now with inflow := { now.inflow with source } } := by
  unfold send explaining within
  rw [failed]

section

variable {root : Path} {act : EStateM Fault (Confining ς) Unit} {confined : Confining ς}

/-- A run whose sandbox has come to another state. -/
def confinedBy (confined : Confining ς) (now : Running υ δ ς κ) : Running υ δ ς κ :=
  { now with
    endpoint := { now.endpoint with sandbox := confined.sandbox }
    inflow := { now.inflow with journal := confined.journal } }

omit [Connection κ] in
theorem onSandbox_ok (done : act ⟨now.endpoint.sandbox, now.inflow.journal⟩ = .ok () confined) :
    onSandbox step root act now = .ok () (now.confinedBy confined) := by
  unfold onSandbox explaining within
  rw [done]
  rfl

omit [Connection κ] in
theorem onSandbox_error {fault : Fault}
    (failed : act ⟨now.endpoint.sandbox, now.inflow.journal⟩ = .error fault confined) :
    onSandbox step root act now =
      .error (.filesystem step root fault) (now.confinedBy confined) := by
  unfold onSandbox explaining within
  rw [failed]
  rfl

end

/-- A run that awaits the list ends with the verdict on it, or skips the rest. -/
theorem listen_of_distrusts {options : Options} {verdict : Except Failure Outcome}
    (distrusts : Distrusts options now.inflow verdict after) (root : Path) :
    (receiveList >>= makeRoot root options) now =
      match verdict with
      | .error failure => .error failure { now with inflow := after }
      | .ok _ => .ok none { now with inflow := after } := by
  cases distrusts with
  | unreadable failed => exact bind_error (bind_error (receive_error failed))
  | unconfirmed heard failed =>
      exact bind_error ((bind_ok (receive_ok heard)).trans (bind_error (receive_error failed)))
  | incomplete heard told bad =>
      refine bind_error ((bind_ok (receive_ok heard)).trans ((bind_ok (receive_ok told)).trans ?_))
      rw [if_pos bad]
      rfl
  | @empty between last client heard told =>
      have got : receiveList now = .ok [] { now with inflow := last } :=
        (bind_ok (receive_ok heard)).trans ((bind_ok (receive_ok told)).trans rfl)
      refine (bind_ok got).trans ?_
      unfold makeRoot
      rw [client]
      rfl

end

theorem preamble_whole (options : Options) : (preamble options).refusal = none := by
  unfold preamble
  split <;> rfl

theorem preamble_bytes (options : Options) : (preamble options).bytes = bytes (greeting options) := by
  unfold preamble greeting
  split <;> simp [bytes, Wire.writeInt, Emission.write, Emission.bytes]

theorem preamble_said (transcript : Transcript κ) {options : Options} {connection source : κ}
    (fresh : transcript.sent connection [])
    (greeted : (preamble options).send connection = .ok () source) :
    transcript.sent source (bytes (greeting options)) := by
  have held := (Emission.send_meets transcript.accepts (preamble_whole options) fresh).of_ok greeted
  rwa [List.nil_append, preamble_bytes] at held

variable [Sandbox ς] {endpoint : Endpoint υ δ ς} {connection source : κ} {disk : Disk}
  {root : Path} {confined : Confining ς} {verdict : Except Failure Outcome} {inflow : Inflow κ}

omit [Connection κ] in
theorem restricts (restricted : Sandbox.restrict endpoint.options.capabilities
      ⟨endpoint.sandbox, { verbosity := endpoint.options.reporting }⟩ = .ok () confined) :
    onSandbox "restrict capabilities" root (Sandbox.restrict endpoint.options.capabilities)
        (start endpoint connection disk) =
      .ok () ((start endpoint connection disk).confinedBy confined) :=
  onSandbox_ok restricted

/-- A run that has restricted itself and greeted the peer awaits the list. -/
theorem prepare_of_greeting
    (restricted : Sandbox.restrict endpoint.options.capabilities
      ⟨endpoint.sandbox, { verbosity := endpoint.options.reporting }⟩ = .ok () confined)
    (greeted : (preamble endpoint.options).send connection = .ok () source) :
    prepare root (start endpoint connection disk) =
      (receiveList >>= makeRoot root endpoint.options) {
        endpoint := { endpoint with sandbox := confined.sandbox }
        inflow := awaiting endpoint.options source confined.journal
        disk } := by
  refine (bind_ok (restricts restricted)).trans ?_
  unfold preamble at greeted
  cases server : endpoint.options.server with
  | true =>
      rw [server] at greeted
      cases greeted
      have silent : ¬ (start endpoint connection disk).endpoint.options.server = false := by
        simp [start, server]
      rw [if_neg silent]
      rfl
  | false =>
      rw [server] at greeted
      have client : (start endpoint connection disk).endpoint.options.server = false := server
      rw [if_pos client]
      exact (bind_ok (send_ok greeted)).trans rfl

theorem prepare_of_unrestricted {fault : Fault}
    (refused : Sandbox.restrict endpoint.options.capabilities
      ⟨endpoint.sandbox, { verbosity := endpoint.options.reporting }⟩ = .error fault confined) :
    prepare root (start endpoint connection disk) =
      .error (.filesystem "restrict capabilities" root fault)
        ((start endpoint connection disk).confinedBy confined) := by
  have refuses : onSandbox "restrict capabilities" root
      (Sandbox.restrict endpoint.options.capabilities) (start endpoint connection disk) =
        .error (.filesystem "restrict capabilities" root fault)
          ((start endpoint connection disk).confinedBy confined) := onSandbox_error refused
  exact (bind_error refuses).trans rfl

theorem prepare_of_rebuff {fault : Fault}
    (restricted : Sandbox.restrict endpoint.options.capabilities
      ⟨endpoint.sandbox, { verbosity := endpoint.options.reporting }⟩ = .ok () confined)
    (rebuffed : (preamble endpoint.options).send connection = .error fault source) :
    prepare root (start endpoint connection disk) = .error (.ofTransport "filter preamble" fault) {
      endpoint := { endpoint with sandbox := confined.sandbox }
      inflow := awaiting endpoint.options source confined.journal
      disk } := by
  unfold preamble at rebuffed
  cases server : endpoint.options.server with
  | true =>
      rw [server] at rebuffed
      cases rebuffed
  | false =>
      rw [server] at rebuffed
      have client : (start endpoint connection disk).endpoint.options.server = false := server
      refine (bind_ok (restricts restricted)).trans ?_
      rw [if_pos client]
      exact (bind_error (send_error rebuffed)).trans rfl

variable [Uploader υ] [Downloader δ γ]

theorem attempt_of_distrusts
    (restricted : Sandbox.restrict endpoint.options.capabilities
      ⟨endpoint.sandbox, { verbosity := endpoint.options.reporting }⟩ = .ok () confined)
    (greeted : (preamble endpoint.options).send connection = .ok () source)
    (distrusts : Distrusts endpoint.options (awaiting endpoint.options source confined.journal)
      verdict inflow) :
    (attempt (run root) : EStateM Failure _ _) (start endpoint connection disk) =
      .ok verdict { endpoint := { endpoint with sandbox := confined.sandbox }, inflow, disk } := by
  have prepared : prepare root (start endpoint connection disk) = _ :=
    (prepare_of_greeting restricted greeted).trans (listen_of_distrusts distrusts root)
  cases distrusts with
  | unreadable failed => exact attempt_error (bind_error prepared)
  | unconfirmed heard failed => exact attempt_error (bind_error prepared)
  | incomplete heard told bad => exact attempt_error (bind_error prepared)
  | empty client heard told => exact attempt_ok (bind_ok prepared)

/-- A run that has only restricted itself, greeted the peer and listened. -/
structure Harmless (endpoint : Endpoint υ δ ς) (connection source : κ) (disk : Disk) (root : Path)
    (confined : Confining ς) (verdict : Except Failure Outcome) (inflow : Inflow κ) : Prop where
  /-- It ends with the verdict on the list, the disk as it was. -/
  ends : (attempt (run root) : EStateM Failure _ _) (start endpoint connection disk) =
    .ok verdict { endpoint := { endpoint with sandbox := confined.sandbox }, inflow, disk }
  /-- Nobody else was asked: it ends so with any other roles, with any other pruning, and whatever
  it takes to confine it. -/
  unasked : ∀ {υ' δ' γ' : Type} [Uploader υ'] [Downloader δ' γ'] (uploader : υ') (downloader : δ')
    (prune : Location → List FoundEntry → List ListEntry → EStateM Failure Host Removals)
    (patience : Nat) (confine : Path → EStateM Fault (Confining ς) Unit),
    let other (sandbox : ς) : Endpoint υ' δ' ς :=
      { options := endpoint.options, uploader, downloader, sandbox, prune, patience }
    (attempt (@run υ' δ' γ' ς κ _ _ _ ⟨Sandbox.restrict, confine⟩ root) : EStateM Failure _ _)
        (start (other endpoint.sandbox) connection disk) =
      .ok verdict { endpoint := other confined.sandbox, inflow, disk }
  /-- After the greeting the connection was only read from. -/
  listened : ∀ {relation : κ → κ → Prop}, Accumulates relation → ByteSource.Respects relation →
    relation source inflow.source
  said : ∀ transcript : Transcript κ, transcript.sent connection [] →
    transcript.sent inflow.source (bytes (greeting endpoint.options))
  /-- A list that cannot be read is the peer's fault, unless the stream ended before it. -/
  blames : (∃ heard, Carries source heard) → ∀ {fault : Fault} {left : Inflow κ},
    FileList.read (awaiting endpoint.options source confined.journal) = .error fault left →
      (fault.kind = .invalidData ∧
        verdict = .error (.protocol "file list" (.malformed fault))) ∨
      fault.kind = .unexpectedEof ∧ left.Dry ∧ verdict = .error (.transport "file list" fault)

/-- Before a run trusts the list, it does nothing but restrict itself, greet the peer and listen. -/
theorem run_harmless_without_list
    (restricted : Sandbox.restrict endpoint.options.capabilities
      ⟨endpoint.sandbox, { verbosity := endpoint.options.reporting }⟩ = .ok () confined)
    (greeted : (preamble endpoint.options).send connection = .ok () source)
    (distrusts : Distrusts endpoint.options (awaiting endpoint.options source confined.journal)
      verdict inflow) :
    Harmless endpoint connection source disk root confined verdict inflow where
  ends := attempt_of_distrusts restricted greeted distrusts
  unasked uploader downloader prune patience confine :=
    @attempt_of_distrusts _ _ _ _ _ _ ⟨Sandbox.restrict, confine⟩
      { options := endpoint.options, uploader, downloader, sandbox := endpoint.sandbox, prune,
        patience } _ _ _ _ _ _ _ _ _ restricted greeted distrusts
  listened accumulates reads := (distrusts.drawn accumulates reads).source
  said transcript fresh :=
    (distrusts.drawn Silent.accumulates transcript.reads).source _
      (preamble_said transcript fresh greeted)
  blames carries _ _ failed := distrusts.blames ⟨carries, rfl⟩ failed

/-- A client that hears messages. -/
def hearingEndpoint : Endpoint FileRequester FileCollector StrictSandbox :=
  .wholeFiles { multiplexed := true } {} 0

/-- One message with the start of a list, whose first name leads out of the root. -/
def strayPeer : StagedConnection :=
  .start [⟨0, [6, 0, 0, 7, 2, 0, 0, 0, 46, 46]⟩] .half none

def strayFault : Fault :=
  .refusedName (.parentComponent ⟨[46, 46]⟩)

theorem run_harmless_without_list_of_stray :
    ∃ (confined : Confining StrictSandbox) (source : StagedConnection)
      (inflow : Inflow StagedConnection),
      Sandbox.restrict hearingEndpoint.options.capabilities
        ⟨hearingEndpoint.sandbox, { verbosity := hearingEndpoint.options.reporting }⟩ =
          .ok () confined ∧
      (preamble hearingEndpoint.options).send strayPeer = .ok () source ∧
      Carries source source.arrived ∧
      Distrusts hearingEndpoint.options
        (awaiting hearingEndpoint.options source confined.journal)
        (.error (.protocol "file list" (.malformed strayFault))) inflow ∧
      Harmless hearingEndpoint strayPeer source default ⟨[100]⟩ confined
        (.error (.protocol "file list" (.malformed strayFault))) inflow := by
  have refused : failsIn (FileList.read (awaiting hearingEndpoint.options
      (stateAfter (preamble hearingEndpoint.options).send strayPeer)
      (stateAfter (Sandbox.restrict hearingEndpoint.options.capabilities)
        (⟨hearingEndpoint.sandbox, { verbosity := hearingEndpoint.options.reporting }⟩ :
          Confining StrictSandbox)).journal))
      (fun fault _ => decide (fault = strayFault)) = true := by
    decide +kernel
  obtain ⟨fault, after, failed, same⟩ := of_failsIn refused
  obtain rfl : fault = strayFault := of_decide_eq_true same
  have distrusts : Distrusts hearingEndpoint.options _ (.error (.ofTransport "file list" strayFault)) after :=
    .unreadable failed
  exact ⟨_, _, _, rfl, rfl, StagedConnection.carries rfl nofun, distrusts,
    run_harmless_without_list rfl rfl distrusts⟩

end TreeSync.Running
