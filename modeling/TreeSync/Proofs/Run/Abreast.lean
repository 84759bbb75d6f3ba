import TreeSync.Proofs.Destination.Fixed
import TreeSync.Proofs.Destination.Unheard
import TreeSync.Proofs.Path.Spelling
import TreeSync.Proofs.Run.Fulfilling
import TreeSync.Proofs.Run.Upkeep

namespace TreeSync

/-! Two runs that have taken and said the same.

Their connections and journals have nothing else in common. What a stage yields, and how it
changes the disk, is settled by what they share.
-/

open TreeSync.Action TreeSync.Speech

/-- What the stages around the exchange rely on in an endpoint. -/
structure Endpoint.Obeys {ς : Type} (endpoint : Endpoint FileRequester FileCollector ς)
    (options : Options) (roles : FileRequester → FileCollector → Prop) : Prop where
  asked : endpoint.options = options
  prune : endpoint.prune = Destination.pruneAll
  roles : roles endpoint.uploader endpoint.downloader

structure Abreast {ς κ κ' : Type} [Connection κ] [Connection κ'] (options : Options)
    (origin : Inflow κ) (origin' : Inflow κ') (roles : FileRequester → FileCollector → Prop)
    (disks : Disk → Disk → Prop) (taken said : Bytes)
    (now : Running FileRequester FileCollector ς κ)
    (there : Running FileRequester FileCollector ς κ') : Prop where
  here : now.endpoint.Obeys options roles
  yonder : there.endpoint.Obeys options roles
  disks : disks now.disk there.disk
  converses : origin.Converses taken said now.inflow
  converses' : origin'.Converses taken said there.inflow

namespace Running

variable {ς κ κ' : Type} [Connection κ] [Connection κ'] {options : Options} {origin : Inflow κ}
  {origin' : Inflow κ'} {roles : FileRequester → FileCollector → Prop}
  {disks : Disk → Disk → Prop} {taken said : Bytes}
  {now : Running FileRequester FileCollector ς κ} {there : Running FileRequester FileCollector ς κ'}
  {root : Path} {files : List ListEntry} {peer : Peer}

section Parts

variable (abreast : Abreast options origin origin' roles disks taken said now there)

include abreast

theorem info_concurs (flag : InfoFlag) (level : UInt8) (message : String) :
    Concurs (info flag level message : Step _ _ ς κ Unit) now
      (info flag level message : Step _ _ ς κ' Unit) there
      fun _ => Abreast options origin origin' roles disks taken said :=
  .change { abreast with
    converses := .reported abreast.converses _
    converses' := .reported abreast.converses' _ }

theorem debug_concurs (flag : DebugFlag) (level : UInt8) (message : String) :
    Concurs (debug flag level message : Step _ _ ς κ Unit) now
      (debug flag level message : Step _ _ ς κ' Unit) there
      fun _ => Abreast options origin origin' roles disks taken said :=
  .change { abreast with
    converses := .reported abreast.converses _
    converses' := .reported abreast.converses' _ }

theorem warn_concurs (message : String) :
    Concurs (warn message : Step _ _ ς κ Unit) now (warn message : Step _ _ ς κ' Unit) there
      fun _ => Abreast options origin origin' roles disks taken said :=
  .change { abreast with
    converses := .reported abreast.converses _
    converses' := .reported abreast.converses' _ }

theorem options_concurs {α : Type} {rest : Options → Step FileRequester FileCollector ς κ α}
    {other : Options → Step FileRequester FileCollector ς κ' α}
    {done : α → Running FileRequester FileCollector ς κ →
      Running FileRequester FileCollector ς κ' → Prop}
    (next : Concurs (rest options) now (other options) there done) :
    Concurs (Running.options >>= rest) now (Running.options >>= other) there done := by
  change Concurs (rest now.endpoint.options) now (other there.endpoint.options) there done
  rw [abreast.here.asked, abreast.yonder.asked]
  exact next

theorem onSandbox_concurs (step : String) (action action' : EStateM Fault (Confining ς) Unit) :
    Concurs (onSandbox step root action : Step _ _ ς κ Unit) now
      (onSandbox step root action' : Step _ _ ς κ' Unit) there
      fun _ => Abreast options origin origin' roles disks taken said :=
  .explaining (.within (.blank fun _ _ _ _ =>
    { abreast with
      here := ⟨abreast.here.asked, abreast.here.prune, abreast.here.roles⟩
      yonder := ⟨abreast.yonder.asked, abreast.yonder.prune, abreast.yonder.roles⟩
      converses := .reported abreast.converses _
      converses' := .reported abreast.converses' _ }))

theorem send_concurs (step : String) {emission : Emission} (whole : emission.refusal = none) :
    Concurs (send step emission : Step _ _ ς κ Unit) now
      (send step emission : Step _ _ ς κ' Unit) there
      fun _ => Abreast options origin origin' roles disks taken (said ++ emission.bytes) :=
  .explaining (.within (.blank fun _ _ ran ran' =>
    { abreast with
      converses := abreast.converses.sends whole ran
      converses' := abreast.converses'.sends whole ran' }))

end Parts

theorem onHost_concurs {ε α : Type} {step : EStateM ε Host α} (unheard : Host.Unheard step)
    (abreast : Abreast options origin origin' roles Eq taken said now there) :
    Concurs (onHost step) now (onHost step) there
      fun _ => Abreast options origin origin' roles Eq taken said :=
  .within ((unheard _ _ abreast.disks).mono fun _ _ _ same =>
    { abreast with
      disks := same
      converses := .reported abreast.converses _
      converses' := .reported abreast.converses' _ })

/-- What is read from an honest peer is the same wherever the arrivals were cut. -/
theorem receive_concurs {α : Type} {requests : List Nat} {marks : Nat} (step : String)
    {action : EStateM Fault (Inflow κ) α} {action' : EStateM Fault (Inflow κ') α}
    {decode : EStateM Fault (Inflow ScriptedSource) α} (parses : Parses action decode)
    (parses' : Parses action' decode) (honest : peer.Honest options files origin)
    (honest' : peer.Honest options files origin') (asked : Requests files requests) (few : marks ≤ 3)
    (abreast : Abreast options origin origin' roles disks taken
      (bytes (word options requests marks)) now there) :
    Concurs (receive step action : Step _ _ ς κ α) now (receive step action' : Step _ _ ς κ' α) there
      fun _ after after' => ∃ more, Abreast options origin origin' roles disks (taken ++ more)
        (bytes (word options requests marks)) after after' := by
  refine .explaining (.within fun value inflow value' inflow' ran ran' => ?_)
  obtain ⟨more, took, spelled⟩ := parses _ _ _ ran
  obtain ⟨more', took', spelled'⟩ := parses' _ _ _ ran'
  have later := abreast.converses.takes took
  have later' := abreast.converses'.takes took'
  obtain ⟨rest, front⟩ := honest later asked few rfl
  obtain ⟨rest', front'⟩ := honest' later' asked few rfl
  rw [← front', List.append_assoc, List.append_assoc] at front
  obtain ⟨rfl, rfl⟩ := spelled.unique spelled' (List.append_cancel_left front)
  exact ⟨rfl, more, { abreast with converses := later, converses' := later' }⟩

/-- A run that is heard by an honest peer reads the list that the peer offers. -/
theorem receiveList_meets (offers : peer.Offers files) (honest : peer.Honest options files origin)
    (greeted : origin.Converses [] (bytes (greeting options)) now.inflow) :
    Meets (receiveList : Step _ _ ς κ (List ListEntry)) now
      (fun read after => read = files ∧ ∃ inflow, after = { now with inflow } ∧
        origin.Converses peer.list (bytes (greeting options)) inflow)
      (fun _ _ => True) := by
  have receives {α : Type} (step : String) (action : EStateM Fault (Inflow κ) α)
      (now : Running FileRequester FileCollector ς κ) :
      Meets (receive step action : Step _ _ ς κ α) now
        (fun value after => ∃ inflow, action now.inflow = .ok value inflow ∧
          after = { now with inflow })
        (fun _ _ => True) :=
    Meets.explaining (Meets.within
      ((Meets.ran action).mono (fun _ inflow ran => ⟨inflow, ran, rfl⟩) fun _ _ _ => trivial))
  refine (receives _ _ now).bind fun read _ met => ?_
  obtain ⟨inflow, ran, rfl⟩ := met
  refine (receives _ _ _).bind fun integrity _ met => ?_
  obtain ⟨inflow', ran', rfl⟩ := met
  refine Meets.cond (fun _ => Meets.throw trivial) fun _ => Meets.pure ?_
  obtain ⟨listed, took, spelled⟩ := FileList.read_parses _ _ _ ran
  obtain ⟨more, took', spelled'⟩ := Parses.readInt _ _ _ ran'
  have whole : Spells FileList.readWhole (read, integrity) (listed ++ (more ++ [])) :=
    spelled.bind (spelled'.bind .pure)
  rw [List.append_nil] at whole
  have later := (greeted.takes took).takes took'
  rw [List.nil_append] at later
  have nothing : Requests files [] := ⟨.nil, nofun⟩
  have silent : bytes (greeting options) = bytes (word options [] 0) := by simp [word]
  have front : listed ++ more <+: peer.list := by
    have front := honest later nothing (by decide) silent
    simpa [Peer.stream, Peer.replies, Peer.closing] using front
  obtain ⟨rfl, -, same⟩ := offers.list_unique whole front
  exact ⟨rfl, inflow', rfl, same ▸ later⟩

/-- Before the exchange the disks are the same. -/
abbrev Setting (options : Options) (peer : Peer) (origin : Inflow κ) (origin' : Inflow κ')
    (roles : FileRequester → FileCollector → Prop)
    (now : Running FileRequester FileCollector ς κ)
    (there : Running FileRequester FileCollector ς κ') : Prop :=
  Abreast options origin origin' roles Eq peer.list (bytes (greeting options)) now there

theorem makeRoot_concurs (setting : Setting options peer origin origin' roles now there) :
    Concurs (makeRoot root options files : Step _ _ ς κ _) now (makeRoot root options files) there
      fun found after after' => (∀ read, found = some read → read = files) ∧
        Setting options peer origin origin' roles after after' := by
  have makes {now : Running FileRequester FileCollector ς κ}
      {there : Running FileRequester FileCollector ς κ'}
      (setting : Setting options peer origin origin' roles now there) :
      Concurs (do
          info .misc 2 (root.display ++ ": receiver destination")
          if options.dryRun = false then onRoot "mkpath" root (Destination.makePath root)
          return some files : Step _ _ ς κ _) now (do
          info .misc 2 (root.display ++ ": receiver destination")
          if options.dryRun = false then onRoot "mkpath" root (Destination.makePath root)
          return some files) there
        fun found after after' => (∀ read, found = some read → read = files) ∧
          Setting options peer origin origin' roles after after' := by
    refine (info_concurs setting _ _ _).bind fun _ _ _ setting => ?_
    have only (read : List ListEntry) (same : some files = some read) : read = files :=
      (Option.some.inj same).symm
    refine .cond (fun _ => ?_) fun _ => .pure ⟨only, setting⟩
    exact (Concurs.explaining (onHost_concurs (.onDisk _) setting)).bind fun _ _ _ setting =>
      .pure ⟨only, setting⟩
  unfold makeRoot
  refine .cond (fun _ => ?_) fun _ => .cond (fun _ => ?_) fun _ => makes setting
  · exact (warn_concurs setting _).bind fun _ _ _ setting => .pure ⟨nofun, setting⟩
  · exact (info_concurs setting _ _ _).bind fun _ _ _ setting => makes setting

variable [Sandbox ς]

theorem prepare_concurs (offers : peer.Offers files) (honest : peer.Honest options files origin)
    (honest' : peer.Honest options files origin')
    (fresh : Abreast options origin origin' roles Eq [] [] now there) :
    Concurs (prepare root : Step _ _ ς κ _) now (prepare root) there
      fun found after after' => (∀ read, found = some read → read = files) ∧
        Setting options peer origin origin' roles after after' := by
  have listens {now : Running FileRequester FileCollector ς κ}
      {there : Running FileRequester FileCollector ς κ'}
      (greeted : Abreast options origin origin' roles Eq [] (bytes (greeting options)) now there) :
      Concurs (receiveList >>= makeRoot root options : Step _ _ ς κ _) now
        (receiveList >>= makeRoot root options) there
        fun found after after' => (∀ read, found = some read → read = files) ∧
          Setting options peer origin origin' roles after after' := by
    have lists : Concurs (receiveList : Step _ _ ς κ _) now receiveList there
        fun read after after' => read = files ∧
          Setting options peer origin origin' roles after after' := by
      refine .of_meets (receiveList_meets offers honest greeted.converses)
        (receiveList_meets offers honest' greeted.converses') ?_
      intro read _ read' _ met met'
      obtain ⟨rfl, inflow, rfl, converses⟩ := met
      obtain ⟨rfl, inflow', rfl, converses'⟩ := met'
      exact ⟨rfl, rfl, { greeted with converses, converses' }⟩
    refine lists.bind fun read _ _ met => ?_
    obtain ⟨rfl, setting⟩ := met
    exact makeRoot_concurs setting
  refine options_concurs fresh ?_
  refine (onSandbox_concurs fresh _ _ _).bind fun _ _ _ fresh => .cond (fun client => ?_) fun server => ?_
  · refine (send_concurs fresh _ rfl).bind fun _ _ _ greeted => listens ?_
    have greets : bytes (greeting options) = (Wire.writeInt 0).bytes := by
      simp [greeting, client, bytes, Wire.writeInt, Emission.write, Emission.bytes]
    rw [greets]
    exact greeted
  · have silent : bytes (greeting options) = [] := by
      simp [greeting, server, bytes]
    exact listens (silent ▸ fresh)

theorem opening_concurs (root : Path) (offers : peer.Offers files) (honest : peer.Honest options files origin)
    (honest' : peer.Honest options files origin')
    (spares : now.disk.Spares files) (fresh : Abreast options origin origin' roles Eq [] [] now there) :
    Concurs (opening root : Step _ _ ς κ _) now (opening root) there
      fun found after after' => (∀ task, found = some task → task.files = files) ∧
        Setting options peer origin origin' roles after after' ∧ after.disk.Spares files := by
  refine ((prepare_concurs offers honest honest' fresh).knowing (prepare_proceeds root now)).bind ?_
  intro found now there met
  obtain ⟨⟨only, setting⟩, proceeds, -⟩ := met
  have spares : now.disk.Spares files := spares.later proceeds.disk
  cases found with
  | none => exact .pure ⟨nofun, setting, spares⟩
  | some read =>
      have cleared : Setting options peer origin origin' roles (now.withUmask 0) (there.withUmask 0) :=
        { setting with disks := by rw [withUmask, withUmask, setting.disks] }
      have opens : Concurs (openRoot root : Step _ _ ς κ _) (now.withUmask 0) (openRoot root)
          (there.withUmask 0) fun _ after after' => Setting options peer origin origin' roles after after' := by
        refine options_concurs cleared (.cond (fun _ => .pure cleared) fun _ => ?_)
        exact (Concurs.explaining (onHost_concurs (.onDisk _) cleared)).bind fun _ _ _ setting =>
          .pure setting
      have reads : Keeps (Proceeds fun _ change => change.Quiet)
          (openRoot root : Step FileRequester FileCollector ς κ (Option Location)) :=
        openRoot_proceeds root
      have mask : now.disk.umask = there.disk.umask := congrArg Disk.umask setting.disks
      refine .get (.changeThen ((opens.knowing (reads _)).bind fun directory _ _ met => ?_))
      obtain ⟨setting, proceeds, -⟩ := met
      have cleared : (now.withUmask 0).disk.Spares files := spares
      rw [mask]
      refine .pure ⟨fun task same => ?_, setting, cleared.later proceeds.disk⟩
      cases same
      exact only read rfl

theorem makeReady_concurs {directory : Option Location}
    (setting : Setting options peer origin origin' roles now there) :
    Concurs (makeReady root directory files : Step _ _ ς κ _) now (makeReady root directory files)
      there fun _ => Setting options peer origin origin' roles := by
  have removes (found : List FoundEntry) {now : Running FileRequester FileCollector ς κ}
      {there : Running FileRequester FileCollector ς κ'} {endpoint endpoint' : Endpoint _ _ ς}
      (here : endpoint.Obeys options roles) (yonder : endpoint'.Obeys options roles)
      (setting : Setting options peer origin origin' roles now there) :
      Concurs (removeFound endpoint directory found files : Step _ _ ς κ _) now
        (removeFound endpoint' directory found files) there
        fun _ => Setting options peer origin origin' roles := by
    cases directory with
    | none => exact onHost_concurs (Destination.planRemovals_unheard _ _) setting
    | some directory =>
        unfold removeFound
        rw [here.prune, yonder.prune]
        exact onHost_concurs (Destination.pruneAll_unheard _ _ _) setting
  have clears : Concurs (clear root directory files : Step _ _ ς κ _) now
      (clear root directory files) there fun _ => Setting options peer origin origin' roles := by
    refine .get ?_
    dsimp only
    rw [setting.here.asked, setting.yonder.asked]
    refine .cond (fun _ => ?_) fun _ => .pure setting
    exact (onHost_concurs (Destination.contents_unheard root) setting).bind
      fun found _ _ later => removes found setting.here setting.yonder later
  refine clears.bind fun removals _ _ setting => ?_
  refine (onSandbox_concurs setting _ _ _).bind fun _ _ _ setting => ?_
  exact (info_concurs setting _ _ _).bind fun _ _ _ setting => .pure setting

end Running

end TreeSync
