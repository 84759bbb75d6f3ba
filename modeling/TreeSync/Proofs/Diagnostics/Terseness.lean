import TreeSync.Connection.Readiness
import TreeSync.Host
import TreeSync.Proofs.Message.Mirrored

namespace TreeSync

/-! Journals of which one reports less than the other.

A journal is terser than another if no category is set to a higher level in it, and if the
other holds all that it holds, in order. Whatever is reported to both, it stays so. Steps on
states that carry a journal are then compared from states that are the same but for that.
-/

open TreeSync.Action

/-- No category is set to a higher level in the first than in the second. -/
structure Verbosity.Within (terse full : Verbosity) : Prop where
  info : ∀ flag, terse.info flag ≤ full.info flag
  debug : ∀ flag, terse.debug flag ≤ full.debug flag

/-- Another switch never lowers a category. -/
theorem Verbosity.ofCount_within {fewer more : UInt8} (fewerLe : fewer ≤ more) :
    (ofCount fewer).Within (ofCount more) := by
  refine ⟨fun flag => ?_, fun flag => ?_⟩
  · cases flag <;> simp only [ofCount] <;> grind
  · cases flag <;> simp only [ofCount] <;> grind

namespace Journal

structure Terser (terse full : Journal) : Prop where
  verbosity : terse.verbosity.Within full.verbosity
  events : terse.events.Sublist full.events

namespace Terser

variable {terse full : Journal}

theorem keep (terser : terse.Terser full) (event : Event) :
    (terse.keep event).Terser (full.keep event) where
  verbosity := terser.verbosity
  events := terser.events.append (.refl [event])

/-- The fuller journal may keep what the other one drops. -/
theorem drop (terser : terse.Terser full) (event : Event) : terse.Terser (full.keep event) where
  verbosity := terser.verbosity
  events := terser.events.trans (List.sublist_append_left full.events [event])

theorem warn (terser : terse.Terser full) (message : String) :
    (terse.warn message).Terser (full.warn message) :=
  terser.keep (.warning message)

theorem info (terser : terse.Terser full) (flag : InfoFlag) (level : UInt8) (message : String) :
    (terse.info flag level message).Terser (full.info flag level message) := by
  have higher := terser.verbosity.info flag
  unfold Journal.info showsInfo
  by_cases shown : level ≤ terse.verbosity.info flag
  · simp only [shown, UInt8.le_trans shown higher, decide_true, if_true]
    exact terser.keep _
  · simp only [shown, decide_false, Bool.false_eq_true, if_false]
    split
    · exact terser.drop _
    · exact terser

theorem debug (terser : terse.Terser full) (flag : DebugFlag) (level : UInt8) (message : String) :
    (terse.debug flag level message).Terser (full.debug flag level message) := by
  have higher := terser.verbosity.debug flag
  unfold Journal.debug showsDebug
  by_cases shown : level ≤ terse.verbosity.debug flag
  · simp only [shown, UInt8.le_trans shown higher, decide_true, if_true]
    exact terser.keep _
  · simp only [shown, decide_false, Bool.false_eq_true, if_false]
    split
    · exact terser.drop _
    · exact terser

theorem route (terser : terse.Terser full) (code : MessageCode) (payload : Bytes) :
    (terse.route code payload).Terser (full.route code payload) := by
  cases code with
  | data | noOp => exact terser
  | ioError | errorXfer | error | warning | errorSocket => exact terser.warn _
  | info | log | client => exact terser.info _ _ _

end Terser

end Journal

/-- A state that carries a journal. -/
class Journaled (σ : Type) where
  journal : σ → Journal
  reporting : σ → Journal → σ

namespace Journaled

variable {σ : Type} [Journaled σ]

/-- States that are the same but for their journals, the first of which is terser. -/
def Muted (now there : σ) : Prop :=
  ∃ full, (journal now).Terser full ∧ there = reporting now full

/-- A change of what is not the journal. -/
theorem change_mirrors {ε : Type} {change : σ → σ}
    (apart : ∀ state full, change (reporting state full) = reporting (change state) full)
    (silent : ∀ state, journal (change state) = journal state) :
    Mirrors Muted (modify change : EStateM ε σ Unit) (modify change) := by
  refine .change ?_
  rintro now _ ⟨full, terser, rfl⟩
  exact ⟨full, (silent now).symm ▸ terser, apart now full⟩

end Journaled

open Journaled

instance : Journaled Host := ⟨Host.journal, fun host journal => { host with journal }⟩

instance {σ : Type} : Journaled (Inflow σ) :=
  ⟨Inflow.journal, fun inflow journal => { inflow with journal }⟩

namespace Host

variable {ε α : Type}

theorem onDisk_mirrors (step : EStateM ε Disk α) : Mirrors Muted (onDisk step) (onDisk step) := by
  refine (Mirrors.same step).within ?_ ?_
  · rintro now _ ⟨full, -, rfl⟩
    rfl
  · rintro now _ disk _ ⟨full, terser, rfl⟩ rfl
    exact ⟨full, terser, rfl⟩

theorem info_mirrors (flag : InfoFlag) (level : UInt8) (message : String) :
    Mirrors Muted (info flag level message : EStateM ε Host Unit) (info flag level message) := by
  refine .change ?_
  rintro now _ ⟨full, terser, rfl⟩
  exact ⟨_, terser.info flag level message, rfl⟩

theorem debug_mirrors (flag : DebugFlag) (level : UInt8) (message : String) :
    Mirrors Muted (debug flag level message : EStateM ε Host Unit) (debug flag level message) := by
  refine .change ?_
  rintro now _ ⟨full, terser, rfl⟩
  exact ⟨_, terser.debug flag level message, rfl⟩

end Host

namespace Inflow

variable {σ : Type}

theorem deliver_mirrors (code : MessageCode) (payload : Bytes) :
    Mirrors Muted (deliver code payload : EStateM Fault (Inflow σ) Unit) (deliver code payload) := by
  rintro now _ ⟨full, terser, rfl⟩
  obtain ⟨source, multiplexed, remaining, handler, journal⟩ := now
  cases handler with
  | none => exact .ok () ⟨_, terser.route code payload, rfl⟩
  | some handler =>
      simp only [deliver, reporting]
      cases handler.refuses code payload with
      | none => exact .ok () ⟨full, terser, rfl⟩
      | some fault => exact .error fault ⟨full, terser, rfl⟩

theorem debug_muted {now there : Inflow σ} (held : Muted now there) (flag : DebugFlag)
    (level : UInt8) (message : String) :
    Muted { now with journal := now.journal.debug flag level message }
      { there with journal := there.journal.debug flag level message } := by
  obtain ⟨full, terser, rfl⟩ := held
  exact ⟨_, terser.debug flag level message, rfl⟩

theorem overlooks_reports : Overlooks (Muted (σ := Inflow σ)) where
  same := by
    rintro now _ ⟨full, -, rfl⟩
    exact ⟨now.handler, full, rfl⟩
  moves := by
    rintro now _ ⟨full, terser, rfl⟩ source remaining
    exact ⟨full, terser, rfl⟩
  delivers := deliver_mirrors

theorem answers_muted [ByteSource σ] : ByteSource.Answers (Muted (σ := Inflow σ)) :=
  overlooks_reports.read

end Inflow

end TreeSync
