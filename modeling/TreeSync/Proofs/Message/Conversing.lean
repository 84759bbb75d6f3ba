import TreeSync.Proofs.Message.Taking
import TreeSync.Proofs.Stream.Sending

namespace TreeSync

/-! Both directions of a connection between two moments.

A conversation tells what payload was taken from the inbound side and what was sent on the
outbound side, in the order in which either could depend on the other.
-/

open TreeSync.Action

namespace Inflow

variable {κ : Type} [Connection κ] {first middle now : Inflow κ} {taken more said further : Bytes}

/-- What was done on a connection: payload was read, messages were dealt with, bytes were
sent, and there were waits in between. -/
inductive Converses (first : Inflow κ) : Bytes → Bytes → Inflow κ → Prop
  | start : Converses first [] [] first
  | read {now after : Inflow κ} {taken said bytes : Bytes} {limit : Nat}
      (earlier : Converses first taken said now)
      (done : ByteSource.read limit now = .ok bytes after) :
      Converses first (taken ++ bytes) said after
  | retried {now after : Inflow κ} {taken said : Bytes} {limit : Nat} {fault : Fault}
      (earlier : Converses first taken said now)
      (failed : ByteSource.read limit now = .error fault after)
      (again : fault.isInterrupted = true) : Converses first taken said after
  | flushed {now after : Inflow κ} {taken said : Bytes} (earlier : Converses first taken said now)
      (done : flush now = .ok () after) : Converses first taken said after
  | reported {now : Inflow κ} {taken said : Bytes} (earlier : Converses first taken said now)
      (journal : Journal) : Converses first taken said { now with journal }
  | wrote {now : Inflow κ} {source : κ} {taken said bytes : Bytes}
      (earlier : Converses first taken said now)
      (done : (ByteSink.put bytes : EStateM Fault κ Unit) now.source = .ok () source) :
      Converses first taken (said ++ bytes) { now with source }
  | waited {now : Inflow κ} {source : κ} {taken said : Bytes} {timeout : Timeout}
      {beside : Option Descriptor} {signals : Signals × Option Signals}
      (earlier : Converses first taken said now)
      (done : Connection.poll timeout beside now.source = .ok signals source) :
      Converses first taken said { now with source }

namespace Converses

theorem takes (earlier : Converses first taken said middle) (later : middle.Takes more now) :
    Converses first (taken ++ more) said now := by
  induction later with
  | nothing => rwa [List.append_nil]
  | read _ done ih =>
      rw [← List.append_assoc]
      exact .read ih done
  | retried _ failed again ih => exact .retried ih failed again
  | reported _ journal ih => exact .reported ih journal

/-- A conversation as the outbound side of the connection sees it. -/
def From (first : Inflow κ) (taken : Bytes) (now : Inflow κ) (source : κ) (said : Bytes) : Prop :=
  Converses first taken said { now with source }

/-- Sending goes on with a conversation, if it succeeds. -/
theorem adds (first : Inflow κ) (taken : Bytes) (now : Inflow κ) :
    ByteSink.Adds (From first taken now) fun _ _ => True := by
  intro before said bytes held
  exact (Meets.ran _).mono (fun _ _ done => held.wrote done) fun _ _ _ => trivial

theorem sends {emission : Emission} {source : κ} (earlier : Converses first taken said now)
    (whole : emission.refusal = none) (done : emission.send now.source = .ok () source) :
    Converses first taken (said ++ emission.bytes) { now with source } := by
  have held : From first taken now now.source said := earlier
  exact (Emission.send_meets (adds first taken now) whole held).of_ok done

end Converses

end Inflow

/-- A way to tell of a connection what was written to it so far. -/
structure Recording (κ : Type) [Connection κ] where
  written : κ → Bytes
  puts : ∀ {before after : κ} {bytes : Bytes},
    (ByteSink.put bytes : EStateM Fault κ Unit) before = .ok () after →
      written after = written before ++ bytes
  reads : ByteSource.Respects fun before after => written after = written before
  polls : ∀ timeout beside, Keeps (fun before after => written after = written before)
    (Connection.poll timeout beside : EStateM Fault κ (Signals × Option Signals))

theorem Recording.same (written : κ → Bytes) :
    Accumulates fun before after => written after = written before :=
  ⟨fun _ => rfl, fun earlier later => later.trans earlier⟩

/-- What was written since an earlier moment. -/
def Recording.Since {κ : Type} [Connection κ] (recording : Recording κ) (earlier : Bytes)
    (source : κ) (said : Bytes) : Prop :=
  recording.written source = earlier ++ said

theorem Recording.adds {κ : Type} [Connection κ] (recording : Recording κ) (earlier : Bytes) :
    ByteSink.Adds (recording.Since earlier) fun _ _ => True := by
  intro before said bytes held
  refine Meets.intro (fun _ after done => ?_) fun _ _ _ => trivial
  exact (recording.puts done).trans (by rw [held, List.append_assoc])

/-- What was written in a conversation is what it tells. -/
theorem Inflow.Converses.written {κ : Type} [Connection κ] {first now : Inflow κ}
    {taken said : Bytes} (converses : Converses first taken said now) (recording : Recording κ) :
    recording.written now.source = recording.written first.source ++ said := by
  have trans := Recording.same recording.written
  have draws := Inflow.read_draws trans recording.reads
  induction converses with
  | start => rw [List.append_nil]
  | read _ done ih => rw [((draws _).of_ok done).source, ih]
  | retried _ failed _ ih => rw [((draws _).of_error failed).source, ih]
  | flushed _ done ih =>
      rw [((Inflow.flush_draws trans recording.reads).of_ok done).source, ih]
  | reported _ _ ih => exact ih
  | wrote _ done ih => rw [recording.puts done, ih, List.append_assoc]
  | waited _ done ih => rw [(recording.polls _ _).of_ok done, ih]

end TreeSync
