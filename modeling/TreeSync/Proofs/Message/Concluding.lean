import TreeSync.Connection.Readiness
import TreeSync.Proofs.Message.Conversing
import TreeSync.Proofs.Stream.Decoding
import TreeSync.Totals

namespace TreeSync

/-! A peer that sends nothing but what ends a run.

It answers the first end mark with the end of the content, and the second with the
acknowledgement and its farewell. When and in which pieces the answers come is left open, and
so is what comes with them out of band.
-/

open TreeSync.Action

namespace Inflow

/-- What is answered to an end mark that comes after so many others. -/
def reply (farewell : Bytes) : Nat → Bytes
  | 0 => Wire.intBytes Wire.doneIndex
  | 1 => Wire.intBytes Wire.doneIndex ++ farewell
  | _ => []

/-- How a connection to such a peer behaves. `owes` tells how many end marks the peer has heard
and which of its answers are still to be read; `ready` holds when a wait has found something to
read. -/
structure Concludes {κ : Type} [Connection κ] (farewell : Bytes)
    (owes : Nat → Inflow κ → Bytes → Prop) (ready : Inflow κ → Prop) : Prop where
  /-- The peer takes each end mark. -/
  hears : ∀ {marks : Nat} {now : Inflow κ} {answers : Bytes}, owes marks now answers →
    ∃ source, (ByteSink.put (Wire.intBytes Wire.doneIndex) : EStateM Fault κ Unit) now.source =
        .ok () source ∧
      owes (marks + 1) { now with source } (answers ++ reply farewell marks) ∧
      (ready now → ready { now with source })
  /-- A read that asks for no more than was answered brings some of it, or may be tried again. -/
  brings : ∀ {marks limit : Nat} {now : Inflow κ} {answers : Bytes}, owes marks now answers →
    0 < limit → limit ≤ answers.length → Meets (ByteSource.read limit) now
      (fun got after => ∃ rest, answers = got ++ rest ∧ got ≠ [] ∧ owes marks after rest)
      (fun fault after => fault.isInterrupted = true ∧ owes marks after answers)
  /-- A wait does not fail, and one without a limit ends once an answer is there. -/
  wakes : ∀ {marks : Nat} {now : Inflow κ} {answers : Bytes} (timeout : Timeout),
    owes marks now answers → marks ≤ 1 → Meets (Connection.poll timeout none) now.source
      (fun signals source => owes marks { now with source } answers ∧
        ∃ inbound, Readiness.ofSignals signals.1 signals.2 = .ok { inbound } ∧
          (timeout = .indefinite → answers ≠ [] → inbound = true) ∧
          (inbound = true → ready { now with source }))
      (fun _ _ => False)
  /-- What there is to read on a plain stream are answers. -/
  plain : ∀ {marks : Nat} {now : Inflow κ} {answers : Bytes}, owes marks now answers →
    ready now → now.multiplexed = false → answers ≠ []
  /-- Otherwise it is a whole message, and if that has payload the payload is answers. -/
  flushes : ∀ {marks : Nat} {now : Inflow κ} {answers : Bytes}, owes marks now answers →
    ready now → now.multiplexed = true → Meets flush now
      (fun _ after => owes marks after answers ∧ (0 < after.remaining → answers ≠ []))
      (fun _ _ => False)
  reports : ∀ {marks : Nat} {now : Inflow κ} {answers : Bytes} (journal : Journal),
    owes marks now answers → owes marks { now with journal } answers ∧
      (ready now → ready { now with journal })

/-- Whether a peer behind the inflow only ends the run from here on. -/
def Concluding {κ : Type} [Connection κ] (farewell : Bytes) (heard : Inflow κ) : Prop :=
  ∃ (owes : Nat → Inflow κ → Bytes → Prop) (ready : Inflow κ → Prop),
    Concludes farewell owes ready ∧ owes 0 heard []

namespace Concludes

variable {κ : Type} [Connection κ] {farewell : Bytes} {owes : Nat → Inflow κ → Bytes → Prop}
  {ready : Inflow κ → Prop} (concludes : Concludes farewell owes ready)

include concludes

/-- A read for some of the answers brings the front of what it is for. -/
theorem read_front {marks wanted : Nat} {now : Inflow κ} {first rest : Bytes}
    (size : wanted = first.length) (positive : ¬ wanted = 0)
    (here : owes marks now (first ++ rest)) :
    Meets (ByteSource.read wanted) now
      (fun got after => ∃ later, first = got ++ later ∧ got ≠ [] ∧
        owes marks after (later ++ rest))
      (fun fault after => fault.isInterrupted = true ∧ owes marks after (first ++ rest)) := by
  have fits : wanted ≤ (first ++ rest).length := by
    rw [List.length_append]
    omega
  have reads := concludes.brings here (Nat.pos_of_ne_zero positive) fits
  refine Meets.intro (fun got after ran => ?_) fun fault after failed => reads.of_error failed
  obtain ⟨left, whole, present, there⟩ := reads.of_ok ran
  obtain ⟨later, rfl, rfl⟩ := piece_of_front whole (size ▸ ByteSource.read_length ran)
  exact ⟨later, rfl, present, there⟩

theorem readExact (marks : Nat) {wanted : Nat} {now : Inflow κ} {first rest : Bytes}
    (size : wanted = first.length) (here : owes marks now (first ++ rest)) :
    ∃ after, ByteSource.readExact wanted now = .ok first after ∧ owes marks after rest := by
  -- by the reads: the pieces make up what is wanted, and a read that was interrupted is repeated
  fun_induction ByteSource.readExact wanted now generalizing first with
  | case1 now =>
      cases List.eq_nil_of_length_eq_zero size.symm
      exact ⟨now, rfl, here⟩
  | case2 wanted now positive after ended =>
      obtain ⟨_, _, present, _⟩ := (concludes.read_front size positive here).of_ok ended
      exact absurd rfl present
  | case3 wanted now positive byte more after head tail final done ih =>
      obtain ⟨later, rfl, -, there⟩ := (concludes.read_front size positive here).of_ok head
      obtain ⟨final', ran, left⟩ := ih (by simp [size]) there
      cases done.symm.trans ran
      exact ⟨final, rfl, left⟩
  | case4 wanted now positive byte more after head fault final done ih =>
      obtain ⟨later, rfl, -, there⟩ := (concludes.read_front size positive here).of_ok head
      obtain ⟨final', ran, left⟩ := ih (by simp [size]) there
      cases done.symm.trans ran
  | case5 wanted now positive fault after failed again ih =>
      exact ih size ((concludes.read_front size positive here).of_error failed).2
  | case6 wanted now positive fault after failed final =>
      exact absurd ((concludes.read_front size positive here).of_error failed).1 final

theorem feeds (marks : Nat) : Feeds (owes marks) :=
  fun _ _ _ here => concludes.readExact marks rfl here

end Concludes

/-- What was written to such a peer, if since an earlier moment that was end marks alone. -/
def Marked {κ : Type} [Connection κ] (recording : Recording κ) (earlier : Bytes)
    (owes : Nat → Inflow κ → Bytes → Prop) (marks : Nat) (now : Inflow κ) (answers : Bytes) : Prop :=
  owes marks now answers ∧ recording.Since earlier now.source
    (List.replicate marks (Wire.intBytes Wire.doneIndex)).flatten

/-- Only end marks are written to a connection that such a peer behaves on. -/
theorem Concludes.records {κ : Type} [Connection κ] {farewell : Bytes}
    {owes : Nat → Inflow κ → Bytes → Prop} {ready : Inflow κ → Prop}
    (concludes : Concludes farewell owes ready) (recording : Recording κ) (earlier : Bytes) :
    Concludes farewell (Marked recording earlier owes) ready where
  hears := by
    rintro marks now answers ⟨owed, written⟩
    obtain ⟨source, put, heard, woke⟩ := concludes.hears owed
    refine ⟨source, put, ⟨heard, ?_⟩, woke⟩
    rw [List.replicate_succ', List.flatten_concat]
    exact (recording.adds earlier _ written).of_ok put
  brings := by
    rintro marks limit now answers ⟨owed, written⟩ positive fits
    have brings := concludes.brings owed positive fits
    have silent := read_draws (Recording.same recording.written) recording.reads limit now
    refine Meets.intro (fun got after ran => ?_) fun fault after failed => ?_
    · obtain ⟨rest, whole, present, left⟩ := brings.of_ok ran
      exact ⟨rest, whole, present, left, ((silent.of_ok ran).1.source).trans written⟩
    · obtain ⟨again, left⟩ := brings.of_error failed
      exact ⟨again, left, ((silent.of_error failed).source).trans written⟩
  wakes := by
    rintro marks now answers timeout ⟨owed, written⟩ few
    have wakes := concludes.wakes timeout owed few
    refine Meets.intro (fun signals source ran => ?_) fun fault source failed =>
      wakes.of_error failed
    obtain ⟨left, judged⟩ := wakes.of_ok ran
    exact ⟨⟨left, ((recording.polls timeout none).of_ok ran).trans written⟩, judged⟩
  plain owed := concludes.plain owed.1
  flushes := by
    rintro marks now answers ⟨owed, written⟩ found framed
    have flushes := concludes.flushes owed found framed
    have silent := flush_draws (Recording.same recording.written) recording.reads
    refine Meets.intro (fun _ after ran => ?_) fun fault after failed => flushes.of_error failed
    obtain ⟨left, payload⟩ := flushes.of_ok ran
    exact ⟨⟨left, ((silent.of_ok ran).source).trans written⟩, payload⟩
  reports := by
    rintro marks now answers journal ⟨owed, written⟩
    obtain ⟨left, woke⟩ := concludes.reports journal owed
    exact ⟨⟨left, written⟩, woke⟩

end Inflow

end TreeSync
