import TreeSync.Message.Inflow
import TreeSync.Proofs.Stream.Numbers

namespace TreeSync

/-! What was taken from an inflow between two moments. -/

namespace Inflow

open ByteSource

variable {σ : Type} [ByteSource σ] {first second third : Inflow σ} {taken more : Bytes}

/-- Reads that returned `taken` in all, interrupted ones in between, and reports. -/
inductive Takes : Inflow σ → Bytes → Inflow σ → Prop
  | nothing {inflow : Inflow σ} : Takes inflow [] inflow
  | read {first second third : Inflow σ} {taken bytes : Bytes} {limit : Nat}
      (earlier : Takes first taken second) (done : ByteSource.read limit second = .ok bytes third) :
      Takes first (taken ++ bytes) third
  | retried {first second third : Inflow σ} {taken : Bytes} {limit : Nat} {fault : Fault}
      (earlier : Takes first taken second) (failed : ByteSource.read limit second = .error fault third)
      (again : fault.isInterrupted = true) : Takes first taken third
  | reported {first second : Inflow σ} {taken : Bytes} (earlier : Takes first taken second)
      (journal : Journal) : Takes first taken { second with journal }

theorem Takes.trans (earlier : Takes first taken second) (later : Takes second more third) :
    Takes first (taken ++ more) third := by
  induction later with
  | nothing => rwa [List.append_nil]
  | read _ done ih =>
      rw [← List.append_assoc]
      exact .read ih done
  | retried _ failed again ih => exact .retried ih failed again
  | reported _ journal ih => exact .reported ih journal

theorem readExact_takes {wanted : Nat} (done : readExact wanted first = .ok taken second) :
    Takes first taken second := by
  fun_induction readExact wanted first generalizing taken second with
  | case1 =>
      cases done
      exact .nothing
  | case2 => cases done
  | case3 wanted source _ byte rest next head more final tail ih =>
      cases done
      have start : Takes source (byte :: rest) next := .read .nothing head
      exact start.trans (ih tail)
  | case4 => cases done
  | case5 wanted source _ fault next failed again ih =>
      have start : Takes source [] next := .retried .nothing failed again
      exact start.trans (ih done)
  | case6 => cases done

theorem readUpTo_takes {wanted : Nat} (done : readUpTo wanted first = .ok taken second) :
    Takes first taken second := by
  fun_induction readUpTo wanted first generalizing taken second with
  | case1 =>
      cases done
      exact .nothing
  | case2 wanted source _ next ended =>
      cases done
      exact .read .nothing ended
  | case3 wanted source _ byte rest next head more final tail ih =>
      cases done
      have start : Takes source (byte :: rest) next := .read .nothing head
      exact start.trans (ih tail)
  | case4 => cases done
  | case5 wanted source _ fault next failed again ih =>
      have start : Takes source [] next := .retried .nothing failed again
      exact start.trans (ih done)
  | case6 => cases done

theorem readInt_takes {value : Int32} (done : Wire.readInt first = .ok value second) :
    Takes first (Wire.intBytes value) second := by
  unfold Wire.readInt at done
  change EStateM.bind _ _ first = _ at done
  unfold EStateM.bind at done
  split at done
  · next bytes after ran =>
    cases done
    rw [Wire.intBytes_intOfBytes (readExact_length ran)]
    exact readExact_takes ran
  · cases done

end Inflow

end TreeSync
