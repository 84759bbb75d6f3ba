import TreeSync.Fault

namespace TreeSync

/-! Sources of bytes, and reading exactly as many as are wanted.

A source answers each read with at most as many bytes as were asked for, and with
none at the end of the stream; a read may fail, and one that was interrupted may
be tried again. `budget` bounds the bytes and the interruptions still to come, so
that whoever keeps reading comes to an end.
-/

class ByteSource (σ : Type) where
  read : (limit : Nat) → EStateM Fault σ Bytes
  budget : σ → Nat
  read_length : ∀ {limit : Nat} {before after : σ} {bytes : Bytes},
    read limit before = .ok bytes after → bytes.length ≤ limit
  read_budget : ∀ {limit : Nat} {before after : σ} {bytes : Bytes},
    read limit before = .ok bytes after → budget after + bytes.length ≤ budget before
  fault_budget : ∀ {limit : Nat} {before after : σ} {fault : Fault},
    read limit before = .error fault after →
      budget after + (if fault.isInterrupted then 1 else 0) ≤ budget before

namespace ByteSource

variable {σ : Type} [ByteSource σ]

theorem budget_lt_of_read {limit : Nat} {before after : σ} {byte : UInt8} {rest : Bytes}
    (done : read limit before = .ok (byte :: rest) after) : budget after < budget before := by
  have bound := read_budget done
  simp only [List.length_cons] at bound
  omega

theorem budget_lt_of_interrupted {limit : Nat} {before after : σ} {fault : Fault}
    (failed : read limit before = .error fault after) (again : fault.isInterrupted = true) :
    budget after < budget before := by
  have bound := fault_budget failed
  simp only [again, if_true] at bound
  omega

/-- Reads `wanted` bytes, in as many reads as it takes. Interrupted reads are
tried again; the bytes read before a failure are gone. -/
def readExact (wanted : Nat) (source : σ) : EStateM.Result Fault σ Bytes :=
  if wanted = 0 then .ok [] source
  else
    match _done : read wanted source with
    | .ok [] after => .error .endOfStream after
    | .ok (byte :: rest) after =>
        match readExact (wanted - (byte :: rest).length) after with
        | .ok more final => .ok (byte :: rest ++ more) final
        | .error fault final => .error fault final
    | .error fault after =>
        if _again : fault.isInterrupted then readExact wanted after else .error fault after
termination_by budget source
decreasing_by
  · exact budget_lt_of_read _done
  · exact budget_lt_of_interrupted _done _again

/-- Reads up to `wanted` bytes, fewer only where the stream ends first. -/
def readUpTo (wanted : Nat) (source : σ) : EStateM.Result Fault σ Bytes :=
  if wanted = 0 then .ok [] source
  else
    match _done : read wanted source with
    | .ok [] after => .ok [] after
    | .ok (byte :: rest) after =>
        match readUpTo (wanted - (byte :: rest).length) after with
        | .ok more final => .ok (byte :: rest ++ more) final
        | .error fault final => .error fault final
    | .error fault after =>
        if _again : fault.isInterrupted then readUpTo wanted after else .error fault after
termination_by budget source
decreasing_by
  · exact budget_lt_of_read _done
  · exact budget_lt_of_interrupted _done _again

theorem readExact_length {wanted : Nat} {before after : σ} {bytes : Bytes}
    (done : readExact wanted before = .ok bytes after) : bytes.length = wanted := by
  fun_induction readExact wanted before generalizing bytes after with
  | case1 =>
      cases done
      simp_all
  | case2 => cases done
  | case3 wanted source _ byte rest next first more final tail ih =>
      cases done
      have short := read_length first
      have longer := ih tail
      simp only [List.length_cons] at short
      simp only [List.cons_append, List.length_cons, List.length_append, longer]
      omega
  | case4 => cases done
  | case5 _ _ _ _ _ _ _ ih => exact ih done
  | case6 => cases done

theorem readExact_budget {wanted : Nat} {before after : σ} {bytes : Bytes}
    (done : readExact wanted before = .ok bytes after) :
    budget after + wanted ≤ budget before := by
  fun_induction readExact wanted before generalizing bytes after with
  | case1 =>
      cases done
      simp_all
  | case2 => cases done
  | case3 wanted source _ byte rest next first more final tail ih =>
      cases done
      have spent := read_budget first
      have later := ih tail
      simp only [List.length_cons] at spent later
      omega
  | case4 => cases done
  | case5 _ _ _ _ _ failed again ih =>
      have spent := budget_lt_of_interrupted failed again
      have later := ih done
      omega
  | case6 => cases done

/-- A failure of a whole read is final, and gives back none of the budget. -/
theorem readExact_fault {wanted : Nat} {before after : σ} {fault : Fault}
    (failed : readExact wanted before = .error fault after) :
    fault.isInterrupted = false ∧ budget after ≤ budget before := by
  fun_induction readExact wanted before generalizing fault after with
  | case1 => cases failed
  | case2 wanted source _ next ended =>
      cases failed
      have spent := read_budget ended
      exact ⟨rfl, by simp only [List.length_nil] at spent; omega⟩
  | case3 => cases failed
  | case4 wanted source _ byte rest next first cause final tail ih =>
      cases failed
      have spent := read_budget first
      have later := ih tail
      exact ⟨later.1, by omega⟩
  | case5 _ _ _ _ _ interrupted again ih =>
      have spent := budget_lt_of_interrupted interrupted again
      have later := ih failed
      exact ⟨later.1, by omega⟩
  | case6 wanted source _ cause next first final =>
      cases failed
      have spent := fault_budget first
      exact ⟨by simpa using final, by omega⟩

/-- Whenever the action succeeds, it has used up at least `least` of the budget. -/
structure Spends (least : Nat) (action : EStateM Fault σ α) : Prop where
  budget_le : ∀ {before after : σ} {value : α},
    action before = .ok value after → budget after + least ≤ budget before

namespace Spends

theorem pure (value : α) : Spends 0 (Pure.pure value : EStateM Fault σ α) where
  budget_le done := by
    cases done
    exact Nat.le_refl _

theorem throw (least : Nat) (fault : Fault) :
    Spends least (MonadExcept.throw fault : EStateM Fault σ α) where
  budget_le done := by cases done

theorem bind {least : Nat} {action : EStateM Fault σ α} {next : α → EStateM Fault σ β}
    (first : Spends least action) (second : ∀ value, Spends 0 (next value)) :
    Spends least (action >>= next) where
  budget_le {before after result} done := by
    change EStateM.bind action next before = .ok result after at done
    unfold EStateM.bind at done
    split at done
    · next value middle taken =>
      have spent := first.budget_le taken
      have later := (second value).budget_le done
      omega
    · cases done

theorem weaken {least less : Nat} {action : EStateM Fault σ α}
    (spends : Spends least action) (fewer : less ≤ least) : Spends less action where
  budget_le done := by
    have spent := spends.budget_le done
    omega

theorem any {least : Nat} {action : EStateM Fault σ α} (spends : Spends least action) :
    Spends 0 action :=
  spends.weaken (Nat.zero_le _)

end Spends

theorem readExact_spends (wanted : Nat) :
    Spends wanted (readExact wanted : EStateM Fault σ Bytes) :=
  ⟨readExact_budget⟩

end ByteSource

inductive PlannedRead where
  | atMost (limit : Nat)
  | fails (fault : Fault)

/-- A source whose reads follow a script, and run free once it is used up. -/
structure ScriptedSource where
  pending : Bytes
  plan : List PlannedRead := []

namespace ScriptedSource

def read (limit : Nat) : EStateM Fault ScriptedSource Bytes := fun source =>
  match source.plan with
  | [] => .ok (source.pending.take limit) { source with pending := source.pending.drop limit }
  | .atMost most :: rest =>
      .ok (source.pending.take (min limit most)) ⟨source.pending.drop (min limit most), rest⟩
  | .fails fault :: rest => .error fault { source with plan := rest }

instance : ByteSource ScriptedSource where
  read := read
  budget source := source.pending.length + source.plan.length
  read_length {limit before after bytes} done := by
    simp only [read] at done
    split at done
    · cases done
      simp only [List.length_take]
      omega
    · cases done
      simp only [List.length_take]
      omega
    · cases done
  read_budget {limit before after bytes} done := by
    simp only [read] at done
    split at done
    · cases done
      simp only [List.length_take, List.length_drop]
      omega
    · next most rest plan =>
      cases done
      simp only [List.length_take, List.length_drop, plan, List.length_cons]
      omega
    · cases done
  fault_budget {limit before after fault} failed := by
    simp only [read] at failed
    split at failed
    · cases failed
    · cases failed
    · next cause rest plan =>
      cases failed
      simp only [plan, List.length_cons]
      split <;> omega

end ScriptedSource

end TreeSync
