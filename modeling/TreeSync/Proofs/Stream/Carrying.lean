import TreeSync.Proofs.Outcomes
import TreeSync.Stream.Source

namespace TreeSync

/-! Sources that bring bytes in pieces of any size, interrupted or not.

What is read from such a source in whole depends on its bytes alone.
-/

open TreeSync.Action ByteSource

variable {σ τ α β : Type} [ByteSource σ] [ByteSource τ]

/-- A piece of what comes that is no longer than the front of it is a piece of that front. -/
theorem piece_of_front {first rest got later : Bytes} (whole : first ++ rest = got ++ later)
    (short : got.length ≤ first.length) :
    ∃ left, first = got ++ left ∧ later = left ++ rest := by
  have front : got <+: first :=
    List.prefix_of_prefix_length_le ⟨later, whole.symm⟩ ⟨rest, rfl⟩ short
  obtain ⟨left, rfl⟩ := front
  rw [List.append_assoc] at whole
  exact ⟨left, rfl, (List.append_cancel_left whole).symm⟩

/-- Reads bring the bytes that a source stands for, in order and to the end. -/
structure Serves (stands : σ → Bytes → Prop) : Prop where
  read : ∀ {source : σ} {bytes : Bytes} {limit : Nat}, stands source bytes → 0 < limit →
    Meets (ByteSource.read limit) source
      (fun got after => ∃ rest, bytes = got ++ rest ∧ stands after rest ∧ (got = [] → rest = []))
      (fun fault after => fault.isInterrupted = true ∧ stands after bytes)

/-- A source that brings `bytes` and then ends. -/
def Carries (source : σ) (bytes : Bytes) : Prop :=
  ∃ stands : σ → Bytes → Prop, Serves stands ∧ stands source bytes

theorem Carries.serves : Serves (Carries (σ := σ)) where
  read {source bytes limit} carries positive := by
    obtain ⟨stands, serves, here⟩ := carries
    refine (serves.read here positive).mono ?_ ?_
    · intro got after met
      obtain ⟨rest, whole, there, last⟩ := met
      exact ⟨rest, whole, ⟨stands, serves, there⟩, last⟩
    · intro fault after met
      exact ⟨met.1, stands, serves, met.2⟩

namespace Serves

variable {stands : σ → Bytes → Prop} {source : σ} {bytes : Bytes}

theorem ended (serves : Serves stands) {limit : Nat} {after : σ} (here : stands source bytes)
    (positive : 0 < limit) (done : ByteSource.read limit source = .ok [] after) : bytes = [] := by
  obtain ⟨rest, whole, _, last⟩ := (serves.read here positive).of_ok done
  rw [whole, last rfl, List.append_nil]

/-- Whole reads get all they want, or find the end. -/
theorem readExact (serves : Serves stands) (wanted : Nat) (here : stands source bytes) :
    Meets (ByteSource.readExact wanted) source
      (fun got after => wanted ≤ bytes.length ∧ got = bytes.take wanted ∧
        stands after (bytes.drop wanted))
      (fun fault _ => bytes.length < wanted ∧ fault = .endOfStream) := by
  unfold Meets
  -- by the reads: the pieces make up the front of what is carried
  fun_induction ByteSource.readExact wanted source generalizing bytes with
  | case1 source => exact ⟨Nat.zero_le _, by simp, by simpa using here⟩
  | case2 wanted source positive after ended =>
      have nothing := serves.ended here (Nat.pos_of_ne_zero positive) ended
      exact ⟨by rw [nothing]; exact Nat.pos_of_ne_zero positive, rfl⟩
  | case3 wanted source positive byte rest after first more final tail ih =>
      obtain ⟨left, rfl, there, _⟩ := (serves.read here (Nat.pos_of_ne_zero positive)).of_ok first
      have short := read_length first
      have later := ih there
      rw [tail] at later
      obtain ⟨enough, same, stays⟩ := later
      refine ⟨?_, ?_, ?_⟩
      · rw [List.length_append]
        omega
      · rw [List.take_append, List.take_of_length_le short, same]
      · rw [List.drop_append, List.drop_of_length_le short, List.nil_append]
        exact stays
  | case4 wanted source positive byte rest after first fault final tail ih =>
      obtain ⟨left, rfl, there, _⟩ := (serves.read here (Nat.pos_of_ne_zero positive)).of_ok first
      have short := read_length first
      have later := ih there
      rw [tail] at later
      obtain ⟨few, same⟩ := later
      refine ⟨?_, same⟩
      rw [List.length_append]
      omega
  | case5 wanted source positive fault after failed again ih =>
      exact ih ((serves.read here (Nat.pos_of_ne_zero positive)).of_error failed).2
  | case6 wanted source positive fault after failed final =>
      have again := ((serves.read here (Nat.pos_of_ne_zero positive)).of_error failed).1
      exact absurd again final

theorem readExact_front (serves : Serves stands) {first rest : Bytes} {wanted : Nat}
    (size : wanted = first.length) (here : stands source (first ++ rest)) :
    ∃ after, ByteSource.readExact wanted source = .ok first after ∧ stands after rest := by
  have whole := serves.readExact wanted here
  subst size
  unfold Meets at whole
  split at whole
  · next got after ran =>
    obtain ⟨_, rfl, there⟩ := whole
    rw [List.take_left] at ran
    rw [List.drop_left] at there
    exact ⟨after, ran, there⟩
  · next fault after ran =>
    have less := whole.1
    rw [List.length_append] at less
    omega

end Serves

/-! Steps on two sources that stand for the same bytes. -/

/-- Two results with the same value or the same failure; after a success both sources stand
for the same bytes again. -/
def Alike (stands : σ → Bytes → Prop) (stands' : τ → Bytes → Prop)
    (first : EStateM.Result Fault σ α) (second : EStateM.Result Fault τ α) : Prop :=
  match first, second with
  | .ok value after, .ok value' after' =>
      value = value' ∧ ∃ rest, stands after rest ∧ stands' after' rest
  | .error fault _, .error fault' _ => fault = fault'
  | _, _ => False

/-- Steps whose results are alike wherever the same bytes are to come. -/
def Agree (stands : σ → Bytes → Prop) (stands' : τ → Bytes → Prop)
    (first : EStateM Fault σ α) (second : EStateM Fault τ α) : Prop :=
  ∀ source source' bytes, stands source bytes → stands' source' bytes →
    Alike stands stands' (first source) (second source')

namespace Agree

variable {stands : σ → Bytes → Prop} {stands' : τ → Bytes → Prop}

omit [ByteSource σ] [ByteSource τ] in
theorem of_ok {first : EStateM Fault σ α} {second : EStateM Fault τ α} {source after : σ}
    {source' : τ} {bytes : Bytes} {value : α} (agree : Agree stands stands' first second)
    (here : stands source bytes) (there : stands' source' bytes)
    (ran : first source = .ok value after) :
    ∃ after' rest, second source' = .ok value after' ∧ stands after rest ∧ stands' after' rest := by
  have alike := agree source source' bytes here there
  unfold Alike at alike
  rw [ran] at alike
  cases ran' : second source' with
  | ok value' after' =>
      rw [ran'] at alike
      obtain ⟨rfl, rest, stays, stays'⟩ := alike
      exact ⟨after', rest, rfl, stays, stays'⟩
  | error fault after' =>
      rw [ran'] at alike
      exact alike.elim

omit [ByteSource σ] [ByteSource τ] in
theorem of_error {first : EStateM Fault σ α} {second : EStateM Fault τ α} {source after : σ}
    {source' : τ} {bytes : Bytes} {fault : Fault} (agree : Agree stands stands' first second)
    (here : stands source bytes) (there : stands' source' bytes)
    (ran : first source = .error fault after) : ∃ after', second source' = .error fault after' := by
  have alike := agree source source' bytes here there
  unfold Alike at alike
  rw [ran] at alike
  cases ran' : second source' with
  | ok value after' =>
      rw [ran'] at alike
      exact alike.elim
  | error fault' after' =>
      rw [ran'] at alike
      obtain rfl : fault = fault' := alike
      exact ⟨after', rfl⟩

omit [ByteSource σ] [ByteSource τ] in
theorem pure (value : α) :
    Agree stands stands' (Pure.pure value : EStateM Fault σ α) (Pure.pure value) :=
  fun _ _ bytes here there => ⟨rfl, bytes, here, there⟩

omit [ByteSource σ] [ByteSource τ] in
theorem throw (fault : Fault) :
    Agree stands stands' (MonadExcept.throw fault : EStateM Fault σ α) (MonadExcept.throw fault) :=
  fun _ _ _ _ _ => rfl

omit [ByteSource σ] [ByteSource τ] in
theorem bind {first : EStateM Fault σ β} {second : EStateM Fault τ β}
    {rest : β → EStateM Fault σ α} {rest' : β → EStateM Fault τ α}
    (start : Agree stands stands' first second)
    (next : ∀ value, Agree stands stands' (rest value) (rest' value)) :
    Agree stands stands' (first >>= rest) (second >>= rest') := by
  intro source source' bytes here there
  cases ran : first source with
  | ok value after =>
      obtain ⟨after', left, ran', stays, stays'⟩ := start.of_ok here there ran
      rw [bind_ok ran, bind_ok ran']
      exact next value after after' left stays stays'
  | error fault after =>
      obtain ⟨after', ran'⟩ := start.of_error here there ran
      rw [bind_error ran, bind_error ran']
      rfl

theorem readExact (serves : Serves stands) (serves' : Serves stands') (wanted : Nat) :
    Agree stands stands' (ByteSource.readExact wanted) (ByteSource.readExact wanted) := by
  intro source source' bytes here there
  have first := serves.readExact wanted here
  have second := serves'.readExact wanted there
  unfold Meets at first second
  unfold Alike
  cases ran : ByteSource.readExact wanted source with
  | ok got after =>
      cases ran' : ByteSource.readExact wanted source' with
      | ok got' after' =>
          rw [ran] at first
          rw [ran'] at second
          exact ⟨first.2.1.trans second.2.1.symm, bytes.drop wanted, first.2.2, second.2.2⟩
      | error fault' after' =>
          rw [ran] at first
          rw [ran'] at second
          exact absurd first.1 (Nat.not_le.mpr second.1)
  | error fault after =>
      cases ran' : ByteSource.readExact wanted source' with
      | ok got' after' =>
          rw [ran] at first
          rw [ran'] at second
          exact absurd second.1 (Nat.not_le.mpr first.1)
      | error fault' after' =>
          rw [ran] at first
          rw [ran'] at second
          exact first.2.trans second.2.symm

end Agree

namespace ScriptedSource

def Steady (source : ScriptedSource) : Prop :=
  ∀ planned ∈ source.plan,
    match planned with
    | .atMost limit => 0 < limit
    | .fails fault => fault.isInterrupted = true

theorem serves :
    Serves fun (source : ScriptedSource) bytes => source.Steady ∧ source.pending = bytes where
  read {source bytes limit} steady positive := by
    obtain ⟨steady, rfl⟩ := steady
    obtain ⟨pending, plan⟩ := source
    have whole (count : Nat) : pending = pending.take count ++ pending.drop count :=
      (List.take_append_drop count pending).symm
    have last (count : Nat) (more : 0 < count) (vanishes : pending.take count = []) :
        pending.drop count = [] := by
      rcases List.take_eq_nil_iff.mp vanishes with zero | empty
      · omega
      · simp [empty]
    cases plan with
    | nil => exact ⟨_, whole limit, ⟨nofun, rfl⟩, last limit positive⟩
    | cons planned rest =>
        have later : Steady ⟨pending, rest⟩ :=
          fun other listed => steady other (List.mem_cons_of_mem _ listed)
        have first := steady planned List.mem_cons_self
        cases planned with
        | atMost most =>
            have more : 0 < min limit most := Nat.lt_min.mpr ⟨positive, first⟩
            exact ⟨_, whole _, ⟨later, rfl⟩, last _ more⟩
        | fails fault => exact ⟨first, later, rfl⟩

theorem carries {pending : Bytes} {plan : List PlannedRead}
    (steady : Steady ⟨pending, plan⟩) : Carries (⟨pending, plan⟩ : ScriptedSource) pending :=
  ⟨_, serves, steady, rfl⟩

end ScriptedSource

end TreeSync
