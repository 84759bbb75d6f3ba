namespace TreeSync.Action

/-! Combining steps that may fail.

A step that fails leaves behind the state it had reached, so what was done before
the failure stays done.
-/

variable {ε δ σ τ α : Type}

/-- Runs a step and hands its failure on as a value. -/
def attempt (step : EStateM ε σ α) : EStateM δ σ (Except ε α) := fun before =>
  match step before with
  | .ok value after => .ok (.ok value) after
  | .error cause after => .ok (.error cause) after

/-- Runs a step and passes its failure through `explain`. -/
def explaining (explain : ε → δ) (step : EStateM ε σ α) : EStateM δ σ α := fun before =>
  match step before with
  | .ok value after => .ok value after
  | .error cause after => .error (explain cause) after

def within (part : σ → τ) (replace : τ → σ → σ) (step : EStateM ε τ α) : EStateM ε σ α :=
  fun before =>
    match step (part before) with
    | .ok value after => .ok value (replace after before)
    | .error cause after => .error cause (replace after before)

def onFailure (step : EStateM ε σ α) (cleanup : σ → σ) : EStateM ε σ α := fun before =>
  match step before with
  | .ok value after => .ok value after
  | .error cause after => .error cause (cleanup after)

def ensuring (step : EStateM ε σ α) (cleanup : σ → σ) : EStateM ε σ α := fun before =>
  match step before with
  | .ok value after => .ok value (cleanup after)
  | .error cause after => .error cause (cleanup after)

def stateAfter (step : EStateM ε σ α) (before : σ) : σ :=
  match step before with
  | .ok _ after | .error _ after => after

end TreeSync.Action
