import Mathlib.Tactic

/-!
# Stateful programs with exceptions

Rules for programs of the monad `EStateM`, whose state outlives an exception:
the effects made before a throw stay.  A `Triple` says what holds after a return
and what after an exception; `Keeps` is the case of an invariant; `Lockstep`
relates two runs from related states.
-/

namespace Effects

variable {ε σ τ α β : Type}

/-- The state a program ends in, by a return or by an exception. -/
def endState : EStateM.Result ε σ α → σ
  | .ok _ state => state
  | .error _ state => state

@[simp] theorem endState_ok (value : α) (state : σ) :
    endState (.ok value state : EStateM.Result ε σ α) = state := rfl

@[simp] theorem endState_error (error : ε) (state : σ) :
    endState (.error error state : EStateM.Result ε σ α) = state := rfl

def Returns : EStateM.Result ε σ α → Bool
  | .ok _ _ => true
  | .error _ _ => false

theorem eq_ok_of_returns {result : EStateM.Result ε σ Unit}
    (hreturns : Returns result = true) : result = .ok () (endState result) := by
  cases result with
  | ok value state => rfl
  | error error state => contradiction

/-- A computation without state, run inside a stateful program. -/
def ofResult (result : Except ε α) : EStateM ε σ α := fun state =>
  match result with
  | .ok value => .ok value state
  | .error error => .error error state

/-- A program on a part of the state. -/
def zoom (part : σ → τ) (update : τ → σ → σ) (program : EStateM ε τ α) :
    EStateM ε σ α := fun state =>
  match program (part state) with
  | .ok value inner => .ok value (update inner state)
  | .error error inner => .error error (update inner state)

@[simp] theorem ofResult_ok (value : α) (state : σ) :
    (ofResult (.ok value) : EStateM ε σ α) state = .ok value state := rfl

@[simp] theorem ofResult_error (error : ε) (state : σ) :
    (ofResult (.error error) : EStateM ε σ α) state = .error error state := rfl

@[simp] theorem pure_apply (value : α) (state : σ) :
    (pure value : EStateM ε σ α) state = .ok value state := rfl

@[simp] theorem throw_apply (error : ε) (state : σ) :
    (throw error : EStateM ε σ α) state = .error error state := rfl

@[simp] theorem get_apply (state : σ) :
    (get : EStateM ε σ σ) state = .ok state state := rfl

@[simp] theorem set_apply (new state : σ) :
    (set new : EStateM ε σ PUnit) state = .ok ⟨⟩ new := rfl

@[simp] theorem modify_apply (f : σ → σ) (state : σ) :
    (modify f : EStateM ε σ PUnit) state = .ok ⟨⟩ (f state) := rfl

theorem bind_apply (program : EStateM ε σ α) (next : α → EStateM ε σ β)
    (state : σ) :
    (program >>= next) state =
      match program state with
      | .ok value mid => next value mid
      | .error error mid => .error error mid := rfl

theorem bind_of_ok {program : EStateM ε σ α} {state mid : σ} {value : α}
    (hok : program state = .ok value mid) (next : α → EStateM ε σ β) :
    (program >>= next) state = next value mid := by
  rw [bind_apply, hok]

theorem bind_of_error {program : EStateM ε σ α} {state mid : σ} {error : ε}
    (herror : program state = .error error mid) (next : α → EStateM ε σ β) :
    (program >>= next) state = .error error mid := by
  rw [bind_apply, herror]

/-- A sequence that returns has returned from its first program. -/
theorem bind_eq_ok {program : EStateM ε σ α} {next : α → EStateM ε σ β}
    {state final : σ} {result : β}
    (hok : (program >>= next) state = .ok result final) :
    ∃ value mid, program state = .ok value mid ∧
      next value mid = .ok result final := by
  rw [bind_apply] at hok
  cases hprogram : program state with
  | ok value mid =>
      rw [hprogram] at hok
      exact ⟨value, mid, rfl, hok⟩
  | error error mid =>
      rw [hprogram] at hok
      contradiction

theorem ofResult_eq_ok {result : Except ε α} {state final : σ} {value : α}
    (hok : (ofResult result : EStateM ε σ α) state = .ok value final) :
    result = .ok value ∧ final = state := by
  cases result with
  | ok found =>
      cases hok
      exact ⟨rfl, rfl⟩
  | error error => contradiction

theorem ofResult_bind_eq_ok {result : Except ε α} {next : α → EStateM ε σ β}
    {state final : σ} {value : β}
    (hok : (ofResult result >>= next) state = .ok value final) :
    ∃ found, result = .ok found ∧ next found state = .ok value final := by
  obtain ⟨found, mid, hresult, hnext⟩ := bind_eq_ok hok
  obtain ⟨hfound, rfl⟩ := ofResult_eq_ok hresult
  exact ⟨found, hfound, hnext⟩

theorem eq_ok_of_toOption {result : Except ε α} {value : α}
    (hsome : result.toOption = some value) : result = .ok value := by
  cases result with
  | ok found =>
      cases hsome
      rfl
  | error error => contradiction

theorem ofResult_bind_of_ok {result : Except ε α} {value : α}
    (hok : result = .ok value) (next : α → EStateM ε σ β) (state : σ) :
    (ofResult result >>= next) state = next value state := by
  rw [hok]
  rfl

/-! ## Triples -/

/-- From a state with `P` the program returns with `Q`, or throws with `E`. -/
def Triple (P : σ → Prop) (program : EStateM ε σ α) (Q : α → σ → Prop)
    (E : ε → σ → Prop) : Prop :=
  ∀ state, P state →
    match program state with
    | .ok value final => Q value final
    | .error error final => E error final

section Triple

variable {P P' : σ → Prop} {Q Q' : α → σ → Prop} {E E' : ε → σ → Prop}
  {program : EStateM ε σ α}

theorem Triple.ok (htriple : Triple P program Q E) {state final : σ} {value : α}
    (hstate : P state) (hok : program state = .ok value final) : Q value final := by
  have h := htriple state hstate
  rwa [hok] at h

theorem Triple.error (htriple : Triple P program Q E) {state final : σ} {error : ε}
    (hstate : P state) (herror : program state = .error error final) :
    E error final := by
  have h := htriple state hstate
  rwa [herror] at h

/-- What holds after a return and after an exception holds at the end. -/
theorem Triple.endState {R : σ → Prop}
    (htriple : Triple P program (fun _ => R) fun _ => R) {state : σ} (hstate : P state) :
    R (endState (program state)) := by
  have h := htriple state hstate
  cases hrun : program state with
  | ok value final => rwa [hrun] at h
  | error error final => rwa [hrun] at h

/-- A program that cannot throw returns. -/
theorem Triple.returns (htriple : Triple P program Q fun _ _ => False) {state : σ}
    (hstate : P state) : ∃ value final, program state = .ok value final ∧ Q value final := by
  have h := htriple state hstate
  cases hrun : program state with
  | ok value final =>
      rw [hrun] at h
      exact ⟨value, final, rfl, h⟩
  | error error final =>
      rw [hrun] at h
      exact h.elim

theorem Triple.weaken (htriple : Triple P program Q E)
    (hpre : ∀ state, P' state → P state)
    (hpost : ∀ value state, Q value state → Q' value state)
    (hthrow : ∀ error state, E error state → E' error state) :
    Triple P' program Q' E' := by
  intro state hstate
  have h := htriple state (hpre state hstate)
  cases hrun : program state with
  | ok value final =>
      rw [hrun] at h
      exact hpost value final h
  | error error final =>
      rw [hrun] at h
      exact hthrow error final h

theorem Triple.and (hfirst : Triple P program Q E) (hsecond : Triple P' program Q' E') :
    Triple (fun state => P state ∧ P' state) program
      (fun value state => Q value state ∧ Q' value state)
      fun error state => E error state ∧ E' error state := by
  rintro state ⟨hstate, hstate'⟩
  have h := hfirst state hstate
  have h' := hsecond state hstate'
  cases hrun : program state with
  | ok value final =>
      rw [hrun] at h h'
      exact ⟨h, h'⟩
  | error error final =>
      rw [hrun] at h h'
      exact ⟨h, h'⟩

theorem Triple.pure {value : α} (hpost : ∀ state, P state → Q value state) :
    Triple P (pure value) Q E :=
  hpost

theorem Triple.throw {error : ε} (hthrow : ∀ state, P state → E error state) :
    Triple P (throw error) Q E :=
  hthrow

theorem Triple.ofResult {result : Except ε α}
    (hok : ∀ value, result = .ok value → ∀ state, P state → Q value state)
    (herror : ∀ error, result = .error error → ∀ state, P state → E error state) :
    Triple P (ofResult result) Q E := by
  intro state hstate
  cases result with
  | ok value => exact hok value rfl state hstate
  | error error => exact herror error rfl state hstate

theorem Triple.modify {Q : PUnit → σ → Prop} {f : σ → σ}
    (hf : ∀ state, P state → Q ⟨⟩ (f state)) :
    Triple P (modify f) Q E :=
  hf

theorem Triple.zoom {part : σ → τ} {update : τ → σ → σ} {program : EStateM ε τ α}
    (hok : ∀ state value inner, P state → program (part state) = .ok value inner →
      Q value (update inner state))
    (herror : ∀ state error inner, P state →
      program (part state) = .error error inner → E error (update inner state)) :
    Triple P (zoom part update program) Q E := by
  intro state hstate
  unfold Effects.zoom
  cases hrun : program (part state) with
  | ok value inner => exact hok state value inner hstate hrun
  | error error inner => exact herror state error inner hstate hrun

theorem Triple.bind {R : β → σ → Prop} {next : α → EStateM ε σ β}
    (hprogram : Triple P program Q E)
    (hnext : ∀ value, Triple (Q value) (next value) R E) :
    Triple P (program >>= next) R E := by
  intro state hstate
  have hmid := hprogram state hstate
  rw [bind_apply]
  cases hrun : program state with
  | ok value mid =>
      rw [hrun] at hmid
      exact hnext value mid hmid
  | error error mid =>
      rw [hrun] at hmid
      exact hmid

theorem Triple.ofResult_bind {R : β → σ → Prop} {result : Except ε α}
    {next : α → EStateM ε σ β}
    (hok : ∀ value, result = .ok value → Triple P (next value) R E)
    (herror : ∀ error, result = .error error → ∀ state, P state → E error state) :
    Triple P (Effects.ofResult result >>= next) R E := by
  intro state hstate
  rw [bind_apply]
  cases result with
  | ok value => exact hok value rfl state hstate
  | error error => exact herror error rfl state hstate

theorem Triple.ite {condition : Prop} [Decidable condition]
    {yes no : EStateM ε σ α} (hyes : condition → Triple P yes Q E)
    (hno : ¬ condition → Triple P no Q E) :
    Triple P (if condition then yes else no) Q E := by
  split
  next h => exact hyes h
  next h => exact hno h

/-- A property of the inputs done so far, kept by one more of them. -/
theorem Triple.forM {δ : Type} {I : List δ → σ → Prop} {step : δ → EStateM ε σ PUnit}
    {inputs : List δ}
    (hstep : ∀ before input after, inputs = before ++ input :: after →
      Triple (I before) (step input) (fun _ => I (before ++ [input])) E) :
    Triple (I []) (inputs.forM step) (fun _ => I inputs) E := by
  have hsuffix : ∀ before after, inputs = before ++ after →
      Triple (I before) (after.forM step) (fun _ => I inputs) E := by
    intro before after hinputs
    induction after generalizing before with
    | nil =>
        rw [List.append_nil] at hinputs
        rw [hinputs]
        exact Triple.pure fun _ hstate => hstate
    | cons input after ih =>
        refine Triple.bind (hstep before input after hinputs) fun _ => ?_
        apply ih
        rw [List.append_assoc, hinputs]
        rfl
  exact hsuffix [] inputs rfl

end Triple

/-! ## Invariants -/

/-- The program keeps a property, of which an exception leaves `E`. -/
abbrev Keeps (P E : σ → Prop) (program : EStateM ε σ α) : Prop :=
  Triple P program (fun _ => P) fun _ => E

section Keeps

variable {P E : σ → Prop}

theorem Keeps.endState {program : EStateM ε σ α} (hkeeps : Keeps P P program)
    {state : σ} (hstate : P state) : P (endState (program state)) :=
  Triple.endState hkeeps hstate

theorem triple_of_endState {program : EStateM ε σ α}
    (hend : ∀ state, P state → E (endState (program state))) :
    Triple P program (fun _ => E) fun _ => E := by
  intro state hstate
  have h := hend state hstate
  cases hrun : program state with
  | ok value final => rwa [hrun] at h
  | error error final => rwa [hrun] at h

theorem Keeps.pure (value : α) : Keeps P E (pure value : EStateM ε σ α) :=
  fun _ hstate => hstate

theorem Keeps.ofResult (hweak : ∀ state, P state → E state)
    (result : Except ε α) : Keeps P E (ofResult result : EStateM ε σ α) := by
  intro state hstate
  cases result with
  | ok value => exact hstate
  | error error => exact hweak state hstate

theorem Keeps.get : Keeps P E (get : EStateM ε σ σ) :=
  fun _ hstate => hstate

theorem Keeps.modify {f : σ → σ} (hf : ∀ state, P state → P (f state)) :
    Keeps P E (modify f : EStateM ε σ PUnit) :=
  hf

/-- What follows may use that its argument was returned. -/
theorem Keeps.bind {program : EStateM ε σ α} {next : α → EStateM ε σ β}
    (hprogram : Keeps P E program)
    (hnext : ∀ value, (∃ state mid, program state = .ok value mid) →
      Keeps P E (next value)) :
    Keeps P E (program >>= next) := by
  intro state hstate
  have hmid := hprogram state hstate
  rw [bind_apply]
  cases hrun : program state with
  | ok value mid =>
      rw [hrun] at hmid
      exact hnext value ⟨state, mid, hrun⟩ mid hmid
  | error error mid =>
      rw [hrun] at hmid
      exact hmid

theorem Keeps.forM {δ : Type} {step : δ → EStateM ε σ PUnit} {inputs : List δ}
    (hstep : ∀ input ∈ inputs, Keeps P E (step input)) :
    Keeps P E (inputs.forM step) := by
  induction inputs with
  | nil => exact Keeps.pure PUnit.unit
  | cons input inputs ih =>
      exact Keeps.bind (hstep input (by simp)) fun _ _ =>
        ih fun other hother => hstep other (by simp [hother])

end Keeps

/-! ## Runs -/

theorem forM_cons {δ : Type} (step : δ → EStateM ε σ PUnit) (input : δ)
    (inputs : List δ) (state : σ) :
    (input :: inputs).forM step state =
      (step input >>= fun _ => inputs.forM step) state := rfl

/-- A run that returns has run its first part, and then the rest. -/
theorem forM_append {δ : Type} {step : δ → EStateM ε σ PUnit}
    {first second : List δ} {state final : σ}
    (hok : (first ++ second).forM step state = .ok ⟨⟩ final) :
    ∃ mid, first.forM step state = .ok ⟨⟩ mid ∧
      second.forM step mid = .ok ⟨⟩ final := by
  induction first generalizing state with
  | nil => exact ⟨state, rfl, hok⟩
  | cons input inputs ih =>
      obtain ⟨_, mid, hstep, hrest⟩ := bind_eq_ok hok
      obtain ⟨last, hfirst, hsecond⟩ := ih hrest
      refine ⟨last, ?_, hsecond⟩
      rw [forM_cons, bind_of_ok hstep]
      exact hfirst

/-- After its first part has returned, a run goes on with the rest. -/
theorem forM_append_of_ok {δ : Type} {step : δ → EStateM ε σ PUnit}
    {first : List δ} {state mid : σ} (hok : first.forM step state = .ok ⟨⟩ mid)
    (second : List δ) :
    (first ++ second).forM step state = second.forM step mid := by
  induction first generalizing state with
  | nil =>
      cases hok
      rfl
  | cons input inputs ih =>
      obtain ⟨_, next, hstep, hrest⟩ := bind_eq_ok hok
      rw [List.cons_append, forM_cons, bind_of_ok hstep]
      exact ih hrest

/-- A run that returns has returned from each of its steps. -/
theorem forM_eq_ok_mem {δ : Type} {step : δ → EStateM ε σ PUnit}
    {inputs : List δ} {state final : σ}
    (hok : inputs.forM step state = .ok ⟨⟩ final) {input : δ} (hmem : input ∈ inputs) :
    ∃ before after, step input before = .ok ⟨⟩ after := by
  obtain ⟨first, rest, rfl⟩ := List.append_of_mem hmem
  obtain ⟨before, _, hrest⟩ := forM_append hok
  obtain ⟨_, after, hstep, _⟩ := bind_eq_ok hrest
  exact ⟨before, after, hstep⟩

/-! ## Two runs -/

/-- From states related by `R` the two programs throw equal exceptions, or
return equal values in states related by `Q`. -/
def Lockstep (R : σ → τ → Prop) (first : EStateM ε σ α) (second : EStateM ε τ α)
    (Q : σ → τ → Prop) : Prop :=
  ∀ s t, R s t →
    match first s, second t with
    | .ok a s', .ok b t' => a = b ∧ Q s' t'
    | .error e _, .error f _ => e = f
    | _, _ => False

theorem rel_cases {r : α → β → Prop} {first : Option α} {second : Option β}
    (hrel : Option.Rel r first second) :
    (first = none ∧ second = none) ∨ ∃ a b, first = some a ∧ second = some b ∧ r a b := by
  cases hrel with
  | none => exact Or.inl ⟨rfl, rfl⟩
  | some hab => exact Or.inr ⟨_, _, rfl, rfl, hab⟩

section Lockstep

variable {R Q T : σ → τ → Prop} {first : EStateM ε σ α} {second : EStateM ε τ α}

theorem Lockstep.ok (hlock : Lockstep R first second Q) {s s' : σ} {t : τ}
    {value : α} (hrel : R s t) (hok : first s = .ok value s') :
    ∃ t', second t = .ok value t' ∧ Q s' t' := by
  have h := hlock s t hrel
  rw [hok] at h
  cases hsecond : second t with
  | ok b t' =>
      rw [hsecond] at h
      obtain ⟨rfl, hrel'⟩ := h
      exact ⟨t', rfl, hrel'⟩
  | error e t' =>
      rw [hsecond] at h
      exact h.elim

theorem Lockstep.pure {value : α} (hrel : ∀ s t, R s t → Q s t) :
    Lockstep R (pure value : EStateM ε σ α) (pure value) Q :=
  fun s t h => ⟨rfl, hrel s t h⟩

theorem Lockstep.modify {f : σ → σ} {g : τ → τ}
    (hrel : ∀ s t, R s t → Q (f s) (g t)) :
    Lockstep R (modify f : EStateM ε σ PUnit) (modify g) Q :=
  fun s t h => ⟨rfl, hrel s t h⟩

theorem Lockstep.get_bind {next : σ → EStateM ε σ β} {next' : τ → EStateM ε τ β}
    (hnext : ∀ s t, R s t → Lockstep R (next s) (next' t) Q) :
    Lockstep R (get >>= next) (get >>= next') Q :=
  fun s t h => hnext s t h s t h

theorem Lockstep.ofResult_bind {result : Except ε α} {next : α → EStateM ε σ β}
    {next' : α → EStateM ε τ β}
    (hnext : ∀ value, result = .ok value → Lockstep R (next value) (next' value) Q) :
    Lockstep R (ofResult result >>= next) (ofResult result >>= next') Q := by
  intro s t hrel
  rw [bind_apply, bind_apply]
  cases result with
  | ok value => exact hnext value rfl s t hrel
  | error error => exact rfl

theorem Lockstep.bind {next : α → EStateM ε σ β} {next' : α → EStateM ε τ β}
    (hlock : Lockstep R first second Q)
    (hnext : ∀ value, Lockstep Q (next value) (next' value) T) :
    Lockstep R (first >>= next) (second >>= next') T := by
  intro s t hrel
  have h := hlock s t hrel
  rw [bind_apply, bind_apply]
  cases hfirst : first s with
  | ok a s' =>
      cases hsecond : second t with
      | ok b t' =>
          rw [hfirst, hsecond] at h
          obtain ⟨rfl, hrel'⟩ := h
          exact hnext a s' t' hrel'
      | error f t' =>
          rw [hfirst, hsecond] at h
          exact h.elim
  | error e s' =>
      cases hsecond : second t with
      | ok b t' =>
          rw [hfirst, hsecond] at h
          exact h.elim
      | error f t' =>
          rw [hfirst, hsecond] at h
          exact h

theorem Lockstep.ite {condition : Prop} [Decidable condition]
    {first' : EStateM ε σ α} {second' : EStateM ε τ α}
    (hyes : condition → Lockstep R first second Q)
    (hno : ¬ condition → Lockstep R first' second' Q) :
    Lockstep R (if condition then first else first')
      (if condition then second else second') Q := by
  split
  · next h => exact hyes h
  · next h => exact hno h

theorem Lockstep.forM {δ : Type} {step : δ → EStateM ε σ PUnit}
    {step' : δ → EStateM ε τ PUnit}
    (hstep : ∀ input, Lockstep R (step input) (step' input) R) (inputs : List δ) :
    Lockstep R (inputs.forM step) (inputs.forM step') R := by
  induction inputs with
  | nil => exact Lockstep.pure fun _ _ h => h
  | cons input inputs ih => exact Lockstep.bind (hstep input) fun _ => ih

end Lockstep

end Effects
