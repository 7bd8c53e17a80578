import Mathlib.Tactic.Common

/-!
# Jobs that are cut off

A job works on durable storage, one operation after the other. Its surroundings decide
of every operation whether it goes through, fails, or never ends since the machine stops;
an operation that does not go through may have been done in part. A failure can be caught,
a stop cannot.

`Ends` is the weakest precondition for the three ways to end, with the faults that are
still to come as part of the state.
-/

namespace GhitaBrowser

/-- What happens to an operation; `progress` is how far it gets. -/
inductive Fault where
  | none
  | error (progress : Nat)
  | crash (progress : Nat)
deriving DecidableEq

/-- A state with the faults of the operations to come. After the last one all goes well. -/
structure Exposed (σ : Type) where
  faults : List Fault
  state : σ

inductive JobEnd (ε α : Type) where
  | done (value : α)
  | failed (error : ε)
  | crashed

def JobEnd.isDone {ε α : Type} : JobEnd ε α → Bool
  | .done _ => true
  | _ => false

def Job (ε σ α : Type) := Exposed σ → JobEnd ε α × Exposed σ

namespace Job

variable {ε σ α β : Type}

def bind (job : Job ε σ α) (next : α → Job ε σ β) : Job ε σ β := fun x =>
  match job x with
  | (.done value, after) => next value after
  | (.failed error, after) => (.failed error, after)
  | (.crashed, after) => (.crashed, after)

instance : Monad (Job ε σ) where
  pure value := fun x => (.done value, x)
  bind := bind

def throw (error : ε) : Job ε σ α := fun x => (.failed error, x)

def get : Job ε σ σ := fun x => (.done x.state, x)

/-- A change of the state that is not an operation. -/
def modify (f : σ → σ) : Job ε σ Unit := fun x => (.done (), { x with state := f x.state })

def ofExcept : Except ε α → Job ε σ α
  | .ok value => pure value
  | .error error => throw error

/-- Catch a failure. -/
def attempt (job : Job ε σ α) : Job ε σ (Except ε α) := fun x =>
  match job x with
  | (.done value, after) => (.done (.ok value), after)
  | (.failed error, after) => (.done (.error error), after)
  | (.crashed, after) => (.crashed, after)

/-- One operation. If it does not go through, `partway` is what it leaves. -/
def op (failure : ε) (effect : σ → Except ε (α × σ)) (partway : Fault → σ → σ) : Job ε σ α := fun x =>
  match x.faults with
  | fault@(.error _) :: faults => (.failed failure, ⟨faults, partway fault x.state⟩)
  | fault@(.crash _) :: faults => (.crashed, ⟨faults, partway fault x.state⟩)
  | _ =>
    match effect x.state with
    | .ok (value, state) => (.done value, ⟨x.faults.tail, state⟩)
    | .error error => (.failed error, ⟨x.faults.tail, x.state⟩)

/-! ## The weakest precondition -/

def Ends (job : Job ε σ α) (done : α → Exposed σ → Prop) (failed : Exposed σ → Prop)
    (crashed : σ → Prop) (x : Exposed σ) : Prop :=
  match job x with
  | (.done value, after) => done value after
  | (.failed _, after) => failed after
  | (.crashed, after) => crashed after.state

/-- The state at the end, however the job ends. -/
def leaves (job : Job ε σ α) (x : Exposed σ) : σ := (job x).2.state

variable {effect : σ → Except ε (α × σ)} {partway : Fault → σ → σ} {f : σ → σ} {failure : ε}

section

variable {job : Job ε σ α} {next : α → Job ε σ β} {done done' : α → Exposed σ → Prop}
  {last : β → Exposed σ → Prop} {failed failed' : Exposed σ → Prop} {crashed crashed' : σ → Prop}
  {x : Exposed σ}

theorem Ends.mono (h : job.Ends done failed crashed x)
    (hdone : ∀ value y, done value y → done' value y) (hfailed : ∀ y, failed y → failed' y)
    (hcrashed : ∀ s, crashed s → crashed' s) : job.Ends done' failed' crashed' x := by
  unfold Ends at h ⊢
  split
  · next heq => exact hdone _ _ (by simpa [heq] using h)
  · next heq => exact hfailed _ (by simpa [heq] using h)
  · next heq => exact hcrashed _ (by simpa [heq] using h)

theorem Ends.leaves {P : σ → Prop} (h : job.Ends (fun _ y => P y.state) (fun y => P y.state) P x) :
    P (job.leaves x) := by
  unfold Ends at h
  unfold Job.leaves
  split at h
  · next heq => rwa [heq]
  · next heq => rwa [heq]
  · next heq => rwa [heq]

theorem Ends.weaken (h : job.Ends done failed crashed x) (hfailed : ∀ y, failed y → failed' y)
    (hcrashed : ∀ s, crashed s → crashed' s) : job.Ends done failed' crashed' x :=
  h.mono (fun _ _ hdone => hdone) hfailed hcrashed

/-- What is known of the end of this very run. -/
theorem Ends.and_run (h : job.Ends done failed crashed x) {P : Exposed σ → Prop} (hP : P (job x).2) :
    job.Ends (fun value y => done value y ∧ job x = (.done value, y) ∧ P y) (fun y => failed y ∧ P y)
      (fun s => crashed s ∧ ∃ faults, P ⟨faults, s⟩) x := by
  unfold Ends at h ⊢
  generalize hrun : job x = result at h hP ⊢
  obtain ⟨ending, after⟩ := result
  cases ending with
  | done value => exact ⟨h, rfl, hP⟩
  | failed error => exact ⟨h, hP⟩
  | crashed => exact ⟨h, after.faults, hP⟩

theorem bind_run {middle : Exposed σ} {value : α} (h : job x = (.done value, middle)) :
    (job >>= next) x = next value middle := by
  show Job.bind job next x = _
  unfold Job.bind
  rw [h]

theorem of_bind_run {result : β} {last : Exposed σ} (h : (job >>= next) x = (.done result, last)) :
    ∃ value middle, job x = (.done value, middle) ∧ next value middle = (.done result, last) := by
  have hbind : Job.bind job next x = (.done result, last) := h
  unfold Job.bind at hbind
  split at hbind
  · next value middle hrun => exact ⟨value, middle, hrun, hbind⟩
  · cases hbind
  · cases hbind

/-- A run that is done leaves what is known of a run that is done. -/
theorem Ends.of_run {value : α} {after : Exposed σ} (h : job.Ends done failed crashed x)
    (hrun : job x = (.done value, after)) : done value after := by
  unfold Ends at h
  rwa [hrun] at h

theorem ends_pure {value : α} (h : done value x) :
    (pure value : Job ε σ α).Ends done failed crashed x := h

theorem ends_throw {error : ε} (h : failed x) : (throw error : Job ε σ α).Ends done failed crashed x := h

theorem ends_modify {done : Unit → Exposed σ → Prop}
    (h : done () { x with state := f x.state }) : (modify f : Job ε σ Unit).Ends done failed crashed x := h

theorem ends_get_bind {next : σ → Job ε σ β} (h : (next x.state).Ends last failed crashed x) :
    (get >>= next).Ends last failed crashed x := h

theorem ends_modify_bind {next : Unit → Job ε σ β}
    (h : (next ()).Ends last failed crashed { x with state := f x.state }) :
    (modify f >>= next).Ends last failed crashed x := h

theorem ends_ofExcept_bind {result : Except ε α}
    (hok : ∀ value, result = .ok value → (next value).Ends last failed crashed x) (herror : failed x) :
    (ofExcept result >>= next).Ends last failed crashed x := by
  cases result with
  | ok value => exact hok value rfl
  | error error => exact herror

theorem Ends.bind (h : job.Ends done failed crashed x)
    (hnext : ∀ value y, done value y → (next value).Ends last failed crashed y) :
    (job >>= next).Ends last failed crashed x := by
  show (Job.bind job next).Ends last failed crashed x
  unfold Ends Job.bind
  unfold Ends at h
  split at h
  · exact hnext _ _ h
  · exact h
  · exact h

theorem ends_attempt {done : Except ε α → Exposed σ → Prop}
    (h : job.Ends (fun value y => done (.ok value) y) (fun y => ∀ error, done (.error error) y) crashed x) :
    job.attempt.Ends done failed crashed x := by
  unfold Ends attempt
  unfold Ends at h
  split at h
  · exact h
  · exact h _
  · exact h

theorem ends_op
    (hdone : ∀ value state faults, effect x.state = .ok (value, state) → done value ⟨faults, state⟩)
    (hrefused : ∀ faults, failed ⟨faults, x.state⟩)
    (hfailed : ∀ progress faults, failed ⟨faults, partway (.error progress) x.state⟩)
    (hcrashed : ∀ progress, crashed (partway (.crash progress) x.state)) :
    (op failure effect partway).Ends done failed crashed x := by
  unfold Ends op
  rcases x with ⟨_ | ⟨_ | progress | progress, faults⟩, s⟩
  · dsimp only
    cases heffect : effect s with
    | ok result => exact hdone _ _ _ heffect
    | error error => exact hrefused _
  · dsimp only
    cases heffect : effect s with
    | ok result => exact hdone _ _ _ heffect
    | error error => exact hrefused _
  · exact hfailed progress faults
  · exact hcrashed progress

theorem ends_spared {faults : List Fault} {before after : σ} {value : α}
    (heffect : effect before = .ok (value, after)) (h : done value ⟨faults, after⟩) :
    (op failure effect partway).Ends done failed crashed ⟨.none :: faults, before⟩ := by
  unfold Ends op
  dsimp only
  rw [heffect]
  exact h

theorem ends_stopped
    {faults : List Fault} {before : σ} {progress : Nat} (h : crashed (partway (.crash progress) before)) :
    (op failure effect partway).Ends done failed crashed ⟨.crash progress :: faults, before⟩ := h

end

/-! ## Undisturbed jobs -/

/-- Without a fault the job is done, and leaves what is wanted. -/
def Goes (job : Job ε σ α) (wanted : α → σ → Prop) (before : σ) : Prop :=
  ∃ value after, job ⟨[], before⟩ = (.done value, ⟨[], after⟩) ∧ wanted value after

section

variable {job : Job ε σ α} {next : α → Job ε σ β} {wanted wanted' : α → σ → Prop}
  {last : β → σ → Prop} {before : σ}

theorem Goes.mono (h : job.Goes wanted before) (himp : ∀ value s, wanted value s → wanted' value s) :
    job.Goes wanted' before := by
  obtain ⟨value, after, hrun, hwanted⟩ := h
  exact ⟨value, after, hrun, himp value after hwanted⟩

theorem Goes.bind (h : job.Goes wanted before)
    (hnext : ∀ value s, wanted value s → (next value).Goes last s) :
    (job >>= next).Goes last before := by
  obtain ⟨value, middle, hrun, hwanted⟩ := h
  obtain ⟨result, after, hnext, hlast⟩ := hnext value middle hwanted
  refine ⟨result, after, ?_, hlast⟩
  show Job.bind job next ⟨[], before⟩ = _
  unfold Job.bind
  rw [hrun]
  exact hnext

theorem Goes.leaves {P : σ → Prop} (h : job.Goes (fun _ after => P after) before) :
    P (job.leaves ⟨[], before⟩) := by
  obtain ⟨value, after, hrun, hwanted⟩ := h
  unfold Job.leaves
  rwa [hrun]

theorem goes_pure {value : α} (h : wanted value before) : (pure value : Job ε σ α).Goes wanted before :=
  ⟨value, before, rfl, h⟩

theorem goes_get_bind {next : σ → Job ε σ β} (h : (next before).Goes last before) :
    (get >>= next).Goes last before := h

theorem goes_modify_bind {next : Unit → Job ε σ β} (h : (next ()).Goes last (f before)) :
    (modify f >>= next).Goes last before := h

theorem goes_ok_bind {value : α} (h : (next value).Goes last before) :
    (ofExcept (.ok value) >>= next).Goes last before := h

theorem goes_op {value : α}
    {after : σ} (heffect : effect before = .ok (value, after)) (h : wanted value after) :
    (op failure effect partway).Goes wanted before := by
  refine ⟨value, after, ?_, h⟩
  unfold op
  dsimp only
  rw [heffect]
  rfl

theorem goes_attempt (h : job.Goes wanted before) :
    job.attempt.Goes (fun result after => ∃ value, result = .ok value ∧ wanted value after) before := by
  obtain ⟨value, after, hrun, hwanted⟩ := h
  refine ⟨.ok value, after, ?_, value, rfl, hwanted⟩
  unfold attempt
  rw [hrun]

end

/-! ## Jobs that are done -/

/-- What a job leaves when it is done, whatever has failed on the way. -/
def Leads (job : Job ε σ α) (wanted : α → σ → Prop) (before : σ) : Prop :=
  ∀ faults value after, job ⟨faults, before⟩ = (.done value, after) → wanted value after.state

section

variable {job : Job ε σ α} {next : α → Job ε σ β} {wanted wanted' : α → σ → Prop}
  {last : β → σ → Prop} {before : σ}

theorem leads_of_ends {failed : List Fault → Exposed σ → Prop} {crashed : List Fault → σ → Prop}
    (h : ∀ faults, job.Ends (fun value y => wanted value y.state) (failed faults) (crashed faults)
      ⟨faults, before⟩) :
    job.Leads wanted before := fun faults _ _ hrun => (h faults).of_run hrun

theorem Leads.mono (h : job.Leads wanted before) (himp : ∀ value s, wanted value s → wanted' value s) :
    job.Leads wanted' before := fun faults value after hrun => himp value _ (h faults value after hrun)

theorem Leads.bind (h : job.Leads wanted before)
    (hnext : ∀ value s, wanted value s → (next value).Leads last s) :
    (job >>= next).Leads last before := by
  intro faults result after hrun
  obtain ⟨value, middle, hfirst, hrest⟩ := of_bind_run hrun
  exact hnext value middle.state (h faults value middle hfirst) middle.faults result after hrest

theorem leads_pure {value : α} (h : wanted value before) : (pure value : Job ε σ α).Leads wanted before := by
  intro faults result after hrun
  obtain ⟨hvalue, rfl⟩ := Prod.mk.inj hrun
  cases hvalue
  exact h

theorem leads_throw {error : ε} : (throw error : Job ε σ α).Leads wanted before :=
  fun _ _ _ hrun => nomatch hrun

theorem leads_any : job.Leads (fun _ _ => True) before := fun _ _ _ _ => trivial

theorem leads_attempt {P : Except ε α → σ → Prop} (h : job.Leads (fun value => P (.ok value)) before)
    (herror : ∀ error s, P (.error error) s) : job.attempt.Leads P before := by
  intro faults result after hrun
  unfold attempt at hrun
  split at hrun
  · next value middle hjob =>
    obtain ⟨hresult, rfl⟩ := Prod.mk.inj hrun
    cases hresult
    exact h faults value middle hjob
  · next error middle _ =>
    obtain ⟨hresult, rfl⟩ := Prod.mk.inj hrun
    cases hresult
    exact herror error _
  · cases hrun

theorem leads_get_bind {next : σ → Job ε σ β} (h : (next before).Leads last before) :
    (get >>= next).Leads last before := h

theorem leads_modify {wanted : Unit → σ → Prop} (h : wanted () (f before)) :
    (modify f : Job ε σ Unit).Leads wanted before := by
  intro faults value after hrun
  obtain ⟨-, rfl⟩ := Prod.mk.inj hrun
  exact h

theorem leads_ofExcept_bind {result : Except ε α}
    (h : ∀ value, result = .ok value → (next value).Leads last before) :
    (ofExcept result >>= next).Leads last before := by
  cases result with
  | ok value => exact h value rfl
  | error error => exact fun _ _ _ hrun => nomatch hrun

end

end Job

end GhitaBrowser
