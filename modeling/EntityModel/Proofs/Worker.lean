import EntityModel.Worker

/-!
# What a worker takes, and when

A worker and those who notify it take turns in any order, each step under a lock, and between the worker's
steps it runs the work that it has taken (`Reloading.Steps`). `covers_of_runs`: nothing that is asked for is
lost, and nothing is run that was not asked for since the run before.

All of it follows from one equivalence, `Runs.queued_iff`: what is queued is what has been asked for since the
worker last took work.
-/

namespace EntityModel

/-! ### Requests -/

/-- What work may be asked for: that one file is read again, or that every file is. -/
inductive Request where
  | file (id : FileId)
  | everything

/-- The work includes what is asked for. -/
def Work.Has (work : Work) : Request → Prop
  | .file id => id ∈ work.changed
  | .everything => work.full = true

namespace Work

theorem not_has_empty (request : Request) : ¬ ({} : Work).Has request := by
  cases request with
  | file id => exact List.not_mem_nil
  | everything => exact Bool.noConfusion

theorem has_addFile_iff {work : Work} {file : FileId} {request : Request} :
    (work.addFile file).Has request ↔ work.Has request ∨ request = .file file := by
  unfold addFile
  split
  · next hold =>
    refine ⟨Or.inl, fun h => h.elim id ?_⟩
    rintro rfl
    exact List.contains_iff_mem.mp hold
  · cases request with
    | file id => simp [Has]
    | everything => simp [Has]

theorem has_foldl_addFile_iff {files : List FileId} {work : Work} {request : Request} :
    (files.foldl addFile work).Has request ↔ work.Has request ∨ ∃ id ∈ files, request = .file id := by
  induction files generalizing work with
  | nil => simp
  | cons file rest ih =>
    rw [List.foldl_cons, ih, has_addFile_iff]
    simp only [List.mem_cons, exists_eq_or_imp, or_assoc]

end Work

namespace Worker

/-! ### Steps -/

/-- A step of those who notify, of the one who asks the worker to end, or of the worker. In `drain` the worker
takes work, in `perform` it runs it on the sources as they are by then, and `complete` ends the run. -/
inductive Event where
  | notifyChanged (files : List FileId)
  | notifyAll
  | stop
  | drain (work : Work)
  | perform (work : Work) (sources : Sources)
  | complete
  | leave

namespace Event

/-- The step asks for something. -/
def Asks : Event → Request → Prop
  | .notifyChanged files, request => ∃ id ∈ files, request = .file id
  | .notifyAll, request => request = .everything
  | _, _ => False

/-- The work that the worker takes in a step. -/
def taken? : Event → Option Work
  | .drain work => some work
  | _ => none

theorem taken?_eq_some {event : Event} {work : Work} : event.taken? = some work ↔ event = .drain work := by
  cases event <;> simp [taken?]

/-- The work that the worker runs in a step. -/
def run? : Event → Option Work
  | .perform work _ => some work
  | _ => none

/-- Whether a step ends a run. -/
def isComplete : Event → Bool
  | .complete => true
  | _ => false

end Event

/-- Whether a run is in progress. -/
def isRunning (worker : Worker) : Bool :=
  match worker.activity with
  | .running _ => true
  | _ => false

/-- A worker and the store that it reloads. `performed` tells whether the worker has run what it has taken. -/
structure Reloading where
  worker : Worker := {}
  store : Store
  performed : Bool := false

/-- The work that has been taken and is still to be run. -/
def Reloading.due (r : Reloading) : List Work :=
  match r.worker.activity with
  | .running work => if r.performed then [] else [work]
  | _ => []

/-- What a step may do. The worker may take work whenever it is not running any, however long it has waited
for more. -/
inductive Reloading.Steps (r : Reloading) : Event → Reloading → Prop
  | notifyChanged (files : List FileId) :
      r.Steps (.notifyChanged files) { r with worker := r.worker.notifyChanged files }
  | notifyAll : r.Steps .notifyAll { r with worker := r.worker.notifyAll }
  | stop : r.Steps .stop { r with worker := r.worker.stop }
  | drain {work : Work} {worker : Worker} (h : r.worker.drain? = some (work, worker)) :
      r.Steps (.drain work) { r with worker }
  | perform {work : Work} (sources : Sources) (hactivity : r.worker.activity = .running work)
      (hdue : r.performed = false) :
      r.Steps (.perform work sources) { r with store := work.perform r.store sources, performed := true }
  | complete (h : r.performed = true) :
      r.Steps .complete { r with worker := r.worker.complete, performed := false }
  | leave {worker : Worker} (h : r.worker.leave? = some worker) : r.Steps .leave { r with worker }

/-- Steps that start with a new worker, in any order in which each may be taken. -/
inductive Runs (store : Store) : List Event → Reloading → Prop
  | start : Runs store [] { store }
  | step {events : List Event} {r r' : Reloading} {event : Event} :
      Runs store events r → r.Steps event r' → Runs store (events ++ [event]) r'

variable {store : Store} {events before after : List Event} {event : Event} {r r' : Reloading} {work : Work}
  {request : Request}

/-! ### What one step does -/

theorem drain?_eq_some {w w' : Worker} (h : w.drain? = some (work, w')) :
    w.activity = .waiting ∧ work = w.queued
      ∧ w' = { w with queued := {}, activity := .running w.queued } := by
  unfold drain? at h
  split at h
  · next hwaits =>
    cases h
    exact ⟨hwaits.1, rfl, rfl⟩
  · cases h

theorem complete_eq {w : Worker} (h : w.isRunning = true) :
    w.complete = { w with activity := .waiting, completedRuns := w.completedRuns + 1 } := by
  unfold isRunning at h
  split at h
  · next hactivity => simp only [complete, hactivity]
  · cases h

@[simp] theorem queued_complete (w : Worker) : w.complete.queued = w.queued := by
  unfold complete
  split <;> rfl

@[simp] theorem stopping_complete (w : Worker) : w.complete.stopping = w.stopping := by
  unfold complete
  split <;> rfl

theorem leave?_eq_some {w w' : Worker} (h : w.leave? = some w') :
    w.activity = .waiting ∧ w.stopping = true ∧ w.queued.isEmpty = true ∧ w' = { w with activity := .ended } := by
  unfold leave? at h
  split at h
  · next hguard =>
    cases h
    exact ⟨hguard.1, hguard.2.1, hguard.2.2, rfl⟩
  · cases h

/-- What a step leaves queued: what was queued, unless the worker takes it, and what the step asks for. -/
theorem Reloading.Steps.queued_iff (h : r.Steps event r') :
    r'.worker.queued.Has request
      ↔ event.taken? = none ∧ (r.worker.queued.Has request ∨ event.Asks request) := by
  cases h with
  | notifyChanged files => simp [Worker.notifyChanged, Work.has_foldl_addFile_iff, Event.taken?, Event.Asks]
  | notifyAll => cases request <;> simp [Worker.notifyAll, Work.Has, Event.taken?, Event.Asks]
  | stop => simp [Worker.stop, Event.taken?, Event.Asks]
  | drain hdrain =>
    obtain ⟨-, -, rfl⟩ := drain?_eq_some hdrain
    simp [Work.not_has_empty, Event.taken?]
  | perform sources hactivity hdue => simp [Event.taken?, Event.Asks]
  | complete hperformed => simp [Event.taken?, Event.Asks]
  | leave hleave =>
    obtain ⟨-, -, -, rfl⟩ := leave?_eq_some hleave
    simp [Event.taken?, Event.Asks]

theorem Reloading.Steps.taken_eq (h : r.Steps event r') (htaken : event.taken? = some work) :
    work = r.worker.queued := by
  cases h with
  | drain hdrain =>
    obtain ⟨-, rfl, -⟩ := drain?_eq_some hdrain
    exact (Option.some.inj htaken).symm
  | _ => cases htaken

theorem Reloading.Steps.stopping_iff (h : r.Steps event r') :
    r'.worker.stopping = true ↔ r.worker.stopping = true ∨ event = .stop := by
  cases h with
  | drain hdrain =>
    obtain ⟨-, -, rfl⟩ := drain?_eq_some hdrain
    simp
  | leave hleave =>
    obtain ⟨-, -, -, rfl⟩ := leave?_eq_some hleave
    simp
  | _ => simp [Worker.notifyChanged, Worker.notifyAll, Worker.stop]

/-! ### What is queued -/

theorem concat_eq_append_cons {last : Event} (h : events ++ [last] = before ++ event :: after) :
    (events = before ∧ last = event ∧ after = [])
      ∨ ∃ after', events = before ++ event :: after' ∧ after = after' ++ [last] := by
  rcases List.eq_nil_or_concat after with rfl | ⟨after', last', rfl⟩
  · obtain ⟨hbefore, hlast⟩ := List.append_inj' h rfl
    exact Or.inl ⟨hbefore, (List.cons.inj hlast).1, rfl⟩
  · rw [List.concat_eq_append] at h ⊢
    rw [← List.cons_append, ← List.append_assoc] at h
    obtain ⟨hevents, hlast⟩ := List.append_inj' h rfl
    obtain rfl := (List.cons.inj hlast).1
    exact Or.inr ⟨after', hevents, rfl⟩

theorem Runs.split (hruns : Runs store events r) (hevents : events = before ++ event :: after) :
    ∃ r₁ r₂, Runs store before r₁ ∧ r₁.Steps event r₂ := by
  induction hruns generalizing after with
  | start => simp at hevents
  | step hearlier hlast ih =>
    rcases concat_eq_append_cons hevents with ⟨rfl, rfl, -⟩ | ⟨after', hbefore, -⟩
    · exact ⟨_, _, hearlier, hlast⟩
    · exact ih hbefore

/-- The steps since the worker last took work, the last one first. -/
def sinceTaken (events : List Event) : List Event := events.reverse.takeWhile (·.taken?.isNone)

theorem mem_sinceTaken_concat {other : Event} :
    other ∈ sinceTaken (events ++ [event])
      ↔ event.taken? = none ∧ (other = event ∨ other ∈ sinceTaken events) := by
  rw [sinceTaken, List.reverse_concat, List.takeWhile_cons]
  rcases htaken : event.taken? with _ | work
  · simp [sinceTaken]
  · simp

/-- **What is queued is what has been asked for since the worker last took work.** -/
theorem Runs.queued_iff (hruns : Runs store events r) :
    r.worker.queued.Has request ↔ ∃ event ∈ sinceTaken events, event.Asks request := by
  induction hruns with
  | start => simp [Work.not_has_empty, sinceTaken]
  | step _ hstep ih =>
    rw [hstep.queued_iff, ih]
    constructor
    · rintro ⟨hnone, ⟨other, hother, hasks⟩ | hasks⟩
      · exact ⟨other, mem_sinceTaken_concat.mpr ⟨hnone, Or.inr hother⟩, hasks⟩
      · exact ⟨_, mem_sinceTaken_concat.mpr ⟨hnone, Or.inl rfl⟩, hasks⟩
    · rintro ⟨other, hother, hasks⟩
      obtain ⟨hnone, rfl | hother⟩ := mem_sinceTaken_concat.mp hother
      · exact ⟨hnone, Or.inr hasks⟩
      · exact ⟨hnone, Or.inl ⟨other, hother, hasks⟩⟩

theorem Runs.queued_or_taken (hruns : Runs store events r) (hevents : events = before ++ event :: after)
    (hasks : event.Asks request) :
    r.worker.queued.Has request ∨ ∃ work, .drain work ∈ after ∧ work.Has request := by
  induction hruns generalizing after with
  | start => simp at hevents
  | @step _ _ _ last _ hlast ih =>
    rcases concat_eq_append_cons hevents with ⟨-, rfl, -⟩ | ⟨after', hbefore, rfl⟩
    · -- the step that asks takes nothing, so what it asks for is still queued after it
      refine Or.inl (hlast.queued_iff.mpr ⟨?_, Or.inr hasks⟩)
      cases last <;> first | rfl | exact hasks.elim
    · rcases ih hbefore with hqueued | ⟨work, htaken, hhas⟩
      · rcases htaken : last.taken? with _ | work
        · exact Or.inl (hlast.queued_iff.mpr ⟨htaken, Or.inl hqueued⟩)
        · obtain rfl := Event.taken?_eq_some.mp htaken
          refine Or.inr ⟨work, by simp, ?_⟩
          rwa [hlast.taken_eq htaken]
      · exact Or.inr ⟨work, List.mem_append_left _ htaken, hhas⟩

theorem Runs.stopping_iff (hruns : Runs store events r) : r.worker.stopping = true ↔ .stop ∈ events := by
  induction hruns with
  | start => simp
  | step _ hstep ih =>
    rw [hstep.stopping_iff, ih, List.mem_append, List.mem_singleton]
    exact or_congr_right eq_comm

/-! ### What is run -/

/-- The runs of the worker, by the steps that it has taken: the work that it takes is run once, in the order in
which it is taken, and all but the run in progress is completed. -/
structure Accounts (events : List Event) (r : Reloading) : Prop where
  taken : events.filterMap Event.taken? = events.filterMap Event.run? ++ r.due
  inProgress : (events.filterMap Event.taken?).length
    = r.worker.completedRuns + if r.worker.isRunning then 1 else 0
  completed : events.countP Event.isComplete = r.worker.completedRuns
  performed : r.performed = true → r.worker.isRunning = true

theorem accounts_start (store : Store) : Accounts [] { store } :=
  ⟨rfl, rfl, rfl, fun h => by cases h⟩

theorem filterMap_concat (f : Event → Option Work) :
    (events ++ [event]).filterMap f = events.filterMap f ++ (f event).toList := by
  rw [List.filterMap_append]
  cases h : f event <;> simp [h]

/-- A step that neither takes work nor runs it nor ends a run leaves the accounts as they are. -/
theorem Accounts.quiet (haccounts : Accounts events r) (htaken : event.taken? = none) (hrun : event.run? = none)
    (hcomplete : event.isComplete = false) (hdue : r'.due = r.due)
    (hruns : r'.worker.completedRuns = r.worker.completedRuns)
    (hrunning : r'.worker.isRunning = r.worker.isRunning) (hperformed : r'.performed = r.performed) :
    Accounts (events ++ [event]) r' where
  taken := by
    rw [filterMap_concat, filterMap_concat, htaken, hrun, hdue, Option.toList_none, List.append_nil,
      List.append_nil]
    exact haccounts.taken
  inProgress := by
    rw [filterMap_concat, htaken, Option.toList_none, List.append_nil, hruns, hrunning]
    exact haccounts.inProgress
  completed := by
    rw [List.countP_append, List.countP_singleton, hcomplete, hruns]
    exact haccounts.completed
  performed := by
    rw [hperformed, hrunning]
    exact haccounts.performed

theorem Accounts.drain (haccounts : Accounts events r) (hactivity : r.worker.activity = .waiting) :
    Accounts (events ++ [.drain r.worker.queued])
      { r with worker := { r.worker with queued := {}, activity := .running r.worker.queued } } := by
  obtain ⟨htaken, hcount, hcompleted, hperformed⟩ := haccounts
  have hidle : r.worker.isRunning = false := by simp [isRunning, hactivity]
  -- a run that has been performed is still in progress, and here none is
  have hfresh : r.performed = false := by
    rw [← Bool.not_eq_true]
    intro hdone
    rw [hperformed hdone] at hidle
    cases hidle
  have hnone : r.due = [] := by simp [Reloading.due, hactivity]
  rw [hnone, List.append_nil] at htaken
  rw [hidle] at hcount
  refine ⟨?_, ?_, ?_, fun _ => rfl⟩
  · rw [filterMap_concat, filterMap_concat, htaken]
    simp [Event.taken?, Event.run?, Reloading.due, hfresh]
  · rw [filterMap_concat, List.length_append, hcount]
    rfl
  · simpa [Event.isComplete] using hcompleted

theorem Accounts.perform (haccounts : Accounts events r) {sources : Sources}
    (hactivity : r.worker.activity = .running work) (hdue : r.performed = false) :
    Accounts (events ++ [.perform work sources])
      { r with store := work.perform r.store sources, performed := true } := by
  obtain ⟨htaken, hcount, hcompleted, -⟩ := haccounts
  have hrunning : r.worker.isRunning = true := by simp [isRunning, hactivity]
  have hone : r.due = [work] := by simp [Reloading.due, hactivity, hdue]
  rw [hone] at htaken
  refine ⟨?_, ?_, ?_, fun _ => hrunning⟩
  · rw [filterMap_concat, filterMap_concat, htaken]
    simp [Event.taken?, Event.run?, Reloading.due, hactivity]
  · rw [filterMap_concat, List.length_append, hcount]
    rfl
  · simpa [Event.isComplete] using hcompleted

theorem Accounts.complete (haccounts : Accounts events r) (hdone : r.performed = true) :
    Accounts (events ++ [.complete]) { r with worker := r.worker.complete, performed := false } := by
  obtain ⟨htaken, hcount, hcompleted, hperformed⟩ := haccounts
  have hrunning := hperformed hdone
  have hnone : r.due = [] := by
    unfold Reloading.due
    split <;> simp [hdone]
  rw [hnone] at htaken
  rw [hrunning] at hcount
  rw [complete_eq hrunning]
  refine ⟨?_, ?_, ?_, fun h => by cases h⟩
  · rw [filterMap_concat, filterMap_concat, htaken]
    simp [Event.taken?, Event.run?, Reloading.due]
  · rw [filterMap_concat, List.length_append, hcount]
    rfl
  · simpa [Event.isComplete] using hcompleted

theorem Accounts.step (haccounts : Accounts events r) (hstep : r.Steps event r') :
    Accounts (events ++ [event]) r' := by
  cases hstep with
  | notifyChanged files => exact haccounts.quiet rfl rfl rfl rfl rfl rfl rfl
  | notifyAll => exact haccounts.quiet rfl rfl rfl rfl rfl rfl rfl
  | stop => exact haccounts.quiet rfl rfl rfl rfl rfl rfl rfl
  | drain hdrain =>
    obtain ⟨hactivity, rfl, rfl⟩ := drain?_eq_some hdrain
    exact haccounts.drain hactivity
  | perform sources hactivity hdue => exact haccounts.perform hactivity hdue
  | complete hdone => exact haccounts.complete hdone
  | leave hleave =>
    obtain ⟨hactivity, -, -, rfl⟩ := leave?_eq_some hleave
    refine haccounts.quiet rfl rfl rfl ?_ rfl ?_ rfl
    · simp [Reloading.due, hactivity]
    · simp [isRunning, hactivity]

theorem Runs.accounts (hruns : Runs store events r) : Accounts events r := by
  induction hruns with
  | start => exact accounts_start store
  | step _ hstep ih => exact ih.step hstep

/-! ### Settling -/

theorem Runs.leave {worker : Worker} {store' : Store} (hruns : Runs store events ⟨worker, store', false⟩) :
    ∃ more, Runs store (events ++ more) ⟨worker.leaveIfDone, store', false⟩ := by
  unfold leaveIfDone
  rcases hleave : worker.leave? with _ | left
  · exact ⟨[], by rwa [List.append_nil]⟩
  · exact ⟨[.leave], hruns.step (.leave hleave)⟩

theorem Runs.settle {worker : Worker} {store' : Store} (hruns : Runs store events ⟨worker, store', false⟩)
    (sources : Sources) :
    ∃ more, Runs store (events ++ more)
      ⟨(worker.settle store' sources).1, (worker.settle store' sources).2, false⟩ := by
  unfold Worker.settle
  split
  · next work busy hdrain =>
    obtain ⟨-, rfl, rfl⟩ := drain?_eq_some hdrain
    have htaken := hruns.step (.drain hdrain)
    have hperformed := htaken.step (.perform sources rfl rfl)
    obtain ⟨more, hleft⟩ := (hperformed.step (.complete rfl)).leave
    refine ⟨[.drain worker.queued, .perform worker.queued sources, .complete] ++ more, ?_⟩
    simpa using hleft
  · exact hruns.leave

/-! ### The whole -/

/-- What steps that lead to a state say of it. What has been asked for is queued or was taken by a run that
started later; what a run takes has been asked for since the run before; the runs are accounted for; and when
the worker leaves, it has been asked to end and nothing is queued. -/
structure Covers (store : Store) (events : List Event) (r : Reloading) : Prop where
  kept : ∀ before event after, events = before ++ event :: after → ∀ request, event.Asks request →
    r.worker.queued.Has request ∨ ∃ work, .drain work ∈ after ∧ work.Has request
  fresh : ∀ before work after, events = before ++ .drain work :: after → ∀ request, work.Has request →
    ∃ event ∈ sinceTaken before, event.Asks request
  accounts : Accounts events r
  ended : ∀ before after, events = before ++ .leave :: after →
    .stop ∈ before ∧ ∃ r', Runs store before r' ∧ r'.worker.queued.isEmpty = true

/-- **A worker loses no request and makes none up**, in whatever order it and others take their steps. -/
theorem covers_of_runs (hruns : Runs store events r) : Covers store events r where
  kept before event after hevents request hasks := hruns.queued_or_taken hevents hasks
  fresh before work after hevents request hhas := by
    obtain ⟨r₁, r₂, hbefore, hdrain⟩ := hruns.split hevents
    rw [hdrain.taken_eq rfl] at hhas
    exact hbefore.queued_iff.mp hhas
  accounts := hruns.accounts
  ended before after hevents := by
    obtain ⟨r₁, r₂, hbefore, hleave⟩ := hruns.split hevents
    cases hleave with
    | leave hleave =>
      obtain ⟨-, hstop, hqueued, -⟩ := leave?_eq_some hleave
      exact ⟨hbefore.stopping_iff.mp hstop, r₁, hbefore, hqueued⟩

/-- A file is notified, and while its run is in progress so is everything. Then the worker is asked to end; it
runs what is queued and leaves. -/
def untilStopped (id : FileId) (sources : Sources) : List Event :=
  [.notifyChanged [id], .drain ⟨[id], false⟩, .notifyAll, .perform ⟨[id], false⟩ sources, .stop, .complete,
    .drain ⟨[], true⟩, .perform ⟨[], true⟩ sources, .complete, .leave]

theorem runs_untilStopped (store : Store) (id : FileId) (sources : Sources) :
    ∃ r, Runs store (untilStopped id sources) r := by
  have hstart : Runs store [] { store } := .start
  have hfirst := Runs.step (.step (hstart.step (.notifyChanged [id])) (.drain rfl)) .notifyAll
  have hsecond := Runs.step (.step (.step hfirst (.perform sources rfl rfl)) .stop) (.complete rfl)
  have hlast := Runs.step (.step (.step hsecond (.drain rfl)) (.perform sources rfl rfl)) (.complete rfl)
  exact ⟨_, hlast.step (.leave rfl)⟩

theorem covers_of_runs_untilStopped :
    ∃ r, Runs { settings := {} } (untilStopped ⟨"App", "Data", "A"⟩ (.ofFiles .empty)) r
      ∧ Covers { settings := {} } (untilStopped ⟨"App", "Data", "A"⟩ (.ofFiles .empty)) r := by
  obtain ⟨r, hruns⟩ := runs_untilStopped { settings := {} } ⟨"App", "Data", "A"⟩ (.ofFiles .empty)
  exact ⟨r, hruns, covers_of_runs hruns⟩

end Worker

end EntityModel
