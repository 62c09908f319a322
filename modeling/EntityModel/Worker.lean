import EntityModel.Store

/-!
# Reloading in the background

Notifications of changes are merged into queued work. A single worker takes all queued work at once and
runs it; what is notified meanwhile is queued for the next run. A worker that is told to stop ends when
nothing is queued. Every step is a function of the state that notifiers and worker share.
-/

namespace EntityModel

/-- Queued work: files that have changed, and whether every file is to be read. -/
structure Work where
  changed : List FileId := []
  full : Bool := false
deriving DecidableEq

namespace Work

def isEmpty (work : Work) : Bool := !work.full && work.changed.isEmpty

def addFile (work : Work) (file : FileId) : Work :=
  if work.changed.contains file then work else { work with changed := work.changed ++ [file] }

/-- Does the work on a store. -/
def perform (work : Work) (store : Store) (sources : Sources) : Store :=
  if work.full then (store.reload sources).1 else (store.reloadChanged sources work.changed).1

end Work

inductive Activity where
  | waiting
  | running (work : Work)
  | ended
deriving DecidableEq

/-- The state that notifiers and worker share. -/
structure Worker where
  queued : Work := {}
  activity : Activity := .waiting
  stopping : Bool := false
  completedRuns : Nat := 0
deriving DecidableEq

namespace Worker

def notifyChanged (worker : Worker) (files : List FileId) : Worker :=
  { worker with queued := files.foldl Work.addFile worker.queued }

/-- Queues a run that reads every file. -/
def notifyAll (worker : Worker) : Worker :=
  { worker with queued := { worker.queued with full := true } }

def stop (worker : Worker) : Worker := { worker with stopping := true }

/-- The worker takes all queued work, if it waits and there is any. -/
def drain? (worker : Worker) : Option (Work × Worker) :=
  if worker.activity = .waiting ∧ ¬worker.queued.isEmpty then
    some (worker.queued, { worker with queued := {}, activity := .running worker.queued })
  else none

/-- The worker finishes the work that it took. -/
def complete (worker : Worker) : Worker :=
  match worker.activity with
  | .running _ =>
    { worker with activity := .waiting, completedRuns := worker.completedRuns + 1 }
  | _ => worker

/-- The worker ends, if it waits, is to stop, and has nothing queued. -/
def leave? (worker : Worker) : Option Worker :=
  if worker.activity = .waiting ∧ worker.stopping ∧ worker.queued.isEmpty then
    some { worker with activity := .ended }
  else none

/-- The worker ends if it may. -/
def leaveIfDone (worker : Worker) : Worker := worker.leave?.getD worker

def isAlive (worker : Worker) : Bool := worker.activity != .ended

/-- Whether no work is queued or in progress. -/
def isIdle (worker : Worker) : Bool :=
  worker.queued.isEmpty && match worker.activity with
    | .running _ => false
    | _ => true

/-- Does the work that is queued, as one run on a store. -/
def settle (worker : Worker) (store : Store) (sources : Sources) : Worker × Store :=
  match worker.drain? with
  | some (work, worker) => (worker.complete.leaveIfDone, work.perform store sources)
  | none => (worker.leaveIfDone, store)

end Worker

end EntityModel
