import Turnloop.Lib.Keyed

/-! The workers of long jobs: no queue, threads on demand. -/

namespace Turnloop.Pool

/-- What the lock `handoff` guards. A job is the number of the call that submits it. -/
structure Long where
  jobs : List ℕ
  threads : ℕ
  idle : ℕ
  started : ℕ

inductive Worker where
  | running (job : ℕ)
  | parked
  | retiring
  | gone

namespace Worker

def isParked : Worker → Bool
  | parked => true
  | _ => false

def isLive : Worker → Bool
  | gone => false
  | _ => true

end Worker

inductive Submission where
  | spawning
  | accepted
  | refused
  deriving DecidableEq

def Submission.isSpawning : Submission → Bool
  | spawning => true
  | _ => false

/-- `runs` records which worker began which job and is never read. -/
structure LongSet where
  long : Long
  live : ℕ
  max : ℕ
  calls : List Submission
  workers : List Worker
  runs : List (ℕ × ℕ)

namespace LongSet

def new (max : ℕ) : LongSet := ⟨⟨[], 0, 0, 0⟩, 0, max, [], [], []⟩

def submit (s : LongSet) : LongSet :=
  if s.long.jobs.length < s.long.idle then
    { s with
      long := { s.long with jobs := s.long.jobs ++ [s.calls.length] }
      calls := s.calls ++ [.accepted] }
  else if s.max ≤ s.long.threads then { s with calls := s.calls ++ [.refused] }
  else
    { s with
      long := { s.long with
        threads := s.long.threads + 1
        started := s.long.started + 1 }
      live := s.long.threads + 1
      calls := s.calls ++ [.spawning] }

/-- The answer of `spawn`; a failure takes the lock again. -/
def spawn (s : LongSet) (job : ℕ) (ok : Bool) : LongSet :=
  if s.calls[job]? ≠ some .spawning then s
  else if ok then
    { s with
      calls := s.calls.set job .accepted
      workers := s.workers ++ [.running job]
      runs := s.runs ++ [(job, s.workers.length)] }
  else
    { s with
      long := { s.long with threads := s.long.threads - 1 }
      live := s.long.threads - 1
      calls := s.calls.set job .refused }

def serve (s : LongSet) (w : ℕ) : LongSet :=
  match s.long.jobs with
  | job :: rest =>
    { s with
      long := { s.long with
        jobs := rest
        idle := s.long.idle - 1 }
      workers := s.workers.set w (.running job)
      runs := s.runs ++ [(job, w)] }
  | [] => { s with workers := s.workers.set w .parked }

def finish (s : LongSet) (w : ℕ) : LongSet :=
  match s.workers[w]? with
  | some (.running _) => serve { s with long := { s.long with idle := s.long.idle + 1 } } w
  | _ => s

/-- `wait_timeout` returns: notified, spuriously or in time. -/
def wake (s : LongSet) (w : ℕ) (timedOut : Bool) : LongSet :=
  match s.workers[w]? with
  | some .parked =>
    if timedOut && s.long.jobs.isEmpty then
      { s with
        long := { s.long with idle := s.long.idle - 1 }
        workers := s.workers.set w .retiring }
    else s.serve w
  | _ => s

/-- `Retire::drop` -/
def dropRetire (s : LongSet) (w : ℕ) : LongSet :=
  { s with
    long := { s.long with threads := s.long.threads - 1 }
    live := s.long.threads - 1
    workers := s.workers.set w .gone }

def retire (s : LongSet) (w : ℕ) : LongSet :=
  match s.workers[w]? with
  | some .retiring => s.dropRetire w
  | _ => s

def unwind (s : LongSet) (w : ℕ) : LongSet :=
  match s.workers[w]? with
  | some (.running _) => s.dropRetire w
  | _ => s

inductive Action where
  | submit
  | spawn (job : ℕ) (ok : Bool)
  | finish (w : ℕ)
  | wake (w : ℕ) (timedOut : Bool)
  | retire (w : ℕ)
  | unwind (w : ℕ)

def step (s : LongSet) : Action → LongSet
  | .submit => s.submit
  | .spawn job ok => s.spawn job ok
  | .finish w => s.finish w
  | .wake w timedOut => s.wake w timedOut
  | .retire w => s.retire w
  | .unwind w => s.unwind w

def run (s : LongSet) (actions : List Action) : LongSet := actions.foldl step s

end LongSet

end Turnloop.Pool
