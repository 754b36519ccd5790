import DataBinding.Compiled.Compile

/-!
# Dispatching jobs

Bindings hand their writes and calls to a dispatcher as jobs. Without a dispatcher a job runs at once.
-/

namespace DataBinding

open Effect

def Assignment.run (host : Host) (a : Assignment) : Effect Unit := do
  modify fun w => { w with assignments := a :: w.assignments }
  a.target.run host a.value

def Job.run (host : Host) : Job → Effect Unit
  | assign a => a.run host
  | call g => do
    let _ ← g.run host

def Effect.enqueue (j : Job) : Effect Unit := modify fun w => { w with jobs := w.jobs ++ [j] }

def dispatch (host : Host) (d : Option Dispatcher) (j : Job) : Effect Unit := do
  match d with
  | none => j.run host
  | some d =>
    tell ("dispatch " ++ d.text)
    match d with
    | .inline => j.run host
    | .reported =>
      let outcome ← attempt (j.run host)
      -- Told also when the job has failed; the failure goes on after that.
      tell "dispatched"
      ofExcept outcome
    | .discard => pure ()
    | .defer => enqueue j
    | .refuse => fail (.host "dispatcher refused")

/-- Runs at most `n` queued jobs, the oldest first, up to the first that fails. -/
def flush (host : Host) : Nat → Effect Unit
  | 0 => pure ()
  | n + 1 => do
    match (← get).jobs with
    | [] => pure ()
    | j :: js =>
      -- The job has left the queue before it runs, so a flush inside it goes on with the next one.
      modify fun w => { w with jobs := js }
      j.run host
      flush host n

end DataBinding
