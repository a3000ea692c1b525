import JobQueue.Simulation.Step

/-! # The host of a simulated system

The host is the program around the queue. `Simulation.run` runs it on a store; while it waits, the
tasks of the system go on, and with its end all is over. -/

namespace JobQueue

/-- **What a host finds**: a store, a clock and perhaps a runner, which has its configuration. -/
structure Simulation where
  store : Backend
  clock : Clock
  config : RunnerConfig
  runner : Option Runner

namespace Simulation

/-- **The end of a host**, with the declared queues then; there is no end when it waits for what
never happens. -/
def run (s : Simulation) (host : Program) : Option Ending × List QueueName :=
  let w := (World.create s.store s.clock s.config s.runner host).run World.patience
  (w.ended, (w.runner.map Runner.queues).getD [])

end Simulation

end JobQueue
