import ItemBinning.Engine.Creation
import ItemBinning.Scheduler

/-!
# Creating schedulers

A scheduler is given a configuration, a number of threads and a time to rest, or
takes them from the shared settings.  Its time-out always comes from there.
-/

namespace ItemBinning.Scheduler

/-- Build a scheduler for an engine. -/
def ofSettings [Host] (engine : Engine) (configuration : Option Configuration)
    (tasks rest : Option Value) (extra : ExtraCheck := ExtraCheck.none) :
    Act SettingsStore Scheduler := do
  let number ← SettingsStore.getShared
  let settings ← Act.read (·.settings number)
  let configuration ← match configuration with
    | some given => pure given
    | none => Act.ofExcept (Configuration.ofSection settings.binning)
  Act.ofExcept <| create engine configuration
    (tasks.getD (settings.scheduler.get "concurrent_tasks"))
    (rest.getD (settings.scheduler.get "yield_duration_ms"))
    (settings.scheduler.get "stop_timeout_seconds") extra

end ItemBinning.Scheduler
