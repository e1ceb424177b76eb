import ItemBinning.Engine.Basic
import ItemBinning.Settings.Store

/-!
# Creating engines

An engine is given a policy and a chunk size, or takes them from the shared
settings.  Settings that were not loaded before are loaded from the default
file, which says what the defaults say.
-/

namespace ItemBinning

variable [Host]

/-- The number of the shared settings, which are loaded from the default file if
there are none. -/
def SettingsStore.getShared : Act SettingsStore Nat :=
  SettingsStore.get (.ok .null) []

namespace Engine

/-- The binning section of the shared settings; it is not looked up for an engine
that is given everything. -/
def sectionFor (policy : Option Policy) (chunkSize : Option Value) :
    Act SettingsStore Section :=
  if policy.isSome && chunkSize.isSome then pure (.default .binning)
  else do
    let number ← SettingsStore.getShared
    Act.read fun store => (store.settings number).binning

/-- The policy and the chunk size of an engine. -/
def parts (policy : Option Policy) (chunkSize : Option Value) :
    Act SettingsStore (Policy × Number) := do
  let binning ← sectionFor policy chunkSize
  let policy ← match policy with
    | some given => pure given
    | none => Act.ofExcept (Policy.ofSection binning)
  let chunkSize ← Act.ofExcept
    (readChunkSize (chunkSize.getD (binning.get "chunk_size")))
  return (policy, chunkSize)

end Engine

end ItemBinning
