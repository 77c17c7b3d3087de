import CqlWorkload.Path

/-!
# Settings

Settings say where the configuration is, how much is logged, and where to.
-/

namespace CqlWorkload

structure Settings where
  configFile : Path
  logLevel : String
  logFile : Option Path
  deriving DecidableEq

def Settings.standard : Settings := ⟨Path.ofText "exporter.yaml", "INFO", none⟩

end CqlWorkload
