import ConfigSync.Core
import ConfigSync.OrderedMap
import ConfigSync.Declared.Resources
import ConfigSync.Declared.Metrics
import ConfigSync.Parse.Updater
import ConfigSync.Parse.Snapshot
import ConfigSync.Apply.Applier
import ConfigSync.Parse.Concurrency
import ConfigSync.Parse.Retry
import ConfigSync.Events.Publishers
import ConfigSync.Metrics.Views
import ConfigSync.Metrics.DeclaredResources
