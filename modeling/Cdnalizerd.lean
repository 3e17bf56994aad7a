import Cdnalizerd.UrlDestination
import Cdnalizerd.Config
import Cdnalizerd.Library.TwoCursors
import Cdnalizerd.Sync
import Cdnalizerd.SyncOrder
import Cdnalizerd.SyncNames
import Cdnalizerd.Jobs
import Cdnalizerd.Library.Runs
import Cdnalizerd.Workers
import Cdnalizerd.WorkerRuns
import Cdnalizerd.WorkerOrder
import Cdnalizerd.Inotify
import Cdnalizerd.MainProcess
import Cdnalizerd.WorkerShutdown
import Cdnalizerd.EventLoop
import Cdnalizerd.DirectoryWorld
import Cdnalizerd.DirectoryWatches
import Cdnalizerd.DirectoryRuns
import Cdnalizerd.FileWorld
import Cdnalizerd.Library.WriteBehind
import Cdnalizerd.JobEffects
import Cdnalizerd.FileNames
import Cdnalizerd.FileCopies
import Cdnalizerd.FileMirror
import Cdnalizerd.JobAttempts
import Cdnalizerd.Library.Grammar
import Cdnalizerd.UrlGrammar
import Cdnalizerd.UrlStates
import Cdnalizerd.UrlFields
import Cdnalizerd.Connection
import Cdnalizerd.ConnectionAttempts
import Cdnalizerd.ConnectionReads
import Cdnalizerd.JobRetries
import Cdnalizerd.WorkerFailures
import Cdnalizerd.Listing
import Cdnalizerd.ListingPages
import Cdnalizerd.Library.InverseMaps
import Cdnalizerd.WatchTables
import Cdnalizerd.EventReader
import Cdnalizerd.EventFrames
import Cdnalizerd.IgnoredPaths
import Cdnalizerd.ConfigEntries
import Cdnalizerd.ConfiguredWatches
import Cdnalizerd.DestinationStrings
import Cdnalizerd.SyncJobs
import Cdnalizerd.UrlTargets
import Cdnalizerd.WorkerLifetimes
import Cdnalizerd.WorkerLoads
import Cdnalizerd.StartUp
import Cdnalizerd.SyncFailures
import Cdnalizerd.Library.LeftOvers
import Cdnalizerd.SyncSources
import Cdnalizerd.Library.QueryStrings
import Cdnalizerd.ListingTargets
import Cdnalizerd.WatchHandles
import Cdnalizerd.EntryOrder
import Cdnalizerd.JoinPaths
import Cdnalizerd.ConfigReader
import Cdnalizerd.WorkerCompletions
import Cdnalizerd.WorkerSchedules
import Cdnalizerd.OutstandingJobs
import Cdnalizerd.FileWorkers
import Cdnalizerd.Library.Assignments
import Cdnalizerd.Accounts
import Cdnalizerd.Logins
import Cdnalizerd.SyncTwice
import Cdnalizerd.RequestLines
import Cdnalizerd.SyncedMirror
import Cdnalizerd.WatchedSync
import Cdnalizerd.SyncAnyOrder
import Cdnalizerd.RetriedEffects
import Cdnalizerd.DestinationTargets
import Cdnalizerd.WorkerTokens
import Cdnalizerd.EntriesApart
import Cdnalizerd.EntryParts
import Cdnalizerd.ParallelSync
import Cdnalizerd.SharedDaemon
