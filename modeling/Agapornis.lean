import Agapornis.Foundations.Text
import Agapornis.Foundations.Numerals
import Agapornis.Foundations.ByteStream
import Agapornis.Foundations.Utf8
import Agapornis.Foundations.Utf8Lossy
import Agapornis.Foundations.TextLines
import Agapornis.Foundations.PathWalk
import Agapornis.Foundations.PathText
import Agapornis.Foundations.TreeEdits
import Agapornis.Foundations.TreeMoves
import Agapornis.Foundations.Renames
import Agapornis.Foundations.Folder
import Agapornis.Foundations.Program
import Agapornis.Foundations.RunRecords
import Agapornis.Foundations.StreamEnds
import Agapornis.Foundations.CanonicalNumerals
import Agapornis.Foundations.RangeTexts
import Agapornis.Foundations.TemporaryObjects
import Agapornis.Foundations.OpenFiles
import Agapornis.Foundations.Interleaving
import Agapornis.Foundations.KeyedEdits
import Agapornis.Foundations.Machine
import Agapornis.Foundations.StableRank
import Agapornis.Foundations.Table
import Agapornis.Foundations.Ownership
import Agapornis.Foundations.ShellWords
import Agapornis.Foundations.ShellRuns
import Agapornis.Core.Failure
import Agapornis.Core.Paths
import Agapornis.Core.PlainNames
import Agapornis.Core.ServerPaths
import Agapornis.Core.Value
import Agapornis.Core.ValuePlaces
import Agapornis.Storage.Confinement
import Agapornis.Storage.Files
import Agapornis.Storage.Moving
import Agapornis.Storage.ModpackPlaces
import Agapornis.Storage.Extraction
import Agapornis.Storage.Restore
import Agapornis.Storage.Deletion
import Agapornis.Storage.Separation
import Agapornis.Storage.ContainerListing
import Agapornis.Storage.Crypto
import Agapornis.Storage.Backups
import Agapornis.Storage.BackupSteps
import Agapornis.Storage.BackupRoundTrip
import Agapornis.Storage.TrueBackups
import Agapornis.Storage.RemoteListing
import Agapornis.Storage.RemoteRetention
import Agapornis.Storage.LocalListing
import Agapornis.Storage.ModpackSizes
import Agapornis.Storage.Exports
import Agapornis.Storage.Temporaries
import Agapornis.Storage.Imports
import Agapornis.Runtime.Configuration
import Agapornis.Runtime.Update
import Agapornis.Runtime.UpdateCalls
import Agapornis.Runtime.UpdateCrash
import Agapornis.Runtime.UpdateTrial
import Agapornis.Runtime.UpdateRules
import Agapornis.Runtime.UpdateInterleaving
import Agapornis.Runtime.ServeLoop
import Agapornis.Runtime.Ports
import Agapornis.Runtime.PortReservations
import Agapornis.Runtime.PortPublication
import Agapornis.Runtime.MappingAgreement
import Agapornis.Runtime.DiskCache
import Agapornis.Runtime.DiskWaiters
import Agapornis.Runtime.StartupDetection
import Agapornis.Runtime.Limits
import Agapornis.Runtime.Agreement
import Agapornis.Runtime.Repair
import Agapornis.Runtime.Replacing
import Agapornis.Runtime.Held
import Agapornis.Runtime.Alone
import Agapornis.Runtime.OneAtATime
import Agapornis.Runtime.UsedIds
import Agapornis.Runtime.InstallerOutput
import Agapornis.Runtime.PinnedThreads
import Agapornis.Runtime.RefusedUpdates
import Agapornis.Runtime.ExecOutput
import Agapornis.Runtime.Supervisor
import Agapornis.Runtime.CrashLoops
import Agapornis.Runtime.Scans
import Agapornis.Security.Certificates
import Agapornis.Security.CertificateRuns
import Agapornis.Foundations.RateWindows
import Agapornis.Security.Protection
import Agapornis.Security.StrikeEpisodes
import Agapornis.Console.History
import Agapornis.Console.HistoryRules
import Agapornis.Console.HistoryTimes
import Agapornis.Console.Sequences
import Agapornis.Console.HistoryBooks
import Agapornis.Console.Retention
import Agapornis.Console.Viewing
import Agapornis.Console.LiveOrder
import Agapornis.Console.Hub
import Agapornis.Console.Inventory
import Agapornis.Console.Readers
import Agapornis.Console.Ownership
import Agapornis.Console.Generations
import Agapornis.Console.Stopping
import Agapornis.Console.Removal
import Agapornis.Console.Decoder
import Agapornis.Console.LineSplitting
import Agapornis.Console.Commands
import Agapornis.Console.LogReader
import Agapornis.Console.Reattachment
import Agapornis.Security.LineLimits
import Agapornis.Console.ThrottledReading
import Agapornis.Storage.ContainerScripts
import Agapornis.Storage.ContainerWords
import Agapornis.Storage.ContainerStatus
import Agapornis.Storage.ArchiveWords
import Agapornis.Runtime.Replacements
import Agapornis.Runtime.KeyedUpdates
import Agapornis.Runtime.LineOrigins
import Agapornis.Runtime.Reapplication
import Agapornis.Runtime.SettledFiles
import Agapornis.Runtime.LineParsers
import Agapornis.Runtime.StructuredParsers
import Agapornis.Runtime.XmlParser
import Agapornis.Runtime.ValueMaps
import Agapornis.Runtime.StructuredPlaces
import Agapornis.Runtime.EditedChildren
import Agapornis.Runtime.RepeatedEdits
import Agapornis.Runtime.KeptTexts
import Agapornis.Runtime.XmlPlaces
import Agapornis.Storage.Uploads
import Agapornis.Storage.Transfers
import Agapornis.Foundations.Base64
import Agapornis.Foundations.TreeGrowth
import Agapornis.Storage.FileReads
import Agapornis.Storage.HostWrites
import Agapornis.Foundations.Deadlines
import Agapornis.Runtime.DatabaseProbes
import Agapornis.Foundations.Turns
import Agapornis.Console.Bindings
import Agapornis.Console.BoundLines
import Agapornis.Console.ServerLines
