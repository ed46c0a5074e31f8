import Ewts.Core.Text
import Ewts.Core.Search
import Ewts.Core.Trim
import Ewts.Core.CString
import Ewts.Core.Literal
import Ewts.Core.Words
import Ewts.Core.Lines
import Ewts.Core.Dict
import Ewts.Core.Environ
import Ewts.Core.Runs
import Ewts.Core.Files
import Ewts.Core.FileSystem
import Ewts.Core.Timestamp
import Ewts.Core.Floats
import Ewts.Core.Json.Grammar
import Ewts.Core.Json.Scanner
import Ewts.Core.Json.Fuel
import Ewts.Core.Json.Writer
import Ewts.Core.Json.PropertyTree
import Ewts.Runtime.Python.Str
import Ewts.Runtime.Python.Json
import Ewts.Runtime.Python.Payload
import Ewts.Runtime.Python.Formatter
import Ewts.Runtime.Python.LogLine
import Ewts.Runtime.Python.Path
import Ewts.Runtime.Python.Config
import Ewts.Runtime.Python.Logger
import Ewts.Runtime.Python.Written
import Ewts.Runtime.Python.Start
import Ewts.Runtime.Python.Registry
import Ewts.Runtime.C.Logger
import Ewts.Runtime.Cpp.Logger
import Ewts.Runtime.Cpp.Registry
import Ewts.Runtime.Cpp.Threads
import Ewts.Runtime.Fortran.Logger
import Ewts.Runtime.Fortran.Clock
import Ewts.Runtime.Fortran.Writer
import Ewts.Integration.Ngen.Registry
import Ewts.Integration.Ngen.Level
import Ewts.Integration.Ngen.Init
import Ewts.Integration.Ngen.Payload
import Ewts.Integration.Ngen.Log
import Ewts.Integration.Ngen.Policy
import Ewts.Integration.Ngen.Written
import Ewts.Generator.Registry
import Ewts.Generator.Modules
import Ewts.Generator.Levels
import Ewts.Generator.Main
import Ewts.Correctness.RoundTrip
import Ewts.Correctness.Emission
import Ewts.Correctness.FileSink
import Ewts.Correctness.FreshReads
import Ewts.Correctness.Silence
import Ewts.Correctness.Ownership
import Ewts.Correctness.StatusFilter
import Ewts.Correctness.NativeEnvironment
import Ewts.Correctness.SharedEnvironment
import Ewts.Correctness.NativeRegistry
import Ewts.Correctness.Levels
import Ewts.Correctness.TwoStage
import Ewts.Correctness.PayloadSink
import Ewts.Correctness.SameRoute
import Ewts.Correctness.SplitMode
import Ewts.Correctness.Records
import Ewts.Correctness.Bridge
import Ewts.Correctness.Isolation
import Ewts.Correctness.RankedFiles
import Ewts.Correctness.Lines
import Ewts.Correctness.UtcClock
import Ewts.Correctness.Startup
import Ewts.Correctness.Identifiers
import Ewts.Correctness.LookupTables
import Ewts.Correctness.LevelNames
import Ewts.Correctness.Generation
import Ewts.Correctness.MessageLines
import Ewts.Correctness.Extraction
import Ewts.Correctness.Tolerance
import Ewts.Correctness.LevelPaths
import Ewts.Correctness.DescriptionLiterals
import Ewts.Correctness.ConfigSearch
import Ewts.Correctness.EntryPoints
import Ewts.Correctness.Columns
import Ewts.Correctness.Attribution
import Ewts.Correctness.Threads
import Ewts.Correctness.Interleaving
import Ewts.Correctness.Progress
import Ewts.Correctness.Announcement
import Ewts.Core.Journal
import Ewts.Integration.Ngen.PayloadStatus
import Ewts.Correctness.Journals
import Ewts.Correctness.JournalReading
import Ewts.Correctness.StatusClients
import Ewts.Correctness.CppThreads
import Ewts.Correctness.CppInterleaving
import Ewts.Correctness.CppRoutes
import Ewts.Correctness.CppProgress
import Ewts.Correctness.CppAnnouncement
import Ewts.Correctness.CppFiles
import Ewts.Correctness.Coupled
import Ewts.Correctness.Forwarding
import Ewts.Correctness.Transparency
