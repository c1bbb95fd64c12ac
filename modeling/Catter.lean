import Catter.Coro.Calls
import Catter.Coro.Lazy
import Catter.Fs.Api
import Catter.Fs.Normal
import Catter.Fs.Parent
import Catter.Fs.Path
import Catter.Hook.ArgvReads
import Catter.Hook.Buffer
import Catter.Hook.BufferStore
import Catter.Hook.Builder
import Catter.Hook.Command
import Catter.Hook.Environment
import Catter.Hook.ErrorConvention
import Catter.Hook.Executor
import Catter.Hook.Lookup
import Catter.Hook.NonNull
import Catter.Hook.PathResolver
import Catter.Hook.Paths
import Catter.Hook.Run
import Catter.Hook.Session
import Catter.Hook.Variables
import Catter.Hook.Variadic
import Catter.Hook.Vector
import Catter.Io.FStream
import Catter.Io.FileStream
import Catter.Io.Numbers
import Catter.Io.TextLines
import Catter.Io.TextRuns
import Catter.Io.TextStream
import Catter.Io.Views
import Catter.Io.With
import Catter.Io.Writes
import Catter.Js.References
import Catter.Js.Runs
import Catter.Library.CommandLine
import Catter.Library.Cursor
import Catter.Library.Deliveries
import Catter.Library.Directions
import Catter.Library.EndLast
import Catter.Library.Interaction
import Catter.Library.Parallel
import Catter.Library.PartitionPoint
import Catter.Library.ProgramName
import Catter.Library.References
import Catter.Library.ShellWords
import Catter.Library.TerminatedWords
import Catter.Library.Triples
import Catter.Library.VerbatimWords
import Catter.Library.WordStream
import Catter.Opt.Accept
import Catter.Opt.CatterTable
import Catter.Opt.DashDash
import Catter.Opt.EmptyValues
import Catter.Opt.ExactTable
import Catter.Opt.GroupedTotal
import Catter.Opt.Hidden
import Catter.Opt.LetterCase
import Catter.Opt.Longest
import Catter.Opt.NameComparison
import Catter.Opt.NameOrder
import Catter.Opt.Parse
import Catter.Opt.Partition
import Catter.Opt.Render
import Catter.Opt.Reread
import Catter.Opt.Search
import Catter.Opt.ShortFlags
import Catter.Opt.Table
import Catter.Opt.Tablegen
import Catter.Proxy.Ancestry
import Catter.Proxy.Conversation
import Catter.Proxy.ExitCode
import Catter.Proxy.HookCommand
import Catter.Proxy.Interception
import Catter.Proxy.Launching
import Catter.Proxy.LocateExe
import Catter.Proxy.Network
import Catter.Proxy.ProcessTree
import Catter.Proxy.Wire
import Catter.Proxy.WireRuns
import Catter.Qjs.Calls
import Catter.Qjs.Ownership
import Catter.Qjs.Plain
import Catter.Qjs.References
import Catter.Qjs.Value
import Catter.Rpc.Codec
import Catter.Rpc.Streaming
import Catter.Server.Clients
import Catter.Server.Handler
import Catter.Server.Loop
import Catter.Server.Messages
import Catter.Uv.ReadCallbacks
import Catter.Win.CommandLine
import Catter.Win.Detour
import Catter.Win.EnvBlock
import Catter.Win.InstallPath
import Catter.Win.ProcessTree
import Catter.Win.Spawn
