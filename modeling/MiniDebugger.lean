import MiniDebugger.Accumulators
import MiniDebugger.Agree
import MiniDebugger.BitLayout
import MiniDebugger.Breakpoints.Agreement
import MiniDebugger.Breakpoints.CommandLoop
import MiniDebugger.Breakpoints.Tenants
import MiniDebugger.Breakpoints.UserBreakpointRegistry
import MiniDebugger.CallFrame
import MiniDebugger.Checks
import MiniDebugger.Coincide
import MiniDebugger.Command
import MiniDebugger.Core.Notes
import MiniDebugger.Core.Parse
import MiniDebugger.Core.Readers
import MiniDebugger.Core.Selected
import MiniDebugger.Core.Session
import MiniDebugger.Core.SnapshotMemory
import MiniDebugger.Core.Walkers
import MiniDebugger.Crc
import MiniDebugger.Debugger.Aggregate
import MiniDebugger.Debugger.BreakpointRules
import MiniDebugger.Debugger.Breakpoints
import MiniDebugger.Debugger.Classify
import MiniDebugger.Debugger.ClassifyRules
import MiniDebugger.Debugger.Domains
import MiniDebugger.Debugger.Entries
import MiniDebugger.Debugger.Execution
import MiniDebugger.Debugger.ExecutionRules
import MiniDebugger.Debugger.Fork
import MiniDebugger.Debugger.ForkRules
import MiniDebugger.Debugger.Ledger
import MiniDebugger.Debugger.Ptrace
import MiniDebugger.Debugger.Runs
import MiniDebugger.Debugger.Served
import MiniDebugger.Debugger.State
import MiniDebugger.Debugger.Turns
import MiniDebugger.Debugger.Wait
import MiniDebugger.Debugger.Watchpoints
import MiniDebugger.Dwarf.AncestorWalks
import MiniDebugger.Dwarf.BitFields
import MiniDebugger.Dwarf.CallerFrames
import MiniDebugger.Dwarf.CapturedValues
import MiniDebugger.Dwarf.Code
import MiniDebugger.Dwarf.CoreValues
import MiniDebugger.Dwarf.DebugSection
import MiniDebugger.Dwarf.Die
import MiniDebugger.Dwarf.EhFrame
import MiniDebugger.Dwarf.EhFrameSignal
import MiniDebugger.Dwarf.Entries
import MiniDebugger.Dwarf.FrameTable
import MiniDebugger.Dwarf.FrameZero
import MiniDebugger.Dwarf.InlineContexts
import MiniDebugger.Dwarf.Insertion
import MiniDebugger.Dwarf.Leb128Readers
import MiniDebugger.Dwarf.LineFormat
import MiniDebugger.Dwarf.LineFormatReads
import MiniDebugger.Dwarf.LineHeader
import MiniDebugger.Dwarf.LineLookup
import MiniDebugger.Dwarf.LineMatrix
import MiniDebugger.Dwarf.LineProgram
import MiniDebugger.Dwarf.LineReader
import MiniDebugger.Dwarf.LineRegisters
import MiniDebugger.Dwarf.LineTable
import MiniDebugger.Dwarf.LiveValues
import MiniDebugger.Dwarf.LocalCatalogue
import MiniDebugger.Dwarf.LocalLocality
import MiniDebugger.Dwarf.LocalLookup
import MiniDebugger.Dwarf.LocalScopes
import MiniDebugger.Dwarf.LocalSelection
import MiniDebugger.Dwarf.LocationLists
import MiniDebugger.Dwarf.Locations
import MiniDebugger.Dwarf.MemberLookups
import MiniDebugger.Dwarf.MemberValues
import MiniDebugger.Dwarf.Operands
import MiniDebugger.Dwarf.PointerMembers
import MiniDebugger.Dwarf.Reader
import MiniDebugger.Dwarf.ReadersAgree
import MiniDebugger.Dwarf.Resolution
import MiniDebugger.Dwarf.Rows
import MiniDebugger.Dwarf.ScopedSelection
import MiniDebugger.Dwarf.Sections
import MiniDebugger.Dwarf.SourceLookup
import MiniDebugger.Dwarf.StackItems
import MiniDebugger.Dwarf.StackValues
import MiniDebugger.Dwarf.StructureMembers
import MiniDebugger.Dwarf.TypeChecks
import MiniDebugger.Dwarf.TypeShapes
import MiniDebugger.Dwarf.UnitMatch
import MiniDebugger.Dwarf.UnitParser
import MiniDebugger.Dwarf.UnitShape
import MiniDebugger.Dwarf.ValueBytes
import MiniDebugger.Dwarf.ValueSelectors
import MiniDebugger.Dwarf.ValueTypes
import MiniDebugger.Dwarf.WellFormedValues
import MiniDebugger.Dwarf.Window
import MiniDebugger.Elf.DebugLink
import MiniDebugger.Elf.SymbolAddresses
import MiniDebugger.Elf.SymbolLookup
import MiniDebugger.Elf.Symbols
import MiniDebugger.Handles
import MiniDebugger.Intervals
import MiniDebugger.Kernel
import MiniDebugger.Leb128
import MiniDebugger.LineRows
import MiniDebugger.Loader.Accounting
import MiniDebugger.Loader.DeferredBreakpoints
import MiniDebugger.Loader.KeptOperations
import MiniDebugger.Loader.LoneTable
import MiniDebugger.Loader.ModuleSymbols
import MiniDebugger.Loader.OwnMemory
import MiniDebugger.Loader.Ownership
import MiniDebugger.Loader.Reconciliation
import MiniDebugger.Loader.UserStops
import MiniDebugger.Loops
import MiniDebugger.Machine.Cpu
import MiniDebugger.Machine.Traced
import MiniDebugger.Machine.Transparency
import MiniDebugger.Memory.FailedDetach
import MiniDebugger.Memory.Words
import MiniDebugger.Memory.Writes
import MiniDebugger.Nesting
import MiniDebugger.Overlay
import MiniDebugger.Paths
import MiniDebugger.Paths.Normal
import MiniDebugger.Paths.Substitution
import MiniDebugger.Process
import MiniDebugger.Representatives
import MiniDebugger.Selection
import MiniDebugger.Sessions.Attribution
import MiniDebugger.Sessions.Bytes
import MiniDebugger.Sessions.EntryValues
import MiniDebugger.Sessions.Invariant
import MiniDebugger.Sessions.Numbering
import MiniDebugger.Sessions.Observations
import MiniDebugger.Sessions.Operations
import MiniDebugger.Sessions.Ownership
import MiniDebugger.Sessions.Registry
import MiniDebugger.Sessions.Releases
import MiniDebugger.Sessions.Reports
import MiniDebugger.Sessions.SavedBytes
import MiniDebugger.Sessions.SignalFiles
import MiniDebugger.Sessions.Signals
import MiniDebugger.Sessions.Stops
import MiniDebugger.Sessions.Tables
import MiniDebugger.Sessions.Tenures
import MiniDebugger.Sessions.ThreadStarts
import MiniDebugger.Sessions.Waiting
import MiniDebugger.Sessions.Watchpoints
import MiniDebugger.Source.Motion
import MiniDebugger.Source.Temporaries
import MiniDebugger.Unwind.CallRows
import MiniDebugger.Unwind.Cfi
import MiniDebugger.Unwind.Completeness
import MiniDebugger.Unwind.Finish
import MiniDebugger.Unwind.FrameBase
import MiniDebugger.Unwind.FramePointers
import MiniDebugger.Unwind.LiveFrames
import MiniDebugger.Unwind.Snapshot
import MiniDebugger.Unwind.StaleFrames
import MiniDebugger.Unwind.Walk
import MiniDebugger.X86.CallDecoder
import MiniDebugger.X86.ModRm
