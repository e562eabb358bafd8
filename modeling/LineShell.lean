import LineShell.Application.Basic
import LineShell.Application.Cat
import LineShell.Application.Cd
import LineShell.Application.Cp
import LineShell.Application.Cut
import LineShell.Application.Echo
import LineShell.Application.Exit
import LineShell.Application.Grep
import LineShell.Application.Ls
import LineShell.Application.Mv
import LineShell.Application.Operand
import LineShell.Application.Options
import LineShell.Application.Paste
import LineShell.Application.Rm
import LineShell.Application.Sort
import LineShell.Application.Tee
import LineShell.Application.Uniq
import LineShell.Application.Wc
import LineShell.CommandLine
import LineShell.Config.Settings
import LineShell.Disk.Basic
import LineShell.Disk.Change
import LineShell.Disk.Error
import LineShell.Disk.Locate
import LineShell.Disk.Place
import LineShell.Failure
import LineShell.Line.Command
import LineShell.Line.Fault
import LineShell.Line.Parse
import LineShell.Line.Quote
import LineShell.Line.Token
import LineShell.Main
import LineShell.Proofs.AmbientStreams
import LineShell.Proofs.ApplicationAgreement
import LineShell.Proofs.BoundedListings
import LineShell.Proofs.CallDispatch
import LineShell.Proofs.CallParts
import LineShell.Proofs.ChunkOrder
import LineShell.Proofs.ConcurrentEvaluation
import LineShell.Proofs.ConfinedRuns
import LineShell.Proofs.CopiedInputs
import LineShell.Proofs.CopyRounds
import LineShell.Proofs.CopySteps
import LineShell.Proofs.CountedLines
import LineShell.Proofs.DenotedEntries
import LineShell.Proofs.DigitRuns
import LineShell.Proofs.DirectoryMatches
import LineShell.Proofs.DiskFaults
import LineShell.Proofs.DiskTrees
import LineShell.Proofs.EchoLine
import LineShell.Proofs.EnabledApplications
import LineShell.Proofs.EncodedText
import LineShell.Proofs.EndlessCopies
import LineShell.Proofs.EvaluationAgreement
import LineShell.Proofs.ExitOutcome
import LineShell.Proofs.ExtendedFiles
import LineShell.Proofs.ExtendedPaths
import LineShell.Proofs.FoundPaths
import LineShell.Proofs.FusedWords
import LineShell.Proofs.GatheredSources
import LineShell.Proofs.GluedTokens
import LineShell.Proofs.GroupedFlags
import LineShell.Proofs.GrownDisks
import LineShell.Proofs.InterleavedSteps
import LineShell.Proofs.JoinedLines
import LineShell.Proofs.JoinedOperands
import LineShell.Proofs.JournalAside
import LineShell.Proofs.KeptDirectory
import LineShell.Proofs.KeptSources
import LineShell.Proofs.LimitedOutput
import LineShell.Proofs.LineLanguage
import LineShell.Proofs.LineRoundTrip
import LineShell.Proofs.ListedDirectories
import LineShell.Proofs.ListedNames
import LineShell.Proofs.ListedTrees
import LineShell.Proofs.LoopLines
import LineShell.Proofs.MatchedWords
import LineShell.Proofs.MovedEntries
import LineShell.Proofs.NumberedLines
import LineShell.Proofs.OpenedTargets
import LineShell.Proofs.OperandRefusals
import LineShell.Proofs.OutletRuns
import LineShell.Proofs.OverlaidTrees
import LineShell.Proofs.PassedTexts
import LineShell.Proofs.PathNames
import LineShell.Proofs.PipeHistory
import LineShell.Proofs.PipeIntoCat
import LineShell.Proofs.PipeMachine
import LineShell.Proofs.PipeSchedules
import LineShell.Proofs.PlacePaths
import LineShell.Proofs.PositionLists
import LineShell.Proofs.PrintedPaths
import LineShell.Proofs.QuoteRegions
import LineShell.Proofs.QuotedWords
import LineShell.Proofs.ReadOnlyRuns
import LineShell.Proofs.ReadOperands
import LineShell.Proofs.RedirectedOutput
import LineShell.Proofs.RefusedInputs
import LineShell.Proofs.RemovedEntries
import LineShell.Proofs.RenamedEntries
import LineShell.Proofs.ResolvedPaths
import LineShell.Proofs.RunningCalls
import LineShell.Proofs.RunsInTurn
import LineShell.Proofs.SelectedPositions
import LineShell.Proofs.Sequencing
import LineShell.Proofs.SessionDirectory
import LineShell.Proofs.SettledWords
import LineShell.Proofs.SharedDirectory
import LineShell.Proofs.SharedReads
import LineShell.Proofs.SkippedOperands
import LineShell.Proofs.SoloRuns
import LineShell.Proofs.SortedLines
import LineShell.Proofs.SparedEntries
import LineShell.Proofs.SpreadInputs
import LineShell.Proofs.StepAgreement
import LineShell.Proofs.SubstitutedWords
import LineShell.Proofs.SubstitutionDepth
import LineShell.Proofs.SubstitutionLines
import LineShell.Proofs.TakenRedirections
import LineShell.Proofs.TextLogs
import LineShell.Proofs.TextOrder
import LineShell.Proofs.TokenLayout
import LineShell.Proofs.WalkedPaths
import LineShell.Proofs.WholeInputs
import LineShell.Proofs.WildcardWords
import LineShell.Regex.Automaton.Characters
import LineShell.Regex.Automaton.Literals
import LineShell.Regex.Automaton.Size
import LineShell.Regex.Automaton.Tally
import LineShell.Regex.Bracket
import LineShell.Regex.Build
import LineShell.Regex.ByteRange
import LineShell.Regex.CharClass
import LineShell.Regex.Escape
import LineShell.Regex.Match
import LineShell.Regex.Parse
import LineShell.Regex.Pattern
import LineShell.Regex.Reader
import LineShell.Session.Basic
import LineShell.Session.Run
import LineShell.Shell.Concurrent
import LineShell.Shell.Evaluate
import LineShell.Shell.Loop
import LineShell.Shell.Redirection
import LineShell.Stream.Basic
import LineShell.Text.Blank
import LineShell.Text.Lines
import LineShell.Text.Order
import LineShell.Text.Shown
import LineShell.Text.Split
import LineShell.Text.Utf8
import LineShell.Toml.Parse
import LineShell.Toml.Scalar
import LineShell.Toml.Value
import LineShell.Toml.Write
import LineShell.Unicode.Age
import LineShell.Unicode.Case
import LineShell.Unicode.Category
import LineShell.Unicode.CodeMap
import LineShell.Unicode.CodeSet
import LineShell.Unicode.Name
import LineShell.Unicode.Property.CaseChange
import LineShell.Unicode.Property.Derived
import LineShell.Unicode.Property.Listed
import LineShell.Unicode.Script
import LineShell.Unicode.Script.Extension
import LineShell.Unicode.Segmentation
import LineShell.Unicode.Table
import LineShell.Word.Expand
import LineShell.Word.Wildcard
