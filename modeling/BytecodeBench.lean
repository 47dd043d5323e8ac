import BytecodeBench.AnalysisInfo
import BytecodeBench.Calendar
import BytecodeBench.Case
import BytecodeBench.Check
import BytecodeBench.ClassFile.Reference
import BytecodeBench.ClassFile.TypeData
import BytecodeBench.CommandLine.Arguments
import BytecodeBench.CommandLine.Entry
import BytecodeBench.CommandLine.Help
import BytecodeBench.CommandLine.Options
import BytecodeBench.Commands.Building
import BytecodeBench.Commands.Charts
import BytecodeBench.Commands.Evaluation
import BytecodeBench.Commands.Inspection
import BytecodeBench.Commands.Interpretation
import BytecodeBench.Commands.Statistics
import BytecodeBench.Commands.Trial
import BytecodeBench.Coverage
import BytecodeBench.Csv
import BytecodeBench.Datum.Access
import BytecodeBench.Datum.Arithmetic
import BytecodeBench.Datum.Basic
import BytecodeBench.Datum.Order
import BytecodeBench.Decimal.Binary64
import BytecodeBench.Decimal.Reading
import BytecodeBench.Decimal.Rounding
import BytecodeBench.Decimal.Shortest
import BytecodeBench.Digest.Base64
import BytecodeBench.Digest.Mixing
import BytecodeBench.Digest.Sha256
import BytecodeBench.Digest.Tag
import BytecodeBench.Experiment
import BytecodeBench.Fault
import BytecodeBench.Filter
import BytecodeBench.Folder
import BytecodeBench.Fuzz.Literals
import BytecodeBench.Fuzz.Mutation
import BytecodeBench.Fuzz.Session
import BytecodeBench.Fuzz.TestCase
import BytecodeBench.Instruction.Basic
import BytecodeBench.Instruction.Data
import BytecodeBench.Instruction.Form
import BytecodeBench.Instruction.Spelling
import BytecodeBench.Json.Reader
import BytecodeBench.Json.Sorted
import BytecodeBench.Json.Writer
import BytecodeBench.Jvm.ClassName
import BytecodeBench.Jvm.Identifier
import BytecodeBench.Jvm.Token
import BytecodeBench.Jvm.Type
import BytecodeBench.Jvm.Value
import BytecodeBench.Jvm.ValueList
import BytecodeBench.Launch
import BytecodeBench.Log
import BytecodeBench.Machine.Abstract
import BytecodeBench.Machine.Arrays
import BytecodeBench.Machine.Concrete
import BytecodeBench.Machine.Plain
import BytecodeBench.Machine.Program
import BytecodeBench.Machine.Run
import BytecodeBench.Machine.State
import BytecodeBench.Main
import BytecodeBench.Metadata
import BytecodeBench.OpenSuites
import BytecodeBench.Path
import BytecodeBench.Pattern
import BytecodeBench.Position
import BytecodeBench.Prediction
import BytecodeBench.Proofs.ArrayArguments
import BytecodeBench.Proofs.AscendingLists
import BytecodeBench.Proofs.BoundedRuns
import BytecodeBench.Proofs.CaseCodec
import BytecodeBench.Proofs.CaseFiles
import BytecodeBench.Proofs.CaseGroups
import BytecodeBench.Proofs.CaseSnapshots
import BytecodeBench.Proofs.CaseTexts
import BytecodeBench.Proofs.ClosedPrograms
import BytecodeBench.Proofs.ComparisonMarks
import BytecodeBench.Proofs.ComparisonSorts
import BytecodeBench.Proofs.Computations
import BytecodeBench.Proofs.CoverageLevels
import BytecodeBench.Proofs.Descriptors
import BytecodeBench.Proofs.Deskwork
import BytecodeBench.Proofs.Draws
import BytecodeBench.Proofs.Effects
import BytecodeBench.Proofs.Evaluations
import BytecodeBench.Proofs.ExactNumbers
import BytecodeBench.Proofs.FairWagers
import BytecodeBench.Proofs.FrozenArrays
import BytecodeBench.Proofs.Handles
import BytecodeBench.Proofs.HeapGrowth
import BytecodeBench.Proofs.Identifiers
import BytecodeBench.Proofs.InputCodec
import BytecodeBench.Proofs.InputFidelity
import BytecodeBench.Proofs.InstructionNames
import BytecodeBench.Proofs.IntegerChanges
import BytecodeBench.Proofs.IntegerForms
import BytecodeBench.Proofs.IntegerHistories
import BytecodeBench.Proofs.Integers
import BytecodeBench.Proofs.Introductions
import BytecodeBench.Proofs.LastAnswers
import BytecodeBench.Proofs.LegibleIdentifiers
import BytecodeBench.Proofs.Lockstep
import BytecodeBench.Proofs.Magnitudes
import BytecodeBench.Proofs.NestedChecks
import BytecodeBench.Proofs.NodeTexts
import BytecodeBench.Proofs.Numerals
import BytecodeBench.Proofs.OrderGaps
import BytecodeBench.Proofs.Parents
import BytecodeBench.Proofs.Passes
import BytecodeBench.Proofs.Programs
import BytecodeBench.Proofs.RecordedAnswers
import BytecodeBench.Proofs.ReportAccounts
import BytecodeBench.Proofs.ReportFrames
import BytecodeBench.Proofs.Reproduction
import BytecodeBench.Proofs.Runs
import BytecodeBench.Proofs.SessionBooks
import BytecodeBench.Proofs.ShiftedOperations
import BytecodeBench.Proofs.ShiftedRuns
import BytecodeBench.Proofs.SievedPrimes
import BytecodeBench.Proofs.SignOrder
import BytecodeBench.Proofs.SignSimulation
import BytecodeBench.Proofs.SourceLiterals
import BytecodeBench.Proofs.StepwisePasses
import BytecodeBench.Proofs.StringFreeAgreement
import BytecodeBench.Proofs.StringIdentity
import BytecodeBench.Proofs.StringParts
import BytecodeBench.Proofs.StringRequests
import BytecodeBench.Proofs.Sweeps
import BytecodeBench.Proofs.Tables
import BytecodeBench.Proofs.TextCuts
import BytecodeBench.Proofs.TimedWork
import BytecodeBench.Proofs.TreeWalks
import BytecodeBench.Proofs.TypeOrder
import BytecodeBench.Proofs.TypedTestCases
import BytecodeBench.Proofs.ValueGrammar
import BytecodeBench.Proofs.ValueTexts
import BytecodeBench.Proofs.ValueTokens
import BytecodeBench.Proofs.Watching
import BytecodeBench.Proofs.WordArithmetic
import BytecodeBench.Query
import BytecodeBench.Randomness
import BytecodeBench.Report
import BytecodeBench.Response
import BytecodeBench.Sieve
import BytecodeBench.Sorting
import BytecodeBench.SourceTree.Basic
import BytecodeBench.SourceTree.Literals
import BytecodeBench.StringSign.Basic
import BytecodeBench.StringSign.Optional
import BytecodeBench.Suite
import BytecodeBench.Table
import BytecodeBench.Text.Basic
import BytecodeBench.Text.Blank
import BytecodeBench.Text.Letter
import BytecodeBench.Text.Lowercase
import BytecodeBench.Text.Numeral
import BytecodeBench.Text.Printable
import BytecodeBench.Text.Quoted
import BytecodeBench.Text.Ranges
import BytecodeBench.Text.Shell
import BytecodeBench.Text.Similarity
import BytecodeBench.Text.Wrap
import BytecodeBench.Tools.AssertionSearch
import BytecodeBench.Tools.Fuzzing
import BytecodeBench.Tools.Guessing
import BytecodeBench.Tools.Interpreting
import BytecodeBench.Workbench
