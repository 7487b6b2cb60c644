import AccumulatorMachine.CommandLine
import AccumulatorMachine.Main
import AccumulatorMachine.Proofs.InstructionTable
import AccumulatorMachine.Proofs.TableAgreement
import AccumulatorMachine.Proofs.FailStop
import AccumulatorMachine.Proofs.FirstFailure
import AccumulatorMachine.Proofs.Spelling
import AccumulatorMachine.Proofs.SourceGrammar
import AccumulatorMachine.Proofs.HaltNotices
import AccumulatorMachine.Proofs.PlanIsolation
import AccumulatorMachine.Proofs.WrittenNumbers
import AccumulatorMachine.Proofs.ReaderRules
import AccumulatorMachine.Proofs.TraceReplay
import AccumulatorMachine.Proofs.WrittenSentences
import AccumulatorMachine.Proofs.WrittenCommands
import AccumulatorMachine.Proofs.BoundedRuns
import AccumulatorMachine.Proofs.MemoryHistory
import AccumulatorMachine.Proofs.TraceCompleteness
import AccumulatorMachine.Proofs.ConditionGrammar
import AccumulatorMachine.Proofs.ConditionLines
import AccumulatorMachine.Proofs.ConditionMeaning
import AccumulatorMachine.Proofs.LineEnds
import AccumulatorMachine.Proofs.WrittenImages
import AccumulatorMachine.Proofs.FreshStart
import AccumulatorMachine.Proofs.ObservingLines
import AccumulatorMachine.Proofs.Relocation
import AccumulatorMachine.Proofs.BitCorruption
import AccumulatorMachine.Proofs.AssembledCode
import AccumulatorMachine.Proofs.ProgramSize
import AccumulatorMachine.Proofs.LoadedPrograms
import AccumulatorMachine.Proofs.SessionEnds
import AccumulatorMachine.Proofs.BulkWrites
import AccumulatorMachine.Proofs.LoadedImages
import AccumulatorMachine.Proofs.BlankLines
import AccumulatorMachine.Proofs.LineGrammar
import AccumulatorMachine.Proofs.ReadSentences
import AccumulatorMachine.Proofs.TokenTrees
import AccumulatorMachine.Proofs.LineTrees
import AccumulatorMachine.Proofs.TreeWalk
import AccumulatorMachine.Proofs.NumberErrors
import AccumulatorMachine.Proofs.LineErrors
import AccumulatorMachine.Proofs.LinePlaces
import AccumulatorMachine.Proofs.ReportByLines
import AccumulatorMachine.Proofs.ReportOrder
import AccumulatorMachine.Proofs.LocalEdits
import AccumulatorMachine.Proofs.ImageFormat
import AccumulatorMachine.Proofs.DataSections
import AccumulatorMachine.Proofs.Disassembly
import AccumulatorMachine.Proofs.ShownConditions
import AccumulatorMachine.Proofs.ResumedRuns
import AccumulatorMachine.Proofs.WordRange
import AccumulatorMachine.Proofs.DisplayedTokens
import AccumulatorMachine.Proofs.CarriageReturns
import AccumulatorMachine.Proofs.TextLines
import AccumulatorMachine.Proofs.TrailingComments
import AccumulatorMachine.Proofs.SummaryCode
import AccumulatorMachine.Proofs.LogLineText
