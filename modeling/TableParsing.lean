import TableParsing.Analysis
import TableParsing.Brackets
import TableParsing.Cell
import TableParsing.Combinators.Basic
import TableParsing.Combinators.Standard
import TableParsing.Command.Arguments
import TableParsing.Command.Directory
import TableParsing.Command.Response
import TableParsing.Grammar.Augmented
import TableParsing.Grammar.Basic
import TableParsing.Grammar.Error
import TableParsing.Grammar.Production
import TableParsing.GrammarText.Error
import TableParsing.GrammarText.ProductionLine
import TableParsing.GrammarText.Reader
import TableParsing.GrammarText.Writer
import TableParsing.Journal
import TableParsing.Log
import TableParsing.Machine
import TableParsing.Main
import TableParsing.Predictive.Parser
import TableParsing.Predictive.Table
import TableParsing.Proofs.Augmentation
import TableParsing.Proofs.AugmentedIndex
import TableParsing.Proofs.AugmentedSets
import TableParsing.Proofs.BalancedBrackets
import TableParsing.Proofs.Combinators
import TableParsing.Proofs.CorrectPrefixes
import TableParsing.Proofs.Derivation
import TableParsing.Proofs.FirstFault
import TableParsing.Proofs.GrammarIndex
import TableParsing.Proofs.GrammarText.Consumption
import TableParsing.Proofs.GrammarText.LineForm
import TableParsing.Proofs.GrammarText.LineParser
import TableParsing.Proofs.GrammarText.LineProductions
import TableParsing.Proofs.GrammarText.ProductionLine
import TableParsing.Proofs.GrammarText.Regrouping
import TableParsing.Proofs.GrammarText.RoundTrip
import TableParsing.Proofs.GrammarText.TextLines
import TableParsing.Proofs.GraphLabels
import TableParsing.Proofs.InputLines
import TableParsing.Proofs.LeftmostSearch
import TableParsing.Proofs.Lists
import TableParsing.Proofs.OrderOfProductions
import TableParsing.Proofs.ParseTree
import TableParsing.Proofs.Predictive.Conflicts
import TableParsing.Proofs.Predictive.Detection
import TableParsing.Proofs.Predictive.Driver
import TableParsing.Proofs.Predictive.Guard
import TableParsing.Proofs.Predictive.Halting
import TableParsing.Proofs.Predictive.Progress
import TableParsing.Proofs.Predictive.Recognition
import TableParsing.Proofs.Predictive.Table
import TableParsing.Proofs.PrintedTables
import TableParsing.Proofs.Reordering
import TableParsing.Proofs.Rightmost
import TableParsing.Proofs.Runs
import TableParsing.Proofs.Saturation
import TableParsing.Proofs.Sentence
import TableParsing.Proofs.Sets.Adjacency
import TableParsing.Proofs.Sets.Beginnings
import TableParsing.Proofs.Sets.First
import TableParsing.Proofs.Sets.Follow
import TableParsing.Proofs.Sets.Inclusion
import TableParsing.Proofs.Sets.LeastFamilies
import TableParsing.Proofs.ShiftReduce.Acceptance
import TableParsing.Proofs.ShiftReduce.Actions
import TableParsing.Proofs.ShiftReduce.Closure
import TableParsing.Proofs.ShiftReduce.Collection
import TableParsing.Proofs.ShiftReduce.Conflicts
import TableParsing.Proofs.ShiftReduce.Driver
import TableParsing.Proofs.ShiftReduce.Items
import TableParsing.Proofs.ShiftReduce.Planting
import TableParsing.Proofs.ShiftReduce.Recognition
import TableParsing.Proofs.ShiftReduce.Renumbering
import TableParsing.Proofs.ShiftReduce.SingleKernels
import TableParsing.Proofs.ShiftReduce.Stack
import TableParsing.Proofs.ShiftReduce.States
import TableParsing.Proofs.ShiftReduce.Termination
import TableParsing.Proofs.ShiftReduce.TwoStacks
import TableParsing.Proofs.ShiftReduce.Viability
import TableParsing.Proofs.ShiftReduce.ViablePrefixes
import TableParsing.Proofs.ShiftReduce.Worklist
import TableParsing.Proofs.SmallTrees
import TableParsing.Proofs.Soundness
import TableParsing.Proofs.TableRanges
import TableParsing.Proofs.Tables
import TableParsing.Proofs.Transcript
import TableParsing.Proofs.Unambiguity
import TableParsing.Proofs.Validity
import TableParsing.Report.Grid
import TableParsing.Report.StateGraph
import TableParsing.Report.Tables
import TableParsing.Saturation
import TableParsing.Search
import TableParsing.Session
import TableParsing.Sets.Family
import TableParsing.Sets.First
import TableParsing.Sets.Follow
import TableParsing.Sets.Inclusion
import TableParsing.ShiftReduce.Automaton
import TableParsing.ShiftReduce.Item
import TableParsing.ShiftReduce.Parser
import TableParsing.ShiftReduce.Table
import TableParsing.Sorted.Map
import TableParsing.Sorted.Set
import TableParsing.Symbol
import TableParsing.Text.CharRange
import TableParsing.Text.Emoji
import TableParsing.Text.Ligature
import TableParsing.Text.Line
import TableParsing.Text.Quoted
import TableParsing.Text.Unprintable
import TableParsing.Text.WhiteSpace
import TableParsing.Text.Wide
import TableParsing.Text.Width
import TableParsing.Text.Widthless
import TableParsing.Word
