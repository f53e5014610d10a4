import Statechart.Document.Printer
import Statechart.Main
import Statechart.Proofs.Blocks
import Statechart.Proofs.Counting
import Statechart.Proofs.Discipline
import Statechart.Proofs.Dispatch
import Statechart.Proofs.FallingThrough
import Statechart.Proofs.Growth
import Statechart.Proofs.HandlerNames
import Statechart.Proofs.Inlining
import Statechart.Proofs.ReadBack
import Statechart.Proofs.References
import Statechart.Proofs.Refusals
import Statechart.Proofs.RoundTrip
import Statechart.Proofs.Slots
import Statechart.Proofs.Walks
import Statechart.Proofs.DirectExit
import Statechart.Proofs.Grammar
import Statechart.Proofs.Extents
import Statechart.Proofs.Scanning
import Statechart.Proofs.Expansion
import Statechart.Proofs.ExpansionFaults
import Statechart.Proofs.CodeNames
import Statechart.Proofs.ReferenceChains
import Statechart.Proofs.Arguments
import Statechart.Proofs.LexedWords
import Statechart.Proofs.Layout
import Statechart.Proofs.CommentLines
import Statechart.Proofs.OpeningBrace
import Statechart.Proofs.NameShapes
import Statechart.Proofs.ReservedWords
import Statechart.Proofs.StateOrder
import Statechart.Proofs.Targets
import Statechart.Proofs.VariableLines
