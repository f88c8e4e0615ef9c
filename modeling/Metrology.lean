import Metrology.CommandLine.Arguments
import Metrology.CommandLine.Settings
import Metrology.CommandLine.Shell
import Metrology.Console.Markup
import Metrology.Console.Outline
import Metrology.Console.Plain
import Metrology.Dimension
import Metrology.Dimension.Compose
import Metrology.Double.Checked
import Metrology.Double.Logarithm
import Metrology.Double.Root
import Metrology.Environment
import Metrology.Error
import Metrology.Main
import Metrology.Matrix
import Metrology.Measured
import Metrology.Numeral.Exact
import Metrology.Numeral.Read
import Metrology.Numeral.Shortest
import Metrology.Numeral.Text
import Metrology.Operator
import Metrology.Phasor
import Metrology.Program.Action
import Metrology.Program.Evaluate
import Metrology.Program.Run
import Metrology.Program.Template
import Metrology.Quantity
import Metrology.Quantity.Text
import Metrology.Scale.Read
import Metrology.Scale.Symbol
import Metrology.Text.Blank
import Metrology.Text.Break
import Metrology.Text.Break.Extend
import Metrology.Text.Break.Pictograph
import Metrology.Text.Break.Spacing
import Metrology.Text.Cluster
import Metrology.Text.Digit
import Metrology.Text.Identifier
import Metrology.Text.Identifier.Continue
import Metrology.Text.Identifier.Start
import Metrology.Text.Quoted
import Metrology.Text.Range
import Metrology.Text.Unprintable
import Metrology.Text.Width
import Metrology.Token
import Metrology.Token.Scan
import Metrology.Tree
import Metrology.Tree.Group
import Metrology.Tree.Level
import Metrology.Tree.Parse
import Metrology.Value
import Metrology.Proofs.Sequence
import Metrology.Proofs.Tree.Nesting
import Metrology.Proofs.Tree.Reading
import Metrology.Proofs.Tree.Passes
import Metrology.Proofs.Tree.Precedence
import Metrology.Proofs.Tree.Phrase
import Metrology.Proofs.Tree.Grammar
import Metrology.Proofs.Tree.Shape
import Metrology.Proofs.Tree.Writing
import Metrology.Proofs.Token.Blocks
import Metrology.Proofs.Dimension.Composition
import Metrology.Proofs.Quantity.Dimensions
import Metrology.Proofs.Quantity.Faults
import Metrology.Proofs.Program.Full
import Metrology.Proofs.Program.Mild
import Metrology.Proofs.Program.Safety
import Metrology.Proofs.Program.Effects
import Metrology.Proofs.Program.Budget
import Metrology.Proofs.Program.DimensionalAnalysis
import Metrology.Proofs.Program.Faults
import Metrology.Proofs.CommandLine.Session
import Metrology.Proofs.CommandLine.TypedLines
import Metrology.Proofs.Program.Halting
import Metrology.Proofs.Program.Variables
import Metrology.Proofs.Token.Lines
import Metrology.Proofs.Program.Sequencing
import Metrology.Proofs.Tree.Conservation
import Metrology.Proofs.Text.Plain
import Metrology.Proofs.Program.Interpolation
import Metrology.Proofs.Numeral.Whole
import Metrology.Proofs.Dimension.ReadBack
import Metrology.Proofs.Double.Nearest
import Metrology.Proofs.Double.Size
import Metrology.Proofs.Quantity.Division
import Metrology.Proofs.Token.Spelling
import Metrology.Proofs.Token.Stretches
import Metrology.Proofs.Tree.Signs
import Metrology.Proofs.CommandLine.FrontEnds
import Metrology.Proofs.Dimension.Reciprocal
import Metrology.Proofs.Scale.Terms
import Metrology.Proofs.Scale.Products
import Metrology.Proofs.Program.Visits
import Metrology.Proofs.Tree.Literals
import Metrology.Proofs.Double.Whole
import Metrology.Proofs.Program.Indexing
import Metrology.Proofs.Quantity.Propagation
import Metrology.Proofs.Token.FirstBadPlace
import Metrology.Proofs.Tree.Conditionals
import Metrology.Proofs.Program.Branches
import Metrology.Proofs.Double.Sign
import Metrology.Proofs.Quantity.Variances
import Metrology.Proofs.Program.Invariants
import Metrology.Proofs.Program.Variances
import Metrology.Proofs.Tree.BracketErrors
import Metrology.Proofs.Tree.InPlace
import Metrology.Proofs.Tree.InRange
