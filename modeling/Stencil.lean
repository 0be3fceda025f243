import Stencil.Charset
import Stencil.CommandLine
import Stencil.CommandLine.Arguments
import Stencil.Config
import Stencil.Config.Loading
import Stencil.Engine
import Stencil.Error
import Stencil.Expr.Eval
import Stencil.Expr.Parser
import Stencil.FilePath
import Stencil.FileTree
import Stencil.Flag
import Stencil.Glob
import Stencil.Glob.Regular
import Stencil.Main
import Stencil.Model
import Stencil.Name
import Stencil.Number
import Stencil.Template
import Stencil.Template.Parameter
import Stencil.Template.Piece
import Stencil.Text.Blank
import Stencil.Text.Cursor
import Stencil.Text.Digit
import Stencil.Text.Display
import Stencil.Text.Printable
import Stencil.Text.Quoted
import Stencil.Text.WordChar
import Stencil.Value
import Stencil.Yaml.Document
import Stencil.Yaml.Scalar
import Stencil.Yaml.Token
import Stencil.Proofs.Config.Booleans
import Stencil.Proofs.Config.Documents
import Stencil.Proofs.Config.Inhabiting
import Stencil.Proofs.Config.Null
import Stencil.Proofs.Engine.Independence
import Stencil.Proofs.Expr.Failing
import Stencil.Proofs.Expr.Grammar
import Stencil.Proofs.Expr.Lexing
import Stencil.Proofs.Expr.Literal
import Stencil.Proofs.Expr.Locality
import Stencil.Proofs.Expr.RoundTrip
import Stencil.Proofs.Expr.Rules
import Stencil.Proofs.Expr.StringLiteral
import Stencil.Proofs.Expr.Substitution
import Stencil.Proofs.Expr.Variables
import Stencil.Proofs.Name.NormalForm
import Stencil.Proofs.Name.Normalization
import Stencil.Proofs.Name.Scheme
import Stencil.Proofs.Number.Integral
import Stencil.Proofs.Number.Sums
import Stencil.Proofs.Render.Alike
import Stencil.Proofs.Render.Assignment
import Stencil.Proofs.Render.CanonicalForm
import Stencil.Proofs.Render.Composition
import Stencil.Proofs.Render.Demand
import Stencil.Proofs.Render.Encoding
import Stencil.Proofs.Render.Folding
import Stencil.Proofs.Render.Inlining
import Stencil.Proofs.Render.Integral
import Stencil.Proofs.Render.Leaving
import Stencil.Proofs.Render.Limit
import Stencil.Proofs.Render.Lines
import Stencil.Proofs.Render.Missing
import Stencil.Proofs.Render.Moment
import Stencil.Proofs.Render.Nesting
import Stencil.Proofs.Render.Path
import Stencil.Proofs.Render.Raising
import Stencil.Proofs.Render.Reading
import Stencil.Proofs.Render.Remembering
import Stencil.Proofs.Render.Restoration
import Stencil.Proofs.Render.Scopes
import Stencil.Proofs.Render.Trace
import Stencil.Proofs.Render.Verbatim
import Stencil.Proofs.Render.Visit
import Stencil.Proofs.Store.History
import Stencil.Proofs.Store.Memory
import Stencil.Proofs.Store.Unloadable
import Stencil.Proofs.Template.AttributeOrder
import Stencil.Proofs.Template.Juxtaposition
import Stencil.Proofs.Template.Lines
import Stencil.Proofs.Template.Located
import Stencil.Proofs.Template.Moving
import Stencil.Proofs.Template.Partition
import Stencil.Proofs.Template.Refusal
import Stencil.Proofs.Template.Walk
import Stencil.Proofs.Text.Location
