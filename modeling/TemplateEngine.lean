import TemplateEngine.Template
import TemplateEngine.HostData.Account
import TemplateEngine.HostData.Json
import TemplateEngine.Proofs.Tag.Reachable
import TemplateEngine.Proofs.Text.Blank
import TemplateEngine.Proofs.Expr.Tokens
import TemplateEngine.Proofs.Markup.Nesting
import TemplateEngine.Proofs.Markup.BlockStructure
import TemplateEngine.Proofs.Render.Signals
import TemplateEngine.Proofs.Expr.Balance
import TemplateEngine.Proofs.Markup.Embedding
import TemplateEngine.Proofs.Expr.Faults
import TemplateEngine.Proofs.Render.Output
import TemplateEngine.Proofs.Expr.Phrases
import TemplateEngine.Proofs.Value.Literal
import TemplateEngine.Proofs.Render.Literal
import TemplateEngine.Proofs.Number.Exact
import TemplateEngine.Proofs.Number.Rounding
import TemplateEngine.Proofs.Value.Comparison
import TemplateEngine.Proofs.Markup.BuiltIn
import TemplateEngine.Proofs.Render.Turns
import TemplateEngine.Proofs.Render.Frames
import TemplateEngine.Proofs.Render.Course
import TemplateEngine.Proofs.Render.Places
import TemplateEngine.Proofs.Expr.Levels
import TemplateEngine.Proofs.Expr.Operands
import TemplateEngine.Proofs.Expr.Texts
import TemplateEngine.Proofs.Expr.Written
import TemplateEngine.Proofs.Expr.Printing
import TemplateEngine.Value.Hash
import TemplateEngine.Proofs.Value.Overflow
import TemplateEngine.Proofs.Value.Numbers
import TemplateEngine.Proofs.Value.Equality
import TemplateEngine.Proofs.Value.Order
import TemplateEngine.Proofs.Value.Sorting
import TemplateEngine.Proofs.Expr.Rows
import TemplateEngine.Proofs.Tag.History
import TemplateEngine.Proofs.Markup.Raw
import TemplateEngine.Proofs.Markup.Comments
import TemplateEngine.Proofs.HostData.Keys
import TemplateEngine.Proofs.Expr.Keys
import TemplateEngine.Proofs.Markup.Registered
import TemplateEngine.Proofs.Markup.Layout
import TemplateEngine.Proofs.Expr.Uniform
import TemplateEngine.Proofs.Markup.Failures
import TemplateEngine.Proofs.Markup.Quotes
import TemplateEngine.Proofs.Markup.Sources
import TemplateEngine.Proofs.Markup.Moving
import TemplateEngine.Proofs.Markup.Offsets
import TemplateEngine.Proofs.Scope.Lexical
import TemplateEngine.Proofs.HostData.Json
import TemplateEngine.Proofs.HostData.Account
import TemplateEngine.Proofs.Render.Choice
import TemplateEngine.Proofs.Expr.Scopes
import TemplateEngine.Proofs.Render.Blocks
import TemplateEngine.Proofs.Render.Loops
import TemplateEngine.Proofs.Function.Piping
import TemplateEngine.Proofs.Markup.Parts
import TemplateEngine.Proofs.Markup.Bindings
import TemplateEngine.Proofs.Render.ReadBack
import TemplateEngine.Proofs.Value.Slices
import TemplateEngine.Proofs.Value.Division
import TemplateEngine.Proofs.Markup.Forms
import TemplateEngine.Proofs.Function.Joining
import TemplateEngine.Proofs.Markup.Stripping
import TemplateEngine.Proofs.Markup.Boundaries
import TemplateEngine.Proofs.Markup.Bytes
import TemplateEngine.Proofs.Expr.Progress
import TemplateEngine.Proofs.Render.Misfits
