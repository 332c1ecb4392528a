import LogMarkup.BracePair
import LogMarkup.Command
import LogMarkup.Highlight
import LogMarkup.Main
import LogMarkup.Proofs.Literal.Layout
import LogMarkup.Proofs.Literal.Boundary
import LogMarkup.Proofs.Literal.Decomposition
import LogMarkup.Proofs.Literal.Grammar
import LogMarkup.Proofs.Literal.Interpolation
import LogMarkup.Proofs.Text.Boundary
import LogMarkup.Proofs.Expression.Lexeme
import LogMarkup.Proofs.Expression.Placement
import LogMarkup.Proofs.Expression.Scanner
import LogMarkup.Proofs.Expression.Printing
import LogMarkup.Proofs.Call.Extent
import LogMarkup.Proofs.Call.Cover
import LogMarkup.Proofs.BracePair.Content
import LogMarkup.Proofs.BracePair.Hole
import LogMarkup.Proofs.Message.Escape
import LogMarkup.Proofs.Message.Covering
import LogMarkup.Proofs.BracePair.Document
import LogMarkup.Proofs.Source.Text
import LogMarkup.Proofs.Message.Property
import LogMarkup.Proofs.Message.Written
import LogMarkup.Proofs.Message.Rendering
import LogMarkup.Proofs.Expression.Rendering
import LogMarkup.Proofs.Message.Source
import LogMarkup.Proofs.Message.Tiling
import LogMarkup.Proofs.Highlight.Selection
import LogMarkup.Proofs.Highlight.Placement
import LogMarkup.Proofs.Literal.Prefix
import LogMarkup.Proofs.Source.Prefix
import LogMarkup.Proofs.Source.Join
import LogMarkup.Proofs.Source.Translation
import LogMarkup.Proofs.BracePair.Window
import LogMarkup.Proofs.BracePair.Property
import LogMarkup.Proofs.Call.Walk
import LogMarkup.Proofs.Call.Nesting
import LogMarkup.Proofs.Call.Join
import LogMarkup.Proofs.Highlight.Call
import LogMarkup.Proofs.Checked.Basic
import LogMarkup.Proofs.Checked.Walk
import LogMarkup.Proofs.Checked.Literal
import LogMarkup.Proofs.Checked.Message
import LogMarkup.Proofs.Checked.Mode
import LogMarkup.Proofs.Checked.Expression
import LogMarkup.Proofs.Checked.ClosingBrace
import LogMarkup.Proofs.Checked.Hole
import LogMarkup.Proofs.Checked.Template
import LogMarkup.Proofs.Checked.Window
import LogMarkup.Proofs.Checked.Statement
import LogMarkup.Proofs.Checked.Call
import LogMarkup.Proofs.Checked.BracePair
import LogMarkup.Proofs.Checked.Highlight
import LogMarkup.Proofs.Call.Prefix
import LogMarkup.Proofs.BracePair.Symmetry
import LogMarkup.Proofs.Highlight.Opener
import LogMarkup.Proofs.BracePair.Reach
import LogMarkup.Proofs.Highlight.Walk
import LogMarkup.Proofs.Highlight.Join
import LogMarkup.Proofs.Literal.Join
import LogMarkup.Proofs.Literal.Ahead
import LogMarkup.Proofs.Call.Character
import LogMarkup.Proofs.Call.Replace
import LogMarkup.Proofs.Call.Boundary
import LogMarkup.Proofs.Expression.Detection
import LogMarkup.Proofs.Expression.Extent
import LogMarkup.Proofs.Highlight.Contribution
import LogMarkup.Proofs.Pattern.Ending
