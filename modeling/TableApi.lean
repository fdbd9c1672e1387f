import TableApi.Text.Blank
import TableApi.Text.Digit
import TableApi.Text.Case
import TableApi.Text.Utf8
import TableApi.Text.Percent
import TableApi.Text.Split
import TableApi.Text.Count
import TableApi.Text.Sanitize
import TableApi.Binary64.Basic
import TableApi.Binary64.Shortest
import TableApi.Binary64.Extended
import TableApi.Json.Basic
import TableApi.Json.Printer
import TableApi.Json.Written
import TableApi.Json.Token
import TableApi.Json.Parser
import TableApi.Dialect
import TableApi.Error
import TableApi.Text.Cut
import TableApi.Filter.Token
import TableApi.Filter.Opcode
import TableApi.Filter.Expr
import TableApi.Filter.Parser
import TableApi.Filter.Render
import TableApi.Query
import TableApi.Index
import TableApi.Catalog
import TableApi.Relation.Link
import TableApi.View.Projection
import TableApi.View.Basic
import TableApi.Statement
import TableApi.Settings.Basic
import TableApi.Verb
import TableApi.Model
import TableApi.Request
import TableApi.Relation.Order
import TableApi.Relation.Merge
import TableApi.Session
import TableApi.Payload
import TableApi.Command.Scope
import TableApi.Command.Basic
import TableApi.Introspect.Lookup
import TableApi.Introspect.Basic
import TableApi.Describe
import TableApi.Engine
import TableApi.Refresh
import TableApi.Address
import TableApi.Server
import TableApi.Store.Cell
import TableApi.Store.Decimal
import TableApi.Store.Key
import TableApi.Store.Basic
import TableApi.Settings.Load
import TableApi.Proofs.Sql.Marks
import TableApi.Proofs.Sql.Pieces
import TableApi.Proofs.Sql.Fragment
import TableApi.Proofs.Filter.Grammar
import TableApi.Proofs.Filter.Words
import TableApi.Proofs.Filter.Compiled
import TableApi.Proofs.View.Conditions
import TableApi.Proofs.View.Written
import TableApi.Proofs.View.Statements
import TableApi.Proofs.Session.Run
import TableApi.Proofs.Session.Transaction
import TableApi.Proofs.Command.Orderly
import TableApi.Proofs.Engine.Writes
import TableApi.Proofs.Text.Upper
import TableApi.Proofs.Session.All
import TableApi.Proofs.Engine.Access
import TableApi.Proofs.Relation.Countdown
import TableApi.Proofs.Relation.Order
import TableApi.Proofs.Relation.Least
import TableApi.Proofs.Catalog
import TableApi.Proofs.Filter.Keys
import TableApi.Proofs.Filter.Syntax
import TableApi.Proofs.Filter.Written
import TableApi.Proofs.Filter.Padding
import TableApi.Proofs.Filter.Reading
import TableApi.Proofs.Filter.Reference
import TableApi.Proofs.Request.Coherent
import TableApi.Proofs.Request.Views
import TableApi.Proofs.Session.InTurn
import TableApi.Proofs.Command.Scopes
import TableApi.Proofs.Command.Deletes
import TableApi.Proofs.Engine.Deletes
import TableApi.Proofs.Session.Agenda
import TableApi.Proofs.View.Inserts
import TableApi.Proofs.Command.Inserts
import TableApi.Proofs.Engine.Inserts
import TableApi.Proofs.View.Exclusion
import TableApi.Proofs.Json.Grammar
import TableApi.Proofs.Json.Numerals
import TableApi.Proofs.Json.Printed
import TableApi.Proofs.Json.Unordered
import TableApi.Proofs.Relation.Nested
import TableApi.Proofs.Relation.Merge
import TableApi.Proofs.Relation.Gather
import TableApi.Proofs.Relation.Steps
import TableApi.Proofs.Command.Batches
import TableApi.Proofs.Command.Saves
import TableApi.Proofs.Engine.Saves
import TableApi.Proofs.Engine.Updates
import TableApi.Proofs.Request.Addressed
import TableApi.Proofs.Engine.Addressed
import TableApi.Proofs.Filter.Literals
import TableApi.Proofs.Session.Effects
import TableApi.Proofs.Engine.Patches
import TableApi.Proofs.Relation.Copies
import TableApi.Proofs.Reorder
import TableApi.Proofs.Request.Reordered
import TableApi.Proofs.Sql.Like
import TableApi.Proofs.Filter.Sound
import TableApi.Proofs.Filter.Patterns
import TableApi.Proofs.Filter.Fields
import TableApi.Proofs.Filter.Kept
import TableApi.Proofs.Filter.Lists
import TableApi.Proofs.Filter.Comments
import TableApi.Proofs.Relation.Cycles
import TableApi.Proofs.Text.Percent
import TableApi.Proofs.Request.Keys
import TableApi.Proofs.Relation.Lists
import TableApi.Proofs.View.Placeholders
import TableApi.Proofs.Engine.Elements
import TableApi.Proofs.Filter.Parens
import TableApi.Proofs.Filter.Complete
import TableApi.Proofs.Filter.Brackets
import TableApi.Proofs.Filter.Spaced
import TableApi.Proofs.View.Paging
import TableApi.Proofs.Request.Paging
import TableApi.Proofs.Sql.Classes
import TableApi.Proofs.Filter.Classes
import TableApi.Proofs.Settings.Sound
import TableApi.Proofs.Settings.Saved
import TableApi.Proofs.Text.Joined
import TableApi.Proofs.Text.Entries
import TableApi.Proofs.View.Order
import TableApi.Proofs.View.Columns
import TableApi.Proofs.Request.Parameters
import TableApi.Proofs.Settings.Sources
import TableApi.Proofs.Filter.Atoms
import TableApi.Proofs.Sql.Names
import TableApi.Proofs.Text.Parts
import TableApi.Proofs.Session.Interview
import TableApi.Proofs.Introspect.Rows
import TableApi.Proofs.Introspect.Readings
import TableApi.Proofs.Introspect.Shown
