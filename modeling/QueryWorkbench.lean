import QueryWorkbench.Analysis.Grammar
import QueryWorkbench.Analysis.Paren
import QueryWorkbench.Analysis.Report
import QueryWorkbench.Analysis.Scan
import QueryWorkbench.Analysis.Scrub
import QueryWorkbench.Assoc
import QueryWorkbench.Check.Issue
import QueryWorkbench.Check.Structure
import QueryWorkbench.CommandLine.Arguments
import QueryWorkbench.CommandLine.Command
import QueryWorkbench.CommandLine.Run
import QueryWorkbench.CommandLine.Screen
import QueryWorkbench.Decimal.Plain
import QueryWorkbench.Decimal.Shortest
import QueryWorkbench.Document.Reader
import QueryWorkbench.Document.Validated
import QueryWorkbench.Draft.Action
import QueryWorkbench.Draft.Basic
import QueryWorkbench.Draft.ItemClause
import QueryWorkbench.Draft.Join
import QueryWorkbench.Draft.Perform
import QueryWorkbench.Failure
import QueryWorkbench.Highlight.Matcher
import QueryWorkbench.Highlight.Selection
import QueryWorkbench.JoinPath.Basic
import QueryWorkbench.JoinPath.Finder
import QueryWorkbench.JoinPath.Search
import QueryWorkbench.Json.Basic
import QueryWorkbench.Json.Display
import QueryWorkbench.Json.Parser
import QueryWorkbench.Json.Printer
import QueryWorkbench.Main
import QueryWorkbench.Outcome
import QueryWorkbench.Pattern.Basic
import QueryWorkbench.Pattern.Search
import QueryWorkbench.Query.Basic
import QueryWorkbench.Query.Fold
import QueryWorkbench.Query.JoinGroup
import QueryWorkbench.Query.Keys
import QueryWorkbench.Query.Reader
import QueryWorkbench.Query.TableAlias
import QueryWorkbench.Query.Writer
import QueryWorkbench.Schema.Build
import QueryWorkbench.Schema.Catalog
import QueryWorkbench.Schema.Document
import QueryWorkbench.Schema.Graph
import QueryWorkbench.Schema.NodeName
import QueryWorkbench.Settings
import QueryWorkbench.Sql.Dialect
import QueryWorkbench.Sql.Format
import QueryWorkbench.Sql.Generate
import QueryWorkbench.Sql.Generator
import QueryWorkbench.Sql.Layout
import QueryWorkbench.Sql.Literal
import QueryWorkbench.Text.Blank
import QueryWorkbench.Text.Digit
import QueryWorkbench.Text.Dotted
import QueryWorkbench.Text.Doubled
import QueryWorkbench.Text.Hex
import QueryWorkbench.Text.Integer
import QueryWorkbench.Text.Keyword
import QueryWorkbench.Text.LowerCase
import QueryWorkbench.Text.Printable
import QueryWorkbench.Text.Quoted
import QueryWorkbench.Text.Ranges
import QueryWorkbench.Text.Word
import QueryWorkbench.Proofs.JoinPath.Levels
import QueryWorkbench.Proofs.JoinPath.Shortest
import QueryWorkbench.Proofs.Draft.Growth
import QueryWorkbench.Proofs.Check.Growth
import QueryWorkbench.Proofs.Draft.Coherent
import QueryWorkbench.Proofs.Sql.Aliases
import QueryWorkbench.Proofs.Check.Aliases
import QueryWorkbench.Proofs.Pattern.Matching
import QueryWorkbench.Proofs.Pattern.Keywords
import QueryWorkbench.Proofs.Pattern.Finding
import QueryWorkbench.Proofs.Analysis.TableMatch
import QueryWorkbench.Proofs.Analysis.Openings
import QueryWorkbench.Proofs.Analysis.ConditionMatch
import QueryWorkbench.Proofs.Analysis.SelectText
import QueryWorkbench.Proofs.Analysis.Findings
import QueryWorkbench.Proofs.Analysis.Scrubbing
import QueryWorkbench.Proofs.Sql.Scrubbed
import QueryWorkbench.Proofs.Sql.Literal
import QueryWorkbench.Proofs.Sql.Phrases
import QueryWorkbench.Proofs.Sql.Harmless
import QueryWorkbench.Proofs.Sql.SelectShape
import QueryWorkbench.Proofs.Analysis.RoundTrip
import QueryWorkbench.Proofs.JoinPath.Enumeration
import QueryWorkbench.Proofs.JoinPath.Arrival
import QueryWorkbench.Proofs.JoinPath.DepthLimit
import QueryWorkbench.Proofs.JoinPath.Neighbourhood
import QueryWorkbench.Proofs.JoinPath.Frontier
import QueryWorkbench.Proofs.Draft.Run
import QueryWorkbench.Proofs.Draft.Joined
import QueryWorkbench.Proofs.Draft.AliasReuse
import QueryWorkbench.Proofs.Draft.Numbering
import QueryWorkbench.Proofs.Draft.Failing
import QueryWorkbench.Proofs.Draft.Retargeting
import QueryWorkbench.Proofs.Sql.Layout
import QueryWorkbench.Proofs.Query.Levels
import QueryWorkbench.Proofs.Query.Emptied
import QueryWorkbench.Proofs.Sql.Stripped
import QueryWorkbench.Proofs.Sql.Confined
import QueryWorkbench.Proofs.Document.Integers
import QueryWorkbench.Proofs.Document.Mixture
import QueryWorkbench.Proofs.Query.RoundTrip
import QueryWorkbench.Proofs.Analysis.Ceilings
import QueryWorkbench.Proofs.Pattern.Locality
import QueryWorkbench.Proofs.Pattern.Excerpt
import QueryWorkbench.Proofs.Pattern.Reading
import QueryWorkbench.Proofs.Analysis.Enclosed
import QueryWorkbench.Proofs.Analysis.Calls
import QueryWorkbench.Proofs.Analysis.Nesting
import QueryWorkbench.Proofs.Analysis.Mentions
import QueryWorkbench.Proofs.Analysis.Reported
import QueryWorkbench.Proofs.Analysis.Truncation
import QueryWorkbench.Proofs.Analysis.DerivedTables
import QueryWorkbench.Proofs.Analysis.QueryNames
import QueryWorkbench.Proofs.Highlight.Matcher
import QueryWorkbench.Proofs.Highlight.Selection
import QueryWorkbench.Proofs.Schema.Build
import QueryWorkbench.Proofs.Analysis.Readings
import QueryWorkbench.Proofs.Query.AliasNames
import QueryWorkbench.Proofs.Draft.Hops
import QueryWorkbench.Proofs.Draft.ReadBack
import QueryWorkbench.Proofs.Schema.ForeignKeys
import QueryWorkbench.Proofs.Analysis.TwoTables
import QueryWorkbench.Proofs.Schema.ViewEdges
import QueryWorkbench.Proofs.Sql.Normal
import QueryWorkbench.Proofs.Sql.Connectives
import QueryWorkbench.Proofs.Sql.ClauseMatch
import QueryWorkbench.Proofs.Sql.JoinMatch
import QueryWorkbench.Proofs.Sql.Lines
import QueryWorkbench.Proofs.Sql.Statement
import QueryWorkbench.Proofs.Sql.NeutralPhrases
import QueryWorkbench.Proofs.Sql.Formatted
import QueryWorkbench.Proofs.Sql.ShownText
import QueryWorkbench.Proofs.Sql.Rearranged
import QueryWorkbench.Proofs.Draft.PathJoins
import QueryWorkbench.Proofs.Draft.Revision
import QueryWorkbench.Proofs.Text.LetterCase
import QueryWorkbench.Proofs.Pattern.LetterCase
import QueryWorkbench.Proofs.Analysis.LetterCase
import QueryWorkbench.Proofs.Analysis.ReportedNames
import QueryWorkbench.Proofs.Text.Quotation
import QueryWorkbench.Proofs.Sql.QuotedName
import QueryWorkbench.Proofs.Sql.LiteralReading
import QueryWorkbench.Proofs.Analysis.Cleared
import QueryWorkbench.Proofs.Analysis.Unseen
import QueryWorkbench.Proofs.Query.FreshAlias
import QueryWorkbench.Proofs.Sql.SplitJoin
import QueryWorkbench.Proofs.Draft.ManualJoin
import QueryWorkbench.Proofs.Analysis.OpenParens
import QueryWorkbench.Proofs.Analysis.ClosingParen
