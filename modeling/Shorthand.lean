import Shorthand.Abbreviation.Attributes
import Shorthand.Abbreviation.Bracket
import Shorthand.Abbreviation.Extract
import Shorthand.Abbreviation.Filter
import Shorthand.Abbreviation.Grammar
import Shorthand.Abbreviation.Scan
import Shorthand.Abbreviation.Token
import Shorthand.Abbreviation.Tokenize
import Shorthand.Abbreviation.Valid
import Shorthand.Completion.Candidate
import Shorthand.Completion.Noise
import Shorthand.Completion.Vocabulary
import Shorthand.Data.Binary64
import Shorthand.Data.Dict
import Shorthand.Data.Json.Reader
import Shorthand.Data.Json.Token
import Shorthand.Data.Moment
import Shorthand.Data.ReadFault
import Shorthand.Data.Value
import Shorthand.Data.Yaml.Merge
import Shorthand.Data.Yaml.Node
import Shorthand.Data.Yaml.Plain
import Shorthand.Data.Yaml.Reader
import Shorthand.Data.Yaml.Scalar
import Shorthand.Data.Yaml.ScalarText
import Shorthand.Data.Yaml.Scanner
import Shorthand.Data.Yaml.Shape
import Shorthand.Data.Yaml.Token
import Shorthand.Dialect.Family
import Shorthand.Dialect.Inheritance
import Shorthand.Dialect.LanguageId
import Shorthand.Expansion.Addon
import Shorthand.Expansion.Config
import Shorthand.Expansion.Engine
import Shorthand.Expansion.Lorem
import Shorthand.Expansion.Profile
import Shorthand.Expansion.TabStop
import Shorthand.Extensions.Load
import Shorthand.Extensions.Snapshot
import Shorthand.Extensions.Store
import Shorthand.Failure
import Shorthand.Files.Authority
import Shorthand.Files.Disk
import Shorthand.Files.Path
import Shorthand.Files.Uri
import Shorthand.Proofs.Abbreviation.Block
import Shorthand.Proofs.Abbreviation.Paired
import Shorthand.Proofs.Abbreviation.Place
import Shorthand.Proofs.Abbreviation.Sentence
import Shorthand.Proofs.Completion.OwnSnippet
import Shorthand.Proofs.Completion.Suggestions
import Shorthand.Proofs.Completion.Target
import Shorthand.Proofs.Extensions.Traffic
import Shorthand.Proofs.Server.Reload
import Shorthand.Proofs.Text.Column
import Shorthand.Proofs.Text.Run
import Shorthand.Server.AbbreviationSupport
import Shorthand.Server.Capability
import Shorthand.Server.Command
import Shorthand.Server.DocumentDialect
import Shorthand.Server.Item
import Shorthand.Server.SaveHook
import Shorthand.Server.Session
import Shorthand.Server.Workspace
import Shorthand.Settings
import Shorthand.Text.Basic
import Shorthand.Text.Casing
import Shorthand.Text.Class
import Shorthand.Text.Digits
import Shorthand.Text.Letters
import Shorthand.Text.Lines
import Shorthand.Text.Lowercase
import Shorthand.Text.Quoted
import Shorthand.Text.Ranges
import Shorthand.Text.Unprintable
import Shorthand.Text.Utf16
import Shorthand.Text.Utf8
import Shorthand.Proofs.Abbreviation.AttributeList
import Shorthand.Proofs.Abbreviation.Piece
import Shorthand.Proofs.Abbreviation.Markup
import Shorthand.Proofs.Server.Agreement
import Shorthand.Proofs.Expansion.LoremMatch
import Shorthand.Proofs.Expansion.LoremTokens
import Shorthand.Proofs.Expansion.LoremPlain
import Shorthand.Proofs.Expansion.LoremWrap
import Shorthand.Proofs.Abbreviation.Verdict
import Shorthand.Proofs.Dialect.Ancestry
import Shorthand.Proofs.Extensions.Nearest
import Shorthand.Proofs.Text.LineEnd
import Shorthand.Proofs.Abbreviation.BeforeCursor
import Shorthand.Proofs.Completion.Locality
import Shorthand.Proofs.Data.LastEntry
import Shorthand.Proofs.Data.TextKeyed
import Shorthand.Proofs.Expansion.OptionNames
import Shorthand.Proofs.Expansion.Layers
import Shorthand.Proofs.Expansion.LiteralDollar
import Shorthand.Proofs.Expansion.LoadedProfile
import Shorthand.Proofs.Extensions.Loading
import Shorthand.Proofs.Extensions.Outcome
import Shorthand.Proofs.Files.PathText
import Shorthand.Proofs.Files.Write
import Shorthand.Proofs.Server.Freshness
import Shorthand.Proofs.Extensions.Section
import Shorthand.Proofs.Extensions.Source
import Shorthand.Proofs.Text.Trim
import Shorthand.Proofs.Abbreviation.EscapePair
import Shorthand.Proofs.Abbreviation.FilterSuffix
import Shorthand.Proofs.Abbreviation.Escaping
import Shorthand.Proofs.Abbreviation.Span
import Shorthand.Proofs.Text.Numeral
import Shorthand.Proofs.Abbreviation.Joining
import Shorthand.Proofs.Abbreviation.Group
import Shorthand.Proofs.Abbreviation.StylesheetPlus
import Shorthand.Proofs.Extensions.RawMarkup
import Shorthand.Proofs.Expansion.Pass
import Shorthand.Proofs.Expansion.Rendered
import Shorthand.Proofs.Abbreviation.Decoded
import Shorthand.Proofs.Completion.TypedLabel
import Shorthand.Proofs.Text.CodeUnit
import Shorthand.Proofs.Data.FirstOccurrence
import Shorthand.Proofs.Expansion.CurrentNames
import Shorthand.Proofs.Expansion.AddonOrder
import Shorthand.Proofs.Expansion.Field
import Shorthand.Proofs.Expansion.Trace
import Shorthand.Proofs.Expansion.Removal
import Shorthand.Proofs.Abbreviation.LongestSuffix
import Shorthand.Proofs.Server.RankOrder
import Shorthand.Proofs.Server.Isolation
import Shorthand.Proofs.Abbreviation.Depth
import Shorthand.Proofs.Server.Notification
