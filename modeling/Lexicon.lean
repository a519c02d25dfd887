import Lexicon.Comment
import Lexicon.Dictionary.Open
import Lexicon.Dictionary.Read
import Lexicon.Dictionary.Run
import Lexicon.Dump
import Lexicon.Encoding.Decode
import Lexicon.Encoding.Preamble
import Lexicon.Encoding.Label
import Lexicon.Gzip.Unpack
import Lexicon.Header.Basic
import Lexicon.Headword.Escape
import Lexicon.Headword.Optional
import Lexicon.Headword.Tilde
import Lexicon.Headword.Unsorted
import Lexicon.Language.Id
import Lexicon.Main
import Lexicon.Markup.Article
import Lexicon.Source.Lines
import Lexicon.Text.Piece
import Lexicon.Unicode.Alphanumeric
import Lexicon.Unicode.Case
import Lexicon.Proofs.Markup.Leaf
import Lexicon.Proofs.Markup.OutlineLeaves
import Lexicon.Proofs.Markup.Flat
import Lexicon.Proofs.Markup.Settled
import Lexicon.Proofs.Markup.TagsOnly
import Lexicon.Proofs.Encoding.UnitSearch
import Lexicon.Proofs.Source.Delivery
import Lexicon.Proofs.Source.Stretch
import Lexicon.Proofs.Source.LineReading
import Lexicon.Proofs.Dictionary.Opening
import Lexicon.Proofs.Dictionary.PhysicalLines
import Lexicon.Proofs.Comment
import Lexicon.Proofs.Dictionary.Runs
import Lexicon.Proofs.Dictionary.LogicalLines
import Lexicon.Proofs.Headword.Escaping
import Lexicon.Proofs.Markup.EscapedText
import Lexicon.Proofs.Source.Faults
import Lexicon.Proofs.Source.FaultyLines
import Lexicon.Proofs.Dictionary.Retries
import Lexicon.Proofs.Dictionary.Written
import Lexicon.Proofs.Dictionary.HeadwordRuns
import Lexicon.Proofs.Markup.RegionCounts
import Lexicon.Proofs.Markup.Depth
import Lexicon.Proofs.Markup.EventKinds
import Lexicon.Proofs.Markup.Shape
import Lexicon.Proofs.Markup.Comments
import Lexicon.Proofs.Dictionary.EndOfSource
import Lexicon.Proofs.Dump
import Lexicon.Proofs.Headword.Variants
import Lexicon.Proofs.Markup.LiteralText
import Lexicon.Proofs.Headword.Unsorted
import Lexicon.Proofs.Header.Settings
import Lexicon.Proofs.Header.Provisional
import Lexicon.Proofs.Source.ResumedSearch
import Lexicon.Proofs.Language
import Lexicon.Proofs.Markup.Progress
import Lexicon.Proofs.Dictionary.Offsets
