import SkillAtlas.Main
import SkillAtlas.Proofs.Analysis.Accounting
import SkillAtlas.Proofs.Analysis.Answers
import SkillAtlas.Proofs.Analysis.Outside
import SkillAtlas.Proofs.Analysis.Stages
import SkillAtlas.Proofs.Command.Json
import SkillAtlas.Proofs.Command.Running
import SkillAtlas.Proofs.Decimal.Nearest
import SkillAtlas.Proofs.Decimal.Range
import SkillAtlas.Proofs.Decimal.Sum
import SkillAtlas.Proofs.Distinct
import SkillAtlas.Proofs.Document.Extraction
import SkillAtlas.Proofs.Document.Keys
import SkillAtlas.Proofs.Files.Contents
import SkillAtlas.Proofs.Graph.Acyclic
import SkillAtlas.Proofs.Graph.Adjacency
import SkillAtlas.Proofs.Graph.Build
import SkillAtlas.Proofs.Graph.Cycles
import SkillAtlas.Proofs.Graph.Depth
import SkillAtlas.Proofs.Graph.Distance
import SkillAtlas.Proofs.Graph.Path
import SkillAtlas.Proofs.Graph.Routes
import SkillAtlas.Proofs.Graph.Shortest
import SkillAtlas.Proofs.Graph.SimplePath
import SkillAtlas.Proofs.Graph.Survey
import SkillAtlas.Proofs.Graph.Walk
import SkillAtlas.Proofs.Grouping.Answers
import SkillAtlas.Proofs.Grouping.Bases
import SkillAtlas.Proofs.Grouping.Chains
import SkillAtlas.Proofs.Grouping.Confidence
import SkillAtlas.Proofs.Grouping.Documents
import SkillAtlas.Proofs.Grouping.Family
import SkillAtlas.Proofs.Grouping.Leftover
import SkillAtlas.Proofs.Grouping.Namesakes
import SkillAtlas.Proofs.Grouping.Order
import SkillAtlas.Proofs.Grouping.Partition
import SkillAtlas.Proofs.Grouping.Patterns
import SkillAtlas.Proofs.Grouping.Proposals
import SkillAtlas.Proofs.Grouping.Relabel
import SkillAtlas.Proofs.Grouping.Reported
import SkillAtlas.Proofs.Grouping.Satellites
import SkillAtlas.Proofs.Grouping.Search
import SkillAtlas.Proofs.Grouping.Sequence
import SkillAtlas.Proofs.Grouping.Starts
import SkillAtlas.Proofs.Grouping.Sweep
import SkillAtlas.Proofs.Grouping.Variants
import SkillAtlas.Proofs.Line.Actions
import SkillAtlas.Proofs.Line.Arguments
import SkillAtlas.Proofs.Line.Attributes
import SkillAtlas.Proofs.Line.Calls
import SkillAtlas.Proofs.Line.Finding
import SkillAtlas.Proofs.Line.LetterCase
import SkillAtlas.Proofs.Line.Reading
import SkillAtlas.Proofs.Line.Written
import SkillAtlas.Proofs.Line.WrittenCalls
import SkillAtlas.Proofs.Line.WrittenMarks
import SkillAtlas.Proofs.Naming.Readable
import SkillAtlas.Proofs.Naming.Satellites
import SkillAtlas.Proofs.Naming.Suffixes
import SkillAtlas.Proofs.Report.Json
import SkillAtlas.Proofs.Report.Missing
import SkillAtlas.Proofs.Report.Ranking
import SkillAtlas.Proofs.Report.Statistics
import SkillAtlas.Proofs.Settings.Storing
import SkillAtlas.Proofs.Template.Accepted
import SkillAtlas.Proofs.Template.Alike
import SkillAtlas.Proofs.Template.Duplicates
import SkillAtlas.Proofs.Template.Gathered
import SkillAtlas.Proofs.Template.Points
import SkillAtlas.Proofs.Template.Storage
import SkillAtlas.Proofs.Template.Symmetry
import SkillAtlas.Proofs.Template.Textual
import SkillAtlas.Proofs.Template.Usual
import SkillAtlas.Proofs.Text.Ascii
import SkillAtlas.Proofs.Text.Joined
import SkillAtlas.Proofs.Text.Pieces
import SkillAtlas.Proofs.Units.Category
import SkillAtlas.Proofs.Units.Growth
import SkillAtlas.Proofs.Units.Score
import SkillAtlas.Proofs.UserSettings
import SkillAtlas.Proofs.Value.Json
import SkillAtlas.Proofs.Value.Layers
import SkillAtlas.Proofs.Value.Linked
import SkillAtlas.Proofs.Value.Overlay
import SkillAtlas.Proofs.Value.Paths
import SkillAtlas.Proofs.Value.Shape
import SkillAtlas.Proofs.Vocabulary.Extension
import SkillAtlas.Proofs.Vocabulary.Overrides
import SkillAtlas.Proofs.Yaml.Composing
import SkillAtlas.Proofs.Yaml.Numbering
import SkillAtlas.Proofs.Yaml.Parts
import SkillAtlas.Proofs.Yaml.Refusals
import SkillAtlas.Proofs.Yaml.Scanning
import SkillAtlas.Proofs.Yaml.Sharing
import SkillAtlas.Proofs.Yaml.Tidy
import SkillAtlas.Template.Load
import SkillAtlas.Vocabulary.Packaged
