import Woodland.Binary.Conversion
import Woodland.Binary.Format
import Woodland.Binary.Word
import Woodland.CommandLine.Options
import Woodland.CommandLine.Session
import Woodland.Decimal.Digit
import Woodland.Decimal.Notation
import Woodland.Decimal.Numeral
import Woodland.Decimal.Shortest
import Woodland.Document.Grammar
import Woodland.Document.Scene
import Woodland.Document.Settings
import Woodland.Document.SettingsFile
import Woodland.Edit
import Woodland.Error
import Woodland.Files.Access
import Woodland.Files.Fault
import Woodland.Files.FileTree
import Woodland.Files.Path
import Woodland.Forest.Basic
import Woodland.Forest.Plot
import Woodland.Forest.Settings
import Woodland.Forest.Update
import Woodland.Geometry.Matrix
import Woodland.Geometry.Transform
import Woodland.Geometry.Vector
import Woodland.Geometry.View
import Woodland.Grammar.Basic
import Woodland.Grammar.Expansion
import Woodland.Grammar.Species
import Woodland.Journal
import Woodland.Json.Fields
import Woodland.Json.Number
import Woodland.Json.Printer
import Woodland.Json.Reader
import Woodland.Json.Value
import Woodland.Main
import Woodland.Proofs.CommandLine.ArgumentGroups
import Woodland.Proofs.CommandLine.Exchanges
import Woodland.Proofs.CommandLine.NumberTexts
import Woodland.Proofs.CommandLine.OptionOrder
import Woodland.Proofs.CommandLine.ParameterOrder
import Woodland.Proofs.CommandLine.Runs
import Woodland.Proofs.Documents.Lexemes
import Woodland.Proofs.Documents.Numerals
import Woodland.Proofs.Documents.Overlays
import Woodland.Proofs.Documents.Reading
import Woodland.Proofs.Documents.Records
import Woodland.Proofs.Documents.SavedSettings
import Woodland.Proofs.Documents.SettingsDocuments
import Woodland.Proofs.Documents.SingleNumbers
import Woodland.Proofs.Drawing.Brackets
import Woodland.Proofs.Drawing.Depth
import Woodland.Proofs.Drawing.Groups
import Woodland.Proofs.Drawing.Levels
import Woodland.Proofs.Drawing.Meshes
import Woodland.Proofs.Drawing.OpenSegments
import Woodland.Proofs.Drawing.Skeleton
import Woodland.Proofs.Drawing.Standing
import Woodland.Proofs.Drawing.Stepping
import Woodland.Proofs.Drawing.Taper
import Woodland.Proofs.Edits
import Woodland.Proofs.Files.Contents
import Woodland.Proofs.Frames.Accounting
import Woodland.Proofs.Frames.History
import Woodland.Proofs.Frames.InstanceBytes
import Woodland.Proofs.Frames.Orbits
import Woodland.Proofs.Frames.Rendering
import Woodland.Proofs.Geometry.ExactFrames
import Woodland.Proofs.Geometry.Rotations
import Woodland.Proofs.Numbers.DoubleRounding
import Woodland.Proofs.Numbers.FloatBits
import Woodland.Proofs.Numbers.Fractions
import Woodland.Proofs.Numbers.LeafCount
import Woodland.Proofs.Numbers.Nearest
import Woodland.Proofs.Numbers.OrderedScalars
import Woodland.Proofs.Numbers.PowersOfTen
import Woodland.Proofs.Numbers.Quotients
import Woodland.Proofs.Numbers.RoundingOrder
import Woodland.Proofs.Numbers.ShortestDecimals
import Woodland.Proofs.Numbers.SingleFormat
import Woodland.Proofs.Numbers.SingleLaws
import Woodland.Proofs.Numbers.SingleOrder
import Woodland.Proofs.Numbers.SinglePattern
import Woodland.Proofs.Numbers.SingleResults
import Woodland.Proofs.Numbers.SingleScale
import Woodland.Proofs.Planting.Candidates
import Woodland.Proofs.Planting.Changes
import Woodland.Proofs.Planting.Faults
import Woodland.Proofs.Planting.LeafDensities
import Woodland.Proofs.Planting.NamedChanges
import Woodland.Proofs.Planting.NamedValues
import Woodland.Proofs.Planting.Progress
import Woodland.Proofs.Planting.Refusals
import Woodland.Proofs.Planting.Reseeding
import Woodland.Proofs.Planting.Sites
import Woodland.Proofs.Planting.Soundness
import Woodland.Proofs.Planting.Targets
import Woodland.Proofs.Planting.Trees
import Woodland.Proofs.Planting.Twins
import Woodland.Proofs.Planting.ValidSettings
import Woodland.Proofs.Planting.ValidShapes
import Woodland.Proofs.Random.Draws
import Woodland.Proofs.Random.Ranges
import Woodland.Proofs.Random.Width
import Woodland.Proofs.Results
import Woodland.Proofs.Words.BalancedGrammar
import Woodland.Proofs.Words.CappedExpansion
import Woodland.Proofs.Words.ExpansionLength
import Woodland.Proofs.Words.ExpansionReports
import Woodland.Proofs.Words.Nesting
import Woodland.Proofs.Words.OpenPath
import Woodland.Proofs.Words.Rewriting
import Woodland.Proofs.Words.Rooted
import Woodland.Proofs.Words.SpeciesExpansion
import Woodland.Proofs.Words.SpeciesGrowth
import Woodland.Proofs.Words.SpeciesSymbols
import Woodland.Random.ChaCha
import Woodland.Random.Generator
import Woodland.Random.Range
import Woodland.Scalar
import Woodland.Scene.Camera
import Woodland.Scene.FrameCount
import Woodland.Scene.InstanceBatch
import Woodland.Scene.Instruction
import Woodland.Scene.Renderer
import Woodland.Tree.Basic
import Woodland.Tree.Leaf
import Woodland.Tree.Parameter
import Woodland.Tree.Shape
import Woodland.Tree.Turtle
