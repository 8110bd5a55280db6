import ApiReference.Declaration.Graph
import ApiReference.Log.Setup
import ApiReference.Main
import ApiReference.Service
import ApiReference.Proofs.Finished
import ApiReference.Proofs.FlattenedTypes
import ApiReference.Proofs.PageLookup
import ApiReference.Proofs.PageTags
import ApiReference.Proofs.PageText
import ApiReference.Proofs.ParameterFields
import ApiReference.Proofs.RoundTrip
import ApiReference.Proofs.KeptWords
import ApiReference.Proofs.LoadedSettings
import ApiReference.Proofs.OverviewEntries
import ApiReference.Proofs.OverviewPages
import ApiReference.Proofs.SitePaths
import ApiReference.Proofs.TakenLocations
import ApiReference.Proofs.StrippedLinks
import ApiReference.Proofs.CallLines
import ApiReference.Proofs.DescribedBlocks
import ApiReference.Proofs.DescribedSignatures
import ApiReference.Proofs.FunctionEntries
import ApiReference.Proofs.FencedLines
import ApiReference.Proofs.ExampleCode
import ApiReference.Proofs.WrittenTags
import ApiReference.Proofs.OwnEntries
import ApiReference.Proofs.EscapedSigns
import ApiReference.Proofs.FrontmatterValues
import ApiReference.Proofs.TableCells
import ApiReference.Proofs.InputShapes
import ApiReference.Proofs.KeptTypeParts
import ApiReference.Proofs.LoadedProjects
import ApiReference.Proofs.PageFolders
import ApiReference.Proofs.FinalStops
import ApiReference.Proofs.LiteralSpans
import ApiReference.Proofs.IndexPage
