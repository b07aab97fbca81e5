import ArrayImage.BitField
import ArrayImage.Bytes
import ArrayImage.CommandLine
import ArrayImage.Compile
import ArrayImage.Container.Image
import ArrayImage.Container.NameTable
import ArrayImage.Container.Reader
import ArrayImage.Description
import ArrayImage.Description.Names
import ArrayImage.Diagnostic
import ArrayImage.Dma.Block
import ArrayImage.Dma.Chain
import ArrayImage.Dma.Descriptor
import ArrayImage.Fault
import ArrayImage.FileTree
import ArrayImage.Json.Decode
import ArrayImage.Json.Document
import ArrayImage.Json.Number
import ArrayImage.Json.Reader
import ArrayImage.Loading
import ArrayImage.Main
import ArrayImage.Options
import ArrayImage.Path
import ArrayImage.Program.Header
import ArrayImage.Program.Image
import ArrayImage.Program.Linking
import ArrayImage.Program.Reader
import ArrayImage.Proofs.Abridgement
import ArrayImage.Proofs.Acceptance
import ArrayImage.Proofs.Address
import ArrayImage.Proofs.Alignment
import ArrayImage.Proofs.Arguments
import ArrayImage.Proofs.BitField
import ArrayImage.Proofs.Bytes
import ArrayImage.Proofs.Clean
import ArrayImage.Proofs.Clearing
import ArrayImage.Proofs.Coalescing
import ArrayImage.Proofs.Combination
import ArrayImage.Proofs.Container
import ArrayImage.Proofs.Containment
import ArrayImage.Proofs.Culprit
import ArrayImage.Proofs.Decoding
import ArrayImage.Proofs.Descriptions
import ArrayImage.Proofs.DescriptorWords
import ArrayImage.Proofs.Documents
import ArrayImage.Proofs.Faults
import ArrayImage.Proofs.Files
import ArrayImage.Proofs.Gathering
import ArrayImage.Proofs.Grouping
import ArrayImage.Proofs.Independence
import ArrayImage.Proofs.Layout
import ArrayImage.Proofs.Links
import ArrayImage.Proofs.Lists
import ArrayImage.Proofs.Locality
import ArrayImage.Proofs.Nodes
import ArrayImage.Proofs.Numbering
import ArrayImage.Proofs.PacketRoutes
import ArrayImage.Proofs.Packing
import ArrayImage.Proofs.Placement
import ArrayImage.Proofs.Ports
import ArrayImage.Proofs.Preconditions
import ArrayImage.Proofs.ProgramReading
import ArrayImage.Proofs.ProgramWords
import ArrayImage.Proofs.Programming
import ArrayImage.Proofs.Protocol
import ArrayImage.Proofs.Recovery
import ArrayImage.Proofs.Rejection
import ArrayImage.Proofs.Relocation
import ArrayImage.Proofs.Reports
import ArrayImage.Proofs.Reset
import ArrayImage.Proofs.Retention
import ArrayImage.Proofs.Rules
import ArrayImage.Proofs.Script
import ArrayImage.Proofs.ShimMux
import ArrayImage.Proofs.Skeleton
import ArrayImage.Proofs.Slots
import ArrayImage.Proofs.Stepwise
import ArrayImage.Proofs.StreamWord
import ArrayImage.Proofs.Switching
import ArrayImage.Proofs.Uniformity
import ArrayImage.Proofs.Validity
import ArrayImage.Proofs.WriteLog
import ArrayImage.RegisterMap
import ArrayImage.Schema.Device
import ArrayImage.Schema.Shape
import ArrayImage.Schema.Value
import ArrayImage.Script
import ArrayImage.Section
import ArrayImage.Stream.Port
import ArrayImage.Stream.Routing
import ArrayImage.Stream.Word
import ArrayImage.Text.ExtendingMark
import ArrayImage.Text.Number
import ArrayImage.Text.Quoted
import ArrayImage.Text.Shortest
import ArrayImage.Text.Terminal
import ArrayImage.Text.Unprintable
import ArrayImage.TileId
import ArrayImage.TileSetup
import ArrayImage.Validation
import ArrayImage.WriteLog
import ArrayImage.Yaml.Cursor
import ArrayImage.Yaml.Decode
import ArrayImage.Yaml.Lexer
import ArrayImage.Yaml.Node
import ArrayImage.Yaml.Reader
import ArrayImage.Yaml.Scalar
import ArrayImage.Yaml.Token
