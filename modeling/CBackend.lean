import CBackend.Main
import CBackend.Files.Disk
import CBackend.Proofs.Success
import CBackend.Proofs.Lowering.Emission
import CBackend.Proofs.C.Names
import CBackend.Proofs.Lowering.ParameterNames
import CBackend.Proofs.Lowering.Declarations
import CBackend.Proofs.Lowering.Usage
import CBackend.Proofs.Execution.Bodies
import CBackend.Proofs.Execution.Sight
import CBackend.Proofs.Execution.Definitions
import CBackend.Proofs.Execution.Entry
import CBackend.Proofs.Execution.Correspondence
import CBackend.Proofs.Execution.Simulation
import CBackend.Proofs.Execution.Preservation
import CBackend.Proofs.Lowering.TextRegions
import CBackend.Proofs.Lowering.Mentions
import CBackend.Proofs.Lowering.Legibility
import CBackend.Proofs.Lowering.Closedness
import CBackend.Proofs.Lowering.Hiding
import CBackend.Proofs.TypeStore.Embedding
import CBackend.Proofs.TypeStore.Order
import CBackend.Proofs.TypeStore.Queries
import CBackend.Proofs.TypeStore.History
import CBackend.Proofs.TypeStore.Growth
import CBackend.Proofs.Program.History
import CBackend.Proofs.Program.Indexes
import CBackend.Proofs.C.Tokens
import CBackend.Proofs.C.Reading
import CBackend.Proofs.C.Types
import CBackend.Proofs.C.Spelled
import CBackend.Proofs.C.Statements
import CBackend.Proofs.Lowering.DeclarationLayers
import CBackend.Proofs.Lowering.DeclaredTypes
import CBackend.Proofs.Lowering.Spelling
import CBackend.Proofs.Lowering.HeaderOrder
import CBackend.Proofs.Lowering.HeaderCompleteness
import CBackend.Proofs.Lowering.Lowerable
import CBackend.Proofs.Lowering.CheckedSites
import CBackend.Proofs.Lowering.Acceptance
import CBackend.Proofs.Description.Meaning
import CBackend.Proofs.Description.Resolution
import CBackend.Proofs.Description.Representation
import CBackend.Proofs.Description.Loading
import CBackend.Proofs.Description.Building
import CBackend.Proofs.Description.Operations
import CBackend.Proofs.Description.Recovery
import CBackend.Proofs.TypeStore.Composition
import CBackend.Proofs.TypeStore.Outline
import CBackend.Proofs.TypeStore.Brackets
import CBackend.Proofs.Description.Snapshots
import CBackend.Proofs.Description.Reordering
import CBackend.Proofs.Description.StructOrder
import CBackend.Proofs.Output.FaultyFiles
import CBackend.Proofs.Output.Atomicity
import CBackend.Proofs.TypeStore.Bare
import CBackend.Proofs.Lowering.Bare
import CBackend.Proofs.TypeStore.PointerSizes
import CBackend.Proofs.Program.PointerSizes
import CBackend.Proofs.Failure
import CBackend.Proofs.Lowering.Causes
import CBackend.Proofs.Description.Causes
import CBackend.Proofs.C.Canonical
import CBackend.Proofs.Lowering.Prototypes
import CBackend.Proofs.Program.Stability
import CBackend.Proofs.TypeStore.InPlace
import CBackend.Proofs.TypeStore.Walks
import CBackend.Proofs.Json.Spelling
import CBackend.Proofs.Json.Reading
import CBackend.Proofs.Json.Records
import CBackend.Proofs.Description.Rendering
import CBackend.Proofs.TypeStore.Closures
import CBackend.Proofs.Lowering.ParameterRenaming
import CBackend.Proofs.Lowering.References
import CBackend.Proofs.Lowering.Nesting
import CBackend.Proofs.Lowering.Cycles
