import GraphStore.Proofs.Catalog.Changes
import GraphStore.Proofs.Collection.References
import GraphStore.Proofs.Collection.TextSequences
import GraphStore.Proofs.Engine.Acceptance
import GraphStore.Proofs.Engine.Interruption
import GraphStore.Proofs.Engine.Isolation
import GraphStore.Proofs.Engine.Recovery
import GraphStore.Proofs.Engine.Tidiness
import GraphStore.Proofs.Graph.Patches
import GraphStore.Proofs.Query.ByteOrders
import GraphStore.Proofs.Query.Concatenation
import GraphStore.Proofs.Query.Growth
import GraphStore.Proofs.Query.Printing
import GraphStore.Proofs.Query.Separators
import GraphStore.Proofs.Query.ShortPlaces
import GraphStore.Proofs.Record.Kinds
import GraphStore.Proofs.Record.Packing
import GraphStore.Proofs.Server.SharedQueue
import GraphStore.Proofs.Store.Corruption
import GraphStore.Proofs.Store.Lists
import GraphStore.Proofs.Wire.Exchange
import GraphStore.Proofs.Wire.Responses
import GraphStore.Query.Exchange
import GraphStore.Server.Serving
