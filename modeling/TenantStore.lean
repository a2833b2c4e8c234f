import TenantStore.Proofs.Cypher.Like
import TenantStore.Proofs.Cypher.RoundTrip
import TenantStore.Proofs.Document.Pages
import TenantStore.Proofs.Document.Refinement
import TenantStore.Proofs.Document.Rendering
import TenantStore.Proofs.Filter.Building
import TenantStore.Proofs.Filter.Depth
import TenantStore.Proofs.Graph.Closed
import TenantStore.Proofs.Graph.Replies
import TenantStore.Proofs.Outcome.Chain
import TenantStore.Proofs.Paging.Limits
import TenantStore.Proofs.Paging.Report
import TenantStore.Proofs.Paging.Sort
import TenantStore.Proofs.Repository.Agreement
import TenantStore.Proofs.Repository.Batch
import TenantStore.Proofs.Service.History
import TenantStore.Proofs.Stream.Contract
import TenantStore.Service.Config
import TenantStore.Stream.Relational
