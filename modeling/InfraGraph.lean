import InfraGraph.Api.Http
import InfraGraph.Loader.Script
import InfraGraph.Loader.Session
import InfraGraph.Graph.Scalar
import InfraGraph.Proofs.Loader.Together
import InfraGraph.Proofs.Loader.Fewest
import InfraGraph.Proofs.Listing.Snapshots
import InfraGraph.Proofs.Listing.Backward
import InfraGraph.Proofs.Listing.Issued
import InfraGraph.Proofs.Api.RunEvents
import InfraGraph.Proofs.Feed.Stopping
import InfraGraph.Proofs.Entity.GlobalId
import InfraGraph.Proofs.Api.Limits
import InfraGraph.Proofs.Api.Updates
import InfraGraph.Proofs.Api.Routes
import InfraGraph.Proofs.Api.Fetches
import InfraGraph.Proofs.Api.Faults
import InfraGraph.Proofs.Listing.Mirror
import InfraGraph.Proofs.Activity.Decoding
import InfraGraph.Proofs.Listing.Chronology
import InfraGraph.Proofs.Api.Hierarchy
import InfraGraph.Proofs.Time.Reading
import InfraGraph.Proofs.Loader.Apart
